import Sponge.EventLoopDispatch

/-!
# What the outcome of `wait_next_event` tells

A call ends early when the first loop throws, when nobody is interested, or by what
`poll` returned. Everything else goes on to the second loop, also a failure of
`poll` that the `catch` block looks at and drops. What the loop then does is decided
by the first entry that is not idle (`firstReaction`): without one it does nothing
and the call reports success.

It follows when the outcome classifies what happened, and when success means that
some rule was served or removed.
-/

namespace Sponge

namespace EventLoop

open LinkedList (Node Walk)

variable {σ H : Type} {p : Program σ H} {w : World σ} {rules : LinkedList (Rule H)}
  {spare : Nat} {poll : Poll} {timeoutMs : Int}

/-! ## The parts of a call -/

/-- The callback or the cancel function of a rule is called. -/
def Event.triggers : Event σ H → Bool
  | .interest .. => false
  | _ => true

/-- What the second loop of a call has logged. -/
def resultEvents (p : Program σ H) (spare : Nat) (poll : Poll) (timeoutMs : Int)
    (rules : LinkedList (Rule H)) (w : World σ) : List (Event σ H) :=
  (waitNextEvent p spare poll timeoutMs rules w).trace.drop
    (setupLoop p spare rules w).1.events.length

/-- After the first loop no rule was interested. -/
def NothingToPoll (p : Program σ H) (spare : Nat) (rules : LinkedList (Rule H)) (w : World σ) :
    Prop :=
  ∃ setup, setupLoop p spare rules w = (setup, .finished) ∧
    setup.kept.any (·.2.interested) = false

/-- The call has built this vector and polled it, and this was the answer. -/
def Polls (p : Program σ H) (spare : Nat) (poll : Poll) (timeoutMs : Int)
    (rules : LinkedList (Rule H)) (w : World σ) (vector : List PollFd) (answer : PollAnswer) :
    Prop :=
  ∃ setup, setupLoop p spare rules w = (setup, .finished) ∧
    setup.kept.any (·.2.interested) = true ∧ vector = setup.kept.map (·.2.pollfd) ∧
    answer = poll vector timeoutMs

/-- What the second loop does about the first entry that is not idle. -/
def firstReaction (pollfds : List PollFd) : Option Reaction :=
  (pollfds.map PollFd.reaction).find? (· ≠ .idle)

/-! ## The second loop up to the first entry that is not idle -/

theorem serve_of_idle (p : Program σ H) (rule : Node (Rule H)) {e : PollFd}
    (idle : e.reaction = .idle) (w : World σ) : serve p rule e w = ⟨w, [], [], .ok (.next ())⟩ := by
  rw [serve_eq, idle]
  rfl

theorem serve_of_error (p : Program σ H) (rule : Node (Rule H)) {e : PollFd}
    (error : e.reaction = .error) (w : World σ) :
    serve p rule e w = ⟨w, [], [], .error (.threw polledError)⟩ := by
  rw [serve_eq, error]
  rfl

/-- A rule that hangs up or is ready has a function called. -/
theorem Reacts.triggers {rule : Node (Rule H)} {r : Reaction} {events : List (Event σ H)}
    {w' : World σ} {result : Except Abort (LinkedList.Fate Unit)}
    (reacts : Reacts p rule w r events w' result) (acts : r = .hangup ∨ r = .ready) :
    ∃ e ∈ events, e.triggers = true := by
  cases reacts with
  | error | idle => rcases acts with acts | acts <;> cases acts
  | hangup | hangupThrew | callbackThrew | serviced | uninterested | busy | interestThrew =>
      exact ⟨_, List.mem_cons_self .., rfl⟩

theorem firstReaction_cons_of_idle {e : PollFd} (idle : e.reaction = .idle)
    (pollfds : List PollFd) : firstReaction (e :: pollfds) = firstReaction pollfds := by
  simp [firstReaction, idle]

theorem firstReaction_cons_of_ne {e : PollFd} (acts : e.reaction ≠ .idle)
    (pollfds : List PollFd) : firstReaction (e :: pollfds) = some e.reaction := by
  simp [firstReaction, acts]

theorem firstReaction_eq_none {pollfds : List PollFd} :
    firstReaction pollfds = none ↔ ∀ e ∈ pollfds, e.reaction = .idle := by
  simp [firstReaction]

theorem serveAll_cons_of_idle {rule : Node (Rule H)} {e : PollFd} (idle : e.reaction = .idle)
    (entries : List (Node (Rule H) × PollFd)) (w : World σ) :
    serveAll p ((rule, e) :: entries) w = serveAll p entries w := by
  have served := serve_of_idle p rule idle w
  rw [serveAll_cons_of_ok (by rw [served]), served]
  rfl

/-- The service of all rules, by the first entry that is not idle. -/
theorem serveAll_first (p : Program σ H) (entries : List (Node (Rule H) × PollFd))
    (w : World σ) :
    match firstReaction (entries.map (·.2)) with
    | none => serveAll p entries w = ⟨w, [], [], .ok ()⟩
    | some .error => serveAll p entries w = ⟨w, [], [], .error (.threw polledError)⟩
    | some _ => ∃ e ∈ (serveAll p entries w).events, e.triggers = true := by
  induction entries with
  | nil => rfl
  | cons entry entries ih =>
      obtain ⟨rule, e⟩ := entry
      rw [List.map_cons]
      have reacts := serve_reacts p rule e w
      have subset := serve_events_subset p rule e entries w
      cases reaction : e.reaction with
      | idle =>
          rw [firstReaction_cons_of_idle reaction, serveAll_cons_of_idle reaction]
          exact ih
      | error =>
          rw [firstReaction_cons_of_ne (by rw [reaction]; decide), reaction]
          have served := serve_of_error p rule reaction w
          show serveAll p ((rule, e) :: entries) w = _
          rw [serveAll_cons_of_error (by rw [served]), served]
      | hangup | ready =>
          rw [firstReaction_cons_of_ne (by rw [reaction]; decide), reaction]
          obtain ⟨event, logged, triggers⟩ := reacts.triggers (by simp [reaction])
          exact ⟨event, subset logged, triggers⟩

/-! ## A call by its parts -/

theorem outcome_of_nothing (nothing : NothingToPoll p spare rules w) (poll : Poll)
    (timeoutMs : Int) :
    (waitNextEvent p spare poll timeoutMs rules w).outcome = .returned .Exit ∧
      resultEvents p spare poll timeoutMs rules w = [] := by
  obtain ⟨setup, first, nobody⟩ := nothing
  unfold resultEvents
  simp [waitNextEvent, first, nobody]

/-- The second loop, by the first entry that is not idle. -/
theorem resultLoop_first {pollfds : List PollFd} (aligned : rules.nodes.length = pollfds.length)
    (p : Program σ H) (w : World σ) :
    match firstReaction pollfds with
    | none =>
        resultOutcome (resultLoop p pollfds rules w).2 = .returned .Success ∧
          (resultLoop p pollfds rules w).1.events = []
    | some .error =>
        resultOutcome (resultLoop p pollfds rules w).2 = .threw polledError ∧
          (resultLoop p pollfds rules w).1.events = []
    | some _ => ∃ e ∈ (resultLoop p pollfds rules w).1.events, e.triggers = true := by
  have served := serveAll_first p (rules.nodes.zip pollfds) w
  rw [List.map_snd_zip (Nat.le_of_eq aligned.symm)] at served
  rw [resultLoop_events aligned]
  cases first : firstReaction pollfds with
  | none =>
      rw [first] at served
      obtain ⟨results, loop, -⟩ := resultLoop_of_quiet aligned
        (p := p) (w := w) (by rw [served]) (by rw [served])
      rw [loop, served]
      exact ⟨rfl, rfl⟩
  | some reaction =>
      rw [first] at served
      cases reaction with
      | error =>
          have threw : (serveAll p (rules.nodes.zip pollfds) w).result =
              .error (.threw polledError) := by rw [served]
          obtain ⟨results, loop, -⟩ := resultLoop_of_error aligned threw
          rw [loop, served]
          exact ⟨rfl, rfl⟩
      | hangup | ready | idle => exact served

section Polls

variable {vector : List PollFd} {answer : PollAnswer}

theorem outcome_of_answered (polls : Polls p spare poll timeoutMs rules w vector answer)
    {outcome : Outcome} (ends : afterPoll answer = some outcome) :
    (waitNextEvent p spare poll timeoutMs rules w).outcome = outcome ∧
      resultEvents p spare poll timeoutMs rules w = [] := by
  obtain ⟨setup, first, somebody, rfl, rfl⟩ := polls
  unfold resultEvents
  simp [waitNextEvent, first, somebody, ends]

/-- A call that goes on runs the second loop on the reported vector. -/
theorem resultLoop_of_polls (polls : Polls p spare poll timeoutMs rules w vector answer)
    (goesOn : afterPoll answer = none) :
    ∃ (left : LinkedList (Rule H)) (mid : World σ),
      left.nodes.length = (reported vector answer).length ∧
      (waitNextEvent p spare poll timeoutMs rules w).outcome =
        resultOutcome (resultLoop p (reported vector answer) left mid).2 ∧
      resultEvents p spare poll timeoutMs rules w =
        (resultLoop p (reported vector answer) left mid).1.events := by
  obtain ⟨setup, first, somebody, rfl, rfl⟩ := polls
  refine ⟨setup.list, setup.world, setupLoop_aligned first _, ?_, ?_⟩
  · simp [waitNextEvent, first, somebody, goesOn]
  · unfold resultEvents
    simp [waitNextEvent, first, somebody, goesOn]

/-- What happens when a call goes on to the second loop. -/
theorem outcome_of_dispatched (polls : Polls p spare poll timeoutMs rules w vector answer)
    (goesOn : afterPoll answer = none) :
    match firstReaction (reported vector answer) with
    | none =>
        (waitNextEvent p spare poll timeoutMs rules w).outcome = .returned .Success ∧
          resultEvents p spare poll timeoutMs rules w = []
    | some .error =>
        (waitNextEvent p spare poll timeoutMs rules w).outcome = .threw polledError ∧
          resultEvents p spare poll timeoutMs rules w = []
    | some _ => ∃ e ∈ resultEvents p spare poll timeoutMs rules w, e.triggers = true := by
  obtain ⟨left, mid, aligned, outcome, events⟩ := resultLoop_of_polls polls goesOn
  rw [outcome, events]
  exact resultLoop_first aligned p mid

/-- A call that returns from the second loop returns `Success`. -/
theorem success_of_dispatched (polls : Polls p spare poll timeoutMs rules w vector answer)
    (goesOn : afterPoll answer = none) {result : Result}
    (returned : (waitNextEvent p spare poll timeoutMs rules w).outcome = .returned result) :
    result = .Success := by
  obtain ⟨left, mid, -, outcome, -⟩ := resultLoop_of_polls polls goesOn
  rw [outcome] at returned
  generalize (resultLoop p (reported vector answer) left mid).2 = stop at returned
  rcases stop with _ | abort | _
  · cases returned
    rfl
  · cases abort <;> cases returned
  · cases returned

end Polls

/-- A call that returns does so in one of four places. -/
theorem returned_cases {result : Result}
    (returned : (waitNextEvent p spare poll timeoutMs rules w).outcome = .returned result) :
    NothingToPoll p spare rules w ∧ result = .Exit ∨
      ∃ vector answer, Polls p spare poll timeoutMs rules w vector answer ∧
        (toInt answer.call.returnValue = 0 ∧ result = .Timeout ∨
          (toInt answer.call.returnValue < 0 ∧ answer.call.errno = eintr) ∧ result = .Exit ∨
          afterPoll answer = none ∧ result = .Success) := by
  rcases first : setupLoop p spare rules w with ⟨setup, _ | abort | _⟩
  · cases somebody : setup.kept.any (·.2.interested) with
    | false =>
        have nothing : NothingToPoll p spare rules w := ⟨setup, first, somebody⟩
        rw [(outcome_of_nothing nothing poll timeoutMs).1] at returned
        cases returned
        exact .inl ⟨nothing, rfl⟩
    | true =>
        have polls : Polls p spare poll timeoutMs rules w _ _ :=
          ⟨setup, first, somebody, rfl, rfl⟩
        refine .inr ⟨_, _, polls, ?_⟩
        cases ends : afterPoll (poll (setup.kept.map (·.2.pollfd)) timeoutMs) with
        | none => exact .inr (.inr ⟨rfl, success_of_dispatched polls ends returned⟩)
        | some outcome =>
            rw [(outcome_of_answered polls ends).1] at returned
            rcases afterPoll_eq_some ends with ⟨rfl, zero⟩ | ⟨rfl, failed, signal⟩
            · cases returned
              exact .inl ⟨zero, rfl⟩
            · cases returned
              exact .inr (.inl ⟨⟨failed, signal⟩, rfl⟩)
  · cases abort <;> simp [waitNextEvent, first, Abort.outcome] at returned
  · simp [waitNextEvent, first] at returned

/-! ## Classification -/

/-- The exceptions that are a `std::runtime_error`; a `unix_error` is one through
`std::system_error`. -/
def runtimeErrors : Exn → Prop
  | .runtimeError _ => True
  | .unixError _ _ => True
  | _ => False

/-- The outcome of a call tells its course: `Exit` that there was nothing to poll or a
signal came, `Timeout` that `poll` returned 0, an exception that `poll` failed, before
any rule was triggered, and `Success` that it reported something. -/
structure Classified (p : Program σ H) (spare : Nat) (poll : Poll) (timeoutMs : Int)
    (rules : LinkedList (Rule H)) (w : World σ) : Prop where
  exit : (waitNextEvent p spare poll timeoutMs rules w).outcome = .returned .Exit ↔
    NothingToPoll p spare rules w ∨
      ∃ vector answer, Polls p spare poll timeoutMs rules w vector answer ∧
        toInt answer.call.returnValue < 0 ∧ answer.call.errno = eintr
  timeout : (waitNextEvent p spare poll timeoutMs rules w).outcome = .returned .Timeout ↔
    ∃ vector answer, Polls p spare poll timeoutMs rules w vector answer ∧
      toInt answer.call.returnValue = 0
  failure : ∀ vector answer, Polls p spare poll timeoutMs rules w vector answer →
    toInt answer.call.returnValue < 0 → answer.call.errno ≠ eintr →
    (∃ e, (waitNextEvent p spare poll timeoutMs rules w).outcome = .threw e ∧
      runtimeErrors e) ∧
    ∀ e ∈ resultEvents p spare poll timeoutMs rules w, e.triggers = false
  success : (waitNextEvent p spare poll timeoutMs rules w).outcome = .returned .Success →
    ∃ vector answer, Polls p spare poll timeoutMs rules w vector answer ∧
      0 < toInt answer.call.returnValue

/-- A call that returns `Success` has been through the second loop. -/
theorem polls_of_success
    (success : (waitNextEvent p spare poll timeoutMs rules w).outcome = .returned .Success) :
    ∃ vector answer, Polls p spare poll timeoutMs rules w vector answer ∧
      afterPoll answer = none := by
  rcases returned_cases success with
    ⟨-, wrong⟩ | ⟨vector, answer, polls, ⟨-, wrong⟩ | ⟨-, wrong⟩ | ⟨goesOn, -⟩⟩
  · cases wrong
  · cases wrong
  · cases wrong
  · exact ⟨vector, answer, polls, goesOn⟩

theorem afterPoll_of_zero {answer : PollAnswer} (zero : toInt answer.call.returnValue = 0) :
    afterPoll answer = some (.returned .Timeout) := by
  simp [afterPoll, systemCall, zero]

theorem afterPoll_of_signal {answer : PollAnswer} (failed : toInt answer.call.returnValue < 0)
    (signal : answer.call.errno = eintr) : afterPoll answer = some (.returned .Exit) := by
  have negative : ¬0 ≤ toInt answer.call.returnValue := by omega
  simp [afterPoll, systemCall, negative, signal]

/-- A positive count and a failure that is not an interruption go on alike. -/
theorem afterPoll_eq_none_iff {answer : PollAnswer} :
    afterPoll answer = none ↔ 0 < toInt answer.call.returnValue ∨
      toInt answer.call.returnValue < 0 ∧ answer.call.errno ≠ eintr := by
  refine ⟨afterPoll_eq_none, ?_⟩
  intro goesOn
  cases ends : afterPoll answer with
  | none => rfl
  | some outcome =>
      rcases afterPoll_eq_some ends with ⟨-, zero⟩ | ⟨-, failed, signal⟩
      · omega
      · rcases goesOn with positive | ⟨-, other⟩
        · omega
        · exact absurd signal other

theorem outcome_eq_exit_iff :
    (waitNextEvent p spare poll timeoutMs rules w).outcome = .returned .Exit ↔
      NothingToPoll p spare rules w ∨
        ∃ vector answer, Polls p spare poll timeoutMs rules w vector answer ∧
          toInt answer.call.returnValue < 0 ∧ answer.call.errno = eintr := by
  constructor
  · intro exit
    rcases returned_cases exit with
      ⟨nothing, -⟩ | ⟨vector, answer, polls, ⟨-, wrong⟩ | ⟨interrupted, -⟩ | ⟨-, wrong⟩⟩
    · exact .inl nothing
    · cases wrong
    · exact .inr ⟨vector, answer, polls, interrupted⟩
    · cases wrong
  · intro course
    rcases course with nothing | ⟨vector, answer, polls, failed, signal⟩
    · exact (outcome_of_nothing nothing poll timeoutMs).1
    · exact (outcome_of_answered polls (afterPoll_of_signal failed signal)).1

theorem outcome_eq_timeout_iff :
    (waitNextEvent p spare poll timeoutMs rules w).outcome = .returned .Timeout ↔
      ∃ vector answer, Polls p spare poll timeoutMs rules w vector answer ∧
        toInt answer.call.returnValue = 0 := by
  constructor
  · intro timeout
    rcases returned_cases timeout with
      ⟨-, wrong⟩ | ⟨vector, answer, polls, ⟨zero, -⟩ | ⟨-, wrong⟩ | ⟨-, wrong⟩⟩
    · cases wrong
    · exact ⟨vector, answer, polls, zero⟩
    · cases wrong
    · cases wrong
  · intro course
    rcases course with ⟨vector, answer, polls, zero⟩
    exact (outcome_of_answered polls (afterPoll_of_zero zero)).1

/-- **When the outcome classifies a call.** For every program, rule list, world and
answer of `poll`, the outcome tells what happened exactly if `poll` does not fail
with another error than an interruption, or the reports that it left behind make
the second loop throw before it has called anything. -/
theorem classified_iff (p : Program σ H) (spare : Nat) (poll : Poll) (timeoutMs : Int)
    (rules : LinkedList (Rule H)) (w : World σ) :
    Classified p spare poll timeoutMs rules w ↔
      ∀ vector answer, Polls p spare poll timeoutMs rules w vector answer →
        toInt answer.call.returnValue < 0 → answer.call.errno ≠ eintr →
        firstReaction (reported vector answer) = some .error := by
  constructor
  · intro classified vector answer polls failed other
    rcases classified.failure vector answer polls failed other with ⟨⟨e, threw, -⟩, quiet⟩
    have course := outcome_of_dispatched polls (afterPoll_eq_none_iff.mpr (.inr ⟨failed, other⟩))
    cases first : firstReaction (reported vector answer) with
    | none =>
        rw [first] at course
        rw [course.1] at threw
        cases threw
    | some reaction =>
        rw [first] at course
        cases reaction with
        | error => rfl
        | hangup | ready | idle =>
            obtain ⟨event, logged, triggers⟩ := course
            rw [quiet event logged] at triggers
            cases triggers
  · intro stops
    refine ⟨outcome_eq_exit_iff, outcome_eq_timeout_iff, ?_, ?_⟩
    · intro vector answer polls failed other
      have course :=
        outcome_of_dispatched polls (afterPoll_eq_none_iff.mpr (.inr ⟨failed, other⟩))
      rw [stops vector answer polls failed other] at course
      refine ⟨⟨polledError, course.1, trivial⟩, ?_⟩
      rw [course.2]
      simp
    · intro success
      obtain ⟨vector, answer, polls, goesOn⟩ := polls_of_success success
      refine ⟨vector, answer, polls, ?_⟩
      rcases afterPoll_eq_none goesOn with positive | ⟨failed, other⟩
      · exact positive
      · have course := outcome_of_dispatched polls goesOn
        rw [stops vector answer polls failed other] at course
        rw [course.1] at success
        cases success

/-- `poll` fails with `EINVAL`, which is `22`, and the call reports success. -/
theorem failure_reported_as_success :
    let poll : Poll := fun _ _ => ⟨⟨-1, 22⟩, fun _ => 0⟩
    let rules := addRule .empty ⟨0, .In, 0, none, none⟩
    (waitNextEvent reader 0 poll (-1) rules openWorld).outcome = .returned .Success ∧
    ¬Classified reader 0 poll (-1) rules openWorld := by
  intro poll rules
  have success : (waitNextEvent reader 0 poll (-1) rules openWorld).outcome =
      .returned .Success := by decide +kernel
  refine ⟨success, ?_⟩
  intro classified
  obtain ⟨vector, answer, ⟨-, -, -, -, rfl⟩, positive⟩ := classified.success success
  exact absurd positive (by decide)

/-! ## Progress -/

/-- The contract of `poll(2)` for a positive return value: it is the number of entries
with a report, and a report has only what was asked for and conditions that are
always reported. -/
structure Reports (vector : List PollFd) (answer : PollAnswer) : Prop where
  positive : 0 < toInt answer.call.returnValue
  counted : toInt answer.call.returnValue =
    ((reported vector answer).countP fun e => e.revents ≠ 0 : Nat)
  confined : ∀ e ∈ reported vector answer,
    e.revents &&& ~~~(e.events ||| pollerr ||| pollhup ||| pollnval) = 0

theorem eq_zero_of_masks {r d e h v : BitVec 16} (confined : r &&& ~~~(d ||| e ||| h ||| v) = 0)
    (noError : r &&& (e ||| v) = 0) (noHup : r &&& h = 0) (notReady : r &&& d = 0) : r = 0 := by
  have split : r = (r &&& ~~~(d ||| e ||| h ||| v)) ||| (r &&& (e ||| v)) ||| (r &&& h) |||
      (r &&& d) := by
    ext i inside
    simp only [BitVec.getElem_or, BitVec.getElem_and, BitVec.getElem_not]
    cases r[i] <;> cases d[i] <;> cases e[i] <;> cases h[i] <;> cases v[i] <;> rfl
  rw [split, confined, noError, noHup, notReady]
  rfl

/-- The second loop passes over an entry that has no report, and over one that asked
for nothing and reports no error. -/
theorem reaction_ne_idle_iff {e : PollFd}
    (confined : e.revents &&& ~~~(e.events ||| pollerr ||| pollhup ||| pollnval) = 0) :
    e.reaction ≠ .idle ↔
      e.revents ≠ 0 ∧ (e.events ≠ 0 ∨ e.revents &&& (pollerr ||| pollnval) ≠ 0) := by
  unfold PollFd.reaction
  by_cases error : e.revents &&& (pollerr ||| pollnval) ≠ 0
  · rw [if_pos error]
    refine iff_of_true (by decide) ⟨?_, .inr error⟩
    intro silent
    rw [silent] at error
    exact error BitVec.zero_and
  · rw [if_neg error]
    by_cases placeholder : e.events = 0
    · rw [if_neg (by simp [placeholder]), if_neg (by simp [placeholder])]
      apply iff_of_false (by decide)
      intro heard
      rcases heard with ⟨-, asks | reports⟩
      · exact asks placeholder
      · exact error reports
    · by_cases ready : e.revents &&& e.events ≠ 0
      · rw [if_neg fun hangup => hangup.2.2 ready, if_pos ready]
        refine iff_of_true (by decide) ⟨?_, .inl placeholder⟩
        intro silent
        rw [silent] at ready
        exact ready BitVec.zero_and
      · by_cases hup : e.revents &&& pollhup ≠ 0
        · rw [if_pos ⟨hup, placeholder, ready⟩]
          refine iff_of_true (by decide) ⟨?_, .inl placeholder⟩
          intro silent
          rw [silent] at hup
          exact hup BitVec.zero_and
        · rw [if_neg fun hangup => hup hangup.1, if_neg ready]
          have silent := eq_zero_of_masks confined (not_not.mp error) (not_not.mp hup)
            (not_not.mp ready)
          exact iff_of_false (by simp) (by simp [silent])

/-- **When success means progress.** Let `poll` keep its contract. Then a call that
returns `Success` has called a callback or a cancel function in its second loop
exactly if some entry with a report belongs to an interested rule or reports an
error. The reports that are left are hangups of rules that are not interested. -/
theorem success_progress_iff
    (honest : ∀ vector answer, Polls p spare poll timeoutMs rules w vector answer →
      Reports vector answer) :
    ((waitNextEvent p spare poll timeoutMs rules w).outcome = .returned .Success →
      ∃ e ∈ resultEvents p spare poll timeoutMs rules w, e.triggers = true) ↔
    ∀ vector answer, Polls p spare poll timeoutMs rules w vector answer →
      ∃ e ∈ reported vector answer,
        e.revents ≠ 0 ∧ (e.events ≠ 0 ∨ e.revents &&& (pollerr ||| pollnval) ≠ 0) := by
  have heard : ∀ vector answer, Polls p spare poll timeoutMs rules w vector answer →
      (firstReaction (reported vector answer) ≠ none ↔ ∃ e ∈ reported vector answer,
        e.revents ≠ 0 ∧ (e.events ≠ 0 ∨ e.revents &&& (pollerr ||| pollnval) ≠ 0)) := by
    intro vector answer polls
    have confined := (honest vector answer polls).confined
    rw [Ne, firstReaction_eq_none]
    push Not
    apply exists_congr
    intro e
    apply and_congr_right
    exact fun member => reaction_ne_idle_iff (confined e member)
  constructor
  · intro progress vector answer polls
    rw [← heard vector answer polls]
    intro silent
    have goesOn := afterPoll_eq_none_iff.mpr (.inl (honest vector answer polls).positive)
    have course := outcome_of_dispatched polls goesOn
    rw [silent] at course
    obtain ⟨e, logged, -⟩ := progress course.1
    rw [course.2] at logged
    cases logged
  · intro reports success
    obtain ⟨vector, answer, polls, goesOn⟩ := polls_of_success success
    have course := outcome_of_dispatched polls goesOn
    have acts := (heard vector answer polls).mpr (reports vector answer polls)
    cases first : firstReaction (reported vector answer) with
    | none => exact absurd first acts
    | some reaction =>
        rw [first] at course
        cases reaction with
        | error =>
            rw [course.1] at success
            cases success
        | hangup | ready | idle => exact course

/-- Of two rules, the first one hangs up and the second one is ready. -/
theorem success_progress_reader :
    let poll : Poll := fun _ _ => ⟨⟨2, 0⟩, fun i => if i = 0 then pollhup else pollin⟩
    let rules := addRule (addRule .empty ⟨0, .In, 0, none, none⟩) ⟨1, .In, 1, none, none⟩
    ∃ e ∈ resultEvents reader 0 poll (-1) rules openWorld, e.triggers = true := by
  intro poll rules
  have honest : ∀ vector answer, Polls reader 0 poll (-1) rules openWorld vector answer →
      Reports vector answer := by
    intro vector answer polls
    rcases polls with ⟨setup, first, -, rfl, rfl⟩
    obtain rfl := congrArg Prod.fst first
    exact ⟨by decide, by decide +kernel, by decide +kernel⟩
  refine (success_progress_iff honest).mpr ?_ (by decide +kernel)
  intro vector answer polls
  rcases polls with ⟨setup, first, -, rfl, rfl⟩
  obtain rfl := congrArg Prod.fst first
  decide +kernel

/-- A program with an interest function that is never interested. -/
def aloof : Program Unit Nat where
  callback fd w :=
    ⟨w.update fd fun wrapper => (FileDescriptor.read wrapper 1 ⟨1, 0⟩ [0]).1, [], .ok ()⟩
  interest _ w := ⟨w, [], .ok false⟩
  cancel _ w := ⟨w, [], .ok ()⟩

/-- Of two rules, the second one is not interested, and its descriptor hangs up: the
call reports success and has called nothing. -/
theorem aloof_no_progress :
    let poll : Poll := fun _ _ => ⟨⟨1, 0⟩, fun i => if i = 1 then pollhup else 0⟩
    let rules := addRule (addRule .empty ⟨0, .In, 0, none, none⟩) ⟨1, .In, 1, some 0, none⟩
    (∀ vector answer, Polls aloof 0 poll (-1) rules openWorld vector answer →
      Reports vector answer) ∧
    (waitNextEvent aloof 0 poll (-1) rules openWorld).outcome = .returned .Success ∧
    ¬∃ e ∈ resultEvents aloof 0 poll (-1) rules openWorld, e.triggers = true := by
  intro poll rules
  refine ⟨?_, by decide +kernel, by decide +kernel⟩
  intro vector answer polls
  rcases polls with ⟨setup, first, -, rfl, rfl⟩
  obtain rfl := congrArg Prod.fst first
  exact ⟨by decide, by decide +kernel, by decide +kernel⟩

end EventLoop

end Sponge
