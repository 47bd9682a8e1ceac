import Sponge.EventLoopAccess

/-!
# What a call of `wait_next_event` dispatches

For programs that do not call back into the event loop, a whole call is described
without the list, the vector and the index: `Survey` says which rules get an entry,
`Dispatch` how these react to what the kernel reported, and `Performs` puts them
together by the value that `poll` returned.
-/

namespace Sponge

namespace EventLoop

open LinkedList (Node Fate Walk pass)

variable {σ H : Type} {p : Program σ H} {w : World σ} {rules : LinkedList (Rule H)}

/-! ## What a call is meant to do -/

/-- What is to be done about a rule, by whether it was interested and what the kernel
reported for its entry. -/
def reaction (direction : Direction) (interested : Bool) (revents : BitVec 16) : Reaction :=
  if revents &&& (pollerr ||| pollnval) ≠ 0 then
    .error
  else if interested ∧ revents &&& pollhup ≠ 0 ∧ revents &&& direction.events = 0 then
    .hangup
  else if interested ∧ revents &&& direction.events ≠ 0 then
    .ready
  else
    .idle

/-- The first loop goes through the rules in order. It cancels the defunct ones and
makes an entry for each of the others, up to the first exception. -/
inductive Survey (p : Program σ H) : List (Node (Rule H)) → World σ → List (Event σ H) →
    List (Node (Rule H) × Entry) → World σ → Option Exn → Prop
  | done {w : World σ} : Survey p [] w [] [] w none
  | cancelled {rule : Node (Rule H)} {nodes : List (Node (Rule H))} {w mid w' : World σ}
      {events later : List (Event σ H)} {kept : List (Node (Rule H) × Entry)} {e : Option Exn}
      (here : Surveys p rule w events mid (.ok .erase))
      (rest : Survey p nodes mid later kept w' e) :
      Survey p (rule :: nodes) w (events ++ later) kept w' e
  | entered {rule : Node (Rule H)} {nodes : List (Node (Rule H))} {w mid w' : World σ}
      {events later : List (Event σ H)} {entry : Entry} {kept : List (Node (Rule H) × Entry)}
      {e : Option Exn} (here : Surveys p rule w events mid (.ok (.next entry)))
      (rest : Survey p nodes mid later kept w' e) :
      Survey p (rule :: nodes) w (events ++ later) ((rule, entry) :: kept) w' e
  | threw {rule : Node (Rule H)} {nodes : List (Node (Rule H))} {w w' : World σ}
      {events : List (Event σ H)} {e : Exn}
      (here : Surveys p rule w events w' (.error (.threw e))) :
      Survey p (rule :: nodes) w events [] w' (some e)

/-- A rule that survived the first loop, and what the kernel reported for its entry. -/
structure Polled (H : Type) where
  rule : Node (Rule H)
  interested : Bool
  revents : BitVec 16

/-- The reports for the entries, each at the place of the entry. -/
def polled (kept : List (Node (Rule H) × Entry)) (revents : Nat → BitVec 16) : List (Polled H) :=
  kept.mapIdx fun i k => ⟨k.1, k.2.interested, revents i⟩

/-- The second loop reacts to the report for each rule, in order, up to the first
exception. -/
inductive Dispatch (p : Program σ H) :
    List (Polled H) → World σ → List (Event σ H) → World σ → Outcome → Prop
  | done {w : World σ} : Dispatch p [] w [] w (.returned .Success)
  | reacts {q : Polled H} {qs : List (Polled H)} {w mid w' : World σ}
      {events later : List (Event σ H)} {fate : Fate Unit} {outcome : Outcome}
      (here : Reacts p q.rule w (reaction q.rule.val.direction q.interested q.revents) events mid
        (.ok fate))
      (rest : Dispatch p qs mid later w' outcome) :
      Dispatch p (q :: qs) w (events ++ later) w' outcome
  | threw {q : Polled H} {qs : List (Polled H)} {w w' : World σ} {events : List (Event σ H)}
      {e : Exn}
      (here : Reacts p q.rule w (reaction q.rule.val.direction q.interested q.revents) events w'
        (.error (.threw e))) :
      Dispatch p (q :: qs) w events w' (.threw e)

/-- A whole call, by the value that `poll` returns. -/
inductive Performs (p : Program σ H) (poll : Poll) (timeoutMs : Int)
    (nodes : List (Node (Rule H))) (w : World σ) : List (Event σ H) → World σ → Outcome → Prop
  | setupThrew {events : List (Event σ H)} {kept : List (Node (Rule H) × Entry)} {w' : World σ}
      {e : Exn} (survey : Survey p nodes w events kept w' (some e)) :
      Performs p poll timeoutMs nodes w events w' (.threw e)
  | nothing {events : List (Event σ H)} {kept : List (Node (Rule H) × Entry)} {w' : World σ}
      (survey : Survey p nodes w events kept w' none)
      (nobody : kept.any (·.2.interested) = false) :
      Performs p poll timeoutMs nodes w events w' (.returned .Exit)
  | timeout {events : List (Event σ H)} {kept : List (Node (Rule H) × Entry)} {w' : World σ}
      {answer : PollAnswer} (survey : Survey p nodes w events kept w' none)
      (somebody : kept.any (·.2.interested) = true)
      (asked : poll (kept.map (·.2.pollfd)) timeoutMs = answer)
      (zero : toInt answer.call.returnValue = 0) :
      Performs p poll timeoutMs nodes w events w' (.returned .Timeout)
  | interrupted {events : List (Event σ H)} {kept : List (Node (Rule H) × Entry)} {w' : World σ}
      {answer : PollAnswer} (survey : Survey p nodes w events kept w' none)
      (somebody : kept.any (·.2.interested) = true)
      (asked : poll (kept.map (·.2.pollfd)) timeoutMs = answer)
      (failed : toInt answer.call.returnValue < 0) (signal : answer.call.errno = eintr) :
      Performs p poll timeoutMs nodes w events w' (.returned .Exit)
  | dispatched {events later : List (Event σ H)} {kept : List (Node (Rule H) × Entry)}
      {mid w' : World σ} {answer : PollAnswer} {outcome : Outcome}
      (survey : Survey p nodes w events kept mid none)
      (somebody : kept.any (·.2.interested) = true)
      (asked : poll (kept.map (·.2.pollfd)) timeoutMs = answer)
      (goesOn : 0 < toInt answer.call.returnValue ∨
        toInt answer.call.returnValue < 0 ∧ answer.call.errno ≠ eintr)
      (dispatch : Dispatch p (polled kept answer.revents) mid later w' outcome) :
      Performs p poll timeoutMs nodes w (events ++ later) w' outcome

/-! ## The first loop surveys -/

theorem pass_setupBody_survey (p : Program σ H) (i : Nat) (nodes : List (Node (Rule H)))
    (w : World σ) :
    (∃ kept, (pass (setupBody p) i nodes w).result = .ok kept ∧
      Survey p nodes w (pass (setupBody p) i nodes w).events kept
        (pass (setupBody p) i nodes w).world none) ∨
    (∃ kept e, (pass (setupBody p) i nodes w).result = .error (.threw e) ∧
      Survey p nodes w (pass (setupBody p) i nodes w).events kept
        (pass (setupBody p) i nodes w).world (some e)) := by
  induction nodes generalizing i w with
  | nil => exact .inl ⟨[], rfl, .done⟩
  | cons rule nodes ih =>
      have here := setupBody_surveys p i rule w
      cases result : (setupBody p i rule w).result with
      | error abort =>
          rw [result] at here
          obtain ⟨e, rfl⟩ := here.threw_of_error
          rw [LinkedList.pass_cons_of_error result]
          exact .inr ⟨[], e, rfl, .threw here⟩
      | ok fate =>
          rw [result] at here
          rw [LinkedList.pass_cons_of_ok result]
          rcases ih (i + 1) (setupBody p i rule w).world with
            ⟨kept, ok, rest⟩ | ⟨kept, e, left, rest⟩
          · rw [ok]
            cases fate with
            | next entry => exact .inl ⟨(rule, entry) :: kept, rfl, .entered here rest⟩
            | erase => exact .inl ⟨kept, rfl, .cancelled here rest⟩
          · rw [left]
            cases fate with
            | next entry => exact .inr ⟨(rule, entry) :: kept, e, rfl, .entered here rest⟩
            | erase => exact .inr ⟨kept, e, rfl, .cancelled here rest⟩

/-- Without registrations the first loop comes to its end, or to an exception. -/
theorem setupLoop_survey (noReentry : p.NoReentry) (spare : Nat) (rules : LinkedList (Rule H))
    (w : World σ) :
    ∃ setup,
      (setupLoop p spare rules w = (setup, .finished) ∧
        Survey p rules.nodes w setup.events setup.kept setup.world none) ∨
      (∃ kept e, setupLoop p spare rules w = (setup, .left (.threw e)) ∧
        Survey p rules.nodes w setup.events kept setup.world (some e)) := by
  rcases pass_setupBody_survey p 0 rules.nodes w with ⟨kept, ok, survey⟩ | ⟨kept, e, left, survey⟩
  · obtain ⟨setup, loop, world, events, made, -⟩ :=
      LinkedList.walk_of_pass_quiet (s := .start rules w) rfl spare ok
        (LinkedList.pass_pushed noReentry.setupBody_pushed ..)
    refine ⟨setup, .inl ⟨loop, ?_⟩⟩
    rw [world, events, made]
    exact survey
  · obtain ⟨setup, loop, world, events, -⟩ :=
      LinkedList.walk_of_pass_error (s := .start rules w) (List.append_nil _).symm spare left
    refine ⟨setup, .inr ⟨kept, e, loop, ?_⟩⟩
    rw [world, events]
    exact survey

/-! ## The second loop dispatches -/

theorem Direction.events_ne_zero (direction : Direction) : direction.events ≠ 0 := by
  cases direction <;> decide

/-- The entry of a rule leads to the branch for the report. -/
theorem PollFd.report_reaction {e : PollFd} {rule : Rule H} {interested : Bool}
    (asks : e.events = requested rule interested) (revents : BitVec 16) :
    (e.report revents).reaction = EventLoop.reaction rule.direction interested revents := by
  have nonzero := rule.direction.events_ne_zero
  unfold PollFd.report PollFd.reaction EventLoop.reaction
  dsimp only
  rw [asks]
  cases interested with
  | false => simp [requested]
  | true => simp only [requested, if_true, true_and, ne_eq, not_not, nonzero, not_false_eq_true]

/-- How the service of all rules ends. -/
def serviceOutcome : Except Abort Unit → Outcome
  | .ok _ => .returned .Success
  | .error abort => abort.outcome

/-- The service of the rules with their reported entries is a dispatch. -/
theorem serveAll_dispatch (p : Program σ H) {kept : List (Node (Rule H) × Entry)}
    (asks : ∀ k ∈ kept, k.2.pollfd.events = requested k.1.val k.2.interested)
    {revents : Nat → BitVec 16} {entries : List (Node (Rule H) × PollFd)}
    (each : entries = kept.mapIdx fun i k => (k.1, k.2.pollfd.report (revents i))) (w : World σ) :
    Dispatch p (polled kept revents) w (serveAll p entries w).events (serveAll p entries w).world
      (serviceOutcome (serveAll p entries w).result) := by
  induction kept generalizing revents entries w with
  | nil =>
      subst each
      exact .done
  | cons k kept ih =>
      subst each
      have reacts := serve_reacts p k.1 (k.2.pollfd.report (revents 0)) w
      rw [PollFd.report_reaction (asks k (List.mem_cons_self ..))] at reacts
      rw [polled, List.mapIdx_cons, List.mapIdx_cons]
      cases result : (serve p k.1 (k.2.pollfd.report (revents 0)) w).result with
      | error abort =>
          rw [serveAll_cons_of_error result]
          rw [result] at reacts
          obtain ⟨e, rfl⟩ := reacts.threw_of_error
          exact .threw (q := ⟨k.1, k.2.interested, revents 0⟩) reacts
      | ok fate =>
          rw [serveAll_cons_of_ok result]
          rw [result] at reacts
          exact .reacts (q := ⟨k.1, k.2.interested, revents 0⟩) reacts
            (ih (fun k member => asks k (List.mem_cons_of_mem _ member)) rfl _)

theorem zip_reported (kept : List (Node (Rule H) × Entry)) (answer : PollAnswer) :
    (kept.map (·.1)).zip (reported (kept.map (·.2.pollfd)) answer) =
      kept.mapIdx fun i k => (k.1, k.2.pollfd.report (answer.revents i)) := by
  refine List.ext_getElem (by simp [reported]) fun i _ _ => ?_
  simp [reported]

theorem Program.NoReentry.serveAll_pushed (noReentry : p.NoReentry)
    (entries : List (Node (Rule H) × PollFd)) (w : World σ) :
    (serveAll p entries w).pushed = [] := by
  induction entries generalizing w with
  | nil => rfl
  | cons entry entries ih =>
      obtain ⟨rule, e⟩ := entry
      cases result : (serve p rule e w).result with
      | error abort =>
          rw [serveAll_cons_of_error result]
          exact noReentry.serve_pushed rule e w
      | ok fate =>
          rw [serveAll_cons_of_ok result]
          simp [noReentry.serve_pushed, ih]

/-- After the first loop, and without registrations, the second loop dispatches what
the kernel reported. -/
theorem resultLoop_dispatch (noReentry : p.NoReentry) {spare : Nat}
    {setup : Walk (Rule H) (World σ) (Event σ H) Entry}
    (first : setupLoop p spare rules w = (setup, .finished)) (answer : PollAnswer) :
    ∃ results stop, resultLoop p (reported (setup.kept.map (·.2.pollfd)) answer) setup.list
        setup.world = (results, stop) ∧
      Dispatch p (polled setup.kept answer.revents) setup.world results.events results.world
        (resultOutcome stop) := by
  have nodes := setupLoop_nodes first
  have aligned := setupLoop_aligned first answer
  have asks : ∀ k ∈ setup.kept, k.2.pollfd.events = requested k.1.val k.2.interested := by
    intro k member
    obtain ⟨interested, w', entry⟩ := setupLoop_kept first k member
    rw [entry]
    rfl
  have each := zip_reported setup.kept answer
  rw [← nodes] at each
  have dispatch := serveAll_dispatch p asks each setup.world
  cases result : (serveAll p (setup.list.nodes.zip
      (reported (setup.kept.map (·.2.pollfd)) answer)) setup.world).result with
  | error abort =>
      obtain ⟨results, loop, world, events, -⟩ := resultLoop_of_error aligned result
      refine ⟨results, _, loop, ?_⟩
      rw [world, events]
      rwa [result] at dispatch
  | ok =>
      obtain ⟨results, loop, world, events, -⟩ :=
        resultLoop_of_quiet aligned result (noReentry.serveAll_pushed _ _)
      refine ⟨results, _, loop, ?_⟩
      rw [world, events]
      rwa [result] at dispatch

/-! ## A whole call -/

theorem afterPoll_eq_some {answer : PollAnswer} {outcome : Outcome}
    (ends : afterPoll answer = some outcome) :
    (outcome = .returned .Timeout ∧ toInt answer.call.returnValue = 0) ∨
      (outcome = .returned .Exit ∧ toInt answer.call.returnValue < 0 ∧
        answer.call.errno = eintr) := by
  unfold afterPoll systemCall at ends
  split_ifs at ends with returned
  · dsimp only at ends
    split_ifs at ends with zero
    exact .inl ⟨(Option.some.inj ends).symm, zero.symm⟩
  · dsimp only at ends
    split_ifs at ends with signal
    exact .inr ⟨(Option.some.inj ends).symm, by omega, signal⟩

theorem afterPoll_eq_none {answer : PollAnswer} (goesOn : afterPoll answer = none) :
    0 < toInt answer.call.returnValue ∨
      toInt answer.call.returnValue < 0 ∧ answer.call.errno ≠ eintr := by
  unfold afterPoll systemCall at goesOn
  split_ifs at goesOn with returned
  · dsimp only at goesOn
    split_ifs at goesOn with zero
    have : eintr = 4 := rfl
    omega
  · dsimp only at goesOn
    split_ifs at goesOn with signal
    exact .inr ⟨by omega, signal⟩

/-- A call of a program that does not call back into the event loop. -/
theorem waitNextEvent_performs (noReentry : p.NoReentry) (spare : Nat) (poll : Poll)
    (timeoutMs : Int) (rules : LinkedList (Rule H)) (w : World σ) :
    Performs p poll timeoutMs rules.nodes w
      (waitNextEvent p spare poll timeoutMs rules w).trace
      (waitNextEvent p spare poll timeoutMs rules w).world
      (waitNextEvent p spare poll timeoutMs rules w).outcome := by
  have phases := waitNextEvent_phases p spare poll timeoutMs rules w
  generalize waitNextEvent p spare poll timeoutMs rules w = call at phases
  obtain ⟨setup, ⟨finished, survey⟩ | ⟨kept, e, left, survey⟩⟩ :=
    setupLoop_survey noReentry spare rules w
  · cases phases with
    | early first ends =>
        rw [finished] at first
        cases first
        cases ends with
        | nothing nobody => exact .nothing survey nobody
        | answered somebody answer =>
            rcases afterPoll_eq_some answer with ⟨rfl, zero⟩ | ⟨rfl, failed, signal⟩
            · exact .timeout survey somebody rfl zero
            · exact .interrupted survey somebody rfl failed signal
    | dispatched first somebody goesOn vector second =>
        rw [finished] at first
        cases first
        obtain ⟨results, stop, loop, dispatch⟩ := resultLoop_dispatch noReentry finished
          (poll (setup.kept.map (·.2.pollfd)) timeoutMs)
        rw [← vector, second] at loop
        cases loop
        exact .dispatched survey somebody rfl (afterPoll_eq_none goesOn) dispatch
  · cases phases with
    | early first ends =>
        rw [left] at first
        cases first
        cases ends
        exact .setupThrew survey
    | dispatched first =>
        rw [left] at first
        cases first

section Rules

variable {l : LinkedList (Rule H)} {log : List (Event σ H)}

theorem setupLoop_rules (noReentry : p.NoReentry) (spare : Nat) (rules : LinkedList (Rule H))
    (w : World σ) :
    (setupLoop p spare rules w).1.list.nodes =
      rules.nodes.filter fun n => !LinkedList.removed Event.about Event.removes
        (setupLoop p spare rules w).1.events n.id :=
  LinkedList.walk_nodes [] (setupBody_tidy p) noReentry.setupBody_pushed
    (by simp [Walk.start, LinkedList.removed])

theorem resultLoop_rules (noReentry : p.NoReentry)
    (initial : rules.nodes =
      l.nodes.filter fun n => !LinkedList.removed Event.about Event.removes log n.id)
    (pollfds : List PollFd) (w : World σ) :
    (resultLoop p pollfds rules w).1.list.nodes =
      l.nodes.filter fun n => !LinkedList.removed Event.about Event.removes
        (log ++ (resultLoop p pollfds rules w).1.events) n.id :=
  LinkedList.walk_nodes log (resultBody_tidy p pollfds) (noReentry.resultBody_pushed pollfds)
    (by simpa [Walk.start] using initial)

/-- The rules that a call leaves are those that it did not remove. -/
theorem waitNextEvent_rules (noReentry : p.NoReentry) (spare : Nat) (poll : Poll)
    (timeoutMs : Int) (rules : LinkedList (Rule H)) (w : World σ) :
    (waitNextEvent p spare poll timeoutMs rules w).rules.nodes =
      rules.nodes.filter fun n => !LinkedList.removed Event.about Event.removes
        (waitNextEvent p spare poll timeoutMs rules w).trace n.id := by
  have phases := waitNextEvent_phases p spare poll timeoutMs rules w
  generalize waitNextEvent p spare poll timeoutMs rules w = call at phases
  have afterSetup := setupLoop_rules noReentry spare rules w
  cases phases with
  | early first _ => rwa [first] at afterSetup
  | @dispatched setup pollfds _ _ first _ _ _ second =>
      rw [first] at afterSetup
      have afterResults := resultLoop_rules noReentry afterSetup pollfds setup.world
      rwa [second] at afterResults

end Rules

/-- **Dispatch.** A call of a program that does not call back into the event loop goes
through the rules as `Performs` says: each rule that the first loop has not
cancelled reacts to what the kernel reported for its own entry. It leaves the
rules it was given, in their order, without those whose cancel function has
returned, which are all that were cancelled if cancel functions return. -/
theorem waitNextEvent_dispatch (noReentry : p.NoReentry) (spare : Nat) (poll : Poll)
    (timeoutMs : Int) (rules : LinkedList (Rule H)) (w : World σ) :
    let call := waitNextEvent p spare poll timeoutMs rules w
    Performs p poll timeoutMs rules.nodes w call.trace call.world call.outcome ∧
      call.rules.nodes = rules.nodes.filter (fun n =>
        !LinkedList.removed Event.about Event.removes call.trace n.id) ∧
      (p.CancelReturns → call.rules.nodes = rules.nodes.filter (fun n =>
        !LinkedList.removed Event.about Event.cancels call.trace n.id)) := by
  intro call
  have left := waitNextEvent_rules noReentry spare poll timeoutMs rules w
  refine ⟨waitNextEvent_performs noReentry spare poll timeoutMs rules w, left,
    fun cancelReturns => left.trans ?_⟩
  have same := (waitNextEvent_phases p spare poll timeoutMs rules w).cancels_eq cancelReturns
  refine List.filter_congr fun n _ => ?_
  rw [LinkedList.removed_congr fun e member => (same e member).symm]

/-- A program whose callbacks read a byte from the descriptor they are named by. -/
def reader : Program Unit Nat where
  callback fd w :=
    ⟨w.update fd fun wrapper => (FileDescriptor.read wrapper 1 ⟨1, 0⟩ [0]).1, [], .ok ()⟩
  interest _ w := ⟨w, [], .ok true⟩
  cancel _ w := ⟨w, [], .ok ()⟩

/-- Of two rules, the first one hangs up and the second one is ready. -/
theorem waitNextEvent_dispatch_reader :
    (waitNextEvent reader 0 (fun _ _ => ⟨⟨2, 0⟩, fun i => if i = 0 then pollhup else pollin⟩) (-1)
      (addRule (addRule .empty ⟨0, .In, 0, none, none⟩) ⟨1, .In, 1, none, none⟩)
      openWorld).rules.nodes = [⟨1, 1, .In, 1, none, none⟩] := by
  have noReentry : reader.NoReentry := ⟨fun _ _ => rfl, fun _ _ => rfl, fun _ _ => rfl⟩
  rw [(waitNextEvent_dispatch noReentry 0 _ (-1) _ openWorld).2.2 fun _ _ => rfl]
  decide +kernel

end EventLoop

end Sponge
