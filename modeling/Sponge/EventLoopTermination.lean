import Sponge.EventLoopOutcome
import Sponge.FileDescriptorRead

/-!
# Event loops that come to an end

A program calls `wait_next_event` until it returns `Exit`. It does so in the end if
every callback brings the program further: `Ranked` is a rank of the worlds that
callbacks on live descriptors lower and nothing raises. A call that returns
`Success` then lowers the rank or removes a rule, provided that the kernel reports
something for a rule that is interested (`Heard`).
-/

namespace Sponge

namespace EventLoop

open LinkedList (Node)

variable {σ H : Type} {p : Program σ H} {w : World σ} {rules : LinkedList (Rule H)}

/-! ## Programs with a rank -/

theorem readCount_ne (n : UInt32) : n ≠ n + 1 := by
  intro same
  have wraps := congrArg UInt32.toNat same
  rw [UInt32.toNat_add] at wraps
  have bound := n.toNat_lt
  simp only [UInt32.toNat_one] at wraps
  omega

/-- The rules of the program are `owned`, and its worlds are `good`. Interest functions
only look. No function throws, and none raises the rank; cancel functions do not
touch descriptors. A callback counts as a service of its descriptor, or leaves its
rule uninterested; on a live descriptor it lowers the rank. -/
structure Ranked (p : Program σ H) (owned : Rule H → Prop) (good : World σ → Prop)
    (rank : World σ → Nat) : Prop where
  noReentry : p.NoReentry
  looks : ∀ rule w, ∃ interested, p.interestEffect rule w = ⟨w, [], .ok interested⟩
  cancelReturns : ∀ rule w, (p.cancelEffect rule w).result = .ok ()
  cancelKeeps : ∀ rule w, good w → good (p.cancelEffect rule w).world ∧
    rank (p.cancelEffect rule w).world ≤ rank w ∧
    (p.cancelEffect rule w).world.wrappers = w.wrappers
  returns : ∀ rule w, owned rule → good w → (p.callback rule.callback w).result = .ok ()
  keeps : ∀ rule w, owned rule → good w → good (p.callback rule.callback w).world ∧
    rank (p.callback rule.callback w).world ≤ rank w
  lowers : ∀ rule w, owned rule → good w → ¬Defunct rule w →
    rank (p.callback rule.callback w).world < rank w
  serves : ∀ rule w, owned rule → good w →
    rule.serviceCount w ≠ rule.serviceCount (p.callback rule.callback w).world ∨
      (p.interestEffect rule (p.callback rule.callback w).world).result = .ok false

/-- The kernel has answered a poll: after the time was up, or with a report for an
interested rule and with no error condition. -/
def Heard (vector : List PollFd) (answer : PollAnswer) : Prop :=
  toInt answer.call.returnValue = 0 ∨
    (0 < toInt answer.call.returnValue ∧
      (∀ e ∈ reported vector answer, e.revents &&& (pollerr ||| pollnval) = 0) ∧
      ∃ e ∈ reported vector answer, e.events ≠ 0 ∧ e.revents &&& (e.events ||| pollhup) ≠ 0)

variable {owned : Rule H → Prop} {good : World σ → Prop} {rank : World σ → Nat}
  {nodes : List (Node (Rule H))} {events later : List (Event σ H)}
  {kept : List (Node (Rule H) × Entry)} {mid w' : World σ} {rule : Node (Rule H)}

/-! ## The first loop -/

/-- What the first loop leaves behind. -/
structure Surveyed (nodes : List (Node (Rule H))) (good : World σ → Prop) (rank : World σ → Nat)
    (w mid : World σ) (kept : List (Node (Rule H) × Entry)) : Prop where
  good : good mid
  notRaised : rank mid ≤ rank w
  wrappers : mid.wrappers = w.wrappers
  sublist : (kept.map (·.1)).Sublist nodes
  live : ∀ k ∈ kept, ¬Defunct k.1.val w
  asks : ∀ k ∈ kept, k.2.pollfd.events = requested k.1.val k.2.interested
  numbered : ∀ k ∈ kept, k.2.pollfd.fd = (w.wrappers k.1.val.fd).fd

theorem Defunct.congr {r : Rule H} (same : mid.wrappers = w.wrappers) :
    Defunct r mid ↔ Defunct r w := by
  unfold Defunct
  rw [same]

/-- The first loop of a ranked program does not throw. -/
theorem Survey.surveyed (ranked : Ranked p owned good rank) {e : Option Exn}
    (survey : Survey p nodes w events kept mid e) (sane : good w) :
    e = none ∧ Surveyed nodes good rank w mid kept := by
  induction survey with
  | done => exact ⟨rfl, sane, le_refl _, rfl, by simp, by simp, by simp, by simp⟩
  | @cancelled rule nodes w mid w' events later kept e here rest ih =>
      cases here with
      | cancelled defunct returned =>
          obtain ⟨sane', le, same⟩ := ranked.cancelKeeps rule.val w sane
          obtain ⟨quiet, after⟩ := ih sane'
          refine ⟨quiet, after.good, after.notRaised.trans le, after.wrappers.trans same,
            after.sublist.cons _, ?_, after.asks, ?_⟩
          · intro k member
            rw [← Defunct.congr same]
            exact after.live k member
          · intro k member
            rw [← same]
            exact after.numbered k member
  | @entered rule nodes w mid w' events later entry kept e here rest ih =>
      cases here with
      | @entered interested live returned =>
          obtain ⟨answer, looks⟩ := ranked.looks rule.val w
          rw [looks] at ih rest
          obtain ⟨quiet, after⟩ := ih sane
          refine ⟨quiet, after.good, after.notRaised, after.wrappers, ?_, ?_, ?_, ?_⟩
          · exact after.sublist.cons_cons _
          · intro k member
            rcases List.mem_cons.mp member with rfl | member
            · exact live
            · exact after.live k member
          · intro k member
            rcases List.mem_cons.mp member with rfl | member
            · rfl
            · exact after.asks k member
          · intro k member
            rcases List.mem_cons.mp member with rfl | member
            · simp [entryOf, looks]
            · exact after.numbered k member
  | @threw rule nodes w w' events e here =>
      exfalso
      cases here with
      | cancelThrew defunct threw =>
          rw [ranked.cancelReturns] at threw
          cases threw
      | interestThrew live threw =>
          obtain ⟨answer, looks⟩ := ranked.looks rule.val w
          rw [looks] at threw
          cases threw

/-! ## The second loop -/

/-- One iteration of the second loop, for a rule without an error condition. -/
theorem Reacts.ranked (ranked : Ranked p owned good rank) {r : Reaction}
    {result : Except Abort (LinkedList.Fate Unit)} (mine : owned rule.val) (sane : good w)
    (noError : r ≠ .error) (reacts : Reacts p rule w r events w' result) :
    (∃ fate, result = .ok fate) ∧ good w' ∧ rank w' ≤ rank w ∧
      (r = .ready → ¬Defunct rule.val w → rank w' < rank w) ∧
      (r = .hangup → events = [.cancel rule w (.ok ())]) ∧ (r = .idle → w' = w) := by
  have returns := ranked.returns rule.val w mine sane
  have keeps := ranked.keeps rule.val w mine sane
  have serves := ranked.serves rule.val w mine sane
  cases reacts with
  | error => exact absurd rfl noError
  | hangup returned =>
      obtain ⟨sane', le, -⟩ := ranked.cancelKeeps rule.val w sane
      exact ⟨⟨_, rfl⟩, sane', le, nofun, fun _ => rfl, nofun⟩
  | hangupThrew threw =>
      rw [ranked.cancelReturns] at threw
      cases threw
  | callbackThrew threw =>
      rw [returns] at threw
      cases threw
  | serviced called counted =>
      have lowers := ranked.lowers rule.val w mine sane
      rw [called] at keeps lowers
      exact ⟨⟨_, rfl⟩, keeps.1, keeps.2, fun _ => lowers, nofun, nofun⟩
  | @uninterested mid added called same returned =>
      have lowers := ranked.lowers rule.val w mine sane
      rw [called] at keeps lowers
      obtain ⟨answer, looks⟩ := ranked.looks rule.val mid
      rw [looks]
      exact ⟨⟨_, rfl⟩, keeps.1, keeps.2, fun _ => lowers, nofun, nofun⟩
  | @busy mid added called same returned =>
      rw [called] at serves
      rcases serves with counted | uninterested
      · exact absurd same counted
      · rw [returned] at uninterested
        cases uninterested
  | @interestThrew mid added e called same threw =>
      obtain ⟨answer, looks⟩ := ranked.looks rule.val mid
      rw [looks] at threw
      cases threw
  | idle => exact ⟨⟨_, rfl⟩, sane, le_refl _, nofun, nofun, fun _ => rfl⟩

/-- What is to be done about a polled rule. -/
def Polled.reaction (q : Polled H) : Reaction :=
  EventLoop.reaction q.rule.val.direction q.interested q.revents

variable {qs : List (Polled H)} {outcome : Outcome}

/-- The second loop of a ranked program does not throw. -/
theorem Dispatch.ranked (ranked : Ranked p owned good rank)
    (dispatch : Dispatch p qs w events w' outcome) (sane : good w)
    (mine : ∀ q ∈ qs, owned q.rule.val) (noError : ∀ q ∈ qs, q.reaction ≠ .error) :
    outcome = .returned .Success ∧ good w' ∧ rank w' ≤ rank w := by
  induction dispatch with
  | done => exact ⟨rfl, sane, le_refl _⟩
  | @reacts q qs w mid w' events later fate outcome here rest ih =>
      obtain ⟨-, sane', le, -⟩ := here.ranked ranked (mine q (List.mem_cons_self ..)) sane
        (noError q (List.mem_cons_self ..))
      obtain ⟨success, sane'', le'⟩ := ih sane'
        (fun q member => mine q (List.mem_cons_of_mem _ member))
        (fun q member => noError q (List.mem_cons_of_mem _ member))
      exact ⟨success, sane'', le'.trans le⟩
  | @threw q qs w w' events e here =>
      obtain ⟨⟨fate, wrong⟩, -⟩ := here.ranked ranked (mine q (List.mem_cons_self ..)) sane
        (noError q (List.mem_cons_self ..))
      cases wrong

/-- If some rule is not idle, the second loop lowers the rank or cancels a rule: all is
as the first loop left it when the first such rule is served. -/
theorem Dispatch.progress (ranked : Ranked p owned good rank)
    (dispatch : Dispatch p qs w events w' outcome) (sane : good w)
    (mine : ∀ q ∈ qs, owned q.rule.val) (noError : ∀ q ∈ qs, q.reaction ≠ .error)
    (live : ∀ q ∈ qs, ¬Defunct q.rule.val w) (acts : ∃ q ∈ qs, q.reaction ≠ .idle) :
    rank w' < rank w ∨ ∃ q ∈ qs, ∃ before, Event.cancel q.rule before (.ok ()) ∈ events := by
  induction dispatch with
  | done =>
      obtain ⟨q, member, -⟩ := acts
      cases member
  | @reacts q qs w mid w' events later fate outcome here rest ih =>
      have head := List.mem_cons_self (a := q) (l := qs)
      have mine' : ∀ q ∈ qs, owned q.rule.val :=
        fun q member => mine q (List.mem_cons_of_mem _ member)
      have noError' : ∀ q ∈ qs, q.reaction ≠ .error :=
        fun q member => noError q (List.mem_cons_of_mem _ member)
      obtain ⟨-, sane', -, lowers, hangs, idles⟩ :=
        here.ranked ranked (mine q head) sane (noError q head)
      cases reaction : q.reaction with
      | error => exact absurd reaction (noError q head)
      | hangup =>
          right
          refine ⟨q, head, w, ?_⟩
          rw [hangs reaction]
          exact List.mem_cons_self ..
      | ready =>
          left
          obtain ⟨-, -, le⟩ := rest.ranked ranked sane' mine' noError'
          exact le.trans_lt (lowers reaction (live q head))
      | idle =>
          obtain rfl := idles reaction
          have acts' : ∃ q ∈ qs, q.reaction ≠ .idle := by
            obtain ⟨q', member, acts⟩ := acts
            rcases List.mem_cons.mp member with rfl | member
            · exact absurd reaction acts
            · exact ⟨q', member, acts⟩
          rcases ih sane' mine' noError'
              (fun q member => live q (List.mem_cons_of_mem _ member)) acts' with
            lower | ⟨q', member, before, logged⟩
          · exact .inl lower
          · exact .inr ⟨q', List.mem_cons_of_mem _ member, before, List.mem_append_right _ logged⟩
  | @threw q qs w w' events e here =>
      obtain ⟨⟨fate, wrong⟩, -⟩ := here.ranked ranked (mine q (List.mem_cons_self ..)) sane
        (noError q (List.mem_cons_self ..))
      cases wrong

/-! ## A whole call -/

theorem mem_polled {revents : Nat → BitVec 16} {q : Polled H} (member : q ∈ polled kept revents) :
    ∃ k ∈ kept, q.rule = k.1 := by
  rw [polled, List.mem_mapIdx] at member
  obtain ⟨i, bound, rfl⟩ := member
  exact ⟨kept[i], List.getElem_mem _, rfl⟩

theorem PollFd.reaction_ne_error {e : PollFd} (clear : e.revents &&& (pollerr ||| pollnval) = 0) :
    e.reaction ≠ .error := by
  unfold PollFd.reaction
  rw [if_neg (not_not.mpr clear)]
  split_ifs <;> decide

theorem PollFd.reaction_ne_idle {e : PollFd} (asked : e.events ≠ 0)
    (heard : e.revents &&& (e.events ||| pollhup) ≠ 0) : e.reaction ≠ .idle := by
  unfold PollFd.reaction
  by_cases error : e.revents &&& (pollerr ||| pollnval) ≠ 0
  · rw [if_pos error]
    decide
  · rw [if_neg error]
    by_cases ready : e.revents &&& e.events ≠ 0
    · rw [if_neg fun hangup => hangup.2.2 ready, if_pos ready]
      decide
    · have hup : e.revents &&& pollhup ≠ 0 := by
        intro silent
        apply heard
        rw [BitVec.and_or_distrib_left, not_not.mp ready, silent]
        rfl
      rw [if_pos ⟨hup, asked, ready⟩]
      decide

/-- The entries of the vector lead to the reactions of their rules. -/
theorem polled_reaction (asks : ∀ k ∈ kept, k.2.pollfd.events = requested k.1.val k.2.interested)
    (answer : PollAnswer) :
    (polled kept answer.revents).map Polled.reaction =
      (reported (kept.map (·.2.pollfd)) answer).map PollFd.reaction := by
  refine List.ext_getElem (by simp [polled, reported]) fun i _ _ => ?_
  have bound : i < kept.length := by simp_all [polled]
  have here := PollFd.report_reaction (asks kept[i] (List.getElem_mem bound)) (answer.revents i)
  simp [polled, reported, Polled.reaction, here]

/-- What the kernel has reported for the vector is heard by the rules. -/
theorem Heard.polled (asks : ∀ k ∈ kept, k.2.pollfd.events = requested k.1.val k.2.interested)
    {answer : PollAnswer} (heard : Heard (kept.map (·.2.pollfd)) answer)
    (reports : toInt answer.call.returnValue ≠ 0) :
    (∀ q ∈ EventLoop.polled kept answer.revents, q.reaction ≠ .error) ∧
      ∃ q ∈ EventLoop.polled kept answer.revents, q.reaction ≠ .idle := by
  have reactions := polled_reaction asks answer
  rcases heard with zero | ⟨-, clear, e, member, asked, heard⟩
  · exact absurd zero reports
  refine ⟨?_, ?_⟩
  · intro q member
    have mapped : q.reaction ∈ (reported (kept.map (·.2.pollfd)) answer).map PollFd.reaction := by
      rw [← reactions]
      exact List.mem_map_of_mem member
    obtain ⟨e, member, same⟩ := List.mem_map.mp mapped
    rw [← same]
    exact PollFd.reaction_ne_error (clear e member)
  · have mapped : e.reaction ∈ (EventLoop.polled kept answer.revents).map Polled.reaction := by
      rw [reactions]
      exact List.mem_map_of_mem member
    obtain ⟨q, member, same⟩ := List.mem_map.mp mapped
    refine ⟨q, member, ?_⟩
    rw [same]
    exact PollFd.reaction_ne_idle asked heard

/-- The bound on what is left to do: the rank and the number of rules. -/
def potential (rank : World σ → Nat) (s : System σ H) : Nat :=
  rank s.world + s.rules.nodes.length

/-- A call of a ranked program that the kernel answers. -/
def Answering : System σ H → Op σ H → Prop
  | _, .waitNextEvent _ poll timeoutMs =>
      ∀ vector : List PollFd, (∃ e ∈ vector, e.events ≠ 0) → Heard vector (poll vector timeoutMs)
  | _, _ => False

/-- What holds between the calls. -/
structure Sane (owned : Rule H → Prop) (good : World σ → Prop) (s : System σ H) : Prop where
  mine : ∀ n ∈ s.rules.nodes, owned n.val
  good : good s.world

/-- Some entry of the vector asks for something if some rule is interested. -/
theorem exists_asking (asks : ∀ k ∈ kept, k.2.pollfd.events = requested k.1.val k.2.interested)
    (somebody : kept.any (·.2.interested) = true) :
    ∃ e ∈ kept.map (·.2.pollfd), e.events ≠ 0 := by
  obtain ⟨k, member, interested⟩ := List.any_eq_true.mp somebody
  refine ⟨k.2.pollfd, List.mem_map_of_mem member, ?_⟩
  rw [asks k member, interested]
  exact k.1.val.direction.events_ne_zero

/-- How a call of a ranked program ends, and what it has achieved by then. -/
structure Advances (good : World σ → Prop) (rank : World σ → Nat) (nodes : List (Node (Rule H)))
    (w : World σ) (events : List (Event σ H)) (w' : World σ) (outcome : Outcome) : Prop where
  returned : outcome = .returned .Success ∨ outcome = .returned .Timeout ∨
    outcome = .returned .Exit
  good : good w'
  notRaised : rank w' ≤ rank w
  success : outcome = .returned .Success → rank w' < rank w ∨
    ∃ n ∈ nodes, ∃ before, Event.cancel n before (.ok ()) ∈ events

theorem Performs.advances (ranked : Ranked p owned good rank) {poll : Poll} {timeoutMs : Int}
    (performs : Performs p poll timeoutMs nodes w events w' outcome) (sane : good w)
    (mine : ∀ n ∈ nodes, owned n.val)
    (answering : ∀ vector : List PollFd, (∃ e ∈ vector, e.events ≠ 0) →
      Heard vector (poll vector timeoutMs)) :
    Advances good rank nodes w events w' outcome := by
  cases performs with
  | setupThrew survey => cases (survey.surveyed ranked sane).1
  | nothing survey nobody =>
      have surveyed := (survey.surveyed ranked sane).2
      exact ⟨.inr (.inr rfl), surveyed.good, surveyed.notRaised, nofun⟩
  | timeout survey somebody asked zero =>
      have surveyed := (survey.surveyed ranked sane).2
      exact ⟨.inr (.inl rfl), surveyed.good, surveyed.notRaised, nofun⟩
  | @interrupted _ kept _ answer survey somebody asked failed signal =>
      have surveyed := (survey.surveyed ranked sane).2
      have heard := answering _ (exists_asking surveyed.asks somebody)
      rw [asked] at heard
      rcases heard with zero | ⟨positive, -⟩ <;> omega
  | @dispatched _ _ kept mid _ answer _ survey somebody asked goesOn dispatch =>
      have surveyed := (survey.surveyed ranked sane).2
      have heard := answering _ (exists_asking surveyed.asks somebody)
      rw [asked] at heard
      obtain ⟨noError, acts⟩ := heard.polled surveyed.asks (by
        rcases goesOn with positive | ⟨negative, -⟩ <;> omega)
      have inside : ∀ q ∈ polled kept answer.revents, q.rule ∈ nodes ∧
          ¬Defunct q.rule.val mid := by
        intro q member
        obtain ⟨k, member, same⟩ := mem_polled member
        rw [same, Defunct.congr surveyed.wrappers]
        exact ⟨surveyed.sublist.subset (List.mem_map_of_mem member), surveyed.live k member⟩
      have mine' : ∀ q ∈ polled kept answer.revents, owned q.rule.val :=
        fun q member => mine _ (inside q member).1
      obtain ⟨success, good', le⟩ := dispatch.ranked ranked surveyed.good mine' noError
      refine ⟨.inl success, good', le.trans surveyed.notRaised, fun _ => ?_⟩
      rcases dispatch.progress ranked surveyed.good mine' noError
        (fun q member => (inside q member).2) acts with lower | ⟨q, member, before, logged⟩
      · exact .inl (lower.trans_le surveyed.notRaised)
      · exact .inr ⟨q.rule, (inside q member).1, before, List.mem_append_right _ logged⟩

theorem removed_iff {n : Nat} :
    LinkedList.removed Event.about Event.removes events n = true ↔
      ∃ e ∈ events, e.removes = true ∧ e.rule.id = n := by
  simp [LinkedList.removed, Event.about]

/-- A rule whose cancel function has returned is not in the list any more. -/
theorem length_filter_removed_lt {n : Node (Rule H)} {before : World σ} (member : n ∈ nodes)
    (logged : Event.cancel n before (.ok ()) ∈ events) :
    (nodes.filter fun n => !LinkedList.removed Event.about Event.removes events n.id).length <
      nodes.length := by
  have gone : LinkedList.removed Event.about Event.removes events n.id = true :=
    removed_iff.mpr ⟨_, logged, rfl, rfl⟩
  rw [List.length_filter_lt_length_iff_exists]
  exact ⟨n, member, by simp [gone]⟩

/-- A call of a ranked program returns, keeps what holds between the calls, and lowers the
potential if it returns `Success`. -/
theorem step_advances (ranked : Ranked p owned good rank) {s : System σ H} {op : Op σ H}
    (sane : Sane owned good s) (answering : Answering s op) :
    Sane owned good (System.step p s op).1 ∧
      ((System.step p s op).2 = some (.returned .Success) ∨
        (System.step p s op).2 = some (.returned .Timeout) ∨
        (System.step p s op).2 = some (.returned .Exit)) ∧
      potential rank (System.step p s op).1 +
          (if (System.step p s op).2 = some (.returned .Success) then 1 else 0) ≤
        potential rank s := by
  cases op with
  | addRule rule => cases answering
  | other change => cases answering
  | waitNextEvent spare poll timeoutMs =>
      have performs := waitNextEvent_performs ranked.noReentry spare poll timeoutMs s.rules s.world
      have left := waitNextEvent_rules ranked.noReentry spare poll timeoutMs s.rules s.world
      have advances := performs.advances ranked sane.good sane.mine answering
      have shorter := List.length_filter_le (fun n : Node (Rule H) =>
        !LinkedList.removed Event.about Event.removes
          (waitNextEvent p spare poll timeoutMs s.rules s.world).trace n.id) s.rules.nodes
      simp only [System.step, potential, Option.some.injEq]
      rw [left]
      refine ⟨⟨?_, advances.good⟩, advances.returned, ?_⟩
      · intro n member
        have member : n ∈ (waitNextEvent p spare poll timeoutMs s.rules s.world).rules.nodes :=
          member
        rw [left] at member
        exact sane.mine n (List.mem_filter.mp member).1
      · have le := advances.notRaised
        split
        · next success =>
          rcases advances.success success with lower | ⟨n, member, before, logged⟩
          · omega
          · have fewer := length_filter_removed_lt member logged
            omega
        · omega

section Run

variable {s : System σ H} {ops : List (Op σ H)}

theorem sane_step (ranked : Ranked p owned good rank) (s : System σ H) (op : Op σ H)
    (sane : Sane owned good s) (answering : Answering s op) :
    Sane owned good (System.step p s op).1 :=
  (step_advances ranked sane answering).1

theorem run_returned (ranked : Ranked p owned good rank) (sane : Sane owned good s)
    (answering : Runs.Along (System.step p) Answering s ops) :
    ∀ o ∈ (Runs.run (System.step p) s ops).2, o = some (.returned .Success) ∨
      o = some (.returned .Timeout) ∨ o = some (.returned .Exit) := by
  have returned : ∀ s op, Sane owned good s → Answering s op →
      (System.step p s op).2 = some (.returned .Success) ∨
        (System.step p s op).2 = some (.returned .Timeout) ∨
        (System.step p s op).2 = some (.returned .Exit) :=
    fun s op sane answering => (step_advances ranked sane answering).2.1
  exact Runs.run_outputs (sane_step ranked) returned sane answering

theorem run_count_success_le (ranked : Ranked p owned good rank) (sane : Sane owned good s)
    (answering : Runs.Along (System.step p) Answering s ops) :
    (Runs.run (System.step p) s ops).2.count (some (.returned .Success)) ≤ potential rank s := by
  have lowers : ∀ s op, Sane owned good s → Answering s op →
      potential rank (System.step p s op).1 +
          (if (System.step p s op).2 == some (.returned .Success) then 1 else 0) ≤
        potential rank s :=
    fun s op sane answering => by simpa using (step_advances ranked sane answering).2.2
  have counted := Runs.run_countP_le (potential rank)
    (fun o : Option Outcome => o == some (.returned .Success)) (sane_step ranked) lowers sane
    answering
  exact (Nat.le_add_right _ _).trans counted

/-- Enough calls that do not time out lead to `Exit`: all other ones succeed. -/
theorem run_exits (ranked : Ranked p owned good rank) (sane : Sane owned good s)
    (answering : Runs.Along (System.step p) Answering s ops)
    (long : potential rank s < ops.length)
    (blocking : some (.returned .Timeout) ∉ (Runs.run (System.step p) s ops).2) :
    some (.returned .Exit) ∈ (Runs.run (System.step p) s ops).2 := by
  by_contra never
  have all : ∀ o ∈ (Runs.run (System.step p) s ops).2, some (.returned .Success) = o := by
    intro o member
    rcases run_returned ranked sane answering o member with success | timeout | exit
    · exact success.symm
    · exact absurd (timeout ▸ member) blocking
    · exact absurd (exit ▸ member) never
  have bound := run_count_success_le ranked sane answering
  rw [List.count_eq_length.mpr all, Runs.length_run] at bound
  omega

/-- **The loop comes to an end.** Let a program have a rank, and let it call
`wait_next_event` any number of times, with a kernel that answers. No call throws;
the number of calls that return `Success` is at most the rank of the world plus the
number of rules; so if there are more calls than that and none times out, one has
returned `Exit`. -/
theorem loop_exits (ranked : Ranked p owned good rank) (sane : Sane owned good s)
    (answering : Runs.Along (System.step p) Answering s ops) :
    let outcomes := (Runs.run (System.step p) s ops).2
    (∀ o ∈ outcomes, o = some (.returned .Success) ∨ o = some (.returned .Timeout) ∨
      o = some (.returned .Exit)) ∧
    outcomes.count (some (.returned .Success)) ≤ rank s.world + s.rules.nodes.length ∧
    (rank s.world + s.rules.nodes.length < ops.length →
      some (.returned .Timeout) ∉ outcomes → some (.returned .Exit) ∈ outcomes) :=
  ⟨run_returned ranked sane answering, run_count_success_le ranked sane answering,
    run_exits ranked sane answering⟩

end Run

/-- A kernel that reports input and a hangup for every entry. -/
def hangingUp : Poll := fun _ _ => ⟨⟨1, 0⟩, fun _ => pollin ||| pollhup⟩

theorem hangingUp_heard (vector : List PollFd) (timeoutMs : Int)
    (asks : ∃ e ∈ vector, e.events ≠ 0) : Heard vector (hangingUp vector timeoutMs) := by
  right
  refine ⟨(by decide : 0 < toInt 1), ?_, ?_⟩
  · intro e member
    rw [reported, List.mem_mapIdx] at member
    obtain ⟨i, bound, rfl⟩ := member
    exact (by decide : (pollin ||| pollhup) &&& (pollerr ||| pollnval) = 0)
  · obtain ⟨e, member, asked⟩ := asks
    obtain ⟨i, bound, rfl⟩ := List.getElem_of_mem member
    refine ⟨vector[i].report (pollin ||| pollhup), ?_, asked, ?_⟩
    · rw [reported, List.mem_mapIdx]
      exact ⟨i, bound, rfl⟩
    · intro silent
      have silent : (pollin ||| pollhup) &&& (vector[i].events ||| pollhup) = 0#16 := silent
      rw [BitVec.and_or_distrib_left, BitVec.or_eq_zero_iff] at silent
      exact absurd silent.2 (by decide)

/-- The world of the program `drained`, whose callback finds the end of descriptor 0. -/
theorem drained_ranked :
    Ranked drained (· = ⟨0, .In, 0, none, none⟩) (fun _ => True)
      fun w => if (w.wrappers 0).eof then 0 else 1 := by
  have read : ∀ wrapper : FDWrapper, (FileDescriptor.read wrapper 1 ⟨0, 0⟩ []).1 =
      { wrapper with eof := true, readCount := wrapper.readCount + 1 } := by
    intro wrapper
    have answers : FileDescriptor.Answers [] (min FileDescriptor.bufferSize 1) ⟨0, 0⟩ [] :=
      ⟨by decide, by decide, by decide, by decide, by decide⟩
    rw [FileDescriptor.read_answered wrapper answers]
    simp
  refine ⟨⟨fun _ _ => rfl, fun _ _ => rfl, fun _ _ => rfl⟩, ?_, ?_, ?_, ?_, ?_, ?_, ?_⟩
  · exact fun rule w => ⟨true, drained.interestEffect_rule (· = ⟨w, [], .ok true⟩) rule rfl
      fun _ => rfl⟩
  · exact fun rule w => drained.cancelEffect_rule (·.result = .ok ()) rule rfl fun _ => rfl
  · intro rule w _
    have looks : drained.cancelEffect rule w = ⟨w, [], .ok ()⟩ :=
      drained.cancelEffect_rule (· = ⟨w, [], .ok ()⟩) rule rfl fun _ => rfl
    rw [looks]
    exact ⟨trivial, le_refl _, rfl⟩
  · exact fun _ _ _ _ => rfl
  · rintro rule w rfl -
    refine ⟨trivial, ?_⟩
    simp [drained, World.update, read]
  · rintro rule w rfl - live
    have unended : (w.wrappers 0).eof = false :=
      Bool.eq_false_iff.mpr fun eof => live (.inl ⟨rfl, eof⟩)
    simp [drained, World.update, read, unended]
  · rintro rule w rfl -
    left
    simp only [Rule.serviceCount, drained, World.update, Function.update_self, read]
    exact readCount_ne _

/-- The callback finds the end, and the second call exits. -/
theorem loop_exits_drained :
    some (Outcome.returned .Exit) ∈
      (Runs.run (System.step drained) ⟨addRule .empty ⟨0, .In, 0, none, none⟩, openWorld, []⟩
        [.waitNextEvent 0 hangingUp (-1), .waitNextEvent 0 hangingUp (-1),
          .waitNextEvent 0 hangingUp (-1)]).2 := by
  have sane : Sane (· = ⟨0, .In, 0, none, none⟩) (fun _ => True)
      (⟨addRule .empty ⟨0, .In, 0, none, none⟩, openWorld, []⟩ : System Unit Nat) :=
    ⟨by simp [addRule, LinkedList.pushBack, LinkedList.empty], trivial⟩
  have heard : ∀ s : System Unit Nat, Answering s (.waitNextEvent 0 hangingUp (-1)) :=
    fun _ vector => hangingUp_heard vector (-1)
  have answering : Runs.Along (System.step drained) Answering
      ⟨addRule .empty ⟨0, .In, 0, none, none⟩, openWorld, []⟩
      [.waitNextEvent 0 hangingUp (-1), .waitNextEvent 0 hangingUp (-1),
        .waitNextEvent 0 hangingUp (-1)] := ⟨heard _, heard _, heard _, trivial⟩
  exact (loop_exits drained_ranked sane answering).2.2 (by decide) (by decide +kernel)

end EventLoop

end Sponge
