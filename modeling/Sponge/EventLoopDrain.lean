import Mathlib.Algebra.Order.BigOperators.Group.Finset
import Sponge.EventLoopTermination
import Sponge.FileDescriptorRead

/-!
# Reading streams to their end through an event loop

A program that reads several finite streams: a rule for each descriptor, whose
callback calls `read`, and calls of `wait_next_event` until it returns `Exit`. The
kernel hands out the streams in pieces of any size and reports what it likes first.
The loop exits, and by then every stream has been read completely.
-/

namespace Sponge

namespace EventLoop

open LinkedList (Node)

/-! ## The program -/

/-- What the kernel has yet to deliver on each number, and what was read from it. -/
structure Streams where
  remaining : Nat → Bytes
  delivered : Nat → Bytes

/-- How many bytes the kernel hands out of what remains on a number. It hands out some if
there are any, and no more than there are or were asked for. -/
def handedOut (chunks : Nat → Bytes → Nat) (number size : Nat) (rest : Bytes) : Nat :=
  min (max 1 (chunks number rest)) (min size rest.length)

/-- The callbacks are named by the descriptor that they read from. -/
def drainer (limit : Nat) (chunks : Nat → Bytes → Nat) : Program Streams Nat where
  callback a w :=
    let number := (w.wrappers a).fd
    let rest := w.user.remaining number
    let count := handedOut chunks number (min FileDescriptor.bufferSize limit) rest
    let read := FileDescriptor.read (w.wrappers a) limit ⟨count, 0⟩ (rest.take count)
    ⟨⟨Function.update w.wrappers a read.1,
        ⟨Function.update w.user.remaining number (rest.drop count),
          Function.update w.user.delivered number
            (w.user.delivered number ++ FileDescriptor.delivered [some read.2])⟩⟩,
      [], read.2.map fun _ => ()⟩
  interest _ w := ⟨w, [], .ok true⟩
  cancel _ w := ⟨w, [], .ok ()⟩

/-- The rule for a descriptor, with the default functions of `add_rule`. -/
def drainRule (a : Nat) : Rule Nat := { fd := a, direction := .In, callback := a }

/-- All descriptors are open and nothing was read. -/
def undrained (numbers : Nat → Nat) (streams : Nat → Bytes) : World Streams :=
  ⟨fun a => ⟨numbers a, false, false, 0, 0⟩, ⟨streams, fun _ => []⟩⟩

/-- The program after it has registered its rules. -/
def drainStart (fds : List Nat) (numbers : Nat → Nat) (streams : Nat → Bytes) :
    System Streams Nat :=
  ⟨fds.foldl (fun rules a => addRule rules (drainRule a)) .empty, undrained numbers streams, []⟩

variable {fds : List Nat} {numbers : Nat → Nat} {streams : Nat → Bytes} {limit : Nat}
  {chunks : Nat → Bytes → Nat} {w w' mid : World Streams} {a : Nat}

/-- What the callbacks keep. -/
structure Draining (numbers : Nat → Nat) (streams : Nat → Bytes) (w : World Streams) : Prop where
  number : ∀ a, (w.wrappers a).fd = numbers a
  opened : ∀ a, (w.wrappers a).closed = false
  ended : ∀ a, (w.wrappers a).eof = true → w.user.remaining (numbers a) = []
  conserved : ∀ n, w.user.delivered n ++ w.user.remaining n = streams n

/-- The bytes that remain and the descriptors whose end was not found. -/
def drainRank (fds : List Nat) (numbers : Nat → Nat) (w : World Streams) : Nat :=
  (∑ n ∈ (fds.map numbers).toFinset, (w.user.remaining n).length) +
    ∑ a ∈ fds.toFinset, if (w.wrappers a).eof then 0 else 1

/-! ## One callback -/

theorem handedOut_answers {size : Nat} (asked : 0 < size) (chunks : Nat → Bytes → Nat)
    (number : Nat) (rest : Bytes) :
    FileDescriptor.Answers rest size ⟨handedOut chunks number size rest, 0⟩
      (rest.take (handedOut chunks number size rest)) := by
  have low : handedOut chunks number size rest ≤ min size rest.length := Nat.min_le_right _ _
  refine ⟨by simp, ?_, ?_, ?_, ?_⟩
  · dsimp only
    omega
  · dsimp only
    omega
  · intro _ some
    have length : 0 < rest.length := List.length_pos_iff.mpr some
    dsimp only [handedOut]
    omega
  · dsimp only
    rw [Int.toNat_natCast, List.take_take, Nat.min_self]

/-- The world after `count` bytes were read through a descriptor. -/
def taken (a count : Nat) (w : World Streams) : World Streams :=
  ⟨Function.update w.wrappers a { w.wrappers a with
      eof := (w.wrappers a).eof || count = 0
      readCount := (w.wrappers a).readCount + 1 },
    ⟨Function.update w.user.remaining (w.wrappers a).fd
        ((w.user.remaining (w.wrappers a).fd).drop count),
      Function.update w.user.delivered (w.wrappers a).fd
        (w.user.delivered (w.wrappers a).fd ++
          (w.user.remaining (w.wrappers a).fd).take count)⟩⟩

/-- A callback takes some of what remains, and nothing only if nothing does. -/
theorem drainer_callback (positive : 0 < limit) (chunks : Nat → Bytes → Nat) (a : Nat)
    (w : World Streams) :
    ∃ count, (count = 0 ↔ w.user.remaining (w.wrappers a).fd = []) ∧
      (drainer limit chunks).callback a w = ⟨taken a count w, [], .ok ()⟩ := by
  have size : 0 < min FileDescriptor.bufferSize limit := Nat.lt_min.mpr ⟨by decide, positive⟩
  have answers := handedOut_answers size chunks (w.wrappers a).fd
    (w.user.remaining (w.wrappers a).fd)
  unfold drainer
  dsimp only
  generalize handedOut chunks (w.wrappers a).fd (min FileDescriptor.bufferSize limit)
    (w.user.remaining (w.wrappers a).fd) = count at answers ⊢
  have read := FileDescriptor.read_answered (w.wrappers a) answers
  refine ⟨count, ?_, ?_⟩
  · refine ⟨fun none => answers.ended positive (by simp [none]), fun nothing => ?_⟩
    have available := answers.available
    rw [nothing] at available
    exact Nat.le_zero.mp available
  · rw [read]
    simp [taken, positive, Except.map, FileDescriptor.delivered]

theorem taken_fd (a count : Nat) (w : World Streams) (b : Nat) :
    ((taken a count w).wrappers b).fd = (w.wrappers b).fd := by
  by_cases here : b = a
  · simp [taken, here]
  · simp [taken, here]

theorem taken_closed (a count : Nat) (w : World Streams) (b : Nat) :
    ((taken a count w).wrappers b).closed = (w.wrappers b).closed := by
  by_cases here : b = a
  · simp [taken, here]
  · simp [taken, here]

theorem taken_eof (a count : Nat) (w : World Streams) (b : Nat) :
    ((taken a count w).wrappers b).eof = ((w.wrappers b).eof || (b = a && count = 0)) := by
  by_cases here : b = a
  · simp [taken, here]
  · simp [taken, here]

theorem taken_remaining (a count : Nat) (w : World Streams) (n : Nat) :
    (taken a count w).user.remaining n =
      if n = (w.wrappers a).fd then (w.user.remaining n).drop count else w.user.remaining n := by
  split
  · next here => simp [taken, here]
  · next other => simp [taken, other]

theorem taken_conserved (a count : Nat) (w : World Streams) (n : Nat) :
    (taken a count w).user.delivered n ++ (taken a count w).user.remaining n =
      w.user.delivered n ++ w.user.remaining n := by
  by_cases here : n = (w.wrappers a).fd
  · simp [taken, here]
  · simp [taken, here]

theorem taken_suffix (a count : Nat) (w : World Streams) (n : Nat) :
    (taken a count w).user.remaining n <:+ w.user.remaining n := by
  rw [taken_remaining]
  split
  · exact List.drop_suffix _ _
  · exact List.suffix_refl _

theorem Draining.taken {count : Nat} (draining : Draining numbers streams w)
    (found : count = 0 ↔ w.user.remaining (w.wrappers a).fd = []) :
    Draining numbers streams (taken a count w) := by
  refine ⟨?_, ?_, ?_, ?_⟩
  · intro b
    rw [taken_fd, draining.number]
  · intro b
    rw [taken_closed, draining.opened]
  · intro b eof
    have nothing : w.user.remaining (numbers b) = [] := by
      rw [taken_eof, Bool.or_eq_true, Bool.and_eq_true, decide_eq_true_eq, decide_eq_true_eq] at eof
      rcases eof with before | ⟨rfl, none⟩
      · exact draining.ended b before
      · -- A read that gets nothing has found nothing.
        rw [← draining.number b]
        exact found.mp none
    have left := taken_suffix a count w (numbers b)
    rw [nothing] at left
    exact List.suffix_nil.mp left
  · intro n
    rw [taken_conserved, draining.conserved]

/-! ## The rank -/

theorem unended_taken_le (a count : Nat) (w : World Streams) (b : Nat) :
    (if ((taken a count w).wrappers b).eof then 0 else 1) ≤
      if (w.wrappers b).eof then 0 else 1 := by
  rw [taken_eof]
  cases (w.wrappers b).eof with
  | true => simp
  | false => split <;> simp

theorem drainRank_taken_le (fds : List Nat) (numbers : Nat → Nat) (a count : Nat)
    (w : World Streams) : drainRank fds numbers (taken a count w) ≤ drainRank fds numbers w := by
  apply Nat.add_le_add
  · exact Finset.sum_le_sum fun n _ => (taken_suffix a count w n).length_le
  · exact Finset.sum_le_sum fun b _ => unended_taken_le a count w b

theorem drainRank_taken_lt {count : Nat} (draining : Draining numbers streams w)
    (found : count = 0 ↔ w.user.remaining (w.wrappers a).fd = []) (mine : a ∈ fds)
    (unended : (w.wrappers a).eof = false) :
    drainRank fds numbers (taken a count w) < drainRank fds numbers w := by
  by_cases none : count = 0
  · -- The end is found.
    apply Nat.add_lt_add_of_le_of_lt
    · exact Finset.sum_le_sum fun n _ => (taken_suffix a count w n).length_le
    · apply Finset.sum_lt_sum (fun b _ => unended_taken_le a count w b)
      refine ⟨a, List.mem_toFinset.mpr mine, ?_⟩
      simp [taken_eof, none, unended]
  · -- Some bytes are read.
    apply Nat.add_lt_add_of_lt_of_le
    · apply Finset.sum_lt_sum (fun n _ => (taken_suffix a count w n).length_le)
      refine ⟨numbers a, List.mem_toFinset.mpr (List.mem_map_of_mem mine), ?_⟩
      have some : 0 < (w.user.remaining (numbers a)).length := by
        rw [List.length_pos_iff, ← draining.number a]
        exact fun nothing => none (found.mpr nothing)
      rw [taken_remaining, if_pos (draining.number a).symm, List.length_drop]
      omega
    · exact Finset.sum_le_sum fun b _ => unended_taken_le a count w b

/-- The rules of the program. -/
def Drains (fds : List Nat) (rule : Rule Nat) : Prop := ∃ a ∈ fds, rule = drainRule a

theorem drainer_noReentry (limit : Nat) (chunks : Nat → Bytes → Nat) :
    (drainer limit chunks).NoReentry :=
  ⟨fun _ _ => rfl, fun _ _ => rfl, fun _ _ => rfl⟩

/-- All interest functions and cancel functions of the program only look. -/
theorem drainer_interestEffect (rule : Rule Nat) (w : World Streams) :
    (drainer limit chunks).interestEffect rule w = ⟨w, [], .ok true⟩ :=
  (drainer limit chunks).interestEffect_rule (· = ⟨w, [], .ok true⟩) rule rfl fun _ => rfl

theorem drainer_cancelEffect (rule : Rule Nat) (w : World Streams) :
    (drainer limit chunks).cancelEffect rule w = ⟨w, [], .ok ()⟩ :=
  (drainer limit chunks).cancelEffect_rule (· = ⟨w, [], .ok ()⟩) rule rfl fun _ => rfl

theorem drainer_ranked (positive : 0 < limit) (chunks : Nat → Bytes → Nat) (fds : List Nat)
    (numbers : Nat → Nat) (streams : Nat → Bytes) :
    Ranked (drainer limit chunks) (Drains fds) (Draining numbers streams)
      (drainRank fds numbers) where
  noReentry := drainer_noReentry limit chunks
  looks rule w := ⟨true, drainer_interestEffect rule w⟩
  cancelReturns rule w := by rw [drainer_cancelEffect]
  cancelKeeps rule w draining := by
    rw [drainer_cancelEffect]
    exact ⟨draining, le_refl _, rfl⟩
  returns rule w mine draining := by
    obtain ⟨count, found, called⟩ := drainer_callback positive chunks rule.callback w
    rw [called]
  keeps rule w mine draining := by
    obtain ⟨count, found, called⟩ := drainer_callback positive chunks rule.callback w
    rw [called]
    exact ⟨draining.taken found, drainRank_taken_le fds numbers _ count w⟩
  lowers rule w mine draining live := by
    obtain ⟨a, member, rfl⟩ := mine
    obtain ⟨count, found, called⟩ := drainer_callback positive chunks a w
    have unended : (w.wrappers a).eof = false := by
      rw [Bool.eq_false_iff]
      exact fun eof => live (.inl ⟨rfl, eof⟩)
    rw [drainRule, called]
    exact drainRank_taken_lt draining found member unended
  serves rule w mine draining := by
    obtain ⟨a, member, rfl⟩ := mine
    obtain ⟨count, found, called⟩ := drainer_callback positive chunks a w
    left
    rw [drainRule, called]
    simp only [Rule.serviceCount, taken, Function.update_self]
    exact readCount_ne _

/-! ## The rules that go -/

variable {nodes : List (Node (Rule Nat))} {events later : List (Event Streams Nat)}
  {kept : List (Node (Rule Nat) × Entry)} {outcome : Outcome}

/-- The first loop cancels the rules of the streams that have been read to their end, and
polls the others. -/
theorem Survey.drainer {e : Option Exn}
    (survey : Survey (drainer limit chunks) nodes w events kept mid e) :
    mid = w ∧ (∀ e ∈ events, e.removes = true → e.rule ∈ nodes ∧ Defunct e.rule.val w) ∧
      (∀ k ∈ kept, k.2.interested = true) ∧
      (e = none → ∀ n ∈ nodes,
        n ∈ kept.map (·.1) ∨ ∃ e ∈ events, e.removes = true ∧ e.rule = n) := by
  induction survey with
  | done => exact ⟨rfl, by simp, by simp, by simp⟩
  | @cancelled rule nodes w mid w' events later kept e here rest ih =>
      cases here with
      | cancelled defunct returned =>
          rw [drainer_cancelEffect] at ih
          obtain ⟨rfl, removes, interested, covered⟩ := ih
          refine ⟨rfl, ?_, interested, ?_⟩
          · intro event member removed
            rcases List.mem_cons.mp member with rfl | member
            · exact ⟨List.mem_cons_self .., defunct⟩
            · obtain ⟨inside, defunct⟩ := removes event member removed
              exact ⟨List.mem_cons_of_mem _ inside, defunct⟩
          · intro quiet n member
            rcases List.mem_cons.mp member with rfl | member
            · exact .inr ⟨_, List.mem_cons_self .., rfl, rfl⟩
            · rcases covered quiet n member with polled | ⟨event, logged, gone⟩
              · exact .inl polled
              · exact .inr ⟨event, List.mem_cons_of_mem _ logged, gone⟩
  | @entered rule nodes w mid w' events later entry kept e here rest ih =>
      cases here with
      | @entered answer live returned =>
          rw [drainer_interestEffect] at ih returned
          cases returned
          obtain ⟨rfl, removes, interested, covered⟩ := ih
          refine ⟨rfl, ?_, ?_, ?_⟩
          · intro event member removed
            rcases List.mem_cons.mp member with rfl | member
            · cases removed
            · obtain ⟨inside, defunct⟩ := removes event member removed
              exact ⟨List.mem_cons_of_mem _ inside, defunct⟩
          · intro k member
            rcases List.mem_cons.mp member with rfl | member
            · rfl
            · exact interested k member
          · intro quiet n member
            rcases List.mem_cons.mp member with rfl | member
            · exact .inl (List.mem_cons_self ..)
            · rcases covered quiet n member with polled | ⟨event, logged, gone⟩
              · exact .inl (List.mem_cons_of_mem _ polled)
              · exact .inr ⟨event, List.mem_cons_of_mem _ logged, gone⟩
  | @threw rule nodes w w' events e here =>
      cases here with
      | cancelThrew defunct threw =>
          rw [drainer_cancelEffect] at threw
          cases threw
      | interestThrew live threw =>
          rw [drainer_interestEffect] at threw
          cases threw

theorem drainer_suffix (positive : 0 < limit) (chunks : Nat → Bytes → Nat) (a : Nat)
    (w : World Streams) (n : Nat) :
    ((drainer limit chunks).callback a w).world.user.remaining n <:+ w.user.remaining n := by
  obtain ⟨count, -, called⟩ := drainer_callback positive chunks a w
  rw [called]
  exact taken_suffix a count w n

theorem Reacts.drainer (positive : 0 < limit) {rule : Node (Rule Nat)} {r : Reaction}
    {result : Except Abort (LinkedList.Fate Unit)}
    (reacts : Reacts (drainer limit chunks) rule w r events w' result) :
    (∀ n, w'.user.remaining n <:+ w.user.remaining n) ∧
      ∀ e ∈ events, e.removes = true → e.rule = rule ∧ r = .hangup := by
  have suffix := drainer_suffix positive chunks rule.val.callback w
  cases reacts with
  | error | idle => exact ⟨fun n => List.suffix_refl _, by simp⟩
  | hangup | hangupThrew =>
      rw [drainer_cancelEffect]
      exact ⟨fun n => List.suffix_refl _, by simp [Event.rule]⟩
  | callbackThrew => exact ⟨suffix, by simp [Event.removes]⟩
  | serviced called =>
      rw [called] at suffix
      exact ⟨suffix, by simp [Event.removes]⟩
  | uninterested called | busy called | interestThrew called =>
      rw [called] at suffix
      rw [drainer_interestEffect]
      exact ⟨suffix, by simp [Event.removes]⟩

/-- The second loop removes the rules that hang up, and takes from what remains. -/
theorem Dispatch.drainer (positive : 0 < limit) {qs : List (Polled Nat)}
    (dispatch : Dispatch (drainer limit chunks) qs w events w' outcome) :
    (∀ n, w'.user.remaining n <:+ w.user.remaining n) ∧
      ∀ e ∈ events, e.removes = true → ∃ q ∈ qs, e.rule = q.rule ∧ q.reaction = .hangup := by
  induction dispatch with
  | done => exact ⟨fun n => List.suffix_refl _, by simp⟩
  | @reacts q qs w mid w' events later fate outcome here rest ih =>
      obtain ⟨suffix, removes⟩ := here.drainer positive
      obtain ⟨suffix', removes'⟩ := ih
      refine ⟨fun n => (suffix' n).trans (suffix n), ?_⟩
      intro e member removed
      rcases List.mem_append.mp member with now | afterwards
      · exact ⟨q, List.mem_cons_self .., removes e now removed⟩
      · obtain ⟨q', inside, gone⟩ := removes' e afterwards removed
        exact ⟨q', List.mem_cons_of_mem _ inside, gone⟩
  | @threw q qs w w' events e here =>
      obtain ⟨suffix, removes⟩ := here.drainer positive
      exact ⟨suffix, fun e member removed => ⟨q, List.mem_cons_self .., removes e member removed⟩⟩

/-! ## A call -/

/-- A kernel that answers, and reports a hangup without input only on a number on which
nothing remains. -/
def Truthful (s : System Streams Nat) : Op Streams Nat → Prop
  | .waitNextEvent _ poll timeoutMs =>
      ∀ vector : List PollFd, (∃ e ∈ vector, e.events ≠ 0) →
        Heard vector (poll vector timeoutMs) ∧
        ∀ e ∈ reported vector (poll vector timeoutMs),
          e.revents &&& pollhup ≠ 0 → e.revents &&& pollin = 0 →
          s.world.user.remaining e.fd = []
  | _ => False

theorem Truthful.answering {s : System Streams Nat} {op : Op Streams Nat}
    (truthful : Truthful s op) : Answering s op := by
  cases op with
  | waitNextEvent spare poll timeoutMs => exact fun vector asks => (truthful vector asks).1
  | addRule rule => exact truthful
  | other change => exact truthful

/-- Each polled rule goes with its entry of the vector. -/
theorem mem_polled_reported {answer : PollAnswer} {q : Polled Nat}
    (member : q ∈ polled kept answer.revents) :
    ∃ k ∈ kept, ∃ e ∈ reported (kept.map (·.2.pollfd)) answer,
      q.rule = k.1 ∧ e.fd = k.2.pollfd.fd ∧ e.revents = q.revents := by
  rw [polled, List.mem_mapIdx] at member
  obtain ⟨i, bound, rfl⟩ := member
  refine ⟨kept[i], List.getElem_mem _, kept[i].2.pollfd.report (answer.revents i), ?_, rfl, rfl,
    rfl⟩
  rw [reported, List.mem_mapIdx]
  exact ⟨i, by simpa using bound, by simp⟩

theorem reaction_eq_hangup {direction : Direction} {interested : Bool} {revents : BitVec 16}
    (hangup : reaction direction interested revents = .hangup) :
    revents &&& pollhup ≠ 0 ∧ revents &&& direction.events = 0 := by
  unfold reaction at hangup
  split_ifs at hangup with error hup
  · exact hup.2

/-- What a call removes, it removes with nothing left to read, and it exits if nothing is
left at all. -/
theorem Performs.drainer (positive : 0 < limit) {poll : Poll} {timeoutMs : Int}
    (performs : Performs (drainer limit chunks) poll timeoutMs nodes w events w' outcome)
    (draining : Draining numbers streams w) (mine : ∀ n ∈ nodes, Drains fds n.val)
    (truthful : ∀ vector : List PollFd, (∃ e ∈ vector, e.events ≠ 0) →
      Heard vector (poll vector timeoutMs) ∧
      ∀ e ∈ reported vector (poll vector timeoutMs),
        e.revents &&& pollhup ≠ 0 → e.revents &&& pollin = 0 → w.user.remaining e.fd = []) :
    (∀ n, w'.user.remaining n <:+ w.user.remaining n) ∧
    (∀ e ∈ events, e.removes = true →
      e.rule ∈ nodes ∧ w.user.remaining (numbers e.rule.val.fd) = []) ∧
    (outcome = .returned .Exit → ∀ n ∈ nodes, ∃ e ∈ events, e.removes = true ∧ e.rule = n) := by
  have ranked := drainer_ranked positive chunks fds numbers streams
  have ended : ∀ n ∈ nodes, Defunct n.val w → w.user.remaining (numbers n.val.fd) = [] := by
    intro n member defunct
    rcases defunct with ⟨-, eof⟩ | closed
    · exact draining.ended _ eof
    · rw [draining.opened] at closed
      cases closed
  cases performs with
  | setupThrew survey => cases (survey.surveyed ranked draining).1
  | nothing survey nobody =>
      obtain ⟨rfl, removes, interested, covered⟩ := survey.drainer
      refine ⟨fun n => List.suffix_refl _, fun e logged removed => ?_, fun _ n member => ?_⟩
      · obtain ⟨inside, defunct⟩ := removes e logged removed
        exact ⟨inside, ended _ inside defunct⟩
      · rcases covered rfl n member with polled | gone
        · obtain ⟨k, inside, -⟩ := List.mem_map.mp polled
          rw [List.any_eq_false] at nobody
          exact absurd (interested k inside) (nobody k inside)
        · exact gone
  | timeout survey somebody asked zero =>
      obtain ⟨rfl, removes, -, -⟩ := survey.drainer
      refine ⟨fun n => List.suffix_refl _, fun e logged removed => ?_, nofun⟩
      obtain ⟨inside, defunct⟩ := removes e logged removed
      exact ⟨inside, ended _ inside defunct⟩
  | @interrupted _ kept _ answer survey somebody asked failed signal =>
      have surveyed := (survey.surveyed ranked draining).2
      have heard := (truthful _ (exists_asking surveyed.asks somebody)).1
      rw [asked] at heard
      rcases heard with zero | ⟨positive, -⟩ <;> omega
  | @dispatched first later kept mid _ answer _ survey somebody asked goesOn dispatch =>
      have surveyed := (survey.surveyed ranked draining).2
      obtain ⟨rfl, removes, -, -⟩ := survey.drainer
      obtain ⟨heard, honest⟩ := truthful _ (exists_asking surveyed.asks somebody)
      rw [asked] at heard honest
      obtain ⟨noError, -⟩ := heard.polled surveyed.asks (by
        rcases goesOn with positive | ⟨negative, -⟩ <;> omega)
      obtain ⟨suffix, hangs⟩ := dispatch.drainer positive
      have inside : ∀ k ∈ kept, k.1 ∈ nodes :=
        fun k member => surveyed.sublist.subset (List.mem_map_of_mem member)
      refine ⟨suffix, fun e logged removed => ?_, fun exits => ?_⟩
      · rcases List.mem_append.mp logged with before | after
        · obtain ⟨inside, defunct⟩ := removes e before removed
          exact ⟨inside, ended _ inside defunct⟩
        · obtain ⟨q, member, sameRule, hangup⟩ := hangs e after removed
          obtain ⟨k, known, entry, listed, rule, fd, revents⟩ := mem_polled_reported member
          obtain ⟨hup, noInput⟩ := reaction_eq_hangup hangup
          obtain ⟨a, -, drains⟩ := mine k.1 (inside k known)
          rw [sameRule, rule]
          refine ⟨inside k known, ?_⟩
          rw [rule, drains] at noInput
          have nothing := honest entry listed (by rwa [revents]) (by rw [revents]; exact noInput)
          rwa [fd, surveyed.numbered k known, draining.number] at nothing
      · have success := (dispatch.ranked ranked draining
          (fun q member => by
            obtain ⟨k, known, rule⟩ := mem_polled member
            rw [rule]
            exact mine _ (inside k known)) noError).1
        rw [exits] at success
        cases success

/-! ## Whole runs -/

/-- What holds between the calls: each stream has a rule, or nothing of it remains. -/
structure Pending (fds : List Nat) (numbers : Nat → Nat) (streams : Nat → Bytes)
    (s : System Streams Nat) : Prop where
  sane : Sane (Drains fds) (Draining numbers streams) s
  waits : ∀ a ∈ fds, (∃ n ∈ s.rules.nodes, n.val = drainRule a) ∨
    s.world.user.remaining (numbers a) = []

/-- The nodes of a list are told apart by their numbers. -/
theorem eq_of_id_eq {l : LinkedList (Rule Nat)} {n m : Node (Rule Nat)} (first : n ∈ l.nodes)
    (second : m ∈ l.nodes) (same : n.id = m.id) : n = m := by
  have nodup : (l.nodes.map (·.id)).Nodup := List.pairwise_map.mpr (l.ordered.imp Nat.ne_of_lt)
  exact List.inj_on_of_nodup_map nodup first second same

theorem pending_step (positive : 0 < limit) {s : System Streams Nat} {op : Op Streams Nat}
    (pending : Pending fds numbers streams s) (truthful : Truthful s op) :
    Pending fds numbers streams (System.step (drainer limit chunks) s op).1 ∧
      (s.rules.nodes = [] ∨
          (System.step (drainer limit chunks) s op).2 = some (.returned .Exit) →
        (System.step (drainer limit chunks) s op).1.rules.nodes = []) := by
  have sane := (step_advances (drainer_ranked positive chunks fds numbers streams) pending.sane
    truthful.answering).1
  cases op with
  | addRule rule => cases truthful
  | other change => cases truthful
  | waitNextEvent spare poll timeoutMs =>
      have noReentry := drainer_noReentry limit chunks
      have performs := waitNextEvent_performs noReentry spare poll timeoutMs s.rules s.world
      have left := waitNextEvent_rules noReentry spare poll timeoutMs s.rules s.world
      obtain ⟨suffix, removes, exits⟩ :=
        performs.drainer positive pending.sane.good pending.sane.mine truthful
      refine ⟨⟨sane, ?_⟩, ?_⟩
      · intro a member
        have gone : s.world.user.remaining (numbers a) = [] →
            (waitNextEvent (drainer limit chunks) spare poll timeoutMs s.rules
              s.world).world.user.remaining (numbers a) = [] := by
          intro nothing
          exact List.suffix_nil.mp (nothing ▸ suffix (numbers a))
        rcases pending.waits a member with ⟨n, inside, rule⟩ | nothing
        · cases removed : LinkedList.removed Event.about Event.removes
            (waitNextEvent (drainer limit chunks) spare poll timeoutMs s.rules s.world).trace
            n.id with
          | false =>
              left
              refine ⟨n, ?_, rule⟩
              show n ∈ (waitNextEvent (drainer limit chunks) spare poll timeoutMs s.rules
                s.world).rules.nodes
              rw [left, List.mem_filter]
              exact ⟨inside, by simp [removed]⟩
          | true =>
              right
              obtain ⟨e, logged, erased, about⟩ := removed_iff.mp removed
              obtain ⟨known, nothing⟩ := removes e logged erased
              rw [eq_of_id_eq known inside about, rule] at nothing
              exact gone nothing
        · exact .inr (gone nothing)
      · intro done
        show (waitNextEvent (drainer limit chunks) spare poll timeoutMs s.rules
          s.world).rules.nodes = []
        rw [left]
        rcases done with empty | exit
        · rw [empty]
          rfl
        · rw [List.filter_eq_nil_iff]
          intro n member
          obtain ⟨e, logged, removed, rule⟩ := exits (Option.some.inj exit) n member
          simp [removed_iff.mpr ⟨e, logged, removed, congrArg Node.id rule⟩]

theorem drainStart_nodes (fds : List Nat) (rules : LinkedList (Rule Nat)) :
    (fds.foldl (fun rules a => addRule rules (drainRule a)) rules).nodes.map (·.val) =
      rules.nodes.map (·.val) ++ fds.map drainRule := by
  induction fds generalizing rules with
  | nil => simp
  | cons a fds ih =>
      rw [List.foldl_cons, ih]
      simp [addRule, LinkedList.pushBack]

theorem pending_drainStart (fds : List Nat) (numbers : Nat → Nat) (streams : Nat → Bytes) :
    Pending fds numbers streams (drainStart fds numbers streams) := by
  have nodes : (drainStart fds numbers streams).rules.nodes.map (·.val) = fds.map drainRule :=
    drainStart_nodes fds .empty
  refine ⟨⟨?_, ⟨fun _ => rfl, fun _ => rfl, nofun, fun _ => rfl⟩⟩, ?_⟩
  · intro n member
    have listed := List.mem_map_of_mem (f := fun n : Node (Rule Nat) => n.val) member
    rw [nodes] at listed
    obtain ⟨a, inside, rule⟩ := List.mem_map.mp listed
    exact ⟨a, inside, rule.symm⟩
  · intro a member
    left
    have listed := List.mem_map_of_mem (f := drainRule) member
    rw [← nodes] at listed
    exact List.mem_map.mp listed

theorem potential_drainStart (fds : List Nat) (numbers : Nat → Nat) (streams : Nat → Bytes) :
    potential (drainRank fds numbers) (drainStart fds numbers streams) ≤
      (∑ n ∈ (fds.map numbers).toFinset, (streams n).length) + 2 * fds.length := by
  have length : (drainStart fds numbers streams).rules.nodes.length = fds.length := by
    have nodes := congrArg List.length (drainStart_nodes fds .empty)
    rwa [List.length_map, List.length_append, List.length_map, List.length_map,
      show (LinkedList.empty : LinkedList (Rule Nat)).nodes = [] from rfl, List.length_nil,
      Nat.zero_add] at nodes
  have rank : drainRank fds numbers (drainStart fds numbers streams).world =
      (∑ n ∈ (fds.map numbers).toFinset, (streams n).length) + fds.toFinset.card := by
    simp [drainRank, drainStart, undrained]
  have card := List.toFinset_card_le fds
  rw [potential, length, rank]
  omega

/-- **Reading through an event loop delivers the streams.** A program registers a rule
for each of its descriptors, whose callback reads, and calls `wait_next_event` any
number of times. The kernel hands out the streams in pieces of any size, and answers
every poll with a report for some interested rule or after the time was up. Then no
call throws; what was read is a prefix of each stream at all times; after as many
calls as there are bytes plus two for each rule, none of which times out, one has
returned `Exit`; and when one has, every stream was read completely. -/
theorem drain_delivers (positive : 0 < limit) (chunks : Nat → Bytes → Nat) (fds : List Nat)
    (numbers : Nat → Nat) (streams : Nat → Bytes) {ops : List (Op Streams Nat)}
    (truthful : Runs.Along (System.step (drainer limit chunks)) Truthful
      (drainStart fds numbers streams) ops) :
    let final := Runs.run (System.step (drainer limit chunks)) (drainStart fds numbers streams) ops
    (∀ o ∈ final.2, o = some (.returned .Success) ∨ o = some (.returned .Timeout) ∨
      o = some (.returned .Exit)) ∧
    (∀ n, final.1.world.user.delivered n <+: streams n) ∧
    ((∑ n ∈ (fds.map numbers).toFinset, (streams n).length) + 2 * fds.length < ops.length →
      some (.returned .Timeout) ∉ final.2 → some (.returned .Exit) ∈ final.2) ∧
    (some (.returned .Exit) ∈ final.2 →
      ∀ a ∈ fds, final.1.world.user.delivered (numbers a) = streams (numbers a)) := by
  intro final
  have ranked := drainer_ranked positive chunks fds numbers streams
  have start := pending_drainStart fds numbers streams
  have preserved : ∀ s op, Pending fds numbers streams s → Truthful s op →
      Pending fds numbers streams (System.step (drainer limit chunks) s op).1 :=
    fun s op pending truthful => (pending_step positive pending truthful).1
  have pending : Pending fds numbers streams final.1 :=
    Runs.run_invariant preserved start truthful
  have answering := truthful.imp fun s op => Truthful.answering
  have bound := potential_drainStart fds numbers streams
  refine ⟨run_returned ranked start.sane answering, ?_, ?_, ?_⟩
  · intro n
    exact ⟨_, pending.sane.good.conserved n⟩
  · intro long blocking
    exact run_exits ranked start.sane answering (bound.trans_lt long) blocking
  · intro exited a member
    have empty : final.1.rules.nodes = [] :=
      Runs.run_latched (fun s => s.rules.nodes = []) preserved
        (fun s op pending truthful => (pending_step positive pending truthful).2)
        start truthful exited
    have nothing : final.1.world.user.remaining (numbers a) = [] := by
      rcases pending.waits a member with ⟨n, inside, -⟩ | nothing
      · rw [empty] at inside
        cases inside
      · exact nothing
    have conserved := pending.sane.good.conserved (numbers a)
    rwa [nothing, List.append_nil] at conserved

/-- Two streams, one of them empty. -/
def twoStreams (n : Nat) : Bytes := if n = 3 then [1, 2, 3] else []

/-- The streams are handed out in pieces of at most two bytes. -/
theorem drain_delivers_twoStreams :
    (Runs.run (System.step (drainer 10 fun _ _ => 2)) (drainStart [3, 4] id twoStreams)
      (List.replicate 8 (.waitNextEvent 0 hangingUp (-1)))).1.world.user.delivered 3 =
      twoStreams 3 := by
  have truthful : ∀ s : System Streams Nat, ∀ op ∈ List.replicate 8
      (Op.waitNextEvent 0 hangingUp (-1)), Truthful s op := by
    intro s op member
    obtain rfl := List.eq_of_mem_replicate member
    intro vector asks
    refine ⟨hangingUp_heard vector (-1) asks, ?_⟩
    intro e member _ silent
    rw [reported, List.mem_mapIdx] at member
    obtain ⟨i, bound, rfl⟩ := member
    have silent : (pollin ||| pollhup) &&& pollin = 0 := silent
    exact absurd silent (by decide)
  obtain ⟨-, -, exits, delivers⟩ := drain_delivers (show 0 < 10 by decide) (fun _ _ => 2) [3, 4]
    id twoStreams (Runs.along_of_forall truthful _)
  have exited := exits (by rw [List.length_replicate]; decide) (by decide +kernel)
  have delivered := delivers exited 3 (by decide)
  rwa [id_eq] at delivered

end EventLoop

end Sponge
