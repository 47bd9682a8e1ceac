import Sponge.EventLoopLiveness
import Sponge.EventLoopOutcome
import Sponge.Socket

/-!
# The busy-wait check

After a callback that leaves the service count of its rule unchanged, while the rule
is still interested, `wait_next_event` throws. The check does not look at the flags
of the descriptor, on which the next call would cancel the rule.

A program acts on descriptors by their member functions only. A `Script` says which
of them each of its functions calls, so that the flags of a descriptor can be traced
back to the operation that set them: the check is wrong about a rule exactly if some
function called in the same call has closed the rule's descriptor or, for a rule that
reads, found its end.
-/

namespace Sponge

namespace EventLoop

open LinkedList (Node Fate Walk)

variable {σ H R : Type}

/-! ## Programs that operate on descriptors -/

/-- Operations on descriptors, which are given by the addresses of the wrappers, in
the order in which they are carried out. -/
abbrev Operations := List (Nat × Operation)

def perform (operations : Operations) (w : World σ) : World σ :=
  operations.foldl (fun w o => w.update o.1 o.2.act) w

/-- What a function does: its operations, the program's state afterwards, the rules
that it registers and how it ends. -/
structure Deed (σ H R : Type) where
  operations : Operations
  user : σ
  added : List (Rule H)
  result : Except Exn R

def Deed.effect (d : Deed σ H R) (w : World σ) : Effect σ H R :=
  ⟨{ perform d.operations w with user := d.user }, d.added, d.result⟩

/-- The functions of a program, by what they do in which world. -/
structure Script (σ H : Type) where
  callback : H → World σ → Deed σ H Unit
  interest : H → World σ → Deed σ H Bool
  cancel : H → World σ → Deed σ H Unit

namespace Script

def program (s : Script σ H) : Program σ H where
  callback h w := (s.callback h w).effect w
  interest h w := (s.interest h w).effect w
  cancel h w := (s.cancel h w).effect w

def interestOperations (s : Script σ H) (rule : Rule H) (w : World σ) : Operations :=
  match rule.interest with
  | none => []
  | some h => (s.interest h w).operations

def cancelOperations (s : Script σ H) (rule : Rule H) (w : World σ) : Operations :=
  match rule.cancel with
  | none => []
  | some h => (s.cancel h w).operations

/-- The operations of the function call that an event logs. -/
def operations (s : Script σ H) : Event σ H → Operations
  | .callback rule before _ => (s.callback rule.val.callback before).operations
  | .interest rule before _ => s.interestOperations rule.val before
  | .cancel rule before _ => s.cancelOperations rule.val before

end Script

/-- The operation closes the rule's descriptor or, if the rule is for reading, finds
the end of it. -/
def Finishes (rule : Rule H) (o : Nat × Operation) : Prop :=
  o.1 = rule.fd ∧ (o.2.closes = true ∨ rule.direction = .In ∧ o.2.findsEnd = true)

instance (rule : Rule H) (o : Nat × Operation) : Decidable (Finishes rule o) :=
  inferInstanceAs (Decidable (_ ∧ _))

/-- The function call that an event logs finishes the rule. -/
def Script.Finishes (s : Script σ H) (rule : Rule H) (event : Event σ H) : Prop :=
  ∃ o ∈ s.operations event, EventLoop.Finishes rule o

variable {s : Script σ H} {r : Rule H} {rule : Node (Rule H)} {w w' : World σ}

/-! ## Where flags come from -/

theorem defunct_update (r : Rule H) (w : World σ) (o : Nat × Operation) :
    Defunct r (w.update o.1 o.2.act) ↔ Defunct r w ∨ Finishes r o := by
  unfold Defunct Finishes
  by_cases same : o.1 = r.fd
  · obtain ⟨closed, eof⟩ := o.2.act_flags (w.wrappers r.fd)
    have wrapper : (w.update o.1 o.2.act).wrappers r.fd = o.2.act (w.wrappers r.fd) := by
      rw [World.update, same]
      exact Function.update_self ..
    rw [wrapper, closed, eof]
    simp only [same, Bool.or_eq_true]
    tauto
  · have wrapper : (w.update o.1 o.2.act).wrappers r.fd = w.wrappers r.fd :=
      Function.update_of_ne (Ne.symm same) ..
    rw [wrapper]
    tauto

/-- A rule is defunct after some operations if it was so before or one of them
finished it. -/
theorem defunct_perform (r : Rule H) (operations : Operations) (w : World σ) :
    Defunct r (perform operations w) ↔
      Defunct r w ∨ ∃ o ∈ operations, Finishes r o := by
  induction operations generalizing w with
  | nil => simp [perform]
  | cons o operations ih =>
      show Defunct r (perform operations (w.update o.1 o.2.act)) ↔ _
      rw [ih, defunct_update, or_assoc]
      simp

theorem defunct_effect (r : Rule H) (d : Deed σ H R) (w : World σ) :
    Defunct r (d.effect w).world ↔ Defunct r w ∨ ∃ o ∈ d.operations, Finishes r o :=
  defunct_perform r d.operations w

theorem defunct_callback (r : Rule H) (rule : Node (Rule H)) (w : World σ)
    (result : Except Exn Unit) :
    Defunct r (s.program.callback rule.val.callback w).world ↔
      Defunct r w ∨ s.Finishes r (.callback rule w result) :=
  defunct_effect r _ w

theorem defunct_interest (r : Rule H) (rule : Node (Rule H)) (w : World σ)
    (answer : Except Exn Bool) :
    Defunct r (s.program.interestEffect rule.val w).world ↔
      Defunct r w ∨ s.Finishes r (.interest rule w answer) := by
  show _ ↔ Defunct r w ∨ ∃ o ∈ s.interestOperations rule.val w, Finishes r o
  unfold Program.interestEffect Script.interestOperations
  cases rule.val.interest with
  | none => simp
  | some h => exact defunct_effect r _ w

theorem defunct_cancel (r : Rule H) (rule : Node (Rule H)) (w : World σ)
    (result : Except Exn Unit) :
    Defunct r (s.program.cancelEffect rule.val w).world ↔
      Defunct r w ∨ s.Finishes r (.cancel rule w result) := by
  show _ ↔ Defunct r w ∨ ∃ o ∈ s.cancelOperations rule.val w, Finishes r o
  unfold Program.cancelEffect Script.cancelOperations
  cases rule.val.cancel with
  | none => simp
  | some h => exact defunct_effect r _ w

theorem Surveys.defunct_iff {events : List (Event σ H)} {result : Except Abort (Fate Entry)}
    (surveys : Surveys s.program rule w events w' result) (r : Rule H) :
    Defunct r w' ↔ Defunct r w ∨ ∃ e ∈ events, s.Finishes r e := by
  cases surveys with
  | cancelled _ returned | cancelThrew _ returned =>
      simpa using defunct_cancel r rule w _
  | entered _ returned | interestThrew _ returned =>
      simpa using defunct_interest r rule w _

/-- A callback that returns, and the question that may follow it. -/
theorem defunct_checked {mid : World σ} {added : List (Rule H)}
    (called : s.program.callback rule.val.callback w = ⟨mid, added, .ok ()⟩) (r : Rule H)
    (answer : Except Exn Bool) :
    Defunct r (s.program.interestEffect rule.val mid).world ↔
      Defunct r w ∨ ∃ e ∈ [.callback rule w (.ok ()), .interest rule mid answer],
        s.Finishes r e := by
  have callback := defunct_callback (s := s) r rule w (.ok ())
  rw [called] at callback
  rw [defunct_interest r rule mid answer, callback, or_assoc]
  simp

theorem Reacts.defunct_iff {reaction : Reaction} {events : List (Event σ H)}
    {result : Except Abort (Fate Unit)}
    (reacts : Reacts s.program rule w reaction events w' result) (r : Rule H) :
    Defunct r w' ↔ Defunct r w ∨ ∃ e ∈ events, s.Finishes r e := by
  cases reacts with
  | error | idle => simp
  | hangup | hangupThrew => simpa using defunct_cancel r rule w _
  | callbackThrew => simpa using defunct_callback r rule w _
  | serviced called =>
      have callback := defunct_callback (s := s) r rule w (.ok ())
      rw [called] at callback
      simpa using callback
  | uninterested called | busy called | interestThrew called => exact defunct_checked called r _

/-! ## Both loops -/

theorem Surveys.live {events : List (Event σ H)} {entry : Entry} {p : Program σ H}
    (surveys : Surveys p rule w events w' (.ok (.next entry))) : ¬Defunct rule.val w := by
  cases surveys with
  | entered live => exact live

/-- What a function called in the first loop has finished is defunct afterwards. -/
theorem setupLoop_finished (s : Script σ H) (spare : Nat) (rules : LinkedList (Rule H))
    (w : World σ) :
    ∀ r : Rule H, (∃ e ∈ (setupLoop s.program spare rules w).1.events, s.Finishes r e) →
      Defunct r (setupLoop s.program spare rules w).1.world := by
  refine LinkedList.walk_invariant
    (fun t : Walk (Rule H) (World σ) (Event σ H) Entry =>
      ∀ r : Rule H, (∃ e ∈ t.events, s.Finishes r e) → Defunct r t.world)
    (fun t rule _ seen r finished => ?_) (by simp [Walk.start])
  have step := (setupBody_surveys s.program t.visited.length rule t.world).defunct_iff r
  obtain ⟨e, logged, finishes⟩ := finished
  rw [Walk.visit_events] at logged
  rw [Walk.visit_world, step]
  rcases List.mem_append.mp logged with old | new
  · exact .inl (seen r ⟨e, old, finishes⟩)
  · exact .inr ⟨e, new, finishes⟩

/-- A rule that has an entry, and is defunct after the first loop, was finished by a
function called there. -/
theorem setupLoop_kept_finished (s : Script σ H) (spare : Nat) (rules : LinkedList (Rule H))
    (w : World σ) :
    ∀ k ∈ (setupLoop s.program spare rules w).1.kept,
      Defunct k.1.val (setupLoop s.program spare rules w).1.world →
        ∃ e ∈ (setupLoop s.program spare rules w).1.events, s.Finishes k.1.val e := by
  refine LinkedList.walk_invariant
    (fun t : Walk (Rule H) (World σ) (Event σ H) Entry =>
      ∀ k ∈ t.kept, Defunct k.1.val t.world → ∃ e ∈ t.events, s.Finishes k.1.val e)
    (fun t rule _ seen k member defunct => ?_) (by simp [Walk.start])
  have surveys := setupBody_surveys s.program t.visited.length rule t.world
  rw [Walk.visit_world, surveys.defunct_iff] at defunct
  rw [Walk.visit_events]
  rcases defunct with before | ⟨e, logged, finishes⟩
  · rcases Walk.mem_visit_kept member with old | ⟨rfl, result⟩
    · obtain ⟨e, logged, finishes⟩ := seen k old before
      exact ⟨e, List.mem_append_left _ logged, finishes⟩
    · rw [result] at surveys
      exact absurd before surveys.live
  · exact ⟨e, List.mem_append_right _ logged, finishes⟩

theorem serveAll_defunct_iff (s : Script σ H) (entries : List (Node (Rule H) × PollFd))
    (w : World σ) (r : Rule H) :
    Defunct r (serveAll s.program entries w).world ↔
      Defunct r w ∨ ∃ e ∈ (serveAll s.program entries w).events, s.Finishes r e := by
  induction entries generalizing w with
  | nil =>
      show Defunct r w ↔ Defunct r w ∨ ∃ e ∈ ([] : List (Event σ H)), s.Finishes r e
      simp
  | cons entry entries ih =>
      obtain ⟨rule, e⟩ := entry
      have here := (serve_reacts s.program rule e w).defunct_iff r
      cases result : (serve s.program rule e w).result with
      | error abort =>
          rw [serveAll_cons_of_error result]
          exact here
      | ok fate =>
          rw [serveAll_cons_of_ok result, ih, here, or_assoc]
          simp only [List.mem_append, or_and_right, exists_or]

/-! ## The check -/

section Check

variable {p : Program σ H} {mid : World σ} {spare : Nat} {poll : Poll} {timeoutMs : Int}
  {rules : LinkedList (Rule H)}

/-- The check after the callback of a ready rule fails: the callback returns and leaves
the world `mid`, the service count is what it was, and the rule is still interested. -/
structure CheckFails (p : Program σ H) (rule : Node (Rule H)) (e : PollFd) (w mid : World σ) :
    Prop where
  ready : e.reaction = .ready
  returned : (p.callback rule.val.callback w).result = .ok ()
  left : (p.callback rule.val.callback w).world = mid
  same : rule.val.serviceCount w = rule.val.serviceCount mid
  interested : (p.interestEffect rule.val mid).result = .ok true

theorem CheckFails.serve {e : PollFd} (fails : CheckFails p rule e w mid) :
    (serve p rule e w).events = [.callback rule w (.ok ()), .interest rule mid (.ok true)] ∧
      (serve p rule e w).result = .error (.threw busyWait) := by
  obtain ⟨ready, returned, rfl, same, interested⟩ := fails
  have reacts := serve_reacts p rule e w
  rw [ready] at reacts
  generalize (EventLoop.serve p rule e w).events = events at reacts
  generalize (EventLoop.serve p rule e w).world = after at reacts
  generalize (EventLoop.serve p rule e w).result = result at reacts
  cases reacts with
  | callbackThrew threw =>
      rw [returned] at threw
      cases threw
  | serviced called counted =>
      rw [called] at same
      exact absurd same counted
  | uninterested called _ answered | interestThrew called _ answered =>
      rw [called, answered] at interested
      cases interested
  | busy called =>
      rw [called]
      exact ⟨rfl, rfl⟩

/-- In the second loop a rule is asked for its interest by the check only. -/
theorem serve_asked {other : Node (Rule H)} {e : PollFd}
    (asked : Event.interest other mid (.ok true) ∈ (serve p rule e w).events) :
    other = rule ∧ CheckFails p rule e w mid := by
  have reacts := serve_reacts p rule e w
  generalize reaction : e.reaction = r at reacts
  generalize (serve p rule e w).events = events at reacts asked
  generalize (serve p rule e w).world = after at reacts
  generalize (serve p rule e w).result = result at reacts
  cases reacts with
  | busy called same returned =>
      rcases List.mem_cons.mp asked with wrong | here
      · cases wrong
      · cases List.mem_singleton.mp here
        exact ⟨rfl, reaction, by rw [called], by rw [called], same, returned⟩
  | _ => simp at asked

theorem serveAll_asked {entries : List (Node (Rule H) × PollFd)}
    (asked : Event.interest rule mid (.ok true) ∈ (serveAll p entries w).events) :
    (serveAll p entries w).result = .error (.threw busyWait) ∧
      (serveAll p entries w).events.getLast? = some (.interest rule mid (.ok true)) ∧
      rule ∈ entries.map (·.1) ∧ (p.interestEffect rule.val mid).result = .ok true := by
  induction entries generalizing w with
  | nil => cases asked
  | cons entry entries ih =>
      obtain ⟨first, e⟩ := entry
      cases result : (serve p first e w).result with
      | error abort =>
          rw [serveAll_cons_of_error result] at asked ⊢
          obtain ⟨rfl, fails⟩ := serve_asked asked
          obtain ⟨events, busy⟩ := fails.serve
          rw [result] at busy
          cases busy
          exact ⟨rfl, by rw [events]; rfl, List.mem_cons_self .., fails.interested⟩
      | ok fate =>
          rw [serveAll_cons_of_ok result] at asked ⊢
          rcases List.mem_append.mp asked with here | later
          · obtain ⟨rfl, fails⟩ := serve_asked here
            rw [fails.serve.2] at result
            cases result
          · obtain ⟨busy, last, member, interested⟩ := ih later
            refine ⟨busy, ?_, List.mem_cons_of_mem _ member, interested⟩
            rw [List.getLast?_append, last]
            rfl

/-- A call in whose second loop a rule answers that it is interested throws there, and
has done what the service of all rules does. -/
theorem waitNextEvent_asked
    (asked : Event.interest rule mid (.ok true) ∈
      resultEvents p spare poll timeoutMs rules w) :
    ∃ (setup : Walk (Rule H) (World σ) (Event σ H) Entry)
      (entries : List (Node (Rule H) × PollFd)),
      setupLoop p spare rules w = (setup, .finished) ∧
      rule ∈ setup.list.nodes ∧
      (p.interestEffect rule.val mid).result = .ok true ∧
      (waitNextEvent p spare poll timeoutMs rules w).outcome = .threw busyWait ∧
      (waitNextEvent p spare poll timeoutMs rules w).world =
        (serveAll p entries setup.world).world ∧
      (waitNextEvent p spare poll timeoutMs rules w).trace =
        setup.events ++ (serveAll p entries setup.world).events ∧
      (resultEvents p spare poll timeoutMs rules w).getLast? =
        some (.interest rule mid (.ok true)) := by
  have phases := waitNextEvent_phases p spare poll timeoutMs rules w
  unfold resultEvents at asked ⊢
  generalize waitNextEvent p spare poll timeoutMs rules w = call at phases asked ⊢
  cases phases with
  | early first _ =>
      rw [first, List.drop_length] at asked
      cases asked
  | @dispatched setup pollfds results stop first somebody goesOn vector second =>
      obtain ⟨aligned, events⟩ := dispatched_events first vector second
      rw [first, List.drop_left, events] at asked
      obtain ⟨busy, last, member, interested⟩ := serveAll_asked asked
      rw [List.map_fst_zip (Nat.le_of_eq aligned)] at member
      obtain ⟨results', loop, world, -⟩ := resultLoop_of_error aligned busy
      rw [second] at loop
      cases loop
      refine ⟨setup, _, first, member, interested, rfl, world, by rw [events], ?_⟩
      rw [first, List.drop_left, events, last]

/-- The call has thrown the error for this rule: after its callback, the rule was asked
for its interest in the world `mid`, and the answer was yes. -/
def BusyWaitFor (p : Program σ H) (spare : Nat) (poll : Poll) (timeoutMs : Int)
    (rules : LinkedList (Rule H)) (w : World σ) (rule : Node (Rule H)) (mid : World σ) : Prop :=
  (waitNextEvent p spare poll timeoutMs rules w).outcome = .threw busyWait ∧
    (resultEvents p spare poll timeoutMs rules w).getLast? =
      some (.interest rule mid (.ok true))

/-- The busy-wait error is not a false alarm: when it is thrown for a rule, the rule is
interested and the first loop of a following call would not cancel it. -/
def NoFalseAlarm (p : Program σ H) (spare : Nat) (poll : Poll) (timeoutMs : Int)
    (rules : LinkedList (Rule H)) (w : World σ) : Prop :=
  ∀ rule mid, BusyWaitFor p spare poll timeoutMs rules w rule mid →
    (p.interestEffect rule.val mid).result = .ok true ∧
      ¬Defunct rule.val (waitNextEvent p spare poll timeoutMs rules w).world

/-- When the check fails, the rule is defunct exactly if some function called in the
call has finished it. -/
theorem defunct_of_asked {s : Script σ H}
    (asked : Event.interest rule mid (.ok true) ∈
      resultEvents s.program spare poll timeoutMs rules w) :
    Defunct rule.val (waitNextEvent s.program spare poll timeoutMs rules w).world ↔
      ∃ e ∈ (waitNextEvent s.program spare poll timeoutMs rules w).trace,
        s.Finishes rule.val e := by
  obtain ⟨setup, entries, first, member, -, -, world, trace, -⟩ := waitNextEvent_asked asked
  have finished := setupLoop_finished s spare rules w
  have kept := setupLoop_kept_finished s spare rules w
  rw [first] at finished kept
  rw [setupLoop_nodes first] at member
  obtain ⟨k, entered, rfl⟩ := List.mem_map.mp member
  have afterSetup : Defunct k.1.val setup.world ↔ ∃ e ∈ setup.events, s.Finishes k.1.val e :=
    ⟨kept k entered, finished k.1.val⟩
  rw [world, trace, serveAll_defunct_iff, afterSetup]
  simp only [List.mem_append, or_and_right, exists_or]

theorem noFalseAlarm_iff_log {s : Script σ H} :
    NoFalseAlarm s.program spare poll timeoutMs rules w ↔
      ∀ rule mid, Event.interest rule mid (.ok true) ∈
          resultEvents s.program spare poll timeoutMs rules w →
        ∀ e ∈ (waitNextEvent s.program spare poll timeoutMs rules w).trace,
          ¬s.Finishes rule.val e := by
  constructor
  · intro noAlarm rule mid asked e logged finishes
    obtain ⟨-, -, -, -, -, busy, -, -, last⟩ := waitNextEvent_asked asked
    obtain ⟨-, live⟩ := noAlarm rule mid ⟨busy, last⟩
    exact live ((defunct_of_asked asked).mpr ⟨e, logged, finishes⟩)
  · intro spared rule mid alarm
    rcases alarm with ⟨-, last⟩
    have asked := List.mem_of_getLast? last
    obtain ⟨-, -, -, -, interested, -⟩ := waitNextEvent_asked asked
    refine ⟨interested, ?_⟩
    rw [defunct_of_asked asked]
    intro finished
    rcases finished with ⟨e, logged, finishes⟩
    exact spared rule mid asked e logged finishes

/-! ## The condition -/

/-- Whenever the check for a rule fails, no function called so far has finished the
rule. `past` are the calls before. -/
def SparesChecked (s : Script σ H) :
    List (Event σ H) → List (Node (Rule H) × PollFd) → World σ → Prop
  | _, [], _ => True
  | past, (rule, e) :: rest, w =>
      (∀ mid, CheckFails s.program rule e w mid →
        ∀ event ∈ past ++ [.callback rule w (.ok ()), .interest rule mid (.ok true)],
          ¬s.Finishes rule.val event) ∧
        ∀ fate, (serve s.program rule e w).result = .ok fate →
          SparesChecked s (past ++ (serve s.program rule e w).events) rest
            (serve s.program rule e w).world

theorem sparesChecked_iff (s : Script σ H) (past : List (Event σ H))
    (entries : List (Node (Rule H) × PollFd)) (w : World σ) :
    SparesChecked s past entries w ↔
      ∀ rule mid, Event.interest rule mid (.ok true) ∈ (serveAll s.program entries w).events →
        ∀ e ∈ past ++ (serveAll s.program entries w).events, ¬s.Finishes rule.val e := by
  induction entries generalizing past w with
  | nil => exact iff_of_true trivial nofun
  | cons entry entries ih =>
      obtain ⟨first, e⟩ := entry
      rw [SparesChecked]
      cases result : (serve s.program first e w).result with
      | error abort =>
          rw [serveAll_cons_of_error result]
          constructor
          · intro spares rule mid asked
            rcases spares with ⟨here, -⟩
            obtain ⟨rfl, fails⟩ := serve_asked asked
            rw [fails.serve.1]
            exact here mid fails
          · intro spared
            refine ⟨?_, nofun⟩
            intro mid fails
            have there := spared first mid (by rw [fails.serve.1]; simp)
            rwa [fails.serve.1] at there
      | ok fate =>
          rw [serveAll_cons_of_ok result]
          have passes : ∀ mid, ¬CheckFails s.program first e w mid := by
            intro mid fails
            rw [fails.serve.2] at result
            cases result
          have rest := ih (past ++ (serve s.program first e w).events)
            (serve s.program first e w).world
          rw [List.append_assoc] at rest
          constructor
          · intro spares rule mid asked
            rcases spares with ⟨-, later⟩
            rcases List.mem_append.mp asked with here | there
            · obtain ⟨rfl, fails⟩ := serve_asked here
              exact absurd fails (passes mid)
            · exact rest.mp (later fate rfl) rule mid there
          · intro spared
            refine ⟨fun mid fails => absurd fails (passes mid), ?_⟩
            intro _ _
            apply rest.mpr
            intro rule mid asked
            exact spared rule mid (List.mem_append_right _ asked)

/-- **When the busy-wait check raises no false alarm.** For every program, rule list,
world and answer of `poll`: the error is thrown only for rules that a following call
would poll again, exactly if no function that is called up to a failing check closes
the descriptor of the rule that is checked or, for a rule that reads, finds its end. -/
theorem noFalseAlarm_iff (s : Script σ H) (spare : Nat) (poll : Poll) (timeoutMs : Int)
    (rules : LinkedList (Rule H)) (w : World σ) :
    NoFalseAlarm s.program spare poll timeoutMs rules w ↔
      ∀ setup, setupLoop s.program spare rules w = (setup, .finished) →
        setup.kept.any (·.2.interested) →
        let answer := poll (setup.kept.map (·.2.pollfd)) timeoutMs
        afterPoll answer = none →
        SparesChecked s setup.events
          (setup.list.nodes.zip (reported (setup.kept.map (·.2.pollfd)) answer)) setup.world := by
  rw [noFalseAlarm_iff_log]
  have phases := waitNextEvent_phases s.program spare poll timeoutMs rules w
  unfold resultEvents
  generalize waitNextEvent s.program spare poll timeoutMs rules w = call at phases
  cases phases with
  | @early setup stop outcome first ends =>
      apply iff_of_true
      · intro rule mid asked
        rw [first, List.drop_length] at asked
        cases asked
      · intro setup' first' somebody answer goesOn
        obtain ⟨rfl, rfl⟩ : setup = setup' ∧ stop = .finished := by
          rw [first] at first'
          exact Prod.mk.inj first'
        cases ends with
        | nothing nobody =>
            rw [nobody] at somebody
            cases somebody
        | answered _ ended =>
            rw [goesOn] at ended
            cases ended
  | @dispatched setup pollfds results stop first somebody goesOn vector second =>
      obtain ⟨-, events⟩ := dispatched_events first vector second
      rw [first]
      simp only [List.drop_left, events]
      rw [← sparesChecked_iff s setup.events, vector]
      constructor
      · intro spared setup' first' _ _
        cases first'
        exact spared
      · exact fun spared => spared setup rfl somebody goesOn

end Check

/-- What a rule answered when it was asked for its interest. -/
def Event.asked : Event σ H → Option Bool
  | .interest _ _ (.ok answer) => some answer
  | _ => none

theorem Event.asked_interest {answer : Except Exn Bool} :
    (Event.interest rule w answer).asked = some true ↔ answer = .ok true := by
  cases answer with
  | error e => simp [asked]
  | ok answer => simp [asked]

/-- A program whose callbacks close the descriptor they are named by. -/
def closer : Script Unit Nat where
  callback fd _ := ⟨[(fd, .close ⟨0, 0⟩)], (), [], .ok ()⟩
  interest _ _ := ⟨[], (), [], .ok true⟩
  cancel _ _ := ⟨[], (), [], .ok ()⟩

/-- One rule, whose callback closes its descriptor: the error is thrown for it,
although the next call would cancel it. -/
theorem closer_falseAlarm :
    let rules := addRule .empty ⟨0, .In, 0, none, none⟩
    (waitNextEvent closer.program 0 allReady (-1) rules openWorld).outcome = .threw busyWait ∧
    ((waitNextEvent closer.program 0 allReady (-1) rules openWorld).world.wrappers 0).closed ∧
    ¬NoFalseAlarm closer.program 0 allReady (-1) rules openWorld := by
  intro rules
  have busy : (waitNextEvent closer.program 0 allReady (-1) rules openWorld).outcome =
      .threw busyWait := by decide +kernel
  have closed : ((waitNextEvent closer.program 0 allReady (-1) rules openWorld).world.wrappers
      0).closed := by decide +kernel
  refine ⟨busy, closed, ?_⟩
  intro noAlarm
  obtain ⟨e, last, asked, about⟩ : ∃ e ∈ (resultEvents closer.program 0 allReady (-1) rules
      openWorld).getLast?, e.asked = some true ∧ e.rule.val.fd = 0 := by decide +kernel
  cases e with
  | interest rule mid answer =>
      obtain rfl := Event.asked_interest.mp asked
      have about : rule.val.fd = 0 := about
      obtain ⟨-, live⟩ := noAlarm rule mid ⟨busy, last⟩
      unfold Defunct at live
      rw [about] at live
      exact live (.inr closed)
  | callback | cancel => cases asked

end EventLoop

end Sponge
