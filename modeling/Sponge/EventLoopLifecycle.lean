import Sponge.EventLoopIteration
import Sponge.Lib.Runs

/-!
# Runs of an event loop and the lifecycle of its rules

A program registers rules, waits for events and does other things in between. The
state of such a run is the list of rules, the world and the log of all calls of
`wait_next_event` so far.

Whatever the kernel answers and whatever the functions of the rules do, each rule
that was ever registered is live or dead between the calls, and nothing is called
on a dead rule. This needs only that cancel functions return.
-/

namespace Sponge

namespace EventLoop

open LinkedList (Node Fate Walk walk Settled Tidy)

variable {σ H : Type} {p : Program σ H} {rule : Node (Rule H)} {w : World σ}

/-! ## The phases of a call -/

/-- Why a call ends before the second loop. -/
inductive EndsEarly (poll : Poll) (timeoutMs : Int)
    (setup : Walk (Rule H) (World σ) (Event σ H) Entry) :
    LinkedList.Stop Abort → Outcome → Prop
  | left (abort : Abort) : EndsEarly poll timeoutMs setup (.left abort) abort.outcome
  | cut : EndsEarly poll timeoutMs setup .outOfFuel .unfinished
  | nothing (nobody : setup.kept.any (·.2.interested) = false) :
      EndsEarly poll timeoutMs setup .finished (.returned .Exit)
  | answered {outcome : Outcome} (somebody : setup.kept.any (·.2.interested) = true)
      (answer : afterPoll (poll (setup.kept.map (·.2.pollfd)) timeoutMs) = some outcome) :
      EndsEarly poll timeoutMs setup .finished outcome

/-- The ways through `wait_next_event`. -/
inductive Phases (p : Program σ H) (spare : Nat) (poll : Poll) (timeoutMs : Int)
    (rules : LinkedList (Rule H)) (w : World σ) : Call σ H → Prop
  | early {setup : Walk (Rule H) (World σ) (Event σ H) Entry} {stop : LinkedList.Stop Abort}
      {outcome : Outcome} (first : setupLoop p spare rules w = (setup, stop))
      (ends : EndsEarly poll timeoutMs setup stop outcome) :
      Phases p spare poll timeoutMs rules w
        ⟨outcome, setup.list, setup.world, setup.events, [], []⟩
  | dispatched {setup : Walk (Rule H) (World σ) (Event σ H) Entry} {pollfds : List PollFd}
      {results : Walk (Rule H) (World σ) (Event σ H) Unit} {stop : LinkedList.Stop Abort}
      (first : setupLoop p spare rules w = (setup, .finished))
      (somebody : setup.kept.any (·.2.interested) = true)
      (answer : afterPoll (poll (setup.kept.map (·.2.pollfd)) timeoutMs) = none)
      (vector : pollfds =
        reported (setup.kept.map (·.2.pollfd)) (poll (setup.kept.map (·.2.pollfd)) timeoutMs))
      (second : resultLoop p pollfds setup.list setup.world = (results, stop)) :
      Phases p spare poll timeoutMs rules w
        ⟨resultOutcome stop, results.list, results.world, setup.events ++ results.events, pollfds,
          results.visited⟩

theorem waitNextEvent_phases (p : Program σ H) (spare : Nat) (poll : Poll) (timeoutMs : Int)
    (rules : LinkedList (Rule H)) (w : World σ) :
    Phases p spare poll timeoutMs rules w (waitNextEvent p spare poll timeoutMs rules w) := by
  unfold waitNextEvent
  rcases first : setupLoop p spare rules w with ⟨setup, _ | abort | _⟩
  · by_cases somebody : setup.kept.any (·.2.interested) = true
    · simp only [somebody, not_true_eq_false, if_false]
      cases answer : afterPoll (poll (setup.kept.map (·.2.pollfd)) timeoutMs) with
      | some outcome => exact .early first (.answered somebody answer)
      | none => exact .dispatched first somebody answer rfl rfl
    · simp only [somebody]
      exact .early first (.nothing (Bool.eq_false_iff.mpr somebody))
  · exact .early first (.left abort)
  · exact .early first .cut

/-! ## Cancel functions that return -/

def Program.CancelReturns (p : Program σ H) : Prop := ∀ h w, (p.cancel h w).result = .ok ()

theorem Program.CancelReturns.cancelEffect (cancelReturns : p.CancelReturns) (rule : Rule H)
    (w : World σ) : (p.cancelEffect rule w).result = .ok () :=
  p.cancelEffect_rule (·.result = .ok ()) rule rfl fun h => cancelReturns h w

theorem Surveys.cancels_eq (cancelReturns : p.CancelReturns) {events : List (Event σ H)}
    {w' : World σ} {result : Except Abort (Fate Entry)}
    (surveys : Surveys p rule w events w' result) : ∀ e ∈ events, e.cancels = e.removes := by
  cases surveys with
  | cancelThrew _ threw => simp [cancelReturns.cancelEffect] at threw
  | _ => simp [Event.cancels, Event.removes]

theorem Reacts.cancels_eq (cancelReturns : p.CancelReturns) {r : Reaction}
    {events : List (Event σ H)} {w' : World σ} {result : Except Abort (Fate Unit)}
    (reacts : Reacts p rule w r events w' result) : ∀ e ∈ events, e.cancels = e.removes := by
  cases reacts with
  | hangupThrew threw => simp [cancelReturns.cancelEffect] at threw
  | _ => simp [Event.cancels, Event.removes]

theorem setupLoop_cancels_eq (cancelReturns : p.CancelReturns) (spare : Nat)
    (rules : LinkedList (Rule H)) (w : World σ) :
    ∀ e ∈ (setupLoop p spare rules w).1.events, e.cancels = e.removes :=
  LinkedList.walk_events
    (fun i x w => (setupBody_surveys p i x w).cancels_eq cancelReturns) (by simp [Walk.start])

theorem resultLoop_cancels_eq (cancelReturns : p.CancelReturns) (pollfds : List PollFd)
    (rules : LinkedList (Rule H)) (w : World σ) :
    ∀ e ∈ (resultLoop p pollfds rules w).1.events, e.cancels = e.removes := by
  refine LinkedList.walk_events (fun i x w => ?_) (by simp [Walk.start])
  cases read : pollfds[i]? with
  | none => simp [resultBody, read]
  | some e => simpa only [resultBody, read] using (serve_reacts p x e w).cancels_eq cancelReturns

section Call

variable {spare : Nat} {poll : Poll} {timeoutMs : Int} {rules : LinkedList (Rule H)}
  {call : Call σ H} {log : List (Event σ H)}

theorem Phases.cancels_eq (phases : Phases p spare poll timeoutMs rules w call)
    (cancelReturns : p.CancelReturns) : ∀ e ∈ call.trace, e.cancels = e.removes := by
  have setupTrace := setupLoop_cancels_eq cancelReturns spare rules w
  cases phases with
  | early first _ => rwa [first] at setupTrace
  | @dispatched setup pollfds _ _ first _ _ _ second =>
      have resultTrace := resultLoop_cancels_eq cancelReturns pollfds setup.list setup.world
      rw [first] at setupTrace
      rw [second] at resultTrace
      intro e member
      exact (List.mem_append.mp member).elim (setupTrace e) (resultTrace e)

/-! ## Settled lists of rules -/

theorem setupLoop_settled (settled : Settled Event.about Event.removes rules log) (p : Program σ H)
    (spare : Nat) (w : World σ) :
    Settled Event.about Event.removes (setupLoop p spare rules w).1.list
      (log ++ (setupLoop p spare rules w).1.events) :=
  Settled.walk (setupBody_tidy p) (by simpa [Walk.start] using settled)

theorem resultLoop_settled (settled : Settled Event.about Event.removes rules log)
    (p : Program σ H) (pollfds : List PollFd) (w : World σ) :
    Settled Event.about Event.removes (resultLoop p pollfds rules w).1.list
      (log ++ (resultLoop p pollfds rules w).1.events) :=
  Settled.walk (resultBody_tidy p pollfds) (by simpa [Walk.start] using settled)

/-- A call keeps the list of rules settled, on every way through it. -/
theorem Phases.settled (phases : Phases p spare poll timeoutMs rules w call)
    (settled : Settled Event.about Event.removes rules log) :
    Settled Event.about Event.removes call.rules (log ++ call.trace) := by
  have afterSetup := setupLoop_settled settled p spare w
  cases phases with
  | early first _ => rwa [first] at afterSetup
  | @dispatched setup pollfds _ _ first _ _ _ second =>
      rw [first] at afterSetup
      have afterResults := resultLoop_settled afterSetup p pollfds setup.world
      rw [second] at afterResults
      rwa [← List.append_assoc]

end Call

/-! ## Runs -/

/-- The state of a program that uses an event loop. -/
structure System (σ H : Type) where
  rules : LinkedList (Rule H)
  world : World σ
  history : List (Event σ H)

/-- What the program does. -/
inductive Op (σ H : Type) where
  | addRule (rule : Rule H)
  | waitNextEvent (spare : Nat) (poll : Poll) (timeoutMs : Int)
  | other (change : World σ → World σ)

namespace System

def initial (w : World σ) : System σ H := ⟨.empty, w, []⟩

def step (p : Program σ H) (s : System σ H) : Op σ H → System σ H × Option Outcome
  | .addRule rule => ({ s with rules := addRule s.rules rule }, none)
  | .waitNextEvent spare poll timeoutMs =>
      let call := EventLoop.waitNextEvent p spare poll timeoutMs s.rules s.world
      (⟨call.rules, call.world, s.history ++ call.trace⟩, some call.outcome)
  | .other change => ({ s with world := change s.world }, none)

/-- The rule is in the list, once, and its cancel function was never called. -/
def Live (s : System σ H) (n : Nat) : Prop :=
  (s.rules.nodes.map (·.id)).count n = 1 ∧ ∀ e ∈ s.history, e.about = n → e.cancels = false

/-- The rule is not in the list, and its cancel function was called once. -/
def Dead (s : System σ H) (n : Nat) : Prop :=
  n ∉ s.rules.nodes.map (·.id) ∧ (s.history.countP fun e => e.cancels && e.about == n) = 1

/-- What holds between the calls of a run. -/
structure Orderly (s : System σ H) : Prop where
  settled : Settled Event.about Event.removes s.rules s.history
  returned : ∀ e ∈ s.history, e.cancels = e.removes

theorem orderly_step (cancelReturns : p.CancelReturns) {s : System σ H} (orderly : s.Orderly)
    (op : Op σ H) : (step p s op).1.Orderly := by
  cases op with
  | addRule rule => exact ⟨orderly.settled.pushAll [rule], orderly.returned⟩
  | waitNextEvent spare poll timeoutMs =>
      have phases := waitNextEvent_phases p spare poll timeoutMs s.rules s.world
      refine ⟨phases.settled orderly.settled, fun e member => ?_⟩
      exact (List.mem_append.mp member).elim (orderly.returned e)
        (phases.cancels_eq cancelReturns e)
  | other change => exact ⟨orderly.settled, orderly.returned⟩

theorem Orderly.live_or_dead {s : System σ H} (orderly : s.Orderly) {n : Nat}
    (known : n < s.rules.next) : s.Live n ∨ s.Dead n := by
  rcases orderly.settled.live_or_dead known with ⟨once, never⟩ | ⟨absent, once⟩
  · refine .inl ⟨once, fun e member about => ?_⟩
    rw [orderly.returned e member, Bool.eq_false_iff]
    exact fun removes => never e member removes about
  · refine .inr ⟨absent, ?_⟩
    rw [← once]
    exact List.countP_congr fun e member => by rw [orderly.returned e member]

end System

/-- **Lifecycle of the rules.** In every run, between any two calls, every rule that
was ever registered is live or dead, nothing was called on a rule after its
cancel function, and the rules in the list are in the order of their
registration. -/
theorem lifecycle (cancelReturns : p.CancelReturns) (w : World σ) (ops : List (Op σ H)) :
    let s := (Runs.run (System.step p) (System.initial w) ops).1
    (∀ n < s.rules.next, s.Live n ∨ s.Dead n) ∧
      s.history.Pairwise (fun a b => a.cancels → b.about ≠ a.about) ∧
      s.rules.nodes.Pairwise (·.id < ·.id) := by
  intro s
  have initial : (System.initial w : System σ H).Orderly :=
    ⟨.empty, fun _ member => (List.not_mem_nil member).elim⟩
  have preserved : ∀ s op, System.Orderly s → True → (System.step p s op).1.Orderly :=
    fun _ op orderly _ => System.orderly_step cancelReturns orderly op
  have orderly : s.Orderly := Runs.run_invariant preserved initial (Runs.along_true _ ops)
  refine ⟨fun n known => orderly.live_or_dead known, ?_, s.rules.ordered⟩
  refine orderly.settled.silent.imp_of_mem fun {a b} first _ silent cancels => silent ?_
  rwa [← orderly.returned a first]

/-- All descriptors are open. -/
def openWorld : World Unit := ⟨fun fd => ⟨fd, false, false, 0, 0⟩, ()⟩

/-- The kernel reports every polled descriptor as readable and writable. -/
def allReady : Poll := fun pollfds _ => ⟨⟨pollfds.length, 0⟩, fun _ => pollin ||| pollout⟩

/-- A program whose callbacks read from the descriptor they are named by and find its
end. -/
def drained : Program Unit Nat where
  callback fd w :=
    ⟨w.update fd fun wrapper => (FileDescriptor.read wrapper 1 ⟨0, 0⟩ []).1, [], .ok ()⟩
  interest _ w := ⟨w, [], .ok true⟩
  cancel _ w := ⟨w, [], .ok ()⟩

/-- The first wait calls the callback, the second one cancels the rule. -/
theorem lifecycle_drained :
    (Runs.run (System.step drained) (.initial openWorld)
      [.addRule ⟨0, .In, 0, none, none⟩, .waitNextEvent 0 allReady (-1),
        .waitNextEvent 0 allReady (-1)]).1.Dead 0 := by
  rcases (lifecycle (p := drained) (fun _ _ => rfl) openWorld
    [.addRule ⟨0, .In, 0, none, none⟩, .waitNextEvent 0 allReady (-1),
      .waitNextEvent 0 allReady (-1)]).1 0 (by decide +kernel) with live | dead
  · exact absurd live.1 (by decide +kernel)
  · exact dead

end EventLoop

end Sponge
