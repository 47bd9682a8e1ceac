import Sponge.EventLoop
import Sponge.Lib.NodeLog

/-!
# What one iteration of the event loop can do

Each of the two loops of `wait_next_event` is described by a relation that lists
the cases of its body: the functions that are called, in which world, and how the
iteration ends. `Surveys` is for the first loop and `Reacts` for the second. All
other modules on the event loop reason by these cases.
-/

namespace Sponge

namespace EventLoop

open LinkedList (Node Act Fate Walk walk Tidy)

/-! ## The log -/

namespace Event

variable {σ H : Type}

def rule : Event σ H → Node (Rule H)
  | .interest rule .. => rule
  | .callback rule .. => rule
  | .cancel rule .. => rule

/-- The world that the function was called in. -/
def before : Event σ H → World σ
  | .interest _ before _ => before
  | .callback _ before _ => before
  | .cancel _ before _ => before

/-- The number of the node that an event is about. -/
def about (e : Event σ H) : Nat := e.rule.id

/-- The cancel function of a rule is called. -/
def cancels : Event σ H → Bool
  | .cancel .. => true
  | _ => false

/-- The cancel function of a rule returns, and the rule is erased. -/
def removes : Event σ H → Bool
  | .cancel _ _ (.ok _) => true
  | _ => false

end Event

variable {σ H R S : Type} {p : Program σ H} {rule : Node (Rule H)} {w : World σ}

/-! ## Calls of the functions -/

theorem invoke_bind_of_ok {function : World σ → Effect σ H R}
    {log : World σ → Except Exn R → Event σ H} {r : R} (ok : (function w).result = .ok r)
    (rest : R → Step σ H S) :
    (invoke function log >>= rest) w =
      ⟨(rest r (function w).world).world,
        (function w).added ++ (rest r (function w).world).pushed,
        log w (.ok r) :: (rest r (function w).world).events,
        (rest r (function w).world).result⟩ := by
  rw [Act.bind_of_ok (r := r) (by simp [invoke, ok, Except.mapError])]
  simp [invoke, ok]

theorem invoke_bind_of_error {function : World σ → Effect σ H R}
    {log : World σ → Except Exn R → Event σ H} {e : Exn} (error : (function w).result = .error e)
    (rest : R → Step σ H S) :
    (invoke function log >>= rest) w =
      ⟨(function w).world, (function w).added, [log w (.error e)], .error (.threw e)⟩ := by
  rw [Act.bind_of_error (x := Abort.threw e) (by simp [invoke, error, Except.mapError])]
  simp [invoke, error]

/-- What holds of the default interest function and of all of the program's own holds of
that of every rule. -/
theorem Program.interestEffect_rule (p : Program σ H) (holds : Effect σ H Bool → Prop)
    (rule : Rule H) (default : holds ⟨w, [], .ok true⟩)
    (named : ∀ h, holds (p.interest h w)) : holds (p.interestEffect rule w) := by
  unfold Program.interestEffect
  cases rule.interest with
  | none => exact default
  | some h => exact named h

theorem Program.cancelEffect_rule (p : Program σ H) (holds : Effect σ H Unit → Prop)
    (rule : Rule H) (default : holds ⟨w, [], .ok ()⟩)
    (named : ∀ h, holds (p.cancel h w)) : holds (p.cancelEffect rule w) := by
  unfold Program.cancelEffect
  cases rule.cancel with
  | none => exact default
  | some h => exact named h

/-! ## The first loop -/

/-- A rule that the first loop cancels. -/
def Defunct (rule : Rule H) (w : World σ) : Prop :=
  (rule.direction = .In ∧ (w.wrappers rule.fd).eof) ∨ (w.wrappers rule.fd).closed

instance (rule : Rule H) (w : World σ) : Decidable (Defunct rule w) :=
  inferInstanceAs (Decidable (_ ∨ _))

/-- What a rule asks for. -/
def requested (rule : Rule H) (interested : Bool) : BitVec 16 :=
  if interested then rule.direction.events else 0

/-- The entry for a rule. -/
def entryOf (rule : Node (Rule H)) (interested : Bool) (w : World σ) : Entry :=
  ⟨⟨(w.wrappers rule.val.fd).fd, requested rule.val interested, 0, rule.id⟩, interested⟩

/-- The iterations of the first loop: log, world afterwards and end. -/
inductive Surveys (p : Program σ H) (rule : Node (Rule H)) (w : World σ) :
    List (Event σ H) → World σ → Except Abort (Fate Entry) → Prop
  | cancelled (defunct : Defunct rule.val w)
      (returned : (p.cancelEffect rule.val w).result = .ok ()) :
      Surveys p rule w [.cancel rule w (.ok ())] (p.cancelEffect rule.val w).world (.ok .erase)
  | cancelThrew {e : Exn} (defunct : Defunct rule.val w)
      (threw : (p.cancelEffect rule.val w).result = .error e) :
      Surveys p rule w [.cancel rule w (.error e)] (p.cancelEffect rule.val w).world
        (.error (.threw e))
  | entered {interested : Bool} (live : ¬Defunct rule.val w)
      (returned : (p.interestEffect rule.val w).result = .ok interested) :
      Surveys p rule w [.interest rule w (.ok interested)] (p.interestEffect rule.val w).world
        (.ok (.next (entryOf rule interested (p.interestEffect rule.val w).world)))
  | interestThrew {e : Exn} (live : ¬Defunct rule.val w)
      (threw : (p.interestEffect rule.val w).result = .error e) :
      Surveys p rule w [.interest rule w (.error e)] (p.interestEffect rule.val w).world
        (.error (.threw e))

theorem setupBody_of_defunct (defunct : Defunct rule.val w) (i : Nat) :
    setupBody p i rule w = (p.cancelOf rule >>= fun _ => pure .erase) w := by
  unfold setupBody
  rw [Act.look_bind]
  by_cases eof : rule.val.direction = .In ∧ (w.wrappers rule.val.fd).eof
  · rw [if_pos eof]
  · rw [if_neg eof, if_pos (defunct.resolve_left eof)]

theorem setupBody_of_live (live : ¬Defunct rule.val w) (i : Nat) :
    setupBody p i rule w =
      (p.interestOf rule >>= fun interested =>
        Act.look fun w => Fate.next (entryOf rule interested w)) w := by
  unfold Defunct at live
  push Not at live
  unfold setupBody
  rw [Act.look_bind, if_neg (by simpa using live.1), if_neg (by simpa using live.2)]
  refine congrArg (fun rest => (p.interestOf rule >>= rest) w)
    (funext fun interested => funext fun w => ?_)
  cases interested <;> rfl

theorem setupBody_surveys (p : Program σ H) (i : Nat) (rule : Node (Rule H)) (w : World σ) :
    Surveys p rule w (setupBody p i rule w).events (setupBody p i rule w).world
      (setupBody p i rule w).result := by
  by_cases defunct : Defunct rule.val w
  · rw [setupBody_of_defunct defunct, Program.cancelOf]
    cases called : (p.cancelEffect rule.val w).result with
    | error e =>
        rw [invoke_bind_of_error called]
        exact .cancelThrew defunct called
    | ok r =>
        rw [invoke_bind_of_ok called]
        exact .cancelled defunct called
  · rw [setupBody_of_live defunct, Program.interestOf]
    cases called : (p.interestEffect rule.val w).result with
    | error e =>
        rw [invoke_bind_of_error called]
        exact .interestThrew defunct called
    | ok interested =>
        rw [invoke_bind_of_ok called]
        exact .entered defunct called

/-- The entry that is built for a rule is its own. -/
theorem Surveys.entry_eq {events : List (Event σ H)} {w' : World σ} {entry : Entry}
    (surveys : Surveys p rule w events w' (.ok (.next entry))) :
    ∃ interested, entry = entryOf rule interested w' := by
  cases surveys with
  | entered => exact ⟨_, rfl⟩

/-- The first loop is left by exceptions only. -/
theorem Surveys.threw_of_error {events : List (Event σ H)} {w' : World σ} {abort : Abort}
    (surveys : Surveys p rule w events w' (.error abort)) : ∃ e, abort = .threw e := by
  cases surveys <;> exact ⟨_, rfl⟩

/-! ## The second loop -/

/-- What is to be done about a rule. -/
inductive Reaction where
  | error
  | hangup
  | ready
  | idle
  deriving DecidableEq, Repr

/-- The branches of the second loop. -/
def PollFd.reaction (e : PollFd) : Reaction :=
  if e.revents &&& (pollerr ||| pollnval) ≠ 0 then
    .error
  else if e.revents &&& pollhup ≠ 0 ∧ e.events ≠ 0 ∧ ¬e.revents &&& e.events ≠ 0 then
    .hangup
  else if e.revents &&& e.events ≠ 0 then
    .ready
  else
    .idle

/-- The exception for an error condition that the kernel reports. -/
abbrev polledError : Exn := .runtimeError "EventLoop: error on polled file descriptor"

/-- The exception for a callback that leaves its descriptor ready. -/
abbrev busyWait : Exn :=
  .runtimeError
    "EventLoop: busy wait detected: callback did not read/write fd and is still interested"

/-- The iterations of the second loop, by what is to be done: log, world afterwards
and end. -/
inductive Reacts (p : Program σ H) (rule : Node (Rule H)) (w : World σ) :
    Reaction → List (Event σ H) → World σ → Except Abort (Fate Unit) → Prop
  | error : Reacts p rule w .error [] w (.error (.threw polledError))
  | hangup (returned : (p.cancelEffect rule.val w).result = .ok ()) :
      Reacts p rule w .hangup [.cancel rule w (.ok ())] (p.cancelEffect rule.val w).world
        (.ok .erase)
  | hangupThrew {e : Exn} (threw : (p.cancelEffect rule.val w).result = .error e) :
      Reacts p rule w .hangup [.cancel rule w (.error e)] (p.cancelEffect rule.val w).world
        (.error (.threw e))
  | callbackThrew {e : Exn} (threw : (p.callback rule.val.callback w).result = .error e) :
      Reacts p rule w .ready [.callback rule w (.error e)] (p.callback rule.val.callback w).world
        (.error (.threw e))
  | serviced {mid : World σ} {added : List (Rule H)}
      (called : p.callback rule.val.callback w = ⟨mid, added, .ok ()⟩)
      (counted : rule.val.serviceCount w ≠ rule.val.serviceCount mid) :
      Reacts p rule w .ready [.callback rule w (.ok ())] mid (.ok (.next ()))
  | uninterested {mid : World σ} {added : List (Rule H)}
      (called : p.callback rule.val.callback w = ⟨mid, added, .ok ()⟩)
      (same : rule.val.serviceCount w = rule.val.serviceCount mid)
      (returned : (p.interestEffect rule.val mid).result = .ok false) :
      Reacts p rule w .ready [.callback rule w (.ok ()), .interest rule mid (.ok false)]
        (p.interestEffect rule.val mid).world (.ok (.next ()))
  | busy {mid : World σ} {added : List (Rule H)}
      (called : p.callback rule.val.callback w = ⟨mid, added, .ok ()⟩)
      (same : rule.val.serviceCount w = rule.val.serviceCount mid)
      (returned : (p.interestEffect rule.val mid).result = .ok true) :
      Reacts p rule w .ready [.callback rule w (.ok ()), .interest rule mid (.ok true)]
        (p.interestEffect rule.val mid).world (.error (.threw busyWait))
  | interestThrew {mid : World σ} {added : List (Rule H)} {e : Exn}
      (called : p.callback rule.val.callback w = ⟨mid, added, .ok ()⟩)
      (same : rule.val.serviceCount w = rule.val.serviceCount mid)
      (threw : (p.interestEffect rule.val mid).result = .error e) :
      Reacts p rule w .ready [.callback rule w (.ok ()), .interest rule mid (.error e)]
        (p.interestEffect rule.val mid).world (.error (.threw e))
  | idle : Reacts p rule w .idle [] w (.ok (.next ()))

/-- The code that follows when the descriptor is ready. -/
def serveReady (p : Program σ H) (rule : Node (Rule H)) : Step σ H (Fate Unit) := do
  let countBefore ← Act.look rule.val.serviceCount
  p.callbackOf rule
  let countAfter ← Act.look rule.val.serviceCount
  if countBefore = countAfter then
    if ← p.interestOf rule then Act.throw (.threw busyWait) else return .next ()
  else
    return .next ()

theorem serve_eq (p : Program σ H) (rule : Node (Rule H)) (e : PollFd) :
    serve p rule e =
      match e.reaction with
      | .error => Act.throw (.threw polledError)
      | .hangup => do
          p.cancelOf rule
          return .erase
      | .ready => serveReady p rule
      | .idle => return .next () := by
  simp only [serve, PollFd.reaction]
  split_ifs <;> rfl

theorem serveReady_reacts (p : Program σ H) (rule : Node (Rule H)) (w : World σ) :
    Reacts p rule w .ready (serveReady p rule w).events (serveReady p rule w).world
      (serveReady p rule w).result := by
  unfold serveReady
  rw [Act.look_bind, Program.callbackOf]
  cases result : (p.callback rule.val.callback w).result with
  | error e =>
      rw [invoke_bind_of_error result]
      exact .callbackThrew result
  | ok r =>
      rw [invoke_bind_of_ok result, Act.look_bind]
      rcases called : p.callback rule.val.callback w with ⟨mid, added, outcome⟩
      obtain rfl : outcome = .ok () := by rwa [called] at result
      by_cases same : rule.val.serviceCount w = rule.val.serviceCount mid
      · simp only [if_pos same, Program.interestOf]
        cases asked : (p.interestEffect rule.val mid).result with
        | error e =>
            simp only [invoke_bind_of_error asked]
            exact .interestThrew called same asked
        | ok interested =>
            simp only [invoke_bind_of_ok asked]
            cases interested with
            | true => exact .busy called same asked
            | false => exact .uninterested called same asked
      · simp only [if_neg same]
        exact .serviced called same

theorem serve_reacts (p : Program σ H) (rule : Node (Rule H)) (e : PollFd) (w : World σ) :
    Reacts p rule w e.reaction (serve p rule e w).events (serve p rule e w).world
      (serve p rule e w).result := by
  rw [serve_eq]
  cases e.reaction with
  | error => exact .error
  | idle => exact .idle
  | ready => exact serveReady_reacts p rule w
  | hangup =>
      rw [Program.cancelOf]
      cases called : (p.cancelEffect rule.val w).result with
      | error e =>
          simp only [invoke_bind_of_error called]
          exact .hangupThrew called
      | ok r =>
          simp only [invoke_bind_of_ok called]
          exact .hangup called

theorem Reacts.threw_of_error {r : Reaction} {events : List (Event σ H)} {w' : World σ}
    {abort : Abort} (reacts : Reacts p rule w r events w' (.error abort)) :
    ∃ e, abort = .threw e := by
  cases reacts <;> exact ⟨_, rfl⟩

/-! ## Both loops are tidy -/

theorem Surveys.tidy {events : List (Event σ H)} {w' : World σ} {result : Except Abort (Fate Entry)}
    (surveys : Surveys p rule w events w' result) (pushed : List (Rule H)) :
    Tidy Event.about Event.removes rule ⟨w', pushed, events, result⟩ := by
  cases surveys <;> constructor <;> simp [Event.about, Event.rule, Event.removes]

theorem Reacts.tidy {r : Reaction} {events : List (Event σ H)} {w' : World σ}
    {result : Except Abort (Fate Unit)} (reacts : Reacts p rule w r events w' result)
    (pushed : List (Rule H)) :
    Tidy Event.about Event.removes rule ⟨w', pushed, events, result⟩ := by
  cases reacts <;> constructor <;> simp [Event.about, Event.rule, Event.removes]

theorem setupBody_tidy (p : Program σ H) (i : Nat) (rule : Node (Rule H)) (w : World σ) :
    Tidy Event.about Event.removes rule (setupBody p i rule w) :=
  (setupBody_surveys p i rule w).tidy _

theorem resultBody_tidy (p : Program σ H) (pollfds : List PollFd) (i : Nat)
    (rule : Node (Rule H)) (w : World σ) :
    Tidy Event.about Event.removes rule (resultBody p pollfds i rule w) := by
  cases read : pollfds[i]? with
  | none => simp only [resultBody, read]; constructor <;> simp
  | some e => simp only [resultBody, read]; exact (serve_reacts p rule e w).tidy _

/-! ## Functions that do not register rules -/

/-- No function of the program calls back into the event loop. -/
structure Program.NoReentry (p : Program σ H) : Prop where
  callback : ∀ h w, (p.callback h w).added = []
  interest : ∀ h w, (p.interest h w).added = []
  cancel : ∀ h w, (p.cancel h w).added = []

theorem invoke_bind_pushed {function : World σ → Effect σ H R}
    {log : World σ → Except Exn R → Event σ H} {rest : R → Step σ H S}
    (quiet : ∀ w, (function w).added = []) (later : ∀ r w, (rest r w).pushed = []) (w : World σ) :
    ((invoke function log >>= rest) w).pushed = [] := by
  cases called : (function w).result with
  | error e => rw [invoke_bind_of_error called]; exact quiet w
  | ok r => rw [invoke_bind_of_ok called]; simp [quiet, later]

namespace Program.NoReentry

theorem interestEffect (noReentry : p.NoReentry) (rule : Rule H) (w : World σ) :
    (p.interestEffect rule w).added = [] :=
  p.interestEffect_rule (·.added = []) rule rfl fun h => noReentry.interest h w

theorem cancelEffect (noReentry : p.NoReentry) (rule : Rule H) (w : World σ) :
    (p.cancelEffect rule w).added = [] :=
  p.cancelEffect_rule (·.added = []) rule rfl fun h => noReentry.cancel h w

theorem setupBody_pushed (noReentry : p.NoReentry) (i : Nat) (rule : Node (Rule H))
    (w : World σ) : (setupBody p i rule w).pushed = [] := by
  by_cases defunct : Defunct rule.val w
  · rw [setupBody_of_defunct defunct]
    exact invoke_bind_pushed (noReentry.cancelEffect rule.val) (fun _ _ => rfl) w
  · rw [setupBody_of_live defunct]
    exact invoke_bind_pushed (noReentry.interestEffect rule.val) (fun _ _ => rfl) w

theorem serve_pushed (noReentry : p.NoReentry) (rule : Node (Rule H)) (e : PollFd)
    (w : World σ) : (serve p rule e w).pushed = [] := by
  rw [serve_eq]
  cases e.reaction with
  | error => rfl
  | idle => rfl
  | hangup => exact invoke_bind_pushed (noReentry.cancelEffect rule.val) (fun _ _ => rfl) w
  | ready =>
      refine invoke_bind_pushed (noReentry.callback _) (fun _ mid => ?_) w
      rw [Act.look_bind]
      split
      · refine invoke_bind_pushed (noReentry.interestEffect rule.val) (fun interested _ => ?_) mid
        cases interested <;> rfl
      · rfl

theorem resultBody_pushed (noReentry : p.NoReentry) (pollfds : List PollFd) (i : Nat)
    (rule : Node (Rule H)) (w : World σ) : (resultBody p pollfds i rule w).pushed = [] := by
  cases read : pollfds[i]? with
  | none => simp only [resultBody, read]; rfl
  | some e => simp only [resultBody, read]; exact noReentry.serve_pushed rule e w

end Program.NoReentry

end EventLoop

end Sponge
