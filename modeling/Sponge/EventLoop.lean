import Sponge.FileDescriptor
import Sponge.Lib.LinkedList

/-!
# The event loop

`EventLoop` of `eventloop.hh` and `eventloop.cc`. The rules are kept in a linked
list; `wait_next_event` walks it twice, once to build the vector of `pollfd`s and
once, by an index into that vector, to serve what `poll` reported.

The functions of a rule belong to the program around the library. They are named
by a type `H`, and a `Program` says what each of them does: it acts on the
wrappers behind the descriptors and on the program's own state, it may throw, and
it may register further rules while `wait_next_event` is running. What the kernel
answers to `poll` is an argument.

Next to what the source computes, a call of `wait_next_event` logs the functions
it has called and the world each of them was called in, and every entry of the
vector remembers the node of the rule it was built for.
-/

namespace Sponge

/-- What the functions of the rules act on: the wrappers of all descriptors, by
their address, and the state of the program. -/
structure World (σ : Type) where
  wrappers : Nat → FDWrapper
  user : σ

/-- A member function of a descriptor acts on its wrapper, which all duplicates share. -/
def World.update {σ : Type} (w : World σ) (fd : Nat) (act : FDWrapper → FDWrapper) : World σ :=
  { w with wrappers := Function.update w.wrappers fd (act (w.wrappers fd)) }

namespace EventLoop

open LinkedList (Node Act Fate Walk walk)

/-! ## Rules -/

abbrev pollin : BitVec 16 := 0x001
abbrev pollout : BitVec 16 := 0x004
abbrev pollerr : BitVec 16 := 0x008
abbrev pollhup : BitVec 16 := 0x010
abbrev pollnval : BitVec 16 := 0x020

/-- The error number of an interrupted system call. -/
abbrev eintr : Int := 4

inductive Direction where
  | In
  | Out
  deriving DecidableEq, Repr

/-- The value of a direction as a `short`. -/
def Direction.events : Direction → BitVec 16
  | .In => pollin
  | .Out => pollout

/-- A rule. Its descriptor is given by the address of the wrapper, which all
duplicates share. The defaults are those of `add_rule`: an interest function that
returns `true` and a cancel function that does nothing. -/
structure Rule (H : Type) where
  fd : Nat
  direction : Direction
  callback : H
  interest : Option H := none
  cancel : Option H := none
  deriving DecidableEq, Repr

variable {σ H R : Type}

def Rule.serviceCount (rule : Rule H) (w : World σ) : UInt32 :=
  match rule.direction with
  | .In => (w.wrappers rule.fd).readCount
  | .Out => (w.wrappers rule.fd).writeCount

/-- The member function `add_rule`. The duplicate that the rule gets has the same
wrapper as the descriptor it is made from. -/
def addRule (rules : LinkedList (Rule H)) (rule : Rule H) : LinkedList (Rule H) :=
  rules.pushBack rule

/-! ## The functions of a rule -/

/-- What a function did: the world it left, the rules it registered and whether it
returned. -/
structure Effect (σ H R : Type) where
  world : World σ
  added : List (Rule H)
  result : Except Exn R

/-- The functions of the program, by their names. -/
structure Program (σ H : Type) where
  callback : H → World σ → Effect σ H Unit
  interest : H → World σ → Effect σ H Bool
  cancel : H → World σ → Effect σ H Unit

/-- The log of a call: a function of a rule, the world it was called in and how it
ended. -/
inductive Event (σ H : Type) where
  | interest (rule : Node (Rule H)) (before : World σ) (answer : Except Exn Bool)
  | callback (rule : Node (Rule H)) (before : World σ) (result : Except Exn Unit)
  | cancel (rule : Node (Rule H)) (before : World σ) (result : Except Exn Unit)

/-- Why a loop is left: by an exception, or because it reads behind the end of the
vector. -/
inductive Abort where
  | threw (e : Exn)
  | undefined
  deriving DecidableEq, Repr

/-- Code of `wait_next_event`. -/
abbrev Step (σ H R : Type) := Act (Rule H) (World σ) (Event σ H) Abort R

/-- Call a function and log the call. -/
def invoke (function : World σ → Effect σ H R) (log : World σ → Except Exn R → Event σ H) :
    Step σ H R := fun w =>
  let effect := function w
  ⟨effect.world, effect.added, [log w effect.result], effect.result.mapError .threw⟩

namespace Program

variable (p : Program σ H)

def interestEffect (rule : Rule H) : World σ → Effect σ H Bool :=
  match rule.interest with
  | none => fun w => ⟨w, [], .ok true⟩
  | some f => p.interest f

def cancelEffect (rule : Rule H) : World σ → Effect σ H Unit :=
  match rule.cancel with
  | none => fun w => ⟨w, [], .ok ()⟩
  | some f => p.cancel f

def callbackOf (rule : Node (Rule H)) : Step σ H Unit :=
  invoke (p.callback rule.val.callback) (.callback rule)

def interestOf (rule : Node (Rule H)) : Step σ H Bool :=
  invoke (p.interestEffect rule.val) (.interest rule)

def cancelOf (rule : Node (Rule H)) : Step σ H Unit :=
  invoke (p.cancelEffect rule.val) (.cancel rule)

end Program

/-! ## Setting up the poll -/

/-- An entry of the vector, with the number of the node it was built for. -/
structure PollFd where
  fd : Nat
  events : BitVec 16
  revents : BitVec 16
  owner : Nat
  deriving DecidableEq, Repr

/-- What an iteration of the first loop appends to the vector, and whether it sets
`something_to_poll`. -/
structure Entry where
  pollfd : PollFd
  interested : Bool
  deriving DecidableEq, Repr

/-- The body of the first loop. -/
def setupBody (p : Program σ H) (_ : Nat) (rule : Node (Rule H)) : Step σ H (Fate Entry) := do
  let wrapper ← Act.look fun w => w.wrappers rule.val.fd
  if rule.val.direction = .In ∧ wrapper.eof then
    p.cancelOf rule
    return .erase
  else if wrapper.closed then
    p.cancelOf rule
    return .erase
  else
    let interested ← p.interestOf rule
    let fdNum ← Act.look fun w => (w.wrappers rule.val.fd).fd
    if interested then
      return .next ⟨⟨fdNum, rule.val.direction.events, 0, rule.id⟩, true⟩
    else
      return .next ⟨⟨fdNum, 0, 0, rule.id⟩, false⟩

/-! ## Serving what was polled -/

/-- The body of the second loop, for a rule and the entry that it is served by. -/
def serve (p : Program σ H) (rule : Node (Rule H)) (thisPollfd : PollFd) :
    Step σ H (Fate Unit) := do
  let pollError := thisPollfd.revents &&& (pollerr ||| pollnval) ≠ 0
  let pollReady := thisPollfd.revents &&& thisPollfd.events ≠ 0
  let pollHup := thisPollfd.revents &&& pollhup ≠ 0
  if pollError then
    Act.throw (.threw (.runtimeError "EventLoop: error on polled file descriptor"))
  else if pollHup ∧ thisPollfd.events ≠ 0 ∧ ¬pollReady then
    p.cancelOf rule
    return .erase
  else if pollReady then
    let countBefore ← Act.look rule.val.serviceCount
    p.callbackOf rule
    let countAfter ← Act.look rule.val.serviceCount
    if countBefore = countAfter then
      if ← p.interestOf rule then
        Act.throw (.threw (.runtimeError
          "EventLoop: busy wait detected: callback did not read/write fd and is still interested"))
      else
        return .next ()
    else
      return .next ()
  else
    return .next ()

/-- The body of the second loop: the entry is read at the number of the iteration. -/
def resultBody (p : Program σ H) (pollfds : List PollFd) (idx : Nat) (rule : Node (Rule H)) :
    Step σ H (Fate Unit) :=
  match pollfds[idx]? with
  | none => Act.throw .undefined
  | some thisPollfd => serve p rule thisPollfd

/-! ## Waiting for the next event -/

/-- What the kernel left behind when `poll` returned. -/
structure PollAnswer where
  call : SysResult
  revents : Nat → BitVec 16

/-- The kernel's answer to a vector and a timeout. -/
abbrev Poll := List PollFd → Int → PollAnswer

inductive Result where
  | Success
  | Timeout
  | Exit
  deriving DecidableEq, Repr

/-- How a call ends. A call of which the model has not seen the end is
`unfinished`. -/
inductive Outcome where
  | returned (result : Result)
  | threw (e : Exn)
  | undefined
  | unfinished
  deriving DecidableEq, Repr

/-- A call of `wait_next_event`: how it ended, what it left, the log of both loops,
the vector that the second loop read and the rules that its iterator stood at. -/
structure Call (σ H : Type) where
  outcome : Outcome
  rules : LinkedList (Rule H)
  world : World σ
  trace : List (Event σ H)
  pollfds : List PollFd
  served : List (Node (Rule H))

def Abort.outcome : Abort → Outcome
  | .threw e => .threw e
  | .undefined => .undefined

/-- The `try` block around `poll`: how the call ends there, or `none` if it goes on
to the second loop. Other errors of the system call than an interruption are
caught and dropped. -/
def afterPoll (answer : PollAnswer) : Option Outcome :=
  match systemCall "poll" answer.call with
  | .ok value => if 0 = value then some (.returned .Timeout) else none
  | .error (.unixError _ code) => if code = eintr then some (.returned .Exit) else none
  | .error e => some (.threw e)

/-- The kernel writes to the member `revents` only. -/
def PollFd.report (e : PollFd) (revents : BitVec 16) : PollFd := ⟨e.fd, e.events, revents, e.owner⟩

/-- The vector after the kernel has written to it. -/
def reported (pollfds : List PollFd) (answer : PollAnswer) : List PollFd :=
  pollfds.mapIdx fun i e => e.report (answer.revents i)

/-- The first loop. Its bound grows with the rules that the functions register
while it runs, and `spare` of these are covered. -/
def setupLoop (p : Program σ H) (spare : Nat) (rules : LinkedList (Rule H)) (w : World σ) :
    Walk (Rule H) (World σ) (Event σ H) Entry × LinkedList.Stop Abort :=
  walk (setupBody p) (rules.nodes.length + spare) (.start rules w)

/-- The second loop. It cannot get behind the end of the vector. -/
def resultLoop (p : Program σ H) (pollfds : List PollFd) (rules : LinkedList (Rule H))
    (w : World σ) : Walk (Rule H) (World σ) (Event σ H) Unit × LinkedList.Stop Abort :=
  walk (resultBody p pollfds) (pollfds.length + 1) (.start rules w)

/-- How a call ends after the second loop. -/
def resultOutcome : LinkedList.Stop Abort → Outcome
  | .finished => .returned .Success
  | .left abort => abort.outcome
  | .outOfFuel => .unfinished

/-- The member function `wait_next_event`. -/
def waitNextEvent (p : Program σ H) (spare : Nat) (poll : Poll) (timeoutMs : Int)
    (rules : LinkedList (Rule H)) (w : World σ) : Call σ H :=
  let (setup, stop) := setupLoop p spare rules w
  let exit (outcome : Outcome) : Call σ H :=
    ⟨outcome, setup.list, setup.world, setup.events, [], []⟩
  match stop with
  | .left abort => exit abort.outcome
  | .outOfFuel => exit .unfinished
  | .finished =>
      let pollfds := setup.kept.map (·.2.pollfd)
      let somethingToPoll := setup.kept.any (·.2.interested)
      if ¬somethingToPoll then
        exit (.returned .Exit)
      else
        let answer := poll pollfds timeoutMs
        match afterPoll answer with
        | some outcome => exit outcome
        | none =>
            let pollfds := reported pollfds answer
            let (results, stop) := resultLoop p pollfds setup.list setup.world
            ⟨resultOutcome stop, results.list, results.world, setup.events ++ results.events,
              pollfds, results.visited⟩

end EventLoop

end Sponge
