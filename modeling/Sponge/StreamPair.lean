import Sponge.FileDescriptorRead
import Sponge.FileDescriptorWrite
import Sponge.Socket
import Sponge.Lib.Channel

/-!
# Two programs and a pair of stream sockets

A pair of connected stream sockets, as `socketpair` makes them for two
`LocalStreamSocket`s, and a program at either end that reads, writes, shuts down
and closes. A `write` is not atomic here: it is suspended between its `writev`
calls, and the other program does anything in the meantime. The kernel keeps the
bytes of each direction in a queue; in every call it may take over and hand out as
few of them as it likes, and it may fail (`Permitted`).

Every step is a step of an abstract channel in each of the two directions
(`channel_step`), whatever the order of the steps, and a suspended `write` goes on
to what it would have come to alone (`Suspended`).
-/

namespace Sponge

namespace StreamPair

open FileDescriptor (Writev WriteState writeBody writeLoop acceptedBy Answers Balanced WriteStep)

/-- The domain of a local socket. -/
abbrev afUnix : Int := 1

/-- The constructor of `LocalStreamSocket`. -/
def localStreamSocket (w : FDWrapper) (domainAnswer typeAnswer : Socket.SockOpt) :
    Except Exn FDWrapper :=
  Socket.ofFileDescriptor w afUnix Socket.sockStream domainAnswer typeAnswer

/-! ## The two ends -/

inductive Side where
  | left
  | right
  deriving DecidableEq, Repr

def Side.other : Side → Side
  | .left => .right
  | .right => .left

@[simp] theorem Side.other_other (side : Side) : side.other.other = side := by
  cases side <;> rfl

@[simp] theorem Side.other_ne (side : Side) : side.other ≠ side := by
  cases side <;> nofun

@[simp] theorem Side.ne_other (side : Side) : side ≠ side.other := by
  cases side <;> nofun

theorem Side.eq_or_eq_other (t side : Side) : t = side ∨ t = side.other := by
  cases t <;> cases side <;> simp [Side.other]

/-- A call of `write`: its arguments, the wrapper it was called on, the kernel's
answers and its variables. -/
structure Writing where
  writev : Writev
  buffer : BufferViewList
  writeAll : Bool
  wrapper : FDWrapper
  state : WriteState

/-- What the call comes to if it is made at once. -/
def Writing.outcome (c : Writing) : WriteState × Except Exn Nat :=
  FileDescriptor.write c.writev c.wrapper c.buffer c.writeAll

/-- One of the programs: its wrapper, the `write` it is in and the ones it has been
through, and what its reads have returned. -/
structure Peer where
  wrapper : FDWrapper
  writing : Option Writing
  written : List Writing
  received : Bytes

/-- The bytes that the kernel has taken over from a program. -/
def Peer.accepted (p : Peer) : Bytes :=
  (p.written.flatMap fun c => c.outcome.1.accepted) ++
    (p.writing.elim [] fun c => c.state.accepted)

/-- One direction of the connection: the bytes in the kernel, and whether the end that
writes and the end that reads have been shut down. -/
structure Flow where
  queue : Bytes
  writerDone : Bool
  readerDone : Bool
  deriving DecidableEq, Repr

/-- The programs and the connection. A flow is named by the side that writes to it. -/
structure Pair where
  peer : Side → Peer
  flow : Side → Flow

/-- What one of the programs does. A `write` is begun, and each `writev` is a round of
its loop. -/
inductive Act where
  | write (writev : Writev) (buffer : BufferViewList) (writeAll : Bool)
  | writev
  | read (limit : Nat) (call : SysResult) (data : Bytes)
  | shutdown (how : Int) (call : SysResult)
  | close (call : SysResult)

/-- What a call returned. -/
inductive Reply where
  | wrote (result : Except Exn Nat)
  | read (result : Except Exn Bytes)
  | done (result : Except Exn Unit)
  deriving DecidableEq

/-- The two sockets that are made from the numbers of a `socketpair` call. -/
def socketPair (fds : Side → Int) (domainAnswer typeAnswer : Side → Socket.SockOpt) :
    Except Exn Pair := do
  let fd1 ← FDWrapper.make (fds .left)
  let pipe1 ← localStreamSocket fd1 (domainAnswer .left) (typeAnswer .left)
  let fd2 ← FDWrapper.make (fds .right)
  let pipe2 ← localStreamSocket fd2 (domainAnswer .right) (typeAnswer .right)
  return ⟨fun
    | .left => ⟨pipe1, none, [], []⟩
    | .right => ⟨pipe2, none, [], []⟩, fun _ => ⟨[], false, false⟩⟩

namespace Pair

def setPeer (s : Pair) (side : Side) (p : Peer) : Pair :=
  { s with peer := Function.update s.peer side p }

def setFlow (s : Pair) (side : Side) (f : Flow) : Pair :=
  { s with flow := Function.update s.flow side f }

/-- The kernel's part of a `shutdown`: no more bytes are handed out to the side that
has shut down reading, and none are taken over from one that has shut down
writing. -/
def endFlows (s : Pair) (side : Side) (how : Int) : Pair :=
  let s := if how = Socket.shutRd ∨ how = Socket.shutRdwr then
      s.setFlow side.other { s.flow side.other with readerDone := true }
    else
      s
  if how = Socket.shutWr ∨ how = Socket.shutRdwr then
    s.setFlow side { s.flow side with writerDone := true }
  else
    s

/-- One step of one of the programs. -/
def step (s : Pair) : Side × Act → Pair × Option Reply
  | (side, .write writev buffer writeAll) =>
      let w := (s.peer side).wrapper
      (s.setPeer side { s.peer side with
        writing := some ⟨writev, buffer, writeAll, w, ⟨w, buffer, 0, [], 0⟩⟩ }, none)
  | (side, .writev) =>
      match (s.peer side).writing with
      | none => (s, none)
      | some c =>
          let body := writeBody c.writev c.writeAll c.state
          let iovecs := c.state.buffer.asIovecs
          let s := s.setFlow side { s.flow side with
            queue := (s.flow side).queue ++ acceptedBy (c.writev c.state.calls iovecs) iovecs }
          match body.2 with
          | none =>
              (s.setPeer side { s.peer side with
                wrapper := body.1.wrapper, writing := some { c with state := body.1 } }, none)
          | some result =>
              (s.setPeer side { s.peer side with
                wrapper := body.1.wrapper
                writing := none
                written := (s.peer side).written ++ [c] }, some (.wrote result))
  | (side, .read limit call data) =>
      let (w, result) := FileDescriptor.read (s.peer side).wrapper limit call data
      let s := s.setFlow side.other { s.flow side.other with
        queue := (s.flow side.other).queue.drop call.returnValue.toNat }
      (s.setPeer side { s.peer side with
        wrapper := w
        received := (s.peer side).received ++ match result with
          | .ok str => str
          | .error _ => [] }, some (.read result))
  | (side, .shutdown how call) =>
      let (w, result) := Socket.shutdown (s.peer side).wrapper how call
      let s := if call.returnValue = 0 then s.endFlows side how else s
      (s.setPeer side { s.peer side with wrapper := w }, some (.done result))
  | (side, .close call) =>
      let (w, result) := (s.peer side).wrapper.close call
      let s := if call.returnValue = 0 then s.endFlows side Socket.shutRdwr else s
      (s.setPeer side { s.peer side with wrapper := w }, some (.done result))

/-- The abstract channel in the direction of a side that writes. -/
def channel (s : Pair) (side : Side) : Channel UInt8 :=
  ⟨(s.peer side).accepted, (s.flow side).queue, (s.peer side.other).received,
    (s.flow side).writerDone, (s.flow side).readerDone⟩

end Pair

/-! ## What the kernel and the programs may do -/

/-- A call that does not transfer bytes has succeeded or failed. -/
def Decided (call : SysResult) : Prop :=
  call.returnValue = 0 ∨ (call.returnValue = -1 ∧ call.errno ≠ 0)

/-- The contract of `read(2)` on one end of a connection: some of the next bytes, or
none if there will not be any more, or an error. -/
def Delivers (f : Flow) (size : Nat) (call : SysResult) (data : Bytes) : Prop :=
  (Answers f.queue size call data ∧
    (0 < size → call.returnValue = 0 → f.writerDone = true ∨ f.readerDone = true)) ∨
  (call.returnValue = -1 ∧ call.errno ≠ 0)

/-- The condition on a step. A program does one thing after the other, and nothing
with a descriptor that it has closed; the kernel keeps the contracts of its calls,
and takes over no bytes from a side that has shut down writing. -/
def Permitted (s : Pair) : Side × Act → Prop
  | (side, .write writev buffer _) =>
      (s.peer side).writing = none ∧ (s.peer side).wrapper.closed = false ∧ writev.Contract ∧
        buffer.str.length < 2 ^ 63
  | (side, .writev) =>
      ∃ c, (s.peer side).writing = some c ∧
        (0 < (c.writev c.state.calls c.state.buffer.asIovecs).returnValue →
          (s.flow side).writerDone = false)
  | (side, .read limit call data) =>
      (s.peer side).writing = none ∧ (s.peer side).wrapper.closed = false ∧
        Delivers (s.flow side.other) (min FileDescriptor.bufferSize limit) call data
  | (side, .shutdown how call) =>
      (s.peer side).writing = none ∧ (s.peer side).wrapper.closed = false ∧ Decided call ∧
        (call.returnValue = 0 →
          how = Socket.shutRd ∨ how = Socket.shutWr ∨ how = Socket.shutRdwr)
  | (side, .close call) =>
      (s.peer side).writing = none ∧ (s.peer side).wrapper.closed = false ∧ Decided call

/-! ## A suspended `write` -/

/-- The call comes to what it would have come to if it had been made at once. -/
structure Suspended (c : Writing) (w : FDWrapper) : Prop where
  contract : c.writev.Contract
  fits : c.buffer.str.length < 2 ^ 63
  balanced : Balanced c.buffer.str c.state
  goesOn : writeLoop c.writev c.writeAll c.state = c.outcome
  wrapper : c.state.wrapper = w

theorem writeBody_accepted (writev : Writev) (writeAll : Bool) (s : WriteState) :
    (writeBody writev writeAll s).1.accepted =
      s.accepted ++ acceptedBy (writev s.calls s.buffer.asIovecs) s.buffer.asIovecs := by
  unfold writeBody
  dsimp only
  repeat' split
  all_goals rfl

theorem writeLoop_of_some {writev : Writev} {writeAll : Bool} {s : WriteState}
    {result : Except Exn Nat} (ends : (writeBody writev writeAll s).2 = some result) :
    writeLoop writev writeAll s = ((writeBody writev writeAll s).1, result) := by
  rw [writeLoop]
  split
  · next s' found body =>
    rw [body] at ends ⊢
    cases ends
    rfl
  · next s' body =>
    rw [body] at ends
    cases ends

theorem writeLoop_of_none {writev : Writev} {writeAll : Bool} {s : WriteState}
    (again : (writeBody writev writeAll s).2 = none) :
    writeLoop writev writeAll s = writeLoop writev writeAll (writeBody writev writeAll s).1 := by
  rw [writeLoop]
  split
  · next s' found body =>
    rw [body] at again
    cases again
  · next s' body => rw [body]

variable {s : Pair} {side : Side} {c : Writing} {w : FDWrapper}

theorem Suspended.again (suspended : Suspended c w)
    (again : (writeBody c.writev c.writeAll c.state).2 = none) :
    Suspended { c with state := (writeBody c.writev c.writeAll c.state).1 }
      (writeBody c.writev c.writeAll c.state).1.wrapper := by
  have step : WriteStep c.writeAll c.state _ :=
    FileDescriptor.writeBody_step suspended.contract suspended.fits suspended.balanced
  refine ⟨suspended.contract, suspended.fits, step.balanced suspended.balanced, ?_, rfl⟩
  rw [← writeLoop_of_none again]
  exact suspended.goesOn

theorem Suspended.outcome_eq (suspended : Suspended c w) {result : Except Exn Nat}
    (ends : (writeBody c.writev c.writeAll c.state).2 = some result) :
    c.outcome = ((writeBody c.writev c.writeAll c.state).1, result) := by
  rw [← suspended.goesOn, writeLoop_of_some ends]

/-! ## Every step is a step of both channels -/

namespace Pair

@[simp] theorem setPeer_flow (s : Pair) (side : Side) (p : Peer) :
    (s.setPeer side p).flow = s.flow := rfl

@[simp] theorem setFlow_peer (s : Pair) (side : Side) (f : Flow) :
    (s.setFlow side f).peer = s.peer := rfl

@[simp] theorem setPeer_peer_self (s : Pair) (side : Side) (p : Peer) :
    (s.setPeer side p).peer side = p := by simp [setPeer]

@[simp] theorem setPeer_peer_ne {t : Side} (s : Pair) (p : Peer) (ne : t ≠ side) :
    (s.setPeer side p).peer t = s.peer t := by simp [setPeer, ne]

@[simp] theorem setFlow_flow_self (s : Pair) (side : Side) (f : Flow) :
    (s.setFlow side f).flow side = f := by simp [setFlow]

@[simp] theorem setFlow_flow_ne {t : Side} (s : Pair) (f : Flow) (ne : t ≠ side) :
    (s.setFlow side f).flow t = s.flow t := by simp [setFlow, ne]

@[simp] theorem endFlows_peer (s : Pair) (side : Side) (how : Int) :
    (s.endFlows side how).peer = s.peer := by
  unfold endFlows
  dsimp only
  split_ifs <;> rfl

theorem endFlows_channel_self (s : Pair) (side : Side) (how : Int) :
    (s.endFlows side how).channel side =
      if how = Socket.shutWr ∨ how = Socket.shutRdwr then
        { s.channel side with finished := true }
      else
        s.channel side := by
  unfold endFlows channel
  split_ifs <;> simp

theorem endFlows_channel_other (s : Pair) (side : Side) (how : Int) :
    (s.endFlows side how).channel side.other =
      if how = Socket.shutRd ∨ how = Socket.shutRdwr then
        { s.channel side.other with deaf := true }
      else
        s.channel side.other := by
  unfold endFlows channel
  split_ifs <;> simp

/-- Shutting down is a step of both channels. -/
theorem endFlows_step (s : Pair) (side : Side) (how : Int) (t : Side) :
    Channel.Step (s.channel t) ((s.endFlows side how).channel t) := by
  rcases t.eq_or_eq_other side with rfl | rfl
  · rw [endFlows_channel_self]
    split
    · exact .finish _
    · exact .idle _
  · rw [endFlows_channel_other]
    split
    · exact .stop _
    · exact .idle _

/-- A change of the wrapper alone is not seen by the channels. -/
theorem setPeer_wrapper_channel (s : Pair) (side : Side) (w : FDWrapper) (t : Side) :
    (s.setPeer side { s.peer side with wrapper := w }).channel t = s.channel t := by
  unfold channel
  rcases t.eq_or_eq_other side with rfl | rfl
  · simp [Peer.accepted]
  · simp [Peer.accepted]

theorem step_peer_ne {t : Side} (ne : t ≠ side) (act : Act) :
    (s.step (side, act)).1.peer t = s.peer t := by
  cases act with
  | writev =>
      unfold step
      dsimp only
      repeat' split
      all_goals simp [ne]
  | shutdown how call =>
      unfold step
      dsimp only
      split <;> simp [ne]
  | close call =>
      unfold step
      dsimp only
      split <;> simp [ne]
  | _ => simp [step, ne]

/-- A `writev` call puts the bytes that the kernel takes over into the channel. -/
theorem writev_step (suspended : Suspended c (s.peer side).wrapper)
    (current : (s.peer side).writing = some c)
    (going : 0 < (c.writev c.state.calls c.state.buffer.asIovecs).returnValue →
      (s.flow side).writerDone = false) (t : Side) :
    Channel.Step (s.channel t) ((s.step (side, .writev)).1.channel t) := by
  set taken := acceptedBy (c.writev c.state.calls c.state.buffer.asIovecs)
    c.state.buffer.asIovecs with takenEq
  have accepted := writeBody_accepted c.writev c.writeAll c.state
  rw [← takenEq] at accepted
  have going : taken ≠ [] → (s.channel side).finished = false := by
    intro some
    apply going
    by_contra nothing
    apply some
    rw [takenEq, acceptedBy, Int.toNat_of_nonpos (by omega), List.take_zero]
  rcases t.eq_or_eq_other side with rfl | rfl
  · have put : (s.step (t, .writev)).1.channel t =
        { s.channel t with
          sent := (s.channel t).sent ++ taken
          queue := (s.channel t).queue ++ taken } := by
      unfold step
      simp only [current]
      cases ends : (writeBody c.writev c.writeAll c.state).2 with
      | none => simp [channel, Peer.accepted, current, accepted, takenEq]
      | some result =>
          have outcome := suspended.outcome_eq ends
          simp [channel, Peer.accepted, current, accepted, takenEq, outcome]
    rw [put]
    exact .put taken going
  · have same : (s.step (side, .writev)).1.channel side.other = s.channel side.other := by
      unfold step
      simp only [current]
      split <;> simp [channel, Peer.accepted]
    rw [same]
    exact .idle _

/-- A `read` takes the bytes that it returns out of the channel. -/
theorem read_step {limit : Nat} {call : SysResult} {data : Bytes}
    (delivers : Delivers (s.flow side.other) (min FileDescriptor.bufferSize limit) call data)
    (t : Side) :
    Channel.Step (s.channel t) ((s.step (side, .read limit call data)).1.channel t) := by
  rcases t.eq_or_eq_other side with rfl | rfl
  · have same : (s.step (t, .read limit call data)).1.channel t = s.channel t := by
      simp [step, channel, Peer.accepted]
    rw [same]
    exact .idle _
  · rcases delivers with ⟨answers, -⟩ | ⟨failed, error⟩
    · have taken : (s.step (side, .read limit call data)).1.channel side.other =
          { s.channel side.other with
            queue := (s.channel side.other).queue.drop call.returnValue.toNat
            received := (s.channel side.other).received ++
              (s.channel side.other).queue.take call.returnValue.toNat } := by
        simp [step, channel, Peer.accepted, FileDescriptor.read_answered _ answers]
      rw [taken]
      exact .take _
    · have same : (s.step (side, .read limit call data)).1.channel side.other =
          s.channel side.other := by
        have threw := systemCall_of_failed "read" failed error
        simp [step, channel, Peer.accepted, FileDescriptor.read, threw, failed]
      rw [same]
      exact .idle _

/-- **Both directions are channels.** Whatever a program does, and whatever the other
one is in the middle of, is a step of the channel in each direction. -/
theorem channel_step {act : Act}
    (suspended : ∀ c, (s.peer side).writing = some c → Suspended c (s.peer side).wrapper)
    (permitted : Permitted s (side, act)) (t : Side) :
    Channel.Step (s.channel t) ((s.step (side, act)).1.channel t) := by
  cases act with
  | write writev buffer writeAll =>
      have idle : (s.peer side).writing = none := permitted.1
      have same : (s.step (side, .write writev buffer writeAll)).1.channel t = s.channel t := by
        unfold channel
        rcases t.eq_or_eq_other side with rfl | rfl
        · simp [step, Peer.accepted, idle]
        · simp [step, Peer.accepted]
      rw [same]
      exact .idle _
  | writev =>
      obtain ⟨c, current, going⟩ := permitted
      exact writev_step (suspended c current) current going t
  | read limit call data => exact read_step permitted.2.2 t
  | shutdown how call =>
      simp only [step]
      split
      · have peers := endFlows_peer s side how
        rw [← congrFun peers side, setPeer_wrapper_channel]
        exact endFlows_step s side how t
      · rw [setPeer_wrapper_channel]
        exact .idle _
  | close call =>
      simp only [step]
      split
      · have peers := endFlows_peer s side Socket.shutRdwr
        rw [← congrFun peers side, setPeer_wrapper_channel]
        exact endFlows_step s side Socket.shutRdwr t
      · rw [setPeer_wrapper_channel]
        exact .idle _

end Pair

/-! ## Invariants -/

/-- What holds between any two steps: a `write` in the middle is suspended, nothing is
lost on the way, and a program that has seen the end of the stream has shut down
reading itself or has got everything. -/
structure Sound (s : Pair) : Prop where
  suspended : ∀ side c, (s.peer side).writing = some c → Suspended c (s.peer side).wrapper
  returned : ∀ side, ∀ c ∈ (s.peer side).written, c.writev.Contract ∧ c.buffer.str.length < 2 ^ 63
  conserved : ∀ side, (s.channel side).Conserved
  ended : ∀ side, (s.peer side.other).wrapper.eof = true →
    (s.flow side).readerDone = true ∨ (s.channel side).Exhausted

theorem suspended_step {act : Act} (permitted : Permitted s (side, act))
    (suspended : ∀ side c, (s.peer side).writing = some c → Suspended c (s.peer side).wrapper)
    (t : Side) (c : Writing) (current : ((s.step (side, act)).1.peer t).writing = some c) :
    Suspended c ((s.step (side, act)).1.peer t).wrapper := by
  by_cases own : t = side
  · subst own
    cases act with
    | write writev buffer writeAll =>
        obtain ⟨-, -, contract, fits⟩ := permitted
        simp only [Pair.step, Pair.setPeer_peer_self, Option.some.injEq] at current ⊢
        subst current
        exact ⟨contract, fits, ⟨rfl, rfl⟩, rfl, rfl⟩
    | writev =>
        obtain ⟨before, writing, -⟩ := permitted
        simp only [Pair.step, writing] at current ⊢
        cases again : (writeBody before.writev before.writeAll before.state).2 with
        | none =>
            simp only [again, Pair.setPeer_peer_self, Option.some.injEq] at current ⊢
            subst current
            exact (suspended t before writing).again again
        | some result => simp [again] at current
    | read limit call data => simp [Pair.step, permitted.1] at current
    | shutdown how call =>
        simp only [Pair.step] at current
        split at current <;> simp [permitted.1] at current
    | close call =>
        simp only [Pair.step] at current
        split at current <;> simp [permitted.1] at current
  · rw [Pair.step_peer_ne own] at current ⊢
    exact suspended t c current

/-- The calls that are over have kept to the contract, as the suspended ones do. -/
theorem returned_step {act : Act} (permitted : Permitted s (side, act)) (sound : Sound s)
    (t : Side) : ∀ c ∈ ((s.step (side, act)).1.peer t).written,
      c.writev.Contract ∧ c.buffer.str.length < 2 ^ 63 := by
  intro c member
  by_cases own : t = side
  · subst own
    cases act with
    | writev =>
        obtain ⟨before, writing, -⟩ := permitted
        simp only [Pair.step, writing] at member
        split at member
        · exact sound.returned t c (by simpa using member)
        · simp only [Pair.setFlow_peer, Pair.setPeer_peer_self, List.mem_append,
            List.mem_singleton] at member
          rcases member with earlier | rfl
          · exact sound.returned t c earlier
          · have suspended := sound.suspended t c writing
            exact ⟨suspended.contract, suspended.fits⟩
    | shutdown how call =>
        simp only [Pair.step] at member
        split at member <;> exact sound.returned t c (by simpa using member)
    | close call =>
        simp only [Pair.step] at member
        split at member <;> exact sound.returned t c (by simpa using member)
    | _ => exact sound.returned t c (by simpa [Pair.step] using member)
  · rw [Pair.step_peer_ne own] at member
    exact sound.returned t c member

/-- The steps that set `eof`. -/
def Act.setsEof : Act → Bool
  | .read limit call _ => 0 < limit && toInt call.returnValue = 0
  | .close call => 0 ≤ toInt call.returnValue || call.errno = 0
  | _ => false

theorem eof_step {act : Act} (permitted : Permitted s (side, act))
    (suspended : ∀ c, (s.peer side).writing = some c → Suspended c (s.peer side).wrapper) :
    ((s.step (side, act)).1.peer side).wrapper.eof =
      ((s.peer side).wrapper.eof || act.setsEof) := by
  cases act with
  | write writev buffer writeAll => simp [Pair.step, Act.setsEof]
  | writev =>
      obtain ⟨c, current, -⟩ := permitted
      have flags := (Operation.writeBody_flags c.writev c.writeAll c.state).1
      rw [(suspended c current).wrapper] at flags
      simp only [Pair.step, current]
      split <;> simp [Act.setsEof, flags]
  | read limit call data =>
      have flags := (Operation.read_flags (s.peer side).wrapper limit call data).1
      simp [Pair.step, Act.setsEof, flags]
  | shutdown how call =>
      have flags := (Operation.shutdown_flags (s.peer side).wrapper how call).1
      simp only [Pair.step]
      split <;> simp [Act.setsEof, flags]
  | close call =>
      have flags := (Operation.close_flags (s.peer side).wrapper call).1
      simp only [Pair.step]
      split <;> simp [Act.setsEof, flags]

/-- A step that sets `eof` has found the end of the channel, or closes. -/
theorem ended_of_setsEof {act : Act} (permitted : Permitted s (side, act))
    (sets : act.setsEof = true) :
    ((s.step (side, act)).1.channel side.other).deaf = true ∨
      ((s.step (side, act)).1.channel side.other).Exhausted := by
  cases act with
  | read limit call data =>
      simp only [Act.setsEof, Bool.and_eq_true, decide_eq_true_eq] at sets
      obtain ⟨asked, zero⟩ := sets
      obtain ⟨-, -, ⟨answers, ends⟩ | ⟨failed, error⟩⟩ := permitted
      · have capped : min FileDescriptor.bufferSize limit ≤ 1048576 := Nat.min_le_left _ _
        have low := answers.succeeded
        have high := answers.requested
        have nothing : call.returnValue = 0 := by
          rwa [toInt_of_range (by omega) (by omega)] at zero
        have empty := answers.ended asked nothing
        rcases ends (Nat.lt_min.mpr ⟨by decide, asked⟩) nothing with writer | reader
        · right
          simp [Channel.Exhausted, Pair.channel, Pair.step, empty, writer]
        · left
          simp [Pair.channel, Pair.step, reader]
      · rw [failed] at zero
        cases zero
  | close call =>
      obtain ⟨-, -, succeeded | ⟨failed, error⟩⟩ := permitted
      · left
        simp [Pair.step, succeeded, Pair.channel, Pair.endFlows]
      · exact absurd sets (by simp [Act.setsEof, failed, error, toInt, Int.bmod])
  | write writev buffer writeAll => cases sets
  | writev => cases sets
  | shutdown how call => cases sets

theorem sound_step {act : Act} (sound : Sound s) (permitted : Permitted s (side, act)) :
    Sound (s.step (side, act)).1 := by
  have channels := Pair.channel_step (sound.suspended side) permitted
  refine ⟨suspended_step permitted sound.suspended, returned_step permitted sound,
    fun t => (channels t).conserved (sound.conserved t), ?_⟩
  intro t eof
  -- Either the reader has seen the end before, and the channel keeps it, or it is the one
  -- that acts.
  have before : (s.peer t.other).wrapper.eof = true →
      ((s.step (side, act)).1.channel t).deaf = true ∨
        ((s.step (side, act)).1.channel t).Exhausted := by
    intro seen
    rcases sound.ended t seen with deaf | exhausted
    · exact .inl ((channels t).deaf deaf)
    · exact .inr ((channels t).exhausted exhausted).1
  by_cases own : t.other = side
  · subst own
    rw [eof_step permitted (sound.suspended _), Bool.or_eq_true] at eof
    rcases eof with seen | sets
    · exact before seen
    · have found := ended_of_setsEof permitted sets
      rwa [Side.other_other] at found
  · rw [Pair.step_peer_ne own] at eof
    exact before eof

theorem sound_run {s : Pair} {labels : List (Side × Act)} (sound : Sound s)
    (permitted : Runs.Along Pair.step Permitted s labels) :
    Sound (Runs.run Pair.step s labels).1 :=
  Runs.run_invariant (fun _ _ sound permitted => sound_step sound permitted) sound permitted

theorem make_eof {fd : Int} (made : FDWrapper.make fd = .ok w) : w.eof = false := by
  unfold FDWrapper.make at made
  split at made
  · cases made
  · cases made
    rfl

/-- The constructor verifies the descriptor and leaves it as it is. -/
theorem localStreamSocket_eq {w' : FDWrapper} {domainAnswer typeAnswer : Socket.SockOpt}
    (made : localStreamSocket w domainAnswer typeAnswer = .ok w') : w' = w := by
  obtain ⟨-, -, made⟩ := bind_eq_ok.mp made
  obtain ⟨-, -, made⟩ := bind_eq_ok.mp made
  cases made
  rfl

/-- The two sockets start with an empty connection between them. -/
theorem sound_socketPair {fds : Side → Int} {domainAnswer typeAnswer : Side → Socket.SockOpt}
    (made : socketPair fds domainAnswer typeAnswer = .ok s) : Sound s := by
  simp only [socketPair, bind_eq_ok] at made
  obtain ⟨fd1, made1, pipe1, verified1, fd2, made2, pipe2, verified2, made⟩ := made
  obtain rfl := localStreamSocket_eq verified1
  obtain rfl := localStreamSocket_eq verified2
  cases made
  refine ⟨?_, ?_, fun side => by cases side <;> rfl, ?_⟩
  · intro side c current
    cases side <;> cases current
  · intro side c member
    cases side <;> cases member
  · intro side eof
    cases side with
    | left => exact absurd eof (by simp [Side.other, make_eof made2])
    | right => exact absurd eof (by simp [Side.other, make_eof made1])

/-! ## What arrives -/

/-- A `write` that returns, and was to write everything, has written everything. -/
theorem Sound.accepted_of_returned (sound : Sound s) (member : c ∈ (s.peer side).written)
    (whole : c.writeAll = true) {n : Nat} (returned : c.outcome.2 = .ok n) :
    c.outcome.1.accepted = c.buffer.str := by
  obtain ⟨contract, fits⟩ := sound.returned side c member
  have written : FileDescriptor.Written c.writeAll c.buffer.str ⟨c.wrapper, c.buffer, 0, [], 0⟩ _
      c.outcome := FileDescriptor.writeLoop_written contract fits ⟨rfl, rfl⟩
  have emptied := (written.returned n returned).2 whole
  have split := written.balanced.split
  rwa [emptied, List.append_nil] at split

/-- The bytes of the `write`s of a program, those of the one it is in included. -/
def Peer.offered (p : Peer) : Bytes :=
  p.written.flatMap (fun c => c.buffer.str) ++ p.writing.elim [] fun c => c.buffer.str

/-- The bytes that the `write` a program is in has not got rid of yet. -/
def Peer.unwritten (p : Peer) : Bytes :=
  p.writing.elim [] fun c => c.state.buffer.str

theorem Sound.accepted_append_unwritten (sound : Sound s)
    (whole : ∀ c ∈ (s.peer side).written, c.writeAll = true ∧ ∃ n, c.outcome.2 = .ok n) :
    (s.peer side).accepted ++ (s.peer side).unwritten = (s.peer side).offered := by
  have each : (s.peer side).written.flatMap (fun c => c.outcome.1.accepted) =
      (s.peer side).written.flatMap fun c => c.buffer.str := by
    apply List.flatMap_congr
    intro c member
    obtain ⟨all, n, returned⟩ := whole c member
    exact sound.accepted_of_returned member all returned
  unfold Peer.accepted Peer.unwritten Peer.offered
  rw [each, List.append_assoc]
  cases current : (s.peer side).writing with
  | none => rfl
  | some c => exact congrArg _ (sound.suspended side c current).balanced.split

/-- **The streams of a connection.** Let two programs use a pair of stream sockets, in
any order of their steps, with a kernel that takes over and hands out as few bytes
as it likes in each call. At any time and in both directions: what one program has
read and what is on its way are exactly what the `write`s of the other one have
given to the kernel, in order; if these `write`s write everything and none of them
throws, what has been read, is on its way and is still to be written are together
the bytes passed to them; and a program whose `eof` is set without its having shut
down reading has read all that was ever written. -/
theorem streams_in_order {fds : Side → Int} {domainAnswer typeAnswer : Side → Socket.SockOpt}
    {labels : List (Side × Act)} (made : socketPair fds domainAnswer typeAnswer = .ok s)
    (permitted : Runs.Along Pair.step Permitted s labels) (side : Side) :
    let final := (Runs.run Pair.step s labels).1
    (final.peer side.other).received ++ (final.flow side).queue = (final.peer side).accepted ∧
    ((∀ c ∈ (final.peer side).written, c.writeAll = true ∧ ∃ n, c.outcome.2 = .ok n) →
      (final.peer side.other).received ++ (final.flow side).queue ++
        (final.peer side).unwritten = (final.peer side).offered) ∧
    ((final.peer side.other).wrapper.eof = true → (final.flow side).readerDone = false →
      (final.flow side).writerDone = true ∧
        (final.peer side.other).received = (final.peer side).accepted) := by
  intro final
  have sound : Sound final := sound_run (sound_socketPair made) permitted
  have conserved := sound.conserved side
  refine ⟨conserved, ?_, ?_⟩
  · intro whole
    rw [← sound.accepted_append_unwritten whole]
    exact congrArg (· ++ _) conserved
  · intro eof listening
    rcases sound.ended side eof with deaf | exhausted
    · rw [listening] at deaf
      cases deaf
    · exact ⟨exhausted.1, conserved.received_eq exhausted⟩

/-- The sockets of the descriptors 3 and 4. -/
def threeFour : Except Exn Pair :=
  socketPair (fun side => if side = .left then 3 else 4) (fun _ => ⟨⟨0, 0⟩, afUnix, 4⟩)
    fun _ => ⟨⟨0, 0⟩, Socket.sockStream, 4⟩

/-- A kernel that takes over one byte in each call. -/
def oneByOne : Writev := fun _ iovecs => ⟨min 1 (iovecs.map Iovec.len).sum, 0⟩

/-- The left program writes three bytes and shuts down writing; the right one reads
while the `write` is going on, and after it. -/
def chat : List (Side × Act) :=
  [(.left, .write oneByOne ⟨[[104, 105], [33]]⟩ true), (.left, .writev), (.left, .writev),
    (.right, .read 10 ⟨2, 0⟩ [104, 105]), (.left, .writev), (.left, .shutdown 1 ⟨0, 0⟩),
    (.right, .read 10 ⟨1, 0⟩ [33]), (.right, .read 10 ⟨0, 0⟩ [])]

theorem oneByOne_contract : oneByOne.Contract := by
  intro n iovecs
  left
  unfold oneByOne
  dsimp only
  omega

theorem chat_permitted {s : Pair} (made : threeFour = .ok s) :
    Runs.Along Pair.step Permitted s chat := by
  cases made
  refine ⟨⟨rfl, rfl, oneByOne_contract, by decide⟩, ⟨_, rfl, fun _ => rfl⟩,
    ⟨_, rfl, fun _ => rfl⟩, ⟨rfl, rfl, .inl ⟨?_, by decide⟩⟩, ⟨_, rfl, fun _ => rfl⟩,
    ⟨rfl, rfl, .inl rfl, fun _ => .inr (.inl rfl)⟩, ⟨rfl, rfl, .inl ⟨?_, by decide⟩⟩,
    ⟨rfl, rfl, .inl ⟨?_, fun _ _ => .inl rfl⟩⟩, trivial⟩
  · exact ⟨by decide, by decide, by decide, by decide, by decide⟩
  · exact ⟨by decide, by decide, by decide, by decide, by decide⟩
  · exact ⟨by decide, by decide, by decide, by decide, by decide⟩

theorem streams_in_order_chat :
    ∃ s, threeFour = .ok s ∧
      ((Runs.run Pair.step s chat).1.peer .right).wrapper.eof = true ∧
      ((Runs.run Pair.step s chat).1.peer .right).received =
        ((Runs.run Pair.step s chat).1.peer .left).accepted := by
  refine ⟨_, rfl, rfl, ?_⟩
  have streams := streams_in_order (show threeFour = .ok _ from rfl) (chat_permitted rfl) .left
  exact (streams.2.2 rfl rfl).2

/-! ## The end of a stream -/

/-- A flag that is set stays set. -/
theorem eof_kept {label : Side × Act} (sound : Sound s) (permitted : Permitted s label)
    {t : Side} (eof : (s.peer t).wrapper.eof = true) :
    ((s.step label).1.peer t).wrapper.eof = true := by
  obtain ⟨side, act⟩ := label
  by_cases own : t = side
  · subst own
    rw [eof_step permitted (sound.suspended t), eof, Bool.true_or]
  · rwa [Pair.step_peer_ne own]

theorem eof_kept_run {labels : List (Side × Act)} (sound : Sound s)
    (permitted : Runs.Along Pair.step Permitted s labels) {t : Side}
    (eof : (s.peer t).wrapper.eof = true) :
    ((Runs.run Pair.step s labels).1.peer t).wrapper.eof = true := by
  have preserved : ∀ s label, (Sound s ∧ (s.peer t).wrapper.eof = true) → Permitted s label →
      Sound (s.step label).1 ∧ ((s.step label).1.peer t).wrapper.eof = true :=
    fun s label both permitted =>
      ⟨sound_step both.1 permitted, eof_kept both.1 permitted both.2⟩
  exact (Runs.run_invariant preserved ⟨sound, eof⟩ permitted).2

/-- What every step of a channel keeps, every run of the pair keeps in each direction. -/
theorem channel_run {labels : List (Side × Act)} (kept : Channel UInt8 → Prop) (sound : Sound s)
    (permitted : Runs.Along Pair.step Permitted s labels)
    (step : ∀ c c', Channel.Step c c' → kept c → kept c') (holds : kept (s.channel side)) :
    kept ((Runs.run Pair.step s labels).1.channel side) := by
  have preserved : ∀ s label, (Sound s ∧ kept (s.channel side)) → Permitted s label →
      Sound (s.step label).1 ∧ kept ((s.step label).1.channel side) :=
    fun s label both permitted =>
      ⟨sound_step both.1 permitted,
        step _ _ (Pair.channel_step (both.1.suspended _) permitted side) both.2⟩
  exact (Runs.run_invariant preserved ⟨sound, holds⟩ permitted).2

/-- A read for some bytes that does not fail. -/
def Act.listens : Act → Bool
  | .read limit call _ => 0 < limit && 0 ≤ call.returnValue
  | _ => false

/-- Behind a writer that is done, a read for some bytes takes one out of the queue or
finds the end. -/
theorem eof_or_shorter {act : Act} (sound : Sound s) (permitted : Permitted s (side.other, act))
    (listens : act.listens = true) :
    ((s.step (side.other, act)).1.peer side.other).wrapper.eof = true ∨
      ((s.step (side.other, act)).1.flow side).queue.length + 1 ≤
        (s.flow side).queue.length := by
  cases act with
  | read limit call data =>
      simp only [Act.listens, Bool.and_eq_true, decide_eq_true_eq] at listens
      obtain ⟨asked, succeeded⟩ := listens
      have eof := eof_step permitted (sound.suspended _)
      obtain ⟨-, -, ⟨answers, -⟩ | ⟨failed, -⟩⟩ := permitted
      · rw [Side.other_other] at answers
        by_cases nothing : call.returnValue = 0
        · left
          simp [eof, Act.setsEof, asked, nothing, toInt]
        · right
          have available := answers.available
          simp only [Pair.step, Pair.setPeer_flow, Side.other_other, Pair.setFlow_flow_self,
            List.length_drop]
          omega
      · omega
  | write writev buffer writeAll => cases listens
  | writev => cases listens
  | shutdown how call => cases listens
  | close call => cases listens

/-- The number of these reads by the program at the other end. -/
def listened (side : Side) (labels : List (Side × Act)) : Nat :=
  labels.countP fun label => label.1 = side.other && label.2.listens

/-- Each of these reads is paid for by a byte of the queue, up to the one that finds the
end. -/
theorem eof_or_listened {labels : List (Side × Act)} (sound : Sound s)
    (permitted : Runs.Along Pair.step Permitted s labels)
    (finished : (s.flow side).writerDone = true) :
    ((Runs.run Pair.step s labels).1.peer side.other).wrapper.eof = true ∨
      ((Runs.run Pair.step s labels).1.flow side).queue.length + listened side labels ≤
        (s.flow side).queue.length := by
  induction labels generalizing s with
  | nil => exact .inr (le_refl _)
  | cons label labels ih =>
      obtain ⟨first, rest⟩ := permitted
      obtain ⟨actor, act⟩ := label
      have sound' := sound_step sound first
      have channel := Pair.channel_step (sound.suspended _) first side
      have shorter : ((s.step (actor, act)).1.flow side).queue.length ≤
          (s.flow side).queue.length := channel.queue_length_le finished
      rw [Runs.run_cons]
      by_cases listens : actor = side.other ∧ act.listens = true
      · obtain ⟨rfl, listens⟩ := listens
        rcases eof_or_shorter sound first listens with eof | less
        · exact .inl (eof_kept_run sound' rest eof)
        · rcases ih sound' rest (channel.finished finished) with eof | later
          · exact .inl eof
          · right
            simp only [listened, List.countP_cons, listens, decide_true, Bool.and_self, if_true]
              at later ⊢
            omega
      · rcases ih sound' rest (channel.finished finished) with eof | later
        · exact .inl eof
        · right
          have uncounted : (decide (actor = side.other) && act.listens) = false := by
            rw [Bool.eq_false_iff]
            intro counted
            rw [Bool.and_eq_true, decide_eq_true_eq] at counted
            exact listens counted
          simp only [listened, List.countP_cons, uncounted] at later ⊢
          simp only [Bool.false_eq_true, if_false]
          omega

/-- **The end of a stream is reached, and is the end.** Take any run of the two programs
and any continuation of it. If one of them has seen the end by the middle, without
having shut down reading, then nothing is added to either end of the stream any
more. If one has shut down writing by the middle, then nothing is added to what it
has written, and the other one sees the end after one read for some bytes more
than there are bytes on their way; unless it has shut down reading, it has read
everything then. -/
theorem stream_ends {fds : Side → Int} {domainAnswer typeAnswer : Side → Socket.SockOpt}
    {labels more : List (Side × Act)} (made : socketPair fds domainAnswer typeAnswer = .ok s)
    (permitted : Runs.Along Pair.step Permitted s (labels ++ more)) (side : Side) :
    let middle := (Runs.run Pair.step s labels).1
    let final := (Runs.run Pair.step s (labels ++ more)).1
    ((middle.peer side.other).wrapper.eof = true → (middle.flow side).readerDone = false →
      (final.peer side.other).wrapper.eof = true ∧
        (final.peer side.other).received = (middle.peer side.other).received ∧
        (final.peer side).accepted = (middle.peer side).accepted) ∧
    ((middle.flow side).writerDone = true →
      (final.peer side).accepted = (middle.peer side).accepted ∧
      ((middle.flow side).queue.length < listened side more →
        (final.peer side.other).wrapper.eof = true ∧
        ((final.flow side).readerDone = false →
          (final.peer side.other).received = (middle.peer side).accepted))) := by
  intro middle final
  have sound : Sound middle := sound_run (sound_socketPair made) permitted.of_append
  have rest : Runs.Along Pair.step Permitted middle more := permitted.append_right
  have final_eq : final = (Runs.run Pair.step middle more).1 := by
    show (Runs.run Pair.step s (labels ++ more)).1 = _
    rw [Runs.run_append]
  have sound' : Sound final := final_eq ▸ sound_run sound rest
  rw [final_eq] at sound' ⊢
  refine ⟨?_, ?_⟩
  · intro eof listening
    have exhausted : (middle.channel side).Exhausted := by
      rcases sound.ended side eof with deaf | exhausted
      · rw [listening] at deaf
        cases deaf
      · exact exhausted
    have frozen := channel_run
      (fun c => c.Exhausted ∧ c.sent = (middle.channel side).sent ∧
        c.received = (middle.channel side).received) sound rest
      (fun c c' step ⟨exhausted, sent, received⟩ =>
        have next := step.exhausted exhausted
        ⟨next.1, next.2.1.trans sent, next.2.2.trans received⟩)
      ⟨exhausted, rfl, rfl⟩
    exact ⟨eof_kept_run sound rest eof, frozen.2.2, frozen.2.1⟩
  · intro finished
    have frozen := channel_run
      (fun c => c.finished = true ∧ c.sent = (middle.channel side).sent) sound rest
      (fun c c' step ⟨finished, sent⟩ =>
        ⟨step.finished finished, (step.sent_eq finished).trans sent⟩)
      ⟨finished, rfl⟩
    refine ⟨frozen.2, ?_⟩
    intro enough
    have eof : ((Runs.run Pair.step middle more).1.peer side.other).wrapper.eof = true := by
      rcases eof_or_listened sound rest finished with eof | paid
      · exact eof
      · omega
    refine ⟨eof, ?_⟩
    intro listening
    rcases sound'.ended side eof with deaf | exhausted
    · rw [listening] at deaf
      cases deaf
    · exact ((sound'.conserved side).received_eq exhausted).trans frozen.2

/-- After the left program has shut down, there is one byte on its way, and the right
one reads twice. -/
theorem stream_ends_chat :
    ∃ s, threeFour = .ok s ∧
      ((Runs.run Pair.step s (chat.take 6 ++ chat.drop 6)).1.peer .right).received =
        ((Runs.run Pair.step s (chat.take 6)).1.peer .left).accepted := by
  refine ⟨_, rfl, ?_⟩
  have permitted : Runs.Along Pair.step Permitted _ (chat.take 6 ++ chat.drop 6) :=
    chat_permitted rfl
  have ends := stream_ends (show threeFour = .ok _ from rfl) permitted .left
  exact ((ends.2 rfl).2 (by decide)).2 rfl

end StreamPair

end Sponge
