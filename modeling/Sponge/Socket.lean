import Sponge.Address
import Sponge.FileDescriptor

/-!
# Sockets

The member functions of the socket classes of `socket.cc` that touch the wrapper
of a descriptor, next to those of `FileDescriptor` itself. `Operation` collects
them: whatever a program does with a descriptor, it does to the wrapper by a
sequence of these. Only two of them ever set a flag, a `close` that succeeds and a
`read` that finds the end of the stream, and none clears one.
-/

namespace Sponge

namespace Socket

open FileDescriptor (resize)

abbrev shutRd : Int := 0
abbrev shutWr : Int := 1
abbrev shutRdwr : Int := 2

abbrev afInet : Int := 2
abbrev sockStream : Int := 1

/-- The member function `shutdown`. -/
def shutdown (w : FDWrapper) (how : Int) (call : SysResult) : FDWrapper × Except Exn Unit :=
  match systemCall "shutdown" call with
  | .error e => (w, .error e)
  | .ok _ =>
      if how = shutRd then
        (w.registerRead, .ok ())
      else if how = shutWr then
        (w.registerWrite, .ok ())
      else if how = shutRdwr then
        (w.registerRead.registerWrite, .ok ())
      else
        (w, .error (.runtimeError "Socket::shutdown() called with invalid `how`"))

/-- The member function `connect`. -/
def connect (call : SysResult) : Except Exn Unit :=
  match systemCall "connect" call with
  | .error e => .error e
  | .ok _ => .ok ()

/-- The structure `received_datagram` of `UDPSocket`. -/
structure ReceivedDatagram where
  sourceAddress : Address
  payload : Bytes
  deriving DecidableEq

/-- The member function `recv` of `UDPSocket`. `data` and `source` are what the kernel
stored in the payload and in the raw address. -/
def recv (w : FDWrapper) (mtu : Nat) (call : SysResult) (data source : Bytes) (fromlen : Nat) :
    FDWrapper × Except Exn ReceivedDatagram :=
  match resize [] mtu with
  | .error e => (w, .error e)
  | .ok _ =>
      match systemCall "recvfrom" call with
      | .error e => (w, .error e)
      | .ok recvLen =>
          if recvLen > toSsize mtu then
            (w, .error (.runtimeError "recvfrom (oversized datagram)"))
          else
            let w := w.registerRead
            match Address.ofSockaddr source fromlen with
            | .error e => (w, .error e)
            | .ok sourceAddress =>
                match resize (data.takeD mtu 0) (toSize recvLen) with
                | .error e => (w, .error e)
                | .ok payload => (w, .ok ⟨sourceAddress, payload⟩)

/-- The function `sendmsg_helper`. -/
def sendmsgHelper (payload : BufferViewList) (call : SysResult) : Except Exn Unit :=
  match systemCall "sendmsg" call with
  | .error e => .error e
  | .ok bytesSent =>
      if toSize bytesSent ≠ payload.size then
        .error (.runtimeError "datagram payload too big for sendmsg()")
      else
        .ok ()

/-- The member functions `send` and `sendto` of `UDPSocket`, which differ in the
address they pass on. -/
def send (w : FDWrapper) (payload : BufferViewList) (call : SysResult) :
    FDWrapper × Except Exn Unit :=
  match sendmsgHelper payload call with
  | .error e => (w, .error e)
  | .ok () => (w.registerWrite, .ok ())

/-- An answer of `getsockopt` for an `int`. -/
structure SockOpt where
  call : SysResult
  actualValue : Int
  len : Nat

/-- A check of the constructor of `Socket`. -/
def verify (mismatch : String) (expected : Int) (answer : SockOpt) : Except Exn Unit :=
  match systemCall "getsockopt" answer.call with
  | .error e => .error e
  | .ok _ =>
      if answer.len ≠ 4 ∨ answer.actualValue ≠ expected then
        .error (.runtimeError mismatch)
      else
        .ok ()

/-- The constructor of `Socket` from a descriptor. -/
def ofFileDescriptor (w : FDWrapper) (domain type : Int) (domainAnswer typeAnswer : SockOpt) :
    Except Exn FDWrapper := do
  verify "socket domain mismatch" domain domainAnswer
  verify "socket type mismatch" type typeAnswer
  return w

/-- The member function `accept` of `TCPSocket`. It counts as a read before it is
known to succeed. -/
def accept (w : FDWrapper) (call : SysResult) (domainAnswer typeAnswer : SockOpt) :
    FDWrapper × Except Exn FDWrapper :=
  (w.registerRead, do
    let fd ← systemCall "accept" call
    let new ← FDWrapper.make fd
    ofFileDescriptor new afInet sockStream domainAnswer typeAnswer)

end Socket

/-! ## Operations on a descriptor -/

/-- A call of a member function that touches the wrapper. -/
inductive Operation where
  | read (limit : Nat) (call : SysResult) (data : Bytes)
  | write (writev : FileDescriptor.Writev) (buffer : BufferViewList) (writeAll : Bool)
  | close (call : SysResult)
  | shutdown (how : Int) (call : SysResult)
  | recv (mtu : Nat) (call : SysResult) (data source : Bytes) (fromlen : Nat)
  | send (payload : BufferViewList) (call : SysResult)
  | accept (call : SysResult) (domainAnswer typeAnswer : Socket.SockOpt)

namespace Operation

/-- What the call does to the wrapper, also when it throws. -/
def act : Operation → FDWrapper → FDWrapper
  | .read limit call data, w => (FileDescriptor.read w limit call data).1
  | .write writev buffer writeAll, w => (FileDescriptor.write writev w buffer writeAll).1.wrapper
  | .close call, w => (w.close call).1
  | .shutdown how call, w => (Socket.shutdown w how call).1
  | .recv mtu call data source fromlen, w => (Socket.recv w mtu call data source fromlen).1
  | .send payload call, w => (Socket.send w payload call).1
  | .accept call domainAnswer typeAnswer, w => (Socket.accept w call domainAnswer typeAnswer).1

/-- A `close` that succeeds. -/
def closes : Operation → Bool
  | .close call => 0 ≤ toInt call.returnValue || call.errno = 0
  | _ => false

/-- A `read` that asks for some bytes and gets none. -/
def findsEnd : Operation → Bool
  | .read limit call _ => 0 < limit && toInt call.returnValue = 0
  | _ => false

/-! ## Flags -/

theorem writeBody_flags (writev : FileDescriptor.Writev) (writeAll : Bool)
    (s : FileDescriptor.WriteState) :
    (FileDescriptor.writeBody writev writeAll s).1.wrapper.eof = s.wrapper.eof ∧
      (FileDescriptor.writeBody writev writeAll s).1.wrapper.closed = s.wrapper.closed := by
  unfold FileDescriptor.writeBody
  dsimp only
  repeat' split
  all_goals exact ⟨rfl, rfl⟩

theorem writeLoop_flags (writev : FileDescriptor.Writev) (writeAll : Bool)
    (s : FileDescriptor.WriteState) :
    (FileDescriptor.writeLoop writev writeAll s).1.wrapper.eof = s.wrapper.eof ∧
      (FileDescriptor.writeLoop writev writeAll s).1.wrapper.closed = s.wrapper.closed := by
  fun_induction FileDescriptor.writeLoop writev writeAll s with
  | case1 s s' result body =>
      have flags := writeBody_flags writev writeAll s
      rwa [body] at flags
  | case2 s s' body ih =>
      have flags := writeBody_flags writev writeAll s
      rw [body] at flags
      exact ⟨ih.1.trans flags.1, ih.2.trans flags.2⟩

theorem shutdown_flags (w : FDWrapper) (how : Int) (call : SysResult) :
    (Socket.shutdown w how call).1.eof = w.eof ∧
      (Socket.shutdown w how call).1.closed = w.closed := by
  unfold Socket.shutdown
  repeat' split
  all_goals exact ⟨rfl, rfl⟩

theorem recv_flags (w : FDWrapper) (mtu : Nat) (call : SysResult) (data source : Bytes)
    (fromlen : Nat) :
    (Socket.recv w mtu call data source fromlen).1.eof = w.eof ∧
      (Socket.recv w mtu call data source fromlen).1.closed = w.closed := by
  unfold Socket.recv
  dsimp only
  repeat' split
  all_goals exact ⟨rfl, rfl⟩

theorem send_flags (w : FDWrapper) (payload : BufferViewList) (call : SysResult) :
    (Socket.send w payload call).1.eof = w.eof ∧
      (Socket.send w payload call).1.closed = w.closed := by
  unfold Socket.send
  split
  · exact ⟨rfl, rfl⟩
  · exact ⟨rfl, rfl⟩

theorem read_flags (w : FDWrapper) (limit : Nat) (call : SysResult) (data : Bytes) :
    (FileDescriptor.read w limit call data).1.eof =
        (w.eof || (0 < limit && toInt call.returnValue = 0)) ∧
      (FileDescriptor.read w limit call data).1.closed = w.closed := by
  unfold FileDescriptor.read systemCall
  by_cases returned : 0 ≤ toInt call.returnValue ∨ call.errno = 0
  · rw [if_pos returned]
    dsimp only
    by_cases ended : limit > 0 ∧ toInt call.returnValue = 0
    · rw [if_pos ended]
      have flag : (decide (0 < limit) && decide (toInt call.returnValue = 0)) = true := by
        rw [← Bool.decide_and, decide_eq_true ended]
      rw [flag, Bool.or_true]
      repeat' split
      all_goals exact ⟨rfl, rfl⟩
    · rw [if_neg ended]
      have flag : (decide (0 < limit) && decide (toInt call.returnValue = 0)) = false := by
        rw [← Bool.decide_and, decide_eq_false ended]
      rw [flag, Bool.or_false]
      repeat' split
      all_goals exact ⟨rfl, rfl⟩
  · rw [if_neg returned]
    have nonzero : toInt call.returnValue ≠ 0 := by omega
    simp [nonzero]

theorem close_flags (w : FDWrapper) (call : SysResult) :
    (w.close call).1.eof = (w.eof || (0 ≤ toInt call.returnValue || call.errno = 0)) ∧
      (w.close call).1.closed = (w.closed || (0 ≤ toInt call.returnValue || call.errno = 0)) := by
  unfold FDWrapper.close systemCall
  by_cases returned : 0 ≤ toInt call.returnValue ∨ call.errno = 0
  · have flag : (decide (0 ≤ toInt call.returnValue) || decide (call.errno = 0)) = true := by
      simpa using returned
    rw [if_pos returned, flag, Bool.or_true, Bool.or_true]
    exact ⟨rfl, rfl⟩
  · have flag : (decide (0 ≤ toInt call.returnValue) || decide (call.errno = 0)) = false := by
      simpa using returned
    rw [if_neg returned, flag, Bool.or_false, Bool.or_false]
    exact ⟨rfl, rfl⟩

/-- **The flags of a wrapper.** An operation sets `closed` if it is a `close` that
succeeds, `eof` in this case and if it is a `read` that finds the end, and clears
neither. -/
theorem act_flags (op : Operation) (w : FDWrapper) :
    (op.act w).closed = (w.closed || op.closes) ∧
      (op.act w).eof = (w.eof || (op.findsEnd || op.closes)) := by
  cases op with
  | read limit call data =>
      obtain ⟨eof, closed⟩ := read_flags w limit call data
      simp [act, closes, findsEnd, eof, closed]
  | write writev buffer writeAll =>
      obtain ⟨eof, closed⟩ := writeLoop_flags writev writeAll ⟨w, buffer, 0, [], 0⟩
      simp [act, closes, findsEnd, FileDescriptor.write, eof, closed]
  | close call =>
      obtain ⟨eof, closed⟩ := close_flags w call
      simp [act, closes, findsEnd, eof, closed]
  | shutdown how call =>
      obtain ⟨eof, closed⟩ := shutdown_flags w how call
      simp [act, closes, findsEnd, eof, closed]
  | recv mtu call data source fromlen =>
      obtain ⟨eof, closed⟩ := recv_flags w mtu call data source fromlen
      simp [act, closes, findsEnd, eof, closed]
  | send payload call =>
      obtain ⟨eof, closed⟩ := send_flags w payload call
      simp [act, closes, findsEnd, eof, closed]
  | accept call domainAnswer typeAnswer =>
      simp [act, closes, findsEnd, Socket.accept, FDWrapper.registerRead]

end Operation

end Sponge
