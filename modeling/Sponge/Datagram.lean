import Sponge.Address
import Sponge.FileDescriptorRead
import Sponge.Lib.Runs
import Sponge.Socket

/-!
# Datagrams between UDP sockets

Any number of `UDPSocket`s that send to addresses or to the peer they are connected
to, and receive. The network loses, repeats and reorders datagrams as it likes
(`Act.lose`, and the choices in `Act.recv`), and the kernel may fail. What it may not
do is to split a datagram; the program in turn asks for the real length of what it
receives and throws if it had no room for all of it. So what arrives was sent, as a
whole, and by the socket whose address is reported with it.
-/

namespace Sponge

namespace Datagram

open FileDescriptor (maxSize resize)
open Socket (ReceivedDatagram recv)

/-! ## The network -/

/-- A socket that is bound to an address, with the peer it is connected to, if any. What
it has received and how many datagrams it has sent is kept for the record. -/
structure Endpoint where
  wrapper : FDWrapper
  address : Address
  peer : Option Address
  received : List ReceivedDatagram
  sends : Nat

/-- A datagram on its way. -/
structure Message where
  source : Address
  destination : Address
  payload : Bytes
  deriving DecidableEq

/-- All sockets, the datagrams on their way, and all that were ever sent. -/
structure Net where
  sockets : Nat → Endpoint
  pool : List Message
  sent : List Message

/-- What the programs and the network do. A `recv` gets the datagram at a place in the
pool, which may stay there to be received again. -/
inductive Act where
  | sendto (i : Nat) (destination : Address) (payload : BufferViewList) (call : SysResult)
  | send (i : Nat) (payload : BufferViewList) (call : SysResult)
  | connect (i : Nat) (address : Address) (call : SysResult)
  | recv (i mtu : Nat) (place : Nat) (again : Bool) (call : SysResult) (data source : Bytes)
      (fromlen : Nat)
  | lose (place : Nat)

/-- What a call returned. -/
inductive Reply where
  | done (result : Except Exn Unit)
  | datagram (result : Except Exn ReceivedDatagram)

namespace Net

/-- The program at socket `i` sends, and the kernel puts the datagram on its way if the
call succeeds. -/
def transmit (s : Net) (i : Nat) (destination : Option Address) (payload : BufferViewList)
    (call : SysResult) : Net × Option Reply :=
  let socket := s.sockets i
  let sent := Socket.send socket.wrapper payload call
  let message := destination.toList.map fun destination =>
    (⟨socket.address, destination, payload.str⟩ : Message)
  ({ sockets := Function.update s.sockets i { socket with
        wrapper := sent.1
        sends := socket.sends + if sent.2.isOk then 1 else 0 }
     pool := if 0 ≤ call.returnValue then s.pool ++ message else s.pool
     sent := if sent.2.isOk then s.sent ++ message else s.sent },
    some (.done sent.2))

def step (s : Net) : Act → Net × Option Reply
  | .sendto i destination payload call => s.transmit i (some destination) payload call
  | .send i payload call => s.transmit i (s.sockets i).peer payload call
  | .connect i address call =>
      let socket := s.sockets i
      let peer := if call.returnValue = 0 then some address else socket.peer
      ({ s with sockets := Function.update s.sockets i { socket with peer := peer } },
        some (.done (Socket.connect call)))
  | .recv i mtu place again call data source fromlen =>
      let socket := s.sockets i
      let got := Socket.recv socket.wrapper mtu call data source fromlen
      ({ s with
          sockets := Function.update s.sockets i { socket with
            wrapper := got.1
            received := socket.received ++ got.2.toOption.toList }
          pool := if 0 ≤ call.returnValue ∧ ¬again then s.pool.eraseIdx place else s.pool },
        some (.datagram got.2))
  | .lose place => ({ s with pool := s.pool.eraseIdx place }, none)

end Net

/-! ## What the kernel may do -/

def Failed (call : SysResult) : Prop := call.returnValue = -1 ∧ call.errno ≠ 0

/-- The contract of `sendmsg(2)` on a datagram socket: all or nothing. -/
def Accepts (payload : BufferViewList) (call : SysResult) : Prop :=
  (call.returnValue = payload.str.length ∧ payload.str.length < 2 ^ 16) ∨ Failed call

/-- The contract of `recvfrom(2)` with `MSG_TRUNC`: the real length is returned, and as
much is stored as there is room for. -/
structure Hands (m : Message) (mtu : Nat) (call : SysResult) (data source : Bytes)
    (fromlen : Nat) : Prop where
  length : call.returnValue = m.payload.length
  small : m.payload.length < 2 ^ 16
  stored : data.take (min mtu m.payload.length) = m.payload.take (min mtu m.payload.length)
  source : source.take fromlen = m.source.bytes
  fromlen : fromlen = m.source.size

/-- The condition on a step. -/
def Permitted (s : Net) : Act → Prop
  | .sendto _ _ payload call => Accepts payload call
  | .send i payload call =>
      Accepts payload call ∧ ((s.sockets i).peer = none → Failed call)
  | .connect _ _ call => call.returnValue = 0 ∨ Failed call
  | .recv i mtu place _ call data source fromlen =>
      mtu ≤ maxSize ∧
      ((∃ m, s.pool[place]? = some m ∧ m.destination = (s.sockets i).address ∧
        Hands m mtu call data source fromlen) ∨ Failed call)
  | .lose _ => True

/-! ## One call -/

variable {w : FDWrapper} {payload : BufferViewList} {call : SysResult} {m : Message} {mtu : Nat}
  {data source : Bytes} {fromlen : Nat} {s : Net}

/-- A datagram is sent, and counted, if the kernel takes it. -/
theorem send_of_accepts (accepts : Accepts payload call) (w : FDWrapper) :
    (0 ≤ call.returnValue ∧ Socket.send w payload call = (w.registerWrite, .ok ())) ∨
      (call.returnValue < 0 ∧
        Socket.send w payload call = (w, .error (.unixError "sendmsg" call.errno))) := by
  rcases accepts with ⟨whole, small⟩ | ⟨failed, error⟩
  · left
    have passed : systemCall "sendmsg" call = .ok call.returnValue :=
      systemCall_of_nonneg (by omega) (by omega)
    have size : payload.size = payload.str.length :=
      BufferViewList.size_eq_length (by unfold sizeModulus; omega)
    have count : toSize call.returnValue = payload.str.length := by
      rw [whole, toSize_natCast (by unfold sizeModulus; omega)]
    refine ⟨by omega, ?_⟩
    simp only [Socket.send, Socket.sendmsgHelper, passed]
    rw [count, size, if_neg (by simp)]
  · right
    have threw := systemCall_of_failed "sendmsg" failed error
    refine ⟨by omega, ?_⟩
    simp only [Socket.send, Socket.sendmsgHelper, threw]

theorem ofSockaddr_of_hands (hands : Hands m mtu call data source fromlen) :
    Address.ofSockaddr source fromlen = .ok m.source := by
  have available : fromlen ≤ source.length := by
    have length := congrArg List.length hands.source
    rw [List.length_take, m.source.length_bytes, ← hands.fromlen] at length
    omega
  obtain ⟨a, made, bytes, -⟩ := Address.ofSockaddr_bytes
    (by rw [hands.fromlen]; exact m.source.fits) available
  rw [made, Address.eq_of_bytes (bytes.trans hands.source)]

/-- A datagram that fits is returned as it was sent; one that does not is dropped with an
exception, and is not counted. -/
theorem recv_of_hands (hands : Hands m mtu call data source fromlen) (room : mtu ≤ maxSize)
    (w : FDWrapper) :
    recv w mtu call data source fromlen =
      if mtu < m.payload.length then
        (w, .error (.runtimeError "recvfrom (oversized datagram)"))
      else
        (w.registerRead, .ok ⟨m.source, m.payload⟩) := by
  have length := hands.length
  have small := hands.small
  have passed : systemCall "recvfrom" call = .ok call.returnValue :=
    systemCall_of_nonneg (by omega) (by omega)
  have first : resize [] mtu = .ok (([] : Bytes).takeD mtu 0) := by rw [resize, if_pos room]
  have below : mtu < 2 ^ 63 := by
    unfold maxSize at room
    omega
  unfold recv
  simp only [first, passed, ofSockaddr_of_hands hands]
  rw [toSsize_of_lt below, length]
  split
  · next large => rw [if_pos (by omega)]
  · next fits =>
    have count : toSize (m.payload.length : Int) = m.payload.length :=
      toSize_natCast (by unfold sizeModulus; omega)
    have stored := hands.stored
    rw [Nat.min_eq_right (by omega)] at stored
    have cut := FileDescriptor.resize_stored (by omega) (by omega : m.payload.length ≤ mtu)
      (le_refl _) stored
    rw [List.take_length] at cut
    rw [count, cut, if_neg (by omega)]

theorem recv_of_failed (failed : Failed call) (room : mtu ≤ maxSize) (w : FDWrapper) :
    recv w mtu call data source fromlen = (w, .error (.unixError "recvfrom" call.errno)) := by
  have threw := systemCall_of_failed "recvfrom" failed.1 failed.2
  have first : resize [] mtu = .ok (([] : Bytes).takeD mtu 0) := by rw [resize, if_pos room]
  unfold recv
  simp only [first, threw]

/-! ## The invariant -/

/-- What holds at any time, over the state that a run starts in. -/
structure Genuine (start s : Net) : Prop where
  addresses : ∀ i, (s.sockets i).address = (start.sockets i).address
  pool : ∀ m ∈ s.pool, m ∈ s.sent
  origin : ∀ m ∈ s.sent, ∃ j, m.source = (start.sockets j).address
  received : ∀ i, ∀ d ∈ (s.sockets i).received, ∃ m ∈ s.sent,
    m.destination = (start.sockets i).address ∧ m.source = d.sourceAddress ∧ m.payload = d.payload
  reads : ∀ i, (s.sockets i).wrapper.readCount = (start.sockets i).wrapper.readCount +
    UInt32.ofNat (s.sockets i).received.length
  writes : ∀ i, (s.sockets i).wrapper.writeCount = (start.sockets i).wrapper.writeCount +
    UInt32.ofNat (s.sockets i).sends

variable {start : Net}

/-- A change of one socket that keeps its address and its accounts. -/
theorem Genuine.update {sent pool : List Message} {i : Nat} {e : Endpoint}
    (genuine : Genuine start s) (address : e.address = (s.sockets i).address)
    (more : ∀ m ∈ s.sent, m ∈ sent) (known : ∀ m ∈ pool, m ∈ sent)
    (origin : ∀ m ∈ sent, ∃ j, m.source = (start.sockets j).address)
    (received : ∀ d ∈ e.received, d ∈ (s.sockets i).received ∨ ∃ m ∈ sent,
      m.destination = (start.sockets i).address ∧ m.source = d.sourceAddress ∧
        m.payload = d.payload)
    (reads : e.wrapper.readCount = (start.sockets i).wrapper.readCount +
      UInt32.ofNat e.received.length)
    (writes : e.wrapper.writeCount = (start.sockets i).wrapper.writeCount +
      UInt32.ofNat e.sends) :
    Genuine start ⟨Function.update s.sockets i e, pool, sent⟩ := by
  have old : ∀ j, ∀ d ∈ (s.sockets j).received, ∃ m ∈ sent,
      m.destination = (start.sockets j).address ∧ m.source = d.sourceAddress ∧
        m.payload = d.payload := by
    intro j d member
    obtain ⟨m, listed, facts⟩ := genuine.received j d member
    exact ⟨m, more m listed, facts⟩
  refine ⟨?_, known, origin, ?_, ?_, ?_⟩
  · intro j
    by_cases here : j = i
    · subst here
      simpa [address] using genuine.addresses j
    · simpa [here] using genuine.addresses j
  · intro j d member
    by_cases here : j = i
    · subst here
      simp only [Function.update_self] at member
      rcases received d member with before | new
      · exact old j d before
      · exact new
    · simp only [Function.update_of_ne here] at member
      exact old j d member
  · intro j
    by_cases here : j = i
    · subst here
      simpa using reads
    · simpa [here] using genuine.reads j
  · intro j
    by_cases here : j = i
    · subst here
      simpa using writes
    · simpa [here] using genuine.writes j

theorem count_succ (count : UInt32) (n : Nat) :
    count + UInt32.ofNat n + 1 = count + UInt32.ofNat (n + 1) := by
  rw [UInt32.ofNat_add, UInt32.add_assoc]
  rfl

theorem genuine_transmit {i : Nat} {destination : Option Address} (genuine : Genuine start s)
    (accepts : Accepts payload call) :
    Genuine start (s.transmit i destination payload call).1 := by
  unfold Net.transmit
  rcases send_of_accepts accepts (s.sockets i).wrapper with ⟨low, sent⟩ | ⟨low, sent⟩
  · simp only [sent, low, Except.isOk, Except.toBool, if_true]
    refine genuine.update rfl (fun m member => List.mem_append_left _ member) ?_ ?_
      (fun d member => .inl member) (genuine.reads i) ?_
    · intro m member
      rcases List.mem_append.mp member with before | new
      · exact List.mem_append_left _ (genuine.pool m before)
      · exact List.mem_append_right _ new
    · intro m member
      rcases List.mem_append.mp member with before | new
      · exact genuine.origin m before
      · obtain ⟨address, -, rfl⟩ := List.mem_map.mp new
        exact ⟨i, genuine.addresses i⟩
    · show (s.sockets i).wrapper.writeCount + 1 = _
      rw [genuine.writes i, count_succ]
  · have negative : ¬0 ≤ call.returnValue := by omega
    simp only [sent, negative, Except.isOk, Except.toBool, Bool.false_eq_true, if_false]
    exact genuine.update rfl (fun m member => member) genuine.pool genuine.origin
      (fun d member => .inl member) (genuine.reads i) (genuine.writes i)

theorem genuine_step {act : Act} (genuine : Genuine start s) (permitted : Permitted s act) :
    Genuine start (s.step act).1 := by
  cases act with
  | sendto i destination payload call => exact genuine_transmit genuine permitted
  | send i payload call => exact genuine_transmit genuine permitted.1
  | connect i address call =>
      exact genuine.update rfl (fun m member => member) genuine.pool genuine.origin
        (fun d member => .inl member) (genuine.reads i) (genuine.writes i)
  | recv i mtu place again call data source fromlen =>
      have erased : ∀ m ∈ (if 0 ≤ call.returnValue ∧ ¬again then s.pool.eraseIdx place
          else s.pool), m ∈ s.sent := by
        intro m member
        split at member
        · exact genuine.pool m (List.mem_of_mem_eraseIdx member)
        · exact genuine.pool m member
      obtain ⟨room, ⟨m, here, mine, hands⟩ | failed⟩ := permitted
      · simp only [Net.step, recv_of_hands hands room]
        split
        · exact genuine.update rfl (fun m member => member) erased genuine.origin
            (fun d member => .inl (by simpa [Except.toOption] using member))
            (by simpa [Except.toOption] using genuine.reads i) (genuine.writes i)
        · have listed := genuine.pool m (List.mem_of_getElem? here)
          refine genuine.update rfl (fun m member => member) erased genuine.origin ?_ ?_
            (genuine.writes i)
          · intro d member
            simp only [Except.toOption, Option.toList_some, List.mem_append,
              List.mem_singleton] at member
            rcases member with before | rfl
            · exact .inl before
            · exact .inr ⟨m, listed, mine.trans (genuine.addresses i), rfl, rfl⟩
          · show (s.sockets i).wrapper.readCount + 1 = _
            rw [genuine.reads i, count_succ]
            simp [Except.toOption]
      · simp only [Net.step, recv_of_failed failed room]
        exact genuine.update rfl (fun m member => member) erased genuine.origin
          (fun d member => .inl (by simpa [Except.toOption] using member))
          (by simpa [Except.toOption] using genuine.reads i) (genuine.writes i)
  | lose place =>
      exact ⟨genuine.addresses, fun m member => genuine.pool m (List.mem_of_mem_eraseIdx member),
        genuine.origin, genuine.received, genuine.reads, genuine.writes⟩

/-! ## All runs -/

/-- Nothing was sent yet. -/
structure Quiet (s : Net) : Prop where
  pool : s.pool = []
  sent : s.sent = []
  received : ∀ i, (s.sockets i).received = []
  sends : ∀ i, (s.sockets i).sends = 0

theorem Quiet.genuine (quiet : Quiet s) : Genuine s s where
  addresses _ := rfl
  pool m member := by simp [quiet.pool] at member
  origin m member := by simp [quiet.sent] at member
  received i d member := by simp [quiet.received i] at member
  reads i := by simp [quiet.received i]
  writes i := by simp [quiet.sends i]

theorem genuine_run {acts : List Act} (quiet : Quiet start)
    (permitted : Runs.Along Net.step Permitted start acts) :
    Genuine start (Runs.run Net.step start acts).1 :=
  Runs.run_invariant (fun _ _ => genuine_step) quiet.genuine permitted

/-- A port of this host. -/
def localPort (port : U16) : Address where
  size := sockaddrInSize
  storage := Address.inet .little 0x7f000001 port ++ List.replicate 112 0
  length := by rw [List.length_append, Address.length_inet, List.length_replicate]
  fits := by decide
  unused := List.drop_left' (Address.length_inet ..)

/-- Two sockets, at the ports 1025 and 40000. -/
def twoSockets : Net where
  sockets i := ⟨⟨3, false, false, 0, 0⟩, localPort (if i = 0 then 1025 else 40000), none, [], 0⟩
  pool := []
  sent := []

/-- A greeting that is answered. -/
def greeting : List Act :=
  [.sendto 1 (localPort 1025) ⟨[[104, 105]]⟩ ⟨2, 0⟩,
    .recv 0 65536 0 false ⟨2, 0⟩ [104, 105] (localPort 40000).bytes sockaddrInSize,
    .connect 0 (localPort 40000) ⟨0, 0⟩, .send 0 ⟨[[121], [111]]⟩ ⟨2, 0⟩,
    .recv 1 65536 0 false ⟨2, 0⟩ [121, 111] (localPort 1025).bytes sockaddrInSize]

theorem greeting_permitted : Runs.Along Net.step Permitted twoSockets greeting := by
  refine ⟨.inl ⟨rfl, by decide⟩, ⟨by decide, .inl ⟨_, rfl, rfl, ?_⟩⟩, .inl rfl,
    ⟨.inl ⟨rfl, by decide⟩, nofun⟩, ⟨by decide, .inl ⟨_, rfl, rfl, ?_⟩⟩, trivial⟩
  · exact ⟨rfl, by decide, rfl, rfl, rfl⟩
  · exact ⟨rfl, by decide, rfl, rfl, rfl⟩

end Datagram

end Sponge
