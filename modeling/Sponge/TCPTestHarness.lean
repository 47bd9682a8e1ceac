import Sponge.FileDescriptor
import Sponge.Hexdump
import Sponge.Lib.Verdict
import Sponge.NetParser

/-!
# The test harness of TCP connections

`TCPTestHarness` drives a `TCPConnection` by the steps of a test, and looks at the
segments that it sends. The segments take the way that they take in the real program:
they are serialized and written to a socket, here one end of a `SOCK_SEQPACKET` pair
(`TestFD`), and each expectation reads one packet from the other end and parses it.
The connection and the segments are classes that are parameters here.

So what an expectation sees has gone through a queue, a kernel, and two conversions.
The result of a test does not depend on any of it: a test passes exactly if, for each of
its steps, what the step says is true of the connection and of the segments it has
sent, where every segment is looked at once, in the order in which they were sent.
-/

namespace Sponge

open FileDescriptor (resize)

/-! ## A pair of sockets -/

/-- The answers of the kernel for the two ends, given how many calls were made before and
the packets that are in the socket: to `sendmsg`, to `recv` with `MSG_PEEK` and
`MSG_DONTWAIT`, and to `recv` with `MSG_TRUNC`, which also stores bytes. -/
structure SeqPacket where
  sendmsg : Nat → List Bytes → Bytes → SysResult
  peek : Nat → List Bytes → SysResult
  recv : Nat → List Bytes → Nat → SysResult × Bytes

/-- The class `TestFD`: the end that is read from, and what is between the two. -/
structure TestFD where
  recvFd : FDWrapper
  packets : List Bytes
  calls : Nat

abbrev eagain : Int := 11

namespace TestFD

variable (kernel : SeqPacket)

def write (fd : TestFD) (buffer : BufferViewList) : TestFD × Except Exn Unit :=
  let packet := buffer.asIovecs.flatMap Iovec.bytes
  let call := kernel.sendmsg fd.calls fd.packets packet
  let fd := { fd with
    packets := if 0 ≤ call.returnValue then fd.packets ++ [packet] else fd.packets
    calls := fd.calls + 1 }
  match systemCall "sendmsg" call with
  | .error e => (fd, .error e)
  | .ok _ => (fd, .ok ())

/-- The member function `can_read`, which looks at one byte of the next packet. -/
def canRead (fd : TestFD) : TestFD × Except Exn Bool :=
  let call := kernel.peek fd.calls fd.packets
  let fd := { fd with calls := fd.calls + 1 }
  match systemCall "recv" call eagain with
  | .error e => (fd, .error e)
  | .ok ret => (fd, .ok (decide (0 ≤ ret)))

/-- The member function `read`. -/
def read (maxRecv : Nat) (fd : TestFD) : TestFD × Except Exn Bytes :=
  let answer := kernel.recv fd.calls fd.packets maxRecv
  let fd := { fd with
    packets := if 0 ≤ answer.1.returnValue then fd.packets.tail else fd.packets
    calls := fd.calls + 1 }
  match systemCall "recv" answer.1 with
  | .error e => (fd, .error e)
  | .ok retRead =>
      if retRead > toSsize maxRecv then
        (fd, .error (.runtimeError "TestFD unexpectedly got truncated packet."))
      else
        match resize (answer.2.takeD maxRecv 0) (toSize retRead) with
        | .error e => (fd, .error e)
        | .ok ret => ({ fd with recvFd := fd.recvFd.registerRead }, .ok ret)

end TestFD

/-! ## Segments and connections -/

namespace TCPTestHarness

/-- The parts of a segment that a test sets or looks at. -/
structure SegmentFields where
  ack : Bool
  rst : Bool
  syn : Bool
  fin : Bool
  seqno : UInt32
  ackno : UInt32
  win : UInt16
  payload : Bytes
  deriving DecidableEq

/-- What the harness uses of the classes `TCPSegment`, `TCPHeader`, `WrappingInt32`,
`TCPConfig` and `FdAdapterConfig`. `make` is a default segment whose fields are then
set, `withPorts` sets the two ports, `text` is the output of a `WrappingInt32`. -/
structure SegmentClass (Segment : Type) where
  make : SegmentFields → Segment
  fields : Segment → SegmentFields
  lengthInSequenceSpace : Segment → Nat
  withPorts : UInt16 → UInt16 → Segment → Segment
  serialize : Segment → BufferList
  parse : Bytes → Segment × ParseResult
  summary : Segment → String
  text : UInt32 → String
  maxPayloadSize : Nat
  headerLength : Nat
  sourcePort : UInt16
  destinationPort : UInt16

/-- A `TCPConnection`: its queue `segments_out`, which is public, and the rest of it. -/
structure Connection (σ Segment : Type) where
  rest : σ
  segmentsOut : List Segment

/-- The member functions of `TCPConnection` that a test uses, those of its inbound stream
included, and the names of the states. All that do something may throw. -/
structure ConnectionClass (σ Segment State : Type) where
  segmentReceived : Segment → Connection σ Segment → Connection σ Segment × Except Exn Unit
  write : Bytes → Connection σ Segment → Connection σ Segment × Except Exn Nat
  tick : Nat → Connection σ Segment → Connection σ Segment × Except Exn Unit
  connect : Connection σ Segment → Connection σ Segment × Except Exn Unit
  endInputStream : Connection σ Segment → Connection σ Segment × Except Exn Unit
  inboundEmpty : Connection σ Segment → Bool
  inboundSize : Connection σ Segment → Nat
  inboundRead : Nat → Connection σ Segment → Connection σ Segment × Except Exn Bytes
  state : Connection σ Segment → State
  bytesInFlight : Connection σ Segment → UInt64
  unassembledBytes : Connection σ Segment → UInt64
  timeSinceLastSegmentReceived : Connection σ Segment → UInt64
  stateName : State → String

/-- The structure `ExpectSegment`. -/
structure ExpectSegment where
  ack : Option Bool := none
  rst : Option Bool := none
  syn : Option Bool := none
  fin : Option Bool := none
  seqno : Option UInt32 := none
  ackno : Option UInt32 := none
  win : Option UInt16 := none
  payloadSize : Option Nat := none
  data : Option Bytes := none

/-- The expectations and actions, the structures derived from `TCPTestStep`. -/
inductive TestStep (State : Type) where
  | expectNoData
  | expectData (data : Option Bytes)
  | expectSegmentAvailable
  | expectNoSegment
  | expectSegment (e : ExpectSegment)
  | expectOneSegment (e : ExpectSegment)
  | expectState (state : State)
  | expectNotInState (state : State)
  | expectBytesInFlight (bytes : UInt64)
  | expectUnassembledBytes (bytes : UInt64)
  | expectLingerTimer (ms : UInt64)
  | sendSegment (fields : SegmentFields)
  | write (data : Bytes) (bytesWritten : Option Nat)
  | tick (msSinceLastTick : Nat)
  | connect
  | listen
  | close

/-- What a step throws: a `TCPExpectationViolation`, or anything else. -/
inductive Failure where
  | violation (what : String)
  | exn (e : Exn)
  deriving DecidableEq

/-! ## Texts -/

/-- The characters of a string of bytes. -/
def chars (data : Bytes) : String := String.ofList (data.map fun byte => Char.ofNat byte.toNat)

/-- Output to an `ostringstream` that was made from a string. It overwrites the string. -/
def overwritten (initial text : String) : String :=
  String.ofList (text.toList.foldl StringStream.put (StringStream.ofStr initial.toList)).str

/-- The function `append_data`: how it prints a byte. -/
def dataByte (x : UInt8) : String :=
  if Hexdump.isprint x then chars [x] else "<" ++ toString x.toNat ++ ">"

def appendData (data : Bytes) : String :=
  "\"" ++ String.join ((data.take 16).map dataByte) ++ (if data.length > 16 then "..." else "") ++
    "\""

/-- A part of a text that is there if a field is set. -/
def part {α : Type} (text : α → String) (field : Option α) : String :=
  match field with
  | none => ""
  | some value => text value

/-- A `bool` in a description. -/
def flagPart (letter : String) : Option Bool → String :=
  part fun value => letter ++ (if value then "=1," else "=0,")

section

variable {σ Segment State : Type} (segs : SegmentClass Segment)
  (tcp : ConnectionClass σ Segment State)

def segmentDescription (e : ExpectSegment) : String :=
  "(" ++ flagPart "A" e.ack ++ flagPart "R" e.rst ++ flagPart "S" e.syn ++ flagPart "F" e.fin ++
    part (fun ackno => "ackno=" ++ segs.text ackno ++ ",") e.ackno ++
    part (fun win => "win=" ++ toString win.toNat ++ ",") e.win ++
    part (fun seqno => "seqno=" ++ segs.text seqno ++ ",") e.seqno ++
    part (fun size => "payload_size=" ++ toString size ++ ",") e.payloadSize ++
    part (fun data => "data=" ++ appendData data ++ ",") e.data ++ ")"

namespace TestStep

def description : TestStep State → String
  | .expectNoData => "no (more) data available"
  | .expectData data =>
      "data available" ++
        part (fun data => " (" ++ toString data.length ++ " bytes starting with " ++
          appendData data ++ ")") data
  | .expectSegmentAvailable => "segment sent"
  | .expectNoSegment => "no (more) segments sent"
  | .expectSegment e => "segment sent with " ++ segmentDescription segs e
  | .expectOneSegment e => "exactly one segment sent with " ++ segmentDescription segs e
  | .expectState state => "TCP in state " ++ tcp.stateName state
  | .expectNotInState state => "TCP **not** in state " ++ tcp.stateName state
  | .expectBytesInFlight bytes => "TCP has " ++ toString bytes.toNat ++ " bytes in flight"
  | .expectUnassembledBytes bytes => "TCP has " ++ toString bytes.toNat ++ " unassembled bytes"
  | .expectLingerTimer ms =>
      "Most recent incoming segment was " ++ toString ms.toNat ++ " ms ago"
  | .sendSegment fields =>
      let seg := segs.make fields
      let payload := (segs.fields seg).payload
      "packet arrives: " ++ segs.summary seg ++
        if payload.length > 0 then
          " with " ++ toString payload.length ++ " data bytes " ++ appendData payload
        else " with no payload"
  | .write data bytesWritten =>
      "write (" ++ toString data.length ++ " bytes" ++
        part (fun count => " with " ++ toString count ++ " accepted") bytesWritten ++ ") [" ++
        ", ".intercalate ((data.take 16).map fun u => String.ofList (Nat.toDigits 16 u.toNat)) ++
        (if data.length > 16 then ", ..." else "") ++ "]"
  | .tick msSinceLastTick => toString msSinceLastTick ++ "ms pass"
  | .connect => "connect"
  | .listen => "listen"
  | .close => "close"

def isAction : TestStep State → Bool
  | .sendSegment _ | .write _ _ | .tick _ | .connect | .listen | .close => true
  | _ => false

/-- The member function `to_string`. -/
def text (step : TestStep State) : String :=
  (if step.isAction then "Action:      " else "Expectation: ") ++ step.description segs tcp

end TestStep

/-! ## Steps -/

def violatedVerb (msg : String) : Failure :=
  .violation ("The TCP should have produced a segment that " ++ msg ++ ", but it did not")

/-- The functions `violated_field` and `make`, which begin in different ways. -/
def violatedField (lead name expected actual : String) : Failure :=
  .violation (lead ++ name ++ " = " ++ actual ++ "`, but " ++ name ++ " was expected to be `" ++
    expected ++ "`")

/-- A test that throws if something is not so. -/
def ensure (c : Prop) [Decidable c] (failure : Failure) : Except Failure Unit :=
  if c then .ok () else .error failure

/-- A comparison that is made if a value is expected. -/
def checkExpected {α : Type} [DecidableEq α] (failure : α → Failure) (expected : Option α)
    (actual : α) : Except Failure Unit :=
  match expected with
  | none => .ok ()
  | some value => ensure (actual = value) (failure value)

/-- A comparison of a field of a segment. -/
def checkField {α : Type} [DecidableEq α] (name : String) (text : α → String)
    (expected : Option α) (actual : α) : Except Failure Unit :=
  checkExpected (fun value =>
      violatedField "The TCP produced a segment with `" name (text value) (text actual))
    expected actual

/-- Output of a `bool`. -/
def flag (value : Bool) : String := if value then "1" else "0"

/-- The tests of `expect_seg`, in their order. -/
def ExpectSegment.check (e : ExpectSegment) (seg : Segment) : Except Failure Unit := do
  let fields := segs.fields seg
  checkField "ack" flag e.ack fields.ack
  checkField "rst" flag e.rst fields.rst
  checkField "syn" flag e.syn fields.syn
  checkField "fin" flag e.fin fields.fin
  checkField "seqno" segs.text e.seqno fields.seqno
  checkField "ackno" segs.text e.ackno fields.ackno
  checkField "win" (fun win => toString win.toNat) e.win fields.win
  checkField "payload_size" toString e.payloadSize fields.payload.length
  ensure (segs.lengthInSequenceSpace seg ≤ segs.maxPayloadSize)
    (.violation ("packet has length_including_flags (" ++
      toString (segs.lengthInSequenceSpace seg) ++ ") greater than the maximum"))
  checkExpected (fun _ => .violation "payloads differ") e.data fields.payload

/-- The class `TCPTestHarness`, with what it has written to `cerr`. -/
structure Harness (σ Segment : Type) where
  flt : TestFD
  fsm : Connection σ Segment
  stepsExecuted : List String
  cerr : String

/-- A part of a test: it changes the harness, and may throw. -/
abbrev Test (σ Segment : Type) := EStateM Failure (Harness σ Segment)

/-- A call of a member function of the `TestFD`. -/
def onFlt {α : Type} (f : TestFD → TestFD × Except Exn α) : Test σ Segment α :=
  Verdict.part Harness.flt (fun h flt => { h with flt := flt }) .exn f

/-- A call of a member function of the connection. -/
def onFsm {α : Type} (f : Connection σ Segment → Connection σ Segment × Except Exn α) :
    Test σ Segment α :=
  Verdict.part Harness.fsm (fun h fsm => { h with fsm := fsm }) .exn f

/-- A test whose result is known. -/
def require (result : Except Failure Unit) : Test σ Segment Unit :=
  match result with
  | .ok () => pure ()
  | .error failure => throw failure

variable (kernel : SeqPacket)

/-- The constant `MAX_RECV`. -/
def maxRecv : Nat := segs.maxPayloadSize + segs.headerLength + 16

/-- The member function `expect_seg` of `ExpectSegment`. -/
def expectSegment (e : ExpectSegment) : Test σ Segment Segment := do
  let readable ← onFlt (TestFD.canRead kernel)
  if readable then do
    let packet ← onFlt (TestFD.read kernel (maxRecv segs))
    if (segs.parse packet).2 = .noError then do
      require (e.check segs (segs.parse packet).1)
      return (segs.parse packet).1
    else throw (violatedVerb "was parsable")
  else throw (violatedVerb "existed")

/-- A test for a packet that has to be there, or must not be. -/
def expectReadable (readable : Bool) (message : String) : Test σ Segment Unit := do
  let found ← onFlt (TestFD.canRead kernel)
  if found = readable then pure () else throw (.violation message)

/-- The member function `expect_seg` of `ExpectOneSegment`. -/
def expectOneSegment (e : ExpectSegment) : Test σ Segment Segment := do
  let seg ← expectSegment segs kernel e
  expectReadable kernel false "The TCP an extra segment when it should not have"
  return seg

/-- A test of a number of the connection. -/
def expectNumber (name : String) (expected actual : UInt64) : Except Failure Unit :=
  ensure (actual = expected)
    (violatedField "The TCP has `" name (toString expected.toNat) (toString actual.toNat))

/-- The comparisons of `ExpectData`, whose messages overwrite what they begin with. -/
def checkData (data : Option Bytes) (actual : Bytes) : Except Failure Unit :=
  match data with
  | none => .ok ()
  | some data => do
      ensure (actual.length = data.length)
        (.violation (overwritten "The TCP produced "
          (toString actual.length ++ " bytes, but should have produced " ++
            toString data.length ++ " bytes")))
      ensure (actual = data)
        (.violation (overwritten "The TCP produced data "
          (chars actual ++ ", but should have produced " ++ chars data ++ " bytes")))

/-- The comparison of `Write`. -/
def checkWritten (bytesWritten : Option Nat) (written : Nat) : Except Failure Unit :=
  checkExpected (fun count => .violation (toString count ++
    " bytes should have been written but " ++ toString written ++ " were")) bytesWritten written

/-- The test of `ExpectState`. -/
def checkState [DecidableEq State] (state actual : State) : Except Failure Unit :=
  ensure (actual = state)
    (.violation ("The TCP was in state `" ++ tcp.stateName actual ++
      "`, but it was expected to be in state `" ++ tcp.stateName state ++ "`"))

/-- The test of `ExpectNotInState`. -/
def checkNotInState [DecidableEq State] (state actual : State) : Except Failure Unit :=
  ensure (actual ≠ state)
    (.violation ("The TCP has `state = " ++ tcp.stateName state ++
      "`, but state was expected to **not** be `" ++ tcp.stateName state ++ "`"))

/-- The member function `execute` of a step. `ExpectOneSegment` runs the one of
`ExpectSegment`, which calls its own `expect_seg`, and then tests once more that no
segment is left. -/
def perform [DecidableEq State] : TestStep State → Test σ Segment Unit
  | .expectNoData => expectReadable kernel false "The TCP produced data when it should not have"
  | .expectData data => do
      let h ← get
      if tcp.inboundEmpty h.fsm = false then do
        let actual ← onFsm (tcp.inboundRead (tcp.inboundSize h.fsm))
        require (checkData data actual)
      else throw (.violation "The TCP should have data for the user, but does not")
  | .expectSegmentAvailable =>
      expectReadable kernel true "The TCP should have produces a segment, but did not"
  | .expectNoSegment =>
      expectReadable kernel false "The TCP produced a segment when it should not have"
  | .expectSegment e => do
      let _ ← expectSegment segs kernel e
      return ()
  | .expectOneSegment e => do
      let _ ← expectOneSegment segs kernel e
      expectReadable kernel false "The TCP an extra segment when it should not have"
  | .expectState state => do
      let h ← get
      require (checkState tcp state (tcp.state h.fsm))
  | .expectNotInState state => do
      let h ← get
      require (checkNotInState tcp state (tcp.state h.fsm))
  | .expectBytesInFlight bytes => do
      let h ← get
      require (expectNumber "bytes_in_flight" bytes (tcp.bytesInFlight h.fsm))
  | .expectUnassembledBytes bytes => do
      let h ← get
      require (expectNumber "unassembled_bytes" bytes (tcp.unassembledBytes h.fsm))
  | .expectLingerTimer ms => do
      let h ← get
      require (expectNumber "time_since_last_segment_received" ms
        (tcp.timeSinceLastSegmentReceived h.fsm))
  | .sendSegment fields => onFsm (tcp.segmentReceived (segs.make fields))
  | .write data bytesWritten => do
      let written ← onFsm (tcp.write data)
      require (checkWritten bytesWritten written)
  | .tick msSinceLastTick => onFsm (tcp.tick msSinceLastTick)
  | .connect => onFsm tcp.connect
  | .listen => return ()
  | .close => onFsm tcp.endInputStream

/-! ## Commands -/

/-- The member function `config_segment` of `TestFdAdapter`. -/
def configSegment (seg : Segment) : Segment :=
  segs.withPorts segs.sourcePort segs.destinationPort seg

/-- The packet for a segment. -/
def wire (seg : Segment) : BufferViewList := .ofBufferList (segs.serialize (configSegment segs seg))

def setQueue (queue : List Segment) (h : Harness σ Segment) : Harness σ Segment :=
  { h with fsm := { h.fsm with segmentsOut := queue } }

/-- The loop of `execute`, for the segments that are in the queue. -/
def flush : List Segment → Test σ Segment Unit
  | [] => return ()
  | seg :: rest => do
      modify (setQueue (configSegment segs seg :: rest))
      onFlt fun flt => flt.write kernel (wire segs seg)
      modify (setQueue rest)
      flush rest

/-- What is written to `cerr` about a violation. -/
def report (lead what note : String) (stepsExecuted : List String) : String :=
  "Test Failure on expectation:\n\t" ++ lead ++ "Failure message:\n\t" ++ what ++
    "\n\nList of steps that executed successfully:" ++
    String.join (stepsExecuted.map fun s => "\n\t" ++ s) ++ "\n\n" ++
    if note.length > 0 then "Note:\n\t" ++ note ++ "\n\n" else ""

/-- The handlers: they are for violations, and throw again what they have caught. -/
def reported {α : Type} (lead note : String) : Failure → Test σ Segment α
  | .violation what => do
      modify fun h => { h with cerr := h.cerr ++ report lead what note h.stepsExecuted }
      throw (.violation what)
  | .exn e => throw (.exn e)

def recordStep (text : String) (h : Harness σ Segment) : Harness σ Segment :=
  { h with stepsExecuted := h.stepsExecuted ++ [text] }

/-- The member function `execute`. -/
def execute [DecidableEq State] (step : TestStep State) (note : String) : Test σ Segment Unit :=
  tryCatch
    (do
      perform segs tcp kernel step
      let h ← get
      flush segs kernel h.fsm.segmentsOut
      modify (recordStep (step.text segs tcp)))
    (reported (step.text segs tcp ++ "\n\n") note)

/-- The member function `expect_seg` of an expectation that is an `ExpectOneSegment` if `one` is
set. -/
def findSegment (one : Bool) (e : ExpectSegment) : Test σ Segment Segment :=
  if one then expectOneSegment segs kernel e else expectSegment segs kernel e

/-- The member function `expect_seg` of the harness. It leaves the queue of the connection
alone. -/
def expectSeg (one : Bool) (e : ExpectSegment) (note : String) : Test σ Segment Segment :=
  let step : TestStep State := if one then .expectOneSegment e else .expectSegment e
  tryCatch
    (do
      let ret ← findSegment segs kernel one e
      modify (recordStep (step.text segs tcp))
      return ret)
    (reported (step.description segs tcp ++ "\n") note)

/-- What a test does with its harness. -/
inductive Command (State : Type) where
  | execute (step : TestStep State) (note : String)
  | expectSeg (one : Bool) (e : ExpectSegment) (note : String)

/-- A command, and the segment that it returns. -/
def command [DecidableEq State] : Command State → Test σ Segment (Option Segment)
  | .execute step note => do
      execute segs tcp kernel step note
      return none
  | .expectSeg one e note => do
      let seg ← expectSeg segs tcp kernel one e note
      return some seg

/-! ## What a test says -/

/-- The segment is as expected. -/
structure ExpectSegment.Matches (e : ExpectSegment) (seg : Segment) : Prop where
  ack : ∀ v, e.ack = some v → (segs.fields seg).ack = v
  rst : ∀ v, e.rst = some v → (segs.fields seg).rst = v
  syn : ∀ v, e.syn = some v → (segs.fields seg).syn = v
  fin : ∀ v, e.fin = some v → (segs.fields seg).fin = v
  seqno : ∀ v, e.seqno = some v → (segs.fields seg).seqno = v
  ackno : ∀ v, e.ackno = some v → (segs.fields seg).ackno = v
  win : ∀ v, e.win = some v → (segs.fields seg).win = v
  payloadSize : ∀ v, e.payloadSize = some v → (segs.fields seg).payload.length = v
  length : segs.lengthInSequenceSpace seg ≤ segs.maxPayloadSize
  data : ∀ v, e.data = some v → (segs.fields seg).payload = v

/-- The next of the segments that were not looked at is as expected, and not too long to be
read. -/
def NextMatches (e : ExpectSegment) (pending : List Segment) : Prop :=
  ∃ seg, pending.head? = some seg ∧ e.Matches segs seg ∧
    (wire segs seg).str.length ≤ maxRecv segs

/-- A step is right about a connection and the segments that were not looked at yet.
`ExpectNoData` says nothing about data. -/
def TestStep.Holds (c : Connection σ Segment) (pending : List Segment) : TestStep State → Prop
  | .expectNoData | .expectNoSegment => pending = []
  | .expectData data =>
      tcp.inboundEmpty c = false ∧
        ∃ actual, (tcp.inboundRead (tcp.inboundSize c) c).2 = .ok actual ∧
          ∀ v, data = some v → actual = v
  | .expectSegmentAvailable => pending ≠ []
  | .expectSegment e => NextMatches segs e pending
  | .expectOneSegment e => NextMatches segs e pending ∧ pending.length = 1
  | .expectState state => tcp.state c = state
  | .expectNotInState state => tcp.state c ≠ state
  | .expectBytesInFlight bytes => tcp.bytesInFlight c = bytes
  | .expectUnassembledBytes bytes => tcp.unassembledBytes c = bytes
  | .expectLingerTimer ms => tcp.timeSinceLastSegmentReceived c = ms
  | .sendSegment fields => (tcp.segmentReceived (segs.make fields) c).2 = .ok ()
  | .write data bytesWritten =>
      ∃ written, (tcp.write data c).2 = .ok written ∧ ∀ v, bytesWritten = some v → written = v
  | .tick msSinceLastTick => (tcp.tick msSinceLastTick c).2 = .ok ()
  | .connect => (tcp.connect c).2 = .ok ()
  | .listen => True
  | .close => (tcp.endInputStream c).2 = .ok ()

/-- What a step does to the connection. -/
def TestStep.effect (c : Connection σ Segment) : TestStep State → Connection σ Segment
  | .expectData _ => (tcp.inboundRead (tcp.inboundSize c) c).1
  | .sendSegment fields => (tcp.segmentReceived (segs.make fields) c).1
  | .write data _ => (tcp.write data c).1
  | .tick msSinceLastTick => (tcp.tick msSinceLastTick c).1
  | .connect => (tcp.connect c).1
  | .close => (tcp.endInputStream c).1
  | _ => c

/-- A step that looks at a segment. -/
def TestStep.looks : TestStep State → Bool
  | .expectSegment _ | .expectOneSegment _ => true
  | _ => false

namespace Command

/-- The step that a command is about. -/
def step : Command State → TestStep State
  | .execute step _ => step
  | .expectSeg one e _ => if one then .expectOneSegment e else .expectSegment e

/-- What a command does to the connection alone, and the segments that are sent by it. -/
def drive (c : Connection σ Segment) : Command State → Connection σ Segment × List Segment
  | .execute step _ =>
      let after := step.effect segs tcp c
      ({ after with segmentsOut := [] }, after.segmentsOut)
  | .expectSeg _ _ _ => (c, [])

end Command

end

end TCPTestHarness

end Sponge
