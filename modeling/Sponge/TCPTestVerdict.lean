import Sponge.BufferLockStep
import Sponge.Datagram
import Sponge.Lib.Runs
import Sponge.TCPTestHarness

/-!
# What a test of a TCP connection says

A test with a `TCPTestHarness` sees the segments of the connection through a socket
pair, and decides by what it sees. Here it is compared with the test as it is meant: one
that knows the connection, and the list of all segments that it has sent. The harness is in
step with it (`InStep`) as long as no system call fails, and each of its steps decides
what the step says (`Decides`).
-/

namespace Sponge

namespace TCPTestHarness

open Datagram (Failed)

/-! ## What is relied on -/

/-- The contract of the socket pair: a packet is taken over as a whole, the oldest is handed
out first, and its real length is returned. A call may also fail. -/
structure SeqPacketContract (kernel : SeqPacket) : Prop where
  sendmsg : ∀ n packets packet,
    ((kernel.sendmsg n packets packet).returnValue = packet.length ∧ packet.length < 2 ^ 31) ∨
      Failed (kernel.sendmsg n packets packet)
  peek_nil : ∀ n, Failed (kernel.peek n [])
  peek_cons : ∀ n packet packets,
    (kernel.peek n (packet :: packets)).returnValue = min 1 packet.length ∨
      (Failed (kernel.peek n (packet :: packets)) ∧
        (kernel.peek n (packet :: packets)).errno ≠ eagain)
  recv : ∀ n packet packets size,
    ((kernel.recv n (packet :: packets) size).1.returnValue = packet.length ∧
      (kernel.recv n (packet :: packets) size).2.take (min size packet.length) =
        packet.take (min size packet.length)) ∨
      Failed (kernel.recv n (packet :: packets) size).1

/-- The exception of a system call that failed. -/
def Failure.System (failure : Failure) : Prop :=
  ∃ attempt code, failure = .exn (.unixError attempt code)

/-- What is assumed of the segments that are sent: one can be parsed from its packet, and has
the same fields then. -/
structure Survives {Segment : Type} (segs : SegmentClass Segment) (seg : Segment) : Prop where
  parsed : (segs.parse (wire segs seg).str).2 = .noError
  fields : segs.fields (segs.parse (wire segs seg).str).1 = segs.fields seg
  length : segs.lengthInSequenceSpace (segs.parse (wire segs seg).str).1 =
    segs.lengthInSequenceSpace seg

/-! ## The packets -/

variable {σ Segment State : Type} {segs : SegmentClass Segment}
  {tcp : ConnectionClass σ Segment State} {kernel : SeqPacket} {fd : TestFD}

theorem write_cases (contract : SeqPacketContract kernel) (fd : TestFD) (buffer : BufferViewList) :
    (fd.write kernel buffer =
        (⟨fd.recvFd, fd.packets ++ [buffer.str], fd.calls + 1⟩, .ok ()) ∧
      buffer.str.length < 2 ^ 31) ∨
    (∃ fd' code, fd.write kernel buffer = (fd', .error (.unixError "sendmsg" code))) := by
  unfold TestFD.write
  dsimp only
  rw [BufferViewList.flatMap_asIovecs]
  rcases contract.sendmsg fd.calls fd.packets buffer.str with ⟨whole, small⟩ | failed
  · left
    have passed : systemCall "sendmsg" (kernel.sendmsg fd.calls fd.packets buffer.str) = _ :=
      systemCall_of_nonneg (by omega) (by omega)
    rw [passed, if_pos (by omega)]
    exact ⟨rfl, small⟩
  · right
    rw [systemCall_of_failed "sendmsg" failed.1 failed.2]
    exact ⟨_, _, rfl⟩

theorem canRead_cases (contract : SeqPacketContract kernel) (fd : TestFD) :
    (fd.canRead kernel =
        (⟨fd.recvFd, fd.packets, fd.calls + 1⟩, .ok (decide (fd.packets ≠ [])))) ∨
    (∃ fd' code, fd.canRead kernel = (fd', .error (.unixError "recv" code))) := by
  obtain ⟨recvFd, packets, calls⟩ := fd
  unfold TestFD.canRead systemCall
  dsimp only
  cases packets with
  | nil =>
      obtain ⟨failed, -⟩ := contract.peek_nil calls
      rw [failed, toInt_of_range (by omega) (by omega)]
      by_cases nothing : (kernel.peek calls []).errno = eagain
      · left
        rw [if_pos (.inr nothing)]
        rfl
      · right
        rw [if_neg (by simp [nothing])]
        exact ⟨_, _, rfl⟩
  | cons packet packets =>
      rcases contract.peek_cons calls packet packets with found | ⟨⟨failed, -⟩, error⟩
      · left
        have low : 0 ≤ toInt (kernel.peek calls (packet :: packets)).returnValue := by
          rw [found, toInt_of_range (by omega) (by omega)]
          omega
        rw [if_pos (.inl low)]
        simp [low]
      · right
        rw [failed, toInt_of_range (by omega) (by omega), if_neg (by simp [error])]
        exact ⟨_, _, rfl⟩

theorem read_cases (contract : SeqPacketContract kernel) {packet : Bytes} {packets : List Bytes}
    (there : fd.packets = packet :: packets) (small : packet.length < 2 ^ 31) {size : Nat}
    (room : size < 2 ^ 31) :
    (packet.length ≤ size ∧
      fd.read kernel size = (⟨fd.recvFd.registerRead, packets, fd.calls + 1⟩, .ok packet)) ∨
    (∃ fd' e, fd.read kernel size = (fd', .error e) ∧
      (packet.length ≤ size → ∃ code, e = .unixError "recv" code)) := by
  unfold TestFD.read
  dsimp only
  rw [there]
  rcases contract.recv fd.calls packet packets size with ⟨length, stored⟩ | failed
  · have passed : systemCall "recv" (kernel.recv fd.calls (packet :: packets) size).1 = _ :=
      systemCall_of_nonneg (by omega) (by omega)
    rw [passed, length, toSsize_of_lt (by omega)]
    by_cases fits : packet.length ≤ size
    · left
      rw [Nat.min_eq_right fits] at stored
      have short : packet.length ≤ FileDescriptor.maxSize := by
        unfold FileDescriptor.maxSize
        omega
      have cut := FileDescriptor.resize_stored short fits (le_refl _) stored
      rw [List.take_length] at cut
      dsimp only
      rw [if_neg (by omega), toSize_natCast (by unfold sizeModulus; omega), cut,
        if_pos (by omega)]
      exact ⟨fits, rfl⟩
    · right
      dsimp only
      rw [if_pos (by omega)]
      exact ⟨_, _, rfl, fun fit => absurd fit fits⟩
  · right
    rw [systemCall_of_failed "recv" failed.1 failed.2]
    exact ⟨_, _, rfl, fun _ => ⟨_, rfl⟩⟩

/-! ## One step -/

open Verdict (Decides)

/-- The harness is at the connection `c`, with these segments in the socket. -/
structure InStep (segs : SegmentClass Segment) (h : Harness σ Segment) (c : Connection σ Segment)
    (pending : List Segment) : Prop where
  fsm : h.fsm = c
  packets : h.flt.packets = pending.map fun seg => (wire segs seg).str
  small : ∀ seg ∈ pending, (wire segs seg).str.length < 2 ^ 31
  survive : ∀ seg ∈ pending, Survives segs seg

variable {h : Harness σ Segment} {c : Connection σ Segment} {pending : List Segment}
  {e : ExpectSegment} {seg : Segment}

theorem ensure_ok {p : Prop} [Decidable p] {failure : Failure} :
    ensure p failure = .ok () ↔ p := by
  unfold ensure
  split
  · next right => exact ⟨fun _ => right, fun _ => rfl⟩
  · next wrong => exact ⟨nofun, fun right => absurd right wrong⟩

theorem checkExpected_ok {α : Type} [DecidableEq α] {failure : α → Failure} {expected : Option α}
    {actual : α} :
    checkExpected failure expected actual = .ok () ↔ ∀ v, expected = some v → actual = v := by
  cases expected with
  | none => exact ⟨fun _ => nofun, fun _ => rfl⟩
  | some value =>
      rw [checkExpected, ensure_ok]
      refine ⟨?_, fun same => same value rfl⟩
      rintro same _ ⟨⟩
      exact same

theorem then_eq_ok {x y : Except Failure Unit} :
    (x >>= fun _ => y) = .ok () ↔ x = .ok () ∧ y = .ok () :=
  bind_eq_ok.trans ⟨fun ⟨_, first, second⟩ => ⟨first, second⟩, fun ⟨first, second⟩ =>
    ⟨(), first, second⟩⟩

theorem check_ok : e.check segs seg = .ok () ↔ e.Matches segs seg := by
  unfold ExpectSegment.check
  simp only [then_eq_ok, checkField, checkExpected_ok, ensure_ok]
  exact ⟨fun ⟨ack, rst, syn, fin, seqno, ackno, win, size, length, data⟩ =>
      ⟨ack, rst, syn, fin, seqno, ackno, win, size, length, data⟩,
    fun ⟨ack, rst, syn, fin, seqno, ackno, win, size, length, data⟩ =>
      ⟨ack, rst, syn, fin, seqno, ackno, win, size, length, data⟩⟩

/-- What a segment is compared with are its fields and its length. -/
theorem matches_congr {seg' : Segment} (fields : segs.fields seg = segs.fields seg')
    (length : segs.lengthInSequenceSpace seg = segs.lengthInSequenceSpace seg') :
    e.Matches segs seg ↔ e.Matches segs seg' := by
  rw [← check_ok, ← check_ok]
  unfold ExpectSegment.check
  rw [fields, length]

theorem decides_require (excuse : Failure → Prop) (result : Except Failure Unit)
    (h : Harness σ Segment) :
    Decides excuse (require result) h (result = .ok ()) fun _ h' => h' = h := by
  cases result with
  | ok _ => exact Verdict.decides_pure rfl rfl
  | error failure => exact Verdict.decides_throw nofun

theorem decides_canRead (contract : SeqPacketContract kernel) (inStep : InStep segs h c pending) :
    Decides Failure.System (onFlt (TestFD.canRead kernel)) h True
      fun found h' => (found = true ↔ pending ≠ []) ∧ InStep segs h' c pending := by
  rcases canRead_cases contract h.flt with returned | ⟨fd, code, threw⟩
  · refine Verdict.decides_part_ok returned trivial ⟨?_, { inStep with }⟩
    simp [inStep.packets]
  · exact Verdict.decides_part_error threw fun _ => ⟨_, _, rfl⟩

theorem decides_expectReadable (contract : SeqPacketContract kernel)
    (inStep : InStep segs h c pending) (readable : Bool) (message : String) :
    Decides Failure.System (expectReadable kernel readable message) h
      (readable = true ↔ pending ≠ []) fun _ h' => InStep segs h' c pending := by
  refine (decides_canRead contract inStep).then fun found h' known => ?_
  have tested : Decides Failure.System
      (if found = readable then pure () else throw (.violation message) : Test σ Segment Unit) h'
      (found = readable ∧ True) fun _ h' => InStep segs h' c pending :=
    Verdict.decides_ite fun _ => Verdict.decides_pure trivial known.2
  refine tested.imp ?_ fun _ _ is => is
  rw [and_true, ← known.1]
  exact ⟨fun same => (Bool.eq_iff_iff.mpr same).symm, fun same => by rw [same]⟩

theorem decides_read (contract : SeqPacketContract kernel) (room : maxRecv segs < 2 ^ 31)
    (inStep : InStep segs h c (seg :: pending)) :
    Decides Failure.System (onFlt (TestFD.read kernel (maxRecv segs))) h
      ((wire segs seg).str.length ≤ maxRecv segs)
      fun packet h' => packet = (wire segs seg).str ∧ InStep segs h' c pending := by
  obtain ⟨small, others⟩ := List.forall_mem_cons.mp inStep.small
  rcases read_cases contract inStep.packets small room with
    ⟨fits, returned⟩ | ⟨fd, e, threw, failed⟩
  · exact Verdict.decides_part_ok returned fits
      ⟨rfl, inStep.fsm, rfl, others, (List.forall_mem_cons.mp inStep.survive).2⟩
  · refine Verdict.decides_part_error threw fun fits => ?_
    obtain ⟨code, rfl⟩ := failed fits
    exact ⟨_, _, rfl⟩

theorem decides_expectSegment (contract : SeqPacketContract kernel) (room : maxRecv segs < 2 ^ 31)
    (inStep : InStep segs h c pending) (e : ExpectSegment) :
    Decides Failure.System (expectSegment segs kernel e) h (NextMatches segs e pending)
      fun seg h' => InStep segs h' c pending.tail ∧
        ∃ sent, pending.head? = some sent ∧ segs.fields seg = segs.fields sent := by
  cases pending with
  | nil =>
      have impossible : ¬NextMatches segs e [] := by
        rintro ⟨seg, missing, -⟩
        cases missing
      refine (decides_canRead contract inStep).then fun found h' known => ?_
      have nothing : found = false := by simpa using known.1
      rw [nothing]
      exact Verdict.decides_throw impossible
  | cons sent pending =>
      obtain ⟨parsed, fields, length⟩ := inStep.survive sent (List.mem_cons_self ..)
      have same : NextMatches segs e (sent :: pending) ↔
          (wire segs sent).str.length ≤ maxRecv segs ∧
            e.check segs (segs.parse (wire segs sent).str).1 = .ok () := by
        rw [check_ok, matches_congr fields length, NextMatches]
        refine ⟨?_, fun ⟨fits, right⟩ => ⟨sent, rfl, right, fits⟩⟩
        rintro ⟨seg, first, right, fits⟩
        cases first
        exact ⟨fits, right⟩
      refine (decides_canRead contract inStep).then fun found h' known => ?_
      have something : found = true := by simpa using known.1
      rw [something, if_pos rfl]
      refine ((decides_read contract room known.2).bind fun packet h' _ got => ?_).imp
        same fun _ _ is => is
      rw [got.1, if_pos parsed]
      refine (decides_require _ _ h').bind_pure fun _ _ unchanged => ?_
      rw [unchanged]
      exact ⟨got.2, sent, rfl, fields⟩

theorem decides_onFsm {α : Type} {f : Connection σ Segment → Connection σ Segment × Except Exn α}
    (excuse : Failure → Prop) (inStep : InStep segs h c pending) :
    Decides excuse (onFsm f) h (∃ a, (f c).2 = .ok a)
      fun a h' => (f c).2 = .ok a ∧ InStep segs h' (f c).1 pending := by
  obtain rfl := inStep.fsm
  cases ran : (f h.fsm).2 with
  | ok a =>
      exact Verdict.decides_part_ok (show f h.fsm = (_, .ok a) from Prod.ext rfl ran) ⟨a, rfl⟩
        ⟨rfl, rfl, inStep.packets, inStep.small, inStep.survive⟩
  | error e =>
      exact Verdict.decides_part_error (show f h.fsm = (_, .error e) from Prod.ext rfl ran)
        fun ⟨_, wrong⟩ => nomatch wrong

/-- A member function of the connection that returns nothing. -/
theorem decides_action {f : Connection σ Segment → Connection σ Segment × Except Exn Unit}
    (excuse : Failure → Prop) (inStep : InStep segs h c pending) :
    Decides excuse (onFsm f) h ((f c).2 = .ok ()) fun _ h' => InStep segs h' (f c).1 pending :=
  (decides_onFsm excuse inStep).imp ⟨fun returned => ⟨(), returned⟩, fun ⟨_, returned⟩ => returned⟩
    fun _ _ is => is.2

/-- One that returns something, which is tested. -/
theorem decides_query {α : Type} {f : Connection σ Segment → Connection σ Segment × Except Exn α}
    {check : α → Except Failure Unit} (excuse : Failure → Prop) (inStep : InStep segs h c pending) :
    Decides excuse (onFsm f >>= fun a => require (check a)) h
      (∃ a, (f c).2 = .ok a ∧ check a = .ok ()) fun _ h' => InStep segs h' (f c).1 pending := by
  refine ((decides_onFsm excuse inStep).bind fun a h' _ known => ?_).imp
    (iff_and_self.mpr fun ⟨a, returned, _⟩ => ⟨a, returned⟩) fun _ _ is => is
  refine (decides_require excuse (check a) h').imp ?_ ?_
  · refine ⟨fun ⟨a', returned, passed⟩ => ?_, fun passed => ⟨a, known.1, passed⟩⟩
    cases known.1.symm.trans returned
    exact passed
  · rintro _ _ rfl
    exact known.2

theorem checkData_ok {data : Option Bytes} {actual : Bytes} :
    checkData data actual = .ok () ↔ ∀ v, data = some v → actual = v := by
  cases data with
  | none => exact ⟨fun _ => nofun, fun _ => rfl⟩
  | some value =>
      rw [checkData, then_eq_ok, ensure_ok, ensure_ok]
      refine ⟨?_, fun same => ⟨by rw [same value rfl], same value rfl⟩⟩
      rintro ⟨-, same⟩ _ ⟨⟩
      exact same

/-- A test of something that the connection tells. -/
theorem decides_observe {result : Harness σ Segment → Except Failure Unit} {holds : Prop}
    (excuse : Failure → Prop) (inStep : InStep segs h c pending)
    (tests : result h = .ok () ↔ holds) :
    Decides excuse (get >>= fun h => require (result h)) h holds
      fun _ h' => InStep segs h' c pending := by
  refine Verdict.decides_get_bind ((decides_require excuse (result h) h).imp tests.symm ?_)
  rintro _ _ rfl
  exact inStep

theorem decides_expectOneSegment (contract : SeqPacketContract kernel)
    (room : maxRecv segs < 2 ^ 31) (inStep : InStep segs h c pending) (e : ExpectSegment) :
    Decides Failure.System (expectOneSegment segs kernel e) h
      (NextMatches segs e pending ∧ pending.length = 1)
      fun seg h' => InStep segs h' c pending.tail ∧
        ∃ sent, pending.head? = some sent ∧ segs.fields seg = segs.fields sent := by
  refine ((decides_expectSegment contract room inStep e).bind fun seg h' _ known =>
    (decides_expectReadable contract known.1 false _).bind_pure
      fun _ h' is => ⟨is, known.2⟩).imp ?_ fun _ _ is => is
  refine and_congr_right fun ⟨seg, first, _⟩ => ?_
  cases pending with
  | nil => cases first
  | cons sent pending => simp

theorem decides_perform [DecidableEq State] (contract : SeqPacketContract kernel)
    (room : maxRecv segs < 2 ^ 31) (inStep : InStep segs h c pending) (step : TestStep State) :
    Decides Failure.System (perform segs tcp kernel step) h (step.Holds segs tcp c pending)
      fun _ h' => InStep segs h' (step.effect segs tcp c) (pending.drop step.looks.toNat) := by
  cases step with
  | expectNoData =>
      refine (decides_expectReadable contract inStep false _).imp ?_ fun _ _ is => is
      simp [TestStep.Holds]
  | expectData data =>
      refine Verdict.decides_get_bind ?_
      rw [inStep.fsm]
      refine (Verdict.decides_ite fun _ => decides_query _ inStep).imp ?_ fun _ _ is => is
      rw [TestStep.Holds]
      simp only [checkData_ok]
  | expectSegmentAvailable =>
      refine (decides_expectReadable contract inStep true _).imp ?_ fun _ _ is => is
      simp [TestStep.Holds]
  | expectNoSegment =>
      refine (decides_expectReadable contract inStep false _).imp ?_ fun _ _ is => is
      simp [TestStep.Holds]
  | expectSegment e =>
      refine (decides_expectSegment contract room inStep e).bind_pure fun _ _ is => ?_
      rw [← List.drop_one] at is
      exact is.1
  | expectOneSegment e =>
      refine ((decides_expectOneSegment contract room inStep e).bind fun seg h' _ known =>
        decides_expectReadable contract known.1 false _).imp ?_ fun _ _ is => ?_
      · -- The second look at the socket, by the step itself, can find nothing new.
        rw [TestStep.Holds]
        refine (and_iff_left_of_imp fun ⟨_, one⟩ => ?_).symm
        obtain ⟨sent, rfl⟩ := List.length_eq_one_iff.mp one
        simp
      · rwa [← List.drop_one] at is
  | expectState state =>
      refine decides_observe _ inStep (ensure_ok.trans ?_)
      rw [inStep.fsm, TestStep.Holds]
  | expectNotInState state =>
      refine decides_observe _ inStep (ensure_ok.trans ?_)
      rw [inStep.fsm, TestStep.Holds]
  | expectBytesInFlight bytes =>
      refine decides_observe _ inStep (ensure_ok.trans ?_)
      rw [inStep.fsm, TestStep.Holds]
  | expectUnassembledBytes bytes =>
      refine decides_observe _ inStep (ensure_ok.trans ?_)
      rw [inStep.fsm, TestStep.Holds]
  | expectLingerTimer ms =>
      refine decides_observe _ inStep (ensure_ok.trans ?_)
      rw [inStep.fsm, TestStep.Holds]
  | sendSegment fields => exact decides_action _ inStep
  | write data bytesWritten =>
      refine (decides_query _ inStep).imp ?_ fun _ _ is => is
      simp only [TestStep.Holds, checkWritten, checkExpected_ok]
  | tick msSinceLastTick => exact decides_action _ inStep
  | connect => exact decides_action _ inStep
  | listen => exact Verdict.decides_pure trivial inStep
  | close => exact decides_action _ inStep

/-! ## One command -/

theorem decides_write (contract : SeqPacketContract kernel) (inStep : InStep segs h c pending)
    (survives : Survives segs seg) :
    Decides Failure.System (onFlt fun flt => flt.write kernel (wire segs seg)) h True
      fun _ h' => InStep segs h' c (pending ++ [seg]) := by
  rcases write_cases contract h.flt (wire segs seg) with
    ⟨returned, small⟩ | ⟨fd, code, threw⟩
  · refine Verdict.decides_part_ok returned trivial ⟨inStep.fsm, ?_, ?_, ?_⟩
    · show h.flt.packets ++ _ = _
      rw [inStep.packets, List.map_append, List.map_singleton]
    · rw [List.forall_mem_append]
      exact ⟨inStep.small, List.forall_mem_singleton.mpr small⟩
    · rw [List.forall_mem_append]
      exact ⟨inStep.survive, List.forall_mem_singleton.mpr survives⟩
  · exact Verdict.decides_part_error threw fun _ => ⟨_, _, rfl⟩

theorem InStep.setQueue (inStep : InStep segs h c pending) (queue : List Segment) :
    InStep segs (setQueue queue h) { c with segmentsOut := queue } pending := by
  obtain ⟨fsm, packets, small, survive⟩ := inStep
  subst fsm
  exact ⟨rfl, packets, small, survive⟩

/-- The loop sends all segments of the queue. -/
theorem decides_flush (contract : SeqPacketContract kernel) {queue : List Segment}
    (inStep : InStep segs h { c with segmentsOut := queue } pending)
    (survive : ∀ seg ∈ queue, Survives segs seg) :
    Decides Failure.System (flush segs kernel queue) h True
      fun _ h' => InStep segs h' { c with segmentsOut := [] } (pending ++ queue) := by
  induction queue generalizing h pending with
  | nil =>
      rw [List.append_nil]
      exact Verdict.decides_pure trivial inStep
  | cons seg rest ih =>
      -- The segment is configured in the queue, sent, and popped only then.
      obtain ⟨survives, others⟩ := List.forall_mem_cons.mp survive
      refine (Verdict.decides_modify _ _ _).then fun _ h' configured => ?_
      have inStep := inStep.setQueue (configSegment segs seg :: rest)
      rw [← configured] at inStep
      refine (decides_write contract inStep survives).then fun _ h' inStep => ?_
      refine (Verdict.decides_modify _ _ _).then fun _ h' popped => ?_
      have inStep := inStep.setQueue rest
      rw [← popped] at inStep
      rw [List.append_cons]
      exact ih inStep others

theorem reported_throws {α : Type} (lead note : String) (failure : Failure)
    (h : Harness σ Segment) :
    ∃ failure' h', (reported lead note failure : Test σ Segment α).run h = .error failure' h' ∧
      (failure.System → failure'.System) := by
  cases failure with
  | violation what => exact ⟨_, _, rfl, id⟩
  | exn e => exact ⟨_, _, rfl, id⟩

theorem decides_execute [DecidableEq State] (contract : SeqPacketContract kernel)
    (room : maxRecv segs < 2 ^ 31) (inStep : InStep segs h c pending) (step : TestStep State)
    (survive : ∀ seg ∈ (step.effect segs tcp c).segmentsOut, Survives segs seg) (note : String) :
    Decides Failure.System (execute segs tcp kernel step note) h
      (step.Holds segs tcp c pending) fun _ h' =>
        InStep segs h' { step.effect segs tcp c with segmentsOut := [] }
          (pending.drop step.looks.toNat ++ (step.effect segs tcp c).segmentsOut) := by
  refine Decides.tryCatch ?_ (reported_throws _ _)
  refine ((decides_perform contract room inStep step).bind fun _ h' _ inStep => ?_).imp
    (iff_of_eq (and_true _)).symm fun _ _ is => is
  refine Verdict.decides_get_bind ?_
  rw [inStep.fsm]
  refine (decides_flush contract inStep survive).then fun _ h' inStep => ?_
  refine (Verdict.decides_modify _ _ _).imp Iff.rfl fun _ _ recorded => ?_
  rw [recorded]
  exact { inStep with }

theorem decides_expectSeg (contract : SeqPacketContract kernel) (room : maxRecv segs < 2 ^ 31)
    (inStep : InStep segs h c pending) (one : Bool) (e : ExpectSegment) (note : String) :
    Decides Failure.System (expectSeg segs tcp kernel one e note) h
      ((Command.expectSeg one e note : Command State).step.Holds segs tcp c pending)
      fun seg h' => InStep segs h' c pending.tail ∧
        ∃ sent, pending.head? = some sent ∧ segs.fields seg = segs.fields sent := by
  have found : Decides Failure.System (findSegment segs kernel one e) h
      ((Command.expectSeg one e note : Command State).step.Holds segs tcp c pending)
      fun seg h' => InStep segs h' c pending.tail ∧
        ∃ sent, pending.head? = some sent ∧ segs.fields seg = segs.fields sent := by
    cases one with
    | true => exact decides_expectOneSegment contract room inStep e
    | false => exact decides_expectSegment contract room inStep e
  refine Decides.tryCatch ?_ (reported_throws _ _)
  refine (found.bind fun seg h' _ known => ?_).imp (iff_of_eq (and_true _)).symm fun _ _ is => is
  refine (Verdict.decides_modify _ _ _).bind_pure fun _ _ recorded => ?_
  rw [recorded]
  exact ⟨{ known.1 with }, known.2⟩

/-- What a command returns: the next segment, as far as a test can see. -/
def Command.Returned (segs : SegmentClass Segment) (pending : List Segment) (ret : Option Segment) :
    Command State → Prop
  | .execute _ _ => ret = none
  | .expectSeg _ _ _ =>
      ∃ seg sent, ret = some seg ∧ pending.head? = some sent ∧ segs.fields seg = segs.fields sent

theorem decides_command [DecidableEq State] (tcp : ConnectionClass σ Segment State)
    (contract : SeqPacketContract kernel) (room : maxRecv segs < 2 ^ 31)
    (inStep : InStep segs h c pending) (cmd : Command State)
    (survive : ∀ seg ∈ (cmd.drive segs tcp c).2, Survives segs seg) :
    Decides Failure.System (command segs tcp kernel cmd) h
      (cmd.step.Holds segs tcp c pending) fun ret h' =>
        InStep segs h' (cmd.drive segs tcp c).1
          (pending.drop cmd.step.looks.toNat ++ (cmd.drive segs tcp c).2) ∧
        cmd.Returned segs pending ret := by
  cases cmd with
  | execute step note =>
      exact (decides_execute contract room inStep step survive note).bind_pure
        fun _ _ is => ⟨is, rfl⟩
  | expectSeg one e note =>
      refine (decides_expectSeg contract room inStep one e note).bind_pure fun seg _ is => ?_
      obtain ⟨inStep, sent, first, fields⟩ := is
      have looked : (Command.expectSeg one e note : Command State).step.looks.toNat = 1 := by
        cases one with
        | true => rfl
        | false => rfl
      refine ⟨?_, seg, sent, rfl, first, fields⟩
      rw [looked, List.drop_one, Command.drive, List.append_nil]
      exact inStep

/-! ## Whole tests -/

/-- A test that runs some commands, and returns what they return. -/
def test [DecidableEq State] (segs : SegmentClass Segment) (tcp : ConnectionClass σ Segment State)
    (kernel : SeqPacket) : List (Command State) → Test σ Segment (List (Option Segment))
  | [] => return []
  | cmd :: commands => do
      let ret ← command segs tcp kernel cmd
      let rets ← test segs tcp kernel commands
      return ret :: rets

/-- The connection after some commands, driven by their actions alone. -/
def driven (segs : SegmentClass Segment) (tcp : ConnectionClass σ Segment State)
    (c : Connection σ Segment) (commands : List (Command State)) : Connection σ Segment :=
  (Runs.run (Command.drive segs tcp) c commands).1

/-- All segments that it has sent by then. -/
def sent (segs : SegmentClass Segment) (tcp : ConnectionClass σ Segment State)
    (c : Connection σ Segment) (commands : List (Command State)) : List Segment :=
  (Runs.run (Command.drive segs tcp) c commands).2.flatten

theorem sent_append (first second : List (Command State)) :
    sent segs tcp c (first ++ second) =
      sent segs tcp c first ++ sent segs tcp (driven segs tcp c first) second := by
  unfold sent driven
  rw [Runs.run_append, List.flatten_append]

/-- The number of segments that were looked at. -/
def looked (commands : List (Command State)) : Nat := commands.countP fun cmd => cmd.step.looks

/-- Something holds of each command, the connection at its time, and the segments that were
not looked at then, if there were `pending` ones at the start. -/
def Throughout (segs : SegmentClass Segment) (tcp : ConnectionClass σ Segment State)
    (holds : Nat → Command State → Connection σ Segment → List Segment → Prop)
    (c : Connection σ Segment) (pending : List Segment) (commands : List (Command State)) : Prop :=
  ∀ i cmd, commands[i]? = some cmd →
    holds i cmd (driven segs tcp c (commands.take i))
      ((pending ++ sent segs tcp c (commands.take i)).drop (looked (commands.take i)))

theorem throughout_nil {holds : Nat → Command State → Connection σ Segment → List Segment → Prop} :
    Throughout segs tcp holds c pending [] := by
  intro i cmd there
  rw [List.getElem?_nil] at there
  cases there

/-- At the start of a test. -/
theorem drop_looked_nil :
    (pending ++ sent segs tcp c []).drop (looked ([] : List (Command State))) = pending :=
  List.append_nil pending

theorem Throughout.head {holds : Nat → Command State → Connection σ Segment → List Segment → Prop}
    {cmd : Command State} {commands : List (Command State)}
    (all : Throughout segs tcp holds c pending (cmd :: commands)) : holds 0 cmd c pending := by
  have first := all 0 cmd rfl
  rwa [List.take_zero, drop_looked_nil] at first

theorem throughout_cons {holds : Nat → Command State → Connection σ Segment → List Segment → Prop}
    {cmd : Command State} {commands : List (Command State)}
    (available : cmd.step.looks.toNat ≤ pending.length) :
    Throughout segs tcp holds c pending (cmd :: commands) ↔
      holds 0 cmd c pending ∧
        Throughout segs tcp (fun i => holds (i + 1)) (cmd.drive segs tcp c).1
          (pending.drop cmd.step.looks.toNat ++ (cmd.drive segs tcp c).2) commands := by
  have later : ∀ i,
      (pending ++ sent segs tcp c ((cmd :: commands).take (i + 1))).drop
          (looked ((cmd :: commands).take (i + 1))) =
        (pending.drop cmd.step.looks.toNat ++ (cmd.drive segs tcp c).2 ++
          sent segs tcp (cmd.drive segs tcp c).1 (commands.take i)).drop
            (looked (commands.take i)) := by
    intro i
    have count : looked (cmd :: commands.take i) =
        cmd.step.looks.toNat + looked (commands.take i) := by
      unfold looked
      rw [List.countP_cons, Nat.add_comm]
      cases cmd.step.looks with
      | true => rfl
      | false => rfl
    rw [List.take_succ_cons, count, ← List.drop_drop, sent, Runs.run_cons, List.flatten_cons,
      List.drop_append_of_le_length available, List.append_assoc]
    rfl
  constructor
  · intro all
    refine ⟨all.head, fun i cmd' there => ?_⟩
    rw [← later]
    exact all (i + 1) cmd' there
  · rintro ⟨first, rest⟩ i cmd' there
    cases i with
    | zero =>
        cases there
        rw [List.take_zero, drop_looked_nil]
        exact first
    | succ i =>
        rw [later]
        exact rest i cmd' there

theorem Throughout.concat {holds : Nat → Command State → Connection σ Segment → List Segment → Prop}
    {commands : List (Command State)} {cmd : Command State}
    (all : Throughout segs tcp holds c pending commands)
    (last : holds commands.length cmd (driven segs tcp c commands)
      ((pending ++ sent segs tcp c commands).drop (looked commands))) :
    Throughout segs tcp holds c pending (commands ++ [cmd]) := by
  intro i cmd' there
  rcases Nat.lt_or_ge i commands.length with early | late
  · rw [List.getElem?_append_left early] at there
    rw [List.take_append_of_le_length early.le]
    exact all i cmd' there
  · rw [List.getElem?_append_right late, List.getElem?_singleton] at there
    obtain ⟨at_end, same⟩ := (Option.ite_none_right_eq_some).mp there
    have here : i = commands.length := (Nat.sub_eq_zero_iff_le.mp at_end).antisymm late
    rw [here, ← Option.some.inj same, List.take_left]
    exact last

/-- A step that looks at a segment holds only if there is one. -/
theorem looks_le_of_holds {step : TestStep State} (right : step.Holds segs tcp c pending) :
    step.looks.toNat ≤ pending.length := by
  have one : ∀ e, NextMatches segs e pending → 1 ≤ pending.length := by
    rintro e ⟨seg, first, -⟩
    cases pending with
    | nil => cases first
    | cons seg pending => simp
  cases step with
  | expectSegment e => exact one e right
  | expectOneSegment e => exact one e right.1
  | _ => exact Nat.zero_le _

/-- The steps of a test are right about the connection. -/
def Right (segs : SegmentClass Segment) (tcp : ConnectionClass σ Segment State)
    (c : Connection σ Segment) (pending : List Segment) (commands : List (Command State)) : Prop :=
  Throughout segs tcp (fun _ cmd c pending => cmd.step.Holds segs tcp c pending) c pending commands

theorem right_cons {cmd : Command State} {commands : List (Command State)} :
    Right segs tcp c pending (cmd :: commands) ↔
      cmd.step.Holds segs tcp c pending ∧
        Right segs tcp (cmd.drive segs tcp c).1
          (pending.drop cmd.step.looks.toNat ++ (cmd.drive segs tcp c).2) commands := by
  refine ⟨fun right => ?_, fun both => ?_⟩
  · exact (throughout_cons (looks_le_of_holds right.head)).mp right
  · exact (throughout_cons (looks_le_of_holds both.1)).mpr both

theorem decides_test [DecidableEq State] (tcp : ConnectionClass σ Segment State)
    (contract : SeqPacketContract kernel) (room : maxRecv segs < 2 ^ 31)
    (inStep : InStep segs h c pending) (commands : List (Command State))
    (survive : ∀ seg ∈ sent segs tcp c commands, Survives segs seg) :
    Decides Failure.System (test segs tcp kernel commands) h (Right segs tcp c pending commands)
      fun rets _ => Throughout segs tcp
        (fun i cmd _ pending => ∃ ret, rets[i]? = some ret ∧ cmd.Returned segs pending ret)
        c pending commands := by
  induction commands generalizing h c pending with
  | nil => exact Verdict.decides_pure throughout_nil throughout_nil
  | cons cmd commands ih =>
      rw [sent, Runs.run_cons, List.flatten_cons, List.forall_mem_append] at survive
      obtain ⟨now, later⟩ := survive
      refine ((decides_command tcp contract room inStep cmd now).bind fun ret h' holds known =>
        (ih known.1 later).bind_pure fun rets _ all => ?_).imp right_cons fun _ _ is => is
      exact (throughout_cons (looks_le_of_holds holds)).mpr ⟨⟨ret, rfl, known.2⟩, all⟩

/-! ## The record of a test -/

/-- The list of steps and what was printed. -/
def record (h : Harness σ Segment) : List String × String := (h.stepsExecuted, h.cerr)

open Verdict (Keeps)

theorem keeps_onFlt {α : Type} (f : TestFD → TestFD × Except Exn α) :
    Keeps record (onFlt f : Test σ Segment α) := Verdict.keeps_part fun _ _ => rfl

theorem keeps_onFsm {α : Type}
    (f : Connection σ Segment → Connection σ Segment × Except Exn α) :
    Keeps record (onFsm f) := Verdict.keeps_part fun _ _ => rfl

theorem keeps_require (result : Except Failure Unit) :
    Keeps record (require result : Test σ Segment Unit) := by
  cases result with
  | ok _ => exact Verdict.keeps_pure _
  | error failure => exact Verdict.keeps_throw _

theorem keeps_expectReadable (kernel : SeqPacket) (readable : Bool) (message : String) :
    Keeps record (expectReadable kernel readable message : Test σ Segment Unit) :=
  (keeps_onFlt _).bind fun _ => Verdict.keeps_ite (Verdict.keeps_pure _) (Verdict.keeps_throw _)

theorem keeps_expectSegment (segs : SegmentClass Segment) (kernel : SeqPacket) (e : ExpectSegment) :
    Keeps record (expectSegment segs kernel e : Test σ Segment Segment) := by
  refine (keeps_onFlt _).bind fun _ => Verdict.keeps_ite ?_ (Verdict.keeps_throw _)
  refine (keeps_onFlt _).bind fun _ => Verdict.keeps_ite ?_ (Verdict.keeps_throw _)
  exact (keeps_require _).bind fun _ => Verdict.keeps_pure _

theorem keeps_expectOneSegment (segs : SegmentClass Segment) (kernel : SeqPacket)
    (e : ExpectSegment) :
    Keeps record (expectOneSegment segs kernel e : Test σ Segment Segment) :=
  (keeps_expectSegment segs kernel e).bind fun _ =>
    (keeps_expectReadable kernel _ _).bind fun _ => Verdict.keeps_pure _

theorem keeps_perform [DecidableEq State] (step : TestStep State) :
    Keeps record (perform segs tcp kernel step) := by
  cases step with
  | expectNoData | expectSegmentAvailable | expectNoSegment =>
      exact keeps_expectReadable kernel _ _
  | expectData data =>
      refine Verdict.keeps_get_bind fun h => Verdict.keeps_ite ?_ (Verdict.keeps_throw _)
      exact (keeps_onFsm _).bind fun _ => keeps_require _
  | expectSegment e => exact (keeps_expectSegment segs kernel e).bind fun _ => Verdict.keeps_pure _
  | expectOneSegment e =>
      exact (keeps_expectOneSegment segs kernel e).bind fun _ => keeps_expectReadable kernel _ _
  | expectState | expectNotInState | expectBytesInFlight | expectUnassembledBytes
  | expectLingerTimer => exact Verdict.keeps_get_bind fun h => keeps_require _
  | sendSegment | tick | connect | close => exact keeps_onFsm _
  | write data bytesWritten => exact (keeps_onFsm _).bind fun _ => keeps_require _
  | listen => exact Verdict.keeps_pure _

theorem keeps_setQueue (queue : List Segment) :
    Keeps record (modify (setQueue queue) : Test σ Segment PUnit) :=
  Verdict.keeps_modify fun _ => rfl

theorem keeps_flush (queue : List Segment) :
    Keeps record (flush segs kernel queue : Test σ Segment Unit) := by
  induction queue with
  | nil => exact Verdict.keeps_pure _
  | cons seg rest ih =>
      exact (keeps_setQueue _).bind fun _ => (keeps_onFlt _).bind fun _ =>
        (keeps_setQueue rest).bind fun _ => ih

/-- What a command with this step does to the record. -/
structure Recorded {α : Type} (text lead note : String) (h : Harness σ Segment)
    (done : Harness σ Segment × Except Failure α) : Prop where
  passed : ∀ ret, done.2 = .ok ret → record done.1 = (h.stepsExecuted ++ [text], h.cerr)
  violated : ∀ what, done.2 = .error (.violation what) →
    record done.1 = (h.stepsExecuted, h.cerr ++ report lead what note h.stepsExecuted)
  threw : ∀ e, done.2 = .error (.exn e) → record done.1 = record h

theorem recorded_tryCatch {α β : Type} {x : Test σ Segment α} {finish : α → Test σ Segment β}
    {text : String} (keeps : Keeps record x) (lead note : String)
    (finishes : ∀ a h, ∃ b, (finish a).run h = .ok b (recordStep text h)) (h : Harness σ Segment) :
    Recorded text lead note h
      (Verdict.outcome (tryCatch (x >>= finish) (reported lead note)) h) := by
  have kept := keeps h
  unfold Verdict.outcome at kept ⊢
  rw [Verdict.run_tryCatch, EStateM.run_bind]
  cases ran : x.run h with
  | ok a h' =>
      obtain ⟨b, finished⟩ := finishes a h'
      simp only [ran] at kept
      simp only [finished]
      obtain ⟨steps, cerr⟩ := Prod.mk.inj kept
      refine ⟨fun _ _ => ?_, nofun, nofun⟩
      rw [← steps, ← cerr]
      rfl
  | error failure h' =>
      simp only [ran] at kept
      obtain ⟨steps, cerr⟩ := Prod.mk.inj kept
      cases failure with
      | violation what =>
          refine ⟨nofun, fun what' same => ?_, nofun⟩
          cases same
          rw [← steps, ← cerr]
          rfl
      | exn e => exact ⟨nofun, nofun, fun _ _ => kept⟩

theorem Recorded.map {α β : Type} {text lead note : String} {x : Test σ Segment α}
    (recorded : Recorded text lead note h (Verdict.outcome x h)) (g : α → β) :
    Recorded text lead note h (Verdict.outcome (x >>= fun a => pure (g a)) h) := by
  rw [Verdict.outcome_bind_pure]
  rcases ran : Verdict.outcome x h with ⟨h', failure | a⟩
  · rw [ran] at recorded
    refine ⟨nofun, fun what same => ?_, fun e same => ?_⟩
    · cases same
      exact recorded.violated what rfl
    · cases same
      exact recorded.threw e rfl
  · rw [ran] at recorded
    exact ⟨fun _ _ => recorded.passed a rfl, nofun, nofun⟩

namespace Command

/-- How the report on a command begins. -/
def lead (segs : SegmentClass Segment) (tcp : ConnectionClass σ Segment State) :
    Command State → String
  | .execute step _ => step.text segs tcp ++ "\n\n"
  | .expectSeg one e note =>
      (Command.expectSeg one e note : Command State).step.description segs tcp ++ "\n"

def note : Command State → String
  | .execute _ note => note
  | .expectSeg _ _ note => note

end Command

theorem recorded_command [DecidableEq State] (cmd : Command State) (h : Harness σ Segment) :
    Recorded (cmd.step.text segs tcp) (cmd.lead segs tcp) cmd.note h
      (Verdict.outcome (command segs tcp kernel cmd) h) := by
  cases cmd with
  | execute step note =>
      refine Recorded.map ?_ _
      have keeps : Keeps record (do
          perform segs tcp kernel step
          let h ← get
          flush segs kernel h.fsm.segmentsOut) :=
        (keeps_perform step).bind fun _ => Verdict.keeps_get_bind fun _ => keeps_flush _
      have finishes : ∀ (_ : Unit) (h : Harness σ Segment), ∃ done,
          (modify (recordStep (step.text segs tcp)) : Test σ Segment PUnit).run h =
            .ok done (recordStep (step.text segs tcp) h) := fun _ _ => ⟨_, rfl⟩
      have recorded := recorded_tryCatch keeps (step.text segs tcp ++ "\n\n") note finishes h
      simp only [bind_assoc] at recorded
      exact recorded
  | expectSeg one e note =>
      refine Recorded.map ?_ _
      have keeps : Keeps record (findSegment segs kernel one e : Test σ Segment Segment) :=
        Verdict.keeps_ite (keeps_expectOneSegment segs kernel e)
          (keeps_expectSegment segs kernel e)
      exact recorded_tryCatch keeps _ note (fun _ _ => ⟨_, rfl⟩) h

/-- The texts of the steps of some commands. -/
def texts (segs : SegmentClass Segment) (tcp : ConnectionClass σ Segment State)
    (commands : List (Command State)) : List String :=
  commands.map fun cmd => cmd.step.text segs tcp

/-- A test that returns has recorded all its steps and printed nothing. A violation is
reported by one of its commands, with the steps before it: the test of these alone returns,
and the test that ends with the command does not. -/
theorem recorded_test [DecidableEq State] (segs : SegmentClass Segment)
    (tcp : ConnectionClass σ Segment State) (kernel : SeqPacket) (commands : List (Command State))
    (h : Harness σ Segment) :
    (∀ rets, (Verdict.outcome (test segs tcp kernel commands) h).2 = .ok rets →
      record (Verdict.outcome (test segs tcp kernel commands) h).1 =
        (h.stepsExecuted ++ texts segs tcp commands, h.cerr)) ∧
    (∀ what, (Verdict.outcome (test segs tcp kernel commands) h).2 = .error (.violation what) →
      ∃ before cmd after, commands = before ++ cmd :: after ∧
        (∃ rets, (Verdict.outcome (test segs tcp kernel before) h).2 = .ok rets) ∧
        (Verdict.outcome (test segs tcp kernel (before ++ [cmd])) h).2 =
          .error (.violation what) ∧
        record (Verdict.outcome (test segs tcp kernel commands) h).1 =
          (h.stepsExecuted ++ texts segs tcp before,
            h.cerr ++ report (cmd.lead segs tcp) what cmd.note
              (h.stepsExecuted ++ texts segs tcp before))) := by
  induction commands generalizing h with
  | nil =>
      refine ⟨fun rets _ => ?_, nofun⟩
      rw [texts, List.map_nil, List.append_nil]
      rfl
  | cons cmd commands ih =>
      have recorded : Recorded _ _ _ h (Verdict.outcome (command segs tcp kernel cmd) h) :=
        recorded_command cmd h
      rcases ran : Verdict.outcome (command segs tcp kernel cmd) h with ⟨h', failure | ret⟩
      · rw [ran] at recorded
        have threw : ∀ commands, Verdict.outcome (test segs tcp kernel (cmd :: commands)) h =
            (h', .error failure) := fun _ => Verdict.outcome_bind_of_error ran
        rw [threw]
        refine ⟨nofun, fun what same => ?_⟩
        cases same
        refine ⟨[], cmd, commands, rfl, ⟨[], rfl⟩, congrArg Prod.snd (threw []), ?_⟩
        rw [texts, List.map_nil, List.append_nil]
        exact recorded.violated what rfl
      · rw [ran] at recorded
        obtain ⟨steps, cerr⟩ := Prod.mk.inj (recorded.passed ret rfl)
        have rest : ∀ commands, Verdict.outcome (test segs tcp kernel (cmd :: commands)) h =
            ((Verdict.outcome (test segs tcp kernel commands) h').1,
              (Verdict.outcome (test segs tcp kernel commands) h').2.map (ret :: ·)) :=
          fun _ => (Verdict.outcome_bind_of_ok ran).trans (Verdict.outcome_bind_pure _ _ _)
        obtain ⟨passes, violates⟩ := ih h'
        rw [rest]
        rcases later : Verdict.outcome (test segs tcp kernel commands) h' with ⟨h'', failure | rets⟩
        · rw [later] at violates
          refine ⟨nofun, fun what same => ?_⟩
          cases same
          obtain ⟨before, cmd', after, split, ⟨rets, returned⟩, violated, recorded⟩ :=
            violates what rfl
          refine ⟨cmd :: before, cmd', after, by rw [split]; rfl, ⟨ret :: rets, ?_⟩, ?_, ?_⟩
          · rw [rest, returned]
            rfl
          · rw [List.cons_append, rest, violated]
            rfl
          · rw [steps, cerr, List.append_assoc] at recorded
            exact recorded
        · rw [later] at passes
          refine ⟨fun _ _ => ?_, nofun⟩
          have recorded := passes rets rfl
          rw [steps, cerr, List.append_assoc] at recorded
          exact recorded

/-- The segments of a connection that only ever sends its first one. -/
inductive Opening where
  | syn
  deriving DecidableEq

/-- A segment with the flag `SYN` and the window 64000, in its 20 bytes. -/
def synBytes : Bytes :=
  [0, 0, 0, 0, 0, 0, 0, 0, 0, 0, 0, 0, 0x50, 0x02, 0xfa, 0x00, 0xb5, 0xfc, 0, 0]

def openings : SegmentClass Opening where
  make _ := .syn
  fields _ := ⟨false, false, true, false, 0, 0, 64000, []⟩
  lengthInSequenceSpace _ := 1
  withPorts _ _ seg := seg
  serialize _ := .ofString synBytes (by decide)
  parse packet := (.syn, if packet = synBytes then .noError else .packetTooShort)
  summary _ := "Header(flags=S,seqno=0,ackno=0,win=64000)"
  text n := toString n.toNat
  maxPayloadSize := 1000
  headerLength := 20
  sourcePort := 0
  destinationPort := 0

/-- A connection that is asked to connect, and hears nothing. Its state is whether it was. -/
def opener : ConnectionClass Bool Opening Bool where
  segmentReceived _ c := (c, .ok ())
  write _ c := (c, .ok 0)
  tick _ c := (c, .ok ())
  connect c := (⟨true, c.segmentsOut ++ [.syn]⟩, .ok ())
  endInputStream c := (c, .ok ())
  inboundEmpty _ := true
  inboundSize _ := 0
  inboundRead _ c := (c, .ok [])
  state c := c.rest
  bytesInFlight c := if c.rest then 1 else 0
  unassembledBytes _ := 0
  timeSinceLastSegmentReceived _ := 0
  stateName state := if state then "SYN_SENT" else "CLOSED"

/-- A socket pair whose calls do not fail. -/
def idealPair : SeqPacket where
  sendmsg _ _ packet := if packet.length < 2 ^ 31 then ⟨packet.length, 0⟩ else ⟨-1, 90⟩
  peek _ packets := match packets with
    | [] => ⟨-1, eagain⟩
    | packet :: _ => ⟨(min 1 packet.length : Nat), 0⟩
  recv _ packets size := match packets with
    | [] => (⟨-1, eagain⟩, [])
    | packet :: _ => (⟨packet.length, 0⟩, packet.take size)

theorem idealPair_contract : SeqPacketContract idealPair := by
  refine ⟨fun n packets packet => ?_, fun n => ⟨rfl, by simp [idealPair]⟩,
    fun n packet packets => .inl rfl, fun n packet packets size => .inl ⟨rfl, ?_⟩⟩
  · by_cases small : packet.length < 2 ^ 31
    · have taken : idealPair.sendmsg n packets packet = ⟨packet.length, 0⟩ := if_pos small
      rw [taken]
      exact .inl ⟨rfl, small⟩
    · have failed : idealPair.sendmsg n packets packet = ⟨-1, 90⟩ := if_neg small
      rw [failed]
      exact .inr ⟨rfl, by decide⟩
  · show (packet.take size).take _ = _
    rw [List.take_take, Nat.min_eq_left (Nat.min_le_left _ _)]

/-- The member function `in_syn_sent`: the commands that it runs. -/
def inSynSent (txIsn : UInt32) : List (Command State) :=
  [.execute .connect "",
    .execute (.expectOneSegment
      { ack := some false, rst := some false, syn := some true, fin := some false,
        seqno := some txIsn, payloadSize := some 0 }) ""]

def unconnected : Harness Bool Opening := ⟨⟨⟨4, false, false, 0, 0⟩, [], 0⟩, ⟨false, []⟩, [], ""⟩

end TCPTestHarness

end Sponge
