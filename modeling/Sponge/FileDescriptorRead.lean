import Sponge.FileDescriptorOwnership

/-!
# Reading a stream to its end

`read` asks the kernel for at most a mebibyte, takes an answer of zero bytes for
the end of the stream only if it had asked for some, and counts every call in
the wrapper that all duplicates share. `Input` is a table of descriptors with
what the kernel has yet to deliver on one of them; the condition on the kernel
(`Answers`) is that of a byte stream, which may be delivered in pieces of any
size. What the calls return is then the stream, and the flag of the wrapper is
set exactly by the call that finds its end.
-/

namespace Sponge

namespace FileDescriptor

/-! ## Reads through handles -/

/-- A read through a handle, on the wrapper that the handle points to. -/
def Table.read (t : Table) (h limit : Nat) (call : SysResult) (data : Bytes) :
    Table × Option (Except Exn Bytes) :=
  match t.handles[h]? with
  | some (some id) =>
      match t.wrappers[id]? with
      | some w =>
          ({ t with wrappers := t.wrappers.set id (FileDescriptor.read w limit call data).1 },
            some (FileDescriptor.read w limit call data).2)
      | none => (t, none)
  | _ => (t, none)

/-- The wrapper that a handle points to. -/
def Table.wrapperOf (t : Table) (h : Nat) : Option FDWrapper :=
  match t.handles[h]? with
  | some (some id) => t.wrappers[id]?
  | _ => none

/-- The member function `eof` of a handle. -/
def Table.eof (t : Table) (h : Nat) : Option Bool := (t.wrapperOf h).map FDWrapper.eof

/-- The member function `read_count` of a handle. -/
def Table.readCount (t : Table) (h : Nat) : Option UInt32 :=
  (t.wrapperOf h).map FDWrapper.readCount

/-- The descriptors of a program, and the bytes that the kernel has yet to
deliver on the number of one wrapper. -/
structure Input where
  table : Table
  remaining : Bytes

/-- What is done with the handles; a read carries the kernel's answer and what
it stored in the string. -/
inductive Access where
  | duplicate (h : Nat)
  | read (h limit : Nat) (call : SysResult) (data : Bytes)

/-- The handle that an access goes through. -/
def Access.handle : Access → Nat
  | .duplicate h => h
  | .read h _ _ _ => h

def Access.isRead : Access → Bool
  | .duplicate _ => false
  | .read _ _ _ _ => true

/-- A call that asked for some bytes and was answered with none. -/
def Access.foundEnd : Access → Bool
  | .duplicate _ => false
  | .read _ limit call _ => 0 < limit && call.returnValue = 0

namespace Input

def step (s : Input) : Access → Input × Option (Except Exn Bytes)
  | .duplicate h => (⟨(s.table.step (.duplicate h)).1, s.remaining⟩, none)
  | .read h limit call data =>
      (⟨(s.table.read h limit call data).1, s.remaining.drop call.returnValue.toNat⟩,
        (s.table.read h limit call data).2)

end Input

/-- The contract of `read(2)` on a stream. A call for some bytes returns some of
the next ones while there are any, and a call for none returns none. -/
structure Answers (remaining : Bytes) (size : Nat) (call : SysResult) (data : Bytes) : Prop where
  succeeded : 0 ≤ call.returnValue
  requested : call.returnValue ≤ size
  available : call.returnValue.toNat ≤ remaining.length
  progress : 0 < size → remaining ≠ [] → 0 < call.returnValue
  stored : data.take call.returnValue.toNat = remaining.take call.returnValue.toNat

/-- The condition on one access: it goes through a handle on wrapper `id`, and
the kernel keeps its contract. -/
def Answered (id : Nat) (s : Input) (access : Access) : Prop :=
  s.table.handles[access.handle]? = some (some id) ∧
    match access with
    | .duplicate _ => True
    | .read _ limit call data => Answers s.remaining (min bufferSize limit) call data

/-- What an access returns. A read gives a string that is as long as the kernel
said, which is within the limits, and which the wrapper of the system call let
through unchanged. -/
def Returns (access : Access) (result : Option (Except Exn Bytes)) : Prop :=
  match access with
  | .duplicate _ => result = none
  | .read _ limit call _ =>
      ∃ str, result = some (.ok str) ∧ str.length ≤ min limit 1048576 ∧
        systemCall "read" call = .ok (str.length : Int) ∧ call.returnValue = str.length

/-- The strings returned, one after the other. -/
def delivered (results : List (Option (Except Exn Bytes))) : Bytes :=
  results.flatMap fun
    | some (.ok str) => str
    | _ => []

/-! ## One read -/

variable {remaining data : Bytes} {limit : Nat} {call : SysResult}

theorem take_takeD {n size : Nat} (le : n ≤ size) (data : Bytes) :
    (data.takeD size 0).take n = data.takeD n 0 := by
  induction n generalizing size data with
  | zero => simp
  | succ n ih =>
      obtain ⟨size, rfl⟩ : ∃ k, size = k + 1 := ⟨size - 1, by omega⟩
      rw [List.takeD_succ, List.takeD_succ, List.take_succ_cons, ih (by omega)]

/-- The two calls of `resize` around the system call cut the string to what the
kernel stored. -/
theorem resize_stored {n size : Nat} (small : n ≤ maxSize) (le : n ≤ size)
    (available : n ≤ remaining.length) (stored : data.take n = remaining.take n) :
    resize (data.takeD size 0) n = .ok (remaining.take n) := by
  have filled : n ≤ data.length := by
    have length := congrArg List.length stored
    rw [List.length_take, List.length_take] at length
    omega
  have inside : n ≤ (data.takeD size 0).length := by rwa [List.takeD_length]
  rw [resize, if_pos small, List.takeD_eq_take _ inside, take_takeD le,
    List.takeD_eq_take _ filled, stored]

/-- A read under the contract. -/
theorem read_answered (w : FDWrapper)
    (answers : Answers remaining (min bufferSize limit) call data) :
    read w limit call data =
      ({ w with
          eof := w.eof || (0 < limit && call.returnValue = 0)
          readCount := w.readCount + 1 },
        .ok (remaining.take call.returnValue.toNat)) := by
  obtain ⟨succeeded, requested, available, -, stored⟩ := answers
  have capped : min bufferSize limit ≤ 1048576 := Nat.min_le_left _ _
  have passed : systemCall "read" call = .ok call.returnValue :=
    systemCall_of_nonneg succeeded (by omega)
  have size : toSsize (min bufferSize limit) = (min bufferSize limit : Nat) :=
    toSsize_of_lt (by omega)
  have count : toSize call.returnValue = call.returnValue.toNat := by
    rw [← Int.toNat_of_nonneg succeeded, toSize_natCast (by unfold sizeModulus; omega)]
    rfl
  have cut : resize (data.takeD (min bufferSize limit) 0) call.returnValue.toNat =
      .ok (remaining.take call.returnValue.toNat) :=
    resize_stored (by unfold maxSize; omega) (by omega) available stored
  unfold read
  simp only [passed]
  rw [if_neg (by rw [size]; omega), count, cut]
  by_cases ended : 0 < limit ∧ call.returnValue = 0
  · rw [if_pos ended]
    simp [FDWrapper.registerRead, ended]
  · rw [if_neg ended]
    have flag : (decide (0 < limit) && decide (call.returnValue = 0)) = false := by
      rw [← Bool.decide_and, decide_eq_false ended]
    simp only [FDWrapper.registerRead, flag, Bool.or_false]

/-- A call for some bytes that is answered with none has met the end. -/
theorem Answers.ended (answers : Answers remaining (min bufferSize limit) call data)
    (asked : 0 < limit) (nothing : call.returnValue = 0) : remaining = [] := by
  by_contra more
  have some := answers.progress (Nat.lt_min.mpr ⟨by decide, asked⟩) more
  omega

/-! ## Sequences of reads -/

/-- The wrapper after an access. -/
def accessed (w : FDWrapper) (access : Access) : FDWrapper :=
  { w with
    eof := w.eof || access.foundEnd
    readCount := w.readCount + if access.isRead then 1 else 0 }

theorem delivered_cons (result : Option (Except Exn Bytes))
    (results : List (Option (Except Exn Bytes))) :
    delivered (result :: results) = delivered [result] ++ delivered results := by
  simp [delivered]

/-- What one access does to the wrapper and to the stream. -/
theorem step_answered {id : Nat} {s : Input} {w : FDWrapper} {access : Access}
    (here : s.table.wrappers[id]? = some w) (answered : Answered id s access) :
    (s.step access).1.table.wrappers[id]? = some (accessed w access) ∧
      Returns access (s.step access).2 ∧
      delivered [(s.step access).2] ++ (s.step access).1.remaining = s.remaining ∧
      (access.foundEnd = true → s.remaining = []) := by
  obtain ⟨pointer, answers⟩ := answered
  obtain ⟨bound, -⟩ := List.getElem?_eq_some_iff.mp here
  cases access with
  | duplicate h =>
      have pointer : s.table.handles[h]? = some (some id) := pointer
      have kept : (s.table.step (.duplicate h)).1.wrappers = s.table.wrappers := by
        rw [Table.step, pointer]
      refine ⟨?_, rfl, rfl, nofun⟩
      show (s.table.step (.duplicate h)).1.wrappers[id]? = _
      rw [kept, here]
      simp [accessed, Access.foundEnd, Access.isRead]
  | read h limit call data =>
      have pointer : s.table.handles[h]? = some (some id) := pointer
      have answers : Answers s.remaining (min bufferSize limit) call data := answers
      have through : s.table.read h limit call data =
          ({ s.table with
              wrappers := s.table.wrappers.set id (accessed w (.read h limit call data)) },
            some (.ok (s.remaining.take call.returnValue.toNat))) := by
        rw [Table.read, pointer]
        simp only [here, read_answered w answers]
        rfl
      have length : (s.remaining.take call.returnValue.toNat).length = call.returnValue.toNat :=
        List.length_take_of_le answers.available
      have succeeded := answers.succeeded
      have requested := answers.requested
      have capped : min bufferSize limit = min limit 1048576 := Nat.min_comm _ _
      have count : ((call.returnValue.toNat : Nat) : Int) = call.returnValue :=
        Int.toNat_of_nonneg succeeded
      simp only [Input.step, through]
      refine ⟨List.getElem?_set_self bound, ?_, ?_, ?_⟩
      · refine ⟨_, rfl, ?_, ?_, ?_⟩
        · rw [length]
          omega
        · rw [length, count]
          exact systemCall_of_nonneg succeeded (by omega)
        · rw [length, count]
      · simp [delivered]
      · intro found
        simp only [Access.foundEnd, Bool.and_eq_true, decide_eq_true_eq] at found
        exact answers.ended found.1 found.2

/-- The invariant of a sequence of accesses, over the wrapper it starts with. -/
theorem run_answered {id : Nat} {accesses : List Access} {s : Input} {w : FDWrapper}
    (here : s.table.wrappers[id]? = some w)
    (answered : Runs.Along Input.step (Answered id) s accesses) :
    (Runs.run Input.step s accesses).1.table.wrappers[id]? = some (accesses.foldl accessed w) ∧
      List.Forall₂ Returns accesses (Runs.run Input.step s accesses).2 ∧
      delivered (Runs.run Input.step s accesses).2 ++
        (Runs.run Input.step s accesses).1.remaining = s.remaining ∧
      (accesses.any Access.foundEnd = true →
        (Runs.run Input.step s accesses).1.remaining = []) := by
  induction accesses generalizing s w with
  | nil => exact ⟨here, .nil, rfl, nofun⟩
  | cons access accesses ih =>
      obtain ⟨first, rest⟩ := answered
      obtain ⟨next, returns, stream, ends⟩ := step_answered here first
      obtain ⟨final, results, stream', ends'⟩ := ih next rest
      rw [Runs.run_cons]
      refine ⟨final, .cons returns results, ?_, ?_⟩
      · rw [delivered_cons, List.append_assoc, stream', stream]
      · intro found
        rw [List.any_cons, Bool.or_eq_true] at found
        rcases found with now | later
        · rw [ends now] at stream
          rw [(List.append_eq_nil_iff.mp stream).2] at stream'
          exact (List.append_eq_nil_iff.mp stream').2
        · exact ends' later

theorem foldl_accessed_eof (accesses : List Access) (w : FDWrapper) :
    (accesses.foldl accessed w).eof = (w.eof || accesses.any Access.foundEnd) := by
  induction accesses generalizing w with
  | nil => simp
  | cons access accesses ih =>
      rw [List.foldl_cons, ih, List.any_cons, ← Bool.or_assoc]
      rfl

theorem foldl_accessed_readCount (accesses : List Access) (w : FDWrapper) :
    (accesses.foldl accessed w).readCount =
      w.readCount + UInt32.ofNat (accesses.countP Access.isRead) := by
  induction accesses generalizing w with
  | nil => simp
  | cons access accesses ih =>
      rw [List.foldl_cons, ih, List.countP_cons]
      cases access with
      | duplicate h => simp [accessed, Access.isRead]
      | read h limit call data =>
          simp only [accessed, Access.isRead, if_true]
          rw [UInt32.ofNat_add, UInt32.add_assoc, UInt32.add_comm 1]
          rfl

/-- **Reading until end of file delivers the stream.** Let any number of handles
share a wrapper whose flag is not set, and let the kernel deliver `stream` on its
number. After any sequence of reads through these handles and of duplications,
which may be any part of a longer one: what was returned is a prefix of the
stream; every call has returned what the kernel delivered, within its limits;
`eof` is set on every handle exactly if some call with a positive limit got no
bytes, and then the whole stream was returned; `read_count` has gone up by one
for each read. -/
theorem reads_deliver_stream {id : Nat} {t : Table} {w : FDWrapper} {stream : Bytes}
    {accesses : List Access} (here : t.wrappers[id]? = some w) (fresh : w.eof = false)
    (answered : Runs.Along Input.step (Answered id) ⟨t, stream⟩ accesses) :
    let final := Runs.run Input.step ⟨t, stream⟩ accesses
    delivered final.2 <+: stream ∧
    List.Forall₂ Returns accesses final.2 ∧
    (∀ h, final.1.table.handles[h]? = some (some id) →
      final.1.table.eof h = some (accesses.any Access.foundEnd) ∧
      final.1.table.readCount h =
        some (w.readCount + UInt32.ofNat (accesses.countP Access.isRead))) ∧
    (accesses.any Access.foundEnd = true → delivered final.2 = stream) := by
  intro final
  obtain ⟨wrapper, returns, whole, ends⟩ := run_answered here answered
  refine ⟨⟨_, whole⟩, returns, ?_, ?_⟩
  · intro h pointer
    have shared : final.1.table.wrapperOf h = some (accesses.foldl accessed w) := by
      rw [Table.wrapperOf, pointer]
      exact wrapper
    rw [Table.eof, Table.readCount, shared, Option.map_some, Option.map_some,
      foldl_accessed_eof, foldl_accessed_readCount, fresh, Bool.false_or]
    exact ⟨rfl, rfl⟩
  · intro found
    rwa [ends found, List.append_nil] at whole

/-- Three bytes, read through two handles in pieces, with a call for none in
between. -/
theorem reads_deliver_stream_threeBytes :
    let t := (Table.empty.construct 3).1
    let accesses : List Access := [.read 0 2 ⟨2, 0⟩ [1, 2], .duplicate 0, .read 1 0 ⟨0, 0⟩ [],
      .read 1 (2 ^ 64 - 1) ⟨1, 0⟩ [3, 9], .read 0 5 ⟨0, 0⟩ []]
    let final := Runs.run Input.step ⟨t, [1, 2, 3]⟩ accesses
    final.1.table.eof 1 = some true ∧ final.1.table.readCount 1 = some 4 ∧
    delivered final.2 = [1, 2, 3] := by
  intro t accesses final
  have answered : Runs.Along Input.step (Answered 0) ⟨t, [1, 2, 3]⟩ accesses := by
    refine ⟨⟨rfl, ?_⟩, ⟨rfl, trivial⟩, ⟨rfl, ?_⟩, ⟨rfl, ?_⟩, ⟨rfl, ?_⟩, trivial⟩
    · exact ⟨by decide, by decide, by decide, by decide, by decide⟩
    · exact ⟨by decide, by decide, by decide, by decide, by decide⟩
    · exact ⟨by decide, by decide, by decide, by decide, by decide⟩
    · exact ⟨by decide, by decide, by decide, by decide, by decide⟩
  obtain ⟨-, -, handles, whole⟩ := reads_deliver_stream (w := ⟨3, false, false, 0, 0⟩) rfl rfl
    answered
  obtain ⟨eof, count⟩ := handles 1 rfl
  exact ⟨eof, count, whole rfl⟩

end FileDescriptor

end Sponge
