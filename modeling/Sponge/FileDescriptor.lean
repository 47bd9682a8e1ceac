import Sponge.Buffer

/-!
# File descriptors

`FileDescriptor` and its `FDWrapper` of `file_descriptor.hh` and
`file_descriptor.cc`. All duplicates of a descriptor share one wrapper, which
holds the kernel's number, the two flags and the two counters; the member
functions are modelled as functions of that wrapper. What the kernel does in a
system call is an argument.
-/

namespace Sponge

/-- The object that all duplicates of a descriptor share. The kernel's number is
not negative. -/
structure FDWrapper where
  fd : Nat
  eof : Bool
  closed : Bool
  readCount : UInt32
  writeCount : UInt32
  deriving DecidableEq, Repr

namespace FDWrapper

/-- The constructor. -/
def make (fd : Int) : Except Exn FDWrapper :=
  if fd < 0 then
    .error (.runtimeError ("invalid fd number:" ++ toString fd))
  else
    .ok ⟨fd.toNat, false, false, 0, 0⟩

/-- The member function `close`: it makes the system call, whatever the flags say. -/
def close (w : FDWrapper) (call : SysResult) : FDWrapper × Except Exn Unit :=
  match systemCall "close" call with
  | .error e => (w, .error e)
  | .ok _ => ({ w with eof := true, closed := true }, .ok ())

def registerRead (w : FDWrapper) : FDWrapper := { w with readCount := w.readCount + 1 }

def registerWrite (w : FDWrapper) : FDWrapper := { w with writeCount := w.writeCount + 1 }

end FDWrapper

namespace FileDescriptor

/-! ## Reading -/

/-- The maximum size of a read. -/
def bufferSize : Nat := 1024 * 1024

/-- The member function `max_size` of `std::string`, as libstdc++ has it. -/
def maxSize : Nat := 2 ^ 62 - 1

/-- The member function `resize` of `std::string`. -/
def resize (s : Bytes) (n : Nat) : Except Exn Bytes :=
  if n ≤ maxSize then .ok (s.takeD n 0)
  else .error (.lengthError "basic_string::_M_replace_aux")

/-- Read up to `limit` bytes. `data` is what the kernel stored in the string. -/
def read (w : FDWrapper) (limit : Nat) (call : SysResult) (data : Bytes) :
    FDWrapper × Except Exn Bytes :=
  let sizeToRead := min bufferSize limit
  match systemCall "read" call with
  | .error e => (w, .error e)
  | .ok bytesRead =>
      let w := if limit > 0 ∧ bytesRead = 0 then { w with eof := true } else w
      if bytesRead > toSsize sizeToRead then
        (w, .error (.runtimeError "read() read more than requested"))
      else
        match resize (data.takeD sizeToRead 0) (toSize bytesRead) with
        | .error e => (w, .error e)
        | .ok str => (w.registerRead, .ok str)

/-! ## Writing -/

/-- The kernel's answer to the `n`-th `writev` call, given the regions passed to it. -/
abbrev Writev := Nat → List Iovec → SysResult

/-- The bytes that a `writev` call has taken over: the first ones of the regions. -/
def acceptedBy (call : SysResult) (iovecs : List Iovec) : Bytes :=
  (iovecs.flatMap Iovec.bytes).take call.returnValue.toNat

/-- The variables of `write`, with the bytes that the kernel has accepted and the
number of calls made so far. -/
structure WriteState where
  wrapper : FDWrapper
  buffer : BufferViewList
  totalBytesWritten : Nat
  accepted : Bytes
  calls : Nat

/-- One iteration of the loop of `write`. The second component is `none` when the
loop goes on. -/
def writeBody (writev : Writev) (writeAll : Bool) (s : WriteState) :
    WriteState × Option (Except Exn Nat) :=
  let iovecs := s.buffer.asIovecs
  let call := writev s.calls iovecs
  let s := { s with
    accepted := s.accepted ++ acceptedBy call iovecs
    calls := s.calls + 1 }
  match systemCall "writev" call with
  | .error e => (s, some (.error e))
  | .ok bytesWritten =>
      if bytesWritten = 0 ∧ s.buffer.size ≠ 0 then
        (s, some (.error (.runtimeError "write returned 0 given non-empty input buffer")))
      else if bytesWritten > toSsize s.buffer.size then
        (s, some (.error (.runtimeError "write wrote more than length of input buffer")))
      else
        let s := { s with wrapper := s.wrapper.registerWrite }
        let removed := s.buffer.removePrefix (toSize bytesWritten)
        let s := { s with buffer := removed.1 }
        match removed.2 with
        | .error e => (s, some (.error e))
        | .ok () =>
            let s := { s with
              totalBytesWritten := sizeAdd s.totalBytesWritten (toSize bytesWritten) }
            if writeAll ∧ s.buffer.size ≠ 0 then
              (s, none)
            else
              (s, some (.ok s.totalBytesWritten))

/-- A non-zero `int` result is a non-zero `size_t`. -/
theorem toSize_ne_zero {attempt : String} {call : SysResult} {v : Int}
    (returned : systemCall attempt call = .ok v) (nonzero : v ≠ 0) : toSize v ≠ 0 := by
  unfold systemCall at returned
  split at returned
  · cases returned
    have low : -(2 ^ 31) ≤ toInt call.returnValue := Int.le_bmod (by decide)
    have high : toInt call.returnValue < 2 ^ 31 := Int.bmod_lt (by decide)
    unfold toSize sizeModulus
    omega
  · cases returned

/-- An iteration after which the loop goes on has made the buffer shorter,
whatever the kernel answered. -/
theorem writeBody_shrinks {writev : Writev} {writeAll : Bool} {s : WriteState}
    (again : (writeBody writev writeAll s).2 = none) :
    (writeBody writev writeAll s).1.buffer.str.length < s.buffer.str.length := by
  cases returned : systemCall "writev" (writev s.calls s.buffer.asIovecs) with
  | error e => simp [writeBody, returned] at again
  | ok n =>
      simp only [writeBody, returned] at again ⊢
      split at again
      · cases again
      · next progress =>
        split at again
        · cases again
        · next short =>
          rw [if_neg progress, if_neg short]
          rcases Nat.lt_or_ge s.buffer.str.length (toSize n) with long | le
          · simp [BufferViewList.removePrefix_of_gt long] at again
          · obtain ⟨ok, left⟩ := BufferViewList.removePrefix_of_le le
            simp only [ok] at again ⊢
            split at again
            · next more =>
              rw [if_pos more]
              have nonzero : n ≠ 0 := by
                rintro rfl
                rw [show toSize 0 = 0 from rfl, BufferViewList.removePrefix_zero] at more
                exact progress ⟨rfl, more.2⟩
              have positive := toSize_ne_zero returned nonzero
              rw [left, List.length_drop]
              omega
            · cases again

/-- The loop of `write`. -/
def writeLoop (writev : Writev) (writeAll : Bool) (s : WriteState) :
    WriteState × Except Exn Nat :=
  match _body : writeBody writev writeAll s with
  | (s', some result) => (s', result)
  | (s', none) => writeLoop writev writeAll s'
termination_by s.buffer.str.length
decreasing_by
  have shrinks := writeBody_shrinks (s := s) (by rw [_body])
  rwa [_body] at shrinks

/-- Write a buffer, or a part of it unless `writeAll` is set. -/
def write (writev : Writev) (w : FDWrapper) (buffer : BufferViewList) (writeAll : Bool := true) :
    WriteState × Except Exn Nat :=
  writeLoop writev writeAll ⟨w, buffer, 0, [], 0⟩

end FileDescriptor

end Sponge
