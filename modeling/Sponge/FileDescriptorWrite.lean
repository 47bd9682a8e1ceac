import Sponge.FileDescriptor

/-!
# `FileDescriptor::write` under short writes

The kernel may take over any number of the bytes offered to it in each `writev`
call. `Contract` is all that is assumed of it. One iteration of the loop is then
one of three things, listed by `WriteStep`, and each keeps the bytes accepted so
far and the buffer left together the original data.
-/

namespace Sponge

namespace FileDescriptor

/-- What is assumed of `writev`: a successful call accepts no more than it was
offered and no more than the kernel's limit, and a failing one sets `errno`. -/
def Writev.Contract (writev : Writev) : Prop :=
  ∀ n iovecs,
    (0 ≤ (writev n iovecs).returnValue ∧
      (writev n iovecs).returnValue ≤ min ((iovecs.map Iovec.len).sum : Int) 0x7ffff000) ∨
    ((writev n iovecs).returnValue = -1 ∧ (writev n iovecs).errno ≠ 0)

/-- What one iteration can do: the call failed, or it accepted nothing of a
non-empty buffer, or it accepted the first `r` bytes. -/
inductive WriteStep (writeAll : Bool) (s : WriteState) :
    WriteState × Option (Except Exn Nat) → Prop
  | failed (errno : Int) :
      WriteStep writeAll s
        ({ s with calls := s.calls + 1 }, some (.error (.unixError "writev" errno)))
  | stalled :
      WriteStep writeAll s
        ({ s with calls := s.calls + 1 },
          some (.error (.runtimeError "write returned 0 given non-empty input buffer")))
  | wrote (r : Nat) (buffer : BufferViewList) :
      r ≤ s.buffer.str.length → (r = 0 → s.buffer.str.length = 0) →
      buffer.str = s.buffer.str.drop r →
      WriteStep writeAll s
        (⟨s.wrapper.registerWrite, buffer, s.totalBytesWritten + r,
            s.accepted ++ s.buffer.str.take r, s.calls + 1⟩,
          if writeAll ∧ buffer.str.length ≠ 0 then none else some (.ok (s.totalBytesWritten + r)))

/-- The accepted bytes and the rest make up the data, and are counted. -/
structure Balanced (data : Bytes) (s : WriteState) : Prop where
  split : s.accepted ++ s.buffer.str = data
  counted : s.totalBytesWritten = s.accepted.length

variable {writev : Writev} {writeAll : Bool} {data : Bytes} {s : WriteState}

theorem Balanced.length_le (balanced : Balanced data s) :
    s.totalBytesWritten + s.buffer.str.length = data.length := by
  rw [balanced.counted, ← balanced.split, List.length_append]

/-- Every iteration is one of the three steps. -/
theorem writeBody_step (contract : writev.Contract) (fits : data.length < 2 ^ 63)
    (balanced : Balanced data s) : WriteStep writeAll s (writeBody writev writeAll s) := by
  have total := balanced.length_le
  have size : s.buffer.size = s.buffer.str.length :=
    BufferViewList.size_eq_length (by unfold sizeModulus; omega)
  rcases contract s.calls s.buffer.asIovecs with ⟨low, high⟩ | ⟨failed, error⟩
  · rw [BufferViewList.sum_len_asIovecs, Int.le_min] at high
    obtain ⟨r, returned⟩ := Int.eq_ofNat_of_zero_le low
    have called : systemCall "writev" (writev s.calls s.buffer.asIovecs) = .ok (r : Int) := by
      rw [systemCall_of_nonneg low (by omega), returned]
    have accepted : acceptedBy (writev s.calls s.buffer.asIovecs) s.buffer.asIovecs =
        s.buffer.str.take r := by
      unfold acceptedBy
      rw [returned, BufferViewList.flatMap_asIovecs, Int.toNat_natCast]
    simp only [writeBody, called, accepted, size]
    rw [returned] at high
    split
    · next stalled =>
      obtain rfl : r = 0 := by omega
      rw [List.take_zero, List.append_nil]
      exact .stalled
    · next progress =>
      have inside : r ≤ s.buffer.str.length := by omega
      rw [if_neg (by rw [toSsize_of_lt (by omega)]; omega),
        toSize_natCast (by unfold sizeModulus; omega)]
      obtain ⟨ok, left⟩ := BufferViewList.removePrefix_of_le inside
      have sizeLeft : (s.buffer.removePrefix r).1.size = (s.buffer.removePrefix r).1.str.length :=
        BufferViewList.size_eq_length (by rw [left, List.length_drop]; unfold sizeModulus; omega)
      simp only [ok]
      rw [sizeAdd_of_lt (by unfold sizeModulus; omega), sizeLeft]
      have step := @WriteStep.wrote writeAll s r _ inside (by omega) left
      split at step
      · next more =>
        rw [if_pos more]
        exact step
      · next last =>
        rw [if_neg last]
        exact step
  · have called := systemCall_of_failed "writev" failed error
    have accepted : acceptedBy (writev s.calls s.buffer.asIovecs) s.buffer.asIovecs = [] := by
      unfold acceptedBy
      rw [failed]
      rfl
    simp only [writeBody, called, accepted, List.append_nil]
    exact .failed _

theorem WriteStep.balanced {next : WriteState × Option (Except Exn Nat)}
    (step : WriteStep writeAll s next) (balanced : Balanced data s) : Balanced data next.1 := by
  cases step with
  | failed errno => exact ⟨balanced.split, balanced.counted⟩
  | stalled => exact ⟨balanced.split, balanced.counted⟩
  | wrote r buffer inside progress left =>
      refine ⟨?_, ?_⟩
      · show s.accepted ++ s.buffer.str.take r ++ buffer.str = data
        rw [left, List.append_assoc, List.take_append_drop, balanced.split]
      · show s.totalBytesWritten + r = (s.accepted ++ s.buffer.str.take r).length
        rw [balanced.counted, List.length_append, List.length_take_of_le inside]

/-- What a run of the loop achieves, from a state whose buffer is `left` bytes long. -/
structure Written (writeAll : Bool) (data : Bytes) (s : WriteState) (left : Nat)
    (final : WriteState × Except Exn Nat) : Prop where
  balanced : Balanced data final.1
  returned : ∀ n, final.2 = .ok n →
    n = final.1.accepted.length ∧ (writeAll = true → final.1.buffer.str = [])
  threw : ∀ e, final.2 = .error e → (∃ errno, e = .unixError "writev" errno) ∨
    e = .runtimeError "write returned 0 given non-empty input buffer"
  called : s.calls + 1 ≤ final.1.calls ∧ final.1.calls ≤ s.calls + max 1 left
  once : writeAll = false → final.1.calls = s.calls + 1

/-- The loop ends in such a state: by induction on the length of the buffer left. -/
theorem writeLoop_written (contract : writev.Contract) (fits : data.length < 2 ^ 63)
    (balanced : Balanced data s) :
    Written writeAll data s s.buffer.str.length (writeLoop writev writeAll s) := by
  induction left : s.buffer.str.length using Nat.strongRecOn generalizing s with
  | ind left_ ih =>
      subst left
      have step : WriteStep writeAll s _ := writeBody_step contract fits balanced
      have balanced' := step.balanced balanced
      rw [writeLoop]
      generalize writeBody writev writeAll s = next at step balanced'
      cases step with
      | failed errno =>
          exact ⟨balanced', by simp, fun e thrown => Or.inl ⟨errno, by cases thrown; rfl⟩,
            ⟨le_refl _, by simp⟩, fun _ => rfl⟩
      | stalled =>
          exact ⟨balanced', by simp, fun e thrown => Or.inr (by cases thrown; rfl),
            ⟨le_refl _, by simp⟩, fun _ => rfl⟩
      | wrote r buffer inside progress rest =>
          have shorter : buffer.str.length = s.buffer.str.length - r := by
            rw [rest, List.length_drop]
          by_cases more : writeAll = true ∧ buffer.str.length ≠ 0
          · rw [if_pos more]
            have wrote : r ≠ 0 := fun zero => more.2 (by rw [shorter, progress zero]; omega)
            have final := ih buffer.str.length (by omega) balanced' rfl
            obtain ⟨first, last⟩ := final.called
            refine ⟨final.balanced, final.returned, final.threw, ⟨?_, ?_⟩, ?_⟩
            · show s.calls + 1 ≤ _
              exact Nat.le_of_succ_le first
            · apply last.trans
              show s.calls + 1 + max 1 buffer.str.length ≤ _
              omega
            · intro single
              rw [single] at more
              cases more.1
          · rw [if_neg more]
            refine ⟨balanced', fun n done => ?_, by simp, ⟨le_refl _, ?_⟩, fun _ => rfl⟩
            · cases done
              refine ⟨balanced'.counted, fun all => ?_⟩
              exact List.eq_nil_of_length_eq_zero (by_contra fun nonempty => more ⟨all, nonempty⟩)
            · show s.calls + 1 ≤ _
              omega

/-- **`write` neither loses, duplicates nor reorders bytes.** For every kernel
that keeps the contract and every list of views: if `write` with `writeAll`
returns, it returns the size of the buffer and the kernel has accepted exactly
its bytes; without `writeAll`, one call was made and the first `n` bytes were
accepted; if it throws, a prefix was, and the exception is that of the system
call or of a stalled one, never that of `remove_prefix`. Every iteration that is
repeated has shortened the buffer, so there are at most `max 1 size` calls. -/
theorem write_accepted (contract : writev.Contract) (w : FDWrapper) (buffer : BufferViewList)
    (fits : buffer.str.length < 2 ^ 63) :
    (∀ n, (write writev w buffer true).2 = .ok n →
      n = buffer.size ∧ (write writev w buffer true).1.accepted = buffer.str) ∧
    (∀ n, (write writev w buffer false).2 = .ok n →
      (write writev w buffer false).1.calls = 1 ∧ n ≤ buffer.str.length ∧
        (write writev w buffer false).1.accepted = buffer.str.take n) ∧
    (∀ writeAll e, (write writev w buffer writeAll).2 = .error e →
      (write writev w buffer writeAll).1.accepted <+: buffer.str ∧
        ((∃ errno, e = .unixError "writev" errno) ∨
          e = .runtimeError "write returned 0 given non-empty input buffer")) ∧
    (∀ writeAll s, (writeBody writev writeAll s).2 = none →
      (writeBody writev writeAll s).1.buffer.str.length < s.buffer.str.length) ∧
    (∀ writeAll, (write writev w buffer writeAll).1.calls ≤ max 1 buffer.str.length) := by
  have start : Balanced buffer.str ⟨w, buffer, 0, [], 0⟩ := ⟨rfl, rfl⟩
  have written : ∀ writeAll, Written writeAll buffer.str ⟨w, buffer, 0, [], 0⟩ buffer.str.length
      (write writev w buffer writeAll) :=
    fun writeAll => writeLoop_written contract fits start
  refine ⟨fun n done => ?_, fun n done => ?_, fun writeAll e thrown => ?_,
    fun writeAll s => writeBody_shrinks, fun writeAll => ?_⟩
  · obtain ⟨counted, emptied⟩ := (written true).returned n done
    have split := (written true).balanced.split
    rw [emptied rfl, List.append_nil] at split
    refine ⟨?_, split⟩
    rw [counted, split, BufferViewList.size_eq_length (by unfold sizeModulus; omega)]
  · obtain ⟨counted, -⟩ := (written false).returned n done
    have split := (written false).balanced.split
    refine ⟨(written false).once rfl, ?_, ?_⟩
    · rw [counted, ← split, List.length_append]
      omega
    · rw [counted, ← split, List.take_left]
  · exact ⟨⟨_, (written writeAll).balanced.split⟩, (written writeAll).threw e thrown⟩
  · have last := (written writeAll).called.2
    rwa [Nat.zero_add] at last

/-- A kernel that accepts at most two bytes in the first call and three in the later ones. -/
def twoThenThree : Writev := fun k iovecs =>
  ⟨min (if k = 0 then 2 else 3) (iovecs.map Iovec.len).sum, 0⟩

theorem write_accepted_twoThenThree :
    (write twoThenThree ⟨3, false, false, 0, 0⟩ ⟨[[104], [101, 108], [], [108, 111]]⟩).2 = .ok 5 ∧
    (write twoThenThree ⟨3, false, false, 0, 0⟩ ⟨[[104], [101, 108], [], [108, 111]]⟩).1.accepted =
      [104, 101, 108, 108, 111] := by
  have contract : twoThenThree.Contract := by
    intro k iovecs
    left
    unfold twoThenThree
    dsimp only
    split <;> omega
  have returned : (write twoThenThree ⟨3, false, false, 0, 0⟩
      ⟨[[104], [101, 108], [], [108, 111]]⟩).2 = .ok 5 := by decide +kernel
  exact ⟨returned, ((write_accepted contract _ _ (by decide)).1 5 returned).2⟩

end FileDescriptor

end Sponge
