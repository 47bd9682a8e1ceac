import Mathlib.Data.Nat.Bits
import Mathlib.Tactic.IntervalCases
import Sponge.Lib.OnesComplement
import Sponge.SystemCall

/-!
# The Internet checksum

`InternetChecksum` of `util.cc` adds a message one byte at a time into a 32-bit
accumulator, with a parity bit that tells high from low bytes across calls, and
folds the carries only when the value is asked for. RFC 1071 defines the same
number word by word in one's-complement arithmetic. `weight` is the
contribution of a byte string that starts at a given parity; it connects the
two, since it is additive over concatenation and equals the sum of the
big-endian words from an even position.
-/

namespace Sponge

/-- The accumulator and the parity bit. -/
structure InternetChecksum where
  sum : UInt32
  parity : Bool
  deriving DecidableEq, Repr

namespace InternetChecksum

/-- The constructor; the header gives `initialSum` the default `0`. -/
def init (initialSum : UInt32 := 0) : InternetChecksum := ⟨initialSum, false⟩

/-- One iteration of the loop of `add`. -/
def addByte (c : InternetChecksum) (byte : UInt8) : InternetChecksum :=
  let val : UInt16 := byte.toUInt16
  let val := if ¬ c.parity then val <<< 8 else val
  { sum := c.sum + val.toUInt32, parity := !c.parity }

def add (c : InternetChecksum) (data : Bytes) : InternetChecksum := data.foldl addByte c

/-- Calls of `add` in a row. -/
def addAll (c : InternetChecksum) (chunks : List Bytes) : InternetChecksum := chunks.foldl add c

/-- The body of the loop of `value`. -/
def foldStep (ret : UInt32) : UInt32 := (ret >>> 16) + (ret &&& 0xffff)

theorem foldStep_toNat (ret : UInt32) :
    (foldStep ret).toNat = OnesComplement.fold 65536 ret.toNat := by
  have high : (ret >>> 16).toNat = ret.toNat / 65536 := by
    rw [UInt32.toNat_shiftRight]
    simp [Nat.shiftRight_eq_div_pow]
  have low : (ret &&& 0xffff).toNat = ret.toNat % 65536 := by
    rw [UInt32.toNat_and, show (0xffff : UInt32).toNat = 2 ^ 16 - 1 from rfl,
      Nat.and_two_pow_sub_one_eq_mod]
  have bound := ret.toNat_lt
  unfold foldStep OnesComplement.fold
  rw [UInt32.toNat_add, high, low, Nat.mod_eq_of_lt (by omega)]

/-- The loop condition on the value of the word. -/
theorem exceeds_iff {ret : UInt32} : 0xffff < ret ↔ 65535 < ret.toNat :=
  UInt32.lt_iff_toNat_lt

theorem foldStep_lt {ret : UInt32} (large : 65535 < ret.toNat) :
    (foldStep ret).toNat < ret.toNat := by
  rw [foldStep_toNat]
  exact OnesComplement.fold_lt (by omega) large

/-- The loop of `value`. -/
def foldLoop (ret : UInt32) : UInt32 :=
  if 0xffff < ret then foldLoop (foldStep ret) else ret
termination_by ret.toNat
decreasing_by exact foldStep_lt (exceeds_iff.mp ‹_›)

def value (c : InternetChecksum) : UInt16 := (~~~ foldLoop c.sum).toUInt16

/-! ## The folding loop -/

theorem foldLoop_of_le {ret : UInt32} (small : ret.toNat ≤ 65535) : foldLoop ret = ret := by
  rw [foldLoop, if_neg]
  rw [exceeds_iff]
  exact Nat.not_lt.mpr small

theorem foldLoop_of_gt {ret : UInt32} (large : 65535 < ret.toNat) :
    foldLoop ret = foldLoop (foldStep ret) := by
  rw [foldLoop, if_pos (exceeds_iff.mpr large)]

/-- The loop computes the residue: each iteration keeps it, and what is left at
the end is a 16-bit word. -/
theorem foldLoop_toNat (ret : UInt32) :
    (foldLoop ret).toNat = OnesComplement.residue 65536 ret.toNat := by
  induction measure : ret.toNat using Nat.strongRecOn generalizing ret with
  | ind n ih =>
      subst measure
      rcases Nat.lt_or_ge 65535 ret.toNat with large | small
      · rw [foldLoop_of_gt large, ih _ (foldStep_lt large) _ rfl, foldStep_toNat,
          OnesComplement.residue_fold (by omega)]
      · rw [foldLoop_of_le small, OnesComplement.residue_of_lt (by omega)]

/-- Two iterations always suffice: the first leaves at most `0x1fffe`. -/
theorem foldLoop_iterations (ret : UInt32) :
    ∃ k ≤ 2, foldLoop ret = foldStep^[k] ret ∧ (foldStep^[k] ret).toNat ≤ 0xffff ∧
      ∀ j < k, 0xffff < (foldStep^[j] ret).toNat := by
  have bound := ret.toNat_lt
  have first := foldStep_toNat ret
  have second := foldStep_toNat (foldStep ret)
  unfold OnesComplement.fold at first second
  rcases Nat.lt_or_ge 65535 ret.toNat with large | small
  · rcases Nat.lt_or_ge 65535 (foldStep ret).toNat with again | done
    · refine ⟨2, le_refl 2, ?_, ?_, ?_⟩
      · rw [foldLoop_of_gt large, foldLoop_of_gt again, foldLoop_of_le (by omega)]
        rfl
      · show (foldStep (foldStep ret)).toNat ≤ 65535
        omega
      · intro j early
        interval_cases j
        · exact large
        · exact again
    · refine ⟨1, by omega, ?_, done, ?_⟩
      · rw [foldLoop_of_gt large, foldLoop_of_le done]
        rfl
      · intro j early
        interval_cases j
        exact large
  · exact ⟨0, by omega, foldLoop_of_le small, small, by omega⟩

theorem value_toNat (c : InternetChecksum) :
    c.value.toNat = 65535 - OnesComplement.residue 65536 c.sum.toNat := by
  have small := OnesComplement.residue_lt (b := 65536) (by omega) c.sum.toNat
  unfold value
  rw [UInt32.toNat_toUInt16, UInt32.toNat_not, foldLoop_toNat, UInt32.size]
  omega

/-! ## The accumulator -/

/-- The exact contribution of `data` to the accumulator when its first byte is
met at the given parity. -/
def weight : Bool → Bytes → Nat
  | _, [] => 0
  | parity, byte :: data => (if parity then byte.toNat else byte.toNat * 256) + weight (!parity) data

theorem weight_append (parity : Bool) (first second : Bytes) :
    weight parity (first ++ second) =
      weight parity first + weight (parity ^^ first.length.bodd) second := by
  induction first generalizing parity with
  | nil => simp [weight]
  | cons byte first ih =>
      rw [List.cons_append, weight, weight, ih, List.length_cons, Nat.bodd_succ, Nat.add_assoc]
      cases parity <;> simp

theorem addByte_sum (c : InternetChecksum) (byte : UInt8) :
    (c.addByte byte).sum.toNat =
      (c.sum.toNat + if c.parity then byte.toNat else byte.toNat * 256) % 2 ^ 32 := by
  have bound := byte.toNat_lt
  have shifted : (byte.toUInt16 <<< 8).toNat = byte.toNat * 256 := by
    rw [UInt16.toNat_shiftLeft, UInt8.toNat_toUInt16]
    simp only [UInt16.reduceToNat, Nat.reduceMod, Nat.shiftLeft_eq]
    omega
  cases parity : c.parity with
  | true => simp [addByte, parity, UInt32.toNat_add]
  | false =>
      simp only [addByte, parity, Bool.false_eq_true, not_false_eq_true, if_true, if_false]
      rw [UInt32.toNat_add, UInt16.toNat_toUInt32, shifted]

theorem add_append (c : InternetChecksum) (first second : Bytes) :
    c.add (first ++ second) = (c.add first).add second :=
  List.foldl_append

/-- Chunk boundaries leave no mark on the accumulator or the parity. -/
theorem addAll_eq_add (c : InternetChecksum) (chunks : List Bytes) :
    c.addAll chunks = c.add chunks.flatten := by
  induction chunks generalizing c with
  | nil => rfl
  | cons chunk chunks ih =>
      rw [List.flatten_cons, add_append, ← ih]
      rfl

theorem add_sum (c : InternetChecksum) (data : Bytes) :
    (c.add data).sum.toNat = (c.sum.toNat + weight c.parity data) % 2 ^ 32 := by
  induction data generalizing c with
  | nil =>
      rw [weight, Nat.add_zero, Nat.mod_eq_of_lt c.sum.toNat_lt]
      rfl
  | cons byte data ih =>
      show ((c.addByte byte).add data).sum.toNat = _
      rw [ih, addByte_sum, weight, Nat.mod_add_mod, Nat.add_assoc]
      rfl

/-! ## The definition of RFC 1071 -/

/-- The big-endian 16-bit words of a message, an odd last byte being padded with
a zero low byte. -/
def words : Bytes → List Nat
  | [] => []
  | [high] => [high.toNat * 256]
  | high :: low :: data => (high.toNat * 256 + low.toNat) :: words data

theorem words_lt (data : Bytes) : ∀ word ∈ words data, word < 65536 := by
  fun_induction words data with
  | case1 => simp
  | case2 high =>
      have := high.toNat_lt
      simp
      omega
  | case3 high low data ih =>
      have := high.toNat_lt
      have := low.toNat_lt
      intro word member
      rcases List.mem_cons.mp member with rfl | member
      · omega
      · exact ih word member

theorem weight_eq_sum_words (data : Bytes) : weight false data = (words data).sum := by
  fun_induction words data with
  | case1 => rfl
  | case2 high => simp [weight]
  | case3 high low data ih => simp [weight, ih, Nat.add_assoc]

theorem weight_le (data : Bytes) : weight false data ≤ (data.length + 1) / 2 * 65535 := by
  rw [weight_eq_sum_words]
  fun_induction words data with
  | case1 => simp
  | case2 high =>
      have := high.toNat_lt
      simp
      omega
  | case3 high low data ih =>
      have := high.toNat_lt
      have := low.toNat_lt
      simp only [List.sum_cons, List.length_cons]
      omega

/-- The exact sum of the initial value and the words of a message. -/
def exactSum (initialSum : UInt32) (data : Bytes) : Nat :=
  initialSum.toNat + (words data).sum

/-- The checksum of RFC 1071: the complement of the one's-complement sum of the
message's words and of the two words of the initial value. -/
def rfc1071 (initialSum : UInt32) (data : Bytes) : Nat :=
  65535 - OnesComplement.sum 65536
    (initialSum.toNat / 65536 :: initialSum.toNat % 65536 :: words data)

theorem rfc1071_eq (initialSum : UInt32) (data : Bytes) :
    rfc1071 initialSum data = 65535 - OnesComplement.residue 65536 (exactSum initialSum data) := by
  have bound := initialSum.toNat_lt
  unfold rfc1071
  rw [OnesComplement.sum_eq_residue (by omega)]
  · rw [List.sum_cons, List.sum_cons, ← Nat.add_assoc, ← OnesComplement.fold,
      ← OnesComplement.residue_add_left, OnesComplement.residue_fold (by omega),
      OnesComplement.residue_add_left, exactSum]
  · intro word member
    simp only [List.mem_cons] at member
    rcases member with rfl | rfl | member
    · omega
    · omega
    · exact words_lt data word member

theorem exactSum_lt {initialSum : UInt32} {data : Bytes}
    (short : data.length ≤ 65535) (small : initialSum.toNat ≤ 2 ^ 31) :
    exactSum initialSum data < 2 ^ 32 := by
  have bound := weight_le data
  unfold exactSum
  rw [← weight_eq_sum_words]
  omega

theorem words_sum_prefix {first data : Bytes} (isPrefix : first <+: data) :
    (words first).sum ≤ (words data).sum := by
  obtain ⟨rest, rfl⟩ := isPrefix
  rw [← weight_eq_sum_words, ← weight_eq_sum_words, weight_append]
  omega

/-- As long as the exact sum fits, the accumulator holds it after every byte. -/
theorem add_sum_exact {initialSum : UInt32} {data first : Bytes}
    (fits : exactSum initialSum data < 2 ^ 32) (isPrefix : first <+: data) :
    ((init initialSum).add first).sum.toNat = exactSum initialSum first := by
  have mono := words_sum_prefix isPrefix
  unfold exactSum at *
  rw [add_sum]
  show (initialSum.toNat + weight false first) % 2 ^ 32 = _
  rw [weight_eq_sum_words, Nat.mod_eq_of_lt (by omega)]

/-- **`InternetChecksum` computes the checksum of RFC 1071.** Let the exact sum
of the initial value and the words of all the data fit in 32 bits, which it does
for messages of up to 65535 bytes and initial values of up to `2 ^ 31`. Then the
accumulator holds the exact sum after every byte, the loop of `value` ends after
at most two iterations, and the value is the complement of the one's-complement
sum. -/
theorem value_addAll (initialSum : UInt32) (chunks : List Bytes) :
    (chunks.flatten.length ≤ 65535 → initialSum.toNat ≤ 2 ^ 31 →
      exactSum initialSum chunks.flatten < 2 ^ 32) ∧
    (exactSum initialSum chunks.flatten < 2 ^ 32 →
      (∀ first, first <+: chunks.flatten →
        ((init initialSum).add first).sum.toNat = exactSum initialSum first) ∧
      (init initialSum).addAll chunks = (init initialSum).add chunks.flatten ∧
      (∃ k ≤ 2, foldLoop ((init initialSum).addAll chunks).sum =
          foldStep^[k] ((init initialSum).addAll chunks).sum ∧
        (foldStep^[k] ((init initialSum).addAll chunks).sum).toNat ≤ 0xffff) ∧
      ((init initialSum).addAll chunks).value.toNat = rfc1071 initialSum chunks.flatten ∧
      ((init initialSum).addAll chunks).value.toNat =
        if exactSum initialSum chunks.flatten = 0 then 0xffff
        else 65535 - ((exactSum initialSum chunks.flatten - 1) % 65535 + 1)) := by
  refine ⟨exactSum_lt, fun fits => ?_⟩
  have total := add_sum_exact fits List.prefix_rfl
  have folded : ((init initialSum).addAll chunks).value.toNat =
      65535 - OnesComplement.residue 65536 (exactSum initialSum chunks.flatten) := by
    rw [value_toNat, addAll_eq_add, total]
  refine ⟨fun first => add_sum_exact fits, addAll_eq_add _ _, ?_, ?_, ?_⟩
  · obtain ⟨k, few, result, small, -⟩ :=
      foldLoop_iterations ((init initialSum).addAll chunks).sum
    exact ⟨k, few, result, small⟩
  · rw [folded, rfc1071_eq]
  · rw [folded, OnesComplement.residue]
    split <;> rfl

end InternetChecksum

end Sponge
