import Sponge.InternetChecksum

/-!
# Computing, verifying and splitting the Internet checksum

What the users of `InternetChecksum` rely on: a header whose checksum field has
been filled in verifies, a change inside one word of a message is noticed, and
a message may be handed over in pieces or with a part of it already summed.

The value of a message depends on one of its words only through the exact sum,
so the first two follow from a decomposition of that sum into the word at one
position and the rest (`exactSum_eq_word_add`), and from what the residue tells
about two words added to the same rest.
-/

namespace Sponge

namespace InternetChecksum

/-! ## One word of a message -/

/-- The two strings have the same length and the same bytes, those of the
aligned word `i` apart. -/
def AgreeOutside (i : Nat) (first second : Bytes) : Prop :=
  first.length = second.length ∧
    ∀ j, j ≠ 2 * i → j ≠ 2 * i + 1 → first[j]? = second[j]?

/-- The aligned word `i` of a message. -/
def wordAt (data : Bytes) (i : Nat) : Nat := ((words data)[i]?).getD 0

/-- The exact sum of the initial value and of all the words but word `i`. -/
def otherSum (initialSum : UInt32) (data : Bytes) (i : Nat) : Nat :=
  initialSum.toNat + ((words data).eraseIdx i).sum

/-- Store a 16-bit value in big-endian order at bytes `k` and `k + 1`. -/
def store16 (data : Bytes) (k : Nat) (v : UInt16) : Bytes :=
  (data.set k (v >>> 8).toUInt8).set (k + 1) v.toUInt8

theorem getElem?_words (data : Bytes) (i : Nat) :
    (words data)[i]? = data[2 * i]?.map fun high =>
      high.toNat * 256 + (data[2 * i + 1]?.map UInt8.toNat).getD 0 := by
  fun_induction words data generalizing i with
  | case1 => simp
  | case2 high =>
      cases i with
      | zero => simp
      | succ i => simp [Nat.mul_add]
  | case3 high low data ih =>
      cases i with
      | zero => simp
      | succ i => simp [ih, Nat.mul_add]

theorem wordAt_lt (data : Bytes) (i : Nat) : wordAt data i < 65536 := by
  unfold wordAt
  cases at_i : (words data)[i]? with
  | none => simp
  | some word => exact words_lt data word (List.mem_of_getElem? at_i)

/-- In strings of one length the same word is made of the same bytes. -/
theorem bytes_eq_of_wordAt_eq {first second : Bytes} {i : Nat}
    (length : first.length = second.length) (same : wordAt first i = wordAt second i) :
    first[2 * i]? = second[2 * i]? ∧ first[2 * i + 1]? = second[2 * i + 1]? := by
  simp only [wordAt, getElem?_words] at same
  rcases Nat.lt_or_ge (2 * i) first.length with inside | outside
  · have inside' : 2 * i < second.length := length ▸ inside
    rw [List.getElem?_eq_getElem inside, List.getElem?_eq_getElem inside'] at same ⊢
    have high := first[2 * i].toNat_lt
    have high' := second[2 * i].toNat_lt
    rcases Nat.lt_or_ge (2 * i + 1) first.length with both | lone
    · have both' : 2 * i + 1 < second.length := length ▸ both
      rw [List.getElem?_eq_getElem both, List.getElem?_eq_getElem both'] at same ⊢
      have low := first[2 * i + 1].toNat_lt
      have low' := second[2 * i + 1].toNat_lt
      simp only [Option.map_some, Option.getD_some] at same
      rw [Option.some_inj, Option.some_inj, ← UInt8.toNat_inj, ← UInt8.toNat_inj]
      omega
    · have lone' : second.length ≤ 2 * i + 1 := length ▸ lone
      rw [List.getElem?_eq_none lone, List.getElem?_eq_none lone'] at same ⊢
      simp only [Option.map_some, Option.map_none, Option.getD_some, Option.getD_none] at same
      rw [Option.some_inj, ← UInt8.toNat_inj]
      exact ⟨by omega, rfl⟩
  · rw [List.getElem?_eq_none outside, List.getElem?_eq_none (length ▸ outside),
      List.getElem?_eq_none (by omega), List.getElem?_eq_none (by omega)]
    exact ⟨rfl, rfl⟩

theorem exactSum_eq_word_add (initialSum : UInt32) (data : Bytes) (i : Nat) :
    exactSum initialSum data = wordAt data i + otherSum initialSum data i := by
  unfold exactSum wordAt otherSum
  rcases Nat.lt_or_ge i (words data).length with inside | outside
  · have split := List.CommMonoid.add_sum_eraseIdx inside
    rw [List.getElem?_eq_getElem inside, Option.getD_some]
    omega
  · rw [List.getElem?_eq_none outside, List.eraseIdx_of_length_le outside, Option.getD_none]
    omega

namespace AgreeOutside

variable {i : Nat} {first second : Bytes}

theorem otherSum_eq (agree : AgreeOutside i first second) (initialSum : UInt32) :
    otherSum initialSum first i = otherSum initialSum second i := by
  obtain ⟨-, bytes⟩ := agree
  have others : (words first).eraseIdx i = (words second).eraseIdx i := by
    apply List.ext_getElem?
    intro j
    simp only [List.getElem?_eraseIdx, getElem?_words]
    split
    · rw [bytes (2 * j) (by omega) (by omega), bytes (2 * j + 1) (by omega) (by omega)]
    · rw [bytes (2 * (j + 1)) (by omega) (by omega),
        bytes (2 * (j + 1) + 1) (by omega) (by omega)]
  rw [otherSum, others, otherSum]

/-- Strings that agree in word `i` too are the same string. -/
theorem eq_of_wordAt_eq (agree : AgreeOutside i first second)
    (same : wordAt first i = wordAt second i) : first = second := by
  obtain ⟨length, bytes⟩ := agree
  obtain ⟨high, low⟩ := bytes_eq_of_wordAt_eq length same
  apply List.ext_getElem?
  intro j
  by_cases atHigh : j = 2 * i
  · rw [atHigh, high]
  · by_cases atLow : j = 2 * i + 1
    · rw [atLow, low]
    · exact bytes j atHigh atLow

end AgreeOutside

/-! ## The value and the exact sum -/

section Values

variable {initialSum : UInt32}

theorem value_add {data : Bytes} (short : data.length ≤ 65535)
    (small : initialSum.toNat ≤ 2 ^ 31) :
    ((init initialSum).add data).value.toNat =
      65535 - OnesComplement.residue 65536 (exactSum initialSum data) := by
  rw [value_toNat, add_sum_exact (exactSum_lt short small) List.prefix_rfl]

theorem value_eq_zero_iff {data : Bytes} (short : data.length ≤ 65535)
    (small : initialSum.toNat ≤ 2 ^ 31) :
    ((init initialSum).add data).value = 0 ↔
      OnesComplement.residue 65536 (exactSum initialSum data) = 65535 := by
  have bound := OnesComplement.residue_lt (b := 65536) (by omega) (exactSum initialSum data)
  rw [← UInt16.toNat_inj, value_add short small, UInt16.toNat_zero]
  omega

theorem value_eq_iff {first second : Bytes} (firstShort : first.length ≤ 65535)
    (secondShort : second.length ≤ 65535) (small : initialSum.toNat ≤ 2 ^ 31) :
    ((init initialSum).add first).value = ((init initialSum).add second).value ↔
      exactSum initialSum first ≡ exactSum initialSum second [MOD 65535] ∧
        (exactSum initialSum first = 0 ↔ exactSum initialSum second = 0) := by
  have firstBound :=
    OnesComplement.residue_lt (b := 65536) (by omega) (exactSum initialSum first)
  have secondBound :=
    OnesComplement.residue_lt (b := 65536) (by omega) (exactSum initialSum second)
  have residues := OnesComplement.residue_eq_iff (b := 65536)
    (m := exactSum initialSum first) (n := exactSum initialSum second)
  rw [← residues, ← UInt16.toNat_inj, value_add firstShort small, value_add secondShort small]
  omega

end Values

/-! ## Filling in a checksum -/

theorem length_store16 (data : Bytes) (k : Nat) (v : UInt16) :
    (store16 data k v).length = data.length := by
  simp [store16]

theorem store16_store16 (data : Bytes) (k : Nat) (v w : UInt16) :
    store16 (store16 data k v) k w = store16 data k w := by
  unfold store16
  rw [List.set_comm _ _ (by omega : k + 1 ≠ k), List.set_set, List.set_set]

theorem agreeOutside_store16 (data : Bytes) (i : Nat) (v : UInt16) :
    AgreeOutside i (store16 data (2 * i) v) data := by
  refine ⟨length_store16 data _ v, ?_⟩
  intro j notHigh notLow
  rw [store16, List.getElem?_set_ne (by omega), List.getElem?_set_ne (by omega)]

theorem wordAt_store16 {data : Bytes} {i : Nat} (inside : 2 * i + 1 < data.length)
    (v : UInt16) : wordAt (store16 data (2 * i) v) i = v.toNat := by
  have high : (v >>> 8).toUInt8.toNat = v.toNat / 256 := by
    have := v.toNat_lt
    rw [UInt16.toNat_toUInt8, UInt16.toNat_shiftRight]
    simp only [UInt16.reduceToNat, Nat.reduceMod, Nat.shiftRight_eq_div_pow]
    omega
  have low : v.toUInt8.toNat = v.toNat % 256 := UInt16.toNat_toUInt8 v
  have highByte : (store16 data (2 * i) v)[2 * i]? = some (v >>> 8).toUInt8 := by
    rw [store16, List.getElem?_set_ne (by omega), List.getElem?_set_self (by omega)]
  have lowByte : (store16 data (2 * i) v)[2 * i + 1]? = some v.toUInt8 := by
    rw [store16, List.getElem?_set_self (by rwa [List.length_set])]
  rw [wordAt, getElem?_words, highByte, lowByte]
  simp only [Option.map_some, Option.getD_some, high, low]
  omega

theorem exactSum_store16 (initialSum : UInt32) {data : Bytes} {i : Nat}
    (inside : 2 * i + 1 < data.length) (v : UInt16) :
    exactSum initialSum (store16 data (2 * i) v) = v.toNat + otherSum initialSum data i := by
  rw [exactSum_eq_word_add initialSum _ i, wordAt_store16 inside,
    (agreeOutside_store16 data i v).otherSum_eq]

/-- **A checksum that has been filled in verifies, and only that one does.** Let
`c` be the value over a message whose 16-bit field at an even offset is zeroed.
With `c` in the field the value is `0`. Any other value of the field gives
something else, except that `0xffff` stands in for `0`. -/
theorem fillIn_verifies {initialSum : UInt32} {data : Bytes} {k : Nat}
    (short : data.length ≤ 65535) (small : initialSum.toNat ≤ 2 ^ 31)
    (even : k % 2 = 0) (inside : k + 1 < data.length) :
    let zeroed := store16 data k 0
    let c := ((init initialSum).add zeroed).value
    ((init initialSum).add (store16 zeroed k c)).value = 0 ∧
    ∀ v : UInt16, ((init initialSum).add (store16 data k v)).value = 0 ↔
      v = c ∨ (c = 0 ∧ v = 0xffff) := by
  obtain ⟨i, rfl⟩ : ∃ i, k = 2 * i := ⟨k / 2, by omega⟩
  intro zeroed c
  have field : c.toNat = 65535 - OnesComplement.residue 65536 (otherSum initialSum data i) := by
    show ((init initialSum).add (store16 data (2 * i) 0)).value.toNat = _
    rw [value_add (by rwa [length_store16]) small, exactSum_store16 initialSum inside,
      UInt16.toNat_zero, Nat.zero_add]
  have verifies : ∀ v : UInt16, ((init initialSum).add (store16 data (2 * i) v)).value = 0 ↔
      v = c ∨ (c = 0 ∧ v = 0xffff) := by
    intro v
    rw [value_eq_zero_iff (by rwa [length_store16]) small, exactSum_store16 initialSum inside,
      OnesComplement.add_eq_top_iff (by omega) v.toNat_lt, ← field]
    simp only [← UInt16.toNat_inj]
    rfl
  refine ⟨?_, verifies⟩
  rw [store16_store16]
  exact (verifies c).mpr (.inl rfl)

theorem fillIn_verifies_header :
    let header : Bytes := [0x45, 0, 0xab, 0xcd, 7]
    ((init 0x80000000).add (store16 header 2 0)).value = 0x33ff ∧
    ∀ v : UInt16, ((init 0x80000000).add (store16 header 2 v)).value = 0 ↔ v = 0x33ff := by
  intro header
  have field : ((init 0x80000000).add (store16 header 2 0)).value = 0x33ff := by decide +kernel
  refine ⟨field, ?_⟩
  intro v
  obtain ⟨-, unique⟩ := @fillIn_verifies 0x80000000 header 2
    (by decide) (by decide) (by decide) (by decide)
  rw [unique v, field]
  simp

/-! ## Changing one word -/

/-- The two representations of zero, in either order. -/
def Exchanged (v w : Nat) : Prop := (v = 0 ∧ w = 0xffff) ∨ (v = 0xffff ∧ w = 0)

instance (v w : Nat) : Decidable (Exchanged v w) :=
  inferInstanceAs (Decidable (_ ∨ _))

theorem modEq_iff_exchanged {v w n : Nat} (vSmall : v < 65536) (wSmall : w < 65536)
    (differ : v ≠ w) : v + n ≡ w + n [MOD 65535] ↔ Exchanged v w := by
  constructor
  · intro congruent
    rcases OnesComplement.eq_or_zeros_of_modEq vSmall wSmall
        (Nat.ModEq.add_right_cancel' n congruent) with same | zeros
    · exact absurd same differ
    · exact zeros
  · intro exchanged
    rcases exchanged with ⟨rfl, rfl⟩ | ⟨rfl, rfl⟩
    · exact Nat.ModEq.add_right n (by decide)
    · exact Nat.ModEq.add_right n (by decide)

/-- **A change inside one word is noticed.** Two messages that differ, and only
inside one aligned word, have the same value exactly when the words are the two
zeros and something else in the sum is non-zero. In particular both verify only
for such an exchange. -/
theorem value_eq_iff_exchanged {initialSum : UInt32} {first second : Bytes} {i : Nat}
    (short : first.length ≤ 65535) (small : initialSum.toNat ≤ 2 ^ 31)
    (agree : AgreeOutside i first second) (differ : first ≠ second) :
    (((init initialSum).add first).value = ((init initialSum).add second).value ↔
      Exchanged (wordAt first i) (wordAt second i) ∧ otherSum initialSum first i ≠ 0) ∧
    (((init initialSum).add first).value = 0 → ((init initialSum).add second).value = 0 →
      Exchanged (wordAt first i) (wordAt second i)) := by
  have words_differ : wordAt first i ≠ wordAt second i :=
    fun same => differ (agree.eq_of_wordAt_eq same)
  have equal : ((init initialSum).add first).value = ((init initialSum).add second).value ↔
      Exchanged (wordAt first i) (wordAt second i) ∧ otherSum initialSum first i ≠ 0 := by
    rw [value_eq_iff short (agree.1 ▸ short) small, exactSum_eq_word_add initialSum first i,
      exactSum_eq_word_add initialSum second i, ← agree.otherSum_eq,
      modEq_iff_exchanged (wordAt_lt first i) (wordAt_lt second i) words_differ]
    apply and_congr_right
    intro exchanged
    rcases exchanged with ⟨low, top⟩ | ⟨top, low⟩
    · rw [low, top]
      omega
    · rw [low, top]
      omega
  refine ⟨equal, ?_⟩
  intro firstVerifies secondVerifies
  exact (equal.mp (firstVerifies.trans secondVerifies.symm)).1

theorem value_eq_iff_exchanged_lastByte :
    let first : Bytes := [0xff, 0xff, 1, 2, 3]
    let second : Bytes := [0xff, 0xff, 1, 2, 4]
    ((init 7).add first).value ≠ ((init 7).add second).value := by
  intro first second same
  have agree : AgreeOutside 2 first second := by
    refine ⟨rfl, ?_⟩
    intro j notHigh notLow
    rcases j with _ | _ | _ | _ | _ | j
    · rfl
    · rfl
    · rfl
    · rfl
    · exact absurd rfl notHigh
    · rfl
  obtain ⟨equal, -⟩ := @value_eq_iff_exchanged 7 first second 2 (by decide) (by decide) agree
    (by decide)
  exact absurd (equal.mp same).1 (by decide)

/-! ## Pieces of a message -/

theorem words_append {first : Bytes} (even : first.length % 2 = 0) (second : Bytes) :
    words (first ++ second) = words first ++ words second := by
  fun_induction words first with
  | case1 => rfl
  | case2 high => simp at even
  | case3 high low first ih =>
      rw [List.length_cons, List.length_cons] at even
      rw [List.cons_append, List.cons_append, words, ih (by omega), List.cons_append]

/-- The sum of the words of a header, as the caller of the constructor computes it. -/
def rawSum (header : Bytes) : UInt32 := UInt32.ofNat (words header).sum

/-- The one's-complement sum of the words of a header, a 16-bit word. -/
def foldedSum (header : Bytes) : UInt32 :=
  UInt32.ofNat (OnesComplement.sum 65536 (words header))

section Seeds

variable {header data : Bytes}

theorem sum_words_le (short : header.length ≤ 65535) : (words header).sum ≤ 2 ^ 31 := by
  have bound := weight_le header
  rw [weight_eq_sum_words] at bound
  omega

theorem rawSum_toNat (short : header.length ≤ 65535) :
    (rawSum header).toNat = (words header).sum := by
  have bound := sum_words_le short
  exact UInt32.toNat_ofNat_of_lt' (by rw [UInt32.size]; omega)

theorem foldedSum_toNat (header : Bytes) :
    (foldedSum header).toNat = OnesComplement.residue 65536 (words header).sum := by
  have sum := OnesComplement.sum_eq_residue (b := 65536) (by omega) (words_lt header)
  have bound := OnesComplement.residue_lt (b := 65536) (by omega) (words header).sum
  rw [foldedSum, sum]
  exact UInt32.toNat_ofNat_of_lt' (by rw [UInt32.size]; omega)

/-- A seed with the residue of a header stands in for the header. -/
theorem value_seed {seed : UInt32} (even : header.length % 2 = 0)
    (short : header.length + data.length ≤ 65535) (small : seed.toNat ≤ 2 ^ 31)
    (residue : OnesComplement.residue 65536 seed.toNat =
      OnesComplement.residue 65536 (words header).sum) :
    ((init seed).add data).value = (((init 0).add header).add data).value := by
  have whole : (header ++ data).length ≤ 65535 := by rwa [List.length_append]
  have split : exactSum 0 (header ++ data) = (words header).sum + (words data).sum := by
    rw [exactSum, words_append even, List.sum_append, UInt32.toNat_zero, Nat.zero_add]
  rw [← add_append, ← UInt16.toNat_inj, value_add (by omega) small,
    value_add whole (by decide), split, exactSum, ← OnesComplement.residue_add_left, residue,
    OnesComplement.residue_add_left]

end Seeds

/-- **The checksum does not depend on how its data arrive.** Chunks with the same
concatenation leave the same accumulator and the same parity, whatever their
lengths and also when the accumulator wraps. A header of even length may be
replaced by a seed, the sum of its words or that sum with its carries folded in. -/
theorem addAll_independent (initialSum : UInt32) :
    (∀ first second : List Bytes, first.flatten = second.flatten →
      (init initialSum).addAll first = (init initialSum).addAll second) ∧
    ∀ header data : Bytes, header.length % 2 = 0 → header.length + data.length ≤ 65535 →
      (rawSum header).toNat = (words header).sum ∧
      foldLoop (rawSum header) = foldedSum header ∧
      (foldedSum header).toNat = OnesComplement.sum 65536 (words header) ∧
      (foldedSum header).toNat ≤ 0xffff ∧
      ((init (rawSum header)).add data).value = (((init 0).add header).add data).value ∧
      ((init (foldedSum header)).add data).value = (((init 0).add header).add data).value := by
  constructor
  · intro first second same
    rw [addAll_eq_add, addAll_eq_add, same]
  · intro header data even short
    have raw : (rawSum header).toNat = (words header).sum := rawSum_toNat (by omega)
    have folded := foldedSum_toNat header
    have sum := OnesComplement.sum_eq_residue (b := 65536) (by omega) (words_lt header)
    have word := OnesComplement.residue_lt (b := 65536) (by omega) (words header).sum
    have bound : (words header).sum ≤ 2 ^ 31 := sum_words_le (by omega)
    refine ⟨raw, ?_, folded.trans sum.symm, by omega, ?_, ?_⟩
    · rw [← UInt32.toNat_inj, foldLoop_toNat, raw, folded]
    · exact value_seed even short (raw ▸ bound) (by rw [raw])
    · apply value_seed even short (by omega)
      rw [folded, OnesComplement.residue_of_lt word]

end InternetChecksum

end Sponge
