import Mathlib.Data.Nat.ModEq
import Mathlib.Algebra.BigOperators.Group.List.Basic
import Mathlib.Tactic.Ring

/-!
# One's-complement sums

End-around-carry arithmetic on words below an arbitrary base `b`. Adding two
such words and feeding the carry back in computes the sum modulo `b - 1`, with
one exception: zero and `b - 1` are congruent but are kept apart, since a sum
is zero only when every summand is. `residue` names the value that results, and
the lemmas here say that a carry fold, a word addition and a sum over a list
of words all compute it.
-/

namespace OnesComplement

/-- The representative of `n` modulo `b - 1` that one's-complement arithmetic
computes: `0` for `0`, and otherwise the one in `1, …, b - 1`. -/
def residue (b n : Nat) : Nat :=
  if n = 0 then 0 else (n - 1) % (b - 1) + 1

/-- Move the part of `n` above the low digit back in at the bottom. -/
def fold (b n : Nat) : Nat := n / b + n % b

/-- Addition of two words with end-around carry. -/
def addCarry (b x y : Nat) : Nat :=
  if x + y < b then x + y else x + y - b + 1

/-- The one's-complement sum of a list of words. -/
def sum (b : Nat) (words : List Nat) : Nat := words.foldl (addCarry b) 0

variable {b : Nat}

@[simp] theorem residue_zero : residue b 0 = 0 := rfl

theorem residue_of_pos {n : Nat} (pos : 0 < n) :
    residue b n = (n - 1) % (b - 1) + 1 :=
  if_neg (Nat.ne_of_gt pos)

theorem residue_eq_zero {n : Nat} : residue b n = 0 ↔ n = 0 := by
  unfold residue
  split <;> simp_all

theorem residue_of_lt {n : Nat} (small : n < b) : residue b n = n := by
  rcases Nat.eq_zero_or_pos n with rfl | pos
  · rfl
  · rw [residue_of_pos pos, Nat.mod_eq_of_lt (by omega)]
    omega

theorem residue_lt (base : 2 ≤ b) (n : Nat) : residue b n < b := by
  rcases Nat.eq_zero_or_pos n with rfl | pos
  · rw [residue_zero]
    omega
  · rw [residue_of_pos pos]
    have := Nat.mod_lt (n - 1) (show 0 < b - 1 by omega)
    omega

theorem residue_modEq (n : Nat) : residue b n ≡ n [MOD b - 1] := by
  rcases Nat.eq_zero_or_pos n with rfl | pos
  · rfl
  · rw [residue_of_pos pos]
    have shifted : (n - 1) % (b - 1) + 1 ≡ n - 1 + 1 [MOD b - 1] :=
      (Nat.mod_modEq _ _).add_right 1
    rwa [Nat.sub_add_cancel pos] at shifted

/-- Congruent numbers that agree on being zero have the same residue. -/
theorem residue_congr {m n : Nat} (congruent : m ≡ n [MOD b - 1])
    (zero : m = 0 ↔ n = 0) : residue b m = residue b n := by
  rcases Nat.eq_zero_or_pos m with rfl | mPos
  · rw [zero.mp rfl]
  · have nPos : 0 < n := Nat.pos_of_ne_zero fun h => mPos.ne' (zero.mpr h)
    rw [residue_of_pos mPos, residue_of_pos nPos]
    have shifted : m - 1 ≡ n - 1 [MOD b - 1] := by
      apply Nat.ModEq.add_right_cancel' 1
      rwa [Nat.sub_add_cancel mPos, Nat.sub_add_cancel nPos]
    rw [shifted]

/-- The residue forgets nothing but the multiple of `b - 1`, and keeps zero apart. -/
theorem residue_eq_iff {m n : Nat} :
    residue b m = residue b n ↔ m ≡ n [MOD b - 1] ∧ (m = 0 ↔ n = 0) := by
  constructor
  · intro same
    have congruent : m ≡ n [MOD b - 1] :=
      (residue_modEq m).symm.trans (same ▸ residue_modEq n)
    refine ⟨congruent, ?_⟩
    rw [← residue_eq_zero (b := b), ← residue_eq_zero (b := b) (n := n), same]
  · intro both
    rcases both with ⟨congruent, zero⟩
    exact residue_congr congruent zero

/-- The largest word is the residue of the multiples of `b - 1` other than zero. -/
theorem residue_eq_top_iff (base : 2 ≤ b) {n : Nat} :
    residue b n = b - 1 ↔ 0 < n ∧ n ≡ 0 [MOD b - 1] := by
  have top : residue b (b - 1) = b - 1 := residue_of_lt (by omega)
  have self : b - 1 ≡ 0 [MOD b - 1] := Nat.modulus_modEq_zero
  constructor
  · intro largest
    obtain ⟨congruent, zero⟩ := residue_eq_iff.mp (largest.trans top.symm)
    exact ⟨by omega, congruent.trans self⟩
  · intro both
    rcases both with ⟨pos, congruent⟩
    have same : residue b n = residue b (b - 1) :=
      residue_eq_iff.mpr ⟨congruent.trans self.symm, by omega⟩
    rw [same, top]

/-- Two words with one residue class are equal, or are the two zeros. -/
theorem eq_or_zeros_of_modEq {v w : Nat} (vSmall : v < b) (wSmall : w < b)
    (congruent : v ≡ w [MOD b - 1]) :
    v = w ∨ (v = 0 ∧ w = b - 1) ∨ (v = b - 1 ∧ w = 0) := by
  rcases Nat.lt_trichotomy v w with below | same | above
  · have divides := (Nat.modEq_iff_dvd' below.le).mp congruent
    have := Nat.le_of_dvd (by omega) divides
    omega
  · exact .inl same
  · have divides := (Nat.modEq_iff_dvd' above.le).mp congruent.symm
    have := Nat.le_of_dvd (by omega) divides
    omega

theorem complement_add_modEq (base : 2 ≤ b) (n : Nat) :
    b - 1 - residue b n + n ≡ 0 [MOD b - 1] := by
  have bound := residue_lt base n
  have total : b - 1 - residue b n + residue b n = b - 1 := by omega
  have self : b - 1 ≡ 0 [MOD b - 1] := Nat.modulus_modEq_zero
  calc b - 1 - residue b n + n
      ≡ b - 1 - residue b n + residue b n [MOD b - 1] := (residue_modEq n).symm.add_left _
    _ = b - 1 := total
    _ ≡ 0 [MOD b - 1] := self

/-- The words that bring `n` to the largest word are the complement of its
residue and, where that is zero, the other zero. -/
theorem add_eq_top_iff (base : 2 ≤ b) {v n : Nat} (small : v < b) :
    residue b (v + n) = b - 1 ↔
      v = b - 1 - residue b n ∨ (b - 1 - residue b n = 0 ∧ v = b - 1) := by
  have complement := complement_add_modEq base n
  have bound := residue_lt base n
  have zero := residue_eq_zero (b := b) (n := n)
  rw [residue_eq_top_iff base]
  constructor
  · intro both
    rcases both with ⟨pos, congruent⟩
    have class_eq : v ≡ b - 1 - residue b n [MOD b - 1] :=
      Nat.ModEq.add_right_cancel' n (congruent.trans complement.symm)
    rcases eq_or_zeros_of_modEq small (by omega) class_eq with same | ⟨low, top⟩ | ⟨top, low⟩
    · exact .inl same
    · omega
    · exact .inr ⟨low, top⟩
  · intro top
    rcases top with rfl | ⟨low, rfl⟩
    · exact ⟨by omega, complement⟩
    · rw [low] at complement
      have self : b - 1 ≡ 0 [MOD b - 1] := Nat.modulus_modEq_zero
      exact ⟨by omega, (self.add_right n).trans complement⟩

/-! ## Folding carries -/

theorem fold_modEq (base : 2 ≤ b) (n : Nat) : fold b n ≡ n [MOD b - 1] := by
  have one : b ≡ 1 [MOD b - 1] := by
    have self : b - 1 + 1 ≡ 0 + 1 [MOD b - 1] := Nat.modulus_modEq_zero.add_right 1
    rwa [Nat.sub_add_cancel (by omega)] at self
  have scaled : 1 * (n / b) + n % b ≡ b * (n / b) + n % b [MOD b - 1] :=
    (one.symm.mul_right _).add_right _
  rwa [Nat.one_mul, Nat.div_add_mod] at scaled

theorem fold_eq_zero {n : Nat} : fold b n = 0 ↔ n = 0 := by
  constructor
  · intro zero
    obtain ⟨high, low⟩ := Nat.add_eq_zero_iff.mp zero
    rw [← Nat.div_add_mod n b, high, low, Nat.mul_zero]
  · rintro rfl
    simp [fold]

/-- Folding a carry keeps the residue. -/
theorem residue_fold (base : 2 ≤ b) (n : Nat) : residue b (fold b n) = residue b n :=
  residue_congr (fold_modEq base n) fold_eq_zero

/-- Folding makes progress as long as there is something above the low digit. -/
theorem fold_lt (base : 2 ≤ b) {n : Nat} (large : b ≤ n) : fold b n < n := by
  have split := Nat.div_add_mod n b
  have quotient : 0 < n / b := Nat.div_pos large (by omega)
  have scaled : n / b * 2 ≤ b * (n / b) := by
    rw [Nat.mul_comm b]
    exact Nat.mul_le_mul_left _ base
  unfold fold
  omega

/-! ## Adding words -/

theorem addCarry_eq_residue {x y : Nat} (xSmall : x < b) (ySmall : y < b) :
    addCarry b x y = residue b (x + y) := by
  unfold addCarry
  split
  · next small => rw [residue_of_lt small]
  · next carry =>
    rw [residue_of_pos (by omega), Nat.mod_eq_sub_mod (by omega), Nat.mod_eq_of_lt (by omega)]
    omega

theorem residue_add_left (x y : Nat) : residue b (residue b x + y) = residue b (x + y) := by
  apply residue_congr ((residue_modEq x).add_right y)
  rw [Nat.add_eq_zero_iff, Nat.add_eq_zero_iff, residue_eq_zero]

/-- The one's-complement sum of words is the residue of their exact sum. -/
theorem sum_eq_residue (base : 2 ≤ b) {words : List Nat} (small : ∀ w ∈ words, w < b) :
    sum b words = residue b words.sum := by
  suffices general : ∀ start, words.foldl (addCarry b) (residue b start) =
      residue b (start + words.sum) by
    simpa [sum] using general 0
  induction words with
  | nil => simp
  | cons word words ih =>
      intro start
      have head : word < b := small word (by simp)
      rw [List.foldl_cons, addCarry_eq_residue (residue_lt base _) head, residue_add_left,
        ih (fun w member => small w (by simp [member])), List.sum_cons, Nat.add_assoc]

end OnesComplement
