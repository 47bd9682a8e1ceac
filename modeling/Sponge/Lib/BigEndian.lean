import Mathlib.Algebra.Order.Ring.Nat
import Mathlib.Data.List.Range
import Mathlib.Tactic.Ring

/-!
# Big-endian positional notation

Numbers and lists of digits in an arbitrary base, most significant digit first,
with a fixed number of digits. `value` reads a list of digits from the left and
`digits` writes a number with a given length; each undoes the other.
-/

namespace BigEndian

/-- The number that a list of digits denotes. -/
def value (b : Nat) (ds : List Nat) : Nat := ds.foldl (fun acc d => acc * b + d) 0

/-- The last `len` digits of a number. -/
def digits (b len n : Nat) : List Nat :=
  (List.range len).map fun i => n / b ^ (len - i - 1) % b

variable {b : Nat}

@[simp] theorem value_nil : value b [] = 0 := rfl

theorem value_concat (ds : List Nat) (d : Nat) : value b (ds ++ [d]) = value b ds * b + d := by
  simp [value]

/-- The last digit splits off as a remainder. -/
theorem digits_succ (len n : Nat) : digits b (len + 1) n = digits b len (n / b) ++ [n % b] := by
  unfold digits
  rw [List.range_succ, List.map_append, List.map_singleton]
  congr 1
  · apply List.map_congr_left
    intro i member
    have small := List.mem_range.mp member
    rw [show len + 1 - i - 1 = len - i - 1 + 1 by omega, Nat.pow_succ', Nat.div_div_eq_div_mul]
  · simp

theorem value_lt (ds : List Nat) (small : ∀ d ∈ ds, d < b) : value b ds < b ^ ds.length := by
  induction ds using List.reverseRecOn with
  | nil => simp
  | append_singleton ds d ih =>
      have last : d < b := small d (by simp)
      have front := ih fun e member => small e (by simp [member])
      rw [value_concat, List.length_append, List.length_singleton, Nat.pow_succ]
      calc value b ds * b + d < value b ds * b + b := by omega
        _ = (value b ds + 1) * b := by ring
        _ ≤ b ^ ds.length * b := Nat.mul_le_mul_right b front

/-- Reading back what was written gives the number, as far as the digits reach. -/
theorem value_digits (len n : Nat) : value b (digits b len n) = n % b ^ len := by
  induction len generalizing n with
  | zero => simp [digits, Nat.mod_one]
  | succ len ih =>
      rw [digits_succ, value_concat, ih, Nat.pow_succ', Nat.mod_mul]
      ring

/-- Writing what was read gives the digits back. -/
theorem digits_value (ds : List Nat) (small : ∀ d ∈ ds, d < b) :
    digits b ds.length (value b ds) = ds := by
  induction ds using List.reverseRecOn with
  | nil => rfl
  | append_singleton ds d ih =>
      have last : d < b := small d (by simp)
      have front := ih fun e member => small e (by simp [member])
      have high : (value b ds * b + d) / b = value b ds := by
        rw [Nat.add_comm, Nat.add_mul_div_right _ _ (by omega), Nat.div_eq_of_lt last,
          Nat.zero_add]
      have low : (value b ds * b + d) % b = d := by
        rw [Nat.add_mod, Nat.mul_mod_left, Nat.zero_add, Nat.mod_mod, Nat.mod_eq_of_lt last]
      rw [value_concat, List.length_append, List.length_singleton, digits_succ, high, low, front]

end BigEndian
