import Mathlib.Algebra.BigOperators.Group.List.Basic
import Mathlib.Data.Int.ModEq

/-!
# Machine integers, exceptions and the system call wrapper

The parts of `util.cc` and of the language that every other module of the model
uses: byte strings, the arithmetic of `size_t` and `ssize_t`, the exceptions the
library throws and `SystemCall`, which every kernel call goes through.
-/

namespace Sponge

/-- The contents of a `std::string` or `std::string_view`. -/
abbrev Bytes := List UInt8

/-! ## Integer conversions -/

/-- The number of values of a `size_t`. -/
abbrev sizeModulus : Nat := 2 ^ 64

/-- Addition of two `size_t` values. -/
def sizeAdd (a b : Nat) : Nat := (a + b) % sizeModulus

/-- Subtraction of two `size_t` values. -/
def sizeSub (a b : Nat) : Nat := (a + (sizeModulus - b % sizeModulus)) % sizeModulus

/-- Conversion of a signed 64-bit value to `size_t`. -/
def toSize (v : Int) : Nat := (v % sizeModulus).toNat

/-- Conversion of a `size_t` value to `ssize_t`. -/
def toSsize (n : Nat) : Int := (n : Int).bmod sizeModulus

/-- Conversion of a signed 64-bit value to `int`. -/
def toInt (v : Int) : Int := v.bmod (2 ^ 32)

theorem sizeAdd_of_lt {a b : Nat} (fits : a + b < sizeModulus) : sizeAdd a b = a + b :=
  Nat.mod_eq_of_lt fits

/-- A loop that sums sizes is exact as long as the total is a `size_t`. -/
theorem foldl_sizeAdd {α : Type*} {size : α → Nat} {xs : List α} {ret : Nat}
    (fits : ret + (xs.map size).sum < sizeModulus) :
    xs.foldl (fun ret x => sizeAdd ret (size x)) ret = ret + (xs.map size).sum := by
  induction xs generalizing ret with
  | nil => rfl
  | cons x xs ih =>
      rw [List.map_cons, List.sum_cons, ← Nat.add_assoc] at fits ⊢
      have head : sizeAdd ret (size x) = ret + size x := sizeAdd_of_lt (by omega)
      rw [List.foldl_cons, head, ih fits]

theorem sizeSub_of_le {a b : Nat} (fits : a < sizeModulus) (le : b ≤ a) :
    sizeSub a b = a - b := by
  unfold sizeSub sizeModulus at *
  omega

theorem toSize_natCast {n : Nat} (fits : n < sizeModulus) : toSize n = n := by
  unfold toSize sizeModulus at *
  omega

theorem toSsize_of_lt {n : Nat} (fits : n < 2 ^ 63) : toSsize n = n := by
  unfold toSsize sizeModulus
  rw [Int.bmod_eq_of_le] <;> omega

theorem toInt_of_range {v : Int} (low : -(2 ^ 31) ≤ v) (high : v < 2 ^ 31) : toInt v = v := by
  unfold toInt
  rw [Int.bmod_eq_of_le] <;> omega

/-! ## Exceptions -/

/-- The exceptions of the library, with the text or error code they carry, and
those that the program around it throws from its own functions. -/
inductive Exn where
  | runtimeError (what : String)
  | outOfRange (what : String)
  | lengthError (what : String)
  | unixError (attempt : String) (code : Int)
  | client (tag : Nat)
  deriving DecidableEq, Repr

/-- A sequence of two steps returns if both return. -/
theorem bind_eq_ok {ε α β : Type} {x : Except ε α} {f : α → Except ε β} {b : β} :
    x >>= f = .ok b ↔ ∃ a, x = .ok a ∧ f a = .ok b := by
  cases x with
  | error e => exact ⟨nofun, fun ⟨_, wrong, _⟩ => nomatch wrong⟩
  | ok a => exact ⟨fun returned => ⟨a, rfl, returned⟩, fun ⟨_, rfl, returned⟩ => returned⟩

/-! ## System calls -/

/-- What a system call left behind: its return value and `errno`. -/
structure SysResult where
  returnValue : Int
  errno : Int
  deriving DecidableEq, Repr

/-- `SystemCall`. The return value of the call is converted to `int` when it is
passed, and the default of `errnoMask` is `0`. -/
def systemCall (attempt : String) (call : SysResult) (errnoMask : Int := 0) : Except Exn Int :=
  if 0 ≤ toInt call.returnValue ∨ call.errno = errnoMask then
    .ok (toInt call.returnValue)
  else
    .error (.unixError attempt call.errno)

/-- A call that returned a non-negative `int` passes through unchanged. -/
theorem systemCall_of_nonneg {attempt : String} {call : SysResult}
    (low : 0 ≤ call.returnValue) (high : call.returnValue < 2 ^ 31) :
    systemCall attempt call = .ok call.returnValue := by
  unfold systemCall
  rw [toInt_of_range (by omega) high, if_pos (Or.inl low)]

/-- A call that failed with a proper `errno` throws. -/
theorem systemCall_of_failed (attempt : String) {call : SysResult}
    (failed : call.returnValue = -1) (error : call.errno ≠ 0) :
    systemCall attempt call = .error (.unixError attempt call.errno) := by
  unfold systemCall
  rw [toInt_of_range (by omega) (by omega), if_neg (by omega)]

end Sponge
