import Sponge.Buffer
import Sponge.Lib.BigEndian

/-!
# Parsing and unparsing network integers

`NetParser` and `NetUnparser` of `parser.hh` and `parser.cc`. The source has one
template for each direction, instantiated at `uint8_t`, `uint16_t` and
`uint32_t`; here a `Width` picks the instance, and the integers are bit vectors
of that width, with shifts and sums truncated as an assignment to the integer
truncates them. The parser accumulates from the left, the unparser shifts from
the right; both are big-endian notation in base 256.
-/

namespace Sponge

/-- The result of parsing. -/
inductive ParseResult where
  | noError
  | badChecksum
  | packetTooShort
  | wrongIPVersion
  | headerTooShort
  | truncatedPacket
  | unsupported
  deriving DecidableEq, Repr

/-- The integer types that the templates are instantiated at. -/
inductive Width where
  | u8
  | u16
  | u32
  deriving DecidableEq, Repr

/-- The size of the type in bytes. -/
def Width.len : Width → Nat
  | .u8 => 1
  | .u16 => 2
  | .u32 => 4

abbrev Width.bits (w : Width) : Nat := 8 * w.len

/-- The number that a byte string denotes in network byte order. -/
def bigEndian (bytes : Bytes) : Nat := BigEndian.value 256 (bytes.map UInt8.toNat)

theorem bigEndian_concat (bytes : Bytes) (byte : UInt8) :
    bigEndian (bytes ++ [byte]) = bigEndian bytes * 256 + byte.toNat := by
  unfold bigEndian
  rw [List.map_append, List.map_singleton, BigEndian.value_concat]

theorem bigEndian_lt (bytes : Bytes) : bigEndian bytes < 256 ^ bytes.length := by
  have bound := BigEndian.value_lt (b := 256) (bytes.map UInt8.toNat) (by
    intro d member
    obtain ⟨byte, -, rfl⟩ := List.mem_map.mp member
    exact byte.toNat_lt)
  rwa [List.length_map] at bound

/-! ## The parser -/

/-- The unparsed rest of the data, and the result of parsing so far. -/
structure NetParser where
  buffer : Buffer
  result : ParseResult

namespace NetParser

/-- The constructor. -/
def ofBuffer (buffer : Buffer) : NetParser := ⟨buffer, .noError⟩

def getError (p : NetParser) : ParseResult := p.result

def setError (p : NetParser) (res : ParseResult) : NetParser := { p with result := res }

def error (p : NetParser) : Bool := p.getError != .noError

/-- Check that there is sufficient data to parse the next token. -/
def checkSize (p : NetParser) (size : Nat) : NetParser :=
  if size > p.buffer.size then p.setError .packetTooShort else p

/-- The loop of `_parse_int`. -/
def accumulate (w : Width) (buffer : Buffer) : Except Exn (BitVec w.bits) :=
  (List.range w.len).foldlM (fun ret i => do
    let byte ← buffer.byteAt i
    return (ret <<< 8) + byte.toBitVec.setWidth w.bits) 0

def parseInt (w : Width) (p : NetParser) : Except Exn (BitVec w.bits × NetParser) := do
  let p := p.checkSize w.len
  if p.error then
    return (0, p)
  let ret ← accumulate w p.buffer
  let buffer ← p.buffer.removePrefix w.len
  return (ret, { p with buffer := buffer })

def removePrefix (p : NetParser) (n : Nat) : Except Exn NetParser := do
  let p := p.checkSize n
  if p.error then
    return p
  let buffer ← p.buffer.removePrefix n
  return { p with buffer := buffer }

def u8 (p : NetParser) : Except Exn (BitVec 8 × NetParser) := p.parseInt .u8

def u16 (p : NetParser) : Except Exn (BitVec 16 × NetParser) := p.parseInt .u16

def u32 (p : NetParser) : Except Exn (BitVec 32 × NetParser) := p.parseInt .u32

theorem error_eq_false {p : NetParser} : p.error = false ↔ p.result = .noError := by
  simp [error, getError]

theorem error_eq_true {p : NetParser} : p.error = true ↔ p.result ≠ .noError := by
  simp [error, getError]

theorem checkSize_of_le {p : NetParser} {size : Nat} (le : size ≤ p.buffer.str.length) :
    p.checkSize size = p :=
  if_neg (Nat.not_lt.mpr le)

theorem checkSize_of_gt {p : NetParser} {size : Nat} (short : p.buffer.str.length < size) :
    p.checkSize size = p.setError .packetTooShort :=
  if_pos short

/-- An error is never cleared by the size check. -/
theorem error_checkSize {p : NetParser} (failed : p.error = true) (size : Nat) :
    (p.checkSize size).error = true := by
  unfold checkSize
  split
  · rfl
  · exact failed

/-- One iteration: shifting in a byte multiplies by 256 and adds, modulo the width. -/
theorem shift_add (bits value : Nat) (byte : UInt8) :
    (BitVec.ofNat bits value <<< 8) + byte.toBitVec.setWidth bits =
      BitVec.ofNat bits (value * 256 + byte.toNat) := by
  apply BitVec.eq_of_toNat_eq
  rw [BitVec.toNat_add, BitVec.toNat_shiftLeft, BitVec.toNat_setWidth, BitVec.toNat_ofNat,
    BitVec.toNat_ofNat, Nat.shiftLeft_eq, UInt8.toNat_toBitVec]
  simp [Nat.add_mod, Nat.mul_mod]

/-- The loop reads the first bytes as one big-endian number. -/
theorem accumulate_eq {w : Width} {buffer : Buffer} (le : w.len ≤ buffer.str.length) :
    accumulate w buffer = .ok (BitVec.ofNat w.bits (bigEndian (buffer.str.take w.len))) := by
  suffices general : ∀ k ≤ buffer.str.length,
      (List.range k).foldlM (fun (ret : BitVec w.bits) i => do
        let byte ← buffer.byteAt i
        return (ret <<< 8) + byte.toBitVec.setWidth w.bits) 0 =
      (.ok (BitVec.ofNat w.bits (bigEndian (buffer.str.take k))) : Except Exn _) from
    general w.len le
  intro k
  induction k with
  | zero => intro _; rfl
  | succ k ih =>
      intro inside
      have here : buffer.byteAt k = .ok buffer.str[k] := by
        rw [Buffer.byteAt, List.getElem?_eq_getElem inside]
      rw [List.range_succ, List.foldlM_append, ih (by omega), List.take_succ_eq_append_getElem inside,
        bigEndian_concat, ← shift_add]
      simp only [List.foldlM_cons, List.foldlM_nil, here, bind, Except.bind, pure, Except.pure]

theorem parseInt_of_le {w : Width} {p : NetParser} (fresh : p.result = .noError)
    (le : w.len ≤ p.buffer.str.length) :
    ∃ buffer, p.parseInt w = .ok (BitVec.ofNat w.bits (bigEndian (p.buffer.str.take w.len)),
        { p with buffer := buffer }) ∧ buffer.str = p.buffer.str.drop w.len := by
  obtain ⟨buffer, removed, left⟩ := Buffer.removePrefix_of_le le
  refine ⟨buffer, ?_, left⟩
  have clean : p.error = false := error_eq_false.mpr fresh
  simp only [parseInt, checkSize_of_le le, clean, accumulate_eq le, removed]
  rfl

theorem removePrefix_of_le {p : NetParser} {n : Nat} (fresh : p.result = .noError)
    (le : n ≤ p.buffer.str.length) :
    ∃ buffer, p.removePrefix n = .ok { p with buffer := buffer } ∧
      buffer.str = p.buffer.str.drop n := by
  obtain ⟨buffer, removed, left⟩ := Buffer.removePrefix_of_le le
  refine ⟨buffer, ?_, left⟩
  have clean : p.error = false := error_eq_false.mpr fresh
  simp only [removePrefix, checkSize_of_le le, clean, removed]
  rfl

theorem parseInt_of_error {w : Width} {p : NetParser} (failed : (p.checkSize w.len).error = true) :
    p.parseInt w = .ok (0, p.checkSize w.len) := by
  simp only [parseInt, failed]
  rfl

theorem removePrefix_of_error {n : Nat} {p : NetParser} (failed : (p.checkSize n).error = true) :
    p.removePrefix n = .ok (p.checkSize n) := by
  simp only [removePrefix, failed]
  rfl

end NetParser

/-! ## The unparser -/

namespace NetUnparser

/-- The byte that iteration `i` of `_unparse_int` appends. -/
def theByte {w : Width} (val : BitVec w.bits) (i : Nat) : UInt8 :=
  UInt8.ofBitVec (((val >>> ((w.len - i - 1) * 8)) &&& 0xff).setWidth 8)

def unparseInt (w : Width) (s : Bytes) (val : BitVec w.bits) : Bytes :=
  (List.range w.len).foldl (fun s i => s ++ [theByte val i]) s

def u8 (s : Bytes) (val : BitVec 8) : Bytes := unparseInt .u8 s val

def u16 (s : Bytes) (val : BitVec 16) : Bytes := unparseInt .u16 s val

def u32 (s : Bytes) (val : BitVec 32) : Bytes := unparseInt .u32 s val

/-- The bytes that one integer is unparsed to. -/
def encode {w : Width} (val : BitVec w.bits) : Bytes := (List.range w.len).map (theByte val)

theorem unparseInt_eq (w : Width) (s : Bytes) (val : BitVec w.bits) :
    unparseInt w s val = s ++ encode val := by
  unfold unparseInt encode
  rw [List.foldl_append_eq_append, ← List.flatMap_def, ← List.map_eq_flatMap]

@[simp] theorem length_encode {w : Width} (val : BitVec w.bits) :
    (encode val).length = w.len := by
  simp [encode]

theorem theByte_toNat {w : Width} (val : BitVec w.bits) (i : Nat) :
    (theByte val i).toNat = val.toNat / 256 ^ (w.len - i - 1) % 256 := by
  have power : 2 ^ ((w.len - i - 1) * 8) = 256 ^ (w.len - i - 1) := by
    rw [Nat.mul_comm, Nat.pow_mul]
  have mask : ((0xff : BitVec w.bits)).toNat = 2 ^ 8 - 1 := by
    cases w <;> rfl
  unfold theByte
  rw [UInt8.toNat_ofBitVec, BitVec.toNat_setWidth, BitVec.toNat_and, BitVec.toNat_ushiftRight,
    mask, Nat.and_two_pow_sub_one_eq_mod, Nat.shiftRight_eq_div_pow, power, Nat.mod_mod]

theorem map_toNat_encode {w : Width} (val : BitVec w.bits) :
    (encode val).map UInt8.toNat = BigEndian.digits 256 w.len val.toNat := by
  unfold encode BigEndian.digits
  rw [List.map_map]
  apply List.map_congr_left
  intro i _
  exact theByte_toNat val i

theorem modulus_eq (w : Width) : 256 ^ w.len = 2 ^ w.bits := by
  rw [Width.bits, Nat.pow_mul]

/-- Reading an unparsed integer gives its value. -/
theorem bigEndian_encode {w : Width} (val : BitVec w.bits) : bigEndian (encode val) = val.toNat := by
  unfold bigEndian
  rw [map_toNat_encode, BigEndian.value_digits, modulus_eq, Nat.mod_eq_of_lt val.isLt]

/-- Unparsing the number that bytes denote gives the bytes. -/
theorem encode_bigEndian {w : Width} {bytes : Bytes} (length : bytes.length = w.len) :
    encode (BitVec.ofNat w.bits (bigEndian bytes)) = bytes := by
  have bound := bigEndian_lt bytes
  rw [length, modulus_eq] at bound
  have small : ∀ d ∈ bytes.map UInt8.toNat, d < 256 := by
    intro d member
    obtain ⟨byte, -, rfl⟩ := List.mem_map.mp member
    exact byte.toNat_lt
  apply List.map_injective_iff.mpr fun a b => UInt8.toNat_inj.mp
  rw [map_toNat_encode, BitVec.toNat_ofNat, Nat.mod_eq_of_lt bound, ← length,
    ← List.length_map (f := UInt8.toNat), bigEndian, BigEndian.digits_value _ small]

end NetUnparser

end Sponge
