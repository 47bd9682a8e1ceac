import Mathlib.Data.List.Basic
import Mathlib.Data.List.Range
import Sponge.SystemCall

/-!
# Hexdumps

The function `hexdump` of `util.cc`, with the parts of the standard streams that it
uses: the format flags, the field width, which lasts for one output, and the fill
character. It goes through the bytes one at a time and keeps the characters of the
current line aside in a `stringstream`, which starts with a space in it that the
first character overwrites.

What comes out is one line for each 16 bytes, with the text at the same column in
all of them, and the bytes can be read back from it.
-/

namespace Sponge

/-! ## Output streams -/

inductive Base where
  | dec
  | oct
  | hex
  deriving DecidableEq, Repr

/-- The flags of a stream that matter for the output of numbers and strings. -/
structure FmtFlags where
  base : Base
  left : Bool
  showbase : Bool
  uppercase : Bool
  deriving DecidableEq, Repr

/-- What was written to a stream, and its state. -/
structure OStream where
  text : List Char
  flags : FmtFlags
  width : Nat
  fill : Char

namespace OStream

/-- Formatted output of characters. The width is reset. -/
def put (s : OStream) (chars : List Char) : OStream :=
  let padding := List.replicate (s.width - chars.length) s.fill
  { s with
    text := s.text ++ if s.flags.left then chars ++ padding else padding ++ chars
    width := 0 }

def digits (flags : FmtFlags) (n : Nat) : List Char :=
  match flags.base with
  | .dec => Nat.toDigits 10 n
  | .oct => if flags.showbase ∧ n ≠ 0 then '0' :: Nat.toDigits 8 n else Nat.toDigits 8 n
  | .hex =>
      let digits := Nat.toDigits 16 n
      let digits := if flags.uppercase then digits.map Char.toUpper else digits
      if flags.showbase ∧ n ≠ 0 then
        '0' :: (if flags.uppercase then 'X' else 'x') :: digits
      else digits

/-- Formatted output of an `int` that is not negative. -/
def putInt (s : OStream) (n : Nat) : OStream := s.put (digits s.flags n)

/-- The manipulator `setw`. -/
def setw (s : OStream) (width : Nat) : OStream := { s with width := width }

/-- The manipulator `setfill`. -/
def setfill (s : OStream) (fill : Char) : OStream := { s with fill := fill }

/-- The manipulator `hex`. -/
def hex (s : OStream) : OStream := { s with flags := { s.flags with base := .hex } }

/-- A stream whose format nobody has changed, but for its base and its fill character. -/
structure Plain (s : OStream) : Prop where
  right : s.flags.left = false
  bare : s.flags.showbase = false
  lower : s.flags.uppercase = false
  width : s.width = 0

end OStream

/-- A `stringstream`: its contents and the position of the next output. -/
structure StringStream where
  str : List Char
  position : Nat
  deriving DecidableEq, Repr

namespace StringStream

/-- The constructor from a string, and the member function `str` that replaces the
contents: the output starts at the front. -/
def ofStr (str : List Char) : StringStream := ⟨str, 0⟩

def put (s : StringStream) (c : Char) : StringStream where
  str := if s.position < s.str.length then s.str.set s.position c else s.str ++ [c]
  position := s.position + 1

end StringStream

namespace Hexdump

/-- The function `isprint` in the default locale. -/
def isprint (byte : UInt8) : Bool := 0x20 ≤ byte && byte ≤ 0x7e

/-- The character that stands for a byte. -/
def pchar (byte : UInt8) : Char := if isprint byte then Char.ofNat byte.toNat else '.'

/-- The variables of the loop. -/
structure Loop where
  cout : OStream
  printed : Nat
  pchars : StringStream

/-- One iteration of the loop. -/
def printByte (indentString : List Char) (s : Loop) (byte : UInt8) : Loop :=
  let s :=
    if s.printed &&& 0xf = 0 then
      let s :=
        if s.printed ≠ 0 then
          { s with
            cout := ((s.cout.put (List.replicate 4 ' ')).put s.pchars.str).put ['\n']
            pchars := .ofStr [' '] }
        else s
      let cout := ((s.cout.put indentString).setw 8).putInt s.printed
      { s with cout := cout.put (':' :: List.replicate 4 ' ') }
    else if s.printed &&& 1 = 0 then
      { s with cout := s.cout.put [' '] }
    else s
  { cout := (s.cout.setw 2).putInt byte.toNat
    printed := s.printed + 1
    pchars := s.pchars.put (pchar byte) }

/-- The function `hexdump`, for less than 2^31 bytes. -/
def hexdump (cout : OStream) (data : Bytes) (indent : Nat) : OStream :=
  let flags := cout.flags
  let indentString := List.replicate indent ' '
  let s := data.foldl (printByte indentString) ⟨cout.hex.setfill '0', 0, .ofStr [' ']⟩
  let printRem := (16 - (s.printed &&& 0xf)) % 16
  let cout := s.cout.put (List.replicate (2 * printRem + printRem / 2 + 4) ' ')
  let cout := (cout.put s.pchars.str).put ['\n']
  { cout with text := cout.text ++ ['\n'], flags := flags }

/-! ## Lines -/

/-- A number with zeros in front of it. -/
def hexField (width n : Nat) : List Char :=
  List.replicate (width - (Nat.toDigits 16 n).length) '0' ++ Nat.toDigits 16 n

/-- The front of a line. -/
def head (indent offset : Nat) : List Char :=
  List.replicate indent ' ' ++ hexField 8 offset ++ ':' :: List.replicate 4 ' '

/-- The bytes of a line, two by two. -/
def columns (row : Bytes) : List Char :=
  row.zipIdx.flatMap fun (byte, i) =>
    (if i ≠ 0 ∧ i % 2 = 0 then [' '] else []) ++ hexField 2 byte.toNat

/-- The spaces after the bytes of a line that is not full. -/
def filler (row : Bytes) : List Char :=
  List.replicate (2 * (16 - row.length) + (16 - row.length) / 2) ' '

def line (indent offset : Nat) (row : Bytes) : List Char :=
  head indent offset ++ columns row ++ filler row ++ List.replicate 4 ' ' ++ row.map pchar

/-- The bytes of the line with a number. -/
def rowAt (data : Bytes) (i : Nat) : Bytes := (data.drop (16 * i)).take 16

/-- All lines of a dump. -/
def lines (indent : Nat) (data : Bytes) : List (List Char) :=
  (List.range ((data.length + 15) / 16)).map fun i => line indent (16 * i) (rowAt data i)

/-! ## The loop -/

/-- The stream while the dump is written to it. -/
def screen (cout : OStream) (text : List Char) : OStream :=
  { cout.hex.setfill '0' with text := text }

variable {cout : OStream}

theorem put_screen (plain : cout.Plain) (text chars : List Char) :
    (screen cout text).put chars = screen cout (text ++ chars) := by
  have width : cout.width = 0 := plain.width
  have right : cout.flags.left = false := plain.right
  simp [screen, OStream.put, OStream.hex, OStream.setfill, width, right]

theorem putInt_screen (plain : cout.Plain) (text : List Char) (width n : Nat) :
    ((screen cout text).setw width).putInt n = screen cout (text ++ hexField width n) := by
  have none : cout.width = 0 := plain.width
  have right : cout.flags.left = false := plain.right
  have bare : cout.flags.showbase = false := plain.bare
  have lower : cout.flags.uppercase = false := plain.lower
  simp [screen, OStream.putInt, OStream.put, OStream.digits, OStream.setw, OStream.hex,
    OStream.setfill, hexField, none, right, bare, lower]

theorem and_fifteen (n : Nat) : n &&& 0xf = n % 16 := Nat.and_two_pow_sub_one_eq_mod n 4

/-- The bytes of the line that is being written. -/
def current (done : Bytes) : Bytes := done.drop (16 * ((done.length - 1) / 16))

/-- What was written when some bytes have been printed. -/
def written (indent : Nat) (done : Bytes) : List Char :=
  ((List.range ((done.length - 1) / 16)).flatMap fun i =>
    line indent (16 * i) (rowAt done i) ++ ['\n']) ++
  head indent (16 * ((done.length - 1) / 16)) ++ columns (current done)

/-- The variables of the loop when some bytes have been printed. -/
def printed (cout : OStream) (indent : Nat) (done : Bytes) : Loop where
  cout := screen cout (cout.text ++ written indent done)
  printed := done.length
  pchars := ⟨(current done).map pchar, (current done).length⟩

theorem columns_append (row : Bytes) (byte : UInt8) :
    columns (row ++ [byte]) = columns row ++
      ((if row.length ≠ 0 ∧ row.length % 2 = 0 then [' '] else []) ++ hexField 2 byte.toNat) := by
  unfold columns
  rw [List.zipIdx_append, List.flatMap_append]
  simp

/-- The lines before the current one do not change. -/
theorem rowAt_append {done : Bytes} {i : Nat} (full : 16 * i + 16 ≤ done.length)
    (more : Bytes) : rowAt (done ++ more) i = rowAt done i := by
  unfold rowAt
  rw [List.drop_append_of_le_length (by omega),
    List.take_append_of_le_length (by rw [List.length_drop]; omega)]

theorem earlier_append (indent : Nat) (done more : Bytes) :
    ((List.range ((done.length - 1) / 16)).flatMap fun i =>
      line indent (16 * i) (rowAt (done ++ more) i) ++ ['\n']) =
      (List.range ((done.length - 1) / 16)).flatMap fun i =>
        line indent (16 * i) (rowAt done i) ++ ['\n'] := by
  apply List.flatMap_congr
  intro i member
  have bound := List.mem_range.mp member
  rw [rowAt_append (by omega)]

theorem printed_first (plain : cout.Plain) (indent : Nat) (byte : UInt8) :
    printByte (List.replicate indent ' ') ⟨screen cout cout.text, 0, .ofStr [' ']⟩ byte =
      printed cout indent [byte] := by
  simp only [printByte, Nat.zero_and, if_true, ne_eq, not_true_eq_false, if_false,
    put_screen plain, putInt_screen plain]
  simp [printed, written, current, head, columns, StringStream.put, StringStream.ofStr]

theorem put_end (chars : List Char) (c : Char) :
    StringStream.put ⟨chars, chars.length⟩ c = ⟨chars ++ [c], chars.length + 1⟩ := by
  simp [StringStream.put]

/-- Where the current line starts. -/
theorem length_current (done : Bytes) :
    (current done).length = done.length - 16 * ((done.length - 1) / 16) := List.length_drop

theorem length_append_pred (done : Bytes) (byte : UInt8) :
    (done ++ [byte]).length - 1 = done.length := by simp

/-- A byte goes to the current line. -/
theorem written_same (indent : Nat) {done : Bytes} (open_ : done.length % 16 ≠ 0) (byte : UInt8) :
    current (done ++ [byte]) = current done ++ [byte] ∧
      written indent (done ++ [byte]) = written indent done ++
        ((if done.length % 2 = 0 then [' '] else []) ++ hexField 2 byte.toNat) := by
  have same : ((done ++ [byte]).length - 1) / 16 = (done.length - 1) / 16 := by
    rw [length_append_pred]
    omega
  have row : current (done ++ [byte]) = current done ++ [byte] := by
    rw [current, same, List.drop_append_of_le_length (by omega), current]
  have length := length_current done
  have parity : ((current done).length ≠ 0 ∧ (current done).length % 2 = 0) ↔
      done.length % 2 = 0 := by omega
  refine ⟨row, ?_⟩
  unfold written
  rw [same, row, columns_append, earlier_append]
  simp only [parity, List.append_assoc]

/-- The current line is complete, and a byte starts the next one. -/
theorem written_next (indent : Nat) {done : Bytes} (nonempty : done ≠ [])
    (full : done.length % 16 = 0) (byte : UInt8) :
    current (done ++ [byte]) = [byte] ∧
      written indent (done ++ [byte]) = written indent done ++ List.replicate 4 ' ' ++
        (current done).map pchar ++ ['\n'] ++ head indent done.length ++
          hexField 2 byte.toNat := by
  have positive : 0 < done.length := List.length_pos_of_ne_nil nonempty
  have next : ((done ++ [byte]).length - 1) / 16 = (done.length - 1) / 16 + 1 := by
    rw [length_append_pred]
    omega
  have place : 16 * ((done.length - 1) / 16 + 1) = done.length := by omega
  have row : current (done ++ [byte]) = [byte] := by
    rw [current, next, place, List.drop_left]
  have length := length_current done
  have last : rowAt (done ++ [byte]) ((done.length - 1) / 16) = current done := by
    rw [rowAt_append (by omega), rowAt, current, List.take_of_length_le]
    rw [List.length_drop]
    omega
  have gap : filler (current done) = [] := by
    rw [filler, length, show 16 - (done.length - 16 * ((done.length - 1) / 16)) = 0 by omega]
    rfl
  refine ⟨row, ?_⟩
  have first : columns [byte] = hexField 2 byte.toNat := by simp [columns]
  unfold written
  rw [next, row, List.range_succ, List.flatMap_append, earlier_append, place, first]
  simp [line, last, gap]

theorem printed_append (plain : cout.Plain) (indent : Nat) {done : Bytes} (nonempty : done ≠ [])
    (byte : UInt8) :
    printByte (List.replicate indent ' ') (printed cout indent done) byte =
      printed cout indent (done ++ [byte]) := by
  have positive : 0 < done.length := List.length_pos_of_ne_nil nonempty
  by_cases full : done.length % 16 = 0
  · obtain ⟨row, text⟩ := written_next indent nonempty full byte
    simp only [printByte, printed, and_fifteen, full, if_true, ne_eq, positive.ne',
      not_false_eq_true, put_screen plain, putInt_screen plain, row, text]
    simp [head, StringStream.put, StringStream.ofStr]
  · obtain ⟨row, text⟩ := written_same indent full byte
    have end_ := put_end ((current done).map pchar) (pchar byte)
    rw [List.length_map] at end_
    simp only [printByte, printed, and_fifteen, full, if_false, Nat.and_one_is_mod, row, text]
    split
    · simp [put_screen plain, putInt_screen plain, end_]
    · simp [putInt_screen plain, end_]

theorem printed_foldl (plain : cout.Plain) (indent : Nat) {done : Bytes} (nonempty : done ≠ [])
    (rest : Bytes) :
    rest.foldl (printByte (List.replicate indent ' ')) (printed cout indent done) =
      printed cout indent (done ++ rest) := by
  induction rest generalizing done with
  | nil => rw [List.foldl_nil, List.append_nil]
  | cons byte rest ih =>
      rw [List.foldl_cons, printed_append plain indent nonempty, ih (by simp), List.append_assoc]
      rfl

theorem intercalate_append {α : Type} (x : α) (ls : List (List α)) (last : List α) :
    [x].intercalate (ls ++ [last]) = ls.flatMap (· ++ [x]) ++ last := by
  induction ls with
  | nil => simp
  | cons l ls ih =>
      cases ls with
      | nil => simp [List.intercalate]
      | cons l' ls => simp_all [List.intercalate]

/-- What is written, line by line. -/
theorem hexdump_eq (plain : cout.Plain) {data : Bytes} (nonempty : data ≠ []) (indent : Nat) :
    hexdump cout data indent =
      { cout with
        text := cout.text ++ ['\n'].intercalate (lines indent data ++ [[], []])
        fill := '0' } := by
  have positive : 0 < data.length := List.length_pos_of_ne_nil nonempty
  have loop : data.foldl (printByte (List.replicate indent ' '))
      ⟨screen cout cout.text, 0, .ofStr [' ']⟩ = printed cout indent data := by
    obtain ⟨byte, rest, rfl⟩ := List.exists_cons_of_ne_nil nonempty
    rw [List.foldl_cons, printed_first plain, printed_foldl plain indent (by simp)]
    rfl
  have count : (data.length + 15) / 16 = (data.length - 1) / 16 + 1 := by omega
  have length := length_current data
  have rem : (16 - data.length % 16) % 16 = 16 - (current data).length := by omega
  have last : rowAt data ((data.length - 1) / 16) = current data := by
    rw [rowAt, List.take_of_length_le (by rw [List.length_drop]; omega), current]
  have text : ['\n'].intercalate (lines indent data ++ [[], []]) =
      written indent data ++ filler (current data) ++ List.replicate 4 ' ' ++
        (current data).map pchar ++ ['\n'] ++ ['\n'] := by
    rw [show lines indent data ++ [[], []] = lines indent data ++ [[]] ++ [[]] by simp,
      intercalate_append, lines, count, List.range_succ]
    simp [List.flatMap_map, line, last, written]
  have start : cout.hex.setfill '0' = screen cout cout.text := rfl
  have gap : List.replicate
      (2 * (16 - (current data).length) + (16 - (current data).length) / 2 + 4) ' ' =
      filler (current data) ++ List.replicate 4 ' ' := by
    rw [filler, List.replicate_add]
  unfold hexdump
  dsimp only
  rw [start, loop, text]
  simp only [printed, and_fifteen, rem, gap, put_screen plain]
  simp [screen, OStream.hex, OStream.setfill]

/-! ## Reading a dump -/

def hexValue (c : Char) : Nat := if c.isDigit then c.toNat - '0'.toNat else c.toNat - 'a'.toNat + 10

def readHex (chars : List Char) : Nat := chars.foldl (fun n c => 16 * n + hexValue c) 0

def readBytes : List Char → Bytes
  | high :: low :: rest => UInt8.ofNat (readHex [high, low]) :: readBytes rest
  | _ => []

/-- The offset and the bytes of a line. -/
def readLine (indent : Nat) (chars : List Char) : Nat × Bytes :=
  (readHex ((chars.drop indent).take 8),
    readBytes (((chars.drop (indent + 13)).take 39).filter (· ≠ ' ')))

theorem digitChar_hex {d : Nat} (small : d < 16) :
    hexValue d.digitChar = d ∧ d.digitChar ≠ ' ' ∧ d.digitChar ≠ '\n' := by
  have all : ∀ d < 16, hexValue d.digitChar = d ∧ d.digitChar ≠ ' ' ∧ d.digitChar ≠ '\n' := by
    decide
  exact all d small

theorem readHex_toDigits (n : Nat) : readHex (Nat.toDigits 16 n) = n := by
  induction n using Nat.strongRecOn with
  | ind n ih =>
      by_cases small : n < 16
      · rw [Nat.toDigits_of_lt_base small]
        simpa [readHex] using (digitChar_hex small).1
      · rw [Nat.toDigits_of_base_le (by decide) (by omega), readHex, List.foldl_append]
        have earlier : _ = n / 16 := ih (n / 16) (by omega)
        rw [readHex] at earlier
        rw [earlier, List.foldl_cons, List.foldl_nil,
          (digitChar_hex (Nat.mod_lt n (by decide))).1]
        omega

theorem mem_toDigits {n : Nat} {c : Char} (member : c ∈ Nat.toDigits 16 n) :
    c ≠ ' ' ∧ c ≠ '\n' := by
  induction n using Nat.strongRecOn with
  | ind n ih =>
      by_cases small : n < 16
      · rw [Nat.toDigits_of_lt_base small, List.mem_singleton] at member
        rw [member]
        exact (digitChar_hex small).2
      · rw [Nat.toDigits_of_base_le (by decide) (by omega), List.mem_append] at member
        rcases member with earlier | last
        · exact ih (n / 16) (by omega) earlier
        · rw [List.mem_singleton.mp last]
          exact (digitChar_hex (Nat.mod_lt n (by decide))).2

theorem mem_hexField {width n : Nat} {c : Char} (member : c ∈ hexField width n) :
    c ≠ ' ' ∧ c ≠ '\n' := by
  rcases List.mem_append.mp member with zero | digit
  · rw [List.eq_of_mem_replicate zero]
    decide
  · exact mem_toDigits digit

theorem readHex_hexField (width n : Nat) : readHex (hexField width n) = n := by
  have zeros : ∀ k, (List.replicate k '0').foldl (fun n c => 16 * n + hexValue c) 0 = 0 := by
    intro k
    induction k with
    | zero => rfl
    | succ k ih => rw [List.replicate_succ, List.foldl_cons]; exact ih
  rw [readHex, hexField, List.foldl_append, zeros]
  exact readHex_toDigits n

theorem length_hexField {width n : Nat} (positive : 0 < width) (small : n < 16 ^ width) :
    (hexField width n).length = width := by
  have fits := (Nat.length_toDigits_le_iff (b := 16) (by decide) positive).mpr small
  rw [hexField, List.length_append, List.length_replicate]
  omega

theorem length_hexField_byte (byte : UInt8) : (hexField 2 byte.toNat).length = 2 :=
  length_hexField (by decide) byte.toNat_lt

theorem length_columns (row : Bytes) :
    (columns row).length = 2 * row.length + (row.length - 1) / 2 := by
  induction row using List.reverseRecOn with
  | nil => rfl
  | append_singleton row byte ih =>
      rw [columns_append, List.length_append, ih, List.length_append, length_hexField_byte,
        List.length_append, List.length_singleton]
      split
      · next even =>
        rw [List.length_singleton]
        omega
      · next odd =>
        rw [List.length_nil]
        omega

/-- Without the spaces, the columns are the digits of the bytes. -/
theorem columns_filter (row : Bytes) :
    (columns row).filter (· ≠ ' ') = row.flatMap fun byte => hexField 2 byte.toNat := by
  induction row using List.reverseRecOn with
  | nil => rfl
  | append_singleton row byte ih =>
      have digits : (hexField 2 byte.toNat).filter (· ≠ ' ') = hexField 2 byte.toNat := by
        rw [List.filter_eq_self]
        intro c member
        simpa using (mem_hexField member).1
      rw [columns_append, List.filter_append, ih, List.filter_append, digits, List.flatMap_append]
      split
      · simp
      · simp

theorem readBytes_digits (row : Bytes) :
    readBytes (row.flatMap fun byte => hexField 2 byte.toNat) = row := by
  induction row with
  | nil => rfl
  | cons byte row ih =>
      obtain ⟨high, low, digits⟩ := List.length_eq_two.mp (length_hexField_byte byte)
      rw [List.flatMap_cons, digits, List.cons_append, List.cons_append, List.nil_append,
        readBytes, ih, ← digits, readHex_hexField, UInt8.ofNat_toNat]

theorem pchar_ne_newline (byte : UInt8) : pchar byte ≠ '\n' := by
  have all : ∀ n < 256, pchar (UInt8.ofNat n) ≠ '\n' := by decide +kernel
  have this := all byte.toNat byte.toNat_lt
  rwa [UInt8.ofNat_toNat] at this

theorem newline_notMem_columns (row : Bytes) : '\n' ∉ columns row := by
  intro member
  obtain ⟨⟨byte, i⟩, -, member⟩ := List.mem_flatMap.mp member
  rcases List.mem_append.mp member with gap | digit
  · split at gap
    · cases List.mem_singleton.mp gap
    · cases gap
  · exact (mem_hexField digit).2 rfl

theorem newline_notMem_line (indent offset : Nat) (row : Bytes) :
    '\n' ∉ line indent offset row := by
  have spaces : ∀ n, '\n' ∉ List.replicate n ' ' := by
    intro n member
    cases List.eq_of_mem_replicate member
  have number : '\n' ∉ hexField 8 offset := fun member => (mem_hexField member).2 rfl
  have text : '\n' ∉ row.map pchar := by
    intro member
    obtain ⟨byte, -, newline⟩ := List.mem_map.mp member
    exact pchar_ne_newline byte newline
  simp only [line, head, filler, List.mem_append, List.mem_cons, not_or]
  exact ⟨⟨⟨⟨⟨⟨spaces _, number⟩, by decide, spaces _⟩, newline_notMem_columns row⟩, spaces _⟩,
    spaces _⟩, text⟩

/-- All bytes of a dump are in its lines. -/
theorem rowAt_flatMap (data : Bytes) (n : Nat) :
    (List.range n).flatMap (rowAt data) = data.take (16 * n) := by
  induction n with
  | zero => simp
  | succ n ih =>
      rw [List.range_succ, List.flatMap_append, ih, List.flatMap_singleton, rowAt, Nat.mul_succ,
        List.take_add]

/-- What is read from a line. -/
theorem readLine_line {indent offset : Nat} {row : Bytes} (small : offset < 16 ^ 8)
    (nonempty : row ≠ []) (fits : row.length ≤ 16) :
    readLine indent (line indent offset row) = (offset, row) ∧
      (line indent offset row).drop (indent + 56) = row.map pchar := by
  have positive : 0 < row.length := List.length_pos_of_ne_nil nonempty
  have field := length_hexField (by decide) small
  have front : (head indent offset).length = indent + 13 := by
    simp only [head, List.length_append, List.length_replicate, List.length_cons, field]
  have middle : (columns row ++ filler row).length = 39 := by
    rw [List.length_append, length_columns, filler, List.length_replicate]
    omega
  have number : ((line indent offset row).drop indent).take 8 = hexField 8 offset := by
    simp only [line, head, List.append_assoc]
    rw [List.drop_left' List.length_replicate, List.take_left' field]
  have bytes : ((line indent offset row).drop (indent + 13)).take 39 =
      columns row ++ filler row := by
    rw [line, List.append_assoc, List.append_assoc, List.append_assoc, List.drop_left' front,
      ← List.append_assoc, List.take_left' middle]
  have gaps : (filler row).filter (· ≠ ' ') = [] := by simp [filler]
  refine ⟨?_, ?_⟩
  · rw [readLine, number, readHex_hexField, bytes, List.filter_append, columns_filter, gaps,
      List.append_nil, readBytes_digits]
  · rw [line, List.drop_left']
    rw [List.append_assoc (head indent offset), List.length_append, List.length_append, front,
      middle, List.length_replicate]

/-- The lines of a dump are full, but for the last one. -/
theorem rowAt_bounds {data : Bytes} {i : Nat} (line : i < (data.length + 15) / 16) :
    rowAt data i ≠ [] ∧ (rowAt data i).length ≤ 16 := by
  have length : (rowAt data i).length = min 16 (data.length - 16 * i) := by
    rw [rowAt, List.length_take, List.length_drop]
  refine ⟨List.ne_nil_of_length_pos (by omega), by omega⟩

/-- A stream that nothing was written to. -/
def freshStream : OStream := ⟨[], ⟨.dec, false, false, false⟩, 0, ' '⟩

end Hexdump

end Sponge
