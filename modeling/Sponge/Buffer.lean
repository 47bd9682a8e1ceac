import Sponge.Lib.Segments
import Sponge.SystemCall

/-!
# Buffers

`Buffer`, `BufferList` and `BufferViewList` of `buffer.hh` and `buffer.cc`. A
`Buffer` is a shared string with an offset; its class invariant is part of the
type here, so that the subtraction in `str` and the addition in `remove_prefix`
are the machine's and are nevertheless exact. The two list classes consume their
front with the same loop, over different elements.
-/

namespace Sponge

/-- A reference-counted read-only string that can discard bytes from the front.
The offset is left as it is when the storage is released. -/
structure Buffer where
  storage : Option Bytes
  startingOffset : Nat
  offset_lt : startingOffset < sizeModulus
  in_bounds : ∀ s, storage = some s → s.length < sizeModulus ∧ startingOffset ≤ s.length

namespace Buffer

/-- The default constructor. -/
def empty : Buffer := ⟨none, 0, by decide, by simp⟩

/-- Construction by taking ownership of a string, whose size is a `size_t`. -/
def ofString (s : Bytes) (fits : s.length < sizeModulus) : Buffer :=
  ⟨some s, 0, by decide, by rintro t ⟨⟩; exact ⟨fits, Nat.zero_le _⟩⟩

def str (b : Buffer) : Bytes :=
  match b.storage with
  | none => []
  | some s => (s.drop b.startingOffset).take (sizeSub s.length b.startingOffset)

def size (b : Buffer) : Nat := b.str.length

/-- The member function `at`, which checks its bound. -/
def byteAt (b : Buffer) (n : Nat) : Except Exn UInt8 :=
  match b.str[n]? with
  | some byte => .ok byte
  | none => .error (.outOfRange "basic_string_view::at")

theorem str_of_none {b : Buffer} (released : b.storage = none) : b.str = [] := by
  rw [str, released]

theorem str_of_some {b : Buffer} {s : Bytes} (stored : b.storage = some s) :
    b.str = s.drop b.startingOffset := by
  obtain ⟨fits, le⟩ := b.in_bounds s stored
  rw [str, stored]
  show (s.drop b.startingOffset).take (sizeSub s.length b.startingOffset) = _
  rw [sizeSub_of_le fits le, List.take_of_length_le (by simp)]

theorem length_str_lt (b : Buffer) : b.str.length < sizeModulus := by
  cases stored : b.storage with
  | none =>
      rw [str_of_none stored]
      decide
  | some s =>
      obtain ⟨fits, -⟩ := b.in_bounds s stored
      rw [str_of_some stored, List.length_drop]
      omega

@[simp] theorem str_ofString (s : Bytes) (fits : s.length < sizeModulus) :
    (ofString s fits).str = s :=
  str_of_some rfl

/-- Advancing inside the string does not leave the range of the offset. -/
theorem sizeAdd_startingOffset {b : Buffer} {n : Nat} (le : n ≤ b.str.length) :
    sizeAdd b.startingOffset n = b.startingOffset + n := by
  have bound := b.offset_lt
  apply sizeAdd_of_lt
  cases stored : b.storage with
  | none =>
      rw [str_of_none stored] at le
      simp only [List.length_nil] at le
      omega
  | some s =>
      obtain ⟨fits, -⟩ := b.in_bounds s stored
      rw [str_of_some stored, List.length_drop] at le
      omega

/-- The state change of `remove_prefix` once its check has passed. -/
def advance (b : Buffer) (n : Nat) (le : n ≤ b.str.length) : Buffer where
  startingOffset := sizeAdd b.startingOffset n
  storage :=
    match b.storage with
    | some s => if sizeAdd b.startingOffset n = s.length then none else some s
    | none => none
  offset_lt := Nat.mod_lt _ (by decide)
  in_bounds := by
    intro s kept
    cases stored : b.storage with
    | none => simp [stored] at kept
    | some t =>
        simp only [stored, Option.ite_none_left_eq_some, Option.some.injEq] at kept
        obtain ⟨-, rfl⟩ := kept
        obtain ⟨fits, low⟩ := b.in_bounds t stored
        rw [sizeAdd_startingOffset le]
        rw [str_of_some stored, List.length_drop] at le
        exact ⟨fits, by omega⟩

def removePrefix (b : Buffer) (n : Nat) : Except Exn Buffer :=
  if long : n > b.str.length then
    .error (.outOfRange "Buffer::remove_prefix")
  else
    .ok (b.advance n (Nat.le_of_not_lt long))

theorem str_advance {b : Buffer} {n : Nat} (le : n ≤ b.str.length) :
    (b.advance n le).str = b.str.drop n := by
  cases stored : b.storage with
  | none =>
      have released : (b.advance n le).storage = none := by simp [advance, stored]
      rw [str_of_none released, str_of_none stored, List.drop_nil]
  | some s =>
      rw [str_of_some stored, List.drop_drop]
      have offset := sizeAdd_startingOffset le
      by_cases exhausted : b.startingOffset + n = s.length
      · have released : (b.advance n le).storage = none := by
          simp [advance, stored, offset, exhausted]
        rw [str_of_none released, exhausted, List.drop_length]
      · have kept : (b.advance n le).storage = some s := by
          simp [advance, stored, offset, exhausted]
        rw [str_of_some kept]
        show s.drop (sizeAdd b.startingOffset n) = _
        rw [offset]

/-- `remove_prefix` succeeds on a prefix and drops exactly it. -/
theorem removePrefix_of_le {b : Buffer} {n : Nat} (le : n ≤ b.str.length) :
    ∃ b', b.removePrefix n = .ok b' ∧ b'.str = b.str.drop n :=
  ⟨b.advance n le, by rw [removePrefix, dif_neg (Nat.not_lt.mpr le)], str_advance le⟩

theorem removePrefix_of_gt {b : Buffer} {n : Nat} (long : b.str.length < n) :
    b.removePrefix n = .error (.outOfRange "Buffer::remove_prefix") := by
  rw [removePrefix, dif_pos long]

end Buffer

/-! ## Lists of buffers -/

/-- A reference-counted discontiguous string. -/
structure BufferList where
  buffers : List Buffer

namespace BufferList

/-- The default constructor. -/
def empty : BufferList := ⟨[]⟩

def ofBuffer (buffer : Buffer) : BufferList := ⟨[buffer]⟩

def append (l other : BufferList) : BufferList :=
  ⟨other.buffers.foldl (fun buffers buf => buffers ++ [buf]) l.buffers⟩

/-- Construction from a string: wrap it as a buffer and append that. -/
def ofString (s : Bytes) (fits : s.length < sizeModulus) : BufferList :=
  empty.append (ofBuffer (Buffer.ofString s fits))

/-- The conversion operator. -/
def toBuffer (l : BufferList) : Except Exn Buffer :=
  match l.buffers with
  | [] => .ok Buffer.empty
  | [buffer] => .ok buffer
  | _ => .error (.runtimeError ("BufferList: please use concatenate() to combine a " ++
      "multi-Buffer BufferList into one Buffer"))

def concatenate (l : BufferList) : Bytes :=
  l.buffers.foldl (fun ret buf => ret ++ buf.str) []

def size (l : BufferList) : Nat :=
  l.buffers.foldl (fun ret buf => sizeAdd ret buf.size) 0

/-- `remove_prefix`, with the list as it is left behind also when it throws. -/
def removePrefix (l : BufferList) (n : Nat) : BufferList × Except Exn Unit :=
  let consumed := Segments.consume Buffer.str Buffer.removePrefix
    (.outOfRange "BufferList::remove_prefix") n l.buffers
  (⟨consumed.1⟩, consumed.2)

end BufferList

/-! ## Lists of views -/

/-- The region that an `iovec` describes: the bytes from its base on, and its length. -/
structure Iovec where
  base : Bytes
  len : Nat
  deriving DecidableEq, Repr

def Iovec.bytes (iov : Iovec) : Bytes := iov.base.take iov.len

/-- A non-owning view of a discontiguous string. -/
structure BufferViewList where
  views : List Bytes
  deriving DecidableEq, Repr

namespace BufferViewList

def ofView (str : Bytes) : BufferViewList := ⟨[str]⟩

def ofBufferList (buffers : BufferList) : BufferViewList :=
  ⟨buffers.buffers.foldl (fun views x => views ++ [x.str]) []⟩

/-- `remove_prefix`; the text of its error names the class in another order. -/
def removePrefix (l : BufferViewList) (n : Nat) : BufferViewList × Except Exn Unit :=
  let consumed := Segments.consume id (fun view k => .ok (view.drop k))
    (.outOfRange "BufferListView::remove_prefix") n l.views
  (⟨consumed.1⟩, consumed.2)

def size (l : BufferViewList) : Nat :=
  l.views.foldl (fun ret buf => sizeAdd ret buf.length) 0

def asIovecs (l : BufferViewList) : List Iovec :=
  l.views.foldl (fun ret x => ret ++ [⟨x, x.length⟩]) []

/-- The string that a list of views stands for. -/
def str (l : BufferViewList) : Bytes := l.views.flatten

/-- The regions handed to the kernel hold exactly the string. -/
theorem flatMap_asIovecs (l : BufferViewList) : l.asIovecs.flatMap Iovec.bytes = l.str := by
  unfold asIovecs str
  rw [List.foldl_append_eq_append, List.nil_append, ← List.flatMap_def, ← List.map_eq_flatMap,
    List.flatMap_map, ← List.flatMap_id]
  apply List.flatMap_congr
  intro view _
  exact List.take_length

theorem size_eq_length {l : BufferViewList} (fits : l.str.length < sizeModulus) :
    l.size = l.str.length := by
  unfold str at fits ⊢
  rw [List.length_flatten] at fits ⊢
  rw [size, foldl_sizeAdd (by omega), Nat.zero_add]

theorem sum_len_asIovecs (l : BufferViewList) : (l.asIovecs.map Iovec.len).sum = l.str.length := by
  unfold asIovecs str
  rw [List.foldl_append_eq_append, List.nil_append, ← List.flatMap_def, ← List.map_eq_flatMap,
    List.map_map, List.length_flatten]
  rfl

theorem removePrefix_zero (l : BufferViewList) : l.removePrefix 0 = (l, .ok ()) := by
  unfold removePrefix
  rw [Segments.consume_zero]

theorem trims_drop : Segments.Trims id fun (view : Bytes) k => (.ok (view.drop k) : Except Exn _) :=
  fun view n _ => ⟨view.drop n, rfl, rfl⟩

theorem removePrefix_of_le {l : BufferViewList} {n : Nat} (le : n ≤ l.str.length) :
    (l.removePrefix n).2 = .ok () ∧ (l.removePrefix n).1.str = l.str.drop n := by
  unfold str at *
  rw [← List.flatMap_id] at le ⊢
  rw [← List.flatMap_id]
  exact Segments.consume_of_le trims_drop le

theorem removePrefix_of_gt {l : BufferViewList} {n : Nat} (long : l.str.length < n) :
    l.removePrefix n = (⟨[]⟩, .error (.outOfRange "BufferListView::remove_prefix")) := by
  unfold str at long
  rw [← List.flatMap_id] at long
  unfold removePrefix
  rw [Segments.consume_of_gt long]

end BufferViewList

end Sponge
