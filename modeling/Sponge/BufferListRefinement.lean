import Sponge.Buffer
import Sponge.Lib.Runs

/-!
# A `BufferList` is a byte string

The abstraction of a `BufferList` forgets where one buffer ends and the next
begins, how much of each storage has been discarded, and whether an exhausted
buffer still occupies a place in the queue. Every operation is a function of
what is left: `StringStep` says which one, and every run of the class is a run
of `StringStep`.
-/

namespace Sponge

namespace BufferList

/-- The string that a list of buffers stands for. -/
def str (l : BufferList) : Bytes := l.buffers.flatMap Buffer.str

/-! ## The operations on the abstraction -/

theorem append_buffers (l other : BufferList) :
    (l.append other).buffers = l.buffers ++ other.buffers := by
  unfold append
  rw [List.foldl_append_eq_append, ← List.flatMap_def, List.flatMap_singleton']

theorem str_append (l other : BufferList) : (l.append other).str = l.str ++ other.str := by
  rw [str, append_buffers, List.flatMap_append]
  rfl

theorem str_ofBuffer (buffer : Buffer) : (ofBuffer buffer).str = buffer.str :=
  List.append_nil _

theorem str_ofString (s : Bytes) (fits : s.length < sizeModulus) : (ofString s fits).str = s := by
  rw [ofString, str_append, str_ofBuffer, Buffer.str_ofString]
  rfl

theorem concatenate_eq_str (l : BufferList) : l.concatenate = l.str := by
  unfold concatenate
  rw [List.foldl_append_eq_append, List.nil_append]
  rfl

theorem size_eq_length {l : BufferList} (fits : l.str.length < sizeModulus) :
    l.size = l.str.length := by
  have total : l.str.length = (l.buffers.map Buffer.size).sum := List.length_flatMap
  rw [total] at fits ⊢
  rw [size, foldl_sizeAdd (by omega), Nat.zero_add]

theorem trims_removePrefix : Segments.Trims Buffer.str Buffer.removePrefix :=
  fun _ _ inside => Buffer.removePrefix_of_le (Nat.le_of_lt inside)

theorem removePrefix_of_le {l : BufferList} {n : Nat} (le : n ≤ l.str.length) :
    (l.removePrefix n).2 = .ok () ∧ (l.removePrefix n).1.str = l.str.drop n :=
  Segments.consume_of_le trims_removePrefix le

theorem removePrefix_of_gt {l : BufferList} {n : Nat} (long : l.str.length < n) :
    l.removePrefix n = (empty, .error (.outOfRange "BufferList::remove_prefix")) := by
  unfold removePrefix
  rw [Segments.consume_of_gt long]
  rfl

theorem toBuffer_spec (l : BufferList) :
    ((∃ e, l.toBuffer = .error e) ↔ 1 < l.buffers.length) ∧
      ∀ buffer, l.toBuffer = .ok buffer → buffer.str = l.str := by
  rcases l with ⟨_ | ⟨first, _ | ⟨second, rest⟩⟩⟩
  · refine ⟨by simp [toBuffer], ?_⟩
    rintro buffer ⟨⟩
    rfl
  · refine ⟨by simp [toBuffer], ?_⟩
    rintro buffer ⟨⟩
    exact (str_ofBuffer first).symm
  · exact ⟨by simp [toBuffer], by simp [toBuffer]⟩

/-! ## Runs -/

/-- The ways to construct a `BufferList`; the buffer of the second may have had
any prefix removed before. -/
inductive Start where
  | default
  | buffer (b : Buffer)
  | string (s : Bytes) (fits : s.length < sizeModulus)

def Start.build : Start → BufferList
  | .default => empty
  | .buffer b => ofBuffer b
  | .string s fits => ofString s fits

/-- The string a constructor starts with. -/
def Start.bytes : Start → Bytes
  | .default => []
  | .buffer b => b.str
  | .string s _ => s

theorem Start.str_build (start : Start) : start.build.str = start.bytes := by
  cases start with
  | default => rfl
  | buffer b => exact str_ofBuffer b
  | string s fits => exact str_ofString s fits

/-- The operations that change a `BufferList`. The argument of `append` is
another object. -/
inductive Op where
  | append (other : BufferList)
  | removePrefix (n : Nat)

def step (l : BufferList) : Op → BufferList × Except Exn Unit
  | .append other => (l.append other, .ok ())
  | .removePrefix n => l.removePrefix n

/-- The operations on a plain string. What a failed removal leaves behind is
not specified. -/
inductive StringStep : Bytes → Op → Except Exn Unit → Bytes → Prop
  | append (s : Bytes) (other : BufferList) :
      StringStep s (.append other) (.ok ()) (s ++ other.str)
  | removePrefix {s : Bytes} {n : Nat} :
      n ≤ s.length → StringStep s (.removePrefix n) (.ok ()) (s.drop n)
  | outOfRange {s left : Bytes} {n : Nat} {what : String} :
      s.length < n → StringStep s (.removePrefix n) (.error (.outOfRange what)) left

/-- One operation on the list is the same operation on its string. -/
theorem step_simulates (l : BufferList) (op : Op) :
    StringStep l.str op (l.step op).2 (l.step op).1.str := by
  cases op with
  | append other =>
      show StringStep l.str (.append other) (.ok ()) (l.append other).str
      rw [str_append]
      exact .append _ _
  | removePrefix n =>
      show StringStep l.str (.removePrefix n) (l.removePrefix n).2 (l.removePrefix n).1.str
      rcases Nat.lt_or_ge l.str.length n with long | le
      · rw [removePrefix_of_gt long]
        exact .outOfRange long
      · obtain ⟨ok, left⟩ := removePrefix_of_le le
        rw [ok, left]
        exact .removePrefix le

/-- A run of operations from a constructor: the list it ends with, and the outcomes. -/
def Start.run (start : Start) (ops : List Op) : BufferList × List (Except Exn Unit) :=
  Runs.run step start.build ops

/-- **`BufferList` refines a byte string.** Every run of operations from every
constructor is a run of `StringStep` with the same outcomes, and in the state it
ends in, which is an arbitrary one since runs are closed under prefixes, the
observers return what they return for the string and any operation does what
`StringStep` does with it. So also after a failed removal, which may leave any
string, the list is the string that `concatenate` shows from then on. -/
theorem run_refines_string (start : Start) (ops : List Op) :
    Runs.Related StringStep start.bytes ops (start.run ops).2 (start.run ops).1.str ∧
    (start.run ops).1.concatenate = (start.run ops).1.str ∧
    ((start.run ops).1.str.length < sizeModulus →
      (start.run ops).1.size = (start.run ops).1.str.length) ∧
    ((∃ e, (start.run ops).1.toBuffer = .error e) ↔ 1 < (start.run ops).1.buffers.length) ∧
    (∀ buffer, (start.run ops).1.toBuffer = .ok buffer →
      buffer.str = (start.run ops).1.str) ∧
    (∀ op, StringStep (start.run ops).1.str op ((start.run ops).1.step op).2
      ((start.run ops).1.step op).1.str) := by
  have simulated := Runs.run_simulates step_simulates start.build ops
  rw [Start.str_build] at simulated
  obtain ⟨throws, yields⟩ := toBuffer_spec (start.run ops).1
  exact ⟨simulated, concatenate_eq_str _, size_eq_length, throws, yields, step_simulates _⟩

end BufferList

end Sponge
