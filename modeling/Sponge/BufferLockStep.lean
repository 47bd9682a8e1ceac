import Sponge.BufferListRefinement

/-!
# The three buffer classes side by side

`BufferList` and `BufferViewList` run the same loop over different elements, and
`Buffer` has a `remove_prefix` of its own. The views of a list are the strings
of its buffers, and every removal keeps it so: the two classes pop and trim at
the same places (`removePrefix_ofBufferList`). Two lists of views with the same
bytes, cut in different places, keep the same bytes (`removePrefix_of_str_eq`).

The classes part ways when a removal fails. `Buffer` checks first and keeps its
string; the loops find out when they have popped everything, and lose it.
-/

namespace Sponge

/-- Both calls return or both throw `out_of_range`; the texts may differ. -/
inductive SameOutcome : Except Exn Unit → Except Exn Unit → Prop
  | returned : SameOutcome (.ok ()) (.ok ())
  | outOfRange (what what' : String) :
      SameOutcome (.error (.outOfRange what)) (.error (.outOfRange what'))

namespace BufferViewList

/-! ## Views of a list of buffers -/

theorem views_ofBufferList (l : BufferList) :
    (ofBufferList l).views = l.buffers.map Buffer.str := by
  unfold ofBufferList
  rw [List.foldl_append_eq_append, List.nil_append, ← List.flatMap_def, ← List.map_eq_flatMap]

theorem str_ofBufferList (l : BufferList) : (ofBufferList l).str = l.str := by
  rw [str, views_ofBufferList]
  rfl

theorem size_ofBufferList (l : BufferList) : (ofBufferList l).size = l.size := by
  rw [size, views_ofBufferList, List.foldl_map]
  rfl

/-- The counter of `size` wraps around and is otherwise the number of bytes. -/
theorem size_eq_mod (v : BufferViewList) : v.size = v.str.length % sizeModulus := by
  suffices general : ∀ (views : List Bytes) (start : Nat),
      views.foldl (fun ret buf => sizeAdd ret buf.length) (start % sizeModulus) =
        (start + (views.map List.length).sum) % sizeModulus by
    have total := general v.views 0
    rwa [Nat.zero_add, ← List.length_flatten] at total
  intro views
  induction views with
  | nil => simp
  | cons view views ih =>
      intro start
      rw [List.foldl_cons, sizeAdd, Nat.mod_add_mod, ih, List.map_cons, List.sum_cons,
        Nat.add_assoc]

/-- A buffer trims as its string does. -/
theorem image_str : Segments.Image Buffer.str Buffer.removePrefix id
    (fun (view : Bytes) k => (.ok (view.drop k) : Except Exn _)) Buffer.str := by
  refine ⟨fun _ => rfl, ?_⟩
  intro buffer n inside
  obtain ⟨buffer', removed, left⟩ := Buffer.removePrefix_of_le (Nat.le_of_lt inside)
  exact ⟨buffer', removed, by rw [left]⟩

/-- One removal from a list and from the views of it. -/
theorem removePrefix_ofBufferList (l : BufferList) (n : Nat) :
    SameOutcome (l.removePrefix n).2 ((ofBufferList l).removePrefix n).2 ∧
      ofBufferList (l.removePrefix n).1 = ((ofBufferList l).removePrefix n).1 := by
  obtain ⟨left, outcome⟩ := Segments.consume_map image_str
    (.outOfRange "BufferList::remove_prefix") (.outOfRange "BufferListView::remove_prefix")
    n l.buffers
  constructor
  · unfold removePrefix BufferList.removePrefix
    rw [views_ofBufferList]
    rcases outcome with ⟨ok, ok'⟩ | ⟨error, error'⟩
    · rw [ok, ok']
      exact .returned
    · rw [error, error']
      exact .outOfRange _ _
  · have views : (ofBufferList (l.removePrefix n).1).views =
        ((ofBufferList l).removePrefix n).1.views := by
      rw [views_ofBufferList, removePrefix, views_ofBufferList]
      exact left.symm
    exact congrArg BufferViewList.mk views

/-- Where the string is cut into views does not matter. -/
theorem removePrefix_of_str_eq {v w : BufferViewList} (same : v.str = w.str) (n : Nat) :
    SameOutcome (v.removePrefix n).2 (w.removePrefix n).2 ∧
      (v.removePrefix n).1.str = (w.removePrefix n).1.str := by
  rcases Nat.lt_or_ge v.str.length n with long | le
  · rw [removePrefix_of_gt long, removePrefix_of_gt (same ▸ long)]
    exact ⟨.outOfRange _ _, rfl⟩
  · obtain ⟨ok, left⟩ := removePrefix_of_le le
    obtain ⟨ok', left'⟩ := removePrefix_of_le (l := w) (same ▸ le)
    rw [ok, ok', left, left', same]
    exact ⟨.returned, rfl⟩

/-- **`BufferViewList` and `BufferList` stay in lock step.** Along every sequence
of removals a list of buffers, the views of it and a single view of its
concatenation have the same outcomes, and after it, which may be any point of a
longer one, the same size and the same bytes. The regions for the kernel hold
these bytes, and their lengths add up to the size. -/
theorem lockStep (l : BufferList) (ns : List Nat) :
    let list := Runs.run BufferList.removePrefix l ns
    let views := Runs.run removePrefix (ofBufferList l) ns
    let contiguous := Runs.run removePrefix (ofView l.concatenate) ns
    List.Forall₂ SameOutcome list.2 views.2 ∧
    views.1.size = list.1.size ∧
    views.1.asIovecs.flatMap Iovec.bytes = list.1.concatenate ∧
    (views.1.asIovecs.map Iovec.len).sum % sizeModulus = views.1.size ∧
    (list.1.concatenate.length < sizeModulus →
      (views.1.asIovecs.map Iovec.len).sum = views.1.size) ∧
    List.Forall₂ SameOutcome views.2 contiguous.2 ∧
    contiguous.1.asIovecs.flatMap Iovec.bytes = list.1.concatenate := by
  intro list views contiguous
  obtain ⟨outcomes, same⟩ : List.Forall₂ SameOutcome list.2 views.2 ∧
      ofBufferList list.1 = views.1 := by
    refine Runs.run_lockStep (fun l v => ofBufferList l = v) ?_ rfl ns
    intro l v n views
    subst views
    exact removePrefix_ofBufferList l n
  obtain ⟨outcomes', same'⟩ : List.Forall₂ SameOutcome views.2 contiguous.2 ∧
      views.1.str = contiguous.1.str := by
    refine Runs.run_lockStep (fun v w : BufferViewList => v.str = w.str) ?_ ?_ ns
    · intro v w n same
      exact removePrefix_of_str_eq same n
    · rw [str_ofBufferList, ← BufferList.concatenate_eq_str]
      exact (List.append_nil _).symm
  have bytes : views.1.str = list.1.concatenate := by
    rw [← same, str_ofBufferList, BufferList.concatenate_eq_str]
  refine ⟨outcomes, ?_, ?_, ?_, ?_, outcomes', ?_⟩
  · rw [← same, size_ofBufferList]
  · rw [flatMap_asIovecs, bytes]
  · rw [sum_len_asIovecs, size_eq_mod]
  · intro fits
    rw [sum_len_asIovecs, size_eq_length (bytes ▸ fits)]
  · rw [flatMap_asIovecs, ← same', bytes]

end BufferViewList

/-! ## Removals that fail -/

/-- The call has thrown `out_of_range`. -/
def OutOfRange (outcome : Except Exn Unit) : Prop := ∃ what, outcome = .error (.outOfRange what)

/-- `remove_prefix` of a buffer with the object as it is left behind; the check
comes before any change. -/
def Buffer.afterRemovePrefix (b : Buffer) (n : Nat) : Buffer × Except Exn Unit :=
  match b.removePrefix n with
  | .ok b' => (b', .ok ())
  | .error e => (b, .error e)

theorem Buffer.afterRemovePrefix_of_le {b : Buffer} {n : Nat} (le : n ≤ b.str.length) :
    (b.afterRemovePrefix n).2 = .ok () ∧ (b.afterRemovePrefix n).1.str = b.str.drop n := by
  obtain ⟨b', removed, left⟩ := Buffer.removePrefix_of_le le
  rw [afterRemovePrefix, removed]
  exact ⟨rfl, left⟩

theorem Buffer.afterRemovePrefix_of_gt {b : Buffer} {n : Nat} (long : b.str.length < n) :
    b.afterRemovePrefix n = (b, .error (.outOfRange "Buffer::remove_prefix")) := by
  rw [afterRemovePrefix, Buffer.removePrefix_of_gt long]

/-- A removal that empties the object when it fails keeps its contents on failure
exactly when it cannot fail or there is nothing to keep. -/
theorem keeps_iff {outcome : Except Exn Unit} {bytes left : Bytes} {size sizeLeft n : Nat}
    (succeeds : n ≤ bytes.length → outcome = .ok ())
    (empties : bytes.length < n → OutOfRange outcome ∧ left = [] ∧ sizeLeft = 0)
    (counted : bytes = [] → size = 0) :
    (OutOfRange outcome → left = bytes ∧ sizeLeft = size) ↔ n ≤ bytes.length ∨ bytes = [] := by
  rcases Nat.lt_or_ge bytes.length n with long | le
  · obtain ⟨failed, nothing, zero⟩ := empties long
    constructor
    · intro keeps
      obtain ⟨same, -⟩ := keeps failed
      exact .inr (same.symm.trans nothing)
    · intro spared
      rcases spared with le | none
      · omega
      · exact fun _ => ⟨nothing.trans none.symm, zero.trans (counted none).symm⟩
  · refine ⟨fun _ => .inl le, ?_⟩
    intro _ thrown
    rcases thrown with ⟨what, failed⟩
    rw [succeeds le] at failed
    cases failed

theorem BufferList.removePrefix_keeps_iff (l : BufferList) (n : Nat) :
    (OutOfRange (l.removePrefix n).2 →
      (l.removePrefix n).1.concatenate = l.concatenate ∧ (l.removePrefix n).1.size = l.size) ↔
    n ≤ l.concatenate.length ∨ l.concatenate = [] := by
  apply keeps_iff
  · rw [concatenate_eq_str]
    exact fun le => (removePrefix_of_le le).1
  · rw [concatenate_eq_str]
    intro long
    rw [removePrefix_of_gt long]
    exact ⟨⟨_, rfl⟩, rfl, rfl⟩
  · rw [concatenate_eq_str]
    intro nothing
    rw [size_eq_length (by rw [nothing]; decide), nothing, List.length_nil]

theorem BufferViewList.removePrefix_keeps_iff (v : BufferViewList) (n : Nat) :
    (OutOfRange (v.removePrefix n).2 →
      (v.removePrefix n).1.asIovecs.flatMap Iovec.bytes = v.asIovecs.flatMap Iovec.bytes ∧
        (v.removePrefix n).1.size = v.size) ↔
    n ≤ (v.asIovecs.flatMap Iovec.bytes).length ∨ v.asIovecs.flatMap Iovec.bytes = [] := by
  apply keeps_iff
  · rw [flatMap_asIovecs]
    exact fun le => (removePrefix_of_le le).1
  · rw [flatMap_asIovecs]
    intro long
    rw [removePrefix_of_gt long]
    exact ⟨⟨_, rfl⟩, rfl, rfl⟩
  · rw [flatMap_asIovecs]
    intro nothing
    rw [size_eq_mod, nothing, List.length_nil, Nat.zero_mod]

/-- A buffer and the list made of it hold the same bytes after a removal, unless
it fails and there was something to lose. -/
theorem BufferList.removePrefix_ofBuffer_iff (b : Buffer) (n : Nat) :
    ((ofBuffer b).removePrefix n).1.concatenate = (b.afterRemovePrefix n).1.str ↔
      n ≤ b.str.length ∨ b.str = [] := by
  rw [concatenate_eq_str]
  rcases Nat.lt_or_ge b.str.length n with long | le
  · rw [removePrefix_of_gt (by rwa [str_ofBuffer]), Buffer.afterRemovePrefix_of_gt long]
    constructor
    · exact fun same => .inr same.symm
    · intro spared
      rcases spared with le | nothing
      · omega
      · exact nothing.symm
  · have le' : n ≤ (ofBuffer b).str.length := by rwa [str_ofBuffer]
    obtain ⟨-, left⟩ := removePrefix_of_le le'
    obtain ⟨-, left'⟩ := Buffer.afterRemovePrefix_of_le le
    rw [left, left', str_ofBuffer]
    exact ⟨fun _ => .inl le, fun _ => rfl⟩

/-- **When a failed removal changes nothing.** A `Buffer` keeps its contents
whenever `remove_prefix` throws. A `BufferList` and a `BufferViewList` do so
exactly when the removal does not ask for more than they hold or they hold
nothing, and then also leave what the `Buffer` leaves. -/
theorem removePrefix_failure (n : Nat) :
    (∀ b : Buffer, OutOfRange (b.afterRemovePrefix n).2 →
      (b.afterRemovePrefix n).1.str = b.str ∧ (b.afterRemovePrefix n).1.size = b.size) ∧
    (∀ l : BufferList,
      (OutOfRange (l.removePrefix n).2 →
        (l.removePrefix n).1.concatenate = l.concatenate ∧
          (l.removePrefix n).1.size = l.size) ↔
      n ≤ l.concatenate.length ∨ l.concatenate = []) ∧
    (∀ v : BufferViewList,
      (OutOfRange (v.removePrefix n).2 →
        (v.removePrefix n).1.asIovecs.flatMap Iovec.bytes = v.asIovecs.flatMap Iovec.bytes ∧
          (v.removePrefix n).1.size = v.size) ↔
      n ≤ (v.asIovecs.flatMap Iovec.bytes).length ∨ v.asIovecs.flatMap Iovec.bytes = []) ∧
    (∀ b : Buffer,
      ((BufferList.ofBuffer b).removePrefix n).1.concatenate = (b.afterRemovePrefix n).1.str ↔
      n ≤ b.str.length ∨ b.str = []) := by
  refine ⟨?_, fun l => l.removePrefix_keeps_iff n, fun v => v.removePrefix_keeps_iff n,
    fun b => BufferList.removePrefix_ofBuffer_iff b n⟩
  intro b thrown
  rcases thrown with ⟨what, failed⟩
  rcases Nat.lt_or_ge b.str.length n with long | le
  · rw [Buffer.afterRemovePrefix_of_gt long]
    exact ⟨rfl, rfl⟩
  · rw [(Buffer.afterRemovePrefix_of_le le).1] at failed
    cases failed

/-- Two bytes, of which three are removed: the string is lost. -/
theorem removePrefix_loses :
    let b := Buffer.ofString [0x61, 0x62] (by decide)
    let l := BufferList.ofBuffer b
    OutOfRange (l.removePrefix 3).2 ∧ l.concatenate = [0x61, 0x62] ∧
    (l.removePrefix 3).1.concatenate = [] ∧ (b.afterRemovePrefix 3).1.str = [0x61, 0x62] ∧
    ¬ ∀ (l : BufferList) (n : Nat), OutOfRange (l.removePrefix n).2 →
      (l.removePrefix n).1.concatenate = l.concatenate ∧
        (l.removePrefix n).1.size = l.size := by
  intro b l
  have emptied := BufferList.removePrefix_of_gt (l := l) (n := 3) (by decide)
  have throws : OutOfRange (l.removePrefix 3).2 := by
    rw [emptied]
    exact ⟨_, rfl⟩
  refine ⟨throws, by decide, by rw [emptied]; rfl, by decide, ?_⟩
  intro keeps
  obtain ⟨bytes, -⟩ := keeps l 3 throws
  rw [emptied] at bytes
  exact absurd bytes (by decide)

end Sponge
