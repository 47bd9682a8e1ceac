import Sponge.BufferStorage

/-!
# Views of buffers in memory

A `BufferViewList` owns nothing: its views point into the strings of the buffers that
it was made from, and the buffers live on while it is in use. The lists of byte
strings that stand for view lists elsewhere leave the pointers out. Here they are:
the buffers and the views change in any order, and the two models stay in step for
exactly as long as each string that is viewed still has a buffer that owns it.
-/

namespace Sponge

namespace BufferStorage

open SharedBlocks (Address Heap)

/-- The member function `remove_prefix` of `std::string_view`. -/
def View.removePrefix (v : View) (n : UInt64) : View := ⟨v.base, v.start + n, v.len - n⟩

/-- The member function `remove_prefix` of `BufferViewList`. -/
def removeViews (n : UInt64) : List View → List View × Except Exn Unit
  | [] =>
      if n > 0 then ([], .error (.outOfRange "BufferListView::remove_prefix")) else ([], .ok ())
  | front :: rest =>
      if n > 0 then
        if n < front.len then (front.removePrefix n :: rest, .ok ())
        else removeViews (n - front.len) rest
      else (front :: rest, .ok ())

namespace Memory

/-- The constructor of `BufferViewList` from a list of buffers, which are at these places. -/
def viewsOf (m : Memory) (places : List Nat) : Option (List View) :=
  places.mapM fun i => (m.object i).bind (str m)

/-- The bytes that a list of views shows. -/
def readAll (m : Memory) (views : List View) : Option (List Bytes) := views.mapM (read m)

/-- Some buffer still owns the string of the view. -/
def Alive (m : Memory) (v : View) : Prop :=
  ∀ a, v.base = some a → ∃ i o, m.object i = some o ∧ o.storage = some a

end Memory

/-- What happens: an operation on the buffers, or a removal from the views. -/
inductive ViewAct where
  | buffer (op : Op)
  | removePrefix (n : UInt64)

structure ViewState where
  memory : Memory
  views : List View

def ViewState.step (s : ViewState) : ViewAct → ViewState × Option (Except Exn Unit)
  | .buffer op => ({ s with memory := (Memory.step s.memory op).1 }, none)
  | .removePrefix n =>
      ({ s with views := (removeViews n s.views).1 }, some (removeViews n s.views).2)

/-- The same for a list of byte strings, which nothing else changes. -/
def listStep (l : BufferViewList) : ViewAct → BufferViewList × Option (Except Exn Unit)
  | .buffer _ => (l, none)
  | .removePrefix n => ((l.removePrefix n.toNat).1, some (l.removePrefix n.toNat).2)

/-! ## A view and the bytes it shows -/

/-- The view is inside its string, where these bytes are. -/
structure Shows (m : Memory) (v : View) (s : Bytes) : Prop where
  read : Memory.read m v = some s
  length : v.len.toNat = s.length
  fits : v.start.toNat + v.len.toNat < sizeModulus

variable {m m' : Memory} {o : Object} {b : Buffer} {i : Nat} {v : View} {s : Bytes} {n : UInt64}

theorem read_of_block {a : Address} {str : Bytes} (there : m.block a = some str)
    (start len : UInt64) :
    Memory.read m ⟨some a, start, len⟩ =
      if start.toNat + len.toNat ≤ str.length then some ((str.drop start.toNat).take len.toNat)
      else none := by
  simp only [Memory.read, there]

theorem read_of_gone {a : Address} (gone : m.block a = none) (start len : UInt64) :
    Memory.read m ⟨some a, start, len⟩ = none := by
  simp only [Memory.read, gone]

theorem Represents.shows (represents : Represents m o b) :
    ∃ v, Memory.str m o = some v ∧ Shows m v b.str := by
  obtain ⟨v, view, len, shown⟩ := represents.str
  refine ⟨v, view, shown, len, ?_⟩
  rcases represents.inBounds with null | ⟨a, s, points, there, le, -⟩
  · rw [Memory.str, null] at view
    cases view
    decide
  · simp only [Memory.str, points, there, Option.map_some, Option.some_inj] at view
    subst view
    have size : (stringSize s - o.startingOffset).toNat =
        (stringSize s).toNat - o.startingOffset.toNat := UInt64.toNat_sub_of_le _ _ le
    have small := (stringSize s).toNat_lt
    rw [UInt64.le_iff_toNat_le] at le
    show o.startingOffset.toNat + (stringSize s - o.startingOffset).toNat < 2 ^ 64
    omega

theorem Shows.removePrefix (shows_ : Shows m v s) (le : n.toNat ≤ s.length) :
    Shows m (v.removePrefix n) (s.drop n.toNat) := by
  obtain ⟨read, length, fits⟩ := shows_
  have less : n.toNat ≤ v.len.toNat := by omega
  have inside : n ≤ v.len := UInt64.le_iff_toNat_le.mpr less
  have start : (v.start + n).toNat = v.start.toNat + n.toNat := by
    rw [UInt64.toNat_add]
    exact Nat.mod_eq_of_lt (by unfold sizeModulus at fits; omega)
  have len : (v.len - n).toNat = v.len.toNat - n.toNat := UInt64.toNat_sub_of_le _ _ inside
  refine ⟨?_, ?_, ?_⟩
  · obtain ⟨base, first, count⟩ := v
    cases base with
    | none =>
        simp only [Memory.read] at read
        split at read
        · next empty =>
          cases read
          have zero : n = 0 := by simpa [empty] using inside
          simp [View.removePrefix, Memory.read, empty, zero]
        · cases read
    | some a =>
        dsimp only at start len less
        cases there : m.block a with
        | none =>
            rw [read_of_gone there] at read
            cases read
        | some str =>
            rw [read_of_block there] at read
            split at read
            · next whole =>
              cases read
              have shorter : (first + n).toNat + (count - n).toNat ≤ str.length := by omega
              rw [View.removePrefix, read_of_block there, if_pos shorter, start, len,
                List.drop_take, List.drop_drop]
            · cases read
  · show (v.len - n).toNat = _
    rw [len, length, List.length_drop]
  · show (v.start + n).toNat + (v.len - n).toNat < sizeModulus
    rw [start, len]
    omega

/-- The loop of `remove_prefix` does the same to the views and to their bytes. -/
theorem removeViews_shows {views : List View} {l : List Bytes}
    (shown : List.Forall₂ (Shows m) views l) (n : UInt64) :
    (removeViews n views).2 = ((⟨l⟩ : BufferViewList).removePrefix n.toNat).2 ∧
      List.Forall₂ (Shows m) (removeViews n views).1
        ((⟨l⟩ : BufferViewList).removePrefix n.toNat).1.views := by
  unfold BufferViewList.removePrefix
  dsimp only
  induction shown generalizing n with
  | nil =>
      rw [removeViews]
      split
      · next positive =>
        obtain ⟨k, succ⟩ := Nat.exists_eq_succ_of_ne_zero (Nat.ne_of_gt positive)
        rw [show n.toNat = k + 1 from succ]
        exact ⟨rfl, .nil⟩
      · next zero =>
        have none : n.toNat = 0 :=
          Nat.eq_zero_of_not_pos fun positive => zero (UInt64.lt_iff_toNat_lt.mpr positive)
        rw [none, Segments.consume_zero]
        exact ⟨rfl, .nil⟩
  | @cons front bytes rest tail here later ih =>
      rw [removeViews]
      split
      · next positive =>
        obtain ⟨k, succ⟩ := Nat.exists_eq_succ_of_ne_zero (Nat.ne_of_gt positive)
        have length := here.length
        split
        · next inside =>
          rw [UInt64.lt_iff_toNat_lt, length] at inside
          have shorter := here.removePrefix (Nat.le_of_lt inside)
          rw [show n.toNat = k + 1 from succ] at inside shorter ⊢
          rw [Segments.consume, id_eq, if_pos inside]
          exact ⟨rfl, .cons shorter later⟩
        · next outside =>
          rw [UInt64.lt_iff_toNat_lt, length] at outside
          have rest := ih (n - front.len)
          have left : (n - front.len).toNat = n.toNat - bytes.length := by
            rw [UInt64.toNat_sub_of_le _ _ (UInt64.le_iff_toNat_le.mpr (by omega)), length]
          rw [left] at rest
          rw [show n.toNat = k + 1 from succ] at outside rest ⊢
          rw [Segments.consume, id_eq, if_neg outside]
          exact rest
      · next zero =>
        have none : n.toNat = 0 :=
          Nat.eq_zero_of_not_pos fun positive => zero (UInt64.lt_iff_toNat_lt.mpr positive)
        rw [none, Segments.consume_zero]
        exact ⟨rfl, .cons here later⟩

/-! ## The memory in time -/

/-- No operation on buffers changes a string. -/
theorem later_step (m : Memory) (op : Op) : Heap.Later m (Memory.step m op).1 := by
  cases op with
  | default => exact Heap.later_push _
  | take s fits =>
      show Heap.Later m (m.allocate s fun a => ⟨some a, 0⟩)
      exact Heap.later_allocate s _
  | copyConstruct source =>
      rw [Memory.step]
      split
      · exact .refl m
      · exact Heap.later_push _
  | moveConstruct source =>
      rw [Memory.step]
      split
      · exact .refl m
      · exact (Heap.later_push _).trans (Heap.later_put _ _)
  | copyAssign i source =>
      rw [Memory.step]
      split
      · exact Heap.later_put _ _
      · exact .refl m
  | moveAssign i source =>
      rw [Memory.step]
      split
      · split
        · exact .refl m
        · exact (Heap.later_put _ _).trans (Heap.later_put _ _)
      · exact .refl m
  | destroy i =>
      rw [Memory.step]
      split
      · exact .refl m
      · exact Heap.later_put _ _
  | removePrefix i n =>
      show Heap.Later m (Memory.removePrefix m i n).1
      unfold Memory.removePrefix
      split
      · exact .refl m
      · split
        · exact .refl m
        · split
          · exact .refl m
          · exact Heap.later_put _ _

/-- What a view shows later is what it showed, if its string has an owner, and nothing at
all if not. -/
theorem Shows.later (shown : Shows m v s) (later : Heap.Later m m')
    (owned : m'.Owned Object.storage) :
    (Memory.read m' v = some s ∧ Memory.Alive m' v) ∨
      (Memory.read m' v = none ∧ ¬Memory.Alive m' v) := by
  obtain ⟨base, start, len⟩ := v
  have read := shown.read
  cases base with
  | none => exact .inl ⟨read, nofun⟩
  | some a =>
      have alive : Memory.Alive m' ⟨some a, start, len⟩ ↔ (m'.block a).isSome := by
        rw [owned a]
        refine ⟨fun alive => alive a rfl, fun held a' same => ?_⟩
        cases same
        exact held
      have there : (m.block a).isSome := by
        by_contra gone
        rw [Option.not_isSome_iff_eq_none] at gone
        rw [read_of_gone gone] at read
        cases read
      rw [alive]
      rcases later.block a (Heap.lt_of_block there) with same | gone
      · left
        obtain ⟨str, block⟩ := Option.isSome_iff_exists.mp there
        rw [read_of_block (same.trans block), ← read_of_block block, same]
        exact ⟨read, there⟩
      · right
        rw [read_of_gone gone, gone]
        exact ⟨rfl, nofun⟩

theorem readAll_later {views : List View} {l : List Bytes}
    (shown : List.Forall₂ (Shows m) views l) (later : Heap.Later m m')
    (owned : m'.Owned Object.storage) :
    (Memory.readAll m' views = some l ∧ ∀ v ∈ views, Memory.Alive m' v) ∨
      (Memory.readAll m' views = none ∧ ∃ v ∈ views, ¬Memory.Alive m' v) := by
  unfold Memory.readAll
  induction shown with
  | nil => exact .inl ⟨rfl, nofun⟩
  | @cons v s views l here rest ih =>
      rw [List.mapM_cons]
      rcases here.later later owned with ⟨read, alive⟩ | ⟨read, dead⟩
      · rcases ih with ⟨all, others⟩ | ⟨none_, v', member, dead⟩
        · left
          rw [read, all]
          exact ⟨rfl, List.forall_mem_cons.mpr ⟨alive, others⟩⟩
        · right
          rw [read, none_]
          exact ⟨rfl, v', List.mem_cons_of_mem _ member, dead⟩
      · right
        rw [read]
        exact ⟨rfl, v, List.mem_cons_self .., dead⟩

/-! ## All orders of operations -/

/-- The operations on buffers among the acts. -/
def bufferOps (acts : List ViewAct) : List Op :=
  acts.filterMap fun | .buffer op => some op | .removePrefix _ => none

/-- What is done to the views does not touch the memory. -/
theorem run_memory (s : ViewState) (acts : List ViewAct) :
    (Runs.run ViewState.step s acts).1.memory =
      (Runs.run Memory.step s.memory (bufferOps acts)).1 := by
  induction acts generalizing s with
  | nil => rfl
  | cons act acts ih =>
      cases act with
      | buffer op => exact ih _
      | removePrefix n => exact ih _

theorem run_later (m : Memory) (ops : List Op) : Heap.Later m (Runs.run Memory.step m ops).1 := by
  induction ops generalizing m with
  | nil => exact .refl m
  | cons op ops ih => exact (later_step m op).trans (ih _)

/-- The views show the bytes of the list, in the memory that they were taken from. -/
def InStep (m : Memory) (s : ViewState) (l : BufferViewList) : Prop :=
  List.Forall₂ (Shows m) s.views l.views

theorem inStep_step {s : ViewState} {l : BufferViewList} {act : ViewAct} (inStep : InStep m s l) :
    (s.step act).2 = (listStep l act).2 ∧ InStep m (s.step act).1 (listStep l act).1 := by
  cases act with
  | buffer op => exact ⟨rfl, inStep⟩
  | removePrefix n =>
      obtain ⟨outcome, left⟩ := removeViews_shows inStep n
      exact ⟨congrArg some outcome, left⟩

theorem views_shown {accounts : List Account} (described : Described m accounts)
    {places : List Nat} {views : List View} (taken : Memory.viewsOf m places = some views) :
    ∃ l, places.mapM (Memory.contents m) = some l ∧ List.Forall₂ (Shows m) views l := by
  unfold Memory.viewsOf at taken
  induction places generalizing views with
  | nil =>
      cases taken
      exact ⟨[], rfl, .nil⟩
  | cons i places ih =>
      rw [List.mapM_cons] at taken ⊢
      obtain ⟨v, first, taken⟩ := Option.bind_eq_some_iff.mp taken
      obtain ⟨others, rest, last⟩ := Option.bind_eq_some_iff.mp taken
      cases last
      obtain ⟨o, here, view⟩ := Option.bind_eq_some_iff.mp first
      obtain ⟨account, -, b, represents, -⟩ := described.objects i o here
      obtain ⟨v', view', shown⟩ := represents.shows
      obtain rfl : v = v' := Option.some.inj (view.symm.trans view')
      obtain ⟨l, contents, all⟩ := ih rest
      refine ⟨b.str :: l, ?_, .cons shown all⟩
      rw [contents_eq here represents, contents]
      rfl

/-- **Views are as good as copies while their strings are owned.** Take a list of views of
some buffers, after any run. Then let the program go on with its buffers and remove
prefixes from the views, in any order. All removals return or throw like those of
a list that has the bytes themselves; and the views can be read, and show the bytes
of that list, exactly if each string that they point into still has an owner. It
loses its last one also when all of it is removed from the last buffer that has it. -/
theorem views_faithful {before : List Op} {places : List Nat} {views : List View}
    (taken : Memory.viewsOf (run before).1 places = some views) (acts : List ViewAct) :
    ∃ l, places.mapM (Memory.contents (run before).1) = some l ∧
      let final := Runs.run ViewState.step ⟨(run before).1, views⟩ acts
      let copied := Runs.run listStep ⟨l⟩ acts
      final.2 = copied.2 ∧
      (Memory.readAll final.1.memory final.1.views = some copied.1.views ↔
        ∀ v ∈ final.1.views, Memory.Alive final.1.memory v) ∧
      (Memory.readAll final.1.memory final.1.views = none ↔
        ∃ v ∈ final.1.views, ¬Memory.Alive final.1.memory v) := by
  obtain ⟨l, contents, shown⟩ := views_shown (run_described before) taken
  refine ⟨l, contents, ?_⟩
  intro final copied
  have initial : InStep (run before).1 ⟨(run before).1, views⟩ ⟨l⟩ := shown
  have lockStep : List.Forall₂ Eq final.2 copied.2 ∧ InStep (run before).1 final.1 copied.1 :=
    Runs.run_lockStep _ (fun _ _ _ => inStep_step) initial acts
  have memory : final.1.memory = (run (before ++ bufferOps acts)).1 := by
    rw [run, Runs.run_append]
    exact run_memory _ acts
  have owned : final.1.memory.Owned Object.storage := by
    rw [memory]
    exact (run_described _).owned
  have later : Heap.Later (run before).1 final.1.memory := by
    rw [show final.1.memory = _ from run_memory _ acts]
    exact run_later _ _
  refine ⟨List.forall₂_eq_eq_eq ▸ lockStep.1, ?_⟩
  rcases readAll_later lockStep.2 later owned with ⟨read, alive⟩ | ⟨read, v, member, dead⟩
  · rw [read]
    refine ⟨⟨fun _ => alive, fun _ => rfl⟩, nofun, ?_⟩
    rintro ⟨v, member, dead⟩
    exact absurd (alive v member) dead
  · rw [read]
    exact ⟨⟨nofun, fun all => absurd (all v member) dead⟩, fun _ => ⟨v, member, dead⟩, fun _ => rfl⟩

/-- A buffer with two bytes. -/
def twoBytes : List Op := [.take [0x61, 0x62] (by decide)]

/-- One byte is removed from a view of the buffer; then both are removed from the buffer,
and the view is left behind. -/
theorem views_faithful_twoBytes :
    (Memory.readAll (Runs.run ViewState.step ⟨(run twoBytes).1, [⟨some 0, 0, 2⟩]⟩
      [.removePrefix 1]).1.memory [⟨some 0, 1, 1⟩] = some [[0x62]]) ∧
    (Memory.readAll (Runs.run ViewState.step ⟨(run twoBytes).1, [⟨some 0, 0, 2⟩]⟩
      [.removePrefix 1, .buffer (.removePrefix 0 2)]).1.memory [⟨some 0, 1, 1⟩] = none) := by
  have taken : Memory.viewsOf (run twoBytes).1 [0] = some [⟨some 0, 0, 2⟩] := by decide +kernel
  constructor
  · obtain ⟨l, contents, -, shown, -⟩ := views_faithful taken [.removePrefix 1]
    obtain rfl : [[0x61, 0x62]] = l := Option.some.inj (contents ▸ by decide +kernel)
    refine shown.mpr fun v member => ?_
    obtain rfl := List.mem_singleton.mp member
    rintro a ⟨⟩
    exact ⟨0, ⟨some 0, 0⟩, rfl, rfl⟩
  · obtain ⟨l, -, -, -, dangling⟩ :=
      views_faithful taken [.removePrefix 1, .buffer (.removePrefix 0 2)]
    refine dangling.mpr ⟨⟨some 0, 1, 1⟩, List.mem_singleton_self _, fun alive => ?_⟩
    obtain ⟨i, o, here, points⟩ := alive 0 rfl
    cases i with
    | zero =>
        cases here
        cases points
    | succ i => cases here

end BufferStorage

end Sponge
