import Mathlib.Data.List.Basic

/-!
# Blocks that are shared by pointers

Objects of any type `O` that hold at most one pointer each, given by `pointer`, to
blocks of any type `B`. A block is freed when the last object that points to it is
overwritten or goes away. Addresses and places of objects are not used again.

In an `Owned` heap a block is there exactly as long as some object points to it. The
operations keep that, and none of them changes a block that is still pointed to, so
that what an object stands for does not depend on what happens to the others.
-/

namespace SharedBlocks

variable {B O : Type*}

abbrev Address := Nat

/-- Blocks by their addresses and objects by their places; `none` is what is gone. -/
structure Heap (B O : Type*) where
  blocks : List (Option B)
  objects : List (Option O)

namespace Heap

def empty : Heap B O := ⟨[], []⟩

def block (h : Heap B O) (a : Address) : Option B := h.blocks[a]?.join

def object (h : Heap B O) (i : Nat) : Option O := h.objects[i]?.join

/-- A new object, which may share the block of another one. -/
def push (h : Heap B O) (o : O) : Heap B O := { h with objects := h.objects ++ [some o] }

/-- A new object with a block of its own. -/
def allocate (h : Heap B O) (b : B) (object : Address → O) : Heap B O :=
  ⟨h.blocks ++ [some b], h.objects ++ [some (object h.blocks.length)]⟩

section Pointers

variable (pointer : O → Option Address)

def pointers (h : Heap B O) : List (Option Address) := h.objects.map fun o => o.bind pointer

/-- Drop a pointer that an object held; the last one takes the block with it. -/
def release (h : Heap B O) : Option Address → Heap B O
  | none => h
  | some a =>
      if some a ∈ h.pointers pointer then h else { h with blocks := h.blocks.set a none }

/-- Overwrite an object, or destroy it, and drop the pointer that it held. -/
def put (h : Heap B O) (i : Nat) (new : Option O) : Heap B O :=
  release pointer { h with objects := h.objects.set i new } ((h.object i).bind pointer)

/-- Some object points to the block. -/
def Held (h : Heap B O) (a : Address) : Prop := ∃ i o, h.object i = some o ∧ pointer o = some a

/-- No pointer dangles and no block leaks. -/
def Owned (h : Heap B O) : Prop := ∀ a, (h.block a).isSome ↔ h.Held pointer a

end Pointers

variable {pointer : O → Option Address} {h : Heap B O} {i : Nat} {a : Address}

/-! ## Places -/

theorem lt_of_object {old : O} (here : h.object i = some old) : i < h.objects.length := by
  by_contra outside
  rw [object, List.getElem?_eq_none (Nat.le_of_not_lt outside)] at here
  cases here

theorem lt_of_block (live : (h.block a).isSome) : a < h.blocks.length := by
  by_contra outside
  rw [block, List.getElem?_eq_none (Nat.le_of_not_lt outside)] at live
  cases live

theorem length_push (o : O) : (h.push o).objects.length = h.objects.length + 1 :=
  List.length_append

theorem length_allocate (b : B) (object : Address → O) :
    (h.allocate b object).objects.length = h.objects.length + 1 :=
  List.length_append

theorem object_push (o : O) (j : Nat) :
    (h.push o).object j = if j = h.objects.length then some o else h.object j := by
  unfold object push
  rw [List.getElem?_append]
  grind

theorem object_allocate (b : B) (object : Address → O) (j : Nat) :
    (h.allocate b object).object j =
      if j = h.objects.length then some (object h.blocks.length) else h.object j :=
  object_push (object h.blocks.length) j

theorem block_allocate (b : B) (object : Address → O) (a : Address) :
    (h.allocate b object).block a = if a = h.blocks.length then some b else h.block a := by
  unfold block allocate
  rw [List.getElem?_append]
  grind

theorem objects_release (p : Option Address) : (h.release pointer p).objects = h.objects := by
  cases p with
  | none => rfl
  | some a =>
      rw [release]
      split
      · rfl
      · rfl

theorem object_release (p : Option Address) (j : Nat) :
    (h.release pointer p).object j = h.object j := by
  rw [object, objects_release]
  rfl

theorem objects_put (i : Nat) (new : Option O) :
    (h.put pointer i new).objects = h.objects.set i new :=
  objects_release _

theorem object_put {old : O} (here : h.object i = some old) (new : Option O) (j : Nat) :
    (h.put pointer i new).object j = if j = i then new else h.object j := by
  have inside := lt_of_object here
  rw [put, object_release]
  unfold object
  rw [List.getElem?_set]
  grind

/-! ## Blocks -/

theorem mem_pointers : some a ∈ h.pointers pointer ↔ h.Held pointer a := by
  unfold pointers Held object
  rw [List.mem_map]
  constructor
  · intro listed
    rcases listed with ⟨o, member, points⟩
    rcases List.mem_iff_getElem?.mp member with ⟨i, here⟩
    rcases Option.bind_eq_some_iff.mp points with ⟨o, rfl, points⟩
    exact ⟨i, o, by rw [here]; rfl, points⟩
  · intro held
    rcases held with ⟨i, o, here, points⟩
    have listed := Option.join_eq_some_iff.mp here
    exact ⟨some o, List.mem_of_getElem? listed, points⟩

/-- A block that is still pointed to is not touched. -/
theorem block_release_of_kept {p : Option Address} (kept : p = some a → h.Held pointer a) :
    (h.release pointer p).block a = h.block a := by
  cases p with
  | none => rfl
  | some freed =>
      rw [release]
      split
      · rfl
      · next last =>
        have other : freed ≠ a := by
          intro same
          subst same
          exact last (mem_pointers.mpr (kept rfl))
        unfold block
        rw [List.getElem?_set_ne other]

theorem block_release_of_last (last : ¬h.Held pointer a) :
    (h.release pointer (some a)).block a = none := by
  rw [release, if_neg (fun listed => last (mem_pointers.mp listed))]
  unfold block
  rw [List.getElem?_set_self']
  cases h.blocks[a]? with
  | none => rfl
  | some b => rfl

/-- What an object points to after an overwrite was there before and still is. -/
theorem block_put_of_held {new : Option O} (held : (h.put pointer i new).Held pointer a) :
    (h.put pointer i new).block a = h.block a := by
  have before : Heap.Held pointer { h with objects := h.objects.set i new } a := by
    rcases held with ⟨j, o, here, points⟩
    rw [put, object_release] at here
    exact ⟨j, o, here, points⟩
  exact block_release_of_kept fun _ => before

theorem length_blocks_put (i : Nat) (new : Option O) :
    (h.put pointer i new).blocks.length = h.blocks.length := by
  unfold put
  cases (h.object i).bind pointer with
  | none => rfl
  | some a =>
      rw [release]
      split
      · rfl
      · exact List.length_set

/-- Where no object points to anything, nothing is freed. -/
theorem block_put_of_none (i : Nat) (new : Option O) (a : Address) :
    (h.put (fun _ => none) i new).block a = h.block a := by
  rw [put, Option.bind_fun_none]
  rfl

/-! ## Ownership -/

theorem owned_empty : (empty : Heap B O).Owned pointer := by
  intro a
  apply iff_of_false (by simp [block, empty])
  intro held
  rcases held with ⟨i, o, here, -⟩
  simp [object, empty] at here

theorem Owned.push (owned : h.Owned pointer) {o : O}
    (live : ∀ a, pointer o = some a → (h.block a).isSome) : (h.push o).Owned pointer := by
  intro a
  show (h.block a).isSome ↔ _
  constructor
  · intro there
    rcases (owned a).mp there with ⟨i, old, here, points⟩
    refine ⟨i, old, ?_, points⟩
    rw [object_push, if_neg (Nat.ne_of_lt (lt_of_object here)), here]
  · intro held
    rcases held with ⟨i, old, here, points⟩
    rw [object_push] at here
    split at here
    · cases here
      exact live a points
    · exact (owned a).mpr ⟨i, old, here, points⟩

theorem Owned.allocate (owned : h.Owned pointer) (b : B) {object : Address → O}
    (points : ∀ a, pointer (object a) = some a) : (h.allocate b object).Owned pointer := by
  intro a
  rw [block_allocate]
  constructor
  · intro there
    split at there
    · next fresh =>
      refine ⟨h.objects.length, object a, ?_, points a⟩
      rw [object_allocate, if_pos rfl, fresh]
    · rcases (owned a).mp there with ⟨i, old, here, pointed⟩
      refine ⟨i, old, ?_, pointed⟩
      rw [object_allocate, if_neg (Nat.ne_of_lt (lt_of_object here)), here]
  · intro held
    rcases held with ⟨i, old, here, pointed⟩
    rw [object_allocate] at here
    split at here
    · cases here
      rw [points] at pointed
      cases pointed
      rw [if_pos rfl]
      rfl
    · have there := (owned a).mpr ⟨i, old, here, pointed⟩
      rw [if_neg (Nat.ne_of_lt (lt_of_block there))]
      exact there

theorem Owned.put (owned : h.Owned pointer) {old : O} (here : h.object i = some old)
    {new : Option O} (live : ∀ o a, new = some o → pointer o = some a → (h.block a).isSome) :
    (h.put pointer i new).Owned pointer := by
  intro a
  by_cases held : (h.put pointer i new).Held pointer a
  · refine iff_of_true ?_ held
    rw [block_put_of_held held]
    rcases held with ⟨j, o, there, points⟩
    rw [object_put here] at there
    split at there
    · exact live o a there points
    · exact (owned a).mpr ⟨j, o, there, points⟩
  · refine iff_of_false ?_ held
    have last : ¬Heap.Held pointer { h with objects := h.objects.set i new } a := by
      intro still
      rcases still with ⟨j, o, there, points⟩
      exact held ⟨j, o, by rw [Heap.put, object_release]; exact there, points⟩
    by_cases dropped : pointer old = some a
    · rw [Heap.put, here, Option.bind_some, dropped, block_release_of_last last]
      simp
    · rw [Heap.put, here, Option.bind_some, block_release_of_kept fun same => absurd same dropped]
      intro there
      rcases (owned a).mp there with ⟨j, o, old_there, points⟩
      refine held ⟨j, o, ?_, points⟩
      rw [object_put here, if_neg ?_, old_there]
      intro same
      rw [same, here] at old_there
      cases old_there
      exact dropped points

/-! ## Time -/

/-- What may happen to the blocks in time: new ones come, and old ones go, but none is
changed, and what is gone does not come back. -/
structure Later (h h' : Heap B O) : Prop where
  length : h.blocks.length ≤ h'.blocks.length
  block : ∀ a < h.blocks.length, h'.block a = h.block a ∨ h'.block a = none

theorem Later.refl (h : Heap B O) : Later h h := ⟨Nat.le_refl _, fun _ _ => .inl rfl⟩

theorem Later.trans {h' h'' : Heap B O} (first : Later h h') (second : Later h' h'') :
    Later h h'' := by
  refine ⟨Nat.le_trans first.length second.length, fun a inside => ?_⟩
  rcases second.block a (Nat.lt_of_lt_of_le inside first.length) with same | gone
  · rw [same]
    exact first.block a inside
  · exact .inr gone

theorem later_push (o : O) : Later h (h.push o) := ⟨Nat.le_refl _, fun _ _ => .inl rfl⟩

theorem later_allocate (b : B) (object : Address → O) : Later h (h.allocate b object) := by
  refine ⟨?_, fun a inside => .inl ?_⟩
  · rw [Heap.allocate, List.length_append]
    exact Nat.le_add_right _ _
  · rw [block_allocate, if_neg (Nat.ne_of_lt inside)]

theorem later_release (p : Option Address) : Later h (h.release pointer p) := by
  cases p with
  | none => exact .refl h
  | some freed =>
      rw [release]
      split
      · exact .refl h
      · refine ⟨Nat.le_of_eq List.length_set.symm, fun a inside => ?_⟩
        unfold block
        by_cases same : freed = a
        · subst same
          rw [List.getElem?_set_self inside]
          exact .inr rfl
        · rw [List.getElem?_set_ne same]
          exact .inl rfl

theorem later_put (i : Nat) (new : Option O) : Later h (h.put pointer i new) := by
  have released : Later { h with objects := h.objects.set i new } (h.put pointer i new) :=
    later_release _
  exact ⟨released.length, released.block⟩

end Heap

end SharedBlocks
