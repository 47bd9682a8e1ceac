import Sponge.BufferStorage

/-!
# How long a string lives

The objects of class `Buffer` share strings through pointers that are counted, and an
object gives its pointer up not only when it is overwritten or destroyed but also when
the last byte of its string is removed. A program sees none of this. What it sees is a
`Ledger`: the strings that it has handed over, none of which is ever freed, and of each
object which string it is a part of and what was removed from it, in numbers that do
not wrap around.

The memory refines the ledger: all operations have the same outcomes, all objects show
the same bytes, and the strings in memory are those of which some object still has
something left.
-/

namespace Sponge

namespace BufferStorage

open SharedBlocks (Address Heap)

/-- What an object has: a string that was handed over, if any, without some bytes at its
front, which were removed in this many calls. -/
structure Share where
  origin : Option Address
  removals : List Nat
  deriving DecidableEq, Repr

/-- The share of an object that was never given a string, or was moved from. -/
def Share.null : Share := ⟨none, []⟩

/-- Nothing was removed from the string yet, or not all of it. The two differ for the
empty string, which is kept until a call has removed nothing from it. -/
def Share.Left (share : Share) (s : Bytes) : Prop :=
  share.removals = [] ∨ share.removals.sum < s.length

/-- The strings that were handed over, in their order, and the shares of the objects. -/
abbrev Ledger := Heap Bytes Share

namespace Ledger

/-- The bytes of a share. -/
def left (l : Ledger) (share : Share) : Bytes :=
  match share.origin with
  | none => []
  | some k => ((l.block k).getD []).drop share.removals.sum

/-- Write another share, or none for an object that is destroyed. No string is freed. -/
def set (l : Ledger) (i : Nat) (new : Option Share) : Ledger := l.put (fun _ => none) i new

/-- One operation. -/
def step (l : Ledger) : Op → Ledger × Outcome
  | .default => (l.push .null, .returned)
  | .take s _ => (l.allocate s fun k => ⟨some k, []⟩, .returned)
  | .copyConstruct source =>
      match l.object source with
      | none => (l, .undefined)
      | some share => (l.push share, .returned)
  | .moveConstruct source =>
      match l.object source with
      | none => (l, .undefined)
      | some share => (set (l.push share) source (some .null), .returned)
  | .copyAssign i source =>
      match l.object i, l.object source with
      | some _, some share => (set l i (some share), .returned)
      | _, _ => (l, .undefined)
  | .moveAssign i source =>
      match l.object i, l.object source with
      | some _, some share =>
          if i = source then (l, .returned)
          else (set (set l i (some share)) source (some .null), .returned)
      | _, _ => (l, .undefined)
  | .destroy i =>
      match l.object i with
      | none => (l, .undefined)
      | some _ => (set l i none, .returned)
  | .removePrefix i n =>
      match l.object i with
      | none => (l, .undefined)
      | some share =>
          if n.toNat ≤ (l.left share).length then
            (set l i (some ⟨share.origin, share.removals ++ [n.toNat]⟩), .returned)
          else
            (l, .threw (.outOfRange "Buffer::remove_prefix"))

/-- The ledger after a sequence of operations, and the outcomes. -/
def run (ops : List Op) : Ledger × List Outcome := Runs.run step Heap.empty ops

end Ledger

/-! ## Objects and shares -/

/-- The object has that share. While something is left it points to the string, and its
offset is what was removed; after that it points to nothing. -/
inductive Holds (m : Memory) (l : Ledger) : Object → Share → Prop
  | null (offset : UInt64) (removals : List Nat) : Holds m l ⟨none, offset⟩ ⟨none, removals⟩
  | live {k : Address} {s : Bytes} {offset : UInt64} {removals : List Nat}
      (handed : l.block k = some s) (there : m.block k = some s) (fits : s.length < sizeModulus)
      (sum : offset.toNat = removals.sum) (left : Share.Left ⟨some k, removals⟩ s) :
      Holds m l ⟨some k, offset⟩ ⟨some k, removals⟩
  | spent {k : Address} {s : Bytes} {offset : UInt64} {removals : List Nat}
      (handed : l.block k = some s) (left : ¬Share.Left ⟨some k, removals⟩ s) :
      Holds m l ⟨none, offset⟩ ⟨some k, removals⟩

/-- The memory is the ledger, less what was freed. -/
structure Refines (m : Memory) (l : Ledger) : Prop where
  addresses : m.blocks.length = l.blocks.length
  blocks : ∀ k s, m.block k = some s → l.block k = some s
  places : m.objects.length = l.objects.length
  objects : ∀ i, Option.Rel (Holds m l) (m.object i) (l.object i)

variable {m m' : Memory} {l l' : Ledger} {o : Object} {share : Share} {i : Nat} {n : UInt64}

theorem Share.Left.sum_le {s : Bytes} (left : share.Left s) : share.removals.sum ≤ s.length := by
  rcases left with fresh | less
  · rw [fresh]
    exact Nat.zero_le _
  · exact less.le

namespace Holds

theorem congr (holds : Holds m l o share)
    (same : ∀ a, o.storage = some a → m'.block a = m.block a)
    (more : ∀ k s, l.block k = some s → l'.block k = some s) : Holds m' l' o share := by
  cases holds with
  | null offset removals => exact .null offset removals
  | live handed there fits sum left =>
      exact .live (more _ _ handed) ((same _ rfl).trans there) fits sum left
  | spent handed left => exact .spent (more _ _ handed) left

/-- An object that has a share is a buffer of its bytes. -/
theorem represents (holds : Holds m l o share) :
    ∃ b : Buffer, Represents m o b ∧ b.str = l.left share := by
  cases holds with
  | null offset removals =>
      exact ⟨⟨none, offset.toNat, offset.toNat_lt, nofun⟩, ⟨.inl ⟨rfl, rfl⟩, rfl⟩, rfl⟩
  | @live k s offset removals handed there fits sum left =>
      have bound : offset.toNat ≤ s.length := sum.trans_le left.sum_le
      refine ⟨⟨some s, offset.toNat, offset.toNat_lt, ?_⟩,
        ⟨.inr ⟨k, s, rfl, there, rfl⟩, rfl⟩, ?_⟩
      · rintro t ⟨⟩
        exact ⟨fits, bound⟩
      · rw [Buffer.str_of_some rfl]
        simp only [Ledger.left, handed, Option.getD_some, sum]
  | @spent k s offset removals handed left =>
      refine ⟨⟨none, offset.toNat, offset.toNat_lt, nofun⟩, ⟨.inl ⟨rfl, rfl⟩, rfl⟩, ?_⟩
      obtain ⟨-, all⟩ := not_or.mp left
      simp only [Ledger.left, handed, Option.getD_some]
      exact (List.drop_of_length_le (Nat.le_of_not_lt all)).symm

/-- What a removal writes is the share that the ledger writes. -/
theorem advance (holds : Holds m l o share) (le : n.toNat ≤ (l.left share).length) :
    Holds m l ⟨Memory.keptStorage m o (o.startingOffset + n), o.startingOffset + n⟩
      ⟨share.origin, share.removals ++ [n.toNat]⟩ := by
  obtain ⟨b, represents, string⟩ := holds.represents
  have advanced := represents.offset_add (string ▸ le)
  have total : (share.removals ++ [n.toNat]).sum = share.removals.sum + n.toNat := by simp
  -- after a removal there is something left only if not all was removed
  have left_iff : ∀ k s, Share.Left ⟨some k, share.removals ++ [n.toNat]⟩ s ↔
      share.removals.sum + n.toNat < s.length := by
    simp [Share.Left]
  cases holds with
  | null offset removals => exact .null _ _
  | @live k s offset removals handed there fits sum left =>
      have size := stringSize_toNat fits
      have bound : removals.sum ≤ s.length := left.sum_le
      simp only [Ledger.left, handed, Option.getD_some, List.length_drop] at le
      dsimp only at advanced total left_iff ⊢
      by_cases all : stringSize s = offset + n
      · have gone : Memory.keptStorage m ⟨some k, offset⟩ (offset + n) = none := by
          simp [Memory.keptStorage, there, all]
        rw [gone]
        refine .spent handed ?_
        rw [left_iff, ← size, all]
        omega
      · have kept : Memory.keptStorage m ⟨some k, offset⟩ (offset + n) = some k := by
          simp [Memory.keptStorage, there, all]
        rw [← UInt64.toNat_inj, size] at all
        rw [kept]
        refine .live handed there fits ?_ ?_
        · rw [total, advanced, sum]
        · rw [left_iff]
          omega
  | spent handed left =>
      obtain ⟨-, all⟩ := not_or.mp left
      refine .spent handed ?_
      rw [left_iff]
      dsimp only at all ⊢
      omega

end Holds

/-! ## Operations -/

namespace Refines

variable (refines : Refines m l)

include refines

theorem cases (i : Nat) :
    (m.object i = none ∧ l.object i = none) ∨
      ∃ o share, m.object i = some o ∧ l.object i = some share ∧ Holds m l o share := by
  have related := refines.objects i
  generalize m.object i = a, l.object i = b at related
  cases related with
  | none => exact .inl ⟨rfl, rfl⟩
  | some holds => exact .inr ⟨_, _, rfl, rfl, holds⟩

/-- One more object and its share, while the strings of the others stay where they are. -/
theorem extend (addresses : m'.blocks.length = l'.blocks.length)
    (blocks : ∀ k s, m'.block k = some s → l'.block k = some s)
    (places : m'.objects.length = m.objects.length + 1)
    (places' : l'.objects.length = l.objects.length + 1)
    (object : ∀ j, m'.object j = if j = m.objects.length then some o else m.object j)
    (object' : ∀ j, l'.object j = if j = l.objects.length then some share else l.object j)
    (same : ∀ a s, m.block a = some s → m'.block a = some s)
    (more : ∀ k s, l.block k = some s → l'.block k = some s)
    (holds : Holds m' l' o share) : Refines m' l' := by
  refine ⟨addresses, blocks, by rw [places, places', refines.places], fun j => ?_⟩
  rw [object, object', refines.places]
  split
  · exact .some holds
  · rcases refines.cases j with ⟨gone, gone'⟩ | ⟨o', share', here, here', holds'⟩
    · rw [gone, gone']
      exact .none
    · rw [here, here']
      refine .some (holds'.congr (fun a points => ?_) more)
      obtain ⟨b, represents, -⟩ := holds'.represents
      obtain ⟨s, there⟩ := Option.isSome_iff_exists.mp (represents.live points)
      rw [there, same a s there]

theorem push (holds : Holds m l o share) : Refines (m.push o) (l.push share) := by
  have addresses : (m.push o).blocks.length = (l.push share).blocks.length := refines.addresses
  apply refines.extend addresses refines.blocks (Heap.length_push o)
    (Heap.length_push share) (Heap.object_push o) (Heap.object_push share)
  · exact fun _ _ there => there
  · exact fun _ _ handed => handed
  · exact holds.congr (fun _ _ => rfl) fun _ _ handed => handed

theorem allocate (s : Bytes) (fits : s.length < sizeModulus) :
    Refines (m.allocate s fun a => ⟨some a, 0⟩) (l.allocate s fun k => ⟨some k, []⟩) := by
  have stored : (m.allocate s fun a => (⟨some a, 0⟩ : Object)).block m.blocks.length =
      some s := by
    rw [Heap.block_allocate, if_pos rfl]
  have handed : (l.allocate s fun k => (⟨some k, []⟩ : Share)).block l.blocks.length =
      some s := by
    rw [Heap.block_allocate, if_pos rfl]
  apply refines.extend ?_ ?_ (Heap.length_allocate s _) (Heap.length_allocate s _)
    (Heap.object_allocate s _) (Heap.object_allocate s _)
  · intro a t there
    rw [Heap.block_allocate, if_neg (Nat.ne_of_lt (Heap.lt_of_block (by simp [there]))), there]
  · intro k t there
    rw [Heap.block_allocate, if_neg (Nat.ne_of_lt (Heap.lt_of_block (by simp [there]))), there]
  · rw [← refines.addresses] at handed ⊢
    exact .live handed stored fits rfl (.inl rfl)
  · simp [Heap.allocate, refines.addresses]
  · intro k t there
    rw [Heap.block_allocate] at there ⊢
    rw [refines.addresses] at there
    split
    · next last => rwa [if_pos last] at there
    · next other =>
      rw [if_neg other] at there
      exact refines.blocks k t there

theorem put {old : Object} {oldShare : Share} (here : m.object i = some old)
    (here' : l.object i = some oldShare) {new : Option Object} {newShare : Option Share}
    (related : Option.Rel (Holds m l) new newShare) :
    Refines (m.put Object.storage i new) (l.set i newShare) := by
  refine ⟨?_, ?_, ?_, ?_⟩
  · rw [Ledger.set, Heap.length_blocks_put, Heap.length_blocks_put, refines.addresses]
  · intro k s there
    rw [Ledger.set, Heap.block_put_of_none]
    apply refines.blocks
    have inside : k < m.blocks.length := by
      rw [← Heap.length_blocks_put i new]
      exact Heap.lt_of_block (by rw [there]; rfl)
    rcases (Heap.later_put i new).block k inside with same | freed
    · rw [← same, there]
    · rw [freed] at there
      cases there
  · rw [Ledger.set, Heap.objects_put, Heap.objects_put, List.length_set, List.length_set,
      refines.places]
  · intro j
    -- the strings that are still pointed to are where they were
    have kept : ∀ o' share', (m.put Object.storage i new).object j = some o' →
        Holds m l o' share' → Holds (m.put Object.storage i new) (l.set i newShare) o' share' := by
      intro o' share' there holds
      refine holds.congr (fun a points => ?_) fun k s handed => ?_
      · exact Heap.block_put_of_held ⟨j, o', there, points⟩
      · rwa [Ledger.set, Heap.block_put_of_none]
    by_cases written : j = i
    · have now : (m.put Object.storage i new).object j = new := by
        rw [Heap.object_put here, if_pos written]
      have now' : (l.set i newShare).object j = newShare := by
        rw [Ledger.set, Heap.object_put here', if_pos written]
      rw [now, now']
      cases related with
      | none => exact .none
      | some holds => exact .some (kept _ _ now holds)
    · have still : (m.put Object.storage i new).object j = m.object j := by
        rw [Heap.object_put here, if_neg written]
      have still' : (l.set i newShare).object j = l.object j := by
        rw [Ledger.set, Heap.object_put here', if_neg written]
      rcases refines.cases j with ⟨gone, gone'⟩ | ⟨o', share', there, there', holds⟩
      · rw [still, still', gone, gone']
        exact .none
      · rw [there] at still
        rw [still, still', there']
        exact .some (kept _ _ still holds)

theorem write {old : Object} {oldShare : Share} (here : m.object i = some old)
    (here' : l.object i = some oldShare) (holds : Holds m l o share) :
    Refines (m.put Object.storage i (some o)) (l.set i (some share)) :=
  refines.put here here' (.some holds)

theorem removePrefix (i : Nat) (n : UInt64) :
    (Memory.removePrefix m i n).2 = (l.step (.removePrefix i n)).2 ∧
      Refines (Memory.removePrefix m i n).1 (l.step (.removePrefix i n)).1 := by
  rcases refines.cases i with ⟨gone, gone'⟩ | ⟨o, share, here, here', holds⟩
  · simp only [Memory.removePrefix, Ledger.step, gone, gone']
    exact ⟨trivial, refines⟩
  · obtain ⟨b, represents, string⟩ := holds.represents
    simp only [Ledger.step, here']
    by_cases le : n.toNat ≤ (l.left share).length
    · rw [if_pos le, removePrefix_writes here represents (string ▸ le)]
      exact ⟨rfl, refines.write here here' (holds.advance le)⟩
    · have long : b.str.length < n.toNat := by
        rw [string]
        omega
      rw [if_neg le, removePrefix_of_gt here represents long]
      exact ⟨rfl, refines⟩

/-- One operation has the same outcome on both. -/
theorem step (op : Op) :
    (Memory.step m op).2 = (l.step op).2 ∧ Refines (Memory.step m op).1 (l.step op).1 := by
  cases op with
  | default => exact ⟨rfl, refines.push (.null 0 [])⟩
  | take s fits => exact ⟨rfl, refines.allocate s fits⟩
  | copyConstruct source =>
      rcases refines.cases source with ⟨gone, gone'⟩ | ⟨o, share, here, here', holds⟩
      · simp only [Memory.step, Ledger.step, gone, gone']
        exact ⟨trivial, refines⟩
      · simp only [Memory.step, Ledger.step, here, here']
        exact ⟨trivial, refines.push holds⟩
  | moveConstruct source =>
      rcases refines.cases source with ⟨gone, gone'⟩ | ⟨o, share, here, here', holds⟩
      · simp only [Memory.step, Ledger.step, gone, gone']
        exact ⟨trivial, refines⟩
      · have still : (m.push o).object source = some o := by
          rw [Heap.object_push, if_neg (Nat.ne_of_lt (Heap.lt_of_object here)), here]
        have still' : (l.push share).object source = some share := by
          rw [Heap.object_push, if_neg (Nat.ne_of_lt (Heap.lt_of_object here')), here']
        simp only [Memory.step, Ledger.step, here, here']
        exact ⟨trivial, (refines.push holds).write still still' (.null _ _)⟩
  | copyAssign i source =>
      rcases refines.cases i with ⟨gone, gone'⟩ | ⟨old, oldShare, there, there', -⟩
      · simp only [Memory.step, Ledger.step, gone, gone']
        exact ⟨trivial, refines⟩
      rcases refines.cases source with ⟨gone, gone'⟩ | ⟨o, share, here, here', holds⟩
      · simp only [Memory.step, Ledger.step, there, there', gone, gone']
        exact ⟨trivial, refines⟩
      · simp only [Memory.step, Ledger.step, there, there', here, here']
        exact ⟨trivial, refines.write there there' holds⟩
  | moveAssign i source =>
      rcases refines.cases i with ⟨gone, gone'⟩ | ⟨old, oldShare, there, there', -⟩
      · simp only [Memory.step, Ledger.step, gone, gone']
        exact ⟨trivial, refines⟩
      rcases refines.cases source with ⟨gone, gone'⟩ | ⟨o, share, here, here', holds⟩
      · simp only [Memory.step, Ledger.step, there, there', gone, gone']
        exact ⟨trivial, refines⟩
      simp only [Memory.step, Ledger.step, there, there', here, here']
      by_cases self : i = source
      · rw [if_pos self, if_pos self]
        exact ⟨rfl, refines⟩
      · have still : (m.put Object.storage i (some o)).object source = some o := by
          rw [Heap.object_put there, if_neg (Ne.symm self), here]
        have still' : (l.set i (some share)).object source = some share := by
          rw [Ledger.set, Heap.object_put there', if_neg (Ne.symm self), here']
        rw [if_neg self, if_neg self]
        exact ⟨rfl, (refines.write there there' holds).write still still' (.null _ _)⟩
  | destroy i =>
      rcases refines.cases i with ⟨gone, gone'⟩ | ⟨o, share, here, here', -⟩
      · simp only [Memory.step, Ledger.step, gone, gone']
        exact ⟨trivial, refines⟩
      · simp only [Memory.step, Ledger.step, here, here']
        exact ⟨trivial, refines.put here here' .none⟩
  | removePrefix i n => exact refines.removePrefix i n

end Refines

/-! ## Runs -/

theorem refines_empty : Refines Heap.empty Heap.empty := by
  refine ⟨rfl, ?_, rfl, ?_⟩
  · intro k s there
    simp [Heap.block, Heap.empty] at there
  · intro i
    simp only [Heap.object, Heap.empty, List.getElem?_nil]
    exact .none

theorem run_refines (ops : List Op) :
    (run ops).2 = (Ledger.run ops).2 ∧ Refines (run ops).1 (Ledger.run ops).1 := by
  obtain ⟨same, refines⟩ := Runs.run_lockStep Refines (fun m l op refines => refines.step op)
    refines_empty ops
  exact ⟨List.forall₂_eq_eq_eq ▸ same, refines⟩

/-- **A string lives as long as something of it is left.** Every sequence of operations has
the outcomes that it has on the ledger, where nothing is freed and nothing wraps
around, and leaves objects that show the same bytes. But a string is in memory exactly
as long as some object has a share of it with something left, so that an object that is
kept after all of its bytes were removed does not keep the string. -/
theorem run_refines_ledger (ops : List Op) :
    (run ops).2 = (Ledger.run ops).2 ∧
    (∀ i, Memory.contents (run ops).1 i =
      ((Ledger.run ops).1.object i).map (Ledger.run ops).1.left) ∧
    ∀ k s, (run ops).1.block k = some s ↔
      (Ledger.run ops).1.block k = some s ∧
        ∃ i share, (Ledger.run ops).1.object i = some share ∧ share.origin = some k ∧
          share.Left s := by
  obtain ⟨outcomes, refines⟩ := run_refines ops
  have owned := (run_described ops).owned
  refine ⟨outcomes, fun i => ?_, fun k s => ⟨fun there => ?_, fun ⟨handed, held⟩ => ?_⟩⟩
  · rcases refines.cases i with ⟨gone, gone'⟩ | ⟨o, share, here, here', holds⟩
    · rw [Memory.contents, gone, gone']
      rfl
    · obtain ⟨b, represents, string⟩ := holds.represents
      rw [contents_eq here represents, here', string]
      rfl
  · have handed := refines.blocks k s there
    obtain ⟨i, o, here, points⟩ := (owned k).mp (by rw [there]; rfl)
    rcases refines.cases i with ⟨gone, -⟩ | ⟨o', share, here', listed, holds⟩
    · rw [gone] at here
      cases here
    · rw [here] at here'
      cases here'
      refine ⟨handed, i, share, listed, ?_⟩
      cases holds with
      | null offset removals => cases points
      | live handed' _ _ _ left =>
          cases points
          rw [handed] at handed'
          cases handed'
          exact ⟨rfl, left⟩
      | spent _ _ => cases points
  · obtain ⟨i, share, listed, origin, left⟩ := held
    rcases refines.cases i with ⟨-, gone⟩ | ⟨o, share', here, listed', holds⟩
    · rw [gone] at listed
      cases listed
    · rw [listed] at listed'
      cases listed'
      cases holds with
      | null offset removals => cases origin
      | live handed' there _ _ _ =>
          cases origin
          rw [handed] at handed'
          cases handed'
          exact there
      | spent handed' nothing =>
          cases origin
          rw [handed] at handed'
          cases handed'
          exact absurd left nothing

end BufferStorage

end Sponge
