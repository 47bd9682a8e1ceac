import Sponge.Buffer
import Sponge.Lib.Runs
import Sponge.Lib.SharedBlocks

/-!
# Buffers in memory

`Buffer` of the model carries the invariant of the class in its type. Here are the
objects of the class as they lie in memory, a shared pointer and an offset that is
any `size_t`: copies share the string, a string is freed with its last owner, the
offset stays as it is when the pointer is reset, and the arithmetic of `str` and of
`remove_prefix` is that of the machine. Reading a view that does not lie inside its
string, following a pointer to a string that is gone and using an object that is not
there are undefined.

Every object that a program can get to is a `Buffer` (`Represents`), and what it is
a buffer of can be told from the calls of the program and their outcomes alone
(`Account`).
-/

namespace Sponge

namespace BufferStorage

open SharedBlocks (Address Heap)

/-- An object of class `Buffer`. -/
structure Object where
  storage : Option Address
  startingOffset : UInt64
  deriving DecidableEq, Repr

/-- The strings that were handed over, by their addresses, and the objects. -/
abbrev Memory := Heap Bytes Object

/-- The member function `size` of `std::string`. -/
def stringSize (s : Bytes) : UInt64 := UInt64.ofNat s.length

/-- A `std::string_view`. -/
structure View where
  base : Option Address
  start : UInt64
  len : UInt64
  deriving DecidableEq, Repr

inductive Outcome where
  | returned
  | threw (e : Exn)
  | undefined
  deriving DecidableEq, Repr

namespace Memory

/-- The member function `str`. -/
def str (m : Memory) (o : Object) : Option View :=
  match o.storage with
  | none => some ⟨none, 0, 0⟩
  | some a =>
      (m.block a).map fun s => ⟨some a, o.startingOffset, stringSize s - o.startingOffset⟩

/-- The bytes that a view shows. -/
def read (m : Memory) (v : View) : Option Bytes :=
  match v.base with
  | none => if v.len = 0 then some [] else none
  | some a =>
      match m.block a with
      | none => none
      | some s =>
          if v.start.toNat + v.len.toNat ≤ s.length then
            some ((s.drop v.start.toNat).take v.len.toNat)
          else
            none

/-- The bytes that `str` of the object at a place shows. -/
def contents (m : Memory) (i : Nat) : Option Bytes :=
  match m.object i with
  | none => none
  | some o =>
      match str m o with
      | none => none
      | some v => read m v

/-- The storage that an object keeps when its offset has been set. -/
def keptStorage (m : Memory) (o : Object) (startingOffset : UInt64) : Option Address :=
  match o.storage with
  | none => none
  | some a => if (m.block a).map stringSize = some startingOffset then none else some a

/-- The member function `remove_prefix`. -/
def removePrefix (m : Memory) (i : Nat) (n : UInt64) : Memory × Outcome :=
  match m.object i with
  | none => (m, .undefined)
  | some o =>
      match str m o with
      | none => (m, .undefined)
      | some v =>
          if n > v.len then
            (m, .threw (.outOfRange "Buffer::remove_prefix"))
          else
            -- the offset is advanced also when the pointer is null or about to be reset
            let startingOffset := o.startingOffset + n
            (m.put Object.storage i (some ⟨keptStorage m o startingOffset, startingOffset⟩),
              .returned)

end Memory

/-- What a program does with buffers. The objects are named by their places, in the
order of their construction. -/
inductive Op where
  | default
  | take (s : Bytes) (fits : s.length < sizeModulus)
  | copyConstruct (source : Nat)
  | moveConstruct (source : Nat)
  | copyAssign (i source : Nat)
  | moveAssign (i source : Nat)
  | destroy (i : Nat)
  | removePrefix (i : Nat) (n : UInt64)

/-- What is left of an object that was moved from: the pointer is null, the offset is
copied like any number. -/
def Object.movedFrom (o : Object) : Object := ⟨none, o.startingOffset⟩

namespace Memory

/-- One operation. A move assignment of an object to itself changes nothing. -/
def step (m : Memory) : Op → Memory × Outcome
  | .default => (m.push ⟨none, 0⟩, .returned)
  | .take s _ => (m.allocate s fun a => ⟨some a, 0⟩, .returned)
  | .copyConstruct source =>
      match m.object source with
      | none => (m, .undefined)
      | some o => (m.push o, .returned)
  | .moveConstruct source =>
      match m.object source with
      | none => (m, .undefined)
      | some o => ((m.push o).put Object.storage source (some o.movedFrom), .returned)
  | .copyAssign i source =>
      match m.object i, m.object source with
      | some _, some o => (m.put Object.storage i (some o), .returned)
      | _, _ => (m, .undefined)
  | .moveAssign i source =>
      match m.object i, m.object source with
      | some _, some o =>
          if i = source then (m, .returned)
          else
            -- both point to the string between the two writes, so it is not freed
            ((m.put Object.storage i (some o)).put Object.storage source (some o.movedFrom),
              .returned)
      | _, _ => (m, .undefined)
  | .destroy i =>
      match m.object i with
      | none => (m, .undefined)
      | some _ => (m.put Object.storage i none, .returned)
  | .removePrefix i n => removePrefix m i n

end Memory

/-! ## Accounts -/

/-- What is known of an object from outside: the string that it was made from, directly
or by copies, and how much of it was removed by calls that returned. -/
structure Account where
  original : Bytes
  removed : Nat
  deriving DecidableEq, Repr

def Account.zero : Account := ⟨[], 0⟩

/-- Keep the accounts of all objects, by an operation and its outcome. -/
def record (accounts : List Account) : Op → Outcome → List Account
  | .default, .returned => accounts ++ [.zero]
  | .take s _, .returned => accounts ++ [⟨s, 0⟩]
  | .copyConstruct source, .returned => accounts ++ [accounts.getD source .zero]
  | .moveConstruct source, .returned =>
      (accounts ++ [accounts.getD source .zero]).set source .zero
  | .copyAssign i source, .returned => accounts.set i (accounts.getD source .zero)
  | .moveAssign i source, .returned =>
      if i = source then accounts
      else (accounts.set i (accounts.getD source .zero)).set source .zero
  | .removePrefix i n, .returned =>
      let account := accounts.getD i .zero
      accounts.set i ⟨account.original, account.removed + n.toNat⟩
  | _, _ => accounts

/-! ## Objects and buffers -/

/-- The object is that buffer: its pointer is null like the buffer's, or the string
is there that the buffer has. -/
structure Represents (m : Memory) (o : Object) (b : Buffer) : Prop where
  storage : (o.storage = none ∧ b.storage = none) ∨
    ∃ a s, o.storage = some a ∧ m.block a = some s ∧ b.storage = some s
  offset : o.startingOffset.toNat = b.startingOffset

theorem stringSize_toNat {s : Bytes} (fits : s.length < sizeModulus) :
    (stringSize s).toNat = s.length :=
  UInt64.toNat_ofNat_of_lt' fits

variable {m m' : Memory} {o : Object} {b : Buffer} {i : Nat} {n : UInt64}

namespace Represents

/-- Only the string that the object points to matters. -/
theorem congr (represents : Represents m o b)
    (same : ∀ a, o.storage = some a → m'.block a = m.block a) : Represents m' o b := by
  refine ⟨?_, represents.offset⟩
  rcases represents.storage with null | ⟨a, s, points, there, stored⟩
  · exact .inl null
  · exact .inr ⟨a, s, points, (same a points).trans there, stored⟩

theorem live (represents : Represents m o b) {a : Address} (points : o.storage = some a) :
    (m.block a).isSome := by
  rcases represents.storage with ⟨null, -⟩ | ⟨a', s, points', there, -⟩
  · rw [null] at points
    cases points
  · rw [points'] at points
    cases points
    rw [there]
    rfl

/-- The difference of the string's size and the offset, in `size_t`. -/
theorem size_sub (represents : Represents m o b) {s : Bytes} (stored : b.storage = some s) :
    (stringSize s - o.startingOffset).toNat = s.length - o.startingOffset.toNat := by
  obtain ⟨fits, le⟩ := b.in_bounds s stored
  rw [← represents.offset] at le
  have size := stringSize_toNat fits
  rw [UInt64.toNat_sub_of_le _ _ (UInt64.le_iff_toNat_le.mpr (by omega)), size]

/-- `str` shows the string of the buffer. -/
theorem str (represents : Represents m o b) :
    ∃ v, Memory.str m o = some v ∧ v.len.toNat = b.str.length ∧
      Memory.read m v = some b.str := by
  rcases represents.storage with ⟨null, released⟩ | ⟨a, s, points, there, stored⟩
  · refine ⟨⟨none, 0, 0⟩, by rw [Memory.str, null], ?_, ?_⟩
    · rw [Buffer.str_of_none released]
      rfl
    · rw [Buffer.str_of_none released]
      rfl
  · obtain ⟨-, le⟩ := b.in_bounds s stored
    have string := Buffer.str_of_some stored
    rw [← represents.offset] at le string
    have len := represents.size_sub stored
    refine ⟨⟨some a, o.startingOffset, stringSize s - o.startingOffset⟩, ?_, ?_, ?_⟩
    · simp only [Memory.str, points, there, Option.map_some]
    · rw [string, List.length_drop, len]
    · have inside : o.startingOffset.toNat + (stringSize s - o.startingOffset).toNat ≤
          s.length := by omega
      simp only [Memory.read, there]
      rw [if_pos inside, string, List.take_of_length_le]
      rw [List.length_drop, len]

/-- The offset of a removal that passes the check, in `size_t`. -/
theorem offset_add (represents : Represents m o b) (le : n.toNat ≤ b.str.length) :
    (o.startingOffset + n).toNat = o.startingOffset.toNat + n.toNat := by
  rw [UInt64.toNat_add, represents.offset]
  exact Buffer.sizeAdd_startingOffset le

/-- What a removal that passes the check writes to the object. -/
theorem advance (represents : Represents m o b) (le : n.toNat ≤ b.str.length) :
    Represents m ⟨Memory.keptStorage m o (o.startingOffset + n), o.startingOffset + n⟩
      (b.advance n.toNat le) := by
  have sum := represents.offset_add le
  have offset : (o.startingOffset + n).toNat = sizeAdd b.startingOffset n.toNat := by
    rw [sum, represents.offset, Buffer.sizeAdd_startingOffset le]
  refine ⟨?_, offset⟩
  rcases represents.storage with ⟨null, released⟩ | ⟨a, s, points, there, stored⟩
  · left
    simp only [Memory.keptStorage, null, Buffer.advance, released, and_self]
  · obtain ⟨fits, -⟩ := b.in_bounds s stored
    have exhausted : (m.block a).map stringSize = some (o.startingOffset + n) ↔
        sizeAdd b.startingOffset n.toNat = s.length := by
      rw [there, Option.map_some, Option.some_inj, ← UInt64.toNat_inj, offset,
        stringSize_toNat fits, eq_comm]
    simp only [Memory.keptStorage, points, Buffer.advance, stored, exhausted]
    split
    · exact .inl ⟨rfl, rfl⟩
    · exact .inr ⟨a, s, rfl, there, rfl⟩

end Represents

/-- What a removal inside the string writes. -/
theorem removePrefix_writes (here : m.object i = some o) (represents : Represents m o b)
    (le : n.toNat ≤ b.str.length) :
    Memory.removePrefix m i n = (m.put Object.storage i
      (some ⟨Memory.keptStorage m o (o.startingOffset + n), o.startingOffset + n⟩),
      .returned) := by
  obtain ⟨v, view, len, -⟩ := represents.str
  have short : ¬n > v.len := by
    rw [gt_iff_lt, UInt64.lt_iff_toNat_lt]
    omega
  simp only [Memory.removePrefix, here, view]
  rw [if_neg short]

/-- **`remove_prefix` on an object is `remove_prefix` on the buffer that it is.** -/
theorem removePrefix_simulates (here : m.object i = some o) (represents : Represents m o b)
    (n : UInt64) :
    match b.removePrefix n.toNat with
    | .ok b' => ∃ o', Memory.removePrefix m i n =
        (m.put Object.storage i (some o'), .returned) ∧ Represents m o' b'
    | .error e => Memory.removePrefix m i n = (m, .threw e) := by
  rcases Nat.lt_or_ge b.str.length n.toNat with long | le
  · obtain ⟨v, view, len, -⟩ := represents.str
    have exceeds : n > v.len := by
      rw [gt_iff_lt, UInt64.lt_iff_toNat_lt]
      omega
    simp only [Memory.removePrefix, here, view]
    rw [Buffer.removePrefix_of_gt long, if_pos exceeds]
  · rw [Buffer.removePrefix, dif_neg (Nat.not_lt.mpr le), removePrefix_writes here represents le]
    exact ⟨_, rfl, represents.advance le⟩

theorem removePrefix_of_le (here : m.object i = some o) (represents : Represents m o b)
    (le : n.toNat ≤ b.str.length) :
    ∃ o' b', Memory.removePrefix m i n = (m.put Object.storage i (some o'), .returned) ∧
      Represents m o' b' ∧ b'.str = b.str.drop n.toNat := by
  obtain ⟨b', removed, left⟩ := Buffer.removePrefix_of_le le
  have simulated := removePrefix_simulates here represents n
  rw [removed] at simulated
  obtain ⟨o', returned, represents'⟩ := simulated
  exact ⟨o', b', returned, represents', left⟩

theorem removePrefix_of_gt (here : m.object i = some o) (represents : Represents m o b)
    (long : b.str.length < n.toNat) :
    Memory.removePrefix m i n = (m, .threw (.outOfRange "Buffer::remove_prefix")) := by
  have simulated := removePrefix_simulates here represents n
  rwa [Buffer.removePrefix_of_gt long] at simulated

theorem removePrefix_returned_iff (here : m.object i = some o) (represents : Represents m o b) :
    (Memory.removePrefix m i n).2 = .returned ↔ n.toNat ≤ b.str.length := by
  rcases Nat.lt_or_ge b.str.length n.toNat with long | le
  · rw [removePrefix_of_gt here represents long]
    exact iff_of_false nofun (by omega)
  · obtain ⟨o', b', returned, -⟩ := removePrefix_of_le here represents le
    rw [returned]
    exact iff_of_true rfl le

/-- The object after a removal inside the string. -/
theorem removePrefix_object (here : m.object i = some o) (represents : Represents m o b)
    (le : n.toNat ≤ b.str.length) :
    ∃ o' b', (Memory.removePrefix m i n).1.object i = some o' ∧
      Represents (Memory.removePrefix m i n).1 o' b' ∧ b'.str = b.str.drop n.toNat := by
  obtain ⟨o', b', returned, represents', left⟩ := removePrefix_of_le here represents le
  rw [returned]
  have there : (m.put Object.storage i (some o')).object i = some o' := by
    rw [Heap.object_put here, if_pos rfl]
  refine ⟨o', b', there, represents'.congr ?_, left⟩
  intro a points
  exact Heap.block_put_of_held ⟨i, o', there, points⟩

theorem contents_eq (here : m.object i = some o) (represents : Represents m o b) :
    Memory.contents m i = some b.str := by
  obtain ⟨v, view, -, string⟩ := represents.str
  simp only [Memory.contents, here, view, string]

/-! ## Operations -/

/-- The object is a buffer, and its string is what the account says. -/
def Describes (m : Memory) (o : Object) (account : Account) : Prop :=
  ∃ b : Buffer, Represents m o b ∧ account.removed ≤ account.original.length ∧
    b.str = account.original.drop account.removed

/-- The invariant of a program's run. -/
structure Described (m : Memory) (accounts : List Account) : Prop where
  owned : m.Owned Object.storage
  aligned : accounts.length = m.objects.length
  objects : ∀ i o, m.object i = some o →
    ∃ account, accounts[i]? = some account ∧ Describes m o account

variable {account : Account} {accounts : List Account}

theorem Describes.congr (describes : Describes m o account)
    (same : ∀ a, o.storage = some a → m'.block a = m.block a) : Describes m' o account := by
  rcases describes with ⟨b, represents, inside, string⟩
  exact ⟨b, represents.congr same, inside, string⟩

theorem Describes.live (describes : Describes m o account) {a : Address}
    (points : o.storage = some a) : (m.block a).isSome := by
  rcases describes with ⟨b, represents, -⟩
  exact represents.live points

/-- An object that points to nothing is an empty buffer, whatever its offset is. -/
theorem describes_null (m : Memory) (startingOffset : UInt64) :
    Describes m ⟨none, startingOffset⟩ .zero := by
  refine ⟨⟨none, startingOffset.toNat, startingOffset.toNat_lt, nofun⟩, ?_, Nat.le_refl _, rfl⟩
  exact ⟨.inl ⟨rfl, rfl⟩, rfl⟩

namespace Described

variable (described : Described m accounts)

include described

theorem getD (here : m.object i = some o) : Describes m o (accounts.getD i .zero) := by
  rcases described.objects i o here with ⟨account, listed, describes⟩
  rwa [List.getD_eq_getElem?_getD, listed, Option.getD_some]

/-- One more object, of which the account is right, while the strings of the others
stay where they are. -/
theorem extend (owned : m'.Owned Object.storage)
    (length : m'.objects.length = m.objects.length + 1)
    (object : ∀ j, m'.object j = if j = m.objects.length then some o else m.object j)
    (blocks : ∀ a, (m.block a).isSome → m'.block a = m.block a)
    (describes : Describes m' o account) : Described m' (accounts ++ [account]) := by
  refine ⟨owned, ?_, ?_⟩
  · rw [length, List.length_append, described.aligned]
    rfl
  · intro j o' there
    rw [object] at there
    split at there
    · next last =>
      cases there
      refine ⟨account, ?_, describes⟩
      rw [last, ← described.aligned, List.getElem?_concat_length]
    · have inside := Heap.lt_of_object there
      rcases described.objects j o' there with ⟨account', listed, describes'⟩
      refine ⟨account', ?_, describes'.congr fun a points => blocks a (describes'.live points)⟩
      rwa [List.getElem?_append_left (by rwa [described.aligned])]

theorem push (describes : Describes m o account) :
    Described (m.push o) (accounts ++ [account]) := by
  apply described.extend (described.owned.push fun a => describes.live) (Heap.length_push o)
    (Heap.object_push o)
  · exact fun _ _ => rfl
  · exact describes.congr fun _ _ => rfl

theorem allocate (s : Bytes) (fits : s.length < sizeModulus) :
    Described (m.allocate s fun a => ⟨some a, 0⟩) (accounts ++ [⟨s, 0⟩]) := by
  apply described.extend (described.owned.allocate s fun _ => rfl) (Heap.length_allocate s _)
    (Heap.object_allocate s _)
  · intro a live
    rw [Heap.block_allocate, if_neg (Nat.ne_of_lt (Heap.lt_of_block live))]
  · have stored : (m.allocate s fun a => (⟨some a, 0⟩ : Object)).block m.blocks.length =
        some s := by
      rw [Heap.block_allocate, if_pos rfl]
    refine ⟨Buffer.ofString s fits, ⟨.inr ⟨_, s, rfl, stored, rfl⟩, rfl⟩, Nat.zero_le _, ?_⟩
    rw [Buffer.str_ofString, List.drop_zero]

theorem put {old : Object} (here : m.object i = some old) {new : Option Object}
    (describes : ∀ o, new = some o → Describes m o account) :
    Described (m.put Object.storage i new) (accounts.set i account) := by
  have inside := Heap.lt_of_object here
  have live : ∀ o a, new = some o → o.storage = some a → (m.block a).isSome :=
    fun o a is points => (describes o is).live points
  refine ⟨described.owned.put here live, ?_, ?_⟩
  · rw [Heap.objects_put, List.length_set, List.length_set, described.aligned]
  · intro j o there
    -- the strings that are still pointed to are where they were
    have same : ∀ a, o.storage = some a →
        (m.put Object.storage i new).block a = m.block a :=
      fun a points => Heap.block_put_of_held ⟨j, o, there, points⟩
    rw [Heap.object_put here] at there
    split at there
    · next self =>
      refine ⟨account, ?_, (describes o there).congr same⟩
      rw [self, List.getElem?_set_self (by rwa [described.aligned])]
    · next other =>
      rcases described.objects j o there with ⟨account', listed, describes'⟩
      refine ⟨account', ?_, describes'.congr same⟩
      rwa [List.getElem?_set_ne (Ne.symm other)]

theorem write {old : Object} (here : m.object i = some old) (describes : Describes m o account) :
    Described (m.put Object.storage i (some o)) (accounts.set i account) := by
  apply described.put here
  intro o' written
  cases written
  exact describes

theorem removePrefix (i : Nat) (n : UInt64) :
    Described (Memory.removePrefix m i n).1
      (record accounts (.removePrefix i n) (Memory.removePrefix m i n).2) := by
  cases here : m.object i with
  | none =>
      have undefined : Memory.removePrefix m i n = (m, .undefined) := by
        rw [Memory.removePrefix, here]
      rw [undefined]
      exact described
  | some o =>
      rcases described.getD here with ⟨b, represents, inside, string⟩
      rcases Nat.lt_or_ge b.str.length n.toNat with long | le
      · rw [removePrefix_of_gt here represents long]
        exact described
      · obtain ⟨o', b', returned, represents', left⟩ := removePrefix_of_le here represents le
        rw [returned]
        refine described.write here ⟨b', represents', ?_, ?_⟩
        · rw [string, List.length_drop] at le
          show (accounts.getD i .zero).removed + n.toNat ≤ (accounts.getD i .zero).original.length
          omega
        · rw [left, string, List.drop_drop]

/-- One operation keeps the accounts right. -/
theorem step (op : Op) :
    Described (Memory.step m op).1 (record accounts op (Memory.step m op).2) := by
  cases op with
  | default => exact described.push (describes_null m 0)
  | take s fits => exact described.allocate s fits
  | copyConstruct source =>
      rw [Memory.step]
      cases here : m.object source with
      | none => exact described
      | some o => exact described.push (described.getD here)
  | moveConstruct source =>
      rw [Memory.step]
      cases here : m.object source with
      | none => exact described
      | some o =>
          have pushed := described.push (described.getD here)
          have still : (m.push o).object source = some o := by
            rw [Heap.object_push, if_neg (Nat.ne_of_lt (Heap.lt_of_object here)), here]
          exact pushed.write still (describes_null _ _)
  | copyAssign i source =>
      rw [Memory.step]
      cases there : m.object i with
      | none => exact described
      | some old =>
          cases here : m.object source with
          | none => exact described
          | some o =>
              exact described.write there (described.getD here)
  | moveAssign i source =>
      rw [Memory.step]
      cases there : m.object i with
      | none => exact described
      | some old =>
          cases here : m.object source with
          | none => exact described
          | some o =>
              by_cases self : i = source
              · simp only [record, if_pos self]
                exact described
              · have assigned := described.write there (described.getD here)
                have still : (m.put Object.storage i (some o)).object source = some o := by
                  rw [Heap.object_put there, if_neg (Ne.symm self), here]
                simp only [record, if_neg self]
                exact assigned.write still (describes_null _ _)
  | destroy i =>
      rw [Memory.step]
      cases here : m.object i with
      | none => exact described
      | some o =>
          rcases described.objects i o here with ⟨account, listed, -⟩
          rcases List.getElem?_eq_some_iff.mp listed with ⟨inside, rfl⟩
          have gone : Described (m.put Object.storage i none) (accounts.set i accounts[i]) :=
            described.put here nofun
          rwa [List.set_getElem_self] at gone
  | removePrefix i n => exact described.removePrefix i n

end Described

/-! ## Runs -/

/-- The memory after a sequence of operations, and the outcomes. -/
def run (ops : List Op) : Memory × List Outcome := Runs.run Memory.step Heap.empty ops

/-- The accounts after a sequence of operations, which are kept by the outcomes. -/
def accountsOf (ops : List Op) : List Account := Runs.history record [] ops (run ops).2

theorem described_empty : Described Heap.empty [] := by
  refine ⟨Heap.owned_empty, rfl, ?_⟩
  intro i o here
  simp [Heap.object, Heap.empty] at here

theorem run_described (ops : List Op) : Described (run ops).1 (accountsOf ops) :=
  Runs.run_history Described (fun _ _ op described => described.step op) described_empty ops

/-- Two removals in a row are one. -/
theorem removePrefix_additive (here : m.object i = some o) (represents : Represents m o b)
    (x y : UInt64) :
    let first := Memory.removePrefix m i x
    let second := Memory.removePrefix first.1 i y
    let whole := Memory.removePrefix m i (x + y)
    (first.2 = .returned ∧ second.2 = .returned ↔ x.toNat + y.toNat ≤ b.str.length) ∧
    (x.toNat + y.toNat ≤ b.str.length →
      (x + y).toNat = x.toNat + y.toNat ∧ whole.2 = .returned ∧
        Memory.contents second.1 i = some (b.str.drop (x.toNat + y.toNat)) ∧
        Memory.contents whole.1 i = some (b.str.drop (x.toNat + y.toNat))) := by
  intro first second whole
  constructor
  · by_cases le : x.toNat ≤ b.str.length
    · obtain ⟨o', b', here', represents', left⟩ := removePrefix_object here represents le
      rw [removePrefix_returned_iff here represents,
        removePrefix_returned_iff here' represents', left, List.length_drop]
      omega
    · rw [removePrefix_returned_iff here represents]
      omega
  · intro le
    have small : b.str.length < 2 ^ 64 := b.length_str_lt
    have sum : (x + y).toNat = x.toNat + y.toNat := by
      rw [UInt64.toNat_add]
      exact Nat.mod_eq_of_lt (by omega)
    have le_sum : (x + y).toNat ≤ b.str.length := by omega
    refine ⟨sum, (removePrefix_returned_iff here represents).mpr le_sum, ?_, ?_⟩
    · have le_x : x.toNat ≤ b.str.length := by omega
      obtain ⟨o', b', here', represents', left⟩ := removePrefix_object here represents le_x
      have le_y : y.toNat ≤ b'.str.length := by
        rw [left, List.length_drop]
        omega
      obtain ⟨o'', b'', here'', represents'', left'⟩ := removePrefix_object here' represents' le_y
      rw [contents_eq here'' represents'', left', left, List.drop_drop]
    · obtain ⟨o', b', here', represents', left⟩ := removePrefix_object here represents le_sum
      rw [contents_eq here' represents', left, sum]

/-- The object `o` at place `i`, whose `str` is the view `v`, is an exact buffer of what
its account says. Its storage is null or reaches up to the offset, so that neither the
subtraction in `str` nor the addition in `remove_prefix` wraps around. Its string is the
original one less what was removed. Two removals succeed exactly if their sum does, and
leave the same. -/
structure Exact (m : Memory) (i : Nat) (o : Object) (v : View) (account : Account) : Prop where
  view : Memory.str m o = some v
  inBounds : o.storage = none ∨ ∃ a s, o.storage = some a ∧ m.block a = some s ∧
    o.startingOffset ≤ stringSize s ∧ o.startingOffset.toNat ≤ s.length ∧
    (stringSize s - o.startingOffset).toNat = s.length - o.startingOffset.toNat
  noOverflow : ∀ n : UInt64, n ≤ v.len → o.startingOffset.toNat + n.toNat < sizeModulus
  removed : account.removed ≤ account.original.length
  string : Memory.read m v = some (account.original.drop account.removed)
  size : v.len.toNat = account.original.length - account.removed
  additive : ∀ x y : UInt64,
    let first := Memory.removePrefix m i x
    let second := Memory.removePrefix first.1 i y
    let whole := Memory.removePrefix m i (x + y)
    (first.2 = .returned ∧ second.2 = .returned ↔ x.toNat + y.toNat ≤ v.len.toNat) ∧
    (x.toNat + y.toNat ≤ v.len.toNat →
      (x + y).toNat = x.toNat + y.toNat ∧ whole.2 = .returned ∧
        (Memory.contents second.1 i).isSome ∧
        Memory.contents second.1 i = Memory.contents whole.1 i)

theorem Represents.inBounds (represents : Represents m o b) :
    o.storage = none ∨ ∃ a s, o.storage = some a ∧ m.block a = some s ∧
      o.startingOffset ≤ stringSize s ∧ o.startingOffset.toNat ≤ s.length ∧
      (stringSize s - o.startingOffset).toNat = s.length - o.startingOffset.toNat := by
  rcases represents.storage with ⟨null, -⟩ | ⟨a, s, points, there, stored⟩
  · exact .inl null
  · obtain ⟨fits, le⟩ := b.in_bounds s stored
    rw [← represents.offset] at le
    refine .inr ⟨a, s, points, there, ?_, le, represents.size_sub stored⟩
    rwa [UInt64.le_iff_toNat_le, stringSize_toNat fits]

theorem Represents.noOverflow (represents : Represents m o b) (le : n.toNat ≤ b.str.length) :
    o.startingOffset.toNat + n.toNat < sizeModulus := by
  rw [← represents.offset_add le]
  exact UInt64.toNat_lt _

/-- **The representation of a `Buffer`.** After any sequence of constructions, copies,
moves and removals, whether they return or throw, every object keeps the invariant of
the class, no arithmetic on its offset has wrapped or will, its string is the original
one without the bytes that were removed, and removals add up. -/
theorem run_exact (ops : List Op) (i : Nat) (o : Object)
    (here : (run ops).1.object i = some o) :
    ∃ v account, (accountsOf ops)[i]? = some account ∧ Exact (run ops).1 i o v account := by
  rcases (run_described ops).objects i o here with
    ⟨account, listed, b, represents, removed, string⟩
  obtain ⟨v, view, len, shown⟩ := represents.str
  refine ⟨v, account, listed, view, represents.inBounds, ?_, removed, ?_, ?_, ?_⟩
  · intro n le
    rw [UInt64.le_iff_toNat_le, len] at le
    exact represents.noOverflow le
  · rw [shown, string]
  · rw [len, string, List.length_drop]
  · intro x y
    obtain ⟨returned, same⟩ := removePrefix_additive here represents x y
    rw [len]
    refine ⟨returned, ?_⟩
    intro le
    obtain ⟨sum, whole, contents, contents'⟩ := same le
    exact ⟨sum, whole, by rw [contents]; rfl, contents.trans contents'.symm⟩

/-- Two bytes and a copy; both are removed from the first, which is left with a null
pointer and a stale offset, and one from the copy. -/
theorem run_exact_copy :
    let ops : List Op := [.take [0x61, 0x62] (by decide), .copyConstruct 0, .removePrefix 0 2,
      .removePrefix 0 1, .removePrefix 1 1]
    (∃ v, Exact (run ops).1 0 ⟨none, 2⟩ v ⟨[0x61, 0x62], 2⟩) ∧
    ∃ v, Exact (run ops).1 1 ⟨some 0, 1⟩ v ⟨[0x61, 0x62], 1⟩ := by
  intro ops
  constructor
  · obtain ⟨v, account, listed, holds⟩ := run_exact ops 0 ⟨none, 2⟩ (by decide +kernel)
    obtain rfl : ⟨[0x61, 0x62], 2⟩ = account := Option.some_inj.mp listed
    exact ⟨v, holds⟩
  · obtain ⟨v, account, listed, holds⟩ := run_exact ops 1 ⟨some 0, 1⟩ (by decide +kernel)
    obtain rfl : ⟨[0x61, 0x62], 1⟩ = account := Option.some_inj.mp listed
    exact ⟨v, holds⟩

end BufferStorage

end Sponge
