import Mathlib.Logic.Function.Basic
import Sponge.FileDescriptor
import Sponge.Lib.Runs

/-!
# Who closes a descriptor number

A `FileDescriptor` holds a `shared_ptr` to its `FDWrapper`; duplicates share the
wrapper, moves leave an empty pointer behind, and the wrapper's destructor runs
when the last pointer to it is gone. The kernel hands out numbers that are free,
so a number that was closed may come back under another wrapper. `Table` is the
state of all descriptors of a program together with the kernel's view of which
wrapper each open number was handed out for, and a record of every `close(2)`
call.

A wrapper calls `close(2)` each time its member function `close` is called, and
once more from its destructor unless a call has succeeded before. So the number
is closed once only as long as explicit calls of `close` find the wrapper open
and succeed (`Careful`).
-/

namespace Sponge

namespace FileDescriptor

/-- A call of `close(2)`: the wrapper that issued it and the one its number then
belonged to. -/
structure CloseCall where
  issuer : Nat
  owner : Option Nat
  deriving DecidableEq, Repr

/-- The kernel's answer to `close(2)`. A failing call may release the number all
the same. -/
structure CloseAnswer where
  call : SysResult
  releasedAnyway : Bool

def CloseAnswer.released (k : CloseAnswer) : Bool :=
  0 ≤ k.call.returnValue || k.releasedAnyway

/-- All wrappers and all handles constructed so far, in order. A handle that was
moved from or destroyed points to no wrapper. -/
structure Table where
  wrappers : List FDWrapper
  handles : List (Option Nat)
  owner : Nat → Option Nat
  closes : List CloseCall

namespace Table

def empty : Table := ⟨[], [], fun _ => none, []⟩

/-- The wrapper's member function `close`. -/
def closeWrapper (t : Table) (id : Nat) (k : CloseAnswer) : Table × Except Exn Unit :=
  match t.wrappers[id]? with
  | none => (t, .ok ())
  | some w =>
      ({ t with
          wrappers := t.wrappers.set id (w.close k.call).1
          owner := if k.released then Function.update t.owner w.fd none else t.owner
          closes := t.closes ++ [⟨id, t.owner w.fd⟩] },
        (w.close k.call).2)

/-- The wrapper's destructor. It catches the exception of `close`. -/
def destructWrapper (t : Table) (id : Nat) (k : CloseAnswer) : Table :=
  match t.wrappers[id]? with
  | none => t
  | some w => if w.closed then t else (t.closeWrapper id k).1

/-- Drop a pointer that a handle held; the last one takes the wrapper with it. -/
def drop (t : Table) (pointer : Option Nat) (k : CloseAnswer) : Table :=
  match pointer with
  | none => t
  | some id => if some id ∈ t.handles then t else t.destructWrapper id k

/-- Give a handle another pointer and drop the one it held. -/
def assign (t : Table) (h : Nat) (pointer : Option Nat) (k : CloseAnswer) : Table :=
  match t.handles[h]? with
  | none => t
  | some old => Table.drop { t with handles := t.handles.set h pointer } old k

/-- The constructor from a number that the kernel has just handed out. -/
def construct (t : Table) (fd : Int) : Table × Except Exn Unit :=
  match FDWrapper.make fd with
  | .error e => (t, .error e)
  | .ok w =>
      ({ t with
          wrappers := t.wrappers ++ [w]
          handles := t.handles ++ [some t.wrappers.length]
          owner := Function.update t.owner w.fd (some t.wrappers.length) },
        .ok ())

end Table

/-- What a program does with descriptors. Each operation names the handle it
uses, and carries the kernel's answer to the `close(2)` call it may lead to. -/
inductive Op where
  | construct (fd : Int)
  | duplicate (h : Nat)
  | moveConstruct (h : Nat)
  | moveAssign (h source : Nat) (k : CloseAnswer)
  | close (h : Nat) (k : CloseAnswer)
  | destroy (h : Nat) (k : CloseAnswer)

namespace Table

/-- One operation. The kernel hands out only free numbers, and a handle without a
wrapper is not used. -/
def step (t : Table) : Op → Table × Except Exn Unit
  | .construct fd =>
      if fd < 0 ∨ t.owner fd.toNat = none then t.construct fd else (t, .ok ())
  | .duplicate h =>
      match t.handles[h]? with
      | some (some id) => ({ t with handles := t.handles ++ [some id] }, .ok ())
      | _ => (t, .ok ())
  | .moveConstruct h =>
      match t.handles[h]? with
      | some pointer => ({ t with handles := t.handles.set h none ++ [pointer] }, .ok ())
      | none => (t, .ok ())
  | .moveAssign h source k =>
      match t.handles[source]? with
      | some pointer =>
          if h = source then (t, .ok ())
          else (Table.assign { t with handles := t.handles.set source none } h pointer k, .ok ())
      | none => (t, .ok ())
  | .close h k =>
      match t.handles[h]? with
      | some (some id) => t.closeWrapper id k
      | _ => (t, .ok ())
  | .destroy h k => (t.assign h none k, .ok ())

/-- The state after a sequence of operations. -/
def run (ops : List Op) : Table := (Runs.run step empty ops).1

/-- The number of `close(2)` calls that a wrapper has issued. -/
def closeCount (t : Table) (id : Nat) : Nat := t.closes.countP fun c => c.issuer = id

/-- Each wrapper has issued at most one `close(2)` call, and none on a number that
belonged to another wrapper. -/
def ClosedOnce (t : Table) : Prop :=
  (∀ id, t.closeCount id ≤ 1) ∧ ∀ c ∈ t.closes, ∀ other, c.owner = some other → other = c.issuer

/-- The condition on one operation: an explicit `close` finds its wrapper open,
and the system call that it makes succeeds. -/
def Careful (t : Table) : Op → Prop
  | .close h k => ∀ id w, t.handles[h]? = some (some id) → t.wrappers[id]? = some w →
      w.closed = false ∧ ∃ v, systemCall "close" k.call = .ok v
  | _ => True

/-! ## The invariant -/

/-- A wrapper that some handle points to: unless it is marked closed, it has not
issued a call yet, and its number is still its own. -/
def Held (t : Table) (id : Nat) : Prop :=
  ∃ w, t.wrappers[id]? = some w ∧
    (w.closed = false → t.owner w.fd = some id ∧ t.closeCount id = 0)

structure Owned (t : Table) : Prop where
  held : ∀ id, some id ∈ t.handles → t.Held id
  once : t.ClosedOnce
  known : ∀ c ∈ t.closes, c.issuer < t.wrappers.length

theorem owned_empty : Owned empty where
  held := by simp [empty]
  once := ⟨by simp [empty, closeCount], by simp [empty]⟩
  known := by simp [empty]

variable {t : Table} {k : CloseAnswer} {id : Nat}

/-- Only what the handles point to matters, not how many there are. -/
theorem Owned.withHandles {hs : List (Option Nat)} (owned : Owned t)
    (held : ∀ id, some id ∈ hs → t.Held id) : Owned { t with handles := hs } :=
  ⟨held, owned.once, owned.known⟩

theorem closeCount_append (closes : List CloseCall) (c : CloseCall) (w : List FDWrapper)
    (hs : List (Option Nat)) (own own' : Nat → Option Nat) (id : Nat) :
    Table.closeCount ⟨w, hs, own, closes ++ [c]⟩ id =
      Table.closeCount ⟨w, hs, own', closes⟩ id + if c.issuer = id then 1 else 0 := by
  unfold closeCount
  rw [List.countP_append, List.countP_singleton]
  simp

/-- A call of a wrapper on its own number leaves the other wrappers alone. -/
theorem Held.closeWrapper {w : FDWrapper} {other : Nat} (held : t.Held other)
    (here : t.wrappers[id]? = some w) (mine : t.owner w.fd = some id) (different : id ≠ other) :
    (t.closeWrapper id k).1.Held other := by
  obtain ⟨v, there, open_⟩ := held
  rw [Table.closeWrapper, here]
  refine ⟨v, by rw [List.getElem?_set_ne different]; exact there, fun notClosed => ?_⟩
  obtain ⟨own, none⟩ := open_ notClosed
  have apart : v.fd ≠ w.fd := by
    intro shared
    rw [shared, mine] at own
    exact different (Option.some.inj own)
  refine ⟨?_, ?_⟩
  · show (if k.released then Function.update t.owner w.fd Option.none else t.owner) v.fd =
      some other
    split
    · rw [Function.update_of_ne apart]
      exact own
    · exact own
  · rw [closeCount_append _ _ _ _ _ t.owner, if_neg different]
    exact none

/-- The first call of a wrapper on its own number keeps the invariant, if the
wrapper is marked closed by it or has no handle left. -/
theorem Owned.closeWrapper {w : FDWrapper} (owned : Owned t) (here : t.wrappers[id]? = some w)
    (mine : t.owner w.fd = some id) (first : t.closeCount id = 0)
    (settled : some id ∈ t.handles → (w.close k.call).1.closed = true) :
    Owned (t.closeWrapper id k).1 := by
  obtain ⟨bound, -⟩ := List.getElem?_eq_some_iff.mp here
  have others : ∀ other, id ≠ other → t.Held other → (t.closeWrapper id k).1.Held other :=
    fun other different held => held.closeWrapper here mine different
  rw [Table.closeWrapper, here] at others ⊢
  refine ⟨fun other member => ?_, ⟨fun other => ?_, ?_⟩, ?_⟩
  · by_cases same : id = other
    · subst same
      refine ⟨_, List.getElem?_set_self bound, fun notClosed => ?_⟩
      rw [settled member] at notClosed
      cases notClosed
    · exact others other same (owned.held other member)
  · rw [closeCount_append _ _ _ _ _ t.owner]
    by_cases same : id = other
    · subst same
      rw [if_pos rfl]
      exact Nat.le_of_eq (congrArg (· + 1) first)
    · rw [if_neg same]
      exact owned.once.1 other
  · intro c member other its
    rcases List.mem_append.mp member with earlier | last
    · exact owned.once.2 c earlier other its
    · obtain rfl := List.mem_singleton.mp last
      rw [show t.owner _ = _ from mine] at its
      exact (Option.some.inj its).symm
  · intro c member
    rw [List.length_set]
    rcases List.mem_append.mp member with earlier | last
    · exact owned.known c earlier
    · obtain rfl := List.mem_singleton.mp last
      exact bound

/-- What the handles point to when one of them has been moved from. -/
theorem Owned.held_of_cleared (owned : Owned t) {h : Nat}
    (member : some id ∈ t.handles.set h none) : t.Held id := by
  rcases List.mem_or_eq_of_mem_set member with kept | cleared
  · exact owned.held id kept
  · cases cleared

/-- Assigning a pointer to a handle keeps the invariant, whether or not the
wrapper it held is destroyed, and whatever the kernel then answers. -/
theorem Owned.assign {pointer : Option Nat} (owned : Owned t)
    (new : ∀ id, pointer = some id → t.Held id) (h : Nat) : Owned (t.assign h pointer k) := by
  unfold Table.assign
  split
  · exact owned
  · next old held =>
    have owned' : Owned { t with handles := t.handles.set h pointer } := by
      apply owned.withHandles
      intro id member
      rcases List.mem_or_eq_of_mem_set member with kept | assigned
      · exact owned.held id kept
      · exact new id assigned.symm
    cases old with
    | none => exact owned'
    | some id =>
        unfold Table.drop
        dsimp only
        split
        · exact owned'
        · next gone =>
          obtain ⟨w, here, open_⟩ := owned.held id (List.mem_of_getElem? held)
          unfold destructWrapper
          dsimp only
          rw [here]
          dsimp only
          split
          · exact owned'
          · next notClosed =>
            obtain ⟨mine, first⟩ := open_ (Bool.not_eq_true _ ▸ notClosed)
            exact owned'.closeWrapper here mine first fun member => absurd member gone

/-- A new wrapper gets a number that no other wrapper can believe to be its own. -/
theorem Owned.construct {fd : Int} (owned : Owned t)
    (new : fd < 0 ∨ t.owner fd.toNat = none) : Owned (t.construct fd).1 := by
  unfold Table.construct FDWrapper.make
  by_cases negative : fd < 0
  · rw [if_pos negative]
    exact owned
  have free := new.resolve_left negative
  rw [if_neg negative]
  refine ⟨fun id member => ?_, owned.once, fun c member => ?_⟩
  · rcases List.mem_append.mp member with old | new
    · obtain ⟨w, here, open_⟩ := owned.held id old
      obtain ⟨bound, -⟩ := List.getElem?_eq_some_iff.mp here
      refine ⟨w, by rw [List.getElem?_append_left bound]; exact here, fun notClosed => ?_⟩
      obtain ⟨mine, none⟩ := open_ notClosed
      refine ⟨?_, none⟩
      have apart : w.fd ≠ fd.toNat := by
        intro shared
        rw [shared, free] at mine
        cases mine
      exact (Function.update_of_ne apart _ _).trans mine
    · obtain rfl : id = t.wrappers.length := Option.some.inj (List.mem_singleton.mp new)
      refine ⟨_, List.getElem?_concat_length, fun _ => ⟨Function.update_self _ _ _, ?_⟩⟩
      apply List.countP_eq_zero.mpr
      intro c member
      have earlier := owned.known c member
      simp only [decide_eq_true_eq]
      omega
  · rw [List.length_append]
    exact Nat.lt_add_right _ (owned.known c member)

/-- Every careful operation keeps the invariant. -/
theorem step_owned (t : Table) (op : Op) (owned : Owned t) (careful : Careful t op) :
    Owned (t.step op).1 := by
  cases op with
  | construct fd =>
      unfold step
      dsimp only
      split
      · next new => exact owned.construct new
      · exact owned
  | duplicate h =>
      unfold step
      dsimp only
      split
      · next id held =>
        apply owned.withHandles
        intro other member
        rcases List.mem_append.mp member with old | new
        · exact owned.held other old
        · obtain rfl : other = id := Option.some.inj (List.mem_singleton.mp new)
          exact owned.held other (List.mem_of_getElem? held)
      · exact owned
  | moveConstruct h =>
      unfold step
      dsimp only
      split
      · next pointer held =>
        apply owned.withHandles
        intro other member
        rcases List.mem_append.mp member with old | new
        · exact owned.held_of_cleared old
        · rw [← List.mem_singleton.mp new] at held
          exact owned.held other (List.mem_of_getElem? held)
      · exact owned
  | moveAssign h source k =>
      unfold step
      dsimp only
      split
      · next pointer held =>
        split
        · exact owned
        · have cleared : Owned { t with handles := t.handles.set source none } :=
            owned.withHandles fun id member => owned.held_of_cleared member
          apply cleared.assign
          intro id its
          rw [its] at held
          exact owned.held id (List.mem_of_getElem? held)
      · exact owned
  | close h k =>
      unfold step
      dsimp only
      split
      · next id held =>
        obtain ⟨w, here, open_⟩ := owned.held id (List.mem_of_getElem? held)
        obtain ⟨notClosed, v, success⟩ := careful id w held here
        obtain ⟨mine, first⟩ := open_ notClosed
        apply owned.closeWrapper here mine first
        intro _
        unfold FDWrapper.close
        rw [success]
      · exact owned
  | destroy h k => exact owned.assign (fun id its => by cases its) h

/-- **A number is closed at most once by its owner**, in every state that careful
operations lead to: each wrapper has issued at most one `close(2)` call, counting
explicit ones and its destructor's, and none on a number that the kernel had
meanwhile handed out for another wrapper. -/
theorem closedOnce_of_careful {ops : List Op} (careful : Runs.Along step Careful empty ops) :
    ∀ before, before <+: ops → (run before).ClosedOnce := by
  rintro before ⟨after, rfl⟩
  exact (Runs.run_invariant step_owned owned_empty careful.of_append).once

/-- The kernel's answer to a successful `close(2)`. -/
def closeOk : CloseAnswer := ⟨⟨0, 0⟩, false⟩

/-- A number is closed through one duplicate, reused, and both wrappers are
destroyed: two calls in all, each by the owner. -/
theorem closedOnce_of_careful_reuse :
    (run [.construct 3, .duplicate 0, .close 1 closeOk, .construct 3, .destroy 0 closeOk,
      .destroy 1 closeOk, .destroy 2 closeOk]).closes = [⟨0, some 0⟩, ⟨1, some 1⟩] ∧
    (run [.construct 3, .duplicate 0, .close 1 closeOk, .construct 3, .destroy 0 closeOk,
      .destroy 1 closeOk, .destroy 2 closeOk]).ClosedOnce := by
  refine ⟨by decide, closedOnce_of_careful ?_ _ List.prefix_rfl⟩
  refine ⟨trivial, trivial, ?_, trivial, trivial, trivial, trivial, trivial⟩
  rintro id w ⟨⟩ ⟨⟩
  exact ⟨rfl, 0, rfl⟩

/-- `close` called a second time, after the kernel has reused the number, closes
it under its new owner. -/
theorem close_twice_not_closedOnce :
    ¬ (run [.construct 3, .close 0 closeOk, .construct 3, .close 0 closeOk]).ClosedOnce := by
  intro once
  have twice : (run [.construct 3, .close 0 closeOk, .construct 3, .close 0 closeOk]).closes =
      [⟨0, some 0⟩, ⟨0, some 1⟩] := by decide
  have foreign := once.2 ⟨0, some 1⟩ (by rw [twice]; decide) 1 rfl
  cases foreign

end Table

end FileDescriptor

end Sponge
