import Mathlib.Data.List.TakeWhile
import Sponge.FileDescriptorOwnership
import Sponge.Socket

/-!
# Setting up descriptors

The constructors that get a number from the kernel and then configure or check what
is behind it: those of `Socket` and its subclasses, `accept`, and `TunTapFD`. Each
step after the first may throw; the base class is then destroyed, and with it the
number, if no duplicate is left. So whatever fails, every number that the kernel
holds open still belongs to a handle, or `close(2)` was refused for it.
-/

namespace Sponge

namespace FileDescriptor

/-! ## The request for a device -/

/-- The members of an `ifreq` that are set. -/
structure Ifreq where
  name : Bytes
  flags : BitVec 16
  deriving DecidableEq

/-- The constant `IFNAMSIZ`. -/
abbrev ifNameSize : Nat := 16

abbrev iffTun : BitVec 16 := 0x0001
abbrev iffTap : BitVec 16 := 0x0002
abbrev iffNoPi : BitVec 16 := 0x1000

/-- A string up to the first zero. -/
def cString (s : Bytes) : Bytes := s.takeWhile (· ≠ 0)

/-- The function `strncpy`, which fills what is left with zeros. -/
def strncpy (dest src : Bytes) (n : Nat) : Bytes := (cString src).takeD n 0 ++ dest.drop n

/-- The request that the constructor of `TunTapFD` passes to `ioctl`. -/
def tunReq (devname : Bytes) (isTun : Bool) : Ifreq where
  name := (strncpy (List.replicate ifNameSize 0) devname (ifNameSize - 1)).set (ifNameSize - 1) 0
  flags := (if isTun then iffTun else iffTap) ||| iffNoPi

theorem takeWhile_takeD (s : Bytes) (rest : Bytes) (n : Nat) (nonzero : ∀ b ∈ s, b ≠ 0) :
    cString (s.takeD n 0 ++ 0 :: rest) = s.take n := by
  induction n generalizing s with
  | zero => simp [cString]
  | succ n ih =>
      cases s with
      | nil => simp [cString]
      | cons b s =>
          have here : b ≠ 0 := nonzero b (List.mem_cons_self ..)
          have later := ih s fun b member => nonzero b (List.mem_cons_of_mem _ member)
          unfold cString at later ⊢
          simpa [here] using later

/-- The kernel finds the name of the device, but no more than 15 bytes of it. -/
theorem cString_tunReq (devname : Bytes) (isTun : Bool) :
    cString (tunReq devname isTun).name = (cString devname).take (ifNameSize - 1) := by
  have nonzero : ∀ b ∈ cString devname, b ≠ 0 := by
    intro b member
    simpa using List.mem_takeWhile_imp member
  have last : (tunReq devname isTun).name = (cString devname).takeD (ifNameSize - 1) 0 ++ [0] := by
    show ((cString devname).takeD 15 0 ++ [0]).set 15 0 = _
    rw [List.set_append_right _ _ (by rw [List.takeD_length]), List.takeD_length]
    rfl
  rw [last]
  exact takeWhile_takeD _ _ _ nonzero

/-! ## Constructors -/

/-- Both checks of the constructor of `Socket` from a descriptor. -/
def verifySocket (domain type : Int) (domainAnswer typeAnswer : Socket.SockOpt) :
    Except Exn Unit := do
  Socket.verify "socket domain mismatch" domain domainAnswer
  Socket.verify "socket type mismatch" type typeAnswer

theorem ofFileDescriptor_eq (w : FDWrapper) (domain type : Int)
    (domainAnswer typeAnswer : Socket.SockOpt) :
    Socket.ofFileDescriptor w domain type domainAnswer typeAnswer =
      (verifySocket domain type domainAnswer typeAnswer).map fun _ => w := by
  unfold Socket.ofFileDescriptor verifySocket
  cases Socket.verify "socket domain mismatch" domain domainAnswer with
  | error e => rfl
  | ok _ =>
      cases Socket.verify "socket type mismatch" type typeAnswer with
      | error e => rfl
      | ok _ => rfl

/-- What a program does to get descriptors, besides the operations on those it has.
Each carries the kernel's answers, also to the `close(2)` call that a failure may
lead to. -/
inductive Setup where
  | op (op : Op)
  | socket (call : SysResult)
  | adopt (h : Nat) (domain type : Int) (domainAnswer typeAnswer : Socket.SockOpt)
      (k : CloseAnswer)
  | accept (h : Nat) (call : SysResult) (domainAnswer typeAnswer : Socket.SockOpt)
      (k : CloseAnswer)
  | tunTap (devname : Bytes) (isTun : Bool) (call : SysResult) (ioctl : Ifreq → SysResult)
      (k : CloseAnswer)

namespace Table

def registerRead (t : Table) (id : Nat) : Table :=
  { t with wrappers := t.wrappers.modify id FDWrapper.registerRead }

@[simp] theorem registerRead_handles (t : Table) (id : Nat) :
    (t.registerRead id).handles = t.handles := rfl

@[simp] theorem length_registerRead (t : Table) (id : Nat) :
    (t.registerRead id).wrappers.length = t.wrappers.length := List.length_modify ..

/-- The constructor of the base class from the result of a system call, and then the
body of the derived one. -/
def newDescriptor (t : Table) (attempt : String) (call : SysResult)
    (body : Table → Table × Except Exn Unit) : Table × Except Exn Unit :=
  match systemCall attempt call with
  | .error e => (t, .error e)
  | .ok fd =>
      match (t.construct fd).2 with
      | .error e => (t, .error e)
      | .ok () => body (t.construct fd).1

/-- The end of a constructor that has made the handle at `h`: an exception destroys it. -/
def finish (t : Table) (h : Nat) (result : Except Exn Unit) (k : CloseAnswer) :
    Table × Except Exn Unit :=
  match result with
  | .error e => ((t.step (.destroy h k)).1, .error e)
  | .ok () => (t, .ok ())

/-- The constructor of `Socket` from a descriptor that is moved into it. -/
def adopt (t : Table) (h : Nat) (verified : Except Exn Unit) (k : CloseAnswer) :
    Table × Except Exn Unit :=
  match t.handles[h]? with
  | some (some _) => (t.step (.moveConstruct h)).1.finish t.handles.length verified k
  | _ => (t, .ok ())

/-- The member function `accept` of `TCPSocket`. The descriptor that the new socket is
made from is a temporary, which is destroyed in any case. -/
def accept (t : Table) (h : Nat) (call : SysResult) (verified : Except Exn Unit)
    (k : CloseAnswer) : Table × Except Exn Unit :=
  match t.handles[h]? with
  | some (some id) =>
      (t.registerRead id).newDescriptor "accept" call fun u =>
        let adopted := u.adopt t.handles.length verified k
        ((adopted.1.step (.destroy t.handles.length k)).1, adopted.2)
  | _ => (t, .ok ())

/-- The constructor of `TunTapFD`. -/
def tunTap (t : Table) (devname : Bytes) (isTun : Bool) (call : SysResult)
    (ioctl : Ifreq → SysResult) (k : CloseAnswer) : Table × Except Exn Unit :=
  t.newDescriptor "open" call fun u =>
    u.finish t.handles.length ((systemCall "ioctl" (ioctl (tunReq devname isTun))).map fun _ => ())
      k

def setUp (t : Table) : Setup → Table × Except Exn Unit
  | .op op => t.step op
  | .socket call => t.newDescriptor "socket" call fun u => (u, .ok ())
  | .adopt h domain type domainAnswer typeAnswer k =>
      t.adopt h (verifySocket domain type domainAnswer typeAnswer) k
  | .accept h call domainAnswer typeAnswer k =>
      t.accept h call
        (verifySocket Socket.afInet Socket.sockStream domainAnswer typeAnswer) k
  | .tunTap devname isTun call ioctl k => t.tunTap devname isTun call ioctl k

/-! ## What the kernel may do -/

/-- The contract of `close(2)`. -/
def ProperClose (k : CloseAnswer) : Prop :=
  k.call.returnValue = 0 ∨ (k.call.returnValue = -1 ∧ k.call.errno ≠ 0)

/-- A number that is handed out was free. -/
def Fresh (t : Table) (call : SysResult) : Prop :=
  0 ≤ toInt call.returnValue → t.owner (toInt call.returnValue).toNat = none

/-- The condition on an operation: the kernel answers properly, and a handle that is
assigned to exists. -/
def Proper (t : Table) : Op → Prop
  | .moveAssign h _ k => h < t.handles.length ∧ ProperClose k
  | .close _ k => ProperClose k
  | .destroy _ k => ProperClose k
  | _ => True

def Permitted (t : Table) : Setup → Prop
  | .op op => Proper t op
  | .socket call => Fresh t call
  | .adopt _ _ _ _ _ k => ProperClose k
  | .accept _ call _ _ k => Fresh t call ∧ ProperClose k
  | .tunTap _ _ call _ k => Fresh t call ∧ ProperClose k

/-! ## Every open number has a handle -/

/-- `close(2)` was called for a number by the wrapper it belonged to. -/
def Refused (t : Table) (id : Nat) : Prop := ∃ c ∈ t.closes, c.issuer = id ∧ c.owner = some id

/-- A number that is open belongs to a wrapper that has this number and is not closed. -/
def Numbered (t : Table) : Prop :=
  ∀ n id, t.owner n = some id → ∃ w, t.wrappers[id]? = some w ∧ w.fd = n ∧ w.closed = false

/-- A handle points to each wrapper that owns a number, unless `close(2)` was called for
it in vain. -/
structure Accounted (t : Table) : Prop where
  numbered : t.Numbered
  kept : ∀ n id, t.owner n = some id → some id ∈ t.handles ∨ t.Refused id
  pointed : ∀ id, some id ∈ t.handles → id < t.wrappers.length

theorem accounted_empty : Accounted empty := ⟨nofun, nofun, nofun⟩

variable {t : Table} {k : CloseAnswer} {id h : Nat}

theorem close_closed {w : FDWrapper} (proper : ProperClose k) (open_ : w.closed = false) :
    (w.close k.call).1.closed = true → k.released = true := by
  intro closed
  rcases proper with success | ⟨failed, error⟩
  · simp [CloseAnswer.released, success]
  · rw [FDWrapper.close, systemCall_of_failed _ failed error, open_] at closed
    cases closed

/-- If a wrapper calls `close(2)`, its number is given back or the call is on record; it
does not matter whether the wrapper still has a handle. -/
theorem accounted_closeWrapper (numbered : t.Numbered) (proper : ProperClose k)
    (pointed : ∀ id, some id ∈ t.handles → id < t.wrappers.length)
    (others : ∀ n other, t.owner n = some other → other ≠ id →
      some other ∈ t.handles ∨ t.Refused other) :
    Accounted (t.closeWrapper id k).1 := by
  cases here : t.wrappers[id]? with
  | none =>
      rw [Table.closeWrapper, here]
      refine ⟨numbered, fun n other its => others n other its ?_, pointed⟩
      rintro rfl
      obtain ⟨w, there, -⟩ := numbered n other its
      rw [here] at there
      cases there
  | some w =>
      obtain ⟨bound, -⟩ := List.getElem?_eq_some_iff.mp here
      rw [Table.closeWrapper, here]
      -- a number that is still owned was owned before, and is another one or was not released
      have before : ∀ n other, (if k.released then Function.update t.owner w.fd none else t.owner)
          n = some other → t.owner n = some other ∧ (n = w.fd → k.released = false) := by
        intro n other its
        split at its
        · by_cases same : n = w.fd
          · rw [same, Function.update_self] at its
            cases its
          · rw [Function.update_of_ne same] at its
            exact ⟨its, fun wrong => absurd wrong same⟩
        · next refused => exact ⟨its, fun _ => by simpa using refused⟩
      refine ⟨fun n other its => ?_, fun n other its => ?_,
        fun id member => by rw [List.length_set]; exact pointed id member⟩
      · obtain ⟨was, refused⟩ := before n other its
        obtain ⟨v, there, number, open_⟩ := numbered n other was
        by_cases same : id = other
        · subst same
          obtain rfl : w = v := Option.some.inj (here.symm.trans there)
          refine ⟨_, List.getElem?_set_self bound, ?_, ?_⟩
          · unfold FDWrapper.close
            split
            · exact number
            · exact number
          · by_contra closed
            have released := close_closed proper open_ (by simpa using closed)
            rw [refused number.symm] at released
            cases released
        · exact ⟨v, by rw [List.getElem?_set_ne same]; exact there, number, open_⟩
      · obtain ⟨was, -⟩ := before n other its
        by_cases same : other = id
        · subst same
          obtain ⟨v, there, number, -⟩ := numbered n other was
          obtain rfl : w = v := Option.some.inj (here.symm.trans there)
          refine .inr ⟨⟨other, t.owner w.fd⟩, List.mem_append_right _ (List.mem_singleton_self _),
            rfl, ?_⟩
          rw [number]
          exact was
        · rcases others n other was same with held | ⟨c, member, facts⟩
          · exact .inl held
          · exact .inr ⟨c, List.mem_append_left _ member, facts⟩

theorem accounted_destructWrapper (numbered : t.Numbered) (proper : ProperClose k)
    (pointed : ∀ id, some id ∈ t.handles → id < t.wrappers.length)
    (others : ∀ n other, t.owner n = some other → other ≠ id →
      some other ∈ t.handles ∨ t.Refused other) :
    Accounted (t.destructWrapper id k) := by
  unfold destructWrapper
  split
  · next absent =>
    refine ⟨numbered, fun n other its => others n other its ?_, pointed⟩
    rintro rfl
    obtain ⟨w, there, -⟩ := numbered n other its
    rw [absent] at there
    cases there
  · next w here =>
    split
    · next closed =>
      refine ⟨numbered, fun n other its => others n other its ?_, pointed⟩
      rintro rfl
      obtain ⟨v, there, -, open_⟩ := numbered n other its
      obtain rfl : w = v := Option.some.inj (here.symm.trans there)
      rw [closed] at open_
      cases open_
    · exact accounted_closeWrapper numbered proper pointed others

/-- What a list holds besides the element that is replaced. -/
theorem mem_set_of_ne {xs : List (Option Nat)} {x old new : Option Nat} (member : x ∈ xs)
    (here : xs[h]? = some old) (different : x ≠ old) : x ∈ xs.set h new := by
  obtain ⟨j, there⟩ := List.mem_iff_getElem?.mp member
  have apart : h ≠ j := by
    rintro rfl
    exact different (Option.some.inj (there.symm.trans here))
  exact List.mem_of_getElem? ((List.getElem?_set_ne apart).trans there)

/-- Assigning a pointer to a handle takes care of what the handle pointed to. -/
theorem accounted_assign {pointer : Option Nat} (numbered : t.Numbered) (proper : ProperClose k)
    (bound : h < t.handles.length)
    (pointed : ∀ id, some id ∈ t.handles ∨ some id = pointer → id < t.wrappers.length)
    (kept : ∀ n id, t.owner n = some id →
      some id ∈ t.handles ∨ some id = pointer ∨ t.Refused id) :
    Accounted (t.assign h pointer k) := by
  obtain ⟨old, held⟩ : ∃ old, t.handles[h]? = some old :=
    ⟨_, List.getElem?_eq_getElem bound⟩
  have others : ∀ n id, t.owner n = some id → some id ≠ old →
      some id ∈ t.handles.set h pointer ∨ t.Refused id := by
    intro n id its different
    rcases kept n id its with member | assigned | refused
    · exact .inl (mem_set_of_ne member held different)
    · exact .inl (assigned ▸ List.mem_set bound _)
    · exact .inr refused
  have known : ∀ id, some id ∈ t.handles.set h pointer → id < t.wrappers.length :=
    fun id member => pointed id (List.mem_or_eq_of_mem_set member)
  rw [Table.assign, held]
  cases old with
  | none => exact ⟨numbered, fun n id its => others n id its nofun, known⟩
  | some id =>
      unfold Table.drop
      dsimp only
      split
      · next shared =>
        refine ⟨numbered, fun n other its => ?_, known⟩
        by_cases same : other = id
        · subst same
          exact .inl shared
        · exact others n other its (by simpa using same)
      · exact accounted_destructWrapper numbered proper known fun n other its different =>
          others n other its (by simpa using different)

/-- A new wrapper gets a number that was free. -/
theorem accounted_construct {fd : Int} (accounted : Accounted t) :
    Accounted (t.construct fd).1 := by
  unfold Table.construct FDWrapper.make
  by_cases negative : fd < 0
  · rw [if_pos negative]
    exact accounted
  rw [if_neg negative]
  refine ⟨fun n id its => ?_, fun n id its => ?_, fun id member => ?_⟩
  · by_cases same : n = fd.toNat
    · subst same
      obtain rfl : t.wrappers.length = id := by simpa using its
      exact ⟨_, List.getElem?_concat_length, rfl, rfl⟩
    · simp only [Function.update_of_ne same] at its
      obtain ⟨w, there, number, open_⟩ := accounted.numbered n id its
      obtain ⟨bound, -⟩ := List.getElem?_eq_some_iff.mp there
      exact ⟨w, by rw [List.getElem?_append_left bound]; exact there, number, open_⟩
  · by_cases same : n = fd.toNat
    · subst same
      obtain rfl : t.wrappers.length = id := by simpa using its
      exact .inl (List.mem_append_right _ (List.mem_singleton_self _))
    · simp only [Function.update_of_ne same] at its
      rcases accounted.kept n id its with member | refused
      · exact .inl (List.mem_append_left _ member)
      · exact .inr refused
  · rw [List.length_append, List.length_singleton]
    rcases List.mem_append.mp member with old | new
    · exact Nat.lt_add_right _ (accounted.pointed id old)
    · obtain rfl : id = t.wrappers.length := Option.some.inj (List.mem_singleton.mp new)
      exact Nat.lt_succ_self _

/-- Only a counter changes. -/
theorem registerRead_wrapper (id : Nat) {other : Nat} {w : FDWrapper}
    (there : t.wrappers[other]? = some w) :
    ∃ w', (t.registerRead id).wrappers[other]? = some w' ∧ w'.fd = w.fd ∧ w'.closed = w.closed := by
  by_cases same : id = other
  · subst same
    exact ⟨w.registerRead, by simp [registerRead, there], rfl, rfl⟩
  · exact ⟨w, by simp [registerRead, there, same], rfl, rfl⟩

theorem accounted_registerRead (id : Nat) (accounted : Accounted t) :
    Accounted (t.registerRead id) := by
  refine ⟨fun n other its => ?_, accounted.kept, fun other member => ?_⟩
  · obtain ⟨w, there, number, open_⟩ := accounted.numbered n other its
    obtain ⟨w', here, fd, closed⟩ := registerRead_wrapper id there
    exact ⟨w', here, fd.trans number, closed.trans open_⟩
  · rw [length_registerRead]
    exact accounted.pointed other member

/-- No operation on a descriptor loses a number. -/
theorem accounted_step (t : Table) (op : Op) (accounted : Accounted t) (proper : Proper t op) :
    Accounted (t.step op).1 := by
  obtain ⟨numbered, kept, pointed⟩ := accounted
  cases op with
  | construct fd =>
      unfold step
      dsimp only
      split
      · exact accounted_construct ⟨numbered, kept, pointed⟩
      · exact ⟨numbered, kept, pointed⟩
  | duplicate h =>
      unfold step
      dsimp only
      split
      · next id held =>
        refine ⟨numbered, fun n other its => ?_, fun other member => ?_⟩
        · exact (kept n other its).imp_left (List.mem_append_left _)
        · rcases List.mem_append.mp member with old | new
          · exact pointed other old
          · rw [← List.mem_singleton.mp new] at held
            exact pointed other (List.mem_of_getElem? held)
      · exact ⟨numbered, kept, pointed⟩
  | moveConstruct h =>
      unfold step
      dsimp only
      split
      · next pointer held =>
        refine ⟨numbered, fun n other its => (kept n other its).imp_left fun member => ?_,
          fun other member => ?_⟩
        · by_cases moved : some other = pointer
          · exact List.mem_append_right _ (List.mem_singleton.mpr moved)
          · exact List.mem_append_left _ (mem_set_of_ne member held moved)
        · rcases List.mem_append.mp member with old | new
          · rcases List.mem_or_eq_of_mem_set old with before | cleared
            · exact pointed other before
            · cases cleared
          · rw [← List.mem_singleton.mp new] at held
            exact pointed other (List.mem_of_getElem? held)
      · exact ⟨numbered, kept, pointed⟩
  | moveAssign h source k =>
      unfold step
      dsimp only
      split
      · next pointer held =>
        split
        · exact ⟨numbered, kept, pointed⟩
        · apply accounted_assign (t := { t with handles := t.handles.set source none })
            numbered proper.2
          · rw [List.length_set]
            exact proper.1
          · intro other member
            rcases member with old | moved
            · rcases List.mem_or_eq_of_mem_set old with before | cleared
              · exact pointed other before
              · cases cleared
            · rw [← moved] at held
              exact pointed other (List.mem_of_getElem? held)
          · intro n other its
            rcases kept n other its with member | refused
            · by_cases moved : some other = pointer
              · exact .inr (.inl moved)
              · exact .inl (mem_set_of_ne member held moved)
            · exact .inr (.inr refused)
      · exact ⟨numbered, kept, pointed⟩
  | close h k =>
      unfold step
      dsimp only
      split
      · exact accounted_closeWrapper numbered proper pointed fun n other its _ =>
          kept n other its
      · exact ⟨numbered, kept, pointed⟩
  | destroy h k =>
      unfold step
      dsimp only
      by_cases bound : h < t.handles.length
      · refine accounted_assign numbered proper bound (fun other member => ?_) fun n other its =>
          (kept n other its).imp_right .inr
        rcases member with old | none
        · exact pointed other old
        · cases none
      · rw [Table.assign, List.getElem?_eq_none (by omega)]
        exact ⟨numbered, kept, pointed⟩

/-! ## Constructors as sequences of operations -/

/-- What comes out of a system call is a number to construct a descriptor from. -/
theorem systemCall_ok {attempt : String} {call : SysResult} {v : Int}
    (passed : systemCall attempt call = .ok v) : v = toInt call.returnValue := by
  unfold systemCall at passed
  split at passed
  · exact (Except.ok.inj passed).symm
  · cases passed

theorem construct_of_nonneg {fd : Int} (number : 0 ≤ fd) :
    t.construct fd =
      (⟨t.wrappers ++ [⟨fd.toNat, false, false, 0, 0⟩], t.handles ++ [some t.wrappers.length],
        Function.update t.owner fd.toNat (some t.wrappers.length), t.closes⟩, .ok ()) := by
  rw [Table.construct, FDWrapper.make, if_neg (by omega)]

/-- Either nothing happens but an exception, or there is a new descriptor for the body of
the constructor. -/
theorem newDescriptor_cases (attempt : String) {call : SysResult} (fresh : Fresh t call)
    (body : Table → Table × Except Exn Unit) :
    (∃ e, t.newDescriptor attempt call body = (t, .error e)) ∨
      ∃ fd, 0 ≤ fd ∧ t.owner fd.toNat = none ∧
        t.newDescriptor attempt call body = body (t.construct fd).1 := by
  unfold newDescriptor
  cases passed : systemCall attempt call with
  | error e => exact .inl ⟨e, rfl⟩
  | ok fd =>
      have number := systemCall_ok passed
      dsimp only
      by_cases negative : fd < 0
      · left
        rw [Table.construct, FDWrapper.make, if_pos negative]
        exact ⟨_, rfl⟩
      · have low : 0 ≤ fd := by omega
        right
        refine ⟨fd, low, ?_, ?_⟩
        · rw [number] at low ⊢
          exact fresh low
        · rw [construct_of_nonneg low]

section Preservation

variable {inv : Table → Prop}

theorem newDescriptor_invariant {attempt : String} {call : SysResult}
    {body : Table → Table × Except Exn Unit} (fresh : Fresh t call) (initial : inv t)
    (made : ∀ fd, t.step (.construct fd) = t.construct fd → inv (body (t.construct fd).1).1) :
    inv (t.newDescriptor attempt call body).1 := by
  rcases newDescriptor_cases attempt fresh body with ⟨e, threw⟩ | ⟨fd, number, free, continued⟩
  · rw [threw]
    exact initial
  · rw [continued]
    exact made fd (if_pos (.inr free))

theorem finish_of_failed {result : Except Exn Unit} {e : Exn}
    (failed : (t.finish h result k).2 = .error e) :
    (t.finish h result k).1 = t.assign h none k := by
  cases result with
  | error e => rfl
  | ok _ => cases failed

theorem finish_invariant {result : Except Exn Unit} (initial : inv t)
    (destroyed : ∀ h, inv (t.step (.destroy h k)).1) : inv (t.finish h result k).1 := by
  unfold finish
  split
  · exact destroyed h
  · exact initial

/-- **Setup rule.** What the operations keep, the constructors keep: each is a sequence
of operations, of which none is an explicit `close`. -/
theorem setUp_invariant (guard : Table → Op → Prop) {s : Setup}
    (kept : ∀ t op, inv t → guard t op → inv (t.step op).1)
    (constructs : ∀ t fd, guard t (.construct fd))
    (moves : ∀ t h, guard t (.moveConstruct h))
    (destroys : ∀ t h k, ProperClose k → guard t (.destroy h k))
    (registered : ∀ t id, inv t → inv (t.registerRead id))
    (initial : inv t) (permitted : Permitted t s) (allowed : ∀ op, s = .op op → guard t op) :
    inv (t.setUp s).1 := by
  have made : ∀ {t : Table} {fd : Int}, inv t → t.step (.construct fd) = t.construct fd →
      inv (t.construct fd).1 := by
    intro t fd initial step
    rw [← step]
    exact kept t _ initial (constructs t fd)
  have adopted : ∀ {t : Table} {h : Nat} {verified : Except Exn Unit} {k : CloseAnswer},
      inv t → ProperClose k → inv (t.adopt h verified k).1 := by
    intro t h verified k initial proper
    unfold adopt
    split
    · have moved := kept t _ initial (moves t h)
      exact finish_invariant moved fun h => kept _ _ moved (destroys _ h k proper)
    · exact initial
  cases s with
  | op op => exact kept t op initial (allowed op rfl)
  | socket call =>
      exact newDescriptor_invariant permitted initial fun fd step => made initial step
  | adopt h domain type domainAnswer typeAnswer k => exact adopted initial permitted
  | accept h call domainAnswer typeAnswer k =>
      show inv (t.accept h call _ k).1
      unfold accept
      split
      · next id held =>
        have read := registered t id initial
        refine newDescriptor_invariant (t := t.registerRead id) permitted.1 read
          fun fd step => ?_
        exact kept _ _ (adopted (made read step) permitted.2) (destroys _ _ k permitted.2)
      · exact initial
  | tunTap devname isTun call ioctl k =>
      refine newDescriptor_invariant permitted.1 initial fun fd step => ?_
      have opened := made initial step
      exact finish_invariant opened fun h => kept _ _ opened (destroys _ h k permitted.2)

end Preservation

theorem accounted_setUp (t : Table) (s : Setup) (accounted : Accounted t)
    (permitted : Permitted t s) : Accounted (t.setUp s).1 := by
  refine setUp_invariant Proper accounted_step (fun _ _ => trivial)
    (fun _ _ => trivial) (fun _ _ _ proper => proper)
    (fun _ => accounted_registerRead) accounted permitted ?_
  rintro op rfl
  exact permitted

theorem owned_registerRead (t : Table) (id : Nat) (owned : Owned t) :
    Owned (t.registerRead id) := by
  refine ⟨fun other member => ?_, owned.once, fun c member => ?_⟩
  · obtain ⟨w, there, open_⟩ := owned.held other member
    obtain ⟨w', here, fd, closed⟩ := registerRead_wrapper id there
    refine ⟨w', here, fun notClosed => ?_⟩
    rw [fd]
    exact open_ (closed.symm.trans notClosed)
  · rw [length_registerRead]
    exact owned.known c member

/-- The explicit calls of `close` are made with care. -/
def CarefulSetup (t : Table) : Setup → Prop
  | .op op => Careful t op
  | _ => True

theorem owned_setUp (t : Table) (s : Setup) (owned : Owned t)
    (permitted : Permitted t s ∧ CarefulSetup t s) : Owned (t.setUp s).1 := by
  refine setUp_invariant Careful step_owned (fun _ _ => trivial) (fun _ _ => trivial)
    (fun _ _ _ _ => trivial) owned_registerRead owned permitted.1 ?_
  rintro op rfl
  exact permitted.2

/-! ## Failures -/

/-- A constructor has given back what it got: the handles are as before, but for some that
are empty; so are the numbers that are open, if the kernel lets go of what is
closed; and at most one number was closed, the new one by its own wrapper. -/
structure Undone (t u : Table) (k : CloseAnswer) : Prop where
  handles : ∃ m, u.handles = t.handles ++ List.replicate m none
  owner : k.released = true → u.owner = t.owner
  closes : u.closes = t.closes ∨
    u.closes = t.closes ++ [⟨t.wrappers.length, some t.wrappers.length⟩]

theorem Undone.refl (t : Table) (k : CloseAnswer) : Undone t t k :=
  ⟨⟨0, by simp⟩, fun _ => rfl, .inl rfl⟩

/-- The last handle of a new descriptor is destroyed. -/
theorem undone_assign {fd : Int} {hs : List (Option Nat)} {m : Nat}
    (pointed : ∀ id, some id ∈ t.handles → id < t.wrappers.length)
    (free : t.owner fd.toNat = none) (held : hs[h]? = some (some t.wrappers.length))
    (emptied : hs.set h none = t.handles ++ List.replicate m none) :
    Undone t (Table.assign ⟨t.wrappers ++ [⟨fd.toNat, false, false, 0, 0⟩], hs,
      Function.update t.owner fd.toNat (some t.wrappers.length), t.closes⟩ h none k) k := by
  have gone : some t.wrappers.length ∉ t.handles ++ List.replicate m none := by
    intro member
    rcases List.mem_append.mp member with old | new
    · exact Nat.lt_irrefl _ (pointed _ old)
    · cases List.eq_of_mem_replicate new
  have here : (t.wrappers ++ [(⟨fd.toNat, false, false, 0, 0⟩ : FDWrapper)])[t.wrappers.length]? =
      some ⟨fd.toNat, false, false, 0, 0⟩ := List.getElem?_concat_length
  simp only [Table.assign, held, emptied, Table.drop, if_neg gone, destructWrapper, here,
    Bool.false_eq_true, if_false, Table.closeWrapper, Function.update_self]
  refine ⟨⟨m, rfl⟩, fun released => ?_, .inr rfl⟩
  rw [released, if_pos rfl, Function.update_idem, ← free, Function.update_eq_self]

theorem undone_tunTap {devname : Bytes} {isTun : Bool} {call : SysResult}
    {ioctl : Ifreq → SysResult} {e : Exn} (accounted : Accounted t) (fresh : Fresh t call)
    (failed : (t.tunTap devname isTun call ioctl k).2 = .error e) :
    Undone t (t.tunTap devname isTun call ioctl k).1 k := by
  rcases newDescriptor_cases "open" fresh _ with ⟨_, threw⟩ | ⟨fd, number, free, continued⟩
  · rw [tunTap, threw]
    exact .refl t k
  · rw [tunTap, continued] at failed ⊢
    rw [finish_of_failed failed, construct_of_nonneg number]
    exact undone_assign (m := 1) accounted.pointed free List.getElem?_concat_length (by simp)

/-- To destroy an empty handle changes nothing. -/
theorem assign_none (held : t.handles[h]? = some none) : t.assign h none k = t := by
  have same : t.handles.set h none = t.handles := by
    obtain ⟨bound, value⟩ := List.getElem?_eq_some_iff.mp held
    rw [← value, List.set_getElem_self]
  rw [Table.assign, held]
  dsimp only [Table.drop]
  rw [same]

/-- Another handle that is empty makes no difference when a pointer is dropped. -/
theorem drop_append_none (t : Table) (pointer : Option Nat) (k : CloseAnswer) :
    Table.drop { t with handles := t.handles ++ [none] } pointer k =
      { t.drop pointer k with handles := (t.drop pointer k).handles ++ [none] } := by
  cases pointer with
  | none => rfl
  | some id =>
      have shared : some id ∈ t.handles ++ [none] ↔ some id ∈ t.handles := by simp
      simp only [Table.drop, shared]
      split
      · rfl
      · unfold destructWrapper Table.closeWrapper
        dsimp only
        cases t.wrappers[id]? with
        | none => rfl
        | some w =>
            dsimp only
            split
            · rfl
            · rfl

/-- If a socket cannot be made from a descriptor, the descriptor is destroyed. -/
theorem adopt_of_failed {verified : Except Exn Unit} {e : Exn}
    (failed : (t.adopt h verified k).2 = .error e) :
    (t.adopt h verified k).1 =
      { (t.assign h none k) with handles := (t.assign h none k).handles ++ [none] } := by
  unfold adopt at failed ⊢
  split at failed
  · next id held =>
    have moved : (t.step (.moveConstruct h)).1 =
        { t with handles := t.handles.set h none ++ [some id] } := by
      rw [step, held]
    have last : (t.handles.set h none ++ [some id])[t.handles.length]? = some (some id) := by
      rw [← List.length_set, List.getElem?_concat_length]
    have cleared : (t.handles.set h none ++ [some id]).set t.handles.length none =
        t.handles.set h none ++ [none] := by simp
    rw [finish_of_failed failed, moved]
    simp only [Table.assign, held, last, cleared]
    exact drop_append_none { t with handles := t.handles.set h none } (some id) k
  · cases failed

/-- The temporary of `accept` is empty when it is destroyed, so this is not what gives
the number back. -/
theorem undone_temporary {fd : Int} {verified : Except Exn Unit} {e : Exn}
    (accounted : Accounted t) (number : 0 ≤ fd) (free : t.owner fd.toNat = none)
    (failed : ((t.construct fd).1.adopt t.handles.length verified k).2 = .error e) :
    Undone t (((t.construct fd).1.adopt t.handles.length verified k).1.step
      (.destroy t.handles.length k)).1 k := by
  have undone : Undone t ((t.construct fd).1.assign t.handles.length none k) k := by
    rw [construct_of_nonneg number]
    exact undone_assign (m := 1) accounted.pointed free List.getElem?_concat_length (by simp)
  obtain ⟨m, handles⟩ := undone.handles
  have none_ : (t.handles ++ List.replicate m none ++ [none])[t.handles.length]? = some none := by
    cases m with
    | zero => simp
    | succ m => simp [List.replicate_succ]
  rw [adopt_of_failed failed, handles]
  show Undone t (Table.assign _ _ _ _) k
  rw [assign_none none_]
  exact ⟨⟨m + 1, by rw [List.replicate_succ', List.append_assoc]⟩, undone.owner, undone.closes⟩

theorem undone_accept {call : SysResult} {verified : Except Exn Unit} {e : Exn}
    (accounted : Accounted t) (fresh : Fresh t call)
    (failed : (t.accept h call verified k).2 = .error e) :
    Undone t (t.accept h call verified k).1 k := by
  unfold accept at failed ⊢
  split at failed
  · next id held =>
    -- the counter of the listening socket is no part of what is undone
    have unread : ∀ {u : Table}, Undone (t.registerRead id) u k → Undone t u k := by
      rintro u ⟨handles, owner, closes⟩
      rw [length_registerRead] at closes
      exact ⟨handles, owner, closes⟩
    have read := accounted_registerRead id accounted
    apply unread
    rcases newDescriptor_cases (t := t.registerRead id) "accept" fresh _ with
      ⟨_, threw⟩ | ⟨fd, number, free, continued⟩
    · rw [threw]
      exact .refl _ k
    · rw [continued] at failed ⊢
      exact undone_temporary read number free failed
  · cases failed

/-! ## All runs -/

theorem accounted_run {setups : List Setup} (permitted : Runs.Along setUp Permitted empty setups) :
    Accounted (Runs.run setUp empty setups).1 :=
  Runs.run_invariant accounted_setUp accounted_empty permitted

/-- **No descriptor leaks.** However a program gets descriptors, passes them on and gives
them up, and whatever fails on the way, each number that the kernel holds open
belongs to a wrapper that knows it as its own, is not marked closed, and is
reached by some handle; the only exception is a number for which its wrapper has
called `close(2)` and the kernel did not let go of it. If the explicit calls of
`close` are careful, each number is closed at most once, also with constructors
that fail. -/
theorem no_leak {setups : List Setup} (permitted : Runs.Along setUp Permitted empty setups) :
    let t := (Runs.run setUp empty setups).1
    (∀ n id, t.owner n = some id →
      (∃ w, t.wrappers[id]? = some w ∧ w.fd = n ∧ w.closed = false) ∧
        (some id ∈ t.handles ∨ t.Refused id)) ∧
    (Runs.Along setUp CarefulSetup empty setups → t.ClosedOnce) := by
  have accounted := accounted_run permitted
  refine ⟨fun n id its => ⟨accounted.numbered n id its, accounted.kept n id its⟩,
    fun careful => ?_⟩
  exact (Runs.run_invariant owned_setUp owned_empty (permitted.and careful)).once

/-- A connection that is no stream socket. -/
def stray : Setup := .accept 0 ⟨4, 0⟩ ⟨⟨0, 0⟩, 2, 4⟩ ⟨⟨0, 0⟩, 2, 4⟩ closeOk

/-- A listening socket, a connection that is rejected, and a socket that gets its number. -/
def rejected : List Setup := [.socket ⟨3, 0⟩, stray, .socket ⟨4, 0⟩]

theorem rejected_permitted : Runs.Along setUp Permitted empty rejected :=
  ⟨fun _ => rfl, ⟨fun _ => rfl, .inl rfl⟩, fun _ => rfl, trivial⟩

theorem no_leak_rejected :
    (Runs.run setUp empty rejected).1.owner 4 = some 2 ∧
      (some 2 ∈ (Runs.run setUp empty rejected).1.handles ∨
        (Runs.run setUp empty rejected).1.Refused 2) ∧
      (Runs.run setUp empty rejected).1.ClosedOnce := by
  have owner : (Runs.run setUp empty rejected).1.owner 4 = some 2 := by decide
  have facts := no_leak rejected_permitted
  exact ⟨owner, (facts.1 4 2 owner).2, facts.2 ⟨trivial, trivial, trivial, trivial⟩⟩

/-- **Failed constructors give back what they got.** After any run, if a socket or a device
cannot be opened, or a connection that was accepted turns out to be no stream
socket, the handles and the open numbers are what they were, and the new number is
closed at most once, by its own wrapper. If a socket cannot be made from a
descriptor that is moved into it, this amounts to destroying that descriptor. -/
theorem failed_setUp_undone {setups : List Setup} {s : Setup} {e : Exn}
    (permitted : Runs.Along setUp Permitted empty (setups ++ [s]))
    (failed : ((Runs.run setUp empty setups).1.setUp s).2 = .error e) :
    let t := (Runs.run setUp empty setups).1
    match s with
    | .op _ => True
    | .socket _ => (t.setUp s).1 = t
    | .adopt h _ _ _ _ k =>
        (t.setUp s).1 = { (t.step (.destroy h k)).1 with
          handles := (t.step (.destroy h k)).1.handles ++ [none] }
    | .accept _ _ _ _ k => Undone t (t.setUp s).1 k
    | .tunTap _ _ _ _ k => Undone t (t.setUp s).1 k := by
  have accounted := accounted_run permitted.of_append
  have next : Permitted (Runs.run setUp empty setups).1 s := permitted.append_right.1
  cases s with
  | op op => trivial
  | socket call =>
      rcases newDescriptor_cases "socket" next _ with ⟨_, threw⟩ | ⟨fd, _, _, continued⟩
      · exact congrArg Prod.fst threw
      · rw [setUp, continued] at failed
        cases failed
  | adopt h domain type domainAnswer typeAnswer k => exact adopt_of_failed failed
  | accept h call domainAnswer typeAnswer k => exact undone_accept accounted next.1 failed
  | tunTap devname isTun call ioctl k => exact undone_tunTap accounted next.1 failed

theorem failed_setUp_undone_rejected :
    let t := (Runs.run setUp empty [.socket ⟨3, 0⟩]).1
    (t.setUp stray).2 = .error (.runtimeError "socket type mismatch") ∧
      Undone t (t.setUp stray).1 closeOk := by
  have permitted : Runs.Along setUp Permitted empty ([.socket ⟨3, 0⟩] ++ [stray]) :=
    ⟨fun _ => rfl, ⟨fun _ => rfl, .inl rfl⟩, trivial⟩
  have failed : ((Runs.run setUp empty [.socket ⟨3, 0⟩]).1.setUp stray).2 =
      .error (.runtimeError "socket type mismatch") := rfl
  exact ⟨failed, failed_setUp_undone permitted failed⟩

end Table

/-! ## Blocking and non-blocking descriptors -/

/-- The file status flags of an open file, which all duplicates share. -/
abbrev StatusFlags := BitVec 32

abbrev oNonblock : StatusFlags := 0x800

/-- The flags that `set_blocking` asks for. -/
def withBlocking (flags : StatusFlags) (blockingState : Bool) : StatusFlags :=
  if blockingState then flags ^^^ (flags &&& oNonblock) else flags ||| oNonblock

/-- The member function `set_blocking`. `setfl` is the kernel's answer to the second call. -/
def setBlocking (blockingState : Bool) (getfl : SysResult) (setfl : StatusFlags → SysResult) :
    Except Exn StatusFlags := do
  let flags ← systemCall "fcntl" getfl
  let flags := withBlocking (BitVec.ofInt 32 flags) blockingState
  let _ ← systemCall "fcntl" (setfl flags)
  return flags

/-- A call of `set_blocking`, with the errors of the two system calls, if any. -/
structure BlockingCall where
  blockingState : Bool
  getError : Option { errno : Int // errno ≠ 0 }
  setError : Option { errno : Int // errno ≠ 0 }

/-- What `fcntl` returns. -/
def fcntlAnswer (error : Option { errno : Int // errno ≠ 0 }) (value : Int) : SysResult :=
  match error with
  | some errno => ⟨-1, errno⟩
  | none => ⟨value, 0⟩

/-- The kernel stores the flags if the second call succeeds. -/
def BlockingCall.step (flags : StatusFlags) (c : BlockingCall) :
    StatusFlags × Except Exn StatusFlags :=
  let result := setBlocking c.blockingState (fcntlAnswer c.getError flags.toInt)
    fun _ => fcntlAnswer c.setError 0
  (result.toOption.getD flags, result)

/-- What the last call asked for that returned. -/
def lastState (state : Option Bool) (c : BlockingCall) (result : Except Exn StatusFlags) :
    Option Bool :=
  if result.isOk then some c.blockingState else state

theorem getLsbD_withBlocking (flags : StatusFlags) (blockingState : Bool) (i : Nat) :
    (withBlocking flags blockingState).getLsbD i =
      if i = 11 then !blockingState else flags.getLsbD i := by
  have bit : oNonblock.getLsbD i = decide (11 = i) := by
    rw [show oNonblock = BitVec.twoPow 32 11 from rfl, BitVec.getLsbD_twoPow]
    simp
  have apart : i ≠ 11 → oNonblock.getLsbD i = false := by
    intro different
    rw [bit, decide_eq_false (Ne.symm different)]
  unfold withBlocking
  split
  · rw [BitVec.getLsbD_xor, BitVec.getLsbD_and]
    split
    · next blocking here =>
      rw [bit, here, blocking]
      simp
    · next different => rw [apart different, Bool.and_false, Bool.xor_false]
  · rw [BitVec.getLsbD_or]
    split
    · next nonblocking here =>
      rw [bit, here, Bool.eq_false_iff.mpr nonblocking]
      simp
    · next different => rw [apart different, Bool.or_false]

/-- A call that returns has read the flags and stored them with the bit changed; one that
throws has changed nothing. -/
theorem setBlocking_step (flags : StatusFlags) (nonneg : 0 ≤ flags.toInt) (c : BlockingCall) :
    (∃ e, c.step flags = (flags, .error e)) ∨
      c.step flags =
        (withBlocking flags c.blockingState, .ok (withBlocking flags c.blockingState)) := by
  have small : flags.toInt < 2 ^ 31 := BitVec.toInt_lt
  obtain ⟨blockingState, getError, setError⟩ := c
  unfold BlockingCall.step setBlocking
  cases getError with
  | some errno =>
      left
      refine ⟨.unixError "fcntl" errno, ?_⟩
      have threw : systemCall "fcntl" (fcntlAnswer (some errno) flags.toInt) =
          .error (.unixError "fcntl" errno) := systemCall_of_failed _ rfl errno.2
      dsimp only
      rw [threw]
      rfl
  | none =>
      have passed : systemCall "fcntl" (fcntlAnswer none flags.toInt) = .ok flags.toInt :=
        systemCall_of_nonneg nonneg small
      dsimp only
      rw [passed]
      cases setError with
      | some errno =>
          left
          refine ⟨.unixError "fcntl" errno, ?_⟩
          have threw : systemCall "fcntl" (fcntlAnswer (some errno) 0) =
              .error (.unixError "fcntl" errno) := systemCall_of_failed _ rfl errno.2
          rw [threw]
          rfl
      | none =>
          right
          have stored : systemCall "fcntl" (fcntlAnswer none 0) = .ok 0 := rfl
          rw [stored]
          show (withBlocking (BitVec.ofInt 32 flags.toInt) blockingState,
            Except.ok (withBlocking (BitVec.ofInt 32 flags.toInt) blockingState)) = _
          rw [BitVec.ofInt_toInt]

/-- The flags as they are after a call that asked for `state`, if there was one. -/
def Settled (start : StatusFlags) (flags : StatusFlags) (state : Option Bool) : Prop :=
  0 ≤ flags.toInt ∧ ∀ i, flags.getLsbD i =
    if i = 11 then (state.map (!·)).getD (start.getLsbD 11) else start.getLsbD i

theorem settled_step {start flags : StatusFlags} {state : Option Bool} (c : BlockingCall)
    (settled : Settled start flags state) :
    Settled start (BlockingCall.step flags c).1
      (lastState state c (BlockingCall.step flags c).2) := by
  obtain ⟨low, bits⟩ := settled
  rcases setBlocking_step flags low c with ⟨e, threw⟩ | returned
  · rw [threw]
    exact ⟨low, bits⟩
  · rw [returned]
    refine ⟨?_, fun i => ?_⟩
    · rw [BitVec.toInt_pos_iff, ← BitVec.msb_eq_false_iff_two_mul_lt,
        BitVec.msb_eq_getLsbD_last] at low ⊢
      rw [getLsbD_withBlocking]
      exact low
    · show (withBlocking flags c.blockingState).getLsbD i =
        if i = 11 then !c.blockingState else start.getLsbD i
      rw [getLsbD_withBlocking]
      split
      · rfl
      · next different => rw [bits i, if_neg different]

end FileDescriptor

end Sponge
