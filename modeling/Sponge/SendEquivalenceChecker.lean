import Mathlib.Data.List.Forall2
import Sponge.BufferListRefinement
import Sponge.Lib.Runs

/-!
# The send equivalence checker

The test helper `SendEquivalenceChecker` compares the segments that two
implementations send. Each side submits its segments when it has them, so one may be
ahead of the other by any number; copies of the segments that have no partner yet wait
in a queue. What a segment is comes from a class that is a parameter here.

A copy is made by parsing what `serialize` returns, a `BufferList` that is converted to
a `Buffer` on the way. That conversion throws if there is more than one buffer in the
list, so what the checker accepts, whatever the order of the submissions, are equal
sequences whose segments come in one buffer when they have to wait.
-/

namespace Sponge

/-- What the checker uses of the class `TCPSegment`: the comparison and the summary of the
header, the payload, `serialize`, and the segment that `parse` makes of a new one. The
checker does not look at what `parse` returns. -/
structure SegmentClass (Segment : Type) where
  headerEq : Segment → Segment → Bool
  summary : Segment → String
  payload : Segment → Bytes
  serialize : Segment → BufferList
  parse : Buffer → Segment

/-- What is assumed of it: headers are compared by an equivalence, and a segment that is
parsed from the one buffer of a serialized one has the same header and payload. -/
structure SegmentClass.Faithful {Segment : Type} (cls : SegmentClass Segment) : Prop where
  symm : ∀ a b, cls.headerEq a b = true → cls.headerEq b a = true
  trans : ∀ a b c, cls.headerEq a b = true → cls.headerEq b c = true → cls.headerEq a c = true
  header : ∀ a buffer, (cls.serialize a).toBuffer = .ok buffer →
    cls.headerEq (cls.parse buffer) a = true
  payload : ∀ a buffer, (cls.serialize a).toBuffer = .ok buffer →
    cls.payload (cls.parse buffer) = cls.payload a

structure SendEquivalenceChecker (Segment : Type) where
  as : List Segment
  bs : List Segment

namespace SendEquivalenceChecker

variable {Segment : Type} (cls : SegmentClass Segment)

/-- A segment in a message. -/
def describe (a : Segment) : String :=
  cls.summary a ++ " with " ++ toString (cls.payload a).length ++ " bytes"

def checkEquivalentSegments (a b : Segment) : Except Exn Unit :=
  if cls.headerEq a b = false then
    .error (.runtimeError (describe cls a ++ " != " ++ describe cls b))
  else if cls.payload a ≠ cls.payload b then
    .error (.runtimeError ("unequal payloads: " ++ (describe cls a ++ " != " ++ describe cls b)))
  else
    .ok ()

/-- The copy that is parsed from the serialized segment. -/
def copy (seg : Segment) : Except Exn Segment :=
  match (cls.serialize seg).toBuffer with
  | .error e => .error e
  | .ok buffer => .ok (cls.parse buffer)

/-- What the member functions `submit_a` and `submit_b` have in common: they compare a
segment with the first one that the other side has waiting, or put a copy of it in
their own queue. -/
def submit (check : Segment → Except Exn Unit) (own other : List Segment) (seg : Segment) :
    (List Segment × List Segment) × Except Exn Unit :=
  match other with
  | first :: rest =>
      match check first with
      | .error e => ((own, other), .error e)
      | .ok () => ((own, rest), .ok ())
  | [] =>
      match copy cls seg with
      | .error e => ((own, other), .error e)
      | .ok cp => ((own ++ [cp], other), .ok ())

def submitA (c : SendEquivalenceChecker Segment) (seg : Segment) :
    SendEquivalenceChecker Segment × Except Exn Unit :=
  let submitted := submit cls (fun b => checkEquivalentSegments cls seg b) c.as c.bs seg
  (⟨submitted.1.1, submitted.1.2⟩, submitted.2)

def submitB (c : SendEquivalenceChecker Segment) (seg : Segment) :
    SendEquivalenceChecker Segment × Except Exn Unit :=
  let submitted := submit cls (fun a => checkEquivalentSegments cls a seg) c.bs c.as seg
  (⟨submitted.1.2, submitted.1.1⟩, submitted.2)

/-- The message about segments that have no partner. -/
def unmatched (side : String) (segments : List Segment) : String :=
  segments.foldl (fun text a => text ++ "  - " ++ describe cls a ++ "\n")
    (toString segments.length ++ " unmatched packets from " ++ side ++ "\n")

def checkEmpty (c : SendEquivalenceChecker Segment) : Except Exn Unit :=
  if c.as ≠ [] then
    .error (.runtimeError (unmatched cls "standard" c.as))
  else if c.bs ≠ [] then
    .error (.runtimeError (unmatched cls "factored" c.bs))
  else
    .ok ()

/-- A submission. -/
inductive Submission (Segment : Type) where
  | a (seg : Segment)
  | b (seg : Segment)

def step (c : SendEquivalenceChecker Segment) :
    Submission Segment → SendEquivalenceChecker Segment × Except Exn Unit
  | .a seg => c.submitA cls seg
  | .b seg => c.submitB cls seg

/-- What was submitted by the one side. -/
def submittedA (subs : List (Submission Segment)) : List Segment :=
  subs.filterMap fun | .a seg => some seg | .b _ => none

/-- What was submitted by the other side. -/
def submittedB (subs : List (Submission Segment)) : List Segment :=
  subs.filterMap fun | .a _ => none | .b seg => some seg

/-- Segments that the checker does not tell apart. -/
def Equivalent (a b : Segment) : Prop :=
  cls.headerEq a b = true ∧ cls.payload a = cls.payload b

/-- A segment that is serialized into one buffer, or none. -/
def OneBuffer (seg : Segment) : Prop := (cls.serialize seg).buffers.length ≤ 1

/-- The segments that find no partner waiting when they are submitted, after so many of
both sides. -/
def keptFrom (as bs : Nat) : List (Submission Segment) → List Segment
  | [] => []
  | .a seg :: subs => (if bs ≤ as then [seg] else []) ++ keptFrom (as + 1) bs subs
  | .b seg :: subs => (if as ≤ bs then [seg] else []) ++ keptFrom as (bs + 1) subs

def kept (subs : List (Submission Segment)) : List Segment := keptFrom 0 0 subs

/-! ## The queues -/

/-- What one side has waiting: copies of the segments that have no partner yet. -/
def Queue (copies own other : List Segment) : Prop :=
  List.Forall₂ (fun cp seg => copy cls seg = .ok cp) copies (own.drop other.length)

/-- The checker when two sequences were submitted and nothing was thrown. -/
structure Waiting (c : SendEquivalenceChecker Segment) (as bs : List Segment) : Prop where
  queueA : Queue cls c.as as bs
  queueB : Queue cls c.bs bs as

/-- A segment is accepted next: it is a partner of the segment at its place on the other
side, if that is there, and it can be copied otherwise. -/
def Fits (partner : Segment → Prop) (own other : List Segment) (seg : Segment) : Prop :=
  (∀ x, other[own.length]? = some x → partner x) ∧
    (other.length ≤ own.length → OneBuffer cls seg)

/-- All pairs at the same place of two lists are related, as far as both go. -/
def Compatible (r : Segment → Segment → Prop) (as bs : List Segment) : Prop :=
  ∀ (i : Nat) a b, as[i]? = some a → bs[i]? = some b → r a b

variable {cls}

theorem checkEquivalentSegments_ok {a b : Segment} :
    checkEquivalentSegments cls a b = .ok () ↔ Equivalent cls a b := by
  unfold checkEquivalentSegments Equivalent
  by_cases header : cls.headerEq a b = false
  · simp [header]
  · by_cases payload : cls.payload a = cls.payload b
    · simp [header, payload]
    · simp [header, payload]

theorem copy_eq_ok {seg cp : Segment} (copied : copy cls seg = .ok cp) :
    ∃ buffer, (cls.serialize seg).toBuffer = .ok buffer ∧ cls.parse buffer = cp := by
  unfold copy at copied
  split at copied
  · cases copied
  · next buffer converted =>
    cases copied
    exact ⟨buffer, converted, rfl⟩

/-- A segment is copied exactly if it comes in one buffer. -/
theorem copy_cases (cls : SegmentClass Segment) (seg : Segment) :
    (OneBuffer cls seg ∧ ∃ cp, copy cls seg = .ok cp) ∨
      (¬OneBuffer cls seg ∧ ∃ e, copy cls seg = .error e) := by
  have throws := (BufferList.toBuffer_spec (cls.serialize seg)).1
  unfold OneBuffer copy
  cases converted : (cls.serialize seg).toBuffer with
  | ok buffer =>
      rw [converted] at throws
      have one : ¬1 < (cls.serialize seg).buffers.length := by simp [← throws]
      exact .inl ⟨by omega, _, rfl⟩
  | error e =>
      rw [converted] at throws
      have more := throws.mp ⟨e, rfl⟩
      exact .inr ⟨by omega, _, rfl⟩

/-- It makes no difference which of two segments was kept as a copy. -/
theorem equivalent_copy_right (faithful : cls.Faithful) {a b cp : Segment}
    (copied : copy cls b = .ok cp) : Equivalent cls a cp ↔ Equivalent cls a b := by
  obtain ⟨buffer, converted, rfl⟩ := copy_eq_ok copied
  have header := faithful.header b buffer converted
  unfold Equivalent
  rw [faithful.payload b buffer converted]
  refine and_congr_left fun _ => ⟨fun same => ?_, fun same => ?_⟩
  · exact faithful.trans _ _ _ same header
  · exact faithful.trans _ _ _ same (faithful.symm _ _ header)

theorem equivalent_comm (faithful : cls.Faithful) {a b : Segment} :
    Equivalent cls a b ↔ Equivalent cls b a :=
  ⟨fun same => ⟨faithful.symm _ _ same.1, same.2.symm⟩,
    fun same => ⟨faithful.symm _ _ same.1, same.2.symm⟩⟩

theorem equivalent_copy_left (faithful : cls.Faithful) {a b cp : Segment}
    (copied : copy cls a = .ok cp) : Equivalent cls cp b ↔ Equivalent cls a b :=
  calc Equivalent cls cp b
    _ ↔ Equivalent cls b cp := equivalent_comm faithful
    _ ↔ Equivalent cls b a := equivalent_copy_right faithful copied
    _ ↔ Equivalent cls a b := equivalent_comm faithful

theorem queue_of_le {own other copies : List Segment} (behind : own.length ≤ other.length) :
    Queue cls copies own other ↔ copies = [] := by
  rw [Queue, List.drop_of_length_le behind, List.forall₂_nil_right_iff]

/-- What is at a place is the first of what comes from there. -/
theorem drop_of_getElem? {xs : List Segment} {n : Nat} {x : Segment} (here : xs[n]? = some x) :
    xs.drop n = x :: xs.drop (n + 1) := by
  obtain ⟨bound, rfl⟩ := List.getElem?_eq_some_iff.mp here
  exact List.drop_eq_getElem_cons bound

/-- One submission is accepted exactly if the segment fits. -/
theorem submit_queue (check : Segment → Except Exn Unit) {partner : Segment → Prop}
    (checks : ∀ x cp, copy cls x = .ok cp → (check cp = .ok () ↔ partner x))
    {own other mine theirs : List Segment} (waits : Queue cls mine own other)
    (waits' : Queue cls theirs other own) (seg : Segment) :
    (Fits cls partner own other seg ∧
      ∃ mine' theirs', submit cls check mine theirs seg = ((mine', theirs'), .ok ()) ∧
        Queue cls mine' (own ++ [seg]) other ∧ Queue cls theirs' other (own ++ [seg])) ∨
    (¬Fits cls partner own other seg ∧ ∃ e, (submit cls check mine theirs seg).2 = .error e) := by
  cases here : other[own.length]? with
  | none =>
      -- the other side has nothing waiting, so this one keeps a copy
      have behind : other.length ≤ own.length := List.getElem?_eq_none_iff.mp here
      obtain rfl := (queue_of_le behind).mp waits'
      rcases copy_cases cls seg with ⟨one, cp, copied⟩ | ⟨more, e, threw⟩
      · left
        refine ⟨⟨by simp [here], fun _ => one⟩, mine ++ [cp], [], ?_, ?_, ?_⟩
        · simp only [submit, copied]
        · rw [Queue, List.drop_append_of_le_length behind]
          exact List.rel_append waits (.cons copied .nil)
        · rw [queue_of_le]
          rw [List.length_append, List.length_singleton]
          omega
      · right
        refine ⟨fun fits => more (fits.2 behind), e, ?_⟩
        simp only [submit, threw]
  | some x =>
      have ahead : own.length < other.length := (List.getElem?_eq_some_iff.mp here).1
      obtain rfl := (queue_of_le ahead.le).mp waits
      rw [Queue, drop_of_getElem? here] at waits'
      obtain ⟨cp, rest, copied, others, rfl⟩ := List.forall₂_cons_right_iff.mp waits'
      by_cases passed : check cp = .ok ()
      · left
        refine ⟨⟨?_, fun behind => by omega⟩, [], rest, ?_, ?_, ?_⟩
        · intro x' same
          rw [here] at same
          cases same
          exact (checks x cp copied).mp passed
        · simp only [submit, passed]
        · rw [queue_of_le]
          rw [List.length_append, List.length_singleton]
          omega
        · rw [Queue, List.length_append]
          exact others
      · right
        refine ⟨fun fits => passed ((checks x cp copied).mpr (fits.1 x here)), ?_⟩
        cases checked : check cp with
        | ok _ => exact absurd checked passed
        | error e => exact ⟨e, by simp only [submit, checked]⟩

theorem submitA_waiting (faithful : cls.Faithful) {c : SendEquivalenceChecker Segment}
    {as bs : List Segment} (waiting : Waiting cls c as bs) (a : Segment) :
    (Fits cls (Equivalent cls a) as bs a ∧ (c.submitA cls a).2 = .ok () ∧
      Waiting cls (c.submitA cls a).1 (as ++ [a]) bs) ∨
    (¬Fits cls (Equivalent cls a) as bs a ∧ ∃ e, (c.submitA cls a).2 = .error e) := by
  have checks : ∀ b cp, copy cls b = .ok cp →
      (checkEquivalentSegments cls a cp = .ok () ↔ Equivalent cls a b) := fun b cp copied =>
    checkEquivalentSegments_ok.trans (equivalent_copy_right faithful copied)
  rcases submit_queue (fun b => checkEquivalentSegments cls a b) checks waiting.queueA
      waiting.queueB a with
    ⟨fits, mine, theirs, passed, waits, waits'⟩ | threw
  · left
    simp only [submitA, passed]
    exact ⟨fits, trivial, waits, waits'⟩
  · exact .inr threw

theorem submitB_waiting (faithful : cls.Faithful) {c : SendEquivalenceChecker Segment}
    {as bs : List Segment} (waiting : Waiting cls c as bs) (b : Segment) :
    (Fits cls (fun a => Equivalent cls a b) bs as b ∧ (c.submitB cls b).2 = .ok () ∧
      Waiting cls (c.submitB cls b).1 as (bs ++ [b])) ∨
    (¬Fits cls (fun a => Equivalent cls a b) bs as b ∧ ∃ e, (c.submitB cls b).2 = .error e) := by
  have checks : ∀ a cp, copy cls a = .ok cp →
      (checkEquivalentSegments cls cp b = .ok () ↔ Equivalent cls a b) := fun a cp copied =>
    checkEquivalentSegments_ok.trans (equivalent_copy_left faithful copied)
  rcases submit_queue (fun a => checkEquivalentSegments cls a b) checks waiting.queueB
      waiting.queueA b with
    ⟨fits, mine, theirs, passed, waits, waits'⟩ | threw
  · left
    simp only [submitB, passed]
    exact ⟨fits, trivial, waits', waits⟩
  · exact .inr threw

/-! ## All orders of submissions -/

variable {r : Segment → Segment → Prop} {as bs more : List Segment} {a b : Segment}

theorem compatible_comm : Compatible r as bs ↔ Compatible (flip r) bs as :=
  ⟨fun compatible i b a there here => compatible i a b here there,
    fun compatible i a b here there => compatible i b a there here⟩

theorem compatible_append (compatible : Compatible r as bs)
    (fits : ∀ b, bs[as.length]? = some b → r a b) : Compatible r (as ++ [a]) bs := by
  intro i a' b here there
  rcases Nat.lt_trichotomy i as.length with before | rfl | after
  · rw [List.getElem?_append_left before] at here
    exact compatible i a' b here there
  · rw [List.getElem?_concat_length] at here
    cases here
    exact fits b there
  · rw [List.getElem?_eq_none (by rw [List.length_append, List.length_singleton]; omega)] at here
    cases here

theorem not_compatible {rest : List Segment} (there : bs[as.length]? = some b)
    (differs : ¬r a b) : ¬Compatible r (as ++ a :: rest) (bs ++ more) := by
  intro compatible
  obtain ⟨bound, -⟩ := List.getElem?_eq_some_iff.mp there
  refine differs (compatible as.length a b (by simp) ?_)
  rw [List.getElem?_append_left bound, there]

/-- The condition on the segments that are kept, at the first submission. -/
theorem forall_mem_kept {p : Segment → Prop} {keeps : Prop} [Decidable keeps] {seg : Segment}
    {later : List Segment} :
    (∀ x ∈ (if keeps then [seg] else []) ++ later, p x) ↔
      (keeps → p seg) ∧ ∀ x ∈ later, p x := by
  rw [List.forall_mem_append]
  refine and_congr_left fun _ => ?_
  by_cases here : keeps
  · simp [here]
  · simp [here]

/-- After one submission, a run without an exception goes on as one. -/
theorem run_cons_of_ok {c : SendEquivalenceChecker Segment} {sub : Submission Segment}
    {subs : List (Submission Segment)} (passed : (step cls c sub).2 = .ok ()) :
    (∀ o ∈ (Runs.run (step cls) c (sub :: subs)).2, o = .ok ()) ↔
      ∀ o ∈ (Runs.run (step cls) (step cls c sub).1 subs).2, o = .ok () := by
  rw [Runs.run_cons, List.forall_mem_cons, passed]
  exact and_iff_right rfl

theorem run_cons_of_error {c : SendEquivalenceChecker Segment} {sub : Submission Segment}
    {subs : List (Submission Segment)} {e : Exn} (threw : (step cls c sub).2 = .error e) :
    ¬∀ o ∈ (Runs.run (step cls) c (sub :: subs)).2, o = .ok () := by
  rw [Runs.run_cons, List.forall_mem_cons, threw]
  exact fun all => nomatch all.1

/-- A run without an exception is one that finds no difference and can copy what it has to
keep, and what is left then has no partner. -/
theorem run_waiting (faithful : cls.Faithful) (subs : List (Submission Segment))
    {c : SendEquivalenceChecker Segment} {as bs : List Segment} (waiting : Waiting cls c as bs)
    (compatible : Compatible (Equivalent cls) as bs) :
    ((∀ o ∈ (Runs.run (step cls) c subs).2, o = .ok ()) ↔
      Compatible (Equivalent cls) (as ++ submittedA subs) (bs ++ submittedB subs) ∧
        ∀ seg ∈ keptFrom as.length bs.length subs, OneBuffer cls seg) ∧
    ((∀ o ∈ (Runs.run (step cls) c subs).2, o = .ok ()) →
      Waiting cls (Runs.run (step cls) c subs).1 (as ++ submittedA subs)
        (bs ++ submittedB subs)) := by
  induction subs generalizing c as bs with
  | nil => simpa [submittedA, submittedB, keptFrom] using ⟨compatible, waiting⟩
  | cons sub subs ih =>
      cases sub with
      | a seg =>
          have mine : submittedA (.a seg :: subs) = seg :: submittedA subs := rfl
          have theirs : submittedB (.a seg :: subs) = submittedB subs := rfl
          rw [mine, theirs, keptFrom, forall_mem_kept]
          rcases submitA_waiting faithful waiting seg with
            ⟨fits, passed, next⟩ | ⟨unfit, e, threw⟩
          · have rest := ih next (compatible_append compatible fits.1)
            rw [List.length_append, List.length_singleton, ← List.append_cons] at rest
            have ran : (step cls c (.a seg)).2 = .ok () := passed
            rw [run_cons_of_ok ran, and_iff_right fits.2]
            exact rest
          · have ran : (step cls c (.a seg)).2 = .error e := threw
            refine ⟨iff_of_false (run_cons_of_error ran) ?_,
              fun all => absurd all (run_cons_of_error ran)⟩
            rintro ⟨right, copied, -⟩
            refine unfit ⟨fun b there => ?_, copied⟩
            by_contra differs
            exact not_compatible there differs right
      | b seg =>
          have mine : submittedB (.b seg :: subs) = seg :: submittedB subs := rfl
          have theirs : submittedA (.b seg :: subs) = submittedA subs := rfl
          rw [mine, theirs, keptFrom, forall_mem_kept]
          rcases submitB_waiting faithful waiting seg with
            ⟨fits, passed, next⟩ | ⟨unfit, e, threw⟩
          · have extended : Compatible (Equivalent cls) as (bs ++ [seg]) :=
              compatible_comm.mpr (compatible_append (compatible_comm.mp compatible) fits.1)
            have rest := ih next extended
            rw [List.length_append, List.length_singleton, ← List.append_cons] at rest
            have ran : (step cls c (.b seg)).2 = .ok () := passed
            rw [run_cons_of_ok ran, and_iff_right fits.2]
            exact rest
          · have ran : (step cls c (.b seg)).2 = .error e := threw
            refine ⟨iff_of_false (run_cons_of_error ran) ?_,
              fun all => absurd all (run_cons_of_error ran)⟩
            rintro ⟨right, copied, -⟩
            refine unfit ⟨fun a here => ?_, copied⟩
            by_contra differs
            exact not_compatible here differs (compatible_comm.mp right)

theorem checkEmpty_waiting {c : SendEquivalenceChecker Segment} (waiting : Waiting cls c as bs) :
    checkEmpty cls c = .ok () ↔ as.length = bs.length := by
  have left : c.as = [] ↔ as.length ≤ bs.length := by
    rw [← List.length_eq_zero_iff, waiting.queueA.length_eq, List.length_drop]
    omega
  have right : c.bs = [] ↔ bs.length ≤ as.length := by
    rw [← List.length_eq_zero_iff, waiting.queueB.length_eq, List.length_drop]
    omega
  unfold checkEmpty
  simp only [ne_eq, left, right]
  split
  · refine ⟨nofun, ?_⟩
    omega
  · split
    · refine ⟨nofun, ?_⟩
      omega
    · refine ⟨fun _ => ?_, fun _ => rfl⟩
      omega

/-- Two lists of one length are related place by place. -/
theorem compatible_iff_forall₂ (length : as.length = bs.length) :
    Compatible r as bs ↔ List.Forall₂ r as bs := by
  rw [List.forall₂_iff_get]
  refine ⟨fun compatible => ⟨length, fun i here there => ?_⟩,
    fun ⟨_, related⟩ i a b here there => ?_⟩
  · exact compatible i _ _ (List.getElem?_eq_getElem here) (List.getElem?_eq_getElem there)
  · obtain ⟨bound, rfl⟩ := List.getElem?_eq_some_iff.mp here
    obtain ⟨bound', rfl⟩ := List.getElem?_eq_some_iff.mp there
    exact related i bound bound'

/-- **The checker accepts equal sequences, in whatever order they are submitted.** No
submission throws exactly if no two segments at the same place of the two sequences
differ and each segment that finds no partner waiting comes in one buffer; and then
the final check passes exactly if none is missing at the end. So a run is accepted
exactly if the sequences are equivalent segment by segment and what had to wait came
in one buffer. -/
theorem accepts_iff (faithful : cls.Faithful) (subs : List (Submission Segment)) :
    ((∀ o ∈ (Runs.run (step cls) ⟨[], []⟩ subs).2, o = .ok ()) ↔
      Compatible (Equivalent cls) (submittedA subs) (submittedB subs) ∧
        ∀ seg ∈ kept subs, OneBuffer cls seg) ∧
    ((∀ o ∈ (Runs.run (step cls) ⟨[], []⟩ subs).2, o = .ok ()) ∧
        checkEmpty cls (Runs.run (step cls) ⟨[], []⟩ subs).1 = .ok () ↔
      List.Forall₂ (Equivalent cls) (submittedA subs) (submittedB subs) ∧
        ∀ seg ∈ kept subs, OneBuffer cls seg) := by
  obtain ⟨passes, final⟩ := run_waiting faithful subs
    (show Waiting cls ⟨[], []⟩ [] [] from ⟨.nil, .nil⟩)
    (show Compatible (Equivalent cls) [] [] from nofun)
  rw [List.nil_append, List.nil_append] at passes final
  refine ⟨passes, fun ⟨all, empty⟩ => ?_, fun ⟨related, copied⟩ => ?_⟩
  · rw [checkEmpty_waiting (final all)] at empty
    obtain ⟨compatible, copied⟩ := passes.mp all
    exact ⟨(compatible_iff_forall₂ empty).mp compatible, copied⟩
  · have length := related.length_eq
    have all := passes.mpr ⟨(compatible_iff_forall₂ length).mpr related, copied⟩
    exact ⟨all, (checkEmpty_waiting (final all)).mpr length⟩

/-- Segments with a header of one byte, in one buffer with the payload. -/
def oneBuffers : SegmentClass (UInt8 × UInt8) where
  headerEq a b := a.1 == b.1
  summary a := toString a.1.toNat
  payload a := [a.2]
  serialize a := .ofString [a.1, a.2] (by simp [sizeModulus])
  parse buffer := (buffer.str.getD 0 0, buffer.str.getD 1 0)

/-- The same with the payload in a buffer of its own. -/
def twoBuffers : SegmentClass (UInt8 × UInt8) :=
  { oneBuffers with
    serialize := fun a =>
      BufferList.append (.ofString [a.1] (by simp [sizeModulus]))
        (.ofString [a.2] (by simp [sizeModulus])) }

/-- One side may be two segments ahead if they come in one buffer, and not even one if they
come in two. -/
theorem accepts_iff_ahead :
    ((∀ o ∈ (Runs.run (step oneBuffers) ⟨[], []⟩
        [.b (1, 7), .b (2, 8), .a (1, 7), .a (2, 8)]).2, o = .ok ()) ∧
      checkEmpty oneBuffers (Runs.run (step oneBuffers) ⟨[], []⟩
        [.b (1, 7), .b (2, 8), .a (1, 7), .a (2, 8)]).1 = .ok ()) ∧
    ¬∀ o ∈ (Runs.run (step twoBuffers) ⟨[], []⟩ [.b (1, 7), .a (1, 7)]).2, o = .ok () := by
  have symm : ∀ a b : UInt8 × UInt8, (a.1 == b.1) = true → (b.1 == a.1) = true := by
    intro a b same
    rw [beq_iff_eq] at *
    exact same.symm
  have trans : ∀ a b c : UInt8 × UInt8, (a.1 == b.1) = true → (b.1 == c.1) = true →
      (a.1 == c.1) = true := by
    intro a b c first second
    rw [beq_iff_eq] at *
    exact first.trans second
  constructor
  · have faithful : oneBuffers.Faithful := by
      refine ⟨symm, trans, ?_, ?_⟩
      · rintro ⟨header, payload⟩ buffer ⟨⟩
        simp [oneBuffers, Buffer.str_ofString]
      · rintro ⟨header, payload⟩ buffer ⟨⟩
        simp [oneBuffers, Buffer.str_ofString]
    refine (accepts_iff faithful _).2.mpr ⟨.cons ⟨rfl, rfl⟩ (.cons ⟨rfl, rfl⟩ .nil), ?_⟩
    intro seg _
    exact le_refl 1
  · have faithful : twoBuffers.Faithful := ⟨symm, trans, nofun, nofun⟩
    intro all
    have copied := ((accepts_iff faithful _).1.mp all).2 (1, 7) (List.mem_cons_self ..)
    have two : 2 ≤ 1 := copied
    omega

end SendEquivalenceChecker

end Sponge
