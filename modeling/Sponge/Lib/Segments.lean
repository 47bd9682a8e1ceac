import Mathlib.Data.List.Basic

/-!
# Consuming a segmented string

A string may be kept as a queue of segments, of any type with a view as a list
and a way to trim its front. `consume n` removes the first `n` elements of the
whole string by popping the segments that are used up and trimming the one in
which the cut falls. When the string is too short it fails, but only after it
has popped every segment.
-/

namespace Segments

variable {ε α err : Type*}

/-- Remove `n` elements from the front of a queue of segments. -/
def consume (view : ε → List α) (trim : ε → Nat → Except err ε) (short : err) :
    Nat → List ε → List ε × Except err Unit
  | 0, segments => (segments, .ok ())
  | _ + 1, [] => ([], .error short)
  | n + 1, front :: rest =>
      if n + 1 < (view front).length then
        match trim front (n + 1) with
        | .ok front' => (front' :: rest, .ok ())
        | .error e => (front :: rest, .error e)
      else
        consume view trim short (n + 1 - (view front).length) rest

variable {view : ε → List α} {trim : ε → Nat → Except err ε} {short : err}

@[simp] theorem consume_zero (segments : List ε) :
    consume view trim short 0 segments = (segments, .ok ()) := by
  cases segments <;> rfl

/-- A trim inside a segment drops that many elements of it. -/
def Trims (view : ε → List α) (trim : ε → Nat → Except err ε) : Prop :=
  ∀ segment n, n < (view segment).length →
    ∃ segment', trim segment n = .ok segment' ∧ view segment' = (view segment).drop n

/-- With enough elements, `consume` succeeds and drops exactly `n` of them. -/
theorem consume_of_le (trims : Trims view trim) {n : Nat} {segments : List ε}
    (enough : n ≤ (segments.flatMap view).length) :
    (consume view trim short n segments).2 = .ok () ∧
      (consume view trim short n segments).1.flatMap view = (segments.flatMap view).drop n := by
  induction segments generalizing n with
  | nil =>
      obtain rfl : n = 0 := by simpa using enough
      simp
  | cons front rest ih =>
      cases n with
      | zero => simp
      | succ n =>
          rw [consume]
          rw [List.flatMap_cons, List.length_append] at enough
          split
          · next inside =>
            obtain ⟨front', trimmed, left⟩ := trims front (n + 1) inside
            rw [trimmed]
            refine ⟨rfl, ?_⟩
            simp only [List.flatMap_cons, left]
            rw [List.drop_append_of_le_length (Nat.le_of_lt inside)]
          · next outside =>
            have enough' : n + 1 - (view front).length ≤ (rest.flatMap view).length := by omega
            obtain ⟨ok, left⟩ := ih enough'
            refine ⟨ok, ?_⟩
            rw [left, List.flatMap_cons, List.drop_append,
              List.drop_of_length_le (l := view front) (by omega), List.nil_append]

/-- With too few elements, `consume` fails and leaves nothing. -/
theorem consume_of_gt {n : Nat} {segments : List ε}
    (few : (segments.flatMap view).length < n) :
    consume view trim short n segments = ([], .error short) := by
  induction segments generalizing n with
  | nil =>
      cases n with
      | zero => simp at few
      | succ n => rfl
  | cons front rest ih =>
      rw [List.flatMap_cons, List.length_append] at few
      cases n with
      | zero => omega
      | succ n =>
          rw [consume, if_neg (by omega)]
          exact ih (by omega)

/-- `f` maps segments of one kind to segments of another with the same view, and
a trim inside a segment to a trim of its image. -/
def Image {ε' : Type*} (view : ε → List α) (trim : ε → Nat → Except err ε)
    (view' : ε' → List α) (trim' : ε' → Nat → Except err ε') (f : ε → ε') : Prop :=
  (∀ segment, view' (f segment) = view segment) ∧
    ∀ segment n, n < (view segment).length →
      ∃ segment', trim segment n = .ok segment' ∧ trim' (f segment) n = .ok (f segment')

/-- `consume` looks at a segment only through its view: it pops and trims at the
same places in a queue of segments and in the queue of their images. -/
theorem consume_map {ε' : Type*} {view' : ε' → List α} {trim' : ε' → Nat → Except err ε'}
    {f : ε → ε'} (image : Image view trim view' trim' f) (short short' : err)
    (n : Nat) (segments : List ε) :
    (consume view' trim' short' n (segments.map f)).1 =
        (consume view trim short n segments).1.map f ∧
      (((consume view trim short n segments).2 = .ok () ∧
          (consume view' trim' short' n (segments.map f)).2 = .ok ()) ∨
        ((consume view trim short n segments).2 = .error short ∧
          (consume view' trim' short' n (segments.map f)).2 = .error short')) := by
  obtain ⟨views, trims⟩ := image
  induction segments generalizing n with
  | nil =>
      cases n with
      | zero => simp
      | succ n => exact ⟨rfl, .inr ⟨rfl, rfl⟩⟩
  | cons front rest ih =>
      cases n with
      | zero => simp
      | succ n =>
          rw [List.map_cons, consume, consume, views]
          split
          · next inside =>
            obtain ⟨front', trimmed, trimmed'⟩ := trims front (n + 1) inside
            rw [trimmed, trimmed']
            exact ⟨rfl, .inl ⟨rfl, rfl⟩⟩
          · exact ih _

end Segments
