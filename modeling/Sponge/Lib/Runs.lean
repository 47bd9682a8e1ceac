import Mathlib.Data.List.Basic

/-!
# Runs of a deterministic machine

A machine is a step function that takes a state and a label and gives the next
state and an output. `run` feeds it a list of labels. `Along` says that every
step of a run meets a condition on the state it is taken in, and the rules here
lift a fact about one step to all runs: an invariant, a relation to what can be
recorded of the labels and outputs, and a simulation of the machine by an abstract
one that is given as a relation.
-/

namespace Runs

variable {S L O A G : Type*}

/-- Feed a list of labels to a machine and collect its outputs. -/
def run (step : S → L → S × O) : S → List L → S × List O
  | s, [] => (s, [])
  | s, l :: ls => ((run step (step s l).1 ls).1, (step s l).2 :: (run step (step s l).1 ls).2)

/-- Every step of the run meets `guard` in the state it is taken in. -/
def Along (step : S → L → S × O) (guard : S → L → Prop) : S → List L → Prop
  | _, [] => True
  | s, l :: ls => guard s l ∧ Along step guard (step s l).1 ls

/-- What is recorded of the labels and the outputs of a run. -/
def history (record : G → L → O → G) : G → List L → List O → G
  | g, l :: ls, o :: os => history record (record g l o) ls os
  | g, _, _ => g

/-- A run of an abstract machine that is given by a relation. -/
inductive Related (spec : A → L → O → A → Prop) : A → List L → List O → A → Prop
  | nil (a : A) : Related spec a [] [] a
  | cons {a mid final : A} {l : L} {o : O} {ls : List L} {os : List O} :
      spec a l o mid → Related spec mid ls os final → Related spec a (l :: ls) (o :: os) final

variable {step : S → L → S × O} {guard : S → L → Prop} {inv : S → Prop}

@[simp] theorem run_nil (s : S) : run step s [] = (s, []) := rfl

@[simp] theorem run_cons (s : S) (l : L) (ls : List L) :
    run step s (l :: ls) =
      ((run step (step s l).1 ls).1, (step s l).2 :: (run step (step s l).1 ls).2) := rfl

theorem run_append (s : S) (first second : List L) :
    run step s (first ++ second) =
      ((run step (run step s first).1 second).1,
        (run step s first).2 ++ (run step (run step s first).1 second).2) := by
  induction first generalizing s with
  | nil => simp
  | cons l ls ih => simp [ih]

theorem length_run (s : S) (ls : List L) : (run step s ls).2.length = ls.length := by
  induction ls generalizing s with
  | nil => rfl
  | cons l ls ih => rw [run_cons, List.length_cons, ih, List.length_cons]

theorem Along.of_append {s : S} {first second : List L}
    (along : Along step guard s (first ++ second)) : Along step guard s first := by
  induction first generalizing s with
  | nil => trivial
  | cons l ls ih => exact ⟨along.1, ih along.2⟩

theorem Along.append_right {s : S} {first second : List L}
    (along : Along step guard s (first ++ second)) :
    Along step guard (run step s first).1 second := by
  induction first generalizing s with
  | nil => exact along
  | cons l ls ih => exact ih along.2

theorem Along.imp {guard' : S → L → Prop} (weaker : ∀ s l, guard s l → guard' s l) {s : S}
    {ls : List L} (along : Along step guard s ls) : Along step guard' s ls := by
  induction ls generalizing s with
  | nil => trivial
  | cons l ls ih => exact ⟨weaker s l along.1, ih along.2⟩

theorem Along.and {guard' : S → L → Prop} {s : S} {ls : List L} (along : Along step guard s ls)
    (along' : Along step guard' s ls) : Along step (fun s l => guard s l ∧ guard' s l) s ls := by
  induction ls generalizing s with
  | nil => trivial
  | cons l ls ih => exact ⟨⟨along.1, along'.1⟩, ih along.2 along'.2⟩

theorem along_of_forall {ls : List L} (always : ∀ s, ∀ l ∈ ls, guard s l) (s : S) :
    Along step guard s ls := by
  induction ls generalizing s with
  | nil => trivial
  | cons l ls ih =>
      exact ⟨always s l (List.mem_cons_self ..),
        ih (fun s l member => always s l (List.mem_cons_of_mem _ member)) _⟩

theorem along_true (s : S) (ls : List L) : Along step (fun _ _ => True) s ls := by
  induction ls generalizing s with
  | nil => trivial
  | cons l ls ih => exact ⟨trivial, ih _⟩

/-- **Invariant rule.** -/
theorem run_invariant (preserved : ∀ s l, inv s → guard s l → inv (step s l).1)
    {s : S} {ls : List L} (initial : inv s) (along : Along step guard s ls) :
    inv (run step s ls).1 := by
  induction ls generalizing s with
  | nil => exact initial
  | cons l ls ih => exact ih (preserved s l initial along.1) along.2

/-- **Ranking rule.** If no step raises a rank and those whose output counts lower it,
then the rank bounds how many outputs of a run count. -/
theorem run_countP_le (rank : S → Nat) (counts : O → Bool)
    (preserved : ∀ s l, inv s → guard s l → inv (step s l).1)
    (lowers : ∀ s l, inv s → guard s l →
      rank (step s l).1 + (if counts (step s l).2 then 1 else 0) ≤ rank s)
    {s : S} {ls : List L} (initial : inv s) (along : Along step guard s ls) :
    (run step s ls).2.countP counts + rank (run step s ls).1 ≤ rank s := by
  induction ls generalizing s with
  | nil => simp
  | cons l ls ih =>
      have later := ih (preserved s l initial along.1) along.2
      have here := lowers s l initial along.1
      rw [run_cons, List.countP_cons]
      dsimp only
      omega

/-- What is known of the output of every step holds of all outputs of a run. -/
theorem run_outputs {holds : O → Prop}
    (preserved : ∀ s l, inv s → guard s l → inv (step s l).1)
    (gives : ∀ s l, inv s → guard s l → holds (step s l).2)
    {s : S} {ls : List L} (initial : inv s) (along : Along step guard s ls) :
    ∀ o ∈ (run step s ls).2, holds o := by
  induction ls generalizing s with
  | nil => simp
  | cons l ls ih =>
      intro o member
      rcases List.mem_cons.mp member with rfl | later
      · exact gives s l initial along.1
      · exact ih (preserved s l initial along.1) along.2 o later

/-- **Latch rule.** What every step keeps and every step with the output `o` brings about
holds after a run with this output. -/
theorem run_latched (latch : S → Prop) {o : O}
    (preserved : ∀ s l, inv s → guard s l → inv (step s l).1)
    (latches : ∀ s l, inv s → guard s l → latch s ∨ (step s l).2 = o → latch (step s l).1)
    {s : S} {ls : List L} (initial : inv s) (along : Along step guard s ls)
    (seen : o ∈ (run step s ls).2) : latch (run step s ls).1 := by
  induction ls generalizing s with
  | nil => cases seen
  | cons l ls ih =>
      have next := preserved s l initial along.1
      rcases List.mem_cons.mp seen with now | later
      · have held := latches s l initial along.1 (.inr now.symm)
        have kept : ∀ s l, (inv s ∧ latch s) → guard s l →
            inv (step s l).1 ∧ latch (step s l).1 :=
          fun s l both met =>
            ⟨preserved s l both.1 met, latches s l both.1 met (.inl both.2)⟩
        exact (run_invariant kept ⟨next, held⟩ along.2).2
      · exact ih next along.2 later

/-- **History rule.** If every step keeps a relation between the state and the
record, so does every run. -/
theorem run_history {record : G → L → O → G} (rel : S → G → Prop)
    (kept : ∀ s g l, rel s g → rel (step s l).1 (record g l (step s l).2))
    {s : S} {g : G} (initial : rel s g) (ls : List L) :
    rel (run step s ls).1 (history record g ls (run step s ls).2) := by
  induction ls generalizing s g with
  | nil => exact initial
  | cons l ls ih => exact ih (kept s g l initial)

/-- **Simulation rule.** If an abstraction turns every step into a step of the
abstract machine with the same output, it does so with every run. -/
theorem run_simulates {spec : A → L → O → A → Prop} {abs : S → A}
    (simulated : ∀ s l, spec (abs s) l (step s l).2 (abs (step s l).1))
    (s : S) (ls : List L) :
    Related spec (abs s) ls (run step s ls).2 (abs (run step s ls).1) := by
  induction ls generalizing s with
  | nil => exact .nil _
  | cons l ls ih => exact .cons (simulated s l) (ih _)

/-- **Lock-step rule.** If two machines stay related by every step on the same
label, with related outputs, they stay related along every run. -/
theorem run_lockStep {S' O' : Type*} {step' : S' → L → S' × O'} (rel : S → S' → Prop)
    {out : O → O' → Prop}
    (kept : ∀ s s' l, rel s s' → out (step s l).2 (step' s' l).2 ∧ rel (step s l).1 (step' s' l).1)
    {s : S} {s' : S'} (initial : rel s s') (ls : List L) :
    List.Forall₂ out (run step s ls).2 (run step' s' ls).2 ∧
      rel (run step s ls).1 (run step' s' ls).1 := by
  induction ls generalizing s s' with
  | nil => exact ⟨.nil, initial⟩
  | cons l ls ih =>
      obtain ⟨head, next⟩ := kept s s' l initial
      obtain ⟨tail, final⟩ := ih next
      exact ⟨.cons head tail, final⟩

end Runs
