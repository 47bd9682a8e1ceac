import Mathlib.Data.List.Basic

/-!
# Reliable channels

A channel takes items in at one end and gives them out at the other one, in their
order. Next to what is on its way it remembers all that was put in and all that
was taken out. The end that puts in can finish, and the end that takes out can
stop listening. `Step` lists what can happen to a channel; a system refines a
channel if whatever it does is a step of it.
-/

/-- A channel for items of type `α`. -/
structure Channel (α : Type*) where
  sent : List α
  queue : List α
  received : List α
  finished : Bool
  deaf : Bool

namespace Channel

variable {α : Type*} {c c' : Channel α}

/-- What can happen to a channel. -/
inductive Step : Channel α → Channel α → Prop
  | idle (c : Channel α) : Step c c
  | put {c : Channel α} (items : List α) (going : items ≠ [] → c.finished = false) :
      Step c { c with sent := c.sent ++ items, queue := c.queue ++ items }
  | take {c : Channel α} (n : Nat) :
      Step c { c with queue := c.queue.drop n, received := c.received ++ c.queue.take n }
  | finish (c : Channel α) : Step c { c with finished := true }
  | stop (c : Channel α) : Step c { c with deaf := true }

theorem eq_nil_of_finished {items : List α} (going : items ≠ [] → c.finished = false)
    (finished : c.finished = true) : items = [] := by
  by_contra some
  rw [going some] at finished
  cases finished

/-- Nothing is lost, doubled or out of order. -/
def Conserved (c : Channel α) : Prop := c.received ++ c.queue = c.sent

/-- Nothing is on its way, and nothing will be. -/
def Exhausted (c : Channel α) : Prop := c.finished = true ∧ c.queue = []

theorem Step.conserved (step : Step c c') (conserved : c.Conserved) : c'.Conserved := by
  unfold Conserved at conserved ⊢
  cases step with
  | idle => exact conserved
  | put items going =>
      dsimp only
      rw [← List.append_assoc, conserved]
  | take n =>
      dsimp only
      rw [List.append_assoc, List.take_append_drop, conserved]
  | finish => exact conserved
  | stop => exact conserved

/-- An exhausted channel stays as it is, but for the end that listens. -/
theorem Step.exhausted (step : Step c c') (exhausted : c.Exhausted) :
    c'.Exhausted ∧ c'.sent = c.sent ∧ c'.received = c.received := by
  obtain ⟨finished, empty⟩ := exhausted
  cases step with
  | idle => exact ⟨⟨finished, empty⟩, rfl, rfl⟩
  | put items going =>
      obtain rfl := eq_nil_of_finished going finished
      simp [Exhausted, finished, empty]
  | take n => simp [Exhausted, finished, empty]
  | finish => exact ⟨⟨rfl, empty⟩, rfl, rfl⟩
  | stop => exact ⟨⟨finished, empty⟩, rfl, rfl⟩

theorem Step.finished (step : Step c c') (finished : c.finished = true) :
    c'.finished = true := by
  cases step with
  | finish => rfl
  | _ => exact finished

/-- Behind a finished end, the queue only gets shorter. -/
theorem Step.queue_length_le (step : Step c c') (finished : c.finished = true) :
    c'.queue.length ≤ c.queue.length := by
  cases step with
  | put items going =>
      obtain rfl := eq_nil_of_finished going finished
      simp
  | take n => simp
  | _ => exact Nat.le_refl _

theorem Step.sent_eq (step : Step c c') (finished : c.finished = true) : c'.sent = c.sent := by
  cases step with
  | put items going =>
      obtain rfl := eq_nil_of_finished going finished
      simp
  | _ => rfl

theorem Step.deaf (step : Step c c') (deaf : c.deaf = true) : c'.deaf = true := by
  cases step with
  | stop => rfl
  | _ => exact deaf

/-- What was taken out of an exhausted channel is all that was put in. -/
theorem Conserved.received_eq (conserved : c.Conserved) (exhausted : c.Exhausted) :
    c.received = c.sent := by
  unfold Conserved at conserved
  rwa [exhausted.2, List.append_nil] at conserved

end Channel
