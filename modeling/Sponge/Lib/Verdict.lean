import Mathlib.Logic.Basic

/-!
# Programs that decide

A program with a state and exceptions can be a decision procedure: it returns if some
property holds, and throws if not. There may be exceptions that excuse it: those it may
throw in any case. It must not return for no reason, whatever happens. `Decides` says this
of a program in a given state, together with what is known if it returns.
-/

namespace Verdict

universe u

variable {ε ε' σ τ α β : Type u}

/-- From the state `s` the program returns only if `holds`, and if `holds` it throws nothing
but an excuse. When it returns, then with a value and a state that are `good`. -/
def Decides (excuse : ε → Prop) (x : EStateM ε σ α) (s : σ) (holds : Prop)
    (good : α → σ → Prop) : Prop :=
  match x.run s with
  | .ok a s' => holds ∧ good a s'
  | .error e _ => holds → excuse e

/-- The state that a program leaves, and what it returns or throws. -/
def outcome (x : EStateM ε σ α) (s : σ) : σ × Except ε α :=
  match x.run s with
  | .ok a s' => (s', .ok a)
  | .error e s' => (s', .error e)

/-- A function of a part of the state, as a program. -/
def part (get : σ → τ) (set : σ → τ → σ) (wrap : ε' → ε) (f : τ → τ × Except ε' α) :
    EStateM ε σ α := fun s =>
  match f (get s) with
  | (t, .ok a) => .ok a (set s t)
  | (t, .error e) => .error (wrap e) (set s t)

variable {excuse : ε → Prop} {holds next : Prop} {x : EStateM ε σ α} {f : α → EStateM ε σ β} {s : σ}
  {good : α → σ → Prop} {after : β → σ → Prop}

theorem decides_pure {a : α} (right : holds) (is : good a s) :
    Decides excuse (pure a : EStateM ε σ α) s holds good := ⟨right, is⟩

theorem decides_throw {e : ε} (wrong : ¬holds) :
    Decides excuse (throw e : EStateM ε σ α) s holds good := fun right => absurd right wrong

theorem decides_modify (excuse : ε → Prop) (change : σ → σ) (s : σ) :
    Decides excuse (modify change : EStateM ε σ PUnit) s True fun _ s' => s' = change s :=
  ⟨trivial, rfl⟩

/-- **Consequence.** -/
theorem Decides.imp {holds' : Prop} {good' : α → σ → Prop} (decides : Decides excuse x s holds good)
    (same : holds' ↔ holds) (weaker : ∀ a s, good a s → good' a s) :
    Decides excuse x s holds' good' := by
  unfold Decides at *
  split at decides
  · exact ⟨same.mpr decides.1, weaker _ _ decides.2⟩
  · exact fun right => decides (same.mp right)

/-- **Sequence.** -/
theorem Decides.bind (first : Decides excuse x s holds good)
    (second : ∀ a s', holds → good a s' → Decides excuse (f a) s' next after) :
    Decides excuse (x >>= f) s (holds ∧ next) after := by
  unfold Decides at first ⊢
  rw [EStateM.run_bind]
  cases ran : x.run s with
  | ok a s' =>
      simp only [ran] at first
      exact (second a s' first.1 first.2).imp (and_iff_right first.1) fun _ _ is => is
  | error e s' =>
      simp only [ran] at first
      exact fun right => first right.1

/-- A program that only returns another value at the end. -/
theorem Decides.bind_pure {g : α → β} (decides : Decides excuse x s holds good)
    (is : ∀ a s, good a s → after (g a) s) :
    Decides excuse (x >>= fun a => pure (g a)) s holds after :=
  (decides.bind fun a s' _ was => decides_pure trivial (is a s' was)).imp
    (iff_of_eq (and_true _)).symm fun _ _ is => is

/-- A program that is preceded by one that does not decide anything. -/
theorem Decides.then (first : Decides excuse x s True good)
    (second : ∀ a s', good a s' → Decides excuse (f a) s' next after) :
    Decides excuse (x >>= f) s next after :=
  (first.bind fun a s' _ was => second a s' was).imp (iff_of_eq (true_and _)).symm
    fun _ _ is => is

/-- The state can be read at any time. -/
theorem decides_get_bind {f : σ → EStateM ε σ β} (rest : Decides excuse (f s) s next after) :
    Decides excuse (get >>= f) s next after := rest

/-- **Test.** -/
theorem decides_ite {c : Prop} [Decidable c] {e : ε} (rest : c → Decides excuse x s next good) :
    Decides excuse (if c then x else throw e) s (c ∧ next) good := by
  by_cases right : c
  · rw [if_pos right]
    exact (rest right).imp (and_iff_right right) fun _ _ is => is
  · rw [if_neg right]
    exact decides_throw fun both => right both.1

theorem run_tryCatch (x : EStateM ε σ α) (handle : ε → EStateM ε σ α) (s : σ) :
    (tryCatch x handle).run s =
      match x.run s with
      | .ok a s' => .ok a s'
      | .error e s' => (handle e).run s' := by
  show EStateM.tryCatch x handle s = _
  unfold EStateM.tryCatch EStateM.run
  cases x s with
  | ok a s' => rfl
  | error e s' => rfl

/-- **Handlers** that throw in any case, and let excuses pass, change nothing. -/
theorem Decides.tryCatch {handle : ε → EStateM ε σ α} (decides : Decides excuse x s holds good)
    (throws : ∀ e s, ∃ e' s', (handle e).run s = .error e' s' ∧ (excuse e → excuse e')) :
    Decides excuse (tryCatch x handle) s holds good := by
  unfold Decides at decides ⊢
  rw [run_tryCatch]
  cases ran : x.run s with
  | ok a s' =>
      simp only [ran] at decides
      exact decides
  | error e s' =>
      simp only [ran] at decides
      obtain ⟨e', s'', threw, excused⟩ := throws e s'
      simp only [threw]
      exact fun right => excused (decides right)

/-- A part that returns. -/
theorem decides_part_ok {get : σ → τ} {set : σ → τ → σ} {wrap : ε' → ε}
    {f : τ → τ × Except ε' α} {t : τ} {a : α} (returned : f (get s) = (t, .ok a)) (right : holds)
    (is : good a (set s t)) : Decides excuse (part get set wrap f) s holds good := by
  unfold Decides EStateM.run part
  rw [returned]
  exact ⟨right, is⟩

/-- A part that throws. -/
theorem decides_part_error {get : σ → τ} {set : σ → τ → σ} {wrap : ε' → ε}
    {f : τ → τ × Except ε' α} {t : τ} {e : ε'} (threw : f (get s) = (t, .error e))
    (why : holds → excuse (wrap e)) : Decides excuse (part get set wrap f) s holds good := by
  unfold Decides EStateM.run part
  rw [threw]
  exact why

/-- What is known when a program that decides has returned. -/
theorem Decides.of_ok (decides : Decides excuse x s holds good) {a : α}
    (returned : (outcome x s).2 = .ok a) : holds ∧ good a (outcome x s).1 := by
  unfold Decides at decides
  unfold Verdict.outcome at returned ⊢
  cases ran : x.run s with
  | ok a' s' =>
      simp only [ran] at decides returned
      cases returned
      exact decides
  | error e s' =>
      simp only [ran] at returned
      cases returned

/-- What is known when it should have returned, and has not. -/
theorem Decides.of_error (decides : Decides excuse x s holds good) (right : holds) {e : ε}
    (threw : (outcome x s).2 = .error e) : excuse e := by
  unfold Decides at decides
  unfold Verdict.outcome at threw
  cases ran : x.run s with
  | ok a s' =>
      simp only [ran] at threw
      cases threw
  | error e' s' =>
      simp only [ran] at decides threw
      cases threw
      exact decides right

theorem outcome_bind_of_ok {s' : σ} {a : α} (ran : outcome x s = (s', .ok a)) :
    outcome (x >>= f) s = outcome (f a) s' := by
  unfold Verdict.outcome at ran ⊢
  rw [EStateM.run_bind]
  cases first : x.run s with
  | ok a' s'' =>
      simp only [first] at ran
      cases ran
      rfl
  | error e s'' =>
      simp only [first] at ran
      cases ran

theorem outcome_bind_of_error {s' : σ} {e : ε} (ran : outcome x s = (s', .error e)) :
    outcome (x >>= f) s = (s', .error e) := by
  unfold Verdict.outcome at ran ⊢
  rw [EStateM.run_bind]
  cases first : x.run s with
  | ok a' s'' =>
      simp only [first] at ran
      cases ran
  | error e' s'' =>
      simp only [first] at ran
      cases ran
      rfl

/-- A program that only returns another value at the end. -/
theorem outcome_bind_pure (x : EStateM ε σ α) (g : α → β) (s : σ) :
    outcome (x >>= fun a => pure (g a)) s = ((outcome x s).1, (outcome x s).2.map g) := by
  rcases ran : outcome x s with ⟨s', e | a⟩
  · exact outcome_bind_of_error ran
  · exact outcome_bind_of_ok ran

/-! ## What a program leaves alone -/

/-- The program does not change what `get` reads from the state, also if it throws. -/
def Keeps (get : σ → τ) (x : EStateM ε σ α) : Prop := ∀ s, get (outcome x s).1 = get s

variable {get : σ → τ}

theorem keeps_pure (a : α) : Keeps get (pure a : EStateM ε σ α) := fun _ => rfl

theorem keeps_throw (e : ε) : Keeps get (throw e : EStateM ε σ α) := fun _ => rfl

theorem keeps_modify {change : σ → σ} (same : ∀ s, get (change s) = get s) :
    Keeps get (modify change : EStateM ε σ PUnit) := same

theorem Keeps.bind (first : Keeps get x) (second : ∀ a, Keeps get (f a)) :
    Keeps get (x >>= f) := by
  intro s
  have here := first s
  rcases ran : outcome x s with ⟨s', e | a⟩
  · rw [ran] at here
    rw [outcome_bind_of_error ran]
    exact here
  · rw [ran] at here
    rw [outcome_bind_of_ok ran]
    exact (second a s').trans here

/-- The state can be read at any time. -/
theorem keeps_get_bind {f : σ → EStateM ε σ β} (rest : ∀ s, Keeps get (f s)) :
    Keeps get (MonadState.get >>= f) := fun s => rest s s

theorem keeps_ite {c : Prop} [Decidable c] {y : EStateM ε σ α} (first : Keeps get x)
    (second : Keeps get y) : Keeps get (if c then x else y) := by
  split
  · exact first
  · exact second

theorem keeps_part {ρ : Type u} {read : σ → ρ} {set : σ → ρ → σ} {wrap : ε' → ε}
    {f : ρ → ρ × Except ε' α} (same : ∀ s t, get (set s t) = get s) :
    Keeps get (part read set wrap f) := by
  intro s
  unfold Verdict.outcome EStateM.run part
  split
  · next ran =>
    split at ran
    · cases ran
      exact same _ _
    · cases ran
  · next ran =>
    split at ran
    · cases ran
    · cases ran
      exact same _ _

end Verdict
