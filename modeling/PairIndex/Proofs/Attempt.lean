import PairIndex.Store.Basic

/-! How attempts run. An attempt gives an outcome and the state it leaves, whether it failed or not. -/

namespace PairIndex.Attempt

variable {σ α β : Type}

@[simp]
theorem outcome_pure (a : α) (s : σ) : Attempt.outcome (pure a) s = (.ok a, s) := rfl

@[simp]
theorem outcome_throw (failure : Failure) (s : σ) :
    Attempt.outcome (throw failure : Attempt σ α) s = (.error failure, s) := rfl

@[simp]
theorem outcome_get (s : σ) : Attempt.outcome (get : Attempt σ σ) s = (.ok s, s) := rfl

@[simp]
theorem outcome_modify (f : σ → σ) (s : σ) : Attempt.outcome (modify f : Attempt σ PUnit) s = (.ok ⟨⟩, f s) := rfl

@[simp]
theorem outcome_ofExcept (result : Except Failure α) (s : σ) :
    Attempt.outcome (MonadExcept.ofExcept result) s = (result, s) := by
  cases result <;> rfl

/-- An attempt whose outcome is handed back as a value does not fail. -/
@[simp]
theorem outcome_lift_run (x : Attempt σ α) (s : σ) :
    Attempt.outcome (ExceptT.lift x.run) s = (.ok (x.outcome s).1, (x.outcome s).2) := rfl

theorem outcome_bind_of_ok {x : Attempt σ α} {s s' : σ} {a : α} (h : x.outcome s = (.ok a, s'))
    (f : α → Attempt σ β) : Attempt.outcome (x >>= f) s = Attempt.outcome (f a) s' := by
  simp only [Attempt.outcome, ExceptT.run_bind, StateT.run_bind] at h ⊢
  simp only [bind, h]

theorem outcome_bind_of_error {x : Attempt σ α} {s s' : σ} {failure : Failure}
    (h : x.outcome s = (.error failure, s')) (f : α → Attempt σ β) :
    Attempt.outcome (x >>= f) s = (.error failure, s') := by
  simp only [Attempt.outcome, ExceptT.run_bind, StateT.run_bind] at h ⊢
  simp only [bind, h]
  rfl

/-- An attempt that went on to `f` went through before, and one that failed failed in either part. -/
theorem outcome_bind (x : Attempt σ α) (f : α → Attempt σ β) (s : σ) :
    Attempt.outcome (x >>= f) s =
      match x.outcome s with
      | (.ok a, s') => Attempt.outcome (f a) s'
      | (.error failure, s') => (.error failure, s') := by
  rcases h : x.outcome s with ⟨failure | a, s'⟩
  · exact outcome_bind_of_error h f
  · exact outcome_bind_of_ok h f

/-- An attempt went through if both of its parts did. -/
theorem outcome_bind_eq_ok_iff {x : Attempt σ α} {f : α → Attempt σ β} {s s' : σ} {b : β} :
    Attempt.outcome (x >>= f) s = (.ok b, s') ↔
      ∃ a s₁, x.outcome s = (.ok a, s₁) ∧ Attempt.outcome (f a) s₁ = (.ok b, s') := by
  rcases h : x.outcome s with ⟨failure | a, s₁⟩
  · simp [outcome_bind_of_error h]
  · rw [outcome_bind_of_ok h]
    constructor
    · exact fun hnext => ⟨a, s₁, rfl, hnext⟩
    · rintro ⟨a', s₁', hsame, hnext⟩
      cases hsame
      exact hnext

theorem exists_of_isOk {x : Attempt σ α} {s : σ} (h : (x.outcome s).1.isOk = true) :
    ∃ a s', x.outcome s = (.ok a, s') := by
  rcases ho : x.outcome s with ⟨failure | a, s'⟩
  · rw [ho] at h
    cases h
  · exact ⟨a, s', rfl⟩

/-- What is made of the outcome of an attempt does not change the state. -/
theorem outcome_bind_pure_snd (x : Attempt σ α) (f : α → β) (s : σ) :
    (Attempt.outcome (x >>= fun a => pure (f a)) s).2 = (x.outcome s).2 := by
  rw [outcome_bind]
  rcases x.outcome s with ⟨failure | a, s'⟩ <;> rfl

theorem outcome_map (f : α → β) (x : Attempt σ α) (s : σ) :
    Attempt.outcome (f <$> x) s = ((x.outcome s).1.map f, (x.outcome s).2) := by
  rw [map_eq_pure_bind, outcome_bind]
  rcases x.outcome s with ⟨failure | a, s'⟩ <;> rfl

end PairIndex.Attempt
