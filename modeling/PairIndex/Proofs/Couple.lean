import PairIndex.Crawl.World
import PairIndex.Proofs.Attempt

/-! Two attempts side by side. Attempts are coupled by a relation of states if from related states they fail in the same way
or give values that match, and leave related states in either case. Couplings compose as attempts do, so that what two runs
have in common is told step by step. -/

namespace PairIndex.Attempt

/-- Outcomes that are the same failure, or values that stand in a relation. -/
inductive Matches {α β : Type} (V : α → β → Prop) : Except Failure α → Except Failure β → Prop where
  | ok {a : α} {b : β} : V a b → Matches V (.ok a) (.ok b)
  | error (failure : Failure) : Matches V (.error failure) (.error failure)

theorem Matches.eq {α : Type} {a b : Except Failure α} (h : Matches Eq a b) : a = b := by
  cases h with
  | ok h => rw [h]
  | error failure => rfl

theorem Matches.refl {α : Type} (outcome : Except Failure α) : Matches Eq outcome outcome := by
  cases outcome with
  | ok a => exact .ok rfl
  | error failure => exact .error failure

/-- From related states both attempts fail in the same way, or give values that match, and leave related states. -/
def Coupled {σ τ α β : Type} (R : σ → τ → Prop) (V : α → β → Prop) (x : Attempt σ α) (y : Attempt τ β) : Prop :=
  ∀ s t, R s t → Matches V (x.outcome s).1 (y.outcome t).1 ∧ R (x.outcome s).2 (y.outcome t).2

namespace Coupled

variable {σ τ α β γ δ : Type} {R : σ → τ → Prop} {V : α → β → Prop} {W : γ → δ → Prop}

theorem pure {a : α} {b : β} (h : V a b) : Coupled R V (Pure.pure a) (Pure.pure b) :=
  fun _ _ hr => ⟨.ok h, hr⟩

theorem throw (failure : Failure) : Coupled R V (MonadExcept.throw failure) (MonadExcept.throw failure) :=
  fun _ _ hr => ⟨.error failure, hr⟩

theorem get : Coupled R R MonadState.get MonadState.get :=
  fun _ _ hr => ⟨.ok hr, hr⟩

theorem change {f : σ → σ} {g : τ → τ} (h : ∀ s t, R s t → R (f s) (g t)) :
    Coupled R Eq (modify f : Attempt σ PUnit) (modify g : Attempt τ PUnit) :=
  fun s t hr => ⟨.ok rfl, h s t hr⟩

theorem bind {x : Attempt σ α} {y : Attempt τ β} {f : α → Attempt σ γ} {g : β → Attempt τ δ} (h : Coupled R V x y)
    (hnext : ∀ a b, V a b → Coupled R W (f a) (g b)) : Coupled R W (x >>= f) (y >>= g) := by
  intro s t hr
  obtain ⟨hmatches, hr'⟩ := h s t hr
  rw [outcome_bind, outcome_bind]
  rcases hx : x.outcome s with ⟨result, s'⟩
  rcases hy : y.outcome t with ⟨result', t'⟩
  rw [hx, hy] at hmatches hr'
  cases hmatches with
  | ok hv => exact hnext _ _ hv s' t' hr'
  | error failure => exact ⟨.error failure, hr'⟩

/-- Equal values need not be told apart. -/
theorem bind_eq {x : Attempt σ α} {y : Attempt τ α} {f : α → Attempt σ γ} {g : α → Attempt τ δ} (h : Coupled R Eq x y)
    (hnext : ∀ a, Coupled R W (f a) (g a)) : Coupled R W (x >>= f) (y >>= g) :=
  h.bind fun a _ heq => heq ▸ hnext a

theorem settle_eq {x : Attempt σ α} {y : Attempt τ α} (h : Coupled R Eq x y) : Coupled R Eq x.settle y.settle := by
  intro s t hr
  obtain ⟨hmatches, hr'⟩ := h s t hr
  exact ⟨.ok hmatches.eq, hr'⟩

/-- With one run on both sides, a coupling tells what an attempt preserves. -/
theorem preserved_iff {P : σ → Prop} {U : α → α → Prop} (hrefl : ∀ a, U a a) {x : Attempt σ α} :
    Coupled (fun s t => t = s ∧ P s) U x x ↔ ∀ s, P s → P (x.outcome s).2 := by
  constructor
  · exact fun h s hp => (h s s ⟨rfl, hp⟩).2.2
  · rintro h s t ⟨rfl, hp⟩
    refine ⟨?_, rfl, h t hp⟩
    cases (x.outcome t).1 with
    | ok a => exact .ok (hrefl a)
    | error failure => exact .error failure

end Coupled
end PairIndex.Attempt
