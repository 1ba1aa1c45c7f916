import Mathlib.Tactic

/-!
# What code guarantees however it ends

Code that calls other code, which may do anything within its own guarantees and may throw.
`Guarantees R x s Q` says of the code `x`, started in `s`, that it ends in a state which `R`
relates to `s`, whether it returns or throws, and that `Q` holds of what it returns.  `R` is a
preorder, so that the guarantees of two pieces of code add up (`Guarantees.bind`).
-/

namespace LearnJava

variable {ε σ α β : Type}

/-- Every end of `x` is related to its start by `R`, and a normal one has `Q`. -/
structure Guarantees (R : σ → σ → Prop) (x : EStateM ε σ α) (s : σ) (Q : α → σ → Prop) : Prop where
  returns : ∀ {a s'}, x.run s = .ok a s' → R s s' ∧ Q a s'
  throws : ∀ {e s'}, x.run s = .error e s' → R s s'

namespace Guarantees

variable {R : σ → σ → Prop} {x : EStateM ε σ α} {s : σ} {Q : α → σ → Prop}

/-- **Sequence rule.** -/
lemma bind [IsTrans σ R] {y : α → EStateM ε σ β} {S : β → σ → Prop}
    (hx : Guarantees R x s Q) (hy : ∀ a s', R s s' → Q a s' → Guarantees R (y a) s' S) :
    Guarantees R (x >>= y) s S := by
  cases hfirst : x.run s with
  | ok a s₁ =>
      obtain ⟨hR, hQ⟩ := hx.returns hfirst
      have hrest := hy a s₁ hR hQ
      constructor
      · intro b s' h
        rw [EStateM.run_bind, hfirst] at h
        obtain ⟨hR', hS⟩ := hrest.returns h
        exact ⟨IsTrans.trans _ _ _ hR hR', hS⟩
      · intro e s' h
        rw [EStateM.run_bind, hfirst] at h
        exact IsTrans.trans _ _ _ hR (hrest.throws h)
  | error e s₁ =>
      constructor
      · intro b s' h
        rw [EStateM.run_bind, hfirst] at h
        cases h
      · intro e' s' h
        rw [EStateM.run_bind, hfirst] at h
        obtain ⟨-, rfl⟩ := EStateM.Result.error.inj h
        exact hx.throws hfirst

/-- Code that runs as other code does from this state. -/
lemma of_run_eq {y : EStateM ε σ α} (h : x.run s = y.run s) (hy : Guarantees R y s Q) :
    Guarantees R x s Q where
  returns hrun := hy.returns (h ▸ hrun)
  throws hrun := hy.throws (h ▸ hrun)

/-- Code that returns from this state. -/
lemma of_run_ok {a : α} {s' : σ} (h : x.run s = .ok a s') (hR : R s s') (hQ : Q a s') :
    Guarantees R x s Q where
  returns hrun := by
    rw [h] at hrun
    obtain ⟨rfl, rfl⟩ := EStateM.Result.ok.inj hrun
    exact ⟨hR, hQ⟩
  throws hrun := by
    rw [h] at hrun
    cases hrun

/-- Code that throws from this state. -/
lemma of_run_error {e : ε} {s' : σ} (h : x.run s = .error e s') (hR : R s s') :
    Guarantees R x s Q where
  returns hrun := by
    rw [h] at hrun
    cases hrun
  throws hrun := by
    rw [h] at hrun
    obtain ⟨-, rfl⟩ := EStateM.Result.error.inj hrun
    exact hR

end Guarantees

end LearnJava
