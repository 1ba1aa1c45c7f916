import LearnJava.Foundation.Fuel

/-!
# Loops that pass a state on

One pass of a loop goes on with a new state, leaves the loop with a result, or ends it with an
error.  `run pass s` is the loop from the state `s`, a computation that may go on forever
(`LearnJava/Foundation/Fuel.lean`): it returns a result, or an error.

`returns_of_variant` is the rule for loops that end: an invariant, a variant that every pass lowers,
and what holds of a result or an error when the loop is left.  There is only one result
(`stable_run`), so that the rule also tells which one it is.
-/

namespace LearnJava

namespace Loop

open Fuel (Returns Stable)

variable {σ ρ ε : Type*} {pass : σ → Except ε (σ ⊕ ρ)} {s s' : σ} {r : ρ} {e : ε}

/-- The loop from a state on. -/
def run (pass : σ → Except ε (σ ⊕ ρ)) : σ → ℕ → Option (Except ε ρ)
  | _, 0 => none
  | s, fuel + 1 =>
    match pass s with
    | .error e => some (.error e)
    | .ok (.inr r) => some (.ok r)
    | .ok (.inl s') => run pass s' fuel

lemma stable_run (pass : σ → Except ε (σ ⊕ ρ)) (s : σ) : Stable (run pass s) := by
  refine Fuel.stable_of_succ fun n r h => ?_
  induction n generalizing s with
  | zero => cases h
  | succ n ih =>
      rw [run] at h ⊢
      cases hpass : pass s with
      | error e =>
          rw [hpass] at h
          exact h
      | ok next =>
          rw [hpass] at h
          cases next with
          | inl s' => exact ih s' h
          | inr r' => exact h

lemma returns_of_leave (h : pass s = .ok (.inr r)) : Returns (run pass s) (.ok r) :=
  ⟨1, by rw [run, h]⟩

lemma returns_of_error (h : pass s = .error e) : Returns (run pass s) (.error e) :=
  ⟨1, by rw [run, h]⟩

/-- A pass that goes on. -/
lemma returns_of_goOn {x : Except ε ρ} (h : pass s = .ok (.inl s'))
    (hrest : Returns (run pass s') x) : Returns (run pass s) x := by
  obtain ⟨n, hn⟩ := hrest
  exact ⟨n + 1, by rw [run, h, ← hn]⟩

/-- What holds when a pass ends the loop, and of the state it goes on with otherwise. -/
def Ensures (Q : Except ε ρ → Prop) (I : σ → Prop) : Except ε (σ ⊕ ρ) → Prop
  | .error e => Q (.error e)
  | .ok (.inr r) => Q (.ok r)
  | .ok (.inl s') => I s'

/-- **Variant rule.**  Every pass from a state of the invariant ends the loop with `Q`, or goes on
with a state of the invariant and a lower variant.  Then the loop ends, with `Q`. -/
theorem returns_of_variant {I : σ → Prop} {Q : Except ε ρ → Prop} (variant : σ → ℕ)
    (hpass : ∀ s, I s → Ensures Q (fun s' => I s' ∧ variant s' < variant s) (pass s))
    (s : σ) (h : I s) : ∃ x, Returns (run pass s) x ∧ Q x := by
  generalize hn : variant s = n
  induction n using Nat.strong_induction_on generalizing s with
  | _ n ih =>
      have hs := hpass s h
      cases hnext : pass s with
      | error e =>
          rw [hnext] at hs
          exact ⟨.error e, returns_of_error hnext, hs⟩
      | ok next =>
          rw [hnext] at hs
          cases next with
          | inr r => exact ⟨.ok r, returns_of_leave hnext, hs⟩
          | inl s' =>
              obtain ⟨x, hreturns, hx⟩ := ih (variant s') (hn ▸ hs.2) s' hs.1 rfl
              exact ⟨x, returns_of_goOn hnext hreturns, hx⟩

end Loop

end LearnJava
