import Mathlib.Tactic

/-!
# Objects that are called one call after the other

An object used by one thread at a time is a function `call`: a state and a call give a reply and
the next state.  A sequence of calls has the replies `replies`, and `Along` says that each of its
calls is made in a state that meets a condition.

`simulates` is the rule for two objects that are to be told apart by no sequence of calls: a
relation between their states that every call keeps, with the same reply from both.  `along_iff` is
the rule for a property of single calls that a condition on the state before the call
characterises.
-/

namespace LearnJava

namespace Calls

variable {σ τ ι ρ : Type*}

/-- The replies to a sequence of calls. -/
def replies (call : σ → ι → ρ × σ) : σ → List ι → List ρ
  | _, [] => []
  | s, i :: is => (call s i).1 :: replies call (call s i).2 is

/-- The state after a sequence of calls. -/
def final (call : σ → ι → ρ × σ) : σ → List ι → σ
  | s, [] => s
  | s, i :: is => final call (call s i).2 is

/-- Every call is made in a state that meets `C`. -/
def Along (call : σ → ι → ρ × σ) (C : σ → ι → Prop) : σ → List ι → Prop
  | _, [] => True
  | s, i :: is => C s i ∧ Along call C (call s i).2 is

variable {f : σ → ι → ρ × σ} {g : τ → ι → ρ × τ} {C : σ → ι → Prop}

instance [h : ∀ s i, Decidable (C s i)] : ∀ s is, Decidable (Along f C s is)
  | _, [] => .isTrue trivial
  | s, i :: is =>
    have := instDecidableAlong (f s i).2 is
    inferInstanceAs (Decidable (C s i ∧ Along f C (f s i).2 is))

/-- A condition on the calls alone. -/
lemma Along.and_of_mem {D : ι → Prop} {s : σ} {is : List ι} (h : Along f C s is)
    (hD : ∀ i ∈ is, D i) : Along f (fun s i => C s i ∧ D i) s is := by
  induction is generalizing s with
  | nil => exact trivial
  | cons i is ih =>
      exact ⟨⟨h.1, hD i List.mem_cons_self⟩, ih h.2 fun j hj => hD j (List.mem_cons_of_mem i hj)⟩

/-- **Characterisation rule.**  Let calls that meet `C` preserve `I`, and let a call made in a state
with `I` have the property `P` exactly when it meets `C`.  Then all calls of a sequence have `P`
exactly when they all meet `C`. -/
theorem along_iff {I : σ → Prop} {P : σ → ι → Prop} (hstep : ∀ s i, I s → C s i → I (f s i).2)
    (hiff : ∀ s i, I s → (P s i ↔ C s i)) {s : σ} {is : List ι} (h : I s) :
    Along f P s is ↔ Along f C s is := by
  induction is generalizing s with
  | nil => rfl
  | cons i is ih =>
      rw [Along, Along, hiff s i h]
      exact and_congr_right fun hC => ih (hstep s i h hC)

/-- **Simulation rule.**  If calls that meet `C` keep the relation `R` and get the same reply from
both objects, then so does every sequence of such calls. -/
theorem simulates {R : σ → τ → Prop}
    (hstep : ∀ s t i, R s t → C s i → (f s i).1 = (g t i).1 ∧ R (f s i).2 (g t i).2)
    {s : σ} {t : τ} {is : List ι} (h : R s t) (hC : Along f C s is) :
    replies f s is = replies g t is ∧ R (final f s is) (final g t is) := by
  induction is generalizing s t with
  | nil => exact ⟨rfl, h⟩
  | cons i is ih =>
      obtain ⟨hreply, hnext⟩ := hstep s t i h hC.1
      obtain ⟨hreplies, hfinal⟩ := ih hnext hC.2
      exact ⟨by rw [replies, replies, hreply, hreplies], hfinal⟩

end Calls

end LearnJava
