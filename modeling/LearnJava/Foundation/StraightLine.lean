import Mathlib.Tactic

/-!
# Code that is left by the first call that fails

Code that calls its environment — a driver, a device — again and again, and is left with an
exception by the first of the calls that fails.  `fails c` is the exception the environment answers
the call `c` with, if any.

`Makes fails Keeps calls P Q x` says this of the code `x`: from a state with `P` it makes the calls
`calls` in this order, ends with `Q` if none of them fails, and else with the exception of the first
one that does.  What it does in either case lies in the relation `Keeps`.  The rules follow the
code: one call after the other (`bind`), and loops (`forM`).
-/

namespace LearnJava

namespace StraightLine

variable {ε σ κ ι : Type}

/-- The code `x` makes the calls `calls`. -/
def Makes (fails : κ → Option ε) (Keeps : σ → σ → Prop) (calls : List κ) (P Q : σ → Prop)
    (x : EStateM ε σ Unit) : Prop :=
  ∀ s, P s → ∃ s', Keeps s s' ∧
    match calls.findSome? fails with
    | none => x.run s = .ok () s' ∧ Q s'
    | some e => x.run s = .error e s'

variable {fails : κ → Option ε} {Keeps : σ → σ → Prop} {P Q R : σ → Prop}

/-- **Sequence rule.** -/
lemma Makes.bind [IsTrans σ Keeps] {calls calls' : List κ} {x : EStateM ε σ Unit}
    {y : Unit → EStateM ε σ Unit} (hx : Makes fails Keeps calls P Q x)
    (hy : Makes fails Keeps calls' Q R (y ())) :
    Makes fails Keeps (calls ++ calls') P R (x >>= y) := by
  intro s hs
  obtain ⟨s', hkeeps, h⟩ := hx s hs
  rw [List.findSome?_append]
  cases hfirst : calls.findSome? fails with
  | some e =>
      rw [hfirst] at h
      refine ⟨s', hkeeps, ?_⟩
      rw [Option.some_or, EStateM.run_bind, h]
  | none =>
      rw [hfirst] at h
      obtain ⟨s'', hkeeps', h'⟩ := hy s' h.2
      refine ⟨s'', IsTrans.trans _ _ _ hkeeps hkeeps', ?_⟩
      rw [EStateM.run_bind, h.1, Option.none_or]
      exact h'

lemma Makes.pure [Std.Refl Keeps] : Makes fails Keeps [] P P (pure ()) :=
  fun s hs => ⟨s, refl s, rfl, hs⟩

/-- Code that calls nothing. -/
lemma Makes.modify {f : σ → σ} (h : ∀ s, P s → Keeps s (f s) ∧ Q (f s)) :
    Makes fails Keeps [] P Q (modify f) :=
  fun s hs => ⟨f s, (h s hs).1, rfl, (h s hs).2⟩

/-- **Loop rule.**  `I done` is what holds after the passes for `done`. -/
lemma Makes.forM [Std.Refl Keeps] [IsTrans σ Keeps] {calls : ι → List κ}
    {body : ι → EStateM ε σ Unit} {I : List ι → σ → Prop} (is : List ι)
    (hbody : ∀ done i, Makes fails Keeps (calls i) (I done) (I (done ++ [i])) (body i))
    (done : List ι) :
    Makes fails Keeps (is.flatMap calls) (I done) (I (done ++ is)) (is.forM body) := by
  induction is generalizing done with
  | nil => simpa using Makes.pure
  | cons i is ih =>
      have hrest := ih (done ++ [i])
      rw [List.append_assoc, List.singleton_append] at hrest
      rw [List.flatMap_cons]
      exact (hbody done i).bind hrest

end StraightLine

end LearnJava
