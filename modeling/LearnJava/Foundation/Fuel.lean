import Mathlib.Tactic

/-!
# Computations that may go on forever

A loop or a recursion that need not end is a function of the *fuel* it may use, and gives `none`
when that is not enough.  It *returns* `r` when some fuel is enough for `r`, and *ends* when it
returns anything.  More fuel never changes a result (`Stable`), so that there is at most one
(`Stable.unique`), and a sequence of two computations returns exactly if both do in turn
(`returns_bind_iff`).
-/

namespace LearnJava

namespace Fuel

variable {α β : Type*} {f g : ℕ → Option α} {r r' : α}

/-- Some fuel is enough for the result `r`. -/
def Returns (f : ℕ → Option α) (r : α) : Prop := ∃ fuel, f fuel = some r

/-- Some fuel is enough. -/
def Ends (f : ℕ → Option α) : Prop := ∃ r, Returns f r

/-- More fuel does not change a result. -/
def Stable (f : ℕ → Option α) : Prop := ∀ m n r, m ≤ n → f m = some r → f n = some r

lemma stable_of_succ (h : ∀ n r, f n = some r → f (n + 1) = some r) : Stable f := by
  intro m n r hmn hm
  induction n, hmn using Nat.le_induction with
  | base => exact hm
  | succ n _ ih => exact h n r ih

lemma Stable.unique (hf : Stable f) (h : Returns f r) (h' : Returns f r') : r = r' := by
  obtain ⟨m, hm⟩ := h
  obtain ⟨n, hn⟩ := h'
  have hmax := hf m (max m n) r (le_max_left m n) hm
  rw [hf n (max m n) r' (le_max_right m n) hn] at hmax
  exact (Option.some.inj hmax).symm

/-- A computation that never gets a result does not end. -/
lemma not_ends (h : ∀ n, f n = none) : ¬Ends f := by
  rintro ⟨r, n, hn⟩
  rw [h n] at hn
  cases hn

/-- The first step uses up one unit of fuel. -/
lemma returns_succ_iff (hzero : f 0 = none) (hsucc : ∀ n, f (n + 1) = g n) :
    Returns f r ↔ Returns g r := by
  constructor
  · rintro ⟨n, hn⟩
    cases n with
    | zero =>
        rw [hzero] at hn
        cases hn
    | succ n => exact ⟨n, by rw [← hsucc, hn]⟩
  · rintro ⟨n, hn⟩
    exact ⟨n + 1, by rw [hsucc, hn]⟩

lemma stable_pure (r : α) : Stable fun _ => some r := fun _ _ _ _ h => h

lemma Stable.map (hf : Stable f) (g : α → β) : Stable fun n => (f n).map g := by
  intro m n b hmn hm
  obtain ⟨a, ha, hb⟩ := Option.map_eq_some_iff.mp hm
  exact Option.map_eq_some_iff.mpr ⟨a, hf m n a hmn ha, hb⟩

lemma Returns.map (h : Returns f r) (g : α → β) : Returns (fun n => (f n).map g) (g r) := by
  obtain ⟨n, hn⟩ := h
  exact ⟨n, Option.map_eq_some_iff.mpr ⟨r, hn, rfl⟩⟩

lemma Stable.bind {g : α → ℕ → Option β} (hf : Stable f) (hg : ∀ a, Stable (g a)) :
    Stable fun n => (f n).bind fun a => g a n := by
  intro m n b hmn hm
  obtain ⟨a, ha, hb⟩ := Option.bind_eq_some_iff.mp hm
  exact Option.bind_eq_some_iff.mpr ⟨a, hf m n a hmn ha, hg a m n b hmn hb⟩

/-- **Sequence rule.** -/
theorem returns_bind_iff {g : α → ℕ → Option β} {b : β} (hf : Stable f)
    (hg : ∀ a, Stable (g a)) :
    Returns (fun n => (f n).bind fun a => g a n) b ↔ ∃ a, Returns f a ∧ Returns (g a) b := by
  constructor
  · rintro ⟨n, hn⟩
    obtain ⟨a, ha, hb⟩ := Option.bind_eq_some_iff.mp hn
    exact ⟨a, ⟨n, ha⟩, ⟨n, hb⟩⟩
  · rintro ⟨a, ⟨m, hm⟩, ⟨n, hn⟩⟩
    refine ⟨max m n, Option.bind_eq_some_iff.mpr ⟨a, ?_, ?_⟩⟩
    · exact hf m _ a (le_max_left m n) hm
    · exact hg a n _ b (le_max_right m n) hn

/-- A sequence ends exactly if the rest does, once the first computation returns. -/
lemma ends_bind_iff {g : α → ℕ → Option β} (hf : Stable f) (hg : ∀ a, Stable (g a))
    {a : α} (h : Returns f a) : Ends (fun n => (f n).bind fun a => g a n) ↔ Ends (g a) := by
  refine exists_congr fun b => ?_
  rw [returns_bind_iff hf hg]
  constructor
  · rintro ⟨a', h', hb⟩
    rwa [hf.unique h h']
  · intro hb
    exact ⟨a, h, hb⟩

lemma ends_bind_pure_iff {h : α → β} :
    Ends (fun n => (f n).bind fun a => some (h a)) ↔ Ends f := by
  constructor
  · rintro ⟨b, n, hn⟩
    obtain ⟨a, ha, -⟩ := Option.bind_eq_some_iff.mp hn
    exact ⟨a, n, ha⟩
  · rintro ⟨a, n, hn⟩
    exact ⟨h a, n, Option.bind_eq_some_iff.mpr ⟨a, hn, rfl⟩⟩

/-- A sequence does not get beyond a computation that does not end. -/
lemma not_ends_bind {g : α → ℕ → Option β} (h : ¬Ends f) :
    ¬Ends fun n => (f n).bind fun a => g a n := by
  rintro ⟨b, n, hn⟩
  obtain ⟨a, ha, -⟩ := Option.bind_eq_some_iff.mp hn
  exact h ⟨a, n, ha⟩

end Fuel

end LearnJava
