import LearnJava.Foundation.Fuel
import LearnJava.Java.Lang

/-!
# `CountTask`

The task of `forkjoin/task/CountTask.java` sums up the ints from `start` to `end`.  A range that is
short enough is summed up in a loop, and any other one is split at its middle into two tasks of its
own, which are forked and joined.

All arithmetic is that of `int`: the length of a range that is compared, the sum of the two bounds
that is halved, and the counter of the loop.  Both the loop and the recursion take fuel.  What they
add to `sum` is listed by `addedInts`, which follows `compute` call by call.
-/

namespace LearnJava

open Fuel

/-- The fields of `CountTask` that `compute` reads. -/
structure CountTask where
  start : ℤ
  stop : ℤ
  isInt_start : IsInt start
  isInt_stop : IsInt stop

namespace CountTask

def THERE_SHOULD : ℤ := 2

/-- `(end - start) <= THERE_SHOULD` -/
def canCompute (t : CountTask) : Bool := wrap32 (t.stop - t.start) ≤ THERE_SHOULD

lemma canCompute_iff {t : CountTask} : t.canCompute = true ↔ wrap32 (t.stop - t.start) ≤ 2 :=
  decide_eq_true_iff

lemma canCompute_eq_false_iff {t : CountTask} :
    t.canCompute = false ↔ 2 < wrap32 (t.stop - t.start) := by
  rw [← Bool.not_eq_true, canCompute_iff, not_le]

/-- `(start + end) / 2` -/
def middle (t : CountTask) : ℤ := (wrap32 (t.start + t.stop)).tdiv 2

lemma isInt_middle (t : CountTask) : IsInt t.middle := by
  have hsum := isInt_wrap32 (t.start + t.stop)
  have hhalf := tdiv_two_cases (wrap32 (t.start + t.stop))
  unfold IsInt at *
  unfold middle
  omega

/-- `new CountTask(start, middle)` -/
def recursiveTaskOne (t : CountTask) : CountTask where
  start := t.start
  stop := t.middle
  isInt_start := t.isInt_start
  isInt_stop := t.isInt_middle

/-- `new CountTask(middle + 1, end)` -/
def recursiveTaskTwo (t : CountTask) : CountTask where
  start := wrap32 (t.middle + 1)
  stop := t.stop
  isInt_start := isInt_wrap32 _
  isInt_stop := t.isInt_stop

@[simp] lemma recursiveTaskOne_start (t : CountTask) : t.recursiveTaskOne.start = t.start := rfl

@[simp] lemma recursiveTaskOne_stop (t : CountTask) : t.recursiveTaskOne.stop = t.middle := rfl

@[simp] lemma recursiveTaskTwo_start (t : CountTask) :
    t.recursiveTaskTwo.start = wrap32 (t.middle + 1) := rfl

@[simp] lemma recursiveTaskTwo_stop (t : CountTask) : t.recursiveTaskTwo.stop = t.stop := rfl

/-- The loop `for (int i = start; i <= end; i++) sum += i`. -/
def sumFrom : ℕ → ℤ → ℤ → ℤ → Option ℤ
  | 0, _, _, _ => none
  | fuel + 1, i, stop, sum =>
    if i ≤ stop then sumFrom fuel (wrap32 (i + 1)) stop (wrap32 (sum + i)) else some sum

def compute : ℕ → CountTask → Option ℤ
  | 0, _ => none
  | fuel + 1, t =>
    if t.canCompute then
      sumFrom fuel t.start t.stop 0
    else do
      -- both are forked, and `join` waits for the result of each
      let resultOne ← compute fuel t.recursiveTaskOne
      let resultTwo ← compute fuel t.recursiveTaskTwo
      return wrap32 (resultOne + resultTwo)

/-! ## What is added -/

/-- The ints that the loop of a task adds to `sum`. -/
def loopInts : ℕ → ℤ → ℤ → Option (List ℤ)
  | 0, _, _ => none
  | fuel + 1, i, stop =>
    if i ≤ stop then (loopInts fuel (wrap32 (i + 1)) stop).map (i :: ·) else some []

/-- The ints that the loops of `compute` add, those of the first subtask before those of the
second. -/
def addedInts : ℕ → CountTask → Option (List ℤ)
  | 0, _ => none
  | fuel + 1, t =>
    if t.canCompute then
      loopInts fuel t.start t.stop
    else do
      let intsOne ← addedInts fuel t.recursiveTaskOne
      let intsTwo ← addedInts fuel t.recursiveTaskTwo
      return intsOne ++ intsTwo

lemma sumFrom_eq (fuel : ℕ) (i stop sum : ℤ) :
    sumFrom fuel i stop (wrap32 sum) =
      (loopInts fuel i stop).map fun is => wrap32 (sum + is.sum) := by
  induction fuel generalizing i sum with
  | zero => rfl
  | succ fuel ih =>
      rw [sumFrom, loopInts]
      split_ifs
      · rw [wrap32_wrap32_add, ih, Option.map_map]
        simp [Function.comp_def, add_assoc]
      · simp

/-- **The result is the sum of what is added**, as an `int`. -/
lemma compute_eq (fuel : ℕ) (t : CountTask) :
    compute fuel t = (addedInts fuel t).map fun is => wrap32 is.sum := by
  induction fuel generalizing t with
  | zero => rfl
  | succ fuel ih =>
      rw [compute, addedInts]
      split_ifs
      · simpa using sumFrom_eq fuel t.start t.stop 0
      · rw [ih, ih]
        cases addedInts fuel t.recursiveTaskOne <;> cases addedInts fuel t.recursiveTaskTwo <;>
          simp

lemma stable_loopInts (i stop : ℤ) : Stable fun n => loopInts n i stop := by
  apply stable_of_succ
  intro n is
  induction n generalizing i is with
  | zero => simp [loopInts]
  | succ n ih =>
      rw [loopInts, loopInts]
      split_ifs
      · intro h
        obtain ⟨rest, hrest, rfl⟩ := Option.map_eq_some_iff.mp h
        exact Option.map_eq_some_iff.mpr ⟨rest, ih _ _ hrest, rfl⟩
      · exact id

lemma stable_addedInts (t : CountTask) : Stable fun n => addedInts n t := by
  apply stable_of_succ
  intro n is
  induction n generalizing t is with
  | zero => simp [addedInts]
  | succ n ih =>
      rw [addedInts, addedInts]
      split_ifs
      · exact stable_loopInts _ _ n (n + 1) is n.le_succ
      · intro h
        obtain ⟨intsOne, hone, h⟩ := Option.bind_eq_some_iff.mp h
        obtain ⟨intsTwo, htwo, h⟩ := Option.bind_eq_some_iff.mp h
        refine Option.bind_eq_some_iff.mpr ⟨intsOne, ih _ _ hone, ?_⟩
        exact Option.bind_eq_some_iff.mpr ⟨intsTwo, ih _ _ htwo, h⟩

lemma returns_iff {t : CountTask} {r : ℤ} : Returns (fun n => compute n t) r ↔
    ∃ is, Returns (fun n => addedInts n t) is ∧ wrap32 is.sum = r := by
  constructor
  · rintro ⟨n, hn⟩
    simp only [compute_eq] at hn
    obtain ⟨is, his, hr⟩ := Option.map_eq_some_iff.mp hn
    exact ⟨is, ⟨n, his⟩, hr⟩
  · rintro ⟨is, ⟨n, hn⟩, hr⟩
    refine ⟨n, ?_⟩
    simp only [compute_eq]
    exact Option.map_eq_some_iff.mpr ⟨is, hn, hr⟩

/-- A task that is not split. -/
lemma addedInts_leaf {t : CountTask} (h : t.canCompute = true) {is : List ℤ}
    (his : Returns (fun n => loopInts n t.start t.stop) is) :
    Returns (fun n => addedInts n t) is :=
  (returns_succ_iff rfl fun n => by rw [addedInts, if_pos h]).mpr his

/-- A task that is split. -/
lemma addedInts_split {t : CountTask} (h : t.canCompute = false) {is₁ is₂ : List ℤ}
    (h₁ : Returns (fun n => addedInts n t.recursiveTaskOne) is₁)
    (h₂ : Returns (fun n => addedInts n t.recursiveTaskTwo) is₂) :
    Returns (fun n => addedInts n t) (is₁ ++ is₂) := by
  obtain ⟨m, hm⟩ := h₁
  obtain ⟨n, hn⟩ := h₂
  refine ⟨max m n + 1, ?_⟩
  have hone := stable_addedInts _ m (max m n) is₁ (le_max_left m n) hm
  have htwo := stable_addedInts _ n (max m n) is₂ (le_max_right m n) hn
  change addedInts (max m n + 1) t = _
  rw [addedInts, if_neg (by simp [h])]
  simp only at hone htwo
  rw [hone, htwo]
  rfl

end CountTask

end LearnJava
