import Mathlib.Tactic

/-!
# `java.util.concurrent.CountDownLatch`

The latches that a program creates one after the other, each with its count; a latch is the number
of those created before it.  A latch is open when its count is 0: `await` then returns.  It is
never closed again, and one that was created for one event is opened by it.
-/

namespace LearnJava

/-- A latch. -/
abbrev Latch := ℕ

/-- The counts of the latches, and how many there are. -/
structure Latches where
  count : Latch → ℕ
  created : ℕ

namespace Latches

def empty : Latches := ⟨fun _ => 0, 0⟩

/-- `new CountDownLatch(count)`; the latch is the number of those created so far. -/
def new (h : Latches) (count : ℕ) : Latches :=
  ⟨Function.update h.count h.created count, h.created + 1⟩

/-- `latch.getCount()` -/
def getCount (h : Latches) (latch : Latch) : ℕ := h.count latch

/-- `latch.countDown()` -/
def countDown (h : Latches) (latch : Latch) : Latches :=
  { h with count := Function.update h.count latch (h.count latch - 1) }

/-- `latch.await()` returns. -/
def Open (h : Latches) (latch : Latch) : Prop := h.count latch = 0

instance (h : Latches) (latch : Latch) : Decidable (h.Open latch) :=
  inferInstanceAs (Decidable (_ = _))

/-- Every latch waits for one event. -/
def OneShot (h : Latches) : Prop := ∀ latch, h.count latch ≤ 1

variable {h : Latches} {latch other : Latch}

/-- The latches that are there are not touched by a new one. -/
lemma open_new_iff (count : ℕ) (hlatch : latch < h.created) :
    (h.new count).Open latch ↔ h.Open latch := by
  simp [Open, new, Function.update_of_ne hlatch.ne]

lemma OneShot.new (hh : h.OneShot) : (h.new 1).OneShot := by
  intro latch
  by_cases hlatch : latch = h.created
  · simp [Latches.new, hlatch]
  · simpa [Latches.new, hlatch] using hh latch

lemma Open.countDown (hopen : h.Open latch) : (h.countDown other).Open latch := by
  by_cases hlatch : latch = other
  · subst hlatch
    have hcount : h.count latch = 0 := hopen
    simp [Open, Latches.countDown, hcount]
  · simpa [Open, Latches.countDown, hlatch] using hopen

lemma OneShot.open_countDown (hh : h.OneShot) (latch : Latch) :
    (h.countDown latch).Open latch := by
  simpa [Open, Latches.countDown] using Nat.sub_eq_zero_of_le (hh latch)

lemma OneShot.countDown (hh : h.OneShot) (latch : Latch) : (h.countDown latch).OneShot := by
  intro other
  by_cases hother : other = latch
  · simp [Latches.countDown, hother]
    exact (hh latch).trans (Nat.le_add_left 1 1)
  · simpa [Latches.countDown, hother] using hh other

lemma oneShot_empty : empty.OneShot := fun _ => Nat.zero_le 1

/-! ## What can become of the latches -/

/-- The latches are still there, and those that were open are open. -/
structure Later (h h' : Latches) : Prop where
  created_le : h.created ≤ h'.created
  stillOpen : ∀ latch < h.created, h.Open latch → h'.Open latch

lemma Later.refl (h : Latches) : h.Later h := ⟨le_rfl, fun _ _ hopen => hopen⟩

lemma later_new (h : Latches) (count : ℕ) : h.Later (h.new count) :=
  ⟨Nat.le_succ _, fun _ hlatch hopen => (open_new_iff count hlatch).mpr hopen⟩

lemma later_countDown (h : Latches) (latch : Latch) : h.Later (h.countDown latch) :=
  ⟨le_rfl, fun _ _ hopen => hopen.countDown⟩

end Latches

end LearnJava
