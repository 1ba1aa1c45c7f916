import LearnJava.CyclicBarrier.CountHelper

/-!
# What `count` returns, and when

`count` returns the sum of all ten ints, in every interleaving and whoever is interrupted: the
barrier's action begins when both threads have added up their ints, it runs once, and it opens the
latch after it has written the sum.  `Stage` says where the two threads can be together.

Every run is finite.  Once no thread can go on, `count` has returned, unless it was interrupted
itself or one of its threads was: that breaks the barrier, and `count` waits for good.
-/

namespace LearnJava

namespace CountHelper

/-! ## Sums -/

/-- The sum of a `CountRunnable` after `i` passes of its loop. -/
def partialSum (start : ℤ) (i : ℕ) : ℤ := wrap32 (∑ j ∈ Finset.range i, (start + j))

/-- The passes a `CountRunnable` has made. -/
def Phase.passes : Phase → ℕ
  | .counting i => i
  | _ => 5

/-- What the barrier's action has added up before `countRunnables[i]`. -/
def mergedSum (start : Duo → ℤ) (i : ℕ) : ℤ :=
  (countRunnables.take i).foldl (fun localSum u => wrap32 (localSum + partialSum (start u) 5)) 0

/-- The sum of all ints. -/
def total (start : Duo → ℤ) : ℤ := mergedSum start 2

lemma partialSum_succ (start : ℤ) (i : ℕ) :
    wrap32 (partialSum start i + wrap32 (start + i)) = partialSum start (i + 1) := by
  rw [partialSum, partialSum, Finset.sum_range_succ, wrap32_add_wrap32, wrap32_wrap32_add]

lemma mergedSum_succ {start : Duo → ℤ} {i : ℕ} {u : Duo} (h : countRunnables[i]? = some u) :
    wrap32 (mergedSum start i + partialSum (start u) 5) = mergedSum start (i + 1) := by
  obtain ⟨hi, hu⟩ := List.getElem?_eq_some_iff.mp h
  rw [mergedSum, mergedSum, ← List.take_concat_get' _ _ hi, List.foldl_append, hu]
  rfl

lemma total_starts (startA startB : ℤ) :
    total (starts startA startB) = wrap32 (5 * startA + 5 * startB + 20) := by
  have hfive : ∀ start, partialSum start 5 = wrap32 (5 * start + 10) := by
    intro start
    simp only [partialSum, Finset.sum_range_succ, Finset.range_zero, Finset.sum_empty]
    congr 1
    push_cast
    ring
  have hmerged : total (starts startA startB) =
      wrap32 (wrap32 (0 + partialSum startA 5) + partialSum startB 5) := rfl
  rw [hmerged, hfive, hfive, zero_add, wrap32_add_wrap32, wrap32_wrap32_add, wrap32_wrap32_add]
  congr 1
  ring

/-- Each `CountRunnable` has added up the ints of the passes it has made. -/
def Sums (start : Duo → ℤ) (s : State) : Prop :=
  ∀ t, (s.counter t).phase.passes ≤ 5 ∧
    (s.counter t).sum = partialSum (start t) (s.counter t).phase.passes

section Counters

variable {start : Duo → ℤ} {s s' : State} {t u : Duo}

/-- A step of one thread leaves the other one alone. -/
lemma Effect.counter_of_ne (h : Effect start s t s') (hu : u ≠ t) :
    s'.counter u = s.counter u := by
  cases h <;> exact Function.update_of_ne hu _ _

lemma Effect.main_eq (h : Effect start s t s') :
    s'.main = s.main ∧ s'.mainInterrupted = s.mainInterrupted := by
  cases h <;> exact ⟨rfl, rfl⟩

lemma Effect.sums (hs : Sums start s) (h : Effect start s t s') : Sums start s' := by
  intro u
  by_cases hu : u = t
  · subst hu
    obtain ⟨hle, hsum⟩ := hs u
    cases h with
    | counted hphase hi =>
        rw [hphase] at hsum
        simp only [Function.update_self, Phase.passes, hsum, partialSum_succ, and_true]
        exact hi
    | @arrived i hphase hi =>
        rw [hphase] at hsum hle
        obtain rfl : i = 5 := by
          simp only [Phase.passes] at hle
          omega
        simpa [State.goTo, Phase.passes] using hsum
    | failed hphase | isLast hphase | waits hphase | released hphase | gaveUp hphase
    | merged hphase | mergedAll hphase | published hphase | opened hphase | tripped hphase =>
        rw [hphase] at hsum
        simpa [State.goTo, State.throwIn, Phase.passes] using hsum
  · rw [h.counter_of_ne hu]
    exact hs u

end Counters

/-! ## Where the two threads can be together -/

/-- The thread has not come to the barrier. -/
def Phase.IsBefore : Phase → Prop
  | .counting _ | .arriving => True
  | _ => False

/-- Where the barrier's action is, with what it has written. -/
def Acts (start : Duo → ℤ) (s : State) : Phase → Prop
  | .merging i localSum => localSum = mergedSum start i ∧ i ≤ 2 ∧ s.sum = 0 ∧ s.countDownLatch = 1
  | .publishing localSum => localSum = total start ∧ s.countDownLatch = 1
  | .opening => s.sum = total start ∧ s.countDownLatch = 1
  | .tripping => s.sum = total start ∧ s.countDownLatch = 0
  | _ => False

/-- The stages of a run. -/
inductive Stage (start : Duo → ℤ) (s : State) : Prop
  | counting (hbarrier : s.cyclicBarrier = .new 2) (hlocked : s.locked = false) (hsum : s.sum = 0)
      (hlatch : s.countDownLatch = 1) (hphases : ∀ t, (s.counter t).phase.IsBefore)
  | oneWaits (t : Duo) (hbarrier : s.cyclicBarrier = ⟨2, 1, 0, false⟩) (hlocked : s.locked = false)
      (hsum : s.sum = 0) (hlatch : s.countDownLatch = 1) (ht : (s.counter t).phase = .waiting 0)
      (hothers : ∀ u, u ≠ t → (s.counter u).phase.IsBefore)
  | acting (t : Duo) (hbarrier : s.cyclicBarrier = ⟨2, 0, 0, false⟩) (hlocked : s.locked = true)
      (ht : Acts start s (s.counter t).phase)
      (hothers : ∀ u, u ≠ t → (s.counter u).phase = .waiting 0)
  | tripped (hbarrier : s.cyclicBarrier = ⟨2, 2, 1, false⟩) (hlocked : s.locked = false)
      (hsum : s.sum = total start) (hlatch : s.countDownLatch = 0)
      (hphases : ∀ t, (s.counter t).phase = .waiting 0 ∨ (s.counter t).phase = .ended none)
  | broken (hbarrier : s.cyclicBarrier = ⟨2, 2, 0, true⟩) (hlocked : s.locked = false)
      (hlatch : s.countDownLatch = 1)
      (hphases : ∀ t, (s.counter t).phase.IsBefore ∨ (s.counter t).phase = .waiting 0 ∨
        ∃ e, (s.counter t).phase = .ended (some e))

section Stages

variable {start : Duo → ℤ} {s s' : State} {t u : Duo}

/-- The latch is opened after the sum was written. -/
lemma Stage.sum_eq (h : Stage start s) (hopen : s.countDownLatch = 0) : s.sum = total start := by
  cases h with
  | counting _ _ _ hlatch | oneWaits _ _ _ _ hlatch | broken _ _ hlatch =>
      rw [hlatch] at hopen
      cases hopen
  | tripped _ _ hsum => exact hsum
  | acting t _ _ ht =>
      cases hphase : (s.counter t).phase <;> rw [hphase] at ht <;> simp only [Acts] at ht <;> omega

/-- What an interrupt or a step of `count` leaves alone. -/
lemma Stage.congr (h : Stage start s) (hbarrier : s'.cyclicBarrier = s.cyclicBarrier)
    (hlocked : s'.locked = s.locked) (hsum : s'.sum = s.sum)
    (hlatch : s'.countDownLatch = s.countDownLatch)
    (hphases : ∀ t, (s'.counter t).phase = (s.counter t).phase) : Stage start s' := by
  have hacts : ∀ p, Acts start s' p ↔ Acts start s p := by
    intro p
    cases p <;> simp only [Acts, hsum, hlatch]
  cases h with
  | counting h₁ h₂ h₃ h₄ h₅ =>
      exact .counting (hbarrier.trans h₁) (hlocked.trans h₂) (hsum.trans h₃) (hlatch.trans h₄)
        fun t => hphases t ▸ h₅ t
  | oneWaits t h₁ h₂ h₃ h₄ h₅ h₆ =>
      exact .oneWaits t (hbarrier.trans h₁) (hlocked.trans h₂) (hsum.trans h₃) (hlatch.trans h₄)
        ((hphases t).trans h₅) fun u hu => hphases u ▸ h₆ u hu
  | acting t h₁ h₂ h₃ h₄ =>
      exact .acting t (hbarrier.trans h₁) (hlocked.trans h₂) ((hacts _).mpr (hphases t ▸ h₃))
        fun u hu => (hphases u).trans (h₄ u hu)
  | tripped h₁ h₂ h₃ h₄ h₅ =>
      exact .tripped (hbarrier.trans h₁) (hlocked.trans h₂) (hsum.trans h₃) (hlatch.trans h₄)
        fun t => hphases t ▸ h₅ t
  | broken h₁ h₂ h₃ h₄ =>
      exact .broken (hbarrier.trans h₁) (hlocked.trans h₂) (hlatch.trans h₃)
        fun t => hphases t ▸ h₄ t

/-- Before the barrier, and broken or not, a thread has five passes behind it when it arrives. -/
lemma Sums.sum_eq (hs : Sums start s) (h : (s.counter t).phase.passes = 5) :
    (s.counter t).sum = partialSum (start t) 5 := h ▸ (hs t).2

/-- A thread that throws leaves the barrier broken. -/
lemma Stage.throwIn {e : AwaitException} {b : CyclicBarrier} (hb : b = ⟨2, 2, 0, true⟩)
    (hlocked : s.locked = false) (hlatch : s.countDownLatch = 1)
    (hothers : ∀ u, u ≠ t → (s.counter u).phase.IsBefore ∨ (s.counter u).phase = .waiting 0 ∨
      ∃ e, (s.counter u).phase = .ended (some e)) : Stage start (s.throwIn t e b) := by
  refine .broken hb hlocked hlatch fun u => ?_
  by_cases hu : u = t
  · subst hu
    exact .inr (.inr ⟨e, by simp [State.throwIn]⟩)
  · simpa [State.throwIn, hu] using hothers u hu

/-- A thread that adds up, or comes to the barrier. -/
lemma Effect.isBefore (h : Effect start s t s') (ht : (s.counter t).phase.IsBefore)
    (hne : (s.counter t).phase ≠ .arriving) :
    (s'.counter t).phase.IsBefore ∧ s'.cyclicBarrier = s.cyclicBarrier ∧
      s'.locked = s.locked ∧ s'.sum = s.sum ∧ s'.countDownLatch = s.countDownLatch := by
  cases h with
  | counted | arrived => simp [State.goTo, Phase.IsBefore]
  | failed hphase | isLast hphase | waits hphase => exact absurd hphase hne
  | released hphase | gaveUp hphase | merged hphase | mergedAll hphase | published hphase
  | opened hphase | tripped hphase => simp [hphase, Phase.IsBefore] at ht

lemma Stage.advance_counting (hbarrier : s.cyclicBarrier = .new 2) (hlocked : s.locked = false)
    (hsum : s.sum = 0) (hlatch : s.countDownLatch = 1) (hphases : ∀ t, (s.counter t).phase.IsBefore)
    (h : Effect start s t s') : Stage start s' := by
  by_cases hne : (s.counter t).phase = .arriving
  · cases h with
    | failed _ _ harrive =>
        obtain ⟨hbroken, -⟩ | ⟨-, -, rfl⟩ := CyclicBarrier.arrive_throws harrive
        · simp [hbarrier, CyclicBarrier.new] at hbroken
        · exact .throwIn (by rw [hbarrier]; rfl) hlocked hlatch fun u _ => .inl (hphases u)
    | isLast _ _ harrive =>
        obtain ⟨-, hcount, -⟩ := CyclicBarrier.arrive_last harrive
        simp [hbarrier, CyclicBarrier.new] at hcount
    | waits _ _ harrive =>
        obtain ⟨-, -, rfl, rfl⟩ := CyclicBarrier.arrive_waits harrive
        refine .oneWaits t (by rw [hbarrier]; rfl) hlocked hsum hlatch ?_ fun u hu => ?_
        · simp [State.goTo, hbarrier, CyclicBarrier.new]
        · simpa [State.goTo, hu] using hphases u
    | counted hphase | arrived hphase | released hphase | gaveUp hphase | merged hphase
    | mergedAll hphase | published hphase | opened hphase | tripped hphase =>
        cases hne.symm.trans hphase
  · obtain ⟨hbefore, hb, hl, hs, hc⟩ := h.isBefore (hphases t) hne
    refine .counting (hb.trans hbarrier) (hl.trans hlocked) (hs.trans hsum) (hc.trans hlatch)
      fun u => ?_
    by_cases hu : u = t
    · exact hu ▸ hbefore
    · rw [h.counter_of_ne hu]
      exact hphases u

lemma Stage.advance_oneWaits {v : Duo} (hbarrier : s.cyclicBarrier = ⟨2, 1, 0, false⟩)
    (hlocked : s.locked = false) (hsum : s.sum = 0) (hlatch : s.countDownLatch = 1)
    (hv : (s.counter v).phase = .waiting 0) (hothers : ∀ u, u ≠ v → (s.counter u).phase.IsBefore)
    (h : Effect start s t s') : Stage start s' := by
  by_cases htv : t = v
  · -- the thread that waits notices an interrupt
    subst htv
    cases h with
    | released hphase _ hresume =>
        obtain rfl := Phase.waiting.inj (hv.symm.trans hphase)
        obtain ⟨hgeneration, -⟩ := CyclicBarrier.resume_returns hresume
        simp [hbarrier] at hgeneration
    | gaveUp hphase _ hresume =>
        obtain ⟨-, ⟨hbroken, -⟩ | ⟨-, -, rfl⟩⟩ := CyclicBarrier.resume_throws hresume
        · simp [hbarrier] at hbroken
        · exact .throwIn (by rw [hbarrier]; rfl) hlocked hlatch fun u hu => .inl (hothers u hu)
    | counted hphase | arrived hphase | failed hphase | isLast hphase | waits hphase
    | merged hphase | mergedAll hphase | published hphase | opened hphase | tripped hphase =>
        cases hv.symm.trans hphase
  · have hvt : v ≠ t := Ne.symm htv
    by_cases hne : (s.counter t).phase = .arriving
    · -- the thread that comes second
      have hwaiting : ∀ u, u ≠ t → (s.counter u).phase = .waiting 0 := by
        intro u hu
        obtain rfl : u = v := by cases u <;> cases v <;> cases t <;> simp_all
        exact hv
      cases h with
      | failed _ _ harrive =>
          obtain ⟨hbroken, -⟩ | ⟨-, -, rfl⟩ := CyclicBarrier.arrive_throws harrive
          · simp [hbarrier] at hbroken
          · exact .throwIn (by rw [hbarrier]; rfl) hlocked hlatch
              fun u hu => .inr (.inl (hwaiting u hu))
      | isLast _ _ harrive =>
          obtain ⟨-, -, rfl⟩ := CyclicBarrier.arrive_last harrive
          refine .acting t (by rw [hbarrier]) rfl ?_ fun u hu => ?_
          · simp [State.goTo, Acts, hsum, hlatch, mergedSum]
          · simpa [State.goTo, hu] using hwaiting u hu
      | waits _ _ harrive =>
          obtain ⟨-, hcount, -⟩ := CyclicBarrier.arrive_waits harrive
          simp [hbarrier] at hcount
      | counted hphase | arrived hphase | released hphase | gaveUp hphase | merged hphase
      | mergedAll hphase | published hphase | opened hphase | tripped hphase =>
          cases hne.symm.trans hphase
    · obtain ⟨hbefore, hb, hl, hs, hc⟩ := h.isBefore (hothers t htv) hne
      refine .oneWaits v (hb.trans hbarrier) (hl.trans hlocked) (hs.trans hsum) (hc.trans hlatch)
        ?_ fun u hu => ?_
      · rw [h.counter_of_ne hvt]
        exact hv
      · by_cases hut : u = t
        · exact hut ▸ hbefore
        · rw [h.counter_of_ne hut]
          exact hothers u hu

/-- The barrier's action writes the sum, opens the latch, and lets the barrier trip. -/
lemma Stage.advance_acting {v : Duo} (hsums : Sums start s)
    (hbarrier : s.cyclicBarrier = ⟨2, 0, 0, false⟩) (hlocked : s.locked = true)
    (hv : Acts start s (s.counter v).phase)
    (hothers : ∀ u, u ≠ v → (s.counter u).phase = .waiting 0)
    (h : Effect start s t s') : Stage start s' := by
  by_cases htv : t = v
  · subst htv
    have hwaiting : ∀ u, u ≠ t → (s'.counter u).phase = .waiting 0 := by
      intro u hu
      rw [h.counter_of_ne hu]
      exact hothers u hu
    cases h with
    | @merged i localSum u hphase hu =>
        rw [hphase] at hv
        obtain ⟨rfl, -, hsum, hlatch⟩ := hv
        have hpasses : (s.counter u).phase.passes = 5 := by
          by_cases hut : u = t
          · rw [hut, hphase]
            rfl
          · rw [hothers u hut]
            rfl
        refine .acting t hbarrier hlocked ?_ hwaiting
        simp only [State.goTo, Function.update_self, Acts, hsums.sum_eq hpasses, mergedSum_succ hu]
        exact ⟨trivial, (List.getElem?_eq_some_iff.mp hu).1, hsum, hlatch⟩
    | @mergedAll i localSum hphase hi =>
        rw [hphase] at hv
        obtain ⟨rfl, hle, -, hlatch⟩ := hv
        have hlength : countRunnables.length ≤ i := List.getElem?_eq_none_iff.mp hi
        obtain rfl : i = 2 := le_antisymm hle hlength
        exact .acting t hbarrier hlocked (by simp [State.goTo, Acts, total, hlatch]) hwaiting
    | published hphase =>
        rw [hphase] at hv
        exact .acting t hbarrier hlocked (by simpa [State.goTo, Acts] using hv) hwaiting
    | opened hphase =>
        rw [hphase] at hv
        obtain ⟨hsum, hlatch⟩ := hv
        exact .acting t hbarrier hlocked (by simp [State.goTo, Acts, hsum, hlatch]) hwaiting
    | tripped hphase =>
        rw [hphase] at hv
        obtain ⟨hsum, hlatch⟩ := hv
        refine .tripped (by simp [hbarrier, CyclicBarrier.nextGeneration]) rfl hsum hlatch
          fun u => ?_
        by_cases hu : u = t
        · subst hu
          exact .inr (by simp [State.goTo])
        · exact .inl (hwaiting u hu)
    | counted hphase | arrived hphase | failed hphase | isLast hphase | waits hphase
    | released hphase | gaveUp hphase =>
        rw [hphase] at hv
        exact hv.elim
  · -- the thread that waits would need the barrier's lock
    have ht := hothers t htv
    cases h with
    | released _ hfree | gaveUp _ hfree =>
        rw [hlocked] at hfree
        cases hfree
    | counted hphase | arrived hphase | failed hphase | isLast hphase | waits hphase
    | merged hphase | mergedAll hphase | published hphase | opened hphase | tripped hphase =>
        cases ht.symm.trans hphase

lemma Stage.advance_tripped (hbarrier : s.cyclicBarrier = ⟨2, 2, 1, false⟩)
    (hlocked : s.locked = false) (hsum : s.sum = total start) (hlatch : s.countDownLatch = 0)
    (hphases : ∀ t, (s.counter t).phase = .waiting 0 ∨ (s.counter t).phase = .ended none)
    (h : Effect start s t s') : Stage start s' := by
  have ht := hphases t
  cases h with
  | released =>
      refine .tripped hbarrier hlocked hsum hlatch fun u => ?_
      by_cases hu : u = t
      · subst hu
        exact .inr (by simp [State.goTo])
      · simpa [State.goTo, hu] using hphases u
  | gaveUp hphase _ hresume =>
      obtain ⟨hgeneration, -⟩ := CyclicBarrier.resume_throws hresume
      rw [hphase, hgeneration, hbarrier] at ht
      simp at ht
  | counted hphase | arrived hphase | failed hphase | isLast hphase | waits hphase
  | merged hphase | mergedAll hphase | published hphase | opened hphase | tripped hphase =>
      simp [hphase] at ht

lemma Stage.advance_broken (hbarrier : s.cyclicBarrier = ⟨2, 2, 0, true⟩)
    (hlocked : s.locked = false) (hlatch : s.countDownLatch = 1)
    (hphases : ∀ t, (s.counter t).phase.IsBefore ∨ (s.counter t).phase = .waiting 0 ∨
      ∃ e, (s.counter t).phase = .ended (some e)) (h : Effect start s t s') : Stage start s' := by
  have ht := hphases t
  cases h with
  | counted | arrived =>
      refine .broken hbarrier hlocked hlatch fun u => ?_
      by_cases hu : u = t
      · subst hu
        exact .inl (by simp [State.goTo, Phase.IsBefore])
      · simpa [State.goTo, hu] using hphases u
  | failed _ _ harrive =>
      obtain ⟨-, rfl⟩ | ⟨hunbroken, -⟩ := CyclicBarrier.arrive_throws harrive
      · exact .throwIn hbarrier hlocked hlatch fun u _ => hphases u
      · simp [hbarrier] at hunbroken
  | gaveUp _ _ hresume =>
      obtain ⟨-, ⟨-, rfl⟩ | ⟨hunbroken, -⟩⟩ := CyclicBarrier.resume_throws hresume
      · exact .throwIn hbarrier hlocked hlatch fun u _ => hphases u
      · simp [hbarrier] at hunbroken
  | isLast _ _ harrive =>
      obtain ⟨hunbroken, -⟩ := CyclicBarrier.arrive_last harrive
      simp [hbarrier] at hunbroken
  | waits _ _ harrive =>
      obtain ⟨hunbroken, -⟩ := CyclicBarrier.arrive_waits harrive
      simp [hbarrier] at hunbroken
  | released hphase _ hresume =>
      obtain ⟨hgeneration, -⟩ := CyclicBarrier.resume_returns hresume
      rw [hphase] at ht
      simp only [Phase.IsBefore, Phase.waiting.injEq, reduceCtorEq, exists_false, or_false,
        false_or] at ht
      simp [hbarrier, ht] at hgeneration
  | merged hphase | mergedAll hphase | published hphase | opened hphase | tripped hphase =>
      simp [hphase, Phase.IsBefore] at ht

/-- **One step of a thread leads from stage to stage.** -/
lemma Stage.advance (hsums : Sums start s) (h : Stage start s) (heffect : Effect start s t s') :
    Stage start s' := by
  cases h with
  | counting h₁ h₂ h₃ h₄ h₅ => exact advance_counting h₁ h₂ h₃ h₄ h₅ heffect
  | oneWaits v h₁ h₂ h₃ h₄ h₅ h₆ => exact advance_oneWaits h₁ h₂ h₃ h₄ h₅ h₆ heffect
  | acting v h₁ h₂ h₃ h₄ => exact advance_acting hsums h₁ h₂ h₃ h₄ heffect
  | tripped h₁ h₂ h₃ h₄ h₅ => exact advance_tripped h₁ h₂ h₃ h₄ h₅ heffect
  | broken h₁ h₂ h₃ h₄ => exact advance_broken h₁ h₂ h₃ h₄ heffect

end Stages

/-! ## The invariant -/

/-- The invariant of the three threads. -/
structure Inv (start : Duo → ℤ) (s : State) : Prop where
  sums : Sums start s
  stage : Stage start s
  passed : s.main ≠ .awaiting → s.main ≠ .thrown → s.countDownLatch = 0
  returned : ∀ v, s.main = .returned v → v = total start
  thrown : s.main = .thrown → s.mainInterrupted = true

section Invariant

variable {start : Duo → ℤ} {s s' : State} {a : Act}

lemma inv_initial (start : Duo → ℤ) : Inv start initial := by
  refine ⟨fun t => ⟨Nat.zero_le 5, rfl⟩, .counting rfl rfl rfl rfl fun t => trivial, ?_, ?_, ?_⟩
  all_goals simp [initial]

/-- The latch is not closed again. -/
lemma Effect.countDownLatch_le {t : Duo} (h : Effect start s t s') :
    s'.countDownLatch ≤ s.countDownLatch := by
  cases h with
  | opened => exact Nat.sub_le _ _
  | _ => exact le_refl _

/-- **Every move keeps the invariant.** -/
lemma inv_step (hs : Inv start s) (h : step start s a = some s') : Inv start s' := by
  obtain ⟨t, -, heffect⟩ | ⟨t, -, -, -, rfl⟩ | ⟨-, heffect⟩ | ⟨-, hmain, -, rfl⟩ |
    ⟨-, -, hinterrupted, rfl⟩ := step_cases h
  · obtain ⟨hmain, hflag⟩ := heffect.main_eq
    refine ⟨heffect.sums hs.sums, hs.stage.advance hs.sums heffect, fun hawaiting hthrown => ?_,
      ?_, ?_⟩
    · have hlatch := hs.passed (hmain ▸ hawaiting) (hmain ▸ hthrown)
      exact Nat.le_zero.mp (hlatch ▸ heffect.countDownLatch_le)
    · exact hmain ▸ hs.returned
    · rw [hmain, hflag]
      exact hs.thrown
  · have hcounter : ∀ u, ((Function.update s.counter t { s.counter t with interrupted := true })
        u).phase = (s.counter u).phase ∧
        ((Function.update s.counter t { s.counter t with interrupted := true }) u).sum =
          (s.counter u).sum := by
      intro u
      by_cases hu : u = t
      · subst hu
        simp
      · simp [hu]
    refine ⟨fun u => ?_, hs.stage.congr rfl rfl rfl rfl fun u => (hcounter u).1, hs.passed,
      hs.returned, hs.thrown⟩
    simp only [hcounter]
    exact hs.sums u
  · cases heffect with
    | passed _ hopen =>
        refine ⟨hs.sums, hs.stage.congr rfl rfl rfl rfl fun _ => rfl, fun _ _ => hopen, ?_, ?_⟩ <;>
          simp
    | read hmain =>
        have hopen := hs.passed (by simp [hmain]) (by simp [hmain])
        have hsum := hs.stage.sum_eq hopen
        refine ⟨hs.sums, hs.stage.congr rfl rfl rfl rfl fun _ => rfl, fun _ _ => hopen, ?_, ?_⟩
        · simpa using hsum
        · simp
  · refine ⟨hs.sums, hs.stage.congr rfl rfl rfl rfl fun _ => rfl, hs.passed, hs.returned, ?_⟩
    simp
  · refine ⟨hs.sums, hs.stage.congr rfl rfl rfl rfl fun _ => rfl, ?_, ?_, fun _ => hinterrupted⟩ <;>
      simp

end Invariant

/-- What holds at every moment. -/
structure Promises (startA startB : ℤ) (s : State) : Prop where
  returned : ∀ v, s.main = .returned v → v = wrap32 (5 * startA + 5 * startB + 20)
  complete : ∀ t i localSum, (s.counter t).phase = .merging i localSum →
    ∀ u, (s.counter u).sum = partialSum (starts startA startB u) 5
  published : s.countDownLatch = 0 → s.sum = wrap32 (5 * startA + 5 * startB + 20)

section Promises

variable {startA startB : ℤ} {s : State}

lemma Inv.promises (hs : Inv (starts startA startB) s) : Promises startA startB s := by
  refine ⟨by rw [← total_starts]; exact hs.returned, fun t i localSum ht u => ?_,
    fun hopen => by rw [← total_starts]; exact hs.stage.sum_eq hopen⟩
  refine hs.sums.sum_eq ?_
  cases hs.stage with
  | acting v _ _ _ hothers =>
      by_cases hu : u = v
      · have htv : t = v := by
          by_contra hne
          rw [hothers t hne] at ht
          cases ht
        rw [hu, ← htv, ht]
        rfl
      · rw [hothers u hu]
        rfl
  | counting _ _ _ _ hphases =>
      have hbefore := hphases t
      rw [ht] at hbefore
      exact hbefore.elim
  | oneWaits v _ _ _ _ hv hothers =>
      by_cases htv : t = v
      · rw [htv, hv] at ht
        cases ht
      · have hbefore := hothers t htv
        rw [ht] at hbefore
        exact hbefore.elim
  | tripped _ _ _ _ hphases =>
      have hphase := hphases t
      simp [ht] at hphase
  | broken _ _ _ hphases =>
      have hphase := hphases t
      simp [ht, Phase.IsBefore] at hphase

end Promises

/-! ## How a run ends -/

/-- How far a `CountRunnable` is from its end. -/
def Phase.distance : Phase → ℕ
  | .counting i => 15 - i
  | .arriving => 9
  | .waiting _ => 1
  | .merging i _ => 6 + (2 - i)
  | .publishing _ => 5
  | .opening => 4
  | .tripping => 3
  | .ended _ => 0

/-- An interrupt of a thread is spent like half a step. -/
def Counter.distance (c : Counter) : ℕ := 2 * c.phase.distance + if c.interrupted then 0 else 1

/-- How far `count` is from its end. -/
def MainPhase.distance : MainPhase → ℕ
  | .awaiting => 2
  | .reading => 1
  | .returned _ | .thrown => 0

/-- The variant. -/
def State.distance (s : State) : ℕ :=
  (s.counter .first).distance + (s.counter .second).distance + s.main.distance +
    if s.mainInterrupted then 0 else 1

section Ends

variable {start : Duo → ℤ} {s s' : State} {a : Act} {t : Duo}

lemma exists_other (t : Duo) : ∃ u, u ≠ t := by
  cases t
  · exact ⟨.second, by decide⟩
  · exact ⟨.first, by decide⟩

/-- The thread and the other one. -/
lemma State.distance_eq (s : State) {t u : Duo} (hu : u ≠ t) :
    s.distance = (s.counter t).distance + (s.counter u).distance + s.main.distance +
      if s.mainInterrupted then 0 else 1 := by
  cases t <;> cases u
  · exact absurd rfl hu
  · rfl
  · rw [State.distance, Nat.add_comm (s.counter .first).distance]
  · exact absurd rfl hu

lemma Effect.phase_distance_lt (hs : Inv start s) (h : Effect start s t s') :
    (s'.counter t).phase.distance < (s.counter t).phase.distance := by
  have hpasses := (hs.sums t).1
  cases h with
  | counted hphase hi =>
      simp only [hphase, Function.update_self, Phase.distance]
      omega
  | arrived hphase =>
      rw [hphase] at hpasses
      simp only [Phase.passes] at hpasses
      simp only [hphase, State.goTo, Function.update_self, Phase.distance]
      omega
  | merged hphase hu =>
      have hi : _ < 2 := (List.getElem?_eq_some_iff.mp hu).1
      simp only [hphase, State.goTo, Function.update_self, Phase.distance]
      omega
  | failed hphase | isLast hphase | waits hphase | released hphase | gaveUp hphase
  | mergedAll hphase | published hphase | opened hphase | tripped hphase =>
      simp only [hphase, State.goTo, State.throwIn, Function.update_self, Phase.distance]
      omega

/-- **Every move lowers the variant.** -/
lemma distance_lt (hs : Inv start s) (h : step start s a = some s') :
    s'.distance < s.distance := by
  obtain ⟨t, -, heffect⟩ | ⟨t, -, hinterrupted, -, rfl⟩ | ⟨-, heffect⟩ |
    ⟨-, -, hinterrupted, rfl⟩ | ⟨-, hmain, -, rfl⟩ := step_cases h
  · obtain ⟨u, hu⟩ := exists_other t
    have hlt := heffect.phase_distance_lt hs
    obtain ⟨hmain, hflag⟩ := heffect.main_eq
    rw [s.distance_eq hu, s'.distance_eq hu, heffect.counter_of_ne hu, hmain, hflag]
    simp only [Counter.distance]
    split_ifs <;> omega
  · obtain ⟨u, hu⟩ := exists_other t
    rw [s.distance_eq hu, State.distance_eq _ hu]
    simp [hu, Counter.distance, hinterrupted]
  · cases heffect with
    | passed hmain => simp [State.distance, hmain, MainPhase.distance]
    | read hmain => simp [State.distance, hmain, MainPhase.distance]
  · simp [State.distance, hinterrupted]
  · simp [State.distance, hmain, MainPhase.distance]

/-- Where neither thread can go on, both are over. -/
lemma Stage.of_advance_none (h : Stage start s) (hnone : ∀ t, s.advance start t = none) :
    s.countDownLatch = 0 ∧ s.cyclicBarrier.broken = false ∧
        (∀ t, (s.counter t).phase = .ended none) ∨
      s.countDownLatch = 1 ∧ s.cyclicBarrier.broken = true ∧
        ∀ t, ∃ e, (s.counter t).phase = .ended (some e) := by
  have hbefore : ∀ t, s.locked = false → ¬(s.counter t).phase.IsBefore := by
    intro t hfree ht
    obtain ⟨e, hphase⟩ | ⟨hlocked, -⟩ | ⟨g, b, hphase, -⟩ := advance_none (hnone t)
    · simp [hphase, Phase.IsBefore] at ht
    · rw [hfree] at hlocked
      cases hlocked
    · simp [hphase, Phase.IsBefore] at ht
  cases h with
  | counting _ hlocked _ _ hphases => exact absurd (hphases .first) (hbefore .first hlocked)
  | oneWaits t _ hlocked _ _ _ hothers =>
      obtain ⟨u, hu⟩ := exists_other t
      exact absurd (hothers u hu) (hbefore u hlocked)
  | acting t _ _ ht =>
      obtain ⟨e, hphase⟩ | ⟨-, hphase | ⟨g, hphase⟩⟩ | ⟨g, b, hphase, -⟩ := advance_none (hnone t)
      all_goals
        rw [hphase] at ht
        exact ht.elim
  | tripped hbarrier hlocked _ hlatch hphases =>
      refine .inl ⟨hlatch, by rw [hbarrier], fun t => ?_⟩
      obtain hwaiting | hended := hphases t
      · obtain ⟨e, hphase⟩ | ⟨hlocked', -⟩ | ⟨g, b, hphase, hresume⟩ := advance_none (hnone t)
        · cases hwaiting.symm.trans hphase
        · rw [hlocked] at hlocked'
          cases hlocked'
        · obtain rfl := Phase.waiting.inj (hwaiting.symm.trans hphase)
          have hgeneration := (CyclicBarrier.resume_waits hresume).1
          simp [hbarrier] at hgeneration
      · exact hended
  | broken hbarrier hlocked hlatch hphases =>
      refine .inr ⟨hlatch, by rw [hbarrier], fun t => ?_⟩
      obtain hyet | hwaiting | hended := hphases t
      · exact absurd hyet (hbefore t hlocked)
      · obtain ⟨e, hphase⟩ | ⟨hlocked', -⟩ | ⟨g, b, hphase, hresume⟩ := advance_none (hnone t)
        · cases hwaiting.symm.trans hphase
        · rw [hlocked] at hlocked'
          cases hlocked'
        · have hunbroken := (CyclicBarrier.resume_waits hresume).2.1
          simp [hbarrier] at hunbroken
      · exact hended

/-- How a run ends, in which nothing is left to do: `count` returned, or it was interrupted, or one
of its threads was. -/
inductive Outcome (startA startB : ℤ) (ms : List (Move State Act)) (s : State) : Prop
  | returns (hmain : s.main = .returned (wrap32 (5 * startA + 5 * startB + 20)))
      (hended : ∀ t, (s.counter t).phase = .ended none)
  | throws (hmain : s.main = .thrown) (h : ∃ m ∈ ms, m.label = .interruptMain)
      (hended : ∀ t, ∃ e, (s.counter t).phase = .ended e)
  | waits (hmain : s.main = .awaiting) (h : ∃ m ∈ ms, ∃ t, m.label = .interrupt t)
      (hended : ∀ t, ∃ e, (s.counter t).phase = .ended (some e))

end Ends

section Runs

variable {startA startB : ℤ} {s : State} {ms : List (Move State Act)}

lemma inv_of_run (h : (machine startA startB).Run ms s) : Inv (starts startA startB) s := by
  refine h.invariant (fun s hs => ?_) fun _ _ _ => inv_step
  obtain rfl : s = initial := hs
  exact inv_initial _

/-- A step of a thread that was not interrupted does not break the barrier. -/
lemma Effect.unbroken {start : Duo → ℤ} {s' : State} {t : Duo} (h : Effect start s t s')
    (hbroken : s.cyclicBarrier.broken = false) (hflag : (s.counter t).interrupted = false) :
    s'.cyclicBarrier.broken = false ∧ (s'.counter t).interrupted = false := by
  cases h with
  | failed _ _ harrive =>
      obtain ⟨hbroken', -⟩ | ⟨-, hflag', -⟩ := CyclicBarrier.arrive_throws harrive
      · rw [hbroken] at hbroken'
        cases hbroken'
      · rw [hflag] at hflag'
        cases hflag'
  | gaveUp _ _ hresume =>
      obtain ⟨-, ⟨hbroken', -⟩ | ⟨-, hflag', -⟩⟩ := CyclicBarrier.resume_throws hresume
      · rw [hbroken] at hbroken'
        cases hbroken'
      · rw [hflag] at hflag'
        cases hflag'
  | isLast _ _ harrive =>
      obtain ⟨-, -, rfl⟩ := CyclicBarrier.arrive_last harrive
      exact ⟨hbroken, by simpa [State.goTo] using hflag⟩
  | waits _ _ harrive =>
      obtain ⟨-, -, -, rfl⟩ := CyclicBarrier.arrive_waits harrive
      exact ⟨hbroken, by simpa [State.goTo] using hflag⟩
  | tripped => exact ⟨rfl, by simpa [State.goTo] using hflag⟩
  | counted | arrived | released | merged | mergedAll | published | opened =>
      exact ⟨hbroken, by simpa [State.goTo] using hflag⟩

/-- Nobody breaks the barrier in a run without interrupts. -/
lemma unbroken_of_run (h : (machine startA startB).Run ms s)
    (hno : ∀ m ∈ ms, ¬∃ t, m.label = .interrupt t) :
    s.cyclicBarrier.broken = false ∧ ∀ t, (s.counter t).interrupted = false := by
  refine h.invariant_of_moves
    (I := fun s => s.cyclicBarrier.broken = false ∧ ∀ t, (s.counter t).interrupted = false)
    (fun s hs => ?_) (fun s a s' hs hstep hcalm => ?_) hno
  · obtain rfl : s = initial := hs
    exact ⟨rfl, fun _ => rfl⟩
  · obtain ⟨hbroken, hflags⟩ := hs
    obtain ⟨t, -, heffect⟩ | ⟨t, rfl, -⟩ | ⟨-, heffect⟩ | ⟨-, -, -, rfl⟩ | ⟨-, -, -, rfl⟩ :=
      step_cases hstep
    · have hself := heffect.unbroken hbroken (hflags t)
      refine ⟨hself.1, fun u => ?_⟩
      by_cases hu : u = t
      · exact hu ▸ hself.2
      · rw [heffect.counter_of_ne hu]
        exact hflags u
    · exact absurd ⟨t, rfl⟩ hcalm
    · cases heffect <;> exact ⟨hbroken, hflags⟩
    · exact ⟨hbroken, hflags⟩
    · exact ⟨hbroken, hflags⟩

/-- Without an interrupt of the thread that called `count`. -/
lemma mainInterrupted_of_run (h : (machine startA startB).Run ms s)
    (hno : ∀ m ∈ ms, m.label ≠ .interruptMain) : s.mainInterrupted = false := by
  refine h.invariant_of_moves (I := fun s => s.mainInterrupted = false) (fun s hs => ?_)
    (fun s a s' hs hstep hcalm => ?_) hno
  · obtain rfl : s = initial := hs
    rfl
  · obtain ⟨t, -, heffect⟩ | ⟨t, -, -, -, rfl⟩ | ⟨-, heffect⟩ | ⟨ha, -⟩ | ⟨-, -, -, rfl⟩ :=
      step_cases hstep
    · exact heffect.main_eq.2.trans hs
    · exact hs
    · cases heffect <;> exact hs
    · exact absurd ha hcalm
    · exact hs

/-- In every interleaving of `new CountHelper(startA, startB).count()` with its two threads,
interrupts of all three at any moment included: what `count` returns is the 32-bit sum of
`startA, …, startA + 4, startB, …, startB + 4`, the barrier's action adds up only sums that are
complete, and the latch is open only after it has written the result. -/
theorem count_promises (h : (machine startA startB).Run ms s) : Promises startA startB s :=
  (inv_of_run h).promises

/-- A run of `TestCyclicBarrier`: the second thread comes last. -/
def countingRun : List Act :=
  List.replicate 7 (.go .first) ++ List.replicate 13 (.go .second) ++ [.go .first, .main, .main]

/-- It returns `sum is 170`. -/
theorem count_promises_countingRun :
    ((machine 10 20).play initial countingRun).isSome ∧
      Promises 10 20 (((machine 10 20).play initial countingRun).getD initial) ∧
      (((machine 10 20).play initial countingRun).getD initial).main = .returned 170 :=
  ⟨by decide +kernel, count_promises (Machine.run_getD_of_play initial rfl (by decide +kernel)),
    by decide +kernel⟩

/-- What is left when no thread can go on. -/
lemma outcome_of_quiet (h : (machine startA startB).Run ms s)
    (hquiet : (machine startA startB).Quiet Act.IsOwn s) : Outcome startA startB ms s := by
  have hs := inv_of_run h
  have hmain : s.advanceMain = none := hquiet .main trivial
  have hthrow : step (starts startA startB) s .throwMain = none := hquiet .throwMain trivial
  have hends := hs.stage.of_advance_none fun t => hquiet (.go t) trivial
  cases hphase : s.main with
  | reading => simp [State.advanceMain, hphase] at hmain
  | returned v =>
      obtain rfl := hs.promises.returned v hphase
      have hopen := hs.passed (by simp [hphase]) (by simp [hphase])
      obtain ⟨-, -, hended⟩ | ⟨hlatch, -⟩ := hends
      · exact .returns hphase hended
      · omega
  | thrown =>
      refine .throws hphase ?_ fun t => ?_
      · by_contra hno
        push Not at hno
        have hflag := mainInterrupted_of_run h hno
        rw [hs.thrown hphase] at hflag
        cases hflag
      · obtain ⟨-, -, hended⟩ | ⟨-, -, hended⟩ := hends
        · exact ⟨none, hended t⟩
        · obtain ⟨e, he⟩ := hended t
          exact ⟨some e, he⟩
  | awaiting =>
      obtain ⟨hlatch, -⟩ | ⟨-, hbroken, hended⟩ := hends
      · simp [State.advanceMain, hphase, hlatch] at hmain
      · refine .waits hphase ?_ hended
        by_contra hno
        push Not at hno
        have hunbroken := (unbroken_of_run h fun m hm ⟨t, ht⟩ => hno m hm t ht).1
        rw [hbroken] at hunbroken
        cases hunbroken

/-- Every run of `count` and its threads is finite, and each can be carried on until no thread has
anything left to do.  Then `count` has returned the sum of all ten ints, unless the thread that
called it was interrupted, or one of its own was: in that case it may wait for good. -/
theorem count_completes (h : (machine startA startB).Run ms s) :
    ms.length ≤ 65 ∧
      (∃ ms' s', (machine startA startB).Run (ms ++ ms') s' ∧ (∀ m ∈ ms', m.label.IsOwn) ∧
        (machine startA startB).Quiet Act.IsOwn s') ∧
      ((machine startA startB).Quiet Act.IsOwn s → Outcome startA startB ms s) := by
  have hinit : ∀ s, (machine startA startB).init s → Inv (starts startA startB) s := by
    rintro s rfl
    exact inv_initial _
  refine ⟨?_, h.exists_quiet Act.IsOwn State.distance hinit (fun _ _ _ => inv_step)
    fun _ _ _ hs _ => distance_lt hs, outcome_of_quiet h⟩
  have hle := h.length_add_variant_le State.distance (n := 65)
    (fun s hs => ⟨hinit s hs, ?_⟩) (fun _ _ _ => inv_step) fun _ _ _ => distance_lt
  · omega
  · obtain rfl : s = initial := hs
    decide

/-- A thread that is interrupted before it comes to the barrier: `count` waits for good. -/
def interruptedRun : List Act :=
  .interrupt .first :: List.replicate 7 (.go .first) ++ List.replicate 7 (.go .second)

/-- The state it comes to. -/
abbrev afterInterrupt : State := ((machine 10 20).play initial interruptedRun).getD initial

theorem count_completes_interruptedRun :
    (afterInterrupt.counter .first).phase = .ended (some .interruptedException) ∧
      (afterInterrupt.counter .second).phase = .ended (some .brokenBarrierException) ∧
      afterInterrupt.main = .awaiting ∧
      ((machine 10 20).moves initial interruptedRun).length ≤ 65 ∧
      Outcome 10 20 ((machine 10 20).moves initial interruptedRun) afterInterrupt := by
  obtain ⟨hlength, -, houtcome⟩ := count_completes (s := afterInterrupt)
    (Machine.run_getD_of_play (M := machine 10 20) initial rfl (by decide +kernel))
  refine ⟨by decide +kernel, by decide +kernel, by decide +kernel, hlength, houtcome ?_⟩
  intro a ha
  rw [← Option.isNone_iff_eq_none]
  cases a with
  | go t => cases t <;> decide +kernel
  | main | throwMain => decide +kernel
  | interrupt | interruptMain => exact ha.elim

end Runs

end CountHelper

end LearnJava
