import LearnJava.Lock.QueueMonitor

/-!
# Waiting threads and wake-ups

A thread parked on `empty` without a signal should not be left there while the queue holds an
element that no signalled consumer is on its way to, and a thread parked on `full` not while
there is a free place that no signalled producer is on its way to (`NoLostWakeup`).

The queue awaits both conditions and signals neither: the segments are silent
(`silent_code`), and no signal is ever pending.  So a parked thread is left behind by the first
element that is added while it waits on `empty`, and by the first one taken out while it waits on
`full`.  It is left behind from the start when it parks on `full` although elements have been
taken out: `hasPosition` looks at the end of the array only.  `wakeups_iff_undisturbed` shows that
nothing else goes wrong, in any run.
-/

namespace LearnJava

namespace MyLinkedBlockingQueue

variable {α τ : Type} [Fintype τ]

/-! ## The property, and its condition -/

/-- The number of threads signalled on `c` that have not the lock again yet. -/
def signalledOn (c : Cond) (s : QueueState τ α) : ℕ :=
  (Finset.univ.filter fun t => (s.phase t).IsSignalledOn c).card

/-- Nobody is left waiting for something that is there and that no signal is pending for. -/
structure NoLostWakeup (s : QueueState τ α) : Prop where
  empty : (∃ t, (s.phase t).IsParkedOn .empty) → s.shared.size ≤ signalledOn .empty s
  full : (∃ t, (s.phase t).IsParkedOn .full) →
    s.shared.queueSize - s.shared.size ≤ signalledOn .full s

omit [Fintype τ] in
/-- The segment run in this move adds an element only while nobody is parked on `empty`, takes one
out only while nobody is parked on `full`, and parks on `full` only if no element has been taken
out. -/
def Undisturbed (m : QueueMove τ α) : Prop :=
  ∀ t chosen interrupted p, m.label = .exec t chosen interrupted →
    pointOf (m.pre.phase t) = some p →
      (p.Adds m.pre.shared → ∀ u, ¬ (m.pre.phase u).IsParkedOn .empty) ∧
      (p.Removes m.pre.shared → ∀ u, ¬ (m.pre.phase u).IsParkedOn .full) ∧
      (p.WaitsFull m.pre.shared → interrupted = false → m.pre.shared.startIndex = 0)

/-! ## One move -/

/-- Where no signal is pending, nobody may wait for an element or a place at all. -/
lemma noLostWakeup_iff {s : QueueState τ α} (hs : Monitor.NotSignalled s) :
    NoLostWakeup s ↔
      ((∃ t, (s.phase t).IsParkedOn .empty) → s.shared.size ≤ 0) ∧
      ((∃ t, (s.phase t).IsParkedOn .full) → (s.shared.queueSize : ℤ) ≤ s.shared.size) := by
  have hnone : ∀ c, signalledOn c s = 0 := fun c => hs.card_eq_zero c
  constructor
  · intro h
    refine ⟨fun hp => ?_, fun hp => ?_⟩
    · simpa [hnone] using h.empty hp
    · have := h.full hp
      rw [hnone] at this
      omega
  · rintro ⟨hempty, hfull⟩
    refine ⟨fun hp => ?_, fun hp => ?_⟩
    · simpa [hnone] using hempty hp
    · have := hfull hp
      rw [hnone]
      omega

section Sizes

variable {q : MyLinkedBlockingQueue α}

lemma size_nonneg (hq : q.Valid) : 0 ≤ q.size := by
  rw [size_eq_length_content hq]
  exact Int.natCast_nonneg _

lemma size_lt_of_room (h : q.insertIndex < q.queueSize) : q.size < q.queueSize := by
  rw [size]
  omega

lemma size_le_queueSize (hq : q.Valid) : q.size ≤ q.queueSize := by
  have := hq.insert_le
  rw [size]
  omega

/-- A queue that has no place at the end of its array is full only if nothing was taken out. -/
lemma queueSize_le_size_iff (hq : q.Valid) (h : ¬ q.insertIndex < q.queueSize) :
    (q.queueSize : ℤ) ≤ q.size ↔ q.startIndex = 0 := by
  have := hq.insert_le
  rw [size]
  omega

/-- **One segment.**  With somebody parked on a condition only while it is justified, a segment
keeps this so exactly when it disturbs nobody. -/
lemma segment_wakeups_iff (hq : q.Sound) (p : Point α) {parkedEmpty parkedFull : Prop}
    (hempty : parkedEmpty → q.size ≤ 0) (hfull : parkedFull → (q.queueSize : ℤ) ≤ q.size)
    (interrupted : Bool) {seg : QueueSegment α α} (hseg : SegmentEffect q p seg) :
    ((parkedEmpty ∨ interrupted = false ∧ ∃ timed b, seg.ending = .await .empty timed b) →
          seg.shared.size ≤ 0) ∧
        ((parkedFull ∨ interrupted = false ∧ ∃ timed b, seg.ending = .await .full timed b) →
          (seg.shared.queueSize : ℤ) ≤ seg.shared.size) ↔
      (p.Adds q → ¬ parkedEmpty) ∧ (p.Removes q → ¬ parkedFull) ∧
        (p.WaitsFull q → interrupted = false → q.startIndex = 0) := by
  have hnonneg := size_nonneg hq.valid
  cases hseg with
  | @adds e r hroom he ha hr hw =>
      -- nobody waits for a place, and whoever waits for an element now waits in vain
      have hlt := size_lt_of_room hroom
      have hnobody : ¬ parkedFull := fun hp => absurd (hfull hp) (by omega)
      simp only [leaves, reduceCtorEq, exists_false, and_false, or_false, size_pushed, ha, hr, hw,
        hnobody, forall_true_left, false_implies, and_true, not_false_eq_true]
      exact ⟨fun h hp => absurd (h hp) (by omega), fun h hp => absurd hp h⟩
  | @removes q' r hshrinks ha hr hw =>
      have hlt := hshrinks.size_lt hq.valid
      have hle := size_le_queueSize hq.valid
      have hnonneg' := size_nonneg (hshrinks.valid hq.valid)
      have hnobody : ¬ parkedEmpty := fun hp => absurd (hempty hp) (by omega)
      simp only [leaves, reduceCtorEq, exists_false, and_false, or_false, hshrinks.queueSize_eq,
        ha, hr, hw, hnobody, forall_true_left, false_implies, true_and, and_true]
      exact ⟨fun h hp => absurd (h hp) (by omega), fun h hp => absurd hp h⟩
  | @keeps r ha hr hw =>
      simp only [leaves, reduceCtorEq, exists_false, and_false, or_false, ha, hr, hw,
        false_implies, and_true]
      exact iff_of_true ⟨hempty, hfull⟩ trivial
  | @waitsFull timed b hroom ha hr hw =>
      have hstart := queueSize_le_size_iff hq.valid hroom
      simp only [waits, Monitor.Ending.await.injEq, reduceCtorEq, false_and, exists_false,
        and_false, or_false, true_and, ha, hr, hw, false_implies, forall_true_left]
      refine ⟨fun h hint => hstart.mp (h.2 (.inr ⟨hint, timed, b, rfl, rfl⟩)), fun h => ?_⟩
      refine ⟨hempty, ?_⟩
      rintro (hp | ⟨hint, -⟩)
      · exact hfull hp
      · exact hstart.mpr (h hint)
  | @waitsEmpty timed b hnil ha hr hw =>
      have hsize : q.size ≤ 0 := by rw [size_eq_length_content hq.valid, hnil]; simp
      simp only [waits, Monitor.Ending.await.injEq, reduceCtorEq, false_and, exists_false,
        and_false, or_false, ha, hr, hw, false_implies, and_true]
      exact iff_of_true ⟨fun _ => hsize, hfull⟩ trivial

/-- A segment that waits on `full` is the only one that disturbs when it parks. -/
lemma waitsFull_of_await (hq : q.Sound) (p : Point α) {c : Cond} {timed : Bool} {b : Blocking α}
    (h : (p.segment q).ending = .await c timed b) : ¬ p.Adds q ∧ ¬ p.Removes q := by
  have hseg := segment_effect hq p
  generalize p.segment q = seg at h hseg
  cases hseg with
  | adds | removes | keeps => cases h
  | waitsFull _ ha hr => exact ⟨ha, hr⟩
  | waitsEmpty _ ha hr => exact ⟨ha, hr⟩

end Sizes

variable [DecidableEq τ]

omit [Fintype τ] [DecidableEq τ] in
/-- Only the point of the thread that runs a segment matters. -/
lemma undisturbed_exec_iff {s s' : QueueState τ α} {t : τ} {chosen : List (Option τ)}
    {interrupted : Bool} {p : Point α} (hp : pointOf (s.phase t) = some p) :
    Undisturbed ⟨s, .exec t chosen interrupted, s'⟩ ↔
      (p.Adds s.shared → ∀ u, ¬ (s.phase u).IsParkedOn .empty) ∧
      (p.Removes s.shared → ∀ u, ¬ (s.phase u).IsParkedOn .full) ∧
      (p.WaitsFull s.shared → interrupted = false → s.shared.startIndex = 0) := by
  constructor
  · intro hmove
    exact hmove t chosen interrupted p rfl hp
  · rintro hp' _ _ _ p' ⟨⟩ heq
    obtain rfl := Option.some.inj (hp.symm.trans heq)
    exact hp'

/-- **One move loses no wake-up exactly when it is undisturbed.** -/
lemma noLostWakeup_step_iff {s s' : QueueState τ α} {a : Monitor.Action τ (Call α)}
    (hs : s.shared.Sound) (hns : Monitor.NotSignalled s) (hw : NoLostWakeup s)
    (h : (queueMachine τ α).step s a = some s') :
    NoLostWakeup s' ↔ Undisturbed ⟨s, a, s'⟩ := by
  rw [noLostWakeup_iff hns] at hw
  rw [noLostWakeup_iff (Monitor.notSignalled_of_step silent_code hns h)]
  cases Monitor.step_cases h with
  | @moves t a owner ph ha hparked =>
      -- the queue is the same, and nobody has parked
      have hold : ∀ c, (∃ u, (Function.update s.phase t ph u).IsParkedOn c) →
          ∃ u, (s.phase u).IsParkedOn c := by
        rintro c ⟨u, hu⟩
        rcases eq_or_ne u t with rfl | hne
        · rw [Function.update_self] at hu
          exact absurd hu (hparked c)
        · rw [Function.update_of_ne hne] at hu
          exact ⟨u, hu⟩
      refine iff_of_true ⟨fun hp => hw.1 (hold _ hp), fun hp => hw.2 (hold _ hp)⟩ ?_
      intro t' chosen interrupted p hlabel
      exact absurd hlabel (ha t' chosen interrupted)
  | @segment t chosen interrupted seg phase hseg hsig =>
      rw [silent_code.signals_eq hseg] at hsig
      obtain rfl := Monitor.deliver_nil hsig
      have hnot := Monitor.not_parked_of_segment hseg
      obtain ⟨p, hp, rfl⟩ := segment_eq_point hseg
      have heffect := segment_wakeups_iff hs p hw.1 hw.2 interrupted (segment_effect hs p)
      rw [undisturbed_exec_iff hp, Monitor.finish_shared,
        Monitor.exists_parked_finish (hnot .empty), Monitor.exists_parked_finish (hnot .full),
        heffect]
      simp only [not_exists]

/-- A move that ends with the lock held disturbs nobody. -/
lemma undisturbed_of_owner {s s' : QueueState τ α} {a : Monitor.Action τ (Call α)}
    (hs : s.shared.Sound) (h : (queueMachine τ α).step s a = some s') (howner : s'.owner ≠ none) :
    Undisturbed ⟨s, a, s'⟩ := by
  cases Monitor.step_cases h with
  | moves ha => exact fun t' chosen interrupted p hlabel => absurd hlabel (ha t' chosen interrupted)
  | @segment t chosen interrupted seg phase hseg hsig =>
      obtain ⟨p, hp, rfl⟩ := segment_eq_point hseg
      -- only a thread interrupted at its `await` goes on with the lock
      obtain ⟨c, timed, b, hend, hint⟩ : ∃ c timed b,
          (p.segment s.shared).ending = .await c timed b ∧ interrupted ≠ false := by
        by_contra hnone
        refine howner (Monitor.finish_owner fun c timed b hend => ?_)
        exact not_not.mp fun hint => hnone ⟨c, timed, b, hend, hint⟩
      obtain ⟨ha, hr⟩ := waitsFull_of_await hs p hend
      rw [undisturbed_exec_iff hp]
      exact ⟨fun hadds => absurd hadds ha, fun hremoves => absurd hremoves hr,
        fun _ hfalse => absurd hfalse hint⟩

/-- In every interleaving of any number of producers and consumers, no wake-up is lost in any
state with the lock free exactly when all moves are undisturbed. -/
theorem wakeups_iff_undisturbed {ms : List (QueueMove τ α)} {s : QueueState τ α}
    (h : (queueMachine τ α).Run ms s) :
    (∀ m ∈ ms, m.post.owner = none → NoLostWakeup m.post) ↔ ∀ m ∈ ms, Undisturbed m := by
  refine Machine.Run.moves_iff
    (I := fun s => s.shared.Sound ∧ Monitor.NotSignalled s ∧ NoLostWakeup s)
    (P := fun m => m.post.owner = none → NoLostWakeup m.post) ?_ ?_ ?_ h
  · intro s hinit
    have hns := Monitor.notSignalled_of_init hinit
    obtain ⟨⟨n, hn⟩, -, hidle⟩ := hinit
    refine ⟨hn ▸ sound_new n, hns, ?_, ?_⟩
    all_goals
      rintro ⟨t, ht⟩
      rw [hidle t] at ht
      cases ht
  · rintro s a s' ⟨hs, hns, hw⟩ hstep hund
    exact ⟨sound_of_step hs hstep, Monitor.notSignalled_of_step silent_code hns hstep,
      (noLostWakeup_step_iff hs hns hw hstep).mpr hund⟩
  · rintro s a s' ⟨hs, hns, hw⟩ hstep
    rw [← noLostWakeup_step_iff hs hns hw hstep]
    refine ⟨fun hfree => ?_, fun hkept _ => hkept⟩
    by_cases howner : s'.owner = none
    · exact hfree howner
    · exact (noLostWakeup_step_iff hs hns hw hstep).mpr (undisturbed_of_owner hs hstep howner)

/-- The moves of a `put(5)`, of a timed `offer(6)` that waits until its time-out, and of a `take()`
that finds the element. -/
def offerTooLate : List (QueueMove Duo ℕ) :=
  (queueMachine Duo ℕ).moves (initial Duo ℕ 1)
    [.call .second (.blocking (.put 5)), .acquire .second, .exec .second [] false,
      .call .second (.blocking (.offerTimed 6)), .acquire .second, .exec .second [] false,
      .wake .second .timedOut, .acquire .second, .exec .second [] false,
      .call .first (.blocking .take), .acquire .first, .exec .first [] false]

theorem offerTooLate_wakeups :
    ∃ s, (queueMachine Duo ℕ).Run offerTooLate s ∧ s.phase .second = .returned (.flag false) ∧
      s.phase .first = .returned (.element (some 5)) ∧
      ((∀ m ∈ offerTooLate, m.post.owner = none → NoLostWakeup m.post) ↔
        ∀ m ∈ offerTooLate, Undisturbed m) := by
  have hrun : (queueMachine Duo ℕ).Run offerTooLate _ :=
    Machine.run_of_play (init_initial Duo ℕ 1) rfl
  exact ⟨_, hrun, rfl, rfl, wakeups_iff_undisturbed hrun⟩

/-- The moves of a `take()` that waits, and of a `put(5)` after it. -/
def takeThenPut : List (QueueMove Duo ℕ) :=
  (queueMachine Duo ℕ).moves (initial Duo ℕ 1)
    [.call .first (.blocking .take), .acquire .first, .exec .first [] false,
      .call .second (.blocking (.put 5)), .acquire .second, .exec .second [] false]

/-- The `put` leaves the thread in `take` parked, with the element in the queue. -/
theorem takeThenPut_loses_wakeup :
    (∃ s, (queueMachine Duo ℕ).Run takeThenPut s) ∧
      ¬ ∀ m ∈ takeThenPut, m.post.owner = none → NoLostWakeup m.post := by
  refine ⟨⟨_, Machine.run_of_play (init_initial Duo ℕ 1) rfl⟩, fun h => ?_⟩
  have hlast := (h (takeThenPut.getLast (by decide)) (List.getLast_mem _) rfl).empty ⟨.first, rfl⟩
  have hle : (1 : ℤ) ≤ (0 : ℕ) := hlast
  omega

end MyLinkedBlockingQueue

end LearnJava
