import LearnJava.Lock.QueueSearch

/-!
# Draining the queue

`drainTo(c)` hands out all elements and moves `startIndex` up to `insertIndex`.  `drainTo(c,
maxElements)` is a second loop, after which `startIndex` stays where it was: whatever it adds to `c`
is still in the queue, and for a negative limit it returns that limit.  The two only agree on an
empty queue.
-/

namespace LearnJava

namespace MyLinkedBlockingQueue

variable {α : Type} {q : MyLinkedBlockingQueue α} {n : ℕ}

/-! ## The properties -/

/-- What a method has returned, and the receiving list `c` after it. -/
def received (c : List (Option α)) (r : ℤ × List (Option α)) : ℤ × List (Option α) :=
  (r.1, c ++ r.2)

/-- `drainTo(c, maxElements)` moves the first elements to `c`, up to the limit, and returns their
number. -/
def Drains (q : MyLinkedBlockingQueue α) (c : List (Option α)) (maxElements : ℤ) : Prop :=
  ∀ xs, q.Shows xs →
    let count := min (xs.length : ℤ) (max 0 maxElements)
    ∃ q', (received c <$> drainToMax maxElements).run q =
      .ok (count, c ++ xs.take count.toNat) q' ∧ q'.Shows (xs.drop count.toNat)

/-- `drainTo(c)` does the same as `drainTo(c, Integer.MAX_VALUE)`. -/
def DrainsAlike (q : MyLinkedBlockingQueue α) (c : List (Option α)) : Prop :=
  ∃ r q₁ q₂ rest, (received c <$> drainTo).run q = .ok r q₁ ∧
    (received c <$> drainToMax Integer.MAX_VALUE).run q = .ok r q₂ ∧
    q₁.Shows rest ∧ q₂.Shows rest

/-! ## What the two loops do -/

lemma drainTo_received (hq : q.Valid) (c : List (Option α)) :
    (received c <$> drainTo).run q = .ok (q.size, c ++ q.content) q.drained :=
  map_run (drainTo_run hq) _

lemma drainToMax_received_nil (h : q.isEmpty = true) (c : List (Option α)) (maxElements : ℤ) :
    (received c <$> drainToMax maxElements).run q = .ok (0, c) q := by
  rw [map_run (drainToMax_run_nil h maxElements), received, List.append_nil]

lemma drainToMax_received (hq : q.Valid) (h : q.isEmpty = false) (c : List (Option α))
    (maxElements : ℤ) :
    (received c <$> drainToMax maxElements).run q =
      .ok (min q.size maxElements, c ++ q.content.take (min q.size maxElements).toNat) q :=
  map_run (drainToMax_run_nonempty hq h maxElements) _

/-- A queue that is not empty keeps what it hands out, and takes a negative limit for a number. -/
lemma drains_iff_zero (hq : q.Valid) (h : q.isEmpty = false) (c : List (Option α))
    (maxElements : ℤ) : q.Drains c maxElements ↔ maxElements = 0 := by
  have hlength : 0 < q.content.length := by
    rw [List.length_pos_iff, ne_eq, ← isEmpty_iff_content hq, h]
    exact Bool.false_ne_true
  simp only [Drains, shows_iff hq, forall_eq, drainToMax_received hq h,
    size_eq_length_content hq]
  constructor
  · rintro ⟨q', hrun, hshows⟩
    obtain ⟨hr, rfl⟩ := EStateM.Result.ok.inj hrun
    obtain ⟨hcount, -⟩ := Prod.ext_iff.mp hr
    have hkept := congrArg List.length ((shows_iff hq).mp hshows)
    rw [List.length_drop] at hkept
    simp only at hcount
    omega
  · rintro rfl
    refine ⟨q, ?_, ?_⟩
    · simp
    · rw [shows_iff hq]
      simp

/-- There is nothing to move. -/
lemma drains_of_empty (hq : q.Valid) (h : q.isEmpty = true) (c : List (Option α))
    (maxElements : ℤ) : q.Drains c maxElements := by
  have hnil := (isEmpty_iff_content hq).mp h
  simp only [Drains, shows_iff hq, forall_eq, hnil]
  refine ⟨q, ?_, ?_⟩
  · simpa using drainToMax_received_nil h c maxElements
  · rw [shows_iff hq, hnil, List.drop_nil]

/-- Only an empty queue is left the same by the two methods. -/
lemma drainsAlike_iff (hq : q.Valid) (c : List (Option α)) :
    q.DrainsAlike c ↔ q.isEmpty = true := by
  constructor
  · rintro ⟨r, q₁, q₂, rest, hall, hmax, hshows₁, hshows₂⟩
    by_contra hempty
    rw [Bool.not_eq_true] at hempty
    rw [drainTo_received hq] at hall
    rw [drainToMax_received hq hempty] at hmax
    cases hall
    obtain ⟨-, rfl⟩ := EStateM.Result.ok.inj hmax
    have hrest := (shows_iff hq.drained).mp hshows₁
    have hkept := (shows_iff hq).mp hshows₂
    rw [hrest, content_drained] at hkept
    rw [(isEmpty_iff_content hq).mpr hkept.symm] at hempty
    cases hempty
  · intro hempty
    have hnil := (isEmpty_iff_content hq).mp hempty
    have hzero : q.size = 0 := by
      rw [size_eq_length_content hq, hnil]
      rfl
    have hrun := drainTo_received hq c
    rw [hzero, hnil, List.append_nil] at hrun
    exact ⟨_, _, _, [], hrun, drainToMax_received_nil hempty c _,
      (shows_iff hq.drained).mpr (content_drained q).symm, (shows_iff hq).mpr hnil.symm⟩

/-- **Draining.**  `drainTo(c, maxElements)` on a reachable queue moves its elements exactly if the
queue is empty or the limit is 0, and does the same as `drainTo(c)` exactly if the queue is
empty. -/
theorem drains_iff (h : Reachable n q) (c : List (Option α)) (maxElements : ℤ) :
    (q.Drains c maxElements ↔ q.isEmpty = true ∨ maxElements = 0) ∧
      (q.DrainsAlike c ↔ q.isEmpty = true) := by
  have hq := h.valid
  refine ⟨?_, drainsAlike_iff hq c⟩
  cases hempty : q.isEmpty with
  | true => exact iff_of_true (drains_of_empty hq hempty c maxElements) (.inl rfl)
  | false =>
      rw [drains_iff_zero hq hempty]
      simp

theorem drains_iff_twiceOfThree :
    (twiceOfThree.Drains [some 9] 1 ↔ twiceOfThree.isEmpty = true ∨ (1 : ℤ) = 0) ∧
      (twiceOfThree.DrainsAlike [some 9] ↔ twiceOfThree.isEmpty = true) :=
  drains_iff ((Reachable.new.call (.offer (some 7))).call (.offer (some 7))) [some 9] 1

/-- An element that was handed out is still there, and a negative limit is returned. -/
theorem twiceOfThree_keeps_drained :
    Reachable 3 twiceOfThree ∧
      (received [] <$> drainToMax 1).run twiceOfThree = .ok (1, [some 7]) twiceOfThree ∧
      (received [] <$> drainToMax (-1)).run twiceOfThree = .ok (-1, []) twiceOfThree ∧
      ¬twiceOfThree.Drains [] 1 ∧ ¬twiceOfThree.Drains [] (-1) ∧ ¬twiceOfThree.DrainsAlike [] := by
  have hq : twiceOfThree.Valid :=
    ((Reachable.new (α := ℕ) (n := 3)).call _ |>.call _).valid
  refine ⟨(Reachable.new.call _).call _, rfl, rfl, ?_, ?_, ?_⟩
  · rw [drains_iff_zero hq rfl]
    decide
  · rw [drains_iff_zero hq rfl]
    decide
  · rw [drainsAlike_iff hq]
    decide

end MyLinkedBlockingQueue

end LearnJava
