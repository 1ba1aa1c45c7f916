import LearnJava.Lock.QueueMonitor

/-!
# When the queue admits an element

`offer` and `add` look at `insertIndex` alone, `size` and `remainingCapacity` at both indices.  The
two only disagree after the last cell has been written: `cleanArray` moves the cells to the front of
the array, but no method ever moves `insertIndex` back, so that a queue from which elements are
taken then has room by its size and refuses every element.  It never recovers: a queue that was full
once admits nothing any more.

The states considered are those that any calls lead to, also with `null` elements; the states in
which an interleaving of threads leaves the queue are among them (`reachable_of_run`).
-/

namespace LearnJava

namespace MyLinkedBlockingQueue

variable {α : Type} {q : MyLinkedBlockingQueue α} {n : ℕ}

/-! ## The property -/

/-- A queue of `n` places after any calls. -/
inductive Reachable (n : ℕ) : MyLinkedBlockingQueue α → Prop
  | new : Reachable n (new n)
  | call {q : MyLinkedBlockingQueue α} (h : Reachable n q) (op : NonBlocking α) :
      Reachable n (op.call q).2

/-- The queue after the calls `ops`. -/
def after (q : MyLinkedBlockingQueue α) : List (NonBlocking α) → MyLinkedBlockingQueue α
  | [] => q
  | op :: ops => after (op.call q).2 ops

/-- The elements are offered one after the other, and all of them are accepted. -/
def AllAccepted (q : MyLinkedBlockingQueue α) : List (Option α) → Prop
  | [] => True
  | e :: es => ∃ q', (offer e).run q = .ok true q' ∧ AllAccepted q' es

/-- An element is admitted exactly when the size leaves room for it. -/
structure Admits (q : MyLinkedBlockingQueue α) : Prop where
  offer_iff : ∀ e, (∃ q', (offer e).run q = .ok true q') ↔ q.size < q.queueSize
  add_iff : ∀ e, (∃ r q', (add e).run q = .ok r q') ↔ q.size < q.queueSize
  remaining_iff : 0 < q.remainingCapacity ↔ q.size < q.queueSize

/-! ## Where the indices are -/

/-- The loop of `remove(Object)` over any cells: it ends with its start value or an index it has
passed, or it throws. -/
lemma findObject_run_state (o : Option (α → Bool)) (count index : ℕ) (objIndex : Option ℕ) :
    (∃ r, (findObject o count index objIndex).run q = .ok r q ∧
        (r = objIndex ∨ ∃ k, r = some k ∧ index ≤ k ∧ k < index + count)) ∨
      ∃ e, (findObject o count index objIndex).run q = .error e q := by
  induction count generalizing index objIndex with
  | zero => exact .inl ⟨objIndex, rfl, .inl rfl⟩
  | succ count ih =>
      cases hcell : q.elements[index]? with
      | none => exact .inr ⟨.arrayIndexOutOfBoundsException, by simp [findObject, aload, hcell]⟩
      | some element =>
          rcases sameOrEqual_run_state element o q with ⟨hit, hhit⟩ | herror
          · have hrun : (findObject o (count + 1) index objIndex).run q =
                (findObject o count (index + 1) (if hit then some index else objIndex)).run q := by
              simp [findObject, aload_run hcell, hhit]
            rw [hrun]
            apply (ih (index + 1) _).imp_left
            rintro ⟨r, hr, rfl | ⟨k, rfl, hk, hlt⟩⟩
            · refine ⟨_, hr, ?_⟩
              cases hit with
              | true => exact .inr ⟨index, rfl, le_rfl, by omega⟩
              | false => exact .inl rfl
            · exact ⟨_, hr, .inr ⟨k, rfl, by omega, by omega⟩⟩
          · exact .inr ⟨.nullPointerException, by simp [findObject, aload_run hcell, herror]⟩

/-- `remove(Object)` on any valid queue takes a cell out or leaves it as it is. -/
lemma removeObject_call (hq : q.Valid) (o : Option (α → Bool)) :
    ((NonBlocking.removeObject o).call q).2 = q ∨
      q.Shrinks ((NonBlocking.removeObject o).call q).2 := by
  have hlen := hq.length_elements
  have hstart := hq.start_le
  have hinsert := hq.insert_le
  obtain ⟨r, hrun, rfl | ⟨k, rfl, hk, hlt⟩⟩ | ⟨e, hrun⟩ := findObject_run_state (q := q) o
    (q.insertIndex - q.startIndex) q.startIndex none
  · exact .inl (by simp [NonBlocking.call, removeObject, hrun, reply])
  · by_cases hroom : q.insertIndex < q.queueSize
    · have hcopy := fun s : MyLinkedBlockingQueue α => arraycopy_run
        (show k + 1 + (q.insertIndex - k) ≤ q.elements.length by omega)
        (show k + (q.insertIndex - k) ≤ q.elements.length by omega) s
      have hcall : ((NonBlocking.removeObject o).call q).2 = q.withoutCell k := by
        simp [NonBlocking.call, removeObject, hrun, hcopy, reply, withoutCell]
      rw [hcall]
      exact .inr (.cell hk (by omega) hroom)
    · have hcopy := fun s : MyLinkedBlockingQueue α => arraycopy_run_error q.elements k
        (show q.elements.length < k + 1 + (q.insertIndex - k) by omega) s
      exact .inl (by simp [NonBlocking.call, removeObject, hrun, hcopy, reply])
  · exact .inl (by simp [NonBlocking.call, removeObject, hrun, reply])

/-- What any call can do to a valid queue. -/
lemma call_cases (hq : q.Valid) (op : NonBlocking α) :
    (∃ e, q.insertIndex < q.queueSize ∧ (op.call q).2 = q.pushed e) ∨
      q.Shrinks (op.call q).2 ∨ (op.call q).2 = q := by
  by_cases hop : ∃ o, op = .removeObject o
  · obtain ⟨o, rfl⟩ := hop
    exact .inr (removeObject_call hq o).symm
  · have heffect := call_effect hq op fun o ho => absurd ⟨o, ho⟩ hop
    generalize (op.call q).2 = q' at heffect
    cases heffect with
    | adds hadds hremoves hroom hnull => exact .inl ⟨_, hroom, rfl⟩
    | removes hadds hremoves hshrinks => exact .inr (.inl hshrinks)
    | keeps hadds hremoves => exact .inr (.inr rfl)

lemma valid_call (hq : q.Valid) (op : NonBlocking α) : (op.call q).2.Valid := by
  rcases call_cases hq op with ⟨e, hroom, hcall⟩ | hshrinks | hcall
  · rw [hcall]
    exact hq.pushed hroom e
  · exact hshrinks.valid hq
  · rw [hcall]
    exact hq

lemma Reachable.valid (h : Reachable n q) : q.Valid := by
  induction h with
  | new => exact valid_new n
  | call h op ih => exact valid_call ih op

/-- The last cell has been written. -/
structure Filled (q : MyLinkedBlockingQueue α) : Prop where
  valid : q.Valid
  insert_eq : q.insertIndex = q.queueSize

/-- No call moves `insertIndex` back from the end of the array. -/
lemma Filled.call (hq : q.Filled) (op : NonBlocking α) : (op.call q).2.Filled := by
  refine ⟨valid_call hq.valid op, ?_⟩
  rcases call_cases hq.valid op with ⟨e, hroom, -⟩ | hshrinks | hcall
  · exact absurd hq.insert_eq hroom.ne
  · generalize (op.call q).2 = q' at hshrinks
    cases hshrinks with
    | pop hcontent => exact hq.insert_eq
    | drain hcontent => exact hq.insert_eq
    | cell hk hki hroom => exact absurd hq.insert_eq hroom.ne
  · rw [hcall]
    exact hq.insert_eq

lemma Filled.after (hq : q.Filled) (ops : List (NonBlocking α)) : (q.after ops).Filled := by
  induction ops generalizing q with
  | nil => exact hq
  | cons op ops ih => exact ih (hq.call op)

/-- A queue that was filled refuses every element. -/
lemma Filled.allAccepted_iff (hq : q.Filled) (es : List (Option α)) :
    q.AllAccepted es ↔ es = [] := by
  cases es with
  | nil => exact iff_of_true trivial rfl
  | cons e es =>
      refine iff_of_false ?_ (List.cons_ne_nil e es)
      rintro ⟨q', hoffer, -⟩
      rw [offer_run_full hq.insert_eq.not_lt] at hoffer
      cases hoffer

/-! ## Admission -/

/-- `offer` accepts an element, and `add` does not throw, as long as there are cells behind
`insertIndex`. -/
lemma offer_accepts_iff (hq : q.Valid) (e : Option α) :
    (∃ q', (offer e).run q = .ok true q') ↔ q.insertIndex < q.queueSize := by
  refine ⟨?_, fun hroom => ⟨_, offer_run hq hroom e⟩⟩
  rintro ⟨q', hoffer⟩
  by_contra hfull
  rw [offer_run_full hfull] at hoffer
  cases hoffer

lemma add_returns_iff (hq : q.Valid) (e : Option α) :
    (∃ r q', (add e).run q = .ok r q') ↔ q.insertIndex < q.queueSize := by
  refine ⟨?_, fun hroom => ⟨_, _, add_run hq hroom e⟩⟩
  rintro ⟨r, q', hadd⟩
  by_contra hfull
  rw [add_run_full hfull] at hadd
  cases hadd

/-- Both tests agree unless the array was filled and elements have left it. -/
lemma room_iff_size (hq : q.Valid) :
    (q.insertIndex < q.queueSize ↔ q.size < q.queueSize) ↔
      ¬(q.insertIndex = q.queueSize ∧ 0 < q.startIndex) := by
  have hinsert := hq.insert_le
  simp only [size]
  omega

/-- **Admission.**  A reachable queue admits elements by its size exactly as long as its last cell
has not been written or nothing has left its front; and a queue that was full accepts nothing any
more, whatever was called in between. -/
theorem admission_iff (h : Reachable n q) :
    (q.Admits ↔ ¬(q.insertIndex = q.queueSize ∧ 0 < q.startIndex)) ∧
      (q.size = q.queueSize → ∀ ops es, (q.after ops).AllAccepted es ↔ es = []) := by
  have hq := h.valid
  refine ⟨?_, fun hfull ops es => ?_⟩
  · rw [← room_iff_size hq]
    constructor
    · intro hadmits
      rw [← hadmits.offer_iff none, offer_accepts_iff hq]
    · intro hiff
      refine ⟨fun e => ?_, fun e => ?_, ?_⟩
      · rw [offer_accepts_iff hq, hiff]
      · rw [add_returns_iff hq, hiff]
      · simp only [remainingCapacity, size]
        omega
  · have hfilled : q.Filled := by
      refine ⟨hq, ?_⟩
      have hinsert := hq.insert_le
      simp only [size] at hfull
      omega
    exact (hfilled.after ops).allAccepted_iff es

/-- One of two places is taken. -/
def oneOfTwo : MyLinkedBlockingQueue ℕ := (new 2).after [.offer (some 7)]

theorem admission_iff_oneOfTwo :
    (oneOfTwo.Admits ↔ ¬(oneOfTwo.insertIndex = oneOfTwo.queueSize ∧ 0 < oneOfTwo.startIndex)) ∧
      (oneOfTwo.size = oneOfTwo.queueSize →
        ∀ ops es, (oneOfTwo.after ops).AllAccepted es ↔ es = []) :=
  admission_iff (Reachable.new.call (.offer (some 7)))

/-- The only place was taken and is free again. -/
def emptiedOne : MyLinkedBlockingQueue ℕ := (new 1).after [.offer (some 7), .poll]

/-- A queue of one place without an element refuses one. -/
theorem emptiedOne_refuses :
    Reachable 1 emptiedOne ∧ emptiedOne.size = 0 ∧ emptiedOne.remainingCapacity = 1 ∧
      (offer (some 8)).run emptiedOne = .ok false emptiedOne ∧ ¬emptiedOne.Admits := by
  refine ⟨(Reachable.new.call (.offer (some 7))).call .poll, rfl, rfl, rfl, fun h => ?_⟩
  obtain ⟨q', hoffer⟩ := (h.offer_iff (some 8)).mpr (by decide)
  cases hoffer

/-! ## Threads -/

/-- A segment does what a call does, or nothing. -/
lemma segment_shared (p : Point α) (q : MyLinkedBlockingQueue α) :
    (p.segment q).shared = q ∨ ∃ op : NonBlocking α, (p.segment q).shared = (op.call q).2 := by
  rcases p with (b | op) | ⟨w, b⟩
  · exact (enter_shared b q).imp_right fun hcall => ⟨_, hcall⟩
  · exact .inr ⟨op.1, rfl⟩
  · exact (resume_shared b w q).imp_right fun hcall => ⟨_, hcall⟩

/-- Threads leave the queue in a state that calls lead to. -/
theorem reachable_of_run {τ : Type} [DecidableEq τ] [Fintype τ] {ms : List (QueueMove τ α)}
    {s : QueueState τ α} (h : (queueMachine τ α).Run ms s) : ∃ n, Reachable n s.shared := by
  have hsegment : ∀ (p : Point α) (q : MyLinkedBlockingQueue α), (∃ n, Reachable n q) →
      ∃ n, Reachable n (p.segment q).shared := by
    rintro p q ⟨n, hq⟩
    rcases segment_shared p q with hsame | ⟨op, hcall⟩
    · rw [hsame]
      exact ⟨n, hq⟩
    · rw [hcall]
      exact ⟨n, hq.call op⟩
  refine Monitor.shared_of_run (I := fun q => ∃ n, Reachable n q) ?_ ⟨?_, ?_⟩ h
  · rintro _ ⟨n, rfl⟩
    exact ⟨n, .new⟩
  · intro c q
    exact hsegment (.start c) q
  · intro b w q
    exact hsegment (.after w b) q

end MyLinkedBlockingQueue

end LearnJava
