import LearnJava.Lock.QueueAdmission

/-!
# The indices stay in the array

Whatever threads call on one queue, in any order and with `null` elements too, `startIndex` never
passes `insertIndex`, and `insertIndex` never passes the end of the array.  From this everything
follows that the methods rely on: none of them but `remove(Object)` reads or writes a cell outside
the array, and `size()` and `remainingCapacity()` share the places between them.

The collection that `drainTo` adds to may be any here.  It may refuse an element with an exception,
which leaves `startIndex` where it was, or be the queue itself, so that `insertIndex` moves while
the loop runs.
-/

namespace LearnJava

namespace MyLinkedBlockingQueue

open Monitor (Wake)

variable {α : Type}

/-! ## Threads that call any method -/

/-- A call of a method that never waits; the two `drainTo` with a receiving collection of any
kind. -/
inductive AnyNonBlocking (α : Type)
  | plain (op : NonBlocking α)
  | drainInto (c : Receiver)
  | drainIntoMax (c : Receiver) (maxElements : ℤ)

/-- Run the method a call stands for. -/
def AnyNonBlocking.call (op : AnyNonBlocking α) (q : MyLinkedBlockingQueue α) :
    Reply α × MyLinkedBlockingQueue α :=
  match op with
  | plain op => op.call q
  | drainInto c => reply (fun r => .drained r.1 r.2) ((MyLinkedBlockingQueue.drainInto c).run q)
  | drainIntoMax c n =>
    reply (fun r => .drained r.1 r.2) ((MyLinkedBlockingQueue.drainIntoMax c n).run q)

/-- The threads `τ` and one queue. -/
abbrev AnyState (τ α : Type) :=
  Monitor.State τ (MyLinkedBlockingQueue α) Cond (AnyCall (Option α) (AnyNonBlocking α))
    (Blocking (Option α)) (Reply α)

/-- An action of one of the threads, with any call and any elements. -/
abbrev AnyAction (τ α : Type) := Monitor.Action τ (AnyCall (Option α) (AnyNonBlocking α))

/-- A step of one of the threads. -/
abbrev AnyMove (τ α : Type) := Move (AnyState τ α) (AnyAction τ α)

/-- Any interleaving of any calls on a new queue of `n` places. -/
def anyMachine (τ α : Type) [DecidableEq τ] [Fintype τ] (n : ℕ) :
    Machine (AnyState τ α) (AnyAction τ α) :=
  Monitor.machine τ (anyCode id AnyNonBlocking.call) fun q => q = new n

/-! ## The property -/

/-- The indices of a queue of `n` places are in order and in the array, the methods that rely on it
stay in the array, and the sizes add up.  An access outside the array would throw. -/
structure Bounded (n : ℕ) (q : MyLinkedBlockingQueue α) : Prop where
  capacity : q.queueSize = n
  indices : q.startIndex ≤ q.insertIndex ∧ q.insertIndex ≤ q.queueSize
  length : q.elements.length = q.queueSize
  offer_in : ∀ e, (offer e).thrown q = none
  poll_in : poll.thrown q = none
  peek_in : peek.thrown q = none
  element_in : ∀ e, element.thrown q = some e → e = .noSuchElementException
  toArray_in : toArray.thrown q = none
  cleanArray_in : cleanArray.thrown q = none
  drainTo_in : ∀ (c : Receiver) e, (drainInto c).thrown q = some e → c.Throws e
  drainToMax_in : ∀ (c : Receiver) maxElements e,
    (drainIntoMax c maxElements).thrown q = some e → c.Throws e
  size_in : 0 ≤ q.size ∧ q.size ≤ q.queueSize
  remainingCapacity_in : 0 ≤ q.remainingCapacity ∧ q.remainingCapacity ≤ q.queueSize
  sum : q.size + q.remainingCapacity = q.queueSize

/-! ## What a collection can do to the queue -/

/-- `q'` is `q` after some elements were added to it, or none. -/
structure Grows (q q' : MyLinkedBlockingQueue α) : Prop where
  valid : q'.Valid
  queueSize_eq : q'.queueSize = q.queueSize
  startIndex_eq : q'.startIndex = q.startIndex
  insert_le : q.insertIndex ≤ q'.insertIndex

section Draining

variable {q : MyLinkedBlockingQueue α}

lemma Grows.refl (hq : q.Valid) : q.Grows q := ⟨hq, rfl, rfl, le_rfl⟩

lemma Grows.trans {q₁ q₂ : MyLinkedBlockingQueue α} (h : q.Grows q₁) (h' : q₁.Grows q₂) :
    q.Grows q₂ where
  valid := h'.valid
  queueSize_eq := h'.queueSize_eq.trans h.queueSize_eq
  startIndex_eq := h'.startIndex_eq.trans h.startIndex_eq
  insert_le := h.insert_le.trans h'.insert_le

lemma Grows.pushed (hq : q.Valid) (hroom : q.insertIndex < q.queueSize) (x : Option α) :
    q.Grows (q.pushed x) where
  valid := hq.pushed hroom x
  queueSize_eq := queueSize_pushed q x
  startIndex_eq := startIndex_pushed q x
  insert_le := by
    rw [insertIndex_pushed]
    exact Nat.le_succ _

/-- A method of the loops returns or throws what `c` throws, and the queue has grown at most. -/
def EndsGrown {β : Type} (c : Receiver) (q : MyLinkedBlockingQueue α)
    (r : EStateM.Result Throwable (MyLinkedBlockingQueue α) β)
    (post : β → MyLinkedBlockingQueue α → Prop) : Prop :=
  ∃ q', q.Grows q' ∧ ((∃ b, r = .ok b q' ∧ post b q') ∨ ∃ e, c.Throws e ∧ r = .error e q')

lemma add_grows (hq : q.Valid) (c : Receiver) (index : ℕ) (x : Option α) :
    EndsGrown c q ((c.add index x).run q) fun _ _ => True := by
  cases c with
  | collection refuses =>
      refine ⟨q, .refl hq, ?_⟩
      cases hrefuses : refuses index with
      | none => exact .inl ⟨⟨⟩, by simp [Receiver.add, hrefuses], trivial⟩
      | some e => exact .inr ⟨e, ⟨index, hrefuses⟩, by simp [Receiver.add, hrefuses]⟩
  | self =>
      by_cases hroom : q.insertIndex < q.queueSize
      · exact ⟨_, .pushed hq hroom x, .inl ⟨⟨⟩, bind_of_run (add_run hq hroom x) _, trivial⟩⟩
      · exact ⟨q, .refl hq, .inr ⟨_, rfl, bind_of_throw (add_run_full hroom x) _⟩⟩

lemma EndsGrown.imp {β : Type} {c : Receiver}
    {r : EStateM.Result Throwable (MyLinkedBlockingQueue α) β}
    {post post' : β → MyLinkedBlockingQueue α → Prop} (h : EndsGrown c q r post)
    (himp : ∀ b q', post b q' → post' b q') : EndsGrown c q r post' := by
  obtain ⟨q', hgrows, ⟨b, hrun, hpost⟩ | herror⟩ := h
  · exact ⟨q', hgrows, .inl ⟨b, hrun, himp b q' hpost⟩⟩
  · exact ⟨q', hgrows, .inr herror⟩

/-- What follows the read in a pass of either loop. -/
lemma pass_grows (hq : q.Valid) (c : Receiver) (index : ℕ) (x : Option α)
    {rest : Method (MyLinkedBlockingQueue α) (List (Option α))}
    {post : List (Option α) → MyLinkedBlockingQueue α → Prop}
    (hrest : ∀ q₁, q.Grows q₁ → EndsGrown c q₁ (rest.run q₁) fun xs => post (x :: xs)) :
    EndsGrown c q ((do c.add index x; return x :: (← rest) :
      Method (MyLinkedBlockingQueue α) (List (Option α))).run q) post := by
  obtain ⟨q₁, hgrows, ⟨u, hadd, -⟩ | ⟨e, hthrows, hadd⟩⟩ := add_grows hq c index x
  · rw [bind_of_run hadd]
    obtain ⟨q₂, hgrows', ⟨xs, hrun, hpost⟩ | ⟨e, hthrows, hrun⟩⟩ := hrest q₁ hgrows
    · exact ⟨q₂, hgrows.trans hgrows', .inl ⟨x :: xs, bind_of_run hrun _, hpost⟩⟩
    · exact ⟨q₂, hgrows.trans hgrows', .inr ⟨e, hthrows, bind_of_throw hrun _⟩⟩
  · exact ⟨q₁, hgrows, .inr ⟨e, hthrows, bind_of_throw hadd _⟩⟩

/-- The loop of `drainTo(c)` stays in the array, and stops for its condition. -/
lemma drainFrom_grows (hq : q.Valid) (c : Receiver) (fuel index : ℕ) :
    EndsGrown c q ((drainFrom c fuel index).run q) fun xs q' =>
      q.queueSize ≤ index + fuel → q'.insertIndex ≤ index + xs.length := by
  induction fuel generalizing q index with
  | zero => exact ⟨q, .refl hq, .inl ⟨[], rfl, fun hend => hq.insert_le.trans hend⟩⟩
  | succ fuel ih =>
      by_cases hin : index < q.insertIndex
      · obtain ⟨x, hx⟩ := exists_cell hq hin
        simp only [drainFrom, get_bind_run, if_pos hin, bind_of_run (aload_run hx q)]
        refine pass_grows hq c index x fun q₁ hgrows => ?_
        refine (ih hgrows.valid (index + 1)).imp fun xs q' hstops hend => ?_
        have hsize := hgrows.queueSize_eq
        have hle := hstops (by omega)
        rw [List.length_cons]
        omega
      · exact ⟨q, .refl hq, .inl ⟨[], by simp [drainFrom, hin], fun _ => not_lt.mp hin⟩⟩

/-- The passes of `drainTo(c, maxElements)` stay in the array, whose queue never gets shorter. -/
lemma drainCount_grows (hq : q.Valid) (c : Receiver) (count index : ℕ)
    (h : q.startIndex + index + count ≤ q.insertIndex) :
    EndsGrown c q ((drainCount c count index).run q) fun _ _ => True := by
  induction count generalizing q index with
  | zero => exact ⟨q, .refl hq, .inl ⟨[], rfl, trivial⟩⟩
  | succ count ih =>
      obtain ⟨x, hx⟩ := exists_cell hq (show q.startIndex + index < q.insertIndex by omega)
      simp only [drainCount, get_bind_run, bind_of_run (aload_run hx q)]
      refine pass_grows hq c _ x fun q₁ hgrows => ih hgrows.valid (index + 1) ?_
      have hstart := hgrows.startIndex_eq
      have hinsert := hgrows.insert_le
      omega

/-- `drainTo(c)` returns when all elements have been added to `c`, or throws what `c` throws. -/
lemma drainInto_cases (hq : q.Valid) (c : Receiver) :
    ∃ q', q.Grows q' ∧
      ((∃ n xs, (drainInto c).run q = .ok (n, xs) q'.drained ∧
          q'.insertIndex ≤ q.startIndex + xs.length) ∨
        ∃ e, c.Throws e ∧ (drainInto c).run q = .error e q') := by
  unfold drainInto
  rw [get_bind_run]
  cases hempty : q.isEmpty with
  | true =>
      rw [isEmpty, beq_iff_eq] at hempty
      have hsame : q.drained = q := congrArg (fun i => { q with startIndex := i }) hempty.symm
      exact ⟨q, .refl hq, .inl ⟨0, [], by rw [hsame]; rfl, hempty.ge⟩⟩
  | false =>
      simp only [Bool.false_eq_true, if_false]
      obtain ⟨q', hgrows, ⟨xs, hrun, hstops⟩ | ⟨e, hthrows, hrun⟩⟩ :=
        drainFrom_grows hq c q.queueSize q.startIndex
      · exact ⟨q', hgrows, .inl ⟨q'.size, xs, bind_of_run hrun _, hstops (Nat.le_add_left _ _)⟩⟩
      · exact ⟨q', hgrows, .inr ⟨e, hthrows, bind_of_throw hrun _⟩⟩

lemma drainIntoMax_cases (hq : q.Valid) (c : Receiver) (maxElements : ℤ) :
    EndsGrown c q ((drainIntoMax c maxElements).run q) fun _ _ => True := by
  unfold drainIntoMax
  rw [get_bind_run]
  cases hempty : q.isEmpty with
  | true => exact ⟨q, .refl hq, .inl ⟨(0, []), rfl, trivial⟩⟩
  | false =>
      simp only [Bool.false_eq_true, if_false]
      have hle : q.startIndex + 0 + (min q.size maxElements).toNat ≤ q.insertIndex := by
        have hstart := hq.start_le
        have hsize : q.size = q.insertIndex - q.startIndex := rfl
        omega
      obtain ⟨q', hgrows, ⟨xs, hrun, -⟩ | ⟨e, hthrows, hrun⟩⟩ := drainCount_grows hq c _ 0 hle
      · exact ⟨q', hgrows, .inl ⟨(min q.size maxElements, xs), bind_of_run hrun _, trivial⟩⟩
      · exact ⟨q', hgrows, .inr ⟨e, hthrows, bind_of_throw hrun _⟩⟩

end Draining

/-! ## One segment -/

section Segments

variable {q : MyLinkedBlockingQueue α} {n : ℕ}

/-- A valid queue of `n` places. -/
structure ValidOf (n : ℕ) (q : MyLinkedBlockingQueue α) : Prop where
  valid : q.Valid
  queueSize_eq : q.queueSize = n

lemma validOf_call (hq : q.ValidOf n) (op : NonBlocking α) : (op.call q).2.ValidOf n := by
  refine ⟨valid_call hq.valid op, ?_⟩
  rcases call_cases hq.valid op with ⟨e, -, hcall⟩ | hshrinks | hcall
  · rw [hcall, queueSize_pushed, hq.queueSize_eq]
  · rw [hshrinks.queueSize_eq, hq.queueSize_eq]
  · rw [hcall, hq.queueSize_eq]

lemma Grows.validOf {q' : MyLinkedBlockingQueue α} (hq : q.ValidOf n) (h : q.Grows q') :
    q'.ValidOf n := ⟨h.valid, h.queueSize_eq.trans hq.queueSize_eq⟩

lemma ValidOf.drained (hq : q.ValidOf n) : q.drained.ValidOf n :=
  ⟨hq.valid.drained, hq.queueSize_eq⟩

lemma reply_shared {β : Type} (f : β → Reply α) (x : Method (MyLinkedBlockingQueue α) β) :
    (reply f (x.run q)).2 = x.after q := by
  unfold Method.after
  cases h : x.run q <;> simp [reply]

lemma validOf_drainInto (hq : q.ValidOf n) (c : Receiver) :
    ((drainInto c).after q).ValidOf n := by
  obtain ⟨q', hgrows, ⟨k, xs, hrun, -⟩ | ⟨e, -, hrun⟩⟩ := drainInto_cases hq.valid c
  · rw [after_of_run hrun]
    exact (hgrows.validOf hq).drained
  · rw [after_of_throw hrun]
    exact hgrows.validOf hq

lemma validOf_drainIntoMax (hq : q.ValidOf n) (c : Receiver) (maxElements : ℤ) :
    ((drainIntoMax c maxElements).after q).ValidOf n := by
  obtain ⟨q', hgrows, ⟨r, hrun, -⟩ | ⟨e, -, hrun⟩⟩ := drainIntoMax_cases hq.valid c maxElements
  · rw [after_of_run hrun]
    exact hgrows.validOf hq
  · rw [after_of_throw hrun]
    exact hgrows.validOf hq

lemma validOf_enter (hq : q.ValidOf n) (call : AnyCall (Option α) (AnyNonBlocking α)) :
    (enter id AnyNonBlocking.call call q).shared.ValidOf n := by
  rcases call with b | op | c | ⟨c, maxElements⟩
  · rcases enter_shared b q with hsame | hcall
    · rw [hsame]
      exact hq
    · rw [hcall]
      exact validOf_call hq _
  · exact validOf_call hq op
  · rw [enter, leaves, AnyNonBlocking.call, reply_shared]
    exact validOf_drainInto hq c
  · rw [enter, leaves, AnyNonBlocking.call, reply_shared]
    exact validOf_drainIntoMax hq c maxElements

lemma validOf_resume (hq : q.ValidOf n) (b : Blocking (Option α)) (w : Wake) :
    (resume id b w q).shared.ValidOf n := by
  rcases resume_shared b w q with hsame | hcall
  · rw [hsame]
    exact hq
  · rw [hcall]
    exact validOf_call hq _

end Segments

/-! ## Every state reached -/

section Runs

variable {τ : Type} [DecidableEq τ] [Fintype τ] {n : ℕ}

lemma validOf_of_run {ms : List (AnyMove τ α)} {s : AnyState τ α}
    (h : (anyMachine τ α n).Run ms s) : s.shared.ValidOf n := by
  refine Monitor.shared_of_run (I := fun q => q.ValidOf n) ?_ ⟨?_, ?_⟩ h
  · rintro _ rfl
    exact ⟨valid_new n, rfl⟩
  · exact fun call q hq => validOf_enter hq call
  · exact fun b w q hq => validOf_resume hq b w

lemma element_thrown {q : MyLinkedBlockingQueue α} (hq : q.Valid) {e : Throwable}
    (h : element.thrown q = some e) : e = .noSuchElementException := by
  cases hc : q.content with
  | nil =>
      rw [thrown_of_throw (element_run_nil hq hc)] at h
      exact (Option.some.inj h).symm
  | cons x rest =>
      rw [thrown_of_run (element_run_cons hq hc)] at h
      cases h

lemma bounded_of_validOf {q : MyLinkedBlockingQueue α} (h : q.ValidOf n) : q.Bounded n := by
  have hq := h.valid
  have hstart := hq.start_le
  have hinsert := hq.insert_le
  refine ⟨h.queueSize_eq, ⟨hstart, hinsert⟩, hq.length_elements, fun e => ?_, ?_, ?_, fun e => ?_,
    thrown_of_run (toArray_run hq), thrown_of_run (cleanArray_run hq), fun c e he => ?_,
    fun c maxElements e he => ?_, ?_, ?_, ?_⟩
  · by_cases hroom : q.insertIndex < q.queueSize
    · exact thrown_of_run (offer_run hq hroom e)
    · exact thrown_of_run (offer_run_full hroom e)
  · cases hc : q.content with
    | nil => exact thrown_of_run (poll_run_nil hq hc)
    | cons x rest => exact thrown_of_run (poll_run_cons hq hc)
  · cases hc : q.content with
    | nil => exact thrown_of_run (peek_run_nil hq hc)
    | cons x rest => exact thrown_of_run (peek_run_cons hq hc)
  · exact element_thrown hq
  · obtain ⟨q', -, ⟨k, xs, hrun, -⟩ | ⟨e', hthrows, hrun⟩⟩ := drainInto_cases hq c
    · rw [thrown_of_run hrun] at he
      cases he
    · rw [thrown_of_throw hrun, Option.some.injEq] at he
      exact he ▸ hthrows
  · obtain ⟨q', -, ⟨r, hrun, -⟩ | ⟨e', hthrows, hrun⟩⟩ := drainIntoMax_cases hq c maxElements
    · rw [thrown_of_run hrun] at he
      cases he
    · rw [thrown_of_throw hrun, Option.some.injEq] at he
      exact he ▸ hthrows
  · unfold size
    omega
  · simp only [remainingCapacity]
    omega
  · simp only [size, remainingCapacity]
    omega

/-- **Bounds.**  In every state that threads reach on a queue of `n` places, by any calls and with
any elements, the indices are in order and in the array, the methods access no other cells, and the
sizes add up. -/
theorem bounded_of_run {ms : List (AnyMove τ α)} {s : AnyState τ α}
    (h : (anyMachine τ α n).Run ms s) : s.shared.Bounded n :=
  bounded_of_validOf (validOf_of_run h)

/-- A new queue of `n` places, and no thread in any of its methods. -/
def fresh (τ α : Type) (n : ℕ) : AnyState τ α := ⟨new n, none, fun _ => .idle⟩

lemma init_fresh (τ α : Type) [DecidableEq τ] [Fintype τ] (n : ℕ) :
    (anyMachine τ α n).init (fresh τ α n) := ⟨rfl, rfl, fun _ => rfl⟩

/-- One thread calls `put(null)`, and another one `drainTo` with a collection that refuses it. -/
def refusal : List (AnyAction Duo ℕ) :=
  [.call .first (.blocking (.put none)), .acquire .first, .exec .first [] false,
    .call .second (.nonBlocking (.drainInto (.collection fun _ => some .nullPointerException))),
    .acquire .second, .exec .second [] false]

/-- The state after them. -/
def refused : AnyState Duo ℕ :=
  ((anyMachine Duo ℕ 1).play (fresh Duo ℕ 1) refusal).getD (fresh Duo ℕ 1)

theorem refused_bounded : refused.shared.Bounded 1 := by
  have hplay : (anyMachine Duo ℕ 1).play (fresh Duo ℕ 1) refusal = some refused := rfl
  exact bounded_of_run (Machine.run_of_play (init_fresh Duo ℕ 1) hplay)

end Runs

end MyLinkedBlockingQueue

end LearnJava
