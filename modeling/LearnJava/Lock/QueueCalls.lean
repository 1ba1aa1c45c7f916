import LearnJava.Lock.MyLinkedBlockingQueue

/-!
# Calls of the queue's non-blocking methods

Every method of `MyLinkedBlockingQueue` that never waits, as one call with one reply.  On a valid
queue without `null` elements a call has one of three effects (`call_effect`): it adds an
element, takes some out, or changes nothing; `Adds` and `Removes` tell which, from the state
before the call.  Everything later needs of the methods — bounds, sizes, which elements are
left — follows from the three cases.
-/

namespace LearnJava

namespace MyLinkedBlockingQueue

variable {α : Type} {q : MyLinkedBlockingQueue α}

/-! ## Calls and replies -/

/-- What a call gave back: nothing, a `boolean`, an element or `null`, an array, a count with the
elements added to the receiving collection, or an exception. -/
inductive Reply (α : Type)
  | void
  | flag (b : Bool)
  | element (x : Option α)
  | array (xs : List (Option α))
  | drained (count : ℤ) (added : List (Option α))
  | thrown (e : Throwable)
  deriving DecidableEq, Repr

/-- The reply and the fields a method ends with. -/
def reply {β : Type} (f : β → Reply α) :
    EStateM.Result Throwable (MyLinkedBlockingQueue α) β → Reply α × MyLinkedBlockingQueue α
  | .ok r q => (f r, q)
  | .error e q => (.thrown e, q)

/-- A call of a method that never waits. -/
inductive NonBlocking (α : Type)
  | offer (e : Option α)
  | add (e : Option α)
  | poll
  | remove
  | peek
  | element
  | toArray
  | removeObject (o : Option (α → Bool))
  | contains (o : Option (α → Bool))
  | drainTo
  | drainToMax (maxElements : ℤ)

namespace NonBlocking

/-- Run the method a call stands for. -/
def call (op : NonBlocking α) (q : MyLinkedBlockingQueue α) : Reply α × MyLinkedBlockingQueue α :=
  match op with
  | offer e => reply .flag ((MyLinkedBlockingQueue.offer e).run q)
  | add e => reply .flag ((MyLinkedBlockingQueue.add e).run q)
  | poll => reply .element (MyLinkedBlockingQueue.poll.run q)
  | remove => reply .element (MyLinkedBlockingQueue.remove.run q)
  | peek => reply .element (MyLinkedBlockingQueue.peek.run q)
  | element => reply .element (MyLinkedBlockingQueue.element.run q)
  | toArray => reply .array (MyLinkedBlockingQueue.toArray.run q)
  | removeObject o => reply .flag ((MyLinkedBlockingQueue.removeObject o).run q)
  | contains o => reply .flag ((MyLinkedBlockingQueue.contains o).run q)
  | drainTo => reply (fun r => .drained r.1 r.2) (MyLinkedBlockingQueue.drainTo.run q)
  | drainToMax n => reply (fun r => .drained r.1 r.2) ((MyLinkedBlockingQueue.drainToMax n).run q)

/-- The call does not offer `null`. -/
def NonNull : NonBlocking α → Prop
  | offer e => e ≠ none
  | add e => e ≠ none
  | _ => True

/-- The call puts an element into the queue `q`. -/
def Adds (q : MyLinkedBlockingQueue α) : NonBlocking α → Prop
  | offer _ => q.hasPosition = true
  | add _ => q.hasPosition = true
  | _ => False

/-- The call takes elements out of the queue `q`. -/
def Removes (q : MyLinkedBlockingQueue α) : NonBlocking α → Prop
  | poll => q.isEmpty = false
  | remove => q.isEmpty = false
  | drainTo => q.isEmpty = false
  | removeObject o => q.hasPosition = true ∧ q.HasMatch o
  | _ => False

end NonBlocking

/-- `q'` is `q` after some elements were taken out. -/
inductive Shrinks (q : MyLinkedBlockingQueue α) : MyLinkedBlockingQueue α → Prop
  | pop {x : Option α} {rest : List (Option α)} (h : q.content = x :: rest) : Shrinks q q.popped
  | drain {x : Option α} {rest : List (Option α)} (h : q.content = x :: rest) :
      Shrinks q q.drained
  | cell {k : ℕ} (hk : q.startIndex ≤ k) (hki : k < q.insertIndex)
      (h : q.insertIndex < q.queueSize) : Shrinks q (q.withoutCell k)

/-- What one call can do to a valid queue without `null` elements. -/
inductive CallEffect (op : NonBlocking α) (q : MyLinkedBlockingQueue α) :
    MyLinkedBlockingQueue α → Prop
  | adds {e : Option α} (hadds : op.Adds q) (hremoves : ¬ op.Removes q)
      (h : q.insertIndex < q.queueSize) (hnull : op.NonNull → e ≠ none) :
      CallEffect op q (q.pushed e)
  | removes {q' : MyLinkedBlockingQueue α} (hadds : ¬ op.Adds q) (hremoves : op.Removes q)
      (h : q.Shrinks q') : CallEffect op q q'
  | keeps (hadds : ¬ op.Adds q) (hremoves : ¬ op.Removes q) : CallEffect op q q

lemma hasPosition_eq_false (h : ¬ q.insertIndex < q.queueSize) : ¬ q.hasPosition = true := by
  rwa [hasPosition_iff]

/-- One call has one of the three effects; only `remove(Object)` minds `null` elements. -/
lemma call_effect (hq : q.Valid) (op : NonBlocking α)
    (hnn : ∀ o, op = .removeObject o → q.NonNull) : CallEffect op q (op.call q).2 := by
  cases op with
  | offer e =>
      by_cases h : q.insertIndex < q.queueSize
      · rw [NonBlocking.call, offer_run hq h]
        exact .adds (hasPosition_iff.mpr h) id h id
      · rw [NonBlocking.call, offer_run_full h]
        exact .keeps (hasPosition_eq_false h) id
  | add e =>
      by_cases h : q.insertIndex < q.queueSize
      · rw [NonBlocking.call, add_run hq h]
        exact .adds (hasPosition_iff.mpr h) id h id
      · rw [NonBlocking.call, add_run_full h]
        exact .keeps (hasPosition_eq_false h) id
  | poll =>
      cases hc : q.content with
      | nil =>
          rw [NonBlocking.call, poll_run_nil hq hc]
          exact .keeps id (by simp [NonBlocking.Removes, (isEmpty_iff_content hq).mpr hc])
      | cons x rest =>
          rw [NonBlocking.call, poll_run_cons hq hc]
          exact .removes id (isEmpty_eq_false hq hc) (.pop hc)
  | remove =>
      cases hc : q.content with
      | nil =>
          rw [NonBlocking.call, remove_run_nil hq hc]
          exact .keeps id (by simp [NonBlocking.Removes, (isEmpty_iff_content hq).mpr hc])
      | cons x rest =>
          rw [NonBlocking.call, remove_run_cons hq hc]
          exact .removes id (isEmpty_eq_false hq hc) (.pop hc)
  | peek =>
      cases hc : q.content with
      | nil =>
          rw [NonBlocking.call, peek_run_nil hq hc]
          exact .keeps id id
      | cons x rest =>
          rw [NonBlocking.call, peek_run_cons hq hc]
          exact .keeps id id
  | element =>
      cases hc : q.content with
      | nil =>
          rw [NonBlocking.call, element_run_nil hq hc]
          exact .keeps id id
      | cons x rest =>
          rw [NonBlocking.call, element_run_cons hq hc]
          exact .keeps id id
  | toArray =>
      rw [NonBlocking.call, toArray_run hq]
      exact .keeps id id
  | removeObject o =>
      have hnn : q.NonNull := hnn o rfl
      by_cases hm : q.HasMatch o
      · by_cases h : q.insertIndex < q.queueSize
        · obtain ⟨k, hlast, hrun⟩ := removeObject_run hq hnn hm h
          rw [NonBlocking.call, hrun]
          exact .removes id ⟨hasPosition_iff.mpr h, hm⟩ (.cell hlast.le hlast.lt h)
        · have hfull := hq.insert_le.antisymm (not_lt.mp h)
          rw [NonBlocking.call, removeObject_run_full hq hnn hm hfull]
          exact .keeps id fun hr => hasPosition_eq_false h hr.1
      · rw [NonBlocking.call, removeObject_run_absent hq hnn hm]
        exact .keeps id fun hr => hm hr.2
  | contains o =>
      have hstate : (contains o).run q = (containsFrom o q.elements).run q := by
        simp [contains]
      obtain ⟨b, hb⟩ | herr := containsFrom_run_state (q := q) o q.elements
      · rw [NonBlocking.call, hstate, hb]
        exact .keeps id id
      · rw [NonBlocking.call, hstate, herr]
        exact .keeps id id
  | drainTo =>
      rw [NonBlocking.call, drainTo_run hq]
      cases hc : q.content with
      | nil =>
          have heq : q.drained = q := by
            have hlen := length_content hq
            have hle := hq.start_le
            rw [hc, List.length_nil] at hlen
            exact congrArg (fun i => { q with startIndex := i }) (show q.insertIndex = q.startIndex
              by omega)
          rw [reply, heq]
          exact .keeps id (by simp [NonBlocking.Removes, (isEmpty_iff_content hq).mpr hc])
      | cons x rest => exact .removes id (isEmpty_eq_false hq hc) (.drain hc)
  | drainToMax n =>
      obtain ⟨r, hrun⟩ := drainToMax_run hq n
      rw [NonBlocking.call, hrun]
      exact .keeps id id

lemma Shrinks.valid {q' : MyLinkedBlockingQueue α} (hq : q.Valid) (h : q.Shrinks q') :
    q'.Valid := by
  cases h with
  | pop hc => exact hq.popped (start_lt_of_content hq hc)
  | drain => exact hq.drained
  | cell hk hki h => exact hq.withoutCell hk hki h

lemma Shrinks.queueSize_eq {q' : MyLinkedBlockingQueue α} (h : q.Shrinks q') :
    q'.queueSize = q.queueSize := by
  cases h <;> rfl

lemma Shrinks.mem {q' : MyLinkedBlockingQueue α} (hq : q.Valid) (h : q.Shrinks q')
    {x : Option α} (hx : x ∈ q'.content) : x ∈ q.content := by
  cases h with
  | pop hc =>
      rw [content_popped hq hc] at hx
      rw [hc]
      exact List.mem_cons_of_mem _ hx
  | drain => simp at hx
  | cell hk hki h =>
      rw [content_withoutCell hq hk hki h] at hx
      exact List.mem_of_mem_eraseIdx hx

lemma Shrinks.size_lt {q' : MyLinkedBlockingQueue α} (hq : q.Valid) (h : q.Shrinks q') :
    q'.size < q.size := by
  cases h with
  | pop => simp only [size, popped]; omega
  | drain hc =>
      have := start_lt_of_content hq hc
      simp only [size, drained]
      omega
  | cell hk hki =>
      simp only [size, withoutCell]
      omega

lemma size_pushed (q : MyLinkedBlockingQueue α) (e : Option α) :
    (q.pushed e).size = q.size + 1 := by
  simp only [size, startIndex_pushed, insertIndex_pushed]
  omega

lemma NonNull.pushed (hq : q.Valid) (hnn : q.NonNull) (h : q.insertIndex < q.queueSize)
    {e : Option α} (he : e ≠ none) : (q.pushed e).NonNull := by
  intro x hx
  rcases mem_content_pushed hq h hx with hold | rfl
  · exact hnn x hold
  · exact he

lemma NonNull.shrinks {q' : MyLinkedBlockingQueue α} (hq : q.Valid) (hnn : q.NonNull)
    (h : q.Shrinks q') : q'.NonNull := fun x hx => hnn x (h.mem hq hx)

end MyLinkedBlockingQueue

end LearnJava
