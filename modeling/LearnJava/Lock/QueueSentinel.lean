import LearnJava.Foundation.Run
import LearnJava.Lock.QueueAdmission

/-!
# `null` as an answer

`poll` and `peek` answer `null` for an empty queue, but no method refuses a `null` element.  One
that is accepted stays between the two indices until it is taken out, whether or not `cleanArray`
moves the cells, so that in a run the answer is unambiguous exactly as long as no `null` has been
accepted.

The runs are those of one thread, with all methods and all arguments.  A method that has to wait for
another thread never returns to it; one with a time-out waits until it has elapsed.
-/

namespace LearnJava

namespace MyLinkedBlockingQueue

variable {α : Type} {q q' : MyLinkedBlockingQueue α}

/-! ## Calls of one thread -/

/-- A call of any method, with any argument. -/
abbrev Operation (α : Type) := AnyCall (Option α) (NonBlocking α)

/-- What a call returns and what becomes of the queue, if it returns to a thread that is alone: of
the methods that wait, only those with a time-out do. -/
def answer (q : MyLinkedBlockingQueue α) (op : Operation α) :
    Option (Reply α × MyLinkedBlockingQueue α) :=
  match enter id NonBlocking.call op q with
  | ⟨q, _, .leave r⟩ => some (r, q)
  | ⟨_, _, .await _ false _⟩ => none
  | ⟨q, _, .await _ true b⟩ =>
    match resume id b .timedOut q with
    | ⟨q, _, .leave r⟩ => some (r, q)
    | ⟨_, _, .await _ _ _⟩ => none

/-- The element that a call is to put into the queue. -/
def inserted : Operation α → Option (Option α)
  | .nonBlocking (.offer e) | .nonBlocking (.add e) => some e
  | .blocking (.put e) | .blocking (.offerTimed e) => some e
  | _ => none

/-- Any calls on a new queue of any capacity. -/
def alone (α : Type) : Machine (MyLinkedBlockingQueue α) (Operation α) where
  init q := ∃ n, q = new n
  step q op := (q.answer op).map Prod.snd

/-! ## The property -/

/-- `null` stands for an empty queue and for nothing else. -/
structure Unambiguous (q : MyLinkedBlockingQueue α) : Prop where
  slot_ne_null : ∀ k, q.startIndex ≤ k → k < q.insertIndex → ∃ x, q.elements[k]? = some (some x)
  poll_iff : (∃ q', poll.run q = .ok none q') ↔ q.isEmpty = true
  peek_iff : (∃ q', peek.run q = .ok none q') ↔ q.isEmpty = true
  remove_safe : ∀ o, (removeObject o).thrown q ≠ some .nullPointerException

/-- The call puts `null` into the queue. -/
def AcceptsNull (m : Move (MyLinkedBlockingQueue α) (Operation α)) : Prop :=
  inserted m.label = some none ∧ m.pre.hasPosition = true

/-! ## One state -/

/-- Where no queued element is `null`, there is no other meaning. -/
lemma unambiguous_iff (hq : q.Valid) : q.Unambiguous ↔ q.NonNull := by
  constructor
  · intro h x hx
    obtain ⟨k, hk, hki, hcell⟩ := mem_window.mp hx
    obtain ⟨y, hy⟩ := h.slot_ne_null k hk hki
    obtain rfl : some y = x := Option.some.inj (hy.symm.trans hcell)
    exact Option.some_ne_none y
  · intro hnn
    have hanswer : ∀ m : Method (MyLinkedBlockingQueue α) (Option α),
        (q.content = [] → m.run q = .ok none q) →
        (∀ x rest, q.content = x :: rest → ∃ q', m.run q = .ok x q') →
        ((∃ q', m.run q = .ok none q') ↔ q.isEmpty = true) := by
      intro m hnil hcons
      rw [isEmpty_iff_content hq]
      cases hc : q.content with
      | nil => exact iff_of_true ⟨q, hnil hc⟩ rfl
      | cons x rest =>
          refine iff_of_false ?_ (List.cons_ne_nil x rest)
          rintro ⟨q', hnull⟩
          obtain ⟨q'', hrun⟩ := hcons x rest hc
          obtain ⟨rfl, -⟩ := EStateM.Result.ok.inj (hnull.symm.trans hrun)
          exact hnn none (by rw [hc]; exact List.mem_cons_self) rfl
    refine ⟨fun k hk hki => exists_cell_of_nonNull hq hnn hk hki, ?_, ?_, fun o => ?_⟩
    · exact hanswer poll (poll_run_nil hq) fun x rest hc => ⟨_, poll_run_cons hq hc⟩
    · exact hanswer peek (peek_run_nil hq) fun x rest hc => ⟨_, peek_run_cons hq hc⟩
    · by_cases hm : q.HasMatch o
      · by_cases hroom : q.insertIndex < q.queueSize
        · obtain ⟨k, -, hrun⟩ := removeObject_run hq hnn hm hroom
          rw [thrown_of_run hrun]
          simp
        · rw [thrown_of_throw
            (removeObject_run_full hq hnn hm (hq.insert_le.antisymm (not_lt.mp hroom)))]
          simp
      · rw [thrown_of_run (removeObject_run_absent hq hnn hm)]
        simp

/-! ## One call -/

/-- The element that is put in stands between the indices, wherever `cleanArray` has moved the
cells. -/
lemma mem_content_pushed_self (hq : q.Valid) (h : q.insertIndex < q.queueSize) (e : Option α) :
    e ∈ (q.pushed e).content := by
  have hstart := hq.start_le
  have hlength : (q.stored e).elements.length = q.queueSize := by
    simpa [stored] using hq.length_elements
  have hcell : (q.stored e).elements[q.insertIndex]? = some e := by
    rw [stored, List.getElem?_set_self (by rw [hq.length_elements]; exact h)]
  refine mem_window.mpr ⟨q.insertIndex, ?_, ?_, ?_⟩
  · rw [startIndex_pushed]
    exact hstart
  · rw [insertIndex_pushed]
    exact Nat.lt_succ_self _
  · rw [pushed, compacted]
    split_ifs with hlast
    · exact hcell
    · have hins : (q.stored e).insertIndex = q.insertIndex + 1 := rfl
      have hst : (q.stored e).startIndex = q.startIndex := rfl
      rw [getElem?_overlay (by omega) (by omega)]
      split_ifs with hmoved
      · have hzero : q.startIndex = 0 := by omega
        rw [hst, hzero, Nat.sub_zero, Nat.zero_add, hcell]
      · exact hcell

lemma nonNull_pushed_iff (hq : q.Sound) (h : q.insertIndex < q.queueSize) (e : Option α) :
    (q.pushed e).NonNull ↔ e ≠ none :=
  ⟨fun hnn => hnn e (mem_content_pushed_self hq.valid h e), hq.nonNull.pushed hq.valid h⟩

/-- What can become of the queue by a call that is to put in `inserted`. -/
def Becomes (inserted : Option (Option α)) (q q' : MyLinkedBlockingQueue α) : Prop :=
  (∃ e, inserted = some e ∧ q.insertIndex < q.queueSize ∧ q' = q.pushed e) ∨
    ((inserted = none ∨ ¬q.insertIndex < q.queueSize) ∧ (q.Shrinks q' ∨ q' = q))

lemma becomes_of_nonBlocking (hq : q.Sound) (op : NonBlocking α) :
    Becomes (inserted (.nonBlocking op)) q (op.call q).2 := by
  cases hinserted : inserted (.nonBlocking op) with
  | none =>
      have heffect := call_effect hq.valid op fun _ _ => hq.nonNull
      generalize (op.call q).2 = q' at heffect
      cases heffect with
      | adds hadds => cases op <;> simp_all [inserted, NonBlocking.Adds]
      | removes _ _ hshrinks => exact .inr ⟨.inl rfl, .inl hshrinks⟩
      | keeps => exact .inr ⟨.inl rfl, .inr rfl⟩
  | some e =>
      by_cases hroom : q.insertIndex < q.queueSize
      · refine .inl ⟨e, rfl, hroom, ?_⟩
        cases op <;> simp only [inserted, Option.some.injEq, reduceCtorEq] at hinserted
        · rw [hinserted, NonBlocking.call, offer_run hq.valid hroom]
          rfl
        · rw [hinserted, NonBlocking.call, add_run hq.valid hroom]
          rfl
      · refine .inr ⟨.inr hroom, .inr ?_⟩
        cases op <;> simp only [inserted, Option.some.injEq, reduceCtorEq] at hinserted
        · rw [hinserted, NonBlocking.call, offer_run_full hroom]
          rfl
        · rw [hinserted, NonBlocking.call, add_run_full hroom]
          rfl

/-- Where `put`, `take` and the timed methods do not wait, they are `offer` and `poll`. -/
lemma becomes_of_answer (hq : q.Sound) {op : Operation α} {r : Reply α}
    (h : q.answer op = some (r, q')) : Becomes (inserted op) q q' := by
  have hoffer := fun e => becomes_of_nonBlocking hq (.offer e)
  have hpoll := becomes_of_nonBlocking hq .poll
  rcases op with (e | e | _ | _) | op
  · cases hroom : q.hasPosition with
    | false => simp [answer, enter, hroom, waits] at h
    | true =>
        simp only [answer, enter, hroom, Bool.not_true, Bool.false_eq_true, if_false, leaves] at h
        obtain rfl := congrArg Prod.snd (Option.some.inj h)
        have hshared : (reply (fun _ => .void) ((offer e).run q)).2 =
            ((NonBlocking.offer e).call q).2 := leaves_reply_shared (ε := Option α) _ _ _
        exact hshared ▸ hoffer e
  · cases hroom : q.hasPosition with
    | false =>
        simp only [answer, enter, hroom, Bool.not_false, if_true, waits, resume, leaves] at h
        obtain rfl := congrArg Prod.snd (Option.some.inj h)
        exact .inr ⟨.inr (hasPosition_iff.not.mp (by simp [hroom])), .inr rfl⟩
    | true =>
        simp only [answer, enter, hroom, Bool.not_true, Bool.false_eq_true, if_false, leaves] at h
        obtain rfl := congrArg Prod.snd (Option.some.inj h)
        exact hoffer e
  · cases hempty : q.isEmpty with
    | true => simp [answer, enter, hempty, waits] at h
    | false =>
        simp only [answer, enter, hempty, Bool.false_eq_true, if_false, leaves] at h
        obtain rfl := congrArg Prod.snd (Option.some.inj h)
        exact hpoll
  · cases hempty : q.isEmpty with
    | true =>
        simp only [answer, enter, hempty, if_true, waits, resume, leaves] at h
        obtain rfl := congrArg Prod.snd (Option.some.inj h)
        exact .inr ⟨.inl rfl, .inr rfl⟩
    | false =>
        simp only [answer, enter, hempty, Bool.false_eq_true, if_false, leaves] at h
        obtain rfl := congrArg Prod.snd (Option.some.inj h)
        exact hpoll
  · obtain rfl := congrArg Prod.snd (Option.some.inj h)
    exact becomes_of_nonBlocking hq op

/-- **A call keeps `null` unambiguous exactly if it does not put it in.** -/
lemma unambiguous_step_iff (hq : q.Sound) {op : Operation α}
    (h : (alone α).step q op = some q') :
    q'.Valid ∧ (q'.NonNull ↔ ¬AcceptsNull ⟨q, op, q'⟩) := by
  obtain ⟨⟨r, q''⟩, hcall, rfl⟩ := Option.map_eq_some_iff.mp h
  simp only [AcceptsNull, hasPosition_iff]
  rcases becomes_of_answer hq hcall with ⟨e, hinserted, hroom, rfl⟩ | ⟨hnone, hchange⟩
  · refine ⟨hq.valid.pushed hroom e, ?_⟩
    rw [nonNull_pushed_iff hq hroom, hinserted]
    simp [hroom]
  · have hrefused : ¬(inserted op = some none ∧ q.insertIndex < q.queueSize) := by
      rintro ⟨hnull, hroom⟩
      rcases hnone with hnone | hfull
      · rw [hnone] at hnull
        cases hnull
      · exact hfull hroom
    rcases hchange with hshrinks | rfl
    · exact ⟨hshrinks.valid hq.valid,
        iff_of_true (hq.nonNull.shrinks hq.valid hshrinks) hrefused⟩
    · exact ⟨hq.valid, iff_of_true hq.nonNull hrefused⟩

/-! ## Runs -/

/-- **The null sentinel.**  In a run of any calls, `null` is unambiguous in every state reached
exactly if no call puts `null` into the queue. -/
theorem unambiguous_of_run_iff {ms : List (Move (MyLinkedBlockingQueue α) (Operation α))}
    (h : (alone α).Run ms q) : (∀ m ∈ ms, m.post.Unambiguous) ↔ ∀ m ∈ ms, ¬AcceptsNull m := by
  apply h.moves_iff (I := Sound) (P := fun m => m.post.Unambiguous)
  · rintro _ ⟨n, rfl⟩
    exact sound_new n
  · intro q op q' hq hstep haccepts
    obtain ⟨hvalid, hiff⟩ := unambiguous_step_iff hq hstep
    exact ⟨hvalid, hiff.mpr haccepts⟩
  · intro q op q' hq hstep
    obtain ⟨hvalid, hiff⟩ := unambiguous_step_iff hq hstep
    rw [unambiguous_iff hvalid, hiff]

/-- A queue is filled, emptied and asked again. -/
def filledAndEmptied : List (Move (MyLinkedBlockingQueue ℕ) (Operation ℕ)) :=
  (alone ℕ).moves (new 2)
    [.blocking (.put (some 1)), .nonBlocking (.add (some 2)), .blocking (.offerTimed (some 3)),
      .blocking .take, .blocking .pollTimed, .blocking .pollTimed, .nonBlocking .poll]

theorem unambiguous_of_run_iff_filledAndEmptied :
    (∀ m ∈ filledAndEmptied, m.post.Unambiguous) ↔ ∀ m ∈ filledAndEmptied, ¬AcceptsNull m :=
  unambiguous_of_run_iff (Machine.run_of_play (M := alone ℕ) ⟨2, rfl⟩ rfl)

/-- `null` is offered to an empty queue. -/
def nullOffered : List (Move (MyLinkedBlockingQueue ℕ) (Operation ℕ)) :=
  (alone ℕ).moves (new 2) [.nonBlocking (.offer none)]

/-- The queue accepts it, holds one element and answers `null`; looking for another object, it
dereferences it. -/
theorem nullOffered_ambiguous :
    (∃ q, (alone ℕ).Run nullOffered q) ∧ ∃ m ∈ nullOffered, m.post.isEmpty = false ∧
      (∃ q', poll.run m.post = .ok none q') ∧ peek.run m.post = .ok none m.post ∧
      (removeObject (some (· == 7))).thrown m.post = some .nullPointerException ∧
      ¬m.post.Unambiguous := by
  refine ⟨⟨_, Machine.run_of_play ⟨2, rfl⟩ rfl⟩, _, List.mem_singleton_self _, rfl, ⟨_, rfl⟩, rfl,
    rfl, fun h => ?_⟩
  exact h.remove_safe (some (· == 7)) rfl

end MyLinkedBlockingQueue

end LearnJava
