import LearnJava.Foundation.Ledger
import LearnJava.Foundation.Run
import LearnJava.Lock.QueueCalls

/-!
# The non-blocking operations as a FIFO queue

One thread drives a `MyLinkedBlockingQueue` through any sequence of `offer`, `add`, `poll`,
`remove()`, `peek`, `element` and `toArray`.  `Audit` keeps, next to the queue, which elements
its replies said were accepted and which ones it handed out; it `Refines` a `Ledger` when
these are the ledger's two sequences and the queue holds exactly what is waiting.

Every operation keeps the refinement except one: an accepted `offer` or `add` that writes the
last cell lets `cleanArray` move the cells to the front of the array without moving the indices,
and so overwrites queued elements with later ones, unless there is nothing to overwrite
(`CompactsSafely`).  A run therefore behaves like a FIFO queue exactly when each such move
compacts safely (`faithful_iff_compactsSafely`).
-/

namespace LearnJava

namespace MyLinkedBlockingQueue

variable {α : Type}

/-- A call of one of the non-blocking operations, with a non-null argument. -/
inductive FifoOp (α : Type)
  | offer (e : α)
  | add (e : α)
  | poll
  | remove
  | peek
  | element
  | toArray
  deriving DecidableEq, Repr

/-- The method an operation stands for. -/
def FifoOp.method : FifoOp α → NonBlocking α
  | .offer e => .offer (some e)
  | .add e => .add (some e)
  | .poll => .poll
  | .remove => .remove
  | .peek => .peek
  | .element => .element
  | .toArray => .toArray

/-- The element a reply says was accepted. -/
def FifoOp.acceptedBy : FifoOp α → Reply α → List α
  | .offer e, .flag true => [e]
  | .add e, .flag true => [e]
  | _, _ => []

/-- The element a reply handed out; `null` from `poll` is none. -/
def FifoOp.handedOutBy : FifoOp α → Reply α → List α
  | .poll, .element (some x) => [x]
  | .remove, .element (some x) => [x]
  | _, _ => []

/-- A queue with the record of its replies. -/
structure Audit (α : Type) where
  queue : MyLinkedBlockingQueue α
  accepted : List α
  handedOut : List α

/-- A new queue, with nothing recorded. -/
def Audit.new (queueSize : ℕ) : Audit α := ⟨MyLinkedBlockingQueue.new queueSize, [], []⟩

/-- One call, and the record of its reply. -/
def Audit.after (s : Audit α) (op : FifoOp α) : Audit α where
  queue := (op.method.call s.queue).2
  accepted := s.accepted ++ op.acceptedBy (op.method.call s.queue).1
  handedOut := s.handedOut ++ op.handedOutBy (op.method.call s.queue).1

/-- Any sequence of calls on one queue of the given capacity. -/
def fifo (α : Type) (queueSize : ℕ) : Machine (Audit α) (FifoOp α) where
  init s := s = Audit.new queueSize
  step s op := some (s.after op)

/-- The elements accepted and not yet handed out. -/
def Audit.waiting (s : Audit α) : List α := s.accepted.drop s.handedOut.length

/-- The queue behaves as a FIFO queue has to, judged by its replies so far and by what its
queries show now. -/
structure Audit.Faithful (s : Audit α) : Prop where
  handedOut_isPrefix : s.handedOut <+: s.accepted
  toArray_eq : toArray.run s.queue = .ok (s.waiting.map some) s.queue
  peek_eq : peek.run s.queue = .ok s.waiting.head? s.queue
  element_eq : element.run s.queue =
    match s.waiting.head? with
    | none => .error .noSuchElementException s.queue
    | some x => .ok (some x) s.queue

/-- The record and the queue agree with the ledger `L`. -/
structure Audit.Refines (s : Audit α) (L : Ledger α) : Prop where
  accepted_eq : s.accepted = L.accepted
  handedOut_eq : s.handedOut = L.handedOut
  content_eq : s.queue.content = L.waiting.map some

/-- The queries of a valid queue show what a FIFO queue has to show exactly when the queue
refines some ledger. -/
lemma faithful_iff_refines {s : Audit α} (hq : s.queue.Valid) :
    s.Faithful ↔ ∃ L, s.Refines L := by
  constructor
  · intro h
    have harray := h.toArray_eq
    rw [toArray_run hq] at harray
    injection harray with hcontent
    exact ⟨⟨s.accepted, s.handedOut, h.handedOut_isPrefix⟩, rfl, rfl, hcontent⟩
  · rintro ⟨L, hacc, hout, hcontent⟩
    have hwait : s.waiting = L.waiting := by rw [Audit.waiting, hacc, hout, Ledger.waiting]
    rw [← hwait] at hcontent
    refine ⟨by rw [hacc, hout]; exact L.inOrder, by rw [toArray_run hq, hcontent], ?_, ?_⟩
    · cases hw : s.waiting with
      | nil => exact peek_run_nil hq (by rw [hcontent, hw, List.map_nil])
      | cons x rest =>
          rw [hw, List.map_cons] at hcontent
          exact peek_run_cons hq hcontent
    · cases hw : s.waiting with
      | nil => exact element_run_nil hq (by rw [hcontent, hw, List.map_nil])
      | cons x rest =>
          rw [hw, List.map_cons] at hcontent
          exact element_run_cons hq hcontent

/-! ## One call -/

/-- The condition a call has to meet: where it appends an element, it compacts safely. -/
def SafeFill (m : Move (Audit α) (FifoOp α)) : Prop :=
  match m.label with
  | .offer e => m.pre.queue.CompactsSafely (some e)
  | .add e => m.pre.queue.CompactsSafely (some e)
  | _ => True

/-- The record after a call that replies `r` and leaves the queue `q'`. -/
lemma Audit.after_of_call {s : Audit α} {op : FifoOp α} {r : Reply α}
    {q' : MyLinkedBlockingQueue α} (h : op.method.call s.queue = (r, q')) :
    s.after op = ⟨q', s.accepted ++ op.acceptedBy r, s.handedOut ++ op.handedOutBy r⟩ := by
  rw [Audit.after, h]

/-- What one call can do to a valid queue and its record: append the accepted element, hand out
the first one, or change nothing.  Only the first case asks for anything. -/
lemma after_cases {s : Audit α} (hq : s.queue.Valid) (op : FifoOp α) :
    (∃ e, s.queue.insertIndex < s.queue.queueSize ∧
        s.after op = ⟨s.queue.pushed (some e), s.accepted ++ [e], s.handedOut⟩ ∧
        (SafeFill ⟨s, op, s.after op⟩ ↔ s.queue.CompactsSafely (some e))) ∨
      (∃ x rest, s.queue.content = x :: rest ∧
        s.after op = ⟨s.queue.popped, s.accepted, s.handedOut ++ x.toList⟩ ∧
        SafeFill ⟨s, op, s.after op⟩) ∨
      (s.after op = s ∧ SafeFill ⟨s, op, s.after op⟩) := by
  have hafter : ∀ {r q'}, op.method.call s.queue = (r, q') → s.after op =
      ⟨q', s.accepted ++ op.acceptedBy r, s.handedOut ++ op.handedOutBy r⟩ := Audit.after_of_call
  have hkeeps : ∀ {r : Reply α}, op.method.call s.queue = (r, s.queue) → op.acceptedBy r = [] →
      op.handedOutBy r = [] → s.after op = s := by
    intro r hcall hacc hout
    rw [hafter hcall, hacc, hout, List.append_nil, List.append_nil]
  cases op with
  | offer e =>
      by_cases h : s.queue.insertIndex < s.queue.queueSize
      · have hcall := hafter (congrArg (reply .flag) (offer_run hq h (some e)))
        exact .inl ⟨e, h, by simpa [FifoOp.acceptedBy, FifoOp.handedOutBy] using hcall, Iff.rfl⟩
      · have hcall := congrArg (reply .flag) (offer_run_full h (some e))
        exact .inr (.inr ⟨hkeeps hcall rfl rfl, compactsSafely_of_full h _⟩)
  | add e =>
      by_cases h : s.queue.insertIndex < s.queue.queueSize
      · have hcall := hafter (congrArg (reply .flag) (add_run hq h (some e)))
        exact .inl ⟨e, h, by simpa [FifoOp.acceptedBy, FifoOp.handedOutBy] using hcall, Iff.rfl⟩
      · have hcall := congrArg (reply .flag) (add_run_full h (some e))
        exact .inr (.inr ⟨hkeeps hcall rfl rfl, compactsSafely_of_full h _⟩)
  | poll =>
      cases hc : s.queue.content with
      | nil =>
          have hcall := congrArg (reply .element) (poll_run_nil hq hc)
          exact .inr (.inr ⟨hkeeps hcall rfl rfl, trivial⟩)
      | cons x rest =>
          have hcall := hafter (congrArg (reply .element) (poll_run_cons hq hc))
          refine .inr (.inl ⟨x, rest, rfl, ?_, trivial⟩)
          cases x <;> simpa [FifoOp.acceptedBy, FifoOp.handedOutBy] using hcall
  | remove =>
      cases hc : s.queue.content with
      | nil =>
          have hcall := congrArg (reply .element) (remove_run_nil hq hc)
          exact .inr (.inr ⟨hkeeps hcall rfl rfl, trivial⟩)
      | cons x rest =>
          have hcall := hafter (congrArg (reply .element) (remove_run_cons hq hc))
          refine .inr (.inl ⟨x, rest, rfl, ?_, trivial⟩)
          cases x <;> simpa [FifoOp.acceptedBy, FifoOp.handedOutBy] using hcall
  | peek =>
      refine .inr (.inr ⟨?_, trivial⟩)
      cases hc : s.queue.content with
      | nil => exact hkeeps (congrArg (reply .element) (peek_run_nil hq hc)) rfl rfl
      | cons x rest => exact hkeeps (congrArg (reply .element) (peek_run_cons hq hc)) rfl rfl
  | element =>
      refine .inr (.inr ⟨?_, trivial⟩)
      cases hc : s.queue.content with
      | nil => exact hkeeps (congrArg (reply .element) (element_run_nil hq hc)) rfl rfl
      | cons x rest => exact hkeeps (congrArg (reply .element) (element_run_cons hq hc)) rfl rfl
  | toArray =>
      exact .inr (.inr ⟨hkeeps (congrArg (reply .array) (toArray_run hq)) rfl rfl, trivial⟩)

lemma valid_after {s : Audit α} (hq : s.queue.Valid) (op : FifoOp α) :
    (s.after op).queue.Valid := by
  obtain ⟨e, hroom, heq, -⟩ | ⟨x, rest, hc, heq, -⟩ | ⟨heq, -⟩ := after_cases hq op
  · rw [heq]; exact hq.pushed hroom _
  · rw [heq]; exact hq.popped (start_lt_of_content hq hc)
  · rw [heq]; exact hq

/-- **One call keeps the refinement exactly when it compacts safely.** -/
lemma refines_after_iff {s : Audit α} (hq : s.queue.Valid) {L : Ledger α} (h : s.Refines L)
    (op : FifoOp α) :
    (∃ L', (s.after op).Refines L') ↔ SafeFill ⟨s, op, s.after op⟩ := by
  obtain ⟨e, hroom, heq, hsafe⟩ | ⟨x, rest, hc, heq, hsafe⟩ | ⟨heq, hsafe⟩ := after_cases hq op
  · rw [hsafe, ← content_pushed_iff hq hroom, heq]
    constructor
    · rintro ⟨L', hacc, hout, hcontent⟩
      have hL' : L' = L.accept e := by
        obtain ⟨acc', out', h'⟩ := L'
        simp only [h.accepted_eq, h.handedOut_eq] at hacc hout
        subst hacc hout
        rfl
      simpa [hL', h.content_eq] using hcontent
    · intro hcontent
      exact ⟨L.accept e, by rw [h.accepted_eq]; rfl, h.handedOut_eq,
        by simpa [h.content_eq] using hcontent⟩
  · refine iff_of_true ?_ hsafe
    obtain ⟨y, ys, hys, rfl, hrest⟩ : ∃ y ys, L.waiting = y :: ys ∧ x = some y ∧
        rest = ys.map some := by
      have hcontent := h.content_eq
      rw [hc] at hcontent
      cases hw : L.waiting with
      | nil => rw [hw] at hcontent; cases hcontent
      | cons y ys =>
          rw [hw, List.map_cons, List.cons.injEq] at hcontent
          exact ⟨y, ys, rfl, hcontent⟩
    refine ⟨L.handOut hys, ?_⟩
    rw [heq]
    exact ⟨h.accepted_eq, by rw [h.handedOut_eq]; rfl,
      by rw [content_popped hq hc, L.waiting_handOut, hrest]⟩
  · exact iff_of_true ⟨L, by rw [heq]; exact h⟩ hsafe

lemma faithful_after_iff {s : Audit α} (hq : s.queue.Valid) (h : s.Faithful) (op : FifoOp α) :
    (s.after op).Faithful ↔ SafeFill ⟨s, op, s.after op⟩ := by
  obtain ⟨L, hL⟩ := (faithful_iff_refines hq).mp h
  rw [faithful_iff_refines (valid_after hq op)]
  exact refines_after_iff hq hL op

/-! ## Whole runs -/

lemma refines_new (n : ℕ) : (Audit.new n : Audit α).Refines Ledger.empty :=
  ⟨rfl, rfl, content_new n⟩

/-- For every capacity and every sequence of calls: the queue behaves as a FIFO queue after each
of them exactly when every accepted element was appended by a call that compacts safely. -/
theorem faithful_iff_compactsSafely (n : ℕ) (ops : List (FifoOp α)) :
    (∀ m ∈ (fifo α n).moves (Audit.new n) ops, m.post.Faithful) ↔
      ∀ m ∈ (fifo α n).moves (Audit.new n) ops, SafeFill m := by
  have hplay : ∀ (s : Audit α) (ops : List (FifoOp α)), ∃ s', (fifo α n).play s ops = some s' := by
    intro s ops
    induction ops generalizing s with
    | nil => exact ⟨s, rfl⟩
    | cons op ops ih => exact ih (s.after op)
  obtain ⟨s', hs'⟩ := hplay (Audit.new n) ops
  refine Machine.Run.moves_iff (M := fifo α n) (I := fun s => s.queue.Valid ∧ s.Faithful)
    (P := fun m => m.post.Faithful) ?_ ?_ ?_ (Machine.run_of_play rfl hs')
  · rintro s rfl
    exact ⟨valid_new n, (faithful_iff_refines (valid_new n)).mpr ⟨_, refines_new n⟩⟩
  · rintro s op _ ⟨hq, hfaithful⟩ ⟨⟩ hsafe
    exact ⟨valid_after hq op, (faithful_after_iff hq hfaithful op).mpr hsafe⟩
  · rintro s op _ ⟨hq, hfaithful⟩ ⟨⟩
    exact faithful_after_iff hq hfaithful op

/-- With three cells, `offer(1)`, `poll()`, `offer(2)`, `offer(3)` leaves the array `[2, 3, 3]`
with `startIndex` still 1: element 2 is lost and element 3 is queued twice. -/
theorem not_faithful_after_compaction :
    ¬ ∀ m ∈ (fifo ℕ 3).moves (Audit.new 3) [.offer 1, .poll, .offer 2, .offer 3],
      m.post.Faithful := by
  intro h
  have hlast := (h _ (List.getLast_mem (by decide))).toArray_eq
  have hcontent : [some 3, some 3] = [some 2, some 3] := by
    injection hlast
  exact absurd hcontent (by decide)

end MyLinkedBlockingQueue

end LearnJava
