import LearnJava.Foundation.Monitor
import LearnJava.Lock.QueueCalls

/-!
# The queue under its lock

Any number of threads call the methods of one `MyLinkedBlockingQueue`.  Every method holds the
queue's lock from its first line to its last, except while `put`, `take` and the timed `offer`
and `poll` wait on a condition, so the queue is a monitor (`LearnJava/Foundation/Monitor.lean`)
whose segments are transcribed here: `enter` is a method up to its `await`, or to its end if
it does not wait, and `resume` is what follows the `await`.

In the source no method calls `signal` or `signalAll` on either condition; no segment signals.

`SegmentEffect` says what a segment does to a sound queue, together with the conditions under which
it adds, removes or waits.
-/

namespace LearnJava

namespace MyLinkedBlockingQueue

open Monitor (Wake)

/-- The two conditions of the queue's lock. -/
inductive Cond
  | empty
  | full
  deriving DecidableEq, Repr

/-- A call of a method that may wait, with elements of `ε`; the time-outs themselves are left to the
scheduler. -/
inductive Blocking (ε : Type)
  | put (e : ε)
  | offerTimed (e : ε)
  | take
  | pollTimed
  deriving DecidableEq, Repr

/-- A call of any method: one that may wait, or one of `ο`. -/
inductive AnyCall (ε ο : Type)
  | blocking (b : Blocking ε)
  | nonBlocking (op : ο)

variable {ε ο α : Type}

/-- A segment of the queue's code. -/
abbrev QueueSegment (ε α : Type) :=
  Monitor.Segment (MyLinkedBlockingQueue α) Cond (Blocking ε) (Reply α)

/-- The method returns or throws, and the lock is released. -/
def leaves (r : Reply α × MyLinkedBlockingQueue α) : QueueSegment ε α := ⟨r.2, [], .leave r.1⟩

/-- `c.await()` or `c.await(timeout, unit)`. -/
def waits (q : MyLinkedBlockingQueue α) (c : Cond) (timed : Bool) (b : Blocking ε) :
    QueueSegment ε α := ⟨q, [], .await c timed b⟩

section Code

-- what is put into the queue for an element, and the methods that never wait
variable (cell : ε → Option α)
  (call : ο → MyLinkedBlockingQueue α → Reply α × MyLinkedBlockingQueue α)

/-- A method up to its `await`, or to its end. -/
def enter : AnyCall ε ο → MyLinkedBlockingQueue α → QueueSegment ε α
  | .blocking (.put e), q =>
    if !q.hasPosition then waits q .full false (.put e)
    else leaves (reply (fun _ => .void) ((offer (cell e)).run q))
  | .blocking (.offerTimed e), q =>
    if !q.hasPosition then waits q .full true (.offerTimed e)
    else leaves (reply .flag ((offer (cell e)).run q))
  | .blocking .take, q =>
    if q.isEmpty then waits q .empty false .take else leaves (reply .element (poll.run q))
  | .blocking .pollTimed, q =>
    if q.isEmpty then waits q .empty true .pollTimed else leaves (reply .element (poll.run q))
  | .nonBlocking op, q => leaves (call op q)

/-- A method after its `await`: an interrupted one throws, a timed one gives `false` once its
time-out has elapsed, and any other returns normally whatever woke the thread. -/
def resume : Blocking ε → Wake → MyLinkedBlockingQueue α → QueueSegment ε α
  | _, .interrupted, q => leaves (.thrown .interruptedException, q)
  | .put e, _, q => leaves (reply (fun _ => .void) ((offer (cell e)).run q))
  | .offerTimed e, w, q =>
    let shouldPut := w != .timedOut
    if shouldPut then leaves (reply .flag ((offer (cell e)).run q))
    else leaves (.flag shouldPut, q)
  | .take, _, q => leaves (reply .element (poll.run q))
  | .pollTimed, w, q =>
    let shouldRead := w != .timedOut
    if shouldRead then leaves (reply .element (poll.run q)) else leaves (.element none, q)

/-- The monitor of the queue. -/
def anyCode : Monitor.Code (MyLinkedBlockingQueue α) Cond (AnyCall ε ο) (Blocking ε) (Reply α) where
  enter := enter cell call
  resume := resume cell

/-- The method that the blocking one calls when it does not wait, or waits no more. -/
def Blocking.inner : Blocking ε → NonBlocking α
  | .put e | .offerTimed e => .offer (cell e)
  | .take | .pollTimed => .poll

variable {cell call}

/-- The fields a method ends with do not depend on its reply. -/
lemma leaves_reply_shared {β : Type} (f g : β → Reply α)
    (r : EStateM.Result Throwable (MyLinkedBlockingQueue α) β) :
    (leaves (reply f r) : QueueSegment ε α).shared = (reply g r).2 := by
  cases r <;> rfl

/-- A blocking method leaves the queue as it was, or as its inner method leaves it. -/
lemma enter_shared (b : Blocking ε) (q : MyLinkedBlockingQueue α) :
    (enter cell call (.blocking b) q).shared = q ∨
      (enter cell call (.blocking b) q).shared = ((b.inner cell).call q).2 := by
  cases b with
  | put e | offerTimed e =>
      simp only [enter, Blocking.inner, NonBlocking.call]
      split
      · exact .inl rfl
      · exact .inr (leaves_reply_shared _ _ _)
  | take | pollTimed =>
      simp only [enter, Blocking.inner, NonBlocking.call]
      split
      · exact .inl rfl
      · exact .inr rfl

lemma resume_shared (b : Blocking ε) (w : Wake) (q : MyLinkedBlockingQueue α) :
    (resume cell b w q).shared = q ∨
      (resume cell b w q).shared = ((b.inner cell).call q).2 := by
  cases b with
  | put e | offerTimed e =>
      cases w <;> first | exact .inl rfl | exact .inr (leaves_reply_shared _ _ _)
  | take | pollTimed => cases w <;> first | exact .inl rfl | exact .inr rfl

end Code

/-- A call of any method, with non-null elements. -/
abbrev Call (α : Type) := AnyCall α {op : NonBlocking α // op.NonNull}

/-- The monitor of the queue for such calls. -/
def code (α : Type) :
    Monitor.Code (MyLinkedBlockingQueue α) Cond (Call α) (Blocking α) (Reply α) :=
  anyCode some (·.1.call)

/-- The threads `τ` and one queue. -/
abbrev QueueState (τ α : Type) :=
  Monitor.State τ (MyLinkedBlockingQueue α) Cond (Call α) (Blocking α) (Reply α)

/-- A step of one of the threads. -/
abbrev QueueMove (τ α : Type) := Move (QueueState τ α) (Monitor.Action τ (Call α))

/-- Any interleaving of calls on one new queue of any capacity. -/
def queueMachine (τ α : Type) [DecidableEq τ] [Fintype τ] :
    Machine (QueueState τ α) (Monitor.Action τ (Call α)) :=
  Monitor.machine τ (code α) fun q => ∃ n, q = new n

/-- A new queue of `n` places, and no thread in any of its methods. -/
def initial (τ α : Type) (n : ℕ) : QueueState τ α := ⟨new n, none, fun _ => .idle⟩

lemma init_initial (τ α : Type) [DecidableEq τ] [Fintype τ] (n : ℕ) :
    (queueMachine τ α).init (initial τ α n) := ⟨⟨n, rfl⟩, rfl, fun _ => rfl⟩

/-! ## Where a segment starts, and what it does -/

/-- A point of the code at which a thread holds the lock: the start of a call, or the return of
its `await`. -/
inductive Point (α : Type)
  | start (c : Call α)
  | after (w : Wake) (b : Blocking α)

/-- The point a thread that holds the lock is at. -/
def pointOf : Monitor.Phase Cond (Call α) (Blocking α) (Reply α) → Option (Point α)
  | .running c => some (.start c)
  | .resumed _ w b => some (.after w b)
  | _ => none

namespace Point

/-- The segment that starts at the point. -/
def segment : Point α → MyLinkedBlockingQueue α → QueueSegment α α
  | .start c, q => enter some (·.1.call) c q
  | .after w b, q => resume some b w q

/-- The segment puts an element into the queue. -/
def Adds (q : MyLinkedBlockingQueue α) : Point α → Prop
  | .start (.blocking (.put _)) => q.hasPosition = true
  | .start (.blocking (.offerTimed _)) => q.hasPosition = true
  | .start (.nonBlocking op) => op.1.Adds q
  | .after w (.put _) => w ≠ .interrupted ∧ q.hasPosition = true
  | .after w (.offerTimed _) => w ≠ .interrupted ∧ w ≠ .timedOut ∧ q.hasPosition = true
  | _ => False

/-- The segment takes elements out of the queue. -/
def Removes (q : MyLinkedBlockingQueue α) : Point α → Prop
  | .start (.blocking .take) => q.isEmpty = false
  | .start (.blocking .pollTimed) => q.isEmpty = false
  | .start (.nonBlocking op) => op.1.Removes q
  | .after w .take => w ≠ .interrupted ∧ q.isEmpty = false
  | .after w .pollTimed => w ≠ .interrupted ∧ w ≠ .timedOut ∧ q.isEmpty = false
  | _ => False

/-- The segment ends in an `await` on the condition `full`. -/
def WaitsFull (q : MyLinkedBlockingQueue α) : Point α → Prop
  | .start (.blocking (.put _)) => q.hasPosition = false
  | .start (.blocking (.offerTimed _)) => q.hasPosition = false
  | _ => False

end Point

/-- A valid queue without `null` elements. -/
structure Sound (q : MyLinkedBlockingQueue α) : Prop where
  valid : q.Valid
  nonNull : q.NonNull

lemma sound_new (n : ℕ) : (new n : MyLinkedBlockingQueue α).Sound :=
  ⟨valid_new n, by simp [NonNull]⟩

/-- What the segment that starts at the point `p` does to the queue `q`. -/
inductive SegmentEffect (q : MyLinkedBlockingQueue α) (p : Point α) : QueueSegment α α → Prop
  | adds {e : Option α} {r : Reply α} (hroom : q.insertIndex < q.queueSize) (he : e ≠ none)
      (ha : p.Adds q) (hr : ¬ p.Removes q) (hw : ¬ p.WaitsFull q) :
      SegmentEffect q p (leaves (r, q.pushed e))
  | removes {q' : MyLinkedBlockingQueue α} {r : Reply α} (hshrinks : q.Shrinks q')
      (ha : ¬ p.Adds q) (hr : p.Removes q) (hw : ¬ p.WaitsFull q) :
      SegmentEffect q p (leaves (r, q'))
  | keeps {r : Reply α} (ha : ¬ p.Adds q) (hr : ¬ p.Removes q) (hw : ¬ p.WaitsFull q) :
      SegmentEffect q p (leaves (r, q))
  | waitsFull {timed : Bool} {b : Blocking α} (hfull : ¬ q.insertIndex < q.queueSize)
      (ha : ¬ p.Adds q) (hr : ¬ p.Removes q) (hw : p.WaitsFull q) :
      SegmentEffect q p (waits q .full timed b)
  | waitsEmpty {timed : Bool} {b : Blocking α} (hempty : q.content = [])
      (ha : ¬ p.Adds q) (hr : ¬ p.Removes q) (hw : ¬ p.WaitsFull q) :
      SegmentEffect q p (waits q .empty timed b)

section Effects

variable {q : MyLinkedBlockingQueue α}

lemma offer_segment (hq : q.Sound) (f : Bool → Reply α) (e : α) {p : Point α}
    (ha : p.Adds q ↔ q.hasPosition = true) (hr : ¬ p.Removes q) (hw : ¬ p.WaitsFull q) :
    SegmentEffect q p (leaves (reply f ((offer (some e)).run q))) := by
  by_cases h : q.insertIndex < q.queueSize
  · rw [offer_run hq.valid h]
    exact .adds h (Option.some_ne_none e) (ha.mpr (hasPosition_iff.mpr h)) hr hw
  · rw [offer_run_full h]
    exact .keeps (fun hadds => hasPosition_eq_false h (ha.mp hadds)) hr hw

lemma poll_segment (hq : q.Sound) {p : Point α} (ha : ¬ p.Adds q)
    (hr : p.Removes q ↔ q.isEmpty = false) (hw : ¬ p.WaitsFull q) :
    SegmentEffect q p (leaves (reply .element (poll.run q))) := by
  cases hc : q.content with
  | nil =>
      rw [poll_run_nil hq.valid hc]
      refine .keeps ha (fun hremoves => ?_) hw
      rw [hr, (isEmpty_iff_content hq.valid).mpr hc] at hremoves
      cases hremoves
  | cons x rest =>
      rw [poll_run_cons hq.valid hc]
      exact .removes (.pop hc) ha (hr.mpr (isEmpty_eq_false hq.valid hc)) hw

lemma enter_effect (hq : q.Sound) (c : Call α) : SegmentEffect q (.start c) (enter some (·.1.call) c q) := by
  rcases c with (e | e | _ | _) | op
  · cases hpos : q.hasPosition with
    | true =>
        simpa [enter, hpos] using offer_segment hq (fun _ => .void) e
          (p := .start (.blocking (.put e))) Iff.rfl id (by simp [Point.WaitsFull, hpos])
    | false =>
        simp only [enter, hpos, Bool.not_false, if_true]
        exact .waitsFull (by simpa [hasPosition] using hpos) (by simp [Point.Adds, hpos]) id hpos
  · cases hpos : q.hasPosition with
    | true =>
        simpa [enter, hpos] using offer_segment hq .flag e
          (p := .start (.blocking (.offerTimed e))) Iff.rfl id (by simp [Point.WaitsFull, hpos])
    | false =>
        simp only [enter, hpos, Bool.not_false, if_true]
        exact .waitsFull (by simpa [hasPosition] using hpos) (by simp [Point.Adds, hpos]) id hpos
  · cases hemp : q.isEmpty with
    | true =>
        have hnone := (isEmpty_iff_content hq.valid).mp hemp
        simp only [enter, hemp, if_true]
        exact .waitsEmpty hnone id (by simp [Point.Removes, hemp]) id
    | false =>
        simpa [enter, hemp] using poll_segment hq (p := .start (.blocking .take)) id Iff.rfl id
  · cases hemp : q.isEmpty with
    | true =>
        have hnone := (isEmpty_iff_content hq.valid).mp hemp
        simp only [enter, hemp, if_true]
        exact .waitsEmpty hnone id (by simp [Point.Removes, hemp]) id
    | false =>
        simpa [enter, hemp] using poll_segment hq (p := .start (.blocking .pollTimed)) id Iff.rfl id
  · have heffect := call_effect hq.valid op.1 fun _ _ => hq.nonNull
    have hsame : enter some (·.1.call) (.nonBlocking op) q = leaves ((op.1.call q).1, (op.1.call q).2) := rfl
    rw [hsame]
    generalize (op.1.call q).2 = q' at heffect
    cases heffect with
    | adds hadds hremoves hroom hnull => exact .adds hroom (hnull op.2) hadds hremoves id
    | removes hadds hremoves hshrinks => exact .removes hshrinks hadds hremoves id
    | keeps hadds hremoves => exact .keeps hadds hremoves id

lemma resume_effect (hq : q.Sound) (w : Wake) (b : Blocking α) :
    SegmentEffect q (.after w b) (resume some b w q) := by
  by_cases hint : w = .interrupted
  · have hthrows : resume some b w q = leaves (.thrown .interruptedException, q) := by
      subst hint
      cases b <;> rfl
    rw [hthrows]
    refine .keeps ?_ ?_ ?_ <;> cases b <;> simp [Point.Adds, Point.Removes, Point.WaitsFull, hint]
  cases b with
  | put e =>
      have hseg : resume some (.put e) w q =
          leaves (reply (fun _ => .void) ((offer (some e)).run q)) := by
        cases w <;> first | rfl | exact absurd rfl hint
      rw [hseg]
      exact offer_segment hq _ e (by simp [Point.Adds, hint]) id id
  | offerTimed e =>
      by_cases htime : w = .timedOut
      · subst htime
        exact .keeps (by simp [Point.Adds]) id id
      · have hseg : resume some (.offerTimed e) w q = leaves (reply .flag ((offer (some e)).run q)) := by
          cases w <;> first | rfl | exact absurd rfl hint | exact absurd rfl htime
        rw [hseg]
        exact offer_segment hq _ e (by simp [Point.Adds, hint, htime]) id id
  | take =>
      have hseg : resume some .take w q = leaves (reply .element (poll.run q)) := by
        cases w <;> first | rfl | exact absurd rfl hint
      rw [hseg]
      exact poll_segment hq id (by simp [Point.Removes, hint]) id
  | pollTimed =>
      by_cases htime : w = .timedOut
      · subst htime
        exact .keeps id (by simp [Point.Removes]) id
      · have hseg : resume some .pollTimed w q = leaves (reply .element (poll.run q)) := by
          cases w <;> first | rfl | exact absurd rfl hint | exact absurd rfl htime
        rw [hseg]
        exact poll_segment hq id (by simp [Point.Removes, hint, htime]) id

lemma segment_effect (hq : q.Sound) (p : Point α) : SegmentEffect q p (p.segment q) := by
  cases p with
  | start c => exact enter_effect hq c
  | after w b => exact resume_effect hq w b

/-- A segment leaves a sound queue sound. -/
lemma sound_segment (hq : q.Sound) (p : Point α) : (p.segment q).shared.Sound := by
  have heffect := segment_effect hq p
  generalize p.segment q = seg at heffect
  cases heffect with
  | adds hroom he => exact ⟨hq.valid.pushed hroom _, hq.nonNull.pushed hq.valid hroom he⟩
  | removes hshrinks => exact ⟨hshrinks.valid hq.valid, hq.nonNull.shrinks hq.valid hshrinks⟩
  | keeps => exact hq
  | waitsFull => exact hq
  | waitsEmpty => exact hq

end Effects

/-! ## The monitor's invariants -/

lemma preserves_sound : (code α).Preserves Sound :=
  ⟨fun c _ hq => sound_segment hq (.start c), fun b w _ hq => sound_segment hq (.after w b)⟩

lemma silent_code : (code α).Silent := by
  refine ⟨fun c q => ?_, fun b w q => ?_⟩
  · rcases c with (e | e | _ | _) | op
    · simp only [code, anyCode, enter]; split <;> rfl
    · simp only [code, anyCode, enter]; split <;> rfl
    · simp only [code, anyCode, enter]; split <;> rfl
    · simp only [code, anyCode, enter]; split <;> rfl
    · rfl
  · cases b <;> cases w <;> rfl

section Runs

variable {τ : Type} [DecidableEq τ] [Fintype τ]

/-- The queue stays valid and holds no `null`. -/
lemma sound_of_step {s s' : QueueState τ α} {a : Monitor.Action τ (Call α)}
    (hs : s.shared.Sound) (h : (queueMachine τ α).step s a = some s') : s'.shared.Sound :=
  Monitor.shared_of_step preserves_sound hs h

omit [DecidableEq τ] [Fintype τ] in
/-- A thread that holds the lock is at a point, and runs the segment that starts there. -/
lemma segment_eq_point {s : QueueState τ α} {t : τ} {seg : QueueSegment α α}
    (h : Monitor.segment (code α) s t = some seg) :
    ∃ p, pointOf (s.phase t) = some p ∧ seg = p.segment s.shared := by
  obtain ⟨c, hph, rfl⟩ | ⟨c, w, b, hph, rfl⟩ := Monitor.segment_cases h
  · exact ⟨.start c, by rw [hph]; rfl, rfl⟩
  · exact ⟨.after w b, by rw [hph]; rfl, rfl⟩

end Runs

end MyLinkedBlockingQueue

end LearnJava
