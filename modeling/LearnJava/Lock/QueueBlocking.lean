import LearnJava.Lock.QueueMonitor

/-!
# What the blocking methods return

`put` is to return normally only once it has appended its element, the timed `offer` to return
`true` exactly when it appended its element and `false` only when the queue is full, `take` to
return an element it removed, and the timed `poll` to return `null` only when the queue is empty
(`Blocking.Returns`).  A call of any of them changes the queue in the move that ends it or not at
all, so that the contract is a property of moves, `MeetsContract`.

The four methods test the queue with `if`, not `while`, before they wait.  Whatever has become of
the queue by the time the lock is theirs again, `put` ignores the result of the inner `offer`,
`take` hands on the `null` of the inner `poll`, and a time-out counts as a full, or an empty, queue.
`Point.Safe` is the condition on the queue, at the point where a thread has the lock, under which
this makes no difference; `returns_iff_safe` shows for every run that the contract is met exactly
when it holds at every point the run goes through.
-/

namespace LearnJava

namespace MyLinkedBlockingQueue

open Monitor (Wake)

variable {α : Type}

/-! ## The contract -/

/-- What a call that ends with the reply `r` is to have done to the queue in the move that
ends it. -/
def Blocking.Returns (before : MyLinkedBlockingQueue α) (r : Reply α)
    (after : MyLinkedBlockingQueue α) : Blocking α → Prop
  | .put e => r = .void → after.content = before.content ++ [some e]
  | .offerTimed e =>
    (r = .flag true → after.content = before.content ++ [some e]) ∧
      (r ≠ .flag true → after.content = before.content) ∧
      (r = .flag false → before.size = before.queueSize)
  | .take => ∀ x, r = .element x → ∃ v, x = some v ∧ before.content = some v :: after.content
  | .pollTimed =>
    (r = .element none → before.content = [] ∧ after.content = []) ∧
      ∀ v, r = .element (some v) → before.content = some v :: after.content

/-- The call of `put`, `take` or a timed method that a thread which holds the lock is in. -/
def blockingCall : Monitor.Phase Cond (Call α) (Blocking α) (Reply α) → Option (Blocking α)
  | .running (.blocking b) => some b
  | .resumed _ _ b => some b
  | _ => none

/-- The move keeps the contract: the move that ends a blocking call does what its reply says,
and the other moves of the call leave the queue alone. -/
structure MeetsContract {τ : Type} (m : QueueMove τ α) : Prop where
  ends : ∀ t chosen interrupted b r, m.label = .exec t chosen interrupted →
    blockingCall (m.pre.phase t) = some b → m.post.phase t = .returned r →
    b.Returns m.pre.shared r m.post.shared
  goes_on : ∀ t chosen interrupted b, m.label = .exec t chosen interrupted →
    blockingCall (m.pre.phase t) = some b → (∀ r, m.post.phase t ≠ .returned r) →
    m.post.shared.content = m.pre.shared.content
  waits : (∀ t chosen interrupted, m.label ≠ .exec t chosen interrupted) →
    m.post.shared.content = m.pre.shared.content

/-! ## The condition -/

/-- At the point `p` the method does to the queue `q` what it will say it did. -/
def Point.Safe (q : MyLinkedBlockingQueue α) : Point α → Prop
  | .start (.blocking (.put e)) => q.CompactsSafely (some e)
  | .start (.blocking (.offerTimed e)) => q.CompactsSafely (some e)
  | .after .interrupted _ => True
  | .after _ (.put e) => q.hasPosition = true ∧ q.CompactsSafely (some e)
  | .after .timedOut (.offerTimed _) => q.size = q.queueSize
  | .after _ (.offerTimed e) =>
    q.size = q.queueSize ∨ q.hasPosition = true ∧ q.CompactsSafely (some e)
  | .after _ .take => q.isEmpty = false
  | .after .timedOut .pollTimed => q.isEmpty = true
  | _ => True

/-- The thread that runs a segment in this move is at a safe point. -/
def SafeMove {τ : Type} (m : QueueMove τ α) : Prop :=
  ∀ t chosen interrupted p, m.label = .exec t chosen interrupted →
    pointOf (m.pre.phase t) = some p → p.Safe m.pre.shared

/-! ## One segment -/

/-- The blocking call a point belongs to. -/
def Point.blocking : Point α → Option (Blocking α)
  | .start (.blocking b) => some b
  | .after _ b => some b
  | .start (.nonBlocking _) => none

/-- The segment `seg` of the call `b` keeps the contract. -/
def Blocking.Meets (b : Blocking α) (q : MyLinkedBlockingQueue α) (seg : QueueSegment α α) : Prop :=
  match seg.ending with
  | .leave r => b.Returns q r seg.shared
  | .await _ _ _ => seg.shared.content = q.content

section Segments

variable {q : MyLinkedBlockingQueue α}

/-- The queue is full by its own `size()` only when no element was ever taken out. -/
lemma not_hasPosition_of_size (h : q.size = q.queueSize) :
    ¬ q.insertIndex < q.queueSize := by
  rw [size] at h
  omega

/-- The inner `offer` of `put` and of the timed `offer`. -/
lemma reply_offer (hq : q.Valid) (f : Bool → Reply α) (e : α) :
    reply f ((offer (some e)).run q) =
      if q.insertIndex < q.queueSize then (f true, q.pushed (some e)) else (f false, q) := by
  by_cases h : q.insertIndex < q.queueSize
  · rw [offer_run hq h, if_pos h, reply]
  · rw [offer_run_full h, if_neg h, reply]

/-- `put` does what it says exactly when its inner `offer` does not refuse the element, and
appends it. -/
lemma put_meets_iff (hq : q.Valid) (e : α) :
    (Blocking.put e).Meets q (leaves (reply (fun _ => .void) ((offer (some e)).run q))) ↔
      q.hasPosition = true ∧ q.CompactsSafely (some e) := by
  rw [reply_offer hq, hasPosition_iff]
  by_cases h : q.insertIndex < q.queueSize
  · simp [Blocking.Meets, Blocking.Returns, leaves, h, content_pushed_iff hq h]
  · simp [Blocking.Meets, Blocking.Returns, leaves, h]

lemma offerTimed_meets_iff (hq : q.Valid) (e : α) :
    (Blocking.offerTimed e).Meets q (leaves (reply .flag ((offer (some e)).run q))) ↔
      q.size = q.queueSize ∨ q.hasPosition = true ∧ q.CompactsSafely (some e) := by
  rw [reply_offer hq, hasPosition_iff]
  by_cases h : q.insertIndex < q.queueSize
  · have hsize : q.size ≠ q.queueSize := fun hs => not_hasPosition_of_size hs h
    simp [Blocking.Meets, Blocking.Returns, leaves, h, hsize, content_pushed_iff hq h]
  · simp [Blocking.Meets, Blocking.Returns, leaves, h]

lemma take_meets_iff (hq : q.Sound) :
    Blocking.take.Meets q (leaves (reply .element (poll.run q))) ↔ q.isEmpty = false := by
  cases hc : q.content with
  | nil =>
      have hemp : q.isEmpty = true := (isEmpty_iff_content hq.valid).mpr hc
      simp [Blocking.Meets, Blocking.Returns, leaves, poll_run_nil hq.valid hc, reply, hemp]
  | cons x rest =>
      obtain ⟨v, rfl⟩ : ∃ v, x = some v :=
        Option.ne_none_iff_exists'.mp (hq.nonNull x (by rw [hc]; simp))
      simp [Blocking.Meets, Blocking.Returns, leaves, poll_run_cons hq.valid hc, reply, hc,
        content_popped hq.valid hc, isEmpty_eq_false hq.valid hc]

/-- The inner `poll` of the timed `poll` gives `null` only when the queue is empty. -/
lemma pollTimed_meets (hq : q.Sound) :
    Blocking.pollTimed.Meets q (leaves (reply .element (poll.run q))) := by
  cases hc : q.content with
  | nil => simp [Blocking.Meets, Blocking.Returns, leaves, poll_run_nil hq.valid hc, reply, hc]
  | cons x rest =>
      obtain ⟨v, rfl⟩ : ∃ v, x = some v :=
        Option.ne_none_iff_exists'.mp (hq.nonNull x (by rw [hc]; simp))
      simp [Blocking.Meets, Blocking.Returns, leaves, poll_run_cons hq.valid hc, reply, hc,
        content_popped hq.valid hc]

lemma enter_meets_iff (hq : q.Sound) (b : Blocking α) :
    b.Meets q ((Point.start (.blocking b)).segment q) ↔ (Point.start (.blocking b)).Safe q := by
  cases b with
  | put e =>
      cases hpos : q.hasPosition with
      | true => simpa [Point.segment, enter, hpos, Point.Safe] using put_meets_iff hq.valid e
      | false =>
          refine iff_of_true ?_ (compactsSafely_of_full (by simpa [hasPosition] using hpos) _)
          simp [Point.segment, enter, hpos, Blocking.Meets, waits]
  | offerTimed e =>
      cases hpos : q.hasPosition with
      | true =>
          have hsize : q.size ≠ q.queueSize := fun hs =>
            not_hasPosition_of_size hs (hasPosition_iff.mp hpos)
          simpa [Point.segment, enter, hpos, hsize, Point.Safe] using offerTimed_meets_iff hq.valid e
      | false =>
          refine iff_of_true ?_ (compactsSafely_of_full (by simpa [hasPosition] using hpos) _)
          simp [Point.segment, enter, hpos, Blocking.Meets, waits]
  | take =>
      refine iff_of_true ?_ trivial
      cases hemp : q.isEmpty with
      | true => simp [Point.segment, enter, hemp, Blocking.Meets, waits]
      | false => simpa [Point.segment, enter, hemp] using (take_meets_iff hq).mpr hemp
  | pollTimed =>
      refine iff_of_true ?_ trivial
      cases hemp : q.isEmpty with
      | true => simp [Point.segment, enter, hemp, Blocking.Meets, waits]
      | false => simpa [Point.segment, enter, hemp] using pollTimed_meets hq

lemma resume_meets_iff (hq : q.Sound) (w : Wake) (b : Blocking α) :
    b.Meets q (resume some b w q) ↔ (Point.after w b).Safe q := by
  cases w with
  | interrupted =>
      refine iff_of_true ?_ trivial
      cases b <;> simp [resume, Blocking.Meets, Blocking.Returns, leaves]
  | timedOut =>
      cases b with
      | put e => exact put_meets_iff hq.valid e
      | offerTimed e => simp [resume, Blocking.Meets, Blocking.Returns, leaves, Point.Safe]
      | take => exact take_meets_iff hq
      | pollTimed =>
          simp [resume, Blocking.Meets, Blocking.Returns, leaves, Point.Safe,
            isEmpty_iff_content hq.valid]
  | signalled | spurious =>
      cases b with
      | put e => exact put_meets_iff hq.valid e
      | offerTimed e => exact offerTimed_meets_iff hq.valid e
      | take => exact take_meets_iff hq
      | pollTimed => exact iff_of_true (pollTimed_meets hq) trivial

/-- **One segment keeps the contract exactly when it starts at a safe point.** -/
lemma meets_iff_safe (hq : q.Sound) (p : Point α) :
    (∀ b, p.blocking = some b → b.Meets q (p.segment q)) ↔ p.Safe q := by
  rcases p with (b | op) | ⟨w, b⟩
  · simpa [Point.blocking, Point.segment] using enter_meets_iff hq b
  · simp [Point.blocking, Point.Safe]
  · simpa [Point.blocking, Point.segment] using resume_meets_iff hq w b

end Segments

/-! ## Every run -/

section Runs

variable {τ : Type} [DecidableEq τ] [Fintype τ]

lemma blockingCall_eq {ph : Monitor.Phase Cond (Call α) (Blocking α) (Reply α)} {p : Point α}
    (h : pointOf ph = some p) : blockingCall ph = p.blocking := by
  rcases ph with _ | _ | (b | op) | _ | _ | ⟨c, w, b⟩ | _ <;> cases h <;> rfl

/-- **One move keeps the contract exactly when it is safe.** -/
lemma meetsContract_iff_safeMove {s s' : QueueState τ α} {a : Monitor.Action τ (Call α)}
    (hs : s.shared.Sound) (h : (queueMachine τ α).step s a = some s') :
    MeetsContract ⟨s, a, s'⟩ ↔ SafeMove ⟨s, a, s'⟩ := by
  cases Monitor.step_cases h with
  | @segment t chosen interrupted seg phase hseg hsig =>
      obtain ⟨p, hp, rfl⟩ := segment_eq_point hseg
      have hcall := blockingCall_eq hp
      have hsafe : ∀ s', SafeMove ⟨s, .exec t chosen interrupted, s'⟩ ↔ p.Safe s.shared := by
        intro s'
        constructor
        · intro hmove
          exact hmove t chosen interrupted p rfl hp
        · rintro hp' _ _ _ p' ⟨⟩ heq
          obtain rfl := Option.some.inj (hp.symm.trans heq)
          exact hp'
      rw [hsafe, ← meets_iff_safe hs p]
      constructor
      · intro hmeets b hb
        rw [← hcall] at hb
        cases hend : (p.segment s.shared).ending with
        | leave r =>
            have := hmeets.ends t chosen interrupted b r rfl hb (Monitor.finish_phase_leave hend)
            simpa [Blocking.Meets, hend] using this
        | await c timed k =>
            have := hmeets.goes_on t chosen interrupted b rfl hb (Monitor.finish_phase_await hend)
            simpa [Blocking.Meets, hend] using this
      · intro hmeets
        refine ⟨?_, ?_, fun hlabel => absurd rfl (hlabel t chosen interrupted)⟩
        · rintro _ _ _ b r ⟨⟩ hb hret
          have hmeet := hmeets b (hcall ▸ hb)
          cases hend : (p.segment s.shared).ending with
          | leave r' =>
              obtain rfl : r' = r := by simpa [Monitor.finish_phase_leave hend] using hret
              simpa [Blocking.Meets, hend] using hmeet
          | await c timed k => exact absurd hret (Monitor.finish_phase_await hend r)
        · rintro _ _ _ b ⟨⟩ hb hret
          have hmeet := hmeets b (hcall ▸ hb)
          cases hend : (p.segment s.shared).ending with
          | leave r' => exact absurd (Monitor.finish_phase_leave hend) (hret r')
          | await c timed k => simpa [Blocking.Meets, hend] using hmeet
  | moves ha =>
      refine iff_of_true ⟨?_, ?_, fun _ => rfl⟩ ?_
      · rintro t chosen interrupted b r hlabel
        exact absurd hlabel (ha t chosen interrupted)
      · rintro t chosen interrupted b hlabel
        exact absurd hlabel (ha t chosen interrupted)
      · rintro t chosen interrupted p hlabel
        exact absurd hlabel (ha t chosen interrupted)

/-- In every interleaving of any number of threads on a queue of any capacity, all blocking calls
do what they return exactly when every one of them has the lock only at safe points. -/
theorem returns_iff_safe {ms : List (QueueMove τ α)} {s : QueueState τ α}
    (h : (queueMachine τ α).Run ms s) : (∀ m ∈ ms, MeetsContract m) ↔ ∀ m ∈ ms, SafeMove m := by
  refine Machine.Run.moves_iff (I := fun s => s.shared.Sound) ?_ ?_ ?_ h
  · rintro s ⟨⟨n, hn⟩, -⟩
    rw [hn]
    exact sound_new n
  · intro s a s' hs hstep _
    exact sound_of_step hs hstep
  · intro s a s' hs hstep
    exact meetsContract_iff_safeMove hs hstep

/-- The moves of a `take()` that waits, and whose `await` returns after a `put(7)`. -/
def takeWoken : List (QueueMove Duo ℕ) :=
  (queueMachine Duo ℕ).moves (initial Duo ℕ 2)
    [.call .first (.blocking .take), .acquire .first, .exec .first [] false,
      .call .second (.blocking (.put 7)), .acquire .second, .exec .second [] false,
      .wake .first .spurious, .acquire .first, .exec .first [] false]

theorem takeWoken_returns :
    ∃ s, (queueMachine Duo ℕ).Run takeWoken s ∧ s.phase .first = .returned (.element (some 7)) ∧
      ((∀ m ∈ takeWoken, MeetsContract m) ↔ ∀ m ∈ takeWoken, SafeMove m) := by
  have hrun : (queueMachine Duo ℕ).Run takeWoken _ :=
    Machine.run_of_play (init_initial Duo ℕ 2) rfl
  exact ⟨_, hrun, rfl, returns_iff_safe hrun⟩

/-- The moves of a `take()` on an empty queue whose `await` returns without a signal. -/
def spuriousTake : List (QueueMove Unit ℕ) :=
  (queueMachine Unit ℕ).moves (initial Unit ℕ 1)
    [.call () (.blocking .take), .acquire (), .exec () [] false, .wake () .spurious, .acquire (),
      .exec () [] false]

/-- After a spurious wake-up `take` returns `null`. -/
theorem spuriousTake_breaks_contract :
    (∃ s, (queueMachine Unit ℕ).Run spuriousTake s) ∧ ¬ ∀ m ∈ spuriousTake, MeetsContract m := by
  refine ⟨⟨_, Machine.run_of_play (init_initial Unit ℕ 1) rfl⟩, fun h => ?_⟩
  have hlast := (h (spuriousTake.getLast (by decide)) (List.getLast_mem _)).ends () [] false .take
    (.element none) rfl rfl rfl none rfl
  obtain ⟨v, hv, -⟩ := hlast
  cases hv

end Runs

end MyLinkedBlockingQueue

end LearnJava
