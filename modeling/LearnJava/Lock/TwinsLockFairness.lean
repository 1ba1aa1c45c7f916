import LearnJava.Lock.FairSync
import LearnJava.Lock.TwinsLockPermits

/-!
# No overtaking

A thread that starts a call while another one is queued finds out about it before it competes, and
comes to stand behind it in the queue.  Only the head of the queue tries again, so that the one
ahead has got its permit or given up by then; a thread that has a permit is not asked.

`Behind` is the situation of such a thread, from its call on: it has no permit, is not about to take
one, and is not ahead of the other in the queue.  One move keeps it, unless the other thread leaves
the queue or the thread starts another call (`behind_step`).
-/

namespace LearnJava

namespace TwinsLock

variable {τ : Type} [DecidableEq τ] {count : ℕ}

/-! ## The property -/

/-- The thread starts a method that acquires the lock. -/
def Starts (m : FairMove τ) (t : τ) : Prop := ∃ k, m.label = (t, .base (.call k))

/-- The thread's compare-and-set takes a permit. -/
def TakesPermit (m : FairMove τ) (t : τ) : Prop :=
  m.label.1 = t ∧
    (m.post.lock.thread t).share.taken = (m.pre.lock.thread t).share.taken + 1

/-- The thread leaves the queue with a permit. -/
def Served (m : FairMove τ) (u : τ) : Prop :=
  m.label.1 = u ∧ u ∈ m.pre.queue ∧ (m.post.lock.thread u).phase = .returned .acquired ∧
    (m.post.lock.thread u).share.Holds

/-- The thread leaves the queue because of an interrupt or of its time-out. -/
def GivesUp (m : FairMove τ) (u : τ) : Prop :=
  u ∈ m.pre.queue ∧ ∃ interrupted, m.label = (u, .base (.giveUp interrupted))

/-- What a fair lock promises about a run. -/
structure Fair (ms : List (FairMove τ)) : Prop where
  /-- A thread without a permit that starts while another one is queued takes no permit in this call
  before the other one has left the queue. -/
  no_overtaking : ∀ before start between take after t u,
    ms = before ++ start :: (between ++ take :: after) → Starts start t →
    ¬(start.pre.lock.thread t).share.Holds → u ∈ start.pre.queue →
    (∀ m ∈ between, ¬Starts m t) → TakesPermit take t → ∃ m ∈ between, Served m u ∨ GivesUp m u
  /-- `tryLock` by a thread without a permit fails while another one is queued. -/
  tryLock_fails : ∀ m ∈ ms, ∀ t u queued, m.label = (t, .base (.go queued)) →
    (m.pre.lock.thread t).phase = .trying .tryLock → ¬(m.pre.lock.thread t).share.Holds →
    u ∈ m.pre.queue → (m.post.lock.thread t).phase = .failed .tryLock ∧
      (m.post.lock.thread t).share = (m.pre.lock.thread t).share ∧
      m.post.lock.shared = m.pre.lock.shared
  failed_returns : ∀ m ∈ ms, ∀ t queued, m.label = (t, .base (.go queued)) →
    (m.pre.lock.thread t).phase = .failed .tryLock →
    (m.post.lock.thread t).phase = .returned .notAcquired ∧
      (m.post.lock.thread t).share = (m.pre.lock.thread t).share ∧
      m.post.lock.shared = m.pre.lock.shared
  /-- A thread with a permit acquires the lock again, whoever is queued. -/
  reenters : ∀ m ∈ ms, ∀ t k queued, m.label = (t, .base (.go queued)) →
    (m.pre.lock.thread t).phase = .trying k → (m.pre.lock.thread t).share.Holds →
    ∃ c, (m.pre.lock.thread t).share.counter = some c ∧ (0 ≤ c → c + 1 < 2 ^ 31 →
      (m.post.lock.thread t).phase = .returned .acquired ∧
        (m.post.lock.thread t).share =
          { (m.pre.lock.thread t).share with counter := some (c + 1) } ∧
        m.post.lock.shared = m.pre.lock.shared)

/-! ## Counters and permits -/

/-- A thread has a counter exactly when it has a permit. -/
def Share.Paired (share : Share) : Prop :=
  share.counter = none ∧ share.taken = share.givenBack ∨
    share.counter ≠ none ∧ share.taken = share.givenBack + 1

/-- What a thread's counter says about its permit at each place of the code. -/
def Phase.Paired (share : Share) : Phase → Prop
  | .competing _ | .swapping _ _ _ => share.counter = none ∧ share.taken = share.givenBack
  | .took _ | .releasing | .restoring _ _ =>
    share.counter = none ∧ share.taken = share.givenBack + 1
  | .counting _ | .dropping => share.counter ≠ none ∧ share.taken = share.givenBack + 1
  | .idle | .entered _ | .trying _ | .failed _ | .unlocking | .returned _ => share.Paired

lemma Share.Paired.holds_iff {share : Share} (h : share.Paired) :
    share.Holds ↔ share.counter ≠ none := by
  obtain ⟨hnone, heq⟩ | ⟨hsome, heq⟩ := h
  · simp [Share.Holds, hnone, heq]
  · simp [Share.Holds, hsome, heq]

section Thread

variable {state : ℤ} {l : Local} {r : ℤ × Local} {queued : Bool} {a : Act}

lemma incrementAndGet_paired {k : Kind} {c : ℤ} (htaken : l.share.taken = l.share.givenBack + 1) :
    (incrementAndGet l k c).phase.Paired (incrementAndGet l k c).share := by
  unfold incrementAndGet
  dsimp only
  split_ifs
  · exact .inr ⟨Option.some_ne_none _, htaken⟩
  · exact .inr ⟨Option.some_ne_none _, htaken⟩

lemma advance_paired (hl : l.phase.Paired l.share) (h : advance true queued state l = some r) :
    r.2.phase.Paired r.2.share := by
  cases hph : l.phase with
  | entered k | releasing =>
      simp only [advance, hph] at h
      obtain rfl := Option.some.inj h
      rw [hph] at hl
      exact hl
  | trying k =>
      rw [hph] at hl
      cases hcounter : l.share.counter with
      | some c =>
          simp only [advance, hph, hcounter] at h
          obtain rfl := Option.some.inj h
          obtain ⟨hnone, -⟩ | ⟨-, htaken⟩ := hl
          · rw [hcounter] at hnone
            cases hnone
          · exact incrementAndGet_paired htaken
      | none =>
          simp only [advance, hph, hcounter] at h
          split_ifs at h <;> obtain rfl := Option.some.inj h
          · obtain hl | ⟨hsome, -⟩ := hl
            · exact hl
            · exact absurd hcounter hsome
          · exact hl
  | competing k =>
      simp only [advance, hph] at h
      rw [hph] at hl
      split_ifs at h <;> obtain rfl := Option.some.inj h
      · exact .inl hl
      · exact hl
  | swapping k expected newState =>
      simp only [advance, hph] at h
      rw [hph] at hl
      split_ifs at h <;> obtain rfl := Option.some.inj h
      · exact ⟨hl.1, congrArg (· + 1) hl.2⟩
      · exact hl
  | took k =>
      simp only [advance, hph] at h
      obtain rfl := Option.some.inj h
      rw [hph] at hl
      exact ⟨Option.some_ne_none _, hl.2⟩
  | counting k =>
      simp only [advance, hph] at h
      obtain ⟨c, -, rfl⟩ := Option.map_eq_some_iff.mp h
      rw [hph] at hl
      exact incrementAndGet_paired hl.2
  | failed k =>
      simp only [advance, hph] at h
      rw [hph] at hl
      split at h <;> obtain rfl := Option.some.inj h <;> exact hl
  | unlocking =>
      simp only [advance, hph] at h
      rw [hph] at hl
      split at h
      · obtain rfl := Option.some.inj h
        exact hl
      · rename_i c hcounter
        obtain ⟨hnone, -⟩ | ⟨-, htaken⟩ := hl
        · rw [hcounter] at hnone
          cases hnone
        · split_ifs at h <;> obtain rfl := Option.some.inj h
          · exact .inr ⟨Option.some_ne_none _, htaken⟩
          · exact ⟨Option.some_ne_none _, htaken⟩
  | dropping =>
      simp only [advance, hph] at h
      obtain rfl := Option.some.inj h
      rw [hph] at hl
      exact ⟨rfl, hl.2⟩
  | restoring expected newState =>
      simp only [advance, hph] at h
      rw [hph] at hl
      split_ifs at h <;> obtain rfl := Option.some.inj h
      · exact .inl hl
      · exact hl
  | idle | returned o =>
      simp only [advance, hph] at h
      cases h

/-- A thread between its calls is paired. -/
lemma paired_of_atRest (hl : l.phase.Paired l.share) (hrest : l.phase.AtRest) :
    l.share.Paired := by
  cases hph : l.phase <;> rw [hph] at hl hrest <;> first | exact hl | cases hrest

/-- One action keeps counters and permits paired. -/
lemma act_paired (hl : l.phase.Paired l.share) (h : act true state l a = some r) :
    r.2.phase.Paired r.2.share := by
  cases a with
  | call k | unlock =>
      simp only [act] at h
      split_ifs at h with hrest
      obtain rfl := Option.some.inj h
      have hpaired := paired_of_atRest hl hrest
      exact hpaired
  | go queued => exact advance_paired hl h
  | giveUp interrupted =>
      simp only [act] at h
      split at h
      · rename_i k hph
        rw [hph] at hl
        split_ifs at h
        obtain rfl := Option.some.inj h
        exact hl
      · rename_i k hph
        rw [hph] at hl
        split_ifs at h <;> obtain rfl := Option.some.inj h <;> exact hl
      · cases h

/-! ## Waiting -/

/-- In a call that may be queued: where, and of which method. -/
def Phase.waits : Phase → Option Kind
  | .trying k | .competing k | .swapping k _ _ | .took k | .counting k | .failed k => some k
  | _ => none

lemma incrementAndGet_waits {k : Kind} {c : ℤ} :
    (incrementAndGet l k c).phase.waits = some k ∨
      (incrementAndGet l k c).phase = .returned .acquired ∧
        (incrementAndGet l k c).share.counter ≠ none := by
  unfold incrementAndGet
  dsimp only
  split_ifs
  · exact .inr ⟨rfl, Option.some_ne_none _⟩
  · exact .inl rfl

lemma advance_waits {k : Kind} (hk : k ≠ .tryLock) (hwaits : l.phase.waits = some k)
    (h : advance true queued state l = some r) :
    r.2.phase.waits = some k ∨ r.2.phase = .returned .acquired ∧ r.2.share.counter ≠ none := by
  cases hph : l.phase with
  | trying k' =>
      obtain rfl : k' = k := by simpa [hph, Phase.waits] using hwaits
      simp only [advance, hph] at h
      split at h
      · obtain rfl := Option.some.inj h
        exact incrementAndGet_waits
      · split_ifs at h <;> obtain rfl := Option.some.inj h <;> exact .inl rfl
  | competing k' =>
      obtain rfl : k' = k := by simpa [hph, Phase.waits] using hwaits
      simp only [advance, hph] at h
      split_ifs at h <;> obtain rfl := Option.some.inj h <;> exact .inl rfl
  | swapping k' expected newState =>
      obtain rfl : k' = k := by simpa [hph, Phase.waits] using hwaits
      simp only [advance, hph] at h
      split_ifs at h <;> obtain rfl := Option.some.inj h <;> exact .inl rfl
  | took k' =>
      obtain rfl : k' = k := by simpa [hph, Phase.waits] using hwaits
      simp only [advance, hph] at h
      obtain rfl := Option.some.inj h
      exact .inl rfl
  | counting k' =>
      obtain rfl : k' = k := by simpa [hph, Phase.waits] using hwaits
      simp only [advance, hph] at h
      obtain ⟨c, -, rfl⟩ := Option.map_eq_some_iff.mp h
      exact incrementAndGet_waits
  | failed k' =>
      obtain rfl : k' = k := by simpa [hph, Phase.waits] using hwaits
      simp only [advance, hph] at h
      obtain rfl := Option.some.inj h
      exact .inl rfl
  | _ => simp [hph, Phase.waits] at hwaits

/-- A thread that waits goes on waiting, gets the lock, or gives up. -/
lemma act_waits {k : Kind} (hk : k ≠ .tryLock) (hwaits : l.phase.waits = some k)
    (h : act true state l a = some r) :
    r.2.phase.waits = some k ∨ r.2.phase = .returned .acquired ∧ r.2.share.counter ≠ none ∨
      r.2.phase.AtRest ∧ ∃ interrupted, a = .giveUp interrupted := by
  cases a with
  | call k' | unlock =>
      simp only [act] at h
      split_ifs at h with hrest
      cases hph : l.phase <;> simp [hph, Phase.waits, Phase.AtRest] at hwaits hrest
  | go queued => exact (advance_waits hk hwaits h).imp_right .inl
  | giveUp interrupted =>
      refine .inr (.inr ⟨?_, interrupted, rfl⟩)
      simp only [act] at h
      split at h
      · split_ifs at h
        obtain rfl := Option.some.inj h
        rfl
      · split_ifs at h <;> obtain rfl := Option.some.inj h <;> rfl
      · cases h

end Thread

/-! ## The queue -/

/-- The invariant of a fair lock. -/
structure FairInv (s : FairState τ) : Prop where
  nodup : s.queue.Nodup
  waiting : ∀ u ∈ s.queue, ∃ k, k ≠ .tryLock ∧ (s.lock.thread u).phase.waits = some k
  paired : ∀ t, (s.lock.thread t).phase.Paired (s.lock.thread t).share

section Queue

variable {s s' : FairState τ} {a : τ × FairAct}

lemma fairInv_init (h : (fairMachine τ count).init s) : FairInv s := by
  obtain ⟨⟨-, hthreads⟩, hqueue⟩ := h
  replace hthreads : ∀ t, s.lock.thread t = Local.new := hthreads
  refine ⟨by simp [hqueue], by simp [hqueue], fun t => ?_⟩
  rw [hthreads t]
  exact .inl ⟨rfl, rfl⟩

/-- A thread that waits is in a call. -/
lemma not_atRest_of_waits {ph : Phase} {k : Kind} (h : ph.waits = some k) : ph.AtRest = false := by
  cases ph <;> first | rfl | cases h

/-- **One move keeps the invariant.** -/
lemma fairInv_step (hs : FairInv s) (h : (fairMachine τ count).step s a = some s') :
    FairInv s' := by
  obtain ⟨t, b⟩ := a
  obtain ⟨a, r, rfl, -, hact, rfl⟩ | ⟨-, ⟨k, hph, hk⟩, hnew, rfl⟩ := fairStep_cases h
  · refine ⟨?_, fun u hu => ?_, ?_⟩
    · dsimp only
      split_ifs
      · exact hs.nodup.erase t
      · exact hs.nodup
    · dsimp only at hu ⊢
      by_cases hut : u = t
      · subst hut
        rw [Threads.State.after_thread_self]
        split_ifs at hu with hrest
        · exact absurd hu hs.nodup.not_mem_erase
        · obtain ⟨k, hk, hwaits⟩ := hs.waiting u hu
          obtain hstill | ⟨hreturned, -⟩ | ⟨hgave, -⟩ := act_waits hk hwaits hact
          · exact ⟨k, hk, hstill⟩
          · rw [hreturned] at hrest
            exact absurd rfl hrest
          · exact absurd hgave hrest
      · rw [s.lock.after_thread_of_ne hut]
        apply hs.waiting u
        split_ifs at hu
        · exact List.mem_of_mem_erase hu
        · exact hu
    · exact Threads.State.forall_after (J := fun (_ : ℤ) (l : Local) => l.phase.Paired l.share)
        (act_paired (hs.paired t) hact) fun u _ => hs.paired u
  · refine ⟨?_, fun u hu => ?_, hs.paired⟩
    · exact hs.nodup.append (List.nodup_singleton t) (by simpa using hnew)
    · obtain hold | hlast := List.mem_append.mp hu
      · exact hs.waiting u hold
      · obtain rfl := List.mem_singleton.mp hlast
        exact ⟨k, hk, by simp only [hph, Phase.waits]⟩

end Queue

/-! ## Behind another thread -/

/-- A place of a thread without a counter where it is not about to take a permit. -/
def Phase.OffGuard : Phase → Bool
  | .idle | .entered _ | .trying _ | .failed _ | .unlocking | .returned _ => true
  | _ => false

/-- `t` has no permit, and does not take one before `u` has left the queue. -/
structure Behind (t u : τ) (s : FairState τ) : Prop where
  counter : (s.lock.thread t).share.counter = none
  offGuard : (s.lock.thread t).phase.OffGuard
  split : ∃ ahead rest, s.queue = ahead ++ u :: rest ∧ t ∉ ahead ∧ t ≠ u

section Behind

variable {s s' : FairState τ} {a : τ × FairAct} {t u : τ}

omit [DecidableEq τ] in
/-- The head of the queue is another thread. -/
lemma Behind.head (hs : Behind t u s) : ∃ v, s.queue.head? = some v ∧ v ≠ t := by
  obtain ⟨ahead, rest, hqueue, hahead, hne⟩ := hs.split
  cases ahead with
  | nil => exact ⟨u, by rw [hqueue]; rfl, hne.symm⟩
  | cons v ahead =>
      refine ⟨v, by rw [hqueue]; rfl, ?_⟩
      rintro rfl
      exact hahead List.mem_cons_self

lemma Behind.otherFirst (hs : Behind t u s) : otherFirst s.queue t = true := by
  obtain ⟨v, hhead, hne⟩ := hs.head
  simp [TwinsLock.otherFirst, hhead, hne]

/-- What the thread behind does while the queue holds it up. -/
lemma Behind.advance (hs : Behind t u s) {queued : Bool} {r : ℤ × Local}
    (hadmits : admits s.queue t (s.lock.thread t).phase (.go queued))
    (h : advance true queued s.lock.shared (s.lock.thread t) = some r) :
    r.2.share = (s.lock.thread t).share ∧ r.2.phase.OffGuard ∧ r.1 = s.lock.shared := by
  have hoff := hs.offGuard
  cases hph : (s.lock.thread t).phase with
  | entered k =>
      simp only [TwinsLock.advance, hph] at h
      obtain rfl := Option.some.inj h
      exact ⟨rfl, rfl, rfl⟩
  | trying k =>
      rw [hph, admits, hs.otherFirst] at hadmits
      obtain rfl : queued = true := by simpa using hadmits
      simp only [TwinsLock.advance, hph, hs.counter, shouldAcquire, if_true, Bool.not_true,
        Bool.false_eq_true, if_false] at h
      obtain rfl := Option.some.inj h
      exact ⟨rfl, rfl, rfl⟩
  | failed k =>
      obtain ⟨v, hhead, hne⟩ := hs.head
      by_cases hk : k = .tryLock
      · subst hk
        simp only [TwinsLock.advance, hph] at h
        obtain rfl := Option.some.inj h
        exact ⟨rfl, rfl, rfl⟩
      · rw [hph] at hadmits
        simp [admits, hhead, hne] at hadmits
  | unlocking =>
      simp only [TwinsLock.advance, hph, hs.counter] at h
      obtain rfl := Option.some.inj h
      exact ⟨rfl, rfl, rfl⟩
  | idle | returned o =>
      simp only [TwinsLock.advance, hph] at h
      cases h
  | _ => simp [hph, Phase.OffGuard] at hoff

/-- The thread behind keeps its share and its place, unless it starts another call. -/
lemma Behind.act_self (hs : Behind t u s) {a : Act} {r : ℤ × Local} (hcall : ∀ k, a ≠ .call k)
    (hadmits : admits s.queue t (s.lock.thread t).phase a)
    (h : act true s.lock.shared (s.lock.thread t) a = some r) :
    r.2.share = (s.lock.thread t).share ∧ r.2.phase.OffGuard := by
  cases a with
  | call k => exact absurd rfl (hcall k)
  | unlock =>
      simp only [act] at h
      split_ifs at h
      obtain rfl := Option.some.inj h
      exact ⟨rfl, rfl⟩
  | go queued =>
      obtain ⟨hshare, hoff, -⟩ := hs.advance hadmits h
      exact ⟨hshare, hoff⟩
  | giveUp interrupted =>
      simp only [act] at h
      split at h
      · split_ifs at h
        obtain rfl := Option.some.inj h
        exact ⟨rfl, rfl⟩
      · split_ifs at h <;> obtain rfl := Option.some.inj h <;> exact ⟨rfl, rfl⟩
      · cases h

omit [DecidableEq τ] in
/-- A queued thread is ahead of those that are not. -/
lemma split_of_mem {queue : List τ} (hu : u ∈ queue) (ht : t ∉ queue) :
    ∃ ahead rest, queue = ahead ++ u :: rest ∧ t ∉ ahead ∧ t ≠ u := by
  obtain ⟨ahead, rest, rfl⟩ := List.append_of_mem hu
  rw [List.mem_append, List.mem_cons, not_or, not_or] at ht
  exact ⟨ahead, rest, rfl, ht.1, ht.2.1⟩

/-- `u` stays ahead when another thread leaves the queue. -/
lemma split_erase {queue : List τ} {v : τ} (hvu : v ≠ u)
    (h : ∃ ahead rest, queue = ahead ++ u :: rest ∧ t ∉ ahead ∧ t ≠ u) :
    ∃ ahead rest, queue.erase v = ahead ++ u :: rest ∧ t ∉ ahead ∧ t ≠ u := by
  obtain ⟨ahead, rest, rfl, hahead, hne⟩ := h
  by_cases hv : v ∈ ahead
  · exact ⟨ahead.erase v, rest, List.erase_append_left _ hv,
      fun ht => hahead (List.mem_of_mem_erase ht), hne⟩
  · refine ⟨ahead, rest.erase v, ?_, hahead, hne⟩
    rw [List.erase_append_right _ hv, List.erase_cons_tail (by simpa using hvu.symm)]

/-- **One move leaves the thread behind**, unless the other one leaves the queue in it. -/
lemma behind_step (hinv : FairInv s) (hs : Behind t u s)
    (h : (fairMachine τ count).step s a = some s') (hcall : ¬Starts ⟨s, a, s'⟩ t) :
    (Served ⟨s, a, s'⟩ u ∨ GivesUp ⟨s, a, s'⟩ u) ∨ Behind t u s' := by
  have hqueued : u ∈ s.queue := by
    obtain ⟨ahead, rest, hqueue, -⟩ := hs.split
    simp [hqueue]
  obtain ⟨v, b⟩ := a
  obtain ⟨a, r, rfl, hadmits, hact, rfl⟩ | ⟨-, -, hnew, rfl⟩ := fairStep_cases h
  · have htu : t ≠ u := by
      obtain ⟨-, -, -, -, hne⟩ := hs.split
      exact hne
    by_cases hvu : v = u
    · -- the thread ahead moves on, or leaves the queue
      subst hvu
      obtain ⟨k, hk, hwaits⟩ := hinv.waiting v hqueued
      obtain hstill | ⟨hreturned, hcounter⟩ | ⟨-, i, rfl⟩ := act_waits hk hwaits hact
      · refine .inr ⟨?_, ?_, ?_⟩
        · rw [s.lock.after_thread_of_ne htu]
          exact hs.counter
        · rw [s.lock.after_thread_of_ne htu]
          exact hs.offGuard
        · rw [if_neg (by simp [not_atRest_of_waits hstill])]
          exact hs.split
      · refine .inl (.inl ⟨rfl, hqueued, ?_, ?_⟩)
        · simpa using hreturned
        · have hpaired := act_paired (hinv.paired v) hact
          rw [hreturned] at hpaired
          simpa using (Share.Paired.holds_iff hpaired).mpr hcounter
      · exact .inl (.inr ⟨hqueued, i, rfl⟩)
    · have hlocal : ((s.lock.after v r).thread t).share.counter = none ∧
          ((s.lock.after v r).thread t).phase.OffGuard := by
        by_cases hvt : v = t
        · subst hvt
          obtain ⟨hshare, hoff⟩ := hs.act_self (fun k hk => hcall ⟨k, by rw [hk]⟩) hadmits hact
          rw [Threads.State.after_thread_self, hshare]
          exact ⟨hs.counter, hoff⟩
        · rw [s.lock.after_thread_of_ne (Ne.symm hvt)]
          exact ⟨hs.counter, hs.offGuard⟩
      refine .inr ⟨hlocal.1, hlocal.2, ?_⟩
      dsimp only
      split_ifs
      · exact split_erase hvu hs.split
      · exact hs.split
  · refine .inr ⟨hs.counter, hs.offGuard, ?_⟩
    obtain ⟨ahead, rest, hqueue, hahead, hne⟩ := hs.split
    exact ⟨ahead, rest ++ [v], by simp [hqueue], hahead, hne⟩

/-- A thread without a permit that starts a call is behind those that are queued. -/
lemma behind_of_starts (hinv : FairInv s) (h : (fairMachine τ count).step s a = some s')
    (hstarts : Starts ⟨s, a, s'⟩ t) (hholds : ¬(s.lock.thread t).share.Holds)
    (hqueued : u ∈ s.queue) : Behind t u s' := by
  obtain ⟨k, hlabel⟩ := hstarts
  obtain rfl : a = (t, .base (.call k)) := hlabel
  obtain ⟨a, r, ha, -, hact, rfl⟩ | ⟨hb, -⟩ := fairStep_cases h
  · obtain rfl := FairAct.base.inj ha
    simp only [act] at hact
    split_ifs at hact with hrest
    obtain rfl := Option.some.inj hact
    have hnot : t ∉ s.queue := by
      intro hmem
      obtain ⟨k', -, hwaits⟩ := hinv.waiting t hmem
      rw [not_atRest_of_waits hwaits] at hrest
      cases hrest
    refine ⟨?_, by simp [Phase.OffGuard], ?_⟩
    · have hpaired := paired_of_atRest (hinv.paired t) hrest
      simpa using hpaired.holds_iff.not.mp hholds
    · rw [if_neg (by simp [Phase.AtRest])]
      exact split_of_mem hqueued hnot
  · cases hb

/-- A thread stays behind in the moves after its start, until the other one leaves the queue. -/
lemma behind_of_run {ms : List (FairMove τ)} (h : (fairMachine τ count).Run ms s)
    {before between : List (FairMove τ)} {start : FairMove τ}
    (hms : ms = before ++ start :: between) (hstarts : Starts start t)
    (hholds : ¬(start.pre.lock.thread t).share.Holds) (hqueued : u ∈ start.pre.queue)
    (hbetween : ∀ m ∈ between, ¬Starts m t) :
    (∃ m ∈ between, Served m u ∨ GivesUp m u) ∨ Behind t u s := by
  induction h generalizing between with
  | start => simp at hms
  | @snoc τ₀ s₀ l s₁ hrun hstep ih =>
      have hinv : FairInv s₀ := hrun.invariant (fun _ => fairInv_init) fun _ _ _ => fairInv_step
      rcases List.eq_nil_or_concat between with rfl | ⟨between, last, rfl⟩
      · obtain ⟨-, hlast⟩ := List.append_inj' hms rfl
        obtain rfl := List.singleton_injective hlast
        exact .inr (behind_of_starts hinv hstep hstarts hholds hqueued)
      · rw [List.concat_eq_append] at hms hbetween ⊢
        rw [← List.cons_append, ← List.append_assoc] at hms
        obtain ⟨hinit, hlast⟩ := List.append_inj' hms rfl
        obtain rfl := List.singleton_injective hlast
        obtain ⟨m, hm, hleaves⟩ | hbehind :=
          ih hinit fun m hm => hbetween m (List.mem_append_left _ hm)
        · exact .inl ⟨m, List.mem_append_left _ hm, hleaves⟩
        · have hnot := hbetween ⟨s₀, l, s₁⟩ (by simp)
          refine (behind_step hinv hbehind hstep hnot).imp (fun hleaves => ?_) id
          exact ⟨⟨s₀, l, s₁⟩, by simp, hleaves⟩

/-- A thread that is behind takes no permit. -/
lemma Behind.not_takesPermit {m : FairMove τ} (hs : Behind t u m.pre)
    (h : (fairMachine τ count).step m.pre m.label = some m.post) : ¬TakesPermit m t := by
  obtain ⟨pre, ⟨v, b⟩, post⟩ := m
  rintro ⟨hv, htaken⟩
  obtain rfl : v = t := hv
  dsimp only at hs h htaken
  obtain ⟨a, r, rfl, hadmits, hact, rfl⟩ | ⟨-, -, -, rfl⟩ := fairStep_cases h
  · rw [Threads.State.after_thread_self] at htaken
    have hshare : r.2.share = (pre.lock.thread v).share := by
      by_cases hcall : ∃ k, a = .call k
      · obtain ⟨k, rfl⟩ := hcall
        simp only [act] at hact
        split_ifs at hact
        obtain rfl := Option.some.inj hact
        rfl
      · exact (hs.act_self (fun k hk => hcall ⟨k, hk⟩) hadmits hact).1
    rw [hshare] at htaken
    exact (Nat.lt_succ_self _).ne htaken
  · exact (Nat.lt_succ_self _).ne htaken

end Behind

/-! ## Fairness -/

/-- What the step of a thread's code does in a fair lock. -/
lemma go_cases {m : FairMove τ} {t : τ} {queued : Bool}
    (h : (fairMachine τ count).step m.pre m.label = some m.post)
    (hlabel : m.label = (t, .base (.go queued))) :
    ∃ r, admits m.pre.queue t (m.pre.lock.thread t).phase (.go queued) ∧
      advance true queued m.pre.lock.shared (m.pre.lock.thread t) = some r ∧
      m.post.lock.thread t = r.2 ∧ m.post.lock.shared = r.1 := by
  rw [hlabel] at h
  obtain ⟨a, r, ha, hadmits, hact, hpost⟩ | ⟨hb, -⟩ := fairStep_cases h
  · obtain rfl := FairAct.base.inj ha
    exact ⟨r, hadmits, hact, by simp [hpost], by simp [hpost]⟩
  · cases hb

/-- The invariant before each move of a run. -/
lemma fairInv_of_run {ms : List (FairMove τ)} {s : FairState τ} (h : (fairMachine τ count).Run ms s)
    {m : FairMove τ} (hm : m ∈ ms) :
    FairInv m.pre ∧ (fairMachine τ count).step m.pre m.label = some m.post := by
  obtain ⟨hpre, hstep, -⟩ :=
    h.invariant_of_mem (I := FairInv) (fun _ => fairInv_init) (fun _ _ _ => fairInv_step) hm
  exact ⟨hpre, hstep⟩

omit [DecidableEq τ] in
/-- A `tryLock` that checks the queue stands behind every thread in it. -/
lemma behind_of_tryLock {s : FairState τ} {t u : τ} (hs : FairInv s)
    (hph : (s.lock.thread t).phase = .trying .tryLock) (hholds : ¬(s.lock.thread t).share.Holds)
    (hqueued : u ∈ s.queue) : Behind t u s := by
  have hpaired := hs.paired t
  rw [hph] at hpaired
  have hcounter : (s.lock.thread t).share.counter = none := by
    simpa using (Share.Paired.holds_iff hpaired).not.mp hholds
  have hnot : t ∉ s.queue := by
    intro hmem
    obtain ⟨k, hk, hwaits⟩ := hs.waiting t hmem
    rw [hph] at hwaits
    exact hk (Option.some.inj hwaits).symm
  exact ⟨hcounter, by rw [hph]; rfl, split_of_mem hqueued hnot⟩

omit [DecidableEq τ] in
/-- A thread that has a permit has a counter. -/
lemma FairInv.counter_of_holds {s : FairState τ} {t : τ} {k : Kind} (hs : FairInv s)
    (hph : (s.lock.thread t).phase = .trying k) (hholds : (s.lock.thread t).share.Holds) :
    ∃ c, (s.lock.thread t).share.counter = some c := by
  have hpaired := hs.paired t
  rw [hph] at hpaired
  exact Option.ne_none_iff_exists'.mp ((Share.Paired.holds_iff hpaired).mp hholds)

/-- `new TwinsLock(true, count)` is fair in every run of any number of threads. -/
theorem twinsLock_fair {ms : List (FairMove τ)} {s : FairState τ}
    (h : (fairMachine τ count).Run ms s) : Fair ms := by
  refine ⟨?_, ?_, ?_, ?_⟩
  · intro before start between take after t u hms hstarts hholds hqueued hbetween htakes
    rw [hms, ← List.cons_append, ← List.append_assoc] at h
    obtain ⟨hrun, hstep⟩ := h.of_append_cons
    refine (behind_of_run hrun rfl hstarts hholds hqueued hbetween).resolve_right fun hbehind => ?_
    exact hbehind.not_takesPermit hstep htakes
  · intro m hm t u queued hlabel hph hholds hqueued
    obtain ⟨hpre, hstep⟩ := fairInv_of_run h hm
    obtain ⟨r, hadmits, hadvance, hthread, hshared⟩ := go_cases hstep hlabel
    have hbehind := behind_of_tryLock hpre hph hholds hqueued
    rw [hph, admits, hbehind.otherFirst] at hadmits
    obtain rfl : queued = true := by simpa using hadmits
    simp only [advance, hph, hbehind.counter, shouldAcquire, if_true, Bool.not_true,
      Bool.false_eq_true, if_false] at hadvance
    obtain rfl := Option.some.inj hadvance
    rw [hthread, hshared]
    exact ⟨rfl, rfl, rfl⟩
  · intro m hm t queued hlabel hph
    obtain ⟨r, -, hadvance, hthread, hshared⟩ := go_cases (fairInv_of_run h hm).2 hlabel
    simp only [advance, hph] at hadvance
    obtain rfl := Option.some.inj hadvance
    rw [hthread, hshared]
    exact ⟨rfl, rfl, rfl⟩
  · intro m hm t k queued hlabel hph hholds
    obtain ⟨hpre, hstep⟩ := fairInv_of_run h hm
    obtain ⟨r, -, hadvance, hthread, hshared⟩ := go_cases hstep hlabel
    obtain ⟨c, hcounter⟩ := hpre.counter_of_holds hph hholds
    refine ⟨c, hcounter, fun hlo hhi => ?_⟩
    simp only [advance, hph, hcounter, incrementAndGet_eq hlo hhi] at hadvance
    obtain rfl := Option.some.inj hadvance
    rw [hthread, hshared]
    exact ⟨rfl, rfl, rfl⟩

/-- The second thread waits for the only permit; the first gives it back, and calls `tryLock` and
`lock` before the second has tried again. -/
def queuedFirst : List (Duo × FairAct) :=
  let go (t : Duo) (queued : Bool) : Duo × FairAct := (t, .base (.go queued))
  [(.first, .base (.call .lock)), go .first false, go .first false, go .first false,
    go .first false, go .first false, go .first false,
    (.second, .base (.call .lock)), go .second false, go .second false, go .second false,
    (.second, .enqueue),
    (.first, .base .unlock), go .first false, go .first false, go .first false, go .first false,
    (.first, .base (.call .tryLock)), go .first false, go .first true, go .first false,
    (.first, .base (.call .lock)), go .first false, go .first true, (.first, .enqueue),
    go .second false, go .second false, go .second false, go .second false, go .second false,
    go .second false]

theorem twinsLock_fair_queuedFirst :
    Fair ((fairMachine Duo 1).moves (fairInitial Duo 1) queuedFirst) ∧
      ((fairMachine Duo 1).moves (fairInitial Duo 1) queuedFirst).length = 31 :=
  ⟨twinsLock_fair (Machine.run_of_play (init_fairInitial 1) rfl), rfl⟩

end TwinsLock

end LearnJava
