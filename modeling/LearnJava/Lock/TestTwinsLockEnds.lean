import LearnJava.Lock.TestTwinsLockWakeup

/-!
# The threads of `TestTwinsLock` come to their end

There is no deadlock (`ended_of_quiet`), and a run cannot go on for ever either.  A thread that
misses a compare-and-set tries again, but another one has succeeded in the meantime; a thread that
is refused tries again only after a wake-up; and each thread succeeds at most twice, and enters the
queue, leaves it and wakes another one at most once.  `QueuedState.work` adds this up.
-/

namespace LearnJava

namespace TestTwinsLock

open TwinsLock (Kind Local Phase Outcome Share)

/-! ## The work that is left -/

/-- The work of entering the queue. -/
def enqueueWork (n : ℕ) (queued : Bool) : ℕ := if queued then 0 else 2 * n + 6

/-- The work of a thread in the call that acquires the lock.  A success of its compare-and-set makes
at most `2` more for each of the `n` threads, and a wake-up at most `2 * n + 5` for another one. -/
def acquireWork (n : ℕ) (state : ℤ) (queued : Bool) : Phase → ℕ
  | .entered _ => 10 * n + 32
  | .trying _ => 8 * n + 25 + enqueueWork n queued
  | .competing _ => 8 * n + 24 + enqueueWork n queued
  | .swapping _ expected _ =>
    (if state = expected then 8 * n + 23 else 8 * n + 25) + enqueueWork n queued
  | .took _ => 6 * n + 22
  | .counting _ => 6 * n + 21
  | .failed _ => 6 * n + 21 + enqueueWork n queued
  | _ => 4 * n + 14

/-- The work of a thread in `unlock()`. -/
def unlockWork (n : ℕ) (state : ℤ) : Phase → ℕ
  | .unlocking => 4 * n + 11
  | .dropping => 4 * n + 10
  | .releasing => 4 * n + 9
  | .restoring expected _ => if state = expected then 4 * n + 8 else 4 * n + 10
  | _ => 1

/-- The work of a thread. -/
def Worker.work (n : ℕ) (state : ℤ) (queued : Bool) (w : Worker) : ℕ :=
  match w.place with
  | .started => 10 * n + 33
  | .acquiring => acquireWork n state queued w.lock.phase
  | .sleeping => 4 * n + 13
  | .leaving => 4 * n + 12
  | .unlocking => unlockWork n state w.lock.phase
  | .ended _ => 0

section Steps

variable {n : ℕ} {state : ℤ} {queued : Bool}

/-- A change of the state makes a thread miss its compare-and-set, at worst. -/
lemma work_le_add (state' : ℤ) (w : Worker) :
    w.work n state' queued ≤ w.work n state queued + 2 := by
  simp only [Worker.work]
  cases w.place with
  | acquiring =>
      cases w.lock.phase with
      | swapping k expected newState =>
          simp only [acquireWork]
          split_ifs <;> omega
      | _ => exact Nat.le_add_right _ _
  | unlocking =>
      cases w.lock.phase with
      | restoring expected newState =>
          simp only [unlockWork]
          split_ifs <;> omega
      | _ => exact Nat.le_add_right _ _
  | _ => exact Nat.le_add_right _ _

/-- What a change of the state makes for the others. -/
def changeWork (n : ℕ) (state state' : ℤ) : ℕ := if state' = state then 0 else 2 * n

/-- A step in the call that acquires the lock. -/
lemma acquireWork_lt {told : Bool} {state' : ℤ} {r : Runnable} {l : Local} {p' : Phase}
    (hr : Acquiring r l) (h : Advances state told l.phase state' p') :
    acquireWork n state' (queued && !p'.AtRest) p' +
        (if releasesShared l.phase p' || queued && p'.AtRest then 2 * n + 6 else 0) +
        changeWork n state state' <
      acquireWork n state queued l.phase +
        if Failed l.phase && !p'.AtRest then 2 * n + 5 else 0 := by
  obtain ⟨-, hcall⟩ := hr
  generalize l.phase = p at h hcall
  cases h <;> cases queued <;>
    simp_all [acquireWork, enqueueWork, changeWork, releasesShared, Phase.AtRest, Failed] <;> omega

/-- A step in `unlock()`. -/
lemma unlockWork_lt {told : Bool} {state' : ℤ} {r : Runnable} {l : Local} {p' : Phase}
    (hr : Unlocking r l) (h : Advances state told l.phase state' p') :
    unlockWork n state' p' + (if releasesShared l.phase p' then 2 * n + 6 else 0) +
        changeWork n state state' < unlockWork n state l.phase := by
  simp only [Unlocking] at hr
  generalize l.phase = p at h hr
  cases h <;> simp_all [unlockWork, changeWork, releasesShared]
  omega

@[simp] lemma releasesShared_self (p : Phase) : releasesShared p p = false := by
  cases p <;> rfl

lemma releasesShared_of_active {p p' : Phase} (h : p'.AtRest = false) :
    releasesShared p p' = false := by
  cases p' with
  | returned o => cases h
  | _ => cases p <;> rfl

/-- The thread goes to sleep, or ends with an exception. -/
lemma work_acquireEnded (state' : ℤ) (w : Worker) (o : Outcome) :
    (acquireEnded w o).work n state' queued ≤ 4 * n + 13 := by
  cases o with
  | thrown e =>
      simp only [acquireEnded]
      split_ifs <;> simp [Worker.work]
  | _ => simp [acquireEnded, Worker.work]

@[simp] lemma lock_acquireEnded (w : Worker) (o : Outcome) : (acquireEnded w o).lock = w.lock := by
  cases o with
  | thrown e =>
      simp only [acquireEnded]
      split_ifs <;> rfl
  | _ => rfl

@[simp] lemma work_unlockEnded (state' : ℤ) (w : Worker) (o : Outcome) :
    (unlockEnded w o).work n state' queued = 0 := by
  cases o <;> rfl

@[simp] lemma lock_unlockEnded (w : Worker) (o : Outcome) : (unlockEnded w o).lock = w.lock := by
  cases o <;> rfl

/-- **One action of a thread.**  It pays for a wake-up it gives and for what the others may miss
because of it, and only another attempt uses up a wake-up. -/
lemma work_act {w : Worker} {a : Act} {r : ℤ × Worker} (hw : w.Ok) (hl : w.lock.Ok)
    (hlo : 0 ≤ state) (hhi : state + w.lock.held < 2 ^ 31)
    (hqueued : queued = true → w.place = .acquiring ∧ Attempting w.lock.phase = true)
    (h : act true state w a = some r) :
    r.2.work n r.1 (queued && !r.2.lock.phase.AtRest) +
        (if releasesShared w.lock.phase r.2.lock.phase || queued && r.2.lock.phase.AtRest
          then 2 * n + 6 else 0) + changeWork n state r.1 <
      w.work n state queued +
        if Failed w.lock.phase && !r.2.lock.phase.AtRest then 2 * n + 5 else 0 := by
  have hout : w.place ≠ .acquiring → queued = false := fun hplace => by
    by_contra hin
    exact hplace (hqueued (by simpa using hin)).1
  cases hplace : w.place with
  | acquiring =>
      have hr : Acquiring w.runnable w.lock := by simpa only [Worker.Ok, hplace] using hw
      cases acquireStep_of_act hl hlo hhi hplace h with
      | inside hplace' h' =>
          simp only [Worker.work, hplace, hplace']
          exact acquireWork_lt hr h'
      | givesUp hplace' hsame hphase hreturned =>
          obtain ⟨o, ho⟩ := hreturned
          obtain ⟨k, hk⟩ | ⟨k, hk⟩ := hphase <;> cases queued <;>
            simp [Worker.work, hplace, hplace', ho, hk, acquireWork, enqueueWork, changeWork,
              releasesShared, Phase.AtRest, Failed, hsame] <;> omega
      | @ends told o hphase =>
          have hleft : queued = false := by
            by_contra hin
            have hattempt := (hqueued (by simpa using hin)).2
            simp [hphase, Attempting] at hattempt
          have hle : (acquireEnded w o).work n state false ≤ 4 * n + 13 :=
            work_acquireEnded state w o
          simp [hleft, Worker.work, hplace, hphase, acquireWork, releasesShared, changeWork, Failed]
            at hle ⊢
          omega
  | unlocking =>
      have hr : Unlocking w.runnable w.lock := by simpa only [Worker.Ok, hplace] using hw
      obtain rfl := hout (by simp [hplace])
      obtain ⟨told, hplace', h'⟩ | ⟨o, hphase, rfl⟩ := unlockStep_of_act hl hlo hhi hplace h
      · have hlt := unlockWork_lt (n := n) hr h'
        simp only [Worker.work, hplace, hplace', Bool.false_and, Bool.or_false]
        omega
      · rw [work_unlockEnded, lock_unlockEnded, releasesShared_self]
        simp [Worker.work, hplace, hphase, unlockWork, changeWork]
  | _ =>
      obtain rfl := hout (by simp [hplace])
      refine Nat.lt_add_right _ ?_
      cases act_cases h with
      | called hp hq | released hp hq =>
          simp only [TwinsLock.act] at hq
          split_ifs at hq
          obtain rfl := Option.some.inj hq
          rw [releasesShared_of_active rfl]
          simp [Worker.work, hp, acquireWork, unlockWork, changeWork]
      | woken hp =>
          rw [releasesShared_self]
          simp [Worker.work, hp, changeWork]
      | inside hp => simp [hplace, Place.InLock] at hp
      | acquireEnded hp | unlockEnded hp => simp [hplace] at hp

end Steps

/-! ## The work of all threads -/

section Moves

variable {τ : Type} [Fintype τ] [DecidableEq τ] {count : ℕ} {s s' : QueuedState τ} {t : τ}

/-- The work of a thread, with the wake-up that it is about to give. -/
def QueuedState.workOf (s : QueuedState τ) (t : τ) : ℕ :=
  (s.test.thread t).work (Fintype.card τ) s.test.shared (decide (t ∈ s.queue)) +
    if s.unparking t then 2 * Fintype.card τ + 6 else 0

/-- The work that is left. -/
def QueuedState.work (s : QueuedState τ) : ℕ :=
  (if s.unparked then 2 * Fintype.card τ + 5 else 0) + ∑ t, s.workOf t

/-- Another attempt is one of the thread that is queued first, and uses up its wake-up. -/
lemma unparked_of_retry {a : Act} {r : ℤ × Worker} (hcount : count < 2 ^ 31)
    (hs : QueuedInv count s) (hadmits : s.admits t a = true)
    (hact : act true s.test.shared (s.test.thread t) a = some r)
    (hfailed : Failed (s.test.thread t).lock.phase = true)
    (hrest : r.2.lock.phase.AtRest = false) : s.First t = true ∧ s.unparked = true := by
  have hplace := place_of_failed (hs.test.worker t) hfailed
  cases acquireStep_of_act (hs.test.lock t) hs.test.nonneg (hs.test.room hcount t) hplace hact with
  | @inside told r hplace' h' =>
      cases hphase : (s.test.thread t).lock.phase with
      | failed k =>
          have hk : k ≠ .tryLock := by
            rintro rfl
            rw [hphase] at h'
            generalize r.2.lock.phase = p' at h' hrest
            generalize r.1 = x at h'
            cases h' with
            | gaveUp => cases hrest
            | retried _ hk => exact hk rfl
          simp only [QueuedState.admits, hphase, TwinsLock.admits] at hadmits
          rw [QueuedState.first_iff]
          cases k <;> simp_all
      | _ => simp [hphase, Failed] at hfailed
  | givesUp hplace' hsame hphase hreturned =>
      obtain ⟨o, ho⟩ := hreturned
      simp [ho, Phase.AtRest] at hrest
  | ends hphase => simp [hphase, Failed] at hfailed

/-- What an action of a thread leaves for it. -/
lemma workOf_acted_self {r : ℤ × Worker} (hs : QueuedInv count s) :
    (s.acted t (s.test.after t r)).workOf t ≤
      r.2.work (Fintype.card τ) r.1 (decide (t ∈ s.queue) && !r.2.lock.phase.AtRest) +
        if releasesShared (s.test.thread t).lock.phase r.2.lock.phase ||
          decide (t ∈ s.queue) && r.2.lock.phase.AtRest then 2 * Fintype.card τ + 6 else 0 := by
  have hqueued : decide (t ∈ (s.acted t (s.test.after t r)).queue) =
      (decide (t ∈ s.queue) && !r.2.lock.phase.AtRest) := by
    simp only [QueuedState.acted, Threads.State.after_thread_self]
    split
    · rename_i hrest
      simp [hrest, hs.nodup.not_mem_erase]
    · rename_i hrest
      simp [hrest]
  have hdue : (s.acted t (s.test.after t r)).unparking t = true →
      (releasesShared (s.test.thread t).lock.phase r.2.lock.phase ||
        decide (t ∈ s.queue) && r.2.lock.phase.AtRest) = true := by
    simp only [QueuedState.acted, Threads.State.after_thread_self, Function.update_self,
      Bool.or_eq_true, Bool.and_eq_true, decide_eq_true_eq]
    rintro (hreleases | ⟨⟨hfirst, hrest⟩, -⟩)
    · exact .inl hreleases
    · exact .inr ⟨List.mem_of_mem_head? (QueuedState.first_iff.mp hfirst), hrest⟩
  simp only [QueuedState.workOf, QueuedState.acted_test, Threads.State.after_thread_self,
    Threads.State.after_shared, hqueued]
  refine Nat.add_le_add_left ?_ _
  by_cases hunparking : (s.acted t (s.test.after t r)).unparking t = true
  · rw [if_pos hunparking, if_pos (hdue hunparking)]
  · rw [if_neg hunparking]
    exact Nat.zero_le _

/-- What it leaves for another one. -/
lemma workOf_acted_of_ne {r : ℤ × Worker} {u : τ} (hu : u ≠ t) :
    (s.acted t (s.test.after t r)).workOf u ≤
      s.workOf u + if r.1 = s.test.shared then 0 else 2 := by
  have hqueued : decide (u ∈ (s.acted t (s.test.after t r)).queue) = decide (u ∈ s.queue) := by
    simp only [QueuedState.acted]
    split
    · simp [List.mem_erase_of_ne hu]
    · rfl
  have hunparking : (s.acted t (s.test.after t r)).unparking u = s.unparking u := by
    simp [QueuedState.acted, hu]
  have hwork : (s.test.thread u).work (Fintype.card τ) r.1 (decide (u ∈ s.queue)) ≤
      (s.test.thread u).work (Fintype.card τ) s.test.shared (decide (u ∈ s.queue)) +
        if r.1 = s.test.shared then 0 else 2 := by
    split_ifs with hsame
    · rw [hsame, add_zero]
    · exact work_le_add r.1 (s.test.thread u)
  simp only [QueuedState.workOf, QueuedState.acted_test, Threads.State.after_shared, hqueued,
    hunparking, Threads.State.after_thread_of_ne _ hu]
  omega

/-- An action of a thread. -/
lemma work_acted {a : Act} {r : ℤ × Worker} (hcount : count < 2 ^ 31) (hs : QueuedInv count s)
    (hadmits : s.admits t a = true) (hfree : s.unparking t = false)
    (hact : act true s.test.shared (s.test.thread t) a = some r) :
    (s.acted t (s.test.after t r)).work < s.work := by
  have hqueued : decide (t ∈ s.queue) = true → (s.test.thread t).place = .acquiring ∧
      Attempting (s.test.thread t).lock.phase = true := fun hin => hs.queued t (by simpa using hin)
  have hlt := work_act (n := Fintype.card τ) (hs.test.worker t) (hs.test.lock t) hs.test.nonneg
    (hs.test.room hcount t) hqueued hact
  have hself := workOf_acted_self (t := t) (r := r) hs
  have hbefore : s.workOf t = (s.test.thread t).work (Fintype.card τ) s.test.shared
      (decide (t ∈ s.queue)) := by simp [QueuedState.workOf, hfree]
  have hsum := sum_add_le_sum_add (f := s.workOf) (g := (s.acted t (s.test.after t r)).workOf) t
    fun u hu => workOf_acted_of_ne hu
  have hchange : Fintype.card τ * (if r.1 = s.test.shared then 0 else 2) =
      changeWork (Fintype.card τ) s.test.shared r.1 := by
    simp only [changeWork, mul_ite, mul_zero, Nat.mul_comm]
  have hwakeup : (if (s.acted t (s.test.after t r)).unparked then 2 * Fintype.card τ + 5 else 0) +
      (if Failed (s.test.thread t).lock.phase && !r.2.lock.phase.AtRest
        then 2 * Fintype.card τ + 5 else 0) ≤
      if s.unparked then 2 * Fintype.card τ + 5 else 0 := by
    by_cases hretry : (Failed (s.test.thread t).lock.phase && !r.2.lock.phase.AtRest) = true
    · have hretry' := hretry
      simp only [Bool.and_eq_true, Bool.not_eq_true'] at hretry'
      obtain ⟨hfirst, hunparked⟩ :=
        unparked_of_retry hcount hs hadmits hact hretry'.1 hretry'.2
      have hused : (s.acted t (s.test.after t r)).unparked = false := by
        simp [QueuedState.acted, hfirst, hretry'.1]
      rw [if_pos hretry, if_pos hunparked, hused]
      simp
    · rw [if_neg hretry, add_zero]
      by_cases hunparked : s.unparked = true
      · rw [if_pos hunparked]
        split_ifs <;> omega
      · simp [QueuedState.acted, hunparked]
  simp only [QueuedState.work]
  omega

/-- **One move** leaves less work, unless `park` has returned by itself. -/
lemma work_lt {l : τ × QueuedAct} (hcount : count < 2 ^ 31) (hs : QueuedInv count s)
    (hl : l.2 ≠ .parkReturns) (h : (queuedMachine τ count).step s l = some s') :
    s'.work < s.work := by
  obtain ⟨t, b⟩ := l
  cases queuedStep_cases h with
  | acted hadmits hfree hact => exact work_acted hcount hs hadmits hfree hact
  | @enqueued k hphase hk hnew =>
      have hplace := place_of_failed (hs.test.worker t) (by rw [hphase]; rfl)
      set s' : QueuedState τ :=
        { s with queue := s.queue ++ [t], unparked := s.unparked || s.queue = [] }
      have hself : s'.workOf t + (2 * Fintype.card τ + 6) = s.workOf t := by
        simp [s', QueuedState.workOf, Worker.work, hplace, hphase, acquireWork, enqueueWork, hnew]
        omega
      have hsum := sum_add_le_sum_add (f := s.workOf) (g := s'.workOf) (c := 0) t fun u hu => by
        simp [s', QueuedState.workOf, hu]
      have hwakeup : (if s'.unparked then 2 * Fintype.card τ + 5 else 0) ≤
          2 * Fintype.card τ + 5 := by split_ifs <;> omega
      simp only [QueuedState.work]
      omega
  | unparked hdue =>
      set s' : QueuedState τ :=
        { s with unparked := true, unparking := Function.update s.unparking t false }
      have hself : s'.workOf t + (2 * Fintype.card τ + 6) = s.workOf t := by
        simp [s', QueuedState.workOf, hdue]
      have hsum := sum_add_le_sum_add (f := s.workOf) (g := s'.workOf) (c := 0) t fun u hu => by
        simp [s', QueuedState.workOf, hu]
      have hwakeup : (if s'.unparked then 2 * Fintype.card τ + 5 else 0) =
          2 * Fintype.card τ + 5 := if_pos rfl
      simp only [QueuedState.work]
      omega
  | parkReturned hfirst => exact absurd rfl hl

/-- A return of `park` calls for another attempt. -/
lemma work_lt_add {l : τ × QueuedAct} (hl : l.2 = .parkReturns)
    (h : (queuedMachine τ count).step s l = some s') :
    s'.work < s.work + (2 * Fintype.card τ + 6) := by
  obtain ⟨t, b⟩ := l
  subst hl
  cases queuedStep_cases h with
  | parkReturned hfirst =>
      simp only [QueuedState.work, QueuedState.workOf, if_true]
      omega

/-! ## Every run -/

/-- All threads have ended, and nothing of the lock is left with them. -/
structure AllEnded (count : ℕ) (s : QueuedState τ) : Prop where
  ended : ∀ t, (s.test.thread t).Ended
  permits : s.test.shared = count
  queue : s.queue = []

/-- What the threads come to, after a run. -/
structure Completes (count : ℕ) (ms : List (QueuedMove τ)) (s : QueuedState τ) : Prop where
  /-- The queue takes nothing from what holds of the threads without it. -/
  correct : Correct count s.test
  /-- There are so many steps at most, and some more for each time `park` returns by itself. -/
  bounded : ms.length ≤ Fintype.card τ * (10 * Fintype.card τ + 33) +
    (2 * Fintype.card τ + 6) * ms.countP fun m => m.label.2 = .parkReturns
  /-- While a thread has not ended, some thread has a step of its own. -/
  noDeadlock : (queuedMachine τ count).Quiet Own s → AllEnded count s
  /-- Without interrupts and time-outs the threads come to their end. -/
  ends : ∃ ms' s', (queuedMachine τ count).Run (ms ++ ms') s' ∧ (∀ m ∈ ms', Own m.label) ∧
    AllEnded count s'

lemma work_init (h : (queuedMachine τ count).init s) :
    s.work = Fintype.card τ * (10 * Fintype.card τ + 33) := by
  obtain ⟨⟨-, hnew⟩, hqueue, hunparked, hunparking⟩ := h
  have hpart : ∀ t, s.workOf t = 10 * Fintype.card τ + 33 := by
    intro t
    obtain ⟨runnable, ht⟩ := hnew t
    simp [QueuedState.workOf, hunparking, ht, Worker.work, Worker.new]
  simp [QueuedState.work, hunparked, hpart]

lemma allEnded_of_quiet (hpos : 0 < count) (hs : QueuedInv count s)
    (hquiet : (queuedMachine τ count).Quiet Own s) : AllEnded count s := by
  have hended := ended_of_quiet hpos hs hquiet
  refine ⟨hended, hs.test.correct.settled hended, ?_⟩
  by_contra hqueue
  obtain ⟨t, ht⟩ := List.exists_mem_of_ne_nil _ hqueue
  obtain ⟨thrown, hplace⟩ := hended t
  cases hplace.symm.trans (hs.queued t ht).1

/-- With a permit in the lock, no interleaving of the threads leads to a deadlock and none goes on
for ever: a run has at most quadratically many steps, and only the end of all threads, with all
permits back, leaves no thread a step. -/
theorem workers_complete (hpos : 0 < count) (hcount : count < 2 ^ 31) {ms : List (QueuedMove τ)}
    (h : (queuedMachine τ count).Run ms s) : Completes count ms s := by
  have hinit : ∀ s, (queuedMachine τ count).init s → QueuedInv count s := fun _ => queuedInv_init
  have hstep : ∀ s l s', QueuedInv count s → (queuedMachine τ count).step s l = some s' →
      QueuedInv count s' := fun _ _ _ => queuedInv_step hcount
  have hlower : ∀ s l s', QueuedInv count s → Own l → (queuedMachine τ count).step s l = some s' →
      s'.work < s.work := by
    intro s l s' hs hown
    refine work_lt hcount hs fun hl => ?_
    obtain ⟨t, b⟩ := l
    subst hl
    exact hown
  refine ⟨?_, ?_, fun hquiet => allEnded_of_quiet hpos (h.invariant hinit hstep) hquiet, ?_⟩
  · obtain ⟨ls, hls⟩ := run_test h
    exact (hls.invariant (fun _ => inv_init) fun _ _ _ => inv_step hcount).correct
  · have hle := h.length_add_variant_le_add (I := QueuedInv count) (fun l => l.2 = .parkReturns)
      QueuedState.work (fun s hs => ⟨hinit s hs, (work_init hs).le⟩) hstep
      (fun _ _ _ hs hl => work_lt hcount hs hl) (fun _ _ _ _ hl => work_lt_add hl)
    exact le_trans (Nat.le_add_right _ _) hle
  · obtain ⟨ms', s', hrun, hown, hquiet⟩ :=
      h.exists_quiet Own QueuedState.work hinit hstep hlower
    exact ⟨ms', s', hrun, hown, allEnded_of_quiet hpos (hrun.invariant hinit hstep) hquiet⟩

/-- Steps of the code of one thread. -/
def steps (t : Duo) (n : ℕ) : List (Duo × QueuedAct) := List.replicate n (t, .base (.go false))

/-- The first thread takes the only permit.  The second one enters the queue, tries once more, and
again after `park` has returned by itself; then the first one gives the permit back. -/
def secondWaits : List (Duo × QueuedAct) :=
  steps .first 8 ++ steps .second 4 ++ [(.second, .enqueue)] ++ steps .second 3 ++
    [(.second, .parkReturns)] ++ steps .second 3 ++ steps .first 6 ++ [(.first, .unpark)]

/-- The state after `secondWaits`. -/
def afterSecondWaits : QueuedState Duo :=
  ((queuedMachine Duo 1).play (queuedInitial 1 fun _ => .get) secondWaits).getD
    (queuedInitial 1 fun _ => .get)

lemma run_secondWaits : (queuedMachine Duo 1).Run
    ((queuedMachine Duo 1).moves (queuedInitial 1 fun _ => .get) secondWaits) afterSecondWaits :=
  Machine.run_getD_of_play _ (init_queuedInitial 1 fun _ => .get) (by decide +kernel)

/-- The second thread is unparked, and will come to its end as well. -/
theorem workers_complete_secondWaits :
    Completes 1 ((queuedMachine Duo 1).moves (queuedInitial 1 fun _ => .get) secondWaits)
        afterSecondWaits ∧
      afterSecondWaits.queue = [.second] ∧ afterSecondWaits.unparked = true ∧
      (afterSecondWaits.test.thread .second).lock.phase = .failed .lock ∧
      afterSecondWaits.test.shared = 1 :=
  ⟨workers_complete one_pos (by norm_num) run_secondWaits, by decide +kernel, by decide +kernel,
    by decide +kernel, by decide +kernel⟩

end Moves

end TestTwinsLock

end LearnJava
