import LearnJava.Lock.TwinsLockPermits

/-!
# `TestTwinsLock`: the threads that use the lock

`lock/TestTwinsLock.java` starts threads of three classes on one `TwinsLock`.  Each of them calls a
method that acquires the lock, sleeps, and calls `unlock()` in a `finally` block.  What
`tryLock` returned is not looked at, so that `unlock()` is also called by a thread without the
lock, and ends it with an exception.

`Worker` is a thread of one of the classes with what it has of the lock, and the steps inside a
method of the lock are those of the lock's own model.  Any number of threads of each class are
started, and any of them may be interrupted at any time.
-/

namespace LearnJava

namespace TestTwinsLock

open TwinsLock (Kind Local Phase Outcome)

/-! ## Threads -/

/-- `GetLockRunnable`, `TryGetLockRunnable` and `TryBlockGetLockRunnable`. -/
inductive Runnable
  | get
  | tryGet
  | tryBlockGet
  deriving DecidableEq, Repr

/-- The method of the lock that `run` calls first. -/
def Runnable.kind : Runnable → Kind
  | .get => .lock
  | .tryGet => .tryLock
  | .tryBlockGet => .timedTryLock

/-- Where a thread is in `run`. -/
inductive Place
  /-- Before the call that acquires the lock. -/
  | started
  | acquiring
  /-- In `Thread.sleep(100)`. -/
  | sleeping
  /-- At the beginning of the `finally` block. -/
  | leaving
  | unlocking
  /-- `run` has returned, or an exception that it does not catch has ended the thread. -/
  | ended (thrown : Option Throwable)
  deriving DecidableEq, Repr

/-- A thread: its class, its place, what it has of the lock, and the stack traces it has
printed. -/
structure Worker where
  runnable : Runnable
  place : Place
  lock : Local
  printed : ℕ
  deriving DecidableEq, Repr

/-- `new Thread(runnable)`. -/
def Worker.new (runnable : Runnable) : Worker := ⟨runnable, .started, .new, 0⟩

/-! ## The code -/

/-- The thread takes an action of the lock. -/
def inLock (fair : Bool) (state : ℤ) (w : Worker) (place : Place) (a : TwinsLock.Act) :
    Option (ℤ × Worker) :=
  (TwinsLock.act fair state w.lock a).map fun r => (r.1, { w with place, lock := r.2 })

/-- The call that acquires the lock has ended.  Only `TryBlockGetLockRunnable` calls it in a `try`
block, which catches an `InterruptedException`. -/
def acquireEnded (w : Worker) : Outcome → Worker
  | .thrown e =>
    if w.runnable = .tryBlockGet ∧ e = .interruptedException then
      { w with place := .sleeping, printed := w.printed + 1 }
    else { w with place := .ended (some e) }
  | _ => { w with place := .sleeping }

/-- The call of `unlock()` has ended. -/
def unlockEnded (w : Worker) : Outcome → Worker
  | .thrown e => { w with place := .ended (some e) }
  | _ => { w with place := .ended none }

/-- The next step of `run`. -/
def advance (fair queued : Bool) (state : ℤ) (w : Worker) : Option (ℤ × Worker) :=
  match w.place with
  | .started => inLock fair state w .acquiring (.call w.runnable.kind)
  | .acquiring =>
    match w.lock.phase with
    | .returned o => some (state, acquireEnded w o)
    | _ => inLock fair state w .acquiring (.go queued)
  | .sleeping => some (state, { w with place := .leaving })
  | .leaving => inLock fair state w .unlocking .unlock
  | .unlocking =>
    match w.lock.phase with
    | .returned o => some (state, unlockEnded w o)
    | _ => inLock fair state w .unlocking (.go queued)
  | .ended _ => none

/-- An action: the next step of the thread's code — with the answer of `hasQueuedPredecessors()`
where it is asked —, an interrupt, or the end of the time-out of `tryLock`. -/
inductive Act
  | go (queued : Bool)
  | interrupt
  | timeOut
  deriving DecidableEq, Repr

/-- One action. -/
def act (fair : Bool) (state : ℤ) (w : Worker) : Act → Option (ℤ × Worker)
  | .go queued => advance fair queued state w
  | .interrupt =>
    match w.place with
    | .acquiring => inLock fair state w .acquiring (.giveUp true)
    | .sleeping => some (state, { w with place := .leaving, printed := w.printed + 1 })
    | _ => none
  | .timeOut =>
    match w.place with
    | .acquiring => inLock fair state w .acquiring (.giveUp false)
    | _ => none

/-- Threads of any of the classes on `new TwinsLock(fair, count)`. -/
def program (fair : Bool) (count : ℕ) : Threads.Program ℤ Worker Act where
  initShared state := state = count
  initThread w := ∃ runnable, w = .new runnable
  act := act fair

/-- The state of the lock and the threads. -/
abbrev TestState (τ : Type) := Threads.State τ ℤ Worker

/-- A step of one thread. -/
abbrev TestMove (τ : Type) := Move (TestState τ) (τ × Act)

/-- Any interleaving of the threads. -/
def machine (τ : Type) [DecidableEq τ] (fair : Bool) (count : ℕ) :
    Machine (TestState τ) (τ × Act) := (program fair count).machine τ

/-- The threads before their first step. -/
def initial {τ : Type} (count : ℕ) (runnable : τ → Runnable) : TestState τ :=
  ⟨count, fun t => .new (runnable t)⟩

lemma init_initial {τ : Type} [DecidableEq τ] (fair : Bool) (count : ℕ) (runnable : τ → Runnable) :
    (machine τ fair count).init (initial count runnable) := ⟨rfl, fun t => ⟨runnable t, rfl⟩⟩

/-! ## What one action does -/

/-- The thread's next step is in a method of the lock. -/
def Place.InLock : Place → Bool
  | .acquiring | .unlocking => true
  | _ => false

/-- The effect of one action on the lock and on the thread. -/
inductive Effect (fair : Bool) (state : ℤ) (w : Worker) : ℤ × Worker → Prop
  | called {r : ℤ × Local} (hplace : w.place = .started)
      (h : TwinsLock.act fair state w.lock (.call w.runnable.kind) = some r) :
      Effect fair state w (r.1, { w with place := .acquiring, lock := r.2 })
  | inside {r : ℤ × Local} {a : TwinsLock.Act} (hplace : w.place.InLock = true)
      (ha : (∃ queued, a = .go queued) ∨ ∃ interrupted, a = .giveUp interrupted)
      (h : TwinsLock.act fair state w.lock a = some r) :
      Effect fair state w (r.1, { w with lock := r.2 })
  | acquireEnded {o : Outcome} (hplace : w.place = .acquiring)
      (hphase : w.lock.phase = .returned o) :
      Effect fair state w (state, acquireEnded w o)
  | woken {printed : ℕ} (hplace : w.place = .sleeping) :
      Effect fair state w (state, { w with place := .leaving, printed })
  | released {r : ℤ × Local} (hplace : w.place = .leaving)
      (h : TwinsLock.act fair state w.lock .unlock = some r) :
      Effect fair state w (r.1, { w with place := .unlocking, lock := r.2 })
  | unlockEnded {o : Outcome} (hplace : w.place = .unlocking)
      (hphase : w.lock.phase = .returned o) :
      Effect fair state w (state, unlockEnded w o)

section Inversion

variable {fair : Bool} {state : ℤ} {w : Worker} {r : ℤ × Worker}

/-- A step in a method that the thread does not leave with it. -/
lemma inside_of_inLock {a : TwinsLock.Act} {place : Place} (hplace : w.place = place)
    (hin : place.InLock = true)
    (ha : (∃ queued, a = .go queued) ∨ ∃ interrupted, a = .giveUp interrupted)
    (h : inLock fair state w place a = some r) : Effect fair state w r := by
  obtain ⟨q, hq, rfl⟩ := Option.map_eq_some_iff.mp h
  subst hplace
  exact .inside hin ha hq

lemma advance_cases {queued : Bool} (h : advance fair queued state w = some r) :
    Effect fair state w r := by
  cases hplace : w.place with
  | started =>
      simp only [advance, hplace] at h
      obtain ⟨q, hq, rfl⟩ := Option.map_eq_some_iff.mp h
      exact .called hplace hq
  | acquiring =>
      simp only [advance, hplace] at h
      split at h
      · obtain rfl := Option.some.inj h
        exact .acquireEnded hplace (by assumption)
      · exact inside_of_inLock hplace rfl (.inl ⟨queued, rfl⟩) h
  | sleeping =>
      simp only [advance, hplace] at h
      obtain rfl := Option.some.inj h
      exact .woken hplace
  | leaving =>
      simp only [advance, hplace] at h
      obtain ⟨q, hq, rfl⟩ := Option.map_eq_some_iff.mp h
      exact .released hplace hq
  | unlocking =>
      simp only [advance, hplace] at h
      split at h
      · obtain rfl := Option.some.inj h
        exact .unlockEnded hplace (by assumption)
      · exact inside_of_inLock hplace rfl (.inl ⟨queued, rfl⟩) h
  | ended thrown => simp [advance, hplace] at h

/-- Every action has one of the effects. -/
lemma act_cases {a : Act} (h : act fair state w a = some r) : Effect fair state w r := by
  cases a with
  | go queued => exact advance_cases h
  | interrupt =>
      cases hplace : w.place with
      | acquiring =>
          simp only [act, hplace] at h
          exact inside_of_inLock hplace rfl (.inr ⟨_, rfl⟩) h
      | sleeping =>
          simp only [act, hplace] at h
          obtain rfl := Option.some.inj h
          exact .woken hplace
      | _ => simp [act, hplace] at h
  | timeOut =>
      cases hplace : w.place with
      | acquiring =>
          simp only [act, hplace] at h
          exact inside_of_inLock hplace rfl (.inr ⟨_, rfl⟩) h
      | _ => simp [act, hplace] at h

end Inversion

/-! ## The invariant of a thread -/

/-- What the call that acquires the lock can give, with the acquisitions counted then. -/
def Acquires (r : Runnable) (acquired : ℕ) : Outcome → Prop
  | .acquired => acquired = 1
  | .notAcquired => acquired = 0 ∧ r ≠ .get
  | .thrown e => acquired = 0 ∧ r = .tryBlockGet ∧ e = .interruptedException
  | .unlocked => False

/-- The thread is in the call that acquires the lock, or has left it. -/
def Acquiring (r : Runnable) (l : Local) : Prop :=
  l.released = 0 ∧
    match l.phase with
    | .entered k | .trying k | .competing k | .swapping k _ _ | .took k | .counting k | .failed k =>
      k = r.kind ∧ l.acquired = 0
    | .returned o => Acquires r l.acquired o
    | _ => False

/-- The thread is in `unlock()`, or has left it. -/
def Unlocking (r : Runnable) (l : Local) : Prop :=
  match l.phase with
  | .unlocking => l.acquired ≤ 1 ∧ l.released = 0 ∧ (r = .get → l.acquired = 1)
  | .dropping | .releasing | .restoring _ _ => l.acquired = 1 ∧ l.released = 0
  | .returned .unlocked => l.acquired = 1 ∧ l.released = 1
  | .returned (.thrown e) =>
    l.acquired = 0 ∧ l.released = 0 ∧ e = .nullPointerException ∧ r ≠ .get
  | _ => False

/-- How a thread ends: with the lock taken and given back, or with the exception of `unlock()`
because it never had the lock. -/
def EndsWell (r : Runnable) (l : Local) (thrown : Option Throwable) : Prop :=
  (thrown = none ∧ l.acquired = 1 ∧ l.released = 1) ∨
    (thrown = some .nullPointerException ∧ l.acquired = 0 ∧ l.released = 0 ∧ r ≠ .get)

/-- What the calls of a thread have done at each place of its code. -/
def Worker.Ok (w : Worker) : Prop :=
  match w.place with
  | .started => w.lock = .new
  | .acquiring => Acquiring w.runnable w.lock
  | .sleeping | .leaving => w.lock.phase.AtRest = true ∧ Acquiring w.runnable w.lock
  | .unlocking => Unlocking w.runnable w.lock
  | .ended thrown => w.lock.phase.AtRest = true ∧ EndsWell w.runnable w.lock thrown

section Calls

variable {fair : Bool} {state : ℤ} {r : Runnable} {l : Local} {a : TwinsLock.Act} {q : ℤ × Local}

/-- A thread whose calls were all undone has no permit. -/
lemma held_eq_zero (hl : l.Ok) (hrest : l.phase.AtRest = true) (hdepth : l.depth = 0) :
    l.held = 0 := by
  obtain ⟨⟨n, hshare, -⟩ | ⟨n, -, hpos⟩, -⟩ := hl.balanced hrest
  · simp [Local.held, TwinsLock.Share.Holds, hshare]
  · omega

/-- A thread that has no acquisition to undo has no counter at its attempt. -/
lemma counter_eq_none {k : Kind} (hl : l.Ok) (hphase : l.phase = .trying k) (hdepth : l.depth = 0) :
    l.share.counter = none := by
  simp only [Local.Ok, hphase, Phase.Ok] at hl
  obtain ⟨hsame, ⟨n, hbegun, -⟩ | ⟨n, -, hpos⟩, -⟩ := hl
  · rw [hsame, hbegun]
  · omega

/-- **A step in the call that acquires the lock.** -/
lemma acquiring_advance {queued : Bool} (hl : l.Ok) (hr : Acquiring r l)
    (h : TwinsLock.advance fair queued state l = some q) : Acquiring r q.2 := by
  obtain ⟨hreleased, hcall⟩ := hr
  cases hphase : l.phase with
  | entered k | took k =>
      simp only [hphase] at hcall
      simp only [TwinsLock.advance, hphase] at h
      obtain rfl := Option.some.inj h
      exact ⟨hreleased, hcall⟩
  | trying k =>
      simp only [hphase] at hcall
      have hcounter := counter_eq_none hl hphase (by simp [Local.depth, hcall.2, hreleased])
      simp only [TwinsLock.advance, hphase, hcounter] at h
      split_ifs at h <;> obtain rfl := Option.some.inj h <;> exact ⟨hreleased, hcall⟩
  | competing k =>
      simp only [hphase] at hcall
      simp only [TwinsLock.advance, hphase] at h
      split_ifs at h <;> obtain rfl := Option.some.inj h <;> exact ⟨hreleased, hcall⟩
  | swapping k expected newState =>
      simp only [hphase] at hcall
      simp only [TwinsLock.advance, hphase] at h
      split_ifs at h <;> obtain rfl := Option.some.inj h <;> exact ⟨hreleased, hcall⟩
  | counting k =>
      simp only [hphase] at hcall
      simp only [Local.Ok, hphase, Phase.Ok] at hl
      obtain ⟨n, -, hshare, -⟩ := hl
      simp only [TwinsLock.advance, hphase, hshare, Option.map_some] at h
      obtain rfl := Option.some.inj h
      rw [TwinsLock.incrementAndGet_eq le_rfl (by norm_num)]
      exact ⟨hreleased, by simp [Acquires, hcall.2]⟩
  | failed k =>
      simp only [hphase] at hcall
      simp only [TwinsLock.advance, hphase] at h
      split at h <;> obtain rfl := Option.some.inj h
      · refine ⟨hreleased, hcall.2, ?_⟩
        rintro rfl
        cases hcall.1
      · exact ⟨hreleased, hcall⟩
  | idle | returned o => simp [TwinsLock.advance, hphase] at h
  | unlocking | dropping | releasing | restoring expected newState => simp [hphase] at hcall

/-- The end of the call that acquires the lock by an interrupt or by its time-out. -/
lemma acquiring_giveUp {interrupted : Bool} (hr : Acquiring r l)
    (h : TwinsLock.act fair state l (.giveUp interrupted) = some q) : Acquiring r q.2 := by
  obtain ⟨hreleased, hcall⟩ := hr
  simp only [TwinsLock.act] at h
  split at h
  · rename_i k hphase
    simp only [hphase] at hcall
    split_ifs at h with hint
    obtain rfl := Option.some.inj h
    refine ⟨hreleased, hcall.2, ?_, rfl⟩
    cases r <;> simp_all [Runnable.kind, Kind.interruptible]
  · rename_i k hphase
    simp only [hphase] at hcall
    split_ifs at h with hint htime <;> obtain rfl := Option.some.inj h
    · refine ⟨hreleased, hcall.2, ?_, rfl⟩
      cases r <;> simp_all [Runnable.kind, Kind.interruptible]
    · refine ⟨hreleased, hcall.2, ?_⟩
      cases r <;> simp_all [Runnable.kind]
  · cases h

/-- **A step in `unlock()`.**  Without the lock its first line throws. -/
lemma unlocking_advance {queued : Bool} (hl : l.Ok) (hr : Unlocking r l)
    (h : TwinsLock.advance fair queued state l = some q) : Unlocking r q.2 := by
  simp only [Unlocking] at hr
  cases hphase : l.phase with
  | unlocking =>
      simp only [hphase] at hr
      obtain ⟨hacquired, hreleased, hget⟩ := hr
      simp only [Local.Ok, hphase, Phase.Ok, Local.depth, hreleased] at hl
      obtain ⟨hsame, ⟨n, hbegun, hzero⟩ | ⟨n, hbegun, hpos⟩, -⟩ := hl
      · have hcounter : l.share.counter = none := by rw [hsame, hbegun]
        have hnever : l.acquired = 0 := by simpa using hzero
        simp only [TwinsLock.advance, hphase, hcounter] at h
        obtain rfl := Option.some.inj h
        exact ⟨hnever, hreleased, rfl, fun hr => by simp [hget hr] at hnever⟩
      · have honce : l.acquired = 1 := by omega
        have hcounter : l.share.counter = some 1 := by simp [hsame, hbegun, honce]
        have hwrap : wrap32 (1 - 1) = 0 := by decide
        simp only [TwinsLock.advance, hphase, hcounter, hwrap] at h
        rw [if_neg (lt_irrefl 0)] at h
        obtain rfl := Option.some.inj h
        exact ⟨honce, hreleased⟩
  | dropping | releasing =>
      simp only [hphase] at hr
      simp only [TwinsLock.advance, hphase] at h
      obtain rfl := Option.some.inj h
      exact hr
  | restoring expected newState =>
      simp only [hphase] at hr
      simp only [TwinsLock.advance, hphase] at h
      split_ifs at h <;> obtain rfl := Option.some.inj h
      · exact ⟨hr.1, by simp [hr.2]⟩
      · exact hr
  | idle | returned o => simp [TwinsLock.advance, hphase] at h
  | _ => simp [hphase] at hr

/-- `unlock()` is not given up. -/
lemma unlocking_giveUp {interrupted : Bool} (hr : Unlocking r l) :
    TwinsLock.act fair state l (.giveUp interrupted) = none := by
  simp only [Unlocking] at hr
  simp only [TwinsLock.act]
  split
  · rename_i hphase
    simp [hphase] at hr
  · rename_i hphase
    simp [hphase] at hr
  · rfl

end Calls

/-! ## One action -/

section Action

variable {fair : Bool} {state : ℤ} {w : Worker} {r : ℤ × Worker}

/-- The first call of a thread. -/
lemma called_keeps {q : ℤ × Local} (hw : w.Ok) (hplace : w.place = .started)
    (h : TwinsLock.act fair state w.lock (.call w.runnable.kind) = some q) :
    Acquiring w.runnable q.2 := by
  simp only [Worker.Ok, hplace] at hw
  simp only [hw, TwinsLock.act, Local.new, Phase.AtRest] at h
  obtain rfl := Option.some.inj h
  exact ⟨rfl, rfl, rfl⟩

/-- The call of `unlock()`, whatever the acquiring call gave. -/
lemma released_keeps {q : ℤ × Local} (hr : Acquiring w.runnable w.lock)
    (h : TwinsLock.act fair state w.lock .unlock = some q) : Unlocking w.runnable q.2 := by
  obtain ⟨hreleased, hcall⟩ := hr
  simp only [TwinsLock.act] at h
  split_ifs at h with hrest
  obtain rfl := Option.some.inj h
  cases hphase : w.lock.phase with
  | returned o =>
      simp only [hphase] at hcall
      cases o with
      | acquired => exact ⟨le_of_eq hcall, hreleased, fun _ => hcall⟩
      | notAcquired =>
          exact ⟨le_of_eq_of_le hcall.1 zero_le_one, hreleased, fun h => absurd h hcall.2⟩
      | thrown e =>
          refine ⟨le_of_eq_of_le hcall.1 zero_le_one, hreleased, fun h => ?_⟩
          rw [hcall.2.1] at h
          cases h
      | unlocked => exact absurd hcall not_false
  | idle => simp [hphase] at hcall
  | _ => simp [hphase, Phase.AtRest] at hrest

/-- The thread goes to sleep after every end of the acquiring call. -/
lemma acquireEnded_keeps {o : Outcome} (hr : Acquiring w.runnable w.lock)
    (hphase : w.lock.phase = .returned o) :
    acquireEnded w o = { w with place := .sleeping, printed := (acquireEnded w o).printed } := by
  have hcall := hr.2
  simp only [hphase] at hcall
  cases o with
  | thrown e =>
      obtain ⟨-, hrunnable, he⟩ := hcall
      simp only [acquireEnded]
      rw [if_pos ⟨hrunnable, he⟩]
  | _ => rfl

/-- What `unlock()` gave is how the thread ends. -/
lemma unlockEnded_keeps {o : Outcome} (hr : Unlocking w.runnable w.lock)
    (hphase : w.lock.phase = .returned o) : (unlockEnded w o).Ok := by
  simp only [Unlocking, hphase] at hr
  cases o with
  | unlocked => exact ⟨by simp [unlockEnded, hphase, Phase.AtRest], .inl ⟨rfl, hr⟩⟩
  | thrown e =>
      obtain ⟨hacquired, hreleased, rfl, hrunnable⟩ := hr
      exact ⟨by simp [unlockEnded, hphase, Phase.AtRest],
        .inr ⟨rfl, hacquired, hreleased, hrunnable⟩⟩
  | acquired | notAcquired => exact absurd hr not_false

/-- **One action of a thread.** -/
lemma act_keeps {a : Act} (hw : w.Ok) (hl : w.lock.Ok) (hnonneg : 0 ≤ state)
    (hhi : state + w.lock.held < 2 ^ 31) (h : act fair state w a = some r) :
    TwinsLock.Keeps state w.lock (r.1, r.2.lock) ∧ r.2.Ok := by
  have hsame : TwinsLock.Keeps state w.lock (state, w.lock) := .of_same hnonneg rfl rfl hl
  cases act_cases h with
  | called hplace hq =>
      refine ⟨TwinsLock.act_keeps hl hnonneg hhi (fun k _ => ?_) hq,
        called_keeps (w := w) hw hplace hq⟩
      simp only [Worker.Ok, hplace] at hw
      rw [hw]
      decide
  | inside hplace ha hq =>
      refine ⟨TwinsLock.act_keeps hl hnonneg hhi (fun k hk => ?_) hq, ?_⟩
      · obtain ⟨queued, rfl⟩ | ⟨interrupted, rfl⟩ := ha <;> cases hk
      · cases hp : w.place with
        | acquiring =>
            simp only [Worker.Ok, hp] at hw ⊢
            obtain ⟨queued, rfl⟩ | ⟨interrupted, rfl⟩ := ha
            · exact acquiring_advance hl hw hq
            · exact acquiring_giveUp hw hq
        | unlocking =>
            simp only [Worker.Ok, hp] at hw ⊢
            obtain ⟨queued, rfl⟩ | ⟨interrupted, rfl⟩ := ha
            · exact unlocking_advance hl hw hq
            · rw [unlocking_giveUp hw] at hq
              cases hq
        | _ => simp [hp, Place.InLock] at hplace
  | @acquireEnded o hplace hphase =>
      simp only [Worker.Ok, hplace] at hw
      rw [acquireEnded_keeps hw hphase]
      exact ⟨hsame, by simp [hphase, Phase.AtRest], hw⟩
  | woken hplace =>
      simp only [Worker.Ok, hplace] at hw
      exact ⟨hsame, hw⟩
  | released hplace hq =>
      simp only [Worker.Ok, hplace] at hw
      refine ⟨TwinsLock.act_keeps hl hnonneg hhi (fun k hk => by cases hk) hq, ?_⟩
      exact released_keeps (w := w) hw.2 hq
  | @unlockEnded o hplace hphase =>
      simp only [Worker.Ok, hplace] at hw
      have hlock : (unlockEnded w o).lock = w.lock := by cases o <;> rfl
      exact ⟨hlock.symm ▸ hsame, unlockEnded_keeps hw hphase⟩

end Action

/-! ## Every interleaving -/

/-- The thread has ended. -/
def Worker.Ended (w : Worker) : Prop := ∃ thrown, w.place = .ended thrown

/-- The threads that sleep with the lock. -/
def sleepers {τ : Type} [Fintype τ] (s : TestState τ) : Finset τ :=
  Finset.univ.filter fun t => (s.thread t).place = .sleeping ∧ (s.thread t).lock.acquired = 1

/-- The threads that hold a permit of the lock. -/
def holders {τ : Type} [Fintype τ] (s : TestState τ) : Finset τ :=
  Finset.univ.filter fun t => (s.thread t).lock.share.Holds

/-- What the threads can rely on in every state. -/
structure Correct {τ : Type} [Fintype τ] (count : ℕ) (s : TestState τ) : Prop where
  balance : 0 ≤ s.shared ∧ s.shared + (holders s).card = count
  sleepers_le : (sleepers s).card ≤ count
  ends : ∀ t thrown, (s.thread t).place = .ended thrown →
    EndsWell (s.thread t).runnable (s.thread t).lock thrown
  settled : (∀ t, (s.thread t).Ended) → s.shared = count
  /-- Without permits, `lock()` never returns. -/
  stuck : count = 0 → ∀ t, (s.thread t).runnable = .get →
    (s.thread t).place = .started ∨ (s.thread t).place = .acquiring

section Runs

variable {τ : Type} [Fintype τ] {count : ℕ}

/-- No permit is lost, and every thread is as its place says. -/
structure Inv (count : ℕ) (s : TestState τ) : Prop where
  nonneg : 0 ≤ s.shared
  balance : s.shared + s.total (fun w => w.lock.held) = count
  lock : ∀ t, (s.thread t).lock.Ok
  worker : ∀ t, (s.thread t).Ok
  stuck : count = 0 → ∀ t, (s.thread t).runnable = .get →
    (s.thread t).place = .started ∨ (s.thread t).place = .acquiring

/-- A thread between its two calls holds a permit exactly if it has acquired the lock. -/
lemma holds_of_acquiring {r : Runnable} {l : Local} (hl : l.Ok) (hrest : l.phase.AtRest = true)
    (hr : Acquiring r l) (hacquired : l.acquired = 1) : l.share.Holds := by
  obtain ⟨⟨n, -, hzero⟩ | ⟨n, hshare, -⟩, -⟩ := hl.balanced hrest
  · simp [Local.depth, hacquired, hr.1] at hzero
  · simp [TwinsLock.Share.Holds, hshare]

/-- A thread that has ended holds nothing. -/
lemma held_of_ended {w : Worker} (hw : w.Ok) (hl : w.lock.Ok) (h : w.Ended) : w.lock.held = 0 := by
  obtain ⟨thrown, hplace⟩ := h
  simp only [Worker.Ok, hplace] at hw
  obtain ⟨hrest, ⟨-, hacquired, hreleased⟩ | ⟨-, hacquired, hreleased, -⟩⟩ := hw
  · exact held_eq_zero hl hrest (by simp [Local.depth, hacquired, hreleased])
  · exact held_eq_zero hl hrest (by simp [Local.depth, hacquired, hreleased])

lemma Inv.held_le {s : TestState τ} (hs : Inv count s) (t : τ) :
    (s.thread t).lock.held ≤ count := by
  have hle := s.le_total (fun w => w.lock.held) t
  have hnonneg := hs.nonneg
  have hbalance := hs.balance
  omega

lemma card_holders (s : TestState τ) : (holders s).card = s.total (fun w => w.lock.held) :=
  Finset.card_filter _ _

lemma Inv.correct {s : TestState τ} (hs : Inv count s) : Correct count s where
  balance := ⟨hs.nonneg, by rw [card_holders]; exact hs.balance⟩
  sleepers_le := by
    have hsub : sleepers s ⊆ holders s := by
      intro t ht
      obtain ⟨hplace, hacquired⟩ := (Finset.mem_filter.mp ht).2
      have hw := hs.worker t
      simp only [Worker.Ok, hplace] at hw
      exact Finset.mem_filter.mpr
        ⟨Finset.mem_univ t, holds_of_acquiring (hs.lock t) hw.1 hw.2 hacquired⟩
    have hcard := Finset.card_le_card hsub
    have hnonneg := hs.nonneg
    have hbalance := hs.balance
    rw [card_holders] at hcard
    omega
  ends t thrown hplace := by
    have hw := hs.worker t
    simp only [Worker.Ok, hplace] at hw
    exact hw.2
  settled hall := by
    have hzero : s.total (fun w => w.lock.held) = 0 :=
      Threads.State.total_eq_zero fun t => held_of_ended (hs.worker t) (hs.lock t) (hall t)
    have hbalance := hs.balance
    rw [hzero] at hbalance
    simpa using hbalance
  stuck := hs.stuck

variable [DecidableEq τ] {fair : Bool} {s s' : TestState τ} {a : τ × Act}

lemma inv_init (h : (machine τ fair count).init s) : Inv count s := by
  obtain ⟨hstate, hnew⟩ := h
  have hthread : ∀ t, ∃ runnable, s.thread t = .new runnable := hnew
  have hshared : s.shared = count := hstate
  have hzero : s.total (fun w => w.lock.held) = 0 := by
    refine Threads.State.total_eq_zero fun t => ?_
    obtain ⟨runnable, ht⟩ := hthread t
    rw [ht]
    rfl
  refine ⟨by omega, by omega, fun t => ?_, fun t => ?_, fun _ t _ => ?_⟩ <;>
    obtain ⟨runnable, ht⟩ := hthread t <;> rw [ht]
  · exact TwinsLock.ok_new
  · rfl
  · exact .inl rfl

/-- No thread of `GetLockRunnable` leaves `lock()` without a permit. -/
lemma stuck_act {state : ℤ} {w : Worker} {r : ℤ × Worker} {a : Act} (hw : w.Ok)
    (hget : w.runnable = .get) (hplace : w.place = .started ∨ w.place = .acquiring)
    (hheld : w.lock.held = 0) (hl : w.lock.Ok) (h : act fair state w a = some r) :
    r.2.place = .started ∨ r.2.place = .acquiring := by
  cases act_cases h with
  | called | inside => first | exact .inr rfl | exact hplace
  | @acquireEnded o hp hphase =>
      -- it would have to have returned with a permit
      exfalso
      simp only [Worker.Ok, hp] at hw
      have hcall := hw.2
      simp only [hphase, hget] at hcall
      cases o with
      | acquired =>
          have hholds := holds_of_acquiring hl (by rw [hphase]; rfl) hw hcall
          simp [Local.held, hholds] at hheld
      | notAcquired => exact hcall.2 rfl
      | thrown e => cases hcall.2.1
      | unlocked => exact hcall
  | woken hp | released hp h | unlockEnded hp hphase => simp [hp] at hplace

lemma runnable_act {state : ℤ} {w : Worker} {r : ℤ × Worker} {a : Act}
    (h : act fair state w a = some r) : r.2.runnable = w.runnable := by
  cases act_cases h with
  | @acquireEnded o hp hphase =>
      cases o with
      | thrown e =>
          simp only [acquireEnded]
          split_ifs <;> rfl
      | _ => rfl
  | @unlockEnded o hp hphase => cases o <;> rfl
  | _ => rfl

/-- **One move keeps the permits.** -/
lemma inv_step (hcount : count < 2 ^ 31) (hs : Inv count s)
    (h : (machine τ fair count).step s a = some s') : Inv count s' := by
  obtain ⟨r, hact, rfl⟩ := Threads.Program.step_iff.mp h
  have hbalance := hs.balance
  have hle := s.le_total (fun w => w.lock.held) a.1
  obtain ⟨hkeeps, hok⟩ := act_keeps (hs.worker a.1) (hs.lock a.1) hs.nonneg (by omega) hact
  have hkept := hkeeps.balance
  have htotal := s.total_after (fun w => w.lock.held) a.1 r
  refine ⟨hkeeps.nonneg, ?_, ?_, ?_, fun hzero => ?_⟩
  · simp only [Threads.State.after_shared]
    simp only at hkept htotal
    omega
  · exact Threads.State.forall_after (J := fun _ (w : Worker) => w.lock.Ok) hkeeps.ok
      fun u _ => hs.lock u
  · exact Threads.State.forall_after (J := fun _ (w : Worker) => w.Ok) hok fun u _ => hs.worker u
  · refine Threads.State.forall_after
      (J := fun _ (w : Worker) => w.runnable = .get → w.place = .started ∨ w.place = .acquiring)
      (fun hget => ?_) fun u _ => hs.stuck hzero u
    have hheld := hs.held_le a.1
    rw [runnable_act hact] at hget
    exact stuck_act (hs.worker a.1) hget (hs.stuck hzero a.1 hget) (by omega) (hs.lock a.1) hact

/-- Whatever classes the threads are of, in every interleaving and with interrupts and time-outs at
any time: at most `count` threads sleep with the lock at once; a thread ends normally if it had
the lock, and with the exception of `unlock()` if not; and when all have ended, all permits are
back. -/
theorem workers_correct (hcount : count < 2 ^ 31) {ms : List (TestMove τ)}
    (h : (machine τ fair count).Run ms s) : Correct count s :=
  (h.invariant (fun _ => inv_init) fun _ _ _ => inv_step hcount).correct

/-- One thread of `GetLockRunnable` and one of `TryGetLockRunnable`. -/
def getAndTryGet : Duo → Runnable
  | .first => .get
  | .second => .tryGet

/-- The first thread takes the only permit and sleeps, and the second runs to its end. -/
def failedTry : List (Duo × Act) :=
  List.replicate 8 (.first, .go false) ++ List.replicate 10 (.second, .go false)

/-- The state after `failedTry`. -/
def afterFailedTry : TestState Duo :=
  ((machine Duo false 1).play (initial 1 getAndTryGet) failedTry).getD (initial 1 getAndTryGet)

lemma run_failedTry : (machine Duo false 1).Run
    ((machine Duo false 1).moves (initial 1 getAndTryGet) failedTry) afterFailedTry :=
  Machine.run_getD_of_play _ (init_initial false 1 getAndTryGet) (by decide +kernel)

theorem workers_correct_failedTry : Correct 1 afterFailedTry ∧
    (afterFailedTry.thread .first).place = .sleeping ∧
      (afterFailedTry.thread .second).place = .ended (some .nullPointerException) :=
  ⟨workers_correct (by norm_num) run_failedTry, by decide +kernel, by decide +kernel⟩

end Runs

end TestTwinsLock

end LearnJava
