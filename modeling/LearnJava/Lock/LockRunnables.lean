import LearnJava.Foundation.Progress
import LearnJava.Java.Lang
import LearnJava.Java.CountDownLatch

/-!
# Threads that take one `ReentrantLock`

The threads of `lock/LockTestClass.java`, `lock/LockTestClass2.java` and
`lock/TestLockInterruptibly.java` have one form: they wait for a latch and make one call, an
`InterruptedException` is caught, and a `finally` may unlock.  A `Runnable` says what the call is,
whether the exception is thrown again in a `RuntimeException`, and whether the `finally` unlocks.

A thread that is interrupted before it enters `await`, `tryLock` or `lockInterruptibly` gets the
exception there; one that is interrupted inside may also go on and remain interrupted.  `lock` does
not react.  `unlock` of a thread that does not own the lock throws, and what was to be thrown before
is lost.  No thread takes the lock twice, so that its hold count is not needed.
-/

namespace LearnJava

namespace LockRunnable

/-! ## The code -/

/-- The call behind `countDownLatch.await()`. -/
inductive Call (τ : Type)
  | lock
  /-- `lock.tryLock(30, TimeUnit.SECONDS)` -/
  | tryLock
  | lockInterruptibly
  /-- `interrupt()` of some threads. -/
  | interrupt (threads : List τ)
  deriving DecidableEq

/-- A `Runnable`; `unlocks` depends on the variable `getLock`, which is true unless `tryLock` has
set it. -/
structure Runnable (τ : Type) where
  call : Call τ
  rethrows : Bool
  unlocks : Bool → Bool

/-- Where a thread is. -/
inductive Place (τ : Type)
  /-- At `countDownLatch.await()`. -/
  | new
  /-- In `await`. -/
  | awaiting
  /-- At its call. -/
  | calling
  /-- In the call, without the lock. -/
  | waiting
  /-- At the threads it has not interrupted yet. -/
  | interrupting (threads : List τ)
  /-- At the `finally`, or the end of `run`; `caught` if an `InterruptedException` was caught. -/
  | leaving (getLock caught : Bool)
  | ended (result : Option Throwable)
  deriving DecidableEq

/-- A thread: where it is, and whether it is interrupted. -/
structure Local (τ : Type) where
  place : Place τ
  interrupted : Bool
  deriving DecidableEq

/-- The latches that are open, the owner of the lock, and the threads. -/
structure State (τ : Type) where
  opened : Latch → Bool
  owner : Option τ
  thread : τ → Local τ

section Code

variable {τ : Type} [DecidableEq τ]

/-- What `run` throws after its `catch`. -/
def Runnable.pending (r : Runnable τ) (caught : Bool) : Option Throwable :=
  if caught && r.rethrows then some (.runtimeException .interruptedException) else none

/-- The call throws an `InterruptedException` in an interrupted thread. -/
def Call.isInterruptible : Call τ → Bool
  | .tryLock | .lockInterruptibly => true
  | .lock | .interrupt _ => false

/-- The thread comes to another place. -/
def State.goTo (s : State τ) (t : τ) (place : Place τ) : State τ :=
  { s with thread := Function.update s.thread t { s.thread t with place } }

/-- `t.interrupt()` -/
def State.interrupt (s : State τ) (t : τ) : State τ :=
  { s with thread := Function.update s.thread t { s.thread t with interrupted := true } }

/-- The `catch` block. -/
def State.catch (s : State τ) (t : τ) : State τ :=
  { s with thread := Function.update s.thread t ⟨.leaving true true, false⟩ }

variable (runnable : τ → Runnable τ) (latch : τ → Latch)

/-- The next step of a thread. -/
def go (s : State τ) (t : τ) : Option (State τ) :=
  match (s.thread t).place with
  | .new => if (s.thread t).interrupted then none else some (s.goTo t .awaiting)
  | .awaiting => if s.opened (latch t) then some (s.goTo t .calling) else none
  | .calling =>
    match (runnable t).call with
    | .interrupt threads => some (s.goTo t (.interrupting threads))
    | call =>
      if call.isInterruptible && (s.thread t).interrupted then none else some (s.goTo t .waiting)
  | .waiting =>
    if s.owner = none then some { s.goTo t (.leaving true false) with owner := some t } else none
  | .interrupting [] => some (s.goTo t (.leaving true false))
  | .interrupting (u :: threads) => some ((s.goTo t (.interrupting threads)).interrupt u)
  | .leaving getLock caught =>
    let pending := (runnable t).pending caught
    if (runnable t).unlocks getLock then
      if s.owner = some t then some { s.goTo t (.ended pending) with owner := none }
      else some (s.goTo t (.ended (some .illegalMonitorStateException)))
    else some (s.goTo t (.ended pending))
  | .ended _ => none

/-- The place is one where an interrupted thread gets an `InterruptedException`. -/
def Place.throws (call : Call τ) : Place τ → Bool
  | .new | .awaiting => true
  | .calling | .waiting => call.isInterruptible
  | _ => false

/-- A move: a step of a thread, its `InterruptedException`, the end of its time in `tryLock`, its
interrupt by a thread that is none of these, or the opening of its latch. -/
inductive Act (τ : Type)
  | go (t : τ)
  | throw (t : τ)
  | timeOut (t : τ)
  | interrupt (t : τ)
  | countDown (t : τ)
  deriving DecidableEq

/-- One move. -/
def step (s : State τ) : Act τ → Option (State τ)
  | .go t => go runnable latch s t
  | .throw t =>
    if (s.thread t).interrupted && (s.thread t).place.throws (runnable t).call then
      some (s.catch t)
    else none
  | .timeOut t =>
    if (s.thread t).place = .waiting ∧ (runnable t).call = .tryLock then
      some (s.goTo t (.leaving false false))
    else none
  | .interrupt t => some (s.interrupt t)
  | .countDown t =>
    if s.opened (latch t) then none
    else some { s with opened := Function.update s.opened (latch t) true }

/-- The threads before their first step. -/
def State.initial (τ : Type) : State τ := ⟨fun _ => false, none, fun _ => ⟨.new, false⟩⟩

/-- Any threads, each with its `Runnable` and its latch. -/
def machine : Machine (State τ) (Act τ) where
  init s := s = .initial τ
  step := step runnable latch

/-! ## What one move does -/

/-- A thread comes to another place, and the lock is not touched. -/
inductive Moves (s : State τ) (t : τ) : Place τ → Place τ → Prop
  | enters (h : (s.thread t).interrupted = false) : Moves s t .new .awaiting
  | passes (h : s.opened (latch t) = true) : Moves s t .awaiting .calling
  | waits (h : ∀ threads, (runnable t).call ≠ .interrupt threads) : Moves s t .calling .waiting
  | begins {threads : List τ} (h : (runnable t).call = .interrupt threads) :
      Moves s t .calling (.interrupting threads)
  | finishes : Moves s t (.interrupting []) (.leaving true false)
  | timesOut (h : (runnable t).call = .tryLock) : Moves s t .waiting (.leaving false false)
  | fails {getLock caught : Bool} (hunlocks : (runnable t).unlocks getLock = true)
      (howner : s.owner ≠ some t) :
      Moves s t (.leaving getLock caught) (.ended (some .illegalMonitorStateException))
  | ends {getLock caught : Bool} (hunlocks : (runnable t).unlocks getLock = false) :
      Moves s t (.leaving getLock caught) (.ended ((runnable t).pending caught))

/-- The effect of a move. -/
inductive Effect (s : State τ) : Act τ → State τ → Prop
  | moves {a : Act τ} (t : τ) (place : Place τ) (ha : a = .go t ∨ a = .timeOut t)
      (h : Moves runnable latch s t (s.thread t).place place) : Effect s a (s.goTo t place)
  | acquires (t : τ) (hplace : (s.thread t).place = .waiting) (hfree : s.owner = none) :
      Effect s (.go t) { s.goTo t (.leaving true false) with owner := some t }
  | interruptsNext (t u : τ) (threads : List τ)
      (hplace : (s.thread t).place = .interrupting (u :: threads)) :
      Effect s (.go t) ((s.goTo t (.interrupting threads)).interrupt u)
  | releases (t : τ) (getLock caught : Bool) (hplace : (s.thread t).place = .leaving getLock caught)
      (hunlocks : (runnable t).unlocks getLock = true) (howner : s.owner = some t) :
      Effect s (.go t) { s.goTo t (.ended ((runnable t).pending caught)) with owner := none }
  | throws (t : τ) (hinterrupted : (s.thread t).interrupted = true)
      (hthrows : (s.thread t).place.throws (runnable t).call = true) :
      Effect s (.throw t) (s.catch t)
  | interrupted (t : τ) : Effect s (.interrupt t) (s.interrupt t)
  | opens (t : τ) (hclosed : s.opened (latch t) = false) :
      Effect s (.countDown t) { s with opened := Function.update s.opened (latch t) true }

variable {runnable latch} {s s' : State τ}

lemma go_cases {t : τ} (h : go runnable latch s t = some s') :
    Effect runnable latch s (.go t) s' := by
  have hmoves : ∀ {place}, Moves runnable latch s t (s.thread t).place place →
      Effect runnable latch s (.go t) (s.goTo t place) := fun hm => .moves t _ (.inl rfl) hm
  cases hplace : (s.thread t).place with
  | new =>
      simp only [go, hplace] at h
      split_ifs at h with hint
      obtain rfl := Option.some.inj h
      exact hmoves (hplace ▸ .enters (by simpa using hint))
  | awaiting =>
      simp only [go, hplace] at h
      split_ifs at h with hopen
      obtain rfl := Option.some.inj h
      exact hmoves (hplace ▸ .passes hopen)
  | calling =>
      simp only [go, hplace] at h
      split at h
      · rename_i threads hcall
        obtain rfl := Option.some.inj h
        exact hmoves (hplace ▸ .begins hcall)
      · rename_i hcall
        split_ifs at h
        obtain rfl := Option.some.inj h
        exact hmoves (hplace ▸ .waits hcall)
  | waiting =>
      simp only [go, hplace] at h
      split_ifs at h with hfree
      obtain rfl := Option.some.inj h
      exact .acquires t hplace hfree
  | interrupting threads =>
      cases threads with
      | nil =>
          simp only [go, hplace] at h
          obtain rfl := Option.some.inj h
          exact hmoves (hplace ▸ .finishes)
      | cons u threads =>
          simp only [go, hplace] at h
          obtain rfl := Option.some.inj h
          exact .interruptsNext t u threads hplace
  | leaving getLock caught =>
      simp only [go, hplace] at h
      split_ifs at h with hunlocks howner <;> obtain rfl := Option.some.inj h
      · exact .releases t getLock caught hplace hunlocks howner
      · exact hmoves (hplace ▸ .fails hunlocks howner)
      · exact hmoves (hplace ▸ .ends (by simpa using hunlocks))
  | ended result => simp [go, hplace] at h

/-- Every move has one of the effects. -/
lemma step_cases {a : Act τ} (h : (machine runnable latch).step s a = some s') :
    Effect runnable latch s a s' := by
  cases a with
  | go t => exact go_cases h
  | throw t =>
      simp only [machine, step] at h
      split_ifs at h with hthrows
      obtain rfl := Option.some.inj h
      obtain ⟨hinterrupted, hplace⟩ := Bool.and_eq_true_iff.mp hthrows
      exact .throws t hinterrupted hplace
  | timeOut t =>
      simp only [machine, step] at h
      split_ifs at h with htry
      obtain rfl := Option.some.inj h
      exact .moves t _ (.inr rfl) (htry.1 ▸ .timesOut htry.2)
  | interrupt t =>
      obtain rfl := Option.some.inj h
      exact .interrupted t
  | countDown t =>
      simp only [machine, step] at h
      split_ifs at h with hopen
      obtain rfl := Option.some.inj h
      exact .opens t (by simpa using hopen)

/-! ## Places and interrupts -/

lemma goTo_place (t u : τ) (place : Place τ) :
    ((s.goTo t place).thread u).place = if u = t then place else (s.thread u).place := by
  by_cases hu : u = t
  · subst hu
    simp [State.goTo]
  · simp [State.goTo, hu]

@[simp] lemma interrupt_place (t u : τ) :
    ((s.interrupt t).thread u).place = (s.thread u).place := by
  rcases eq_or_ne u t with rfl | hne
  · simp [State.interrupt]
  · simp [State.interrupt, hne]

lemma catch_place (t u : τ) :
    ((s.catch t).thread u).place = if u = t then .leaving true true else (s.thread u).place := by
  by_cases hu : u = t
  · subst hu
    simp [State.catch]
  · simp [State.catch, hu]

lemma goTo_interrupted (t u : τ) (place : Place τ) :
    ((s.goTo t place).thread u).interrupted = (s.thread u).interrupted := by
  rcases eq_or_ne u t with rfl | hu
  · simp [State.goTo]
  · simp [State.goTo, hu]

lemma interrupt_interrupted (t u : τ) :
    ((s.interrupt t).thread u).interrupted = (decide (u = t) || (s.thread u).interrupted) := by
  rcases eq_or_ne u t with rfl | hu
  · simp [State.interrupt]
  · simp [State.interrupt, hu]

lemma catch_interrupted (t u : τ) :
    ((s.catch t).thread u).interrupted = (decide (u ≠ t) && (s.thread u).interrupted) := by
  rcases eq_or_ne u t with rfl | hu
  · simp [State.catch]
  · simp [State.catch, hu]

/-! ## Finitely many moves -/

/-- How many threads the call interrupts. -/
def Call.targets : Call τ → ℕ
  | .interrupt threads => threads.length
  | _ => 0

/-- The steps a thread has left. -/
def Place.left (call : Call τ) : Place τ → ℕ
  | .new => call.targets + 5
  | .awaiting => call.targets + 4
  | .calling => call.targets + 3
  | .waiting => 2
  | .interrupting threads => threads.length + 2
  | .leaving _ _ => 1
  | .ended _ => 0

omit [DecidableEq τ] in
lemma left_moves {t : τ} {old place : Place τ} (h : Moves runnable latch s t old place) :
    place.left (runnable t).call < old.left (runnable t).call := by
  cases h with
  | begins hcall => simp [Place.left, hcall, Call.targets]
  | _ => simp only [Place.left, List.length_nil]; omega

omit [DecidableEq τ] in
lemma left_throws {call : Call τ} {place : Place τ} (h : place.throws call = true) :
    1 < place.left call := by
  cases place <;> simp_all [Place.throws, Place.left]

/-- The move is not an interrupt by another thread. -/
def Act.IsOwn : Act τ → Prop
  | .interrupt _ => False
  | _ => True

/-- Such moves are counted. -/
def Act.steps : Act τ → ℕ
  | .interrupt _ => 0
  | _ => 1

section Finite

variable [Fintype τ]

variable (runnable latch) in
/-- What is left to be done. -/
def distance (s : State τ) : ℕ :=
  ∑ t, (s.thread t).place.left (runnable t).call + ∑ t, (!s.opened (latch t)).toNat

omit [DecidableEq τ] in
/-- One thread has less left, and the others are where they were. -/
lemma sum_left_lt (t : τ)
    (hself : (s'.thread t).place.left (runnable t).call < (s.thread t).place.left (runnable t).call)
    (hothers : ∀ u, u ≠ t → (s'.thread u).place = (s.thread u).place) :
    ∑ t, (s'.thread t).place.left (runnable t).call <
      ∑ t, (s.thread t).place.left (runnable t).call := by
  refine Finset.sum_lt_sum (fun u _ => ?_) ⟨t, Finset.mem_univ t, hself⟩
  rcases eq_or_ne u t with rfl | hne
  · exact hself.le
  · rw [hothers u hne]

/-- **Every other move lowers the distance.** -/
lemma distance_lt {a : Act τ} (ha : a.IsOwn) (h : (machine runnable latch).step s a = some s') :
    distance runnable latch s' < distance runnable latch s := by
  cases step_cases h with
  | moves t place _ hm =>
      refine Nat.add_lt_add_right (sum_left_lt t ?_ fun u hu => ?_) _
      · rw [goTo_place, if_pos rfl]
        exact left_moves hm
      · rw [goTo_place, if_neg hu]
  | acquires t hplace hfree =>
      refine Nat.add_lt_add_right (sum_left_lt t ?_ fun u hu => ?_) _
      · rw [show _ = _ from goTo_place t t (.leaving true false), if_pos rfl, hplace]
        exact Nat.one_lt_two
      · exact (goTo_place t u _).trans (if_neg hu)
  | interruptsNext t u threads hplace =>
      refine Nat.add_lt_add_right (sum_left_lt t ?_ fun v hv => ?_) _
      · rw [interrupt_place, goTo_place, if_pos rfl, hplace]
        simp [Place.left]
      · rw [interrupt_place, goTo_place, if_neg hv]
  | releases t getLock caught hplace =>
      refine Nat.add_lt_add_right (sum_left_lt t ?_ fun u hu => ?_) _
      · rw [show _ = _ from goTo_place t t (.ended _), if_pos rfl, hplace]
        exact Nat.one_pos
      · exact (goTo_place t u _).trans (if_neg hu)
  | throws t _ hthrows =>
      refine Nat.add_lt_add_right (sum_left_lt t ?_ fun u hu => ?_) _
      · rw [catch_place, if_pos rfl]
        exact left_throws hthrows
      · rw [catch_place, if_neg hu]
  | interrupted t => exact absurd ha id
  | opens t hclosed =>
      refine Nat.add_lt_add_left (Finset.sum_lt_sum (fun u _ => ?_) ⟨t, Finset.mem_univ t, ?_⟩) _
      · by_cases hu : latch u = latch t
        · simp [hu]
        · simp [hu]
      · simp [hclosed]

/-- An interrupt lets it be. -/
lemma distance_interrupt (t : τ) :
    distance runnable latch (s.interrupt t) = distance runnable latch s := by
  have hplaces := fun u => interrupt_place (s := s) t u
  simp only [distance, hplaces]
  rfl

lemma distance_add_steps_le {a : Act τ} (h : (machine runnable latch).step s a = some s') :
    distance runnable latch s' + a.steps ≤ distance runnable latch s + 0 := by
  cases a with
  | interrupt t =>
      obtain rfl := Option.some.inj h
      exact (distance_interrupt t).le
  | go t => exact distance_lt (a := .go t) trivial h
  | throw t => exact distance_lt (a := .throw t) trivial h
  | timeOut t => exact distance_lt (a := .timeOut t) trivial h
  | countDown t => exact distance_lt (a := .countDown t) trivial h

end Finite

/-! ## Where nothing is possible -/

/-- A thread that can do nothing has ended, or waits for the lock, which is taken. -/
lemma place_of_quiet (hquiet : (machine runnable latch).Quiet Act.IsOwn s) (t : τ) :
    (∃ r, (s.thread t).place = .ended r) ∨
      (s.thread t).place = .waiting ∧ s.owner ≠ none ∧
        ((runnable t).call.isInterruptible = true → (s.thread t).interrupted = false) := by
  have hstep : go runnable latch s t = none := hquiet (.go t) trivial
  have hopen : s.opened (latch t) = true := by
    have hopens := hquiet (.countDown t) trivial
    simpa [machine, step] using hopens
  have hthrow : ¬((s.thread t).interrupted && (s.thread t).place.throws (runnable t).call) := by
    intro hthrows
    have hthrown := hquiet (.throw t) trivial
    simp only [machine, step, if_pos hthrows] at hthrown
    cases hthrown
  cases hplace : (s.thread t).place with
  | ended r => exact .inl ⟨r, rfl⟩
  | new => simp_all [go, Place.throws]
  | awaiting => simp [go, hplace, hopen] at hstep
  | calling =>
      rw [hplace, Bool.and_comm] at hthrow
      simp only [go, hplace] at hstep
      split at hstep
      · cases hstep
      · split_ifs at hstep with hinterrupted
        exact absurd hinterrupted hthrow
  | waiting =>
      refine .inr ⟨rfl, fun hfree => ?_, fun hcall => ?_⟩
      · simp [go, hplace, hfree] at hstep
      · simpa [hplace, Place.throws, hcall] using hthrow
  | interrupting threads => cases threads <;> simp [go, hplace] at hstep
  | leaving getLock caught =>
      simp only [go, hplace] at hstep
      split_ifs at hstep

end Code

end LockRunnable

end LearnJava
