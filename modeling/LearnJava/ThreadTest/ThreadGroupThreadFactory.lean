import LearnJava.Foundation.Progress

/-!
# `ThreadGroupThreadFactory` and `ThreadGroupTest2`

`threadtest/factory/ThreadGroupThreadFactory.java` has two groups, of which the second is a subgroup
of the first, and puts its threads into them in turn.  `main` of `threadtest/ThreadGroupTest2.java`
starts some threads, waits on the first group and on the second, and destroys them, the second one
first.  In the source there are ten threads.

`activeCount` of a group counts the threads of its subgroups too.  But a thread that ends leaves
its own group only, and notifies those who wait on a group if it was the last one of that group.
Leaving a group needs its monitor, which `main` holds from its test to its `wait`.  A `wait` may
return without a notification, or because `main` is interrupted.
-/

namespace LearnJava

namespace ThreadGroupTest2

/-! ## The code -/

/-- `firstThreadGroup` and `secondThreadGroup`. -/
inductive Group
  | first
  | second
  deriving DecidableEq, Repr

instance : Fintype Group := ⟨{.first, .second}, fun g => by cases g <;> decide⟩

/-- `newThread(runnable)`: the group of the thread with a number. -/
def groupOf (threadId : ℕ) : Group := if threadId % 2 = 0 then .first else .second

/-- A thread of the factory. -/
inductive Worker
  | unstarted
  /-- In `countDownLatch.await()`. -/
  | awaiting
  /-- In `Thread.sleep`. -/
  | sleeping
  /-- `run` has returned, and the thread has not left its group. -/
  | returned
  | gone
  deriving DecidableEq, Repr

/-- The thread counts for `activeCount`. -/
def Worker.isActive : Worker → Bool
  | .awaiting | .sleeping | .returned => true
  | .unstarted | .gone => false

/-- The two private methods that take a group. -/
inductive Call
  | waitOnThreadGroup
  | destroyThreadGroup
  deriving DecidableEq, Repr

/-- Where `main` is. -/
inductive Place
  /-- In the loop that starts the threads. -/
  | creating (index : ℕ)
  /-- Before the start of `countDownThread`. -/
  | created
  /-- Before the `synchronized` block. -/
  | entering (call : Call) (g : Group)
  /-- In the block, at the test of `activeCount`. -/
  | testing (call : Call) (g : Group)
  /-- In the block, before `threadGroup.wait()`. -/
  | deciding (call : Call) (g : Group)
  /-- In `threadGroup.wait()`. -/
  | waiting (call : Call) (g : Group)
  | finished
  /-- The `IllegalThreadStateException` of `destroy` has ended `main`. -/
  | failed
  deriving DecidableEq, Repr

/-- The group whose monitor `main` holds. -/
def Place.holds : Place → Option Group
  | .testing _ g | .deciding _ g => some g
  | _ => none

/-- What comes after the block. -/
def Place.next : Call → Group → Place
  | .waitOnThreadGroup, .first => .entering .waitOnThreadGroup .second
  | .waitOnThreadGroup, .second => .entering .destroyThreadGroup .second
  | .destroyThreadGroup, .second => .entering .destroyThreadGroup .first
  | .destroyThreadGroup, .first => .finished

/-- What comes after `wait()`: only `destroyThreadGroup` tests again. -/
def Place.awake : Call → Group → Place
  | .waitOnThreadGroup, g => .next .waitOnThreadGroup g
  | .destroyThreadGroup, g => .testing .destroyThreadGroup g

/-- What comes after an `InterruptedException` of `wait()`. -/
def Place.interrupted : Call → Group → Place
  | .waitOnThreadGroup, _ => .entering .destroyThreadGroup .second
  | .destroyThreadGroup, g => .testing .destroyThreadGroup g

/-- `main`, whether `countDownThread` is started and has counted down, the threads of the factory,
and which groups are destroyed. -/
structure System (n : ℕ) where
  place : Place
  started : Bool
  countedDown : Bool
  worker : Fin n → Worker
  destroyed : Group → Bool

section Code

variable {n : ℕ} (threadId : ℕ)

/-- How many threads of a group are active, its subgroups apart. -/
def nthreads (s : System n) (g : Group) : ℕ :=
  (Finset.univ.filter fun c : Fin n =>
    groupOf (threadId + c) = g ∧ (s.worker c).isActive = true).card

/-- `threadGroup.activeCount()` -/
def activeCount (s : System n) : Group → ℕ
  | .second => if s.destroyed .second then 0 else nthreads threadId s .second
  | .first =>
    if s.destroyed .first then 0
    else nthreads threadId s .first +
      if s.destroyed .second then 0 else nthreads threadId s .second

/-- `threadGroup.destroy()`, and what comes after it. -/
def destroy (s : System n) (g : Group) : System n :=
  if s.destroyed g = true ∨ 0 < nthreads threadId s g then { s with place := .failed }
  else { s with
    destroyed := Function.update s.destroyed g true, place := .next .destroyThreadGroup g }

/-- The next step of `main`. -/
def stepMain (s : System n) : Option (System n) :=
  match s.place with
  | .creating index =>
    if h : index < n then
      some { s with
        worker := Function.update s.worker ⟨index, h⟩ .awaiting, place := .creating (index + 1) }
    else some { s with place := .created }
  | .created => some { s with started := true, place := .entering .waitOnThreadGroup .first }
  | .entering call g => some { s with place := .testing call g }
  | .testing call g =>
    if 0 < activeCount threadId s g then some { s with place := .deciding call g }
    else
      match call with
      | .waitOnThreadGroup => some { s with place := .next .waitOnThreadGroup g }
      | .destroyThreadGroup => some (destroy threadId s g)
  | .deciding call g => some { s with place := .waiting call g }
  | .waiting _ _ | .finished | .failed => none

/-- A thread of the factory goes on. -/
def work (s : System n) (c : Fin n) : Option (System n) :=
  match s.worker c with
  | .awaiting =>
    if s.countedDown then some { s with worker := Function.update s.worker c .sleeping } else none
  | .sleeping => some { s with worker := Function.update s.worker c .returned }
  | _ => none

/-- A thread leaves its group, and notifies if it was the last one. -/
def exit (s : System n) (c : Fin n) : Option (System n) :=
  let g := groupOf (threadId + c)
  if s.worker c = .returned ∧ s.place.holds ≠ some g then
    let s' : System n := { s with worker := Function.update s.worker c .gone }
    match s.place with
    | .waiting call g' =>
      some (if g' = g ∧ nthreads threadId s' g = 0 then { s' with place := .awake call g' } else s')
    | _ => some s'
  else none

/-- A move: a step of `main`, of `countDownThread` or of a thread of the factory, the end of one, or
a return of `wait` without a notification or by an interrupt. -/
inductive Act (n : ℕ)
  | main
  | countDown
  | work (c : Fin n)
  | exit (c : Fin n)
  | wake
  | interrupt
  deriving DecidableEq, Repr

/-- One move. -/
def step (s : System n) : Act n → Option (System n)
  | .main => stepMain threadId s
  | .countDown =>
    if s.started = true ∧ s.countedDown = false then some { s with countedDown := true } else none
  | .work c => work s c
  | .exit c => exit threadId s c
  | .wake =>
    match s.place with
    | .waiting call g => some { s with place := .awake call g }
    | _ => none
  | .interrupt =>
    match s.place with
    | .waiting call g => some { s with place := .interrupted call g }
    | _ => none

/-- `main` at its loop. -/
def System.initial (n : ℕ) : System n :=
  ⟨.creating 0, false, false, fun _ => .unstarted, fun _ => false⟩

/-- `main` with `n` threads, of which the first has the number `threadId`. -/
def machine (n : ℕ) : Machine (System n) (Act n) where
  init s := s = .initial n
  step := step threadId

/-- A move of the threads by themselves. -/
def Act.IsOwn : Act n → Prop
  | .wake | .interrupt => False
  | _ => True

/-! ## What one move does -/

/-- The next place of `main` where it does nothing else. -/
inductive Follows (s : System n) : Place → Place → Prop
  | allStarted {index : ℕ} (h : n ≤ index) : Follows s (.creating index) .created
  | enters (call : Call) (g : Group) : Follows s (.entering call g) (.testing call g)
  | decides (call : Call) (g : Group) (h : 0 < activeCount threadId s g) :
      Follows s (.testing call g) (.deciding call g)
  | passes (g : Group) (h : activeCount threadId s g = 0) :
      Follows s (.testing .waitOnThreadGroup g) (.next .waitOnThreadGroup g)
  | waits (call : Call) (g : Group) : Follows s (.deciding call g) (.waiting call g)

/-- The step of a thread that is not its last one. -/
inductive Works (s : System n) : Worker → Worker → Prop
  | awaited (h : s.countedDown = true) : Works s .awaiting .sleeping
  | slept : Works s .sleeping .returned

/-- The effect of a move. -/
inductive Effect (s : System n) : Act n → System n → Prop
  | starts {index : ℕ} (hplace : s.place = .creating index) (hlt : index < n) :
      Effect s .main { s with
        worker := Function.update s.worker ⟨index, hlt⟩ .awaiting, place := .creating (index + 1) }
  | startsCountDown (hplace : s.place = .created) :
      Effect s .main { s with started := true, place := .entering .waitOnThreadGroup .first }
  | follows {place : Place} (h : Follows threadId s s.place place) :
      Effect s .main { s with place }
  | destroys {g : Group} (hplace : s.place = .testing .destroyThreadGroup g)
      (hcount : activeCount threadId s g = 0) : Effect s .main (destroy threadId s g)
  | countsDown (hstarted : s.started = true) (hnot : s.countedDown = false) :
      Effect s .countDown { s with countedDown := true }
  | works {c : Fin n} {w : Worker} (h : Works s (s.worker c) w) :
      Effect s (.work c) { s with worker := Function.update s.worker c w }
  | leaves {c : Fin n} (hreturned : s.worker c = .returned)
      (hfree : s.place.holds ≠ some (groupOf (threadId + c)))
      (hnot : ∀ call, s.place = .waiting call (groupOf (threadId + c)) →
        nthreads threadId { s with worker := Function.update s.worker c .gone }
          (groupOf (threadId + c)) ≠ 0) :
      Effect s (.exit c) { s with worker := Function.update s.worker c .gone }
  | notifies {c : Fin n} {call : Call} (hreturned : s.worker c = .returned)
      (hplace : s.place = .waiting call (groupOf (threadId + c))) :
      Effect s (.exit c) { s with
        worker := Function.update s.worker c .gone
        place := .awake call (groupOf (threadId + c)) }
  | wakes {call : Call} {g : Group} (hplace : s.place = .waiting call g) :
      Effect s .wake { s with place := .awake call g }
  | interrupts {call : Call} {g : Group} (hplace : s.place = .waiting call g) :
      Effect s .interrupt { s with place := .interrupted call g }

variable {threadId : ℕ} {s s' : System n}

lemma stepMain_cases (h : stepMain threadId s = some s') : Effect threadId s .main s' := by
  have hfollows : ∀ {place}, Follows threadId s s.place place →
      Effect threadId s .main { s with place } := .follows
  cases hplace : s.place with
  | creating index =>
      simp only [stepMain, hplace] at h
      split_ifs at h with hlt <;> obtain rfl := Option.some.inj h
      · exact .starts hplace hlt
      · exact hfollows (hplace ▸ .allStarted (not_lt.mp hlt))
  | created =>
      simp only [stepMain, hplace] at h
      obtain rfl := Option.some.inj h
      exact .startsCountDown hplace
  | entering call g =>
      simp only [stepMain, hplace] at h
      obtain rfl := Option.some.inj h
      exact hfollows (hplace ▸ .enters call g)
  | testing call g =>
      simp only [stepMain, hplace] at h
      split_ifs at h with hcount
      · obtain rfl := Option.some.inj h
        exact hfollows (hplace ▸ .decides call g hcount)
      · have hzero : activeCount threadId s g = 0 := Nat.eq_zero_of_not_pos hcount
        cases call <;> obtain rfl := Option.some.inj h
        · exact hfollows (hplace ▸ .passes g hzero)
        · exact .destroys hplace hzero
  | deciding call g =>
      simp only [stepMain, hplace] at h
      obtain rfl := Option.some.inj h
      exact hfollows (hplace ▸ .waits call g)
  | waiting call g => simp [stepMain, hplace] at h
  | finished => simp [stepMain, hplace] at h
  | failed => simp [stepMain, hplace] at h

lemma exit_cases {c : Fin n} (h : exit threadId s c = some s') :
    Effect threadId s (.exit c) s' := by
  simp only [exit] at h
  split_ifs at h with hexit
  obtain ⟨hreturned, hfree⟩ := hexit
  split at h
  · rename_i call g hplace
    obtain rfl := Option.some.inj h
    split_ifs with hlast
    · obtain ⟨rfl, -⟩ := hlast
      exact .notifies hreturned hplace
    · refine .leaves hreturned hfree fun call' hplace' hzero => hlast ⟨?_, hzero⟩
      rw [hplace] at hplace'
      exact (Place.waiting.inj hplace').2
  · rename_i hnot
    obtain rfl := Option.some.inj h
    exact .leaves hreturned hfree fun call hplace => absurd hplace (hnot call _)

/-- Every move has one of the effects. -/
lemma step_cases {a : Act n} (h : (machine threadId n).step s a = some s') :
    Effect threadId s a s' := by
  cases a with
  | main => exact stepMain_cases h
  | countDown =>
      simp only [machine, step] at h
      split_ifs at h with hstarted
      obtain rfl := Option.some.inj h
      exact .countsDown hstarted.1 hstarted.2
  | work c =>
      simp only [machine, step, work] at h
      split at h
      · rename_i hworker
        split_ifs at h with hdown
        obtain rfl := Option.some.inj h
        exact .works (hworker ▸ .awaited hdown)
      · rename_i hworker
        obtain rfl := Option.some.inj h
        exact .works (hworker ▸ .slept)
      · cases h
  | exit c => exact exit_cases h
  | wake =>
      simp only [machine, step] at h
      split at h
      · rename_i call g hplace
        obtain rfl := Option.some.inj h
        exact .wakes hplace
      · cases h
  | interrupt =>
      simp only [machine, step] at h
      split at h
      · rename_i call g hplace
        obtain rfl := Option.some.inj h
        exact .interrupts hplace
      · cases h

end Code

end ThreadGroupTest2

end LearnJava
