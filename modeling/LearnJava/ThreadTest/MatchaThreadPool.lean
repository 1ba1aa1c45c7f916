import LearnJava.Foundation.Threads
import LearnJava.Java.Lang

/-!
# `MatchaThreadPool`

The pool of `threadtest/pool/MatchaThreadPool.java`: five workers take jobs out of a
`LinkedBlockingQueue` for five jobs and run them.  `submit` adds a `Job`, that of a `Callable` with
a `FutureTask` around it, and fails where the queue is full.

The loop of a worker is inside its `try`.  `take` throws in a thread whose interrupt flag is set,
and what a `Runnable` throws goes through the loop as well; either ends the worker, and nothing
starts another one.  What a `Callable` throws is kept by its `FutureTask`.  So the five workers stay
exactly as long as no `Runnable` throws and no worker comes back to `take` with its flag set
(`workers_stay_iff`).

A job is known by the number of jobs created before it.  `accepted` and `taken` record for the
statements which jobs `submit` added and which worker took which one.
-/

namespace LearnJava

namespace MatchaThreadPool

/-! ## Jobs -/

/-- What is submitted. -/
inductive Task
  | runnable
  | callable
  deriving DecidableEq, Repr

structure Job where
  number : ℕ
  task : Task
  deriving DecidableEq, Repr

/-- How a task ends: what it throws, and the interrupt flag that it leaves. -/
structure Outcome where
  thrown : Option Throwable
  interrupted : Bool
  deriving DecidableEq, Repr

/-- What `runnable.run()` throws: `FutureTask.run` catches everything. -/
def Task.throws (outcome : Outcome) : Task → Option Throwable
  | runnable => outcome.thrown
  | callable => none

/-! ## The pool -/

/-- A worker is known by its place in `threads`. -/
abbrev Worker : Type := Fin 5

/-- `new LinkedBlockingQueue<>(5)` -/
def capacity : ℕ := 5

/-- The queue, the number of the created jobs and the two records. -/
structure Shared where
  jobQueue : List Job
  created : ℕ
  accepted : List Job
  taken : List (Job × Worker)
  deriving DecidableEq, Repr

/-- `submit`: the pool afterwards and what it throws. -/
def submit (task : Task) (x : Shared) : Shared × Option Throwable :=
  let job : Job := ⟨x.created, task⟩
  let x := { x with created := x.created + 1 }
  if x.jobQueue.length < capacity then
    ({ x with jobQueue := x.jobQueue ++ [job], accepted := x.accepted ++ [job] }, none)
  else (x, some (.illegalStateException "Queue full"))

/-- Where a worker is. -/
inductive Place
  /-- `jobQueue.take()`, with the interrupt flag of the thread. -/
  | taking (interrupted : Bool)
  /-- `runnable.run()` -/
  | running (job : Job)
  /-- The end of `run`, with what it threw. -/
  | ended (thrown : Option Throwable)
  deriving DecidableEq, Repr

/-- An action of a worker. -/
inductive Act
  | take
  | finish (outcome : Outcome)
  deriving DecidableEq, Repr

/-- The loop is left; `catch (InterruptedException e)` is around it. -/
def leaveLoop (e : Throwable) : Place :=
  .ended (if e = .interruptedException then none else some e)

/-- One action of a worker. -/
def act (worker : Worker) (x : Shared) (place : Place) : Act → Option (Shared × Place)
  | .take =>
    match place with
    | .taking true => some (x, leaveLoop .interruptedException)
    | .taking false =>
      match x.jobQueue with
      | [] => none
      | job :: rest =>
        some ({ x with jobQueue := rest, taken := x.taken ++ [(job, worker)] }, .running job)
    | _ => none
  | .finish outcome =>
    match place with
    | .running job =>
      match job.task.throws outcome with
      | none => some (x, .taking outcome.interrupted)
      | some e => some (x, leaveLoop e)
    | _ => none

/-- The pool and its workers. -/
abbrev PoolState : Type := Threads.State Worker Shared Place

/-- Who takes a step. -/
inductive Label
  | submit (task : Task)
  | worker (worker : Worker) (a : Act)
  deriving DecidableEq, Repr

/-- A call of `submit` or a step of a worker. -/
abbrev PoolMove : Type := Move PoolState Label

/-- A new pool: all workers are at their first `take`. -/
def initial : PoolState := ⟨⟨[], 0, [], []⟩, fun _ => .taking false⟩

/-- Any interleaving of the workers and of any calls of `submit`. -/
def machine : Machine PoolState Label where
  init s := s = initial
  step s
    | .submit task => some { s with shared := (submit task s.shared).1 }
    | .worker worker a => (act worker s.shared (s.thread worker) a).map (s.after worker)

/-- The worker is in its loop. -/
def Place.InLoop (place : Place) : Prop := ∀ thrown, place ≠ .ended thrown

/-- What keeps a worker in its loop: `take` finds its interrupt flag clear, and the job throws
nothing. -/
def Place.Keeps : Place → Act → Prop
  | taking interrupted, .take => interrupted = false
  | running job, .finish outcome => job.task.throws outcome = none
  | _, _ => True

/-- The step ends no worker. -/
def KeepsWorker (m : PoolMove) : Prop :=
  ∀ worker a, m.label = .worker worker a → (m.pre.thread worker).Keeps a

/-- No worker has a job or can take one. -/
def Resting (s : PoolState) : Prop := ∀ worker a, machine.step s (.worker worker a) = none

/-- The job was taken once, by this worker. -/
def TakenBy (x : Shared) (job : Job) (worker : Worker) : Prop :=
  x.taken.filter (fun take => take.1 = job) = [(job, worker)]

/-- The steps of a worker that a move is, and those that it allows. -/
def Label.steps : Label → ℕ
  | submit _ => 0
  | worker _ _ => 1

def Label.allowed : Label → ℕ
  | submit _ => 3
  | worker _ _ => 0

/-! ## What a step does -/

/-- The effect of one action of a worker, with the place it is taken from. -/
inductive Effect (worker : Worker) (x : Shared) : Place → Act → Shared → Place → Prop
  | interrupted : Effect worker x (.taking true) .take x (leaveLoop .interruptedException)
  | taken {job : Job} {rest : List Job} (hqueue : x.jobQueue = job :: rest) :
      Effect worker x (.taking false) .take
        { x with jobQueue := rest, taken := x.taken ++ [(job, worker)] } (.running job)
  | finished {job : Job} {outcome : Outcome} (hthrows : job.task.throws outcome = none) :
      Effect worker x (.running job) (.finish outcome) x (.taking outcome.interrupted)
  | failed {job : Job} {outcome : Outcome} {e : Throwable}
      (hthrows : job.task.throws outcome = some e) :
      Effect worker x (.running job) (.finish outcome) x (leaveLoop e)

section Inversion

variable {worker : Worker} {x x' : Shared} {place place' : Place}

/-- Every action of a worker has one of the effects. -/
lemma act_cases {a : Act} (h : act worker x place a = some (x', place')) :
    Effect worker x place a x' place' := by
  cases a with
  | take =>
      simp only [act] at h
      split at h
      · obtain ⟨rfl, rfl⟩ := Prod.mk.inj (Option.some.inj h)
        exact .interrupted
      · split at h
        · cases h
        · rename_i hqueue
          obtain ⟨rfl, rfl⟩ := Prod.mk.inj (Option.some.inj h)
          exact .taken hqueue
      · cases h
  | finish outcome =>
      simp only [act] at h
      split at h
      · split at h
        · rename_i hthrows
          obtain ⟨rfl, rfl⟩ := Prod.mk.inj (Option.some.inj h)
          exact .finished hthrows
        · rename_i hthrows
          obtain ⟨rfl, rfl⟩ := Prod.mk.inj (Option.some.inj h)
          exact .failed hthrows
      · cases h

/-- What a move of the machine does. -/
lemma step_cases {s s' : PoolState} {l : Label} (h : machine.step s l = some s') :
    (∃ task, l = .submit task ∧ s' = { s with shared := (submit task s.shared).1 }) ∨
      ∃ worker a x place, l = .worker worker a ∧
        Effect worker s.shared (s.thread worker) a x place ∧ s' = s.after worker (x, place) := by
  cases l with
  | submit task => exact .inl ⟨task, rfl, (Option.some.inj h).symm⟩
  | worker worker a =>
      obtain ⟨⟨x, place⟩, hact, rfl⟩ := Option.map_eq_some_iff.mp h
      exact .inr ⟨worker, a, x, place, rfl, act_cases hact, rfl⟩

end Inversion

/-! ## Every accepted job is taken once -/

section Jobs

variable {x x' : Shared} {place place' : Place} {worker : Worker} {a : Act} {task : Task}
  {job : Job}

/-- The jobs that were accepted are those that were taken and those in the queue, each of them
once. -/
structure Accounted (x : Shared) : Prop where
  inOrder : x.taken.map Prod.fst ++ x.jobQueue = x.accepted
  nodup : x.accepted.Nodup
  created : ∀ job ∈ x.accepted, job.number < x.created

lemma Accounted.submit (hx : Accounted x) : Accounted (submit task x).1 := by
  simp only [MatchaThreadPool.submit]
  split
  · refine ⟨?_, ?_, fun job hjob => ?_⟩
    · simp [← hx.inOrder]
    · -- the new job has a greater number than all others
      refine List.nodup_append.mpr ⟨hx.nodup, List.nodup_singleton _, ?_⟩
      rintro job hjob other hother rfl
      obtain rfl := List.mem_singleton.mp hother
      exact lt_irrefl _ (hx.created _ hjob)
    · rcases List.mem_append.mp hjob with hold | hnew
      · exact (hx.created job hold).trans (Nat.lt_succ_self _)
      · obtain rfl := List.mem_singleton.mp hnew
        exact Nat.lt_succ_self _
  · exact ⟨hx.inOrder, hx.nodup, fun job hjob => (hx.created job hjob).trans (Nat.lt_succ_self _)⟩

lemma Accounted.effect (hx : Accounted x) (h : Effect worker x place a x' place') :
    Accounted x' := by
  cases h with
  | interrupted => exact hx
  | @taken job rest hqueue =>
      refine ⟨?_, hx.nodup, hx.created⟩
      rw [← hx.inOrder, hqueue]
      simp
  | finished => exact hx
  | failed => exact hx

lemma Accounted.step {s s' : PoolState} {l : Label} (hs : Accounted s.shared)
    (h : machine.step s l = some s') : Accounted s'.shared := by
  obtain ⟨task, -, rfl⟩ | ⟨worker, a, x, place, -, heffect, rfl⟩ := step_cases h
  · exact hs.submit
  · exact hs.effect heffect

lemma accounted_initial : Accounted initial.shared :=
  ⟨rfl, List.nodup_nil, fun _ hjob => absurd hjob List.not_mem_nil⟩

/-- A job that was taken was taken once. -/
lemma filter_take_eq {takes : List (Job × Worker)} (hnodup : (takes.map Prod.fst).Nodup)
    (htake : (job, worker) ∈ takes) :
    takes.filter (fun take => take.1 = job) = [(job, worker)] := by
  induction takes with
  | nil => cases htake
  | cons take takes ih =>
      obtain ⟨hnew, hrest⟩ := List.nodup_cons.mp hnodup
      rcases List.mem_cons.mp htake with rfl | hmem
      · have hnone : takes.filter (fun take => take.1 = job) = [] := by
          refine List.filter_eq_nil_iff.mpr fun other hother hjob => hnew ?_
          exact List.mem_map.mpr ⟨other, hother, of_decide_eq_true hjob⟩
        simp [hnone]
      · have hne : take.1 ≠ job := fun heq => hnew (List.mem_map.mpr ⟨_, hmem, heq.symm⟩)
        rw [List.filter_cons_of_neg (by simpa using hne), ih hrest hmem]

/-- **Accepted jobs.**  One that is not in the queue was taken once. -/
lemma Accounted.queue_or_takenBy (hx : Accounted x) (hjob : job ∈ x.accepted) :
    (job ∈ x.jobQueue ∧ ∀ worker, (job, worker) ∉ x.taken) ∨
      job ∉ x.jobQueue ∧ ∃ worker, TakenBy x job worker := by
  have hnodup := hx.nodup
  rw [← hx.inOrder] at hjob hnodup
  obtain ⟨htakes, -, hdisjoint⟩ := List.nodup_append.mp hnodup
  rcases List.mem_append.mp hjob with htaken | hqueue
  · right
    obtain ⟨⟨_, worker⟩, htake, rfl⟩ := List.mem_map.mp htaken
    exact ⟨fun hqueue => hdisjoint _ htaken _ hqueue rfl, worker, filter_take_eq htakes htake⟩
  · left
    refine ⟨hqueue, fun worker htake => ?_⟩
    exact hdisjoint _ (List.mem_map_of_mem (f := Prod.fst) htake) _ hqueue rfl

end Jobs

/-! ## The workers -/

section Workers

/-- What the workers can still do with a job in the queue, and from each place. -/
def Place.left : Place → ℕ
  | taking true => 1
  | taking false => 0
  | running _ => 2
  | ended _ => 0

def PoolState.left (s : PoolState) : ℕ := 3 * s.shared.jobQueue.length + s.total Place.left

lemma Effect.left_lt {worker : Worker} {x x' : Shared} {place place' : Place} {a : Act}
    (h : Effect worker x place a x' place') :
    3 * x'.jobQueue.length + place'.left < 3 * x.jobQueue.length + place.left := by
  cases h with
  | interrupted => simp [leaveLoop, Place.left]
  | taken hqueue =>
      simp only [hqueue, Place.left, List.length_cons]
      omega
  | @finished job outcome => cases outcome.interrupted <;> simp [Place.left]
  | failed => simp [leaveLoop, Place.left]

/-- Each step of a worker uses up one of the steps that the submissions allowed. -/
lemma left_step {s s' : PoolState} {l : Label} (h : machine.step s l = some s') :
    PoolState.left s' + l.steps ≤ PoolState.left s + l.allowed := by
  obtain ⟨task, rfl, rfl⟩ | ⟨worker, a, x, place, rfl, heffect, rfl⟩ := step_cases h
  · have hlength : (submit task s.shared).1.jobQueue.length ≤ s.shared.jobQueue.length + 1 := by
      simp only [submit]
      split
      · simp
      · simp
    simp only [PoolState.left, Threads.State.total, Label.steps, Label.allowed]
    omega
  · have htotal : (s.after worker (x, place)).total Place.left + (s.thread worker).left =
        s.total Place.left + place.left := s.total_after _ _ _
    have hlt := heffect.left_lt
    simp only [PoolState.left, Label.steps, Label.allowed, Threads.State.after_shared]
    omega

lemma steps_le_allowed {ms : List PoolMove} {s : PoolState} (h : machine.Run ms s) :
    (ms.map fun m => m.label.steps).sum ≤ (ms.map fun m => m.label.allowed).sum := by
  have hinit : ∀ s, machine.init s → PoolState.left s ≤ 0 := by
    rintro s rfl
    decide
  have hspent := h.spent_le hinit fun _ _ _ => left_step
  rw [Nat.zero_add] at hspent
  exact (Nat.le_add_right _ _).trans hspent

lemma Effect.inLoop_iff {worker : Worker} {x x' : Shared} {place place' : Place} {a : Act}
    (h : Effect worker x place a x' place') : place'.InLoop ↔ place.Keeps a := by
  cases h with
  | interrupted => exact iff_of_false (fun hloop => hloop none rfl) Bool.noConfusion
  | taken => exact iff_of_true (fun _ hended => by cases hended) rfl
  | finished hthrows => exact iff_of_true (fun _ hended => by cases hended) hthrows
  | failed hthrows =>
      refine iff_of_false (fun hloop => hloop _ rfl) fun hnone => ?_
      exact Option.some_ne_none _ (hthrows.symm.trans hnone)

/-- One step keeps the workers in their loops exactly if it ends none of them. -/
lemma inLoop_step {s s' : PoolState} {l : Label} (hs : ∀ worker, (s.thread worker).InLoop)
    (h : machine.step s l = some s') :
    (∀ worker, (s'.thread worker).InLoop) ↔ KeepsWorker ⟨s, l, s'⟩ := by
  obtain ⟨task, rfl, rfl⟩ | ⟨worker, a, x, place, rfl, heffect, rfl⟩ := step_cases h
  · exact iff_of_true hs fun _ _ hlabel => by cases hlabel
  · constructor
    · rintro hloop _ _ ⟨⟩
      have hself := hloop worker
      rw [Threads.State.after_thread_self] at hself
      exact heffect.inLoop_iff.mp hself
    · intro hkeeps
      have hself : place.InLoop := heffect.inLoop_iff.mpr (hkeeps worker a rfl)
      exact Threads.State.forall_after (J := fun _ => Place.InLoop) hself fun u _ => hs u

/-- Workers that are in their loops and cannot go on have emptied the queue. -/
lemma queue_of_resting {s : PoolState} (hs : ∀ worker, (s.thread worker).InLoop)
    (hrest : Resting s) : s.shared.jobQueue = [] := by
  have htake : act 0 s.shared (s.thread 0) .take = none := Option.map_eq_none_iff.mp (hrest 0 .take)
  have hfinish : act 0 s.shared (s.thread 0) (.finish ⟨none, false⟩) = none :=
    Option.map_eq_none_iff.mp (hrest 0 _)
  cases hplace : s.thread 0 with
  | taking interrupted =>
      rw [hplace] at htake
      cases interrupted with
      | true => cases htake
      | false =>
          cases hqueue : s.shared.jobQueue with
          | nil => rfl
          | cons job rest => simp [act, hqueue] at htake
  | running job =>
      -- a job can end, at least in the way of this outcome
      rw [hplace] at hfinish
      cases htask : job.task <;> simp [act, Task.throws, htask] at hfinish
  | ended thrown => exact absurd hplace (hs 0 thrown)

/-- Workers that have ended never take a step again. -/
lemma resting_of_ended {s : PoolState} (hs : ∀ worker, ∃ thrown, s.thread worker = .ended thrown) :
    Resting s := by
  intro worker a
  obtain ⟨thrown, hended⟩ := hs worker
  apply Option.map_eq_none_iff.mpr
  rw [hended]
  cases a with
  | take => rfl
  | finish outcome => rfl

lemma inLoop_initial (worker : Worker) : (initial.thread worker).InLoop :=
  fun _ hended => by cases hended

/-- **The pool.**  In every run, with any submissions, any outcomes of the tasks and any
interleaving of the workers: an accepted job is in the queue or was taken once, by one worker; the
workers take at most three steps for each submission; and all five of them stay in their loops
exactly if no step ends one, in which case they have taken every accepted job when they cannot go
on. -/
theorem workers_stay_iff {ms : List PoolMove} {s : PoolState} (h : machine.Run ms s) :
    (∀ job ∈ s.shared.accepted,
        (job ∈ s.shared.jobQueue ∧ ∀ worker, (job, worker) ∉ s.shared.taken) ∨
          job ∉ s.shared.jobQueue ∧ ∃ worker, TakenBy s.shared job worker) ∧
      (ms.map fun m => m.label.steps).sum ≤ (ms.map fun m => m.label.allowed).sum ∧
      ((∀ m ∈ ms, ∀ worker, (m.post.thread worker).InLoop) ↔ ∀ m ∈ ms, KeepsWorker m) ∧
      ((∀ m ∈ ms, KeepsWorker m) → Resting s →
        ∀ job ∈ s.shared.accepted, ∃ worker, TakenBy s.shared job worker) := by
  have haccounted : Accounted s.shared := by
    apply h.invariant (I := fun s => Accounted s.shared)
    · rintro s rfl
      exact accounted_initial
    · exact fun _ _ _ hs hstep => hs.step hstep
  have hstart : ∀ s, machine.init s → ∀ worker, (s.thread worker).InLoop := by
    rintro s rfl
    exact inLoop_initial
  refine ⟨fun job => haccounted.queue_or_takenBy, steps_le_allowed h, ?_,
    fun hkeeps hrest job hjob => ?_⟩
  · apply h.moves_iff hstart
    · exact fun _ _ _ hs hstep hkeeps => (inLoop_step hs hstep).mpr hkeeps
    · exact fun _ _ _ hs hstep => inLoop_step hs hstep
  · have hloop := h.invariant_of_moves hstart
      (fun _ _ _ hs hstep hkeeps => (inLoop_step hs hstep).mpr hkeeps) hkeeps
    have hqueue := queue_of_resting hloop hrest
    obtain ⟨hwaiting, -⟩ | ⟨-, htaken⟩ := haccounted.queue_or_takenBy hjob
    · rw [hqueue] at hwaiting
      cases hwaiting
    · exact htaken

/-- A `Runnable` that throws is submitted, taken by the worker and run. -/
def failingTask (worker : Worker) : List Label :=
  [.submit .runnable, .worker worker .take,
    .worker worker (.finish ⟨some .nullPointerException, false⟩)]

/-- Five of these, and one more job. -/
def failingTasks : List Label :=
  failingTask 0 ++ failingTask 1 ++ failingTask 2 ++ failingTask 3 ++ failingTask 4 ++
    [.submit .callable]

/-- The moves that `failingTasks` gives. -/
def failingMoves : List PoolMove := machine.moves initial failingTasks

theorem workers_stay_iff_failingMoves :
    ∃ s, machine.Run failingMoves s ∧
      (∀ job ∈ s.shared.accepted,
        (job ∈ s.shared.jobQueue ∧ ∀ worker, (job, worker) ∉ s.shared.taken) ∨
          job ∉ s.shared.jobQueue ∧ ∃ worker, TakenBy s.shared job worker) ∧
      (failingMoves.map fun m => m.label.steps).sum ≤
        (failingMoves.map fun m => m.label.allowed).sum ∧
      ((∀ m ∈ failingMoves, ∀ worker, (m.post.thread worker).InLoop) ↔
        ∀ m ∈ failingMoves, KeepsWorker m) ∧
      ((∀ m ∈ failingMoves, KeepsWorker m) → Resting s →
        ∀ job ∈ s.shared.accepted, ∃ worker, TakenBy s.shared job worker) := by
  have hrun : machine.Run failingMoves _ := Machine.run_of_play rfl rfl
  exact ⟨_, hrun, workers_stay_iff hrun⟩

/-- The pool after these moves. -/
def exhausted : PoolState := (machine.play initial failingTasks).getD initial

/-- No worker is left for the last job. -/
theorem accepted_job_without_worker :
    machine.Run failingMoves exhausted ∧ exhausted.shared.jobQueue = [⟨5, .callable⟩] ∧
      (∀ worker, exhausted.thread worker = .ended (some .nullPointerException)) ∧
      Resting exhausted := by
  have hended : ∀ worker, exhausted.thread worker = .ended (some .nullPointerException) := by
    decide
  have hrest : Resting exhausted := resting_of_ended fun worker => ⟨_, hended worker⟩
  exact ⟨Machine.run_of_play rfl rfl, rfl, hended, hrest⟩

end Workers

end MatchaThreadPool

end LearnJava
