import Mathlib.Tactic

/-!
# A pool with a fixed number of threads

`Executors.newFixedThreadPool(n, threadFactory)`: `submit` starts a new worker with the task as long
as there are fewer than `n` workers, and appends the task to an unbounded queue from then on.  A
worker that is through with a task takes the first one of the queue.  It survives an exception of
its task, which `submit` keeps in the `Future` that it returns.

Which of the workers runs which task makes no difference; the pool counts them.
-/

namespace LearnJava

/-- The number of the workers, the tasks they run, and the queue. -/
structure FixedThreadPool (κ : Type*) where
  workers : ℕ
  running : List κ
  queue : List κ
  deriving DecidableEq, Repr

namespace FixedThreadPool

variable {κ : Type*}

/-- The pool before its first task. -/
def new : FixedThreadPool κ := ⟨0, [], []⟩

/-- `submit(task)` -/
def submit (n : ℕ) (pool : FixedThreadPool κ) (task : κ) : FixedThreadPool κ :=
  if pool.workers < n then ⟨pool.workers + 1, pool.running ++ [task], pool.queue⟩
  else { pool with queue := pool.queue ++ [task] }

/-- A worker that has nothing to do takes a task, if there is one. -/
def take (pool : FixedThreadPool κ) : Option (κ × FixedThreadPool κ) :=
  if pool.running.length < pool.workers then
    match pool.queue with
    | [] => none
    | task :: queue => some (task, { pool with running := pool.running ++ [task], queue })
  else none

/-- The worker of a task is through with it. -/
def finish [DecidableEq κ] (pool : FixedThreadPool κ) (task : κ) : FixedThreadPool κ :=
  { pool with running := pool.running.erase task }

/-- What holds of every pool of `n` threads. -/
structure Valid (n : ℕ) (pool : FixedThreadPool κ) : Prop where
  running_le : pool.running.length ≤ pool.workers
  workers_le : pool.workers ≤ n
  /-- A task waits only where all workers have been started. -/
  workers_eq : pool.queue ≠ [] → pool.workers = n

lemma valid_new (n : ℕ) : (new : FixedThreadPool κ).Valid n :=
  ⟨le_rfl, Nat.zero_le n, fun h => absurd rfl h⟩

variable {n : ℕ} {pool : FixedThreadPool κ}

/-- **At most `n` tasks are run at a time.** -/
lemma Valid.length_running_le (h : pool.Valid n) : pool.running.length ≤ n :=
  h.running_le.trans h.workers_le

/-! ## Submissions -/

lemma Valid.submit (h : pool.Valid n) (task : κ) : (pool.submit n task).Valid n := by
  have hrunning := h.running_le
  rw [FixedThreadPool.submit]
  split_ifs with hworkers
  · refine ⟨?_, hworkers, fun hqueue => ?_⟩
    · simpa using hrunning
    · have heq := h.workers_eq hqueue
      omega
  · exact ⟨hrunning, h.workers_le, fun _ => le_antisymm h.workers_le (not_lt.mp hworkers)⟩

lemma queue_submit (task : κ) :
    (pool.submit n task).queue = pool.queue ++ if pool.workers < n then [] else [task] := by
  rw [FixedThreadPool.submit]
  split_ifs <;> simp

/-! ## Workers -/

lemma take_eq_some {task : κ} {pool' : FixedThreadPool κ} :
    pool.take = some (task, pool') ↔ pool.running.length < pool.workers ∧ ∃ queue,
      pool.queue = task :: queue ∧
        pool' = { pool with running := pool.running ++ [task], queue } := by
  rw [take]
  split_ifs with hidle
  · cases hqueue : pool.queue with
    | nil => simp
    | cons first rest =>
        constructor
        · intro h
          obtain ⟨rfl, rfl⟩ := Prod.mk.inj (Option.some.inj h)
          exact ⟨hidle, rest, rfl, rfl⟩
        · rintro ⟨-, queue, heq, rfl⟩
          obtain ⟨rfl, rfl⟩ := List.cons.inj heq
          rfl
  · simp [hidle]

lemma Valid.take {task : κ} {pool' : FixedThreadPool κ} (h : pool.Valid n)
    (htake : pool.take = some (task, pool')) : pool'.Valid n := by
  obtain ⟨hidle, queue, hqueue, rfl⟩ := take_eq_some.mp htake
  refine ⟨?_, h.workers_le, fun _ => h.workers_eq (by simp [hqueue])⟩
  simpa using hidle

/-- Where no worker takes a task, all are at work, or no task waits. -/
lemma Valid.of_take_eq_none (h : pool.Valid n) (hn : 0 < n) (htake : pool.take = none)
    (hrunning : pool.running = []) : pool.queue = [] := by
  by_contra hqueue
  obtain ⟨task, queue, heq⟩ := List.exists_cons_of_ne_nil hqueue
  have hworkers := h.workers_eq hqueue
  simp [FixedThreadPool.take, hrunning, heq, hworkers, hn] at htake

variable [DecidableEq κ]

lemma Valid.finish (h : pool.Valid n) (task : κ) : (pool.finish task).Valid n :=
  ⟨List.length_erase_le.trans h.running_le, h.workers_le, h.workers_eq⟩

end FixedThreadPool

end LearnJava
