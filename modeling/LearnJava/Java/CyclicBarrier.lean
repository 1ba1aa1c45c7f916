import LearnJava.Java.Lang

/-!
# `java.util.concurrent.CyclicBarrier`

A barrier for `parties` threads.  A generation ends when the last of them has arrived and the
barrier's action, which that thread runs while it holds the barrier's lock, is over; or the barrier
breaks, because a thread was interrupted in `await`.  The parts of `await` under the lock are
`arrive`, with which it begins, and `resume`, when a waiting thread has the lock again.
-/

namespace LearnJava

/-- What `await` throws. -/
inductive AwaitException
  | interruptedException
  | brokenBarrierException
  deriving DecidableEq, Repr

/-- The barrier.  `count` is the number of threads that are still to arrive. -/
structure CyclicBarrier where
  parties : ℕ
  count : ℕ
  generation : ℕ
  broken : Bool
  deriving DecidableEq, Repr

namespace CyclicBarrier

/-- `new CyclicBarrier(parties, barrierAction)` -/
def new (parties : ℕ) : CyclicBarrier := ⟨parties, parties, 0, false⟩

/-- The waiting threads are to throw, and those that come. -/
def breakBarrier (b : CyclicBarrier) : CyclicBarrier :=
  { b with broken := true, count := b.parties }

/-- The waiting threads are to return. -/
def nextGeneration (b : CyclicBarrier) : CyclicBarrier :=
  { b with generation := b.generation + 1, count := b.parties, broken := false }

/-- How the first part of `await` ends. -/
inductive Arrival
  | throws (e : AwaitException)
  /-- The thread is the last one: it runs the barrier's action. -/
  | last
  | waits (generation : ℕ)
  deriving DecidableEq, Repr

/-- The first part of `await`, in a thread with this interrupt status. -/
def arrive (b : CyclicBarrier) (interrupted : Bool) : Arrival × CyclicBarrier :=
  if b.broken then (.throws .brokenBarrierException, b)
  else if interrupted then (.throws .interruptedException, b.breakBarrier)
  else if b.count - 1 = 0 then (.last, { b with count := 0 })
  else (.waits b.generation, { b with count := b.count - 1 })

/-- How a thread goes on that waited in a generation: it waits again, or `await` is over. -/
inductive Resumption
  | waits
  | returns
  | throws (e : AwaitException)
  deriving DecidableEq, Repr

/-- The part of `await` after a wait. -/
def resume (b : CyclicBarrier) (generation : ℕ) (interrupted : Bool) : Resumption × CyclicBarrier :=
  if generation ≠ b.generation then (.returns, b)
  else if b.broken then (.throws .brokenBarrierException, b)
  else if interrupted then (.throws .interruptedException, b.breakBarrier)
  else (.waits, b)

variable {b b' : CyclicBarrier} {interrupted : Bool} {generation : ℕ} {e : AwaitException}

/-- A thread that throws when it arrives finds the barrier broken, or breaks it. -/
lemma arrive_throws (h : b.arrive interrupted = (.throws e, b')) :
    b.broken = true ∧ b' = b ∨ b.broken = false ∧ interrupted = true ∧ b' = b.breakBarrier := by
  unfold arrive at h
  split_ifs at h with hbroken hinterrupted <;> obtain ⟨hr, rfl⟩ := Prod.mk.inj h
  · exact .inl ⟨hbroken, rfl⟩
  · exact .inr ⟨eq_false_of_ne_true hbroken, hinterrupted, rfl⟩
  · cases hr
  · cases hr

lemma arrive_last (h : b.arrive interrupted = (.last, b')) :
    b.broken = false ∧ b.count - 1 = 0 ∧ b' = { b with count := 0 } := by
  unfold arrive at h
  split_ifs at h with hbroken _ hcount <;> obtain ⟨hr, rfl⟩ := Prod.mk.inj h
  · cases hr
  · cases hr
  · exact ⟨eq_false_of_ne_true hbroken, hcount, rfl⟩
  · cases hr

lemma arrive_waits (h : b.arrive interrupted = (.waits generation, b')) :
    b.broken = false ∧ b.count - 1 ≠ 0 ∧ generation = b.generation ∧
      b' = { b with count := b.count - 1 } := by
  unfold arrive at h
  split_ifs at h with hbroken _ hcount <;> obtain ⟨hr, rfl⟩ := Prod.mk.inj h
  · cases hr
  · cases hr
  · cases hr
  · exact ⟨eq_false_of_ne_true hbroken, hcount, (Arrival.waits.inj hr).symm, rfl⟩

/-- A thread returns from `await` when its generation is over. -/
lemma resume_returns (h : b.resume generation interrupted = (.returns, b')) :
    generation ≠ b.generation ∧ b' = b := by
  unfold resume at h
  split_ifs at h with hgeneration <;> obtain ⟨hr, rfl⟩ := Prod.mk.inj h
  · exact ⟨hgeneration, rfl⟩
  · cases hr
  · cases hr
  · cases hr

lemma resume_throws (h : b.resume generation interrupted = (.throws e, b')) :
    generation = b.generation ∧
      (b.broken = true ∧ b' = b ∨ b.broken = false ∧ interrupted = true ∧ b' = b.breakBarrier) := by
  unfold resume at h
  split_ifs at h with hgeneration hbroken hinterrupted <;> obtain ⟨hr, rfl⟩ := Prod.mk.inj h
  · cases hr
  · exact ⟨not_ne_iff.mp hgeneration, .inl ⟨hbroken, rfl⟩⟩
  · exact ⟨not_ne_iff.mp hgeneration, .inr ⟨eq_false_of_ne_true hbroken, hinterrupted, rfl⟩⟩
  · cases hr

/-- A thread waits on in the present generation, while it is not broken. -/
lemma resume_waits (h : b.resume generation interrupted = (.waits, b')) :
    generation = b.generation ∧ b.broken = false ∧ interrupted = false := by
  unfold resume at h
  split_ifs at h with hgeneration hbroken hinterrupted <;> obtain ⟨hr, -⟩ := Prod.mk.inj h
  · cases hr
  · cases hr
  · cases hr
  · exact ⟨not_ne_iff.mp hgeneration, eq_false_of_ne_true hbroken, eq_false_of_ne_true hinterrupted⟩

end CyclicBarrier

end LearnJava
