import LearnJava.Foundation.Threads

/-!
# Read–write locks

A reentrant read–write lock counts its read holds and its write holds, and each thread knows how
many of both are its own.  A thread gets a read hold while no other thread has a write hold, and a
write hold while no thread has a hold at all or if it has a write hold already.  Giving up a hold
that a thread has not is refused.

When a thread may get a hold is said by the counts alone.  The queue of the waiting threads is left
out, in which a reader waits behind a writer, and so is the limit of 65535 holds, beyond which an
`Error` is thrown.  Below the limit a lock with a queue has fewer runs, so that what is shown for
all runs holds for it too; that a thread gets a hold at once is not shown of it.

`Balanced` is the invariant: the counts are the sums of the threads' holds, and a thread with a
write hold is alone.  It is kept by an action that leaves the lock alone or does one of the four
operations (`Balanced.after`).
-/

namespace LearnJava

/-- The counts of a lock. -/
@[ext]
structure ReadWriteLock where
  readCount : ℕ
  writeCount : ℕ
  deriving DecidableEq, Repr

namespace ReadWriteLock

/-- The holds of one thread. -/
@[ext]
structure Holds where
  read : ℕ
  write : ℕ
  deriving DecidableEq, Repr

/-- No hold at all. -/
def Holds.none : Holds := ⟨0, 0⟩

/-- The lock no thread holds. -/
def free : ReadWriteLock := ⟨0, 0⟩

/-- Get a read hold.  A waiting writer is not seen. -/
def readLock (k : ReadWriteLock) (h : Holds) : Option (ReadWriteLock × Holds) :=
  if k.writeCount = 0 ∨ 0 < h.write then
    some ({ k with readCount := k.readCount + 1 }, { h with read := h.read + 1 })
  else Option.none

/-- Get a write hold. -/
def writeLock (k : ReadWriteLock) (h : Holds) : Option (ReadWriteLock × Holds) :=
  if k = free ∨ 0 < h.write then
    some ({ k with writeCount := k.writeCount + 1 }, { h with write := h.write + 1 })
  else Option.none

/-- Give up a read hold. -/
def readUnlock (k : ReadWriteLock) (h : Holds) : Option (ReadWriteLock × Holds) :=
  if 0 < h.read then
    some ({ k with readCount := k.readCount - 1 }, { h with read := h.read - 1 })
  else Option.none

/-- Give up a write hold. -/
def writeUnlock (k : ReadWriteLock) (h : Holds) : Option (ReadWriteLock × Holds) :=
  if 0 < h.write then
    some ({ k with writeCount := k.writeCount - 1 }, { h with write := h.write - 1 })
  else Option.none

lemma writeUnlock_iff {k k' : ReadWriteLock} {h h' : Holds} :
    k.writeUnlock h = some (k', h') ↔ 0 < h.write ∧
      { k with writeCount := k.writeCount - 1 } = k' ∧ { h with write := h.write - 1 } = h' := by
  simp [writeUnlock]

lemma readUnlock_iff {k k' : ReadWriteLock} {h h' : Holds} :
    k.readUnlock h = some (k', h') ↔ 0 < h.read ∧
      { k with readCount := k.readCount - 1 } = k' ∧ { h with read := h.read - 1 } = h' := by
  simp [readUnlock]

lemma writeLock_iff {k k' : ReadWriteLock} {h h' : Holds} :
    k.writeLock h = some (k', h') ↔ (k = free ∨ 0 < h.write) ∧
      { k with writeCount := k.writeCount + 1 } = k' ∧ { h with write := h.write + 1 } = h' := by
  simp [writeLock]

lemma readLock_iff {k k' : ReadWriteLock} {h h' : Holds} :
    k.readLock h = some (k', h') ↔ (k.writeCount = 0 ∨ 0 < h.write) ∧
      { k with readCount := k.readCount + 1 } = k' ∧ { h with read := h.read + 1 } = h' := by
  simp [readLock]

/-- What an action may do to the lock: nothing, or one of the four operations. -/
inductive Action (k : ReadWriteLock) (h : Holds) : ReadWriteLock → Holds → Prop
  | none : Action k h k h
  | readLock {k' : ReadWriteLock} {h' : Holds} (hop : k.readLock h = some (k', h')) :
      Action k h k' h'
  | writeLock {k' : ReadWriteLock} {h' : Holds} (hop : k.writeLock h = some (k', h')) :
      Action k h k' h'
  | readUnlock {k' : ReadWriteLock} {h' : Holds} (hop : k.readUnlock h = some (k', h')) :
      Action k h k' h'
  | writeUnlock {k' : ReadWriteLock} {h' : Holds} (hop : k.writeUnlock h = some (k', h')) :
      Action k h k' h'

/-! ## The invariant -/

section Invariant

/-- What an action makes of the counts and of the holds of its thread. -/
lemma Action.counts {k k' : ReadWriteLock} {h h' : Holds} (hact : Action k h k' h')
    (hread : h.read ≤ k.readCount) (hwrite : h.write ≤ k.writeCount) :
    k'.readCount + h.read = k.readCount + h'.read ∧
      k'.writeCount + h.write = k.writeCount + h'.write := by
  cases hact with
  | none => exact ⟨rfl, rfl⟩
  | readLock hop =>
      obtain ⟨-, rfl, rfl⟩ := readLock_iff.mp hop
      exact ⟨Nat.add_right_comm _ _ _, rfl⟩
  | writeLock hop =>
      obtain ⟨-, rfl, rfl⟩ := writeLock_iff.mp hop
      exact ⟨rfl, Nat.add_right_comm _ _ _⟩
  | readUnlock hop =>
      obtain ⟨hpos, rfl, rfl⟩ := readUnlock_iff.mp hop
      exact ⟨by dsimp only; omega, rfl⟩
  | writeUnlock hop =>
      obtain ⟨hpos, rfl, rfl⟩ := writeUnlock_iff.mp hop
      exact ⟨rfl, by dsimp only; omega⟩

/-- A thread without holds cannot act on a lock that another thread has for writing. -/
lemma Action.excluded {k k' : ReadWriteLock} {h' : Holds} (hact : Action k .none k' h')
    (hwrite : 0 < k.writeCount) : h' = .none := by
  have hfree : k ≠ free := fun hk => by simp [hk, free] at hwrite
  cases hact with
  | none => rfl
  | readLock hop => simp [ReadWriteLock.readLock, Holds.none, hwrite.ne'] at hop
  | writeLock hop => simp [ReadWriteLock.writeLock, Holds.none, hfree] at hop
  | readUnlock hop => simp [ReadWriteLock.readUnlock, Holds.none] at hop
  | writeUnlock hop => simp [ReadWriteLock.writeUnlock, Holds.none] at hop

/-- A first write hold is given by a free lock only. -/
lemma Action.write_pos {k k' : ReadWriteLock} {h h' : Holds} (hact : Action k h k' h')
    (hpos : 0 < h'.write) : 0 < h.write ∨ k = free := by
  cases hact with
  | none => exact .inl hpos
  | readLock hop =>
      obtain ⟨-, -, rfl⟩ := readLock_iff.mp hop
      exact .inl hpos
  | writeLock hop => exact (writeLock_iff.mp hop).1.symm
  | readUnlock hop =>
      obtain ⟨-, -, rfl⟩ := readUnlock_iff.mp hop
      exact .inl hpos
  | writeUnlock hop => exact .inl (writeUnlock_iff.mp hop).1

variable {τ σ ℓ : Type} [Fintype τ] {lock : σ → ReadWriteLock} {holds : ℓ → Holds}

/-- The counts are those of the threads' holds, and a write hold excludes the other threads. -/
structure Balanced (lock : σ → ReadWriteLock) (holds : ℓ → Holds) (s : Threads.State τ σ ℓ) :
    Prop where
  readCount : (lock s.shared).readCount = s.total fun l => (holds l).read
  writeCount : (lock s.shared).writeCount = s.total fun l => (holds l).write
  exclusive : ∀ t u, t ≠ u → 0 < (holds (s.thread t)).write → holds (s.thread u) = Holds.none

namespace Balanced

variable {s : Threads.State τ σ ℓ}

lemma read_le (hs : Balanced lock holds s) (t : τ) :
    (holds (s.thread t)).read ≤ (lock s.shared).readCount :=
  hs.readCount ▸ s.le_total (fun l => (holds l).read) t

lemma write_le (hs : Balanced lock holds s) (t : τ) :
    (holds (s.thread t)).write ≤ (lock s.shared).writeCount :=
  hs.writeCount ▸ s.le_total (fun l => (holds l).write) t

/-- No thread holds a free lock. -/
lemma holds_of_free (hs : Balanced lock holds s) (hfree : lock s.shared = free) (t : τ) :
    holds (s.thread t) = Holds.none := by
  have hread : (holds (s.thread t)).read = 0 := by simpa [hfree, free] using hs.read_le t
  have hwrite : (holds (s.thread t)).write = 0 := by simpa [hfree, free] using hs.write_le t
  exact Holds.ext hread hwrite

/-- A lock no thread holds is free. -/
lemma free_of_holds (hs : Balanced lock holds s) (h : ∀ t, holds (s.thread t) = Holds.none) :
    lock s.shared = free := by
  have hread : (lock s.shared).readCount = 0 := by
    rw [hs.readCount]
    exact Threads.State.total_eq_zero fun t => by rw [h t]; rfl
  have hwrite : (lock s.shared).writeCount = 0 := by
    rw [hs.writeCount]
    exact Threads.State.total_eq_zero fun t => by rw [h t]; rfl
  exact ReadWriteLock.ext hread hwrite

lemma init (hfree : lock s.shared = free) (h : ∀ t, holds (s.thread t) = Holds.none) :
    Balanced lock holds s := by
  refine ⟨?_, ?_, fun t u _ _ => h u⟩
  · rw [hfree]
    exact (Threads.State.total_eq_zero fun t => by rw [h t]; rfl).symm
  · rw [hfree]
    exact (Threads.State.total_eq_zero fun t => by rw [h t]; rfl).symm

variable [DecidableEq τ]

/-- **Lock rule.** -/
lemma after (hs : Balanced lock holds s) {t : τ} {r : σ × ℓ}
    (h : Action (lock s.shared) (holds (s.thread t)) (lock r.1) (holds r.2)) :
    Balanced lock holds (s.after t r) := by
  obtain ⟨hread, hwrite⟩ := h.counts (hs.read_le t) (hs.write_le t)
  refine ⟨?_, ?_, fun u v huv hpos => ?_⟩
  · have htotal := s.total_after (fun l => (holds l).read) t r
    have hcount := hs.readCount
    rw [Threads.State.after_shared]
    omega
  · have htotal := s.total_after (fun l => (holds l).write) t r
    have hcount := hs.writeCount
    rw [Threads.State.after_shared]
    omega
  · by_cases hu : u = t
    · -- the acting thread has the write hold
      subst hu
      rw [Threads.State.after_thread_self] at hpos
      rw [s.after_thread_of_ne (Ne.symm huv)]
      rcases h.write_pos hpos with hbefore | hfree
      · exact hs.exclusive u v huv hbefore
      · exact hs.holds_of_free hfree v
    · rw [s.after_thread_of_ne hu] at hpos
      by_cases hv : v = t
      · subst hv
        rw [hs.exclusive u v huv hpos] at h
        rw [Threads.State.after_thread_self]
        exact h.excluded (hpos.trans_le (hs.write_le u))
      · rw [s.after_thread_of_ne hv]
        exact hs.exclusive u v huv hpos

end Balanced

end Invariant

end ReadWriteLock

end LearnJava
