import LearnJava.Java.Lang

/-!
# Locks on regions of a file

`tryLock` of a `FileChannel` does not wait.  Whether the region is free is left open: a lock that
another program holds gives `null`, one that this virtual machine holds an exception.  The
exceptions of `java.nio.channels` are subclasses of `IllegalStateException` and told apart by their
names.  A region need not lie within the file.
-/

namespace LearnJava

/-- A lock that has been granted. -/
structure FileLock where
  position : ℕ
  size : ℕ
  shared : Bool
  deriving DecidableEq

/-- Who else holds a lock on the region: nobody, another program or this one. -/
inductive Contention
  | free
  | elsewhere
  | overlapping
  deriving DecidableEq

namespace FileLock

/-- `Long.MAX_VALUE`, which is the size of a lock on the whole file. -/
def wholeFile : ℕ := 2 ^ 63 - 1

/-- `fileChannel.tryLock(position, size, shared)`, for a channel that can be read. -/
def tryLock (writable : Bool) (contention : Contention) (position size : ℕ) (shared : Bool) :
    Except Throwable (Option FileLock) :=
  if !shared && !writable then .error (.illegalStateException "NonWritableChannelException")
  else if 2 ^ 63 ≤ position + size then .error .illegalArgumentException
  else
    match contention with
    | .free => .ok (some ⟨position, size, shared⟩)
    | .elsewhere => .ok none
    | .overlapping => .error (.illegalStateException "OverlappingFileLockException")

/-- A lock that is granted is the one that was asked for. -/
lemma eq_of_tryLock {writable : Bool} {contention : Contention} {position size : ℕ} {shared : Bool}
    {fileLock : FileLock}
    (h : tryLock writable contention position size shared = .ok (some fileLock)) :
    fileLock = ⟨position, size, shared⟩ := by
  unfold tryLock at h
  split_ifs at h
  cases contention with
  | free => exact (Option.some.inj (Except.ok.inj h)).symm
  | elsewhere => cases h
  | overlapping => cases h

end FileLock

end LearnJava
