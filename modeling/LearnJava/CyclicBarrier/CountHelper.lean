import LearnJava.Foundation.Progress
import LearnJava.Java.CyclicBarrier

/-!
# Two counting threads and a barrier

`cyclicbarrier/app/CountHelper.java` and `cyclicbarrier/thread/CountRunnable.java`.  `count` starts
two threads that add up five ints each and meet at a barrier; the barrier's action, `MergeRunnable`,
adds up their sums in the thread that comes last, and lets `count` return the result.

All three threads may be interrupted at any moment.
-/

namespace LearnJava

namespace CountHelper

/-- Where a `CountRunnable` is: at the statement that is named. -/
inductive Phase
  /-- `i < 5`, in the loop of `run` -/
  | counting (i : ℕ)
  /-- `cyclicBarrier.await()` -/
  | arriving
  | waiting (generation : ℕ)
  /-- The loop of `MergeRunnable.run`, before `countRunnables[i]`. -/
  | merging (i : ℕ) (localSum : ℤ)
  /-- `this.sum = localSum` -/
  | publishing (localSum : ℤ)
  /-- `this.countDownLatch.countDown()` -/
  | opening
  /-- The barrier's action is over. -/
  | tripping
  /-- `run` is over, with what `await` threw. -/
  | ended (e : Option AwaitException)
  deriving DecidableEq, Repr

/-- Where `count` is. -/
inductive MainPhase
  /-- `countDownLatch.await()` -/
  | awaiting
  /-- `mergeRunnable.sum` -/
  | reading
  | returned (sum : ℤ)
  /-- It was interrupted. -/
  | thrown
  deriving DecidableEq, Repr

/-- A thread of a `CountRunnable`, with the object's field `sum`. -/
structure Counter where
  phase : Phase
  sum : ℤ
  interrupted : Bool
  deriving DecidableEq, Repr

/-- The objects that `count` creates, and the threads. -/
structure State where
  cyclicBarrier : CyclicBarrier
  /-- Whether a thread that runs the barrier's action has the barrier's lock. -/
  locked : Bool
  /-- `MergeRunnable.sum` -/
  sum : ℤ
  countDownLatch : ℕ
  counter : Duo → Counter
  main : MainPhase
  mainInterrupted : Bool

/-- `countRunnables` -/
def countRunnables : List Duo := [.first, .second]

namespace State

variable (s : State)

/-- The thread `t` is in `phase` now. -/
def goTo (t : Duo) (phase : Phase) : State :=
  { s with counter := Function.update s.counter t { s.counter t with phase } }

/-- `await` throws in the thread `t`. -/
def throwIn (t : Duo) (e : AwaitException) (b : CyclicBarrier) : State :=
  { s with
    cyclicBarrier := b
    counter := Function.update s.counter t
      { s.counter t with phase := .ended (some e), interrupted := false } }

/-- The next step of a `CountRunnable` that was made with `start`; none while it waits. -/
def advance (start : Duo → ℤ) (t : Duo) : Option State :=
  match (s.counter t).phase with
  | .counting i =>
    if i < 5 then
      some { s with counter := Function.update s.counter t { s.counter t with
        phase := .counting (i + 1)
        sum := wrap32 ((s.counter t).sum + wrap32 (start t + i)) } }
    else some (s.goTo t .arriving)
  | .arriving =>
    if s.locked then none
    else
      match s.cyclicBarrier.arrive (s.counter t).interrupted with
      | (.throws e, b) => some (s.throwIn t e b)
      | (.last, b) =>
        some { s.goTo t (.merging 0 s.sum) with cyclicBarrier := b, locked := true }
      | (.waits generation, b) =>
        some { s.goTo t (.waiting generation) with cyclicBarrier := b }
  | .waiting generation =>
    if s.locked then none
    else
      match s.cyclicBarrier.resume generation (s.counter t).interrupted with
      | (.waits, _) => none
      | (.returns, _) => some (s.goTo t (.ended none))
      | (.throws e, b) => some (s.throwIn t e b)
  | .merging i localSum =>
    match countRunnables[i]? with
    | some u => some (s.goTo t (.merging (i + 1) (wrap32 (localSum + (s.counter u).sum))))
    | none => some (s.goTo t (.publishing localSum))
  | .publishing localSum => some { s.goTo t .opening with sum := localSum }
  | .opening => some { s.goTo t .tripping with countDownLatch := s.countDownLatch - 1 }
  | .tripping =>
    some { s.goTo t (.ended none) with
      cyclicBarrier := s.cyclicBarrier.nextGeneration, locked := false }
  | .ended _ => none

/-- The next step of `count`. -/
def advanceMain : Option State :=
  match s.main with
  | .awaiting => if s.countDownLatch = 0 then some { s with main := .reading } else none
  | .reading => some { s with main := .returned s.sum }
  | .returned _ | .thrown => none

end State

/-- An action: the next step of a `CountRunnable`, an interrupt of its thread, the next step of
`count`, an interrupt of the thread that called it, or the exception with which it ends. -/
inductive Act
  | go (t : Duo)
  | interrupt (t : Duo)
  | main
  | interruptMain
  | throwMain
  deriving DecidableEq

/-- The actions of the program itself. -/
def Act.IsOwn : Act → Prop
  | .go _ | .main | .throwMain => True
  | .interrupt _ | .interruptMain => False

/-- One action.  A thread that is over, or interrupted already, is not interrupted. -/
def step (start : Duo → ℤ) (s : State) : Act → Option State
  | .go t => s.advance start t
  | .interrupt t =>
    match (s.counter t).phase with
    | .ended _ => none
    | _ =>
      if (s.counter t).interrupted then none
      else some { s with
        counter := Function.update s.counter t { s.counter t with interrupted := true } }
  | .main => s.advanceMain
  | .interruptMain =>
    if s.main = .awaiting ∧ s.mainInterrupted = false then some { s with mainInterrupted := true }
    else none
  | .throwMain =>
    if s.main = .awaiting ∧ s.mainInterrupted then some { s with main := .thrown } else none

/-- The state after `count` has started its threads. -/
def initial : State where
  cyclicBarrier := .new 2
  locked := false
  sum := 0
  countDownLatch := 1
  counter _ := ⟨.counting 0, 0, false⟩
  main := .awaiting
  mainInterrupted := false

/-- What `new CountHelper(startA, startB)` gives its runnables. -/
def starts (startA startB : ℤ) : Duo → ℤ
  | .first => startA
  | .second => startB

/-- Any interleaving of `new CountHelper(startA, startB).count()` with its threads. -/
def machine (startA startB : ℤ) : Machine State Act where
  init s := s = initial
  step := step (starts startA startB)

/-! ## What one action does -/

/-- The effect of a step of the `CountRunnable` in the thread `t`, with the place it is taken
from. -/
inductive Effect (start : Duo → ℤ) (s : State) (t : Duo) : State → Prop
  | counted {i : ℕ} (hphase : (s.counter t).phase = .counting i) (hi : i < 5) :
      Effect start s t { s with counter := Function.update s.counter t { s.counter t with
        phase := .counting (i + 1)
        sum := wrap32 ((s.counter t).sum + wrap32 (start t + i)) } }
  | arrived {i : ℕ} (hphase : (s.counter t).phase = .counting i) (hi : ¬i < 5) :
      Effect start s t (s.goTo t .arriving)
  | failed {e : AwaitException} {b : CyclicBarrier} (hphase : (s.counter t).phase = .arriving)
      (hlocked : s.locked = false)
      (h : s.cyclicBarrier.arrive (s.counter t).interrupted = (.throws e, b)) :
      Effect start s t (s.throwIn t e b)
  | isLast {b : CyclicBarrier} (hphase : (s.counter t).phase = .arriving)
      (hlocked : s.locked = false)
      (h : s.cyclicBarrier.arrive (s.counter t).interrupted = (.last, b)) :
      Effect start s t { s.goTo t (.merging 0 s.sum) with cyclicBarrier := b, locked := true }
  | waits {generation : ℕ} {b : CyclicBarrier} (hphase : (s.counter t).phase = .arriving)
      (hlocked : s.locked = false)
      (h : s.cyclicBarrier.arrive (s.counter t).interrupted = (.waits generation, b)) :
      Effect start s t { s.goTo t (.waiting generation) with cyclicBarrier := b }
  | released {generation : ℕ} {b : CyclicBarrier}
      (hphase : (s.counter t).phase = .waiting generation) (hlocked : s.locked = false)
      (h : s.cyclicBarrier.resume generation (s.counter t).interrupted = (.returns, b)) :
      Effect start s t (s.goTo t (.ended none))
  | gaveUp {generation : ℕ} {e : AwaitException} {b : CyclicBarrier}
      (hphase : (s.counter t).phase = .waiting generation) (hlocked : s.locked = false)
      (h : s.cyclicBarrier.resume generation (s.counter t).interrupted = (.throws e, b)) :
      Effect start s t (s.throwIn t e b)
  | merged {i : ℕ} {localSum : ℤ} {u : Duo} (hphase : (s.counter t).phase = .merging i localSum)
      (hu : countRunnables[i]? = some u) :
      Effect start s t (s.goTo t (.merging (i + 1) (wrap32 (localSum + (s.counter u).sum))))
  | mergedAll {i : ℕ} {localSum : ℤ} (hphase : (s.counter t).phase = .merging i localSum)
      (hi : countRunnables[i]? = none) : Effect start s t (s.goTo t (.publishing localSum))
  | published {localSum : ℤ} (hphase : (s.counter t).phase = .publishing localSum) :
      Effect start s t { s.goTo t .opening with sum := localSum }
  | opened (hphase : (s.counter t).phase = .opening) :
      Effect start s t { s.goTo t .tripping with countDownLatch := s.countDownLatch - 1 }
  | tripped (hphase : (s.counter t).phase = .tripping) :
      Effect start s t { s.goTo t (.ended none) with
        cyclicBarrier := s.cyclicBarrier.nextGeneration, locked := false }

lemma advance_cases {start : Duo → ℤ} {s s' : State} {t : Duo}
    (h : s.advance start t = some s') : Effect start s t s' := by
  unfold State.advance at h
  split at h
  · rename_i i hphase
    split_ifs at h with hi <;> obtain rfl := Option.some.inj h
    · exact .counted hphase hi
    · exact .arrived hphase hi
  · rename_i hphase
    split_ifs at h with hlocked
    have hfree := eq_false_of_ne_true hlocked
    split at h <;> rename_i hb <;> obtain rfl := Option.some.inj h
    · exact .failed hphase hfree hb
    · exact .isLast hphase hfree hb
    · exact .waits hphase hfree hb
  · rename_i generation hphase
    split_ifs at h with hlocked
    have hfree := eq_false_of_ne_true hlocked
    split at h
    · cases h
    · rename_i hb
      obtain rfl := Option.some.inj h
      exact .released hphase hfree hb
    · rename_i hb
      obtain rfl := Option.some.inj h
      exact .gaveUp hphase hfree hb
  · rename_i i localSum hphase
    split at h <;> rename_i hi <;> obtain rfl := Option.some.inj h
    · exact .merged hphase hi
    · exact .mergedAll hphase hi
  · rename_i localSum hphase
    obtain rfl := Option.some.inj h
    exact .published hphase
  · rename_i hphase
    obtain rfl := Option.some.inj h
    exact .opened hphase
  · rename_i hphase
    obtain rfl := Option.some.inj h
    exact .tripped hphase
  · cases h

/-- A thread that cannot go on is over, or it waits. -/
lemma advance_none {start : Duo → ℤ} {s : State} {t : Duo} (h : s.advance start t = none) :
    (∃ e, (s.counter t).phase = .ended e) ∨
      s.locked = true ∧ ((s.counter t).phase = .arriving ∨ ∃ g, (s.counter t).phase = .waiting g) ∨
      ∃ g b, (s.counter t).phase = .waiting g ∧
        s.cyclicBarrier.resume g (s.counter t).interrupted = (.waits, b) := by
  unfold State.advance at h
  split at h
  · split_ifs at h
  · rename_i hphase
    split_ifs at h with hlocked
    · exact .inr (.inl ⟨hlocked, .inl hphase⟩)
    · split at h <;> cases h
  · rename_i generation hphase
    split_ifs at h with hlocked
    · exact .inr (.inl ⟨hlocked, .inr ⟨generation, hphase⟩⟩)
    · split at h
      · rename_i b hb
        exact .inr (.inr ⟨generation, b, hphase, hb⟩)
      · cases h
      · cases h
  · split at h <;> cases h
  · cases h
  · cases h
  · cases h
  · rename_i e hphase
    exact .inl ⟨e, hphase⟩

/-- The effect of a step of `count`. -/
inductive MainEffect (s : State) : State → Prop
  | passed (hmain : s.main = .awaiting) (hopen : s.countDownLatch = 0) :
      MainEffect s { s with main := .reading }
  | read (hmain : s.main = .reading) : MainEffect s { s with main := .returned s.sum }

lemma advanceMain_cases {s s' : State} (h : s.advanceMain = some s') : MainEffect s s' := by
  unfold State.advanceMain at h
  split at h
  · rename_i hmain
    split_ifs at h with hopen
    obtain rfl := Option.some.inj h
    exact .passed hmain hopen
  · rename_i hmain
    obtain rfl := Option.some.inj h
    exact .read hmain
  · cases h
  · cases h

/-- What an action does: a step of one of the threads, or an interrupt, or the exception of
`count`. -/
lemma step_cases {start : Duo → ℤ} {s s' : State} {a : Act} (h : step start s a = some s') :
    (∃ t, a = .go t ∧ Effect start s t s') ∨
      (∃ t, a = .interrupt t ∧ (s.counter t).interrupted = false ∧
        (∀ e, (s.counter t).phase ≠ .ended e) ∧
        s' = { s with
          counter := Function.update s.counter t { s.counter t with interrupted := true } }) ∨
      (a = .main ∧ MainEffect s s') ∨
      (a = .interruptMain ∧ s.main = .awaiting ∧ s.mainInterrupted = false ∧
        s' = { s with mainInterrupted := true }) ∨
      (a = .throwMain ∧ s.main = .awaiting ∧ s.mainInterrupted = true ∧
        s' = { s with main := .thrown }) := by
  cases a with
  | go t => exact .inl ⟨t, rfl, advance_cases h⟩
  | interrupt t =>
      simp only [step] at h
      split at h
      · cases h
      · rename_i hphase
        split_ifs at h with hinterrupted
        exact .inr (.inl ⟨t, rfl, eq_false_of_ne_true hinterrupted, fun e => hphase e,
          (Option.some.inj h).symm⟩)
  | main => exact .inr (.inr (.inl ⟨rfl, advanceMain_cases h⟩))
  | interruptMain =>
      simp only [step] at h
      split_ifs at h with hmain
      exact .inr (.inr (.inr (.inl ⟨rfl, hmain.1, hmain.2, (Option.some.inj h).symm⟩)))
  | throwMain =>
      simp only [step] at h
      split_ifs at h with hmain
      exact .inr (.inr (.inr (.inr ⟨rfl, hmain.1, hmain.2, (Option.some.inj h).symm⟩)))

end CountHelper

end LearnJava
