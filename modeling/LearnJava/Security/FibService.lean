import LearnJava.Security.Server
import Mathlib.Data.Nat.Fib.Basic

/-!
# `FibService`

`security/app/FibService.java` has the recursion of the Fibonacci numbers twice: in `fib(argInt)`,
and in the action that `fib(argInt, argCtx)` runs with the privileges of a context.  The action's
sum calls `fib(argInt)` again, so that the two are the same function.

A negative argument is refused, any other is admitted.  The sums are those of `int`, which
`Nat.fib 46` still is and `Nat.fib 47` is not: every value is the Fibonacci number up to a multiple
of `2 ^ 32`, and from 47 on it is another number.
-/

namespace LearnJava

namespace Server

variable {κ : Type}

/-! ## The privileged path -/

/-- `AccessController.doPrivileged(action, context)`: the action's result. -/
def doPrivileged (action : Except Throwable ℤ) (_ : κ) : Except Throwable ℤ := action

/-- `run()` of the action. -/
def fibAction (argInt : ℤ) : Except Throwable ℤ := do
  if argInt < 0 then
    throw .illegalArgumentException
  if argInt ≤ 1 then
    return argInt
  let x ← fib (argInt - 1)
  let y ← fib (argInt - 2)
  return wrap32 (x + y)

/-- `fib(argInt, argCtx)` -/
def fibWithContext (argInt : ℤ) (argCtx : κ) : Except Throwable ℤ :=
  doPrivileged (fibAction argInt) argCtx

lemma fib_natCast (n : ℕ) : fib n = .ok (fibOf n) := by
  rw [fib, if_neg (Int.natCast_nonneg n).not_gt, Int.toNat_natCast]

lemma fibAction_natCast (n : ℕ) : fibAction n = .ok (fibOf n) := by
  match n with
  | 0 => rfl
  | 1 => rfl
  | n + 2 =>
      have hnonneg : ¬((n + 2 : ℕ) : ℤ) < 0 := by omega
      have hlarge : ¬((n + 2 : ℕ) : ℤ) ≤ 1 := by omega
      have hfirst : ((n + 2 : ℕ) : ℤ) - 1 = (n + 1 : ℕ) := by omega
      have hsecond : ((n + 2 : ℕ) : ℤ) - 2 = (n : ℕ) := by omega
      rw [fibAction, if_neg hnonneg, if_neg hlarge, hfirst, hsecond, fib_natCast, fib_natCast]
      rfl

/-- The two paths agree, on the arguments they refuse too. -/
lemma fibWithContext_eq (argInt : ℤ) (argCtx : κ) : fibWithContext argInt argCtx = fib argInt := by
  rw [fibWithContext, doPrivileged]
  rcases lt_or_ge argInt 0 with hneg | hnonneg
  · rw [fib, if_pos hneg, fibAction, if_pos hneg]
    rfl
  · lift argInt to ℕ using hnonneg
    rw [fibAction_natCast, fib_natCast]

/-! ## The values -/

/-- No sum in the recursion of `fib(n)` overflows. -/
def NoOverflow : ℕ → Prop
  | 0 => True
  | 1 => True
  | n + 2 => IsInt (fibOf (n + 1) + fibOf n) ∧ NoOverflow (n + 1) ∧ NoOverflow n

/-- Both paths compute the Fibonacci number of `n`, and no sum overflows on the way. -/
structure ComputesFibonacci (n : ℕ) (argCtx : κ) : Prop where
  agree : fibWithContext n argCtx = fib n
  value : fib n = .ok (Nat.fib n)
  no_overflow : NoOverflow n
  nonneg : ∀ result, fib n = .ok result → 0 ≤ result

/-- A value is the Fibonacci number, wrapped once. -/
lemma fibOf_eq (n : ℕ) : fibOf n = wrap32 (Nat.fib n) := by
  induction n using Nat.twoStepInduction with
  | zero =>
      rw [Nat.fib_zero]
      rfl
  | one =>
      rw [Nat.fib_one]
      rfl
  | more n ih ih' =>
      rw [fibOf, ih, ih', Nat.fib_add_two, wrap32_wrap32_add, wrap32_add_wrap32, Nat.cast_add,
        add_comm]

lemma fib_le_of_le {n : ℕ} (h : n ≤ 46) : Nat.fib n < 2 ^ 31 := by
  calc Nat.fib n ≤ Nat.fib 46 := Nat.fib_mono h
    _ < 2 ^ 31 := by norm_num

lemma le_fib_of_lt {n : ℕ} (h : 46 < n) : 2 ^ 31 ≤ Nat.fib n := by
  calc 2 ^ 31 ≤ Nat.fib 47 := by norm_num
    _ ≤ Nat.fib n := Nat.fib_mono h

lemma fibOf_of_le {n : ℕ} (h : n ≤ 46) : fibOf n = Nat.fib n := by
  have hlt := fib_le_of_le h
  rw [fibOf_eq, wrap32_of_range (by omega) (by omega)]

lemma noOverflow_of_le {n : ℕ} (h : n ≤ 46) : NoOverflow n := by
  induction n using Nat.twoStepInduction with
  | zero => trivial
  | one => trivial
  | more n ih ih' =>
      refine ⟨?_, ih' (by omega), ih (by omega)⟩
      have hlt := fib_le_of_le h
      rw [Nat.fib_add_two] at hlt
      rw [fibOf_of_le (by omega), fibOf_of_le (by omega)]
      constructor <;> omega

/-- **Fibonacci numbers.**  The service computes the Fibonacci number of an argument, and without
overflow, exactly up to 46. -/
theorem computesFibonacci_iff (n : ℕ) (argCtx : κ) : ComputesFibonacci n argCtx ↔ n ≤ 46 := by
  constructor
  · intro h
    by_contra hlarge
    have hvalue := h.value
    rw [fib_natCast, fibOf_eq, Except.ok.injEq] at hvalue
    have hint := isInt_wrap32 (Nat.fib n)
    rw [hvalue] at hint
    have hle := le_fib_of_lt (not_le.mp hlarge)
    have hlt := hint.2
    omega
  · intro h
    have hvalue : fib n = .ok (Nat.fib n) := by rw [fib_natCast, fibOf_of_le h]
    refine ⟨fibWithContext_eq _ argCtx, hvalue, noOverflow_of_le h, ?_⟩
    intro result hresult
    rw [hvalue, Except.ok.injEq] at hresult
    omega

/-- The first argument for which the sum overflows gets a negative number, by both paths. -/
theorem fib_of_forty_seven :
    fib 47 = .ok (-1323752223) ∧ fibWithContext 47 () = .ok (-1323752223) ∧
      Nat.fib 47 = 2971215073 ∧ ¬NoOverflow 47 ∧ ¬ComputesFibonacci 47 () := by
  have hfib : Nat.fib 47 = 2971215073 := by norm_num
  have hvalue : fib 47 = .ok (-1323752223) := by
    have hcast := fib_natCast 47
    rw [fibOf_eq, hfib] at hcast
    exact hcast
  have hsum : fibOf (45 + 1) + fibOf 45 = 2971215073 := by
    rw [fibOf_of_le (by norm_num), fibOf_of_le (by norm_num)]
    norm_num
  have hoverflow : ¬NoOverflow 47 := by
    intro h
    have hint : IsInt (fibOf (45 + 1) + fibOf 45) := h.1
    rw [hsum] at hint
    exact absurd hint (by decide)
  refine ⟨hvalue, ?_, hfib, hoverflow, fun h => hoverflow h.no_overflow⟩
  rw [fibWithContext_eq, hvalue]

end Server

end LearnJava
