import LearnJava.Foundation.Threads
import LearnJava.Java.Lang

/-!
# Customers that are stopped by an interrupt

`threadtest/TestProviderAndCustomer.java`: each `Customer` takes the ints of a queue of its own and
adds them up, until it has been interrupted and finds its queue empty; `main` offers the ints, then
interrupts the customers, and adds up what their `call` returns.

`main` waits with `countDownLatch` until each customer has begun before it interrupts any.  The
customers do not rely on it: here an interrupt may reach a customer anywhere in `call`, and only the
offers come before the first interrupt.
-/

namespace LearnJava

namespace Customer

/-- What the customers share. -/
structure Shared where
  countDownLatch : ℕ
  /-- Whether `main` has come to its interrupts. -/
  interrupting : Bool
  deriving DecidableEq, Repr

/-- Where `call` is: at the statement that is named. -/
inductive Place
  /-- `countDownLatch.countDown()` -/
  | countingDown
  /-- `if(finish && this.queue.isEmpty()) break` -/
  | testing
  /-- `mission = queue.take()` -/
  | taking
  /-- `result = result + mission` -/
  | adding (mission : ℤ)
  /-- `call` has returned `result`. -/
  | returned
  deriving DecidableEq, Repr

/-- A customer with its queue and the interrupt status of its thread.  `added` records what was
added to `result`. -/
structure Local where
  queue : List ℤ
  place : Place
  finish : Bool
  result : ℤ
  interrupted : Bool
  added : List ℤ
  deriving DecidableEq, Repr

/-- `new Customer(queue, countDownLatch)` with an empty queue, when `call` begins. -/
def Local.new : Local := ⟨[], .countingDown, false, 0, false, []⟩

/-- The next step of `call`; none while `take` waits. -/
def advance (x : Shared) (l : Local) : Option (Shared × Local) :=
  match l.place with
  | .countingDown =>
    some ({ x with countDownLatch := x.countDownLatch - 1 }, { l with place := .testing })
  | .testing =>
    some (x, { l with place := if l.finish && l.queue.isEmpty then .returned else .taking })
  | .taking =>
    match l.queue with
    | [] => none
    | mission :: queue => some (x, { l with queue, place := .adding mission })
  | .adding mission => some (x, { l with
      place := .testing
      result := wrap32 (l.result + mission)
      added := l.added ++ [mission] })
  | .returned => none

/-- An action: the next step of the customer's code, an `InterruptedException` of `take`, an offer
of `main` that the customer's queue accepts, or an interrupt of its thread. -/
inductive Act
  | go
  | throw
  | offer (mission : ℤ)
  | interrupt
  deriving DecidableEq, Repr

/-- One action.  `take` may still find an element when the interrupt comes late; if it throws, it
clears the interrupt status.  A `LinkedBlockingQueue` without a given capacity takes
`Integer.MAX_VALUE` elements. -/
def act (x : Shared) (l : Local) : Act → Option (Shared × Local)
  | .go => advance x l
  | .throw =>
    if l.place = .taking ∧ l.interrupted then
      some (x, { l with place := .testing, finish := true, interrupted := false })
    else none
  | .offer mission =>
    if x.interrupting = false ∧ l.queue.length < 2 ^ 31 - 1 then
      some (x, { l with queue := l.queue ++ [mission] })
    else none
  | .interrupt => some ({ x with interrupting := true }, { l with interrupted := true })

/-- Any number of customers with `new CountDownLatch(count)`. -/
def program (count : ℕ) : Threads.Program Shared Local Act where
  initShared x := x = ⟨count, false⟩
  initThread l := l = .new
  act := act

/-- The latch and the customers. -/
abbrev CustomerState (τ : Type) := Threads.State τ Shared Local

/-- A step of a customer, or of `main` with a customer. -/
abbrev CustomerMove (τ : Type) := Move (CustomerState τ) (τ × Act)

/-- Any interleaving. -/
def machine (τ : Type) [DecidableEq τ] (count : ℕ) : Machine (CustomerState τ) (τ × Act) :=
  (program count).machine τ

/-- The loop of `main` over the values of the futures. -/
def total (futures : List ℤ) : ℤ :=
  futures.foldl (fun result subResult => wrap32 (result + subResult)) 0

/-! ## What one action does -/

/-- The effect of one action on a customer, with the place it is taken from. -/
inductive Effect (x : Shared) (l : Local) : Act → Shared → Local → Prop
  | countedDown (hplace : l.place = .countingDown) :
      Effect x l .go { x with countDownLatch := x.countDownLatch - 1 } { l with place := .testing }
  | ended (hplace : l.place = .testing) (hfinish : l.finish = true) (hqueue : l.queue = []) :
      Effect x l .go x { l with place := .returned }
  | goesOn (hplace : l.place = .testing) (h : l.finish = true → l.queue ≠ []) :
      Effect x l .go x { l with place := .taking }
  | took {mission : ℤ} {queue : List ℤ} (hplace : l.place = .taking)
      (hqueue : l.queue = mission :: queue) :
      Effect x l .go x { l with queue, place := .adding mission }
  | addedUp {mission : ℤ} (hplace : l.place = .adding mission) :
      Effect x l .go x { l with
        place := .testing
        result := wrap32 (l.result + mission)
        added := l.added ++ [mission] }
  | thrown (hplace : l.place = .taking) (h : l.interrupted = true) :
      Effect x l .throw x { l with place := .testing, finish := true, interrupted := false }
  | offered {mission : ℤ} (h : x.interrupting = false) :
      Effect x l (.offer mission) x { l with queue := l.queue ++ [mission] }
  | interrupted :
      Effect x l .interrupt { x with interrupting := true } { l with interrupted := true }

section Inversion

variable {x x' : Shared} {l l' : Local}

lemma advance_cases (h : advance x l = some (x', l')) : Effect x l .go x' l' := by
  cases hplace : l.place with
  | countingDown =>
      simp only [advance, hplace] at h
      obtain ⟨rfl, rfl⟩ := Prod.mk.inj (Option.some.inj h)
      exact .countedDown hplace
  | testing =>
      simp only [advance, hplace] at h
      obtain ⟨rfl, rfl⟩ := Prod.mk.inj (Option.some.inj h)
      by_cases hends : l.finish = true ∧ l.queue = []
      · rw [if_pos (by simpa using hends)]
        exact .ended hplace hends.1 hends.2
      · rw [if_neg (by simpa using hends)]
        exact .goesOn hplace fun hfinish hqueue => hends ⟨hfinish, hqueue⟩
  | taking =>
      cases hqueue : l.queue with
      | nil => simp [advance, hplace, hqueue] at h
      | cons mission queue =>
          simp only [advance, hplace, hqueue] at h
          obtain ⟨rfl, rfl⟩ := Prod.mk.inj (Option.some.inj h)
          exact .took hplace hqueue
  | adding mission =>
      simp only [advance, hplace] at h
      obtain ⟨rfl, rfl⟩ := Prod.mk.inj (Option.some.inj h)
      exact .addedUp hplace
  | returned => simp [advance, hplace] at h

/-- Every action has one of the effects. -/
lemma act_cases {a : Act} (h : act x l a = some (x', l')) : Effect x l a x' l' := by
  cases a with
  | go => exact advance_cases h
  | throw =>
      simp only [act] at h
      split_ifs at h with hthrows
      obtain ⟨rfl, rfl⟩ := Prod.mk.inj (Option.some.inj h)
      exact .thrown hthrows.1 hthrows.2
  | offer mission =>
      simp only [act] at h
      split_ifs at h with hopen
      obtain ⟨rfl, rfl⟩ := Prod.mk.inj (Option.some.inj h)
      exact .offered hopen.1
  | interrupt =>
      obtain ⟨rfl, rfl⟩ := Prod.mk.inj (Option.some.inj h)
      exact .interrupted

/-- What a move of the machine does. -/
lemma step_cases {τ : Type} [DecidableEq τ] {count : ℕ} {s s' : CustomerState τ} {t : τ} {a : Act}
    (h : (machine τ count).step s (t, a) = some s') :
    ∃ x l, Effect s.shared (s.thread t) a x l ∧ s' = s.after t (x, l) := by
  obtain ⟨⟨x, l⟩, hact, rfl⟩ := Threads.Program.step_iff.mp h
  exact ⟨x, l, act_cases hact, rfl⟩

end Inversion

end Customer

end LearnJava
