import LearnJava.Foundation.Progress
import LearnJava.ThreadTest.CustomerSums

/-!
# `TestProviderAndCustomer`: `main` and its customers

`main` of `threadtest/TestProviderAndCustomer.java` submits the customers to a thread pool of as
many threads, distributes the ints over their queues, waits until all customers have begun, shuts
the pool down, and interrupts and waits for the threads in `destroyAllThread`; then it adds up the
results.  In the source there are three customers and three hundred ints.

`destroyAllThread` holds the monitor of the thread group while it interrupts the threads, until it
waits.  A thread of the pool ends when its task is done and the pool is shut down, and to leave its
group it needs the monitor; the last one to leave notifies.  `wait` is in no loop, and may return
without a notification.  The steps in `call` are those of `Customer`.
-/

namespace LearnJava

namespace TestProviderAndCustomer

open Customer (Shared Local)

/-! ## The code -/

/-- Where `main` is. -/
inductive Place
  /-- In the loop that submits the customers, before it tests `index < 3`. -/
  | submitting (index : ℕ)
  /-- In the loop that offers the ints. -/
  | offering (index : ℕ)
  /-- `countDownLatch.await()` -/
  | awaiting
  /-- `executorService.shutdown()` -/
  | shuttingDown
  /-- Before the `synchronized` block of `destroyAllThread`. -/
  | destroying
  /-- In `threadGroup.interrupt()`, before the thread `index` of the group. -/
  | interrupting (index : ℕ)
  /-- In `threadGroup.wait()`. -/
  | waiting
  /-- At `threadGroup.destroy()`. -/
  | awake
  /-- In the loop that adds up the results. -/
  | getting (index : ℕ) (result : ℤ)
  /-- `main` has printed the result. -/
  | printed (result : ℤ)
  /-- The `IllegalThreadStateException` of `destroy` has ended `main`. -/
  | failed
  deriving DecidableEq, Repr

/-- How many customers were submitted. -/
def Place.submitted (n : ℕ) : Place → ℕ
  | .submitting index => index
  | _ => n

/-- The pool is shut down, and the monitor of the thread group is free. -/
def Place.CanExit : Place → Bool
  | .destroying | .waiting | .getting _ _ | .printed _ | .failed => true
  | _ => false

/-- `main`, the customers with what they share, and the threads that have left the group. -/
structure System (n : ℕ) where
  place : Place
  shared : Shared
  customer : Fin n → Local
  exited : Fin n → Bool

/-- What the action of a customer, or of `main` with it, has made of it. -/
def System.put {n : ℕ} (s : System n) (c : Fin n) (r : Shared × Local) : System n :=
  { s with shared := r.1, customer := Function.update s.customer c r.2 }

section Code

variable {n : ℕ} [NeZero n]

/-- `index % 3` -/
def customerIndex (index : ℕ) : Fin n := Fin.ofNat n index

/-- The next step of `main`. -/
def stepMain (missions : ℕ) (s : System n) : Option (System n) :=
  match s.place with
  | .submitting index =>
    some { s with place := if index < n then .submitting (index + 1) else .offering 0 }
  | .offering index =>
    if index < missions then
      let s' : System n := { s with place := .offering (index + 1) }
      match Customer.act s.shared (s.customer (customerIndex index)) (.offer (index + 1)) with
      | some r => some (s'.put (customerIndex index) r)
      | none => some s' -- the queue is full, and `offer` returns `false`
    else some { s with place := .awaiting }
  | .awaiting =>
    if s.shared.countDownLatch = 0 then some { s with place := .shuttingDown } else none
  | .shuttingDown => some { s with place := .destroying }
  | .destroying => some { s with place := .interrupting 0 }
  | .interrupting index =>
    if h : index < n then
      let s' : System n := { s with place := .interrupting (index + 1) }
      if s.exited ⟨index, h⟩ then some s'
      else (Customer.act s.shared (s.customer ⟨index, h⟩) .interrupt).map (s'.put ⟨index, h⟩)
    else some { s with place := .waiting }
  | .waiting => none
  | .awake => some { s with place := if ∀ c, s.exited c = true then .getting 0 0 else .failed }
  | .getting index result =>
    if h : index < n then
      if (s.customer ⟨index, h⟩).place = .returned then
        some { s with
          place := .getting (index + 1) (wrap32 (result + (s.customer ⟨index, h⟩).result)) }
      else none
    else some { s with place := .printed result }
  | .printed _ | .failed => none

/-- The thread of a customer that has returned ends; the last one notifies. -/
def exit (s : System n) (c : Fin n) : Option (System n) :=
  if (s.customer c).place = .returned ∧ s.exited c = false ∧ s.place.CanExit = true then
    let exited := Function.update s.exited c true
    if s.place = .waiting ∧ ∀ d, exited d = true then some { s with exited, place := .awake }
    else some { s with exited }
  else none

/-- A move: a step of `main`, the return of its `wait` without a notification, a step of a customer
or the `InterruptedException` of its `take`, or the end of its thread. -/
inductive Act (n : ℕ)
  | main
  | wake
  | customer (c : Fin n) (throws : Bool)
  | exit (c : Fin n)
  deriving DecidableEq, Repr

/-- One move. -/
def step (missions : ℕ) (s : System n) : Act n → Option (System n)
  | .main => stepMain missions s
  | .wake => if s.place = .waiting then some { s with place := .awake } else none
  | .customer c throws =>
    if (c : ℕ) < s.place.submitted n then
      (Customer.act s.shared (s.customer c) (if throws then .throw else .go)).map (s.put c)
    else none
  | .exit c => exit s c

/-- `main` at its first loop. -/
def System.initial (n : ℕ) : System n :=
  ⟨.submitting 0, ⟨n, false⟩, fun _ => .new, fun _ => false⟩

/-- `main` with `n` customers and the ints up to `missions`. -/
def machine (n missions : ℕ) [NeZero n] : Machine (System n) (Act n) where
  init s := s = .initial n
  step := step missions

/-- A move of `main` or of a customer. -/
abbrev SystemMove (n : ℕ) := Move (System n) (Act n)

/-! ## What one move does -/

/-- The next place of `main` where it does nothing else. -/
inductive Follows (missions : ℕ) (s : System n) : Place → Place → Prop
  | submitted {index : ℕ} (h : index < n) :
      Follows missions s (.submitting index) (.submitting (index + 1))
  | allSubmitted {index : ℕ} (h : n ≤ index) : Follows missions s (.submitting index) (.offering 0)
  | allOffered {index : ℕ} (h : missions ≤ index) : Follows missions s (.offering index) .awaiting
  | begun (h : s.shared.countDownLatch = 0) : Follows missions s .awaiting .shuttingDown
  | shutDown : Follows missions s .shuttingDown .destroying
  | entered : Follows missions s .destroying (.interrupting 0)
  | skipped {index : ℕ} (h : index < n) (hexited : s.exited ⟨index, h⟩ = true) :
      Follows missions s (.interrupting index) (.interrupting (index + 1))
  | allInterrupted {index : ℕ} (h : n ≤ index) : Follows missions s (.interrupting index) .waiting
  | destroyed (h : ∀ c, s.exited c = true) : Follows missions s .awake (.getting 0 0)
  | notDestroyed (h : ¬∀ c, s.exited c = true) : Follows missions s .awake .failed
  | got {index : ℕ} {result : ℤ} (h : index < n)
      (hreturned : (s.customer ⟨index, h⟩).place = .returned) :
      Follows missions s (.getting index result)
        (.getting (index + 1) (wrap32 (result + (s.customer ⟨index, h⟩).result)))
  | printed {index : ℕ} {result : ℤ} (h : n ≤ index) :
      Follows missions s (.getting index result) (.printed result)

/-- The effect of a move. -/
inductive Effect (missions : ℕ) (s : System n) : Act n → System n → Prop
  | follows {place : Place} (h : Follows missions s s.place place) :
      Effect missions s .main { s with place }
  | offered {index : ℕ} {r : Shared × Local} (hplace : s.place = .offering index)
      (hlt : index < missions)
      (h : Customer.act s.shared (s.customer (customerIndex index)) (.offer (index + 1)) = some r) :
      Effect missions s .main
        (({ s with place := .offering (index + 1) } : System n).put (customerIndex index) r)
  | refused {index : ℕ} (hplace : s.place = .offering index) (hlt : index < missions)
      (h : Customer.act s.shared (s.customer (customerIndex index)) (.offer (index + 1)) = none) :
      Effect missions s .main { s with place := .offering (index + 1) }
  | interrupted {index : ℕ} {r : Shared × Local} (hplace : s.place = .interrupting index)
      (hlt : index < n) (h : Customer.act s.shared (s.customer ⟨index, hlt⟩) .interrupt = some r) :
      Effect missions s .main
        (({ s with place := .interrupting (index + 1) } : System n).put ⟨index, hlt⟩ r)
  | woken (hplace : s.place = .waiting) : Effect missions s .wake { s with place := .awake }
  | worked {c : Fin n} {throws : Bool} {r : Shared × Local} (hlt : (c : ℕ) < s.place.submitted n)
      (h : Customer.act s.shared (s.customer c) (if throws then .throw else .go) = some r) :
      Effect missions s (.customer c throws) (s.put c r)
  | notified {c : Fin n} (hreturned : (s.customer c).place = .returned)
      (hexited : s.exited c = false) (hplace : s.place = .waiting)
      (hlast : ∀ d, Function.update s.exited c true d = true) :
      Effect missions s (.exit c)
        { s with exited := Function.update s.exited c true, place := .awake }
  | left {c : Fin n} (hreturned : (s.customer c).place = .returned) (hexited : s.exited c = false)
      (hplace : s.place.CanExit = true)
      (hnot : s.place = .waiting → ¬∀ d, Function.update s.exited c true d = true) :
      Effect missions s (.exit c) { s with exited := Function.update s.exited c true }

variable {missions : ℕ} {s s' : System n}

lemma stepMain_cases (h : stepMain missions s = some s') : Effect missions s .main s' := by
  have hfollows : ∀ {place}, Follows missions s s.place place →
      Effect missions s .main { s with place } := .follows
  cases hplace : s.place with
  | submitting index =>
      simp only [stepMain, hplace] at h
      obtain rfl := Option.some.inj h
      split_ifs with hlt
      · exact hfollows (hplace ▸ .submitted hlt)
      · exact hfollows (hplace ▸ .allSubmitted (not_lt.mp hlt))
  | offering index =>
      simp only [stepMain, hplace] at h
      split_ifs at h with hlt
      · split at h <;> obtain rfl := Option.some.inj h
        · exact .offered hplace hlt (by assumption)
        · exact .refused hplace hlt (by assumption)
      · obtain rfl := Option.some.inj h
        exact hfollows (hplace ▸ .allOffered (not_lt.mp hlt))
  | awaiting =>
      simp only [stepMain, hplace] at h
      split_ifs at h with hzero
      obtain rfl := Option.some.inj h
      exact hfollows (hplace ▸ .begun hzero)
  | shuttingDown =>
      simp only [stepMain, hplace] at h
      obtain rfl := Option.some.inj h
      exact hfollows (hplace ▸ .shutDown)
  | destroying =>
      simp only [stepMain, hplace] at h
      obtain rfl := Option.some.inj h
      exact hfollows (hplace ▸ .entered)
  | interrupting index =>
      simp only [stepMain, hplace] at h
      split_ifs at h with hlt hexited
      · obtain rfl := Option.some.inj h
        exact hfollows (hplace ▸ .skipped hlt hexited)
      · obtain ⟨r, hr, rfl⟩ := Option.map_eq_some_iff.mp h
        exact .interrupted hplace hlt hr
      · obtain rfl := Option.some.inj h
        exact hfollows (hplace ▸ .allInterrupted (not_lt.mp hlt))
  | waiting => simp [stepMain, hplace] at h
  | awake =>
      simp only [stepMain, hplace] at h
      obtain rfl := Option.some.inj h
      split_ifs with hall
      · exact hfollows (hplace ▸ .destroyed hall)
      · exact hfollows (hplace ▸ .notDestroyed hall)
  | getting index result =>
      simp only [stepMain, hplace] at h
      split_ifs at h with hlt hreturned
      · obtain rfl := Option.some.inj h
        exact hfollows (hplace ▸ .got hlt hreturned)
      · obtain rfl := Option.some.inj h
        exact hfollows (hplace ▸ .printed (not_lt.mp hlt))
  | printed result => simp [stepMain, hplace] at h
  | failed => simp [stepMain, hplace] at h

/-- Every move has one of the effects. -/
lemma step_cases {a : Act n} (h : (machine n missions).step s a = some s') :
    Effect missions s a s' := by
  cases a with
  | main => exact stepMain_cases h
  | wake =>
      simp only [machine, step] at h
      split_ifs at h with hplace
      obtain rfl := Option.some.inj h
      exact .woken hplace
  | customer c throws =>
      simp only [machine, step] at h
      by_cases hlt : (c : ℕ) < s.place.submitted n
      · rw [if_pos hlt] at h
        obtain ⟨r, hr, rfl⟩ := Option.map_eq_some_iff.mp h
        exact .worked hlt hr
      · rw [if_neg hlt] at h
        cases h
  | exit c =>
      simp only [machine, step, exit] at h
      split_ifs at h with hexit hlast
      · obtain rfl := Option.some.inj h
        exact .notified hexit.1 hexit.2.1 hlast.1 hlast.2
      · obtain rfl := Option.some.inj h
        exact .left hexit.1 hexit.2.1 hexit.2.2 fun hwaiting hall => hlast ⟨hwaiting, hall⟩

end Code

end TestProviderAndCustomer

end LearnJava
