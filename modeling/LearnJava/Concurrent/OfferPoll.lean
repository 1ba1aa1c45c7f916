import LearnJava.Foundation.Threads
import LearnJava.Java.Lang

/-!
# Threads that offer and poll

The threads of `run/Test.java` and `run/TestConcurrentLinkedDeque.java`: those of
`server/thread/OfferRunnable.java` and `OfferIntoDequeRunnable.java` offer objects to a concurrent
queue or deque until a shared counter has passed `maxCount`, and those of `PollRunnable.java` and
`PollFromDequeRunnable.java` poll them, count down a latch for each, and go on until they are
stopped.  The four differ in the end of the deque that they work at; a queue is offered to at its
tail and polled at its head.

An object is the number of objects created before it.  `offered` and `polled` record for the
statements what was offered, and what a thread has polled.
-/

namespace LearnJava

namespace OfferPoll

/-- A `People` object. -/
abbrev People := ℕ

/-- `offerFirst(people)` or `offerLast(people)` -/
def offer (intoHead : Bool) (people : People) (deque : List People) : List People :=
  if intoHead then people :: deque else deque ++ [people]

/-- `pollFirst()` or `pollLast()`, with the deque after it; none for `null`. -/
def poll (fromHead : Bool) (deque : List People) : Option (People × List People) :=
  if fromHead then deque.head?.map (·, deque.tail) else deque.getLast?.map (·, deque.dropLast)

/-- The objects that the threads share. -/
structure Shared where
  peopleDeque : List People
  count : ℤ
  countDownLatch : ℕ
  /-- How many objects have been created. -/
  created : ℕ
  offered : List People

/-- Where a thread is: at the call that is named, and for a poller with `nextPeople`. -/
inductive Place
  /-- `count.incrementAndGet()` -/
  | incrementing
  /-- `RandomPeople.randomPeople()` -/
  | creating
  /-- `offer(people)` -/
  | offering (people : People)
  /-- Reading `stop`. -/
  | testing
  /-- `poll()` -/
  | polling
  /-- `Thread.sleep(100)` -/
  | sleeping
  /-- `countDownLatch.countDown()` -/
  | countingDown (nextPeople : People)
  /-- `System.out.println` -/
  | printing (nextPeople : People)
  | ended
  deriving DecidableEq, Repr

/-- A thread: whether it offers or polls, the end of the deque it works at, its place, its flag, and
what it has polled. -/
structure Local where
  offers : Bool
  atHead : Bool
  place : Place
  stop : Bool
  polled : List People
  deriving DecidableEq, Repr

/-! ## The runnables -/

/-- A thread that offers at one end. -/
def offering (atHead : Bool) : Local := ⟨true, atHead, .incrementing, false, []⟩

/-- A thread that polls at one end. -/
def polling (atHead : Bool) : Local := ⟨false, atHead, .testing, false, []⟩

def OfferRunnable : Local := offering false
def OfferIntoDequeRunnable (addIntoHead : Bool) : Local := offering addIntoHead
def PollRunnable : Local := polling true
def PollFromDequeRunnable (pollFromHead : Bool) : Local := polling pollFromHead

/-- The next step of `run`. -/
def advance (maxCount : ℕ) (x : Shared) (l : Local) : Option (Shared × Local) :=
  match l.place with
  | .incrementing =>
    let count := wrap32 (x.count + 1)
    some ({ x with count }, { l with place := if count ≤ maxCount then .creating else .ended })
  | .creating =>
    some ({ x with created := x.created + 1 }, { l with place := .offering x.created })
  | .offering people =>
    some ({ x with
      peopleDeque := offer l.atHead people x.peopleDeque
      offered := x.offered ++ [people] }, { l with place := .incrementing })
  | .testing => some (x, { l with place := if l.stop then .ended else .polling })
  | .polling =>
    match poll l.atHead x.peopleDeque with
    | none => some (x, { l with place := .sleeping })
    | some (nextPeople, peopleDeque) =>
      some ({ x with peopleDeque },
        { l with place := .countingDown nextPeople, polled := l.polled ++ [nextPeople] })
  | .sleeping => some (x, { l with place := .testing })
  | .countingDown nextPeople =>
    some ({ x with countDownLatch := x.countDownLatch - 1 },
      { l with place := .printing nextPeople })
  | .printing _ => some (x, { l with place := .testing })
  | .ended => none

/-- An action: the next step of the thread's code, an interrupt that reaches it while it sleeps, or
`setStop(stop)` on its runnable by any other thread. -/
inductive Act
  | go
  | interrupt
  | setStop (stop : Bool)
  deriving DecidableEq, Repr

/-- One action. -/
def act (maxCount : ℕ) (x : Shared) (l : Local) : Act → Option (Shared × Local)
  | .go => advance maxCount x l
  | .interrupt => if l.place = .sleeping then some (x, { l with place := .ended }) else none
  | .setStop stop => if l.offers then none else some (x, { l with stop })

/-- The deque, the counter and the latch before the threads start. -/
def Shared.initial (maxCount : ℕ) : Shared := ⟨[], 0, maxCount, 0, []⟩

/-- Threads with any of the runnables. -/
def program (maxCount : ℕ) : Threads.Program Shared Local Act where
  initShared x := x = .initial maxCount
  initThread l := l = OfferRunnable ∨ (∃ addIntoHead, l = OfferIntoDequeRunnable addIntoHead) ∨
    l = PollRunnable ∨ ∃ pollFromHead, l = PollFromDequeRunnable pollFromHead
  act := act maxCount

/-- The shared objects and the threads. -/
abbrev DequeState (τ : Type) := Threads.State τ Shared Local

/-- A step of one thread. -/
abbrev DequeMove (τ : Type) := Move (DequeState τ) (τ × Act)

/-- Any interleaving of the threads. -/
def machine (τ : Type) [DecidableEq τ] (maxCount : ℕ) : Machine (DequeState τ) (τ × Act) :=
  (program maxCount).machine τ

/-! ## What one action does -/

/-- A place of a poller that has counted down for all it has polled. -/
def Place.Counted : Place → Bool
  | .testing | .polling | .sleeping | .printing _ => true
  | _ => false

/-- The effect of one action of a thread, with the place it is taken from. -/
inductive Effect (maxCount : ℕ) (x : Shared) (l : Local) : Act → Shared → Local → Prop
  | admitted (hplace : l.place = .incrementing) (h : wrap32 (x.count + 1) ≤ maxCount) :
      Effect maxCount x l .go { x with count := wrap32 (x.count + 1) } { l with place := .creating }
  | refused (hplace : l.place = .incrementing) (h : ¬wrap32 (x.count + 1) ≤ maxCount) :
      Effect maxCount x l .go { x with count := wrap32 (x.count + 1) } { l with place := .ended }
  | created (hplace : l.place = .creating) :
      Effect maxCount x l .go { x with created := x.created + 1 }
        { l with place := .offering x.created }
  | offered {people : People} (hplace : l.place = .offering people) :
      Effect maxCount x l .go { x with
        peopleDeque := offer l.atHead people x.peopleDeque
        offered := x.offered ++ [people] } { l with place := .incrementing }
  | polled {nextPeople : People} {peopleDeque : List People} (hplace : l.place = .polling)
      (h : poll l.atHead x.peopleDeque = some (nextPeople, peopleDeque)) :
      Effect maxCount x l .go { x with peopleDeque }
        { l with place := .countingDown nextPeople, polled := l.polled ++ [nextPeople] }
  | countedDown {nextPeople : People} (hplace : l.place = .countingDown nextPeople) :
      Effect maxCount x l .go { x with countDownLatch := x.countDownLatch - 1 }
        { l with place := .printing nextPeople }
  | moved {a : Act} {place : Place} (hplace : l.place.Counted = true)
      (h : place.Counted = true ∨ place = .ended) :
      Effect maxCount x l a x { l with place }
  | flagged {stop : Bool} (h : l.offers = false) :
      Effect maxCount x l (.setStop stop) x { l with stop }

section Inversion

variable {maxCount : ℕ} {x x' : Shared} {l l' : Local}

lemma advance_cases (h : advance maxCount x l = some (x', l')) :
    Effect maxCount x l .go x' l' := by
  cases hplace : l.place with
  | incrementing =>
      simp only [advance, hplace] at h
      obtain ⟨rfl, rfl⟩ := Prod.mk.inj (Option.some.inj h)
      by_cases hcount : wrap32 (x.count + 1) ≤ maxCount
      · rw [if_pos hcount]
        exact .admitted hplace hcount
      · rw [if_neg hcount]
        exact .refused hplace hcount
  | creating =>
      simp only [advance, hplace] at h
      obtain ⟨rfl, rfl⟩ := Prod.mk.inj (Option.some.inj h)
      exact .created hplace
  | offering people =>
      simp only [advance, hplace] at h
      obtain ⟨rfl, rfl⟩ := Prod.mk.inj (Option.some.inj h)
      exact .offered hplace
  | testing =>
      simp only [advance, hplace] at h
      obtain ⟨rfl, rfl⟩ := Prod.mk.inj (Option.some.inj h)
      refine .moved (by rw [hplace]; rfl) ?_
      split_ifs
      · exact .inr rfl
      · exact .inl rfl
  | polling =>
      simp only [advance, hplace] at h
      cases hpoll : poll l.atHead x.peopleDeque with
      | none =>
          simp only [hpoll] at h
          obtain ⟨rfl, rfl⟩ := Prod.mk.inj (Option.some.inj h)
          exact .moved (by rw [hplace]; rfl) (.inl rfl)
      | some r =>
          simp only [hpoll] at h
          obtain ⟨rfl, rfl⟩ := Prod.mk.inj (Option.some.inj h)
          exact .polled hplace hpoll
  | sleeping =>
      simp only [advance, hplace] at h
      obtain ⟨rfl, rfl⟩ := Prod.mk.inj (Option.some.inj h)
      exact .moved (by rw [hplace]; rfl) (.inl rfl)
  | countingDown nextPeople =>
      simp only [advance, hplace] at h
      obtain ⟨rfl, rfl⟩ := Prod.mk.inj (Option.some.inj h)
      exact .countedDown hplace
  | printing nextPeople =>
      simp only [advance, hplace] at h
      obtain ⟨rfl, rfl⟩ := Prod.mk.inj (Option.some.inj h)
      exact .moved (by rw [hplace]; rfl) (.inl rfl)
  | ended => simp [advance, hplace] at h

/-- Every action has one of the effects. -/
lemma act_cases {a : Act} (h : act maxCount x l a = some (x', l')) :
    Effect maxCount x l a x' l' := by
  cases a with
  | go => exact advance_cases h
  | interrupt =>
      simp only [act] at h
      split_ifs at h with hplace
      obtain ⟨rfl, rfl⟩ := Prod.mk.inj (Option.some.inj h)
      exact .moved (by rw [hplace]; rfl) (.inr rfl)
  | setStop stop =>
      simp only [act] at h
      split_ifs at h with hoffers
      obtain ⟨rfl, rfl⟩ := Prod.mk.inj (Option.some.inj h)
      exact .flagged (by simpa using hoffers)

/-- What a move of the machine does. -/
lemma step_cases {τ : Type} [DecidableEq τ] {s s' : DequeState τ} {t : τ} {a : Act}
    (h : (machine τ maxCount).step s (t, a) = some s') :
    ∃ x l, Effect maxCount s.shared (s.thread t) a x l ∧ s' = s.after t (x, l) := by
  obtain ⟨⟨x, l⟩, hact, rfl⟩ := Threads.Program.step_iff.mp h
  exact ⟨x, l, act_cases hact, rfl⟩

end Inversion

/-! ## The ends of the deque -/

/-- Either way one object is added. -/
lemma coe_offer (intoHead : Bool) (people : People) (deque : List People) :
    (offer intoHead people deque : Multiset People) = deque + {people} := by
  rw [← Multiset.coe_singleton, Multiset.coe_add, Multiset.coe_eq_coe]
  cases intoHead with
  | true => exact (List.perm_append_singleton people deque).symm
  | false => exact List.Perm.refl _

/-- Either way one object is taken. -/
lemma coe_poll {fromHead : Bool} {people : People} {deque rest : List People}
    (h : poll fromHead deque = some (people, rest)) :
    (deque : Multiset People) = rest + {people} := by
  cases fromHead with
  | true =>
      obtain ⟨p, hhead, hr⟩ := Option.map_eq_some_iff.mp h
      obtain ⟨rfl, rfl⟩ := Prod.mk.inj hr
      rw [← Multiset.coe_singleton, Multiset.coe_add, Multiset.coe_eq_coe]
      rw [← List.cons_head?_tail hhead, List.tail_cons]
      exact (List.perm_append_singleton p _).symm
  | false =>
      obtain ⟨p, hlast, hr⟩ := Option.map_eq_some_iff.mp h
      obtain ⟨rfl, rfl⟩ := Prod.mk.inj hr
      rw [← Multiset.coe_singleton, Multiset.coe_add, List.dropLast_append_getLast? _ hlast]

end OfferPoll

end LearnJava
