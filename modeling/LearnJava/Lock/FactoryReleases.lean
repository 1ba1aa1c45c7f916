import LearnJava.Lock.ReadWriteThreadFacotry

/-!
# Which threads a start releases

`startAllThread` opens the latch in the field and then replaces it.  A thread that reads the field
in between, or before, waits at an open latch; one that the scheduler comes to later, although it
was created before the call began, finds the new latch, which is closed.

So the law holds as long as the scheduler is fast enough: when a call replaces the latch, each
thread that was there when it began has read the field.  With overlapping calls no other one may
have replaced the latch in the meantime by a new one at which threads wait already.
-/

namespace LearnJava

namespace ReadWriteThreadFacotry

/-! ## The property -/

/-- The latch that a created thread awaits, once its `run` has read the field. -/
def Shared.awaited (x : Shared) (i : ℕ) : Option Latch := (x.status i).bind Prod.fst

/-- The threads of a call of `startAllThread` that replaces the latch, and the latch it opened. -/
def Place.replacement : Place → Option (ℕ × Latch)
  | .replacing before latch => some (before, latch)
  | _ => none

/-- The threads of a call that returns. -/
def Place.started : Place → Option ℕ
  | .ending before => some before
  | _ => none

/-- What `startAllThread` needs when it replaces the latch: the threads that were created before it
began have read the field, and the latch that is replaced is the one that was opened, or no thread
waits at it. -/
def Shared.Safe (x : Shared) (before : ℕ) (latch : Latch) : Prop :=
  (∀ i < before, (x.awaited i).isSome = true) ∧
    (x.countDownLatch = latch ∨
      ∀ thread ∈ x.threads, thread.latch = some x.countDownLatch → thread.past = true)

instance (x : Shared) (before : ℕ) (latch : Latch) : Decidable (x.Safe before latch) :=
  inferInstanceAs (Decidable (_ ∧ _))

section Property

variable {τ : Type}

/-- The place of the caller that takes a step. -/
def placeOf (s : FactoryState τ) : Label τ → Place
  | .caller t _ => s.thread t
  | .created _ => .idle

/-- When `startAllThread` has returned by the move `m`, the threads that were created before it
began await, in a later state, a latch that was open by then.  Of a thread that never reads the
field nothing is asked; in the runs below each of them has read it when the call returns. -/
def Releases (m : FactoryMove τ) (s : FactoryState τ) : Prop :=
  ∀ before ∈ (placeOf m.pre m.label).started, ∀ i < before, ∀ latch ∈ s.shared.awaited i,
    m.post.shared.latches.Open latch

/-- The latch is replaced safely. -/
def ReplacesSafely (m : FactoryMove τ) : Prop :=
  ∀ r ∈ (placeOf m.pre m.label).replacement, m.pre.shared.Safe r.1 r.2

instance (m : FactoryMove τ) (s : FactoryState τ) : Decidable (Releases m s) :=
  inferInstanceAs (Decidable (∀ _ ∈ _, _))

instance (m : FactoryMove τ) : Decidable (ReplacesSafely m) :=
  inferInstanceAs (Decidable (∀ _ ∈ _, _))

end Property

/-! ## The invariant -/

/-- The latch that a thread has read is open, or it waits and the latch is still in the field. -/
def Shared.Settled (x : Shared) : Option Latch × Bool → Prop
  | (none, past) => past = false
  | (some latch, past) => latch < x.latches.created ∧
      (x.latches.Open latch ∨ latch = x.countDownLatch ∧ past = false)

/-- What holds for the factory. -/
structure Shared.Inv (x : Shared) : Prop where
  current : x.countDownLatch < x.latches.created
  oneShot : x.latches.OneShot
  settled : ∀ i r, x.status i = some r → x.Settled r

/-- A created thread awaits a latch that is open. -/
def Shared.Released (x : Shared) (i : ℕ) : Prop :=
  ∃ latch past, x.status i = some (some latch, past) ∧ x.latches.Open latch

/-- What holds for a caller. -/
def Place.Inv (x : Shared) : Place → Prop
  | .opening _ latch => latch < x.latches.created
  | .replacing _ latch => latch < x.latches.created ∧ x.latches.Open latch
  | .ending before => ∀ i < before, x.Released i
  | _ => True

lemma awaited_eq_some_iff {x : Shared} {i : ℕ} {latch : Latch} :
    x.awaited i = some latch ↔ ∃ past, x.status i = some (some latch, past) := by
  simp [Shared.awaited, Option.bind_eq_some_iff]

/-- What is read stays read, and what is open stays open. -/
structure Shared.Later (x x' : Shared) : Prop where
  latches : x.latches.Later x'.latches
  stillRead : ∀ i latch past, x.status i = some (some latch, past) →
    ∃ past', x'.status i = some (some latch, past')

lemma Shared.Released.later {x x' : Shared} {i : ℕ} (hi : x.Released i) (hx : x.Inv)
    (h : x.Later x') : x'.Released i := by
  obtain ⟨latch, past, hstatus, hopen⟩ := hi
  obtain ⟨past', hstatus'⟩ := h.stillRead i latch past hstatus
  exact ⟨latch, past', hstatus', h.latches.stillOpen latch (hx.settled i _ hstatus).1 hopen⟩

lemma Place.Inv.later {x x' : Shared} {place : Place} (hplace : place.Inv x) (hx : x.Inv)
    (h : x.Later x') : place.Inv x' := by
  cases place with
  | opening before latch => exact LT.lt.trans_le hplace h.latches.created_le
  | replacing before latch =>
      exact ⟨hplace.1.trans_le h.latches.created_le, h.latches.stillOpen latch hplace.1 hplace.2⟩
  | ending before => exact fun i hi => (hplace i hi).later hx h
  | idle => trivial
  | naming puts thread => trivial
  | launching thread => trivial
  | reading before => trivial

/-! ## The callers -/

section Caller

variable {x x' : Shared} {place place' : Place} {a : Act}

lemma status_modify {i : ℕ} {f : CreatedThread → CreatedThread}
    (hf : ∀ r, (f r).latch = r.latch ∧ (f r).past = r.past) {threads : List CreatedThread} (j : ℕ) :
    (threads.modify i f)[j]?.map (fun thread => (thread.latch, thread.past)) =
      threads[j]?.map fun thread => (thread.latch, thread.past) := by
  rw [List.getElem?_modify]
  cases threads[j]? with
  | none => rfl
  | some r =>
      by_cases hij : i = j
      · simp [hij, hf r]
      · simp [hij]

/-- A caller adds threads, and leaves those that are there at their latches. -/
lemma Effect.status (h : Effect x place a x' place') (i : ℕ) :
    x'.status i = x.status i ∨ x.status i = none ∧ x'.status i = some (none, false) := by
  cases h with
  | @created _ puts =>
      rcases lt_trichotomy i x.threads.length with hi | hi | hi
      · exact .inl (by simp [Shared.status, List.getElem?_append_left hi])
      · exact .inr (by simp [Shared.status, CreatedThread.new, hi])
      · have hle : (x.threads ++ [CreatedThread.new puts]).length ≤ i := by simpa using hi
        exact .inl (by simp [Shared.status, List.getElem?_eq_none hle, hi.le])
  | named => exact .inl (status_modify (by simp) i)
  | launched => exact .inl (status_modify (by simp) i)
  | began => exact .inl rfl
  | read => exact .inl rfl
  | opened => exact .inl rfl
  | replaced => exact .inl rfl
  | ended => exact .inl rfl

lemma Effect.later (h : Effect x place a x' place') : x.Later x' := by
  have hread : ∀ i latch past, x.status i = some (some latch, past) →
      ∃ past', x'.status i = some (some latch, past') := by
    intro i latch past hstatus
    rcases h.status i with hsame | ⟨hnone, -⟩
    · exact ⟨past, hsame.trans hstatus⟩
    · rw [hnone] at hstatus
      cases hstatus
  cases h with
  | created => exact ⟨.refl _, hread⟩
  | named => exact ⟨.refl _, hread⟩
  | launched => exact ⟨.refl _, hread⟩
  | began => exact ⟨.refl _, hread⟩
  | read => exact ⟨.refl _, hread⟩
  | opened => exact ⟨Latches.later_countDown _ _, hread⟩
  | replaced => exact ⟨Latches.later_new _ 1, hread⟩
  | ended => exact ⟨.refl _, hread⟩

/-- When the latch is replaced safely, all latches that were read are open. -/
lemma Shared.Safe.read_open {before i : ℕ} {latch read : Latch} {past : Bool}
    (h : x.Safe before latch) (hx : x.Inv) (hopen : x.latches.Open latch)
    (hread : x.status i = some (some read, past)) : x.latches.Open read := by
  obtain ⟨-, hisOpen | ⟨rfl, rfl⟩⟩ := hx.settled i _ hread
  · exact hisOpen
  · rcases h.2 with hsame | hnone
    · rw [hsame]
      exact hopen
    · obtain ⟨thread, hthread, hstatus⟩ := Option.map_eq_some_iff.mp hread
      obtain ⟨hlatch, hpast⟩ := Prod.mk.inj hstatus
      have hmem := List.mem_of_getElem? hthread
      rw [hnone thread hmem hlatch] at hpast
      cases hpast

/-- What was read stays settled if, where the field is set, the latch that leaves it is open. -/
lemma Effect.settled (h : Effect x place a x' place') (hx : x.Inv)
    (hread : ∀ i latch past, x.status i = some (some latch, past) →
      x.latches.Open latch ∨ latch = x'.countDownLatch ∧ past = false) :
    ∀ i r, x'.status i = some r → x'.Settled r := by
  rintro i ⟨_ | latch, past⟩ hstatus
  · rcases h.status i with hsame | ⟨-, hnew⟩
    · exact hx.settled i (none, past) (hsame.symm.trans hstatus)
    · exact (Prod.mk.inj (Option.some.inj (hstatus.symm.trans hnew))).2
  · rcases h.status i with hsame | ⟨-, hnew⟩
    · rw [hsame] at hstatus
      have hcreated := (hx.settled i _ hstatus).1
      have hlatches := h.later.latches
      exact ⟨hcreated.trans_le hlatches.created_le,
        (hread i latch past hstatus).imp_left (hlatches.stillOpen latch hcreated)⟩
    · cases hstatus.symm.trans hnew

/-- Where the field is not set, nothing leaves it. -/
lemma Effect.settled_of_same (h : Effect x place a x' place') (hx : x.Inv)
    (hsame : x'.countDownLatch = x.countDownLatch) :
    ∀ i r, x'.status i = some r → x'.Settled r := by
  apply h.settled hx
  intro i latch past hstatus
  rw [hsame]
  exact (hx.settled i _ hstatus).2

lemma Effect.shared_inv (h : Effect x place a x' place') (hx : x.Inv) (hplace : place.Inv x)
    (hsafe : ∀ before latch, place = .replacing before latch → x.Safe before latch) : x'.Inv := by
  have hsame := h.settled_of_same hx
  have hset := h.settled hx
  cases h with
  | created => exact ⟨hx.current, hx.oneShot, hsame rfl⟩
  | named => exact ⟨hx.current, hx.oneShot, hsame rfl⟩
  | launched => exact ⟨hx.current, hx.oneShot, hsame rfl⟩
  | began => exact hx
  | read => exact hx
  | opened => exact ⟨hx.current, hx.oneShot.countDown _, hsame rfl⟩
  | replaced =>
      refine ⟨Nat.lt_succ_self _, hx.oneShot.new, hset ?_⟩
      intro i latch past hstatus
      exact .inl ((hsafe _ _ rfl).read_open hx hplace.2 hstatus)
  | ended => exact hx

lemma Effect.keeps_self (h : Effect x place a x' place') (hx : x.Inv) (hplace : place.Inv x)
    (hsafe : ∀ before latch, place = .replacing before latch → x.Safe before latch) :
    place'.Inv x' := by
  have hlater := h.later
  cases h with
  | created => trivial
  | named => trivial
  | launched => trivial
  | began => trivial
  | read => exact hx.current
  | opened => exact ⟨hplace, hx.oneShot.open_countDown _⟩
  | replaced =>
      intro i hi
      obtain ⟨latch, hlatch⟩ := Option.isSome_iff_exists.mp ((hsafe _ _ rfl).1 i hi)
      obtain ⟨past, hstatus⟩ := awaited_eq_some_iff.mp hlatch
      have hreleased : x.Released i :=
        ⟨latch, past, hstatus, (hsafe _ _ rfl).read_open hx hplace.2 hstatus⟩
      exact hreleased.later hx hlater
  | ended => trivial

end Caller

/-! ## The created threads -/

section Created

variable {x x' : Shared} {i : ℕ}

lemma later_of_schedule (h : schedule x i = some x') : x.Later x' := by
  obtain ⟨hlatches, -, hothers, hself⟩ := schedule_cases h
  refine ⟨by rw [hlatches]; exact .refl _, ?_⟩
  intro j latch past hstatus
  by_cases hj : j = i
  · subst hj
    rcases hself with ⟨past₀, hnone, -⟩ | ⟨latch', -, hwaits, hpast⟩
    · cases hstatus.symm.trans hnone
    · obtain ⟨rfl, -⟩ : latch = latch' ∧ past = false := by
        simpa using hstatus.symm.trans hwaits
      exact ⟨true, hpast⟩
  · exact ⟨past, (hothers j hj).trans hstatus⟩

lemma inv_of_schedule (hx : x.Inv) (h : schedule x i = some x') : x'.Inv := by
  obtain ⟨hlatches, hcurrent, hothers, hself⟩ := schedule_cases h
  have hsame : ∀ r, x.Settled r → x'.Settled r := by
    rintro ⟨_ | latch, past⟩ hr
    · exact hr
    · unfold Shared.Settled
      rw [hlatches, hcurrent]
      exact hr
  refine ⟨by rw [hlatches, hcurrent]; exact hx.current, by rw [hlatches]; exact hx.oneShot, ?_⟩
  intro j r hstatus
  by_cases hj : j = i
  · subst hj
    apply hsame
    rcases hself with ⟨past, hnone, hread⟩ | ⟨latch, hopen, hwaits, hpast⟩
    · obtain rfl := Option.some.inj (hstatus.symm.trans hread)
      have hpast : past = false := hx.settled j _ hnone
      exact ⟨hx.current, .inr ⟨rfl, hpast⟩⟩
    · obtain rfl := Option.some.inj (hstatus.symm.trans hpast)
      exact ⟨(hx.settled j _ hwaits).1, .inl hopen⟩
  · rw [hothers j hj] at hstatus
    exact hsame r (hx.settled j r hstatus)

end Created

/-! ## Runs -/

section Run

variable {τ : Type} [DecidableEq τ] {s s' : FactoryState τ} {l : Label τ}

/-- The invariant of a run in which latches are replaced safely. -/
structure Inv (s : FactoryState τ) : Prop where
  shared : s.shared.Inv
  callers : ∀ t, (s.thread t).Inv s.shared

lemma inv_init (h : (machine τ).init s) : Inv s := by
  obtain ⟨hshared, hcallers⟩ := h
  refine ⟨?_, fun t => ?_⟩
  · rw [hshared]
    refine ⟨Nat.zero_lt_one, Latches.oneShot_empty.new, fun i r hstatus => ?_⟩
    simp [Shared.status, Shared.initial] at hstatus
  · rw [hcallers t]
    trivial

/-- A move that replaces safely keeps the invariant. -/
lemma inv_step (hs : Inv s) (h : (machine τ).step s l = some s')
    (hsafe : ReplacesSafely ⟨s, l, s'⟩) : Inv s' := by
  rcases step_cases h with ⟨t, a, x, place, rfl, heffect, rfl⟩ | ⟨i, x, rfl, hschedule, rfl⟩
  · have hcaller : ∀ before latch, s.thread t = .replacing before latch →
        s.shared.Safe before latch := by
      intro before latch hplace
      exact hsafe (before, latch) (by simp [placeOf, hplace, Place.replacement])
    refine ⟨heffect.shared_inv hs.shared (hs.callers t) hcaller, ?_⟩
    refine Threads.State.forall_after (J := fun x place => Place.Inv x place)
      (heffect.keeps_self hs.shared (hs.callers t) hcaller) fun u _ => ?_
    exact (hs.callers u).later hs.shared heffect.later
  · exact ⟨inv_of_schedule hs.shared hschedule,
      fun t => (hs.callers t).later hs.shared (later_of_schedule hschedule)⟩

/-- When a call returns, the threads that were created before it began are at open latches. -/
lemma released_of_inv (hs : Inv s) (h : (machine τ).step s l = some s') {before i : ℕ}
    (hplace : before ∈ (placeOf s l).started) (hi : i < before) : s'.shared.Released i := by
  rcases step_cases h with ⟨t, a, x, place, rfl, heffect, rfl⟩ | ⟨i', x, rfl, hschedule, rfl⟩
  · have hcaller := hs.callers t
    cases hwhere : s.thread t with
    | ending before' =>
        obtain rfl : before' = before := by simpa [placeOf, hwhere, Place.started] using hplace
        rw [hwhere] at hcaller
        exact (hcaller i hi).later hs.shared heffect.later
    | idle => simp [placeOf, hwhere, Place.started] at hplace
    | naming puts thread => simp [placeOf, hwhere, Place.started] at hplace
    | launching thread => simp [placeOf, hwhere, Place.started] at hplace
    | reading before' => simp [placeOf, hwhere, Place.started] at hplace
    | opening before' latch => simp [placeOf, hwhere, Place.started] at hplace
    | replacing before' latch => simp [placeOf, hwhere, Place.started] at hplace
  · simp [placeOf, Place.started] at hplace

/-- A thread awaits the latch that it has read. -/
lemma awaited_step (h : (machine τ).step s l = some s') {i : ℕ} {latch : Latch}
    (hlatch : s.shared.awaited i = some latch) : s'.shared.awaited i = some latch := by
  obtain ⟨past, hstatus⟩ := awaited_eq_some_iff.mp hlatch
  apply awaited_eq_some_iff.mpr
  rcases step_cases h with ⟨t, a, x, place, rfl, heffect, rfl⟩ | ⟨i', x, rfl, hschedule, rfl⟩
  · exact heffect.later.stillRead i latch past hstatus
  · exact (later_of_schedule hschedule).stillRead i latch past hstatus

/-- **A start releases the threads that were there**, in a run in which the scheduler has come to
them before the latch is replaced and no overlapping call has replaced it by one at which threads
wait. -/
theorem releases_of_run {ms : List (FactoryMove τ)} (h : (machine τ).Run ms s)
    (hsafe : ∀ m ∈ ms, ReplacesSafely m) : ∀ m ∈ ms, Releases m s := by
  intro m hm before hbefore i hi latch hlatch
  obtain ⟨hpre, hstep, -⟩ := h.move_of_mem (I := Inv) (fun _ => inv_init)
    (fun _ _ _ hs hstep => inv_step hs hstep) hsafe hm
  obtain ⟨read, past, hstatus, hopen⟩ := released_of_inv hpre hstep hbefore hi
  have hread : m.post.shared.awaited i = some read := awaited_eq_some_iff.mpr ⟨past, hstatus⟩
  have hstays := h.stable (I := fun _ => True) (Q := fun s => s.shared.awaited i = some read)
    (fun _ _ => trivial) (fun _ _ _ _ _ => trivial) (fun _ _ _ _ hs => awaited_step hs) hm hread
  obtain rfl := Option.some.inj (hstays.symm.trans hlatch)
  exact hopen

/-- The actions of one caller who calls a method. -/
def call (method : Act) (steps : ℕ) : List (Label Unit) :=
  .caller () method :: List.replicate steps (.caller () .go)

/-- Two threads are scheduled before they are started. -/
def scheduledBefore : List (FactoryMove Unit) :=
  (machine Unit).moves (initial Unit)
    (call .newGetThread 2 ++ call .newPutThread 2 ++ [.created 1, .created 0] ++
      call .startAllThread 4 ++ [.created 0, .created 1])

theorem releases_of_run_scheduledBefore :
    ∃ s, (machine Unit).Run scheduledBefore s ∧ ∀ m ∈ scheduledBefore, Releases m s :=
  have hrun : (machine Unit).Run scheduledBefore _ := Machine.run_of_play (init_initial Unit) rfl
  ⟨_, hrun, releases_of_run hrun (by decide)⟩

/-- A thread is scheduled for the first time after the call that should have started it. -/
def scheduledAfter : List (FactoryMove Unit) :=
  (machine Unit).moves (initial Unit)
    (call .newGetThread 2 ++ call .startAllThread 4 ++ [.created 0])

/-- It awaits the new latch, which is closed. -/
theorem scheduledAfter_not_released :
    ∃ s, (machine Unit).Run scheduledAfter s ∧ ¬∀ m ∈ scheduledAfter, Releases m s :=
  have hrun : (machine Unit).Run scheduledAfter _ := Machine.run_of_play (init_initial Unit) rfl
  ⟨_, hrun, by decide⟩

end Run

end ReadWriteThreadFacotry

end LearnJava
