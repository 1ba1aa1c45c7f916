import LearnJava.Lock.DefaultThreadFacotry

/-!
# No thread is left behind at its latch

A thread waits at the latch that `newThread` finds in the field when it reads it for the second
time.  `startAllThread` only opens the latch in the field, so that a thread is sure to be started as
long as its latch is open or still in the field.

Two calls of `newThread` that both find an open latch replace it one after the other.  If the thread
of the first has been given the first new latch by then, the second takes it from the field before
it is opened, and nothing opens it any more.  This is the only way to be left behind: what is asked
for holds throughout a run exactly when no latch is replaced that is neither open nor free of
threads.
-/

namespace LearnJava

namespace DefaultThreadFacotry

/-! ## The property -/

section Property

variable {τ : Type}

/-- A thread waits at the latch, or `newThread` has read it for one. -/
def Held (s : FactoryState τ) (latch : Latch) : Prop :=
  (∃ thread ∈ s.shared.threads, thread.countDownLatch = latch) ∨
    ∃ t threadIndex, s.thread t = .creating threadIndex latch

/-- What is asked of a move. -/
structure Promises (m : FactoryMove τ) : Prop where
  /-- When a call of `startAllThread` returns, the threads that had been returned before it began
  wait at open latches. -/
  started : ∀ before, m.pre.thread m.label.1 = .ending before →
    ∀ thread ∈ before, m.post.shared.latches.Open thread.countDownLatch
  /-- A latch that holds a thread is open, or the next call of `startAllThread` opens it.  This asks
  more than that some later step can open it: a call of `startAllThread` that has already read the
  latch could still do so after it has left the field. -/
  noneLeft : ∀ latch, Held m.post latch →
    m.post.shared.latches.Open latch ∨ latch = m.post.shared.countDownLatch

/-- The latch that `newThread` replaces is open, or it holds no thread. -/
def ReplacesSafely (m : FactoryMove τ) : Prop :=
  m.pre.thread m.label.1 = .replacing →
    m.pre.shared.latches.Open m.pre.shared.countDownLatch ∨
      ¬Held m.pre m.pre.shared.countDownLatch

end Property

/-! ## The invariant -/

/-- The latch is open, or the next call of `startAllThread` opens it. -/
structure Shared.Settled (x : Shared) (latch : Latch) : Prop where
  created : latch < x.latches.created
  open_or_current : x.latches.Open latch ∨ latch = x.countDownLatch

/-- What holds for the factory. -/
structure Shared.Inv (x : Shared) : Prop where
  current : x.countDownLatch < x.latches.created
  oneShot : x.latches.OneShot
  settled : ∀ thread ∈ x.threads, x.Settled thread.countDownLatch
  returned : x.returned ⊆ x.threads

/-- What holds for a caller. -/
def Place.Inv (x : Shared) : Place → Prop
  | .creating _ latch => x.Settled latch
  | .returning thread => thread ∈ x.threads
  | .starting before => before ⊆ x.threads
  | .opening before latch => ∀ thread ∈ before, thread.countDownLatch < x.latches.created ∧
      (x.latches.Open thread.countDownLatch ∨ thread.countDownLatch = latch)
  | .ending before => ∀ thread ∈ before, thread.countDownLatch < x.latches.created ∧
      x.latches.Open thread.countDownLatch
  | _ => True

lemma Place.Free.inv {place : Place} (h : place.Free = true) (x : Shared) : place.Inv x := by
  cases place <;> trivial

/-- Latches and threads stay there, and what is open stays open. -/
structure Shared.Later (x x' : Shared) : Prop where
  latches : x.latches.Later x'.latches
  threads : x.threads ⊆ x'.threads

section Step

variable {x x' : Shared} {place place' other : Place} {a : Act} {latch : Latch}

lemma Effect.later (h : Effect x place a x' place') : x.Later x' := by
  cases h with
  | moved hplace hne hplace' => exact ⟨.refl _, List.Subset.refl _⟩
  | replaced => exact ⟨Latches.later_new _ 1, List.Subset.refl _⟩
  | took => exact ⟨.refl _, List.Subset.refl _⟩
  | created hthread => exact ⟨.refl _, List.subset_append_left _ _⟩
  | returned => exact ⟨.refl _, List.Subset.refl _⟩
  | began => exact ⟨.refl _, List.Subset.refl _⟩
  | read => exact ⟨.refl _, List.Subset.refl _⟩
  | opened => exact ⟨Latches.later_countDown _ _, List.Subset.refl _⟩
  | ended => exact ⟨.refl _, List.Subset.refl _⟩

/-- Only `countDownLatch = new CountDownLatch(1)` sets the field. -/
lemma Effect.current_eq (h : Effect x place a x' place') (hne : place ≠ .replacing) :
    x'.countDownLatch = x.countDownLatch := by
  cases h <;> first | rfl | exact absurd rfl hne

/-- A latch stays settled, unless it is replaced before it is open. -/
lemma Effect.settled (h : Effect x place a x' place') (hlatch : x.Settled latch)
    (hsafe : place = .replacing → latch = x.countDownLatch → x.latches.Open latch) :
    x'.Settled latch := by
  refine ⟨hlatch.created.trans_le h.later.latches.created_le, ?_⟩
  have hopen := h.later.latches.stillOpen latch hlatch.created
  by_cases hplace : place = .replacing
  · exact .inl (hopen (hlatch.open_or_current.elim id (hsafe hplace)))
  · rw [h.current_eq hplace]
    exact hlatch.open_or_current.imp_left hopen

lemma Effect.shared_inv (h : Effect x place a x' place') (hx : x.Inv) (hplace : place.Inv x)
    (hsafe : ∀ thread ∈ x.threads, place = .replacing → thread.countDownLatch = x.countDownLatch →
      x.latches.Open thread.countDownLatch) : x'.Inv := by
  have hsettled : ∀ thread ∈ x.threads, x'.Settled thread.countDownLatch :=
    fun thread ht => h.settled (hx.settled thread ht) (hsafe thread ht)
  cases h with
  | moved hplace hne hplace' => exact ⟨hx.current, hx.oneShot, hsettled, hx.returned⟩
  | replaced => exact ⟨Nat.lt_succ_self _, hx.oneShot.new, hsettled, hx.returned⟩
  | took => exact hx
  | @created threadIndex latch thread hthread =>
      refine ⟨hx.current, hx.oneShot, ?_,
        List.Subset.trans hx.returned (List.subset_append_left _ _)⟩
      intro other hother
      rcases List.mem_append.mp hother with hold | hnew
      · exact hsettled other hold
      · obtain rfl := List.mem_singleton.mp hnew
        have hlatch : x.Settled latch := hplace
        rw [hthread]
        exact ⟨hlatch.created, hlatch.open_or_current⟩
  | @returned thread =>
      have hthread : thread ∈ x.threads := hplace
      refine ⟨hx.current, hx.oneShot, hsettled, ?_⟩
      exact List.append_subset.mpr ⟨hx.returned, by simpa using hthread⟩
  | began => exact hx
  | read => exact hx
  | opened => exact ⟨hx.current, hx.oneShot.countDown _, hsettled, hx.returned⟩
  | ended => exact hx

lemma Effect.keeps_self (h : Effect x place a x' place') (hx : x.Inv) (hplace : place.Inv x) :
    place'.Inv x' := by
  cases h with
  | moved hplace hne hplace' => exact Place.Free.inv hplace' _
  | replaced => trivial
  | took => exact ⟨hx.current, .inr rfl⟩
  | created hthread => exact List.mem_append_right _ (List.mem_singleton_self _)
  | returned => trivial
  | began => exact hx.returned
  | read =>
      intro thread ht
      have hthread := hx.settled thread (hplace ht)
      exact ⟨hthread.created, hthread.open_or_current⟩
  | opened =>
      intro thread ht
      obtain ⟨hcreated, hopen | hlatch⟩ := hplace thread ht
      · exact ⟨hcreated, hopen.countDown⟩
      · rw [hlatch]
        exact ⟨hlatch ▸ hcreated, hx.oneShot.open_countDown _⟩
  | ended => trivial

/-- What the others have is not touched. -/
lemma Place.Inv.later (hother : other.Inv x) (h : x.Later x')
    (hsettled : ∀ threadIndex latch, other = .creating threadIndex latch → x'.Settled latch) :
    other.Inv x' := by
  cases other with
  | creating threadIndex latch => exact hsettled _ _ rfl
  | returning thread => exact h.threads hother
  | starting before => exact List.Subset.trans hother h.threads
  | opening before latch =>
      intro thread ht
      obtain ⟨hcreated, hlatch⟩ := hother thread ht
      exact ⟨hcreated.trans_le h.latches.created_le,
        hlatch.imp_left (h.latches.stillOpen _ hcreated)⟩
  | ending before =>
      intro thread ht
      obtain ⟨hcreated, hopen⟩ := hother thread ht
      exact ⟨hcreated.trans_le h.latches.created_le, h.latches.stillOpen _ hcreated hopen⟩
  | idle => trivial
  | testing => trivial
  | counting latch => trivial
  | replacing => trivial
  | indexing => trivial
  | taking threadIndex => trivial

end Step

/-! ## Runs -/

section Run

variable {τ : Type} [DecidableEq τ] {s s' : FactoryState τ} {a : τ × Act}

/-- The invariant of a run in which latches are replaced safely. -/
structure Inv (s : FactoryState τ) : Prop where
  shared : s.shared.Inv
  callers : ∀ t, (s.thread t).Inv s.shared

omit [DecidableEq τ] in
/-- All latches that hold a thread are settled. -/
lemma Inv.settled {latch : Latch} (hs : Inv s) (hlatch : Held s latch) :
    s.shared.Settled latch := by
  rcases hlatch with ⟨thread, ht, rfl⟩ | ⟨t, threadIndex, ht⟩
  · exact hs.shared.settled thread ht
  · have hcaller := hs.callers t
    rw [ht] at hcaller
    exact hcaller

lemma inv_init (h : (machine τ).init s) : Inv s := by
  obtain ⟨hshared, hcallers⟩ := h
  refine ⟨?_, fun t => ?_⟩
  · rw [show s.shared = Shared.initial from hshared]
    exact ⟨Nat.zero_lt_one, Latches.oneShot_empty.new, nofun, fun _ ht => ht⟩
  · rw [show s.thread t = .idle from hcallers t]
    trivial

/-- A move that replaces safely keeps the invariant. -/
lemma inv_step (hs : Inv s) (h : (machine τ).step s a = some s')
    (hsafe : ReplacesSafely ⟨s, a, s'⟩) : Inv s' := by
  obtain ⟨x, place, heffect, rfl⟩ := step_cases h
  have hopen : ∀ latch, Held s latch → s.thread a.1 = .replacing →
      latch = s.shared.countDownLatch → s.shared.latches.Open latch := by
    rintro latch hheld hplace rfl
    exact (hsafe hplace).resolve_right (not_not_intro hheld)
  refine ⟨?_, Threads.State.forall_after (J := fun x place => Place.Inv x place) ?_ ?_⟩
  · exact heffect.shared_inv hs.shared (hs.callers a.1) fun thread ht =>
      hopen _ (.inl ⟨thread, ht, rfl⟩)
  · exact heffect.keeps_self hs.shared (hs.callers a.1)
  · intro u _
    apply (hs.callers u).later heffect.later
    intro threadIndex latch hu
    have hheld : Held s latch := .inr ⟨u, threadIndex, hu⟩
    exact heffect.settled (hs.settled hheld) (hopen latch hheld)

/-- A latch that is replaced is not settled, unless it is open. -/
lemma replacesSafely_of_promises (hs : Inv s) (h : (machine τ).step s a = some s')
    (hpromises : Promises ⟨s, a, s'⟩) : ReplacesSafely ⟨s, a, s'⟩ := by
  intro hplace
  change s.thread a.1 = .replacing at hplace
  obtain ⟨t, action⟩ := a
  obtain ⟨x, place, heffect, rfl⟩ := step_cases h
  by_contra hunsafe
  obtain ⟨hclosed, hheld⟩ := not_or.mp hunsafe
  rw [not_not] at hheld
  rw [hplace] at heffect
  cases heffect with
  | moved hfree hne hfree' => exact hne rfl
  | replaced =>
      have hheld' : Held (s.after t ({ s.shared with
          latches := s.shared.latches.new 1
          countDownLatch := s.shared.latches.created }, .indexing)) s.shared.countDownLatch := by
        apply hheld.imp id
        rintro ⟨u, threadIndex, hu⟩
        have hne : u ≠ t := by
          rintro rfl
          exact absurd (hplace.symm.trans hu) nofun
        exact ⟨u, threadIndex, by simpa [hne] using hu⟩
      rcases hpromises.noneLeft _ hheld' with hopen | hcurrent
      · exact hclosed ((Latches.open_new_iff 1 hs.shared.current).mp hopen)
      · exact hs.shared.current.ne hcurrent

lemma promises_of_inv (hs : Inv s) (h : (machine τ).step s a = some s') (hs' : Inv s') :
    Promises ⟨s, a, s'⟩ := by
  refine ⟨fun before hplace thread ht => ?_,
    fun latch hlatch => (hs'.settled hlatch).open_or_current⟩
  change s.thread a.1 = .ending before at hplace
  have hcaller := hs.callers a.1
  rw [hplace] at hcaller
  obtain ⟨hcreated, hopen⟩ := hcaller thread ht
  obtain ⟨x, place, heffect, rfl⟩ := step_cases h
  exact heffect.later.latches.stillOpen _ hcreated hopen

/-- **No thread is left behind** in a run, and every call of `startAllThread` starts the threads
that were there, exactly when `newThread` only replaces latches that are open or hold no thread. -/
theorem none_left_behind_iff {ms : List (FactoryMove τ)} (h : (machine τ).Run ms s) :
    (∀ m ∈ ms, Promises m) ↔ ∀ m ∈ ms, ReplacesSafely m := by
  refine h.moves_iff (I := Inv) (fun _ => inv_init) (fun _ _ _ hs hstep => inv_step hs hstep) ?_
  intro s a s' hs hstep
  exact ⟨replacesSafely_of_promises hs hstep,
    fun hsafe => promises_of_inv hs hstep (inv_step hs hstep hsafe)⟩

/-- The actions of a caller that calls a method alone. -/
def call (t : Duo) (method : Act) (steps : ℕ) : List (Duo × Act) :=
  (t, method) :: List.replicate steps (t, .go)

/-- A thread is created and started, and then another one. -/
def inTurns : List (FactoryMove Duo) :=
  (machine Duo).moves (initial Duo)
    (call .first .newThread 6 ++ call .second .startAllThread 3 ++ call .second .newThread 7 ++
      call .first .startAllThread 3)

theorem none_left_behind_iff_inTurns :
    (∀ m ∈ inTurns, Promises m) ↔ ∀ m ∈ inTurns, ReplacesSafely m :=
  none_left_behind_iff (Machine.run_of_play (init_initial Duo) rfl)

/-- After a call of `startAllThread` two callers both find that the latch is open. -/
def bothReplace : List (FactoryMove Duo) :=
  (machine Duo).moves (initial Duo)
    (call .first .startAllThread 3 ++ call .first .newThread 2 ++ call .second .newThread 2 ++
      List.replicate 5 (.first, .go) ++ [(.second, .go)] ++ call .first .startAllThread 3)

/-- The thread of the first waits at a latch that is not opened by the last call. -/
theorem bothReplace_leaves_behind :
    (∃ s, (machine Duo).Run bothReplace s) ∧ ¬∀ m ∈ bothReplace, Promises m := by
  refine ⟨⟨_, Machine.run_of_play (init_initial Duo) rfl⟩, fun h => ?_⟩
  have hlast := h (bothReplace.getLast (by decide)) (List.getLast_mem _)
  have hopen := hlast.started [newCreatedThread 0 1 true] (by decide) _ (List.mem_singleton_self _)
  exact absurd hopen (by decide)

end Run

end DefaultThreadFacotry

end LearnJava
