import LearnJava.ThreadTest.ThreadGroupThreadFactory

/-!
# When `main` of `ThreadGroupTest2` comes to its end

While `main` is in the block of a group, no thread leaves the group; so its test and its `wait` are
one step for the group itself.  They are not for the subgroup: `waitOnThreadGroup` of the first
group waits as well if only threads of the second one are left, and then nobody notifies.  This is
the only way for `main` to wait for good (`main_ends_iff`).  `destroyThreadGroup` tests after each
`wait`, and takes the second group first, whence `destroy` never finds a thread
(`destroyThreadGroup_safe`).
-/

namespace LearnJava

namespace ThreadGroupTest2

/-! ## The invariant -/

/-- How many threads `main` has started. -/
def Place.startedThreads (n : ℕ) : Place → ℕ
  | .creating index => index
  | _ => n

/-- `main` has started `countDownThread`. -/
def Place.startedCountDown : Place → Bool
  | .creating _ | .created => false
  | _ => true

/-- `main` has destroyed the group. -/
def Place.hasDestroyed : Place → Group → Bool
  | .entering .destroyThreadGroup .first, .second => true
  | .testing .destroyThreadGroup .first, .second => true
  | .deciding .destroyThreadGroup .first, .second => true
  | .waiting .destroyThreadGroup .first, .second => true
  | .finished, _ => true
  | _, _ => false

/-- `main` is going to wait, or waits. -/
def Place.Waits (place : Place) (call : Call) (g : Group) : Prop :=
  place = .deciding call g ∨ place = .waiting call g

section Group

variable {n : ℕ}

/-- No thread of the group is active. -/
def Empty (threadId : ℕ) (worker : Fin n → Worker) (g : Group) : Prop :=
  ∀ c : Fin n, groupOf (threadId + c) = g → (worker c).isActive = false

variable {threadId : ℕ} {s s' : System n} {worker : Fin n → Worker} {g : Group} {c : Fin n}
  {w : Worker}

lemma nthreads_eq_zero : nthreads threadId s g = 0 ↔ Empty threadId s.worker g := by
  simp only [nthreads, Finset.card_eq_zero, Finset.filter_eq_empty_iff, Finset.mem_univ,
    true_implies, not_and, Bool.not_eq_true, Empty]

/-- The threads of another group do not matter. -/
lemma empty_update_of_ne (h : groupOf (threadId + c) ≠ g) :
    Empty threadId (Function.update worker c w) g ↔ Empty threadId worker g := by
  refine forall_congr' fun d => imp_congr_right fun hd => ?_
  rw [Function.update_of_ne (by rintro rfl; exact h hd)]

/-- Nor does a step at which a thread remains active. -/
lemma empty_update_of_active (h : w.isActive = (worker c).isActive) :
    Empty threadId (Function.update worker c w) g ↔ Empty threadId worker g := by
  refine forall_congr' fun d => imp_congr_right fun _ => ?_
  rcases eq_or_ne d c with rfl | hne
  · rw [Function.update_self, h]
  · rw [Function.update_of_ne hne]

/-- A thread that ends leaves no group less empty. -/
lemma Empty.gone (h : Empty threadId worker g) :
    Empty threadId (Function.update worker c .gone) g := by
  intro d hd
  rcases eq_or_ne d c with rfl | hne
  · rw [Function.update_self]
    rfl
  · rw [Function.update_of_ne hne]
    exact h d hd

lemma Works.ne_unstarted {w' : Worker} (h : Works s w w') : w ≠ .unstarted ∧ w' ≠ .unstarted := by
  cases h <;> decide

lemma Works.isActive {w' : Worker} (h : Works s w w') : w'.isActive = w.isActive := by
  cases h <;> rfl

/-- What holds at any time. -/
structure Inv (threadId : ℕ) (s : System n) : Prop where
  unstarted : ∀ c, s.worker c = .unstarted ↔ s.place.startedThreads n ≤ c
  started : s.started = s.place.startedCountDown
  destroyed : ∀ g, s.destroyed g = s.place.hasDestroyed g
  notFailed : s.place ≠ .failed
  /-- Where `main` waits, a thread is there that will notify it, with one exception. -/
  justified : ∀ call g, s.place.Waits call g → (call, g) ≠ (.waitOnThreadGroup, .first) →
    ¬Empty threadId s.worker g
  empty : ∀ g, s.destroyed g = true → Empty threadId s.worker g

/-- A group that is not destroyed has no thread if nothing counts. -/
lemma empty_of_activeCount (hcount : activeCount threadId s g = 0)
    (hnot : s.destroyed g = false) : Empty threadId s.worker g := by
  rw [← nthreads_eq_zero]
  cases g with
  | first =>
      simp only [activeCount, hnot, Bool.false_eq_true, if_false] at hcount
      exact (Nat.add_eq_zero_iff.mp hcount).1
  | second =>
      simp only [activeCount, hnot, Bool.false_eq_true, if_false] at hcount
      exact hcount

/-- `main` goes on to wait for the threads of the group itself. -/
lemma not_empty_of_decides (hs : Inv threadId s) {call : Call}
    (hplace : s.place = .testing call g) (hcount : 0 < activeCount threadId s g)
    (hne : (call, g) ≠ (.waitOnThreadGroup, .first)) : ¬Empty threadId s.worker g := by
  rw [← nthreads_eq_zero, ← ne_eq, ← Nat.pos_iff_ne_zero]
  have hdestroyed := hs.destroyed .second
  rw [hplace] at hdestroyed
  cases g with
  | second =>
      simp only [activeCount] at hcount
      split_ifs at hcount with hsecond
      · exact absurd hcount (lt_irrefl 0)
      · exact hcount
  | first =>
      cases call with
      | waitOnThreadGroup => exact absurd rfl hne
      | destroyThreadGroup =>
          simp only [activeCount, show s.destroyed .second = true from hdestroyed, if_true,
            add_zero] at hcount
          split_ifs at hcount with hfirst
          · exact absurd hcount (lt_irrefl 0)
          · exact hcount

lemma inv_init (h : (machine threadId n).init s) : Inv threadId s := by
  obtain rfl : s = .initial n := h
  refine ⟨fun c => by simp [System.initial, Place.startedThreads], rfl, fun g => rfl,
    by simp [System.initial], ?_, ?_⟩
  · rintro call g (h | h) <;> cases h
  · rintro g ⟨⟩

/-- What does not change when `main` comes from one place to another. -/
structure Same (n : ℕ) (old place : Place) : Prop where
  startedThreads : ∀ c : Fin n, place.startedThreads n ≤ c ↔ old.startedThreads n ≤ c
  startedCountDown : place.startedCountDown = old.startedCountDown
  hasDestroyed : ∀ g, place.hasDestroyed g = old.hasDestroyed g
  notFailed : place ≠ .failed

lemma same_follows {old place : Place} (h : Follows threadId s old place) : Same n old place := by
  cases h with
  | allStarted hle =>
      refine ⟨fun c => ?_, rfl, fun g => rfl, by simp⟩
      have hlt := c.isLt
      simp only [Place.startedThreads]
      omega
  | enters call g => exact ⟨fun c => Iff.rfl, rfl, by cases call <;> cases g <;> decide, by simp⟩
  | decides call g => exact ⟨fun c => Iff.rfl, rfl, by cases call <;> cases g <;> decide, by simp⟩
  | passes g => cases g <;> exact ⟨fun c => Iff.rfl, rfl, by decide, by decide⟩
  | waits call g => exact ⟨fun c => Iff.rfl, rfl, by cases call <;> cases g <;> decide, by simp⟩

lemma same_awake (call : Call) (g : Group) :
    Same n (.waiting call g) (.awake call g) := by
  cases call <;> cases g <;> exact ⟨fun c => Iff.rfl, rfl, by decide, by decide⟩

lemma same_interrupted (call : Call) (g : Group) :
    Same n (.waiting call g) (.interrupted call g) := by
  cases call <;> cases g <;> exact ⟨fun c => Iff.rfl, rfl, by decide, by decide⟩

/-- `main` comes to another place. -/
lemma Inv.move (hs : Inv threadId s) {place : Place} (hsame : Same n s.place place)
    (hjustified : ∀ call g, place.Waits call g → (call, g) ≠ (.waitOnThreadGroup, .first) →
      ¬Empty threadId s.worker g) : Inv threadId { s with place } :=
  ⟨fun c => (hs.unstarted c).trans (hsame.startedThreads c).symm,
    hs.started.trans hsame.startedCountDown.symm,
    fun g => (hs.destroyed g).trans (hsame.hasDestroyed g).symm, hsame.notFailed, hjustified,
    hs.empty⟩

lemma Inv.follow (hs : Inv threadId s) {place : Place} (h : Follows threadId s s.place place) :
    Inv threadId { s with place } := by
  refine hs.move (same_follows h) fun call g hwaits hne => ?_
  generalize hold : s.place = old at h
  cases h with
  | allStarted => rcases hwaits with hwaits | hwaits <;> cases hwaits
  | enters => rcases hwaits with hwaits | hwaits <;> cases hwaits
  | passes g' => cases g' <;> rcases hwaits with hwaits | hwaits <;> cases hwaits
  | decides call' g' hcount =>
      rcases hwaits with hwaits | hwaits <;> cases hwaits
      exact not_empty_of_decides hs hold hcount hne
  | waits call' g' =>
      rcases hwaits with hwaits | hwaits <;> cases hwaits
      exact hs.justified _ _ (.inl hold) hne

lemma not_waits_awake {call call' : Call} {g g' : Group} :
    ¬(Place.awake call g).Waits call' g' := by
  cases call <;> cases g <;> rintro (h | h) <;> cases h

lemma not_waits_interrupted {call call' : Call} {g g' : Group} :
    ¬(Place.interrupted call g).Waits call' g' := by
  cases call <;> rintro (h | h) <;> cases h

/-- A thread that is active was started. -/
lemma unstarted_update {d : Fin n} (hc : worker c ≠ .unstarted) (hw : w ≠ .unstarted) :
    Function.update worker c w d = .unstarted ↔ worker d = .unstarted := by
  rcases eq_or_ne d c with rfl | hne
  · rw [Function.update_self]
    exact iff_of_false hw hc
  · rw [Function.update_of_ne hne]

/-- Nothing is destroyed as long as `main` starts threads. -/
lemma Inv.not_destroyed (hs : Inv threadId s)
    (h : s.place.hasDestroyed g = false) : s.destroyed g = false := (hs.destroyed g).trans h

/-- **`destroy` never throws.** -/
lemma Inv.destroy (hs : Inv threadId s) (hplace : s.place = .testing .destroyThreadGroup g)
    (hcount : activeCount threadId s g = 0) : Inv threadId (destroy threadId s g) := by
  have hnot : s.destroyed g = false := by
    refine hs.not_destroyed ?_
    rw [hplace]
    cases g <;> rfl
  have hempty : Empty threadId s.worker g := empty_of_activeCount hcount hnot
  unfold ThreadGroupTest2.destroy
  rw [if_neg (by simp [hnot, nthreads_eq_zero.mpr hempty])]
  have hstarted := hs.unstarted
  have hcountDown := hs.started
  rw [hplace] at hstarted hcountDown
  refine ⟨fun c => ?_, ?_, fun g' => ?_, by cases g <;> simp [Place.next],
    fun call g' hwaits => ?_, fun g' hg' => ?_⟩
  · rw [hstarted c]
    cases g <;> rfl
  · rw [hcountDown]
    cases g <;> rfl
  · have hold := hs.destroyed g'
    rw [hplace] at hold
    cases g <;> cases g' <;> first | rfl | exact hold
  · cases g <;> rcases hwaits with hwaits | hwaits <;> cases hwaits
  · rcases eq_or_ne g' g with rfl | hne
    · exact hempty
    · exact hs.empty g' (by simpa [hne] using hg')

/-- **Every move keeps the invariant.** -/
lemma inv_step {a : Act n} (hs : Inv threadId s)
    (h : (machine threadId n).step s a = some s') : Inv threadId s' := by
  cases step_cases h with
  | @starts index hplace hlt =>
      have hstarted := hs.unstarted
      have hcountDown := hs.started
      have hdestroyed := hs.destroyed
      rw [hplace] at hstarted hcountDown hdestroyed
      refine ⟨fun c => ?_, hcountDown, hdestroyed, by simp, ?_, fun g hg => ?_⟩
      · have hc := hstarted c
        simp only [Place.startedThreads] at hc ⊢
        rcases eq_or_ne c ⟨index, hlt⟩ with rfl | hne
        · rw [Function.update_self]
          simp
        · rw [Function.update_of_ne hne, hc]
          have hval : (c : ℕ) ≠ index := fun heq => hne (Fin.ext heq)
          omega
      · rintro call g (hwaits | hwaits) <;> cases hwaits
      · rw [show s.destroyed g = false from hdestroyed g] at hg
        cases hg
  | startsCountDown hplace =>
      have hstarted := hs.unstarted
      have hdestroyed := hs.destroyed
      rw [hplace] at hstarted hdestroyed
      refine ⟨hstarted, rfl, fun g => (hdestroyed g).trans (by cases g <;> rfl), by simp, ?_,
        hs.empty⟩
      rintro call g (hwaits | hwaits) <;> cases hwaits
  | follows hfollows => exact hs.follow hfollows
  | destroys hplace hcount => exact hs.destroy hplace hcount
  | countsDown =>
      exact ⟨hs.unstarted, hs.started, hs.destroyed, hs.notFailed, hs.justified, hs.empty⟩
  | @works c w hworks =>
      have hne := hworks.ne_unstarted
      refine ⟨fun d => (unstarted_update hne.1 hne.2).trans (hs.unstarted d), hs.started,
        hs.destroyed, hs.notFailed, fun call g hwaits hnot => ?_,
        fun g hg => (empty_update_of_active hworks.isActive).mpr (hs.empty g hg)⟩
      rw [empty_update_of_active hworks.isActive]
      exact hs.justified call g hwaits hnot
  | @leaves c hreturned hfree hnot =>
      have hunstarted : s.worker c ≠ .unstarted := by simp [hreturned]
      refine ⟨fun d => (unstarted_update hunstarted (by decide)).trans (hs.unstarted d),
        hs.started, hs.destroyed, hs.notFailed, fun call g hwaits hne => ?_,
        fun g hg => (hs.empty g hg).gone⟩
      rcases eq_or_ne (groupOf (threadId + c)) g with rfl | hother
      · obtain hdeciding | hwaiting := hwaits
        · exact absurd (by rw [show s.place = _ from hdeciding]; rfl) hfree
        · exact fun hempty => hnot call hwaiting (nthreads_eq_zero.mpr hempty)
      · rw [empty_update_of_ne hother]
        exact hs.justified call g hwaits hne
  | @notifies c call hreturned hplace =>
      have hunstarted : s.worker c ≠ .unstarted := by simp [hreturned]
      have hmoved := hs.move (hplace ▸ same_awake call (groupOf (threadId + c)))
        fun _ _ hwaits => absurd hwaits not_waits_awake
      exact ⟨fun d => (unstarted_update hunstarted (by decide)).trans (hmoved.unstarted d),
        hmoved.started, hmoved.destroyed, hmoved.notFailed,
        fun _ _ hwaits => absurd hwaits not_waits_awake, fun g hg => (hmoved.empty g hg).gone⟩
  | wakes hplace =>
      exact hs.move (hplace ▸ same_awake _ _) fun _ _ hwaits => absurd hwaits not_waits_awake
  | interrupts hplace =>
      exact hs.move (hplace ▸ same_interrupted _ _) fun _ _ hwaits =>
        absurd hwaits not_waits_interrupted

end Group

/-! ## Finitely many moves -/

/-- The moves a thread has left, the one of `main` that it causes when it ends counted as two. -/
def Worker.left : Worker → ℕ
  | .unstarted | .gone => 0
  | .awaiting => 5
  | .sleeping => 4
  | .returned => 3

/-- The blocks `main` has before it, from the one of a call, four steps each. -/
def Place.blocks : Call → Group → ℕ
  | .waitOnThreadGroup, .first => 12
  | .waitOnThreadGroup, .second => 8
  | .destroyThreadGroup, .second => 4
  | .destroyThreadGroup, .first => 0

/-- The steps `main` has left. -/
def Place.left (n : ℕ) : Place → ℕ
  | .creating index => 6 * (n - index) + 18
  | .created => 17
  | .entering call g => blocks call g + 4
  | .testing call g => blocks call g + 3
  | .deciding call g => blocks call g + 2
  | .waiting call g => blocks call g + 1
  | .finished | .failed => 0

section Ends

variable {n threadId : ℕ} {s s' : System n} {a : Act n}

/-- What is left to be done. -/
def distance (s : System n) : ℕ :=
  s.place.left n + (if s.countedDown then 0 else 1) + ∑ c, (s.worker c).left

lemma left_next (call : Call) (g : Group) : (Place.next call g).left n ≤ Place.blocks call g := by
  cases call <;> cases g <;> simp [Place.next, Place.left, Place.blocks]

lemma left_awake (call : Call) (g : Group) :
    (Place.awake call g).left n ≤ (Place.waiting call g).left n + 2 := by
  cases call <;> cases g <;> simp [Place.awake, Place.next, Place.left, Place.blocks]

lemma left_follows {old place : Place} (h : Follows threadId s old place) :
    place.left n < old.left n := by
  cases h with
  | passes g =>
      exact (left_next .waitOnThreadGroup g).trans_lt (by simp [Place.left])
  | _ => simp [Place.left]

lemma left_destroy {g : Group} (hplace : s.place = .testing .destroyThreadGroup g) :
    distance (destroy threadId s g) < distance s := by
  have hle := left_next (n := n) .destroyThreadGroup g
  unfold destroy distance
  rw [hplace]
  split_ifs <;> simp only [Place.left] at hle ⊢ <;> omega

lemma Works.left_lt {w w' : Worker} (h : Works s w w') : w'.left < w.left := by
  cases h <;> decide

/-- **Every move of the threads lowers the distance.** -/
lemma distance_lt (hs : Inv threadId s) (ha : a.IsOwn)
    (h : (machine threadId n).step s a = some s') : distance s' < distance s := by
  cases step_cases h with
  | @starts index hplace hlt =>
      have hsum := sum_update_add Worker.left s.worker ⟨index, hlt⟩ .awaiting
      have hworker : s.worker ⟨index, hlt⟩ = .unstarted := by
        rw [hs.unstarted, hplace]
        exact le_rfl
      simp only [distance, hplace, Place.left, hworker, Worker.left] at hsum ⊢
      omega
  | startsCountDown hplace =>
      simp only [distance, hplace, Place.left, Place.blocks]
      omega
  | follows hfollows =>
      have hlt := left_follows hfollows
      simp only [distance]
      omega
  | destroys hplace => exact left_destroy hplace
  | countsDown hstarted hnot =>
      simp [distance, hnot]
  | @works c w hworks =>
      have hsum := sum_update_add Worker.left s.worker c w
      have hlt := hworks.left_lt
      simp only [distance]
      omega
  | @leaves c hreturned =>
      have hsum := sum_update_add Worker.left s.worker c .gone
      rw [hreturned] at hsum
      simp only [distance, Worker.left] at hsum ⊢
      omega
  | @notifies c call hreturned hplace =>
      have hsum := sum_update_add Worker.left s.worker c .gone
      have hle := left_awake (n := n) call (groupOf (threadId + c))
      rw [hreturned] at hsum
      simp only [distance, hplace, Worker.left] at hsum ⊢
      omega
  | wakes => exact absurd ha id
  | interrupts => exact absurd ha id

/-- `main` waits for threads of the first group, and none is left that could notify it. -/
def Missed (threadId : ℕ) (s : System n) : Prop :=
  s.place = .waiting .waitOnThreadGroup .first ∧ nthreads threadId s .first = 0

/-- `main` can go on unless it waits or has come to its end. -/
lemma stepMain_isSome (hs : Inv threadId s) : stepMain threadId s ≠ none ∨
    (∃ call g, s.place = .waiting call g) ∨ s.place = .finished := by
  cases hplace : s.place with
  | waiting call g => exact .inr (.inl ⟨call, g, rfl⟩)
  | finished => exact .inr (.inr rfl)
  | failed => exact absurd hplace hs.notFailed
  | creating index =>
      left
      simp only [stepMain, hplace]
      split_ifs <;> exact Option.some_ne_none _
  | testing call g =>
      left
      simp only [stepMain, hplace]
      cases call <;> split_ifs <;> exact Option.some_ne_none _
  | _ =>
      left
      simp only [stepMain, hplace]
      exact Option.some_ne_none _

/-- Where nothing is possible and `main` waits, all threads have left their groups. -/
lemma gone_of_quiet (hs : Inv threadId s) (hquiet : (machine threadId n).Quiet Act.IsOwn s)
    {call : Call} {g : Group} (hplace : s.place = .waiting call g) (c : Fin n) :
    s.worker c = .gone := by
  have hdown : s.countedDown = true := by
    by_contra hnot
    have hstep := hquiet .countDown trivial
    have hstarted := hs.started
    rw [hplace] at hstarted
    simp [machine, step, hstarted, Place.startedCountDown, hnot] at hstep
  have hstarted := hs.unstarted c
  rw [hplace] at hstarted
  cases hworker : s.worker c with
  | gone => rfl
  | unstarted => exact absurd (hstarted.mp hworker) (not_le.mpr c.isLt)
  | awaiting =>
      have hstep := hquiet (.work c) trivial
      simp [machine, step, work, hworker, hdown] at hstep
  | sleeping =>
      have hstep := hquiet (.work c) trivial
      simp [machine, step, work, hworker] at hstep
  | returned =>
      have hstep := hquiet (.exit c) trivial
      simp [machine, step, exit, hworker, hplace, Place.holds] at hstep

/-- **Where nothing is possible.** -/
lemma ended_of_quiet (hs : Inv threadId s) (hquiet : (machine threadId n).Quiet Act.IsOwn s) :
    s.place = .finished ∨ Missed threadId s := by
  obtain hgoes | ⟨call, g, hplace⟩ | hfinished := stepMain_isSome hs
  · exact absurd (hquiet .main trivial) hgoes
  · right
    have hempty : ∀ g, Empty threadId s.worker g := fun g c _ => by
      rw [gone_of_quiet hs hquiet hplace c]
      rfl
    have hcall : (call, g) = (.waitOnThreadGroup, .first) := by
      by_contra hne
      exact hs.justified call g (.inr hplace) hne (hempty g)
    obtain ⟨rfl, rfl⟩ := Prod.mk.inj hcall
    exact ⟨hplace, nthreads_eq_zero.mpr (hempty .first)⟩
  · exact .inl hfinished

/-- A notification that is missed does not come later. -/
lemma missed_step (ha : a.IsOwn) (h : (machine threadId n).step s a = some s')
    (hs : Missed threadId s) : Missed threadId s' := by
  obtain ⟨hplace, hzero⟩ := hs
  have hempty : Empty threadId s.worker .first := nthreads_eq_zero.mp hzero
  cases step_cases h with
  | starts hother => rw [hplace] at hother; cases hother
  | startsCountDown hother => rw [hplace] at hother; cases hother
  | follows hfollows => rw [hplace] at hfollows; cases hfollows
  | destroys hother => rw [hplace] at hother; cases hother
  | countsDown => exact ⟨hplace, nthreads_eq_zero.mpr hempty⟩
  | works hworks =>
      exact ⟨hplace, nthreads_eq_zero.mpr
        ((empty_update_of_active hworks.isActive).mpr hempty)⟩
  | leaves => exact ⟨hplace, nthreads_eq_zero.mpr hempty.gone⟩
  | @notifies c call hreturned hwaiting =>
      rw [hplace] at hwaiting
      have hinactive := hempty c (Place.waiting.inj hwaiting).2.symm
      rw [hreturned] at hinactive
      cases hinactive
  | wakes => exact absurd ha id
  | interrupts => exact absurd ha id

end Ends

/-! ## The results -/

section Runs

variable {n threadId : ℕ} {s : System n}

/-- **`destroyThreadGroup` destroys empty groups.**  In every run, interrupts of `main` and returns
of `wait` without a notification included: `destroy` never throws, a group that is destroyed has no
thread, and when `main` has come to its end all threads have. -/
theorem destroyThreadGroup_safe {ms : List (Move (System n) (Act n))}
    (h : (machine threadId n).Run ms s) :
    s.place ≠ .failed ∧ (∀ g, s.destroyed g = true → nthreads threadId s g = 0) ∧
      (s.place = .finished → ∀ g, s.destroyed g = true) ∧
      (s.place = .finished → ∀ c, s.worker c = .gone) := by
  have hs : Inv threadId s := h.invariant (fun _ => inv_init) fun _ _ _ => inv_step
  have hdestroyed : s.place = .finished → ∀ g, s.destroyed g = true := fun hplace g => by
    rw [hs.destroyed, hplace]
    rfl
  refine ⟨hs.notFailed, fun g hg => nthreads_eq_zero.mpr (hs.empty g hg), hdestroyed,
    fun hplace c => ?_⟩
  have hinactive := hs.empty _ (hdestroyed hplace (groupOf (threadId + c))) c rfl
  have hstarted := hs.unstarted c
  rw [hplace] at hstarted
  cases hworker : s.worker c with
  | gone => rfl
  | unstarted => exact absurd (hstarted.mp hworker) (not_le.mpr c.isLt)
  | _ => rw [hworker] at hinactive; cases hinactive

/-- **When `main` ends.**  As long as `wait` only returns by a notification, every run can be
carried on until nothing is possible, and then `main` has come to its end exactly if it has never
begun to wait for the first group when no thread of this group itself was left. -/
theorem main_ends_iff {ms : List (Move (System n) (Act n))} (h : (machine threadId n).Run ms s)
    (hown : ∀ m ∈ ms, m.label.IsOwn) :
    (∃ ms' s', (machine threadId n).Run (ms ++ ms') s' ∧ (∀ m ∈ ms', m.label.IsOwn) ∧
      (machine threadId n).Quiet Act.IsOwn s') ∧
    ((machine threadId n).Quiet Act.IsOwn s →
      (s.place = .finished ↔ ∀ m ∈ ms, ¬Missed threadId m.post) ∧
      (s.place ≠ .finished → Missed threadId s ∧ ∀ c, s.worker c = .gone)) := by
  have hs : Inv threadId s := h.invariant (fun _ => inv_init) fun _ _ _ => inv_step
  refine ⟨?_, fun hquiet => ⟨⟨fun hplace m hm hmissed => ?_, fun hnever => ?_⟩, fun hplace => ?_⟩⟩
  · exact h.exists_quiet (I := Inv threadId) Act.IsOwn distance (fun _ => inv_init)
      (fun _ _ _ => inv_step) fun _ _ _ => distance_lt
  · have hend : Missed threadId s := h.stable_of_moves (I := fun _ => True)
      (C := fun m => m.label.IsOwn) (fun _ _ => trivial) (fun _ _ _ _ _ _ => trivial)
      (fun _ _ _ _ hstep ha => missed_step ha hstep) hown hm hmissed
    rw [hend.1] at hplace
    cases hplace
  · refine (ended_of_quiet hs hquiet).resolve_right fun hmissed => ?_
    cases h with
    | start hinit =>
        obtain rfl : s = .initial n := hinit
        cases hmissed.1
    | snoc hrun hstep =>
        exact hnever _ (List.mem_append_right _ (List.mem_singleton_self _)) hmissed
  · have hmissed := (ended_of_quiet hs hquiet).resolve_left hplace
    exact ⟨hmissed, gone_of_quiet hs hquiet hmissed.1⟩

/-- Two threads; `main` is interrupted, its next `wait` returns without a notification, and then it
destroys the two groups. -/
def destroyingRun : List (Act 2) :=
  let c : Fin 2 := ⟨0, Nat.zero_lt_two⟩
  let d : Fin 2 := ⟨1, Nat.one_lt_two⟩
  [.main, .main, .main, .main, .main, .main, .main, .interrupt, .main, .main, .main, .wake, .main,
    .main, .countDown, .work d, .work d, .exit d, .main, .main, .main, .main, .work c, .work c,
    .exit c, .main]

/-- The state it comes to. -/
abbrev afterDestroying : System 2 :=
  ((machine 0 2).play (.initial 2) destroyingRun).getD (.initial 2)

theorem destroyThreadGroup_safe_destroyingRun :
    afterDestroying.place = .finished ∧ (∀ g, afterDestroying.destroyed g = true) ∧
      ∀ c, afterDestroying.worker c = .gone := by
  obtain ⟨-, -, hdestroyed, hgone⟩ := destroyThreadGroup_safe (s := afterDestroying)
    (Machine.run_getD_of_play (M := machine 0 2) (.initial 2) rfl (by decide +kernel))
  have hplace : afterDestroying.place = .finished := by decide +kernel
  exact ⟨hplace, hdestroyed hplace, hgone hplace⟩

/-- Two threads; the one in the first group ends before `main` waits for it, and the other one is
counted. -/
def missedRun : List (Act 2) :=
  let c : Fin 2 := ⟨0, Nat.zero_lt_two⟩
  let d : Fin 2 := ⟨1, Nat.one_lt_two⟩
  [.main, .main, .main, .main, .countDown, .work c, .work c, .exit c, .main, .main, .main, .work d,
    .work d, .exit d]

theorem main_ends_iff_missedRun :
    (((machine 0 2).play (.initial 2) missedRun).getD (.initial 2)).place =
        .waiting .waitOnThreadGroup .first ∧
      ∃ ms' s', (machine 0 2).Run ((machine 0 2).moves (.initial 2) missedRun ++ ms') s' ∧
        (∀ m ∈ ms', m.label.IsOwn) ∧ (machine 0 2).Quiet Act.IsOwn s' := by
  refine ⟨by decide +kernel, (main_ends_iff (Machine.run_getD_of_play (M := machine 0 2)
    (.initial 2) rfl (by decide +kernel)) fun m hm => ?_).1⟩
  have hlabel := Machine.label_mem_of_mem_moves hm
  have hall : ∀ a ∈ missedRun, a.IsOwn := by
    simp [missedRun, Act.IsOwn]
  exact hall _ hlabel

end Runs

end ThreadGroupTest2

end LearnJava
