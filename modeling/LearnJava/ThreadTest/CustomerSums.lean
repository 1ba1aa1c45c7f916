import LearnJava.ThreadTest.Customer

/-!
# Every offered int is added once

A customer's queue and what it has taken always make up what was offered to it, so that nothing is
lost or added twice however its steps, the offers and the interrupts are interleaved.  Offers come
before the first interrupt: a customer that has been interrupted finds what is left in its queue and
returns when there is no more.

That it does return has two halves.  It is never stuck, and it cannot go on forever: a potential
pays for each of its steps, and only offers and interrupts raise it.
-/

namespace LearnJava

namespace Customer

/-! ## The property -/

section Property

variable {τ : Type} [DecidableEq τ]

/-- The int that an action offers. -/
def Act.offered : Act → Option ℤ
  | .offer mission => some mission
  | _ => none

/-- Everything that is offered in a run, in this order. -/
def offers (ms : List (CustomerMove τ)) : List ℤ := ms.filterMap fun m => m.label.2.offered

/-- What is offered to one customer. -/
def offersTo (t : τ) (ms : List (CustomerMove τ)) : List ℤ :=
  offers (ms.filter fun m => m.label.1 = t)

/-- What was taken and is not yet added. -/
def Place.inHand : Place → List ℤ
  | .adding mission => [mission]
  | _ => []

/-- What a customer was given. -/
def Local.entrusted (l : Local) : List ℤ := l.added ++ l.place.inHand ++ l.queue

/-- A step of a customer's own code. -/
def Act.isStep (a : Act) : Prop := a = .go ∨ a = .throw

instance (a : Act) : Decidable a.isStep := inferInstanceAs (Decidable (_ ∨ _))

/-- The steps of `t`. -/
def stepsOf (t : τ) (a : τ × Act) : ℕ := if a.1 = t ∧ a.2.isStep then 1 else 0

/-- How many steps an action can cause. -/
def Act.causes : Act → ℕ
  | .offer _ => 3
  | .interrupt => 2
  | _ => 0

/-- How many steps of `t` an action can cause. -/
def causedFor (t : τ) (a : τ × Act) : ℕ := if a.1 = t then a.2.causes else 0

/-- What a run keeps. -/
structure Promises (count : ℕ) (ms : List (CustomerMove τ)) (s : CustomerState τ) : Prop where
  /-- No int is lost or taken twice. -/
  once : ∀ t, (s.thread t).entrusted = offersTo t ms
  /-- A customer returns the sum of all that was offered to it. -/
  sums : ∀ t, (s.thread t).place = .returned →
    (s.thread t).added = offersTo t ms ∧ (s.thread t).result = wrap32 (offersTo t ms).sum
  /-- `main` adds up to the sum of everything. -/
  total_eq : ∀ ts : List τ, ts.Nodup → (∀ t, t ∈ ts) → (∀ t, (s.thread t).place = .returned) →
    total (ts.map fun t => (s.thread t).result) = wrap32 (offers ms).sum
  /-- An interrupted customer is never stuck before it has returned, -/
  goesOn : ∀ t, (∃ m ∈ ms, m.label = (t, .interrupt)) → (s.thread t).place ≠ .returned →
    ∃ a s', a.isStep ∧ (machine τ count).step s (t, a) = some s'
  /-- and after finitely many steps it has. -/
  ends : ∀ t, (ms.map fun m => stepsOf t m.label).sum ≤
    2 + (ms.map fun m => causedFor t m.label).sum

end Property

/-! ## One customer -/

section Step

variable {x x' : Shared} {l l' k : Local} {a : Act}

/-- What holds for a customer at any time. -/
structure Inv (x : Shared) (l : Local) : Prop where
  result_eq : l.result = wrap32 l.added.sum
  finish : l.finish = true → x.interrupting = true
  pending : l.interrupted = true → x.interrupting = true
  returned : l.place = .returned → x.interrupting = true ∧ l.queue = []
  /-- With `finish` it does not come to `take` in vain. -/
  draining : l.place = .taking → l.finish = true → l.queue ≠ []

lemma inv_new (x : Shared) : Inv x .new := ⟨rfl, nofun, nofun, nofun, nofun⟩

lemma Effect.interrupting (h : Effect x l a x' l') (hx : x.interrupting = true) :
    x'.interrupting = true := by
  cases h <;> first | exact hx | rfl

/-- What another customer has is not touched. -/
lemma Effect.keeps_other (h : Effect x l a x' l') (hk : Inv x k) : Inv x' k where
  result_eq := hk.result_eq
  finish hf := h.interrupting (hk.finish hf)
  pending hp := h.interrupting (hk.pending hp)
  returned hr := ⟨h.interrupting (hk.returned hr).1, (hk.returned hr).2⟩
  draining := hk.draining

lemma Effect.keeps_self (h : Effect x l a x' l') (hl : Inv x l) : Inv x' l' := by
  cases h with
  | countedDown hplace => exact ⟨hl.result_eq, hl.finish, hl.pending, nofun, nofun⟩
  | ended hplace hfinish hqueue =>
      exact ⟨hl.result_eq, hl.finish, hl.pending, fun _ => ⟨hl.finish hfinish, hqueue⟩, nofun⟩
  | goesOn hplace h => exact ⟨hl.result_eq, hl.finish, hl.pending, nofun, fun _ => h⟩
  | took hplace hqueue => exact ⟨hl.result_eq, hl.finish, hl.pending, nofun, nofun⟩
  | addedUp hplace =>
      refine ⟨?_, hl.finish, hl.pending, nofun, nofun⟩
      simp [hl.result_eq]
  | thrown hplace h => exact ⟨hl.result_eq, fun _ => hl.pending h, nofun, nofun, nofun⟩
  | offered h =>
      -- an offer comes before the first interrupt
      have hopen : x.interrupting ≠ true := by simp [h]
      refine ⟨hl.result_eq, hl.finish, hl.pending, fun hr => ?_, fun _ hf => ?_⟩
      · exact absurd (hl.returned hr).1 hopen
      · exact absurd (hl.finish hf) hopen
  | interrupted =>
      exact ⟨hl.result_eq, fun _ => rfl, fun _ => rfl, fun hr => ⟨rfl, (hl.returned hr).2⟩,
        hl.draining⟩

/-- A customer has what it had, and what is offered. -/
lemma Effect.entrusted_eq (h : Effect x l a x' l') :
    l'.entrusted = l.entrusted ++ a.offered.toList := by
  cases h with
  | countedDown hplace => simp [Local.entrusted, Place.inHand, Act.offered, hplace]
  | ended hplace hfinish hqueue => simp [Local.entrusted, Place.inHand, Act.offered, hplace]
  | goesOn hplace h => simp [Local.entrusted, Place.inHand, Act.offered, hplace]
  | took hplace hqueue => simp [Local.entrusted, Place.inHand, Act.offered, hplace, hqueue]
  | addedUp hplace => simp [Local.entrusted, Place.inHand, Act.offered, hplace]
  | thrown hplace h => simp [Local.entrusted, Place.inHand, Act.offered, hplace]
  | offered h => simp [Local.entrusted, Act.offered]
  | interrupted => simp [Local.entrusted, Act.offered]

/-! ## Its end -/

/-- What is left to do before the next element is taken, or before the end. -/
def Place.left : Place → ℕ
  | .countingDown | .adding _ => 2
  | .testing => 1
  | .taking | .returned => 0

/-- The steps that a customer can still take: three for an element and two for an interrupt. -/
def Local.potential (l : Local) : ℕ :=
  3 * l.queue.length + 2 * l.interrupted.toNat + l.place.left

/-- An effect pays for itself. -/
lemma Effect.potential_le (h : Effect x l a x' l') :
    l'.potential + (if a.isStep then 1 else 0) ≤ l.potential + a.causes := by
  cases h with
  | countedDown hplace => simp [Local.potential, Place.left, Act.isStep, hplace]
  | ended hplace hfinish hqueue => simp [Local.potential, Place.left, Act.isStep, hplace]
  | goesOn hplace h => simp [Local.potential, Place.left, Act.isStep, hplace]
  | took hplace hqueue =>
      simp [Local.potential, Place.left, Act.isStep, hplace, hqueue]
      omega
  | addedUp hplace => simp [Local.potential, Place.left, Act.isStep, hplace]
  | thrown hplace h => simp [Local.potential, Place.left, Act.isStep, hplace, h]
  | offered h =>
      simp [Local.potential, Act.isStep, Act.causes]
      omega
  | interrupted =>
      simp [Local.potential, Act.isStep, Act.causes]
      omega

/-- What an interrupt brings about. -/
def Local.Stopping (l : Local) : Prop := l.finish = true ∨ l.interrupted = true

/-- An interrupt is not forgotten. -/
lemma Effect.stopping (h : Effect x l a x' l') (hl : l.Stopping) : l'.Stopping := by
  cases h with
  | thrown hplace h => exact .inl rfl
  | interrupted => exact .inr rfl
  | countedDown hplace => exact hl
  | ended hplace hfinish hqueue => exact hl
  | goesOn hplace h => exact hl
  | took hplace hqueue => exact hl
  | addedUp hplace => exact hl
  | offered h => exact hl

/-- After an interrupt a customer waits for nothing. -/
lemma Inv.goes_on (hl : Inv x l) (hstopping : l.Stopping) (hplace : l.place ≠ .returned) :
    ∃ a r, a.isStep ∧ act x l a = some r := by
  cases hwhere : l.place with
  | countingDown => exact ⟨.go, _, .inl rfl, by simp only [act, advance, hwhere]; rfl⟩
  | testing => exact ⟨.go, _, .inl rfl, by simp only [act, advance, hwhere]; rfl⟩
  | adding mission => exact ⟨.go, _, .inl rfl, by simp only [act, advance, hwhere]; rfl⟩
  | returned => exact absurd hwhere hplace
  | taking =>
      rcases hstopping with hfinish | hpending
      · obtain ⟨mission, queue, hqueue⟩ := List.exists_cons_of_ne_nil (hl.draining hwhere hfinish)
        exact ⟨.go, _, .inl rfl, by simp only [act, advance, hwhere, hqueue]; rfl⟩
      · exact ⟨.throw, _, .inr rfl, if_pos ⟨hwhere, hpending⟩⟩

end Step

/-! ## All customers -/

section Run

variable {τ : Type} [DecidableEq τ] {count : ℕ} {s s' : CustomerState τ}

/-- Every customer has the invariant. -/
def AllInv (s : CustomerState τ) : Prop := ∀ t, Inv s.shared (s.thread t)

lemma allInv_init (h : (machine τ count).init s) : AllInv s := by
  intro t
  have ht : s.thread t = .new := h.2 t
  rw [ht]
  exact inv_new _

lemma allInv_step {a : τ × Act} (hs : AllInv s) (h : (machine τ count).step s a = some s') :
    AllInv s' := by
  obtain ⟨x, l, heffect, rfl⟩ := step_cases h
  exact Threads.State.forall_after (J := Inv) (heffect.keeps_self (hs a.1))
    fun u _ => heffect.keeps_other (hs u)

lemma offersTo_snoc (t : τ) (ms : List (CustomerMove τ)) (m : CustomerMove τ) :
    offersTo t (ms ++ [m]) =
      offersTo t ms ++ if m.label.1 = t then m.label.2.offered.toList else [] := by
  unfold offersTo offers
  by_cases ht : m.label.1 = t
  · cases hoffered : m.label.2.offered <;> simp [ht, hoffered]
  · simp [ht]

/-- What a customer was given is what was offered to it. -/
lemma entrusted_of_run {ms : List (CustomerMove τ)} (h : (machine τ count).Run ms s) (t : τ) :
    (s.thread t).entrusted = offersTo t ms := by
  induction h with
  | start h =>
      have ht := h.2 t
      rw [show _ = Local.new from ht]
      rfl
  | @snoc ms s a s' hrun hstep ih =>
      obtain ⟨x, l, heffect, rfl⟩ := step_cases hstep
      rw [offersTo_snoc, ← ih]
      by_cases ht : a.1 = t
      · subst ht
        rw [Threads.State.after_thread_self, heffect.entrusted_eq, if_pos rfl]
      · rw [Threads.State.after_thread_of_ne _ (Ne.symm ht), if_neg ht, List.append_nil]

/-- A customer takes no more steps than it was given. -/
lemma steps_le_of_run {ms : List (CustomerMove τ)} (h : (machine τ count).Run ms s) (t : τ) :
    (ms.map fun m => stepsOf t m.label).sum ≤ 2 + (ms.map fun m => causedFor t m.label).sum := by
  have hinit : ∀ s, (machine τ count).init s → (s.thread t).potential ≤ 2 := by
    intro s hs
    have ht : s.thread t = .new := hs.2 t
    rw [ht]
    rfl
  have hstep : ∀ s a s', (machine τ count).step s a = some s' →
      (s'.thread t).potential + stepsOf t a ≤ (s.thread t).potential + causedFor t a := by
    intro s a s' hstep
    obtain ⟨x, l, heffect, rfl⟩ := step_cases hstep
    by_cases ht : a.1 = t
    · subst ht
      simpa [stepsOf, causedFor] using heffect.potential_le
    · simp [stepsOf, causedFor, ht, Threads.State.after_thread_of_ne _ (Ne.symm ht)]
  exact (Nat.le_add_right _ _).trans (h.spent_le hinit hstep)

/-- A customer that was interrupted stops. -/
lemma stopping_of_run {ms : List (CustomerMove τ)} (h : (machine τ count).Run ms s) {t : τ}
    {m : CustomerMove τ} (hm : m ∈ ms) (hlabel : m.label = (t, .interrupt)) :
    (s.thread t).Stopping := by
  have hstable : ∀ s a s', True → (machine τ count).step s a = some s' →
      (s.thread t).Stopping → (s'.thread t).Stopping := by
    intro s a s' _ hstep hs
    obtain ⟨x, l, heffect, rfl⟩ := step_cases hstep
    by_cases ht : a.1 = t
    · subst ht
      rw [Threads.State.after_thread_self]
      exact heffect.stopping hs
    · rwa [Threads.State.after_thread_of_ne _ (Ne.symm ht)]
  refine h.stable (I := fun _ => True) (Q := fun s => (s.thread t).Stopping) (fun _ _ => trivial)
    (fun _ _ _ _ _ => trivial) hstable hm ?_
  obtain ⟨-, -, -, -, hstep⟩ := h.of_mem hm
  rw [hlabel] at hstep
  obtain ⟨x, l, heffect, hpost⟩ := step_cases hstep
  cases heffect with
  | interrupted =>
      rw [hpost, Threads.State.after_thread_self]
      exact .inr rfl

/-! ## The sum of all sums -/

omit [DecidableEq τ] in
/-- Wrapping around in between does not change the total. -/
lemma total_map_wrap32 (f : τ → ℤ) (ts : List τ) :
    total (ts.map fun t => wrap32 (f t)) = wrap32 (ts.map f).sum := by
  have hfold : ∀ a : ℤ, (ts.map fun t => wrap32 (f t)).foldl
      (fun result subResult => wrap32 (result + subResult)) (wrap32 a) =
        wrap32 (a + (ts.map f).sum) := by
    induction ts with
    | nil => simp
    | cons t ts ih =>
        intro a
        simp only [List.map_cons, List.foldl_cons, List.sum_cons, wrap32_wrap32_add,
          wrap32_add_wrap32]
        rw [ih, add_assoc]
  simpa [total] using hfold 0

/-- What is offered is offered to somebody. -/
lemma sum_offersTo {ts : List τ} (hnodup : ts.Nodup) (hall : ∀ t, t ∈ ts)
    (ms : List (CustomerMove τ)) :
    (ts.map fun t => (offersTo t ms).sum).sum = (offers ms).sum := by
  induction ms with
  | nil => simp [offersTo, offers]
  | cons m ms ih =>
      set c := m.label.2.offered.toList.sum with hc
      have hto : ∀ t, (offersTo t (m :: ms)).sum =
          (if m.label.1 = t then c else 0) + (offersTo t ms).sum := by
        intro t
        unfold offersTo offers
        by_cases ht : m.label.1 = t
        · cases hoffered : m.label.2.offered <;> simp [ht, hoffered, hc]
        · simp [ht]
      have hhead : (ts.map fun t => if m.label.1 = t then c else 0).sum = c := by
        rw [List.sum_map_eq_nsmul_single m.label.1 _ fun t ht _ => if_neg (Ne.symm ht),
          List.count_eq_one_of_mem hnodup (hall _), one_smul, if_pos rfl]
      have hoffers : (offers (m :: ms)).sum = c + (offers ms).sum := by
        unfold offers
        cases hoffered : m.label.2.offered <;> simp [hoffered, hc]
      simp only [hto]
      rw [List.sum_map_add, hhead, ih, hoffers]

/-- **All offers are added up.**  In any run, in which all offers come before the first interrupt, a
customer adds each int that is offered to it once; it returns their sum, when it has been
interrupted any number of times, and `main` adds up to the sum of everything. -/
theorem sums_of_run {ms : List (CustomerMove τ)} (h : (machine τ count).Run ms s) :
    Promises count ms s := by
  have hinv : AllInv s :=
    h.invariant (fun _ => allInv_init) fun _ _ _ => allInv_step
  have honce := entrusted_of_run h
  have hsums : ∀ t, (s.thread t).place = .returned →
      (s.thread t).added = offersTo t ms ∧ (s.thread t).result = wrap32 (offersTo t ms).sum := by
    intro t hplace
    have hadded : (s.thread t).added = offersTo t ms := by
      rw [← honce t, Local.entrusted, hplace, ((hinv t).returned hplace).2]
      simp [Place.inHand]
    exact ⟨hadded, hadded ▸ (hinv t).result_eq⟩
  refine ⟨honce, hsums, ?_, ?_, steps_le_of_run h⟩
  · intro ts hnodup hall hreturned
    have hresults : ts.map (fun t => (s.thread t).result) =
        ts.map fun t => wrap32 (offersTo t ms).sum :=
      List.map_congr_left fun t _ => (hsums t (hreturned t)).2
    rw [hresults, total_map_wrap32, sum_offersTo hnodup hall]
  · rintro t ⟨m, hm, hlabel⟩ hplace
    obtain ⟨a, r, hisStep, hact⟩ := (hinv t).goes_on (stopping_of_run h hm hlabel) hplace
    exact ⟨a, s.after t r, hisStep, Threads.Program.step_iff.mpr ⟨r, hact, rfl⟩⟩

/-- Two customers before they begin. -/
def twoCustomers : CustomerState Duo := ⟨⟨2, false⟩, fun _ => .new⟩

/-- Three ints are offered; an interrupt finds the first customer with one of them in its hand, the
other one before its first step. -/
def threeOffered : List (CustomerMove Duo) :=
  (machine Duo 2).moves twoCustomers
    [(.first, .offer 1), (.second, .offer (2 ^ 31 - 1)), (.first, .go), (.first, .go),
      (.first, .go), (.first, .offer 4), (.first, .interrupt), (.second, .interrupt), (.first, .go),
      (.first, .go), (.first, .throw), (.first, .go), (.first, .go), (.first, .go), (.first, .go),
      (.second, .go), (.second, .go), (.second, .throw), (.second, .go), (.second, .go),
      (.second, .go), (.second, .go)]

theorem sums_of_run_threeOffered :
    ∃ s, (machine Duo 2).Run threeOffered s ∧ Promises 2 threeOffered s ∧
      (∀ t, (s.thread t).place = .returned) ∧ offers threeOffered = [1, 2 ^ 31 - 1, 4] :=
  have hrun : (machine Duo 2).Run threeOffered _ := Machine.run_of_play ⟨rfl, fun _ => rfl⟩ rfl
  ⟨_, hrun, sums_of_run hrun, by decide, by decide⟩

end Run

end Customer

end LearnJava
