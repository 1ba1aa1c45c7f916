import LearnJava.ThreadTest.TestProviderAndCustomer

/-!
# What `main` of `TestProviderAndCustomer` prints

The ints are dealt out to the customers in turn, so that a customer that returns has added up its
share of them, and `main` the sum of all.  No customer returns before it is interrupted, and no
thread leaves its group before `main` waits: the notification is not missed.

Every move lowers a number, and in a state in which only a return of `wait` without notification is
possible `main` has come to its end.  Without such a return it has printed the sum.
-/

namespace LearnJava

namespace TestProviderAndCustomer

open Customer (Shared Local)

/-! ## Dealing out the ints -/

section Missions

variable {n : ℕ} [NeZero n]

/-- What the first `count` offers give to the customer `c`. -/
def missionsOf (c : Fin n) (count : ℕ) : List ℤ :=
  ((List.range count).filter fun index => customerIndex index = c).map
    fun index : ℕ => (index : ℤ) + 1

/-- The sum of the ints up to `missions`. -/
def sumUpTo (missions : ℕ) : ℤ := ∑ index ∈ Finset.range missions, ((index : ℤ) + 1)

lemma missionsOf_succ (c : Fin n) (count : ℕ) : missionsOf c (count + 1) =
    missionsOf c count ++ if customerIndex count = c then [(count : ℤ) + 1] else [] := by
  simp only [missionsOf, List.range_succ, List.filter_append, List.map_append]
  by_cases hc : customerIndex count = c <;> simp [hc]

lemma length_missionsOf_le (c : Fin n) (count : ℕ) : (missionsOf c count).length ≤ count := by
  rw [missionsOf, List.length_map]
  exact (List.length_filter_le _ _).trans (List.length_range).le

/-- Each int is given to one customer. -/
lemma sum_missionsOf (count : ℕ) : ∑ c : Fin n, (missionsOf c count).sum = sumUpTo count := by
  induction count with
  | zero => simp [missionsOf, sumUpTo]
  | succ count ih =>
      have hone : ∑ c : Fin n, (if customerIndex count = c then [(count : ℤ) + 1] else []).sum =
          count + 1 := by
        rw [Finset.sum_eq_single (customerIndex count)]
        · simp
        · intro c _ hc
          simp [Ne.symm hc]
        · intro h
          exact absurd (Finset.mem_univ _) h
      simp only [missionsOf_succ, List.sum_append]
      rw [Finset.sum_add_distrib, ih, hone, sumUpTo, sumUpTo, Finset.sum_range_succ]

end Missions

/-! ## The invariant -/

/-- How many ints are offered. -/
def Place.offered (missions : ℕ) : Place → ℕ
  | .submitting _ => 0
  | .offering index => index
  | _ => missions

/-- How many threads are interrupted. -/
def Place.interrupted (n : ℕ) : Place → ℕ
  | .submitting _ | .offering _ | .awaiting | .shuttingDown | .destroying => 0
  | .interrupting index => index
  | _ => n

/-- `main` has not come to its interrupts. -/
def Place.Early : Place → Bool
  | .submitting _ | .offering _ | .awaiting | .shuttingDown | .destroying => true
  | _ => false

/-- `main` has interrupted all threads, and is in `wait` or behind it. -/
def Place.Late : Place → Bool
  | .waiting | .awake | .getting _ _ | .printed _ | .failed => true
  | _ => false

/-- What is known of a customer, its thread and the place of `main`. -/
structure CustomerOk {n : ℕ} [NeZero n] (missions : ℕ) (place : Place) (x : Shared) (c : Fin n)
    (l : Local) (exited : Bool) : Prop where
  inv : Customer.Inv x l
  entrusted : l.entrusted = missionsOf c (place.offered missions)
  stopping : (c : ℕ) < place.interrupted n → l.Stopping
  exited : exited = true → l.place = .returned ∧ place.Late = true

/-- The customers before the one with the number `index`. -/
def below (n index : ℕ) : Finset (Fin n) := Finset.univ.filter fun c => (c : ℕ) < index

/-- What `main` knows at its place. -/
def PlaceOk {n : ℕ} [NeZero n] (missions : ℕ) (exited : Fin n → Bool) : Place → Prop
  | .offering index => index ≤ missions
  | .waiting => ∃ c, exited c = false
  | .getting index result => index ≤ n ∧ (∀ c, exited c = true) ∧
      result = wrap32 (∑ c ∈ below n index, (missionsOf c missions).sum)
  | .printed result => result = wrap32 (sumUpTo missions)
  | _ => True

/-- A customer that `countDownLatch` still waits for. -/
def beginning (l : Local) : ℕ := if l.place = .countingDown then 1 else 0

/-- What holds in every state. -/
structure Inv {n : ℕ} [NeZero n] (missions : ℕ) (s : System n) : Prop where
  customer : ∀ c, CustomerOk missions s.place s.shared c (s.customer c) (s.exited c)
  place : PlaceOk missions s.exited s.place
  latch : s.shared.countDownLatch = ∑ c, beginning (s.customer c)
  early : s.place.Early = true → s.shared.interrupting = false

section Customers

variable {x x' : Shared} {l l' : Local} {a : Customer.Act}

/-- An action counts down exactly if the customer has begun with it. -/
lemma latch_effect (h : Customer.Effect x l a x' l') (hle : beginning l ≤ x.countDownLatch) :
    x'.countDownLatch + beginning l = x.countDownLatch + beginning l' := by
  cases h with
  | countedDown hplace =>
      simp only [beginning, hplace, if_true] at hle ⊢
      rw [if_neg (by simp)]
      omega
  | ended hplace hfinish hqueue => simp [beginning, hplace]
  | goesOn hplace h => simp [beginning, hplace]
  | took hplace hqueue => simp [beginning, hplace]
  | addedUp hplace => simp [beginning, hplace]
  | thrown hplace h => simp [beginning, hplace]
  | offered h => rfl
  | interrupted => rfl

/-- A customer interrupts nobody. -/
lemma interrupting_effect (h : Customer.Effect x l a x' l') (ha : a.isStep) :
    x'.interrupting = x.interrupting := by
  cases h with
  | offered h => obtain ⟨⟨⟩⟩ | ⟨⟨⟩⟩ := ha
  | interrupted => obtain ⟨⟨⟩⟩ | ⟨⟨⟩⟩ := ha
  | _ => rfl

/-- A customer that has returned does nothing more. -/
lemma returned_effect (h : Customer.Effect x l a x' l') (hreturned : l.place = .returned) :
    l'.place = .returned := by
  cases h with
  | offered h => exact hreturned
  | interrupted => exact hreturned
  | _ => simp_all

lemma isStep_act (throws : Bool) :
    (if throws then Customer.Act.throw else Customer.Act.go).isStep := by
  cases throws
  · exact .inl rfl
  · exact .inr rfl

end Customers

section Step

variable {n : ℕ} [NeZero n] {missions : ℕ} {s s' : System n} {a : Act n}

/-- No offer is refused. -/
lemma Inv.offer_isSome (hmissions : missions < 2 ^ 31) (hs : Inv missions s) {index : ℕ}
    (hplace : s.place = .offering index) (hlt : index < missions) (c : Fin n) :
    Customer.act s.shared (s.customer c) (.offer (index + 1)) ≠ none := by
  have hopen : s.shared.interrupting = false := hs.early (by rw [hplace]; rfl)
  have hentrusted := (hs.customer c).entrusted
  rw [hplace, show (Place.offering index).offered missions = index from rfl] at hentrusted
  have hlength : (s.customer c).queue.length ≤ index := by
    have hle := length_missionsOf_le c index
    rw [← hentrusted] at hle
    simp only [Local.entrusted, List.length_append] at hle
    omega
  simp only [Customer.act]
  rw [if_pos ⟨hopen, by omega⟩]
  simp

/-- What an action of a customer, or of `main` with it, leaves of the invariant. -/
lemma latch_put (hs : Inv missions s) {c : Fin n} {a : Customer.Act} {r : Shared × Local}
    (h : Customer.Effect s.shared (s.customer c) a r.1 r.2) :
    r.1.countDownLatch = ∑ d, beginning (Function.update s.customer c r.2 d) := by
  have hle : beginning (s.customer c) ≤ s.shared.countDownLatch := by
    rw [hs.latch]
    exact Finset.single_le_sum (f := fun d => beginning (s.customer d))
      (fun _ _ => Nat.zero_le _) (Finset.mem_univ c)
  have heffect := latch_effect h hle
  have hsum := sum_update_add beginning s.customer c r.2
  have hlatch := hs.latch
  omega

/-- **An action with one customer.**  It has to answer for itself, and `main` not to have gone on
without the others. -/
lemma Inv.put (hs : Inv missions s) {c : Fin n} {a : Customer.Act} {x : Shared} {l : Local}
    {place : Place} (h : Customer.Effect s.shared (s.customer c) a x l)
    (hself : CustomerOk missions place x c l (s.exited c))
    (hoffered : ∀ d, d ≠ c →
      missionsOf d (place.offered missions) = missionsOf d (s.place.offered missions))
    (hinterrupted : ∀ d, d ≠ c → (d : ℕ) < place.interrupted n → (d : ℕ) < s.place.interrupted n)
    (hlate : s.place.Late = true → place.Late = true) (hplace : PlaceOk missions s.exited place)
    (hearly : place.Early = true → x.interrupting = false) :
    Inv missions (({ s with place } : System n).put c (x, l)) := by
  refine ⟨fun d => ?_, hplace, latch_put (r := (x, l)) hs h, hearly⟩
  by_cases hd : d = c
  · subst hd
    simpa only [System.put, Function.update_self] using hself
  · have hok := hs.customer d
    simp only [System.put, Function.update_of_ne hd]
    exact ⟨h.keeps_other hok.inv, hok.entrusted.trans (hoffered d hd).symm,
      fun hlt => hok.stopping (hinterrupted d hd hlt),
      fun hexited => ⟨(hok.exited hexited).1, hlate (hok.exited hexited).2⟩⟩

/-- `main` goes on by itself. -/
lemma customers_follows (hs : Inv missions s) {place : Place}
    (h : Follows missions s s.place place) (c : Fin n) :
    CustomerOk missions place s.shared c (s.customer c) (s.exited c) := by
  obtain ⟨hinv, hentrusted, hstopping, hexited⟩ := hs.customer c
  have hok := hs.place
  generalize hplace : s.place = old at h hentrusted hstopping hexited hok
  cases h with
  | submitted h => exact ⟨hinv, hentrusted, hstopping, hexited⟩
  | allSubmitted h => exact ⟨hinv, hentrusted, hstopping, hexited⟩
  | allOffered h =>
      obtain rfl := le_antisymm (show _ ≤ missions from hok) h
      exact ⟨hinv, hentrusted, hstopping, hexited⟩
  | begun h => exact ⟨hinv, hentrusted, hstopping, hexited⟩
  | shutDown => exact ⟨hinv, hentrusted, hstopping, hexited⟩
  | entered => exact ⟨hinv, hentrusted, hstopping, hexited⟩
  | skipped h hskip =>
      have hdone := (hs.customer _).exited hskip
      rw [hplace] at hdone
      cases hdone.2
  | allInterrupted h =>
      exact ⟨hinv, hentrusted, fun _ => hstopping (c.isLt.trans_le h),
        fun he => ⟨(hexited he).1, rfl⟩⟩
  | destroyed h => exact ⟨hinv, hentrusted, hstopping, hexited⟩
  | notDestroyed h => exact ⟨hinv, hentrusted, hstopping, hexited⟩
  | got h hreturned => exact ⟨hinv, hentrusted, hstopping, hexited⟩
  | printed h => exact ⟨hinv, hentrusted, hstopping, hexited⟩

/-- The result of a customer that has returned. -/
lemma CustomerOk.result_eq {place : Place} {x : Shared} {c : Fin n} {l : Local} {exited : Bool}
    (h : CustomerOk missions place x c l exited) (hreturned : l.place = .returned) :
    l.added = missionsOf c (place.offered missions) ∧
      l.result = wrap32 (missionsOf c (place.offered missions)).sum := by
  have hadded : l.added = missionsOf c (place.offered missions) := by
    rw [← h.entrusted, Local.entrusted, hreturned, (h.inv.returned hreturned).2]
    simp [Customer.Place.inHand]
  exact ⟨hadded, hadded ▸ h.inv.result_eq⟩

omit [NeZero n] in
/-- The loop over the futures. -/
lemma sum_below_succ (f : Fin n → ℤ) {index : ℕ} (h : index < n) :
    ∑ c ∈ below n (index + 1), f c = ∑ c ∈ below n index, f c + f ⟨index, h⟩ := by
  have hinsert : below n (index + 1) = insert ⟨index, h⟩ (below n index) := by
    ext c
    simp only [below, Finset.mem_filter, Finset.mem_univ, true_and, Finset.mem_insert, Fin.ext_iff]
    omega
  rw [hinsert, Finset.sum_insert (by simp [below]), add_comm]

lemma place_follows (hs : Inv missions s) {place : Place}
    (h : Follows missions s s.place place) : PlaceOk missions s.exited place := by
  have hok := hs.place
  have hcustomer := hs.customer
  generalize hplace : s.place = old at h hok hcustomer
  cases h with
  | submitted h => exact trivial
  | allSubmitted h => exact Nat.zero_le _
  | allOffered h => exact trivial
  | begun h => exact trivial
  | shutDown => exact trivial
  | entered => exact trivial
  | skipped h hskip => exact trivial
  | allInterrupted h =>
      -- no thread has left its group as long as `main` held the monitor
      refine ⟨0, Bool.eq_false_iff.mpr fun hexited => ?_⟩
      cases ((hcustomer 0).exited hexited).2
  | destroyed h => exact ⟨Nat.zero_le _, h, by simp [below]⟩
  | notDestroyed h => exact trivial
  | @got index result h hreturned =>
      obtain ⟨-, hall, hresult⟩ := hok
      refine ⟨h, hall, ?_⟩
      rw [sum_below_succ _ h, ((hcustomer ⟨index, h⟩).result_eq hreturned).2, hresult,
        wrap32_wrap32_add, wrap32_add_wrap32]
      rfl
  | @printed index result h =>
      obtain ⟨-, -, hresult⟩ := hok
      show result = wrap32 (sumUpTo missions)
      have hbelow : below n index = Finset.univ :=
        Finset.filter_true_of_mem fun c _ => c.isLt.trans_le h
      rw [hresult, hbelow, sum_missionsOf]

/-- A thread leaves its group. -/
lemma customers_exit (hs : Inv missions s) {c : Fin n} {place : Place}
    (hreturned : (s.customer c).place = .returned) (hexit : s.place.CanExit = true)
    (hplace : place = s.place ∨ s.place = .waiting ∧ place = .awake) (d : Fin n) :
    CustomerOk missions place s.shared d (s.customer d) (Function.update s.exited c true d) := by
  obtain ⟨hinv, hentrusted, hstopping, hexited⟩ := hs.customer d
  -- a thread that has returned was interrupted, and `main` is not in the block any more
  have hlate : s.place.Late = true := by
    have hinterrupting := ((hs.customer c).inv.returned hreturned).1
    by_contra hnot
    have hearly : s.place.Early = true := by
      cases hp : s.place <;> simp_all [Place.CanExit, Place.Late, Place.Early]
    simp [hs.early hearly] at hinterrupting
  have hreturned' :
      Function.update s.exited c true d = true → (s.customer d).place = .returned := by
    intro he
    by_cases hd : d = c
    · exact hd ▸ hreturned
    · rw [Function.update_of_ne hd] at he
      exact (hexited he).1
  obtain rfl | ⟨hwaiting, rfl⟩ := hplace
  · exact ⟨hinv, hentrusted, hstopping, fun he => ⟨hreturned' he, hlate⟩⟩
  · rw [hwaiting] at hentrusted hstopping
    exact ⟨hinv, hentrusted, hstopping, fun he => ⟨hreturned' he, rfl⟩⟩

lemma inv_init (h : (machine n missions).init s) : Inv missions s := by
  obtain rfl : s = .initial n := h
  refine ⟨fun c => ⟨Customer.inv_new _, rfl, fun hlt => ?_, nofun⟩, trivial, ?_, fun _ => rfl⟩
  · exact absurd hlt (Nat.not_lt_zero _)
  · simp [System.initial, beginning, Local.new]

/-- **One move.** -/
lemma inv_step (hmissions : missions < 2 ^ 31) (hs : Inv missions s)
    (h : (machine n missions).step s a = some s') : Inv missions s' := by
  cases step_cases h with
  | @follows place hfollows =>
      refine ⟨customers_follows hs hfollows, place_follows hs hfollows, hs.latch, fun hearly => ?_⟩
      refine hs.early ?_
      generalize s.place = old at hfollows
      cases hfollows <;> first | rfl | exact hearly
  | @offered index r hplace hlt hact =>
      obtain ⟨x, l⟩ := r
      have heffect := Customer.act_cases hact
      have hopen := hs.early (by rw [hplace]; rfl)
      have hcustomer := hs.customer (customerIndex index)
      rw [hplace] at hcustomer
      refine hs.put heffect ?_ (fun d hd => ?_) (fun d _ hless => ?_) (fun hlate => ?_) hlt
        fun _ => ?_
      · refine ⟨heffect.keeps_self hcustomer.inv, ?_, fun hless => ?_, fun he => ?_⟩
        · show l.entrusted = missionsOf _ (index + 1)
          rw [heffect.entrusted_eq, hcustomer.entrusted, missionsOf_succ, if_pos rfl]
          rfl
        · exact absurd hless (Nat.not_lt_zero _)
        · cases (hcustomer.exited he).2
      · show missionsOf d (index + 1) = _
        rw [hplace, missionsOf_succ, if_neg (Ne.symm hd), List.append_nil]
        rfl
      · exact absurd hless (Nat.not_lt_zero _)
      · simp [hplace, Place.Late] at hlate
      · cases heffect
        exact hopen
  | @refused index hplace hlt hact =>
      exact absurd hact (hs.offer_isSome hmissions hplace hlt _)
  | @interrupted index r hplace hlt hact =>
      obtain ⟨x, l⟩ := r
      have heffect := Customer.act_cases hact
      have hcustomer := hs.customer ⟨index, hlt⟩
      rw [hplace] at hcustomer
      refine hs.put heffect ?_ (fun d _ => ?_) (fun d hd hless => ?_) (fun hlate => ?_) trivial
        fun hearly => Bool.noConfusion hearly
      · refine ⟨heffect.keeps_self hcustomer.inv, ?_, fun _ => ?_, fun he => ?_⟩
        · show l.entrusted = missionsOf _ missions
          rw [heffect.entrusted_eq, hcustomer.entrusted]
          exact List.append_nil _
        · cases heffect
          exact .inr rfl
        · cases (hcustomer.exited he).2
      · rw [hplace]
        rfl
      · rw [hplace]
        have hne : (d : ℕ) ≠ index := fun h => hd (Fin.ext h)
        exact lt_of_le_of_ne (Nat.lt_succ_iff.mp hless) hne
      · simp [hplace, Place.Late] at hlate
  | woken hplace =>
      refine ⟨fun c => ?_, trivial, hs.latch, fun hearly => Bool.noConfusion hearly⟩
      obtain ⟨hinv, hentrusted, hstopping, hexited⟩ := hs.customer c
      rw [hplace] at hentrusted hstopping
      exact ⟨hinv, hentrusted, hstopping, fun he => ⟨(hexited he).1, rfl⟩⟩
  | @worked c throws r hlt hact =>
      obtain ⟨x, l⟩ := r
      have heffect := Customer.act_cases hact
      have hcustomer := hs.customer c
      refine hs.put heffect ?_ (fun d _ => rfl) (fun d _ h => h) (fun h => h) hs.place
        fun hearly => ?_
      · refine ⟨heffect.keeps_self hcustomer.inv, ?_, fun h => ?_, fun he => ?_⟩
        · rw [heffect.entrusted_eq, hcustomer.entrusted]
          cases throws <;> simp [Customer.Act.offered]
        · exact heffect.stopping (hcustomer.stopping h)
        · exact ⟨returned_effect heffect (hcustomer.exited he).1, (hcustomer.exited he).2⟩
      · exact (interrupting_effect heffect (isStep_act throws)).trans (hs.early hearly)
  | @notified c hreturned hexited hplace hlast =>
      exact ⟨customers_exit hs hreturned (by rw [hplace]; rfl) (.inr ⟨hplace, rfl⟩), trivial,
        hs.latch, fun hearly => Bool.noConfusion hearly⟩
  | @left c hreturned hexited hplace hnot =>
      refine ⟨customers_exit hs hreturned hplace (.inl rfl), ?_, hs.latch, hs.early⟩
      have hok := hs.place
      show PlaceOk missions (Function.update s.exited c true) s.place
      generalize s.place = place at hok hnot
      cases place with
      | waiting =>
          obtain ⟨d, hd⟩ := not_forall.mp (hnot rfl)
          exact ⟨d, Bool.eq_false_iff.mpr hd⟩
      | getting index result => exact absurd (hok.2.1 c) (by simp [hexited])
      | offering index => exact hok
      | printed result => exact hok
      | _ => trivial

end Step

end TestProviderAndCustomer

end LearnJava
