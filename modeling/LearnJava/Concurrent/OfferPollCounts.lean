import LearnJava.Concurrent.OfferPoll

/-!
# How many objects are offered and polled

The counter is incremented before it is compared, so that it passes `maxCount` by one for each
thread that is refused, and it is ahead of the deque by the threads that are admitted and have not
offered yet.  What holds at any moment are balances over the threads:

* as many objects have been created or are about to be as the counter has admitted;
* every object created has been offered once, or is with the thread that created it;
* every object offered is in the deque, or was polled by one thread, once;
* the latch is short of `maxCount` by the objects polled, apart from those not counted down for yet.

The latch can therefore only be open when `maxCount` objects have been polled, which are all there
will ever be.
-/

namespace LearnJava

namespace OfferPoll

variable {τ : Type} [Fintype τ] {maxCount : ℕ} {s s' : DequeState τ} {a : τ × Act}

/-! ## The property -/

/-- How many threads offer. -/
def offerers (s : DequeState τ) : ℕ := s.total fun l => if l.offers then 1 else 0

/-- All `maxCount` objects have been polled, and the deque is empty. -/
structure Drained (maxCount : ℕ) (s : DequeState τ) : Prop where
  polled : s.total (fun l => l.polled.length) = maxCount
  all : ∀ people ∈ s.shared.offered, ∃ t, people ∈ (s.thread t).polled
  empty : s.shared.peopleDeque = []

/-- What holds at every moment. -/
structure Promises (maxCount : ℕ) (s : DequeState τ) : Prop where
  at_most : s.shared.offered.length ≤ maxCount
  exactly : (∃ t, (s.thread t).offers = true) →
    (∀ t, (s.thread t).offers = true → (s.thread t).place = .ended) →
    s.shared.offered.length = maxCount
  distinct : s.shared.offered.Nodup
  offered : ∀ t, ∀ people ∈ (s.thread t).polled, people ∈ s.shared.offered
  once : ∀ t, (s.thread t).polled.Nodup ∧
    ∀ u, u ≠ t → ∀ people ∈ (s.thread t).polled, people ∉ (s.thread u).polled
  opened : s.shared.countDownLatch = 0 → Drained maxCount s

/-! ## The invariant -/

/-- A thread that was refused. -/
def wasRefused (l : Local) : ℤ := if l.offers ∧ l.place = .ended then 1 else 0

/-- A thread that was admitted and has not created an object yet. -/
def toCreate (l : Local) : ℤ := if l.place = .creating then 1 else 0

/-- The object that a thread is about to offer. -/
def inHand (l : Local) : Multiset People :=
  match l.place with
  | .offering people => {people}
  | _ => 0

/-- The object that a thread has polled and not counted down for. -/
def uncounted (l : Local) : ℤ :=
  match l.place with
  | .countingDown _ => 1
  | _ => 0

/-- A place of `run` of an offering or of a polling thread. -/
def Local.WellPlaced (l : Local) : Prop :=
  if l.offers then
    l.place = .incrementing ∨ l.place = .creating ∨ (∃ people, l.place = .offering people) ∨
      l.place = .ended
  else
    l.place.Counted = true ∨ (∃ people, l.place = .countingDown people) ∨ l.place = .ended

/-- The balances. -/
structure Inv (maxCount : ℕ) (s : DequeState τ) : Prop where
  placed : ∀ t, (s.thread t).WellPlaced
  count_nonneg : 0 ≤ s.shared.count
  count_le : s.shared.count ≤ maxCount + s.total wasRefused
  passed : ∀ t, (s.thread t).offers = true → (s.thread t).place = .ended →
    (maxCount : ℤ) < s.shared.count
  quota : min s.shared.count maxCount = s.shared.created + s.total toCreate
  created : Multiset.range s.shared.created = s.shared.offered + s.total inHand
  offered : (s.shared.offered : Multiset People) =
    s.shared.peopleDeque + s.total fun l => (l.polled : Multiset People)
  latch : (maxCount : ℤ) = s.shared.countDownLatch +
    s.total fun l => l.polled.length - uncounted l

/-! ## What the balances say -/

section Balances

lemma Inv.length_offered (hs : Inv maxCount s) : s.shared.offered.length ≤ s.shared.created := by
  have hcard := congrArg Multiset.card hs.created
  rw [Multiset.card_range, Multiset.card_add, Multiset.coe_card] at hcard
  omega

lemma Inv.created_le (hs : Inv maxCount s) : s.shared.created ≤ maxCount := by
  have hquota := hs.quota
  have hnonneg : 0 ≤ s.total toCreate := by
    apply Threads.State.total_nonneg
    intro t
    unfold toCreate
    split_ifs <;> omega
  omega

/-- As many objects have been polled as were offered and are not in the deque. -/
lemma Inv.total_polled (hs : Inv maxCount s) :
    s.total (fun l => l.polled.length) + s.shared.peopleDeque.length =
      s.shared.offered.length := by
  have hcard := congrArg Multiset.card hs.offered
  have hsum : Multiset.card (s.total fun l => (l.polled : Multiset People)) =
      s.total fun l => l.polled.length := by
    simp only [Threads.State.total, Multiset.card_sum, Multiset.coe_card]
  rw [Multiset.card_add, Multiset.coe_card, Multiset.coe_card, hsum] at hcard
  omega

lemma Inv.nodup (hs : Inv maxCount s) : (s.shared.offered : Multiset People).Nodup := by
  have hrange := Multiset.nodup_range s.shared.created
  rw [hs.created] at hrange
  exact Multiset.nodup_of_le (Multiset.le_add_right _ _) hrange

lemma Inv.polled_le (hs : Inv maxCount s) :
    (s.total fun l => (l.polled : Multiset People)) ≤ s.shared.offered := by
  rw [hs.offered]
  exact Multiset.le_add_left _ _

/-- The latch as the objects polled. -/
lemma Inv.latch_eq (hs : Inv maxCount s) : (s.shared.countDownLatch : ℤ) =
    maxCount - s.total (fun l => l.polled.length) + s.total uncounted := by
  have hlatch := hs.latch
  have hsplit : (s.total fun l => (l.polled.length : ℤ) - uncounted l) =
      (s.total (fun l => l.polled.length) : ℕ) - s.total uncounted := by
    simp only [Threads.State.total, Finset.sum_sub_distrib, Nat.cast_sum]
  rw [hsplit] at hlatch
  omega

lemma total_uncounted_nonneg (s : DequeState τ) : 0 ≤ s.total uncounted := by
  apply Threads.State.total_nonneg
  intro t
  unfold uncounted
  split <;> omega

/-- Where all objects were polled, the deque is empty. -/
lemma Inv.drained (hs : Inv maxCount s) (hlatch : s.shared.countDownLatch = 0) :
    Drained maxCount s := by
  have hopen := hs.latch_eq
  have huncounted := total_uncounted_nonneg s
  have hpolled := hs.total_polled
  have hoffered := hs.length_offered
  have hcreated := hs.created_le
  have hempty : s.shared.peopleDeque = [] := List.length_eq_zero_iff.mp (by omega)
  refine ⟨by omega, fun people hpeople => ?_, hempty⟩
  have hmem : people ∈ (s.shared.offered : Multiset People) := hpeople
  rw [hs.offered, hempty, Multiset.coe_nil, zero_add] at hmem
  obtain ⟨t, -, ht⟩ := Multiset.mem_sum.mp hmem
  exact ⟨t, ht⟩

/-- When all threads that offer have ended, nothing is on its way to the deque. -/
lemma Inv.length_eq (hs : Inv maxCount s) {t : τ} (ht : (s.thread t).offers = true)
    (hended : ∀ t, (s.thread t).offers = true → (s.thread t).place = .ended) :
    s.shared.offered.length = maxCount := by
  have hpassed := hs.passed t ht (hended t ht)
  have hplace : ∀ u, (s.thread u).place ≠ .creating ∧
      ∀ people, (s.thread u).place ≠ .offering people := by
    intro u
    have hwell := hs.placed u
    unfold Local.WellPlaced at hwell
    split_ifs at hwell with hoffers
    · rw [hended u hoffers]
      exact ⟨nofun, nofun⟩
    · rcases hwell with hcounted | ⟨people, hplace⟩ | hplace
      · refine ⟨fun hplace => ?_, fun people hplace => ?_⟩ <;>
          · rw [hplace] at hcounted
            cases hcounted
      · rw [hplace]
        exact ⟨nofun, nofun⟩
      · rw [hplace]
        exact ⟨nofun, nofun⟩
  have htoCreate : s.total toCreate = 0 :=
    Threads.State.total_eq_zero fun u => if_neg (hplace u).1
  have hinHand : s.total inHand = 0 := by
    apply Threads.State.total_eq_zero
    intro u
    unfold inHand
    split
    · exact absurd ‹_› ((hplace u).2 _)
    · rfl
  have hquota := hs.quota
  have hcard := congrArg Multiset.card hs.created
  rw [hinHand, add_zero, Multiset.card_range, Multiset.coe_card] at hcard
  rw [htoCreate, add_zero, min_eq_right hpassed.le] at hquota
  omega

lemma Inv.promises (hs : Inv maxCount s) : Promises maxCount s := by
  have hpolled : ∀ t, ((s.thread t).polled : Multiset People) ≤ s.shared.offered := fun t =>
    (s.le_total (fun l => (l.polled : Multiset People)) t).trans hs.polled_le
  refine ⟨hs.length_offered.trans hs.created_le, fun ⟨t, ht⟩ => hs.length_eq ht,
    Multiset.coe_nodup.mp hs.nodup, fun t people hp => Multiset.mem_of_le (hpolled t) hp,
    fun t => ⟨?_, fun u hut people ht hu => ?_⟩, hs.drained⟩
  · exact Multiset.coe_nodup.mp (Multiset.nodup_of_le (hpolled t) hs.nodup)
  · have hboth := Multiset.nodup_of_le
      ((s.add_le_total (fun l => (l.polled : Multiset People)) hut).trans hs.polled_le) hs.nodup
    exact Multiset.disjoint_left.mp (Multiset.nodup_add.mp hboth).2.2 hu ht

end Balances

/-! ## One action -/

section Effects

variable {x x' : Shared} {l l' : Local} {b : Act}

lemma Effect.keeps_placed (h : Effect maxCount x l b x' l') (hl : l.WellPlaced) :
    l'.WellPlaced := by
  unfold Local.WellPlaced at hl ⊢
  cases hoffers : l.offers with
  | true =>
      rw [if_pos hoffers] at hl
      cases h with
      | admitted | refused | created | offered => simp [hoffers]
      | flagged hpolls =>
          rw [hoffers] at hpolls
          cases hpolls
      | polled hplace | countedDown hplace => simp [hplace] at hl
      | moved hplace =>
          obtain h | h | ⟨people, h⟩ | h := hl <;>
            · rw [h] at hplace
              cases hplace
  | false =>
      rw [if_neg (by simp [hoffers])] at hl
      cases h with
      | admitted hplace | refused hplace | created hplace | offered hplace =>
          simp [hplace, Place.Counted] at hl
      | flagged => simpa [hoffers] using hl
      | polled | countedDown => simp [hoffers, Place.Counted]
      | moved _ hplace =>
          simp only [hoffers, Bool.false_eq_true, if_false]
          rcases hplace with h | h
          · exact .inl h
          · exact .inr (.inr h)

lemma Effect.offers_eq (h : Effect maxCount x l b x' l') : l'.offers = l.offers := by
  cases h <;> rfl

/-- A place that has counted down is none of those at which something is on its way. -/
lemma Place.Counted.nothing {l : Local} (h : l.place.Counted = true ∨ l.place = .ended) :
    toCreate l = 0 ∧ inHand l = 0 ∧ uncounted l = 0 := by
  unfold toCreate inHand uncounted
  cases hplace : l.place <;> simp_all [Place.Counted]

/-- An object is with the thread that creates it until this thread offers it. -/
lemma Effect.keeps_objects (h : Effect maxCount x l b x' l') :
    Multiset.range x'.created + (x.offered + inHand l) =
      Multiset.range x.created + (x'.offered + inHand l') := by
  cases h with
  | admitted hplace | refused hplace | polled hplace | countedDown hplace =>
      simp [inHand, hplace]
  | created hplace =>
      simp only [inHand, hplace, add_zero, Multiset.range_succ]
      rw [← Multiset.singleton_add]
      abel
  | @offered people hplace =>
      have hcoe : (x.offered : Multiset People) + {people} =
          (x.offered ++ [people] : List People) := by
        rw [← Multiset.coe_singleton, Multiset.coe_add]
      simp only [inHand, hplace, hcoe, add_zero]
  | @moved _ place hplace hto =>
      have hbefore := (Place.Counted.nothing (l := l) (.inl hplace)).2.1
      have hafter := (Place.Counted.nothing (l := { l with place }) hto).2.1
      rw [hbefore, hafter]
  | flagged => rfl

/-- An object is in the deque until a thread polls it. -/
lemma Effect.keeps_offered (h : Effect maxCount x l b x' l') :
    (x'.offered : Multiset People) + (x.peopleDeque + l.polled) =
      x.offered + (x'.peopleDeque + l'.polled) := by
  cases h with
  | admitted | refused | created | countedDown | moved | flagged => rfl
  | offered =>
      rw [coe_offer, ← Multiset.coe_add, Multiset.coe_singleton]
      abel
  | polled _ hpoll =>
      rw [coe_poll hpoll, ← Multiset.coe_add, Multiset.coe_singleton]
      abel

/-- A thread counts down once for each object, while the latch is not open. -/
lemma Effect.keeps_latch (h : Effect maxCount x l b x' l')
    (hclosed : ∀ people, l.place = .countingDown people → 0 < x.countDownLatch) :
    (x'.countDownLatch : ℤ) + (l'.polled.length - uncounted l') =
      x.countDownLatch + (l.polled.length - uncounted l) := by
  cases h with
  | admitted hplace | refused hplace | created hplace | offered hplace => simp [uncounted, hplace]
  | polled hplace => simp [uncounted, hplace]
  | countedDown hplace =>
      have hpos := hclosed _ hplace
      simp only [uncounted, hplace]
      omega
  | @moved _ place hplace hto =>
      have hbefore := (Place.Counted.nothing (l := l) (.inl hplace)).2.2
      have hafter := (Place.Counted.nothing (l := { l with place }) hto).2.2
      rw [hbefore, hafter]
  | flagged => rfl

/-- The counter, which does not overflow, admits as long as it has not passed `maxCount`. -/
lemma Effect.keeps_quota (h : Effect maxCount x l b x' l') (hnonneg : 0 ≤ x.count)
    (hroom : l.place = .incrementing → x.count + 1 < 2 ^ 31) :
    min x'.count maxCount + (x.created + toCreate l) =
      min x.count maxCount + (x'.created + toCreate l') := by
  cases h with
  | admitted hplace hle =>
      rw [wrap32_of_range (by omega) (hroom hplace)] at hle ⊢
      simp only [toCreate, hplace, reduceCtorEq, if_false, if_true]
      omega
  | refused hplace hgt =>
      rw [wrap32_of_range (by omega) (hroom hplace)] at hgt ⊢
      simp only [toCreate, hplace, reduceCtorEq, if_false]
      omega
  | created hplace =>
      simp only [toCreate, hplace, reduceCtorEq, if_false, if_true]
      push_cast
      ring
  | offered hplace | polled hplace | countedDown hplace => simp [toCreate, hplace]
  | @moved _ place hplace hto =>
      have hbefore := (Place.Counted.nothing (l := l) (.inl hplace)).1
      have hafter := (Place.Counted.nothing (l := { l with place }) hto).1
      rw [hbefore, hafter]
  | flagged => rfl

/-- The counter stays, or goes up by one for a thread that is admitted or refused. -/
lemma Effect.count_cases (h : Effect maxCount x l b x' l') (hl : l.WellPlaced)
    (hnonneg : 0 ≤ x.count) (hroom : l.place = .incrementing → x.count + 1 < 2 ^ 31) :
    (x'.count = x.count ∧ wasRefused l' = wasRefused l) ∨
      x'.count = x.count + 1 ∧ ((x'.count ≤ maxCount ∧ wasRefused l = 0 ∧ wasRefused l' = 0) ∨
        (maxCount : ℤ) < x'.count ∧ wasRefused l = 0 ∧ wasRefused l' = 1) := by
  cases h with
  | admitted hplace hle =>
      rw [wrap32_of_range (by omega) (hroom hplace)] at hle ⊢
      exact .inr ⟨rfl, .inl ⟨hle, by simp [wasRefused, hplace], by simp [wasRefused]⟩⟩
  | refused hplace hgt =>
      have hoffers : l.offers = true := by
        unfold Local.WellPlaced at hl
        by_contra hoffers
        simp [hoffers, hplace, Place.Counted] at hl
      rw [wrap32_of_range (by omega) (hroom hplace)] at hgt ⊢
      exact .inr ⟨rfl, .inr ⟨not_le.mp hgt, by simp [wasRefused, hplace],
        by simp [wasRefused, hoffers]⟩⟩
  | created hplace | offered hplace | polled hplace | countedDown hplace =>
      exact .inl ⟨rfl, by simp [wasRefused, hplace]⟩
  | moved hplace =>
      have hoffers : l.offers = false := by
        unfold Local.WellPlaced at hl
        by_contra hoffers
        rw [Bool.not_eq_false] at hoffers
        rw [if_pos hoffers] at hl
        obtain h | h | ⟨people, h⟩ | h := hl <;>
          · rw [h] at hplace
            cases hplace
      exact .inl ⟨rfl, by simp [wasRefused, hoffers]⟩
  | flagged => exact .inl ⟨rfl, rfl⟩

end Effects

/-! ## The machine -/

section Machine

variable [DecidableEq τ]

lemma inv_init (h : (machine τ maxCount).init s) : Inv maxCount s := by
  obtain ⟨hshared, hthreads⟩ := h
  replace hshared : s.shared = .initial maxCount := hshared
  have hstart : ∀ t, (s.thread t).WellPlaced ∧ (s.thread t).place ≠ .ended ∧
      toCreate (s.thread t) = 0 ∧ inHand (s.thread t) = 0 ∧ uncounted (s.thread t) = 0 ∧
      (s.thread t).polled = [] := by
    intro t
    rcases hthreads t with h | ⟨b, h⟩ | h | ⟨b, h⟩ <;> rw [h]
    · exact ⟨.inl rfl, nofun, rfl, rfl, rfl, rfl⟩
    · exact ⟨.inl rfl, nofun, rfl, rfl, rfl, rfl⟩
    · exact ⟨.inl rfl, nofun, rfl, rfl, rfl, rfl⟩
    · exact ⟨.inl rfl, nofun, rfl, rfl, rfl, rfl⟩
  have hrefused : s.total wasRefused = 0 := by
    apply Threads.State.total_eq_zero
    intro t
    simp [wasRefused, (hstart t).2.1]
  have htoCreate : s.total toCreate = 0 := Threads.State.total_eq_zero fun t => (hstart t).2.2.1
  have hinHand : s.total inHand = 0 := Threads.State.total_eq_zero fun t => (hstart t).2.2.2.1
  have hpolled : (s.total fun l => (l.polled : Multiset People)) = 0 := by
    apply Threads.State.total_eq_zero
    intro t
    simp [(hstart t).2.2.2.2.2]
  have hlatch : (s.total fun l => (l.polled.length : ℤ) - uncounted l) = 0 := by
    apply Threads.State.total_eq_zero
    intro t
    simp [(hstart t).2.2.2.2.1, (hstart t).2.2.2.2.2]
  refine ⟨fun t => (hstart t).1, ?_, ?_, fun t _ hended => absurd hended (hstart t).2.1, ?_, ?_, ?_,
    ?_⟩
  · rw [hshared]
    exact le_rfl
  · rw [hshared, hrefused]
    simp [Shared.initial]
  · rw [hshared, htoCreate]
    simp [Shared.initial]
  · rw [hshared, hinHand]
    rfl
  · rw [hshared, hpolled]
    rfl
  · rw [hshared, hlatch]
    simp [Shared.initial]

omit [DecidableEq τ] in
/-- An admission or a refusal does not make the counter overflow. -/
lemma Inv.room (hs : Inv maxCount s) (hbound : maxCount + offerers s < 2 ^ 31) {t : τ}
    (hplace : (s.thread t).place = .incrementing) : s.shared.count + 1 < 2 ^ 31 := by
  have hoffers : (s.thread t).offers = true := by
    have hwell := hs.placed t
    unfold Local.WellPlaced at hwell
    by_contra hoffers
    simp [hoffers, hplace, Place.Counted] at hwell
  -- this thread is one of those that offer and are not refused
  have hone : (1 : ℤ) ≤
      ∑ u, ((if (s.thread u).offers then 1 else 0) - wasRefused (s.thread u)) := by
    have hnonneg : ∀ u ∈ Finset.univ,
        (0 : ℤ) ≤ (if (s.thread u).offers then 1 else 0) - wasRefused (s.thread u) := by
      intro u _
      unfold wasRefused
      split_ifs <;> simp_all
    have hsingle := Finset.single_le_sum hnonneg (Finset.mem_univ t)
    simpa [wasRefused, hoffers, hplace] using hsingle
  have hsplit : ∑ u, ((if (s.thread u).offers then 1 else 0) - wasRefused (s.thread u)) =
      (offerers s : ℤ) - s.total wasRefused := by
    simp only [offerers, Threads.State.total, Finset.sum_sub_distrib, Nat.cast_sum, Nat.cast_ite,
      Nat.cast_one, Nat.cast_zero]
  have hcount := hs.count_le
  omega

omit [DecidableEq τ] in
/-- The latch is not open as long as a thread has to count down. -/
lemma Inv.closed (hs : Inv maxCount s) {t : τ} {people : People}
    (hplace : (s.thread t).place = .countingDown people) : 0 < s.shared.countDownLatch := by
  have hone : (1 : ℤ) ≤ s.total uncounted := by
    have hnonneg : ∀ u ∈ Finset.univ, (0 : ℤ) ≤ uncounted (s.thread u) := by
      intro u _
      unfold uncounted
      split <;> omega
    have hsingle := Finset.single_le_sum hnonneg (Finset.mem_univ t)
    simpa [uncounted, hplace, Threads.State.total] using hsingle
  have hlatch := hs.latch_eq
  have hpolled := hs.total_polled
  have hoffered := hs.length_offered
  have hcreated := hs.created_le
  omega

/-- A thread that offers and has ended was refused. -/
lemma wasRefused_eq_one_iff {l : Local} :
    wasRefused l = 1 ↔ l.offers = true ∧ l.place = .ended := by
  unfold wasRefused
  split_ifs with h
  · simp [h]
  · simpa using h

/-- **One move keeps the balances.** -/
lemma inv_step (hbound : maxCount + offerers s < 2 ^ 31) (hs : Inv maxCount s)
    (h : (machine τ maxCount).step s a = some s') : Inv maxCount s' := by
  obtain ⟨t, b⟩ := a
  obtain ⟨x, l, heffect, rfl⟩ := step_cases h
  have hroom := fun hplace => hs.room hbound (t := t) hplace
  have hnonneg := hs.count_nonneg
  have hle := hs.count_le
  have hrefused : (s.after t (x, l)).total wasRefused + wasRefused (s.thread t) =
      s.total wasRefused + wasRefused l := s.total_after wasRefused t (x, l)
  have hcount := heffect.count_cases (hs.placed t) hnonneg hroom
  refine ⟨?_, ?_, ?_, ?_, Threads.State.balance_after hs.quota
      (heffect.keeps_quota hnonneg hroom),
    Threads.State.balance_after hs.created heffect.keeps_objects,
    Threads.State.balance_after hs.offered heffect.keeps_offered,
    Threads.State.balance_after hs.latch
      (congrArg ((maxCount : ℤ) + ·) (heffect.keeps_latch fun people => hs.closed).symm)⟩
  · exact Threads.State.forall_after (J := fun (_ : Shared) (l : Local) => l.WellPlaced)
      (heffect.keeps_placed (hs.placed t)) fun u _ => hs.placed u
  · simp only [Threads.State.after_shared]
    omega
  · have htotal : 0 ≤ s.total wasRefused := by
      apply Threads.State.total_nonneg
      intro u
      unfold wasRefused
      split_ifs <;> omega
    simp only [Threads.State.after_shared]
    omega
  · refine Threads.State.forall_after
      (J := fun (x : Shared) (l : Local) =>
      l.offers = true → l.place = .ended → (maxCount : ℤ) < x.count) ?_ ?_
    · intro hoffers hplace
      have hone : wasRefused l = 1 := wasRefused_eq_one_iff.mpr ⟨hoffers, hplace⟩
      change (maxCount : ℤ) < x.count
      rcases hcount with ⟨hsame, hsame'⟩ | ⟨-, ⟨-, -, hzero⟩ | ⟨hpassed, -⟩⟩
      · obtain ⟨hoffers', hplace'⟩ := wasRefused_eq_one_iff.mp (hsame'.symm.trans hone)
        have hpassed := hs.passed t hoffers' hplace'
        omega
      · omega
      · exact hpassed
    · intro u _ hoffers hplace
      have hpassed := hs.passed u hoffers hplace
      change (maxCount : ℤ) < x.count
      omega

omit [Fintype τ] in
/-- The latch only goes down. -/
lemma latch_step (h : (machine τ maxCount).step s a = some s')
    (hopen : s.shared.countDownLatch = 0) : s'.shared.countDownLatch = 0 := by
  obtain ⟨t, b⟩ := a
  obtain ⟨x, l, heffect, rfl⟩ := step_cases h
  cases heffect with
  | countedDown => simp [hopen]
  | _ => exact hopen

lemma offerers_step (h : (machine τ maxCount).step s a = some s') : offerers s' = offerers s := by
  obtain ⟨t, b⟩ := a
  obtain ⟨x, l, heffect, rfl⟩ := step_cases h
  have htotal := s.total_after (fun l => if l.offers then 1 else 0) t (x, l)
  rw [heffect.offers_eq] at htotal
  exact Nat.add_right_cancel htotal

/-- For any number of threads, in every interleaving: at most `maxCount` objects are offered, and as
many when all threads that offer have ended; each is polled by at most one thread, once; and when
the latch is open, all have been polled, the deque is empty, and this remains so. -/
theorem promises_of_run {ms : List (DequeMove τ)} (h : (machine τ maxCount).Run ms s)
    (hbound : maxCount + offerers s < 2 ^ 31) :
    Promises maxCount s ∧
      ∀ m ∈ ms, m.post.shared.countDownLatch = 0 → Drained maxCount s := by
  have hrun : maxCount + offerers s < 2 ^ 31 → Inv maxCount s :=
    h.invariant (I := fun s => maxCount + offerers s < 2 ^ 31 → Inv maxCount s)
      (fun _ hinit _ => inv_init hinit) fun _ _ _ hs hstep hbound => by
        rw [offerers_step hstep] at hbound
        exact inv_step hbound (hs hbound) hstep
  have hinv := hrun hbound
  refine ⟨hinv.promises, fun m hm hopen => hinv.drained ?_⟩
  exact h.stable (I := fun _ => True) (Q := fun s => s.shared.countDownLatch = 0)
    (fun _ _ => trivial) (fun _ _ _ _ _ => trivial) (fun _ _ _ _ hstep => latch_step hstep) hm hopen

/-- A thread that offers, and one that polls. -/
def oneEach : DequeState Duo :=
  ⟨.initial 1, fun
    | .first => OfferRunnable
    | .second => PollRunnable⟩

lemma init_oneEach : (machine Duo 1).init oneEach := by
  refine ⟨rfl, fun t => ?_⟩
  cases t with
  | first => exact .inl rfl
  | second => exact .inr (.inr (.inl rfl))

/-- One object is offered and polled, and the next one refused. -/
def oneObject : List (DequeMove Duo) :=
  (machine Duo 1).moves oneEach
    [(.first, .go), (.first, .go), (.second, .go), (.first, .go), (.second, .go), (.first, .go),
      (.second, .go)]

theorem promises_of_run_oneObject :
    ∃ s, (machine Duo 1).Run oneObject s ∧ (s.thread .first).place = .ended ∧
      (s.thread .second).polled = [0] ∧ Promises 1 s ∧ Drained 1 s := by
  have hrun : (machine Duo 1).Run oneObject _ := Machine.run_of_play init_oneEach rfl
  obtain ⟨hpromises, hdrained⟩ := promises_of_run hrun (by decide)
  exact ⟨_, hrun, rfl, rfl, hpromises,
    hdrained (oneObject.getLast (by decide)) (List.getLast_mem _) rfl⟩

end Machine

end OfferPoll

end LearnJava
