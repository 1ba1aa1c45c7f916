import LearnJava.ThreadTest.ProviderSums

/-!
# `main` of `TestProviderAndCustomer` comes to its end

Every move lowers a number, so that all runs are finite.  As long as `main` has not come to its end
some move other than a return of `wait` without notification is possible: before its interrupts a
customer can count down, and after them every customer can go on until it returns.  Only such a
return can let `destroy` find a thread in its group.
-/

namespace LearnJava

namespace TestProviderAndCustomer

open Customer (Shared Local)

/-! ## Finitely many moves -/

/-- The steps `main` has left, with what its offers and interrupts cause. -/
def Place.left (n missions : ℕ) : Place → ℕ
  | .submitting index => (n - index) + 4 * missions + 4 * n + 9
  | .offering index => 4 * (missions - index) + 4 * n + 8
  | .awaiting => 4 * n + 7
  | .shuttingDown => 4 * n + 6
  | .destroying => 4 * n + 5
  | .interrupting index => 3 * (n - index) + n + 4
  | .waiting => n + 3
  | .awake => n + 2
  | .getting index _ => (n - index) + 1
  | .printed _ | .failed => 0

/-- A thread that has not left its group yet. -/
def staying (exited : Bool) : ℕ := if exited then 0 else 1

/-- What is left to be done. -/
def distance {n : ℕ} (missions : ℕ) (s : System n) : ℕ :=
  s.place.left n missions + ∑ c, (s.customer c).potential + ∑ c, staying (s.exited c)

section Step

variable {n missions : ℕ} {s s' : System n} {a : Act n}

lemma left_follows {place : Place} (h : Follows missions s s.place place) :
    place.left n missions < s.place.left n missions := by
  generalize s.place = old at h
  cases h <;> simp only [Place.left] <;> omega

/-- The customer takes a step, or is given something to do. -/
lemma potential_put {c : Fin n} {a : Customer.Act} {r : Shared × Local}
    (h : Customer.act s.shared (s.customer c) a = some r) :
    ∑ d, (Function.update s.customer c r.2 d).potential + (if a.isStep then 1 else 0) ≤
      ∑ d, (s.customer d).potential + a.causes := by
  obtain ⟨x, l⟩ := r
  have hle := (Customer.act_cases h).potential_le
  have hsum := sum_update_add Local.potential s.customer c l
  simp only at hsum ⊢
  omega

variable [NeZero n]

/-- **Every move lowers the distance.** -/
lemma distance_lt (h : (machine n missions).step s a = some s') :
    distance missions s' < distance missions s := by
  have hexit : ∀ {c : Fin n}, s.exited c = false →
      ∑ d, staying (Function.update s.exited c true d) + 1 = ∑ d, staying (s.exited d) := by
    intro c hexited
    have hsum := sum_update_add staying s.exited c true
    simpa [staying, hexited] using hsum
  cases step_cases h with
  | follows hfollows =>
      have hlt := left_follows hfollows
      simp only [distance]
      omega
  | @offered index r hplace hlt hact =>
      have hle := potential_put hact
      simp only [distance, System.put, hplace, Place.left, Customer.Act.causes] at hle ⊢
      omega
  | @refused index hplace hlt hact =>
      simp only [distance, hplace, Place.left]
      omega
  | @interrupted index r hplace hlt hact =>
      have hle := potential_put hact
      simp only [distance, System.put, hplace, Place.left, Customer.Act.causes] at hle ⊢
      omega
  | woken hplace =>
      simp only [distance, hplace, Place.left]
      omega
  | @worked c throws r hlt hact =>
      have hle := potential_put hact
      rw [if_pos (isStep_act throws)] at hle
      have hcauses : (if throws then Customer.Act.throw else Customer.Act.go).causes = 0 := by
        cases throws <;> rfl
      simp only [distance, System.put]
      omega
  | notified hreturned hexited hplace hlast =>
      have hstays := hexit hexited
      simp only [distance, hplace, Place.left]
      omega
  | left hreturned hexited hplace hnot =>
      have hstays := hexit hexited
      simp only [distance]
      omega

/-! ## The end -/

/-- A customer that has a step left can take it. -/
lemma customer_moves {c : Fin n} {a : Customer.Act} {r : Shared × Local} (ha : a.isStep)
    (hlt : (c : ℕ) < s.place.submitted n)
    (h : Customer.act s.shared (s.customer c) a = some r) :
    ∃ b s', b ≠ .wake ∧ (machine n missions).step s b = some s' := by
  obtain rfl | rfl := ha
  · refine ⟨.customer c false, s.put c r, by simp, ?_⟩
    simp only [machine, step, if_pos hlt]
    exact congrArg (Option.map (s.put c)) h
  · refine ⟨.customer c true, s.put c r, by simp, ?_⟩
    simp only [machine, step, if_pos hlt]
    exact congrArg (Option.map (s.put c)) h

/-- `main` waits for the customers to begin, and one of them has not. -/
lemma moves_of_awaiting (hs : Inv missions s) (hplace : s.place = .awaiting) :
    ∃ b s', b ≠ .wake ∧ (machine n missions).step s b = some s' := by
  by_cases hzero : s.shared.countDownLatch = 0
  · refine ⟨.main, { s with place := .shuttingDown }, nofun, ?_⟩
    simp only [machine, step, stepMain, hplace, if_pos hzero]
  · rw [hs.latch] at hzero
    obtain ⟨c, -, hc⟩ := Finset.exists_ne_zero_of_sum_ne_zero hzero
    have hbeginning : (s.customer c).place = .countingDown := by
      by_contra hnot
      exact hc (if_neg hnot)
    have hact : ∃ r, Customer.act s.shared (s.customer c) .go = some r := by
      simp only [Customer.act, Customer.advance, hbeginning]
      exact ⟨_, rfl⟩
    obtain ⟨r, hr⟩ := hact
    exact customer_moves (.inl rfl) (by rw [hplace]; exact c.isLt) hr

/-- `main` waits for the threads, and one of them is there. -/
lemma moves_of_waiting (hs : Inv missions s) (hplace : s.place = .waiting) :
    ∃ b s', b ≠ .wake ∧ (machine n missions).step s b = some s' := by
  have hok := hs.place
  rw [hplace] at hok
  obtain ⟨c, hc⟩ := hok
  by_cases hreturned : (s.customer c).place = .returned
  · have hexit : (s.customer c).place = .returned ∧ s.exited c = false ∧
        s.place.CanExit = true := ⟨hreturned, hc, by rw [hplace]; rfl⟩
    by_cases hlast : s.place = .waiting ∧ ∀ d, Function.update s.exited c true d = true
    · refine ⟨.exit c,
        { s with exited := Function.update s.exited c true, place := .awake }, nofun, ?_⟩
      simp only [machine, step, exit, if_pos hexit, if_pos hlast]
    · refine ⟨.exit c, { s with exited := Function.update s.exited c true }, nofun, ?_⟩
      simp only [machine, step, exit, if_pos hexit, if_neg hlast]
  · have hcustomer := hs.customer c
    obtain ⟨a, r, ha, hact⟩ := hcustomer.inv.goes_on
      (hcustomer.stopping (by rw [hplace]; exact c.isLt)) hreturned
    exact customer_moves ha (by rw [hplace]; exact c.isLt) hact

/-- **`main` and the customers are never stuck** before the end of `main`. -/
lemma ended_of_quiet (hs : Inv missions s) (hquiet : (machine n missions).Quiet (· ≠ .wake) s) :
    (∃ result, s.place = .printed result) ∨ s.place = .failed := by
  by_contra hnot
  suffices hmoves : ∃ b s', b ≠ .wake ∧ (machine n missions).step s b = some s' from
    Machine.not_quiet_iff.mpr hmoves hquiet
  have hmain : stepMain missions s ≠ none →
      ∃ b s', b ≠ .wake ∧ (machine n missions).step s b = some s' := by
    intro hsome
    obtain ⟨s', hs'⟩ := Option.ne_none_iff_exists'.mp hsome
    exact ⟨.main, s', nofun, hs'⟩
  have hok := hs.place
  cases hplace : s.place with
  | submitting index => exact hmain (by simp [stepMain, hplace])
  | offering index =>
      refine hmain ?_
      simp only [stepMain, hplace]
      split_ifs
      · split <;> simp
      · simp
  | awaiting => exact moves_of_awaiting hs hplace
  | shuttingDown => exact hmain (by simp [stepMain, hplace])
  | destroying => exact hmain (by simp [stepMain, hplace])
  | interrupting index =>
      refine hmain ?_
      simp only [stepMain, hplace]
      split_ifs <;> simp [Customer.act]
  | waiting => exact moves_of_waiting hs hplace
  | awake => exact hmain (by simp [stepMain, hplace])
  | getting index result =>
      rw [hplace] at hok
      refine hmain ?_
      simp only [stepMain, hplace]
      split_ifs with hlt hreturned
      · simp
      · exact absurd ((hs.customer _).exited (hok.2.1 _)).1 hreturned
      · simp
  | printed result => exact absurd (.inl ⟨result, hplace⟩) hnot
  | failed => exact absurd (.inr hplace) hnot

/-! ## Whole runs -/

/-- Without a return of `wait` that no thread has caused, `destroy` finds no thread. -/
def NotFooled (s : System n) : Prop :=
  (s.place = .awake → ∀ c, s.exited c = true) ∧ s.place ≠ .failed

omit [NeZero n] in
lemma notFooled_initial : NotFooled (.initial n) := by simp [NotFooled, System.initial]

omit [NeZero n] in
lemma notFooled_follows {place : Place} (hs : NotFooled s)
    (h : Follows missions s s.place place) :
    NotFooled { s with place } := by
  obtain ⟨hawake, hfailed⟩ := hs
  generalize s.place = old at h hawake hfailed
  cases h with
  | notDestroyed h => exact absurd (hawake rfl) h
  | _ => exact ⟨nofun, nofun⟩

lemma notFooled_step (hs : NotFooled s) (h : (machine n missions).step s a = some s')
    (ha : a ≠ .wake) : NotFooled s' := by
  cases step_cases h with
  | follows hfollows => exact notFooled_follows hs hfollows
  | offered | refused | interrupted => exact ⟨nofun, nofun⟩
  | woken hplace => exact absurd rfl ha
  | worked hlt hact => exact hs
  | notified hreturned hexited hplace hlast => exact ⟨fun _ => hlast, nofun⟩
  | left hreturned hexited hplace hnot =>
      refine ⟨fun hawake => ?_, hs.2⟩
      simp [show s.place = .awake from hawake, Place.CanExit] at hplace

lemma offered_of_not_early {place : Place} (h : place.Early = false) :
    place.offered missions = missions := by
  cases place <;> simp_all [Place.Early, Place.offered]

/-- For any number of customers, any ints up to a bound that is an `int`, and in every interleaving:
what `main` prints is the 32-bit sum of all ints, a customer that has returned has added its share
of them in order, and `main` fails only after a return of `wait` without notification. -/
theorem main_prints (hmissions : missions < 2 ^ 31) {ms : List (SystemMove n)}
    (h : (machine n missions).Run ms s) :
    (∀ result, s.place = .printed result → result = wrap32 (sumUpTo missions)) ∧
      (∀ c, (s.customer c).place = .returned → (s.customer c).added = missionsOf c missions ∧
        (s.customer c).result = wrap32 (missionsOf c missions).sum) ∧
      (s.place = .failed → ∃ m ∈ ms, m.label = .wake) := by
  have hinv : Inv missions s := h.invariant (fun _ => inv_init) fun _ _ _ => inv_step hmissions
  refine ⟨fun result hplace => ?_, fun c hreturned => ?_, fun hfailed => ?_⟩
  · have hok := hinv.place
    rw [hplace] at hok
    exact hok
  · have hinterrupting := ((hinv.customer c).inv.returned hreturned).1
    have hearly : s.place.Early = false := by
      by_contra hearly
      simp [hinv.early (by simpa using hearly)] at hinterrupting
    have hresult := (hinv.customer c).result_eq hreturned
    rwa [offered_of_not_early hearly] at hresult
  · by_contra hnone
    have hnot : NotFooled s := h.invariant_of_moves (I := NotFooled) (C := fun m => m.label ≠ .wake)
      (fun s hs => by rw [show s = .initial n from hs]; exact notFooled_initial)
      (fun s a s' hs hstep ha => notFooled_step hs hstep ha)
      fun m hm hwake => hnone ⟨m, hm, hwake⟩
    exact hnot.2 hfailed

/-- Two customers and the ints up to 3; the first customer has just begun when it is interrupted,
and the second one is interrupted before it takes its int but finds it all the same. -/
def threeMissions : List (Act 2) :=
  List.replicate 7 .main ++ [.customer 0 false, .customer 1 false] ++ List.replicate 6 .main ++
    [.customer 0 false, .customer 0 true] ++ List.replicate 7 (.customer 0 false) ++ [.exit 0] ++
    List.replicate 4 (.customer 1 false) ++ [.customer 1 true, .customer 1 false, .exit 1] ++
    List.replicate 4 .main

theorem main_prints_threeMissions :
    (((machine 2 3).play (.initial 2) threeMissions).getD (.initial 2)).place = .printed 6 ∧
      ∀ result, (((machine 2 3).play (.initial 2) threeMissions).getD (.initial 2)).place =
        .printed result → result = wrap32 (sumUpTo 3) :=
  ⟨by decide +kernel, (main_prints (by norm_num)
    (Machine.run_getD_of_play (System.initial 2) rfl (by decide +kernel))).1⟩

/-- Every run has at most `8 * n + 4 * missions + 9` moves, and one without a return of `wait` that
no thread has caused can be continued, without any, until `main` has printed the sum. -/
theorem main_completes (hmissions : missions < 2 ^ 31) {ms : List (SystemMove n)}
    (h : (machine n missions).Run ms s) :
    ms.length ≤ 8 * n + 4 * missions + 9 ∧
      ((∀ m ∈ ms, m.label ≠ .wake) → ∃ ms' s', (machine n missions).Run (ms ++ ms') s' ∧
        (∀ m ∈ ms', m.label ≠ .wake) ∧ s'.place = .printed (wrap32 (sumUpTo missions))) := by
  have hinit : ∀ s, (machine n missions).init s →
      Inv missions s ∧ distance missions s ≤ 8 * n + 4 * missions + 9 := by
    intro s hs
    refine ⟨inv_init hs, ?_⟩
    obtain rfl : s = .initial n := hs
    simp only [distance, System.initial, Place.left, staying, Local.new, Local.potential,
      Customer.Place.left]
    simp
    omega
  refine ⟨?_, fun hnowake => ?_⟩
  · have hle := h.length_add_variant_le (distance missions) hinit
      (fun _ _ _ => inv_step hmissions) fun _ _ _ _ => distance_lt
    omega
  · obtain ⟨ms', s', hrun, hown, hquiet⟩ := h.exists_quiet (· ≠ .wake) (distance missions)
      (fun s hs => (hinit s hs).1) (fun _ _ _ => inv_step hmissions) fun _ _ _ _ _ => distance_lt
    have hinv : Inv missions s' :=
      hrun.invariant (fun _ => inv_init) fun _ _ _ => inv_step hmissions
    have hnot : NotFooled s' :=
      hrun.invariant_of_moves (I := NotFooled) (C := fun m => m.label ≠ .wake)
        (fun s hs => by rw [show s = .initial n from hs]; exact notFooled_initial)
        (fun s a s' hs hstep ha => notFooled_step hs hstep ha)
        fun m hm => (List.mem_append.mp hm).elim (hnowake m) (hown m)
    obtain ⟨result, hplace⟩ := (ended_of_quiet hinv hquiet).resolve_right hnot.2
    have hok := hinv.place
    rw [hplace] at hok
    exact ⟨ms', s', hrun, hown, hplace.trans (congrArg Place.printed hok)⟩

/-- The first three moves of `main`, in its loop over three hundred ints. -/
theorem main_completes_submitted : ∃ ms' s', (machine 3 300).Run
    ((machine 3 300).moves (.initial 3) (List.replicate 3 .main) ++ ms') s' ∧
      (∀ m ∈ ms', m.label ≠ .wake) ∧ s'.place = .printed (wrap32 (sumUpTo 300)) :=
  (main_completes (by norm_num) (Machine.run_getD_of_play (System.initial 3) rfl
    (by decide +kernel))).2 fun m hm hwake => by
      have hlabel := Machine.label_mem_of_mem_moves hm
      rw [hwake] at hlabel
      simp at hlabel

end Step

end TestProviderAndCustomer

end LearnJava
