import LearnJava.Db.ConnectionPool

/-!
# Where the permits are

A permit of the semaphore is free, or it is with a call of `getConnection` that has not handed out
its connection yet, or with a connection that is checked out, or with a call of
`releaseConnection` that has not given it back yet.  One action keeps the number of permits, except
for the permit of a `getConnection` whose `createConnection` throws (`permits_of_effect`).

That exception, a connection handed out by a call that got no permit, and a second release of one
connection are the ways in which permits get lost or appear (`ConservesPermits`); without them
the permits are conserved in every interleaving (`permits_conserved`).
-/

namespace LearnJava

namespace ConnectionPool

variable {τ κ : Type}

/-! ## The property, and its condition -/

/-- The permits not in the semaphore are those of the connections checked out, and a call without
a connection has no permit. -/
structure Conserved (maxConnectionCount : ℕ) (s : PoolState τ κ) : Prop where
  sum : Quiet s → s.shared.permits + s.shared.checkedOut.length = maxConnectionCount
  without : ∀ t, (s.thread t).phase = .returned (.connection none) ∨
    (∃ e, (s.thread t).phase = .returned (.thrown e)) → (s.thread t).took = false

/-- No connection is released twice, a call gets a connection only if it got a permit, and
`createConnection` throws only in a call that got none. -/
structure ConservesPermits (m : PoolMove τ κ) : Prop where
  proper : ProperRelease m
  polls_with_permit : (m.pre.thread m.label.1).phase = .polling →
    m.pre.shared.freeConnectionQueue ≠ [] → (m.pre.thread m.label.1).took = true
  creates_with_permit : ∀ c, m.label.2 = .create c → (m.pre.thread m.label.1).took = true
  fails_without_permit : m.label.2 = .fail → (m.pre.thread m.label.1).took = false

instance [DecidableEq κ] (m : PoolMove τ κ) : Decidable (ConservesPermits m) :=
  decidable_of_iff (ProperRelease m ∧
      ((m.pre.thread m.label.1).phase = .polling → m.pre.shared.freeConnectionQueue ≠ [] →
        (m.pre.thread m.label.1).took = true) ∧
      (∀ c, m.label.2 = .create c → (m.pre.thread m.label.1).took = true) ∧
      (m.label.2 = .fail → (m.pre.thread m.label.1).took = false))
    ⟨fun h => ⟨h.1, h.2.1, h.2.2.1, h.2.2.2⟩,
      fun h => ⟨h.proper, h.polls_with_permit, h.creates_with_permit, h.fails_without_permit⟩⟩

/-! ## One action -/

/-- The permit a call under way is accountable for. -/
def permitOf (l : Local κ) : ℕ :=
  match l.phase with
  | .polling | .creating | .adding _ => if l.took then 1 else 0
  | .releasing _ => 1
  | _ => 0

/-- The permit that goes away with an exception of the driver. -/
def leaked (l : Local κ) : Act κ → ℕ
  | .fail => permitOf l
  | _ => 0

/-- A call that has a connection to hand out has a permit, and one that ended without a
connection has none. -/
structure Local.Accounted (l : Local κ) : Prop where
  adding : ∀ c, l.phase = .adding c → l.took = true
  without : l.phase = .returned (.connection none) ∨ (∃ e, l.phase = .returned (.thrown e)) →
    l.took = false
  releasing : (∃ c, l.phase = .checking c ∨ l.phase = .releasing c) → l.took = false

lemma permitOf_atRest {l : Local κ} (h : l.phase.AtRest) : permitOf l = 0 := by
  unfold permitOf
  cases hph : l.phase <;> simp_all [Phase.AtRest]

section Effects

variable [DecidableEq κ] {p p' : Pool κ} {l l' : Local κ} {a : Act κ}

/-- **One action keeps the permits**, up to the one that leaks. -/
lemma permits_of_effect (h : Effect p l a p' l')
    (hproper : ∀ c, l.phase = .checking c → c ∈ p.usedConnectionSet → c ∈ p.checkedOut)
    (hadding : ∀ c, l.phase = .adding c → l.took = true)
    (hover : ∀ c, l.phase = .releasing c → p.permits + 1 < 2 ^ 31) :
    p'.permits + p'.checkedOut.length + permitOf l' + leaked l a =
      p.permits + p.checkedOut.length + permitOf l := by
  cases h with
  | called hrest hph =>
      rw [permitOf_atRest hrest]
      have hleaked : leaked l a = 0 := by cases a <;> simp [leaked, permitOf_atRest hrest]
      obtain rfl | ⟨c, rfl⟩ := hph <;> simp [permitOf, hleaked]
  | acquired hph h =>
      simp only [permitOf, leaked, hph, if_true]
      omega
  | added hph =>
      have htook := hadding _ hph
      simp only [permitOf, leaked, hph, htook, if_true, List.length_append, List.length_singleton]
      omega
  | @admitted c hph hused =>
      have hmem := hproper c hph hused
      have hlen := List.length_erase_of_mem hmem
      have hpos := List.length_pos_of_mem hmem
      simp only [permitOf, leaked, hph]
      omega
  | gaveBack hph =>
      simp only [permitOf, leaked, hph]
      omega
  | overflowed hph h => exact absurd (hover _ hph) h
  | timedOut hph | interrupted hph | polled hph | foundNone hph | created hph | refused hph
  | removed hph | offered hph | dropped hph => simp [permitOf, leaked, hph]
  | failed hph => simp [permitOf, leaked, hph]

lemma accounted_of_effect (h : Effect p l a p' l') (hl : l.Accounted)
    (hpolls : l.phase = .polling → p.freeConnectionQueue ≠ [] → l.took = true)
    (hcreates : ∀ c, a = .create c → l.took = true) (hfails : a = .fail → l.took = false) :
    l'.Accounted := by
  cases h with
  | called hrest hph => obtain rfl | ⟨c, rfl⟩ := hph <;> constructor <;> simp
  | polled hph h =>
      have htook := hpolls hph (by rw [h]; exact List.cons_ne_nil _ _)
      constructor <;> simp [htook]
  | created => constructor <;> simp [hcreates _ rfl]
  | failed => constructor <;> simp [hfails rfl]
  | admitted hph =>
      have htook := hl.releasing ⟨_, .inl hph⟩
      constructor <;> simp [htook]
  | overflowed hph =>
      have htook := hl.releasing ⟨_, .inr hph⟩
      constructor <;> simp [htook]
  | _ => constructor <;> simp

end Effects

/-! ## Every run -/

section Runs

variable [DecidableEq κ] [Fintype τ] [DecidableEq τ] {n : ℕ} {s s' : PoolState τ κ}
  {a : τ × Act κ}

/-- All permits are accounted for. -/
structure PermitInv (n : ℕ) (s : PoolState τ κ) : Prop where
  balance : n = s.shared.permits + s.shared.checkedOut.length + s.total permitOf
  accounted : ∀ t, (s.thread t).Accounted

omit [DecidableEq κ] in
lemma accounted_idle : (⟨.idle, false⟩ : Local κ).Accounted := by
  constructor <;> simp

omit [DecidableEq κ] [DecidableEq τ] in
lemma total_permitOf_idle (h : ∀ t, s.thread t = ⟨.idle, false⟩) : s.total permitOf = 0 :=
  Threads.State.total_eq_zero fun t => by rw [h t]; rfl

lemma permitInv_init (h : (machine τ κ n).init s) : PermitInv n s := by
  obtain ⟨hpool, hidle⟩ := h
  have hshared : s.shared = Pool.new n := hpool
  refine ⟨?_, fun t => ?_⟩
  · rw [total_permitOf_idle hidle, hshared]
    rfl
  · rw [show s.thread t = ⟨.idle, false⟩ from hidle t]
    exact accounted_idle

/-- **One move keeps the permits.** -/
lemma permitInv_step (hn : n < 2 ^ 31) (hs : PermitInv n s)
    (h : (machine τ κ n).step s a = some s') (hc : ConservesPermits ⟨s, a, s'⟩) :
    PermitInv n s' := by
  obtain ⟨t, b⟩ := a
  obtain ⟨p, l, heffect, rfl⟩ := step_cases h
  have hbalance := hs.balance
  have hpermits := permits_of_effect heffect hc.proper (hs.accounted t).adding fun c hph => by
    -- the thread that gives a permit back has it until then
    have hone : permitOf (s.thread t) = 1 := by simp [permitOf, hph]
    have hle := s.le_total permitOf t
    omega
  have hleaked : leaked (s.thread t) b = 0 := by
    cases heffect with
    | failed hph =>
        have htook : (s.thread t).took = false := hc.fails_without_permit rfl
        simp [leaked, permitOf, hph, htook]
    | called hrest => cases b <;> simp [leaked, permitOf_atRest hrest]
    | _ => rfl
  refine ⟨Threads.State.balance_after hs.balance ?_, ?_⟩
  · simp only [Threads.State.after_shared]
    omega
  · refine Threads.State.forall_after (J := fun _ l => Local.Accounted l) ?_ fun u _ =>
      hs.accounted u
    exact accounted_of_effect heffect (hs.accounted t) hc.polls_with_permit hc.creates_with_permit
      hc.fails_without_permit

omit [DecidableEq κ] [DecidableEq τ] in
lemma PermitInv.conserved (hs : PermitInv n s) : Conserved n s := by
  refine ⟨fun hquiet => ?_, fun t => (hs.accounted t).without⟩
  have hzero : s.total permitOf = 0 :=
    Threads.State.total_eq_zero fun t => permitOf_atRest (hquiet t)
  have hbalance := hs.balance
  omega

/-- In every interleaving whose moves conserve permits, the semaphore's permits and the connections
checked out add up to `maxConnectionCount` whenever no call is in progress, and a call that ended
with an exception or with `null` took no permit. -/
theorem permits_conserved (hn : n < 2 ^ 31) {ms : List (PoolMove τ κ)}
    (h : (machine τ κ n).Run ms s) (hc : ∀ m ∈ ms, ConservesPermits m) : Conserved n s := by
  have hinv : PermitInv n s := h.invariant_of_moves (fun s => permitInv_init)
    (fun s a s' => permitInv_step hn) hc
  exact hinv.conserved

/-- The moves of a thread that takes the only permit and gives it back, and of another one that is
interrupted, and that then waits in vain and gets an exception from `createConnection()`. -/
def usedOnce : List (PoolMove Duo ℕ) :=
  (machine Duo ℕ 1).moves (initial Duo ℕ 1)
    [(.second, .getConnection), (.second, .tryAcquire .interrupted),
      (.first, .getConnection), (.first, .tryAcquire .acquired), (.first, .go), (.first, .create 7),
      (.first, .go), (.second, .getConnection), (.second, .tryAcquire .timedOut), (.second, .go),
      (.second, .fail), (.first, .releaseConnection 7), (.first, .go), (.first, .go), (.first, .go),
      (.first, .go)]

theorem usedOnce_conserves :
    ∃ s, (machine Duo ℕ 1).Run usedOnce s ∧ s.shared.freeConnectionQueue = [7] ∧
      (s.thread .second).phase = .returned (.thrown (.runtimeException .sqlException)) ∧
      Conserved 1 s := by
  have hrun : (machine Duo ℕ 1).Run usedOnce _ := Machine.run_of_play (init_initial Duo ℕ 1) rfl
  exact ⟨_, hrun, rfl, rfl, permits_conserved (by norm_num) hrun (by decide)⟩

/-- The moves of a `getConnection()` whose `createConnection()` throws. -/
def failedCreation : List (PoolMove Unit ℕ) :=
  (machine Unit ℕ 1).moves (initial Unit ℕ 1)
    [((), .getConnection), ((), .tryAcquire .acquired), ((), .go), ((), .fail)]

/-- The permit of the call is lost: none is left, and no connection is checked out. -/
theorem failedCreation_loses_permit :
    ∃ s, (machine Unit ℕ 1).Run failedCreation s ∧ ¬ Conserved 1 s := by
  refine ⟨_, Machine.run_of_play (init_initial Unit ℕ 1) rfl, fun h => ?_⟩
  have hsum := h.sum fun _ => rfl
  exact absurd hsum (by decide)

end Runs

end ConnectionPool

end LearnJava
