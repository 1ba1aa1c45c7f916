import LearnJava.Db.ConnectionPool

/-!
# Calls on a pool that no other thread uses

`getConnection` and `releaseConnection` from call to return, as one function each.
`getConnection_exec` and `releaseConnection_exec` say that they are the atomic steps of
`ConnectionPool`, taken by one thread in a row, and `getConnection_play` and
`releaseConnection_play` that such calls are a part of an interleaving.
-/

namespace LearnJava

namespace ConnectionPool

variable {κ : Type} [DecidableEq κ]

/-- `tryAcquire` without a time-out: it takes a permit if there is one. -/
def Pool.acquired (p : Pool κ) : Pool κ := { p with permits := p.permits - 1 }

/-- `usedConnectionSet.add(c)`, and `c` is handed out. -/
def Pool.handOut (p : Pool κ) (c : κ) : Pool κ :=
  { p with
    usedConnectionSet := insert c p.usedConnectionSet
    checkedOut := p.checkedOut ++ [c] }

/-- `getConnection()`; `driver` is what `DriverManager.getConnection` gives if it is called. -/
def Pool.getConnection (p : Pool κ) (driver : Except Throwable κ) : Except Throwable κ × Pool κ :=
  match p.freeConnectionQueue, driver with
  | c :: rest, _ => (.ok c, { p.acquired with freeConnectionQueue := rest }.handOut c)
  | [], .ok c => (.ok c, { p.acquired with created := p.created ++ [c] }.handOut c)
  | [], .error .sqlException => (.error (.runtimeException .sqlException), p.acquired)
  | [], .error e => (.error e, p.acquired)

/-- `releaseConnection(c)`. -/
def Pool.releaseConnection (p : Pool κ) (c : κ) : Except Throwable Bool × Pool κ :=
  if c ∉ p.usedConnectionSet then (.ok false, p)
  else
    let p := { p with checkedOut := p.checkedOut.erase c }
    if p.permits + 1 < 2 ^ 31 then
      let p := { p with permits := p.permits + 1 }
      if p.freeConnectionQueue.length < p.maxConnectionCount then
        (.ok true, { p with freeConnectionQueue := p.freeConnectionQueue ++ [c] })
      else (.ok false, p)
    else (.error (.error "Maximum permit count exceeded"), p)

/-! ## Which connections the pool holds -/

lemma getConnection_ok {p p' : Pool κ} {driver : Except Throwable κ} {c : κ}
    (h : p.getConnection driver = (.ok c, p')) :
    (p.freeConnectionQueue = c :: p'.freeConnectionQueue ∧ p'.created = p.created) ∨
      p.freeConnectionQueue = [] ∧ p'.freeConnectionQueue = [] ∧ driver = .ok c ∧
        p'.created = p.created ++ [c] := by
  unfold Pool.getConnection at h
  split at h
  · rename_i c' rest hfree
    obtain ⟨hc, rfl⟩ := Prod.mk.inj h
    obtain rfl := Except.ok.inj hc
    exact .inl ⟨hfree, rfl⟩
  · rename_i c' hfree
    obtain ⟨hc, rfl⟩ := Prod.mk.inj h
    obtain rfl := Except.ok.inj hc
    exact .inr ⟨hfree, hfree, rfl, rfl⟩
  · cases h
  · cases h

lemma getConnection_error {p p' : Pool κ} {driver : Except Throwable κ} {e : Throwable}
    (h : p.getConnection driver = (.error e, p')) :
    (p.freeConnectionQueue = [] ∧ ∃ e', driver = .error e') ∧
      p'.freeConnectionQueue = p.freeConnectionQueue ∧ p'.created = p.created ∧
        e ≠ .sqlException := by
  unfold Pool.getConnection at h
  split at h
  · cases h
  · cases h
  · rename_i hfree
    obtain ⟨he, rfl⟩ := Prod.mk.inj h
    obtain rfl := Except.error.inj he
    exact ⟨⟨hfree, _, rfl⟩, rfl, rfl, by simp⟩
  · rename_i e' hne hfree
    obtain ⟨he, rfl⟩ := Prod.mk.inj h
    obtain rfl := Except.error.inj he
    exact ⟨⟨hfree, _, rfl⟩, rfl, rfl, hne⟩

lemma releaseConnection_created (p : Pool κ) (c : κ) :
    (p.releaseConnection c).2.created = p.created := by
  unfold Pool.releaseConnection
  dsimp only
  split_ifs <;> rfl

lemma releaseConnection_free (p : Pool κ) (c : κ) :
    (p.releaseConnection c).2.freeConnectionQueue = p.freeConnectionQueue ∨
      (p.releaseConnection c).2.freeConnectionQueue = p.freeConnectionQueue ++ [c] := by
  unfold Pool.releaseConnection
  dsimp only
  split_ifs
  · exact .inr rfl
  · exact .inl rfl
  · exact .inl rfl
  · exact .inl rfl

/-! ## The atomic steps -/

/-- The reply a call of `getConnection` ends with. -/
def Reply.ofGet : Except Throwable κ → Reply κ
  | .ok c => .connection (some c)
  | .error e => .thrown e

/-- The reply a call of `releaseConnection` ends with. -/
def Reply.ofRelease : Except Throwable Bool → Reply κ
  | .ok b => .released b
  | .error e => .thrown e

/-- How `tryAcquire` without a time-out ends. -/
def Pool.acquire (p : Pool κ) : Acquire := if 0 < p.permits then .acquired else .timedOut

omit [DecidableEq κ] in
lemma Pool.acquired_of_zero {p : Pool κ} (h : ¬0 < p.permits) : p.acquired = p := by
  obtain ⟨m, permits, used, free, created, out⟩ := p
  obtain rfl : permits = 0 := Nat.eq_zero_of_not_pos h
  rfl

lemma act_acquire (p : Pool κ) (took : Bool) :
    act p ⟨.acquiring, took⟩ (.tryAcquire p.acquire) =
      some (p.acquired, ⟨.polling, decide (0 < p.permits)⟩) := by
  by_cases h : 0 < p.permits
  · simp [Pool.acquire, h, act, Pool.acquired]
  · simp [Pool.acquire, h, act, Pool.acquired_of_zero h]

/-- **`getConnection` is a sequence of atomic steps**, where the driver throws nothing unchecked. -/
lemma getConnection_exec (n : ℕ) (p : Pool κ) {driver : Except Throwable κ}
    (hfresh : ∀ c, driver = .ok c → c ∉ p.created)
    (hdriver : ∀ e, driver = .error e → e = .sqlException) :
    ∃ as took, (program κ n).exec p ⟨.idle, false⟩ as =
      some ((p.getConnection driver).2, ⟨.returned (.ofGet (p.getConnection driver).1), took⟩) := by
  -- what is left to do once `tryAcquire` is over
  suffices hrest : ∀ took, ∃ as, (program κ n).exec p.acquired ⟨.polling, took⟩ as =
      some ((p.getConnection driver).2,
        ⟨.returned (.ofGet (p.getConnection driver).1), took⟩) by
    obtain ⟨as, has⟩ := hrest (decide (0 < p.permits))
    refine ⟨.getConnection :: .tryAcquire p.acquire :: as, decide (0 < p.permits), ?_⟩
    rw [← has]
    change ((program κ n).act p ⟨.acquiring, false⟩ (.tryAcquire p.acquire)).bind _ = _
    rw [show (program κ n).act = act from rfl, act_acquire]
    rfl
  intro took
  cases hfree : p.freeConnectionQueue with
  | cons c rest =>
      refine ⟨[.go, .go], ?_⟩
      simp [Threads.Program.exec, program, act, advance, Pool.acquired, Pool.getConnection, hfree,
        Pool.handOut, Reply.ofGet]
  | nil =>
      cases driver with
      | ok c =>
          refine ⟨[.go, .create c, .go], ?_⟩
          simp [Threads.Program.exec, program, act, advance, Pool.acquired, Pool.getConnection,
            hfree, Pool.handOut, Reply.ofGet, hfresh c rfl]
      | error e =>
          obtain rfl := hdriver e rfl
          refine ⟨[.go, .fail], ?_⟩
          simp [Threads.Program.exec, program, act, advance, Pool.acquired, Pool.getConnection,
            hfree, Reply.ofGet]

/-- **`releaseConnection` is a sequence of atomic steps.** -/
lemma releaseConnection_exec (n : ℕ) (p : Pool κ) (c : κ) :
    ∃ as, (program κ n).exec p ⟨.idle, false⟩ as =
      some ((p.releaseConnection c).2,
        ⟨.returned (.ofRelease (p.releaseConnection c).1), false⟩) := by
  by_cases hused : c ∈ p.usedConnectionSet
  · by_cases hpermits : p.permits + 1 < 2 ^ 31
    · refine ⟨[.releaseConnection c, .go, .go, .go, .go], ?_⟩
      by_cases hroom : p.freeConnectionQueue.length < p.maxConnectionCount
      · simp [-Nat.reducePow, Threads.Program.exec, program, act, advance, Phase.AtRest,
          Pool.releaseConnection, hused, hpermits, hroom, Reply.ofRelease]
      · simp [-Nat.reducePow, Threads.Program.exec, program, act, advance, Phase.AtRest,
          Pool.releaseConnection, hused, hpermits, hroom, Reply.ofRelease]
    · refine ⟨[.releaseConnection c, .go, .go], ?_⟩
      simp [-Nat.reducePow, Threads.Program.exec, program, act, advance, Phase.AtRest,
        Pool.releaseConnection, hused, hpermits, Reply.ofRelease]
  · refine ⟨[.releaseConnection c, .go], ?_⟩
    simp [Threads.Program.exec, program, act, advance, Phase.AtRest, Pool.releaseConnection,
      hused, Reply.ofRelease]

section Interleaving

variable {τ : Type} [DecidableEq τ] {s : PoolState τ κ} {t : τ}

/-- An idle thread that gets a connection while the others do nothing. -/
lemma getConnection_play (n : ℕ) (hidle : s.thread t = ⟨.idle, false⟩)
    {driver : Except Throwable κ} (hfresh : ∀ c, driver = .ok c → c ∉ s.shared.created)
    (hdriver : ∀ e, driver = .error e → e = .sqlException) :
    ∃ ls took, (machine τ κ n).play s ls =
      some (s.after t ((s.shared.getConnection driver).2,
        ⟨.returned (.ofGet (s.shared.getConnection driver).1), took⟩)) := by
  obtain ⟨as, took, has⟩ := getConnection_exec n s.shared hfresh hdriver
  rw [← hidle] at has
  exact ⟨as.map (t, ·), took, Threads.Program.play_of_exec has⟩

/-- An idle thread that gives a connection back while the others do nothing. -/
lemma releaseConnection_play (n : ℕ) (hidle : s.thread t = ⟨.idle, false⟩) (c : κ) :
    ∃ ls, (machine τ κ n).play s ls =
      some (s.after t ((s.shared.releaseConnection c).2,
        ⟨.returned (.ofRelease (s.shared.releaseConnection c).1), false⟩)) := by
  obtain ⟨as, has⟩ := releaseConnection_exec n s.shared c
  rw [← hidle] at has
  exact ⟨as.map (t, ·), Threads.Program.play_of_exec has⟩

end Interleaving

end ConnectionPool

end LearnJava
