import LearnJava.Foundation.Threads
import LearnJava.Java.Lang

/-!
# `ConnectionPool`

The pool of `db/ConnectionPool.java`: a semaphore with one permit for each connection the pool may
have, the set of the connections it has handed out, and a bounded queue of the free ones.
`act` gives the atomic steps of `getConnection` and `releaseConnection`, one for each call on the
semaphore, on the set, on the queue and of the driver.

Three things the code does are visible there:

* the result of `tryAcquire` is not looked at, so that a call goes on after a time-out as it
  does with a permit; `took` remembers, for the statements only, which of the two it was;
* the permit is not given back when the driver throws;
* `usedConnectionSet.remove(usedConnectionSet)` asks the set to remove itself, which it does not
  contain: a connection never leaves the set.

A connection that the driver opens is a new object, so `create` gives one that was not created
before.  `checkedOut` is the record the statements are about: the connections handed out by
`getConnection` and not passed to a `releaseConnection` that took them.
-/

namespace LearnJava

namespace ConnectionPool

/-- The fields of the pool; `created` and `checkedOut` are records of its history. -/
structure Pool (κ : Type) where
  maxConnectionCount : ℕ
  /-- The permits of `semaphore`. -/
  permits : ℕ
  usedConnectionSet : Finset κ
  freeConnectionQueue : List κ
  created : List κ
  checkedOut : List κ

/-- What a call of one of the two methods ended with; `none` is `null`. -/
inductive Reply (κ : Type)
  | connection (c : Option κ)
  | released (b : Bool)
  | thrown (e : Throwable)
  deriving DecidableEq, Repr

/-- Where a thread is: at the call that is named. -/
inductive Phase (κ : Type)
  | idle
  /-- `semaphore.tryAcquire(timeout, timeUnit)` -/
  | acquiring
  /-- `freeConnectionQueue.poll()` -/
  | polling
  /-- `createConnection()` -/
  | creating
  /-- `usedConnectionSet.add(c)` -/
  | adding (c : κ)
  /-- `usedConnectionSet.contains(c)` -/
  | checking (c : κ)
  /-- `semaphore.release()` -/
  | releasing (c : κ)
  /-- `usedConnectionSet.remove(usedConnectionSet)` -/
  | removing (c : κ)
  /-- `freeConnectionQueue.offer(c)` -/
  | offering (c : κ)
  | returned (r : Reply κ)
  deriving DecidableEq, Repr

/-- A thread, and whether `tryAcquire` gave its current call a permit. -/
structure Local (κ : Type) where
  phase : Phase κ
  took : Bool
  deriving DecidableEq, Repr

/-- How `tryAcquire` ends. -/
inductive Acquire
  | acquired
  | timedOut
  | interrupted
  deriving DecidableEq, Repr

/-- An action of a thread: a call, the end of `tryAcquire`, the next step of the code, or the
answer of the driver. -/
inductive Act (κ : Type)
  | getConnection
  | releaseConnection (c : κ)
  | tryAcquire (o : Acquire)
  | go
  | create (c : κ)
  | fail
  deriving DecidableEq, Repr

/-- A thread that is in no call. -/
def Phase.AtRest {κ : Type} : Phase κ → Bool
  | .idle | .returned _ => true
  | _ => false

section Code

variable {κ : Type} [DecidableEq κ]

/-- The next step of the code, where it is no call of the driver or of `tryAcquire`. -/
def advance (p : Pool κ) (l : Local κ) : Option (Pool κ × Local κ) :=
  match l.phase with
  | .polling =>
    match p.freeConnectionQueue with
    | c :: rest => some ({ p with freeConnectionQueue := rest }, { l with phase := .adding c })
    | [] => some (p, { l with phase := .creating })
  | .adding c =>
    some ({ p with
      usedConnectionSet := insert c p.usedConnectionSet
      checkedOut := p.checkedOut ++ [c] }, { l with phase := .returned (.connection (some c)) })
  | .checking c =>
    if c ∈ p.usedConnectionSet then
      some ({ p with checkedOut := p.checkedOut.erase c }, { l with phase := .releasing c })
    else some (p, { l with phase := .returned (.released false) })
  | .releasing c =>
    if p.permits + 1 < 2 ^ 31 then
      some ({ p with permits := p.permits + 1 }, { l with phase := .removing c })
    else some (p, { l with phase := .returned (.thrown (.error "Maximum permit count exceeded")) })
  | .removing c => some (p, { l with phase := .offering c })
  | .offering c =>
    if p.freeConnectionQueue.length < p.maxConnectionCount then
      some ({ p with freeConnectionQueue := p.freeConnectionQueue ++ [c] },
        { l with phase := .returned (.released true) })
    else some (p, { l with phase := .returned (.released false) })
  | _ => none

/-- One action. -/
def act (p : Pool κ) (l : Local κ) : Act κ → Option (Pool κ × Local κ)
  | .getConnection => if l.phase.AtRest then some (p, ⟨.acquiring, false⟩) else none
  | .releaseConnection c => if l.phase.AtRest then some (p, ⟨.checking c, false⟩) else none
  | .tryAcquire o =>
    match l.phase, o with
    | .acquiring, .acquired =>
      if 0 < p.permits then some ({ p with permits := p.permits - 1 }, ⟨.polling, true⟩) else none
    | .acquiring, .timedOut => some (p, ⟨.polling, false⟩)
    | .acquiring, .interrupted => some (p, ⟨.returned (.connection none), false⟩)
    | _, _ => none
  | .go => advance p l
  | .create c =>
    match l.phase with
    | .creating =>
      if c ∈ p.created then none
      else some ({ p with created := p.created ++ [c] }, { l with phase := .adding c })
    | _ => none
  | .fail =>
    match l.phase with
    | .creating =>
      some (p, { l with phase := .returned (.thrown (.runtimeException .sqlException)) })
    | _ => none

/-- `new ConnectionPool(…, maxConnectionCount)`. -/
def Pool.new (maxConnectionCount : ℕ) : Pool κ :=
  ⟨maxConnectionCount, maxConnectionCount, ∅, [], [], []⟩

/-- The threads of a pool. -/
def program (κ : Type) [DecidableEq κ] (maxConnectionCount : ℕ) :
    Threads.Program (Pool κ) (Local κ) (Act κ) where
  initShared p := p = Pool.new maxConnectionCount
  initThread l := l = ⟨.idle, false⟩
  act := act

/-- The pool and its threads. -/
abbrev PoolState (τ κ : Type) := Threads.State τ (Pool κ) (Local κ)

/-- A step of one thread. -/
abbrev PoolMove (τ κ : Type) := Move (PoolState τ κ) (τ × Act κ)

/-- Any interleaving of calls on `new ConnectionPool(…, maxConnectionCount)`. -/
def machine (τ κ : Type) [DecidableEq τ] [DecidableEq κ] (maxConnectionCount : ℕ) :
    Machine (PoolState τ κ) (τ × Act κ) := (program κ maxConnectionCount).machine τ

/-- The new pool, with no thread in any of its methods. -/
def initial (τ κ : Type) [DecidableEq κ] (maxConnectionCount : ℕ) : PoolState τ κ :=
  ⟨Pool.new maxConnectionCount, fun _ => ⟨.idle, false⟩⟩

lemma init_initial (τ κ : Type) [DecidableEq τ] [DecidableEq κ] (n : ℕ) :
    (machine τ κ n).init (initial τ κ n) := ⟨rfl, fun _ => rfl⟩

/-! ## What one action does -/

/-- The effect of one action of a thread, with the place it is taken from. -/
inductive Effect (p : Pool κ) (l : Local κ) : Act κ → Pool κ → Local κ → Prop
  | called {a : Act κ} {ph : Phase κ} (hrest : l.phase.AtRest)
      (hph : ph = .acquiring ∨ ∃ c, ph = .checking c) : Effect p l a p ⟨ph, false⟩
  | acquired (hph : l.phase = .acquiring) (h : 0 < p.permits) :
      Effect p l (.tryAcquire .acquired) { p with permits := p.permits - 1 } ⟨.polling, true⟩
  | timedOut (hph : l.phase = .acquiring) :
      Effect p l (.tryAcquire .timedOut) p ⟨.polling, false⟩
  | interrupted (hph : l.phase = .acquiring) :
      Effect p l (.tryAcquire .interrupted) p ⟨.returned (.connection none), false⟩
  | polled {c : κ} {rest : List κ} (hph : l.phase = .polling)
      (h : p.freeConnectionQueue = c :: rest) :
      Effect p l .go { p with freeConnectionQueue := rest } ⟨.adding c, l.took⟩
  | foundNone (hph : l.phase = .polling) (h : p.freeConnectionQueue = []) :
      Effect p l .go p ⟨.creating, l.took⟩
  | created {c : κ} (hph : l.phase = .creating) (h : c ∉ p.created) :
      Effect p l (.create c) { p with created := p.created ++ [c] } ⟨.adding c, l.took⟩
  | failed (hph : l.phase = .creating) :
      Effect p l .fail p ⟨.returned (.thrown (.runtimeException .sqlException)), l.took⟩
  | added {c : κ} (hph : l.phase = .adding c) :
      Effect p l .go { p with
        usedConnectionSet := insert c p.usedConnectionSet
        checkedOut := p.checkedOut ++ [c] } ⟨.returned (.connection (some c)), l.took⟩
  | refused {c : κ} (hph : l.phase = .checking c) (h : c ∉ p.usedConnectionSet) :
      Effect p l .go p ⟨.returned (.released false), l.took⟩
  | admitted {c : κ} (hph : l.phase = .checking c) (h : c ∈ p.usedConnectionSet) :
      Effect p l .go { p with checkedOut := p.checkedOut.erase c } ⟨.releasing c, l.took⟩
  | gaveBack {c : κ} (hph : l.phase = .releasing c) (h : p.permits + 1 < 2 ^ 31) :
      Effect p l .go { p with permits := p.permits + 1 } ⟨.removing c, l.took⟩
  | overflowed {c : κ} (hph : l.phase = .releasing c) (h : ¬ p.permits + 1 < 2 ^ 31) :
      Effect p l .go p ⟨.returned (.thrown (.error "Maximum permit count exceeded")), l.took⟩
  | removed {c : κ} (hph : l.phase = .removing c) : Effect p l .go p ⟨.offering c, l.took⟩
  | offered {c : κ} (hph : l.phase = .offering c)
      (h : p.freeConnectionQueue.length < p.maxConnectionCount) :
      Effect p l .go { p with freeConnectionQueue := p.freeConnectionQueue ++ [c] }
        ⟨.returned (.released true), l.took⟩
  | dropped {c : κ} (hph : l.phase = .offering c)
      (h : ¬ p.freeConnectionQueue.length < p.maxConnectionCount) :
      Effect p l .go p ⟨.returned (.released false), l.took⟩

lemma advance_cases {p p' : Pool κ} {l l' : Local κ} (h : advance p l = some (p', l')) :
    Effect p l .go p' l' := by
  cases hph : l.phase with
  | polling =>
      cases hfree : p.freeConnectionQueue with
      | nil =>
          simp only [advance, hph, hfree, Option.some.injEq, Prod.mk.injEq] at h
          obtain ⟨rfl, rfl⟩ := h
          exact .foundNone hph hfree
      | cons c rest =>
          simp only [advance, hph, hfree, Option.some.injEq, Prod.mk.injEq] at h
          obtain ⟨rfl, rfl⟩ := h
          exact .polled hph hfree
  | adding c =>
      simp only [advance, hph, Option.some.injEq, Prod.mk.injEq] at h
      obtain ⟨rfl, rfl⟩ := h
      exact .added hph
  | checking c =>
      simp only [advance, hph] at h
      split_ifs at h with hused <;> obtain ⟨rfl, rfl⟩ := Prod.mk.inj (Option.some.inj h)
      · exact .admitted hph hused
      · exact .refused hph hused
  | releasing c =>
      simp only [advance, hph] at h
      split_ifs at h with hroom <;> obtain ⟨rfl, rfl⟩ := Prod.mk.inj (Option.some.inj h)
      · exact .gaveBack hph hroom
      · exact .overflowed hph hroom
  | removing c =>
      simp only [advance, hph, Option.some.injEq, Prod.mk.injEq] at h
      obtain ⟨rfl, rfl⟩ := h
      exact .removed hph
  | offering c =>
      simp only [advance, hph] at h
      split_ifs at h with hroom <;> obtain ⟨rfl, rfl⟩ := Prod.mk.inj (Option.some.inj h)
      · exact .offered hph hroom
      · exact .dropped hph hroom
  | idle | acquiring | creating | returned r =>
      simp only [advance, hph] at h
      cases h

/-- Every action has one of the effects. -/
lemma act_cases {p p' : Pool κ} {l l' : Local κ} {a : Act κ} (h : act p l a = some (p', l')) :
    Effect p l a p' l' := by
  cases a with
  | getConnection =>
      simp only [act] at h
      split_ifs at h with hrest
      obtain ⟨rfl, rfl⟩ := Prod.mk.inj (Option.some.inj h)
      exact .called hrest (.inl rfl)
  | releaseConnection c =>
      simp only [act] at h
      split_ifs at h with hrest
      obtain ⟨rfl, rfl⟩ := Prod.mk.inj (Option.some.inj h)
      exact .called hrest (.inr ⟨c, rfl⟩)
  | tryAcquire o =>
      simp only [act] at h
      split at h
      · rename_i hph
        split_ifs at h with hpermit
        obtain ⟨rfl, rfl⟩ := Prod.mk.inj (Option.some.inj h)
        exact .acquired hph hpermit
      · rename_i hph
        obtain ⟨rfl, rfl⟩ := Prod.mk.inj (Option.some.inj h)
        exact .timedOut hph
      · rename_i hph
        obtain ⟨rfl, rfl⟩ := Prod.mk.inj (Option.some.inj h)
        exact .interrupted hph
      · cases h
  | go => exact advance_cases h
  | create c =>
      simp only [act] at h
      split at h
      · rename_i hph
        split_ifs at h with hnew
        obtain ⟨rfl, rfl⟩ := Prod.mk.inj (Option.some.inj h)
        exact .created hph hnew
      · cases h
  | fail =>
      simp only [act] at h
      split at h
      · rename_i hph
        obtain ⟨rfl, rfl⟩ := Prod.mk.inj (Option.some.inj h)
        exact .failed hph
      · cases h

section Inversion

variable {p p' : Pool κ} {l l' : Local κ} {a : Act κ} {c : κ}

end Inversion

/-- What a move of the machine does. -/
lemma step_cases {τ : Type} [DecidableEq τ] {n : ℕ} {s s' : PoolState τ κ} {t : τ} {a : Act κ}
    (h : (machine τ κ n).step s (t, a) = some s') :
    ∃ p l, Effect s.shared (s.thread t) a p l ∧ s' = s.after t (p, l) := by
  obtain ⟨⟨p, l⟩, hact, rfl⟩ := Threads.Program.step_iff.mp h
  exact ⟨p, l, act_cases hact, rfl⟩

end Code

/-! ## Records of the history -/

section Records

variable {τ κ : Type}

/-- No call is in progress. -/
def Quiet (s : PoolState τ κ) : Prop := ∀ t, (s.thread t).phase.AtRest = true

/-- The acting thread, if it is at the `contains` of `releaseConnection(c)`, releases a connection
that is checked out, or one that the pool never handed out. -/
def ProperRelease (m : PoolMove τ κ) : Prop :=
  ∀ c, (m.pre.thread m.label.1).phase = .checking c →
    c ∈ m.pre.shared.usedConnectionSet → c ∈ m.pre.shared.checkedOut

instance {P : κ → Prop} [DecidablePred P] (ph : Phase κ) :
    Decidable (∀ c, ph = .checking c → P c) :=
  match ph with
  | .checking c =>
    decidable_of_iff (P c) ⟨fun h _ hd => Phase.checking.inj hd ▸ h, fun h => h c rfl⟩
  | .idle | .acquiring | .polling | .creating | .adding _ | .releasing _ | .removing _
  | .offering _ | .returned _ => isTrue fun _ h => nomatch h

instance {P : Prop} [Decidable P] (a : Act κ) : Decidable (∀ c, a = .create c → P) :=
  match a with
  | .create c => decidable_of_iff P ⟨fun h _ _ => h, fun h => h c rfl⟩
  | .getConnection | .releaseConnection _ | .tryAcquire _ | .go | .fail =>
    isTrue fun _ h => nomatch h

instance [DecidableEq κ] (m : PoolMove τ κ) : Decidable (ProperRelease m) :=
  inferInstanceAs (Decidable (∀ c, (m.pre.thread m.label.1).phase = .checking c →
    c ∈ m.pre.shared.usedConnectionSet → c ∈ m.pre.shared.checkedOut))

end Records

end ConnectionPool

end LearnJava
