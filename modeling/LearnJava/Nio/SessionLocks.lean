import LearnJava.Nio.Session

/-!
# The locks of a session are given back

A call should leave its thread with the holds it had before, throw nothing but the exception for
an interruption, and, if it got its lock, return what the method without the time-out returns for
the map as it was then.  The timed `get` breaks this when it gets the read lock: `unlock` of the
write lock, which the thread does not hold, throws, and the read lock stays locked.

`Inv` says what each thread holds and knows at each place of the code, as long as no timed `get`
has come to its `finally` with the lock and gone on.  While a thread has one of the locks no other
thread changes the map, so that a reply is computed from the map that was seen when the lock was
taken.
-/

namespace LearnJava

namespace Session

open ReadWriteLock

variable {τ κ ν : Type} [DecidableEq κ] [DecidableEq ν]

/-! ## The property, and its condition -/

/-- A call that the move ends has kept the locks balanced, and if no call is in progress after the
move, then the lock is free. -/
structure KeepsBalance (m : SessionMove τ κ ν) : Prop where
  same_holds : ∀ c r, (m.post.thread m.label.1).phase = .ended c r →
    (m.post.thread m.label.1).holds = (m.post.thread m.label.1).before
  throws : ∀ c e, (m.post.thread m.label.1).phase = .ended c (.error e) →
    e = .matchaUnCheckException .interruptedException
  as_untimed : ∀ c r seen, (m.post.thread m.label.1).phase = .ended c r →
    (m.post.thread m.label.1).seen = some seen → r = .ok (c.untimed.method.body seen).1
  free_at_rest : (∀ t, (m.post.thread t).phase.AtRest) → m.post.shared.readWriteLock = free

/-- The acting thread is not a timed `get` that got its lock and is in `finally`. -/
def NotInTimedGet (m : SessionMove τ κ ν) : Prop :=
  ∀ c r, (m.pre.thread m.label.1).phase = .unlocking c r → c.IsTimedGet = false

/-! ## The methods -/

/-- The hold of one lock. -/
def Side.hold : Side → Holds
  | .read => ⟨1, 0⟩
  | .write => ⟨0, 1⟩

lemma Side.holds_of_lock {d : Side} {k k' : ReadWriteLock} {h : Holds}
    (hop : d.lock k Holds.none = some (k', h)) : h = d.hold := by
  cases d with
  | read =>
      obtain ⟨-, -, rfl⟩ := readLock_iff.mp hop
      rfl
  | write =>
      obtain ⟨-, -, rfl⟩ := writeLock_iff.mp hop
      rfl

lemma Side.unlock_hold (d : Side) (k : ReadWriteLock) :
    ∃ k', d.unlock k d.hold = some (k', Holds.none) := by
  cases d with
  | read => exact ⟨_, readUnlock_iff.mpr ⟨Nat.one_pos, rfl, rfl⟩⟩
  | write => exact ⟨_, writeUnlock_iff.mpr ⟨Nat.one_pos, rfl, rfl⟩⟩

/-- A read hold does not let a thread unlock the write lock. -/
lemma Side.unlock_write_of_read (k : ReadWriteLock) : Side.write.unlock k Side.read.hold = none :=
  rfl

/-- All methods but the timed `get` give up the lock they got. -/
lemma Call.unlocks_eq {c : Call κ ν} (h : c.IsTimedGet = false) :
    c.method.unlocks = c.method.locks := by
  cases c <;> first | rfl | cases h

/-- The timed `get` gives up the other one. -/
lemma Call.unlocks_of_isTimedGet {c : Call κ ν} (h : c.IsTimedGet = true) :
    c.method.locks = .read ∧ c.method.unlocks = .write := by
  cases c <;> first | exact ⟨rfl, rfl⟩ | cases h

/-- A time-out changes nothing in what a method does with its lock. -/
lemma Call.untimed_body (c : Call κ ν) (m : SessionInfo κ ν) :
    (c.untimed.method.body m).1 = (c.method.body m).1 := by
  cases c with
  | getTimed key =>
      show Reply.object _ = Reply.object _
      rw [Option.or_none]
  | _ => rfl

/-- A method that gets the read lock leaves the map alone. -/
lemma Call.body_of_read {c : Call κ ν} (h : c.method.locks = .read) (m : SessionInfo κ ν) :
    (c.method.body m).2 = m := by
  cases c <;> first | rfl | cases h

/-! ## The invariant -/

/-- What a thread holds at a place of the code. -/
def Phase.holds : Phase κ ν → Holds
  | .idle | .locking _ | .ended _ _ => Holds.none
  | .working c | .unlocking c _ => c.method.locks.hold

/-- What a thread knows at a place of the code. -/
def Knows (x : Shared κ ν) (l : Local κ ν) : Prop :=
  match l.phase with
  | .idle => True
  | .locking _ => l.seen = none
  | .working _ => l.seen = some x.sessionInfo
  | .unlocking c r => ∀ seen, l.seen = some seen → r = (c.method.body seen).1
  | .ended c r => (∀ e, r = .error e → e = .matchaUnCheckException .interruptedException) ∧
      ∀ seen, l.seen = some seen → r = .ok (c.method.body seen).1

/-- The invariant of the session. -/
structure Inv [Fintype τ] (s : SessionState τ κ ν) : Prop where
  balanced : Balanced Shared.readWriteLock Local.holds s
  holds : ∀ t, (s.thread t).holds = (s.thread t).phase.holds
  before : ∀ t, (s.thread t).before = Holds.none
  knows : ∀ t, Knows s.shared (s.thread t)

section Effects

variable {x x' : Shared κ ν} {l l' : Local κ ν} {a : Act κ ν}

/-- Only a method with the write lock changes the map. -/
lemma Effect.map_eq (h : Effect x l a x' l') (hread : l.phase.holds.write = 0) :
    x'.sessionInfo = x.sessionInfo := by
  cases h with
  | @used c hph =>
      refine Call.body_of_read ?_ x.sessionInfo
      rw [hph] at hread
      cases hside : c.method.locks with
      | read => rfl
      | write => simp [Phase.holds, hside, Side.hold] at hread
  | _ => rfl

/-- `unlock` in `finally`, for a method that gives up the lock it got. -/
lemma unlock_of_finally {c : Call κ ν} {r : Reply ν} (hholds : l.holds = l.phase.holds)
    (hph : l.phase = .unlocking c r) (hget : c.IsTimedGet = false) :
    ∃ k, c.method.unlocks.unlock x.readWriteLock l.holds = some (k, Holds.none) := by
  rw [hholds, hph, Call.unlocks_eq hget]
  exact c.method.locks.unlock_hold x.readWriteLock

/-- Each place of the code is reached with the holds it should have. -/
lemma Effect.holds_eq (h : Effect x l a x' l') (hholds : l.holds = l.phase.holds)
    (hget : ∀ c r, l.phase = .unlocking c r → c.IsTimedGet = false) :
    l'.holds = l'.phase.holds := by
  cases h with
  | called hrest => cases hph : l.phase <;> simp_all [Phase.AtRest, Phase.holds]
  | locked hph hop =>
      rw [hholds, hph] at hop
      exact Side.holds_of_lock hop
  | unlocked hph hop =>
      obtain ⟨k, hunlock⟩ := unlock_of_finally (x := x) hholds hph (hget _ _ hph)
      rw [hunlock] at hop
      exact (Prod.mk.inj (Option.some.inj hop)).2.symm
  | refused hph hop =>
      obtain ⟨k, hunlock⟩ := unlock_of_finally (x := x) hholds hph (hget _ _ hph)
      rw [hunlock] at hop
      cases hop
  | used hph | timedOut hph | interrupted hph =>
      rw [hph] at hholds
      exact hholds

/-- A thread that cannot give up the lock throws. -/
lemma Effect.of_refused (h : Effect x l a x' l') {c : Call κ ν} {r : Reply ν}
    (hph : l.phase = .unlocking c r)
    (hrefused : c.method.unlocks.unlock x.readWriteLock l.holds = none) :
    l'.phase = .ended c (.error .illegalMonitorStateException) := by
  cases h with
  | @unlocked d q k g hph' hop =>
      obtain ⟨rfl, rfl⟩ := Phase.unlocking.inj (hph.symm.trans hph')
      rw [hrefused] at hop
      cases hop
  | @refused d q hph' =>
      obtain ⟨rfl, rfl⟩ := Phase.unlocking.inj (hph.symm.trans hph')
      rfl
  | called hrest => simp [hph, Phase.AtRest] at hrest
  | _ hph' => cases hph.symm.trans hph'

/-- Each place of the code is reached with the knowledge it should have. -/
lemma Effect.knows_self (h : Effect x l a x' l') (hholds : l.holds = l.phase.holds)
    (hget : ∀ c r, l.phase = .unlocking c r → c.IsTimedGet = false) (hknows : Knows x l) :
    Knows x' l' := by
  cases h with
  | called => rfl
  | locked => rfl
  | used hph =>
      rw [Knows, hph] at hknows
      intro seen hseen
      obtain rfl := Option.some.inj (hknows.symm.trans hseen)
      rfl
  | unlocked hph =>
      rw [Knows, hph] at hknows
      exact ⟨nofun, fun seen hseen => congrArg Except.ok (hknows seen hseen)⟩
  | refused hph hop =>
      obtain ⟨k, hunlock⟩ := unlock_of_finally (x := x) hholds hph (hget _ _ hph)
      rw [hunlock] at hop
      cases hop
  | timedOut hph =>
      rw [Knows, hph] at hknows
      exact ⟨nofun, fun seen hseen => nomatch hknows.symm.trans hseen⟩
  | interrupted hph =>
      rw [Knows, hph] at hknows
      exact ⟨fun e he => (Except.error.inj he).symm,
        fun seen hseen => nomatch hknows.symm.trans hseen⟩

end Effects

section Machine

variable [Fintype τ] [DecidableEq τ] {s s' : SessionState τ κ ν} {a : τ × Act κ ν}

lemma inv_init (h : (machine τ κ ν).init s) : Inv s := by
  obtain ⟨hshared, hthreads⟩ := h
  replace hthreads : ∀ t, s.thread t = ⟨.idle, Holds.none, Holds.none, none⟩ := hthreads
  refine ⟨Balanced.init ?_ fun t => ?_, fun t => ?_, fun t => ?_, fun t => ?_⟩
  · rw [show s.shared = ⟨free, ∅⟩ from hshared]
  all_goals rw [hthreads t]
  · rfl
  · trivial

omit [DecidableEq τ] in
/-- The other threads' knowledge is not touched. -/
lemma Inv.knows_other (hs : Inv s) {t u : τ} (htu : u ≠ t) {b : Act κ ν} {x : Shared κ ν}
    {l : Local κ ν} (h : Effect s.shared (s.thread t) b x l) : Knows x (s.thread u) := by
  have hknows := hs.knows u
  unfold Knows at hknows ⊢
  split at hknows
  · trivial
  · exact hknows
  · rename_i c hph
    rw [hknows]
    -- `u` has one of the locks, so that `t` has not the write lock
    have hread : (s.thread t).phase.holds.write = 0 := by
      by_contra hwrite
      have hnone := hs.balanced.exclusive t u htu.symm
        (by rw [hs.holds t]; exact Nat.pos_of_ne_zero hwrite)
      rw [hs.holds u, hph] at hnone
      cases hside : c.method.locks <;> simp [Phase.holds, hside, Side.hold, Holds.none] at hnone
    rw [h.map_eq hread]
  · exact hknows
  · exact hknows

/-- **One move keeps the invariant**, unless it is that of a timed `get` in its `finally`. -/
lemma inv_step (hs : Inv s) (h : (machine τ κ ν).step s a = some s')
    (hget : NotInTimedGet ⟨s, a, s'⟩) : Inv s' := by
  obtain ⟨t, b⟩ := a
  obtain ⟨x, l, heffect, rfl⟩ := step_cases h
  refine ⟨hs.balanced.after heffect.lockAction, ?_, ?_, ?_⟩
  · exact Threads.State.forall_after
      (J := fun (_ : Shared κ ν) (l : Local κ ν) => l.holds = l.phase.holds)
      (heffect.holds_eq (hs.holds t) hget) fun u _ => hs.holds u
  · refine Threads.State.forall_after
      (J := fun (_ : Shared κ ν) (l : Local κ ν) => l.before = Holds.none)
      ?_ fun u _ => hs.before u
    have hbefore := hs.before t
    cases heffect with
    | called hrest =>
        rw [hs.holds t]
        cases hph : (s.thread t).phase <;> simp_all [Phase.AtRest, Phase.holds]
    | _ => exact hbefore
  · exact Threads.State.forall_after (J := Knows)
      (heffect.knows_self (hs.holds t) hget (hs.knows t)) fun u hu => hs.knows_other hu heffect

omit [DecidableEq τ] in
lemma Inv.keepsBalance {s₀ : SessionState τ κ ν} (hs : Inv s) : KeepsBalance ⟨s₀, a, s⟩ := by
  have hended : ∀ {c r}, (s.thread a.1).phase = .ended c r → _ := fun {c r} hph => by
    have hknows := hs.knows a.1
    rw [Knows, hph] at hknows
    exact hknows
  refine ⟨fun c r hph => ?_, fun c e hph => (hended hph).1 e rfl, fun c r seen hph hseen => ?_,
    fun hrest => hs.balanced.free_of_holds fun t => ?_⟩
  · rw [hs.holds, hs.before, show (s.thread a.1).phase = .ended c r from hph]
    rfl
  · rw [Call.untimed_body]
    exact (hended hph).2 seen hseen
  · have hat : (s.thread t).phase.AtRest := hrest t
    rw [hs.holds t]
    cases hph : (s.thread t).phase <;> simp_all [Phase.AtRest, Phase.holds]

/-- **One move keeps the balance exactly when it is not that of a timed `get` in its `finally`.** -/
lemma keepsBalance_iff (hs : Inv s) (h : (machine τ κ ν).step s a = some s') :
    KeepsBalance ⟨s, a, s'⟩ ↔ NotInTimedGet ⟨s, a, s'⟩ := by
  refine ⟨fun hbalance c r hph => ?_, fun hget => (inv_step hs h hget).keepsBalance⟩
  obtain ⟨t, b⟩ := a
  obtain ⟨x, l, heffect, rfl⟩ := step_cases h
  replace hph : (s.thread t).phase = .unlocking c r := hph
  by_contra hget
  obtain ⟨hread, hwrite⟩ := Call.unlocks_of_isTimedGet (Bool.eq_true_of_not_eq_false hget)
  have hrefused : c.method.unlocks.unlock s.shared.readWriteLock (s.thread t).holds = none := by
    rw [hs.holds t, hph, Phase.holds, hread, hwrite]
    exact Side.unlock_write_of_read _
  have hthrown := hbalance.throws c .illegalMonitorStateException
    (by simpa using heffect.of_refused hph hrefused)
  cases hthrown

/-- In every interleaving: each call leaves its thread with the holds it had, throws nothing but the
exception for an interruption and, with its lock, returns what the method without a time-out does,
and the lock is free whenever no call is in progress, exactly when no timed `get` gets to its
`finally` with the lock and goes on. -/
theorem lock_balance_iff {ms : List (SessionMove τ κ ν)} (h : (machine τ κ ν).Run ms s) :
    (∀ m ∈ ms, KeepsBalance m) ↔ ∀ m ∈ ms, NotInTimedGet m :=
  h.moves_iff (fun _ => inv_init) (fun _ _ _ => inv_step) fun _ _ _ => keepsBalance_iff

/-- A `put` and a `get`, with a timed `get` that is too late. -/
def putThenGet : List (SessionMove Duo ℕ ℕ) :=
  (machine Duo ℕ ℕ).moves (initial Duo ℕ ℕ)
    [(.first, .call (.put (some 1) (some 7))), (.first, .go), (.second, .call (.getTimed (some 1))),
      (.second, .timeOut), (.first, .go), (.first, .go), (.second, .call (.get (some 1))),
      (.second, .go), (.second, .go), (.second, .go)]

theorem lock_balance_iff_putThenGet :
    (∀ m ∈ putThenGet, KeepsBalance m) ↔ ∀ m ∈ putThenGet, NotInTimedGet m :=
  lock_balance_iff (Machine.run_of_play (init_initial Duo ℕ ℕ) rfl)

/-- A timed `get` that gets its lock. -/
def timedGet : List (SessionMove Unit ℕ ℕ) :=
  (machine Unit ℕ ℕ).moves (initial Unit ℕ ℕ)
    [((), .call (.getTimed (some 1))), ((), .go), ((), .go), ((), .go)]

/-- It throws, and keeps the read lock. -/
theorem timedGet_keeps_lock :
    (∃ s, (machine Unit ℕ ℕ).Run timedGet s) ∧ ¬∀ m ∈ timedGet, KeepsBalance m := by
  refine ⟨⟨_, Machine.run_of_play (init_initial Unit ℕ ℕ) rfl⟩, fun h => ?_⟩
  have hlast := h (timedGet.getLast (by decide)) (List.getLast_mem _)
  exact absurd (hlast.same_holds (.getTimed (some 1)) _ rfl) (by decide)

end Machine

end Session

end LearnJava
