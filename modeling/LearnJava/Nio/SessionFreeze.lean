import LearnJava.Nio.SessionLocks

/-!
# A session that only reads

The read lock that a timed `get` leaves behind is never given up: every later method of its thread
gives up as many holds as it gets.  From then on no thread gets the write lock, so that the map
stays what it is: a `put` waits for good, or until its time is over.  Nothing is said about a `get`
that comes later, since a reader that queues behind such a `put` waits as well.

What holds at each place of the code in all runs is weaker than the invariant without such a `get`:
a thread may have more read holds than its place accounts for.  It still has the write holds it
should have, so that a method that writes is alone with the map.
-/

namespace LearnJava

namespace Session

open ReadWriteLock

variable {τ κ ν : Type} [DecidableEq κ] [DecidableEq ν]

/-! ## The property -/

/-- Whoever has the write lock has the map alone. -/
def RaceFree (s : SessionState τ κ ν) : Prop :=
  ∀ t u c d, t ≠ u → (s.thread t).phase = .working c → c.method.locks = .write →
    (s.thread u).phase ≠ .working d

/-- No thread has the write lock or can get it. -/
structure Frozen [DecidableEq τ] (s : SessionState τ κ ν) : Prop where
  no_writer : ∀ t c, c.method.locks = .write →
    (s.thread t).phase ≠ .working c ∧ ∀ r, (s.thread t).phase ≠ .unlocking c r
  waits : ∀ t c, (s.thread t).phase = .locking c → c.method.locks = .write →
    (machine τ κ ν).step s (t, .go) = none

/-! ## What a thread holds -/

section Effects

variable {x x' : Shared κ ν} {l l' : Local κ ν} {a : Act κ ν}

/-- The thread has the write holds of its place, and at least the read holds. -/
structure Local.Covers (l : Local κ ν) : Prop where
  write : l.holds.write = l.phase.holds.write
  read : l.phase.holds.read ≤ l.holds.read

/-- The thread has a read hold that its place does not account for. -/
def Local.Leaks (l : Local κ ν) : Prop := l.phase.holds.read < l.holds.read

lemma holds_of_atRest {p : Phase κ ν} (h : p.AtRest = true) : p.holds = Holds.none := by
  cases p <;> first | rfl | cases h

/-- In `finally` the unlocking fails only for the timed `get`. -/
lemma Local.Covers.unlock (hl : l.Covers) {c : Call κ ν} {r : Reply ν}
    (hph : l.phase = .unlocking c r) :
    (c.IsTimedGet = false ∧ ∃ k, c.method.unlocks.unlock x.readWriteLock l.holds = some k) ∨
      (c.IsTimedGet = true ∧ c.method.unlocks.unlock x.readWriteLock l.holds = none) := by
  obtain ⟨hwrite, hread⟩ := hl
  rw [hph] at hwrite hread
  cases hget : c.IsTimedGet with
  | false =>
      refine .inl ⟨rfl, ?_⟩
      rw [Call.unlocks_eq hget]
      cases hside : c.method.locks with
      | read =>
          simp only [Phase.holds, hside, Side.hold] at hread
          exact ⟨_, readUnlock_iff.mpr ⟨hread, rfl, rfl⟩⟩
      | write =>
          simp only [Phase.holds, hside, Side.hold] at hwrite
          exact ⟨_, writeUnlock_iff.mpr ⟨by omega, rfl, rfl⟩⟩
  | true =>
      refine .inr ⟨rfl, ?_⟩
      obtain ⟨hside, hunlocks⟩ := Call.unlocks_of_isTimedGet hget
      simp only [Phase.holds, hside, Side.hold] at hwrite
      simp [hunlocks, Side.unlock, writeUnlock, hwrite]

/-- **One action**, in the thread that takes it. -/
lemma Effect.covers (h : Effect x l a x' l') (hl : l.Covers) : l'.Covers := by
  have hcover := hl
  obtain ⟨hwrite, hread⟩ := hl
  cases h with
  | called hrest =>
      rw [holds_of_atRest hrest] at hwrite hread
      exact ⟨hwrite, hread⟩
  | @locked c k g hph hop =>
      rw [hph] at hwrite hread
      cases hside : c.method.locks with
      | read =>
          rw [hside] at hop
          obtain ⟨-, -, rfl⟩ := readLock_iff.mp hop
          simp only [Phase.holds, Holds.none] at hwrite
          exact ⟨by simp [Phase.holds, hside, Side.hold, hwrite],
            by simp [Phase.holds, hside, Side.hold]⟩
      | write =>
          rw [hside] at hop
          obtain ⟨-, -, rfl⟩ := writeLock_iff.mp hop
          simp only [Phase.holds, Holds.none] at hwrite
          exact ⟨by simp [Phase.holds, hside, Side.hold, hwrite],
            by simp [Phase.holds, hside, Side.hold]⟩
  | used hph =>
      rw [hph] at hwrite hread
      exact ⟨hwrite, hread⟩
  | @unlocked c r k g hph hop =>
      rw [hph] at hwrite hread
      obtain ⟨hget, -⟩ | ⟨-, hnone⟩ := hcover.unlock (x := x) hph
      · rw [Call.unlocks_eq hget] at hop
        refine ⟨?_, Nat.zero_le _⟩
        cases hside : c.method.locks with
        | read =>
            rw [hside] at hop
            obtain ⟨-, -, rfl⟩ := readUnlock_iff.mp hop
            simpa [Phase.holds, hside, Side.hold, Holds.none] using hwrite
        | write =>
            rw [hside] at hop
            obtain ⟨-, -, rfl⟩ := writeUnlock_iff.mp hop
            simp [Phase.holds, hside, Side.hold, Holds.none] at hwrite ⊢
            omega
      · rw [hnone] at hop
        cases hop
  | @refused c r hph hop =>
      rw [hph] at hwrite hread
      obtain ⟨-, k, hsome⟩ | ⟨hget, -⟩ := hcover.unlock (x := x) hph
      · rw [hsome] at hop
        cases hop
      · obtain ⟨hside, -⟩ := Call.unlocks_of_isTimedGet hget
        exact ⟨by simpa [Phase.holds, hside, Side.hold, Holds.none] using hwrite, Nat.zero_le _⟩
  | timedOut hph | interrupted hph =>
      rw [hph] at hwrite hread
      exact ⟨hwrite, hread⟩

/-- A read hold that was left behind stays. -/
lemma Effect.leaks (h : Effect x l a x' l') (hl : l.Covers) (hleaks : l.Leaks) : l'.Leaks := by
  unfold Local.Leaks at *
  cases h with
  | called hrest =>
      rw [holds_of_atRest hrest] at hleaks
      exact hleaks
  | @locked c k g hph hop =>
      rw [hph] at hleaks
      cases hside : c.method.locks with
      | read =>
          rw [hside] at hop
          obtain ⟨-, -, rfl⟩ := readLock_iff.mp hop
          simp only [Phase.holds, hside, Side.hold, Holds.none] at hleaks ⊢
          omega
      | write =>
          rw [hside] at hop
          obtain ⟨-, -, rfl⟩ := writeLock_iff.mp hop
          simpa [Phase.holds, hside, Side.hold, Holds.none] using hleaks
  | used hph =>
      rw [hph] at hleaks
      exact hleaks
  | @unlocked c r k g hph hop =>
      rw [hph] at hleaks
      obtain ⟨hget, -⟩ | ⟨-, hnone⟩ := hl.unlock (x := x) hph
      · rw [Call.unlocks_eq hget] at hop
        cases hside : c.method.locks with
        | read =>
            rw [hside] at hop
            obtain ⟨-, -, rfl⟩ := readUnlock_iff.mp hop
            simp only [Phase.holds, hside, Side.hold, Holds.none] at hleaks ⊢
            omega
        | write =>
            rw [hside] at hop
            obtain ⟨-, -, rfl⟩ := writeUnlock_iff.mp hop
            simpa [Phase.holds, hside, Side.hold, Holds.none] using hleaks
      · rw [hnone] at hop
        cases hop
  | refused hph hop =>
      rw [hph] at hleaks
      exact (Nat.zero_le _).trans_lt hleaks
  | timedOut hph | interrupted hph =>
      rw [hph] at hleaks
      exact hleaks

end Effects

/-! ## All threads -/

section Machine

variable [Fintype τ]

/-- What holds in every state of every run. -/
structure Covered (s : SessionState τ κ ν) : Prop where
  balanced : Balanced Shared.readWriteLock Local.holds s
  covers : ∀ t, (s.thread t).Covers

/-- A read hold was left behind, and no thread has the write lock. -/
structure ReadOnly (s : SessionState τ κ ν) : Prop where
  leaks : ∃ t, (s.thread t).Leaks
  write : ∀ t, (s.thread t).holds.write = 0

variable {s s' : SessionState τ κ ν}

lemma Covered.raceFree (hs : Covered s) : RaceFree s := by
  intro t u c d htu hph hside hpu
  have hwrite := (hs.covers t).write
  rw [hph, Phase.holds, hside] at hwrite
  have hnone := hs.balanced.exclusive t u htu (by rw [hwrite]; exact Nat.one_pos)
  have hu := hs.covers u
  obtain ⟨hwriteu, hreadu⟩ := hu
  rw [hnone, hpu] at hwriteu hreadu
  cases hd : d.method.locks <;> simp [Phase.holds, hd, Side.hold, Holds.none] at hwriteu hreadu

/-- The lock is not free any more. -/
lemma ReadOnly.readCount_pos (hs : Covered s) (hro : ReadOnly s) :
    0 < s.shared.readWriteLock.readCount := by
  obtain ⟨t, ht⟩ := hro.leaks
  exact ((Nat.zero_le _).trans_lt ht).trans_le (hs.balanced.read_le t)

variable [DecidableEq τ] {a : τ × Act κ ν}

lemma ReadOnly.frozen (hs : Covered s) (hro : ReadOnly s) : Frozen s := by
  have hpos := hro.readCount_pos hs
  have hfree : s.shared.readWriteLock ≠ free := fun hfree => by simp [hfree, free] at hpos
  refine ⟨fun t c hside => ?_, fun t c hph hside => ?_⟩
  · have hwrite := (hs.covers t).write
    rw [hro.write t] at hwrite
    refine ⟨fun hph => ?_, fun r hph => ?_⟩ <;>
      simp [hph, Phase.holds, hside, Side.hold] at hwrite
  · have hnone : Side.write.lock s.shared.readWriteLock (s.thread t).holds = none := by
      simp [Side.lock, writeLock, hfree, hro.write t]
    simp [machine, Threads.Program.machine, program, act, advance, hph, hside, hnone]

lemma covered_init (h : (machine τ κ ν).init s) : Covered s := by
  have hinv := inv_init h
  exact ⟨hinv.balanced, fun t => ⟨by rw [hinv.holds t], by rw [hinv.holds t]⟩⟩

lemma covered_step (hs : Covered s) (h : (machine τ κ ν).step s a = some s') :
    Covered s' := by
  obtain ⟨t, b⟩ := a
  obtain ⟨x, l, heffect, rfl⟩ := step_cases h
  refine ⟨hs.balanced.after heffect.lockAction, ?_⟩
  exact Threads.State.forall_after (J := fun (_ : Shared κ ν) (l : Local κ ν) => l.Covers)
    (heffect.covers (hs.covers t)) fun u _ => hs.covers u

/-- **Nothing ends it**, and the map stays as it is. -/
lemma readOnly_step (hs : Covered s) (hro : ReadOnly s)
    (h : (machine τ κ ν).step s a = some s') :
    ReadOnly s' ∧ s'.shared.sessionInfo = s.shared.sessionInfo := by
  obtain ⟨t, b⟩ := a
  have hpos := hro.readCount_pos hs
  obtain ⟨x, l, heffect, rfl⟩ := step_cases h
  refine ⟨⟨?_, ?_⟩, ?_⟩
  · obtain ⟨u, hu⟩ := hro.leaks
    refine ⟨u, ?_⟩
    by_cases hut : u = t
    · subst hut
      rw [Threads.State.after_thread_self]
      exact heffect.leaks (hs.covers u) hu
    · rwa [s.after_thread_of_ne hut]
  · refine Threads.State.forall_after
      (J := fun (_ : Shared κ ν) (l : Local κ ν) => l.holds.write = 0) ?_ fun u _ => hro.write u
    by_contra hwrite
    rcases heffect.lockAction.write_pos (Nat.pos_of_ne_zero hwrite) with hbefore | hfree
    · exact hbefore.ne' (hro.write t)
    · simp [hfree, free] at hpos
  · exact heffect.map_eq ((hs.covers t).write.symm.trans (hro.write t))

/-- A timed `get` that comes to its `finally` with the lock leaves the read lock behind. -/
lemma readOnly_of_timedGet (hs : Covered s) (h : (machine τ κ ν).step s a = some s')
    {c : Call κ ν} {r : Reply ν} (hph : (s.thread a.1).phase = .unlocking c r)
    (hget : c.IsTimedGet = true) : ReadOnly s' := by
  obtain ⟨t, b⟩ := a
  replace hph : (s.thread t).phase = .unlocking c r := hph
  obtain ⟨x, l, heffect, rfl⟩ := step_cases h
  have hcovers := hs.covers t
  obtain ⟨hside, -⟩ := Call.unlocks_of_isTimedGet hget
  obtain ⟨hfalse, -⟩ | ⟨-, hnone⟩ := hcovers.unlock (x := s.shared) hph
  · rw [hget] at hfalse
    cases hfalse
  obtain ⟨hwrite, hread⟩ := hcovers
  rw [hph] at hwrite hread
  simp only [Phase.holds, hside, Side.hold] at hwrite hread
  have hafter : l.holds = (s.thread t).holds ∧
      l.phase = .ended c (.error .illegalMonitorStateException) := by
    refine ⟨?_, heffect.of_refused hph hnone⟩
    cases heffect with
    | @unlocked d q k g hph' hop =>
        obtain ⟨rfl, rfl⟩ := Phase.unlocking.inj (hph.symm.trans hph')
        rw [hnone] at hop
        cases hop
    | called hrest => simp [hph, Phase.AtRest] at hrest
    | locked hph' hop => cases hph.symm.trans hph'
    | _ => rfl
  refine ⟨⟨t, ?_⟩, ?_⟩
  · rw [Threads.State.after_thread_self, Local.Leaks, hafter.1, hafter.2]
    exact hread
  · refine Threads.State.forall_after
      (J := fun (_ : Shared κ ν) (l : Local κ ν) => l.holds.write = 0) ?_ fun u hut => ?_
    · rw [hafter.1]
      exact hwrite
    · -- the reader excludes a writer
      by_contra hwriteu
      have hholds := hs.balanced.exclusive u t hut (Nat.pos_of_ne_zero hwriteu)
      rw [hholds] at hread
      cases hread

/-- In every interleaving, the calls of the timed `get` included: a method that writes is alone with
the map, and as soon as a timed `get` has got its lock and goes on from its `finally`, the session
is frozen for good: its map does not change any more, and no thread gets the write lock. -/
theorem session_freezes {ms : List (SessionMove τ κ ν)} (h : (machine τ κ ν).Run ms s) :
    RaceFree s ∧ ∀ m ∈ ms, ¬NotInTimedGet m →
      Frozen s ∧ s.shared.sessionInfo = m.post.shared.sessionInfo := by
  have hinv : Covered s := h.invariant (fun _ => covered_init) fun _ _ _ => covered_step
  refine ⟨hinv.raceFree, fun m hm htimed => ?_⟩
  obtain ⟨hpre, hstep, -⟩ :=
    h.invariant_of_mem (fun _ => covered_init) (fun _ _ _ => covered_step) hm
  obtain ⟨c, r, hph, hget⟩ : ∃ c r, (m.pre.thread m.label.1).phase = .unlocking c r ∧
      c.IsTimedGet = true := by
    simp only [NotInTimedGet, not_forall, exists_prop] at htimed
    obtain ⟨c, r, hph, hget⟩ := htimed
    exact ⟨c, r, hph, Bool.eq_true_of_not_eq_false hget⟩
  have hreadOnly : ReadOnly m.post := readOnly_of_timedGet hpre hstep hph hget
  obtain ⟨hro, hmap⟩ : ReadOnly s ∧ s.shared.sessionInfo = m.post.shared.sessionInfo := by
    refine h.stable
      (Q := fun s => ReadOnly s ∧ s.shared.sessionInfo = m.post.shared.sessionInfo)
      (fun _ => covered_init) (fun _ _ _ => covered_step) (fun s a s' hs hstep hQ => ?_) hm
      ⟨hreadOnly, rfl⟩
    obtain ⟨hro, hmap⟩ := readOnly_step hs hQ.1 hstep
    exact ⟨hro, hmap.trans hQ.2⟩
  exact ⟨hro.frozen hinv, hmap⟩

/-- A value is put, a timed `get` finds it, and another `put` comes to its lock. -/
def putThenTimedGet : List (SessionMove Duo ℕ ℕ) :=
  (machine Duo ℕ ℕ).moves (initial Duo ℕ ℕ)
    [(.first, .call (.put (some 1) (some 2))), (.first, .go), (.first, .go), (.first, .go),
      (.second, .call (.getTimed (some 1))), (.second, .go), (.second, .go), (.second, .go),
      (.first, .call (.put (some 1) (some 3)))]

theorem session_freezes_putThenTimedGet : ∃ s, (machine Duo ℕ ℕ).Run putThenTimedGet s ∧
    RaceFree s ∧ ∀ m ∈ putThenTimedGet, ¬NotInTimedGet m →
      Frozen s ∧ s.shared.sessionInfo = m.post.shared.sessionInfo := by
  obtain ⟨s, hs⟩ : ∃ s, (machine Duo ℕ ℕ).Run putThenTimedGet s :=
    ⟨_, Machine.run_of_play (init_initial Duo ℕ ℕ) rfl⟩
  exact ⟨s, hs, session_freezes hs⟩

end Machine

end Session

end LearnJava
