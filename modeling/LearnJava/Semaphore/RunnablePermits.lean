import LearnJava.Semaphore.GetConnectionRunnable

/-!
# Permits and connections of the threads

A thread that has acquired a permit keeps it until its `finally`, and a thread that has a connection
has a permit, so that a permit for each connection at most is enough for every `getConnection`.

`finally` releases a permit in any case.  A thread that was interrupted in `await` or `acquire` has
none, and the semaphore gets one too many.  `promises_iff` shows for every interleaving that the
promises hold exactly when no such thread releases.
-/

namespace LearnJava

namespace GetConnectionRunnable

open SimulateConnectionPool

/-! ## The property, and its condition -/

/-- The thread is between `getConnection` and `close`. -/
def Phase.Connected : Phase → Bool
  | .closing _ => true
  | _ => false

/-- The exception a thread has met. -/
def Phase.exception : Phase → Option Throwable
  | .releasing e | .ended e => e
  | _ => none

/-- What holds at every moment. -/
structure Promises [Fintype τ] (permits size : ℕ) (s : RunnableState τ) : Prop where
  at_most : (Finset.univ.filter fun t => (s.thread t).phase.Connected).card ≤ permits
  served : ∀ t, (s.thread t).phase.exception ≠ some (wrapped .noConnectionException)
  balanced : ∀ t e, (s.thread t).phase = .ended e → (s.thread t).released = (s.thread t).acquired
  restored : (∀ t, ∃ e, (s.thread t).phase = .ended e) →
    s.shared.permits = permits ∧ s.shared.pool.concurrentLinkedQueue.Perm (List.range size)

/-- What a thread throws that is interrupted while it waits. -/
def interruption : Option Throwable := some (wrapped .interruptedException)

/-- No thread that was interrupted while it waited releases a permit. -/
def NoReleaseAfterInterrupt {τ : Type} (m : RunnableMove τ) : Prop :=
  m.label.2 = .go → (m.pre.thread m.label.1).phase = .releasing interruption →
    ¬m.pre.shared.permits + 1 < 2 ^ 31

/-! ## The invariant -/

/-- The connection a thread has. -/
def connected (l : Local) : ℕ := if l.phase.Connected then 1 else 0

/-- The permit of a thread that has no connection. -/
def spare (l : Local) : ℕ :=
  match l.phase with
  | .getting => 1
  | .releasing e => if e = interruption then 0 else 1
  | _ => 0

/-- The invariant of the threads. -/
structure Inv {τ : Type} [Fintype τ] (permits size : ℕ) (s : RunnableState τ) : Prop where
  conserved : Conserved size s.shared.pool
  permits_eq : permits = s.shared.permits + s.total fun l => connected l + spare l
  queue_eq : size = s.shared.pool.concurrentLinkedQueue.length + s.total connected
  opened : ∀ t i, (s.thread t).phase = .closing i → ∃ connection, s.shared.pool.IsOpen i connection
  own : ∀ t u i, (s.thread t).phase = .closing i → (s.thread u).phase = .closing i → t = u
  accounts : ∀ t, (s.thread t).acquired =
    (s.thread t).released + connected (s.thread t) + spare (s.thread t)
  served : ∀ t, (s.thread t).phase.exception ≠ some (wrapped .noConnectionException)

variable {τ : Type} [Fintype τ] {permits latch size : ℕ} {s s' : RunnableState τ} {a : τ × Act}

/-- The permits that are not in the semaphore are those of threads with and without a
connection. -/
lemma Inv.permits_split (hs : Inv permits size s) :
    permits = s.shared.permits + (s.total connected + s.total spare) := by
  have hpermits := hs.permits_eq
  simpa only [Threads.State.total, Finset.sum_add_distrib] using hpermits

lemma Inv.promises (hs : Inv permits size s) : Promises permits size s := by
  have hpermits := hs.permits_split
  refine ⟨?_, hs.served, fun t e hph => ?_, fun hended => ?_⟩
  · have hcard : (Finset.univ.filter fun t => (s.thread t).phase.Connected).card =
        s.total connected := Finset.card_filter _ _
    omega
  · have haccounts := hs.accounts t
    simp only [connected, spare, hph, Phase.Connected] at haccounts
    exact haccounts.symm
  · have hconnected : s.total connected = 0 := by
      apply Threads.State.total_eq_zero
      intro t
      obtain ⟨e, hph⟩ := hended t
      simp [connected, hph, Phase.Connected]
    have hspare : s.total spare = 0 := by
      apply Threads.State.total_eq_zero
      intro t
      obtain ⟨e, hph⟩ := hended t
      simp [spare, hph]
    refine ⟨by omega, ?_⟩
    -- all connections are in the queue, so that none is with a handler
    have hqueue := hs.queue_eq
    have hlength := hs.conserved.length_eq
    rw [List.length_append, List.length_range] at hlength
    have howned : s.shared.pool.owned = [] := List.length_eq_zero_iff.mp (by omega)
    have hconserved := hs.conserved
    rwa [Conserved, howned, List.append_nil] at hconserved

/-- A thread that asks for a connection finds one. -/
lemma Inv.queue_ne_nil (hs : Inv permits size s) (hle : permits ≤ size) {t : τ}
    (hph : (s.thread t).phase = .getting) : s.shared.pool.concurrentLinkedQueue ≠ [] := by
  have hpermits := hs.permits_split
  have hqueue := hs.queue_eq
  have hspare := s.le_total spare t
  simp only [spare, hph] at hspare
  intro hnil
  rw [hnil, List.length_nil] at hqueue
  omega

/-- There is room in the semaphore for the permit of a thread that has one. -/
lemma Inv.room (hs : Inv permits size s) (hle : permits ≤ size) (hsize : size < 2 ^ 31) {t : τ}
    {e : Option Throwable} (hph : (s.thread t).phase = .releasing e) (he : e ≠ interruption) :
    s.shared.permits + 1 < 2 ^ 31 := by
  have hpermits := hs.permits_split
  have hspare := s.le_total spare t
  simp only [spare, hph, he, if_false] at hspare
  omega

section Effects

variable {x x' : Shared} {l l' : Local} {b : Act}

/-- The effect of an action that keeps the accounts. -/
lemma Effect.keeps (h : Effect x l b x' l')
    (hno : b = .go → l.phase = .releasing interruption → ¬x.permits + 1 < 2 ^ 31)
    (hroom : ∀ e, l.phase = .releasing e → e ≠ interruption → x.permits + 1 < 2 ^ 31) :
    x'.permits + (connected l' + spare l') = x.permits + (connected l + spare l) ∧
      l'.acquired + (l.released + connected l + spare l) =
        l.acquired + (l'.released + connected l' + spare l') := by
  cases h with
  | opened hph => simp [connected, spare, hph, Phase.Connected]
  | acquired hph hpos =>
      simp only [connected, spare, hph, Phase.Connected, Bool.false_eq_true, if_false]
      exact ⟨by omega, by omega⟩
  | got hph => simp [connected, spare, hph, Phase.Connected]
  | foundNone hph hget =>
      obtain ⟨-, rfl⟩ := getConnection_error hget
      simp [connected, spare, hph, Phase.Connected, interruption, wrapped]
  | closed hph => simp [connected, spare, hph, Phase.Connected, interruption]
  | @released e hph hfits =>
      have he : e ≠ interruption := by
        rintro rfl
        exact hno rfl hph hfits
      simp [connected, spare, hph, Phase.Connected, he]
  | @overflowed e hph hfull =>
      have he : e = interruption := by
        by_contra hne
        exact hfull (hroom e hph hne)
      simp [connected, spare, hph, Phase.Connected, he]
  | interrupted hph =>
      obtain hph | hph := hph <;> simp [connected, spare, hph, Phase.Connected, interruption]
  | countedDown => exact ⟨rfl, rfl⟩

/-- Connections are taken from the queue and given back to it. -/
lemma Effect.keeps_queue (h : Effect x l b x' l') :
    x'.pool.concurrentLinkedQueue.length + connected l' =
      x.pool.concurrentLinkedQueue.length + connected l := by
  cases h with
  | got hph hget =>
      obtain ⟨connection, rest, hqueue, -, rfl⟩ := getConnection_ok hget
      simp [connected, hph, Phase.Connected, hqueue]
  | closed hph hclose =>
      obtain ⟨g, -, rfl⟩ := close_some hclose
      simp [connected, hph, Phase.Connected]
  | interrupted hph => obtain hph | hph := hph <;> simp [connected, hph, Phase.Connected]
  | countedDown => rfl
  | opened hph | acquired hph | foundNone hph | released hph | overflowed hph =>
      simp [connected, hph, Phase.Connected]

/-- A thread that finds connections does not meet the exception. -/
lemma Effect.keeps_served (h : Effect x l b x' l')
    (hfound : l.phase = .getting → x.pool.concurrentLinkedQueue ≠ [])
    (hserved : l.phase.exception ≠ some (wrapped .noConnectionException)) :
    l'.phase.exception ≠ some (wrapped .noConnectionException) := by
  cases h with
  | foundNone hph hget => exact absurd (getConnection_error hget).1 (hfound hph)
  | released hph | countedDown => simpa [*, Phase.exception] using hserved
  | opened | acquired | got | closed | overflowed | interrupted =>
      simp [Phase.exception, wrapped]

end Effects

/-- The pool stays conserved. -/
lemma Inv.conserved_after (hs : Inv permits size s) {t : τ} {b : Act} {x : Shared} {l : Local}
    (h : Effect s.shared (s.thread t) b x l) : Conserved size x.pool := by
  cases h with
  | got hph hget => exact getConnection_conserved hs.conserved hget
  | closed hph hclose =>
      obtain ⟨connection, hopen⟩ := hs.opened t _ hph
      exact close_conserved hs.conserved hopen hclose
  | _ => exact hs.conserved

/-- A thread that acts comes to a handler that is open and that no other thread has. -/
lemma Inv.opened_self (hs : Inv permits size s) {t : τ} {b : Act} {x : Shared} {l : Local}
    (h : Effect s.shared (s.thread t) b x l) {i : ℕ} (hph : l.phase = .closing i) :
    (∃ connection, x.pool.IsOpen i connection) ∧ ∀ u, u ≠ t → (s.thread u).phase ≠ .closing i := by
  cases h with
  | got _ hget =>
      obtain rfl := Phase.closing.inj hph
      obtain ⟨hopen, hfresh⟩ := getConnection_isOpen hget
      refine ⟨hopen, fun u _ hu => ?_⟩
      obtain ⟨connection, hbefore⟩ := hs.opened u _ hu
      exact hfresh connection hbefore
  | countedDown => exact ⟨hs.opened t i hph, fun u hut hu => hut (hs.own u t i hu hph)⟩
  | _ => cases hph

/-- The handlers of the other threads stay open. -/
lemma Inv.opened_other (hs : Inv permits size s) {t u : τ} (hut : u ≠ t) {b : Act} {x : Shared}
    {l : Local} (h : Effect s.shared (s.thread t) b x l) {i : ℕ}
    (hph : (s.thread u).phase = .closing i) : ∃ connection, x.pool.IsOpen i connection := by
  obtain ⟨connection, hopen⟩ := hs.opened u i hph
  cases h with
  | got _ hget => exact ⟨connection, isOpen_getConnection hopen hget⟩
  | @closed j _ hclosing hclose =>
      have hij : i ≠ j := by
        rintro rfl
        exact hut (hs.own u t i hph hclosing)
      exact ⟨connection, isOpen_close hopen hij hclose⟩
  | _ => exact ⟨connection, hopen⟩

section Machine

variable [DecidableEq τ]

lemma inv_init (h : (machine τ permits latch size).init s) : Inv permits size s := by
  obtain ⟨hshared, hthreads⟩ := h
  replace hshared : s.shared = ⟨permits, latch, newPool size⟩ := hshared
  replace hthreads : ∀ t, s.thread t = ⟨.awaiting, 0, 0⟩ := hthreads
  have hzero : ∀ w : Local → ℕ, w ⟨.awaiting, 0, 0⟩ = 0 → s.total w = 0 := by
    intro w hw
    exact Threads.State.total_eq_zero fun t => by rw [hthreads t, hw]
  refine ⟨?_, ?_, ?_, fun t i hph => ?_, fun t u i hph => ?_, fun t => ?_, fun t => ?_⟩
  · rw [hshared]
    exact newPool_conserved size
  · rw [hshared, hzero _ rfl]
    rfl
  · rw [hshared, hzero _ rfl]
    simp [newPool]
  · simp [hthreads t] at hph
  · simp [hthreads t] at hph
  · rw [hthreads t]
    rfl
  · simp [hthreads t, Phase.exception]

/-- **One move keeps the invariant**, unless a thread that was interrupted releases a permit. -/
lemma inv_step (hle : permits ≤ size) (hsize : size < 2 ^ 31) (hs : Inv permits size s)
    (h : (machine τ permits latch size).step s a = some s')
    (hno : NoReleaseAfterInterrupt ⟨s, a, s'⟩) : Inv permits size s' := by
  obtain ⟨t, b⟩ := a
  obtain ⟨x, l, heffect, rfl⟩ := step_cases h
  obtain ⟨hpermits, haccounts⟩ := heffect.keeps hno fun e => hs.room hle hsize
  refine ⟨hs.conserved_after heffect,
    Threads.State.balance_after hs.permits_eq (congrArg (permits + ·) hpermits.symm),
    Threads.State.balance_after hs.queue_eq (congrArg (size + ·) heffect.keeps_queue.symm),
    fun u i hph => ?_, fun u v i hu hv => ?_, ?_, ?_⟩
  · by_cases hut : u = t
    · subst hut
      exact (hs.opened_self heffect (by simpa using hph)).1
    · exact hs.opened_other hut heffect (by simpa [hut] using hph)
  · by_cases hut : u = t <;> by_cases hvt : v = t
    · rw [hut, hvt]
    · subst hut
      exact absurd (by simpa [hvt] using hv)
        ((hs.opened_self heffect (by simpa using hu)).2 v hvt)
    · subst hvt
      exact absurd (by simpa [hut] using hu)
        ((hs.opened_self heffect (by simpa using hv)).2 u hut)
    · exact hs.own u v i (by simpa [hut] using hu) (by simpa [hvt] using hv)
  · refine Threads.State.forall_after (J := fun (_ : Shared) (l : Local) =>
      l.acquired = l.released + connected l + spare l) ?_ fun u _ => hs.accounts u
    have hbefore := hs.accounts t
    rw [← hbefore, add_comm] at haccounts
    exact Nat.add_left_cancel haccounts
  · exact Threads.State.forall_after (J := fun (_ : Shared) (l : Local) =>
      l.phase.exception ≠ some (wrapped .noConnectionException))
      (heffect.keeps_served (hs.queue_ne_nil hle) (hs.served t)) fun u _ => hs.served u

end Machine

end GetConnectionRunnable

end LearnJava
