import LearnJava.Db.PoolOwnership
import LearnJava.Db.PoolPermits

/-!
# How many connections there are

`maxConnectionCount` should bound the connections checked out at the same time and the connections
ever created, and a call that gets no permit should hand out nothing.

A call that goes on without a permit breaks the bounds if it hands out a connection, and there is
a second way: `releaseConnection` gives its permit back before its connection is in the free
queue.  A `getConnection` that takes the permit in between finds the queue empty and creates one
connection more, although the pool has all of its own already.  `StaysWithin` excludes the two,
and `within_bounds` shows for every interleaving in which connections are released at most
once that nothing else breaks the bounds.

The argument counts what stands for a permit.  As long as no release is between its two calls, every
connection in use or being created has one of the permits that are not in the semaphore, so that a
call with a permit that finds nothing free may create a connection (`room_of_found_none`).
-/

namespace LearnJava

namespace ConnectionPool

variable {τ κ : Type} [Fintype τ]

/-! ## The property, and its condition -/

omit [Fintype τ] in
/-- The bounds, and nothing handed out without a permit. -/
structure WithinBounds (maxConnectionCount : ℕ) (s : PoolState τ κ) : Prop where
  checked_out_le : s.shared.checkedOut.length ≤ maxConnectionCount
  created_le : s.shared.created.length ≤ maxConnectionCount
  without_permit : ∀ t c, (s.thread t).phase = .returned (.connection (some c)) →
    (s.thread t).took = true

/-- A release has given its permit back, and its connection is not in the queue yet. -/
def Local.BetweenReleaseAndOffer (l : Local κ) : Prop :=
  match l.phase with
  | .removing _ | .offering _ => True
  | _ => False

instance : DecidablePred (Local.BetweenReleaseAndOffer : Local κ → Prop)
  | ⟨.removing _, _⟩ | ⟨.offering _, _⟩ => isTrue trivial
  | ⟨.idle, _⟩ | ⟨.acquiring, _⟩ | ⟨.polling, _⟩ | ⟨.creating, _⟩ | ⟨.adding _, _⟩
  | ⟨.checking _, _⟩ | ⟨.releasing _, _⟩ | ⟨.returned _, _⟩ => isFalse id

/-- The call got a permit and is about to create a connection. -/
def pending (l : Local κ) : ℕ :=
  match l.phase with
  | .creating => if l.took then 1 else 0
  | _ => 0

/-- A call without a permit finds no free connection and cannot create one, and a call with a
permit does not find the free queue empty just because a release is on its way there, when all
connections of the pool exist or are being created. -/
structure StaysWithin (m : PoolMove τ κ) : Prop where
  polls_without_permit : (m.pre.thread m.label.1).phase = .polling →
    (m.pre.thread m.label.1).took = false → m.pre.shared.freeConnectionQueue = []
  creates_with_permit : ∀ c, m.label.2 = .create c → (m.pre.thread m.label.1).took = true
  no_race : (m.pre.thread m.label.1).phase = .polling → (m.pre.thread m.label.1).took = true →
    m.pre.shared.freeConnectionQueue = [] → (∃ u, (m.pre.thread u).BetweenReleaseAndOffer) →
    m.pre.shared.created.length + m.pre.total pending < m.pre.shared.maxConnectionCount

instance [DecidableEq κ] (m : PoolMove τ κ) : Decidable (StaysWithin m) :=
  decidable_of_iff (((m.pre.thread m.label.1).phase = .polling →
        (m.pre.thread m.label.1).took = false → m.pre.shared.freeConnectionQueue = []) ∧
      (∀ c, m.label.2 = .create c → (m.pre.thread m.label.1).took = true) ∧
      ((m.pre.thread m.label.1).phase = .polling → (m.pre.thread m.label.1).took = true →
        m.pre.shared.freeConnectionQueue = [] →
        (∃ u, (m.pre.thread u).BetweenReleaseAndOffer) →
        m.pre.shared.created.length + m.pre.total pending < m.pre.shared.maxConnectionCount))
    ⟨fun h => ⟨h.1, h.2.1, h.2.2⟩,
      fun h => ⟨h.polls_without_permit, h.creates_with_permit, h.no_race⟩⟩

/-! ## The invariant -/

/-- A call that has a connection to hand out, or did hand one out, got a permit. -/
structure Local.HandsOut (l : Local κ) : Prop where
  adding : ∀ c, l.phase = .adding c → l.took = true
  returned : ∀ c, l.phase = .returned (.connection (some c)) → l.took = true

/-- The bounds on permits, on connections, and on the connections that may come. -/
structure BoundInv [DecidableEq κ] (n : ℕ) (s : PoolState τ κ) : Prop where
  max_eq : s.shared.maxConnectionCount = n
  owned : Owned s
  permits : s.shared.permits + s.shared.checkedOut.length + s.total permitOf ≤ n
  room : s.shared.created.length + s.total pending ≤ n
  handsOut : ∀ t, (s.thread t).HandsOut

section Invariant

variable [DecidableEq κ] {n : ℕ} {s s' : PoolState τ κ}

omit [DecidableEq κ] in
lemma Owned.length_created (hs : Owned s) :
    s.shared.created.length = s.shared.freeConnectionQueue.length + s.shared.checkedOut.length +
      s.total fun l => (carried l).card := by
  have hcard := congrArg Multiset.card hs.balance
  simpa [Threads.State.total, Multiset.card_sum] using hcard

omit [Fintype τ] [DecidableEq κ] in
/-- Outside of the gap in `releaseConnection`, a connection in hand or under creation has a
permit. -/
lemma carried_add_pending_le {l : Local κ} (hl : l.HandsOut) (hgap : ¬ l.BetweenReleaseAndOffer) :
    (carried l).card + pending l ≤ permitOf l := by
  unfold Local.BetweenReleaseAndOffer at hgap
  unfold carried pending permitOf
  cases hph : l.phase with
  | adding c => simp [hl.adding c hph]
  | removing c | offering c => simp [hph] at hgap
  | _ => simp

/-- **A call with a permit that finds nothing free may create a connection.** -/
lemma room_of_found_none (hs : BoundInv n s) {t : τ} (hph : (s.thread t).phase = .polling)
    (htook : (s.thread t).took = true) (hfree : s.shared.freeConnectionQueue = [])
    (hgap : ¬ ∃ u, (s.thread u).BetweenReleaseAndOffer) :
    s.shared.created.length + s.total pending < n := by
  have hlt : (s.total fun l => (carried l).card + pending l) < s.total permitOf := by
    refine Finset.sum_lt_sum (fun u _ => ?_) ⟨t, Finset.mem_univ t, ?_⟩
    · exact carried_add_pending_le (hs.handsOut u) fun hu => hgap ⟨u, hu⟩
    · simp [carried, pending, permitOf, hph, htook]
  have hsum : (s.total fun l => (carried l).card + pending l) =
      (s.total fun l => (carried l).card) + s.total pending := Finset.sum_add_distrib
  have hlength := hs.owned.length_created
  have hpermits := hs.permits
  rw [hfree, List.length_nil] at hlength
  omega

/-! ## One move -/

omit [Fintype τ] in
lemma handsOut_of_effect {p p' : Pool κ} {l l' : Local κ} {a : Act κ} (h : Effect p l a p' l')
    (hl : l.HandsOut)
    (hpolls : l.phase = .polling → l.took = false → p.freeConnectionQueue = [])
    (hcreates : ∀ c, a = .create c → l.took = true) : l'.HandsOut := by
  cases h with
  | called hrest hph => obtain rfl | ⟨c, rfl⟩ := hph <;> constructor <;> simp
  | polled hph hfree =>
      have htook : l.took = true := by
        by_contra hnot
        rw [hpolls hph (by simpa using hnot)] at hfree
        cases hfree
      constructor <;> simp [htook]
  | created => constructor <;> simp [hcreates _ rfl]
  | added hph => constructor <;> simp [hl.adding _ hph]
  | _ => constructor <;> simp

variable [DecidableEq τ] {a : τ × Act κ}

lemma max_of_effect {p p' : Pool κ} {l l' : Local κ} {b : Act κ} (h : Effect p l b p' l') :
    p'.maxConnectionCount = p.maxConnectionCount := by
  cases h <;> rfl

omit [DecidableEq τ] in
/-- Within the bounds, a release gets through to the free queue. -/
lemma BoundInv.keepsOwnership (hn : n < 2 ^ 31) (hs : BoundInv n s)
    (hproper : ProperRelease ⟨s, a, s'⟩) : KeepsOwnership ⟨s, a, s'⟩ := by
  refine ⟨hproper, fun c (hph : (s.thread a.1).phase = .releasing c) => ?_,
    fun c (hph : (s.thread a.1).phase = .offering c) => ?_⟩
  · have hone : permitOf (s.thread a.1) = 1 := by simp [permitOf, hph]
    have hle := s.le_total permitOf a.1
    have hpermits := hs.permits
    show s.shared.permits + 1 < 2 ^ 31
    omega
  · have hone : (carried (s.thread a.1)).card = 1 := by simp [carried, hph]
    have hle := s.le_total (fun l => (carried l).card) a.1
    have hlength := hs.owned.length_created
    have hroom := hs.room
    have hmax := hs.max_eq
    show s.shared.freeConnectionQueue.length < s.shared.maxConnectionCount
    omega

omit [Fintype τ] in
/-- The connections that exist or may come grow only when a call with a permit finds nothing
free. -/
lemma created_of_effect {p p' : Pool κ} {l l' : Local κ} {b : Act κ} (h : Effect p l b p' l')
    (hcreates : ∀ c, b = .create c → l.took = true) :
    p'.created.length + pending l' ≤ p.created.length + pending l +
      if l.phase = .polling ∧ l.took = true ∧ p.freeConnectionQueue = [] then 1 else 0 := by
  cases h with
  | @called a ph hrest hph =>
      have hnone : pending ⟨ph, false⟩ = 0 := by
        obtain rfl | ⟨c, rfl⟩ := hph <;> rfl
      omega
  | foundNone hph hfree =>
      cases htook : l.took with
      | false => simp [pending]
      | true => simp [pending, hph, hfree]
  | created hph => simp [pending, hph, hcreates _ rfl]
  | _ =>
      simp only [pending]
      omega

lemma room_step (hs : BoundInv n s) {t : τ} {b : Act κ} {p : Pool κ} {l : Local κ}
    (heffect : Effect s.shared (s.thread t) b p l)
    (hstays : StaysWithin ⟨s, (t, b), s.after t (p, l)⟩) :
    p.created.length + (s.after t (p, l)).total pending ≤ n := by
  refine Threads.State.bound_after ?_ (created_of_effect heffect hstays.creates_with_permit)
  have hroom := hs.room
  split_ifs with hnone
  · obtain ⟨hph, htook, hfree⟩ := hnone
    by_cases hgap : ∃ u, (s.thread u).BetweenReleaseAndOffer
    · -- the only case the permits say nothing about
      have hlt := hstays.no_race hph htook hfree hgap
      rw [← hs.max_eq]
      exact hlt
    · exact room_of_found_none hs hph htook hfree hgap
  · exact hroom

/-- **One move keeps the bounds.** -/
lemma boundInv_step (hn : n < 2 ^ 31) (hs : BoundInv n s)
    (h : (machine τ κ n).step s a = some s')
    (hm : ProperRelease ⟨s, a, s'⟩ ∧ StaysWithin ⟨s, a, s'⟩) : BoundInv n s' := by
  obtain ⟨hproper, hstays⟩ := hm
  have hkeeps := hs.keepsOwnership hn hproper
  have howned := owned_step hs.owned h hkeeps
  obtain ⟨t, b⟩ := a
  obtain ⟨p, l, heffect, rfl⟩ := step_cases h
  have hpermits := permits_of_effect heffect hproper (hs.handsOut t).adding hkeeps.no_overflow
  refine ⟨?_, howned, ?_, room_step hs heffect hstays, ?_⟩
  · exact (max_of_effect heffect).trans hs.max_eq
  · apply Threads.State.bound_after (c := 0) hs.permits
    show p.permits + p.checkedOut.length + permitOf l ≤ _
    omega
  · exact Threads.State.forall_after (J := fun _ l => Local.HandsOut l)
      (handsOut_of_effect heffect (hs.handsOut t) hstays.polls_without_permit
        hstays.creates_with_permit) fun u _ => hs.handsOut u

lemma boundInv_init (h : (machine τ κ n).init s) : BoundInv n s := by
  have hshared : s.shared = Pool.new n := h.1
  have hidle : ∀ t, s.thread t = ⟨.idle, false⟩ := h.2
  refine ⟨by rw [hshared]; rfl, owned_init h, ?_, ?_, fun t => ?_⟩
  · rw [total_permitOf_idle hidle, hshared]
    exact le_rfl
  · have hzero : s.total pending = 0 := Threads.State.total_eq_zero fun t => by
      rw [hidle t]
      rfl
    rw [hzero, hshared]
    exact Nat.zero_le _
  · rw [hidle t]
    constructor <;> simp

omit [DecidableEq τ] in
lemma BoundInv.withinBounds (hs : BoundInv n s) : WithinBounds n s := by
  have hpermits := hs.permits
  have hroom := hs.room
  exact ⟨by omega, by omega, fun t => (hs.handsOut t).returned⟩

/-- For every `maxConnectionCount` and every interleaving in which no connection is released twice
and all moves stay within the bounds: at most `maxConnectionCount` connections are checked out and
at most as many were ever created, and no call without a permit handed out a connection. -/
theorem within_bounds (hn : n < 2 ^ 31) {ms : List (PoolMove τ κ)}
    (h : (machine τ κ n).Run ms s) (hproper : ∀ m ∈ ms, ProperRelease m)
    (hstays : ∀ m ∈ ms, StaysWithin m) : WithinBounds n s := by
  have hinv : BoundInv n s := h.invariant_of_moves (C := fun m => ProperRelease m ∧ StaysWithin m)
    (fun s => boundInv_init) (fun s a s' => boundInv_step hn)
    fun m hm => ⟨hproper m hm, hstays m hm⟩
  exact hinv.withinBounds

/-- The moves of a `getConnection()` that creates the only connection, and of one that times out
and cannot create another. -/
def oneIsEnough : List (PoolMove Duo ℕ) :=
  (machine Duo ℕ 1).moves (initial Duo ℕ 1)
    [(.first, .getConnection), (.first, .tryAcquire .acquired), (.first, .go),
      (.first, .create 7), (.first, .go), (.second, .getConnection),
      (.second, .tryAcquire .timedOut), (.second, .go), (.second, .fail)]

theorem oneIsEnough_within : ∃ s, (machine Duo ℕ 1).Run oneIsEnough s ∧ WithinBounds 1 s :=
  have hrun := Machine.run_of_play (init_initial Duo ℕ 1) rfl
  ⟨_, hrun, within_bounds (by norm_num) hrun (by decide) (by decide)⟩

/-- The same, where the second call creates a connection after its time-out. -/
def timeOutIgnored : List (PoolMove Duo ℕ) :=
  (machine Duo ℕ 1).moves (initial Duo ℕ 1)
    [(.first, .getConnection), (.first, .tryAcquire .acquired), (.first, .go),
      (.first, .create 7), (.first, .go), (.second, .getConnection),
      (.second, .tryAcquire .timedOut), (.second, .go), (.second, .create 8), (.second, .go)]

/-- Two connections of a pool of one are checked out. -/
theorem timeOutIgnored_exceeds :
    (∀ m ∈ timeOutIgnored, ProperRelease m) ∧
      ∃ s, (machine Duo ℕ 1).Run timeOutIgnored s ∧ ¬ WithinBounds 1 s := by
  refine ⟨by decide, _, Machine.run_of_play (init_initial Duo ℕ 1) rfl, fun h => ?_⟩
  exact absurd h.checked_out_le (by decide)

end Invariant

end ConnectionPool

end LearnJava
