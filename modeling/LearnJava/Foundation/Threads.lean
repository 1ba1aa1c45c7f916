import LearnJava.Foundation.Run

/-!
# Threads that share one value

Each thread has data of its own, and all of them act on one shared value: a *program* says what
one atomic action does to the shared value and to the data of the thread that takes it.  Where
a thread is in its code is part of its data.  `Program.machine` is the interleaving, in which a
move is labelled by the thread that takes it and by its action.

An invariant of such a machine has a part about the whole state and a part `J` about the
shared value and the data of a single thread.  `forall_after` splits the second into what the
acting thread owes and what it must not break for the others.  Whole-state parts are mostly
balances — a quantity of the shared value plus a `total` over the threads — and `total_after`
says how one action changes a total.
-/

namespace LearnJava

namespace Threads

/-- The shared value and the data of every thread. -/
structure State (τ σ ℓ : Type) where
  shared : σ
  thread : τ → ℓ

/-- What one action does.  `act` is `none` where the thread cannot take the action. -/
structure Program (σ ℓ ι : Type) where
  initShared : σ → Prop
  initThread : ℓ → Prop
  act : σ → ℓ → ι → Option (σ × ℓ)

variable {τ σ ℓ ι : Type}

/-- What a thread that acts alone makes of the shared value and of its data. -/
def Program.exec (P : Program σ ℓ ι) : σ → ℓ → List ι → Option (σ × ℓ)
  | x, l, [] => some (x, l)
  | x, l, a :: as => (P.act x l a).bind fun r => P.exec r.1 r.2 as

section State

variable [DecidableEq τ]

/-- The state after an action of the thread `t` that led to `r`. -/
def State.after (s : State τ σ ℓ) (t : τ) (r : σ × ℓ) : State τ σ ℓ :=
  ⟨r.1, Function.update s.thread t r.2⟩

@[simp] lemma State.after_shared (s : State τ σ ℓ) (t : τ) (r : σ × ℓ) :
    (s.after t r).shared = r.1 := rfl

@[simp] lemma State.after_thread_self (s : State τ σ ℓ) (t : τ) (r : σ × ℓ) :
    (s.after t r).thread t = r.2 := Function.update_self _ _ _

@[simp] lemma State.after_thread_of_ne (s : State τ σ ℓ) {t u : τ} (h : u ≠ t) (r : σ × ℓ) :
    (s.after t r).thread u = s.thread u := Function.update_of_ne h _ _

/-- The interleaving of any number of threads. -/
def Program.machine (τ : Type) [DecidableEq τ] (P : Program σ ℓ ι) :
    Machine (State τ σ ℓ) (τ × ι) where
  init s := P.initShared s.shared ∧ ∀ t, P.initThread (s.thread t)
  step s a := (P.act s.shared (s.thread a.1) a.2).map (s.after a.1)

lemma Program.step_iff {P : Program σ ℓ ι} {s s' : State τ σ ℓ} {a : τ × ι} :
    (P.machine τ).step s a = some s' ↔
      ∃ r, P.act s.shared (s.thread a.1) a.2 = some r ∧ s' = s.after a.1 r := by
  simp only [Program.machine, Option.map_eq_some_iff]
  exact exists_congr fun r => and_congr_right fun _ => eq_comm

/-- The actions of a thread that acts alone are a part of an interleaving. -/
lemma Program.play_of_exec {P : Program σ ℓ ι} {s : State τ σ ℓ} {t : τ} {as : List ι} {r : σ × ℓ}
    (h : P.exec s.shared (s.thread t) as = some r) :
    (P.machine τ).play s (as.map (t, ·)) = some (s.after t r) := by
  induction as generalizing s with
  | nil =>
      obtain rfl := Option.some.inj h
      simp [Machine.play, State.after]
  | cons a as ih =>
      obtain ⟨r', hact, hrest⟩ := Option.bind_eq_some_iff.mp h
      have hstep : (P.machine τ).step s (t, a) = some (s.after t r') :=
        Program.step_iff.mpr ⟨r', hact, rfl⟩
      have hplay := ih (s := s.after t r') (by simpa using hrest)
      simp only [List.map_cons, Machine.play, hstep, Option.bind_some, hplay]
      simp [State.after]

/-- After an action, all threads have `J` if the acting thread has it and the shared value did
not take it from the others. -/
lemma State.forall_after {J : σ → ℓ → Prop} {s : State τ σ ℓ} {t : τ} {r : σ × ℓ}
    (hself : J r.1 r.2) (hothers : ∀ u, u ≠ t → J r.1 (s.thread u)) :
    ∀ u, J (s.after t r).shared ((s.after t r).thread u) := by
  intro u
  by_cases hu : u = t
  · subst hu
    simpa using hself
  · simpa [hu] using hothers u hu

end State

section Total

variable [Fintype τ] {M : Type} [AddCommMonoid M]

/-- The sum of `w` over the data of all threads. -/
def State.total (w : ℓ → M) (s : State τ σ ℓ) : M := ∑ t, w (s.thread t)

/-- Where no thread contributes, there is nothing. -/
lemma State.total_eq_zero {w : ℓ → M} {s : State τ σ ℓ} (h : ∀ t, w (s.thread t) = 0) :
    s.total w = 0 :=
  Finset.sum_eq_zero fun t _ => h t

lemma State.total_nonneg [PartialOrder M] [IsOrderedAddMonoid M] {w : ℓ → M} {s : State τ σ ℓ}
    (h : ∀ t, 0 ≤ w (s.thread t)) : 0 ≤ s.total w :=
  Finset.sum_nonneg fun t _ => h t

variable [DecidableEq τ]

/-- One action exchanges the acting thread's contribution. -/
lemma State.total_after (w : ℓ → M) (s : State τ σ ℓ) (t : τ) (r : σ × ℓ) :
    (s.after t r).total w + w (s.thread t) = s.total w + w r.2 := by
  have hrest : ∑ u ∈ Finset.univ.erase t, w ((s.after t r).thread u) =
      ∑ u ∈ Finset.univ.erase t, w (s.thread u) := by
    refine Finset.sum_congr rfl fun u hu => ?_
    rw [s.after_thread_of_ne (Finset.ne_of_mem_erase hu)]
  simp only [State.total]
  rw [← Finset.sum_erase_add _ _ (Finset.mem_univ t), hrest, State.after_thread_self,
    ← Finset.sum_erase_add Finset.univ (fun u => w (s.thread u)) (Finset.mem_univ t)]
  exact add_right_comm _ _ _

section Order

omit [DecidableEq τ]

variable [PartialOrder M] [IsOrderedAddMonoid M] [CanonicallyOrderedAdd M]

/-- A total without negative contributions is at least each of them. -/
lemma State.le_total (w : ℓ → M) (s : State τ σ ℓ) (t : τ) : w (s.thread t) ≤ s.total w :=
  Finset.single_le_sum (f := fun u => w (s.thread u)) (fun _ _ => zero_le) (Finset.mem_univ t)

omit [IsOrderedAddMonoid M] in
/-- The contributions of two threads are a part of the total. -/
lemma State.add_le_total (w : ℓ → M) (s : State τ σ ℓ) {t u : τ} (h : t ≠ u) :
    w (s.thread t) + w (s.thread u) ≤ s.total w := by
  classical
  rw [← Finset.sum_pair (f := fun v => w (s.thread v)) h]
  exact Finset.sum_le_sum_of_subset (Finset.subset_univ _)

end Order

end Total

/-! ## Balances -/

section Balance

variable [Fintype τ] [DecidableEq τ]

/-- **Balance rule.**  If the shared part `b` and the threads' contributions sum up to `a`, they do
so again after an action in which the acting thread's contribution makes up for the changes of
`a` and `b`. -/
lemma State.balance_after {M : Type} [AddCancelCommMonoid M] {w : ℓ → M} {s : State τ σ ℓ} {t : τ}
    {r : σ × ℓ} {a b a' b' : M} (hs : a = b + s.total w)
    (h : a' + (b + w (s.thread t)) = a + (b' + w r.2)) : a' = b' + (s.after t r).total w := by
  have htotal := s.total_after w t r
  apply add_right_cancel (b := b + w (s.thread t))
  calc a' + (b + w (s.thread t)) = b + s.total w + (b' + w r.2) := by rw [h, hs]
    _ = b + b' + (s.total w + w r.2) := by abel
    _ = b + b' + ((s.after t r).total w + w (s.thread t)) := by rw [htotal]
    _ = b' + (s.after t r).total w + (b + w (s.thread t)) := by abel

/-- **Bound rule.**  A bound on the shared part `b` and the threads' contributions, with the margin
`c` to it, is kept by an action in which both together grow by at most `c`. -/
lemma State.bound_after {w : ℓ → ℕ} {s : State τ σ ℓ} {t : τ} {r : σ × ℓ} {a b b' c : ℕ}
    (hs : b + s.total w + c ≤ a) (h : b' + w r.2 ≤ b + w (s.thread t) + c) :
    b' + (s.after t r).total w ≤ a := by
  have htotal := s.total_after w t r
  omega

end Balance

end Threads

end LearnJava
