import LearnJava.Foundation.Run

/-!
# Monitors: a lock, and conditions to wait on while holding it

Threads share a value that they touch only while they hold one lock.  What a thread does between
getting the lock and giving it up is a *segment*: a function of the shared value that also says
which conditions are signalled and how the segment ends — by leaving the monitor with a
result, or by parking on a condition.  `Code` gives the segments of a monitor: the one a call
starts with, and the one that follows when a wait is over.

A parked thread has given the lock up.  It leaves the wait set because another thread signalled
the condition, because its time-out elapsed, because it was interrupted, or for no reason at
all (a spurious wake-up), and then it has to get the lock again before it goes on: any other
thread may hold the lock in between.  A thread that is interrupted before it parks does
not park and keeps the lock.

The interleaving is a `Machine` (`machine`).  Its rules used elsewhere:

* `step_cases`: what one action can do;
* `shared_of_run`: what every segment preserves holds of the shared value throughout;
* `notSignalled_of_step`: where no segment signals, no thread is ever woken by a signal.
-/

namespace LearnJava

namespace Monitor

/-- Why a thread left a wait set. -/
inductive Wake
  | signalled
  | spurious
  | timedOut
  | interrupted
  deriving DecidableEq, Repr

/-- How a segment ends: the monitor is left with a result, or the thread waits on `c` — with or
without a time-out — and goes on from the wait point `k`. -/
inductive Ending (κ ω ρ : Type)
  | leave (r : ρ)
  | await (c : κ) (timed : Bool) (k : ω)

/-- What a segment does. -/
structure Segment (σ κ ω ρ : Type) where
  shared : σ
  signals : List κ
  ending : Ending κ ω ρ

/-- The segments of a monitor: the first one of a call, and the one that follows a wait. -/
structure Code (σ κ θ ω ρ : Type) where
  enter : θ → σ → Segment σ κ ω ρ
  resume : ω → Wake → σ → Segment σ κ ω ρ

/-- Where a thread is. -/
inductive Phase (κ θ ω ρ : Type)
  | idle
  /-- In `lock()`, at the beginning of a call. -/
  | entering (p : θ)
  /-- Holding the lock, at the beginning of a call. -/
  | running (p : θ)
  /-- In the wait set of `c`. -/
  | parked (c : κ) (timed : Bool) (k : ω)
  /-- Out of the wait set of `c`, and getting the lock again. -/
  | woken (c : κ) (w : Wake) (k : ω)
  /-- Holding the lock again. -/
  | resumed (c : κ) (w : Wake) (k : ω)
  /-- The call is over. -/
  | returned (r : ρ)

/-- The shared value, the holder of the lock and the phase of every thread. -/
structure State (τ σ κ θ ω ρ : Type) where
  shared : σ
  owner : Option τ
  phase : τ → Phase κ θ ω ρ

/-- One action of one thread.  `exec` runs the segment of a thread that holds the lock;
`chosen` names the thread each of its signals reaches, and `interrupted` tells whether the thread
is interrupted when it is about to park. -/
inductive Action (τ θ : Type)
  | call (t : τ) (p : θ)
  | acquire (t : τ)
  | exec (t : τ) (chosen : List (Option τ)) (interrupted : Bool)
  | wake (t : τ) (w : Wake)

section Machine

variable {τ σ κ θ ω ρ : Type}

/-- The thread waits on the condition `c`. -/
def Phase.IsParkedOn (c : κ) : Phase κ θ ω ρ → Prop
  | .parked c' _ _ => c' = c
  | _ => False

/-- The thread was signalled on the condition `c` and has not the lock yet. -/
def Phase.IsSignalledOn (c : κ) : Phase κ θ ω ρ → Prop
  | .woken c' w _ => c' = c ∧ w = .signalled
  | _ => False

instance [DecidableEq κ] (c : κ) : DecidablePred (Phase.IsParkedOn c : Phase κ θ ω ρ → Prop)
  | .parked c' _ _ => inferInstanceAs (Decidable (c' = c))
  | .idle | .entering _ | .running _ | .woken _ _ _ | .resumed _ _ _ | .returned _ => isFalse id

instance [DecidableEq κ] (c : κ) : DecidablePred (Phase.IsSignalledOn c : Phase κ θ ω ρ → Prop)
  | .woken c' w _ => inferInstanceAs (Decidable (c' = c ∧ w = .signalled))
  | .idle | .entering _ | .running _ | .parked _ _ _ | .resumed _ _ _ | .returned _ => isFalse id

variable [DecidableEq τ] [Fintype τ] [DecidableEq κ]

/-- Deliver the signals in turn, each to a thread parked on its condition; a signal reaches
nobody (`none`) only where nobody is parked. -/
def deliver (phase : τ → Phase κ θ ω ρ) : List κ → List (Option τ) → Option (τ → Phase κ θ ω ρ)
  | [], [] => some phase
  | c :: cs, none :: us =>
    if ∀ u, ¬ (phase u).IsParkedOn c then deliver phase cs us else none
  | c :: cs, some u :: us =>
    match phase u with
    | .parked c' _ p =>
      if c' = c then deliver (Function.update phase u (.woken c .signalled p)) cs us else none
    | _ => none
  | _, _ => none

/-- The segment the thread `t` runs next, if it holds the lock. -/
def segment (code : Code σ κ θ ω ρ) (s : State τ σ κ θ ω ρ) (t : τ) : Option (Segment σ κ ω ρ) :=
  match s.phase t with
  | .running p => some (code.enter p s.shared)
  | .resumed _ w p => some (code.resume p w s.shared)
  | _ => none

/-- The state after the thread `t`, which holds the lock, ran a segment. -/
def finish (s : State τ σ κ θ ω ρ) (t : τ) (phase : τ → Phase κ θ ω ρ) (interrupted : Bool)
    (seg : Segment σ κ ω ρ) : State τ σ κ θ ω ρ :=
  match seg.ending with
  | .leave r => ⟨seg.shared, none, Function.update phase t (.returned r)⟩
  | .await c timed p =>
    if interrupted then ⟨seg.shared, s.owner, Function.update phase t (.resumed c .interrupted p)⟩
    else ⟨seg.shared, none, Function.update phase t (.parked c timed p)⟩

/-- One action. -/
def step (code : Code σ κ θ ω ρ) (s : State τ σ κ θ ω ρ) : Action τ θ → Option (State τ σ κ θ ω ρ)
  | .call t p =>
    match s.phase t with
    | .idle => some { s with phase := Function.update s.phase t (.entering p) }
    | .returned _ => some { s with phase := Function.update s.phase t (.entering p) }
    | _ => none
  | .acquire t =>
    if s.owner = none then
      match s.phase t with
      | .entering p => some ⟨s.shared, some t, Function.update s.phase t (.running p)⟩
      | .woken c w p => some ⟨s.shared, some t, Function.update s.phase t (.resumed c w p)⟩
      | _ => none
    else none
  | .exec t chosen interrupted =>
    (segment code s t).bind fun seg =>
      (deliver s.phase seg.signals chosen).map fun phase => finish s t phase interrupted seg
  | .wake t w =>
    match s.phase t with
    | .parked c timed p =>
      if w = .signalled ∨ (w = .timedOut ∧ timed = false) then none
      else some { s with phase := Function.update s.phase t (.woken c w p) }
    | _ => none

/-- Any interleaving of calls of a monitor whose shared value starts with one in `init`. -/
def machine (τ : Type) [DecidableEq τ] [Fintype τ] (code : Code σ κ θ ω ρ) (init : σ → Prop) :
    Machine (State τ σ κ θ ω ρ) (Action τ θ) where
  init s := init s.shared ∧ s.owner = none ∧ ∀ t, s.phase t = .idle
  step := step code

/-! ## What one action can do -/

/-- One action either runs a segment of a thread that holds the lock, or changes the phase of one
thread and leaves the shared value alone; only a segment parks a thread. -/
inductive Effect (code : Code σ κ θ ω ρ) (s : State τ σ κ θ ω ρ) :
    Action τ θ → State τ σ κ θ ω ρ → Prop
  | segment {t : τ} {chosen : List (Option τ)} {interrupted : Bool} {seg : Segment σ κ ω ρ}
      {phase : τ → Phase κ θ ω ρ} (hseg : Monitor.segment code s t = some seg)
      (hsig : deliver s.phase seg.signals chosen = some phase) :
      Effect code s (.exec t chosen interrupted) (finish s t phase interrupted seg)
  | moves {t : τ} {a : Action τ θ} {owner : Option τ} {ph : Phase κ θ ω ρ}
      (ha : ∀ t' chosen interrupted, a ≠ .exec t' chosen interrupted)
      (hparked : ∀ c, ¬ ph.IsParkedOn c)
      (hsignalled : ∀ c p, ph = .woken c .signalled p → False)
      (hresumed : ∀ c p, ph = .resumed c .signalled p → s.phase t = .woken c .signalled p) :
      Effect code s a ⟨s.shared, owner, Function.update s.phase t ph⟩

lemma step_cases {code : Code σ κ θ ω ρ} {s s' : State τ σ κ θ ω ρ} {a : Action τ θ}
    (h : step code s a = some s') : Effect code s a s' := by
  cases a with
  | call t p =>
      have heq : s' = { s with phase := Function.update s.phase t (.entering p) } := by
        simp only [step] at h
        split at h <;> first | exact (Option.some.inj h).symm | cases h
      rw [heq]
      exact .moves (by simp) (fun _ => id) (by simp) (by simp)
  | acquire t =>
      simp only [step] at h
      split_ifs at h with howner
      split at h
      · obtain rfl := Option.some.inj h
        exact .moves (by simp) (fun _ => id) (by simp) (by simp)
      · rename_i c w p hph
        obtain rfl := Option.some.inj h
        refine .moves (by simp) (fun _ => id) (by simp) fun c' p' heq => ?_
        injection heq with h₁ h₂ h₃
        rw [hph, h₁, h₂, h₃]
      · cases h
  | exec t chosen interrupted =>
      obtain ⟨seg, hseg, hrest⟩ := Option.bind_eq_some_iff.mp h
      obtain ⟨phase, hsig, rfl⟩ := Option.map_eq_some_iff.mp hrest
      exact .segment hseg hsig
  | wake t w =>
      simp only [step] at h
      split at h
      · rename_i c timed p hph
        split_ifs at h with hw
        obtain rfl := Option.some.inj h
        refine .moves (by simp) (fun _ => id) (fun c' p' heq => ?_) (by simp)
        injection heq with _ h₂ _
        exact hw (.inl h₂)
      · cases h

omit [Fintype τ] [DecidableEq κ] in
@[simp] lemma finish_shared (s : State τ σ κ θ ω ρ) (t : τ) (phase : τ → Phase κ θ ω ρ)
    (interrupted : Bool) (seg : Segment σ κ ω ρ) :
    (finish s t phase interrupted seg).shared = seg.shared := by
  unfold finish
  split
  · rfl
  · split_ifs <;> rfl

omit [Fintype τ] [DecidableEq κ] in
/-- A thread whose segment leaves the monitor has its result. -/
lemma finish_phase_leave {s : State τ σ κ θ ω ρ} {t : τ} {phase : τ → Phase κ θ ω ρ}
    {interrupted : Bool} {seg : Segment σ κ ω ρ} {r : ρ} (h : seg.ending = .leave r) :
    (finish s t phase interrupted seg).phase t = .returned r := by
  simp [finish, h]

omit [Fintype τ] [DecidableEq κ] in
/-- A thread whose segment waits has no result yet. -/
lemma finish_phase_await {s : State τ σ κ θ ω ρ} {t : τ} {phase : τ → Phase κ θ ω ρ}
    {interrupted : Bool} {seg : Segment σ κ ω ρ} {c : κ} {timed : Bool} {p : ω}
    (h : seg.ending = .await c timed p) (r : ρ) :
    (finish s t phase interrupted seg).phase t ≠ .returned r := by
  simp only [finish, h]
  split_ifs <;> simp

omit [DecidableEq τ] [Fintype τ] [DecidableEq κ] in
/-- The segment of a thread that holds the lock comes from the monitor's code. -/
lemma segment_cases {code : Code σ κ θ ω ρ} {s : State τ σ κ θ ω ρ} {t : τ} {seg : Segment σ κ ω ρ}
    (h : segment code s t = some seg) :
    (∃ p, s.phase t = .running p ∧ seg = code.enter p s.shared) ∨
      ∃ c w p, s.phase t = .resumed c w p ∧ seg = code.resume p w s.shared := by
  unfold segment at h
  split at h
  · rename_i p hph
    exact .inl ⟨p, hph, (Option.some.inj h).symm⟩
  · rename_i c w p hph
    exact .inr ⟨c, w, p, hph, (Option.some.inj h).symm⟩
  · cases h

omit [DecidableEq τ] [Fintype τ] [DecidableEq κ] in
/-- A thread that holds the lock is not parked. -/
lemma not_parked_of_segment {code : Code σ κ θ ω ρ} {s : State τ σ κ θ ω ρ} {t : τ}
    {seg : Segment σ κ ω ρ} (h : segment code s t = some seg) (c : κ) :
    ¬ (s.phase t).IsParkedOn c := by
  obtain ⟨p, hph, -⟩ | ⟨c', w, p, hph, -⟩ := segment_cases h <;> rw [hph] <;> exact id

omit [Fintype τ] [DecidableEq κ] in
/-- A segment leaves the lock free unless it was interrupted when it was about to park. -/
lemma finish_owner {s : State τ σ κ θ ω ρ} {t : τ} {phase : τ → Phase κ θ ω ρ}
    {interrupted : Bool} {seg : Segment σ κ ω ρ}
    (h : ∀ c timed p, seg.ending = .await c timed p → interrupted = false) :
    (finish s t phase interrupted seg).owner = none := by
  cases hend : seg.ending with
  | leave r => simp [finish, hend]
  | await c timed p => simp [finish, hend, h c timed p hend]

omit [Fintype τ] [DecidableEq κ] in
/-- The threads parked after a segment are those parked before it, and the one that ran it if
its segment waits. -/
lemma exists_parked_finish {s : State τ σ κ θ ω ρ} {t : τ} {interrupted : Bool}
    {seg : Segment σ κ ω ρ} {c : κ} (ht : ¬ (s.phase t).IsParkedOn c) :
    (∃ u, ((finish s t s.phase interrupted seg).phase u).IsParkedOn c) ↔
      (∃ u, (s.phase u).IsParkedOn c) ∨
        interrupted = false ∧ ∃ timed p, seg.ending = .await c timed p := by
  have hself : ((finish s t s.phase interrupted seg).phase t).IsParkedOn c ↔
      interrupted = false ∧ ∃ timed p, seg.ending = .await c timed p := by
    cases hend : seg.ending with
    | leave r => simp [finish, hend, Phase.IsParkedOn]
    | await c' timed p => cases interrupted <;> simp [finish, hend, Phase.IsParkedOn]
  have hother : ∀ u, u ≠ t → (finish s t s.phase interrupted seg).phase u = s.phase u := by
    intro u hu
    unfold finish
    split
    · simp [hu]
    · split_ifs <;> simp [hu]
  constructor
  · rintro ⟨u, hu⟩
    by_cases hut : u = t
    · subst hut
      exact .inr (hself.mp hu)
    · exact .inl ⟨u, hother u hut ▸ hu⟩
  · rintro (⟨u, hu⟩ | hwaits)
    · have hut : u ≠ t := fun heq => ht (heq ▸ hu)
      exact ⟨u, by rwa [hother u hut]⟩
    · exact ⟨t, hself.mpr hwaits⟩

/-! ## Invariants -/

/-- Every segment of the code preserves `I`. -/
def Code.Preserves (code : Code σ κ θ ω ρ) (I : σ → Prop) : Prop :=
  (∀ p x, I x → I (code.enter p x).shared) ∧ ∀ k w x, I x → I (code.resume k w x).shared

lemma shared_of_step {code : Code σ κ θ ω ρ} {I : σ → Prop} (hI : code.Preserves I)
    {s s' : State τ σ κ θ ω ρ} {a : Action τ θ} (hs : I s.shared) (h : step code s a = some s') :
    I s'.shared := by
  cases step_cases h with
  | segment hseg _ =>
      rw [finish_shared]
      obtain ⟨p, -, rfl⟩ | ⟨c, w, p, -, rfl⟩ := segment_cases hseg
      · exact hI.1 p _ hs
      · exact hI.2 p w _ hs
  | moves => exact hs

/-- **Shared invariants.**  What the segments preserve holds of the shared value in every state
reached. -/
theorem shared_of_run {code : Code σ κ θ ω ρ} {init I : σ → Prop} (hinit : ∀ x, init x → I x)
    (hI : code.Preserves I) {ms : List (Move (State τ σ κ θ ω ρ) (Action τ θ))}
    {s : State τ σ κ θ ω ρ} (h : (machine τ code init).Run ms s) : I s.shared := by
  refine h.invariant (I := fun s => I s.shared) (fun s hs => ?_) fun _ _ _ hs hstep =>
    shared_of_step hI hs hstep
  exact hinit _ hs.1

/-- No segment of the code signals a condition. -/
def Code.Silent (code : Code σ κ θ ω ρ) : Prop :=
  (∀ p x, (code.enter p x).signals = []) ∧ ∀ k w x, (code.resume k w x).signals = []

omit [DecidableEq τ] [Fintype τ] [DecidableEq κ] in
lemma Code.Silent.signals_eq {code : Code σ κ θ ω ρ} (hsilent : code.Silent)
    {s : State τ σ κ θ ω ρ} {t : τ} {seg : Segment σ κ ω ρ} (h : segment code s t = some seg) :
    seg.signals = [] := by
  obtain ⟨p, -, rfl⟩ | ⟨c, w, p, -, rfl⟩ := segment_cases h
  · exact hsilent.1 p _
  · exact hsilent.2 p w _

/-- A silent segment leaves the phases of the other threads alone. -/
lemma deliver_nil {phase phase' : τ → Phase κ θ ω ρ} {chosen : List (Option τ)}
    (h : deliver phase [] chosen = some phase') : phase' = phase := by
  cases chosen with
  | nil => exact (Option.some.inj h).symm
  | cons => cases h

/-- No thread was woken by a signal. -/
def NotSignalled (s : State τ σ κ θ ω ρ) : Prop :=
  ∀ t c p, s.phase t ≠ .woken c .signalled p ∧ s.phase t ≠ .resumed c .signalled p

omit [DecidableEq τ] in
/-- Then no wake-up by a signal is pending. -/
lemma NotSignalled.card_eq_zero {s : State τ σ κ θ ω ρ} (hs : NotSignalled s) (c : κ) :
    (Finset.univ.filter fun t => (s.phase t).IsSignalledOn c).card = 0 := by
  rw [Finset.card_eq_zero, Finset.filter_eq_empty_iff]
  intro t _ ht
  unfold Phase.IsSignalledOn at ht
  split at ht
  · rename_i c' w p hph
    obtain ⟨rfl, rfl⟩ := ht
    exact (hs t _ p).1 hph
  · exact ht

lemma notSignalled_of_init {code : Code σ κ θ ω ρ} {init : σ → Prop} {s : State τ σ κ θ ω ρ}
    (h : (machine τ code init).init s) : NotSignalled s := by
  intro t c p
  rw [h.2.2 t]
  exact ⟨by simp, by simp⟩

/-- **Silent code wakes nobody.** -/
lemma notSignalled_of_step {code : Code σ κ θ ω ρ} (hsilent : code.Silent)
    {s s' : State τ σ κ θ ω ρ} {a : Action τ θ} (hs : NotSignalled s)
    (h : step code s a = some s') : NotSignalled s' := by
  cases step_cases h with
  | @segment t chosen interrupted seg phase hseg hsig =>
      rw [hsilent.signals_eq hseg] at hsig
      obtain rfl := deliver_nil hsig
      intro u c p
      unfold finish
      split
      · rcases eq_or_ne u t with rfl | hne
        · simp
        · simpa [hne] using hs u c p
      · split_ifs <;> rcases eq_or_ne u t with rfl | hne
        · simp
        · simpa [hne] using hs u c p
        · simp
        · simpa [hne] using hs u c p
  | @moves t a owner ph _ _ hsignalled hresumed =>
      intro u c p
      rcases eq_or_ne u t with rfl | hne
      · simp only [Function.update_self]
        exact ⟨fun heq => hsignalled c p heq, fun heq => (hs u c p).1 (hresumed c p heq)⟩
      · simpa [hne] using hs u c p

end Machine

end Monitor

end LearnJava
