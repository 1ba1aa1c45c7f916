import LearnJava.Lock.TwinsLock

/-!
# The permits of a `TwinsLock`

`Local.Ok` tells, for every place in the code, what the share of a thread there can be, and
how it compares with the share the current call began with.  One action keeps it (`act_ok`),
and keeps the sum of the lock's state and of the acting thread's permits; the whole-state balance
and the promises of `Correct` and `MoveCorrect` follow for every interleaving
(`twinsLock_correct`).
-/

namespace LearnJava

namespace TwinsLock

/-! ## The invariant of a thread -/

/-- The share of a thread between its calls, `depth` of which are not undone. -/
def Share.Balanced (share : Share) (depth : ℤ) : Prop :=
  (∃ n, share = ⟨none, n, n⟩ ∧ depth = 0) ∨ ∃ n, share = ⟨some depth, n + 1, n⟩ ∧ 1 ≤ depth

/-- What the shares and the depth of a thread are at each place of the code. -/
def Phase.Ok (share begun : Share) (depth : ℤ) : Phase → Prop
  | .idle => share.Balanced depth ∧ depth < 2 ^ 31
  | .entered _ | .trying _ | .failed _ =>
    share = begun ∧ begun.Balanced depth ∧ depth + 1 < 2 ^ 31
  | .competing _ => ∃ n, begun = ⟨none, n, n⟩ ∧ share = begun ∧ depth = 0
  | .swapping _ expected newState =>
    (∃ n, begun = ⟨none, n, n⟩ ∧ share = begun ∧ depth = 0) ∧
      newState = expected - 1 ∧ 0 ≤ newState
  | .took _ => ∃ n, begun = ⟨none, n, n⟩ ∧ share = ⟨none, n + 1, n⟩ ∧ depth = 0
  | .counting _ => ∃ n, begun = ⟨none, n, n⟩ ∧ share = ⟨some 0, n + 1, n⟩ ∧ depth = 0
  | .unlocking => share = begun ∧ begun.Balanced depth ∧ depth < 2 ^ 31
  | .dropping => ∃ n, begun = ⟨some 1, n + 1, n⟩ ∧ share = ⟨some 0, n + 1, n⟩ ∧ depth = 1
  | .releasing => ∃ n, begun = ⟨some 1, n + 1, n⟩ ∧ share = ⟨none, n + 1, n⟩ ∧ depth = 1
  | .restoring expected newState =>
    (∃ n, begun = ⟨some 1, n + 1, n⟩ ∧ share = ⟨none, n + 1, n⟩ ∧ depth = 1) ∧
      newState = expected + 1
  | .returned o => share.Balanced depth ∧ depth < 2 ^ 31 ∧ o.Meets begun share

/-- The thread's shares are as its place in the code says. -/
def Local.Ok (l : Local) : Prop := l.phase.Ok l.share l.begun l.depth

/-- The permits the thread holds. -/
def Local.held (l : Local) : ℕ := if l.share.Holds then 1 else 0

lemma Share.Balanced.of_holds {share : Share} {depth : ℤ} (h : share.Balanced depth)
    (hholds : share.Holds) : share.counter = some depth ∧ 1 ≤ depth := by
  obtain ⟨n, rfl, -⟩ | ⟨n, rfl, hpos⟩ := h
  · exact absurd hholds (lt_irrefl n)
  · exact ⟨rfl, hpos⟩

lemma Share.Balanced.of_not_holds {share : Share} {depth : ℤ} (h : share.Balanced depth)
    (hholds : ¬ share.Holds) : share.counter = none ∧ depth = 0 := by
  obtain ⟨n, rfl, hzero⟩ | ⟨n, rfl, -⟩ := h
  · exact ⟨rfl, hzero⟩
  · exact absurd (Nat.lt_succ_self n) hholds

lemma ok_new : Local.new.Ok := ⟨.inl ⟨0, rfl, rfl⟩, by decide⟩

/-- A thread between its calls is balanced. -/
lemma Local.Ok.balanced {l : Local} (hl : l.Ok) (hrest : l.phase.AtRest) :
    l.share.Balanced l.depth ∧ l.depth < 2 ^ 31 := by
  unfold Local.Ok at hl
  cases hph : l.phase with
  | idle =>
      rw [hph] at hl
      exact hl
  | returned o =>
      rw [hph] at hl
      exact ⟨hl.1, hl.2.1⟩
  | _ => simp [hph, Phase.AtRest] at hrest

/-! ## One action -/

/-- The acting thread is again as its place says, and the state has changed by the permits the
thread took or gave back. -/
structure Keeps (state : ℤ) (l : Local) (r : ℤ × Local) : Prop where
  ok : r.2.Ok
  nonneg : 0 ≤ r.1
  balance : r.1 + r.2.held = state + l.held

variable {fair queued : Bool} {state : ℤ} {l : Local} {r : ℤ × Local}

/-- A step that touches neither the state nor the permits. -/
lemma Keeps.of_same {l' : Local} (hnonneg : 0 ≤ state) (htaken : l'.share.taken = l.share.taken)
    (hgiven : l'.share.givenBack = l.share.givenBack) (hok : l'.Ok) :
    Keeps state l (state, l') := by
  have hholds : l'.share.Holds ↔ l.share.Holds := by
    rw [Share.Holds, Share.Holds, htaken, hgiven]
  exact ⟨hok, hnonneg, by simp only [Local.held, hholds]⟩

/-- Without overflow, incrementing the counter ends the call. -/
lemma incrementAndGet_eq {k : Kind} {c : ℤ} (hlo : 0 ≤ c) (hhi : c + 1 < 2 ^ 31) :
    incrementAndGet l k c = { l with
      phase := .returned .acquired
      share := { l.share with counter := some (c + 1) }
      acquired := l.acquired + 1 } := by
  have hwrap : wrap32 (c + 1) = c + 1 := wrap32_of_range (by omega) hhi
  simp only [incrementAndGet, hwrap]
  rw [if_pos (by omega)]

@[simp] lemma depth_mk (l : Local) (phase : Phase) (share begun : Share) :
    Local.depth ⟨phase, share, begun, l.acquired, l.released⟩ = l.depth := rfl

@[simp] lemma depth_acquired (l : Local) (phase : Phase) (share begun : Share) :
    Local.depth ⟨phase, share, begun, l.acquired + 1, l.released⟩ = l.depth + 1 := by
  simp only [Local.depth]
  omega

@[simp] lemma depth_released (l : Local) (phase : Phase) (share begun : Share) :
    Local.depth ⟨phase, share, begun, l.acquired, l.released + 1⟩ = l.depth - 1 := by
  simp only [Local.depth]
  omega

/-- The end of a successful attempt: the thread has the lock once more. -/
lemma acquired_ok {k : Kind} {c : ℤ} {n : ℕ} (hcounter : l.share = ⟨some c, n + 1, n⟩)
    (hc : 0 ≤ c) (hdepth : l.depth = c) (hlt : c + 1 < 2 ^ 31)
    (hbegun : l.begun = if c = 0 then ⟨none, n, n⟩ else ⟨some c, n + 1, n⟩) :
    (incrementAndGet l k c).Ok := by
  rw [incrementAndGet_eq hc hlt]
  simp only [Local.Ok, Phase.Ok, depth_acquired, hdepth, hcounter, Outcome.Meets, hbegun]
  refine ⟨.inr ⟨n, rfl, by omega⟩, hlt, ?_⟩
  split_ifs with hzero
  · simp [hzero]
  · rfl

/-- The attempt of a thread. -/
lemma trying_keeps {k : Kind} (hph : l.phase = .trying k) (hl : l.Ok) (hnonneg : 0 ≤ state)
    (h : advance fair queued state l = some r) : Keeps state l r := by
  simp only [Local.Ok, hph, Phase.Ok] at hl
  obtain ⟨hsame, ⟨n, hbegun, hzero⟩ | ⟨n, hbegun, hpos⟩, hlt⟩ := hl
  · -- it holds nothing, and goes on only if it should compete
    have hcounter : l.share.counter = none := by rw [hsame, hbegun]
    simp only [advance, hph, hcounter] at h
    split_ifs at h <;> obtain rfl := Option.some.inj h
    · exact .of_same hnonneg rfl rfl ⟨n, hbegun, hsame, hzero⟩
    · exact .of_same hnonneg rfl rfl ⟨hsame, .inl ⟨n, hbegun, hzero⟩, hlt⟩
  · have hshare := hsame.trans hbegun
    simp only [advance, hph, hshare] at h
    obtain rfl := Option.some.inj h
    have hok : (incrementAndGet l k l.depth).Ok :=
      acquired_ok hshare (by omega) rfl hlt (by rw [if_neg (by omega)]; exact hbegun)
    refine .of_same hnonneg ?_ ?_ hok <;> rw [incrementAndGet_eq (by omega) hlt]

lemma competing_keeps {k : Kind} (hph : l.phase = .competing k) (hl : l.Ok) (hnonneg : 0 ≤ state)
    (hhi : state < 2 ^ 31) (h : advance fair queued state l = some r) : Keeps state l r := by
  simp only [Local.Ok, hph, Phase.Ok] at hl
  obtain ⟨n, hbegun, hsame, hzero⟩ := hl
  have hwrap : wrap32 (state - 1) = state - 1 := wrap32_of_range (by omega) (by omega)
  simp only [advance, hph, hwrap] at h
  split_ifs at h with hneg <;> obtain rfl := Option.some.inj h
  · exact .of_same hnonneg rfl rfl ⟨hsame, .inl ⟨n, hbegun, hzero⟩, by simp [hzero]⟩
  · exact .of_same hnonneg rfl rfl ⟨⟨n, hbegun, hsame, hzero⟩, rfl, by omega⟩

/-- The compare-and-set that takes a permit. -/
lemma swapping_keeps {k : Kind} {expected newState : ℤ}
    (hph : l.phase = .swapping k expected newState) (hl : l.Ok) (hnonneg : 0 ≤ state)
    (h : advance fair queued state l = some r) : Keeps state l r := by
  simp only [Local.Ok, hph, Phase.Ok] at hl
  obtain ⟨⟨n, hbegun, hsame, hzero⟩, rfl, hnew⟩ := hl
  have hshare := hsame.trans hbegun
  simp only [advance, hph] at h
  split_ifs at h with hcas <;> obtain rfl := Option.some.inj h
  · refine ⟨⟨n, hbegun, by simp [hshare], hzero⟩, hnew, ?_⟩
    simp [Local.held, Share.Holds, hshare, hcas]
  · exact .of_same hnonneg rfl rfl ⟨n, hbegun, hsame, hzero⟩

lemma took_keeps {k : Kind} (hph : l.phase = .took k) (hl : l.Ok) (hnonneg : 0 ≤ state)
    (h : advance fair queued state l = some r) : Keeps state l r := by
  simp only [Local.Ok, hph, Phase.Ok] at hl
  obtain ⟨n, hbegun, hshare, hzero⟩ := hl
  simp only [advance, hph] at h
  obtain rfl := Option.some.inj h
  exact .of_same hnonneg rfl rfl ⟨n, hbegun, by simp [hshare], hzero⟩

lemma counting_keeps {k : Kind} (hph : l.phase = .counting k) (hl : l.Ok) (hnonneg : 0 ≤ state)
    (h : advance fair queued state l = some r) : Keeps state l r := by
  simp only [Local.Ok, hph, Phase.Ok] at hl
  obtain ⟨n, hbegun, hshare, hzero⟩ := hl
  simp only [advance, hph, hshare, Option.map_some] at h
  obtain rfl := Option.some.inj h
  have hok : (incrementAndGet l k 0).Ok :=
    acquired_ok hshare le_rfl hzero (by norm_num) (by rw [if_pos rfl]; exact hbegun)
  refine .of_same hnonneg ?_ ?_ hok <;> rw [incrementAndGet_eq le_rfl (by norm_num)]

/-- An attempt that failed ends the call of `tryLock`, and is repeated in the other methods. -/
lemma failed_keeps {k : Kind} (hph : l.phase = .failed k) (hl : l.Ok) (hnonneg : 0 ≤ state)
    (h : advance fair queued state l = some r) : Keeps state l r := by
  simp only [Local.Ok, hph, Phase.Ok] at hl
  obtain ⟨hsame, hbal, hlt⟩ := hl
  simp only [advance, hph] at h
  split at h <;> obtain rfl := Option.some.inj h
  · exact .of_same hnonneg rfl rfl ⟨hsame ▸ hbal, by simp only [depth_mk]; omega, hsame⟩
  · exact .of_same hnonneg rfl rfl ⟨hsame, hbal, hlt⟩

/-- The decrement of the counter, or the exception of a thread without one. -/
lemma unlocking_keeps (hph : l.phase = .unlocking) (hl : l.Ok) (hnonneg : 0 ≤ state)
    (h : advance fair queued state l = some r) : Keeps state l r := by
  simp only [Local.Ok, hph, Phase.Ok] at hl
  obtain ⟨hsame, ⟨n, hbegun, hzero⟩ | ⟨n, hbegun, hpos⟩, hlt⟩ := hl
  · have hshare := hsame.trans hbegun
    have hcounter : l.share.counter = none := by rw [hshare]
    simp only [advance, hph, hcounter] at h
    obtain rfl := Option.some.inj h
    exact .of_same hnonneg rfl rfl ⟨.inl ⟨n, hshare, hzero⟩, hlt, hsame⟩
  · have hshare := hsame.trans hbegun
    have hwrap : wrap32 (l.depth - 1) = l.depth - 1 := wrap32_of_range (by omega) (by omega)
    simp only [advance, hph, hshare, hwrap] at h
    split_ifs at h with hcount <;> obtain rfl := Option.some.inj h
    · have hne : l.depth ≠ 1 := by omega
      refine .of_same hnonneg (by rw [hshare]) (by rw [hshare]) ⟨.inr ⟨n, ?_, ?_⟩, ?_, ?_⟩
      · simp
      · simp only [depth_released]; omega
      · simp only [depth_released]; omega
      · exact ⟨l.depth, by rw [hbegun], by rw [if_neg hne, hbegun]⟩
    · have hone : l.depth = 1 := by omega
      refine .of_same hnonneg (by rw [hshare]) (by rw [hshare]) ⟨n, ?_, ?_, hone⟩
      · rw [hbegun, hone]
      · simp [hone]

lemma dropping_keeps (hph : l.phase = .dropping) (hl : l.Ok) (hnonneg : 0 ≤ state)
    (h : advance fair queued state l = some r) : Keeps state l r := by
  simp only [Local.Ok, hph, Phase.Ok] at hl
  obtain ⟨n, hbegun, hshare, hone⟩ := hl
  simp only [advance, hph] at h
  obtain rfl := Option.some.inj h
  exact .of_same hnonneg rfl rfl ⟨n, hbegun, by simp [hshare], hone⟩

/-- A thread that is about to give its permit back reads a state below the number of permits. -/
lemma releasing_keeps (hph : l.phase = .releasing) (hl : l.Ok) (hnonneg : 0 ≤ state)
    (hhi : state + l.held < 2 ^ 31) (h : advance fair queued state l = some r) :
    Keeps state l r := by
  simp only [Local.Ok, hph, Phase.Ok] at hl
  obtain ⟨n, hbegun, hshare, hone⟩ := hl
  have hheld : l.held = 1 := by simp [Local.held, Share.Holds, hshare]
  have hwrap : wrap32 (state + 1) = state + 1 := wrap32_of_range (by omega) (by omega)
  simp only [advance, hph, hwrap] at h
  obtain rfl := Option.some.inj h
  exact .of_same hnonneg rfl rfl ⟨⟨n, hbegun, hshare, hone⟩, rfl⟩

/-- The compare-and-set that gives a permit back. -/
lemma restoring_keeps {expected newState : ℤ} (hph : l.phase = .restoring expected newState)
    (hl : l.Ok) (hnonneg : 0 ≤ state) (h : advance fair queued state l = some r) :
    Keeps state l r := by
  simp only [Local.Ok, hph, Phase.Ok] at hl
  obtain ⟨⟨n, hbegun, hshare, hone⟩, rfl⟩ := hl
  simp only [advance, hph] at h
  split_ifs at h with hcas <;> obtain rfl := Option.some.inj h
  · refine ⟨⟨.inl ⟨n + 1, by simp [hshare], by simp [hone]⟩, by simp [hone], 1, ?_, ?_⟩, ?_, ?_⟩
    · rw [hbegun]
    · simp [hbegun, hshare]
    · show 0 ≤ expected + 1
      omega
    · simp [Local.held, Share.Holds, hshare, hcas]
  · exact .of_same hnonneg rfl rfl ⟨n, hbegun, hshare, hone⟩

/-- **One step of the code.** -/
lemma advance_keeps (hl : l.Ok) (hnonneg : 0 ≤ state) (hhi : state + l.held < 2 ^ 31)
    (h : advance fair queued state l = some r) : Keeps state l r := by
  cases hph : l.phase with
  | entered k =>
      simp only [advance, hph] at h
      obtain rfl := Option.some.inj h
      simp only [Local.Ok, hph, Phase.Ok] at hl
      exact .of_same hnonneg rfl rfl hl
  | trying k => exact trying_keeps hph hl hnonneg h
  | competing k => exact competing_keeps hph hl hnonneg (by omega) h
  | swapping k expected newState => exact swapping_keeps hph hl hnonneg h
  | took k => exact took_keeps hph hl hnonneg h
  | counting k => exact counting_keeps hph hl hnonneg h
  | failed k => exact failed_keeps hph hl hnonneg h
  | unlocking => exact unlocking_keeps hph hl hnonneg h
  | dropping => exact dropping_keeps hph hl hnonneg h
  | releasing => exact releasing_keeps hph hl hnonneg hhi h
  | restoring expected newState => exact restoring_keeps hph hl hnonneg h
  | idle | returned o =>
      simp only [advance, hph] at h
      cases h

/-- A thread gives up in a call that has changed nothing. -/
lemma giveUp_keeps {interrupted : Bool} (hl : l.Ok) (hnonneg : 0 ≤ state)
    (h : act fair state l (.giveUp interrupted) = some r) : Keeps state l r := by
  obtain ⟨hsame, hbal, hlt, o, hmeets, rfl⟩ : l.share = l.begun ∧ l.begun.Balanced l.depth ∧
      l.depth + 1 < 2 ^ 31 ∧ ∃ o : Outcome, (∀ sh, o.Meets sh sh) ∧
        r = (state, { l with phase := .returned o }) := by
    simp only [act] at h
    split at h
    · rename_i k hph
      simp only [Local.Ok, hph, Phase.Ok] at hl
      split_ifs at h
      exact ⟨hl.1, hl.2.1, hl.2.2, .thrown .interruptedException, fun _ => rfl,
        (Option.some.inj h).symm⟩
    · rename_i k hph
      simp only [Local.Ok, hph, Phase.Ok] at hl
      split_ifs at h
      · exact ⟨hl.1, hl.2.1, hl.2.2, .thrown .interruptedException, fun _ => rfl,
          (Option.some.inj h).symm⟩
      · exact ⟨hl.1, hl.2.1, hl.2.2, .notAcquired, fun _ => rfl, (Option.some.inj h).symm⟩
    · cases h
  refine .of_same hnonneg rfl rfl ⟨hsame ▸ hbal, ?_, ?_⟩
  · simp only [depth_mk]
    omega
  · simp only [hsame]
    exact hmeets _

/-- **One action.** -/
lemma act_keeps {a : Act} (hl : l.Ok) (hnonneg : 0 ≤ state) (hhi : state + l.held < 2 ^ 31)
    (hnested : ∀ k, a = .call k → l.depth + 1 < 2 ^ 31) (h : act fair state l a = some r) :
    Keeps state l r := by
  cases a with
  | call k =>
      simp only [act] at h
      split_ifs at h with hrest
      obtain rfl := Option.some.inj h
      exact .of_same hnonneg rfl rfl ⟨rfl, (hl.balanced hrest).1, hnested k rfl⟩
  | unlock =>
      simp only [act] at h
      split_ifs at h with hrest
      obtain rfl := Option.some.inj h
      exact .of_same hnonneg rfl rfl ⟨rfl, (hl.balanced hrest).1, (hl.balanced hrest).2⟩
  | go queued => exact advance_keeps hl hnonneg hhi h
  | giveUp interrupted => exact giveUp_keeps hl hnonneg h

/-- At the first line of `tryAcquireShared` and of `tryReleaseShared` a thread can only go on. -/
lemma eq_go {a : Act} {k : Kind} (hph : l.phase = .trying k ∨ l.phase = .unlocking)
    (h : act fair state l a = some r) :
    ∃ queued, a = .go queued ∧ advance fair queued state l = some r := by
  cases a with
  | call k' => rcases hph with hph | hph <;> simp [act, hph, Phase.AtRest] at h
  | unlock => rcases hph with hph | hph <;> simp [act, hph, Phase.AtRest] at h
  | go queued => exact ⟨queued, rfl, h⟩
  | giveUp interrupted => rcases hph with hph | hph <;> simp [act, hph] at h

/-! ## The whole lock -/

section Lock

variable {τ : Type} [Fintype τ] {count : ℕ}

/-- No permit is lost, and every thread is as its place in the code says. -/
structure Inv (count : ℕ) (s : LockState τ) : Prop where
  nonneg : 0 ≤ s.shared
  balance : s.shared + s.total Local.held = count
  ok : ∀ t, (s.thread t).Ok

lemma card_holders (s : LockState τ) : (holders s).card = s.total Local.held :=
  Finset.card_filter _ _

lemma mem_holders {s : LockState τ} {t : τ} : t ∈ holders s ↔ (s.thread t).share.Holds := by
  simp [holders]

/-- In a settled place the share is balanced. -/
lemma Local.Ok.balanced_of_settled {l : Local} (hl : l.Ok) (hsettled : l.phase.Settled) :
    l.share.Balanced l.depth := by
  simp only [Local.Ok] at hl
  cases hph : l.phase with
  | idle => simp only [hph, Phase.Ok] at hl; exact hl.1
  | entered k | trying k | failed k => simp only [hph, Phase.Ok] at hl; exact hl.1 ▸ hl.2.1
  | competing k =>
      simp only [hph, Phase.Ok] at hl
      obtain ⟨n, hbegun, hsame, hzero⟩ := hl
      exact .inl ⟨n, hsame.trans hbegun, hzero⟩
  | swapping k expected newState =>
      simp only [hph, Phase.Ok] at hl
      obtain ⟨⟨n, hbegun, hsame, hzero⟩, -⟩ := hl
      exact .inl ⟨n, hsame.trans hbegun, hzero⟩
  | unlocking => simp only [hph, Phase.Ok] at hl; exact hl.1 ▸ hl.2.1
  | returned o => simp only [hph, Phase.Ok] at hl; exact hl.1
  | took | counting | dropping | releasing | restoring => simp [hph, Phase.Settled] at hsettled

lemma Share.Balanced.counter_eq {share : Share} {depth : ℤ} (h : share.Balanced depth) :
    share.counter.getD 0 = depth := by
  obtain ⟨n, rfl, hzero⟩ | ⟨n, rfl, -⟩ := h
  · exact hzero.symm
  · rfl

/-- The counter, and what an `unlock` under way took off it, is the depth. -/
lemma Local.Ok.counter_eq {l : Local} (hl : l.Ok) :
    l.share.counter.getD 0 + l.phase.decremented = l.depth := by
  by_cases hsettled : l.phase.Settled = true
  · have hzero : l.phase.decremented = 0 := by
      cases hph : l.phase <;> simp_all [Phase.Settled, Phase.decremented]
    rw [(hl.balanced_of_settled hsettled).counter_eq, hzero, add_zero]
  · simp only [Local.Ok] at hl
    cases hph : l.phase with
    | took k | counting k | dropping | releasing =>
        simp only [hph, Phase.Ok] at hl
        obtain ⟨n, -, hshare, hdepth⟩ := hl
        rw [hshare, hdepth]
        rfl
    | restoring expected newState =>
        simp only [hph, Phase.Ok] at hl
        obtain ⟨⟨n, -, hshare, hdepth⟩, -⟩ := hl
        rw [hshare, hdepth]
        rfl
    | _ => simp [hph, Phase.Settled] at hsettled

lemma Inv.correct {s : LockState τ} (hs : Inv count s) : Correct count s where
  state_nonneg := hs.nonneg
  balance := by
    rw [card_holders]
    exact hs.balance
  card_holders_le := by
    have := hs.nonneg
    have := hs.balance
    rw [card_holders]
    omega
  counter_eq t := (hs.ok t).counter_eq
  counter_of_holder t hsettled ht :=
    (((hs.ok t).balanced_of_settled hsettled).of_holds (mem_holders.mp ht)).1
  counter_of_stranger t hsettled ht :=
    ((hs.ok t).balanced_of_settled hsettled).of_not_holds fun hholds => ht (mem_holders.mpr hholds)
  failed t k hph := by
    have hok := hs.ok t
    simp only [Local.Ok, hph, Phase.Ok] at hok
    exact hok.1
  returned t o hph := by
    have hok := hs.ok t
    simp only [Local.Ok, hph, Phase.Ok] at hok
    exact hok.2.2

variable [DecidableEq τ] {fair : Bool} {s s' : LockState τ} {a : τ × Act}

lemma inv_init (h : (machine τ fair count).init s) : Inv count s := by
  obtain ⟨hstate, hnew⟩ := h
  have hzero : s.total Local.held = 0 :=
    Threads.State.total_eq_zero fun t => by
      rw [show s.thread t = Local.new from hnew t]
      rfl
  have hshared : s.shared = count := hstate
  refine ⟨by omega, by omega, fun t => ?_⟩
  rw [show s.thread t = Local.new from hnew t]
  exact ok_new

/-- **One move keeps the permits.** -/
lemma inv_step (hcount : count < 2 ^ 31) (hs : Inv count s)
    (h : (machine τ fair count).step s a = some s') (hnested : Nested ⟨s, a, s'⟩) :
    Inv count s' := by
  obtain ⟨⟨state', l'⟩, hact, rfl⟩ := Threads.Program.step_iff.mp h
  have hbalance := hs.balance
  have hle := s.le_total Local.held a.1
  have hkeeps : Keeps s.shared (s.thread a.1) (state', l') := by
    refine act_keeps (hs.ok a.1) hs.nonneg (by omega) (fun k hk => ?_) hact
    simpa only [Nested, hk] using hnested
  have hkept := hkeeps.balance
  have htotal := s.total_after Local.held a.1 (state', l')
  refine ⟨hkeeps.nonneg, ?_, ?_⟩
  · simp only [Threads.State.after_shared]
    simp only at hkept htotal
    omega
  · exact Threads.State.forall_after (J := fun _ l => Local.Ok l) hkeeps.ok fun u _ => hs.ok u

lemma Inv.moveCorrect (hs : Inv count s) (h : (machine τ fair count).step s a = some s') :
    MoveCorrect ⟨s, a, s'⟩ := by
  obtain ⟨t, b⟩ := a
  obtain ⟨r, hact, rfl⟩ := Threads.Program.step_iff.mp h
  have hok := hs.ok t
  refine ⟨fun k (hph : (s.thread t).phase = .trying k) hholds => ?_,
    fun (hph : (s.thread t).phase = .unlocking) hstranger => ?_⟩
  · obtain ⟨queued, rfl, hadvance⟩ := eq_go (.inl hph) hact
    have hbal := hok.balanced_of_settled (by rw [hph]; rfl)
    obtain ⟨hcounter, hpos⟩ := hbal.of_holds (mem_holders.mp hholds)
    simp only [Local.Ok, hph, Phase.Ok] at hok
    have hdepth : 0 ≤ (s.thread t).depth := by omega
    have hcount := incrementAndGet_eq (l := s.thread t) (k := k) hdepth hok.2.2
    simp only [advance, hph, hcounter, hcount] at hadvance
    obtain rfl := Option.some.inj hadvance
    simp
  · obtain ⟨queued, rfl, hadvance⟩ := eq_go (k := .lock) (.inr hph) hact
    have hbal := hok.balanced_of_settled (by rw [hph]; rfl)
    obtain ⟨hcounter, -⟩ := hbal.of_not_holds fun hholds => hstranger (mem_holders.mpr hholds)
    simp only [advance, hph, hcounter] at hadvance
    obtain rfl := Option.some.inj hadvance
    refine ⟨by simp, rfl, fun u => ?_⟩
    by_cases hu : u = t
    · subst hu
      simp
    · simp [hu]

/-- For every number of permits an `int` can hold, fair or not, and every interleaving of the
lock's atomic steps: the permits balance in every state reached, counters count the nested
acquisitions, and each call does to the thread's share what its outcome says. -/
theorem twinsLock_correct (hcount : count < 2 ^ 31) {ms : List (LockMove τ)}
    (h : (machine τ fair count).Run ms s) (hnested : ∀ m ∈ ms, Nested m) :
    Correct count s ∧ ∀ m ∈ ms, MoveCorrect m := by
  have hstep : ∀ s a s', Inv count s → (machine τ fair count).step s a = some s' →
      Nested ⟨s, a, s'⟩ → Inv count s' := fun s a s' => inv_step hcount
  refine ⟨?_, fun m hm => ?_⟩
  · have hinv := h.invariant_of_moves (fun s => inv_init) hstep hnested
    exact hinv.correct
  · obtain ⟨hpre, hmove, -⟩ := h.move_of_mem (fun s => inv_init) hstep hnested hm
    exact hpre.moveCorrect hmove

/-- One thread takes the only permit, another one unlocks what it does not hold, and the first
acquires the lock once more and releases it once. -/
def nestedCalls : List (Duo × Act) :=
  [(.first, .call .lock), (.first, .go false), (.first, .go false), (.first, .go false),
    (.first, .go false), (.first, .go false), (.first, .go false),
    (.second, .unlock), (.second, .go false),
    (.first, .call .tryLock), (.first, .go false), (.first, .go false),
    (.first, .unlock), (.first, .go false)]

theorem nestedCalls_correct : ∃ s,
    (machine Duo false 1).play (initial Duo 1) nestedCalls = some s ∧ Correct 1 s ∧
      ∀ m ∈ (machine Duo false 1).moves (initial Duo 1) nestedCalls, MoveCorrect m :=
  ⟨_, rfl, twinsLock_correct (by norm_num) (Machine.run_of_play (init_initial Duo false 1) rfl)
    (by decide)⟩

end Lock

end TwinsLock

end LearnJava
