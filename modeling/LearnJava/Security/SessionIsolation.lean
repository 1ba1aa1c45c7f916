import LearnJava.Security.LoginManager

/-!
# Session isolation

An id stands for one login call from the moment it is issued, the table never holds anything else
under it, and once a logout has removed it nothing enters it again.  What a thread may rely on
while others act is `Extends`: records only grow, and a new record about a login call comes from
the thread that makes the call.  With it, `Placed` says what holds of a thread at each of its
places, and `session_isolation` reads the promises off the invariant, for every interleaving.
-/

namespace LearnJava

namespace LoginManager

variable {τ ς ο : Type}

/-! ## The invariant -/

/-- The table and the history agree. -/
structure WellFormed (m : Table ς ο) : Prop where
  issued_lt : ∀ {sid k}, m.issuedTo sid = some k → k < m.logins
  one_session : ∀ {sid sid' k}, m.issuedTo sid = some k → m.issuedTo sid' = some k → sid = sid'
  registered : ∀ {sid k}, m.loginInfos sid = some k → m.issuedTo sid = some k ∧ m.entered sid = true
  issued : ∀ {sid}, m.entered sid = true → ∃ k, m.issuedTo sid = some k
  present : ∀ {sid}, m.entered sid = true → m.loginInfos sid = none → m.logoutCalled sid = true
  closed : ∀ {sid}, m.closed sid = true → m.entered sid = true ∧ m.loginInfos sid = none

/-- What the place of a thread says about the table. -/
def Phase.Holds (m : Table ς ο) (l : Local ς) : Phase ς → Prop
  | .idle | .creating => True
  | .loggingIn k | .naming k => l.login = some k ∧ ∀ sid, m.issuedTo sid ≠ some k
  | .entering k sid => l.login = some k ∧ m.issuedTo sid = some k ∧ m.entered sid = false
  | .closing sid => m.logoutCalled sid = true
  | .loggingOut sid k =>
    m.issuedTo sid = some k ∧ m.entered sid = true ∧ m.logoutCalled sid = true
  | .removing sid => m.entered sid = true ∧ m.logoutCalled sid = true
  | .forgetting sid => m.entered sid = true ∧ m.loginInfos sid = none
  | .lookingUp _ sid =>
    (l.wasEntered = true → m.entered sid = true) ∧ (l.wasClosed = true → m.closed sid = true)
  | .running _ sid subject =>
    (∀ k, subject = some k → m.issuedTo sid = some k) ∧
      (subject = none → l.wasEntered = true → m.logoutCalled sid = true) ∧
      (l.wasClosed = true → subject = none)
  | .returned (.session sid) =>
    ∃ k, l.login = some k ∧ m.issuedTo sid = some k ∧ m.entered sid = true
  | .returned (.thrown _) => ∀ k, l.login = some k → ∀ sid, m.issuedTo sid ≠ some k
  | .returned .loggedOut | .returned .ran => True

/-- What holds of a thread. -/
structure Placed (m : Table ς ο) (l : Local ς) : Prop where
  login_lt : ∀ {k}, l.login = some k → k < m.logins
  holds : l.phase.Holds m l

lemma Placed.holds_at {m : Table ς ο} {l : Local ς} (hl : Placed m l) {ph : Phase ς}
    (hph : l.phase = ph) : ph.Holds m l := hph ▸ hl.holds

/-- The table, every thread, and that no two threads make the same login call. -/
structure Secured (s : SessionState τ ς ο) : Prop where
  table : WellFormed s.shared
  threads : ∀ t, Placed s.shared (s.thread t)
  distinct : ∀ t u k, (s.thread t).login = some k → (s.thread u).login = some k → t = u

/-! ## What the others may do -/

/-- How an action of the thread with the login call `login` changes the records. -/
structure Extends (login : Option ℕ) (m m' : Table ς ο) : Prop where
  logins : m.logins ≤ m'.logins
  issued : ∀ {sid k}, m.issuedTo sid = some k → m'.issuedTo sid = some k
  issued_by : ∀ {sid k}, m'.issuedTo sid = some k → m.issuedTo sid = some k ∨ login = some k
  entered : ∀ {sid}, m.entered sid = true → m'.entered sid = true
  entered_by : ∀ {sid k}, m.issuedTo sid = some k → m.entered sid = false →
    m'.entered sid = false ∨ login = some k
  gone : ∀ {sid}, m.entered sid = true → m.loginInfos sid = none → m'.loginInfos sid = none
  logoutCalled : ∀ {sid}, m.logoutCalled sid = true → m'.logoutCalled sid = true
  closed : ∀ {sid}, m.closed sid = true → m'.closed sid = true

lemma Extends.refl (login : Option ℕ) (m : Table ς ο) : Extends login m m :=
  ⟨le_rfl, id, Or.inl, id, fun _ => Or.inl, fun _ => id, id, id⟩

variable {m m' : Table ς ο} {l l' : Local ς}

/-- **What a thread knows survives an action of another one.** -/
lemma Placed.stable {login : Option ℕ} (hl : Placed m l) (h : Extends login m m')
    (hother : ∀ k, login = some k → l.login ≠ some k) : Placed m' l := by
  refine ⟨fun hk => (hl.login_lt hk).trans_le h.logins, ?_⟩
  have hunissued : ∀ {k}, l.login = some k → (∀ sid, m.issuedTo sid ≠ some k) →
      ∀ sid, m'.issuedTo sid ≠ some k := by
    intro k hk hnone sid hsid
    obtain hold | hby := h.issued_by hsid
    · exact hnone sid hold
    · exact hother k hby hk
  cases hph : l.phase with
  | idle | creating => trivial
  | loggingIn k | naming k =>
      obtain ⟨hk, hnone⟩ := hl.holds_at hph
      exact ⟨hk, hunissued hk hnone⟩
  | entering k sid =>
      obtain ⟨hk, hissued, hnot⟩ := hl.holds_at hph
      refine ⟨hk, h.issued hissued, ?_⟩
      exact (h.entered_by hissued hnot).resolve_right fun hby => hother k hby hk
  | closing sid => exact h.logoutCalled (hl.holds_at hph)
  | loggingOut sid k =>
      obtain ⟨hissued, hentered, hcalled⟩ := hl.holds_at hph
      exact ⟨h.issued hissued, h.entered hentered, h.logoutCalled hcalled⟩
  | removing sid =>
      obtain ⟨hentered, hcalled⟩ := hl.holds_at hph
      exact ⟨h.entered hentered, h.logoutCalled hcalled⟩
  | forgetting sid =>
      obtain ⟨hentered, hgone⟩ := hl.holds_at hph
      exact ⟨h.entered hentered, h.gone hentered hgone⟩
  | lookingUp privileged sid =>
      obtain ⟨hentered, hclosed⟩ := hl.holds_at hph
      exact ⟨fun hw => h.entered (hentered hw), fun hw => h.closed (hclosed hw)⟩
  | running privileged sid subject =>
      obtain ⟨hsubject, hattended, hclosed⟩ := hl.holds_at hph
      exact ⟨fun k hk => h.issued (hsubject k hk),
        fun hnone hw => h.logoutCalled (hattended hnone hw), hclosed⟩
  | returned r =>
      have hplace := hl.holds_at hph
      cases r with
      | session sid =>
          obtain ⟨k, hk, hissued, hentered⟩ := hplace
          exact ⟨k, hk, h.issued hissued, h.entered hentered⟩
      | thrown e => exact fun k hk => hunissued hk (hplace k hk)
      | loggedOut | ran => trivial

section Step

variable [DecidableEq ς] {a : Act ς ο}

/-- A flag that is raised stays raised when another, or the same, is raised. -/
lemma update_flag {f : ς → Bool} {sid x : ς} {b : Bool} (hx : f x = true)
    (hb : f sid = true → b = true) : Function.update f sid b x = true := by
  simp only [Function.update_apply]
  split_ifs with heq
  · exact hb (heq ▸ hx)
  · exact hx

/-- **One action extends the records.** -/
lemma extends_of_effect (hl : Placed m l) (h : Effect m l a m' l') : Extends l.login m m' := by
  cases h with
  | calledLogin | calledDo | loginFailed | found | lookedUp | ran => exact .refl _ _
  | calledLogout =>
      exact { Extends.refl l.login m with
        logoutCalled := fun hx => update_flag hx fun _ => rfl }
  | created => exact { Extends.refl l.login m with logins := Nat.le_succ _ }
  | loggedIn | loggedOut => exact { Extends.refl l.login m with }
  | @named k sid hph hnew =>
      obtain ⟨hk, -⟩ := hl.holds_at hph
      refine { Extends.refl l.login m with
        issued := fun {x i} hx => ?_
        issued_by := fun {x i} hx => ?_ }
      · have hne : x ≠ sid := fun heq => by simp [heq, hnew] at hx
        simpa [Function.update_of_ne hne] using hx
      · simp only [Function.update_apply] at hx
        split_ifs at hx
        · exact .inr (hk.trans hx)
        · exact .inl hx
  | @entered k sid hph =>
      obtain ⟨hk, hissued, hnot⟩ := hl.holds_at hph
      refine { Extends.refl l.login m with
        entered := fun hx => update_flag hx fun _ => rfl
        entered_by := fun {x i} hx hxe => ?_
        gone := fun {x} hxe hx => ?_ }
      · by_cases heq : x = sid
        · subst heq
          exact .inr (hk.trans (hissued.symm.trans hx))
        · exact .inl (by simpa [Function.update_of_ne heq] using hxe)
      · have hne : x ≠ sid := fun heq => by simp [heq, hnot] at hxe
        simpa [Function.update_of_ne hne] using hx
  | foundNone =>
      exact { Extends.refl l.login m with
        closed := fun hx => update_flag hx fun hsid => by simp [hsid] }
  | @removed sid hph =>
      refine { Extends.refl l.login m with gone := fun {x} _ hx => ?_ }
      simp only [Function.update_apply]
      split_ifs
      · rfl
      · exact hx
  | forgot =>
      exact { Extends.refl l.login m with closed := fun hx => update_flag hx fun _ => rfl }

/-- **One action keeps the table and the history in agreement.** -/
lemma wellFormed_of_effect (hm : WellFormed m) (hl : Placed m l) (h : Effect m l a m' l') :
    WellFormed m' := by
  cases h with
  | calledLogin | calledDo | loginFailed | found | lookedUp | ran => exact hm
  | calledLogout =>
      exact { hm with present := fun hx hnone => update_flag (hm.present hx hnone) fun _ => rfl }
  | created => exact { hm with issued_lt := fun hx => (hm.issued_lt hx).trans (Nat.lt_succ_self _) }
  | loggedIn | loggedOut => exact { hm with }
  | @named k sid hph hnew =>
      obtain ⟨hk, hnone⟩ := hl.holds_at hph
      -- nothing was recorded of the new id, and no other id belongs to the login call
      have hold : ∀ {x i}, m.issuedTo x = some i →
          Function.update m.issuedTo sid (some k) x = some i := by
        intro x i hx
        have hne : x ≠ sid := fun heq => by simp [heq, hnew] at hx
        rwa [Function.update_of_ne hne]
      refine { hm with
        issued_lt := fun {x i} hx => ?_
        one_session := fun {x y i} hx hy => ?_
        registered := fun hx => ⟨hold (hm.registered hx).1, (hm.registered hx).2⟩
        issued := fun hx => (hm.issued hx).imp fun _ => hold }
      · simp only [Function.update_apply] at hx
        split_ifs at hx
        · exact Option.some.inj hx ▸ hl.login_lt hk
        · exact hm.issued_lt hx
      · simp only [Function.update_apply] at hx hy
        split_ifs at hx hy with hxs hys hys
        · exact hxs.trans hys.symm
        · exact absurd (hy.trans hx.symm) (hnone y)
        · exact absurd (hx.trans hy.symm) (hnone x)
        · exact hm.one_session hx hy
  | @entered k sid hph =>
      obtain ⟨hk, hissued, hnot⟩ := hl.holds_at hph
      refine { hm with
        registered := fun {x i} hx => ?_
        issued := fun {x} hx => ?_
        present := fun {x} hx hnone => ?_
        closed := fun {x} hx => ?_ }
      · simp only [Function.update_apply] at hx
        split_ifs at hx with heq
        · subst heq
          exact ⟨hissued.trans hx, Function.update_self _ _ _⟩
        · exact ⟨(hm.registered hx).1, update_flag (hm.registered hx).2 fun _ => rfl⟩
      · simp only [Function.update_apply] at hx
        split_ifs at hx with heq
        · exact ⟨k, heq ▸ hissued⟩
        · exact hm.issued hx
      · simp only [Function.update_apply] at hx hnone
        split_ifs at hx hnone
        exact hm.present hx hnone
      · obtain ⟨hxe, hgone⟩ := hm.closed hx
        have hne : x ≠ sid := fun heq => by simp [heq, hnot] at hxe
        exact ⟨update_flag hxe fun _ => rfl, by simpa [Function.update_of_ne hne] using hgone⟩
  | @foundNone sid hph hinfo =>
      refine { hm with closed := fun {x} hx => ?_ }
      simp only [Function.update_apply] at hx
      split_ifs at hx with heq
      · subst heq
        rcases Bool.or_eq_true_iff.mp hx with hclosed | hentered
        · exact hm.closed hclosed
        · exact ⟨hentered, hinfo⟩
      · exact hm.closed hx
  | @removed sid hph =>
      obtain ⟨-, hcalled⟩ := hl.holds_at hph
      refine { hm with
        registered := fun {x i} hx => ?_
        present := fun {x} hx hnone => ?_
        closed := fun {x} hx => ?_ }
      · simp only [Function.update_apply] at hx
        split_ifs at hx
        exact hm.registered hx
      · simp only [Function.update_apply] at hnone
        split_ifs at hnone with heq
        · exact heq ▸ hcalled
        · exact hm.present hx hnone
      · obtain ⟨hxe, hgone⟩ := hm.closed hx
        refine ⟨hxe, ?_⟩
        simp only [Function.update_apply]
        split_ifs
        · rfl
        · exact hgone
  | @forgot sid hph =>
      refine { hm with closed := fun {x} hx => ?_ }
      simp only [Function.update_apply] at hx
      split_ifs at hx with heq
      · exact heq ▸ hl.holds_at hph
      · exact hm.closed hx

/-- **One action brings its thread to a place that holds.** -/
lemma placed_of_effect (hm : WellFormed m) (hl : Placed m l) (h : Effect m l a m' l') :
    Placed m' l' := by
  cases h with
  | calledLogin => exact ⟨nofun, trivial⟩
  | calledLogout => exact ⟨nofun, Function.update_self _ _ _⟩
  | calledDo => exact ⟨nofun, id, id⟩
  | created =>
      refine ⟨fun hk => Option.some.inj hk ▸ Nat.lt_succ_self _, rfl, fun sid hsid => ?_⟩
      exact (hm.issued_lt hsid).false
  | loggedIn hph => exact ⟨hl.login_lt, hl.holds_at hph⟩
  | loginFailed hph =>
      obtain ⟨hk, hnone⟩ := hl.holds_at hph
      refine ⟨hl.login_lt, fun i hi => ?_⟩
      obtain rfl := Option.some.inj (hk.symm.trans hi)
      exact hnone
  | @named k sid hph hnew =>
      refine ⟨hl.login_lt, (hl.holds_at hph).1, Function.update_self _ _ _, ?_⟩
      by_contra hentered
      rw [Bool.not_eq_false] at hentered
      obtain ⟨i, hi⟩ := hm.issued hentered
      simp [hnew] at hi
  | @entered k sid hph =>
      obtain ⟨hk, hissued, -⟩ := hl.holds_at hph
      exact ⟨hl.login_lt, k, hk, hissued, Function.update_self _ _ _⟩
  | foundNone => exact ⟨hl.login_lt, trivial⟩
  | found hph hinfo =>
      obtain ⟨hissued, hentered⟩ := hm.registered hinfo
      exact ⟨hl.login_lt, hissued, hentered, hl.holds_at hph⟩
  | loggedOut hph => exact ⟨hl.login_lt, (hl.holds_at hph).2⟩
  | removed hph => exact ⟨hl.login_lt, (hl.holds_at hph).1, Function.update_self _ _ _⟩
  | forgot => exact ⟨hl.login_lt, trivial⟩
  | @lookedUp privileged sid hph =>
      obtain ⟨hentered, hclosed⟩ := hl.holds_at hph
      refine ⟨hl.login_lt, fun k hk => (hm.registered hk).1, fun hnone hw => ?_, fun hw => ?_⟩
      · exact hm.present (hentered hw) hnone
      · exact (hm.closed (hclosed hw)).2
  | ran => exact ⟨hl.login_lt, trivial⟩

/-- A login call is numbered once. -/
lemma login_of_effect (h : Effect m l a m' l') {k : ℕ} (hk : l'.login = some k) :
    l.login = some k ∨ k = m.logins := by
  cases h with
  | calledLogin | calledLogout | calledDo => cases hk
  | created => exact .inr (Option.some.inj hk).symm
  | _ => exact .inl hk

/-- Principals are written where a subject is made and by its own login context. -/
lemma principals_of_effect (hl : Placed m l) (h : Effect m l a m' l') {k : ℕ}
    (hk : m'.principals k ≠ m.principals k) :
    (l.phase = .creating ∧ k = m.logins) ∨ l.phase = .loggingIn k ∨
      ∃ sid, l.phase = .loggingOut sid k ∧ m.issuedTo sid = some k := by
  have hself : ∀ {i : ℕ} {ps : List (Principal ο)},
      Function.update m.principals i ps k ≠ m.principals k → k = i := by
    intro i ps hne
    by_contra heq
    exact hne (Function.update_of_ne heq _ _)
  cases h with
  | created hph => exact .inl ⟨hph, hself hk⟩
  | loggedIn hph => exact .inr (.inl (hself hk ▸ hph))
  | @loggedOut sid _ _ _ hph =>
      obtain rfl := hself hk
      exact .inr (.inr ⟨sid, hph, (hl.holds_at hph).1⟩)
  | _ => exact absurd rfl hk

end Step

/-! ## The invariant along a run -/

section Runs

variable [DecidableEq τ] [DecidableEq ς] {s s' : SessionState τ ς ο}

lemma secured_init (h : (machine τ ς ο).init s) : Secured s := by
  obtain ⟨htable, hidle⟩ := h
  have hshared : s.shared = Table.new := htable
  have hthread : ∀ t, s.thread t = Local.new := hidle
  refine ⟨?_, fun t => ?_, fun t u k hk => ?_⟩
  · rw [hshared]
    constructor <;> simp [Table.new]
  · rw [hthread t]
    exact ⟨nofun, trivial⟩
  · rw [hthread t] at hk
    cases hk

/-- **One move keeps sessions apart.** -/
lemma secured_step (hs : Secured s) {a : τ × Act ς ο}
    (h : (machine τ ς ο).step s a = some s') : Secured s' := by
  obtain ⟨t, b⟩ := a
  obtain ⟨m, l, heffect, rfl⟩ := step_cases h
  have hext := extends_of_effect (hs.threads t) heffect
  have hnew : ∀ {u k}, u ≠ t → l.login = some k → (s.thread u).login ≠ some k := by
    intro u k hu hk huk
    obtain hold | rfl := login_of_effect heffect hk
    · exact hu (hs.distinct u t k huk hold)
    · exact ((hs.threads u).login_lt huk).false
  refine ⟨?_, Threads.State.forall_after ?_ fun u hu => ?_, fun u v k hu hv => ?_⟩
  · exact wellFormed_of_effect hs.table (hs.threads t) heffect
  · exact placed_of_effect hs.table (hs.threads t) heffect
  · exact (hs.threads u).stable hext fun k hk huk => hu (hs.distinct u t k huk hk)
  · by_cases hut : u = t <;> by_cases hvt : v = t
    · exact hut.trans hvt.symm
    · subst hut
      simp only [Threads.State.after_thread_self] at hu
      simp only [Threads.State.after_thread_of_ne _ hvt] at hv
      exact absurd hv (hnew hvt hu)
    · subst hvt
      simp only [Threads.State.after_thread_self] at hv
      simp only [Threads.State.after_thread_of_ne _ hut] at hu
      exact absurd hu (hnew hut hv)
    · simp only [Threads.State.after_thread_of_ne _ hut] at hu
      simp only [Threads.State.after_thread_of_ne _ hvt] at hv
      exact hs.distinct u v k hu hv

/-! ## The promises -/

omit [DecidableEq τ] [DecidableEq ς] in
/-- What the lookup of an action found. -/
lemma Secured.runs (hs : Secured s) {t : τ} {sid : ς} {subject : Option ℕ}
    (h : (s.thread t).Runs sid subject) :
    (∀ k, subject = some k → s.shared.issuedTo sid = some k) ∧
      (subject = none → (s.thread t).wasEntered = true → s.shared.logoutCalled sid = true) ∧
      ((s.thread t).wasClosed = true → subject = none) := by
  obtain ⟨privileged, hph⟩ := h
  exact (hs.threads t).holds_at hph

omit [DecidableEq τ] [DecidableEq ς] in
lemma Secured.isolated (hs : Secured s) : Isolated s where
  sees := by
    intro t sid subject hrun
    obtain ⟨hissued, -, -⟩ := hs.runs hrun
    cases subject with
    | none => exact .inr rfl
    | some k => exact .inl ⟨k, hissued k rfl, rfl⟩
  attended := by
    intro t sid hrun
    obtain ⟨-, hattended, -⟩ := hs.runs hrun
    exact hattended rfl
  closed := by
    intro t sid subject hrun hw
    obtain ⟨-, -, hnone⟩ := hs.runs hrun
    rw [hnone hw]
    rfl
  unknown := by
    intro t sid subject hrun hnever
    obtain ⟨hissued, -, -⟩ := hs.runs hrun
    cases subject with
    | none => rfl
    | some k => simp [hissued k rfl] at hnever
  returned := by
    intro t sid hph
    exact (hs.threads t).holds_at hph
  one_session := by
    intro sid sid' k
    exact hs.table.one_session
  failed := by
    intro t e k hph hk sid
    have hunissued := (hs.threads t).holds_at hph k hk sid
    refine ⟨hunissued, ?_⟩
    intro hinfo
    exact hunissued (hs.table.registered hinfo).1

/-- **Session isolation.**  In every interleaving of calls of `login`, `logout`, `doAs` and
`doAsPrivileged`, actions see the subject of their own session and no other, failed logins leave no
session behind, and after a logout nothing is seen any more. -/
theorem session_isolation {ms : List (SessionMove τ ς ο)} (h : (machine τ ς ο).Run ms s) :
    Isolated s ∧ ∀ m ∈ ms, WritesOwnSubject m := by
  have hinit : ∀ s, (machine τ ς ο).init s → Secured s := fun _ => secured_init
  have hstep : ∀ s a s', Secured s → (machine τ ς ο).step s a = some s' → Secured s' :=
    fun _ _ _ hs => secured_step hs
  refine ⟨(h.invariant hinit hstep).isolated, ?_⟩
  intro m hm k hk
  obtain ⟨hpre, hmove, -⟩ := h.invariant_of_mem hinit hstep hm
  obtain ⟨table, l, heffect, hpost⟩ := step_cases hmove
  rw [hpost] at hk
  exact principals_of_effect (hpre.threads m.label.1) heffect hk

end Runs

/-- A session is entered under the id 7 and looked up by another thread, the logout runs into a
`LoginException` while the action goes on, and the next `doAs` finds nothing. -/
def overtakenAction : List (Duo × Act ℕ ℕ) :=
  [(.first, .login), (.first, .go), (.first, .contextLogin (.ok [.other 5])),
    (.first, .randomUUID 7), (.first, .go),
    (.second, .doAs 7), (.second, .go),
    (.first, .logout 7), (.first, .go), (.first, .contextLogout true [.other 5]),
    (.first, .go), (.first, .go),
    (.first, .doAsPrivileged 7), (.first, .go)]

theorem overtakenAction_isolated : ∃ s,
    (machine Duo ℕ ℕ).play (initial Duo ℕ ℕ) overtakenAction = some s ∧
      (s.thread .second).phase = .running false 7 (some 0) ∧
      (s.thread .first).phase = .running true 7 none ∧ Isolated s ∧
      ∀ m ∈ (machine Duo ℕ ℕ).moves (initial Duo ℕ ℕ) overtakenAction,
        WritesOwnSubject m := by
  refine ⟨_, rfl, rfl, rfl, ?_⟩
  exact session_isolation (Machine.run_of_play (init_initial Duo ℕ ℕ) rfl)

end LoginManager

end LearnJava
