import LearnJava.Foundation.Run
import LearnJava.Security.MatchaLoginModule

/-!
# The life cycle of a `MatchaLoginModule`

A `LoginContext` drives the module through its phases (`Phase.mayFollow`); `lifeCycle` is the
machine of all these sequences.  Since `commit` sets `entity` to `null`, there is nothing left for
the `logout` that follows it to remove: `life_cycle_iff` shows that the subject has the principals
it should have in exactly those sequences in which no `logout` or `abort` follows the commit of a
successful login.
-/

namespace LearnJava

namespace MatchaLoginModule

variable {ο : Type} [DecidableEq ο]
  {checkPassword : Option String → Option (List CodeUnit) → Except Throwable Bool}

/-- The phases a `LoginContext` drives a module through. -/
inductive Phase
  | initialized
  | login
  | commit
  | abort
  | logout
  deriving DecidableEq, Repr

/-- `p.mayFollow q`: the phase `p` may come next after `q`.  A login is committed or aborted; a
commit is followed by the logout, or by an abort when another module's commit fails. -/
def Phase.mayFollow : Phase → Phase → Bool
  | .login, .initialized | .login, .abort | .login, .logout => true
  | .commit, .login => true
  | .abort, .login | .abort, .commit => true
  | .logout, .commit | .logout, .abort => true
  | _, _ => false

/-- A call of a phase, with what the callback handler does in `login`. -/
inductive Call
  | login (handled : Handled)
  | commit
  | abort
  | logout
  deriving DecidableEq, Repr

def Call.phase : Call → Phase
  | .login _ => .login
  | .commit => .commit
  | .abort => .abort
  | .logout => .logout

/-- A module, its last phase, the principals the subject had at first, and the principal that the
last `login` authenticated, if it returned `true`. -/
structure LifeCycle (ο : Type) where
  fields : MatchaLoginModule ο
  last : Phase
  initial : List (Principal ο)
  authenticated : Option MatchaPrincipal
  deriving DecidableEq, Repr

/-- The principal that a call of `login` authenticated, if it returned `true`. -/
def authenticatedBy (handled : Handled) :
    EStateM.Result Throwable (MatchaLoginModule ο) Bool → Option MatchaPrincipal
  | .ok true _ => some ⟨handled.name⟩
  | .ok false _ | .error _ _ => none

/-- One phase. -/
def LifeCycle.step
    (checkPassword : Option String → Option (List CodeUnit) → Except Throwable Bool)
    (s : LifeCycle ο) (c : Call) : Option (LifeCycle ο) :=
  if !c.phase.mayFollow s.last then none
  else match c with
    | .login handled =>
      -- the subject does not already hold the user's principal
      if Principal.matcha ⟨handled.name⟩ ∈ s.initial then none
      else some { s with
        fields := (MatchaLoginModule.login checkPassword handled).after s.fields
        last := .login
        authenticated := authenticatedBy handled
          ((MatchaLoginModule.login checkPassword handled).run s.fields) }
    | .commit => some { s with fields := MatchaLoginModule.commit.after s.fields, last := .commit }
    | .abort => some { s with fields := MatchaLoginModule.abort.after s.fields, last := .abort }
    | .logout => some { s with fields := MatchaLoginModule.logout.after s.fields, last := .logout }

/-- Every sequence of phases on one module that was initialized with any subject. -/
def lifeCycle (ο : Type) [DecidableEq ο]
    (checkPassword : Option String → Option (List CodeUnit) → Except Throwable Bool) :
    Machine (LifeCycle ο) Call where
  init s := ∃ m, s = ⟨initializeModule.after m, .initialized, m.principals, none⟩
  step := LifeCycle.step checkPassword

/-- The principals the subject should have while a login is committed. -/
def LifeCycle.committed (s : LifeCycle ο) : List (Principal ο) :=
  s.initial ++ (s.authenticated.map Principal.matcha).toList

/-- After a commit the subject has its first principals and the authenticated one, and after an
abort or a logout its first ones. -/
def KeepsPrincipals (m : Move (LifeCycle ο) Call) : Prop :=
  match m.label with
  | .login _ => True
  | .commit => m.post.fields.principals = m.post.committed
  | .abort | .logout => m.post.fields.principals = m.post.initial

/-- An abort or a logout does not follow the commit of a successful login. -/
def EndsNoCommit (m : Move (LifeCycle ο) Call) : Prop :=
  match m.label with
  | .login _ | .commit => True
  | .abort | .logout => m.pre.last = .commit → m.pre.authenticated = none

/-! ## One phase -/

section Phases

variable {s s' : LifeCycle ο}

/-- A login starts a new cycle; it leaves the subject alone, and remembers a principal only if
it authenticated one. -/
lemma login_step {handled : Handled} (h : s.step checkPassword (.login handled) = some s') :
    (s.last ≠ .commit ∧ s.last ≠ .login) ∧ s'.initial = s.initial ∧ s'.last = .login ∧
      s'.fields.principals = s.fields.principals ∧
      (s'.authenticated = some ⟨handled.name⟩ ∧ s'.fields.entity = some ⟨handled.name⟩ ∧
          Principal.matcha ⟨handled.name⟩ ∉ s.initial ∨
        s'.authenticated = none ∧ s'.fields.entity = s.fields.entity) := by
  simp only [LifeCycle.step] at h
  split_ifs at h with hphase hnew
  obtain rfl := Option.some.inj h
  refine ⟨?_, rfl, rfl, ?_⟩
  · constructor <;> intro hlast <;> simp [hlast, Call.phase, Phase.mayFollow] at hphase
  · obtain ⟨m, hrun, hprincipals, hentity⟩ | ⟨m, hrun, hprincipals, hentity⟩ :=
      login_cases checkPassword handled s.fields
    · exact ⟨by rw [after_of_run hrun, hprincipals],
        .inl ⟨by rw [hrun]; rfl, by rw [after_of_run hrun, hentity], hnew⟩⟩
    · obtain hrun | ⟨e, hrun⟩ := hrun
      · exact ⟨by rw [after_of_run hrun, hprincipals],
          .inr ⟨by rw [hrun]; rfl, by rw [after_of_run hrun, hentity]⟩⟩
      · exact ⟨by rw [after_of_throw hrun, hprincipals],
          .inr ⟨by rw [hrun]; rfl, by rw [after_of_throw hrun, hentity]⟩⟩

lemma commit_step (h : s.step checkPassword .commit = some s') :
    s.last = .login ∧ s' = { s with fields := commit.after s.fields, last := .commit } := by
  simp only [LifeCycle.step] at h
  split_ifs at h with hphase
  obtain rfl := Option.some.inj h
  refine ⟨?_, rfl⟩
  cases hlast : s.last <;> simp [hlast, Call.phase, Phase.mayFollow] at hphase ⊢

/-- A cycle ends with an abort or a logout, which do the same. -/
lemma end_step {c : Call} (hc : c = .abort ∨ c = .logout)
    (h : s.step checkPassword c = some s') :
    s' = { s with fields := abort.after s.fields, last := c.phase } := by
  obtain rfl | rfl := hc
  · simp only [LifeCycle.step] at h
    split_ifs at h
    exact (Option.some.inj h).symm
  · simp only [LifeCycle.step, logout_eq_abort] at h
    split_ifs at h
    exact (Option.some.inj h).symm

/-- An authenticated principal is remembered until the login is committed or aborted, and the
subject has it from the commit on. -/
structure Kept (s : LifeCycle ο) : Prop where
  principals : s.fields.principals = if s.last = .commit then s.committed else s.initial
  entity : s.fields.entity = if s.last = .login then s.authenticated else none
  new : ∀ p, s.authenticated = some p → Principal.matcha p ∉ s.initial

lemma kept_init (h : (lifeCycle ο checkPassword).init s) : Kept s := by
  obtain ⟨m, rfl⟩ := h
  exact ⟨rfl, rfl, by simp⟩

lemma login_kept {handled : Handled} (hs : Kept s)
    (h : s.step checkPassword (.login handled) = some s') : Kept s' := by
  obtain ⟨⟨hcommit, hlogin⟩, hinitial, hlast, hprincipals, hauth⟩ := login_step h
  have hentity := hs.entity
  have hold := hs.principals
  rw [if_neg hlogin] at hentity
  rw [if_neg hcommit] at hold
  refine ⟨?_, ?_, ?_⟩
  · rw [hprincipals, hold, hlast, if_neg (by decide), hinitial]
  · rw [hlast, if_pos rfl]
    obtain ⟨hauth, hremembered, -⟩ | ⟨hauth, hremembered⟩ := hauth
    · rw [hauth, hremembered]
    · rw [hauth, hremembered, hentity]
  · intro p hp
    obtain ⟨hauth, -, hnew⟩ | ⟨hauth, -⟩ := hauth
    · obtain rfl := Option.some.inj (hauth.symm.trans hp)
      rw [hinitial]
      exact hnew
    · rw [hauth] at hp
      cases hp

/-- **A commit gives the subject the authenticated principal**, and nothing if there is none. -/
lemma commit_kept (hs : Kept s) (h : s.step checkPassword .commit = some s') :
    Kept s' ∧ s'.fields.principals = s'.committed := by
  obtain ⟨hlast, rfl⟩ := commit_step h
  have hentity := hs.entity
  have hprincipals := hs.principals
  rw [hlast, if_pos rfl] at hentity
  rw [hlast, if_neg (by decide)] at hprincipals
  have hafter : (commit.after s.fields).principals = s.committed ∧
      (commit.after s.fields).entity = none := by
    cases hauth : s.authenticated with
    | none =>
        rw [hauth] at hentity
        rw [commit_after_none hentity, hprincipals, hentity]
        simp [LifeCycle.committed, hauth]
    | some p =>
        rw [hauth] at hentity
        rw [commit_after_some hentity (hprincipals ▸ hs.new p hauth), hprincipals]
        simp [LifeCycle.committed, hauth]
  exact ⟨⟨hafter.1, hafter.2, hs.new⟩, hafter.1⟩

/-- **An abort or a logout leaves the first principals exactly if there is nothing committed.** -/
lemma end_principals_iff {c : Call} (hs : Kept s) (hc : c = .abort ∨ c = .logout)
    (h : s.step checkPassword c = some s') :
    (s'.fields.principals = s'.initial ↔ (s.last = .commit → s.authenticated = none)) ∧
      s'.fields.entity = none := by
  obtain rfl := end_step hc h
  have hheld : ∀ p, s.fields.entity = some p → Principal.matcha p ∉ s.fields.principals := by
    intro p hp
    have hentity := hs.entity
    have hprincipals := hs.principals
    rw [hp] at hentity
    split_ifs at hentity with hlast
    rw [hlast, if_neg (by decide)] at hprincipals
    rw [hprincipals]
    exact hs.new p hentity.symm
  have hprincipals := hs.principals
  simp only [abort_after hheld, hprincipals, and_true]
  split_ifs with hlast
  · cases hauth : s.authenticated <;> simp [LifeCycle.committed, hauth, hlast]
  · simp [hlast]

lemma end_kept {c : Call} (hs : Kept s) (hc : c = .abort ∨ c = .logout)
    (h : s.step checkPassword c = some s')
    (hends : s.last = .commit → s.authenticated = none) : Kept s' := by
  obtain ⟨hiff, hentity⟩ := end_principals_iff hs hc h
  have hprincipals := hiff.mpr hends
  obtain rfl := end_step hc h
  have hphase : c.phase ≠ .commit ∧ c.phase ≠ .login := by
    obtain rfl | rfl := hc <;> decide
  refine ⟨?_, ?_, hs.new⟩
  · rw [if_neg hphase.1]
    exact hprincipals
  · rw [if_neg hphase.2]
    exact hentity

end Phases

/-! ## Every sequence of phases -/

/-- For every subject, every callback handler and every sequence of phases of a `LoginContext`, with
users whose principals the subject does not hold at first: the subject has its first principals and
the authenticated one after each commit, and its first ones after each abort and logout, exactly
when no abort or logout follows the commit of a successful login. -/
theorem life_cycle_iff {ms : List (Move (LifeCycle ο) Call)} {s : LifeCycle ο}
    (h : (lifeCycle ο checkPassword).Run ms s) :
    (∀ m ∈ ms, KeepsPrincipals m) ↔ ∀ m ∈ ms, EndsNoCommit m := by
  refine h.moves_iff (I := Kept) (P := KeepsPrincipals) (fun s => kept_init) ?_ ?_
  · intro s c s' hs hstep hends
    replace hstep : s.step checkPassword c = some s' := hstep
    cases c with
    | login handled => exact login_kept hs hstep
    | commit => exact (commit_kept hs hstep).1
    | abort => exact end_kept hs (.inl rfl) hstep hends
    | logout => exact end_kept hs (.inr rfl) hstep hends
  · intro s c s' hs hstep
    replace hstep : s.step checkPassword c = some s' := hstep
    cases c with
    | login handled => exact Iff.rfl
    | commit => exact iff_of_true (commit_kept hs hstep).2 trivial
    | abort => exact (end_principals_iff hs (.inl rfl) hstep).1
    | logout => exact (end_principals_iff hs (.inr rfl) hstep).1

/-- A user whose password is accepted. -/
def knownUser : Handled := ⟨some "user", some [0x6B], none⟩

/-- A module of a subject without principals, just initialized. -/
def freshModule : LifeCycle ℕ := ⟨⟨[], none, none, none⟩, .initialized, [], none⟩

/-- The moves of a login that is aborted, of a logout, and of a login that is committed. -/
def abortedLogin : List (Move (LifeCycle ℕ) Call) :=
  (lifeCycle ℕ fun _ _ => .ok true).moves freshModule
    [.login knownUser, .abort, .logout, .login knownUser, .commit]

theorem abortedLogin_keeps :
    ∃ s, (lifeCycle ℕ fun _ _ => .ok true).Run abortedLogin s ∧
      s.fields.principals = [.matcha ⟨some "user"⟩] ∧
      ((∀ m ∈ abortedLogin, KeepsPrincipals m) ↔ ∀ m ∈ abortedLogin, EndsNoCommit m) := by
  have hrun : (lifeCycle ℕ fun _ _ => .ok true).Run abortedLogin _ :=
    Machine.run_of_play ⟨⟨[], none, none, none⟩, rfl⟩ rfl
  exact ⟨_, hrun, rfl, life_cycle_iff hrun⟩

/-- The moves of a login that is committed, and of the logout. -/
def committedLogin : List (Move (LifeCycle ℕ) Call) :=
  (lifeCycle ℕ fun _ _ => .ok true).moves freshModule [.login knownUser, .commit, .logout]

/-- After the logout the subject still has the user's principal. -/
theorem committedLogin_leaves_principal :
    (∃ s, (lifeCycle ℕ fun _ _ => .ok true).Run committedLogin s) ∧
      ¬ ∀ m ∈ committedLogin, KeepsPrincipals m := by
  refine ⟨⟨_, Machine.run_of_play ⟨⟨[], none, none, none⟩, rfl⟩ rfl⟩, fun h => ?_⟩
  have hlast := h (committedLogin.getLast (by decide)) (List.getLast_mem _)
  have hempty : [Principal.matcha (ο := ℕ) ⟨some "user"⟩] = [] := hlast
  cases hempty

end MatchaLoginModule

end LearnJava
