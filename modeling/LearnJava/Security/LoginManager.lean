import LearnJava.Foundation.Threads
import LearnJava.Security.MatchaLoginModule

/-!
# `LoginManager`

The session table of `security/context/login/LoginManager.java`.  `act` gives the atomic steps of
`login`, `logout`, `doAs` and `doAsPrivileged`: each call on the concurrent map, each call of a
`LoginContext`, and the run of an action.

Every `login` makes a new `Subject` and a new `LoginContext` for it; both are named by the number
of the call.  What a login context does to the principals of its subject when it logs in and out,
and whether it throws, is left open, and `UUID.randomUUID()` gives any id that it has not given
before.  An action runs with the subject that was looked up, or with none, and leaves it alone.

Besides its fields the table carries the history the statements are about: to which login call an
id was issued, which ids were ever entered, and for which of them `logout` was called and returned.
-/

namespace LearnJava

namespace LoginManager

/-- The fields, the principals of the subjects, and the history. -/
structure Table (ς ο : Type) where
  /-- The login call whose subject and login context are entered under an id. -/
  loginInfos : ς → Option ℕ
  /-- `getPrincipals()` of the subject of a login call. -/
  principals : ℕ → List (Principal ο)
  /-- The number of login calls. -/
  logins : ℕ
  /-- The login call that `UUID.randomUUID()` gave the id to. -/
  issuedTo : ς → Option ℕ
  /-- The id was entered. -/
  entered : ς → Bool
  /-- `logout` was called with the id. -/
  logoutCalled : ς → Bool
  /-- A `logout` returned that looked the id up after it had been entered.  One that was called with
  a guessed id, before any login had entered it, ended no session. -/
  closed : ς → Bool

/-- What a call ended with. -/
inductive Reply (ς : Type)
  | session (sid : ς)
  | loggedOut
  | ran
  | thrown (e : Throwable)
  deriving DecidableEq, Repr

/-- Where a thread is; `k` is the number of a login call. -/
inductive Phase (ς : Type)
  | idle
  /-- `new Subject()` -/
  | creating
  /-- `loginContext.login()` -/
  | loggingIn (k : ℕ)
  /-- `UUID.randomUUID()` -/
  | naming (k : ℕ)
  /-- `loginInfos.put(sid, …)` -/
  | entering (k : ℕ) (sid : ς)
  /-- `loginInfos.get(sid)` in `logout` -/
  | closing (sid : ς)
  /-- `loginContexts.logout()` -/
  | loggingOut (sid : ς) (k : ℕ)
  /-- `loginInfos.remove(sid)` -/
  | removing (sid : ς)
  /-- `ContextManager.getInstance().removeContext(sid)` -/
  | forgetting (sid : ς)
  /-- `loginInfos.get(sid)` in `getSubject` -/
  | lookingUp (privileged : Bool) (sid : ς)
  /-- In the action, with the subject of a login call or with none. -/
  | running (privileged : Bool) (sid : ς) (subject : Option ℕ)
  | returned (r : Reply ς)
  deriving DecidableEq, Repr

/-- A thread.  With its place go the number of its `login` call and, for a call with an id,
whether the id was entered and closed when the call began. -/
structure Local (ς : Type) where
  phase : Phase ς
  login : Option ℕ
  wasEntered : Bool
  wasClosed : Bool
  deriving DecidableEq, Repr

/-- An action of a thread: a call, what a login context does, a new id, or the next step. -/
inductive Act (ς ο : Type)
  | login
  | logout (sid : ς)
  | doAs (sid : ς)
  | doAsPrivileged (sid : ς)
  | contextLogin (o : Except Throwable (List (Principal ο)))
  | contextLogout (failed : Bool) (principals : List (Principal ο))
  | randomUUID (sid : ς)
  | go

/-- A thread that is in no call. -/
def Phase.AtRest {ς : Type} : Phase ς → Bool
  | .idle | .returned _ => true
  | _ => false

/-- What `login` throws when its login context throws `e`. -/
def loginFailure : Throwable → Throwable
  | .loginException message => .runtimeException (.loginException message)
  | e => e

section Code

variable {ς ο : Type} [DecidableEq ς]

/-- The next step of the code, where it calls neither a login context nor `randomUUID`. -/
def advance (m : Table ς ο) (l : Local ς) : Option (Table ς ο × Local ς) :=
  match l.phase with
  | .creating =>
    some ({ m with
      principals := Function.update m.principals m.logins []
      logins := m.logins + 1 }, { l with phase := .loggingIn m.logins, login := some m.logins })
  | .entering k sid =>
    some ({ m with
      loginInfos := Function.update m.loginInfos sid (some k)
      entered := Function.update m.entered sid true },
      { l with phase := .returned (.session sid) })
  | .closing sid =>
    match m.loginInfos sid with
    | none =>
      some ({ m with closed := Function.update m.closed sid (m.closed sid || m.entered sid) },
        { l with phase := .returned .loggedOut })
    | some k => some (m, { l with phase := .loggingOut sid k })
  | .removing sid =>
    some ({ m with loginInfos := Function.update m.loginInfos sid none },
      { l with phase := .forgetting sid })
  | .forgetting sid =>
    some ({ m with closed := Function.update m.closed sid true },
      { l with phase := .returned .loggedOut })
  | .lookingUp privileged sid =>
    some (m, { l with phase := .running privileged sid (m.loginInfos sid) })
  | .running _ _ _ => some (m, { l with phase := .returned .ran })
  | _ => none

/-- One action. -/
def act (m : Table ς ο) (l : Local ς) : Act ς ο → Option (Table ς ο × Local ς)
  | .login => if l.phase.AtRest then some (m, ⟨.creating, none, false, false⟩) else none
  | .logout sid =>
    if l.phase.AtRest then
      some ({ m with logoutCalled := Function.update m.logoutCalled sid true },
        ⟨.closing sid, none, m.entered sid, m.closed sid⟩)
    else none
  | .doAs sid =>
    if l.phase.AtRest then
      some (m, ⟨.lookingUp false sid, none, m.entered sid, m.closed sid⟩)
    else none
  | .doAsPrivileged sid =>
    if l.phase.AtRest then
      some (m, ⟨.lookingUp true sid, none, m.entered sid, m.closed sid⟩)
    else none
  | .contextLogin o =>
    match l.phase, o with
    | .loggingIn k, .ok principals =>
      some ({ m with principals := Function.update m.principals k principals },
        { l with phase := .naming k })
    | .loggingIn _, .error e => some (m, { l with phase := .returned (.thrown (loginFailure e)) })
    | _, _ => none
  | .contextLogout _ principals =>
    -- a `LoginException` is printed, and the session is removed as well
    match l.phase with
    | .loggingOut sid k =>
      some ({ m with principals := Function.update m.principals k principals },
        { l with phase := .removing sid })
    | _ => none
  | .randomUUID sid =>
    match l.phase with
    | .naming k =>
      if m.issuedTo sid = none then
        some ({ m with issuedTo := Function.update m.issuedTo sid (some k) },
          { l with phase := .entering k sid })
      else none
    | _ => none
  | .go => advance m l

/-- An empty table. -/
def Table.new : Table ς ο :=
  ⟨fun _ => none, fun _ => [], 0, fun _ => none, fun _ => false, fun _ => false, fun _ => false⟩

/-- A thread that has not called the manager yet. -/
def Local.new : Local ς := ⟨.idle, none, false, false⟩

/-- The threads of a manager. -/
def program (ς ο : Type) [DecidableEq ς] :
    Threads.Program (Table ς ο) (Local ς) (Act ς ο) where
  initShared m := m = Table.new
  initThread l := l = Local.new
  act := act

/-- The table and the threads. -/
abbrev SessionState (τ ς ο : Type) := Threads.State τ (Table ς ο) (Local ς)

/-- A step of one thread. -/
abbrev SessionMove (τ ς ο : Type) := Move (SessionState τ ς ο) (τ × Act ς ο)

/-- Any interleaving of calls of a new manager. -/
def machine (τ ς ο : Type) [DecidableEq τ] [DecidableEq ς] :
    Machine (SessionState τ ς ο) (τ × Act ς ο) := (program ς ο).machine τ

/-- A new manager, with no thread in any of its methods. -/
def initial (τ ς ο : Type) : SessionState τ ς ο :=
  ⟨⟨fun _ => none, fun _ => [], 0, fun _ => none, fun _ => false, fun _ => false, fun _ => false⟩,
    fun _ => ⟨.idle, none, false, false⟩⟩

lemma init_initial (τ ς ο : Type) [DecidableEq τ] [DecidableEq ς] :
    (machine τ ς ο).init (initial τ ς ο) := ⟨rfl, fun _ => rfl⟩

/-! ## What one action does -/

/-- The effects of an action on the table and on the thread that takes it. -/
inductive Effect (m : Table ς ο) (l : Local ς) : Act ς ο → Table ς ο → Local ς → Prop
  | calledLogin (hrest : l.phase.AtRest) : Effect m l .login m ⟨.creating, none, false, false⟩
  | calledLogout {sid : ς} (hrest : l.phase.AtRest) :
      Effect m l (.logout sid)
        { m with logoutCalled := Function.update m.logoutCalled sid true }
        ⟨.closing sid, none, m.entered sid, m.closed sid⟩
  | calledDo {a : Act ς ο} {privileged : Bool} {sid : ς} (hrest : l.phase.AtRest) :
      Effect m l a m ⟨.lookingUp privileged sid, none, m.entered sid, m.closed sid⟩
  | created (hph : l.phase = .creating) :
      Effect m l .go { m with
        principals := Function.update m.principals m.logins []
        logins := m.logins + 1 } { l with phase := .loggingIn m.logins, login := some m.logins }
  | loggedIn {k : ℕ} {principals : List (Principal ο)} (hph : l.phase = .loggingIn k) :
      Effect m l (.contextLogin (.ok principals))
        { m with principals := Function.update m.principals k principals }
        { l with phase := .naming k }
  | loginFailed {k : ℕ} {e : Throwable} (hph : l.phase = .loggingIn k) :
      Effect m l (.contextLogin (.error e)) m
        { l with phase := .returned (.thrown (loginFailure e)) }
  | named {k : ℕ} {sid : ς} (hph : l.phase = .naming k) (hnew : m.issuedTo sid = none) :
      Effect m l (.randomUUID sid)
        { m with issuedTo := Function.update m.issuedTo sid (some k) }
        { l with phase := .entering k sid }
  | entered {k : ℕ} {sid : ς} (hph : l.phase = .entering k sid) :
      Effect m l .go { m with
        loginInfos := Function.update m.loginInfos sid (some k)
        entered := Function.update m.entered sid true } { l with phase := .returned (.session sid) }
  | foundNone {sid : ς} (hph : l.phase = .closing sid) (h : m.loginInfos sid = none) :
      Effect m l .go
        { m with closed := Function.update m.closed sid (m.closed sid || m.entered sid) }
        { l with phase := .returned .loggedOut }
  | found {sid : ς} {k : ℕ} (hph : l.phase = .closing sid) (h : m.loginInfos sid = some k) :
      Effect m l .go m { l with phase := .loggingOut sid k }
  | loggedOut {sid : ς} {k : ℕ} {failed : Bool} {principals : List (Principal ο)}
      (hph : l.phase = .loggingOut sid k) :
      Effect m l (.contextLogout failed principals)
        { m with principals := Function.update m.principals k principals }
        { l with phase := .removing sid }
  | removed {sid : ς} (hph : l.phase = .removing sid) :
      Effect m l .go { m with loginInfos := Function.update m.loginInfos sid none }
        { l with phase := .forgetting sid }
  | forgot {sid : ς} (hph : l.phase = .forgetting sid) :
      Effect m l .go { m with closed := Function.update m.closed sid true }
        { l with phase := .returned .loggedOut }
  | lookedUp {privileged : Bool} {sid : ς} (hph : l.phase = .lookingUp privileged sid) :
      Effect m l .go m { l with phase := .running privileged sid (m.loginInfos sid) }
  | ran {privileged : Bool} {sid : ς} {subject : Option ℕ}
      (hph : l.phase = .running privileged sid subject) :
      Effect m l .go m { l with phase := .returned .ran }

section Effects

variable {m m' : Table ς ο} {l l' : Local ς}

lemma advance_cases (h : advance m l = some (m', l')) : Effect m l .go m' l' := by
  cases hph : l.phase with
  | creating =>
      simp only [advance, hph, Option.some.injEq, Prod.mk.injEq] at h
      obtain ⟨rfl, rfl⟩ := h
      exact .created hph
  | entering k sid =>
      simp only [advance, hph, Option.some.injEq, Prod.mk.injEq] at h
      obtain ⟨rfl, rfl⟩ := h
      exact .entered hph
  | closing sid =>
      cases hinfo : m.loginInfos sid with
      | none =>
          simp only [advance, hph, hinfo, Option.some.injEq, Prod.mk.injEq] at h
          obtain ⟨rfl, rfl⟩ := h
          exact .foundNone hph hinfo
      | some k =>
          simp only [advance, hph, hinfo, Option.some.injEq, Prod.mk.injEq] at h
          obtain ⟨rfl, rfl⟩ := h
          exact .found hph hinfo
  | removing sid =>
      simp only [advance, hph, Option.some.injEq, Prod.mk.injEq] at h
      obtain ⟨rfl, rfl⟩ := h
      exact .removed hph
  | forgetting sid =>
      simp only [advance, hph, Option.some.injEq, Prod.mk.injEq] at h
      obtain ⟨rfl, rfl⟩ := h
      exact .forgot hph
  | lookingUp privileged sid =>
      simp only [advance, hph, Option.some.injEq, Prod.mk.injEq] at h
      obtain ⟨rfl, rfl⟩ := h
      exact .lookedUp hph
  | running privileged sid subject =>
      simp only [advance, hph, Option.some.injEq, Prod.mk.injEq] at h
      obtain ⟨rfl, rfl⟩ := h
      exact .ran hph
  | idle | loggingIn k | naming k | loggingOut sid k | returned r =>
      simp only [advance, hph] at h
      cases h

/-- Every action has one of the effects. -/
lemma act_cases {a : Act ς ο} (h : act m l a = some (m', l')) : Effect m l a m' l' := by
  cases a with
  | login =>
      simp only [act] at h
      split_ifs at h with hrest
      obtain ⟨rfl, rfl⟩ := Prod.mk.inj (Option.some.inj h)
      exact .calledLogin hrest
  | logout sid =>
      simp only [act] at h
      split_ifs at h with hrest
      obtain ⟨rfl, rfl⟩ := Prod.mk.inj (Option.some.inj h)
      exact .calledLogout hrest
  | doAs sid | doAsPrivileged sid =>
      simp only [act] at h
      split_ifs at h with hrest
      obtain ⟨rfl, rfl⟩ := Prod.mk.inj (Option.some.inj h)
      exact .calledDo hrest
  | contextLogin o =>
      simp only [act] at h
      split at h
      · rename_i hph
        obtain ⟨rfl, rfl⟩ := Prod.mk.inj (Option.some.inj h)
        exact .loggedIn hph
      · rename_i hph
        obtain ⟨rfl, rfl⟩ := Prod.mk.inj (Option.some.inj h)
        exact .loginFailed hph
      · cases h
  | contextLogout failed principals =>
      simp only [act] at h
      split at h
      · rename_i hph
        obtain ⟨rfl, rfl⟩ := Prod.mk.inj (Option.some.inj h)
        exact .loggedOut hph
      · cases h
  | randomUUID sid =>
      simp only [act] at h
      split at h
      · rename_i hph
        split_ifs at h with hnew
        obtain ⟨rfl, rfl⟩ := Prod.mk.inj (Option.some.inj h)
        exact .named hph hnew
      · cases h
  | go => exact advance_cases h

/-- Every move of the machine is an effect on the table and on the acting thread. -/
lemma step_cases {τ : Type} [DecidableEq τ] {s s' : SessionState τ ς ο} {t : τ} {a : Act ς ο}
    (h : (machine τ ς ο).step s (t, a) = some s') :
    ∃ m l, Effect s.shared (s.thread t) a m l ∧ s' = s.after t (m, l) := by
  obtain ⟨⟨m, l⟩, hact, rfl⟩ := Threads.Program.step_iff.mp h
  exact ⟨m, l, act_cases hact, rfl⟩

end Effects

end Code

/-! ## What sessions promise -/

section Promises

variable {τ ς ο : Type}

/-- The principals of an action that runs with `subject`. -/
def visible (m : Table ς ο) (subject : Option ℕ) : List (Principal ο) :=
  match subject with
  | none => []
  | some k => m.principals k

/-- An action that the thread runs for the id `sid`, under `doAs` or `doAsPrivileged`, with a
subject or with none. -/
def Local.Runs (l : Local ς) (sid : ς) (subject : Option ℕ) : Prop :=
  ∃ privileged, l.phase = .running privileged sid subject

/-- The promises about a state.

* `sees`: the subject of an action is the one of the login call that its id was issued to, and an
  action without a subject has no principal;
* `attended`: it has that subject if the id was entered when the call began, unless a `logout` with
  the id has been called;
* `closed`, `unknown`: it has no principal if a `logout` with the id had returned when the call
  began, or if the id was never issued;
* `returned`, `one_session`: an id is returned by the login call it was issued to, and no other id
  is issued to that call;
* `failed`: a login that threw has no id, and nothing is entered for it. -/
structure Isolated (s : SessionState τ ς ο) : Prop where
  sees : ∀ t sid subject, (s.thread t).Runs sid subject →
    (∃ k, s.shared.issuedTo sid = some k ∧ subject = some k) ∨ visible s.shared subject = []
  attended : ∀ t sid, (s.thread t).Runs sid none → (s.thread t).wasEntered = true →
    s.shared.logoutCalled sid = true
  closed : ∀ t sid subject, (s.thread t).Runs sid subject → (s.thread t).wasClosed = true →
    visible s.shared subject = []
  unknown : ∀ t sid subject, (s.thread t).Runs sid subject → s.shared.issuedTo sid = none →
    visible s.shared subject = []
  returned : ∀ t sid, (s.thread t).phase = .returned (.session sid) →
    ∃ k, (s.thread t).login = some k ∧ s.shared.issuedTo sid = some k ∧
      s.shared.entered sid = true
  one_session : ∀ sid sid' k, s.shared.issuedTo sid = some k → s.shared.issuedTo sid' = some k →
    sid = sid'
  failed : ∀ t e k, (s.thread t).phase = .returned (.thrown e) → (s.thread t).login = some k →
    ∀ sid, s.shared.issuedTo sid ≠ some k ∧ s.shared.loginInfos sid ≠ some k

/-- The principals of a subject change only when it is new, or when the login context of the same
login call logs in or out, the latter in a `logout` with the id issued to that call. -/
def WritesOwnSubject (m : SessionMove τ ς ο) : Prop :=
  ∀ k, m.post.shared.principals k ≠ m.pre.shared.principals k →
    ((m.pre.thread m.label.1).phase = .creating ∧ k = m.pre.shared.logins) ∨
      (m.pre.thread m.label.1).phase = .loggingIn k ∨
      ∃ sid, (m.pre.thread m.label.1).phase = .loggingOut sid k ∧
        m.pre.shared.issuedTo sid = some k

end Promises

end LoginManager

end LearnJava
