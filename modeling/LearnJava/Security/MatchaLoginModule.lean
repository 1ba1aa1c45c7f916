import LearnJava.Java.Lang

/-!
# `MatchaLoginModule`

The login module of `security/context/login/MatchaLoginModule.java`: `login` asks the callback
handler for a name and a password and checks them, `commit` gives the subject a principal for
the name, and `abort` and `logout` take it away again.  In between the module remembers the
principal in the field `entity`.

A subject keeps its principals in a list without duplicates.  Its set refuses `null` with a
`SecurityException`, and removing `null` removes nothing.  The callback handler and
`UserPasswordDB.checkPassword` are left open: a handler may deliver anything or fail, and
`checkPassword` is any function that may throw.

For each method one lemma says what it does to the subject and to `entity`.  `commit` sets `entity`
to `null`, and so do `abort` and `logout` after they removed it.
-/

namespace LearnJava

/-! ## Principals -/

/-- The fields of `MatchaPrincipal`. -/
structure MatchaPrincipal where
  userName : Option String
  deriving DecidableEq, Repr

/-- A principal: a `MatchaPrincipal`, or one of the other classes. -/
inductive Principal (ο : Type)
  | matcha (p : MatchaPrincipal)
  | other (o : ο)
  deriving DecidableEq, Repr

variable {ο : Type} [DecidableEq ο]

/-- `MatchaPrincipal.equals`. -/
def MatchaPrincipal.equals (p : MatchaPrincipal) : Principal ο → Bool
  | .matcha q =>
    match p.userName with
    | none => q.userName.isNone
    | some name => q.userName == some name
  | .other _ => false

/-- `equals` of any principal. -/
def Principal.equals : Principal ο → Principal ο → Bool
  | .matcha p, q => p.equals q
  | .other o, .other o' => o == o'
  | .other _, .matcha _ => false

omit [DecidableEq ο] in
lemma MatchaPrincipal.equals_iff (p : MatchaPrincipal) (q : Principal ο) :
    p.equals q = true ↔ q = .matcha p := by
  obtain ⟨name⟩ := p
  rcases q with ⟨⟨name'⟩⟩ | o
  · cases name with
    | none => cases name' <;> simp [equals]
    | some n => simp [equals]
  · simp [equals]

lemma Principal.equals_matcha_iff (q : Principal ο) (p : MatchaPrincipal) :
    q.equals (.matcha p) = true ↔ q = .matcha p := by
  rcases q with q | o
  · rw [Principal.equals, MatchaPrincipal.equals_iff]
    exact eq_comm
  · simp [Principal.equals]

/-! ## The module -/

/-- The subject's principals, the field `entity`, and the two arrays `login` leaves behind: the
callback's own copy of the password, and the one it gave out. -/
structure MatchaLoginModule (ο : Type) where
  principals : List (Principal ο)
  entity : Option MatchaPrincipal
  inputPassword : Option (List CodeUnit)
  password : Option (List CodeUnit)
  deriving DecidableEq, Repr

namespace MatchaLoginModule

/-- What a callback handler did with the two callbacks: the name and password it set, and the
exception it ended with. -/
structure Handled where
  name : Option String
  password : Option (List CodeUnit)
  failure : Option Throwable
  deriving DecidableEq, Repr

/-- `subject.getPrincipals().add(p)`. -/
def addPrincipal (p : Option MatchaPrincipal) : Method (MatchaLoginModule ο) Bool := do
  match p with
  | none => throw .securityException
  | some p =>
    let m ← get
    if m.principals.any p.equals then return false
    set { m with principals := m.principals ++ [Principal.matcha p] }
    return true

/-- `subject.getPrincipals().remove(p)`. -/
def removePrincipal (p : Option MatchaPrincipal) : Method (MatchaLoginModule ο) Bool := do
  match p with
  | none => return false
  | some p =>
    let m ← get
    if m.principals.any fun q => q.equals (Principal.matcha p) then
      set { m with principals := m.principals.eraseP fun q => q.equals (Principal.matcha p) }
      return true
    return false

def initializeModule : Method (MatchaLoginModule ο) Unit := do
  modify fun m => { m with entity := none }

/-- An array after `Arrays.fill(a, ' ')`. -/
def fillBlank (a : List CodeUnit) : List CodeUnit := a.map fun _ => 0x20

def login (checkPassword : Option String → Option (List CodeUnit) → Except Throwable Bool)
    (handled : Handled) : Method (MatchaLoginModule ο) Bool := do
  -- `callbackHandler.handle(callbacks)`, with new callbacks
  modify fun m => { m with inputPassword := handled.password, password := none }
  match handled.failure with
  | some (.ioException message) => throw (.loginException message)
  | some (.unsupportedCallbackException message) => throw (.loginException message)
  | some e => throw e
  | none => pure ()
  let userName := handled.name
  modify fun m => { m with password := m.inputPassword }
  let isPass ← match checkPassword userName (← get).password with
    | .ok isPass => pure isPass
    | .error e => throw e
  -- `passwordCallback.clearPassword()`
  modify fun m => { m with inputPassword := m.inputPassword.map fillBlank }
  match (← get).password with
  | none => throw .nullPointerException
  | some password => modify fun m => { m with password := some (fillBlank password) }
  if !isPass then
    return false
  modify fun m => { m with entity := some ⟨userName⟩ }
  return true

def commit : Method (MatchaLoginModule ο) Bool := do
  let _ ← addPrincipal (← get).entity
  modify fun m => { m with entity := none }
  return true

def abort : Method (MatchaLoginModule ο) Bool := do
  let _ ← removePrincipal (← get).entity
  modify fun m => { m with entity := none }
  return true

def logout : Method (MatchaLoginModule ο) Bool := do
  let _ ← removePrincipal (← get).entity
  modify fun m => { m with entity := none }
  return true

/-! ## What the methods do -/

variable {m : MatchaLoginModule ο}
  {checkPassword : Option String → Option (List CodeUnit) → Except Throwable Bool}

omit [DecidableEq ο] in
lemma addPrincipal_null (m : MatchaLoginModule ο) :
    (addPrincipal none).run m = .error .securityException m := rfl

/-- A principal the subject does not have is added at the end. -/
lemma addPrincipal_run {p : MatchaPrincipal} (h : Principal.matcha p ∉ m.principals) :
    (addPrincipal (some p)).run m =
      .ok true { m with principals := m.principals ++ [.matcha p] } := by
  simp [addPrincipal, MatchaPrincipal.equals_iff, h]

/-- Removing `null`, or a principal the subject does not have, removes nothing. -/
lemma removePrincipal_run {p : Option MatchaPrincipal}
    (h : ∀ q, p = some q → Principal.matcha q ∉ m.principals) :
    (removePrincipal p).run m = .ok false m := by
  cases p with
  | none => rfl
  | some q => simp [removePrincipal, Principal.equals_matcha_iff, h q rfl]

section Login

omit [DecidableEq ο]

variable {name : Option String} {password : Option (List CodeUnit)} {p : List CodeUnit}
  {e : Throwable} {isPass : Bool}

/-- An exception of the check leaves `login` as it is, and the arrays with it. -/
lemma login_run_error (h : checkPassword name password = .error e) (m : MatchaLoginModule ο) :
    (login checkPassword ⟨name, password, none⟩).run m =
      .error e { m with inputPassword := password, password := password } := by
  simp [login, h]

/-- There is no array to overwrite. -/
lemma login_run_null (h : checkPassword name none = .ok isPass) (m : MatchaLoginModule ο) :
    (login checkPassword ⟨name, none, none⟩).run m =
      .error .nullPointerException { m with inputPassword := none, password := none } := by
  simp [login, h]

/-- A check that returns. -/
lemma login_run_ok (h : checkPassword name (some p) = .ok isPass) (m : MatchaLoginModule ο) :
    (login checkPassword ⟨name, some p, none⟩).run m =
      .ok isPass { m with
        entity := if isPass then some ⟨name⟩ else m.entity
        inputPassword := some (fillBlank p)
        password := some (fillBlank p) } := by
  cases isPass <;> simp [login, h]

/-- `login` leaves the subject alone, and remembers a principal only if the password was
right. -/
lemma login_cases (checkPassword) (handled : Handled) (m : MatchaLoginModule ο) :
    (∃ m', (login checkPassword handled).run m = .ok true m' ∧
        m'.principals = m.principals ∧ m'.entity = some ⟨handled.name⟩) ∨
      ∃ m', ((login checkPassword handled).run m = .ok false m' ∨
          ∃ e, (login checkPassword handled).run m = .error e m') ∧
        m'.principals = m.principals ∧ m'.entity = m.entity := by
  obtain ⟨name, password, failure⟩ := handled
  cases failure with
  | some e => cases e <;> exact .inr ⟨_, .inr ⟨_, rfl⟩, rfl, rfl⟩
  | none =>
      cases hcheck : checkPassword name password with
      | error e => exact .inr ⟨_, .inr ⟨e, login_run_error hcheck m⟩, rfl, rfl⟩
      | ok isPass =>
          cases password with
          | none => exact .inr ⟨_, .inr ⟨_, login_run_null hcheck m⟩, rfl, rfl⟩
          | some p =>
              cases isPass with
              | false => exact .inr ⟨_, .inl (login_run_ok hcheck m), rfl, rfl⟩
              | true => exact .inl ⟨_, login_run_ok hcheck m, rfl, rfl⟩

end Login

/-- The principal `login` remembered is given to the subject, and forgotten. -/
lemma commit_after_some {p : MatchaPrincipal} (hentity : m.entity = some p)
    (h : Principal.matcha p ∉ m.principals) :
    commit.after m = { m with principals := m.principals ++ [.matcha p], entity := none } := by
  apply after_of_run (a := true)
  simp [commit, hentity, addPrincipal_run h]

omit [DecidableEq ο] in
/-- Without one, `commit` throws and changes nothing. -/
lemma commit_after_none (hentity : m.entity = none) : commit.after m = m := by
  apply after_of_throw (e := .securityException)
  simp [commit, hentity, addPrincipal_null]

/-- `abort` forgets a principal that the subject does not have. -/
lemma abort_after (h : ∀ p, m.entity = some p → Principal.matcha p ∉ m.principals) :
    abort.after m = { m with entity := none } := by
  apply after_of_run (a := true)
  simp [abort, removePrincipal_run h]

/-- `logout` is written like `abort`. -/
lemma logout_eq_abort : (logout : Method (MatchaLoginModule ο) Bool) = abort := rfl

end MatchaLoginModule

end LearnJava
