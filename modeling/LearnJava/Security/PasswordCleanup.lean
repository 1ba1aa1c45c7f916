import LearnJava.Security.LoginLifeCycle
import LearnJava.Security.UserPasswordDB

/-!
# Cleaning up after `login`

`login` overwrites the two arrays with the password after `checkPassword` has returned, and not in a
`finally` block.  `leavesClean_iff` shows that this, and not a wrong password by itself, is what
goes wrong: an exception of the check, such as the one the cipher throws for a password longer than
its block, goes through `login` and leaves both arrays as they were.
-/

namespace LearnJava

/-- A `checkPassword` method: it declares no checked exceptions. -/
structure PasswordCheck where
  checkPassword : Option String → Option (List CodeUnit) → Except Throwable Bool
  isUnchecked : ∀ userName password e,
    checkPassword userName password = .error e → e.isUnchecked = true

/-- The method of `UserPasswordDB`. -/
def UserPasswordDB.passwordCheck (d : UserPasswordDB) : PasswordCheck where
  checkPassword := d.checkPassword
  isUnchecked userName password e h := by
    unfold checkPassword at h
    cases hdb : d.db userName with
    | none =>
        rw [hdb] at h
        cases h
    | some shouldPassword =>
        rw [hdb] at h
        cases hencoded : encodePassword d.enCipher password with
        | ok bytes =>
            rw [hencoded] at h
            cases h
        | error e' =>
            rw [hencoded] at h
            obtain rfl : e' = e := Except.error.inj h
            exact isUnchecked_of_encodePassword hencoded

namespace MatchaLoginModule

variable {ο : Type}

/-- `login` with a handler that delivers a name and a password. -/
def loginWith (check : PasswordCheck) (name : Option String) (password : Option (List CodeUnit)) :
    Method (MatchaLoginModule ο) Bool :=
  login check.checkPassword ⟨name, password, none⟩

/-- How `login` should leave the module, however it ends. -/
structure LeavesClean (check : PasswordCheck) (name : Option String)
    (password : Option (List CodeUnit)) (m : MatchaLoginModule ο) : Prop where
  clears_copy : ((loginWith check name password).after m).inputPassword = password.map fillBlank
  clears_password : ((loginWith check name password).after m).password = password.map fillBlank
  entity : ((loginWith check name password).after m).entity ≠ none →
    check.checkPassword name password = .ok true
  refuses : check.checkPassword name password ≠ .ok true →
    (∃ m', (loginWith check name password).run m = .ok false m') ∨
      ∃ message m', (loginWith check name password).run m = .error (.loginException message) m'

section Outcomes

variable {check : PasswordCheck} {name : Option String} {password : Option (List CodeUnit)}
  {m : MatchaLoginModule ο}

/-- An unchecked exception is not what a refusal may end with. -/
lemma not_leavesClean_of_throw {e : Throwable} {m' : MatchaLoginModule ο}
    (hcheck : check.checkPassword name password ≠ .ok true)
    (hrun : (loginWith check name password).run m = .error e m') (he : e.isUnchecked = true) :
    ¬LeavesClean check name password m := by
  intro h
  obtain ⟨m₁, hrefused⟩ | ⟨message, m₁, hrefused⟩ := h.refuses hcheck
  · rw [hrun] at hrefused
    cases hrefused
  · rw [hrun] at hrefused
    obtain ⟨rfl, -⟩ := EStateM.Result.error.inj hrefused
    cases he

/-- A check that returns lets `login` go on to overwrite the arrays. -/
lemma leavesClean_of_ok {p : List CodeUnit} {isPass : Bool}
    (hcheck : check.checkPassword name (some p) = .ok isPass) :
    LeavesClean check name (some p) m ↔ isPass = true ∨ m.entity = none := by
  have hrun := login_run_ok hcheck m
  have hafter := after_of_run hrun
  constructor
  · intro h
    cases isPass with
    | true => exact .inl rfl
    | false =>
        refine .inr (by_contra fun hentity => ?_)
        have hright := h.entity (by rw [loginWith, hafter]; exact hentity)
        rw [hcheck] at hright
        cases hright
  · intro h
    refine ⟨by rw [loginWith, hafter]; rfl, by rw [loginWith, hafter]; rfl, ?_, ?_⟩
    · intro hentity
      rw [loginWith, hafter] at hentity
      cases isPass with
      | true => exact hcheck
      | false => exact absurd (h.resolve_left Bool.false_ne_true) hentity
    · intro hwrong
      cases isPass with
      | true => exact absurd hcheck hwrong
      | false => exact .inl ⟨_, hrun⟩

/-- Without an array, only a check that is right is clean. -/
lemma leavesClean_of_null {isPass : Bool} (hcheck : check.checkPassword name none = .ok isPass) :
    LeavesClean check name none m ↔ isPass = true := by
  have hrun := login_run_null hcheck m
  have hafter := after_of_throw hrun
  constructor
  · intro h
    by_contra hwrong
    refine not_leavesClean_of_throw ?_ hrun rfl h
    rw [hcheck]
    exact fun heq => hwrong (Except.ok.inj heq)
  · rintro rfl
    exact ⟨by rw [loginWith, hafter]; rfl, by rw [loginWith, hafter]; rfl, fun _ => hcheck,
      fun hwrong => absurd hcheck hwrong⟩

end Outcomes

/-! ## Every exit -/

/-- **Nothing is left behind** exactly if the check returns, and finds the password right or finds
it wrong while no principal was remembered and there is an array to overwrite: for every name and
password, every outcome of the check and every state of the module. -/
theorem leavesClean_iff (check : PasswordCheck) (name : Option String)
    (password : Option (List CodeUnit)) (m : MatchaLoginModule ο) :
    LeavesClean check name password m ↔ check.checkPassword name password = .ok true ∨
      check.checkPassword name password = .ok false ∧ m.entity = none ∧ password ≠ none := by
  cases hcheck : check.checkPassword name password with
  | error e =>
      refine iff_of_false ?_ (by simp)
      refine not_leavesClean_of_throw ?_ (login_run_error hcheck m) (check.isUnchecked _ _ _ hcheck)
      rw [hcheck]
      simp
  | ok isPass =>
      cases password with
      | none => rw [leavesClean_of_null hcheck]; simp
      | some p => rw [leavesClean_of_ok hcheck]; cases isPass <;> simp

open UserPasswordDB in
/-- A password that is too long for a key of 128 bits. -/
theorem overlongPassword_escapes :
    ∃ d m', new keyCipher = .ok d ∧
      (loginWith d.passwordCheck (some "user") (some (toCharArray (text "incorrect")))).run
          freshModule.fields = .error .arrayIndexOutOfBoundsException m' ∧
      m'.password = some (toCharArray (text "incorrect")) ∧
      ¬LeavesClean d.passwordCheck (some "user") (some (toCharArray (text "incorrect")))
        freshModule.fields := by
  obtain ⟨d, hnew⟩ := exists_new_keyCipher
  obtain ⟨should, hcheck⟩ :=
    checkPassword_registered hnew registered_user (some (toCharArray (text "incorrect")))
  rw [encodePassword_keyCipher_error (by decide) (by decide), Except.map] at hcheck
  have hrun := login_run_error hcheck freshModule.fields
  refine ⟨d, _, hnew, hrun, rfl, not_leavesClean_of_throw (fun hright => ?_) hrun rfl⟩
  have hok := hcheck.symm.trans hright
  cases hok

end MatchaLoginModule

end LearnJava
