import LearnJava.Java.Cipher
import LearnJava.Java.Text
import Mathlib.NumberTheory.LucasPrimality

/-!
# `UserPasswordDB`

The users of `security/context/login/db/UserPasswordDB.java`.  The password of a user is encrypted
when the user is registered; a password that is checked is encrypted in the same way and the results
are compared.

The cipher has no padding: the two bytes of each `char` are one number for it, in which NUL
characters in front make no difference.  `checkPassword_iff` shows that the passwords it wrongly
accepts are those and no others.
-/

namespace LearnJava

/-- The fields `db` and `enCipher`. -/
structure UserPasswordDB where
  db : Option String → Option (List Byte)
  enCipher : RawRsa

namespace UserPasswordDB

/-- The `catch` block of `encodePassword`. -/
def rethrow {α : Type} : Throwable → Except Throwable α
  | .badPaddingException => .error (.runtimeException .badPaddingException)
  | .illegalBlockSizeException => .error (.runtimeException .illegalBlockSizeException)
  | e => .error e

def encodePassword (enCipher : RawRsa) (password : Option (List CodeUnit)) :
    Except Throwable (List Byte) :=
  tryCatch
    (do
      let password ← deref password
      let input ← ByteBuffer.allocateInt (wrap32 (password.length * 2))
      let input ← password.foldlM ByteBuffer.putChar input
      let input := input.flip
      let (passwordBytes, _) ← input.get input.remaining
      enCipher.doFinal passwordBytes)
    rethrow

def checkPassword (d : UserPasswordDB) (userName : Option String)
    (password : Option (List CodeUnit)) : Except Throwable Bool := do
  match d.db userName with
  | none => return false
  | some shouldPassword =>
    let passwordBytes ← encodePassword d.enCipher password
    return shouldPassword == passwordBytes

/-- `db.put(userName, passwordBytes)` -/
def put (d : UserPasswordDB) (userName : String) (passwordBytes : List Byte) : UserPasswordDB :=
  { d with db := Function.update d.db (some userName) (some passwordBytes) }

def initData (d : UserPasswordDB) : Except Throwable UserPasswordDB := do
  let d := d.put "user" (← encodePassword d.enCipher (some (toCharArray (text "kduser"))))
  let d := d.put "administrator"
    (← encodePassword d.enCipher (some (toCharArray (text "kdadmin"))))
  return d.put "test" (← encodePassword d.enCipher (some (toCharArray (text "123"))))

/-- The constructor, with the cipher that `initCipher` makes. -/
def new (enCipher : RawRsa) : Except Throwable UserPasswordDB := initData ⟨fun _ => none, enCipher⟩

/-! ## Who may log in -/

/-- The password a user was registered with. -/
def registered (userName : Option String) : Option (List CodeUnit) :=
  if userName = some "test" then some (toCharArray (text "123"))
  else if userName = some "administrator" then some (toCharArray (text "kdadmin"))
  else if userName = some "user" then some (toCharArray (text "kduser"))
  else none

/-- The user is registered, and with this password. -/
def IsPasswordOf (userName : Option String) (password : Option (List CodeUnit)) : Prop :=
  ∃ pw, registered userName = some pw ∧ password = some pw

/-- The password is the user's with NUL characters in front. -/
def IsPaddedPasswordOf (userName : Option String) (password : Option (List CodeUnit)) : Prop :=
  ∃ pw k, registered userName = some pw ∧ password = some (List.replicate (k + 1) 0 ++ pw)

/-! ## Encoding -/

section Encoding

variable {c : RawRsa} {cs : List CodeUnit} {password : Option (List CodeUnit)}
  {bytes bytes' : List Byte}

/-- What is read again from a new buffer after the `char`s have been put. -/
def throughBuffer (capacity : ℤ) (cs : List CodeUnit) : Except Throwable (List Byte) := do
  let input ← ByteBuffer.allocateInt capacity
  let input ← cs.foldlM ByteBuffer.putChar input
  return (← input.flip.get input.flip.remaining).1

lemma encodePassword_some (c : RawRsa) (cs : List CodeUnit) :
    encodePassword c (some cs) =
      tryCatch (throughBuffer (wrap32 (cs.length * 2)) cs >>= c.doFinal) rethrow := by
  rw [encodePassword, deref_some_bind]
  simp only [throughBuffer, bind_assoc, pure_bind]

lemma flip_get_of_putChar {cs : List CodeUnit} {capacity : ℕ} {b : ByteBuffer}
    (h : cs.foldlM ByteBuffer.putChar (ByteBuffer.allocate capacity) = .ok b) :
    ∃ b', b.flip.get b.flip.remaining = .ok (cs.flatMap charBytes, b') := by
  have hwritten : b.written = cs.flatMap charBytes := by
    rw [ByteBuffer.written_of_foldlM_putChar h, ByteBuffer.written_allocate, List.nil_append]
  obtain ⟨b', hget, -⟩ := b.flip_get
  exact ⟨b', hwritten ▸ hget⟩

/-- The bytes of the `char`s, unless an unchecked exception is thrown. -/
lemma throughBuffer_cases (capacity : ℤ) (cs : List CodeUnit) :
    throughBuffer capacity cs = .ok (cs.flatMap charBytes) ∨
      ∃ e, throughBuffer capacity cs = .error e ∧ e.isUnchecked = true := by
  rw [throughBuffer, ByteBuffer.allocateInt]
  split_ifs with hcapacity
  · exact .inr ⟨.illegalArgumentException, rfl, rfl⟩
  · cases hput : cs.foldlM ByteBuffer.putChar (ByteBuffer.allocate capacity.toNat) with
    | error e =>
        obtain rfl := ByteBuffer.error_of_foldlM_putChar hput
        refine .inr ⟨.bufferOverflowException, ?_, rfl⟩
        simp only [bind, Except.bind, hput]
    | ok b =>
        obtain ⟨b', hget⟩ := flip_get_of_putChar hput
        apply Or.inl
        simp only [bind, Except.bind, hput, hget, pure, Except.pure]

/-- With room for them nothing is thrown. -/
lemma throughBuffer_ok {capacity : ℕ} (h : cs.length * 2 ≤ capacity) :
    throughBuffer capacity cs = .ok (cs.flatMap charBytes) := by
  have hroom : 2 * cs.length ≤ (ByteBuffer.allocate capacity).remaining := by
    rw [mul_comm]
    exact h
  obtain ⟨b, hput, -⟩ := ByteBuffer.foldlM_putChar_written hroom
  obtain ⟨b', hget⟩ := flip_get_of_putChar hput
  rw [throughBuffer, ByteBuffer.allocateInt, if_neg (Int.natCast_nonneg capacity).not_gt,
    Int.toNat_natCast]
  simp only [bind, Except.bind, hput, hget, pure, Except.pure]

lemma rethrow_unchecked {e : Throwable}
    (h : e.isUnchecked = true ∨ e = .badPaddingException ∨ e = .illegalBlockSizeException) :
    ∃ e', (rethrow e : Except Throwable (List Byte)) = .error e' ∧ e'.isUnchecked = true := by
  rcases h with h | rfl | rfl
  · refine ⟨e, ?_, h⟩
    cases e <;> first | rfl | cases h
  · exact ⟨_, rfl, rfl⟩
  · exact ⟨_, rfl, rfl⟩

/-- **An encoded password has gone through the cipher**, and all else that happens is an unchecked
exception. -/
lemma encodePassword_cases (c : RawRsa) (password : Option (List CodeUnit)) :
    (∃ cs bytes, password = some cs ∧ c.doFinal (cs.flatMap charBytes) = .ok bytes ∧
        encodePassword c password = .ok bytes) ∨
      ∃ e, encodePassword c password = .error e ∧ e.isUnchecked = true := by
  cases password with
  | none => exact .inr ⟨.nullPointerException, rfl, rfl⟩
  | some cs =>
      rw [encodePassword_some]
      rcases throughBuffer_cases (wrap32 (cs.length * 2)) cs with hok | ⟨e, herror, he⟩
      · rw [hok]
        cases hfinal : c.doFinal (cs.flatMap charBytes) with
        | ok bytes =>
            refine .inl ⟨cs, bytes, rfl, hfinal, ?_⟩
            simp only [bind, Except.bind, hfinal]
            rfl
        | error e =>
            obtain ⟨e', hrethrow, he'⟩ := rethrow_unchecked (c.declared _ e hfinal)
            refine .inr ⟨e', ?_, he'⟩
            simp only [bind, Except.bind, hfinal]
            exact hrethrow
      · obtain ⟨e', hrethrow, he'⟩ := rethrow_unchecked (.inl he)
        exact .inr ⟨e', by rw [herror]; exact hrethrow, he'⟩

lemma doFinal_of_encodePassword (h : encodePassword c (some cs) = .ok bytes) :
    c.doFinal (cs.flatMap charBytes) = .ok bytes := by
  obtain ⟨cs', bytes', hcs, hfinal, hok⟩ | ⟨e, herror, -⟩ := encodePassword_cases c (some cs)
  · obtain rfl := Option.some.inj hcs
    obtain rfl : bytes' = bytes := Except.ok.inj (hok.symm.trans h)
    exact hfinal
  · rw [h] at herror
    cases herror

lemma isUnchecked_of_encodePassword {e : Throwable} (h : encodePassword c password = .error e) :
    e.isUnchecked = true := by
  obtain ⟨cs, bytes, -, -, hok⟩ | ⟨e', herror, he'⟩ := encodePassword_cases c password
  · rw [h] at hok
    cases hok
  · obtain rfl : e' = e := Except.error.inj (herror.symm.trans h)
    exact he'

/-- The result for a password that fits into a buffer is the cipher's. -/
lemma encodePassword_short (c : RawRsa) (h : cs.length < 2 ^ 30) :
    encodePassword c (some cs) = tryCatch (c.doFinal (cs.flatMap charBytes)) rethrow := by
  have hwrap : wrap32 (cs.length * 2) = (cs.length * 2 : ℕ) := by
    rw [Nat.cast_mul]
    exact wrap32_of_range (by omega) (by omega)
  rw [encodePassword_some, hwrap, throughBuffer_ok le_rfl]
  rfl

/-- If the one password has no NUL character in front, then the other one is encoded to the same
bytes exactly if it is the same behind NUL characters. -/
lemma encodePassword_eq_iff {cs' : List CodeUnit} (h : encodePassword c (some cs) = .ok bytes)
    (h' : encodePassword c (some cs') = .ok bytes') (hcs' : cs'.head? ≠ some 0) :
    bytes' = bytes ↔ ∃ k, cs = List.replicate k 0 ++ cs' := by
  rw [c.output_eq_iff (doFinal_of_encodePassword h') (doFinal_of_encodePassword h)]
  constructor
  · intro heq
    rcases le_total cs'.length cs.length with hle | hle
    · exact ⟨_, (unsigned_flatMap_charBytes_eq_iff hle).mp heq.symm⟩
    · have hpadded := (unsigned_flatMap_charBytes_eq_iff hle).mp heq
      cases hk : cs'.length - cs.length with
      | zero =>
          rw [hk] at hpadded
          exact ⟨0, hpadded.symm⟩
      | succ k =>
          rw [hk, List.replicate_succ] at hpadded
          rw [hpadded] at hcs'
          exact absurd rfl hcs'
  · rintro ⟨k, rfl⟩
    exact (unsigned_replicate_append k cs').symm

end Encoding

/-! ## The registered users -/

section Registered

variable {c : RawRsa} {d : UserPasswordDB} {r : Option String → Option (List CodeUnit)}

/-- The map has for each user the encoded password that `r` says. -/
def Stores (d : UserPasswordDB) (r : Option String → Option (List CodeUnit)) : Prop :=
  ∀ userName, (d.db userName).map Except.ok =
    (r userName).map fun pw => encodePassword d.enCipher (some pw)

lemma stores_put (userName : String) {pw : List CodeUnit} {bytes : List Byte} (h : Stores d r)
    (hbytes : encodePassword d.enCipher (some pw) = .ok bytes) :
    Stores (d.put userName bytes) (Function.update r (some userName) (some pw)) := by
  intro name
  change (Function.update d.db (some userName) (some bytes) name).map Except.ok =
    Option.map (fun pw => encodePassword d.enCipher (some pw)) _
  rw [Function.update_apply, Function.update_apply]
  split_ifs
  · exact congrArg some hbytes.symm
  · exact h name

/-- The constructor registers the users. -/
lemma stores_new (h : new c = .ok d) : d.enCipher = c ∧ Stores d registered := by
  obtain ⟨user, huser, h⟩ := exists_of_bind_ok h
  obtain ⟨administrator, hadministrator, h⟩ := exists_of_bind_ok h
  obtain ⟨test, htest, h⟩ := exists_of_bind_ok h
  obtain rfl := Except.ok.inj h
  refine ⟨rfl, ?_⟩
  have hempty : Stores ⟨fun _ => none, c⟩ fun _ => none := fun _ => rfl
  have huser := stores_put "user" hempty huser
  have hadministrator := stores_put "administrator" huser hadministrator
  have hstores := stores_put "test" hadministrator htest
  convert hstores using 1
  funext userName
  simp only [registered, Function.update_apply]

lemma registered_user : registered (some "user") = some (toCharArray (text "kduser")) := by
  simp [registered]

lemma registered_head {userName : Option String} {pw : List CodeUnit}
    (h : registered userName = some pw) : pw.head? ≠ some 0 := by
  unfold registered at h
  split_ifs at h <;>
    obtain rfl := Option.some.inj h <;>
    decide

/-- What is accepted of a user is the password, also behind NUL characters. -/
lemma eq_true_iff_of_checkPassword {userName : Option String} {password : Option (List CodeUnit)}
    {r : Bool} (hnew : new c = .ok d) (hrun : d.checkPassword userName password = .ok r) :
    r = true ↔ IsPasswordOf userName password ∨ IsPaddedPasswordOf userName password := by
  obtain ⟨-, hstores⟩ := stores_new hnew
  have huser := hstores userName
  unfold checkPassword at hrun
  unfold IsPasswordOf IsPaddedPasswordOf
  cases hregistered : registered userName with
  | none =>
      rw [hregistered, Option.map_none, Option.map_eq_none_iff] at huser
      rw [huser] at hrun
      obtain rfl := Except.ok.inj hrun
      simp
  | some pw =>
      rw [hregistered, Option.map_some, Option.map_eq_some_iff] at huser
      obtain ⟨bytes, hbytes, hencoded⟩ := huser
      rw [hbytes] at hrun
      obtain ⟨bytes', hencoded', hr⟩ := exists_of_bind_ok hrun
      obtain rfl := Except.ok.inj hr
      cases password with
      | none => cases hencoded'
      | some cs =>
          rw [beq_iff_eq,
            encodePassword_eq_iff hencoded' hencoded.symm (registered_head hregistered)]
          constructor
          · rintro ⟨k, rfl⟩
            cases k with
            | zero => exact .inl ⟨pw, rfl, rfl⟩
            | succ k => exact .inr ⟨pw, k, rfl, rfl⟩
          · rintro (⟨pw', hpw', hcs⟩ | ⟨pw', k, hpw', hcs⟩)
            · obtain rfl := Option.some.inj hpw'
              exact ⟨0, Option.some.inj hcs⟩
            · obtain rfl := Option.some.inj hpw'
              exact ⟨k + 1, Option.some.inj hcs⟩

/-- What becomes of the check of a registered user is what becomes of encoding the password. -/
lemma checkPassword_registered {userName : Option String} {pw : List CodeUnit}
    (hnew : new c = .ok d) (hpw : registered userName = some pw)
    (password : Option (List CodeUnit)) :
    ∃ should, d.checkPassword userName password =
      (encodePassword c password).map (should == ·) := by
  obtain ⟨rfl, hstores⟩ := stores_new hnew
  have huser := hstores userName
  rw [hpw, Option.map_some, Option.map_eq_some_iff] at huser
  obtain ⟨should, hshould, -⟩ := huser
  refine ⟨should, ?_⟩
  rw [checkPassword, hshould]
  rfl

lemma not_padded_of_isPasswordOf {userName : Option String} {password : Option (List CodeUnit)}
    (h : IsPasswordOf userName password) : ¬IsPaddedPasswordOf userName password := by
  obtain ⟨pw, hpw, rfl⟩ := h
  rintro ⟨pw', k, hpw', heq⟩
  obtain rfl := Option.some.inj (hpw.symm.trans hpw')
  have hlength := congrArg List.length (Option.some.inj heq)
  simp at hlength

end Registered

/-! ## A key of 128 bits -/

section Key

/-- Lucas's test for a prime above a power of two. -/
lemma prime_of_lucas {k r : ℕ} (hr : r.Prime) (a : ZMod (2 ^ k * r + 1))
    (ha : a ^ (2 ^ k * r) = 1) (htwo : a ^ (2 ^ k * r / 2) ≠ 1) (hodd : a ^ (2 ^ k * r / r) ≠ 1) :
    (2 ^ k * r + 1).Prime := by
  refine lucas_primality _ a ha fun q hq hdvd => ?_
  rw [Nat.add_sub_cancel, hq.dvd_mul] at hdvd
  rcases hdvd with h | h
  · obtain rfl := (Nat.prime_dvd_prime_iff_eq hq Nat.prime_two).mp (hq.dvd_of_dvd_pow h)
    exact htwo
  · obtain rfl := (Nat.prime_dvd_prime_iff_eq hq hr).mp h
    exact hodd

/-- A key as `initKeyAndKeyFile` generates it. -/
def key : RsaKey where
  p := 2 ^ 38 * 57847219 + 1
  q := 2 ^ 39 * 26993249 + 1
  e := 65537
  d := 59519495614129702378078209
  prime_p := prime_of_lucas (by norm_num) 3 (by norm_num; reduce_mod_char)
    (by norm_num; reduce_mod_char; decide) (by norm_num; reduce_mod_char; decide)
  prime_q := prime_of_lucas (by norm_num) 3 (by norm_num; reduce_mod_char)
    (by norm_num; reduce_mod_char; decide) (by norm_num; reduce_mod_char; decide)
  ne := by norm_num
  inverse_p := by decide
  inverse_q := by decide

lemma modulus_key_le : key.modulus ≤ (2 ^ 8) ^ 16 := by
  norm_num [RsaKey.modulus, key]

/-- Its cipher. -/
def keyCipher : RawRsa := key.cipher 16 modulus_key_le

/-- Seven `char`s are always below the modulus. -/
lemma encodePassword_keyCipher (cs : List CodeUnit) (h : cs.length ≤ 7) :
    ∃ bytes, encodePassword keyCipher (some cs) = .ok bytes := by
  have hlength : (cs.flatMap charBytes).length = 2 * cs.length := by
    simp [List.length_flatMap, mul_comm]
  have hlt : unsigned (cs.flatMap charBytes) < key.modulus :=
    calc unsigned (cs.flatMap charBytes) < (2 ^ 8) ^ (cs.flatMap charBytes).length := unsigned_lt _
      _ ≤ (2 ^ 8) ^ 14 := Nat.pow_le_pow_right (by norm_num) (by omega)
      _ ≤ key.modulus := by norm_num [RsaKey.modulus, key]
  rw [encodePassword_short _ (by omega), keyCipher,
    key.cipher_doFinal modulus_key_le (by omega) hlt]
  exact ⟨_, rfl⟩

/-- Nine `char`s are more bytes than the modulus has. -/
lemma encodePassword_keyCipher_error {cs : List CodeUnit} (h : 9 ≤ cs.length)
    (hshort : cs.length < 2 ^ 30) :
    encodePassword keyCipher (some cs) = .error .arrayIndexOutOfBoundsException := by
  have hlength : (cs.flatMap charBytes).length = 2 * cs.length := by
    simp [List.length_flatMap, mul_comm]
  rw [encodePassword_short _ hshort, keyCipher, key.cipher_doFinal_error modulus_key_le (by omega)]
  rfl

lemma exists_new_keyCipher : ∃ d, new keyCipher = .ok d := by
  obtain ⟨user, huser⟩ := encodePassword_keyCipher (toCharArray (text "kduser")) (by decide)
  obtain ⟨administrator, hadministrator⟩ :=
    encodePassword_keyCipher (toCharArray (text "kdadmin")) (by decide)
  obtain ⟨test, htest⟩ := encodePassword_keyCipher (toCharArray (text "123")) (by decide)
  refine ⟨(((⟨fun _ => none, keyCipher⟩ : UserPasswordDB).put "user" user).put "administrator"
    administrator).put "test" test, ?_⟩
  simp only [new, initData, put, huser, hadministrator, htest, bind, Except.bind, pure, Except.pure]

end Key

/-! ## The password check -/

/-- **The password check** is right about a password exactly if it is not the user's with NUL
characters in front: for every cipher, every user name and every password for which it returns. -/
theorem checkPassword_iff {c : RawRsa} {d : UserPasswordDB} (hnew : new c = .ok d)
    {userName : Option String} {password : Option (List CodeUnit)} {r : Bool}
    (hrun : d.checkPassword userName password = .ok r) :
    (r = true ↔ IsPasswordOf userName password) ↔ ¬IsPaddedPasswordOf userName password := by
  rw [eq_true_iff_of_checkPassword hnew hrun]
  constructor
  · intro h hpadded
    exact not_padded_of_isPasswordOf (h.mp (.inr hpadded)) hpadded
  · intro h
    exact or_iff_left h

/-- The user's own password. -/
theorem checkPassword_iff_kduser :
    ∃ d r, new keyCipher = .ok d ∧
      d.checkPassword (some "user") (some (toCharArray (text "kduser"))) = .ok r ∧
      ((r = true ↔ IsPasswordOf (some "user") (some (toCharArray (text "kduser")))) ↔
        ¬IsPaddedPasswordOf (some "user") (some (toCharArray (text "kduser")))) := by
  obtain ⟨d, hnew⟩ := exists_new_keyCipher
  obtain ⟨bytes, hbytes⟩ := encodePassword_keyCipher (toCharArray (text "kduser")) (by decide)
  obtain ⟨should, hrun⟩ :=
    checkPassword_registered hnew registered_user (some (toCharArray (text "kduser")))
  rw [hbytes] at hrun
  exact ⟨d, should == bytes, hnew, hrun, checkPassword_iff hnew hrun⟩

/-- With a NUL character in front of it, the password is accepted as well. -/
theorem nulKduser_accepted :
    ∃ d, new keyCipher = .ok d ∧
      d.checkPassword (some "user") (some (0 :: toCharArray (text "kduser"))) = .ok true ∧
      ¬IsPasswordOf (some "user") (some (0 :: toCharArray (text "kduser"))) := by
  obtain ⟨d, hnew⟩ := exists_new_keyCipher
  obtain ⟨bytes, hbytes⟩ :=
    encodePassword_keyCipher (0 :: toCharArray (text "kduser")) (by decide)
  obtain ⟨should, hrun⟩ :=
    checkPassword_registered hnew registered_user (some (0 :: toCharArray (text "kduser")))
  rw [hbytes, Except.map] at hrun
  have hpadded : IsPaddedPasswordOf (some "user") (some (0 :: toCharArray (text "kduser"))) :=
    ⟨_, 0, registered_user, rfl⟩
  have haccepted := (eq_true_iff_of_checkPassword hnew hrun).mpr (.inr hpadded)
  rw [haccepted] at hrun
  exact ⟨d, hnew, hrun, fun h => not_padded_of_isPasswordOf h hpadded⟩

end UserPasswordDB

end LearnJava
