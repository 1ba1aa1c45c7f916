import Mathlib.FieldTheory.Finite.Basic
import Mathlib.Tactic

/-!
# RSA

With the exponents of a key, `m ↦ m ^ e % n` is undone by `c ↦ c ^ d % n` (`decrypt_encrypt`): by
Fermat's little theorem modulo each of the two primes, and so modulo their product.  Encryption is
therefore a bijection of the numbers below `n`.
-/

namespace LearnJava

/-- A pair of keys. -/
structure RsaKey where
  p : ℕ
  q : ℕ
  /-- The public exponent. -/
  e : ℕ
  /-- The private exponent. -/
  d : ℕ
  prime_p : p.Prime
  prime_q : q.Prime
  ne : p ≠ q
  inverse_p : e * d ≡ 1 [MOD p - 1]
  inverse_q : e * d ≡ 1 [MOD q - 1]

/-- A power whose exponent is 1 modulo `p - 1`. -/
lemma pow_modEq_self {p k : ℕ} (hp : p.Prime) (hpos : 0 < k) (hk : k ≡ 1 [MOD p - 1]) (m : ℕ) :
    m ^ k ≡ m [MOD p] := by
  by_cases hm : m.Coprime p
  · obtain ⟨j, rfl⟩ : ∃ j, k = (p - 1) * j + 1 := by
      obtain ⟨j, hj⟩ := (Nat.modEq_iff_dvd' hpos).mp hk.symm
      exact ⟨j, by omega⟩
    have hfermat := (Nat.ModEq.pow_card_sub_one_eq_one hp hm).pow j
    rw [one_pow, ← pow_mul] at hfermat
    calc m ^ ((p - 1) * j + 1) = m ^ ((p - 1) * j) * m := pow_succ _ _
      _ ≡ 1 * m [MOD p] := hfermat.mul_right m
      _ = m := one_mul m
  · have hdvd : p ∣ m := by
      rwa [Nat.coprime_comm, hp.coprime_iff_not_dvd, not_not] at hm
    have hzero : m ≡ 0 [MOD p] := (Nat.modEq_zero_iff_dvd).mpr hdvd
    calc m ^ k ≡ 0 ^ k [MOD p] := hzero.pow k
      _ = 0 := zero_pow hpos.ne'
      _ ≡ m [MOD p] := hzero.symm

namespace RsaKey

variable (key : RsaKey)

def modulus : ℕ := key.p * key.q

def encrypt (m : ℕ) : ℕ := m ^ key.e % key.modulus

def decrypt (c : ℕ) : ℕ := c ^ key.d % key.modulus

lemma modulus_pos : 0 < key.modulus := Nat.mul_pos key.prime_p.pos key.prime_q.pos

/-- The two primes are not both 2. -/
lemma exponents_pos : 0 < key.e * key.d := by
  by_contra hzero
  have heq : key.e * key.d = 0 := Nat.eq_zero_of_not_pos hzero
  have htwo : ∀ r : ℕ, r.Prime → key.e * key.d ≡ 1 [MOD r - 1] → r = 2 := by
    intro r hr h
    rw [heq] at h
    have hdvd : r - 1 ∣ 1 := (Nat.modEq_zero_iff_dvd).mp h.symm
    have hle := Nat.le_of_dvd one_pos hdvd
    have hge := hr.two_le
    omega
  exact key.ne ((htwo _ key.prime_p key.inverse_p).trans (htwo _ key.prime_q key.inverse_q).symm)

lemma pow_modEq (m : ℕ) : m ^ (key.e * key.d) ≡ m [MOD key.modulus] := by
  have hcoprime : key.p.Coprime key.q := (Nat.coprime_primes key.prime_p key.prime_q).mpr key.ne
  refine (Nat.modEq_and_modEq_iff_modEq_mul hcoprime).mp ⟨?_, ?_⟩
  · exact pow_modEq_self key.prime_p key.exponents_pos key.inverse_p m
  · exact pow_modEq_self key.prime_q key.exponents_pos key.inverse_q m

/-- The pair the other way round. -/
def swap : RsaKey where
  p := key.p
  q := key.q
  e := key.d
  d := key.e
  prime_p := key.prime_p
  prime_q := key.prime_q
  ne := key.ne
  inverse_p := by rw [mul_comm]; exact key.inverse_p
  inverse_q := by rw [mul_comm]; exact key.inverse_q

/-- **Decryption undoes encryption.** -/
theorem decrypt_encrypt {m : ℕ} (hm : m < key.modulus) : key.decrypt (key.encrypt m) = m := by
  have hpow : (m ^ key.e % key.modulus) ^ key.d ≡ m [MOD key.modulus] :=
    calc (m ^ key.e % key.modulus) ^ key.d ≡ (m ^ key.e) ^ key.d [MOD key.modulus] :=
          (Nat.mod_modEq _ _).pow _
      _ = m ^ (key.e * key.d) := (pow_mul _ _ _).symm
      _ ≡ m [MOD key.modulus] := key.pow_modEq m
  rw [decrypt, encrypt, hpow, Nat.mod_eq_of_lt hm]

/-- **Encryption is a bijection** of the numbers below the modulus. -/
theorem bijOn_encrypt : Set.BijOn key.encrypt (Set.Iio key.modulus) (Set.Iio key.modulus) := by
  have hmaps : ∀ m, key.encrypt m ∈ Set.Iio key.modulus := fun m =>
    Nat.mod_lt _ key.modulus_pos
  have hinv : Set.InvOn key.decrypt key.encrypt (Set.Iio key.modulus) (Set.Iio key.modulus) := by
    constructor
    · intro m hm
      exact key.decrypt_encrypt hm
    · intro c hc
      exact key.swap.decrypt_encrypt hc
  apply hinv.bijOn fun m _ => hmaps m
  intro c _
  exact Nat.mod_lt _ key.modulus_pos

end RsaKey

end LearnJava
