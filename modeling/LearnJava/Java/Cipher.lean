import LearnJava.Foundation.BigEndian
import LearnJava.Foundation.Rsa
import LearnJava.Java.ByteBuffer

/-!
# The cipher `"RSA"` of the provider `"BC"`

`doFinal` reads the whole input as one unsigned number, without padding.  What is relied on of it is
the structure `RawRsa`: an input that is not refused is a number below the modulus, its power is
taken modulo the modulus, and the output determines the power.  `RsaKey.cipher` is the cipher of a
key.
-/

namespace LearnJava

/-- `new BigInteger(1, bytes)` -/
def unsigned (bytes : List Byte) : ℕ := bigEndian (2 ^ 8) (bytes.map UInt8.toNat)

lemma digits_lt (bytes : List Byte) : ∀ d ∈ bytes.map UInt8.toNat, d < 2 ^ 8 := by
  intro d hd
  obtain ⟨byte, -, rfl⟩ := List.mem_map.mp hd
  exact byte.toNat_lt

lemma unsigned_lt (bytes : List Byte) : unsigned bytes < (2 ^ 8) ^ bytes.length := by
  have hlt := bigEndian_lt (by norm_num) (digits_lt bytes)
  rwa [List.length_map] at hlt

lemma unsigned_snoc (bytes : List Byte) (byte : Byte) :
    unsigned (bytes ++ [byte]) = unsigned bytes * 2 ^ 8 + byte.toNat := by
  rw [unsigned, List.map_append, List.map_singleton, bigEndian_snoc, unsigned]

/-- The bytes of `char`s are read as the `char`s in the base 2^16. -/
lemma unsigned_flatMap_charBytes (cs : List CodeUnit) :
    unsigned (cs.flatMap charBytes) = bigEndian (2 ^ 16) (cs.map UInt16.toNat) := by
  induction cs using List.reverseRecOn with
  | nil => rfl
  | append_singleton cs c ih =>
      have hbytes : (cs ++ [c]).flatMap charBytes = (cs.flatMap charBytes ++
          [UInt8.ofNat (c.toNat / 2 ^ 8)]) ++ [UInt8.ofNat c.toNat] := by
        simp [charBytes]
      have hc := c.toNat_lt
      rw [hbytes, unsigned_snoc, unsigned_snoc, ih, List.map_append, List.map_singleton,
        bigEndian_snoc, UInt8.toNat_ofNat', UInt8.toNat_ofNat']
      omega

/-- **`char`s stand for the same number** exactly if they only differ by NUL characters in front. -/
theorem unsigned_flatMap_charBytes_eq_iff {cs cs' : List CodeUnit} (h : cs'.length ≤ cs.length) :
    unsigned (cs.flatMap charBytes) = unsigned (cs'.flatMap charBytes) ↔
      cs = List.replicate (cs.length - cs'.length) 0 ++ cs' := by
  have hdigits : ∀ cs : List CodeUnit, ∀ d ∈ cs.map UInt16.toNat, d < 2 ^ 16 := by
    intro cs d hd
    obtain ⟨c, -, rfl⟩ := List.mem_map.mp hd
    exact c.toNat_lt
  have hzeros : ∀ k, List.replicate k 0 ++ cs'.map UInt16.toNat =
      (List.replicate k 0 ++ cs').map UInt16.toNat := by
    intro k
    rw [List.map_append, List.map_replicate]
    rfl
  rw [unsigned_flatMap_charBytes, unsigned_flatMap_charBytes,
    bigEndian_eq_iff (by norm_num) (hdigits cs) (hdigits cs') (by simpa using h), List.length_map,
    List.length_map, hzeros]
  exact (List.map_injective_iff.mpr fun _ _ => UInt16.toNat_inj.mp).eq_iff

lemma unsigned_replicate_append (k : ℕ) (cs : List CodeUnit) :
    unsigned ((List.replicate k 0 ++ cs).flatMap charBytes) = unsigned (cs.flatMap charBytes) := by
  rw [unsigned_flatMap_charBytes_eq_iff (by simp)]
  simp

/-- A `Cipher` that encrypts by RSA without padding. -/
structure RawRsa where
  doFinal : List Byte → Except Throwable (List Byte)
  modulus : ℕ
  exponent : ℕ
  encode : ℕ → List Byte
  bijOn : Set.BijOn (fun m => m ^ exponent % modulus) (Set.Iio modulus) (Set.Iio modulus)
  encode_injOn : Set.InjOn encode (Set.Iio modulus)
  of_doFinal : ∀ input output, doFinal input = .ok output →
    unsigned input < modulus ∧ output = encode (unsigned input ^ exponent % modulus)
  /-- The checked exceptions that `doFinal` declares. -/
  declared : ∀ input e, doFinal input = .error e →
    e.isUnchecked = true ∨ e = .badPaddingException ∨ e = .illegalBlockSizeException

/-- **What is encrypted to the same output** is the same number. -/
lemma RawRsa.output_eq_iff (c : RawRsa) {input input' output output' : List Byte}
    (h : c.doFinal input = .ok output) (h' : c.doFinal input' = .ok output') :
    output = output' ↔ unsigned input = unsigned input' := by
  obtain ⟨hlt, rfl⟩ := c.of_doFinal input output h
  obtain ⟨hlt', rfl⟩ := c.of_doFinal input' output' h'
  constructor
  · intro heq
    exact c.bijOn.injOn hlt hlt' (c.encode_injOn (c.bijOn.mapsTo hlt) (c.bijOn.mapsTo hlt') heq)
  · intro heq
    rw [heq]

/-! ## The cipher of a key -/

/-- The lowest `length` bytes of a number. -/
def numberBytes : ℕ → ℕ → List Byte
  | 0, _ => []
  | length + 1, m => numberBytes length (m / 2 ^ 8) ++ [UInt8.ofNat m]

lemma unsigned_numberBytes (length m : ℕ) :
    unsigned (numberBytes length m) = m % (2 ^ 8) ^ length := by
  induction length generalizing m with
  | zero => simp [numberBytes, unsigned, Nat.mod_one]
  | succ length ih =>
      rw [numberBytes, unsigned_snoc, ih, UInt8.toNat_ofNat', pow_succ' (2 ^ 8) length, Nat.mod_mul,
        mul_comm, add_comm]

lemma numberBytes_injOn {length n : ℕ} (h : n ≤ (2 ^ 8) ^ length) :
    Set.InjOn (numberBytes length) (Set.Iio n) := by
  intro m hm m' hm' heq
  have hsame := congrArg unsigned heq
  rw [unsigned_numberBytes, unsigned_numberBytes, Nat.mod_eq_of_lt (lt_of_lt_of_le hm h),
    Nat.mod_eq_of_lt (lt_of_lt_of_le hm' h)] at hsame
  exact hsame

/-- The cipher of a key whose modulus has at most `length` bytes: it takes in as many, as long as
they are a number below the modulus, and gives out as many. -/
def RsaKey.cipher (key : RsaKey) (length : ℕ) (h : key.modulus ≤ (2 ^ 8) ^ length) : RawRsa where
  doFinal input :=
    if length < input.length ∨ key.modulus ≤ unsigned input then
      .error .arrayIndexOutOfBoundsException
    else .ok (numberBytes length (key.encrypt (unsigned input)))
  modulus := key.modulus
  exponent := key.e
  encode := numberBytes length
  bijOn := key.bijOn_encrypt
  encode_injOn := numberBytes_injOn h
  of_doFinal input output hok := by
    split_ifs at hok with hlarge
    rw [not_or, not_lt, not_le] at hlarge
    exact ⟨hlarge.2, (Except.ok.inj hok).symm⟩
  declared input e herror := by
    split_ifs at herror
    obtain rfl := Except.error.inj herror
    exact .inl rfl

lemma RsaKey.cipher_doFinal (key : RsaKey) {length : ℕ} (h : key.modulus ≤ (2 ^ 8) ^ length)
    {input : List Byte} (hlength : input.length ≤ length) (hlt : unsigned input < key.modulus) :
    (key.cipher length h).doFinal input =
      .ok (numberBytes length (key.encrypt (unsigned input))) :=
  if_neg (not_or.mpr ⟨hlength.not_gt, hlt.not_ge⟩)

lemma RsaKey.cipher_doFinal_error (key : RsaKey) {length : ℕ} (h : key.modulus ≤ (2 ^ 8) ^ length)
    {input : List Byte} (hlength : length < input.length) :
    (key.cipher length h).doFinal input = .error .arrayIndexOutOfBoundsException :=
  if_pos (.inl hlength)

end LearnJava
