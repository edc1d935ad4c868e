import Scep.Der.Primitive
import Scep.Crypto.Cipher

/-! RSA PKCS #1 v1.5 as the builder reaches it: `public_key().encrypt(key, PKCS1v15())` in
`_build_recipient_info` and `signer(PKCS1v15(), SHA256())` in `_build_signerinfo`. The
padding, I2OSP/OS2IP and the modular exponentiation are spelled out; a private key carries
the RSA law `(m ^ e) ^ d ≡ m` (and back) for every `m < n`, so no invalid key can be built. -/
namespace Scep

structure RsaPublicKey where
  n : ℕ
  e : ℕ
  deriving DecidableEq, Repr

/-- `k`: the modulus length in octets. -/
def RsaPublicKey.modulusLength (pk : RsaPublicKey) : ℕ := (beBytes pk.n).length

structure RsaPrivateKey where
  n : ℕ
  e : ℕ
  d : ℕ
  decrypt_encrypt : ∀ m < n, (m ^ e % n) ^ d % n = m
  encrypt_decrypt : ∀ m < n, (m ^ d % n) ^ e % n = m

def RsaPrivateKey.publicKey (sk : RsaPrivateKey) : RsaPublicKey := ⟨sk.n, sk.e⟩

/-- I2OSP: `x` as exactly `k` big-endian octets. -/
def i2osp (x k : ℕ) : Bytes := List.replicate (k - (beBytes x).length) 0 ++ beBytes x

@[simp] theorem beValue_replicate_zero_append (m : ℕ) (b : Bytes) :
    beValue (List.replicate m 0 ++ b) = beValue b := by
  induction m with
  | zero => rfl
  | succ m ih => rw [List.replicate_succ, List.cons_append, beValue_zero_cons, ih]

@[simp] theorem beValue_i2osp (x k : ℕ) : beValue (i2osp x k) = x := by simp [i2osp]

theorem length_i2osp {x k : ℕ} (h : x < 256 ^ k) : (i2osp x k).length = k := by
  have := length_beBytes_le h
  simp [i2osp]; omega

theorem i2osp_beValue : ∀ b : Bytes, i2osp (beValue b) b.length = b
  | [] => rfl
  | x :: b => by
    by_cases hx : x = 0
    · subst hx
      have hle := length_beBytes_le (beValue_lt b)
      have := i2osp_beValue b
      simp only [i2osp, beValue_zero_cons, List.length_cons] at this ⊢
      rw [Nat.sub_add_comm hle, List.replicate_succ, List.cons_append, this]
    · simp [i2osp, beBytes_beValue (show (x :: b).head? ≠ some 0 by simpa using hx)]

namespace RsaPublicKey
variable (pk : RsaPublicKey)

theorem lt_pow_modulusLength : pk.n < 256 ^ pk.modulusLength := by
  simpa [modulusLength, beBytes_eq] using Nat.lt_base_pow_length_digits (b := 256) (m := pk.n)
    (by norm_num)

theorem pow_pred_modulusLength_le (h : 0 < pk.n) : 256 ^ (pk.modulusLength - 1) ≤ pk.n := by
  have := Nat.base_pow_length_digits_le 256 pk.n (by norm_num) h.ne'
  have hk : 0 < pk.modulusLength := by
    simp [modulusLength, List.length_pos, h.ne']
  simp only [modulusLength, beBytes_eq, List.length_reverse, List.length_map] at hk ⊢
  rw [← Nat.sub_add_cancel hk, pow_succ'] at this
  exact Nat.le_of_mul_le_mul_left this (by norm_num)

theorem pos_of_modulusLength_pos (h : 0 < pk.modulusLength) : 0 < pk.n :=
  Nat.pos_of_ne_zero fun h0 => by simp [modulusLength, h0, beBytes, beBytesAux] at h

end RsaPublicKey

/-- The nonzero random octets OpenSSL draws for an encryption block's padding string. -/
structure PaddingSource where
  byte : ℕ → UInt8
  byte_ne_zero : ∀ i, byte i ≠ 0

def PaddingSource.take (ps : PaddingSource) (n : ℕ) : Bytes := (List.range n).map ps.byte

theorem PaddingSource.ne_zero_of_mem {ps : PaddingSource} {n : ℕ} {x : UInt8}
    (h : x ∈ ps.take n) : x ≠ 0 := by
  obtain ⟨i, -, rfl⟩ := List.mem_map.mp h
  exact ps.byte_ne_zero i

@[simp] theorem PaddingSource.length_take (ps : PaddingSource) (n : ℕ) :
    (ps.take n).length = n := by simp [PaddingSource.take]

/-- EME-PKCS1-v1_5 block `0x00 ‖ 0x02 ‖ PS ‖ 0x00 ‖ M` for a `k`-octet modulus. -/
def emePkcs1v15 (ps : PaddingSource) (k : ℕ) (m : Bytes) : Bytes :=
  0 :: 2 :: (ps.take (k - m.length - 3) ++ 0 :: m)

/-- The keys OpenSSL's `rsa_ossl_public_encrypt` refuses before it pads: a modulus of more
than 16384 bits, one not above the exponent, or one of more than 3072 bits with an exponent of
more than 64 bits. -/
def RsaPublicKey.Refused (pk : RsaPublicKey) : Prop :=
  2 ^ 16384 ≤ pk.n ∨ pk.n ≤ pk.e ∨ 2 ^ 3072 ≤ pk.n ∧ 2 ^ 64 ≤ pk.e

/-- Decided with the bounds written as shifts, which evaluate however large they are. -/
instance : DecidablePred RsaPublicKey.Refused := fun pk =>
  decidable_of_iff (1 <<< 16384 ≤ pk.n ∨ pk.n ≤ pk.e ∨ 1 <<< 3072 ≤ pk.n ∧ 1 <<< 64 ≤ pk.e) <| by
    simp only [RsaPublicKey.Refused, Nat.one_shiftLeft]

/-- `public_key.encrypt(message, PKCS1v15())`. OpenSSL refuses a `Refused` key, then a message
without room for eleven octets of padding, then an even modulus (which has no Montgomery
form); cryptography expects only the padding's refusal, and `openssl_assert` raises
`InternalError` for the others. -/
def rsaesPkcs1v15Encrypt (pk : RsaPublicKey) (ps : PaddingSource) (m : Bytes) :
    Except PyError Bytes :=
  if pk.Refused then .error .internalError
  else if pk.modulusLength < m.length + 11 then
    .error (.valueError
      "Data too long for key size. Encrypt less data or use a larger key size.")
  else if pk.n % 2 = 0 then .error .internalError
  else .ok (i2osp (beValue (emePkcs1v15 ps pk.modulusLength m) ^ pk.e % pk.n) pk.modulusLength)

/-- EME-PKCS1-v1_5 decoding: `0x00 ‖ 0x02`, at least eight nonzero octets, `0x00`, message. -/
def emePkcs1v15Decode : Bytes → Option Bytes
  | 0 :: 2 :: rest =>
    let ps := rest.takeWhile (· ≠ 0)
    if ps.length < 8 then none
    else match rest.drop ps.length with
      | 0 :: m => some m
      | _ => none
  | _ => none

/-- `private_key.decrypt(ciphertext, PKCS1v15())`: `none` is the library's decryption error. -/
def rsaesPkcs1v15Decrypt (sk : RsaPrivateKey) (c : Bytes) : Option Bytes :=
  let k := sk.publicKey.modulusLength
  if c.length ≠ k ∨ k < 11 ∨ sk.n ≤ beValue c then none
  else emePkcs1v15Decode (i2osp (beValue c ^ sk.d % sk.n) k)

@[simp] theorem RsaPrivateKey.publicKey_n (sk : RsaPrivateKey) : sk.publicKey.n = sk.n := rfl
@[simp] theorem RsaPrivateKey.publicKey_e (sk : RsaPrivateKey) : sk.publicKey.e = sk.e := rfl

theorem length_emePkcs1v15 (ps : PaddingSource) {k : ℕ} {m : Bytes} (h : m.length + 11 ≤ k) :
    (emePkcs1v15 ps k m).length = k := by
  simp [emePkcs1v15]; omega

theorem emePkcs1v15Decode_emePkcs1v15 (ps : PaddingSource) {k : ℕ} {m : Bytes}
    (h : m.length + 11 ≤ k) : emePkcs1v15Decode (emePkcs1v15 ps k m) = some m := by
  have htw : (ps.take (k - m.length - 3) ++ 0 :: m).takeWhile (· ≠ 0) =
      ps.take (k - m.length - 3) := by
    rw [List.takeWhile_append_of_pos (by simpa using fun _ hy => PaddingSource.ne_zero_of_mem hy)]
    simp
  simp only [emePkcs1v15, emePkcs1v15Decode, htw, PaddingSource.length_take,
    show ¬ k - m.length - 3 < 8 by omega, if_false, List.drop_left' (PaddingSource.length_take _ _)]

theorem beValue_emePkcs1v15_lt {pk : RsaPublicKey} (ps : PaddingSource) {m : Bytes}
    (h : m.length + 11 ≤ pk.modulusLength) :
    beValue (emePkcs1v15 ps pk.modulusLength m) < pk.n := by
  have hn := pk.pos_of_modulusLength_pos (by omega)
  have hl : (2 :: (ps.take (pk.modulusLength - m.length - 3) ++ 0 :: m)).length =
      pk.modulusLength - 1 := by simp; omega
  calc beValue (emePkcs1v15 ps pk.modulusLength m)
      = beValue (2 :: (ps.take (pk.modulusLength - m.length - 3) ++ 0 :: m)) :=
        beValue_zero_cons _
    _ < 256 ^ (pk.modulusLength - 1) := hl ▸ beValue_lt _
    _ ≤ pk.n := pk.pow_pred_modulusLength_le hn

/-- Encryption returns exactly when OpenSSL accepts the key and the message fits. -/
theorem rsaesPkcs1v15Encrypt_ok_iff {pk : RsaPublicKey} {ps : PaddingSource} {m c : Bytes} :
    rsaesPkcs1v15Encrypt pk ps m = .ok c ↔ ¬ pk.Refused ∧ m.length + 11 ≤ pk.modulusLength ∧
      pk.n % 2 = 1 ∧
      c = i2osp (beValue (emePkcs1v15 ps pk.modulusLength m) ^ pk.e % pk.n) pk.modulusLength := by
  unfold rsaesPkcs1v15Encrypt
  by_cases hr : pk.Refused
  · rw [if_pos hr]; exact ⟨nofun, fun h => absurd hr h.1⟩
  by_cases hk : pk.modulusLength < m.length + 11
  · rw [if_neg hr, if_pos hk]; exact ⟨nofun, fun h => absurd h.2.1 (by omega)⟩
  by_cases ho : pk.n % 2 = 0
  · rw [if_neg hr, if_neg hk, if_pos ho]; exact ⟨nofun, fun h => absurd h.2.2.1 (by omega)⟩
  rw [if_neg hr, if_neg hk, if_neg ho]
  exact ⟨fun h => ⟨hr, by omega, by omega, (Except.ok.inj h).symm⟩, fun h => h.2.2.2 ▸ rfl⟩

/-- The exceptions `public_key.encrypt` raises for a message of `len` octets, in OpenSSL's order. -/
inductive EncryptError (pk : RsaPublicKey) (len : ℕ) : PyError → Prop
  | refused : pk.Refused → EncryptError pk len .internalError
  | tooLong : ¬ pk.Refused → pk.modulusLength < len + 11 → EncryptError pk len
      (.valueError "Data too long for key size. Encrypt less data or use a larger key size.")
  | evenModulus : ¬ pk.Refused → len + 11 ≤ pk.modulusLength → pk.n % 2 = 0 →
      EncryptError pk len .internalError

theorem rsaesPkcs1v15Encrypt_error_iff {pk : RsaPublicKey} {ps : PaddingSource} {m : Bytes}
    {e : PyError} : rsaesPkcs1v15Encrypt pk ps m = .error e ↔ EncryptError pk m.length e := by
  unfold rsaesPkcs1v15Encrypt
  by_cases hr : pk.Refused
  · rw [if_pos hr, Except.error.injEq]
    exact ⟨fun h => h ▸ .refused hr,
      by rintro (_ | ⟨h, -⟩ | ⟨h, -⟩) <;> first | rfl | exact absurd hr h⟩
  by_cases hk : pk.modulusLength < m.length + 11
  · rw [if_neg hr, if_pos hk, Except.error.injEq]
    exact ⟨fun h => h ▸ .tooLong hr hk,
      by rintro (h | - | ⟨-, h, -⟩) <;> first | rfl | omega | exact absurd h hr⟩
  by_cases ho : pk.n % 2 = 0
  · rw [if_neg hr, if_neg hk, if_pos ho, Except.error.injEq]
    exact ⟨fun h => h ▸ .evenModulus hr (by omega) ho,
      by rintro (h | ⟨-, h⟩ | -) <;> first | rfl | omega⟩
  rw [if_neg hr, if_neg hk, if_neg ho]
  exact ⟨nofun, by rintro (h | ⟨-, h⟩ | ⟨-, -, h⟩) <;> first | omega | exact absurd h hr⟩

/-- A ciphertext has as many octets as the modulus. -/
theorem length_rsaesPkcs1v15Encrypt {pk : RsaPublicKey} {ps : PaddingSource} {m c : Bytes}
    (h : rsaesPkcs1v15Encrypt pk ps m = .ok c) : c.length = pk.modulusLength := by
  obtain ⟨-, hk, -, rfl⟩ := rsaesPkcs1v15Encrypt_ok_iff.mp h
  exact length_i2osp ((Nat.mod_lt _ (pk.pos_of_modulusLength_pos (by omega))).trans
    pk.lt_pow_modulusLength)

/-- Decryption with the matching private key undoes `rsaesPkcs1v15Encrypt`. -/
theorem rsaesPkcs1v15Decrypt_encrypt {sk : RsaPrivateKey} {ps : PaddingSource} {m c : Bytes}
    (h : rsaesPkcs1v15Encrypt sk.publicKey ps m = .ok c) : rsaesPkcs1v15Decrypt sk c = some m := by
  obtain ⟨-, hk', -, rfl⟩ := rsaesPkcs1v15Encrypt_ok_iff.mp h
  have hem := beValue_emePkcs1v15_lt ps hk'
  have hlem := length_emePkcs1v15 ps hk'
  simp only [RsaPrivateKey.publicKey_n, RsaPrivateKey.publicKey_e] at hem ⊢
  have hx : beValue (emePkcs1v15 ps sk.publicKey.modulusLength m) ^ sk.e % sk.n < sk.n :=
    Nat.mod_lt _ (by omega)
  have hxk := hx.trans sk.publicKey.lt_pow_modulusLength
  simp only [rsaesPkcs1v15Decrypt, length_i2osp hxk, beValue_i2osp, ne_eq, not_true_eq_false,
    false_or, show ¬ sk.publicKey.modulusLength < 11 by omega, show ¬ sk.n ≤ _ from not_le.mpr hx,
    if_false, sk.decrypt_encrypt _ hem]
  have hi := i2osp_beValue (emePkcs1v15 ps sk.publicKey.modulusLength m)
  rw [hlem] at hi
  rw [hi, emePkcs1v15Decode_emePkcs1v15 ps hk']

/-- id-sha256. -/
def Oid.sha256 : Oid := Oid.ofArcs [2, 16, 840, 1, 101, 3, 4, 2, 1]

/-- The DER `DigestInfo` OpenSSL's `RSA_sign` wraps a SHA-256 digest in. -/
def sha256DigestInfo (h : Bytes) : Bytes :=
  Asn1.dump (.sequence [.sequence [.oid Oid.sha256, .null], .octetString h])

theorem length_sha256DigestInfo {h : Bytes} (hl : h.length = 32) :
    (sha256DigestInfo h).length = 51 := by
  simp [sha256DigestInfo, Asn1.sequence, Asn1.oid, Asn1.null, Asn1.octetString, Asn1.dump,
    Asn1.dumpAll, Der.encodeLength, hl]
  decide

/-- EMSA-PKCS1-v1_5 block `0x00 ‖ 0x01 ‖ 0xff… ‖ 0x00 ‖ T` for a `k`-octet modulus. -/
def emsaPkcs1v15 (t : Bytes) (k : ℕ) : Option Bytes :=
  if k < t.length + 11 then none
  else some (0 :: 1 :: (List.replicate (k - t.length - 3) 0xff ++ 0 :: t))

/-- `private_key.signer(PKCS1v15(), SHA256())`, `update(data)`, `finalize()`. OpenSSL's
`RSA_sign` refuses a modulus without room for the `DigestInfo` and its padding, the reason
cryptography expects; the blinding of the private operation then fails for an even modulus,
and `openssl_assert` raises `InternalError`. -/
def rsassaPkcs1v15Sign (B : Backend) (sk : RsaPrivateKey) (data : Bytes) : Except PyError Bytes :=
  match emsaPkcs1v15 (sha256DigestInfo (B.sha256 data)) sk.publicKey.modulusLength with
  | none => .error (.valueError "Digest too large for key size. Use a larger key.")
  | some em =>
    if sk.n % 2 = 0 then .error .internalError
    else .ok (i2osp (beValue em ^ sk.d % sk.n) sk.publicKey.modulusLength)

/-- The SHA-256 DigestInfo and eleven octets of padding need a modulus of 62 octets. -/
theorem rsassaPkcs1v15Sign_error {B : Backend} {sk : RsaPrivateKey} {data : Bytes}
    (hk : sk.publicKey.modulusLength < 62) : rsassaPkcs1v15Sign B sk data =
      .error (.valueError "Digest too large for key size. Use a larger key.") := by
  have := length_sha256DigestInfo (B.length_sha256 data)
  simp only [rsassaPkcs1v15Sign, emsaPkcs1v15, this, show sk.publicKey.modulusLength < 51 + 11 from hk,
    if_true]

theorem rsassaPkcs1v15Sign_ok {B : Backend} {sk : RsaPrivateKey} {data : Bytes}
    (hk : 62 ≤ sk.publicKey.modulusLength) (hodd : sk.n % 2 = 1) :
    ∃ s, rsassaPkcs1v15Sign B sk data = .ok s := by
  have := length_sha256DigestInfo (B.length_sha256 data)
  simp only [rsassaPkcs1v15Sign, emsaPkcs1v15, this, show ¬ sk.publicKey.modulusLength < 51 + 11 by omega,
    if_false, show sk.n % 2 ≠ 0 by omega]
  exact ⟨_, rfl⟩

/-- Signing returns exactly the private operation on the padded `DigestInfo`. -/
theorem rsassaPkcs1v15Sign_ok_inv {B : Backend} {sk : RsaPrivateKey} {data s : Bytes}
    (h : rsassaPkcs1v15Sign B sk data = .ok s) : ∃ em,
      emsaPkcs1v15 (sha256DigestInfo (B.sha256 data)) sk.publicKey.modulusLength = some em ∧
      s = i2osp (beValue em ^ sk.d % sk.n) sk.publicKey.modulusLength := by
  unfold rsassaPkcs1v15Sign at h
  split at h
  · cases h
  · rename_i em hem
    split_ifs at h
    cases h
    exact ⟨em, hem, rfl⟩

/-- The exceptions `private_key.sign` raises: a modulus without room for the SHA-256
`DigestInfo` and eleven octets of padding, and an even modulus, for which OpenSSL cannot set up
blinding. -/
inductive SignError (sk : RsaPrivateKey) : PyError → Prop
  | tooShort : sk.publicKey.modulusLength < 62 →
      SignError sk (.valueError "Digest too large for key size. Use a larger key.")
  | evenModulus : 62 ≤ sk.publicKey.modulusLength → sk.n % 2 = 0 → SignError sk .internalError

theorem rsassaPkcs1v15Sign_error_iff {B : Backend} {sk : RsaPrivateKey} {data : Bytes}
    {e : PyError} : rsassaPkcs1v15Sign B sk data = .error e ↔ SignError sk e := by
  by_cases hk : sk.publicKey.modulusLength < 62
  · rw [rsassaPkcs1v15Sign_error hk, Except.error.injEq]
    exact ⟨fun h => h ▸ .tooShort hk, by rintro (- | ⟨h, -⟩) <;> first | rfl | omega⟩
  by_cases ho : sk.n % 2 = 0
  · have := length_sha256DigestInfo (B.length_sha256 data)
    simp only [rsassaPkcs1v15Sign, emsaPkcs1v15, this,
      show ¬ sk.publicKey.modulusLength < 51 + 11 from hk, if_false, ho, if_true, Except.error.injEq]
    exact ⟨fun h => h ▸ .evenModulus (by omega) ho, by rintro (h | -) <;> first | rfl | omega⟩
  obtain ⟨s, hs⟩ : ∃ s, rsassaPkcs1v15Sign B sk data = .ok s :=
    rsassaPkcs1v15Sign_ok (by omega) (by omega)
  rw [hs]
  exact ⟨nofun, by rintro (h | ⟨-, h⟩) <;> omega⟩

/-- `public_key.verify(signature, data, PKCS1v15(), SHA256())` returns without raising. -/
def rsassaPkcs1v15Verify (B : Backend) (pk : RsaPublicKey) (data s : Bytes) : Bool :=
  s.length == pk.modulusLength && decide (beValue s < pk.n) &&
    emsaPkcs1v15 (sha256DigestInfo (B.sha256 data)) pk.modulusLength ==
      some (i2osp (beValue s ^ pk.e % pk.n) pk.modulusLength)

theorem emsaPkcs1v15_spec {t em : Bytes} {pk : RsaPublicKey} (h : emsaPkcs1v15 t pk.modulusLength = some em) :
    em.length = pk.modulusLength ∧ beValue em < pk.n := by
  unfold emsaPkcs1v15 at h
  split_ifs at h with hk
  cases h
  have hn := pk.pos_of_modulusLength_pos (by omega)
  have hl : (1 :: (List.replicate (pk.modulusLength - t.length - 3) 0xff ++ 0 :: t)).length =
      pk.modulusLength - 1 := by simp; omega
  refine ⟨by simp; omega, ?_⟩
  calc beValue (0 :: 1 :: (List.replicate (pk.modulusLength - t.length - 3) 0xff ++ 0 :: t))
      = beValue (1 :: (List.replicate (pk.modulusLength - t.length - 3) 0xff ++ 0 :: t)) :=
        beValue_zero_cons _
    _ < 256 ^ (pk.modulusLength - 1) := hl ▸ beValue_lt _
    _ ≤ pk.n := pk.pow_pred_modulusLength_le hn

/-- A signature made with a private key verifies under its public key. -/
theorem rsassaPkcs1v15Verify_sign {B : Backend} {sk : RsaPrivateKey} {data s : Bytes}
    (h : rsassaPkcs1v15Sign B sk data = .ok s) :
    rsassaPkcs1v15Verify B sk.publicKey data s = true := by
  obtain ⟨em, hem, rfl⟩ := rsassaPkcs1v15Sign_ok_inv h
  obtain ⟨hlen, hlt⟩ := emsaPkcs1v15_spec hem
  simp only [RsaPrivateKey.publicKey_n] at hlt
  have hx : beValue em ^ sk.d % sk.n < sk.n := Nat.mod_lt _ (by omega)
  have hxk := hx.trans sk.publicKey.lt_pow_modulusLength
  have hi := i2osp_beValue em
  rw [hlen] at hi
  simp [rsassaPkcs1v15Verify, length_i2osp hxk, hx, sk.encrypt_decrypt _ hlt, hi, hem]

/-- A signature has as many octets as the modulus. -/
theorem length_rsassaPkcs1v15Sign {B : Backend} {sk : RsaPrivateKey} {data s : Bytes}
    (h : rsassaPkcs1v15Sign B sk data = .ok s) : s.length = sk.publicKey.modulusLength := by
  obtain ⟨em, hem, rfl⟩ := rsassaPkcs1v15Sign_ok_inv h
  have hlt := (emsaPkcs1v15_spec hem).2
  simp only [RsaPrivateKey.publicKey_n] at hlt
  have hx : beValue em ^ sk.d % sk.n < sk.n := Nat.mod_lt _ (by omega)
  exact length_i2osp (hx.trans sk.publicKey.lt_pow_modulusLength)

end Scep
