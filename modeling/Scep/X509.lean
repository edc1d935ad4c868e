import Scep.Crypto.Rsa

/-! Certificates as `cryptography` and asn1crypto hold them. A `Certificate` is the DER it
was loaded from; the builder reads three things from it (asn1crypto's `issuer` and
`serial_number`, and `public_key()`), and `readCertificate` reads them from that DER, so the
DER determines the certificate. -/
namespace Scep

/-- rsaEncryption. -/
def Oid.rsaEncryption : Oid := Oid.ofArcs [1, 2, 840, 113549, 1, 1, 1]

structure X509Fields where
  tree : Asn1
  issuer : Asn1
  serialNumber : ℤ
  publicKey : Option RsaPublicKey
  spki : Asn1

/-- `SubjectPublicKeyInfo` holding an `RSAPublicKey ::= SEQUENCE { modulus, publicExponent }`. -/
def readRsaPublicKey : Asn1 → Option RsaPublicKey
  | .cons 0x30 [.cons 0x30 (alg :: _), .prim 0x03 (0 :: key)] =>
    if Asn1.readOid alg = some Oid.rsaEncryption then
      match Asn1.decode key with
      | some (.cons 0x30 [n, e]) =>
        match Asn1.readInteger n, Asn1.readInteger e with
        | some (.ofNat n), some (.ofNat e) => some ⟨n, e⟩
        | _, _ => none
      | _ => none
    else none
  | _ => none

/-- `serialNumber`, `signature`, `issuer`, `validity`, `subject`, `subjectPublicKeyInfo`. -/
def readTbsFields (tree : Asn1) : List Asn1 → Option X509Fields
  | serial :: _ :: issuer :: _ :: _ :: spki :: _ =>
    (Asn1.readInteger serial).map fun z => ⟨tree, issuer, z, readRsaPublicKey spki, spki⟩
  | _ => none

/-- `Certificate ::= SEQUENCE { tbsCertificate, signatureAlgorithm, signatureValue }`, the TBS
opening with an optional explicit `[0]` version. -/
def readCertificate (der : Bytes) : Option X509Fields :=
  match Asn1.decode der with
  | some t@(.cons 0x30 [.cons 0x30 (.cons 0xa0 _ :: rest), _, _]) => readTbsFields t rest
  | some t@(.cons 0x30 [.cons 0x30 tbs, _, _]) => readTbsFields t tbs
  | _ => none

/-- An `x509.Certificate`: the DER it was loaded from (`public_bytes(Encoding.DER)`), which
fits a Python `bytes` object (at most `PY_SSIZE_T_MAX` octets). -/
structure Certificate where
  der : Bytes
  fields : X509Fields
  readCertificate_der : readCertificate der = some fields
  length_der_lt : der.length < 2 ^ 63

theorem Certificate.ext_der {c c' : Certificate} (h : c.der = c'.der) : c = c' := by
  obtain ⟨d, f, hf, hl⟩ := c
  obtain ⟨d', f', hf', hl'⟩ := c'
  cases h
  cases hf.symm.trans hf'
  rfl

/-- `x509.load_der_x509_certificate(data, default_backend())`. -/
def loadDerX509Certificate (data : Bytes) : Except PyError Certificate :=
  match h : readCertificate data with
  | some f =>
    if hl : data.length < 2 ^ 63 then .ok ⟨data, f, h, hl⟩
    else .error (.valueError "Unable to load certificate")
  | none => .error (.valueError "Unable to load certificate")

theorem loadDerX509Certificate_der (c : Certificate) : loadDerX509Certificate c.der = .ok c := by
  unfold loadDerX509Certificate
  split
  · rename_i f h
    rw [dif_pos c.length_der_lt]
    exact congrArg Except.ok (Certificate.ext_der rfl)
  · rename_i h
    exact absurd c.readCertificate_der (by rw [h]; simp)

theorem loadDerX509Certificate_of_read_none {der : Bytes} (h : readCertificate der = none) :
    loadDerX509Certificate der = .error (.valueError "Unable to load certificate") := by
  unfold loadDerX509Certificate
  split
  · rename_i f h'
    rw [h] at h'
    cases h'
  · rfl

theorem loadDerX509Certificate_of_read {der : Bytes} {f : X509Fields}
    (hf : readCertificate der = some f) (hl : der.length < 2 ^ 63) :
    loadDerX509Certificate der = .ok ⟨der, f, hf, hl⟩ := by
  unfold loadDerX509Certificate
  split
  · rename_i f' h'
    rw [hf] at h'
    cases h'
    rw [dif_pos hl]
  · rename_i h'
    rw [hf] at h'
    cases h'

/-- The algorithm of a `SubjectPublicKeyInfo`. -/
def spkiAlgorithm : Asn1 → Option Oid
  | .cons 0x30 (.cons 0x30 (alg :: _) :: _) => Asn1.readOid alg
  | _ => none

/-- RSASSA-PSS, a key OpenSSL reads and cryptography has no class for. -/
def Oid.rsassaPss : Oid := Oid.ofArcs [1, 2, 840, 113549, 1, 1, 10]

/-- The classes `_evp_pkey_to_public_key` returns for the other key algorithms OpenSSL reads:
DSA, EC, DH (PKCS #3 and X9.42), X25519, X448, Ed25519 and Ed448. -/
def publicKeyClasses : List (Oid × String) :=
  [(Oid.ofArcs [1, 2, 840, 10040, 4, 1], "_DSAPublicKey"),
    (Oid.ofArcs [1, 2, 840, 10045, 2, 1], "_EllipticCurvePublicKey"),
    (Oid.ofArcs [1, 2, 840, 113549, 1, 3, 1], "_DHPublicKey"),
    (Oid.ofArcs [1, 2, 840, 10046, 2, 1], "_DHPublicKey"),
    (Oid.ofArcs [1, 3, 101, 110], "_X25519PublicKey"),
    (Oid.ofArcs [1, 3, 101, 111], "_X448PublicKey"),
    (Oid.ofArcs [1, 3, 101, 112], "_Ed25519PublicKey"),
    (Oid.ofArcs [1, 3, 101, 113], "_Ed448PublicKey")]

/-- What `public_key().encrypt(...)` raises for a certificate whose key is not an RSA key: the
object of another key class has no `encrypt`; `public_key()` itself raises for RSA-PSS and for a
key OpenSSL cannot read. A key of a listed algorithm is taken as OpenSSL reads it: the model
does not check the key's own octets. -/
def encryptKeyError (spki : Asn1) : PyError :=
  match spkiAlgorithm spki with
  | some alg =>
    match publicKeyClasses.find? (·.1 = alg) with
    | some (_, cls) => .attributeError ("'" ++ cls ++ "' object has no attribute 'encrypt'")
    | none =>
      if alg = Oid.rsassaPss then .unsupportedAlgorithm "Unsupported key type."
      else .valueError "Certificate public key is of an unknown type"
  | none => .valueError "Certificate public key is of an unknown type"

/-- asn1crypto's `x509.Certificate`: the value it was parsed from, which `dump()` writes
back, and the `issuer` and `serial_number` read from it. -/
structure Asn1Certificate where
  tree : Asn1
  issuer : Asn1
  serialNumber : ℤ

/-- oscrypto's `parse_certificate(cert.public_bytes(serialization.Encoding.DER))`. -/
def parseCertificate (c : Certificate) : Asn1Certificate :=
  ⟨c.fields.tree, c.fields.issuer, c.fields.serialNumber⟩

theorem readTbsFields_tree {t : Asn1} {l : List Asn1} {f : X509Fields}
    (h : readTbsFields t l = some f) : f.tree = t := by
  unfold readTbsFields at h
  split at h
  · obtain ⟨z, -, rfl⟩ := Option.map_eq_some'.mp h
    rfl
  · cases h

/-- A certificate's value is a `SEQUENCE`. -/
theorem Certificate.tree_sequence (c : Certificate) : ∃ cs, c.fields.tree = .cons 0x30 cs := by
  have h := c.readCertificate_der
  unfold readCertificate at h
  split at h
  all_goals first
    | cases h
    | exact ⟨_, readTbsFields_tree h⟩

/-- The fields' value is the value the DER decodes to. -/
theorem readCertificate_decode {der : Bytes} {f : X509Fields} (h : readCertificate der = some f) :
    Asn1.decode der = some f.tree := by
  unfold readCertificate at h
  split at h
  all_goals first
    | cases h
    | rename_i t _ ht
      rw [readTbsFields_tree h, ht]

/-- The certificate read from a value's DER is that value. -/
theorem readCertificate_tree {t : Asn1} {f : X509Fields} (hv : t.valid)
    (h : readCertificate (Asn1.dump t) = some f) : f.tree = t :=
  (Option.some.inj ((Asn1.decode_dump hv).symm.trans (readCertificate_decode h))).symm

theorem readTbsFields_spec {t : Asn1} {l : List Asn1} {f : X509Fields}
    (h : readTbsFields t l = some f) : f.tree = t ∧ f.issuer ∈ l ∧
      Asn1.integer f.serialNumber ∈ l ∧ ∃ spki ∈ l, readRsaPublicKey spki = f.publicKey := by
  unfold readTbsFields at h
  split at h
  · obtain ⟨z, hz, rfl⟩ := Option.map_eq_some'.mp h
    rw [← Asn1.eq_integer_of_readInteger hz]
    exact ⟨rfl, by simp, by simp, _, by simp, rfl⟩
  · cases h

theorem valid_length_of_mem_tbs {tbs : List Asn1} {a b x : Asn1}
    (hv : (Asn1.cons 0x30 [.cons 0x30 tbs, a, b]).valid) (hx : x ∈ tbs) :
    x.valid ∧ (Asn1.dump x).length < (Asn1.dump (.cons 0x30 [.cons 0x30 tbs, a, b])).length := by
  have htbs : Asn1.cons 0x30 tbs ∈ [Asn1.cons 0x30 tbs, a, b] := List.mem_cons_self _ _
  exact ⟨(Asn1.valid_cons_iff.mp ((Asn1.valid_cons_iff.mp hv).2.2.2 _ htbs)).2.2.2 x hx,
    (Asn1.length_dump_lt_of_mem 0x30 hx).trans (Asn1.length_dump_lt_of_mem 0x30 htbs)⟩

/-- The fields are read from children of the TBS, itself a child of the value the DER holds. -/
theorem readCertificate_inner {der : Bytes} {f : X509Fields} (h : readCertificate der = some f) :
    ∃ l : List Asn1, readTbsFields f.tree l = some f ∧
      ∀ x ∈ l, x.valid ∧ (Asn1.dump x).length < der.length := by
  unfold readCertificate at h
  split at h
  · rename_i v rest _ _ ht
    obtain ⟨hv, rfl⟩ := Asn1.decode_sound ht
    rw [← readTbsFields_tree h] at h
    exact ⟨rest, h, fun x hx => valid_length_of_mem_tbs hv (List.mem_cons_of_mem _ hx)⟩
  · rename_i tbs _ _ _ ht
    obtain ⟨hv, rfl⟩ := Asn1.decode_sound ht
    rw [← readTbsFields_tree h] at h
    exact ⟨tbs, h, fun x hx => valid_length_of_mem_tbs hv hx⟩
  · cases h

theorem readRsaPublicKey_modulusLength_lt {spki : Asn1} {pk : RsaPublicKey}
    (h : readRsaPublicKey spki = some pk) : pk.modulusLength < (Asn1.dump spki).length := by
  unfold readRsaPublicKey at h
  split at h
  · rename_i alg tail key
    split_ifs at h
    split at h
    · rename_i n e hd
      split at h
      · rename_i n' e' hn _
        cases h
        obtain ⟨-, hkey⟩ := Asn1.decode_sound hd
        have hbe : (beBytes n').length ≤ (Der.natContents n').length := by
          unfold Der.natContents; split_ifs <;> simp
        have hn' : (Asn1.dump n).length < key.length :=
          hkey ▸ Asn1.length_dump_lt_of_mem 0x30 (List.mem_cons_self n [e])
        have hbit := Asn1.length_dump_lt_of_mem 0x30
          (List.mem_cons_of_mem (Asn1.cons 0x30 (alg :: tail)) (List.mem_cons_self (Asn1.prim 0x03 (0 :: key)) []))
        have hk : key.length < (Asn1.dump (.prim 0x03 (0 :: key))).length := by
          simp [Asn1.dump]; omega
        rw [Asn1.eq_integer_of_readInteger hn] at hn'
        simp only [Asn1.dump, Asn1.integer, Der.encodeInteger, List.length_cons, List.length_append] at hn'
        simp only [RsaPublicKey.modulusLength]
        omega
      all_goals cases h
    · cases h
  · cases h

/-- The DER a certificate was loaded from is the encoding of its value. -/
theorem Certificate.der_eq (c : Certificate) : c.der = Asn1.dump c.fields.tree :=
  (Asn1.decode_sound (readCertificate_decode c.readCertificate_der)).2

theorem Certificate.valid_tree (c : Certificate) : c.fields.tree.valid :=
  (Asn1.decode_sound (readCertificate_decode c.readCertificate_der)).1

theorem Certificate.issuer_bound (c : Certificate) :
    c.fields.issuer.valid ∧ (Asn1.dump c.fields.issuer).length < c.der.length := by
  obtain ⟨l, hl, hb⟩ := readCertificate_inner c.readCertificate_der
  exact hb _ (readTbsFields_spec hl).2.1

theorem Certificate.serialNumber_bound (c : Certificate) :
    (Asn1.integer c.fields.serialNumber).valid ∧
      (Asn1.dump (.integer c.fields.serialNumber)).length < c.der.length := by
  obtain ⟨l, hl, hb⟩ := readCertificate_inner c.readCertificate_der
  exact hb _ (readTbsFields_spec hl).2.2.1

theorem Certificate.modulusLength_lt (c : Certificate) {pk : RsaPublicKey}
    (h : c.fields.publicKey = some pk) : pk.modulusLength < c.der.length := by
  obtain ⟨l, hl, hb⟩ := readCertificate_inner c.readCertificate_der
  obtain ⟨-, -, -, spki, hspki, hpk⟩ := readTbsFields_spec hl
  exact (readRsaPublicKey_modulusLength_lt (hpk.trans h)).trans (hb _ hspki).2

end Scep
