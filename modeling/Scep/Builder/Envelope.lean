import Scep.Builder.Errors
import Scep.Cms.Read

/-! The `pkcsPKIEnvelope` a returned message carries, read back as its recipient would: the
encapsulated content decodes to an `EnvelopedData` for the recipient set by `add_recipient`,
whose key transport opens with the recipient's private key to the 3DES key, under which the
content decrypts to the first queued payload. Everything in the envelope is read from the
recipient's certificate or bounded by the payload, so it fits DER's length octets. -/
namespace Scep
namespace PKIMessageBuilder

variable (B : Backend)

/-- The key-transport recipient `_build_recipient_info` builds for a certificate. -/
def ktriFor (r : Certificate) (encryptedKey : Bytes) : KeyTransRecipientInfo :=
  ⟨0, issuerAndSerial r, rsaEncryptionAlgorithm, encryptedKey⟩

theorem tagged_envelope (ciphertext iv encryptedKey : Bytes) (r : Certificate) :
    (buildPkcsPkiEnvelope ciphertext iv (.ktri (ktriFor r encryptedKey))).toAsn1.tagged := by
  have hi := Asn1.tagged_of_valid _ r.issuer_bound.1
  simp [buildPkcsPkiEnvelope, ktriFor, rsaEncryptionAlgorithm, EnvelopedData.toAsn1,
    RecipientInfo.toAsn1, IssuerAndSerialNumber.toAsn1, issuerAndSerial, parseCertificate,
    AlgorithmIdentifier.toAsn1, EncryptedContentInfo.toAsn1, Asn1.setOf, List.insertionSort,
    Asn1.sequence, Asn1.integer, Asn1.oid, Asn1.null, Asn1.octetString, Asn1.tagged, Asn1.taggedAll,
    UInt8.size, hi]

/-- The envelope's encoding stays far below DER's limit: its parts are read from a certificate
of fewer than `2 ^ 63` octets, or are a ciphertext of fewer than `2 ^ 64`. -/
theorem length_dump_envelope_lt {ciphertext iv encryptedKey : Bytes} {r : Certificate}
    (hc : ciphertext.length < 2 ^ 64) (hiv : iv.length = 8) (hk : encryptedKey.length < 2 ^ 63) :
    (Asn1.dump (buildPkcsPkiEnvelope ciphertext iv (.ktri (ktriFor r encryptedKey))).toAsn1).length <
      Der.maxLength := by
  have hI := r.issuer_bound.2
  have hS := r.serialNumber_bound.2
  have hr := r.length_der_lt
  have hrid := Asn1.length_dump_cons_le 0x30 [r.fields.issuer, .integer r.fields.serialNumber]
  have hek := Asn1.length_dump_prim_le 0x04 encryptedKey
  have hktri := Asn1.length_dump_cons_le 0x30 [.integer 0,
    .sequence [r.fields.issuer, .integer r.fields.serialNumber], .sequence [.oid Oid.rsaEncryption, .null],
    .octetString encryptedKey]
  have hset := Asn1.length_dump_cons_le 0x31 [.sequence [.integer 0,
    .sequence [r.fields.issuer, .integer r.fields.serialNumber], .sequence [.oid Oid.rsaEncryption, .null],
    .octetString encryptedKey]]
  have hivl := Asn1.length_dump_prim_le 0x04 iv
  have hcl := Asn1.length_dump_prim_le 0x80 ciphertext
  have halg := Asn1.length_dump_cons_le 0x30 [.oid Oid.tripledes3key, .octetString iv]
  have heci := Asn1.length_dump_cons_le 0x30 [.oid Oid.data,
    .sequence [.oid Oid.tripledes3key, .octetString iv], .prim 0x80 ciphertext]
  have henv := Asn1.length_dump_cons_le 0x30 [.integer 1, .cons 0x31 [.sequence [.integer 0,
    .sequence [r.fields.issuer, .integer r.fields.serialNumber], .sequence [.oid Oid.rsaEncryption, .null],
    .octetString encryptedKey]], .sequence [.oid Oid.data,
    .sequence [.oid Oid.tripledes3key, .octetString iv], .prim 0x80 ciphertext]]
  have h0 : (Asn1.dump (.integer 0)).length = 3 := by decide
  have h1 : (Asn1.dump (.integer 1)).length = 3 := by decide
  have hrsa : (Asn1.dump (.sequence [.oid Oid.rsaEncryption, .null])).length = 15 := by decide
  have hdata : (Asn1.dump (.oid Oid.data)).length = 11 := by decide
  have htdes : (Asn1.dump (.oid Oid.tripledes3key)).length = 10 := by decide
  simp only [List.map_cons, List.map_nil, List.sum_cons, List.sum_nil, Asn1.octetString,
    Asn1.sequence] at *
  simp only [buildPkcsPkiEnvelope, ktriFor, rsaEncryptionAlgorithm, EnvelopedData.toAsn1,
    RecipientInfo.toAsn1, IssuerAndSerialNumber.toAsn1, issuerAndSerial, parseCertificate,
    AlgorithmIdentifier.toAsn1,
    EncryptedContentInfo.toAsn1, Asn1.setOf, List.insertionSort, List.orderedInsert, Asn1.sequence,
    Asn1.octetString, List.map_cons, List.map_nil, Option.toList, Option.map, List.cons_append,
    List.nil_append, List.singleton_append]
  norm_num [Der.maxLength]
  omega

theorem valid_envelope {ciphertext iv encryptedKey : Bytes} {r : Certificate}
    (hc : ciphertext.length < 2 ^ 64) (hiv : iv.length = 8) (hk : encryptedKey.length < 2 ^ 63) :
    (buildPkcsPkiEnvelope ciphertext iv (.ktri (ktriFor r encryptedKey))).toAsn1.valid :=
  Asn1.valid_of_tagged _ (tagged_envelope _ _ _ _) (length_dump_envelope_lt hc hiv hk)

/-- When OpenSSL takes both keys, `finalize` returns a message that carries an envelope its
recipient opens: the encapsulated content decodes to an `EnvelopedData` with one key-transport
recipient naming the issuer and serial number of the certificate set by `add_recipient`; the
recipient's private key recovers a 24-octet key from it, under which the content, with the IV
the algorithm identifier carries, decrypts and unpads to the first queued payload. -/
theorem finalize_envelope_decrypts (c : Certificate) (k : RsaPrivateKey) (cs : List Call)
    (d : FinalizeDraws) {P : Bytes} {rest : List Bytes} {R : Certificate} {Rk : RsaPrivateKey}
    (he : (run B (init c k) cs).encrypt = P :: rest) (hr : (run B (init c k) cs).recipient = some R)
    (hRk : R.fields.publicKey = some Rk.publicKey) (hP : P.length < 2 ^ 63)
    (hRlen : 35 ≤ Rk.publicKey.modulusLength) (hRr : ¬ Rk.publicKey.Refused) (hRo : Rk.n % 2 = 1)
    (hSlen : 62 ≤ (lastSigner (c, k) cs).2.publicKey.modulusLength)
    (hSo : (lastSigner (c, k) cs).2.n % 2 = 1) :
    ∃ m s', (finalize B d).run (run B (init c k) cs) = .ok m s' ∧
      ∃ encap env ktri K iv ciphertext padded,
        m.content.encapContentInfo.content = some encap ∧ EnvelopedData.load encap = some env ∧
        env.recipientInfos = [.ktri ktri] ∧ ktri.rid = ⟨R.fields.issuer, R.fields.serialNumber⟩ ∧
        rsaesPkcs1v15Decrypt Rk ktri.encryptedKey = some K ∧ K.length = 24 ∧
        env.encryptedContentInfo.contentEncryptionAlgorithm =
          ⟨Oid.tripledes3key, some (.octetString iv)⟩ ∧
        env.encryptedContentInfo.encryptedContent = some ciphertext ∧
        B.tripleDesCbcDecrypt K iv ciphertext = .ok padded ∧
        pkcs7Unpad tripleDesBlockSize padded = some P := by
  obtain ⟨hs, hk⟩ := run_signedBy B (init_signedBy c k) cs
  obtain ⟨m, s', h⟩ := finalize_returns B d he hr hRk hRlen hRr hRo hk hSlen hSo hs
  refine ⟨m, s', h, ?_⟩
  obtain ⟨env, -, -, -, henv, -, -, -, rfl⟩ := finalize_ok_inv B h
  rw [finalizeEnvelope_eq B he hr hRk] at henv
  rcases hek : rsaesPkcs1v15Encrypt Rk.publicKey d.padding d.desKey with _ | ek
  · rw [hek] at henv; cases henv
  rw [hek] at henv
  cases henv
  have hpad := length_pkcs7Pad P
  have hblocks : (pkcs7Pad tripleDesBlockSize P).length / 8 = P.length / 8 + 1 := by omega
  have hmod : (pkcs7Pad tripleDesBlockSize P).length % 8 = 0 := by omega
  have hct := B.length_encryptBlocks_tripleDes d.desKey d.length_iv hmod
  have hdec := @Backend.tripleDesCbcDecrypt_encryptBlocks B d.desKey _ _ d.length_iv hmod
  rw [hblocks] at hct hdec
  have hek' : ek.length < 2 ^ 63 := by
    rw [length_rsaesPkcs1v15Encrypt hek]
    exact (R.modulusLength_lt hRk).trans R.length_der_lt
  refine ⟨_, _, ktriFor R ek, d.desKey, d.iv, _, _, rfl,
    EnvelopedData.load_dump _ rfl (valid_envelope (by omega) d.length_iv hek'), rfl, rfl,
    rsaesPkcs1v15Decrypt_encrypt hek, d.length_desKey, rfl, rfl, hdec, pkcs7Unpad_pkcs7Pad P⟩

theorem finalize_envelope_decrypts_sample :
    ∃ m s', (finalize plainBackend sampleDraws).run
        (run plainBackend (init sampleCert sampleKey) sampleCalls) = .ok m s' ∧
      ∃ encap env ktri K iv ciphertext padded,
        m.content.encapContentInfo.content = some encap ∧ EnvelopedData.load encap = some env ∧
        env.recipientInfos = [.ktri ktri] ∧
        ktri.rid = ⟨sampleCert.fields.issuer, sampleCert.fields.serialNumber⟩ ∧
        rsaesPkcs1v15Decrypt sampleKey ktri.encryptedKey = some K ∧ K.length = 24 ∧
        env.encryptedContentInfo.contentEncryptionAlgorithm =
          ⟨Oid.tripledes3key, some (.octetString iv)⟩ ∧
        env.encryptedContentInfo.encryptedContent = some ciphertext ∧
        plainBackend.tripleDesCbcDecrypt K iv ciphertext = .ok padded ∧
        pkcs7Unpad tripleDesBlockSize padded = some [1, 2, 3] :=
  finalize_envelope_decrypts plainBackend sampleCert sampleKey sampleCalls sampleDraws
    (rfl : (run plainBackend (init sampleCert sampleKey) sampleCalls).encrypt = [1, 2, 3] :: [])
    rfl rfl (by decide) (by decide) (by decide) (by decide) (by decide) (by decide)

theorem finalize_small_recipient_raises :
    smallCert.fields.publicKey = some smallKey.publicKey ∧
      (finalize plainBackend sampleDraws).run
        (run plainBackend (init sampleCert sampleKey) smallRecipientCalls) =
      .error (.valueError "Data too long for key size. Encrypt less data or use a larger key size.")
        (run plainBackend (init sampleCert sampleKey) smallRecipientCalls) :=
  ⟨rfl, run_finalize_of_envelopeError plainBackend (.encryptRefused
    (rfl : (run plainBackend (init sampleCert sampleKey) smallRecipientCalls).encrypt = [1, 2, 3] :: [])
    rfl rfl (.tooLong (by decide) (by decide)))⟩

/-! ### Sizes -/

/-- Everything the first half of `finalize` read and built when it returns. -/
theorem finalizeEnvelope_ok_inv {d : FinalizeDraws} {s : State} {env : EnvelopedData}
    (h : finalizeEnvelope B d s = .ok env) :
    ∃ p rest r pk ek, s.encrypt = p :: rest ∧ s.recipient = some r ∧ r.fields.publicKey = some pk ∧
      rsaesPkcs1v15Encrypt pk d.padding d.desKey = .ok ek ∧
      env = buildPkcsPkiEnvelope (Cbc.encryptBlocks (B.tripleDesEncryptBlock d.desKey)
        (p.length / 8 + 1) d.iv (pkcs7Pad tripleDesBlockSize p)) d.iv (.ktri (ktriFor r ek)) := by
  rcases he : s.encrypt with _ | ⟨p, rest⟩
  · simp only [finalizeEnvelope, he] at h; cases h
  rcases hr : s.recipient with _ | r
  · simp only [finalizeEnvelope, he, encryptData_eq, hr, buildRecipientInfo] at h; cases h
  rcases hpk : r.fields.publicKey with _ | pk
  · simp only [finalizeEnvelope, he, encryptData_eq, hr, buildRecipientInfo, hpk] at h; cases h
  rw [finalizeEnvelope_eq B he hr hpk] at h
  rcases hek : rsaesPkcs1v15Encrypt pk d.padding d.desKey with _ | ek
  · rw [hek] at h; cases h
  rw [hek] at h
  cases h
  exact ⟨p, rest, r, pk, ek, rfl, rfl, hpk, hek, rfl⟩

/-- The sizes in a message `finalize` returns: the encrypted content is the first payload padded
to the next multiple of 8 octets, so one to eight octets longer, a whole block for a payload
already a multiple of 8; the IV is 8 octets; the encrypted 3DES key is exactly as long as the
recipient's modulus, and the signature as long as the signer's. -/
theorem finalize_sizes (s : State) (d : FinalizeDraws) {m : ContentInfo} {s' : State}
    (h : (finalize B d).run s = .ok m s') :
    ∃ (p : Bytes) (rest : List Bytes) (r : Certificate) (pk : RsaPublicKey) (sk : RsaPrivateKey)
      (env : EnvelopedData) (ktri : KeyTransRecipientInfo) (si : SignerInfo) (ciphertext iv : Bytes),
      s.encrypt = p :: rest ∧ s.recipient = some r ∧ r.fields.publicKey = some pk ∧
      s.primarySignerKey = some sk ∧
      m.content.encapContentInfo.content = some (Asn1.dump env.toAsn1) ∧
      env.recipientInfos = [.ktri ktri] ∧ m.content.signerInfos = some [si] ∧
      env.encryptedContentInfo.encryptedContent = some ciphertext ∧
      env.encryptedContentInfo.contentEncryptionAlgorithm =
        ⟨Oid.tripledes3key, some (.octetString iv)⟩ ∧
      ciphertext.length = 8 * (p.length / 8 + 1) ∧ iv.length = 8 ∧
      ktri.encryptedKey.length = pk.modulusLength ∧
      si.signature.length = sk.publicKey.modulusLength := by
  obtain ⟨env, sk, -, signature, henv, hk, -, hsig, rfl⟩ := finalize_ok_inv B h
  obtain ⟨p, rest, r, pk, ek, he, hr, hpk, hek, rfl⟩ := finalizeEnvelope_ok_inv B henv
  have hmod : (pkcs7Pad tripleDesBlockSize p).length % 8 = 0 := by rw [length_pkcs7Pad]; omega
  have hct := B.length_encryptBlocks_tripleDes d.desKey d.length_iv hmod
  rw [length_pkcs7Pad, Nat.mul_div_cancel_left _ (by norm_num)] at hct
  exact ⟨p, rest, r, pk, sk, _, _, _, _, d.iv, he, hr, hpk, hk, rfl, rfl, rfl, rfl, rfl, hct,
    d.length_iv, length_rsaesPkcs1v15Encrypt hek, length_rsassaPkcs1v15Sign hsig⟩

/-- The three-octet sample payload takes one block; key and signature take 63 octets each. -/
theorem finalize_sizes_sample :
    ∃ m s', (finalize plainBackend sampleDraws).run
        (run plainBackend (init sampleCert sampleKey) sampleCalls) = .ok m s' ∧
      ∃ (env : EnvelopedData) (ktri : KeyTransRecipientInfo) (si : SignerInfo) (ciphertext : Bytes),
        m.content.encapContentInfo.content = some (Asn1.dump env.toAsn1) ∧
        env.recipientInfos = [.ktri ktri] ∧ m.content.signerInfos = some [si] ∧
        env.encryptedContentInfo.encryptedContent = some ciphertext ∧ ciphertext.length = 8 ∧
        ktri.encryptedKey.length = 63 ∧ si.signature.length = 63 := by
  obtain ⟨m, s', h⟩ := finalize_returns_sample
    (s := run plainBackend (init sampleCert sampleKey) sampleCalls)
    rfl rfl rfl rfl
  obtain ⟨p, rest, r, pk, sk, env, ktri, si, ciphertext, iv, he, hr, hpk, hk, hc, hri, hsi, hct, -,
    hlen, -, hek, hsig⟩ := finalize_sizes plainBackend _ _ h
  cases he
  cases hr
  cases hpk
  cases hk
  refine ⟨m, s', h, env, ktri, si, ciphertext, hc, hri, hsi, hct, hlen, ?_, ?_⟩
  · rw [hek]; decide
  · rw [hsig]; decide

end PKIMessageBuilder
end Scep
