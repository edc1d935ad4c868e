import Scep.Builder.Run

/-! The message `finalize` returns, over every run of the builder: its one `SignerInfo`, whose
signer, signature and signed attributes come from the builder as the run left it. -/
namespace Scep
namespace PKIMessageBuilder

variable (B : Backend)

/-- The signed attributes of a `finalize` call: the builder's list, then the two it appends. -/
def finalizedAttributes (s : State) (env : EnvelopedData) : List CMSAttribute :=
  s.cmsAttributes ++ [contentTypeAttribute, messageDigestAttribute (B.sha256 (Asn1.dump env.toAsn1))]

theorem buildSignerinfo_ok_inv {md : Bytes} {s s' : State} {si : SignerInfo}
    (h : (buildSignerinfo B md).run s = .ok si s') :
    ∃ pk signer signature, s.primarySignerKey = some pk ∧ s.primarySigner = some signer ∧
      rsassaPkcs1v15Sign B pk (Asn1.dump (cmsAttributesAsn1 0x31
        (s.cmsAttributes ++ [contentTypeAttribute, messageDigestAttribute md]))) = .ok signature ∧
      si = signerInfoOf signer (s.cmsAttributes ++ [contentTypeAttribute, messageDigestAttribute md])
        signature := by
  rw [run_buildSignerinfo] at h
  dsimp only at h
  split at h
  · cases h
  rename_i pk hk
  split at h
  · cases h
  rename_i signature hsig
  split at h
  · cases h
  rename_i signer hs
  cases h
  exact ⟨pk, signer, signature, hk, hs, hsig, rfl⟩

/-- Everything a `finalize` call that returns has read and built. -/
theorem finalize_ok_inv {d : FinalizeDraws} {s s' : State} {m : ContentInfo}
    (h : (finalize B d).run s = .ok m s') :
    ∃ env pk signer signature, finalizeEnvelope B d s = .ok env ∧ s.primarySignerKey = some pk ∧
      s.primarySigner = some signer ∧
      rsassaPkcs1v15Sign B pk (Asn1.dump (cmsAttributesAsn1 0x31 (finalizedAttributes B s env))) =
        .ok signature ∧
      m = signedMessage env [signerInfoOf signer (finalizedAttributes B s env) signature]
        s.certificates := by
  rw [run_finalize] at h
  split at h
  · cases h
  rename_i env he
  split at h
  · rename_i si s₁ hb
    cases h
    obtain ⟨pk, signer, signature, hk, hs, hsig, rfl⟩ := buildSignerinfo_ok_inv B hb
    exact ⟨env, pk, signer, signature, he, hk, hs, hsig, rfl⟩
  · cases h

theorem buildSignerinfo_ne_error {md : Bytes} {s : State} {sk : RsaPrivateKey} {signer : Signer}
    (hk : s.primarySignerKey = some sk) (hsk : 62 ≤ sk.publicKey.modulusLength) (hso : sk.n % 2 = 1)
    (hs : s.primarySigner = some signer) (e : PyError) (s' : State) :
    (buildSignerinfo B md).run s ≠ .error e s' := by
  obtain ⟨signature, hsig⟩ : ∃ signature, rsassaPkcs1v15Sign B sk (Asn1.dump (cmsAttributesAsn1 0x31
      (s.cmsAttributes ++ [contentTypeAttribute, messageDigestAttribute md]))) = .ok signature :=
    rsassaPkcs1v15Sign_ok hsk hso
  rw [run_buildSignerinfo]
  simp only [hk, hs, hsig]
  nofun

/-- `finalize` returns once the first payload and an RSA recipient are set, OpenSSL accepts the
recipient's key, an odd modulus with room for the 3DES key and eleven octets of padding, and the
signer's modulus is odd with room for the SHA-256 `DigestInfo` and as much. -/
theorem finalize_returns (d : FinalizeDraws) {s : State} {p : Bytes} {rest : List Bytes}
    {r : Certificate} {pk : RsaPublicKey} {sk : RsaPrivateKey} {signer : Signer}
    (he : s.encrypt = p :: rest) (hr : s.recipient = some r) (hpk : r.fields.publicKey = some pk)
    (hrk : 35 ≤ pk.modulusLength) (hrr : ¬ pk.Refused) (hro : pk.n % 2 = 1)
    (hk : s.primarySignerKey = some sk) (hsk : 62 ≤ sk.publicKey.modulusLength)
    (hso : sk.n % 2 = 1) (hs : s.primarySigner = some signer) :
    ∃ m s', (finalize B d).run s = .ok m s' := by
  have henc : rsaesPkcs1v15Encrypt pk d.padding d.desKey = .ok _ :=
    rsaesPkcs1v15Encrypt_ok_iff.mpr ⟨hrr, by rw [d.length_desKey]; omega, hro, rfl⟩
  rw [run_finalize, finalizeEnvelope_eq B he hr hpk, henc]
  dsimp only [Except.map]
  split
  · exact ⟨_, _, rfl⟩
  · exact absurd ‹_› (buildSignerinfo_ne_error B hk hsk hso hs _ _)

theorem wellShaped_finalizedAttributes {s : State} (h : ∀ a ∈ s.cmsAttributes, WellShaped a)
    (env : EnvelopedData) : ∀ a ∈ finalizedAttributes B s env, WellShaped a := by
  intro a ha
  rcases List.mem_append.mp ha with ha | ha
  · exact h a ha
  · rcases List.mem_pair.mp ha with rfl | rfl
    · exact ⟨_, rfl, fun _ => rfl⟩
    · exact ⟨_, rfl, nofun⟩

theorem sortValues_of_wellShaped {a : CMSAttribute} (h : WellShaped a) : a.sortValues = a := by
  obtain ⟨t, vs⟩ := a
  obtain ⟨v, hv, -⟩ := h
  cases hv
  rfl

theorem run_init_wellShaped (c : Certificate) (k : RsaPrivateKey) (cs : List Call) :
    ∀ a ∈ (run B (init c k) cs).cmsAttributes, WellShaped a :=
  run_wellShaped B (by simp) cs

/-- A signer info reads back with its attributes sorted, and each attribute's values too. -/
theorem sortAttrs_perm (si : SignerInfo) :
    si.sortAttrs.signedAttrs.Perm (si.signedAttrs.map CMSAttribute.sortValues) :=
  (sortByEncoding_perm _ _).map _

/-- When every attribute has one value, a signer info reads back with its own attributes, in
another order. -/
theorem sortAttrs_perm_of_wellShaped {si : SignerInfo} (h : ∀ a ∈ si.signedAttrs, WellShaped a) :
    si.sortAttrs.signedAttrs.Perm si.signedAttrs :=
  (sortAttrs_perm si).trans <| .of_eq <|
    (List.map_congr_left fun a ha => sortValues_of_wellShaped (h a ha)).trans (List.map_id _)

/-- The message reads back the attributes `finalize` signed, in another order. -/
theorem sortAttrs_perm_finalizedAttributes {s : State} (hs : ∀ a ∈ s.cmsAttributes, WellShaped a)
    (env : EnvelopedData) (signer : Signer) (signature : Bytes) :
    (signerInfoOf signer (finalizedAttributes B s env) signature).sortAttrs.signedAttrs.Perm
      (finalizedAttributes B s env) :=
  sortAttrs_perm_of_wellShaped (wellShaped_finalizedAttributes B hs env)

/-- The attributes the message reads back encode as the ones `finalize` signed. -/
theorem dump_sortAttrs_finalizedAttributes {s : State} (hs : ∀ a ∈ s.cmsAttributes, WellShaped a)
    (env : EnvelopedData) (signer : Signer) (signature : Bytes) :
    Asn1.dump (cmsAttributesAsn1 0x31
        (signerInfoOf signer (finalizedAttributes B s env) signature).sortAttrs.signedAttrs) =
      Asn1.dump (cmsAttributesAsn1 0x31 (finalizedAttributes B s env)) :=
  dump_cmsAttributesAsn1_perm 0x31 (sortAttrs_perm_finalizedAttributes B hs env signer signature)

theorem lastSigner_mem (p : Certificate × RsaPrivateKey) (cs : List Call) :
    lastSigner p cs = p ∨ Call.addSigner (lastSigner p cs).1 (lastSigner p cs).2 ∈ cs := by
  induction cs generalizing p with
  | nil => exact .inl rfl
  | cons c cs ih =>
    rw [lastSigner_cons]
    cases c with
    | addSigner c' k' =>
      rcases ih (c', k') with h | h
      · exact .inr (h ▸ List.mem_cons_self _ _)
      · exact .inr (List.mem_cons_of_mem _ h)
    | _ => exact (ih p).imp_right (List.mem_cons_of_mem _)

/-- A backend whose DES is the identity and whose digest is constant; it meets every law. -/
def plainBackend : Backend where
  desEncrypt _ b := b
  desDecrypt _ b := b
  length_desEncrypt _ _ h := h
  length_desDecrypt _ _ h := h
  desDecrypt_desEncrypt _ _ _ := rfl
  desEncrypt_desDecrypt _ _ _ := rfl
  sha256 _ := List.replicate 32 0
  length_sha256 _ := List.length_replicate _ _

/-- An RSA key with modulus `n` and both exponents 1. -/
def unitKey (n : ℕ) : RsaPrivateKey where
  n := n
  e := 1
  d := 1
  decrypt_encrypt m hm := by simp only [pow_one, Nat.mod_eq_of_lt hm]
  encrypt_decrypt m hm := by simp only [pow_one, Nat.mod_eq_of_lt hm]

/-- The RSA `SubjectPublicKeyInfo` of `unitKey n`. -/
def sampleSpki (n : ℕ) : Asn1 :=
  .sequence [.sequence [.oid Oid.rsaEncryption, .null],
    .prim 0x03 (0 :: Asn1.dump (.sequence [.integer n, .integer 1]))]

/-- A certificate with serial number 1, empty names, and `unitKey n`'s public key. -/
def sampleTree (n : ℕ) : Asn1 :=
  .sequence [.sequence [.integer 1, .sequence [.oid Oid.sha256Rsa], .sequence [], .sequence [],
      .sequence [], sampleSpki n], .sequence [.oid Oid.sha256Rsa], .prim 0x03 [0]]

/-- A key with a 63-octet odd modulus, enough to sign and to receive the 3DES key. -/
def sampleKey : RsaPrivateKey := unitKey (256 ^ 62 + 1)

def sampleCert : Certificate where
  der := Asn1.dump (sampleTree (256 ^ 62 + 1))
  fields := ⟨sampleTree (256 ^ 62 + 1), .sequence [], 1, some sampleKey.publicKey, sampleSpki (256 ^ 62 + 1)⟩
  readCertificate_der := by set_option maxRecDepth 100000 in rfl
  length_der_lt := by set_option maxRecDepth 100000 in decide

def sampleDraws : FinalizeDraws where
  desKey := List.replicate 24 1
  iv := List.replicate 8 0
  padding := ⟨fun _ => 1, fun _ => (by decide : (1 : UInt8) ≠ 0)⟩
  length_desKey := rfl
  length_iv := rfl

/-- A key with a 21-octet odd modulus, too short to carry the 3DES key. -/
def smallKey : RsaPrivateKey := unitKey (256 ^ 20 + 1)

def smallCert : Certificate where
  der := Asn1.dump (sampleTree (256 ^ 20 + 1))
  fields := ⟨sampleTree (256 ^ 20 + 1), .sequence [], 1, some smallKey.publicKey, sampleSpki (256 ^ 20 + 1)⟩
  readCertificate_der := by set_option maxRecDepth 100000 in rfl
  length_der_lt := by set_option maxRecDepth 100000 in decide

/-- A payload and a recipient, the sample certificate signing and receiving. -/
def sampleCalls : List Call := [.encrypt [1, 2, 3], .addRecipient sampleCert]

/-- The sample payload, for a recipient with the small key. -/
def smallRecipientCalls : List Call := [.encrypt [1, 2, 3], .addRecipient smallCert]

/-- `finalize` returns on any state holding the sample payload, recipient and signing key. -/
theorem finalize_returns_sample {s : State} {signer : Signer} (he : s.encrypt = [[1, 2, 3]])
    (hr : s.recipient = some sampleCert) (hk : s.primarySignerKey = some sampleKey)
    (hs : s.primarySigner = some signer) :
    ∃ m s', (finalize plainBackend sampleDraws).run s = .ok m s' :=
  finalize_returns plainBackend sampleDraws he hr rfl (by decide) (by decide) (by decide) hk
    (by decide) (by decide) hs

/-- The message's one `SignerInfo` names the certificate of the last `add_signer` call (the
constructor's when there is none) and carries the signature, with that call's key, of the DER
of its own signed attributes; so when every `add_signer` call pairs a certificate with its own
key, the signature verifies under the named certificate's public key. -/
theorem finalize_signer_from_last_add_signer (c : Certificate) (k : RsaPrivateKey) (cs : List Call)
    (d : FinalizeDraws) {m : ContentInfo} {s' : State}
    (h : (finalize B d).run (run B (init c k) cs) = .ok m s') :
    ∃ si, m.content.signerInfos = some [si] ∧
      si.sid = ⟨(lastSigner (c, k) cs).1.fields.issuer, (lastSigner (c, k) cs).1.fields.serialNumber⟩ ∧
      rsassaPkcs1v15Sign B (lastSigner (c, k) cs).2
        (Asn1.dump (cmsAttributesAsn1 0x31 si.signedAttrs)) = .ok si.signature ∧
      (c.fields.publicKey = some k.publicKey →
        (∀ c' k', Call.addSigner c' k' ∈ cs → c'.fields.publicKey = some k'.publicKey) →
        ∃ pub, (lastSigner (c, k) cs).1.fields.publicKey = some pub ∧
          rsassaPkcs1v15Verify B pub (Asn1.dump (cmsAttributesAsn1 0x31 si.signedAttrs)) si.signature) := by
  obtain ⟨env, pk, signer, signature, -, hk, hs, hsig, rfl⟩ := finalize_ok_inv B h
  obtain ⟨hs', hk'⟩ := run_signedBy B (init_signedBy c k) cs
  rw [hs'] at hs
  rw [hk'] at hk
  cases hs
  cases hk
  rw [← dump_sortAttrs_finalizedAttributes B (run_init_wellShaped B c k cs) env _ signature] at hsig
  refine ⟨_, rfl, rfl, hsig, fun hc hcs => ⟨_, ?_, rsassaPkcs1v15Verify_sign hsig⟩⟩
  rcases lastSigner_mem (c, k) cs with hl | hl
  · rw [hl]; exact hc
  · exact hcs _ _ hl

theorem finalize_signer_from_last_add_signer_sample :
    ∃ m s' si, (finalize plainBackend sampleDraws).run
        (run plainBackend (init sampleCert sampleKey) sampleCalls) = .ok m s' ∧
      m.content.signerInfos = some [si] ∧
      si.sid = ⟨sampleCert.fields.issuer, sampleCert.fields.serialNumber⟩ ∧
      ∃ pub, sampleCert.fields.publicKey = some pub ∧
        rsassaPkcs1v15Verify plainBackend pub (Asn1.dump (cmsAttributesAsn1 0x31 si.signedAttrs))
          si.signature := by
  obtain ⟨m, s', h⟩ := finalize_returns_sample
    (s := run plainBackend (init sampleCert sampleKey) sampleCalls) rfl rfl rfl rfl
  obtain ⟨si, hsi, hsid, -, hv⟩ := finalize_signer_from_last_add_signer plainBackend _ _ _ _ h
  exact ⟨m, s', si, h, hsi, hsid, hv rfl (by simp [sampleCalls])⟩

/-- Three setters with explicit values, then the sample payload and recipient. -/
def sampleSetterCalls : List Call :=
  [.messageType .PKCSReq, .senderNonce (.bytes [7]), .transactionId (.str "abc")] ++ sampleCalls

/-- A `pki_status(FAILURE)` call without failure info raises, but a message finalized after it
still signs a FAILURE `pki_status`, and with no `fail_info` unless a later `pki_status` call
adds one. -/
theorem failure_status_signed_without_failInfo (c : Certificate) (k : RsaPrivateKey) (cs : List Call)
    (d : FinalizeDraws) {m : ContentInfo} {s' : State}
    (hno : ∀ x ∈ cs, ∀ st fi, x ≠ .pkiStatus st fi)
    (h : (finalize B d).run (run B (init c k) (.pkiStatus .FAILURE none :: cs)) = .ok m s') :
    (Call.exec B (.pkiStatus .FAILURE none)).run (init c k) =
        .error (.valueError "You cannot specify failure without failure info")
          (afterCall B (.pkiStatus .FAILURE none) (init c k)) ∧
      ∃ si, m.content.signerInfos = some [si] ∧
        (⟨.pkiStatus, [.printableString PKIStatus.FAILURE.value]⟩ : CMSAttribute) ∈ si.signedAttrs ∧
        ∀ a ∈ si.signedAttrs, a.type ≠ .failInfo := by
  obtain ⟨env, pk, signer, signature, -, -, -, -, rfl⟩ := finalize_ok_inv B h
  have hfi := run_countP_failInfo B hno (afterCall B (.pkiStatus .FAILURE none) (init c k))
  have hmem := run_cmsAttributes B (afterCall B (.pkiStatus .FAILURE none) (init c k)) cs
  have hperm := sortAttrs_perm_finalizedAttributes B
    (run_init_wellShaped B c k (.pkiStatus .FAILURE none :: cs)) env signer signature
  refine ⟨rfl, _, rfl, hperm.mem_iff.mpr ?_, ?_⟩
  · simp only [finalizedAttributes, run_cons, hmem]
    simp
  · have h0 : (finalizedAttributes B (run B (init c k) (.pkiStatus .FAILURE none :: cs)) env).countP
        (·.type = .failInfo) = 0 := by
      simp only [finalizedAttributes, run_cons, List.countP_append, hfi]
      simp [contentTypeAttribute, messageDigestAttribute]
    rw [← hperm.countP_eq] at h0
    simpa [List.countP_eq_zero] using h0

theorem failure_status_signed_without_failInfo_sample :
    ∃ m s', (finalize plainBackend sampleDraws).run (run plainBackend (init sampleCert sampleKey)
        (.pkiStatus .FAILURE none :: sampleCalls)) = .ok m s' ∧
      ∃ si, m.content.signerInfos = some [si] ∧
        (⟨.pkiStatus, [.printableString PKIStatus.FAILURE.value]⟩ : CMSAttribute) ∈ si.signedAttrs ∧
        ∀ a ∈ si.signedAttrs, a.type ≠ .failInfo := by
  obtain ⟨m, s', h⟩ := finalize_returns_sample
    (s := run plainBackend (init sampleCert sampleKey) (Call.pkiStatus .FAILURE none :: sampleCalls))
    rfl rfl rfl rfl
  exact ⟨m, s', h, (failure_status_signed_without_failInfo plainBackend _ _ _ _
    (by simp [sampleCalls]) h).2⟩

/-- Signer infos built over signed lists equal up to order read back with attributes equal up
to order. -/
theorem sortAttrs_perm_of_perm {l₁ l₂ : List CMSAttribute} (h : l₁.Perm l₂) (signer₁ signer₂ : Signer)
    (signature₁ signature₂ : Bytes) :
    (signerInfoOf signer₁ l₁ signature₁).sortAttrs.signedAttrs.Perm
      (signerInfoOf signer₂ l₂ signature₂).sortAttrs.signedAttrs :=
  (sortAttrs_perm _).trans ((h.map _).trans (sortAttrs_perm (signerInfoOf signer₂ l₂ signature₂)).symm)

/-- The attributes a signer info reads back with, for signed lists one of which extends the
other, are contained in one another's with their multiplicities. -/
theorem sortAttrs_subperm {l₁ l₂ : List CMSAttribute} (h : l₁.Sublist l₂) (signer₁ signer₂ : Signer)
    (signature₁ signature₂ : Bytes) :
    (signerInfoOf signer₁ l₁ signature₁).sortAttrs.signedAttrs.Subperm
      (signerInfoOf signer₂ l₂ signature₂).sortAttrs.signedAttrs :=
  (sortAttrs_perm _).subperm.trans <|
    (h.map _).subperm.trans (sortAttrs_perm (signerInfoOf signer₂ l₂ signature₂)).symm.subperm

end PKIMessageBuilder
end Scep
