import Scep.Builder.Config
import Scep.Cms.Read

/-! `finalize` and the private methods it calls. The first half (`_encrypt_data`,
`_build_recipient_info`, `_build_pkcs_pki_envelope`) writes nothing and is `finalizeEnvelope`;
the second half (`_build_signerinfo`) appends the two CMS attributes to the builder's own
list before it signs, so they stay there whether signing succeeds or raises. -/
namespace Scep
namespace PKIMessageBuilder

/-- What `os.urandom` returns to one `finalize` call, and the nonzero octets OpenSSL draws
for the key transport's padding. -/
structure FinalizeDraws where
  desKey : Bytes
  iv : Bytes
  padding : PaddingSource
  length_desKey : desKey.length = 24
  length_iv : iv.length = 8

def liftExcept {α : Type} : Except PyError α → EStateM PyError State α
  | .ok a => pure a
  | .error e => throw e

@[simp] theorem run_liftExcept {α : Type} (x : Except PyError α) (s : State) :
    (liftExcept x).run s = match x with
      | .ok a => .ok a s
      | .error e => .error e s := by
  cases x <;> rfl

variable (B : Backend)

/-- `_encrypt_data(data)`: the 3DES key, the IV, and the ciphertext of the padded data. -/
def encryptData (d : FinalizeDraws) (data : Bytes) : Except PyError (Bytes × Bytes × Bytes) := do
  let padded := pkcs7Pad tripleDesBlockSize data
  let ciphertext ← B.tripleDesCbcEncrypt d.desKey d.iv padded
  pure (d.desKey, d.iv, ciphertext)

/-- asn1crypto's `_ForceNullParameters` gives these algorithm identifiers NULL parameters when
only the algorithm is set. -/
def rsaEncryptionAlgorithm : AlgorithmIdentifier := ⟨Oid.rsaEncryption, some .null⟩

def sha256Algorithm : AlgorithmIdentifier := ⟨Oid.sha256, some .null⟩

def sha256RsaAlgorithm : AlgorithmIdentifier := ⟨Oid.sha256Rsa, some .null⟩

/-- `_build_recipient_info(symmetric_key, recipient)`; `recipient` is `self._recipient`. -/
def buildRecipientInfo (ps : PaddingSource) (symmetricKey : Bytes) :
    Option Certificate → Except PyError RecipientInfo
  | none => .error (.attributeError "'NoneType' object has no attribute 'public_key'")
  | some recipient =>
    match recipient.fields.publicKey with
    | none => .error (encryptKeyError recipient.fields.spki)
    | some pk => do
      let encryptedSymkey ← rsaesPkcs1v15Encrypt pk ps symmetricKey
      pure (.ktri ⟨0, issuerAndSerial recipient, rsaEncryptionAlgorithm, encryptedSymkey⟩)

/-- `_build_pkcs_pki_envelope(ciphertext, iv, recipient)`. -/
def buildPkcsPkiEnvelope (ciphertext iv : Bytes) (recipient : RecipientInfo) : EnvelopedData :=
  ⟨1, [recipient], ⟨Oid.data, ⟨Oid.tripledes3key, some (.octetString iv)⟩, some ciphertext⟩⟩

/-- The first half of `finalize`: encrypt `self._encrypt[0]` and wrap it for the recipient. -/
def finalizeEnvelope (d : FinalizeDraws) (s : State) : Except PyError EnvelopedData := do
  let data ← match s.encrypt with
    | [] => .error (.indexError "list index out of range")
    | c :: _ => pure c
  let (desKey, iv, encryptedContent) ← encryptData B d data
  let recipientInfo ← buildRecipientInfo d.padding desKey s.recipient
  pure (buildPkcsPkiEnvelope encryptedContent iv recipientInfo)

theorem encryptData_eq (d : FinalizeDraws) (data : Bytes) : encryptData B d data =
    .ok (d.desKey, d.iv, Cbc.encryptBlocks (B.tripleDesEncryptBlock d.desKey) (data.length / 8 + 1)
      d.iv (pkcs7Pad tripleDesBlockSize data)) := by
  have hp := length_pkcs7Pad data
  rw [encryptData, B.tripleDesCbcEncrypt_eq d.length_iv (by omega), hp,
    Nat.mul_div_cancel_left _ (by norm_num)]
  rfl

/-- Key transport and the envelope, once the first payload and an RSA recipient are set. -/
theorem finalizeEnvelope_eq {d : FinalizeDraws} {s : State} {p : Bytes} {rest : List Bytes}
    {r : Certificate} {pk : RsaPublicKey} (he : s.encrypt = p :: rest) (hr : s.recipient = some r)
    (hpk : r.fields.publicKey = some pk) :
    finalizeEnvelope B d s = (rsaesPkcs1v15Encrypt pk d.padding d.desKey).map fun encryptedKey =>
      buildPkcsPkiEnvelope (Cbc.encryptBlocks (B.tripleDesEncryptBlock d.desKey) (p.length / 8 + 1)
        d.iv (pkcs7Pad tripleDesBlockSize p)) d.iv
        (.ktri ⟨0, issuerAndSerial r, rsaEncryptionAlgorithm, encryptedKey⟩) := by
  simp only [finalizeEnvelope, he, encryptData_eq, hr, buildRecipientInfo, hpk, bind, Except.bind,
    pure, Except.pure]
  cases rsaesPkcs1v15Encrypt pk d.padding d.desKey <;> rfl

/-- `_build_cmsattributes()`. -/
def buildCmsattributes : EStateM PyError State (List CMSAttribute) :=
  return (← get).cmsAttributes

def contentTypeAttribute : CMSAttribute := ⟨.contentType, [.objectIdentifier Oid.data]⟩

def messageDigestAttribute (contentDigest : Bytes) : CMSAttribute :=
  ⟨.messageDigest, [.octetString contentDigest]⟩

/-- The `SignerInfo` `_build_signerinfo` assembles. -/
def signerInfoOf (signer : Signer) (signedAttrs : List CMSAttribute) (signature : Bytes) :
    SignerInfo :=
  ⟨1, signer.sid, sha256Algorithm, signedAttrs, sha256RsaAlgorithm, signature⟩

/-- `_build_signerinfo(encap_content, content_digest)`. The source also hashes
`encap_content` with the attributes into a `DigestInfo` that nothing reads; that is left
out, and with it the `encap_content` parameter. -/
def buildSignerinfo (contentDigest : Bytes) : EStateM PyError State SignerInfo := do
  appendAttribute contentTypeAttribute
  appendAttribute (messageDigestAttribute contentDigest)
  let signedAttrs ← buildCmsattributes
  let s ← get
  match s.primarySignerKey with
  | none => throw (.attributeError "'NoneType' object has no attribute 'signer'")
  | some pk =>
    let signature ← liftExcept (rsassaPkcs1v15Sign B pk (Asn1.dump (cmsAttributesAsn1 0x31 signedAttrs)))
    match s.primarySigner with
    | none => throw (.typeError "'NoneType' object is not subscriptable")
    | some signer => pure (signerInfoOf signer signedAttrs signature)

/-- `_build_signerinfos(content, content_digest)`. -/
def buildSignerinfos (contentDigest : Bytes) : EStateM PyError State (List SignerInfo) :=
  return [← buildSignerinfo B contentDigest]

/-- The `SignedData` `finalize` assembles around an envelope and its signer infos (`sd`). -/
def signedDataOf (envelope : EnvelopedData) (signerInfos : List SignerInfo)
    (certificates : Option CertificateSet) : SignedData :=
  ⟨1, some [sha256Algorithm], ⟨Oid.data, some (Asn1.dump envelope.toAsn1)⟩, certificates,
    some signerInfos⟩

/-- The `ContentInfo` `finalize` returns. Its `[0] EXPLICIT` field keeps a retagged copy of `sd`
that holds only `sd`'s encoding, so the content reads back from that encoding, every `SET OF`
sorted by its members' encodings (`SignedData.read_toAsn1`). -/
def signedMessage (envelope : EnvelopedData) (signerInfos : List SignerInfo)
    (certificates : Option CertificateSet) : ContentInfo :=
  ⟨Oid.signedData, (signedDataOf envelope signerInfos certificates).sortSets⟩

/-- `finalize()`. -/
def finalize (d : FinalizeDraws) : EStateM PyError State ContentInfo := do
  let pkcsPkiEnvelope ← liftExcept (finalizeEnvelope B d (← get))
  let signerInfos ← buildSignerinfos B (B.sha256 (Asn1.dump pkcsPkiEnvelope.toAsn1))
  let certificates := (← get).certificates
  pure (signedMessage pkcsPkiEnvelope signerInfos certificates)

/-- The two attributes are appended first and stay appended on every path out. -/
theorem run_buildSignerinfo (contentDigest : Bytes) (s : State) :
    (buildSignerinfo B contentDigest).run s =
      let attrs := s.cmsAttributes ++ [contentTypeAttribute, messageDigestAttribute contentDigest]
      let s' := { s with cmsAttributes := attrs }
      match s.primarySignerKey with
      | none => .error (.attributeError "'NoneType' object has no attribute 'signer'") s'
      | some pk =>
        match rsassaPkcs1v15Sign B pk (Asn1.dump (cmsAttributesAsn1 0x31 attrs)) with
        | .error e => .error e s'
        | .ok signature =>
          match s.primarySigner with
          | none => .error (.typeError "'NoneType' object is not subscriptable") s'
          | some signer => .ok (signerInfoOf signer attrs signature) s' := by
  simp only [buildSignerinfo, buildCmsattributes, run_bind, run_appendAttribute, run_get, run_pure,
    List.append_assoc, List.singleton_append]
  rcases s.primarySignerKey with _ | pk
  · rfl
  · simp only [run_liftExcept]
    cases rsassaPkcs1v15Sign B pk _ <;> cases s.primarySigner <;> rfl

theorem stateAfter_buildSignerinfo (contentDigest : Bytes) (s : State) :
    stateAfter ((buildSignerinfo B contentDigest).run s) = { s with cmsAttributes :=
      s.cmsAttributes ++ [contentTypeAttribute, messageDigestAttribute contentDigest] } := by
  rw [run_buildSignerinfo]
  dsimp only
  repeat' split
  all_goals rfl

theorem run_finalize (d : FinalizeDraws) (s : State) :
    (finalize B d).run s = match finalizeEnvelope B d s with
      | .error e => .error e s
      | .ok env =>
        match (buildSignerinfo B (B.sha256 (Asn1.dump env.toAsn1))).run s with
        | .ok si s' => .ok (signedMessage env [si] s.certificates) s'
        | .error e s' => .error e s' := by
  simp only [finalize, buildSignerinfos, run_bind, run_get, run_liftExcept, run_pure]
  cases finalizeEnvelope B d s with
  | error e => rfl
  | ok env =>
    dsimp only
    have h := stateAfter_buildSignerinfo B (B.sha256 (Asn1.dump env.toAsn1)) s
    rcases hr : (buildSignerinfo B (B.sha256 (Asn1.dump env.toAsn1))).run s with ⟨si, s'⟩ | ⟨e, s'⟩
    · rw [hr, stateAfter_ok] at h
      subst h
      rfl
    · rfl

end PKIMessageBuilder
end Scep
