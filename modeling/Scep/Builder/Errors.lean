import Scep.Builder.Message

/-! The builder's exceptions. Of the configuration methods only `pki_status` and
`transaction_id` raise; `finalize` raises in its first half, with nothing written, when the
builder lacks a payload or an RSA recipient whose key OpenSSL takes for the 3DES key, and in its
second half, after `content_type` and `message_digest` are appended, only when signing with the
signer's key fails. -/
namespace Scep
namespace PKIMessageBuilder

variable (B : Backend)

/-- The exceptions the first half of `finalize` raises, each with what the builder lacks:
`self._encrypt[0]` on an empty queue, `public_key()` on no recipient, a recipient key that is not
RSA (`encryptKeyError`), and OpenSSL's refusals of the 24-octet 3DES key (`EncryptError`). -/
inductive EnvelopeError (s : State) : PyError → Prop
  | noPayload : s.encrypt = [] → EnvelopeError s (.indexError "list index out of range")
  | noRecipient {p : Bytes} {rest : List Bytes} : s.encrypt = p :: rest → s.recipient = none →
      EnvelopeError s (.attributeError "'NoneType' object has no attribute 'public_key'")
  | noRsaKey {p : Bytes} {rest : List Bytes} {r : Certificate} : s.encrypt = p :: rest →
      s.recipient = some r → r.fields.publicKey = none →
      EnvelopeError s (encryptKeyError r.fields.spki)
  | encryptRefused {p : Bytes} {rest : List Bytes} {r : Certificate} {pk : RsaPublicKey}
      {e : PyError} : s.encrypt = p :: rest → s.recipient = some r → r.fields.publicKey = some pk →
      EncryptError pk 24 e → EnvelopeError s e

theorem finalizeEnvelope_error_iff {d : FinalizeDraws} {s : State} {e : PyError} :
    finalizeEnvelope B d s = .error e ↔ EnvelopeError s e := by
  constructor
  · intro h
    rcases he : s.encrypt with _ | ⟨p, rest⟩
    · simp only [finalizeEnvelope, he] at h
      cases h
      exact .noPayload he
    rcases hr : s.recipient with _ | r
    · simp only [finalizeEnvelope, he, encryptData_eq, hr, buildRecipientInfo] at h
      cases h
      exact .noRecipient he hr
    rcases hpk : r.fields.publicKey with _ | pk
    · simp only [finalizeEnvelope, he, encryptData_eq, hr, buildRecipientInfo, hpk] at h
      cases h
      exact .noRsaKey he hr hpk
    rw [finalizeEnvelope_eq B he hr hpk] at h
    rcases hx : rsaesPkcs1v15Encrypt pk d.padding d.desKey with e' | c
    · rw [hx] at h
      cases h
      exact .encryptRefused he hr hpk (d.length_desKey ▸ rsaesPkcs1v15Encrypt_error_iff.mp hx)
    · rw [hx] at h
      cases h
  · rintro (he | ⟨he, hr⟩ | ⟨he, hr, hpk⟩ | ⟨he, hr, hpk, hk⟩)
    · simp only [finalizeEnvelope, he]; rfl
    · simp only [finalizeEnvelope, he, encryptData_eq, hr, buildRecipientInfo]; rfl
    · simp only [finalizeEnvelope, he, encryptData_eq, hr, buildRecipientInfo, hpk]; rfl
    · rw [finalizeEnvelope_eq B he hr hpk,
        rsaesPkcs1v15Encrypt_error_iff.mpr (d.length_desKey.symm ▸ hk)]
      rfl

theorem run_finalize_of_envelopeError {d : FinalizeDraws} {s : State} {e : PyError}
    (h : EnvelopeError s e) : (finalize B d).run s = .error e s := by
  rw [run_finalize, (finalizeEnvelope_error_iff B).2 h]

/-- With a signer and a key set, signing is the only step of `_build_signerinfo` that raises. -/
theorem buildSignerinfo_error {md : Bytes} {s s' : State} {e : PyError} {sk : RsaPrivateKey}
    {signer : Signer} (hk : s.primarySignerKey = some sk) (hs : s.primarySigner = some signer)
    (h : (buildSignerinfo B md).run s = .error e s') :
    SignError sk e ∧ s' = { s with cmsAttributes :=
        s.cmsAttributes ++ [contentTypeAttribute, messageDigestAttribute md] } := by
  have hst := stateAfter_buildSignerinfo B md s
  rw [h, stateAfter_error] at hst
  refine ⟨?_, hst⟩
  rw [run_buildSignerinfo] at h
  simp only [hk, hs] at h
  split at h
  · cases h
    exact rsassaPkcs1v15Sign_error_iff.mp ‹_›
  · cases h

end PKIMessageBuilder
end Scep
