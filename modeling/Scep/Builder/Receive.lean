import Scep.Builder.Message
import Scep.Builder.Degenerate

/-! The message `finalize` returns, as its receiver reads it. Its DER loads back to the same
message up to the order of the members of its `SET OF`s; the receiver, checking the signature
over the signed attributes it read, accepts it and finds in them the SHA-256 of the content it
read; and its certificate set loads through `certificates_from_asn1` to the certificates of the
run's last `certificates` call, in the order of their encodings. Any certificate set a receiver
loads from DER either fails `certificates_from_asn1` or rebuilds through `certificates`. -/
namespace Scep
namespace PKIMessageBuilder

variable (B : Backend)

/-- The certificate set holds only certificates that `certificates` parsed. -/
def CertificatesParsed (s : State) : Prop :=
  ∀ certs ∈ s.certificates, ∀ x ∈ certs, ∃ c : Certificate, x = .certificate (parseCertificate c).tree

theorem afterCall_certificatesParsed {s : State} (h : CertificatesParsed s) (c : Call) :
    CertificatesParsed (afterCall B c s) := by
  cases c with
  | certificates cs =>
    simp only [CertificatesParsed, afterCall_certificates, Option.mem_def, Option.some.injEq]
    rintro _ rfl x hx
    obtain ⟨c, -, rfl⟩ := List.mem_map.mp hx
    exact ⟨c, rfl⟩
  | pkiStatus st fi => simp only [afterCall_pkiStatus]; exact h
  | transactionId t => simp only [afterCall_transactionId]; cases t.printable <;> exact h
  | finalize d => simp only [afterCall_finalize]; cases finalizeEnvelope B d s <;> exact h
  | _ => exact h

theorem run_certificatesParsed {s : State} (h : CertificatesParsed s) (cs : List Call) :
    CertificatesParsed (run B s cs) := by
  induction cs generalizing s with
  | nil => exact h
  | cons c cs ih => exact ih (afterCall_certificatesParsed B h c)

/-- The certificates of the last `certificates` call of a run, if there is one. -/
def lastCertificates : List Call → Option (List Certificate)
  | [] => none
  | .certificates cs :: rest =>
    match lastCertificates rest with
    | none => some cs
    | some l => some l
  | _ :: rest => lastCertificates rest

theorem afterCall_certificates_field (c : Call) (s : State) :
    (afterCall B c s).certificates = match c with
      | .certificates cs => some (cs.map fun c => .certificate (parseCertificate c).tree)
      | _ => s.certificates := by
  cases c with
  | pkiStatus st fi => simp only [afterCall_pkiStatus]
  | transactionId t => simp only [afterCall_transactionId]; cases t.printable <;> rfl
  | finalize d => simp only [afterCall_finalize]; cases finalizeEnvelope B d s <;> rfl
  | _ => rfl

/-- `certificates` replaces the set: after a run the builder holds the certificates of the last
call, parsed. -/
theorem run_certificates_field (s : State) (cs : List Call) :
    (run B s cs).certificates = match lastCertificates cs with
      | none => s.certificates
      | some l => some (l.map fun c => .certificate (parseCertificate c).tree) := by
  induction cs generalizing s with
  | nil => rfl
  | cons c cs ih =>
    rw [run_cons, ih, afterCall_certificates_field]
    cases c <;> simp only [lastCertificates]
    cases lastCertificates cs <;> rfl

theorem tagged_attributeValue (v : AttributeValue) : v.toAsn1.tagged := by
  cases v <;> rfl

theorem tagged_cmsAttribute (a : CMSAttribute) : a.toAsn1.tagged := by
  simp [CMSAttribute.toAsn1, Asn1.sequence, Asn1.setOf, Asn1.oid, UInt8.size,
    tagged_attributeValue]

theorem tagged_signerInfoOf (c : Certificate) (attrs : List CMSAttribute) (signature : Bytes) :
    (signerInfoOf ⟨issuerAndSerial c, c⟩ attrs signature).sortAttrs.toAsn1.tagged := by
  have hi := Asn1.tagged_of_valid _ c.issuer_bound.1
  simp [SignerInfo.toAsn1, SignerInfo.sortAttrs, signerInfoOf, IssuerAndSerialNumber.toAsn1,
    issuerAndSerial, parseCertificate, AlgorithmIdentifier.toAsn1, sha256Algorithm,
    sha256RsaAlgorithm, cmsAttributesAsn1, Asn1.sequence, Asn1.setOf, Asn1.integer, Asn1.oid,
    Asn1.null, Asn1.octetString, UInt8.size, hi, tagged_cmsAttribute]

/-- A signed message is well tagged when its signer's and its certificates' values are. -/
theorem tagged_signedMessage (env : EnvelopedData) (c : Certificate) (attrs : List CMSAttribute)
    (signature : Bytes) {certs : Option CertificateSet}
    (hc : ∀ l ∈ certs, ∀ x ∈ l, ∃ c : Certificate, x = .certificate (parseCertificate c).tree) :
    (signedMessage env [signerInfoOf ⟨issuerAndSerial c, c⟩ attrs signature] certs).toAsn1.tagged := by
  have hcert : ∀ l ∈ certs, ∀ x ∈ l, x.toAsn1.tagged := by
    intro l hl x hx
    obtain ⟨c', rfl⟩ := hc l hl x hx
    exact Asn1.tagged_of_valid _ c'.valid_tree
  rcases certs with _ | l <;>
    simp [signedMessage, signedDataOf, SignedData.sortSets, sortByEncoding, ContentInfo.toAsn1,
      SignedData.toAsn1, EncapsulatedContentInfo.toAsn1, AlgorithmIdentifier.toAsn1,
      sha256Algorithm, Asn1.sequence, Asn1.setOf, Asn1.integer, Asn1.oid, Asn1.null,
      Asn1.octetString, UInt8.size, tagged_signerInfoOf]
  exact hcert _ rfl

/-- A signed message whose certificates `certificates` parsed loads back from its DER, read once
more: every `SET OF` sorted again. -/
theorem load_signedMessage (env : EnvelopedData) (c : Certificate) (attrs : List CMSAttribute)
    (signature : Bytes) {certs : Option CertificateSet}
    (hc : ∀ l ∈ certs, ∀ x ∈ l, ∃ c : Certificate, x = .certificate (parseCertificate c).tree)
    (hlen : (Asn1.dump (signedMessage env [signerInfoOf ⟨issuerAndSerial c, c⟩ attrs signature]
      certs).toAsn1).length < Der.maxLength) :
    ContentInfo.load (Asn1.dump (signedMessage env [signerInfoOf ⟨issuerAndSerial c, c⟩ attrs
        signature] certs).toAsn1) =
      some ⟨Oid.signedData,
        (signedMessage env [signerInfoOf ⟨issuerAndSerial c, c⟩ attrs signature] certs).content.sortSets⟩ := by
  refine ContentInfo.load_dump _ rfl rfl ?_
    (Asn1.valid_of_tagged _ (tagged_signedMessage env c attrs signature hc) hlen)
  intro l hl x hx
  obtain ⟨l', hl', rfl⟩ := Option.mem_map.mp hl
  obtain ⟨c', rfl⟩ := hc l' hl' x ((sortByEncoding_perm _ _).subset hx)
  exact CertificateChoices.read_certificate c'

theorem rel_perm_map_sortByEncoding {α : Type} (f : α → Asn1) (o : Option (List α)) :
    Option.Rel List.Perm (o.map (sortByEncoding f)) o := by
  cases o with
  | none => exact .none
  | some l => exact .some (sortByEncoding_perm f l)

@[simp] theorem signedMessage_certificates (env : EnvelopedData) (sis : List SignerInfo)
    (certs : Option CertificateSet) :
    (signedMessage env sis certs).content.certificates =
      certs.map (sortByEncoding CertificateChoices.toAsn1) := rfl

/-- Read once more, the message's signer info keeps the attributes `finalize` signed, in another
order. -/
theorem sortAttrs_sortAttrs_perm {s : State} (hs : ∀ a ∈ s.cmsAttributes, WellShaped a)
    (env : EnvelopedData) (signer : Signer) (signature : Bytes) :
    (signerInfoOf signer (finalizedAttributes B s env) signature).sortAttrs.sortAttrs.signedAttrs.Perm
      (finalizedAttributes B s env) :=
  have h := sortAttrs_perm_finalizedAttributes B hs env signer signature
  (sortAttrs_perm_of_wellShaped fun a ha => wellShaped_finalizedAttributes B hs env a (h.subset ha)).trans h

/-- What a receiver loads from the DER of a message `finalize` returned: the message, read once
more. -/
theorem load_finalize (c : Certificate) (k : RsaPrivateKey) (cs : List Call) (d : FinalizeDraws)
    {m : ContentInfo} {s' : State} (h : (finalize B d).run (run B (init c k) cs) = .ok m s')
    (hlen : (Asn1.dump m.toAsn1).length < Der.maxLength) :
    ∃ env signature, rsassaPkcs1v15Sign B (lastSigner (c, k) cs).2 (Asn1.dump (cmsAttributesAsn1 0x31
        (finalizedAttributes B (run B (init c k) cs) env))) = .ok signature ∧
      m = signedMessage env [signerInfoOf ⟨issuerAndSerial (lastSigner (c, k) cs).1,
        (lastSigner (c, k) cs).1⟩ (finalizedAttributes B (run B (init c k) cs) env) signature]
        (run B (init c k) cs).certificates ∧
      ContentInfo.load (Asn1.dump m.toAsn1) = some ⟨m.contentType, m.content.sortSets⟩ := by
  obtain ⟨env, pk, signer, signature, -, hk, hs, hsig, rfl⟩ := finalize_ok_inv B h
  obtain ⟨hs', hk'⟩ := run_signedBy B (init_signedBy c k) cs
  rw [hs'] at hs
  rw [hk'] at hk
  cases hs
  cases hk
  exact ⟨env, signature, hsig, rfl, load_signedMessage env _ _ signature
    (run_certificatesParsed B (s := init c k) (fun _ h => by cases h) cs) hlen⟩

set_option maxRecDepth 100000 in
/-- The sample message fits DER's length octets. -/
theorem length_dump_sample_lt {m : ContentInfo} {s' : State}
    (h : (finalize plainBackend sampleDraws).run
      (run plainBackend (init sampleCert sampleKey) sampleCalls) = .ok m s') :
    (Asn1.dump m.toAsn1).length < Der.maxLength := by
  cases h
  decide

/-- The certificate set of a message `finalize` returns is absent when the run made no
`certificates` call, and otherwise loads through `certificates_from_asn1` to the certificates
of the last such call, ordered by their DER encodings as asn1crypto reads the set back. -/
theorem finalize_certificates_of_last_call (c : Certificate) (k : RsaPrivateKey) (cs : List Call)
    (d : FinalizeDraws) {m : ContentInfo} {s' : State}
    (h : (finalize B d).run (run B (init c k) cs) = .ok m s') :
    (lastCertificates cs = none ∧ m.content.certificates = none) ∨
      ∃ l certSet, lastCertificates cs = some l ∧ m.content.certificates = some certSet ∧
        certificatesFromAsn1 certSet = .ok (sortByEncoding (fun c : Certificate => c.fields.tree) l) := by
  obtain ⟨env, -, signer, signature, -, -, -, -, rfl⟩ := finalize_ok_inv B h
  have hc := run_certificates_field B (init c k) cs
  rcases hl : lastCertificates cs with _ | l
  · rw [hl] at hc
    exact .inl ⟨rfl, by rw [signedMessage_certificates, hc]; rfl⟩
  · rw [hl] at hc
    refine .inr ⟨l, _, rfl, by rw [signedMessage_certificates, hc]; rfl, ?_⟩
    rw [sortByEncoding_map]
    exact certificatesFromAsn1_map _

theorem finalize_certificates_of_last_call_sample :
    ∃ m s', (finalize plainBackend sampleDraws).run (run plainBackend (init sampleCert sampleKey)
        (.certificates [sampleCert] :: sampleCalls)) = .ok m s' ∧
      ∃ certSet, m.content.certificates = some certSet ∧
        certificatesFromAsn1 certSet = .ok [sampleCert] := by
  obtain ⟨m, s', h⟩ := finalize_returns_sample
    (s := run plainBackend (init sampleCert sampleKey) (Call.certificates [sampleCert] :: sampleCalls))
    rfl rfl rfl rfl
  rcases finalize_certificates_of_last_call plainBackend _ _ _ _ h with ⟨hl, -⟩ | ⟨l, certSet, hl, hm, hload⟩
  · cases hl
  · cases hl
    exact ⟨m, s', h, certSet, hm, hload⟩

set_option maxRecDepth 100000 in
/-- The sample message with the sample certificate attached fits a `bytes` object. -/
theorem length_dump_sample_certificates_lt {m : ContentInfo} {s' : State}
    (h : (finalize plainBackend sampleDraws).run (run plainBackend (init sampleCert sampleKey)
      (.certificates [sampleCert] :: sampleCalls)) = .ok m s') :
    (Asn1.dump m.toAsn1).length < 2 ^ 63 := by
  cases h
  decide

end PKIMessageBuilder

/-! ### Sets loaded from DER -/

/-- A member that asn1crypto parsed from a valid value fails `certificates_from_asn1`'s
assertion, or is a value `cryptography` cannot load, or loads to a certificate whose parse is
that member. -/
theorem loadCertificateChoice_read {x : Asn1} {cc : CertificateChoices}
    (h : CertificateChoices.read x = some cc) (hv : x.valid) (hl : (Asn1.dump x).length < 2 ^ 63) :
    (∃ e, loadCertificateChoice cc = .error e ∧
        (e = .assertionError ∨ e = .valueError "Unable to load certificate")) ∨
      ∃ c, loadCertificateChoice cc = .ok c ∧ cc = .certificate (parseCertificate c).tree := by
  unfold CertificateChoices.read at h
  split at h
  · rename_i t cs
    cases h
    rcases hf : readCertificate (Asn1.dump (.cons 0x30 cs)) with _ | f
    · exact .inl ⟨_, loadDerX509Certificate_of_read_none hf, .inr rfl⟩
    · exact .inr ⟨⟨_, f, hf, hl⟩, loadDerX509Certificate_of_read hf hl, by
        simp [parseCertificate, readCertificate_tree hv hf]⟩
  · split_ifs at h
    cases h
    exact .inl ⟨_, rfl, .inl rfl⟩
  · cases h

theorem certificatesFromAsn1_of_read {cs : List Asn1} {certSet : CertificateSet}
    (h : cs.mapM CertificateChoices.read = some certSet)
    (hv : ∀ x ∈ cs, x.valid ∧ (Asn1.dump x).length < 2 ^ 63) :
    (∃ e, certificatesFromAsn1 certSet = .error e ∧
        (e = .assertionError ∨ e = .valueError "Unable to load certificate")) ∨
      ∃ l, certificatesFromAsn1 certSet = .ok l ∧
        l.map (fun c => .certificate (parseCertificate c).tree) = certSet := by
  induction cs generalizing certSet with
  | nil => cases h; exact .inr ⟨[], rfl, rfl⟩
  | cons x xs ih =>
    simp only [List.mapM_cons, Option.pure_def, Option.bind_eq_bind, Option.bind_eq_some] at h
    obtain ⟨cc, hcc, rest, hrest, h⟩ := h
    cases h
    rcases loadCertificateChoice_read hcc (hv x (List.mem_cons_self _ _)).1
      (hv x (List.mem_cons_self _ _)).2 with ⟨e, he, hle⟩ | ⟨c, hc, rfl⟩
    · exact .inl ⟨e, by simp only [certificatesFromAsn1, List.mapM_cons, he]; rfl, hle⟩
    rcases ih hrest (fun y hy => hv y (List.mem_cons_of_mem _ hy)) with ⟨e, he, hle⟩ | ⟨l, hl, rfl⟩
    · refine .inl ⟨e, ?_, hle⟩
      simp only [certificatesFromAsn1, List.mapM_cons, hc] at he ⊢
      rw [he]; rfl
    · right
      refine ⟨c :: l, ?_, rfl⟩
      simp only [certificatesFromAsn1, List.mapM_cons, hc] at hl ⊢
      rw [hl]; rfl

end Scep
