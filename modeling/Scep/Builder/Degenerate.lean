import Scep.Builder.Message
import Scep.Cms.Read

/-! The module-level helpers of `builders.py`: `certificates_from_asn1`, which loads every
member of a `CertificateSet` back through `cryptography`, and `create_degenerate_certificate`,
meant as the PKCS#7 degenerate case that carries one certificate and no signer. A set that
`PKIMessageBuilder.certificates` stores loads back to the certificates it was given. The
degenerate message leaves two required fields of its `SignedData` unset, so asn1crypto cannot
parse its content: reading it, or loading its DER, fails. -/
namespace Scep

/-- One pass of `certificates_from_asn1`'s loop: the `assert` on `cert.chosen`, then
`x509.load_der_x509_certificate(cert_choice.dump(), default_backend())`. -/
def loadCertificateChoice : CertificateChoices → Except PyError Certificate
  | .certificate t => loadDerX509Certificate (Asn1.dump t)
  | .other _ => .error .assertionError

/-- `certificates_from_asn1(cert_set)`: the loop raises at the first member it cannot load. -/
def certificatesFromAsn1 (certSet : CertificateSet) : Except PyError (List Certificate) :=
  certSet.mapM loadCertificateChoice

/-- `create_degenerate_certificate(certificate)`. The `ContentInfo` constructor keeps `sd` as the
encoding of the fields set on it, and an unset field, here `digest_algorithms` and
`signer_infos`, encodes to nothing; the encapsulated content is a bare `data` content type. -/
def createDegenerateCertificate (certificate : Certificate) : Asn1 :=
  let asn1cert := parseCertificate certificate
  let empty : EncapsulatedContentInfo := ⟨Oid.data, none⟩
  let sd : SignedData := ⟨1, none, empty, some [.certificate asn1cert.tree], none⟩
  ContentInfo.toAsn1 ⟨Oid.signedData, sd⟩

/-- A certificate parsed from its own DER dumps back to that DER and loads as itself. -/
@[simp] theorem loadCertificateChoice_parseCertificate (c : Certificate) :
    loadCertificateChoice (.certificate (parseCertificate c).tree) = .ok c := by
  rw [loadCertificateChoice, parseCertificate, ← c.der_eq, loadDerX509Certificate_der]

theorem certificatesFromAsn1_map (cs : List Certificate) :
    certificatesFromAsn1 (cs.map fun c => .certificate (parseCertificate c).tree) = .ok cs := by
  induction cs with
  | nil => rfl
  | cons c cs ih =>
    simp only [certificatesFromAsn1, List.map_cons, List.mapM_cons,
      loadCertificateChoice_parseCertificate] at ih ⊢
    rw [ih]
    rfl

theorem run_certificates (cs : List Certificate) (s : PKIMessageBuilder.State) :
    (PKIMessageBuilder.certificates cs).run s =
      .ok () { s with certificates := some (cs.map fun c => .certificate (parseCertificate c).tree) } :=
  rfl

/-- The degenerate message's encoding is its certificate's DER with a few dozen octets around it. -/
theorem length_dump_degenerate_lt (c : Certificate) :
    (Asn1.dump (createDegenerateCertificate c)).length < Der.maxLength := by
  have hL := c.length_der_lt
  rw [c.der_eq] at hL
  have h1 := Asn1.length_dump_cons_le 0xa0 [c.fields.tree]
  have h2 := Asn1.length_dump_cons_le 0x30
    [.integer 1, .sequence [.oid Oid.data], .cons 0xa0 [c.fields.tree]]
  have h3 := Asn1.length_dump_cons_le 0xa0
    [.sequence [.integer 1, .sequence [.oid Oid.data], .cons 0xa0 [c.fields.tree]]]
  have h4 := Asn1.length_dump_cons_le 0x30 [.oid Oid.signedData,
    .cons 0xa0 [.sequence [.integer 1, .sequence [.oid Oid.data], .cons 0xa0 [c.fields.tree]]]]
  have hi : (Asn1.dump (.integer 1)).length = 3 := by decide
  have hd : (Asn1.dump (.sequence [.oid Oid.data])).length = 13 := by decide
  have hs : (Asn1.dump (.oid Oid.signedData)).length = 11 := by decide
  simp only [List.map_cons, List.map_nil, List.sum_cons, List.sum_nil, Asn1.sequence] at *
  simp only [createDegenerateCertificate, ContentInfo.toAsn1, SignedData.toAsn1,
    EncapsulatedContentInfo.toAsn1, parseCertificate, CertificateChoices.toAsn1, Asn1.setOf,
    Asn1.sequence, Option.toList, Option.map, List.map_cons, List.map_nil, List.insertionSort,
    List.orderedInsert, List.cons_append, List.nil_append, List.singleton_append]
  norm_num [Der.maxLength]
  omega

theorem valid_degenerate (c : Certificate) : (createDegenerateCertificate c).valid := by
  have ht : (createDegenerateCertificate c).tagged := by
    have := Asn1.tagged_of_valid _ c.valid_tree
    simp [createDegenerateCertificate, ContentInfo.toAsn1, SignedData.toAsn1,
      EncapsulatedContentInfo.toAsn1, parseCertificate, CertificateChoices.toAsn1, Asn1.sequence,
      Asn1.setOf, Asn1.integer, Asn1.oid, UInt8.size, this]
  exact Asn1.valid_of_tagged _ ht (length_dump_degenerate_lt c)

/-- `certificates(*cs)` returns, and the set it stores loads back through
`certificates_from_asn1`, with no failed assertion, to `cs` itself, in order. The degenerate
message for a certificate `c` holds a `SignedData` of three values, so the parse that the first
read of its content runs finds no value for `signer_infos` and raises, and its DER does not load. -/
theorem certificates_round_trip_degenerate_unreadable (cs : List Certificate)
    (s : PKIMessageBuilder.State) (c : Certificate) :
    (∃ certSet, (PKIMessageBuilder.certificates cs).run s =
        .ok () { s with certificates := some certSet } ∧ certificatesFromAsn1 certSet = .ok cs) ∧
      (∃ children, createDegenerateCertificate c =
          .sequence [.oid Oid.signedData, .cons 0xa0 [.sequence children]] ∧
        SignedData.assign children = .error (missingField "signer_infos")) ∧
      ContentInfo.load (Asn1.dump (createDegenerateCertificate c)) = none := by
  refine ⟨⟨_, run_certificates cs s, certificatesFromAsn1_map cs⟩, ⟨_, rfl, rfl⟩, ?_⟩
  simp only [ContentInfo.load, Asn1.decode_dump (valid_degenerate c), Option.some_bind]
  rfl

end Scep
