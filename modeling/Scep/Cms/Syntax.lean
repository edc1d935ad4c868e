import Scep.X509

/-! The asn1crypto `cms` values the builder assembles, as records, each with the `Asn1` value
it encodes to. A field asn1crypto leaves unset is `none` and encodes to nothing; a CHOICE
alternative without a tag encodes as the value it holds; every `SetOf` encodes its children
in sorted order. -/
namespace Scep

namespace Oid
def data : Oid := ofArcs [1, 2, 840, 113549, 1, 7, 1]
def signedData : Oid := ofArcs [1, 2, 840, 113549, 1, 7, 2]
def tripledes3key : Oid := ofArcs [1, 2, 840, 113549, 3, 7]
def sha256Rsa : Oid := ofArcs [1, 2, 840, 113549, 1, 1, 11]
end Oid

/-- `DigestAlgorithm`, `SignedDigestAlgorithm`, `KeyEncryptionAlgorithm`, `EncryptionAlgorithm`. -/
structure AlgorithmIdentifier where
  algorithm : Oid
  parameters : Option Asn1

def AlgorithmIdentifier.toAsn1 (a : AlgorithmIdentifier) : Asn1 :=
  .sequence (.oid a.algorithm :: a.parameters.toList)

structure IssuerAndSerialNumber where
  issuer : Asn1
  serialNumber : ℤ

def IssuerAndSerialNumber.toAsn1 (i : IssuerAndSerialNumber) : Asn1 :=
  .sequence [i.issuer, .integer i.serialNumber]

/-- The names `CMSAttribute` accepts once the module swaps in `SCEPCMSAttributeType`. -/
inductive CMSAttributeType
  | messageType | pkiStatus | failInfo | senderNonce | recipientNonce | transactionId
  | contentType | messageDigest
  deriving DecidableEq, Repr

/-- Modelled from the spec: `scep.asn1.SCEPCMSAttributeType` is not among the sources; the
SCEP types take the OIDs of the SCEP draft the class docstring cites, the two CMS types
those of asn1crypto's `CMSAttributeType`. -/
def CMSAttributeType.oid : CMSAttributeType → Oid
  | .messageType => Oid.ofArcs [2, 16, 840, 1, 113733, 1, 9, 2]
  | .pkiStatus => Oid.ofArcs [2, 16, 840, 1, 113733, 1, 9, 3]
  | .failInfo => Oid.ofArcs [2, 16, 840, 1, 113733, 1, 9, 4]
  | .senderNonce => Oid.ofArcs [2, 16, 840, 1, 113733, 1, 9, 5]
  | .recipientNonce => Oid.ofArcs [2, 16, 840, 1, 113733, 1, 9, 6]
  | .transactionId => Oid.ofArcs [2, 16, 840, 1, 113733, 1, 9, 7]
  | .contentType => Oid.ofArcs [1, 2, 840, 113549, 1, 9, 3]
  | .messageDigest => Oid.ofArcs [1, 2, 840, 113549, 1, 9, 4]

/-- The SCEP types, as against the two CMS ones. -/
def CMSAttributeType.isScep : CMSAttributeType → Bool
  | .contentType | .messageDigest => false
  | _ => true

/-- asn1crypto's `PrintableString`: it keeps the text and encodes it as latin-1 when set, so
only text whose characters are all below 256 can be held. -/
structure PrintableString where
  text : String
  latin1 : text.toList.all (fun c => decide (c.toNat < 256)) = true
  deriving DecidableEq

def PrintableString.contents (p : PrintableString) : Bytes := p.text.toList.map (·.toNat.toUInt8)

inductive AttributeValue
  | printableString (p : PrintableString)
  | octetString (b : Bytes)
  | objectIdentifier (o : Oid)
  deriving DecidableEq

def AttributeValue.toAsn1 : AttributeValue → Asn1
  | .printableString p => .printableString p.contents
  | .octetString b => .octetString b
  | .objectIdentifier o => .oid o

structure CMSAttribute where
  type : CMSAttributeType
  values : List AttributeValue
  deriving DecidableEq

def CMSAttribute.toAsn1 (a : CMSAttribute) : Asn1 :=
  .sequence [.oid a.type.oid, .setOf 0x31 (a.values.map AttributeValue.toAsn1)]

/-- `CMSAttributes`, a `SET OF CMSAttribute`; `signed_attrs` carries it under `[0] IMPLICIT`. -/
def cmsAttributesAsn1 (tag : UInt8) (attrs : List CMSAttribute) : Asn1 :=
  .setOf tag (attrs.map CMSAttribute.toAsn1)

/-- The encoding of a `SET OF` attributes does not depend on their order. -/
theorem dump_cmsAttributesAsn1_perm (tag : UInt8) {attrs attrs' : List CMSAttribute}
    (h : attrs.Perm attrs') :
    Asn1.dump (cmsAttributesAsn1 tag attrs) = Asn1.dump (cmsAttributesAsn1 tag attrs') :=
  Asn1.dump_setOf_perm tag (h.map _)

structure KeyTransRecipientInfo where
  version : ℤ
  rid : IssuerAndSerialNumber
  keyEncryptionAlgorithm : AlgorithmIdentifier
  encryptedKey : Bytes

/-- `RecipientInfo`: `ktri` is untagged; the tagged alternatives are kept as read. -/
inductive RecipientInfo
  | ktri (k : KeyTransRecipientInfo)
  | other (v : Asn1)

def RecipientInfo.toAsn1 : RecipientInfo → Asn1
  | .ktri k => .sequence [.integer k.version, k.rid.toAsn1, k.keyEncryptionAlgorithm.toAsn1,
      .octetString k.encryptedKey]
  | .other v => v

structure EncryptedContentInfo where
  contentType : Oid
  contentEncryptionAlgorithm : AlgorithmIdentifier
  encryptedContent : Option Bytes

def EncryptedContentInfo.toAsn1 (e : EncryptedContentInfo) : Asn1 :=
  .sequence ([.oid e.contentType, e.contentEncryptionAlgorithm.toAsn1] ++
    (e.encryptedContent.map (.prim 0x80)).toList)

structure EnvelopedData where
  version : ℤ
  recipientInfos : List RecipientInfo
  encryptedContentInfo : EncryptedContentInfo

def EnvelopedData.toAsn1 (e : EnvelopedData) : Asn1 :=
  .sequence [.integer e.version, .setOf 0x31 (e.recipientInfos.map RecipientInfo.toAsn1),
    e.encryptedContentInfo.toAsn1]

/-- `CertificateChoices`: the `certificate` alternative, held as the value of the asn1crypto
`Certificate` it wraps, or another one kept as read. -/
inductive CertificateChoices
  | certificate (tree : Asn1)
  | other (v : Asn1)

def CertificateChoices.toAsn1 : CertificateChoices → Asn1
  | .certificate t => t
  | .other v => v

abbrev CertificateSet := List CertificateChoices

structure SignerInfo where
  version : ℤ
  sid : IssuerAndSerialNumber
  digestAlgorithm : AlgorithmIdentifier
  signedAttrs : List CMSAttribute
  signatureAlgorithm : AlgorithmIdentifier
  signature : Bytes

def SignerInfo.toAsn1 (si : SignerInfo) : Asn1 :=
  .sequence [.integer si.version, si.sid.toAsn1, si.digestAlgorithm.toAsn1,
    cmsAttributesAsn1 0xa0 si.signedAttrs, si.signatureAlgorithm.toAsn1, .octetString si.signature]

/-- A `ContentInfo` of type data, as `encap_content_info`: its octets under `[0] EXPLICIT`. -/
structure EncapsulatedContentInfo where
  contentType : Oid
  content : Option Bytes

def EncapsulatedContentInfo.toAsn1 (e : EncapsulatedContentInfo) : Asn1 :=
  .sequence (.oid e.contentType :: (e.content.map fun b => .cons 0xa0 [.octetString b]).toList)

structure SignedData where
  version : ℤ
  digestAlgorithms : Option (List AlgorithmIdentifier)
  encapContentInfo : EncapsulatedContentInfo
  certificates : Option CertificateSet
  signerInfos : Option (List SignerInfo)

def SignedData.toAsn1 (sd : SignedData) : Asn1 :=
  .sequence ([.integer sd.version] ++
    (sd.digestAlgorithms.map fun l => .setOf 0x31 (l.map AlgorithmIdentifier.toAsn1)).toList ++
    [sd.encapContentInfo.toAsn1] ++
    (sd.certificates.map fun l => .setOf 0xa0 (l.map CertificateChoices.toAsn1)).toList ++
    (sd.signerInfos.map fun l => .setOf 0x31 (l.map SignerInfo.toAsn1)).toList)

/-- `len(sd['signer_infos'])`: an unset field is asn1crypto's `Void`, of length zero. -/
def SignedData.signerInfoCount (sd : SignedData) : ℕ := (sd.signerInfos.getD []).length

/-- A top-level `ContentInfo` of type signed_data, its content under `[0] EXPLICIT`. -/
structure ContentInfo where
  contentType : Oid
  content : SignedData

def ContentInfo.toAsn1 (ci : ContentInfo) : Asn1 :=
  .sequence [.oid ci.contentType, .cons 0xa0 [ci.content.toAsn1]]

end Scep
