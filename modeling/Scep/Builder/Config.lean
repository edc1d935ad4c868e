import Scep.Cms.Syntax

/-! `PKIMessageBuilder`'s instance attributes and its configuration methods. Each method is
an `EStateM` program over the attributes: an exception keeps whatever the method wrote
before raising, as it does on a Python object. -/
namespace Scep

/-- Modelled from the spec: `scep.enums` is not among the sources. The members are the SCEP
message types, each with the PrintableString code its `value` holds (`"19"`, a request). -/
inductive MessageType
  | CertRep | RenewalReq | UpdateReq | PKCSReq | CertPoll | GetCert | GetCRL
  deriving DecidableEq, Repr

def MessageType.value : MessageType → PrintableString
  | .CertRep => ⟨"3", by decide⟩
  | .RenewalReq => ⟨"17", by decide⟩
  | .UpdateReq => ⟨"18", by decide⟩
  | .PKCSReq => ⟨"19", by decide⟩
  | .CertPoll => ⟨"20", by decide⟩
  | .GetCert => ⟨"21", by decide⟩
  | .GetCRL => ⟨"22", by decide⟩

/-- Modelled from the spec: `scep.enums.PKIStatus`, an enumerated status code. -/
inductive PKIStatus
  | SUCCESS | FAILURE | PENDING
  deriving DecidableEq, Repr

def PKIStatus.value : PKIStatus → PrintableString
  | .SUCCESS => ⟨"0", by decide⟩
  | .FAILURE => ⟨"2", by decide⟩
  | .PENDING => ⟨"3", by decide⟩

/-- Modelled from the spec: `scep.enums.FailInfo`, present only with a failure status. -/
inductive FailInfo
  | BadAlg | BadMessageCheck | BadRequest | BadTime | BadCertId
  deriving DecidableEq, Repr

def FailInfo.value : FailInfo → PrintableString
  | .BadAlg => ⟨"0", by decide⟩
  | .BadMessageCheck => ⟨"1", by decide⟩
  | .BadRequest => ⟨"2", by decide⟩
  | .BadTime => ⟨"3", by decide⟩
  | .BadCertId => ⟨"4", by decide⟩

/-- `sender_nonce`'s argument: `bytes`, an `OctetString`, or `None`, with the sixteen octets
`os.urandom(16)` returned. -/
inductive SenderNonceArg
  | bytes (b : Bytes)
  | octetString (b : Bytes)
  | omitted (urandom : Bytes) (length_urandom : urandom.length = 16)

def SenderNonceArg.octets : SenderNonceArg → Bytes
  | .bytes b | .octetString b | .omitted b _ => b

/-- `recipient_nonce`'s argument: `bytes` or an `OctetString`. -/
inductive RecipientNonceArg
  | bytes (b : Bytes)
  | octetString (b : Bytes)

def RecipientNonceArg.octets : RecipientNonceArg → Bytes
  | .bytes b | .octetString b => b

/-- `transaction_id`'s argument: `str`, a `PrintableString`, or `None`, with the text
`str(uuid4())` returned. -/
inductive TransIdArg
  | str (s : String)
  | printableString (p : PrintableString)
  | omitted (uuid : PrintableString)

/-- `n` in lowercase hexadecimal, padded with zeros to `width` digits (`%0*x`). -/
def hexPadded (width n : ℕ) : String :=
  String.mk (List.replicate (width - (Nat.toDigits 16 n).length) '0' ++ Nat.toDigits 16 n)

/-- How a codec error shows a character from 256 up: `\u` and four digits, or `\U` and eight. -/
def codecEscape (c : Char) : String :=
  if c.toNat ≤ 0xffff then "\\u" ++ hexPadded 4 c.toNat else "\\U" ++ hexPadded 8 c.toNat

/-- The text of the `UnicodeEncodeError` latin-1 encoding raises. CPython's encoder stops at the
first character from 256 up and reports the run of such characters it starts, by position. -/
def latin1ErrorText (cs : List Char) : String :=
  let start := cs.findIdx (fun c => decide (256 ≤ c.toNat))
  let run := ((cs.drop start).takeWhile (fun c => decide (256 ≤ c.toNat))).length
  if run = 1 then
    "'latin-1' codec can't encode character '" ++ codecEscape (cs.getD start 'a') ++
      "' in position " ++ toString start ++ ": ordinal not in range(256)"
  else
    "'latin-1' codec can't encode characters in position " ++ toString start ++ "-" ++
      toString (start + run - 1) ++ ": ordinal not in range(256)"

/-- `PrintableString(value)`: asn1crypto encodes the text as latin-1 when it is set. -/
def toPrintableString (s : String) : Except PyError PrintableString :=
  if h : s.toList.all (fun c => decide (c.toNat < 256)) = true then .ok ⟨s, h⟩
  else .error (.unicodeEncodeError (latin1ErrorText s.toList))

example : toPrintableString "Ā" = .error (.unicodeEncodeError
    "'latin-1' codec can't encode character '\\u0100' in position 0: ordinal not in range(256)") := by
  rfl

example : toPrintableString "abĀĀc" = .error (.unicodeEncodeError
    "'latin-1' codec can't encode characters in position 2-3: ordinal not in range(256)") := by
  rfl

def TransIdArg.printable : TransIdArg → Except PyError PrintableString
  | .str s => toPrintableString s
  | .printableString p | .omitted p => .ok p

namespace PKIMessageBuilder

/-- An entry of `_signers`; `_primary_signer` has the same shape. -/
structure Signer where
  sid : IssuerAndSerialNumber
  certificate : Certificate

/-- The attributes `__init__` creates, and `_issued`, which `issued` creates. -/
structure State where
  signers : List Signer
  primarySigner : Option Signer
  primarySignerKey : Option RsaPrivateKey
  cmsAttributes : List CMSAttribute
  certificates : Option CertificateSet
  encrypt : List Bytes
  recipient : Option Certificate
  issued : Option Certificate

section
variable {α β : Type} (s : State)

@[simp] theorem run_bind (x : EStateM PyError State α) (f : α → EStateM PyError State β) :
    (x >>= f).run s = match x.run s with
      | .ok a s' => (f a).run s'
      | .error e s' => .error e s' := by
  show EStateM.bind x f s = _
  unfold EStateM.bind EStateM.run
  cases x s <;> rfl

/-- The builder after a method, whether it returned or raised. -/
def stateAfter : EStateM.Result PyError State α → State
  | .ok _ s | .error _ s => s

@[simp] theorem stateAfter_ok (a : α) : stateAfter (.ok a s : EStateM.Result PyError State α) = s :=
  rfl
@[simp] theorem stateAfter_error (e : PyError) :
    stateAfter (.error e s : EStateM.Result PyError State α) = s := rfl

@[simp] theorem run_get : (get : EStateM PyError State State).run s = .ok s s := rfl
@[simp] theorem run_pure (a : α) : (pure a : EStateM PyError State α).run s = .ok a s := rfl
@[simp] theorem run_throw (e : PyError) : (throw e : EStateM PyError State α).run s = .error e s :=
  rfl

end

/-- `IssuerAndSerialNumber` of `parse_certificate(certificate.public_bytes(DER))`. -/
def issuerAndSerial (c : Certificate) : IssuerAndSerialNumber :=
  ⟨(parseCertificate c).issuer, (parseCertificate c).serialNumber⟩

def certificates (cs : List Certificate) : EStateM PyError State Unit :=
  modify fun s => { s with certificates := some (cs.map fun c => .certificate (parseCertificate c).tree) }

def addSigner (certificate : Certificate) (signerKey : RsaPrivateKey) : EStateM PyError State Unit :=
  modify fun s => { s with
    signers := s.signers ++ [⟨issuerAndSerial certificate, certificate⟩]
    primarySigner := some ⟨issuerAndSerial certificate, certificate⟩
    primarySignerKey := some signerKey }

/-- The shared tail of the attribute setters: `self._cms_attributes.append(attr)`. -/
def appendAttribute (attr : CMSAttribute) : EStateM PyError State Unit :=
  modify fun s => { s with cmsAttributes := s.cmsAttributes ++ [attr] }

def messageType (messageType : MessageType) : EStateM PyError State Unit :=
  appendAttribute ⟨.messageType, [.printableString messageType.value]⟩

def addRecipient (certificate : Certificate) : EStateM PyError State Unit :=
  modify fun s => { s with recipient := some certificate }

def encrypt (content : Bytes) : EStateM PyError State Unit :=
  modify fun s => { s with encrypt := s.encrypt ++ [content] }

/-- Appends the status first; only then does a failure without `failure_info` raise. -/
def pkiStatus (status : PKIStatus) (failureInfo : Option FailInfo) : EStateM PyError State Unit := do
  appendAttribute ⟨.pkiStatus, [.printableString status.value]⟩
  if status = .FAILURE then
    match failureInfo with
    | none => throw (.valueError "You cannot specify failure without failure info")
    | some f => appendAttribute ⟨.failInfo, [.printableString f.value]⟩

def senderNonce (nonce : SenderNonceArg) : EStateM PyError State Unit :=
  appendAttribute ⟨.senderNonce, [.octetString nonce.octets]⟩

def issued (c : Certificate) : EStateM PyError State Unit :=
  modify fun s => { s with issued := some c }

def recipientNonce (nonce : RecipientNonceArg) : EStateM PyError State Unit :=
  appendAttribute ⟨.recipientNonce, [.octetString nonce.octets]⟩

def transactionId (transId : TransIdArg) : EStateM PyError State Unit :=
  match transId.printable with
  | .error e => throw e
  | .ok p => appendAttribute ⟨.transactionId, [.printableString p]⟩

section
variable (s : State)

@[simp] theorem run_appendAttribute (a : CMSAttribute) :
    (appendAttribute a).run s = .ok () { s with cmsAttributes := s.cmsAttributes ++ [a] } := rfl

theorem run_pkiStatus (status : PKIStatus) (failureInfo : Option FailInfo) :
    (pkiStatus status failureInfo).run s =
      let s' := { s with cmsAttributes := s.cmsAttributes ++ [⟨.pkiStatus, [.printableString status.value]⟩] }
      if status = .FAILURE then
        match failureInfo with
        | none => .error (.valueError "You cannot specify failure without failure info") s'
        | some f => .ok () { s' with cmsAttributes := s'.cmsAttributes ++ [⟨.failInfo, [.printableString f.value]⟩] }
      else .ok () s' := by
  by_cases h : status = .FAILURE
  · subst h; cases failureInfo <;> rfl
  · simp only [pkiStatus, h, if_false]; rfl

theorem run_transactionId (transId : TransIdArg) :
    (transactionId transId).run s = match transId.printable with
      | .error e => .error e s
      | .ok p => .ok () { s with cmsAttributes := s.cmsAttributes ++ [⟨.transactionId, [.printableString p]⟩] } := by
  simp only [transactionId]; cases transId.printable <;> rfl

end

def emptyState : State := ⟨[], none, none, [], none, [], none, none⟩

/-- `__init__(signer_cert, signer_key)`: empty attributes, then `add_signer`, which does
not raise. -/
def init (signerCert : Certificate) (signerKey : RsaPrivateKey) : State :=
  stateAfter ((addSigner signerCert signerKey).run emptyState)

@[simp] theorem init_cmsAttributes (c : Certificate) (k : RsaPrivateKey) :
    (init c k).cmsAttributes = [] := rfl

end PKIMessageBuilder
end Scep
