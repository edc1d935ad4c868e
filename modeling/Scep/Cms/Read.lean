import Scep.Cms.Syntax

/-! asn1crypto's parse of the `cms` values the builder writes, as readers from `Asn1`.
`EnvelopedData.load` and `ContentInfo.load` are the classes' `load(der)`: decode, then read the
fields back. Each reader undoes the matching `toAsn1`, except that a `SET OF` is read back in
the order its encoding holds, sorted by the members' encodings (`sortByEncoding`). -/
namespace Scep

def AlgorithmIdentifier.read : Asn1 → Option AlgorithmIdentifier
  | .cons 0x30 [o] => (Asn1.readOid o).map fun a => ⟨a, none⟩
  | .cons 0x30 [o, p] => (Asn1.readOid o).map fun a => ⟨a, some p⟩
  | _ => none

def IssuerAndSerialNumber.read : Asn1 → Option IssuerAndSerialNumber
  | .cons 0x30 [issuer, serial] => (Asn1.readInteger serial).map fun z => ⟨issuer, z⟩
  | _ => none

/-- `ktri` is the untagged alternative; the context-tagged ones are kept as read. -/
def RecipientInfo.read : Asn1 → Option RecipientInfo
  | .cons 0x30 [v, rid, alg, ek] => do
    let version ← Asn1.readInteger v
    let rid ← IssuerAndSerialNumber.read rid
    let keyEncryptionAlgorithm ← AlgorithmIdentifier.read alg
    let encryptedKey ← Asn1.readOctetString ek
    pure (.ktri ⟨version, rid, keyEncryptionAlgorithm, encryptedKey⟩)
  | v@(.cons t _) => if t = 0xa1 ∨ t = 0xa2 ∨ t = 0xa3 ∨ t = 0xa4 then some (.other v) else none
  | _ => none

def EncryptedContentInfo.read : Asn1 → Option EncryptedContentInfo
  | .cons 0x30 [ct, alg] => do
    pure ⟨← Asn1.readOid ct, ← AlgorithmIdentifier.read alg, none⟩
  | .cons 0x30 [ct, alg, .prim 0x80 c] => do
    pure ⟨← Asn1.readOid ct, ← AlgorithmIdentifier.read alg, some c⟩
  | _ => none

/-- An `EnvelopedData` without `originator_info` or `unprotected_attrs`, as the builder
writes it. -/
def EnvelopedData.read : Asn1 → Option EnvelopedData
  | .cons 0x30 [v, .cons 0x31 ris, eci] => do
    pure ⟨← Asn1.readInteger v, ← ris.mapM RecipientInfo.read, ← EncryptedContentInfo.read eci⟩
  | _ => none

def EnvelopedData.load (der : Bytes) : Option EnvelopedData :=
  (Asn1.decode der).bind EnvelopedData.read

@[simp] theorem AlgorithmIdentifier.read_toAsn1 (a : AlgorithmIdentifier) :
    AlgorithmIdentifier.read a.toAsn1 = some a := by
  obtain ⟨o, _ | p⟩ := a <;> simp [AlgorithmIdentifier.read, AlgorithmIdentifier.toAsn1, Asn1.sequence]

@[simp] theorem IssuerAndSerialNumber.read_toAsn1 (i : IssuerAndSerialNumber) :
    IssuerAndSerialNumber.read i.toAsn1 = some i := by
  simp [IssuerAndSerialNumber.read, IssuerAndSerialNumber.toAsn1, Asn1.sequence]

@[simp] theorem RecipientInfo.read_ktri (k : KeyTransRecipientInfo) :
    RecipientInfo.read (RecipientInfo.ktri k).toAsn1 = some (.ktri k) := by
  simp [RecipientInfo.read, RecipientInfo.toAsn1, Asn1.sequence]

@[simp] theorem EncryptedContentInfo.read_toAsn1 (e : EncryptedContentInfo) :
    EncryptedContentInfo.read e.toAsn1 = some e := by
  obtain ⟨ct, alg, _ | c⟩ := e <;>
    simp [EncryptedContentInfo.read, EncryptedContentInfo.toAsn1, Asn1.sequence]

/-- An envelope for one key-transport recipient reads back as itself. -/
theorem EnvelopedData.read_toAsn1 (e : EnvelopedData) {k : KeyTransRecipientInfo}
    (h : e.recipientInfos = [.ktri k]) : EnvelopedData.read e.toAsn1 = some e := by
  obtain ⟨v, ris, eci⟩ := e
  cases h
  simp [EnvelopedData.read, EnvelopedData.toAsn1, Asn1.sequence, Asn1.setOf, List.insertionSort,
    List.mapM.loop]

theorem EnvelopedData.load_dump (e : EnvelopedData) {k : KeyTransRecipientInfo}
    (h : e.recipientInfos = [.ktri k]) (hv : e.toAsn1.valid) :
    EnvelopedData.load (Asn1.dump e.toAsn1) = some e := by
  simp [EnvelopedData.load, Asn1.decode_dump hv, EnvelopedData.read_toAsn1 e h]

/-! ### Signed data -/

/-- `PrintableString` contents, decoded as latin-1. -/
def PrintableString.ofContents (c : Bytes) : Option PrintableString :=
  let text := String.mk (c.map fun b => Char.ofNat b.toNat)
  if h : text.toList.all (fun ch => decide (ch.toNat < 256)) then some ⟨text, h⟩ else none

def AttributeValue.read : Asn1 → Option AttributeValue
  | .prim 0x13 c => (PrintableString.ofContents c).map .printableString
  | .prim 0x04 c => some (.octetString c)
  | .prim 0x06 c => some (.objectIdentifier ⟨c⟩)
  | _ => none

def CMSAttributeType.ofOid (o : Oid) : Option CMSAttributeType :=
  [CMSAttributeType.messageType, .pkiStatus, .failInfo, .senderNonce, .recipientNonce,
    .transactionId, .contentType, .messageDigest].find? (·.oid = o)

def CMSAttribute.read : Asn1 → Option CMSAttribute
  | .cons 0x30 [o, .cons 0x31 vs] => do
    pure ⟨← (Asn1.readOid o).bind CMSAttributeType.ofOid, ← vs.mapM AttributeValue.read⟩
  | _ => none

/-- A `SignerInfo` with `signed_attrs`, which the builder always writes. -/
def SignerInfo.read : Asn1 → Option SignerInfo
  | .cons 0x30 [v, sid, dalg, .cons 0xa0 attrs, salg, sig] => do
    pure ⟨← Asn1.readInteger v, ← IssuerAndSerialNumber.read sid, ← AlgorithmIdentifier.read dalg,
      ← attrs.mapM CMSAttribute.read, ← AlgorithmIdentifier.read salg, ← Asn1.readOctetString sig⟩
  | _ => none

/-- `CertificateChoices`: a `SEQUENCE` is the untagged `certificate` alternative, which asn1crypto
parses lazily, so every one is taken; the `[0]` to `[3]` alternatives are kept as read. -/
def CertificateChoices.read : Asn1 → Option CertificateChoices
  | t@(.cons 0x30 _) => some (.certificate t)
  | t@(.cons tag _) =>
    if tag = 0xa0 ∨ tag = 0xa1 ∨ tag = 0xa2 ∨ tag = 0xa3 then some (.other t) else none
  | .prim _ _ => none

def EncapsulatedContentInfo.read : Asn1 → Option EncapsulatedContentInfo
  | .cons 0x30 [o] => (Asn1.readOid o).map fun t => ⟨t, none⟩
  | .cons 0x30 [o, .cons 0xa0 [c]] => do pure ⟨← Asn1.readOid o, some (← Asn1.readOctetString c)⟩
  | _ => none

/-- A `SET OF` field under its tag, its members read one by one. -/
def readSetOf {α : Type} (tag : UInt8) (read : Asn1 → Option α) : Asn1 → Option (List α)
  | .cons t cs => if t = tag then cs.mapM read else none
  | .prim _ _ => none

/-- An optional `SET OF` field, unset or read. -/
def readOptionalSetOf {α : Type} (tag : UInt8) (read : Asn1 → Option α) :
    Option Asn1 → Option (Option (List α))
  | none => some none
  | some v => (readSetOf tag read v).map some

/-- Whether a value carries the context-specific tag `[n]`: asn1crypto compares the class and the
tag number, not whether the value is constructed. -/
def Asn1.hasContextTag (n : UInt8) : Asn1 → Bool
  | .cons t _ | .prim t _ => t = 0xa0 + n ∨ t = 0x80 + n

/-- An optional field takes the next value when that value carries its tag. -/
def takeOptional (n : UInt8) : List Asn1 → Option Asn1 × List Asn1
  | x :: rest => if x.hasContextTag n then (some x, rest) else (none, x :: rest)
  | [] => (none, [])

/-- The values of a `SignedData`, each assigned to its field and not yet read. -/
structure SignedDataFields where
  version : Asn1
  digestAlgorithms : Asn1
  encapContentInfo : Asn1
  certificates : Option Asn1
  crls : Option Asn1
  signerInfos : Asn1

/-- The `ValueError` asn1crypto raises for a required field its parse leaves without a value; the
parse adds the structure's type on a second line. -/
def missingField (name : String) : PyError :=
  .valueError ("Field \"" ++ name ++
    "\" is missing from structure\n    while parsing asn1crypto.cms.SignedData")

/-- asn1crypto's `Sequence._parse_children` for `SignedData`, which runs at the first read of any
of its fields: a required field takes the next value, whatever it is, and an optional one
(`certificates [0]`, `crls [1]`) only a value with its tag; values past the last field are kept
unnamed. -/
def SignedData.assign : List Asn1 → Except PyError SignedDataFields
  | [] => .error (missingField "version")
  | [_] => .error (missingField "digest_algorithms")
  | [_, _] => .error (missingField "encap_content_info")
  | v :: da :: e :: rest =>
    let (certificates, rest) := takeOptional 0 rest
    let (crls, rest) := takeOptional 1 rest
    match rest with
    | si :: _ => .ok ⟨v, da, e, certificates, crls, si⟩
    | [] => .error (missingField "signer_infos")

/-- Every field read as asn1crypto reads it on access. A `crls` field, which the builder never
writes, is outside the model. -/
def SignedData.ofFields (f : SignedDataFields) : Option SignedData :=
  if f.crls.isSome then none
  else do
    pure ⟨← Asn1.readInteger f.version,
      some (← readSetOf 0x31 AlgorithmIdentifier.read f.digestAlgorithms),
      ← EncapsulatedContentInfo.read f.encapContentInfo,
      ← readOptionalSetOf 0xa0 CertificateChoices.read f.certificates,
      some (← readSetOf 0x31 SignerInfo.read f.signerInfos)⟩

/-- A `SignedData` whose every field reads. -/
def SignedData.read : Asn1 → Option SignedData
  | .cons 0x30 children => (SignedData.assign children).toOption.bind SignedData.ofFields
  | _ => none

def ContentInfo.read : Asn1 → Option ContentInfo
  | .cons 0x30 [o, .cons 0xa0 [sd]] => do pure ⟨← Asn1.readOid o, ← SignedData.read sd⟩
  | _ => none

def ContentInfo.load (der : Bytes) : Option ContentInfo :=
  (Asn1.decode der).bind ContentInfo.read

/-- The order a `SET OF` holds its members in: by their encodings. -/
def sortByEncoding {α : Type} (f : α → Asn1) (l : List α) : List α :=
  l.insertionSort fun a b => Asn1.encodingLe (f a) (f b)

@[simp] theorem sortByEncoding_singleton {α : Type} (f : α → Asn1) (x : α) :
    sortByEncoding f [x] = [x] := rfl

theorem sortByEncoding_perm {α : Type} (f : α → Asn1) (l : List α) : (sortByEncoding f l).Perm l :=
  List.perm_insertionSort _ l

/-- Sorting by encoding commutes with a map that keeps the encodings. -/
theorem sortByEncoding_map {α β : Type} (f : β → Asn1) (g : α → β) (l : List α) :
    sortByEncoding f (l.map g) = (sortByEncoding (fun a => f (g a)) l).map g :=
  (List.map_insertionSort _ _ g l fun _ _ _ _ => Iff.rfl).symm

def CMSAttribute.sortValues (a : CMSAttribute) : CMSAttribute :=
  ⟨a.type, sortByEncoding AttributeValue.toAsn1 a.values⟩

def SignerInfo.sortAttrs (si : SignerInfo) : SignerInfo :=
  { si with
    signedAttrs := (sortByEncoding CMSAttribute.toAsn1 si.signedAttrs).map CMSAttribute.sortValues }

/-- A `SignedData` as it reads back from its encoding: every `SET OF` sorted. -/
def SignedData.sortSets (sd : SignedData) : SignedData :=
  { sd with
    digestAlgorithms := sd.digestAlgorithms.map (sortByEncoding AlgorithmIdentifier.toAsn1)
    certificates := sd.certificates.map (sortByEncoding CertificateChoices.toAsn1)
    signerInfos := sd.signerInfos.map fun l =>
      (sortByEncoding SignerInfo.toAsn1 l).map SignerInfo.sortAttrs }

theorem mapM_map_eq_some {α β γ : Type} {read : β → Option γ} {f : α → β} {g : α → γ}
    {l : List α} (h : ∀ x ∈ l, read (f x) = some (g x)) : (l.map f).mapM read = some (l.map g) := by
  induction l with
  | nil => rfl
  | cons x l ih =>
    simp only [List.map_cons, List.mapM_cons, h x (List.mem_cons_self x l),
      ih fun y hy => h y (List.mem_cons_of_mem x hy)]
    rfl

/-- Reading a `SET OF` back gives its members sorted by their encodings. -/
theorem mapM_read_setOf {α β : Type} {read : Asn1 → Option β} {f : α → Asn1} {g : α → β}
    {l : List α} (h : ∀ x ∈ l, read (f x) = some (g x)) :
    ((l.map f).insertionSort Asn1.encodingLe).mapM read = some ((sortByEncoding f l).map g) := by
  rw [← List.map_insertionSort (fun a b => Asn1.encodingLe (f a) (f b)) Asn1.encodingLe f l
    fun _ _ _ _ => Iff.rfl]
  exact mapM_map_eq_some fun x hx => h x (List.mem_insertionSort _ |>.mp hx)

@[simp] theorem PrintableString.ofContents_contents (p : PrintableString) :
    PrintableString.ofContents p.contents = some p := by
  obtain ⟨⟨cs⟩, h⟩ := p
  have hcs : (cs.map fun ch => ch.toNat.toUInt8).map (fun b => Char.ofNat b.toNat) = cs := by
    rw [List.map_map]
    refine (List.map_congr_left fun ch hch => ?_).trans (List.map_id cs)
    have := of_decide_eq_true (List.all_eq_true.mp h ch hch)
    simp [toNat_toUInt8 this]
  simp only [PrintableString.ofContents, PrintableString.contents, String.toList, hcs]
  exact dif_pos h

@[simp] theorem AttributeValue.read_toAsn1 (v : AttributeValue) :
    AttributeValue.read v.toAsn1 = some v := by
  cases v <;> simp [AttributeValue.read, AttributeValue.toAsn1, Asn1.printableString,
    Asn1.octetString, Asn1.oid]

@[simp] theorem CMSAttributeType.ofOid_oid (t : CMSAttributeType) : CMSAttributeType.ofOid t.oid = some t := by
  cases t <;> rfl

@[simp] theorem CMSAttribute.read_toAsn1 (a : CMSAttribute) :
    CMSAttribute.read a.toAsn1 = some a.sortValues := by
  have hvs := mapM_read_setOf (l := a.values) (g := id) fun v _ => AttributeValue.read_toAsn1 v
  rw [List.map_id] at hvs
  simp only [CMSAttribute.read, CMSAttribute.toAsn1, Asn1.sequence, Asn1.setOf, Asn1.readOid_oid,
    Option.some_bind, CMSAttributeType.ofOid_oid, hvs]
  rfl

@[simp] theorem SignerInfo.read_toAsn1 (si : SignerInfo) :
    SignerInfo.read si.toAsn1 = some si.sortAttrs := by
  have has := mapM_read_setOf (l := si.signedAttrs) fun a _ => CMSAttribute.read_toAsn1 a
  simp only [SignerInfo.read, SignerInfo.toAsn1, cmsAttributesAsn1, Asn1.sequence, Asn1.setOf,
    Asn1.readInteger_integer, IssuerAndSerialNumber.read_toAsn1, AlgorithmIdentifier.read_toAsn1,
    Asn1.readOctetString_octetString, has, Option.some_bind]
  rfl

@[simp] theorem EncapsulatedContentInfo.read_toAsn1 (e : EncapsulatedContentInfo) :
    EncapsulatedContentInfo.read e.toAsn1 = some e := by
  obtain ⟨o, _ | b⟩ := e <;>
    simp [EncapsulatedContentInfo.read, EncapsulatedContentInfo.toAsn1, Asn1.sequence]

/-- A certificate's value is a `SEQUENCE`, so it reads back as the `certificate` alternative. -/
theorem CertificateChoices.read_certificate (c : Certificate) :
    CertificateChoices.read (CertificateChoices.certificate (parseCertificate c).tree).toAsn1 =
      some (.certificate (parseCertificate c).tree) := by
  obtain ⟨cs, hcs⟩ := c.tree_sequence
  simp only [CertificateChoices.toAsn1, parseCertificate, hcs, CertificateChoices.read]

theorem readSetOf_setOf {α β : Type} {tag : UInt8} {read : Asn1 → Option α} {f : β → Asn1}
    {g : β → α} {l : List β} (h : ∀ x ∈ l, read (f x) = some (g x)) :
    readSetOf tag read (Asn1.setOf tag (l.map f)) = some ((sortByEncoding f l).map g) := by
  simp only [readSetOf, Asn1.setOf, if_pos, mapM_read_setOf h]

@[simp] theorem takeOptional_certificates (cs rest : List Asn1) :
    takeOptional 0 (Asn1.setOf 0xa0 cs :: rest) = (some (Asn1.setOf 0xa0 cs), rest) := rfl

@[simp] theorem takeOptional_set_certificates (cs rest : List Asn1) :
    takeOptional 0 (Asn1.setOf 0x31 cs :: rest) = (none, Asn1.setOf 0x31 cs :: rest) := rfl

@[simp] theorem takeOptional_set_crls (cs rest : List Asn1) :
    takeOptional 1 (Asn1.setOf 0x31 cs :: rest) = (none, Asn1.setOf 0x31 cs :: rest) := rfl

/-- A signed data with its digest algorithms and signer infos set reads back with its sets sorted,
when each certificate it holds reads back as itself. -/
theorem SignedData.read_toAsn1 (sd : SignedData) {das : List AlgorithmIdentifier}
    {sis : List SignerInfo} (hd : sd.digestAlgorithms = some das) (hs : sd.signerInfos = some sis)
    (hc : ∀ certs ∈ sd.certificates, ∀ x ∈ certs, CertificateChoices.read x.toAsn1 = some x) :
    SignedData.read sd.toAsn1 = some sd.sortSets := by
  obtain ⟨v, _, e, certs, _⟩ := sd
  cases hd
  cases hs
  have hcerts : readOptionalSetOf 0xa0 CertificateChoices.read
      (certs.map fun l => .setOf 0xa0 (l.map CertificateChoices.toAsn1)) =
        some (certs.map (sortByEncoding CertificateChoices.toAsn1)) := by
    rcases certs with _ | l
    · rfl
    · simp only [Option.map_some', readOptionalSetOf, readSetOf_setOf (hc l rfl), List.map_id']
  rcases certs with _ | l <;>
    simp only [SignedData.read, SignedData.toAsn1, Asn1.sequence, Option.map_some', Option.map_none',
      Option.toList_some, Option.toList_none, List.cons_append, List.nil_append, List.singleton_append,
      List.append_nil, SignedData.assign, takeOptional_certificates, takeOptional_set_certificates,
      takeOptional_set_crls, Except.toOption, Option.some_bind, SignedData.ofFields,
      Option.isSome_none, Bool.false_eq_true, if_false, Asn1.readInteger_integer,
      EncapsulatedContentInfo.read_toAsn1, readSetOf_setOf fun a _ => AlgorithmIdentifier.read_toAsn1 a,
      readSetOf_setOf fun si _ => SignerInfo.read_toAsn1 si, List.map_id', Option.pure_def,
      Option.bind_eq_bind] at hcerts ⊢
  all_goals simp only [hcerts, Option.some_bind]; rfl

theorem ContentInfo.read_toAsn1 (ci : ContentInfo) {das : List AlgorithmIdentifier}
    {sis : List SignerInfo} (hd : ci.content.digestAlgorithms = some das)
    (hs : ci.content.signerInfos = some sis)
    (hc : ∀ certs ∈ ci.content.certificates, ∀ x ∈ certs, CertificateChoices.read x.toAsn1 = some x) :
    ContentInfo.read ci.toAsn1 = some ⟨ci.contentType, ci.content.sortSets⟩ := by
  simp [ContentInfo.read, ContentInfo.toAsn1, Asn1.sequence, SignedData.read_toAsn1 _ hd hs hc]

theorem ContentInfo.load_dump (ci : ContentInfo) {das : List AlgorithmIdentifier}
    {sis : List SignerInfo} (hd : ci.content.digestAlgorithms = some das)
    (hs : ci.content.signerInfos = some sis)
    (hc : ∀ certs ∈ ci.content.certificates, ∀ x ∈ certs, CertificateChoices.read x.toAsn1 = some x)
    (hv : ci.toAsn1.valid) :
    ContentInfo.load (Asn1.dump ci.toAsn1) = some ⟨ci.contentType, ci.content.sortSets⟩ := by
  simp [ContentInfo.load, Asn1.decode_dump hv, ContentInfo.read_toAsn1 ci hd hs hc]

/-! ### What the readers accept -/

theorem takeOptional_mem {n : UInt8} {l rest : List Asn1} {x : Asn1}
    (h : takeOptional n l = (some x, rest)) : x ∈ l := by
  unfold takeOptional at h
  split at h
  · split_ifs at h
    · cases h
      exact List.mem_cons_self _ _
    · cases h
  · cases h

theorem SignedData.assign_certificates_mem {children : List Asn1} {f : SignedDataFields} {c : Asn1}
    (h : SignedData.assign children = .ok f) (hc : f.certificates = some c) : c ∈ children := by
  match children, h with
  | [], h | [_], h | [_, _], h => simp [SignedData.assign] at h
  | v :: da :: e :: rest, h =>
    rcases h0 : takeOptional 0 rest with ⟨certs, rest'⟩
    rcases h1 : takeOptional 1 rest' with ⟨crls, _ | ⟨si, _⟩⟩ <;>
      simp only [SignedData.assign, h0, h1, reduceCtorEq, Except.ok.injEq] at h
    subst h
    subst hc
    exact .tail _ (.tail _ (.tail _ (takeOptional_mem h0)))

theorem readSetOf_some {α : Type} {tag : UInt8} {read : Asn1 → Option α} {v : Asn1} {xs : List α}
    (h : readSetOf tag read v = some xs) : ∃ cs, v = .cons tag cs ∧ cs.mapM read = some xs := by
  unfold readSetOf at h
  split at h
  · split_ifs at h with ht
    exact ⟨_, by rw [ht], h⟩
  · cases h

/-- A certificate set read from a signed data is a `[0]` child of it, each member read from a
child of that. -/
theorem SignedData.read_certificates {t : Asn1} {sd : SignedData} {certSet : CertificateSet}
    (h : SignedData.read t = some sd) (hc : sd.certificates = some certSet) :
    ∃ children cs, t = .cons 0x30 children ∧ Asn1.cons 0xa0 cs ∈ children ∧
      cs.mapM CertificateChoices.read = some certSet := by
  unfold SignedData.read at h
  split at h
  · rename_i children
    rcases hassign : SignedData.assign children with e | f
    · rw [hassign] at h; cases h
    rw [hassign] at h
    simp only [Except.toOption, Option.some_bind, SignedData.ofFields] at h
    split_ifs at h
    simp only [Option.pure_def, Option.bind_eq_bind, Option.bind_eq_some, Option.some.injEq] at h
    obtain ⟨version, -, das, -, encap, -, certs, hcerts, sis, -, rfl⟩ := h
    cases hc
    rcases hf : f.certificates with _ | v
    · rw [hf] at hcerts; cases hcerts
    rw [hf, readOptionalSetOf] at hcerts
    obtain ⟨xs, hxs, hsome⟩ := Option.map_eq_some'.mp hcerts
    cases hsome
    obtain ⟨cs, rfl, hcs⟩ := readSetOf_some hxs
    exact ⟨children, cs, rfl, SignedData.assign_certificates_mem hassign hf, hcs⟩
  · cases h

theorem ContentInfo.read_some {t : Asn1} {m : ContentInfo} (h : ContentInfo.read t = some m) :
    ∃ o sdt, t = .cons 0x30 [o, .cons 0xa0 [sdt]] ∧ SignedData.read sdt = some m.content := by
  unfold ContentInfo.read at h
  split at h
  · rename_i o sdt
    simp only [Option.pure_def, Option.bind_eq_bind, Option.bind_eq_some] at h
    obtain ⟨oid, -, sd, hsd, hm⟩ := h
    cases hm
    exact ⟨o, sdt, rfl, hsd⟩
  · cases h

/-- The members of a certificate set loaded from DER are read from valid values whose
encodings are shorter than the DER. -/
theorem ContentInfo.load_certificates {der : Bytes} {m : ContentInfo} {certSet : CertificateSet}
    (hm : ContentInfo.load der = some m) (hc : m.content.certificates = some certSet) :
    ∃ cs : List Asn1, cs.mapM CertificateChoices.read = some certSet ∧
      ∀ x ∈ cs, x.valid ∧ (Asn1.dump x).length < der.length := by
  obtain ⟨t, hdec, hread⟩ := Option.bind_eq_some.mp hm
  obtain ⟨hv, rfl⟩ := Asn1.decode_sound hdec
  obtain ⟨o, sdt, rfl, hsd⟩ := ContentInfo.read_some hread
  obtain ⟨children, cs, rfl, hmem, hcs⟩ := SignedData.read_certificates hsd hc
  have h1 : Asn1.cons 0xa0 [Asn1.cons 0x30 children] ∈
      [o, Asn1.cons 0xa0 [Asn1.cons 0x30 children]] := List.mem_cons_of_mem _ (List.mem_cons_self _ _)
  have h2 : Asn1.cons 0x30 children ∈ [Asn1.cons 0x30 children] := List.mem_cons_self _ _
  have hv2 := Asn1.valid_of_mem (Asn1.valid_of_mem hv h1) h2
  refine ⟨cs, hcs, fun x hx => ⟨Asn1.valid_of_mem (Asn1.valid_of_mem hv2 hmem) hx, ?_⟩⟩
  calc (Asn1.dump x).length < (Asn1.dump (.cons 0xa0 cs)).length := Asn1.length_dump_lt_of_mem _ hx
    _ < (Asn1.dump (.cons 0x30 children)).length := Asn1.length_dump_lt_of_mem _ hmem
    _ < (Asn1.dump (.cons 0xa0 [.cons 0x30 children])).length := Asn1.length_dump_lt_of_mem _ h2
    _ < _ := Asn1.length_dump_lt_of_mem _ h1

end Scep
