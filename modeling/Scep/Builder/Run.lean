import Scep.Builder.Finalize

/-! A caller's use of one builder: its methods called one after another on the same object,
an exception caught and the object used again. What one call does is said once, by
`afterCall_frame` and `afterCall_cmsAttributes`: a call appends to `_cms_attributes` and sets
the other attributes, and both depend only on the other attributes. Every invariant of a run
below is derived from those two lemmas and the per-method ones. -/
namespace Scep
namespace PKIMessageBuilder

/-- A method call on the builder, with what `os.urandom` and `uuid4` return to it. -/
inductive Call
  | certificates (cs : List Certificate)
  | addSigner (certificate : Certificate) (signerKey : RsaPrivateKey)
  | messageType (messageType : MessageType)
  | addRecipient (certificate : Certificate)
  | encrypt (content : Bytes)
  | pkiStatus (status : PKIStatus) (failureInfo : Option FailInfo)
  | senderNonce (nonce : SenderNonceArg)
  | issued (c : Certificate)
  | recipientNonce (nonce : RecipientNonceArg)
  | transactionId (transId : TransIdArg)
  | finalize (d : FinalizeDraws)

/-- The setters whose only effect is to append to `_cms_attributes`. -/
def Call.isAttribute : Call → Bool
  | .messageType _ | .pkiStatus _ _ | .senderNonce _ | .recipientNonce _ | .transactionId _ => true
  | _ => false

/-- Every method but `finalize`. -/
def Call.isConfiguration : Call → Bool
  | .finalize _ => false
  | _ => true

variable (B : Backend)

/-- The method the call names; only `finalize` returns a value the caller keeps. -/
def Call.exec : Call → EStateM PyError State (Option ContentInfo)
  | .certificates cs => do PKIMessageBuilder.certificates cs; pure none
  | .addSigner c k => do PKIMessageBuilder.addSigner c k; pure none
  | .messageType t => do PKIMessageBuilder.messageType t; pure none
  | .addRecipient c => do PKIMessageBuilder.addRecipient c; pure none
  | .encrypt p => do PKIMessageBuilder.encrypt p; pure none
  | .pkiStatus st fi => do PKIMessageBuilder.pkiStatus st fi; pure none
  | .senderNonce n => do PKIMessageBuilder.senderNonce n; pure none
  | .issued c => do PKIMessageBuilder.issued c; pure none
  | .recipientNonce n => do PKIMessageBuilder.recipientNonce n; pure none
  | .transactionId t => do PKIMessageBuilder.transactionId t; pure none
  | .finalize d => do let m ← PKIMessageBuilder.finalize B d; pure (some m)

/-- The builder after a call, whether the call returned or raised. -/
def afterCall (c : Call) (s : State) : State := stateAfter ((c.exec B).run s)

/-- The builder after a run of calls, each exception caught. -/
def run : State → List Call → State
  | s, [] => s
  | s, c :: cs => run (afterCall B c s) cs

/-- The calls without a `try`: the run stops at the first exception. -/
def runChecked : List Call → EStateM PyError State Unit
  | [] => pure ()
  | c :: cs => do let _ ← c.exec B; runChecked cs

/-- A `finalize` call that gets past key transport, and so appends the two CMS attributes. -/
def Call.buildsEnvelope (s : State) : Call → Bool
  | .finalize d => (finalizeEnvelope B d s).toBool
  | _ => false

section
variable (s : State)

@[simp] theorem afterCall_certificates (cs : List Certificate) : afterCall B (.certificates cs) s =
    { s with certificates := some (cs.map fun c => .certificate (parseCertificate c).tree) } := rfl

@[simp] theorem afterCall_addSigner (c : Certificate) (k : RsaPrivateKey) :
    afterCall B (.addSigner c k) s = { s with
      signers := s.signers ++ [⟨issuerAndSerial c, c⟩]
      primarySigner := some ⟨issuerAndSerial c, c⟩
      primarySignerKey := some k } := rfl

@[simp] theorem afterCall_messageType (t : MessageType) : afterCall B (.messageType t) s =
    { s with cmsAttributes := s.cmsAttributes ++ [⟨.messageType, [.printableString t.value]⟩] } :=
  rfl

@[simp] theorem afterCall_addRecipient (c : Certificate) :
    afterCall B (.addRecipient c) s = { s with recipient := some c } := rfl

@[simp] theorem afterCall_encrypt (p : Bytes) :
    afterCall B (.encrypt p) s = { s with encrypt := s.encrypt ++ [p] } := rfl

@[simp] theorem afterCall_issued (c : Certificate) :
    afterCall B (.issued c) s = { s with issued := some c } := rfl

@[simp] theorem afterCall_senderNonce (n : SenderNonceArg) : afterCall B (.senderNonce n) s =
    { s with cmsAttributes := s.cmsAttributes ++ [⟨.senderNonce, [.octetString n.octets]⟩] } := rfl

@[simp] theorem afterCall_recipientNonce (n : RecipientNonceArg) : afterCall B (.recipientNonce n) s =
    { s with cmsAttributes := s.cmsAttributes ++ [⟨.recipientNonce, [.octetString n.octets]⟩] } :=
  rfl

/-- The status stays appended when the missing failure info raises. -/
@[simp] theorem afterCall_pkiStatus (st : PKIStatus) (fi : Option FailInfo) :
    afterCall B (.pkiStatus st fi) s = { s with cmsAttributes := s.cmsAttributes ++
      ⟨.pkiStatus, [.printableString st.value]⟩ ::
        if st = .FAILURE then (fi.map fun f => ⟨.failInfo, [.printableString f.value]⟩).toList
        else [] } := by
  simp only [afterCall, Call.exec, run_bind, run_pkiStatus]
  by_cases h : st = .FAILURE
  · cases fi <;> simp [h]
  · simp [h]

@[simp] theorem afterCall_transactionId (t : TransIdArg) : afterCall B (.transactionId t) s =
    match t.printable with
    | .error _ => s
    | .ok p => { s with cmsAttributes := s.cmsAttributes ++ [⟨.transactionId, [.printableString p]⟩] } := by
  simp only [afterCall, Call.exec, run_bind, run_transactionId]
  cases t.printable <;> rfl

/-- `content_type` and `message_digest` stay appended when signing raises. -/
@[simp] theorem afterCall_finalize (d : FinalizeDraws) : afterCall B (.finalize d) s =
    match finalizeEnvelope B d s with
    | .error _ => s
    | .ok env => { s with cmsAttributes := s.cmsAttributes ++
        [contentTypeAttribute, messageDigestAttribute (B.sha256 (Asn1.dump env.toAsn1))] } := by
  simp only [afterCall, Call.exec, run_bind, run_finalize]
  cases finalizeEnvelope B d s with
  | error e => rfl
  | ok env =>
    have h := stateAfter_buildSignerinfo B (B.sha256 (Asn1.dump env.toAsn1)) s
    dsimp only
    revert h
    cases (buildSignerinfo B (B.sha256 (Asn1.dump env.toAsn1))).run s <;> exact id

end

@[simp] theorem run_nil (s : State) : run B s [] = s := rfl
@[simp] theorem run_cons (s : State) (c : Call) (cs : List Call) :
    run B s (c :: cs) = run B (afterCall B c s) cs := rfl

theorem run_append (s : State) (cs cs' : List Call) : run B s (cs ++ cs') = run B (run B s cs) cs' := by
  induction cs generalizing s with
  | nil => rfl
  | cons c cs ih => exact ih _

/-- What the builder holds besides `_cms_attributes`. -/
def State.frame (s : State) : State := { s with cmsAttributes := [] }

@[simp] theorem State.frame_cmsAttributes (s : State) : s.frame.cmsAttributes = [] := rfl
@[simp] theorem State.frame_frame (s : State) : s.frame.frame = s.frame := rfl

theorem finalizeEnvelope_frame (d : FinalizeDraws) (s : State) :
    finalizeEnvelope B d s.frame = finalizeEnvelope B d s := rfl

/-- What a call sets besides the attributes depends only on what the builder holds besides them. -/
theorem afterCall_frame (c : Call) (s : State) :
    (afterCall B c s).frame = (afterCall B c s.frame).frame := by
  cases c with
  | pkiStatus st fi => simp only [afterCall_pkiStatus]; rfl
  | transactionId t => simp only [afterCall_transactionId]; cases t.printable <;> rfl
  | finalize d =>
    simp only [afterCall_finalize, finalizeEnvelope_frame]
    cases finalizeEnvelope B d s <;> rfl
  | _ => rfl

/-- A call only appends to the attributes, and what it appends depends only on the rest. -/
theorem afterCall_cmsAttributes (c : Call) (s : State) :
    (afterCall B c s).cmsAttributes = s.cmsAttributes ++ (afterCall B c s.frame).cmsAttributes := by
  cases c with
  | transactionId t => simp only [afterCall_transactionId]; cases t.printable <;> simp
  | finalize d =>
    simp only [afterCall_finalize, finalizeEnvelope_frame]
    cases finalizeEnvelope B d s <;> simp
  | _ => simp

theorem run_cmsAttributes (s : State) (cs : List Call) :
    (run B s cs).cmsAttributes = s.cmsAttributes ++ (run B s.frame cs).cmsAttributes := by
  induction cs generalizing s with
  | nil => simp
  | cons c cs ih =>
    rw [run_cons, run_cons, ih, ih (afterCall B c s.frame), afterCall_cmsAttributes, afterCall_frame]
    simp

/-! ### The primary signer -/

/-- The certificate and key of the last `add_signer` call of a run, the given pair if none. -/
def lastSigner : Certificate × RsaPrivateKey → List Call → Certificate × RsaPrivateKey
  | p, [] => p
  | _, .addSigner c k :: cs => lastSigner (c, k) cs
  | p, _ :: cs => lastSigner p cs

theorem lastSigner_cons (p : Certificate × RsaPrivateKey) (c : Call) (cs : List Call) :
    lastSigner p (c :: cs) = lastSigner (lastSigner p [c]) cs := by
  cases c <;> rfl

/-- `_primary_signer` and `_primary_signer_key` were set by one `add_signer(c, k)` call. -/
def State.SignedBy (s : State) (p : Certificate × RsaPrivateKey) : Prop :=
  s.primarySigner = some ⟨issuerAndSerial p.1, p.1⟩ ∧ s.primarySignerKey = some p.2

theorem init_signedBy (c : Certificate) (k : RsaPrivateKey) : (init c k).SignedBy (c, k) :=
  ⟨rfl, rfl⟩

theorem afterCall_signedBy {s : State} {p : Certificate × RsaPrivateKey} (h : s.SignedBy p)
    (c : Call) : (afterCall B c s).SignedBy (lastSigner p [c]) := by
  cases c with
  | addSigner c k => exact ⟨rfl, rfl⟩
  | pkiStatus st fi => simp only [afterCall_pkiStatus]; exact h
  | transactionId t => simp only [afterCall_transactionId]; cases t.printable <;> exact h
  | finalize d => simp only [afterCall_finalize]; cases finalizeEnvelope B d s <;> exact h
  | _ => exact h

theorem run_signedBy {s : State} {p : Certificate × RsaPrivateKey} (h : s.SignedBy p)
    (cs : List Call) : (run B s cs).SignedBy (lastSigner p cs) := by
  induction cs generalizing s p with
  | nil => exact h
  | cons c cs ih => rw [run_cons, lastSigner_cons]; exact ih (afterCall_signedBy B h c)

/-- The `_signers` entries the `add_signer` calls of a run append, in call order. -/
def addedSigners : List Call → List Signer
  | [] => []
  | .addSigner c _ :: cs => ⟨issuerAndSerial c, c⟩ :: addedSigners cs
  | _ :: cs => addedSigners cs

theorem addedSigners_cons (c : Call) (cs : List Call) :
    addedSigners (c :: cs) = addedSigners [c] ++ addedSigners cs := by
  cases c <;> rfl

theorem afterCall_signers (c : Call) (s : State) :
    (afterCall B c s).signers = s.signers ++ addedSigners [c] := by
  cases c with
  | addSigner c k => rfl
  | pkiStatus st fi => simp [addedSigners]
  | transactionId t => simp only [afterCall_transactionId]; cases t.printable <;> simp [addedSigners]
  | finalize d => simp only [afterCall_finalize]; cases finalizeEnvelope B d s <;> simp [addedSigners]
  | _ => simp [addedSigners]

theorem run_signers (s : State) (cs : List Call) :
    (run B s cs).signers = s.signers ++ addedSigners cs := by
  induction cs generalizing s with
  | nil => simp [addedSigners]
  | cons c cs ih => rw [run_cons, ih, afterCall_signers, addedSigners_cons c cs, List.append_assoc]

theorem getLast?_addedSigners (p : Certificate × RsaPrivateKey) (cs : List Call) :
    (⟨issuerAndSerial p.1, p.1⟩ :: addedSigners cs).getLast? =
      some ⟨issuerAndSerial (lastSigner p cs).1, (lastSigner p cs).1⟩ := by
  induction cs generalizing p with
  | nil => rfl
  | cons c cs ih =>
    cases c with
    | addSigner c k => simpa [addedSigners, lastSigner] using ih (c, k)
    | _ => exact ih p

/-- `_signers` holds one entry per `add_signer` call, the constructor's first, in call order,
and `_primary_signer` is always its last entry. -/
theorem primarySigner_last_of_signers (c : Certificate) (k : RsaPrivateKey) (cs : List Call) :
    (run B (init c k) cs).signers = ⟨issuerAndSerial c, c⟩ :: addedSigners cs ∧
      (run B (init c k) cs).primarySigner = (run B (init c k) cs).signers.getLast? := by
  have hs := run_signers B (init c k) cs
  refine ⟨hs, ?_⟩
  rw [(run_signedBy B (init_signedBy c k) cs).1, hs]
  exact (getLast?_addedSigners (c, k) cs).symm

/-! ### The two CMS attributes `finalize` appends -/

/-- How many `finalize` calls of a run got past key transport. -/
def envelopesBuilt : State → List Call → ℕ
  | _, [] => 0
  | s, c :: cs => (c.buildsEnvelope B s).toNat + envelopesBuilt (afterCall B c s) cs

section
variable {t : CMSAttributeType} (ht : t = .contentType ∨ t = .messageDigest)
include ht

theorem afterCall_countP_type (c : Call) (s : State) :
    (afterCall B c s).cmsAttributes.countP (·.type = t) =
      s.cmsAttributes.countP (·.type = t) + (c.buildsEnvelope B s).toNat := by
  rcases ht with rfl | rfl <;> cases c with
  | pkiStatus st fi =>
    simp only [afterCall_pkiStatus]
    split_ifs <;> cases fi <;> simp [Call.buildsEnvelope]
  | transactionId t => simp only [afterCall_transactionId]; cases t.printable <;> simp [Call.buildsEnvelope]
  | finalize d =>
    simp only [afterCall_finalize, Call.buildsEnvelope]
    cases finalizeEnvelope B d s <;> simp [contentTypeAttribute, messageDigestAttribute, Except.toBool]
  | _ => simp [Call.buildsEnvelope]

theorem run_countP_type (s : State) (cs : List Call) :
    (run B s cs).cmsAttributes.countP (·.type = t) =
      s.cmsAttributes.countP (·.type = t) + envelopesBuilt B s cs := by
  induction cs generalizing s with
  | nil => rfl
  | cons c cs ih => rw [run_cons, ih, afterCall_countP_type B ht, envelopesBuilt, Nat.add_assoc]

end

theorem afterCall_countP_failInfo {c : Call} (hc : ∀ st fi, c ≠ .pkiStatus st fi) (s : State) :
    (afterCall B c s).cmsAttributes.countP (·.type = .failInfo) =
      s.cmsAttributes.countP (·.type = .failInfo) := by
  cases c with
  | pkiStatus st fi => exact absurd rfl (hc st fi)
  | transactionId t => simp only [afterCall_transactionId]; cases t.printable <;> simp
  | finalize d =>
    simp only [afterCall_finalize]
    cases finalizeEnvelope B d s <;> simp [contentTypeAttribute, messageDigestAttribute]
  | _ => simp

/-- Only `pki_status` appends a `fail_info` attribute. -/
theorem run_countP_failInfo {cs : List Call} (hc : ∀ c ∈ cs, ∀ st fi, c ≠ .pkiStatus st fi)
    (s : State) : (run B s cs).cmsAttributes.countP (·.type = .failInfo) =
      s.cmsAttributes.countP (·.type = .failInfo) := by
  induction cs generalizing s with
  | nil => rfl
  | cons c cs ih =>
    rw [run_cons, ih (fun x hx => hc x (List.mem_cons_of_mem c hx)),
      afterCall_countP_failInfo B (hc c (List.mem_cons_self c cs))]

/-- The shape of every attribute a call appends: one value, which for `content_type` is data. -/
def WellShaped (a : CMSAttribute) : Prop :=
  ∃ v, a.values = [v] ∧ (a.type = .contentType → v = .objectIdentifier Oid.data)

theorem wellShaped_afterCall_frame (c : Call) (s : State) :
    ∀ a ∈ (afterCall B c s.frame).cmsAttributes, WellShaped a := by
  cases c with
  | pkiStatus st fi =>
    simp only [afterCall_pkiStatus]
    split_ifs <;> cases fi <;> simp [WellShaped]
  | transactionId t => simp only [afterCall_transactionId]; cases t.printable <;> simp [WellShaped]
  | finalize d =>
    simp only [afterCall_finalize]
    cases finalizeEnvelope B d s.frame <;> simp [WellShaped, contentTypeAttribute, messageDigestAttribute]
  | _ => simp [WellShaped]

theorem afterCall_wellShaped {s : State} (h : ∀ a ∈ s.cmsAttributes, WellShaped a) (c : Call) :
    ∀ a ∈ (afterCall B c s).cmsAttributes, WellShaped a := by
  intro a ha
  rw [afterCall_cmsAttributes, List.mem_append] at ha
  exact ha.elim (h a) (wellShaped_afterCall_frame B c s a)

theorem run_wellShaped {s : State} (h : ∀ a ∈ s.cmsAttributes, WellShaped a) (cs : List Call) :
    ∀ a ∈ (run B s cs).cmsAttributes, WellShaped a := by
  induction cs generalizing s with
  | nil => exact h
  | cons c cs ih => exact ih (afterCall_wellShaped B h c)

/-- Every `content_type` attribute of a list carries the type data. -/
def ContentTypesData (attrs : List CMSAttribute) : Prop :=
  ∀ a ∈ attrs, a.type = .contentType → a = contentTypeAttribute

theorem contentTypesData_of_wellShaped {attrs : List CMSAttribute}
    (h : ∀ a ∈ attrs, WellShaped a) : ContentTypesData attrs := by
  intro ⟨t, vs⟩ ha ht
  obtain ⟨v, rfl, hv⟩ := h _ ha
  cases ht
  rw [hv rfl]
  rfl

/-! ### Runs in which every call returns -/

/-- What each configuration call adds to the signed attributes as the setters' docstrings
describe it: one attribute of its type with the caller's value, bytes as an `OctetString` and
text as a `PrintableString`, and a `fail_info` beside a failure status. -/
def Call.expectedAttributes : Call → List CMSAttribute
  | .messageType t => [⟨.messageType, [.printableString t.value]⟩]
  | .pkiStatus st fi => ⟨.pkiStatus, [.printableString st.value]⟩ ::
      if st = .FAILURE then (fi.map fun f => ⟨.failInfo, [.printableString f.value]⟩).toList else []
  | .senderNonce (.bytes b) | .senderNonce (.octetString b) | .senderNonce (.omitted b _) =>
      [⟨.senderNonce, [.octetString b]⟩]
  | .recipientNonce (.bytes b) | .recipientNonce (.octetString b) =>
      [⟨.recipientNonce, [.octetString b]⟩]
  | .transactionId (.str s) =>
      if h : s.toList.all (fun c => decide (c.toNat < 256)) then
        [⟨.transactionId, [.printableString ⟨s, h⟩]⟩]
      else []
  | .transactionId (.printableString p) | .transactionId (.omitted p) =>
      [⟨.transactionId, [.printableString p]⟩]
  | _ => []

theorem afterCall_of_exec_ok {c : Call} {s s' : State} {r : Option ContentInfo}
    (h : (c.exec B).run s = .ok r s') : afterCall B c s = s' := by
  rw [afterCall, h, stateAfter_ok]

/-- A configuration call that returns appends exactly its expected attributes. -/
theorem exec_ok_cmsAttributes {c : Call} (hc : c.isConfiguration) {s s' : State}
    {r : Option ContentInfo} (h : (c.exec B).run s = .ok r s') :
    s'.cmsAttributes = s.cmsAttributes ++ c.expectedAttributes := by
  rw [← afterCall_of_exec_ok B h]
  cases c with
  | pkiStatus st fi => simp only [afterCall_pkiStatus, Call.expectedAttributes]
  | senderNonce n => cases n <;> rfl
  | recipientNonce n => cases n <;> rfl
  | transactionId t =>
    cases t with
    | str x =>
      by_cases hl : x.toList.all (fun c => decide (c.toNat < 256)) = true
      · simp only [afterCall_transactionId, TransIdArg.printable, toPrintableString, dif_pos hl,
          Call.expectedAttributes]
      · simp only [Call.exec, run_bind, run_transactionId, TransIdArg.printable, toPrintableString,
          dif_neg hl] at h
        cases h
    | _ => rfl
  | finalize d => cases hc
  | _ => simp [Call.expectedAttributes]

/-- A run in which every call returns ends in the state `run` gives. -/
theorem runChecked_ok_run {cs : List Call} {s s' : State} (h : (runChecked B cs).run s = .ok () s') :
    s' = run B s cs := by
  induction cs generalizing s with
  | nil => cases h; rfl
  | cons c cs ih =>
    simp only [runChecked, run_bind] at h
    split at h
    · rw [ih h, run_cons, afterCall_of_exec_ok B ‹_›]
    · cases h

/-- When every call of a run of configuration calls returns, the attributes are the expected
ones of the calls, in call order. -/
theorem runChecked_cmsAttributes {cs : List Call} (hc : ∀ c ∈ cs, c.isConfiguration)
    {s s' : State} (h : (runChecked B cs).run s = .ok () s') :
    s'.cmsAttributes = s.cmsAttributes ++ cs.flatMap Call.expectedAttributes := by
  induction cs generalizing s with
  | nil => cases h; simp
  | cons c cs ih =>
    simp only [runChecked, run_bind] at h
    split at h
    · rename_i s₁ hc₁
      rw [ih (fun x hx => hc x (List.mem_cons_of_mem c hx)) h,
        exec_ok_cmsAttributes B (hc c (List.mem_cons_self c cs)) hc₁]
      simp
    · cases h

end PKIMessageBuilder
end Scep
