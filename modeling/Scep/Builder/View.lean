import Scep.Builder.Message

/-! What the builder's methods read of it. `_signers` and `_issued` are written and never read,
and of `_encrypt` only the first entry is, so two builders that agree on the rest, their
`View`, give every call the same outcome and still agree after it, whatever calls come
between. A configuration call's outcome does not depend on the builder at all, and a run of
them refines `View.afterConfiguration`, which reads the builder's view off the calls alone; over
any run, the SCEP attributes are those the setter calls asked for. -/
namespace Scep
namespace PKIMessageBuilder

variable (B : Backend)

/-- The part of the builder its methods read. -/
structure View where
  primarySigner : Option Signer
  primarySignerKey : Option RsaPrivateKey
  cmsAttributes : List CMSAttribute
  certificates : Option CertificateSet
  payload : Option Bytes
  recipient : Option Certificate

def State.view (s : State) : View :=
  ⟨s.primarySigner, s.primarySignerKey, s.cmsAttributes, s.certificates, s.encrypt.head?,
    s.recipient⟩

/-- What a method returned or raised, without the builder it left. -/
def outcome {α : Type} : EStateM.Result PyError State α → Except PyError α
  | .ok a _ => .ok a
  | .error e _ => .error e

theorem eq_ok_of_outcome_eq_ok {α : Type} {r : EStateM.Result PyError State α} {a : α}
    (h : outcome r = .ok a) : ∃ s, r = .ok a s := by
  cases r with
  | ok b s => cases h; exact ⟨s, rfl⟩
  | error e s => cases h

theorem outcome_exec_finalize (d : FinalizeDraws) (s : State) :
    outcome ((Call.exec B (.finalize d)).run s) = (outcome ((finalize B d).run s)).map some := by
  simp only [Call.exec, run_bind]
  cases (finalize B d).run s <;> rfl

/-- Whether a configuration call returns or raises, and what with, depends on its arguments
alone. -/
theorem outcome_exec_configuration {c : Call} (hc : c.isConfiguration) (s t : State) :
    outcome ((c.exec B).run s) = outcome ((c.exec B).run t) := by
  cases c with
  | pkiStatus st fi =>
    simp only [Call.exec, run_bind, run_pkiStatus]
    split_ifs <;> cases fi <;> rfl
  | transactionId i => simp only [Call.exec, run_bind, run_transactionId]; cases i.printable <;> rfl
  | finalize d => cases hc
  | _ => rfl

section
variable {s t : State} (h : s.view = t.view)
include h

theorem finalizeEnvelope_view (d : FinalizeDraws) :
    finalizeEnvelope B d s = finalizeEnvelope B d t := by
  obtain ⟨-, -, -, -, he, hr⟩ := View.mk.inj h
  unfold finalizeEnvelope
  rw [hr]
  cases hs : s.encrypt <;> cases ht : t.encrypt <;>
    simp only [hs, ht, List.head?_nil, List.head?_cons, reduceCtorEq, Option.some.injEq] at he
  · rfl
  · rw [he]

theorem outcome_finalize_view (d : FinalizeDraws) :
    outcome ((finalize B d).run s) = outcome ((finalize B d).run t) := by
  obtain ⟨hs, hk, ha, hc, -, -⟩ := View.mk.inj h
  rw [run_finalize, run_finalize, finalizeEnvelope_view B h]
  cases finalizeEnvelope B d t with
  | error e => rfl
  | ok env =>
    simp only [run_buildSignerinfo, hs, hk, ha, hc]
    cases t.primarySignerKey with
    | none => rfl
    | some pk =>
      dsimp only
      cases rsassaPkcs1v15Sign B pk _ with
      | error e => rfl
      | ok signature => cases t.primarySigner <;> rfl

theorem exec_outcome_view (c : Call) : outcome ((c.exec B).run s) = outcome ((c.exec B).run t) := by
  cases c with
  | finalize d => rw [outcome_exec_finalize, outcome_exec_finalize, outcome_finalize_view B h]
  | _ => exact outcome_exec_configuration B (by rfl) s t

theorem afterCall_view (c : Call) : (afterCall B c s).view = (afterCall B c t).view := by
  obtain ⟨hs, hk, ha, hc, he, hr⟩ := View.mk.inj h
  cases c with
  | finalize d =>
    simp only [afterCall_finalize, finalizeEnvelope_view B h]
    cases finalizeEnvelope B d t with
    | error e => exact h
    | ok env => simp only [State.view, hs, hk, ha, hc, he, hr]
  | transactionId i =>
    simp only [afterCall_transactionId]
    cases i.printable with
    | error e => exact h
    | ok p => simp only [State.view, hs, hk, ha, hc, he, hr]
  | _ => simp only [afterCall_certificates, afterCall_addSigner, afterCall_messageType,
      afterCall_addRecipient, afterCall_encrypt, afterCall_issued, afterCall_senderNonce,
      afterCall_recipientNonce, afterCall_pkiStatus, State.view, List.head?_append, hs, hk, ha, hc,
      he, hr]

end

theorem run_view {s t : State} (h : s.view = t.view) (cs : List Call) :
    (run B s cs).view = (run B t cs).view := by
  induction cs generalizing s t with
  | nil => exact h
  | cons c cs ih => exact ih (afterCall_view B h c)

/-- Two builders that agree on what the methods read give, after any same run of calls, the
same outcome to the next call, `finalize` included (the same message, or the same exception),
and still agree after it. -/
theorem outcome_eq_of_view_eq {s t : State} (h : s.view = t.view) (cs : List Call) (c : Call) :
    outcome ((c.exec B).run (run B s cs)) = outcome ((c.exec B).run (run B t cs)) ∧
      (run B s (cs ++ [c])).view = (run B t (cs ++ [c])).view :=
  ⟨exec_outcome_view B (run_view B h cs) c, run_view B h (cs ++ [c])⟩

/-- The constructor's builder, and one with no `_signers` entry and an issued certificate. -/
theorem outcome_eq_of_view_eq_sample :
    outcome ((Call.exec plainBackend (.finalize sampleDraws)).run
        (run plainBackend (init sampleCert sampleKey) sampleCalls)) =
      outcome ((Call.exec plainBackend (.finalize sampleDraws)).run
        (run plainBackend { init sampleCert sampleKey with signers := [], issued := some smallCert }
          sampleCalls)) ∧
    (run plainBackend (init sampleCert sampleKey) (sampleCalls ++ [.finalize sampleDraws])).view =
      (run plainBackend { init sampleCert sampleKey with signers := [], issued := some smallCert }
        (sampleCalls ++ [.finalize sampleDraws])).view :=
  @outcome_eq_of_view_eq plainBackend (init sampleCert sampleKey)
    { init sampleCert sampleKey with signers := [], issued := some smallCert } rfl sampleCalls
    (.finalize sampleDraws)

/-- An `issued` call, and an `encrypt` call made once a payload is queued, change nothing that
any later call returns or raises. -/
theorem issued_and_later_encrypt_unread (s : State) (cs₁ cs₂ : List Call) {x : Call}
    (hx : (∃ c, x = .issued c) ∨ (∃ p, x = .encrypt p) ∧ (run B s cs₁).encrypt ≠ []) (c : Call) :
    outcome ((c.exec B).run (run B s (cs₁ ++ x :: cs₂))) =
      outcome ((c.exec B).run (run B s (cs₁ ++ cs₂))) := by
  have hv : (afterCall B x (run B s cs₁)).view = (run B s cs₁).view := by
    rcases hx with ⟨c', rfl⟩ | ⟨⟨p, rfl⟩, hq⟩
    · rfl
    · obtain ⟨q, l, hql⟩ := List.exists_cons_of_ne_nil hq
      simp only [afterCall_encrypt, State.view, hql, List.cons_append, List.head?_cons]
  rw [run_append, run_append, run_cons]
  exact exec_outcome_view B (run_view B hv cs₂) c

/-- A second payload queued after the sample calls changes nothing `finalize` returns. -/
theorem issued_and_later_encrypt_unread_sample :
    (run plainBackend (init sampleCert sampleKey) sampleCalls).encrypt ≠ [] ∧
      outcome ((Call.exec plainBackend (.finalize sampleDraws)).run
          (run plainBackend (init sampleCert sampleKey) (sampleCalls ++ [.encrypt [9]]))) =
        outcome ((Call.exec plainBackend (.finalize sampleDraws)).run
          (run plainBackend (init sampleCert sampleKey) (sampleCalls ++ []))) := by
  have hq : (run plainBackend (init sampleCert sampleKey) sampleCalls).encrypt ≠ [] := by decide
  exact ⟨hq, issued_and_later_encrypt_unread plainBackend _ sampleCalls [] (.inr ⟨⟨_, rfl⟩, hq⟩) _⟩

/-! ### Runs of configuration calls -/

def Call.signerArg : Call → Option (Certificate × RsaPrivateKey)
  | .addSigner c k => some (c, k)
  | _ => none

def Call.certificatesArg : Call → Option (List Certificate)
  | .certificates cs => some cs
  | _ => none

def Call.encryptArg : Call → Option Bytes
  | .encrypt p => some p
  | _ => none

def Call.recipientArg : Call → Option Certificate
  | .addRecipient c => some c
  | _ => none

/-- What the last call of a run that `f` picks out carries. -/
def lastOf {α : Type} (f : Call → Option α) : List Call → Option α
  | [] => none
  | c :: cs => (lastOf f cs).or (f c)

/-- What the first call of a run that `f` picks out carries. -/
def firstOf {α : Type} (f : Call → Option α) : List Call → Option α
  | [] => none
  | c :: cs => (f c).or (firstOf f cs)

/-- What a run of configuration calls leaves the builder holding, read off the calls alone: the
signer of the last `add_signer`, the attributes the setters ask for in call order, the set of
the last `certificates` call, the first payload and the last recipient. -/
def View.afterConfiguration (v : View) (cs : List Call) : View where
  primarySigner :=
    ((lastOf Call.signerArg cs).map fun p => ⟨issuerAndSerial p.1, p.1⟩).or v.primarySigner
  primarySignerKey := ((lastOf Call.signerArg cs).map Prod.snd).or v.primarySignerKey
  cmsAttributes := v.cmsAttributes ++ cs.flatMap Call.expectedAttributes
  certificates := ((lastOf Call.certificatesArg cs).map fun l =>
    l.map fun c => .certificate (parseCertificate c).tree).or v.certificates
  payload := v.payload.or (firstOf Call.encryptArg cs)
  recipient := (lastOf Call.recipientArg cs).or v.recipient

/-- A view with its attributes set aside. -/
def View.frame (v : View) : View := { v with cmsAttributes := [] }

theorem View.eq_of_frame_eq {v w : View} (h : v.frame = w.frame) :
    { v with cmsAttributes := w.cmsAttributes } = w := by
  obtain ⟨_, _, _, _, _, _⟩ := v
  obtain ⟨_, _, _, _, _, _⟩ := w
  simp only [View.frame, View.mk.injEq] at h
  obtain ⟨rfl, rfl, -, rfl, rfl, rfl⟩ := h
  rfl

@[simp] theorem View.afterConfiguration_nil (v : View) : v.afterConfiguration [] = v := by
  simp [View.afterConfiguration, lastOf, firstOf, Option.or_none]

theorem View.afterConfiguration_cons (v : View) (c : Call) (cs : List Call) :
    v.afterConfiguration (c :: cs) = (v.afterConfiguration [c]).afterConfiguration cs := by
  simp only [View.afterConfiguration, lastOf, firstOf, Option.none_or, Option.or_none,
    Option.map_or', Option.or_assoc, List.flatMap_cons, List.flatMap_nil, List.append_nil,
    List.append_assoc]

/-- A configuration call appends the attributes it asks for, whether it returns or raises. -/
theorem afterCall_cmsAttributes_of_configuration {c : Call} (hc : c.isConfiguration) (s : State) :
    (afterCall B c s).cmsAttributes = s.cmsAttributes ++ c.expectedAttributes := by
  cases c with
  | pkiStatus st fi => simp only [afterCall_pkiStatus, Call.expectedAttributes]
  | senderNonce n => cases n <;> rfl
  | recipientNonce n => cases n <;> rfl
  | transactionId t =>
    simp only [afterCall_transactionId]
    cases t with
    | str x =>
      by_cases hl : x.toList.all (fun c => decide (c.toNat < 256)) = true
      · simp only [TransIdArg.printable, toPrintableString, dif_pos hl, Call.expectedAttributes]
      · simp only [TransIdArg.printable, toPrintableString, dif_neg hl, Call.expectedAttributes,
          List.append_nil]
    | _ => rfl
  | finalize d => cases hc
  | _ => simp [Call.expectedAttributes]

theorem afterCall_view_of_configuration {c : Call} (hc : c.isConfiguration) (s : State) :
    (afterCall B c s).view = s.view.afterConfiguration [c] := by
  have ha := afterCall_cmsAttributes_of_configuration B hc s
  unfold State.view
  rw [ha]
  cases c with
  | transactionId t =>
    simp only [afterCall_transactionId]
    cases t.printable <;> simp [View.afterConfiguration, lastOf, firstOf, Call.signerArg,
      Call.certificatesArg, Call.encryptArg, Call.recipientArg, Option.or_none]
  | finalize d => cases hc
  | _ => simp [View.afterConfiguration, lastOf, firstOf, Call.signerArg, Call.certificatesArg,
      Call.encryptArg, Call.recipientArg, Option.or_none]

theorem run_view_of_configuration (s : State) {cs : List Call} (hc : ∀ c ∈ cs, c.isConfiguration) :
    (run B s cs).view = s.view.afterConfiguration cs := by
  induction cs generalizing s with
  | nil => simp
  | cons c cs ih =>
    rw [run_cons, ih _ (fun x hx => hc x (List.mem_cons_of_mem c hx)),
      afterCall_view_of_configuration B (hc c (List.mem_cons_self c cs)),
      ← View.afterConfiguration_cons]

/-- A run of configuration calls, exceptions caught, refines `View.afterConfiguration`: it
leaves the builder holding what the calls alone say. So two such runs that say the same, in
whatever order their calls to different methods come, give `finalize` the same outcome. -/
theorem configuration_run_refines (s : State) {cs : List Call}
    (hc : ∀ c ∈ cs, c.isConfiguration) :
    (run B s cs).view = s.view.afterConfiguration cs ∧
      ∀ (t : State) (cs' : List Call), (∀ c ∈ cs', c.isConfiguration) →
        t.view.afterConfiguration cs' = s.view.afterConfiguration cs → ∀ d : FinalizeDraws,
        outcome ((finalize B d).run (run B t cs')) = outcome ((finalize B d).run (run B s cs)) := by
  refine ⟨run_view_of_configuration B s hc, fun t cs' hc' heq d => ?_⟩
  exact outcome_finalize_view B ((run_view_of_configuration B t hc').trans
    (heq.trans (run_view_of_configuration B s hc).symm)) d

/-- The sample setters before or after the sample payload and recipient. -/
theorem configuration_run_refines_sample :
    outcome ((finalize plainBackend sampleDraws).run (run plainBackend (init sampleCert sampleKey)
        (sampleCalls ++ [.messageType .PKCSReq, .senderNonce (.bytes [7]),
          .transactionId (.str "abc")]))) =
      outcome ((finalize plainBackend sampleDraws).run
        (run plainBackend (init sampleCert sampleKey) sampleSetterCalls)) :=
  (@configuration_run_refines plainBackend (init sampleCert sampleKey) sampleSetterCalls
    (by decide)).2 _ _ (by decide) rfl sampleDraws

/-! ### The attributes of any run -/

/-- Every attribute a call asks for is of a SCEP type. -/
theorem isScep_of_mem_expectedAttributes {c : Call} {a : CMSAttribute}
    (h : a ∈ c.expectedAttributes) : a.type.isScep := by
  cases c with
  | pkiStatus st fi =>
    simp only [Call.expectedAttributes, List.mem_cons] at h
    rcases h with rfl | h
    · rfl
    · split_ifs at h <;> cases fi <;> simp_all [CMSAttributeType.isScep]
  | transactionId t =>
    cases t with
    | str x =>
      simp only [Call.expectedAttributes] at h
      split_ifs at h <;> simp_all [CMSAttributeType.isScep]
    | _ => simp_all [Call.expectedAttributes, CMSAttributeType.isScep]
  | senderNonce n => cases n <;> simp_all [Call.expectedAttributes, CMSAttributeType.isScep]
  | recipientNonce n => cases n <;> simp_all [Call.expectedAttributes, CMSAttributeType.isScep]
  | _ => simp_all [Call.expectedAttributes, CMSAttributeType.isScep]

theorem filter_expectedAttributes (c : Call) :
    c.expectedAttributes.filter (·.type.isScep) = c.expectedAttributes :=
  List.filter_eq_self.2 fun _ => isScep_of_mem_expectedAttributes

theorem afterCall_scepAttributes (c : Call) (s : State) :
    (afterCall B c s).cmsAttributes.filter (·.type.isScep) =
      s.cmsAttributes.filter (·.type.isScep) ++ c.expectedAttributes := by
  cases hc : c.isConfiguration
  · cases c with
    | finalize d =>
      simp only [afterCall_finalize]
      cases finalizeEnvelope B d s <;> simp [contentTypeAttribute, messageDigestAttribute,
        Call.expectedAttributes, CMSAttributeType.isScep]
    | _ => cases hc
  · rw [afterCall_cmsAttributes_of_configuration B hc, List.filter_append,
      filter_expectedAttributes]

theorem run_scepAttributes (s : State) (cs : List Call) :
    (run B s cs).cmsAttributes.filter (·.type.isScep) =
      s.cmsAttributes.filter (·.type.isScep) ++ cs.flatMap Call.expectedAttributes := by
  induction cs generalizing s with
  | nil => simp
  | cons c cs ih =>
    rw [run_cons, ih, afterCall_scepAttributes, List.flatMap_cons, List.append_assoc]

/-- A message type, a `transaction_id` that raises, the sample calls, and a `finalize`. -/
def sampleRaisingCalls : List Call :=
  [.messageType .PKCSReq, .transactionId (.str "Ā")] ++ sampleCalls ++ [.finalize sampleDraws]

/-- The envelope a call builds: a `finalize` call's, when it gets past key transport. -/
def Call.envelope (s : State) : Call → Option EnvelopedData
  | .finalize d => (finalizeEnvelope B d s).toOption
  | _ => none

/-- The envelopes the `finalize` calls of a run built, in call order. -/
def builtEnvelopes : State → List Call → List EnvelopedData
  | _, [] => []
  | s, c :: cs => (c.envelope B s).toList ++ builtEnvelopes (afterCall B c s) cs

theorem filter_messageDigest_expectedAttributes (c : Call) :
    c.expectedAttributes.filter (·.type = .messageDigest) = [] :=
  List.filter_eq_nil_iff.2 fun a ha => by
    have := isScep_of_mem_expectedAttributes ha
    cases h : a.type <;> simp_all [CMSAttributeType.isScep]

theorem afterCall_messageDigests (c : Call) (s : State) :
    (afterCall B c s).cmsAttributes.filter (·.type = .messageDigest) =
      s.cmsAttributes.filter (·.type = .messageDigest) ++
        ((c.envelope B s).map fun e => messageDigestAttribute (B.sha256 (Asn1.dump e.toAsn1))).toList := by
  cases hc : c.isConfiguration
  · cases c with
    | finalize d =>
      simp only [afterCall_finalize, Call.envelope]
      cases finalizeEnvelope B d s <;>
        simp [contentTypeAttribute, messageDigestAttribute, Except.toOption]
    | _ => cases hc
  · rw [afterCall_cmsAttributes_of_configuration B hc, List.filter_append,
      filter_messageDigest_expectedAttributes]
    cases c <;> first | rfl | cases hc

theorem run_messageDigests (s : State) (cs : List Call) :
    (run B s cs).cmsAttributes.filter (·.type = .messageDigest) =
      s.cmsAttributes.filter (·.type = .messageDigest) ++ (builtEnvelopes B s cs).map
        fun e => messageDigestAttribute (B.sha256 (Asn1.dump e.toAsn1)) := by
  induction cs generalizing s with
  | nil => simp [builtEnvelopes]
  | cons c cs ih =>
    rw [run_cons, ih, afterCall_messageDigests, builtEnvelopes, List.map_append, List.append_assoc]
    cases c.envelope B s <;> rfl

end PKIMessageBuilder
end Scep
