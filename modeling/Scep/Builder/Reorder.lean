import Scep.Builder.View

/-! Two runs whose attribute setters come in another order. A setter only appends, and what it
appends does not depend on the builder, so the two runs reach builders that hold the same
attributes up to order and the same everything else (`Reordered`). `CMSAttributes` is a DER
`SET OF`, whose encoding sorts its elements, so `finalize` then signs the same octets. -/
namespace Scep
namespace PKIMessageBuilder

variable (B : Backend)

/-- Two builders holding the same attributes, perhaps in another order, and the same rest. -/
structure Reordered (s t : State) : Prop where
  frame_eq : s.frame = t.frame
  perm : s.cmsAttributes.Perm t.cmsAttributes

theorem Reordered.refl (s : State) : Reordered s s := ⟨rfl, .refl _⟩

theorem Reordered.symm {s t : State} (h : Reordered s t) : Reordered t s := ⟨h.1.symm, h.2.symm⟩

theorem Reordered.trans {s t u : State} (h₁ : Reordered s t) (h₂ : Reordered t u) :
    Reordered s u := ⟨h₁.1.trans h₂.1, h₁.2.trans h₂.2⟩

theorem reordered_afterCall {s t : State} (h : Reordered s t) (c : Call) :
    Reordered (afterCall B c s) (afterCall B c t) := by
  refine ⟨?_, ?_⟩
  · rw [afterCall_frame, h.frame_eq, ← afterCall_frame]
  · rw [afterCall_cmsAttributes, afterCall_cmsAttributes B c t, h.frame_eq]
    exact h.perm.append_right _

theorem reordered_run {s t : State} (h : Reordered s t) (cs : List Call) :
    Reordered (run B s cs) (run B t cs) := by
  induction cs generalizing s t with
  | nil => exact h
  | cons c cs ih => exact ih (reordered_afterCall B h c)

/-- An attribute setter appends the same attributes to every builder and sets nothing else. -/
theorem afterCall_attribute {a : Call} (ha : a.isAttribute) (s : State) :
    afterCall B a s =
      { s with cmsAttributes := s.cmsAttributes ++ (afterCall B a emptyState).cmsAttributes } := by
  cases a with
  | transactionId t => simp only [afterCall_transactionId]; cases t.printable <;> simp [emptyState]
  | certificates _ | addSigner _ _ | addRecipient _ | encrypt _ | issued _ | finalize _ => cases ha
  | _ => simp [emptyState]

/-- An attribute setter commutes with any call, up to the order of the attributes. -/
theorem reordered_swap {a : Call} (ha : a.isAttribute) (c : Call) (s : State) :
    Reordered (afterCall B c (afterCall B a s)) (afterCall B a (afterCall B c s)) := by
  rw [afterCall_attribute B ha s, afterCall_attribute B ha (afterCall B c s)]
  refine ⟨(afterCall_frame B c _).trans (afterCall_frame B c s).symm, ?_⟩
  rw [afterCall_cmsAttributes, afterCall_cmsAttributes B c s]
  simpa only [List.append_assoc] using List.perm_append_comm.append_left s.cmsAttributes

theorem reordered_attributes_first {as : List Call} (ha : ∀ a ∈ as, a.isAttribute) (c : Call)
    (s : State) : Reordered (run B (afterCall B c s) as) (afterCall B c (run B s as)) := by
  induction as generalizing s with
  | nil => exact .refl _
  | cons a as ih =>
    exact (reordered_run B (reordered_swap B (ha a (List.mem_cons_self a as)) c s).symm as).trans
      (ih (fun x hx => ha x (List.mem_cons_of_mem a hx)) _)

/-- A run reaches, up to order, the builder its attribute setters and then its other calls reach. -/
theorem reordered_partition (s : State) (cs : List Call) :
    Reordered (run B s cs) (run B s (cs.filter Call.isAttribute ++ cs.filter (!·.isAttribute))) := by
  induction cs generalizing s with
  | nil => exact .refl _
  | cons c cs ih =>
    cases hc : c.isAttribute
    · simp only [List.filter_cons, hc, Bool.not_false, if_true, Bool.false_eq_true, if_false]
      have h := ih (afterCall B c s)
      rw [run_append] at h
      rw [run_append, run_cons]
      exact h.trans (reordered_run B (reordered_attributes_first B
        (fun a ha => (List.mem_filter.mp ha).2) c s) _)
    · simp only [List.filter_cons, hc, Bool.not_true, if_true, Bool.false_eq_true, if_false,
        List.cons_append, run_cons]
      exact ih _

theorem reordered_perm {as as' : List Call} (h : as.Perm as') (ha : ∀ a ∈ as, a.isAttribute)
    (s : State) : Reordered (run B s as) (run B s as') := by
  induction h generalizing s with
  | nil => exact .refl _
  | cons x _ ih => exact ih (fun a h => ha a (List.mem_cons_of_mem x h)) _
  | swap x y l => exact reordered_run B (reordered_swap B (ha y (List.mem_cons_self y _)) x s) l
  | trans h₁ _ ih₁ ih₂ => exact (ih₁ ha s).trans (ih₂ (fun a h => ha a (h₁.symm.subset h)) s)

/-- Runs with the same other calls in the same order and permuted attribute setters. -/
theorem reordered_runs {cs cs' : List Call}
    (hattr : (cs.filter Call.isAttribute).Perm (cs'.filter Call.isAttribute))
    (hrest : cs.filter (!·.isAttribute) = cs'.filter (!·.isAttribute)) (s : State) :
    Reordered (run B s cs) (run B s cs') := by
  refine (reordered_partition B s cs).trans ?_
  rw [run_append, hrest]
  refine (reordered_run B (reordered_perm B hattr (fun a ha => (List.mem_filter.mp ha).2) s) _).trans ?_
  rw [← run_append]
  exact (reordered_partition B s cs').symm

/-- `finalize` on builders equal up to the order of their attributes returns on both, the same
message but for the order of the signed attributes. -/
theorem reordered_finalize {s t : State} (h : Reordered s t) {d : FinalizeDraws} {m : ContentInfo}
    {s' : State} (hm : (finalize B d).run s = .ok m s') :
    ∃ env signer signature t', m = signedMessage env
        [signerInfoOf signer (finalizedAttributes B s env) signature] s.certificates ∧
      (finalizedAttributes B s env).Perm (finalizedAttributes B t env) ∧
      (finalize B d).run t = .ok (signedMessage env
        [signerInfoOf signer (finalizedAttributes B t env) signature] s.certificates) t' := by
  obtain ⟨env, pk, signer, signature, he, hk, hs, hsig, rfl⟩ := finalize_ok_inv B hm
  have hperm : (finalizedAttributes B s env).Perm (finalizedAttributes B t env) :=
    h.perm.append_right _
  have he' : finalizeEnvelope B d t = .ok env := by
    rw [← finalizeEnvelope_frame, ← h.frame_eq, finalizeEnvelope_frame, he]
  have hk' : t.primarySignerKey = some pk := (congrArg State.primarySignerKey h.frame_eq).symm.trans hk
  have hs' : t.primarySigner = some signer := (congrArg State.primarySigner h.frame_eq).symm.trans hs
  have hc : t.certificates = s.certificates := (congrArg State.certificates h.frame_eq).symm
  have hsig' := dump_cmsAttributesAsn1_perm 0x31 hperm ▸ hsig
  refine ⟨env, signer, signature, { t with cmsAttributes := finalizedAttributes B t env }, rfl,
    hperm, ?_⟩
  rw [run_finalize, he']
  simp only [run_buildSignerinfo, hk', hs', ← hc]
  simp only [finalizedAttributes] at hsig'
  simp only [hsig']
  rfl

/-- Two runs from fresh builders with the same signer, whose other calls (certificates, signers,
recipient, payloads, earlier `finalize` calls with their draws) are the same and in the same
order, and whose attribute setters are permutations of one another: when `finalize` returns in
one run it returns in the other, with byte-identical DER of the signed attributes and the same
signature. -/
theorem finalize_independent_of_attribute_order (c : Certificate) (k : RsaPrivateKey)
    (cs cs' : List Call) (d : FinalizeDraws)
    (hattr : (cs.filter Call.isAttribute).Perm (cs'.filter Call.isAttribute))
    (hrest : cs.filter (!·.isAttribute) = cs'.filter (!·.isAttribute))
    {m : ContentInfo} {s' : State} (h : (finalize B d).run (run B (init c k) cs) = .ok m s') :
    ∃ m' s'' si si', (finalize B d).run (run B (init c k) cs') = .ok m' s'' ∧
      m.content.signerInfos = some [si] ∧ m'.content.signerInfos = some [si'] ∧
      Asn1.dump (cmsAttributesAsn1 0x31 si.signedAttrs) =
        Asn1.dump (cmsAttributesAsn1 0x31 si'.signedAttrs) ∧
      si.signature = si'.signature := by
  obtain ⟨env, signer, signature, t', rfl, hperm, ht⟩ :=
    reordered_finalize B (reordered_runs B hattr hrest (init c k)) h
  exact ⟨_, _, _, _, ht, rfl, rfl,
    dump_cmsAttributesAsn1_perm 0x31 (sortAttrs_perm_of_perm hperm _ _ _ _), rfl⟩

/-- The message type and a status, set in both orders before the sample payload and recipient. -/
def sampleSetters : List Call := [.messageType .PKCSReq, .pkiStatus .SUCCESS none] ++ sampleCalls

def sampleSettersSwapped : List Call := [.pkiStatus .SUCCESS none, .messageType .PKCSReq] ++ sampleCalls

theorem finalize_independent_of_attribute_order_sample :
    ∃ m s', (finalize plainBackend sampleDraws).run
        (run plainBackend (init sampleCert sampleKey) sampleSetters) = .ok m s' ∧
      ∃ m' s'' si si', (finalize plainBackend sampleDraws).run
          (run plainBackend (init sampleCert sampleKey) sampleSettersSwapped) = .ok m' s'' ∧
        m.content.signerInfos = some [si] ∧ m'.content.signerInfos = some [si'] ∧
        Asn1.dump (cmsAttributesAsn1 0x31 si.signedAttrs) =
          Asn1.dump (cmsAttributesAsn1 0x31 si'.signedAttrs) ∧
        si.signature = si'.signature := by
  obtain ⟨m, s', h⟩ := finalize_returns_sample
    (s := run plainBackend (init sampleCert sampleKey) sampleSetters)
    rfl rfl rfl rfl
  exact ⟨m, s', h, finalize_independent_of_attribute_order plainBackend sampleCert sampleKey
    sampleSetters sampleSettersSwapped sampleDraws (List.Perm.swap _ _ _) rfl h⟩

theorem dump_contentInfo_congr {ci ci' : ContentInfo} (ht : ci.contentType = ci'.contentType)
    (h : Asn1.dump ci.content.toAsn1 = Asn1.dump ci'.content.toAsn1) :
    Asn1.dump ci.toAsn1 = Asn1.dump ci'.toAsn1 := by
  have hc : Asn1.dump (.cons 0xa0 [ci.content.toAsn1]) = Asn1.dump (.cons 0xa0 [ci'.content.toAsn1]) :=
    Asn1.dump_cons_congr _ (by simp [h])
  exact Asn1.dump_cons_congr _ (by simp [ContentInfo.toAsn1, ht, hc])

/-- The message's DER does not depend on the order of its signed attributes. -/
theorem dump_signedMessage_perm (env : EnvelopedData) (signer : Signer) (signature : Bytes)
    (certs : Option CertificateSet) {attrs attrs' : List CMSAttribute} (h : attrs.Perm attrs') :
    Asn1.dump (signedMessage env [signerInfoOf signer attrs signature] certs).toAsn1 =
      Asn1.dump (signedMessage env [signerInfoOf signer attrs' signature] certs).toAsn1 := by
  have hattrs := dump_cmsAttributesAsn1_perm 0xa0 (sortAttrs_perm_of_perm h signer signer signature
    signature)
  have hsi : Asn1.dump (signerInfoOf signer attrs signature).sortAttrs.toAsn1 =
      Asn1.dump (signerInfoOf signer attrs' signature).sortAttrs.toAsn1 :=
    Asn1.dump_cons_congr _ (by simp only [SignerInfo.toAsn1, List.map_cons, hattrs]; rfl)
  have hset : Asn1.dump (.setOf 0x31 [(signerInfoOf signer attrs signature).sortAttrs.toAsn1]) =
      Asn1.dump (.setOf 0x31 [(signerInfoOf signer attrs' signature).sortAttrs.toAsn1]) :=
    Asn1.dump_cons_congr _ (by simp [List.insertionSort, hsi])
  exact dump_contentInfo_congr rfl (Asn1.dump_cons_congr _ (by
    simp only [signedMessage, SignedData.sortSets, signedDataOf, SignedData.toAsn1, Option.map_some',
      sortByEncoding_singleton, List.map_cons, List.map_nil, Option.toList_some, List.map_append,
      hset]))

/-- In the same two runs, the messages `finalize` returns have byte-identical DER. -/
theorem finalize_der_independent_of_attribute_order (c : Certificate) (k : RsaPrivateKey)
    (cs cs' : List Call) (d : FinalizeDraws)
    (hattr : (cs.filter Call.isAttribute).Perm (cs'.filter Call.isAttribute))
    (hrest : cs.filter (!·.isAttribute) = cs'.filter (!·.isAttribute))
    {m : ContentInfo} {s' : State} (h : (finalize B d).run (run B (init c k) cs) = .ok m s') :
    ∃ m' s'', (finalize B d).run (run B (init c k) cs') = .ok m' s'' ∧
      Asn1.dump m.toAsn1 = Asn1.dump m'.toAsn1 := by
  obtain ⟨env, signer, signature, t', rfl, hperm, ht⟩ :=
    reordered_finalize B (reordered_runs B hattr hrest (init c k)) h
  exact ⟨_, _, ht, dump_signedMessage_perm env signer signature _ hperm⟩

theorem finalize_der_independent_of_attribute_order_sample :
    ∃ m s', (finalize plainBackend sampleDraws).run
        (run plainBackend (init sampleCert sampleKey) sampleSetters) = .ok m s' ∧
      ∃ m' s'', (finalize plainBackend sampleDraws).run
          (run plainBackend (init sampleCert sampleKey) sampleSettersSwapped) = .ok m' s'' ∧
        Asn1.dump m.toAsn1 = Asn1.dump m'.toAsn1 := by
  obtain ⟨m, s', h⟩ := finalize_returns_sample
    (s := run plainBackend (init sampleCert sampleKey) sampleSetters)
    rfl rfl rfl rfl
  exact ⟨m, s', h, finalize_der_independent_of_attribute_order plainBackend sampleCert sampleKey
    sampleSetters sampleSettersSwapped sampleDraws (List.Perm.swap _ _ _) rfl h⟩

/-- Two runs of configuration calls from one builder, exceptions caught, in whatever order and
number their calls come, that leave the builder the same signer and key, certificate set, first
payload and recipient, and whose setters ask for the same attributes up to order: when
`finalize` returns after one it returns after the other, and the two messages have
byte-identical DER. -/
theorem finalize_der_of_same_configuration (s : State) (cs cs' : List Call)
    (hc : ∀ c ∈ cs, c.isConfiguration) (hc' : ∀ c ∈ cs', c.isConfiguration)
    (hframe : (s.view.afterConfiguration cs).frame = (s.view.afterConfiguration cs').frame)
    (hattr : (cs.flatMap Call.expectedAttributes).Perm (cs'.flatMap Call.expectedAttributes))
    (d : FinalizeDraws) {m : ContentInfo} {s₁ : State}
    (h : (finalize B d).run (run B s cs) = .ok m s₁) :
    ∃ m' s₂, (finalize B d).run (run B s cs') = .ok m' s₂ ∧ Asn1.dump m.toAsn1 = Asn1.dump m'.toAsn1 := by
  have hv := run_view_of_configuration B s hc
  have hv' := run_view_of_configuration B s hc'
  have hperm : (run B s cs).cmsAttributes.Perm (run B s cs').cmsAttributes := by
    have h₁ : (run B s cs).cmsAttributes = s.cmsAttributes ++ cs.flatMap Call.expectedAttributes :=
      congrArg View.cmsAttributes hv
    have h₂ : (run B s cs').cmsAttributes = s.cmsAttributes ++ cs'.flatMap Call.expectedAttributes :=
      congrArg View.cmsAttributes hv'
    rw [h₁, h₂]
    exact hattr.append_left _
  let u : State := { run B s cs with cmsAttributes := (run B s cs').cmsAttributes }
  have hu : u.view = (run B s cs').view :=
    View.eq_of_frame_eq ((congrArg View.frame hv).trans (hframe.trans (congrArg View.frame hv').symm))
  have hre : Reordered (run B s cs) u := ⟨rfl, hperm⟩
  obtain ⟨env, signer, signature, t', rfl, hp, ht⟩ := reordered_finalize B hre h
  have hout := outcome_finalize_view B hu d
  rw [ht] at hout
  obtain ⟨s₂, hr⟩ := eq_ok_of_outcome_eq_ok hout.symm
  exact ⟨_, s₂, hr, dump_signedMessage_perm env signer signature _ hp⟩

/-- A message type and a nonce before the sample payload and recipient, and the same calls
interleaved the other way. -/
def sampleInterleaved : List Call :=
  [.encrypt [1, 2, 3], .senderNonce (.bytes [7]), .addRecipient sampleCert, .messageType .PKCSReq]

theorem finalize_der_of_same_configuration_sample :
    ∃ m s₁, (finalize plainBackend sampleDraws).run (run plainBackend (init sampleCert sampleKey)
        ([.messageType .PKCSReq, .senderNonce (.bytes [7])] ++ sampleCalls)) = .ok m s₁ ∧
      ∃ m' s₂, (finalize plainBackend sampleDraws).run
          (run plainBackend (init sampleCert sampleKey) sampleInterleaved) = .ok m' s₂ ∧
        Asn1.dump m.toAsn1 = Asn1.dump m'.toAsn1 := by
  obtain ⟨m, s₁, h⟩ := finalize_returns_sample (s := run plainBackend (init sampleCert sampleKey)
    ([Call.messageType .PKCSReq, .senderNonce (.bytes [7])] ++ sampleCalls)) rfl rfl rfl rfl
  exact ⟨m, s₁, h, finalize_der_of_same_configuration plainBackend (init sampleCert sampleKey)
    ([Call.messageType .PKCSReq, .senderNonce (.bytes [7])] ++ sampleCalls) sampleInterleaved
    (by decide) (by decide) rfl (List.Perm.swap _ _ []) sampleDraws h⟩

end PKIMessageBuilder
end Scep
