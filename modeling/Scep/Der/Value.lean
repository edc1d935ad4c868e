import Scep.Der.Bytes
import Mathlib.Data.List.Sort

/-! DER values as asn1crypto writes them. `Asn1.dump` is `Asn1Value.dump` (header from
`_dump_header`, then contents); `Asn1.parseOne` reads one value back, refusing any header
that is not the minimal one, so a successful read is exactly a dump. `Asn1.setOf` is
`SetOf._set_contents`: the children's encodings are joined in sorted order. -/
namespace Scep

namespace Der

/-- asn1crypto's `_dump_header` length octets: short form below 128, otherwise `0x80 | k`
followed by the `k` minimal big-endian octets of the length. -/
def encodeLength (n : ℕ) : Bytes :=
  if n < 128 then [n.toUInt8] else (128 + (beBytes n).length).toUInt8 :: beBytes n

/-- The definite-length octets of a DER header; long forms that are not minimal are refused. -/
def readLength : Bytes → Option (ℕ × Bytes)
  | [] => none
  | b :: rest =>
    if b.toNat < 128 then some (b.toNat, rest)
    else
      let k := b.toNat - 128
      let ds := rest.take k
      if k = 0 ∨ ds.length < k ∨ ds.head? = some 0 ∨ beValue ds < 128 then none
      else some (beValue ds, rest.drop k)

/-- DER lengths fit in at most 127 length octets. -/
def maxLength : ℕ := 256 ^ 127

theorem readLength_encodeLength {n : ℕ} (h : n < maxLength) (r : Bytes) :
    readLength (encodeLength n ++ r) = some (n, r) := by
  unfold encodeLength
  split_ifs with hn
  · simp [readLength, toNat_toUInt8 (show n < 256 by omega), hn]
  · have hk := length_beBytes_le h
    have hne : beBytes n ≠ [] := by simp; omega
    have hpos : 0 < (beBytes n).length := List.length_pos.mpr hne
    have hb : (128 + (beBytes n).length).toUInt8.toNat = 128 + (beBytes n).length :=
      toNat_toUInt8 (by omega)
    simp only [List.cons_append, readLength, hb, List.take_left', List.drop_left',
      beValue_beBytes, show ¬ (128 + (beBytes n).length < 128) by omega, if_false,
      Nat.add_sub_cancel_left]
    rw [if_neg]
    simp only [not_or]
    exact ⟨by omega, by simp, head_beBytes n, by omega⟩

theorem readLength_sound {b r : Bytes} {n : ℕ} (h : readLength b = some (n, r)) :
    n < maxLength ∧ b = encodeLength n ++ r := by
  match b, h with
  | x :: rest, h =>
    simp only [readLength] at h
    split_ifs at h with hx hbad
    · obtain ⟨rfl, rfl⟩ := Prod.mk.inj (Option.some.inj h)
      refine ⟨lt_of_lt_of_le hx (by norm_num [maxLength]), ?_⟩
      simp [encodeLength, hx, UInt8.toNat.inj (toNat_toUInt8 (show x.toNat < 256 by omega))]
    · obtain ⟨rfl, rfl⟩ := Prod.mk.inj (Option.some.inj h)
      simp only [not_or, not_lt] at hbad
      obtain ⟨hk, hlen, hhead, hge⟩ := hbad
      have hx256 : x.toNat < 256 := UInt8.toNat_lt_size x
      have hds : (rest.take (x.toNat - 128)).length = x.toNat - 128 := by
        simp only [List.length_take] at hlen ⊢; omega
      refine ⟨lt_of_lt_of_le (beValue_lt _) (Nat.pow_le_pow_right (by norm_num) (by omega)), ?_⟩
      rw [encodeLength, if_neg (by omega), beBytes_beValue hhead, hds]
      have : (128 + (x.toNat - 128)).toUInt8 = x := UInt8.toNat.inj (by
        rw [toNat_toUInt8 (by omega)]; omega)
      rw [this, List.cons_append, List.take_append_drop]


end Der

/-- An ASN.1 value as asn1crypto encodes it: the identifier octet, with the contents octets
of a primitive encoding or the values a constructed encoding nests. -/
inductive Asn1 where
  | prim (tag : UInt8) (contents : Bytes)
  | cons (tag : UInt8) (children : List Asn1)

namespace Asn1
open Der

mutual
def dump : Asn1 → Bytes
  | prim t c => t :: (encodeLength c.length ++ c)
  | cons t cs => t :: (encodeLength (dumpAll cs).length ++ dumpAll cs)
def dumpAll : List Asn1 → Bytes
  | [] => []
  | a :: as => dump a ++ dumpAll as
end

mutual
/-- Low-tag-number identifiers only; the constructed bit agrees with the node. -/
def valid : Asn1 → Bool
  | prim t c => t.toNat % 32 != 31 && t.toNat / 32 % 2 == 0 && decide (c.length < maxLength)
  | cons t cs => t.toNat % 32 != 31 && t.toNat / 32 % 2 == 1 &&
      decide ((dumpAll cs).length < maxLength) && validAll cs
def validAll : List Asn1 → Bool
  | [] => true
  | a :: as => valid a && validAll as
end

mutual
def parseOne : ℕ → Bytes → Option (Asn1 × Bytes)
  | 0, _ => none
  | _ + 1, [] => none
  | fuel + 1, t :: b =>
    if t.toNat % 32 = 31 then none else
    match readLength b with
    | none => none
    | some (n, r) =>
      if r.length < n then none
      else if t.toNat / 32 % 2 = 1 then
        match parseAll fuel (r.take n) with
        | none => none
        | some cs => some (cons t cs, r.drop n)
      else some (prim t (r.take n), r.drop n)
def parseAll : ℕ → Bytes → Option (List Asn1)
  | 0, _ => none
  | _ + 1, [] => some []
  | fuel + 1, x :: b =>
    match parseOne fuel (x :: b) with
    | none => none
    | some (a, r) =>
      match parseAll fuel r with
      | none => none
      | some as => some (a :: as)
end

theorem length_dump_pos (t : Asn1) : 2 ≤ (dump t).length := by
  cases t <;> simp [dump, encodeLength] <;> split <;> simp <;> omega

mutual
theorem parseOne_dump : ∀ (t : Asn1) (fuel : ℕ) (r : Bytes), t.valid →
    (dump t).length ≤ fuel → parseOne fuel (dump t ++ r) = some (t, r)
  | prim t c, fuel + 1, r, hv, hf => by
    simp only [valid, Bool.and_eq_true, bne_iff_ne, ne_eq, beq_iff_eq, decide_eq_true_eq] at hv
    obtain ⟨⟨h31, hc⟩, hlen⟩ := hv
    simp only [dump, List.cons_append, List.append_assoc, parseOne, h31, if_false,
      readLength_encodeLength hlen]
    simp [hc]
  | cons t cs, fuel + 1, r, hv, hf => by
    simp only [valid, Bool.and_eq_true, bne_iff_ne, ne_eq, beq_iff_eq, decide_eq_true_eq] at hv
    obtain ⟨⟨⟨h31, hc⟩, hlen⟩, hall⟩ := hv
    simp only [dump, List.length_cons, List.length_append] at hf
    simp only [dump, List.cons_append, List.append_assoc, parseOne, h31, if_false,
      readLength_encodeLength hlen, hc, List.take_left', List.drop_left',
      parseAll_dumpAll cs fuel hall (by
        have : 0 < (encodeLength (dumpAll cs).length).length := by
          unfold encodeLength; split <;> simp
        omega)]
    simp
  | prim t c, 0, _, _, hf => by have := length_dump_pos (prim t c); omega
  | cons t cs, 0, _, _, hf => by have := length_dump_pos (cons t cs); omega
theorem parseAll_dumpAll : ∀ (cs : List Asn1) (fuel : ℕ), validAll cs = true →
    (dumpAll cs).length < fuel → parseAll fuel (dumpAll cs) = some cs
  | [], fuel + 1, _, _ => rfl
  | a :: as, fuel + 1, hv, hf => by
    simp only [validAll, Bool.and_eq_true] at hv
    simp only [dumpAll, List.length_append] at hf
    have ha := parseOne_dump a fuel (dumpAll as) hv.1 (by omega)
    obtain ⟨x, b, hxb⟩ : ∃ x b, dump a ++ dumpAll as = x :: b := by
      cases h : dump a with
      | nil => have := length_dump_pos a; simp [h] at this
      | cons x b => exact ⟨x, b ++ dumpAll as, rfl⟩
    have := length_dump_pos a
    rw [dumpAll, hxb, parseAll, ← hxb, ha]
    simp only [parseAll_dumpAll as fuel hv.2 (by omega)]
  | _, 0, _, hf => by omega
end

mutual
theorem dump_of_parseOne : ∀ (fuel : ℕ) (b : Bytes) (t : Asn1) (r : Bytes),
    parseOne fuel b = some (t, r) → t.valid ∧ b = dump t ++ r
  | 0, _, _, _, h => by simp [parseOne] at h
  | _ + 1, [], _, _, h => by simp [parseOne] at h
  | fuel + 1, x :: b, t, r, h => by
    simp only [parseOne] at h
    split_ifs at h with h31 hc
    all_goals
      split at h
      · simp at h
      rename_i n r' hrl
      obtain ⟨hn, rfl⟩ := readLength_sound hrl
      split_ifs at h with hlt
      have htl : (r'.take n).length = n := by simp; omega
    · split at h
      · simp at h
      rename_i cs hcs
      obtain ⟨rfl, rfl⟩ := Prod.mk.inj (Option.some.inj h)
      obtain ⟨hv, hd⟩ := dumpAll_of_parseAll fuel _ cs hcs
      refine ⟨?_, ?_⟩
      · simp only [valid, hv, Bool.and_true, Bool.and_eq_true, bne_iff_ne, ne_eq, beq_iff_eq,
          decide_eq_true_eq]
        exact ⟨⟨h31, hc⟩, by rw [← hd, htl]; exact hn⟩
      · rw [dump, ← hd, htl, List.cons_append, List.append_assoc, List.take_append_drop]
    · obtain ⟨rfl, rfl⟩ := Prod.mk.inj (Option.some.inj h)
      refine ⟨?_, ?_⟩
      · simp only [valid, Bool.and_eq_true, bne_iff_ne, ne_eq, beq_iff_eq, decide_eq_true_eq]
        exact ⟨⟨h31, by omega⟩, by rw [htl]; exact hn⟩
      · rw [dump, htl, List.cons_append, List.append_assoc, List.take_append_drop]
theorem dumpAll_of_parseAll : ∀ (fuel : ℕ) (b : Bytes) (cs : List Asn1),
    parseAll fuel b = some cs → validAll cs ∧ b = dumpAll cs
  | 0, _, _, h => by simp [parseAll] at h
  | _ + 1, [], cs, h => by
    simp only [parseAll, Option.some.injEq] at h
    subst h; simp [validAll, dumpAll]
  | fuel + 1, x :: b, cs, h => by
    simp only [parseAll] at h
    split at h
    · simp at h
    · rename_i a r ha
      split at h
      · simp at h
      · rename_i as has
        cases h
        obtain ⟨hva, hda⟩ := dump_of_parseOne fuel _ a r ha
        obtain ⟨hvs, hds⟩ := dumpAll_of_parseAll fuel r as has
        exact ⟨by simp [validAll, hva, hvs], by rw [hda, hds]; rfl⟩
end

/-- `Asn1Value.load` of one complete value: the parse must consume every octet. -/
def decode (b : Bytes) : Option Asn1 :=
  match parseOne b.length b with
  | some (t, []) => some t
  | _ => none

theorem decode_dump {t : Asn1} (h : t.valid) : decode (dump t) = some t := by
  have := parseOne_dump t (dump t).length [] h le_rfl
  simp only [List.append_nil] at this
  simp [decode, this]

theorem decode_sound {b : Bytes} {t : Asn1} (h : decode b = some t) : t.valid ∧ b = dump t := by
  unfold decode at h
  split at h
  · cases h
    rename_i hp
    simpa using dump_of_parseOne _ _ _ _ hp
  · cases h

theorem dumpAll_eq (cs : List Asn1) : dumpAll cs = (cs.map dump).flatten := by
  induction cs with
  | nil => rfl
  | cons a as ih => simp [dumpAll, ih]

mutual
/-- The identifier rules of `valid` without its length bounds. -/
def tagged : Asn1 → Bool
  | prim t _ => t.toNat % 32 != 31 && t.toNat / 32 % 2 == 0
  | cons t cs => t.toNat % 32 != 31 && t.toNat / 32 % 2 == 1 && taggedAll cs
def taggedAll : List Asn1 → Bool
  | [] => true
  | a :: as => tagged a && taggedAll as
end

theorem length_dumpAll_lt (t : UInt8) (cs : List Asn1) :
    (dumpAll cs).length < (dump (cons t cs)).length := by
  simp [dump]; omega

mutual
/-- Below the length limit a well-tagged value is valid: every inner length is shorter. -/
theorem valid_of_tagged : ∀ t : Asn1, t.tagged → (dump t).length < maxLength → t.valid
  | prim t c, ht, hl => by
    have hc : c.length < maxLength := lt_of_le_of_lt (by simp [dump]; omega) hl
    simp only [tagged, valid, Bool.and_eq_true, decide_eq_true_eq] at ht ⊢
    exact ⟨ht, hc⟩
  | cons t cs, ht, hl => by
    have hc := (length_dumpAll_lt t cs).trans hl
    simp only [tagged, valid, Bool.and_eq_true, decide_eq_true_eq] at ht ⊢
    exact ⟨⟨ht.1, hc⟩, validAll_of_taggedAll cs ht.2 hc⟩
theorem validAll_of_taggedAll : ∀ cs : List Asn1, taggedAll cs → (dumpAll cs).length < maxLength →
    validAll cs
  | [], _, _ => rfl
  | a :: as, h, hl => by
    simp only [taggedAll, validAll, Bool.and_eq_true, dumpAll, List.length_append] at h hl ⊢
    exact ⟨valid_of_tagged a h.1 (by omega), validAll_of_taggedAll as h.2 (by omega)⟩
end

mutual
theorem tagged_of_valid : ∀ t : Asn1, t.valid → t.tagged
  | prim t c, h => by
    simp only [tagged, valid, Bool.and_eq_true] at h ⊢
    exact h.1
  | cons t cs, h => by
    simp only [tagged, valid, Bool.and_eq_true] at h ⊢
    exact ⟨h.1.1, taggedAll_of_validAll cs h.2⟩
theorem taggedAll_of_validAll : ∀ cs : List Asn1, validAll cs → taggedAll cs
  | [], _ => rfl
  | a :: as, h => by
    simp only [taggedAll, validAll, Bool.and_eq_true] at h ⊢
    exact ⟨tagged_of_valid a h.1, taggedAll_of_validAll as h.2⟩
end

@[simp] theorem taggedAll_iff {cs : List Asn1} : taggedAll cs ↔ ∀ c ∈ cs, c.tagged := by
  induction cs with
  | nil => simp [taggedAll]
  | cons a as ih => simp [taggedAll, ih]

@[simp] theorem tagged_prim_iff {t : UInt8} {c : Bytes} :
    (prim t c).tagged ↔ t.toNat % 32 ≠ 31 ∧ t.toNat / 32 % 2 = 0 := by
  simp [tagged]

@[simp] theorem tagged_cons_iff {t : UInt8} {cs : List Asn1} :
    (cons t cs).tagged ↔ t.toNat % 32 ≠ 31 ∧ t.toNat / 32 % 2 = 1 ∧ ∀ c ∈ cs, c.tagged := by
  simp [tagged, and_assoc]

theorem length_dump_le_dumpAll {c : Asn1} : ∀ {cs : List Asn1}, c ∈ cs →
    (dump c).length ≤ (dumpAll cs).length
  | a :: as, h => by
    rw [dumpAll, List.length_append]
    rcases List.mem_cons.mp h with rfl | h
    · omega
    · have := length_dump_le_dumpAll h; omega

theorem length_dump_lt_of_mem {c : Asn1} {cs : List Asn1} (t : UInt8) (h : c ∈ cs) :
    (dump c).length < (dump (cons t cs)).length :=
  lt_of_le_of_lt (length_dump_le_dumpAll h) (length_dumpAll_lt t cs)

theorem length_encodeLength_le (n : ℕ) : (encodeLength n).length ≤ n + 1 := by
  unfold encodeLength
  split_ifs with h
  · simp
  · simp only [List.length_cons]
    have := length_beBytes_le (show n < 256 ^ n from Nat.lt_pow_self (by norm_num) n)
    omega

theorem length_dump_prim_le (t : UInt8) (c : Bytes) : (dump (prim t c)).length ≤ 2 * c.length + 2 := by
  have := length_encodeLength_le c.length
  simp only [dump, List.length_cons, List.length_append]
  omega

/-- An encoding is at most twice its children's encodings, and two octets more. -/
theorem length_dump_cons_le (t : UInt8) (cs : List Asn1) :
    (dump (cons t cs)).length ≤ 2 * (cs.map fun c => (dump c).length).sum + 2 := by
  have := length_encodeLength_le (dumpAll cs).length
  have hsum : (dumpAll cs).length = (cs.map fun c => (dump c).length).sum := by
    rw [dumpAll_eq, List.length_flatten, List.map_map]; rfl
  simp only [dump, List.length_cons, List.length_append]
  omega

end Asn1

/-- Python's ordering of `bytes`: lexicographic on the octet values, a prefix first. -/
def bytesLe (a b : Bytes) : Prop := a.map UInt8.toNat ≤ b.map UInt8.toNat

instance : DecidableRel bytesLe := fun _ _ => inferInstanceAs (Decidable (_ ≤ _))

instance : IsAntisymm Bytes bytesLe where
  antisymm _ _ hab hba := (List.map_injective_iff.mpr fun _ _ => UInt8.toNat.inj)
    (le_antisymm hab hba)

namespace Asn1

/-- The order `SetOf._set_contents` sorts child encodings by. -/
def encodingLe (a b : Asn1) : Prop := bytesLe (dump a) (dump b)

instance : DecidableRel encodingLe := fun _ _ => inferInstanceAs (Decidable (bytesLe _ _))
instance : IsTotal Asn1 encodingLe := ⟨fun _ _ => le_total (α := List ℕ) _ _⟩
instance : IsTrans Asn1 encodingLe := ⟨fun _ _ _ => le_trans (α := List ℕ)⟩

/-- A DER `SET OF`: asn1crypto joins the children's encodings in sorted order. -/
def setOf (tag : UInt8) (cs : List Asn1) : Asn1 := cons tag (cs.insertionSort encodingLe)

theorem dumpAll_insertionSort_perm {cs cs' : List Asn1} (h : (cs.map dump).Perm (cs'.map dump)) :
    dumpAll (cs.insertionSort encodingLe) = dumpAll (cs'.insertionSort encodingLe) := by
  have hs : ∀ l : List Asn1, List.Sorted bytesLe ((l.insertionSort encodingLe).map dump) :=
    fun l => List.pairwise_map.mpr (List.sorted_insertionSort encodingLe l)
  have hp : ((cs.insertionSort encodingLe).map dump).Perm ((cs'.insertionSort encodingLe).map dump) :=
    (((List.perm_insertionSort _ cs).map dump).trans h).trans
      ((List.perm_insertionSort _ cs').map dump).symm
  rw [dumpAll_eq, dumpAll_eq, List.eq_of_perm_of_sorted hp (hs cs) (hs cs')]

/-- A `SET OF`'s encoding depends only on the multiset of its members' encodings. -/
theorem dump_setOf_congr (tag : UInt8) {cs cs' : List Asn1} (h : (cs.map dump).Perm (cs'.map dump)) :
    dump (setOf tag cs) = dump (setOf tag cs') := by
  simp only [setOf, dump, dumpAll_insertionSort_perm h]

theorem dump_setOf_perm (tag : UInt8) {cs cs' : List Asn1} (h : cs.Perm cs') :
    dump (setOf tag cs) = dump (setOf tag cs') :=
  dump_setOf_congr tag (h.map dump)

/-- A constructed value's encoding depends only on its children's encodings. -/
theorem dump_cons_congr (tag : UInt8) {cs cs' : List Asn1} (h : cs.map dump = cs'.map dump) :
    dump (cons tag cs) = dump (cons tag cs') := by
  simp only [dump, dumpAll_eq, h]

end Asn1
end Scep
