import Scep.Der.Value

namespace Scep

/-- One's complement of an octet. -/
def complement (x : UInt8) : UInt8 := 255 - x

theorem toNat_complement (x : UInt8) : (complement x).toNat = 255 - x.toNat := by
  have hx : x.toNat < 256 := UInt8.toNat_lt_size x
  unfold complement
  rw [UInt8.toNat_sub_of_le _ _ (by rw [UInt8.le_def]; simp [BitVec.le_def]; omega)]
  rfl

@[simp] theorem complement_complement (x : UInt8) : complement (complement x) = x :=
  UInt8.toNat.inj (by
    have : x.toNat < 256 := UInt8.toNat_lt_size x
    rw [toNat_complement, toNat_complement]; omega)

namespace Der

/-- Contents of a non-negative INTEGER: the minimal octets, with a leading zero when the
top bit would otherwise read as a sign. -/
def natContents (n : ℕ) : Bytes :=
  if ((beBytes n).headD 0).toNat < 128 ∧ n ≠ 0 then beBytes n else 0 :: beBytes n

/-- `int_to_bytes(value, signed=True)`: minimal two's complement contents of an INTEGER. -/
def encodeInteger : ℤ → Bytes
  | .ofNat n => natContents n
  | .negSucc m => (natContents m).map complement

/-- `int_from_bytes(contents, signed=True)`. -/
def decodeInteger (c : Bytes) : ℤ :=
  if (c.headD 0).toNat < 128 then beValue c else -(beValue (c.map complement) : ℤ) - 1

theorem natContents_head (n : ℕ) : ((natContents n).headD 0).toNat < 128 := by
  unfold natContents
  split_ifs with h
  · exact h.1
  · simp

theorem beValue_natContents (n : ℕ) : beValue (natContents n) = n := by
  unfold natContents; split_ifs <;> simp

@[simp] theorem decodeInteger_encodeInteger (z : ℤ) : decodeInteger (encodeInteger z) = z := by
  cases z with
  | ofNat n => rw [encodeInteger, decodeInteger, if_pos (natContents_head n), beValue_natContents]; rfl
  | negSucc m =>
    have hh := natContents_head m
    have hne : natContents m ≠ [] := by unfold natContents; split_ifs <;> simp_all
    obtain ⟨x, xs, hx⟩ := List.exists_cons_of_ne_nil hne
    have hx' : ¬ (complement x).toNat < 128 := by
      rw [hx] at hh; rw [toNat_complement]; simp at hh; omega
    have hmap : ((natContents m).map complement).map complement = natContents m := by
      simp [List.map_map, Function.comp_def]
    rw [encodeInteger, decodeInteger, hx, List.map_cons, List.headD_cons, if_neg hx',
      ← List.map_cons, ← hx, hmap, beValue_natContents, Int.negSucc_eq]
    ring

end Der

/-- An OBJECT IDENTIFIER, held as its contents octets. -/
structure Oid where
  contents : Bytes
  deriving DecidableEq

def subIdentifierAux : ℕ → ℕ → Bytes → Bytes
  | 0, _, acc => acc
  | fuel + 1, n, acc =>
    if n = 0 then acc else subIdentifierAux fuel (n / 128) ((n % 128 + 128).toUInt8 :: acc)

/-- Base-128 octets of one arc, the high bit set on all but the last. -/
def subIdentifier (n : ℕ) : Bytes := subIdentifierAux n (n / 128) [(n % 128).toUInt8]

/-- `ObjectIdentifier.set` from dotted arcs: the first two arcs share one subidentifier. -/
def Oid.ofArcs : List ℕ → Oid
  | a :: b :: rest => ⟨subIdentifier (40 * a + b) ++ (rest.map subIdentifier).flatten⟩
  | _ => ⟨[]⟩

namespace Asn1

def integer (z : ℤ) : Asn1 := prim 0x02 (Der.encodeInteger z)
def octetString (b : Bytes) : Asn1 := prim 0x04 b
def null : Asn1 := prim 0x05 []
def oid (o : Oid) : Asn1 := prim 0x06 o.contents
def printableString (b : Bytes) : Asn1 := prim 0x13 b
def sequence (cs : List Asn1) : Asn1 := cons 0x30 cs

/-- INTEGER contents, refusing the non-minimal forms OpenSSL's `c2i_ASN1_INTEGER` refuses. -/
def readInteger : Asn1 → Option ℤ
  | prim t c =>
    if t = 0x02 ∧ Der.encodeInteger (Der.decodeInteger c) = c then some (Der.decodeInteger c)
    else none
  | cons _ _ => none

def readOctetString : Asn1 → Option Bytes
  | prim t c => if t = 0x04 then some c else none
  | cons _ _ => none

def readOid : Asn1 → Option Oid
  | prim t c => if t = 0x06 then some ⟨c⟩ else none
  | cons _ _ => none

@[simp] theorem readInteger_integer (z : ℤ) : readInteger (integer z) = some z := by
  simp [readInteger, integer]

@[simp] theorem readOctetString_octetString (b : Bytes) :
    readOctetString (octetString b) = some b := by
  simp [readOctetString, octetString]

@[simp] theorem readOid_oid (o : Oid) : readOid (oid o) = some o := by
  simp [readOid, oid]

theorem eq_integer_of_readInteger {t : Asn1} {z : ℤ} (h : readInteger t = some z) :
    t = integer z := by
  cases t with
  | prim tag c =>
    simp only [readInteger] at h
    split_ifs at h with hc
    cases h
    rw [integer, hc.1, hc.2]
  | cons _ _ => cases h

theorem valid_cons_iff {t : UInt8} {cs : List Asn1} :
    (cons t cs).valid ↔ t.toNat % 32 ≠ 31 ∧ t.toNat / 32 % 2 = 1 ∧
      (dumpAll cs).length < Der.maxLength ∧ ∀ c ∈ cs, c.valid := by
  have : ∀ cs : List Asn1, validAll cs ↔ ∀ c ∈ cs, c.valid := by
    intro cs; induction cs with
    | nil => simp [validAll]
    | cons a as ih => simp [validAll, ih]
  simp [valid, this, and_assoc]

theorem valid_of_mem {t : UInt8} {cs : List Asn1} {c : Asn1} (h : (cons t cs).valid) (hc : c ∈ cs) :
    c.valid :=
  (valid_cons_iff.mp h).2.2.2 c hc

end Asn1
end Scep
