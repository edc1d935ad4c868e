import Mathlib.Data.Nat.Digits

/-! Byte strings and their big-endian reading. asn1crypto's `int_to_bytes` and
`int_from_bytes` use this reading for DER lengths and INTEGER contents, and RSA's I2OSP
and OS2IP use it for key-sized blocks. -/
namespace Scep

abbrev Bytes := List UInt8

/-- The Python exceptions the modelled calls raise, with their messages. -/
inductive PyError where
  | valueError (msg : String)
  | indexError (msg : String)
  | attributeError (msg : String)
  | typeError (msg : String)
  | assertionError
  /-- `UnicodeEncodeError`, the `ValueError` a codec raises. -/
  | unicodeEncodeError (msg : String)
  /-- `cryptography.exceptions.UnsupportedAlgorithm`. -/
  | unsupportedAlgorithm (msg : String)
  /-- `cryptography.exceptions.InternalError`, which `openssl_assert` raises when OpenSSL fails
  for a reason cryptography does not expect; its text lists OpenSSL's error queue. -/
  | internalError
  deriving DecidableEq, Repr

/-- `int_from_bytes`: the big-endian value of a byte string. -/
def beValue (b : Bytes) : ℕ := Nat.ofDigits 256 (b.reverse.map UInt8.toNat)

def beBytesAux : ℕ → ℕ → Bytes → Bytes
  | 0, _, acc => acc
  | fuel + 1, n, acc => if n = 0 then acc else beBytesAux fuel (n / 256) (n.toUInt8 :: acc)

/-- `int_to_bytes`: the minimal big-endian octets of `n`, none for zero. -/
def beBytes (n : ℕ) : Bytes := beBytesAux n n []

theorem toNat_toUInt8 {n : ℕ} (h : n < 256) : n.toUInt8.toNat = n :=
  UInt8.toNat_ofNat_of_lt h

@[simp] theorem toUInt8_toNat (x : UInt8) : x.toNat.toUInt8 = x :=
  UInt8.toNat.inj (toNat_toUInt8 (UInt8.toNat_lt_size x))

theorem beBytesAux_eq (fuel n : ℕ) (acc : Bytes) (h : n ≤ fuel) :
    beBytesAux fuel n acc = ((Nat.digits 256 n).map Nat.toUInt8).reverse ++ acc := by
  induction fuel generalizing n acc with
  | zero =>
    obtain rfl : n = 0 := by omega
    simp [beBytesAux]
  | succ fuel ih =>
    rcases Nat.eq_zero_or_pos n with rfl | hn
    · simp [beBytesAux]
    · rw [beBytesAux, if_neg hn.ne', ih _ _ (by omega), Nat.digits_def' (by norm_num) hn]
      have : (n % 256).toUInt8 = n.toUInt8 := UInt8.toNat.inj (by
        simp only [Nat.toUInt8, UInt8.toNat, UInt8.ofNat, BitVec.toNat_ofNat]; omega)
      simp [this]

theorem beBytes_eq (n : ℕ) : beBytes n = ((Nat.digits 256 n).map Nat.toUInt8).reverse := by
  simp [beBytes, beBytesAux_eq n n [] le_rfl]

theorem map_toNat_digits (n : ℕ) :
    ((Nat.digits 256 n).map Nat.toUInt8).map UInt8.toNat = Nat.digits 256 n := by
  rw [List.map_map]
  conv_rhs => rw [← List.map_id (Nat.digits 256 n)]
  exact List.map_congr_left fun d hd => toNat_toUInt8 (Nat.digits_lt_base (by norm_num) hd)

@[simp] theorem beValue_beBytes (n : ℕ) : beValue (beBytes n) = n := by
  rw [beValue, beBytes_eq, List.reverse_reverse, map_toNat_digits, Nat.ofDigits_digits]

/-- Minimal octets are the only ones with no leading zero. -/
theorem beBytes_beValue {b : Bytes} (h : b.head? ≠ some 0) : beBytes (beValue b) = b := by
  have hlt : ∀ l ∈ b.reverse.map UInt8.toNat, l < 256 := by
    simp only [List.mem_map, List.mem_reverse]
    rintro _ ⟨x, -, rfl⟩
    exact UInt8.toNat_lt_size x
  have hlast : ∀ w, (b.reverse.map UInt8.toNat).getLast w ≠ 0 := by
    intro w
    cases b with
    | nil => simp at w
    | cons x b =>
      intro hx
      simp only [List.reverse_cons, List.map_append, List.map_cons, List.map_nil,
        List.getLast_concat] at hx
      exact h (by simp [UInt8.toNat.inj (hx.trans UInt8.toNat_zero.symm)])
  rw [beBytes_eq, beValue, Nat.digits_ofDigits 256 (by norm_num) _ hlt hlast]
  simp [List.map_map, Function.comp_def]

theorem beValue_lt (b : Bytes) : beValue b < 256 ^ b.length := by
  have := Nat.ofDigits_lt_base_pow_length (b := 256) (l := b.reverse.map UInt8.toNat)
    (by norm_num) (by simp only [List.mem_map]; rintro _ ⟨x, -, rfl⟩; exact UInt8.toNat_lt_size x)
  simpa [beValue] using this

@[simp] theorem beValue_zero_cons (b : Bytes) : beValue (0 :: b) = beValue b := by
  simp [beValue, Nat.ofDigits_append]

theorem length_beBytes_le {n k : ℕ} (h : n < 256 ^ k) : (beBytes n).length ≤ k := by
  rcases Nat.eq_zero_or_pos n with rfl | hn
  · simp [beBytes_eq]
  · have := Nat.base_pow_length_digits_le 256 n (by norm_num) hn.ne'
    rw [beBytes_eq, List.length_reverse, List.length_map]
    by_contra hk
    have : 256 ^ (k + 1) ≤ 256 ^ (Nat.digits 256 n).length :=
      Nat.pow_le_pow_right (by norm_num) (by omega)
    rw [pow_succ] at this
    omega

theorem head_beBytes (n : ℕ) : (beBytes n).head? ≠ some 0 := by
  rcases Nat.eq_zero_or_pos n with rfl | hn
  · simp [beBytes_eq]
  · rw [beBytes_eq, List.head?_reverse,
      List.getLast?_eq_getLast _ (by simpa using Nat.digits_ne_nil_iff_ne_zero.mpr hn.ne')]
    simp only [List.getLast_map, Option.some.injEq]
    intro h
    apply Nat.getLast_digit_ne_zero 256 hn.ne'
    have h2 := congrArg UInt8.toNat (Option.some.inj h)
    rwa [toNat_toUInt8 (Nat.digits_lt_base (by norm_num) (List.getLast_mem _))] at h2

@[simp] theorem beBytes_eq_nil {n : ℕ} : beBytes n = [] ↔ n = 0 := by
  simp [beBytes_eq, Nat.digits_eq_nil_iff_eq_zero]

end Scep
