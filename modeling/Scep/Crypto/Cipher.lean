import Scep.Der.Bytes

/-! The symmetric layer `_encrypt_data` drives: PKCS #7 padding to `TripleDES.block_size`,
then des-ede3 in CBC mode. DES itself and SHA-256 are not spelled out: `Backend` carries
them as a permutation of 8-byte blocks and a 32-byte digest, with the laws the library
guarantees, so every statement below holds for any such backend. -/
namespace Scep

/-- What `default_backend()` supplies and the model does not unfold. -/
structure Backend where
  desEncrypt : Bytes → Bytes → Bytes
  desDecrypt : Bytes → Bytes → Bytes
  length_desEncrypt : ∀ k b, b.length = 8 → (desEncrypt k b).length = 8
  length_desDecrypt : ∀ k b, b.length = 8 → (desDecrypt k b).length = 8
  desDecrypt_desEncrypt : ∀ k b, b.length = 8 → desDecrypt k (desEncrypt k b) = b
  desEncrypt_desDecrypt : ∀ k b, b.length = 8 → desEncrypt k (desDecrypt k b) = b
  sha256 : Bytes → Bytes
  length_sha256 : ∀ m, (sha256 m).length = 32

namespace Backend
variable (B : Backend)

/-- des-ede3 on one block, keys `K1 ‖ K2 ‖ K3`: `E_K3 (D_K2 (E_K1 x))`. -/
def tripleDesEncryptBlock (key block : Bytes) : Bytes :=
  B.desEncrypt (key.drop 16) (B.desDecrypt ((key.drop 8).take 8) (B.desEncrypt (key.take 8) block))

def tripleDesDecryptBlock (key block : Bytes) : Bytes :=
  B.desDecrypt (key.take 8) (B.desEncrypt ((key.drop 8).take 8) (B.desDecrypt (key.drop 16) block))

theorem length_tripleDesEncryptBlock {key block : Bytes} (h : block.length = 8) :
    (B.tripleDesEncryptBlock key block).length = 8 := by
  simp only [tripleDesEncryptBlock]
  exact B.length_desEncrypt _ _ (B.length_desDecrypt _ _ (B.length_desEncrypt _ _ h))

theorem tripleDesDecryptBlock_encryptBlock {key block : Bytes} (h : block.length = 8) :
    B.tripleDesDecryptBlock key (B.tripleDesEncryptBlock key block) = block := by
  have h1 := B.length_desEncrypt (key.take 8) _ h
  have h2 := B.length_desDecrypt ((key.drop 8).take 8) _ h1
  simp only [tripleDesDecryptBlock, tripleDesEncryptBlock, B.desDecrypt_desEncrypt _ _ h2,
    B.desEncrypt_desDecrypt _ _ h1, B.desDecrypt_desEncrypt _ _ h]

end Backend

def xorBytes (a b : Bytes) : Bytes := List.zipWith (· ^^^ ·) a b

theorem xor_xor_cancel (a b : UInt8) : (a ^^^ b) ^^^ b = a := by
  apply UInt8.eq_of_toBitVec_eq
  show (a.toBitVec ^^^ b.toBitVec) ^^^ b.toBitVec = a.toBitVec
  rw [BitVec.xor_assoc, BitVec.xor_self, BitVec.xor_zero]

theorem xorBytes_xorBytes {a b : Bytes} (h : a.length = b.length) :
    xorBytes (xorBytes a b) b = a := by
  induction a generalizing b with
  | nil => rfl
  | cons x a ih =>
    cases b with
    | nil => simp at h
    | cons y b => simp [xorBytes, xor_xor_cancel] at ih ⊢; exact ih (by simpa using h)

theorem length_xorBytes {a b : Bytes} (h : a.length = b.length) : (xorBytes a b).length = a.length := by
  simp [xorBytes, h]

namespace Cbc

/-- CBC over `n` whole blocks: each plaintext block is XORed with the previous ciphertext
block (the IV first) before the block cipher. -/
def encryptBlocks (E : Bytes → Bytes) : ℕ → Bytes → Bytes → Bytes
  | 0, _, _ => []
  | n + 1, prev, p =>
    let c := E (xorBytes (p.take 8) prev)
    c ++ encryptBlocks E n c (p.drop 8)

def decryptBlocks (D : Bytes → Bytes) : ℕ → Bytes → Bytes → Bytes
  | 0, _, _ => []
  | n + 1, prev, c => xorBytes (D (c.take 8)) prev ++ decryptBlocks D n (c.take 8) (c.drop 8)

variable {E D : Bytes → Bytes}

theorem length_encryptBlocks (hE : ∀ b : Bytes, b.length = 8 → (E b).length = 8) :
    ∀ (n : ℕ) (prev p : Bytes), prev.length = 8 → p.length = 8 * n →
      (encryptBlocks E n prev p).length = 8 * n
  | 0, _, _, _, _ => rfl
  | n + 1, prev, p, hprev, hp => by
    have hx : (xorBytes (p.take 8) prev).length = 8 := by
      rw [length_xorBytes] <;> simp [hprev] <;> omega
    have hc := hE _ hx
    simp only [encryptBlocks, List.length_append, hc,
      length_encryptBlocks hE n _ (p.drop 8) hc (by simp; omega)]
    ring

theorem decryptBlocks_encryptBlocks (hE : ∀ b : Bytes, b.length = 8 → (E b).length = 8)
    (hDE : ∀ b : Bytes, b.length = 8 → D (E b) = b) :
    ∀ (n : ℕ) (prev p : Bytes), prev.length = 8 → p.length = 8 * n →
      decryptBlocks D n prev (encryptBlocks E n prev p) = p
  | 0, _, p, _, hp => (List.eq_nil_of_length_eq_zero (by simpa using hp)).symm
  | n + 1, prev, p, hprev, hp => by
    have hx : (xorBytes (p.take 8) prev).length = 8 := by
      rw [length_xorBytes] <;> simp [hprev] <;> omega
    have hc := hE _ hx
    simp only [encryptBlocks, decryptBlocks, List.take_left' hc, List.drop_left' hc, hDE _ hx,
      xorBytes_xorBytes (show (p.take 8).length = prev.length by simp [hprev]; omega),
      decryptBlocks_encryptBlocks hE hDE n _ (p.drop 8) hc (by simp; omega), List.take_append_drop]

end Cbc

/-- `PKCS7(block_size).padder()`, `update` then `finalize`: `n = k - len % k` copies of `n`
for a block of `k = block_size // 8` bytes, a whole block when the length is a multiple. -/
def pkcs7Pad (blockSize : ℕ) (data : Bytes) : Bytes :=
  let k := blockSize / 8
  let n := k - data.length % k
  data ++ List.replicate n n.toUInt8

/-- `PKCS7(block_size).unpadder()`: the last octet `n` must lie in `1..k`, and the last `n`
octets must all be `n` (`Cryptography_check_pkcs7_padding`). -/
def pkcs7Unpad (blockSize : ℕ) (data : Bytes) : Option Bytes :=
  let k := blockSize / 8
  let n := (data.getLast?.getD 0).toNat
  if data = [] ∨ data.length % k ≠ 0 ∨ n = 0 ∨ k < n ∨
      ¬ (data.drop (data.length - n)).all (· = n.toUInt8) then none
  else some (data.take (data.length - n))

/-- `algorithms.TripleDES.block_size`, in bits. -/
def tripleDesBlockSize : ℕ := 64

namespace Backend
variable (B : Backend)

/-- `Cipher(TripleDES(key), modes.CBC(iv)).encryptor()`, `update` then `finalize`; the
mode refuses an IV that is not one block and `finalize` refuses a partial block. -/
def tripleDesCbcEncrypt (key iv p : Bytes) : Except PyError Bytes :=
  if iv.length ≠ 8 then .error (.valueError "Invalid IV size for 3DES.")
  else if p.length % 8 ≠ 0 then
    .error (.valueError "The length of the provided data is not a multiple of the block length.")
  else .ok (Cbc.encryptBlocks (B.tripleDesEncryptBlock key) (p.length / 8) iv p)

/-- The matching `decryptor()`. -/
def tripleDesCbcDecrypt (key iv c : Bytes) : Except PyError Bytes :=
  if iv.length ≠ 8 then .error (.valueError "Invalid IV size for 3DES.")
  else if c.length % 8 ≠ 0 then
    .error (.valueError "The length of the provided data is not a multiple of the block length.")
  else .ok (Cbc.decryptBlocks (B.tripleDesDecryptBlock key) (c.length / 8) iv c)

theorem tripleDesCbcEncrypt_eq {key iv p : Bytes} (hiv : iv.length = 8) (hp : p.length % 8 = 0) :
    B.tripleDesCbcEncrypt key iv p =
      .ok (Cbc.encryptBlocks (B.tripleDesEncryptBlock key) (p.length / 8) iv p) := by
  simp [tripleDesCbcEncrypt, hiv, hp]

theorem length_encryptBlocks_tripleDes (key : Bytes) {iv p : Bytes} (hiv : iv.length = 8)
    (hp : p.length % 8 = 0) :
    (Cbc.encryptBlocks (B.tripleDesEncryptBlock key) (p.length / 8) iv p).length = p.length := by
  rw [Cbc.length_encryptBlocks (fun _ => B.length_tripleDesEncryptBlock) _ _ _ hiv (by omega)]
  omega

theorem tripleDesCbcDecrypt_encryptBlocks {key iv p : Bytes} (hiv : iv.length = 8)
    (hp : p.length % 8 = 0) :
    B.tripleDesCbcDecrypt key iv
      (Cbc.encryptBlocks (B.tripleDesEncryptBlock key) (p.length / 8) iv p) = .ok p := by
  have hl := B.length_encryptBlocks_tripleDes key hiv hp
  simp only [tripleDesCbcDecrypt, hiv, hl, hp, ne_eq, not_true_eq_false, if_false]
  rw [Cbc.decryptBlocks_encryptBlocks (fun _ => B.length_tripleDesEncryptBlock)
    (fun _ => B.tripleDesDecryptBlock_encryptBlock) _ _ _ hiv (by omega)]

end Backend

theorem length_pkcs7Pad (data : Bytes) :
    (pkcs7Pad tripleDesBlockSize data).length = 8 * (data.length / 8 + 1) := by
  simp [pkcs7Pad, tripleDesBlockSize]; omega

theorem pkcs7Unpad_append_replicate {data : Bytes} {n : ℕ} (hn : 0 < n ∧ n ≤ 8)
    (hmod : (data.length + n) % 8 = 0) :
    pkcs7Unpad tripleDesBlockSize (data ++ List.replicate n n.toUInt8) = some data := by
  have hlast : (data ++ List.replicate n n.toUInt8).getLast? = some n.toUInt8 := by
    rw [List.getLast?_append, List.getLast?_replicate, if_neg (by omega)]; rfl
  have hlen : (data ++ List.replicate n n.toUInt8).length - n = data.length := by simp
  simp only [pkcs7Unpad, tripleDesBlockSize, Nat.reduceDiv, hlast, Option.getD_some,
    toNat_toUInt8 (show n < 256 by omega), hlen]
  rw [if_neg]
  · simp
  · simp [List.all_replicate, List.drop_append_of_le_length, hmod]
    omega

theorem pkcs7Unpad_pkcs7Pad (data : Bytes) :
    pkcs7Unpad tripleDesBlockSize (pkcs7Pad tripleDesBlockSize data) = some data :=
  pkcs7Unpad_append_replicate (by simp [tripleDesBlockSize]; omega) (by simp [tripleDesBlockSize]; omega)

end Scep
