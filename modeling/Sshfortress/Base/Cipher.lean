import Sshfortress.Base.Wire

/-! Ciphers and message authentication as functions. A block cipher carries a
context from block to block, so that a text may be processed in several calls; two
contexts are in step when one decrypts what the other encrypts. Authenticated
encryption works on a whole message under a nonce. -/
namespace Base.Cipher

open Base.Wire List

/-- A block cipher in some mode of chaining. -/
structure BlockCipher (Ctx : Type) where
  blockSize : Nat
  (encrypt decrypt : Ctx → Bytes → Ctx × Bytes)
  inStep : Ctx → Ctx → Prop
  encrypt_length : ∀ ctx block, block.length = blockSize → (encrypt ctx block).2.length = blockSize
  decrypt_length : ∀ ctx block, block.length = blockSize → (decrypt ctx block).2.length = blockSize
  decrypt_encrypt : ∀ sender receiver block, inStep sender receiver → block.length = blockSize →
    (decrypt receiver (encrypt sender block).2).2 = block
  inStep_after : ∀ sender receiver block, inStep sender receiver → block.length = blockSize →
    inStep (encrypt sender block).1 (decrypt receiver (encrypt sender block).2).1

/-- Authenticated encryption with associated data. The length that opens a message
can be read before the message is complete. -/
structure Aead (Ctx Nonce : Type) where
  authlen : Nat
  encrypt : Ctx → Nonce → Bytes → Bytes → Ctx × Bytes
  decrypt : Ctx → Nonce → Nat → Bytes → Option (Ctx × Bytes)
  getLength : Ctx → Nonce → Bytes → Nat
  inStep : Ctx → Ctx → Prop
  encrypt_length : ∀ ctx nonce aad text,
    (encrypt ctx nonce aad text).2.length = aad.length + text.length + authlen
  decrypt_length : ∀ ctx nonce aadlen src after text,
    decrypt ctx nonce aadlen src = some (after, text) → text.length + authlen = src.length
  decrypt_encrypt : ∀ sender receiver nonce aad text, inStep sender receiver →
    ∃ after, decrypt receiver nonce aad.length (encrypt sender nonce aad text).2 =
        some (after, aad ++ text) ∧
      inStep (encrypt sender nonce aad text).1 after
  getLength_encrypt : ∀ sender receiver nonce aad text, inStep sender receiver → aad.length = 4 →
    getLength receiver nonce ((encrypt sender nonce aad text).2.take 4) = value aad

structure Mac (Nonce : Type) where
  macLen : Nat
  compute : Nonce → Bytes → Bytes
  compute_length : ∀ nonce data, (compute nonce data).length = macLen

namespace BlockCipher

variable {Ctx : Type} (c : BlockCipher Ctx)

/-- Process a number of blocks with either function of the cipher. -/
def blocks (crypt : Ctx → Bytes → Ctx × Bytes) : Nat → Ctx → Bytes → Ctx × Bytes
  | 0, ctx, _ => (ctx, [])
  | n + 1, ctx, src =>
    let first := crypt ctx (src.take c.blockSize)
    let rest := blocks crypt n first.1 (src.drop c.blockSize)
    (rest.1, first.2 ++ rest.2)

variable (crypt : Ctx → Bytes → Ctx × Bytes)

lemma blocks_add (m n : Nat) (ctx : Ctx) (src : Bytes) :
    c.blocks crypt (m + n) ctx src =
      let first := c.blocks crypt m ctx src
      let rest := c.blocks crypt n first.1 (src.drop (m * c.blockSize))
      (rest.1, first.2 ++ rest.2) := by
  induction m generalizing ctx src with
  | zero => simp [blocks]
  | succ m ih =>
    have hCut : (src.drop c.blockSize).drop (m * c.blockSize) =
      src.drop ((m + 1) * c.blockSize) := by rw [drop_drop, Nat.succ_mul, Nat.add_comm]
    rw [Nat.succ_add, blocks, blocks]
    simp [ih, hCut]

lemma blocks_append (n : Nat) (ctx : Ctx) (src rest : Bytes)
    (h : n * c.blockSize ≤ src.length) : c.blocks crypt n ctx (src ++ rest) = c.blocks crypt n ctx src := by
  induction n generalizing ctx src with
  | zero => rfl
  | succ n ih =>
    rw [Nat.succ_mul] at h
    have hf : (src ++ rest).take c.blockSize = src.take c.blockSize := by
      rw [take_append_of_le_length (by omega)]
    have hr : (src ++ rest).drop c.blockSize = src.drop c.blockSize ++ rest := by
      rw [drop_append_of_le_length (by omega)]
    have hLen : n * c.blockSize ≤ (src.drop c.blockSize).length := by
      rw [length_drop]
      omega
    simp [blocks, hf, hr, ih _ _ hLen]

lemma first_block {n : Nat} {src : Bytes} (h : src.length = (n + 1) * c.blockSize) :
    (src.take c.blockSize).length = c.blockSize ∧ (src.drop c.blockSize).length = n * c.blockSize := by
  rw [Nat.succ_mul] at h
  rw [length_take, length_drop]
  omega

lemma blocks_length {crypt : Ctx → Bytes → Ctx × Bytes}
    (hc : ∀ ctx block, block.length = c.blockSize → (crypt ctx block).2.length = c.blockSize)
    (n : Nat) (ctx : Ctx) (src : Bytes) (h : src.length = n * c.blockSize) :
    (c.blocks crypt n ctx src).2.length = n * c.blockSize := by
  induction n generalizing ctx src with
  | zero => simp [blocks]
  | succ n ih =>
    obtain ⟨hf, hr⟩ := c.first_block h
    simp only [blocks, length_append, hc _ _ hf, ih _ _ hr, Nat.succ_mul]
    omega

/-- Contexts in step stay in step over a whole text, and the text comes back. -/
lemma blocks_decrypt_encrypt (n : Nat) (sender receiver : Ctx) (src : Bytes)
    (h : src.length = n * c.blockSize) (hs : c.inStep sender receiver) :
    (c.blocks c.decrypt n receiver (c.blocks c.encrypt n sender src).2).2 = src ∧
      c.inStep (c.blocks c.encrypt n sender src).1
        (c.blocks c.decrypt n receiver (c.blocks c.encrypt n sender src).2).1 := by
  induction n generalizing sender receiver src with
  | zero =>
    have hNil : src = [] := length_eq_zero_iff.1 (by omega)
    rw [hNil]
    exact ⟨rfl, hs⟩
  | succ n ih =>
    obtain ⟨hf, hr⟩ := c.first_block h
    have hc := c.encrypt_length sender (src.take c.blockSize) hf
    have hn := c.inStep_after sender receiver (src.take c.blockSize) hs hf
    obtain ⟨ht, hi⟩ := ih _ _ _ hr hn
    have hp := c.decrypt_encrypt sender receiver (src.take c.blockSize) hs hf
    simp only [blocks, take_left' hc, drop_left' hc, hp]
    rw [ht]
    exact ⟨take_append_drop _ _, hi⟩

end BlockCipher

end Base.Cipher
