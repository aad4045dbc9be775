import Sshfortress.Packet.Sequence

/-! Damaged packets under a block cipher in CBC mode. The connection does not end at once but
after a number of bytes has been swallowed, so that a peer who damages a packet does not learn
from it what the first block decrypts to. -/
namespace Packet

open Base Base.Wire Base.Cipher List

variable {Ctx : Type}

/-! Reading a stream in portions. -/

inductive Outcome (Ctx : Type) where
  | waiting (s : Ssh Ctx)
  | accepted
  | ended (code : Err)

/-- The bytes of one read are processed, and a packet is looked for. -/
def readRound (s : Ssh Ctx) (buf : Bytes) : Outcome Ctx :=
  match sshPacketProcessIncoming s buf with
  | .error code => .ended code
  | .ok s =>
    match receivePacket s with
    | .error code => .ended code
    | .ok (s, none) => .waiting s
    | .ok (_, some _) => .accepted

/-- One read after the other, up to the end of the packet or of the connection. -/
def readAll (s : Ssh Ctx) : List Bytes → Outcome Ctx
  | [] => .waiting s
  | buf :: bufs =>
    match readRound s buf with
    | .waiting s => readAll s bufs
    | outcome => outcome

/-- The reads end the connection over a damaged packet, and the last read does not go past the
point where it ends. -/
structure Swallows (s : Ssh Ctx) (front : List Bytes) (last : Bytes) : Prop where
  reads : ∃ st, readAll s front = .waiting st
  ends : readAll s (front ++ [last]) = .ended .macInvalid
  tight : ∀ n < last.length, readAll s (front ++ [last.take n]) ≠ .ended .macInvalid

/-! What the first block says. -/

/-- At the start of a packet, under a cipher in CBC mode with a code over the clear text. -/
structure CbcBoundary (s : Ssh Ctx) (cipher : BlockCipher Ctx) (mac : Mac UInt32) : Prop where
  keys : ∃ id hSize sendStart receiveStart,
    s.read.newkeys = some ⟨id, .mac cipher true mac false, hSize, sendStart, receiveStart⟩
  packlen : s.packlen = 0
  packetDiscard : s.packetDiscard = 0
  input : s.input = []

section Stream

variable (s : Ssh Ctx) (cipher : BlockCipher Ctx) (mac : Mac UInt32) (p : Bytes)

def firstClear : Ctx × Bytes := cipher.decrypt s.read.context (p.take cipher.blockSize)

def announced : Nat := value ((firstClear s cipher p).2.take 4)

def Plausible : Prop :=
  badLength (announced s cipher p) = false ∧ (4 + announced s cipher p) % cipher.blockSize = 0
  deriving Decidable

def packetEnd : Nat := 4 + announced s cipher p + mac.macLen

def restClear : Ctx × Bytes :=
  let need := 4 + announced s cipher p - cipher.blockSize
  cipher.blocks cipher.decrypt (need / cipher.blockSize) (firstClear s cipher p).1
    ((p.drop cipher.blockSize).take need)

def macMatches : Bool :=
  mac.compute s.read.state.seqnr ((firstClear s cipher p).2 ++ (restClear s cipher p).2) =
    (p.drop (4 + announced s cipher p)).take mac.macLen

def Incomplete : Prop :=
  p.length < cipher.blockSize ∨ (Plausible s cipher p ∧ p.length < packetEnd s cipher mac p)

def Broken : Prop :=
  cipher.blockSize ≤ p.length ∧ (Plausible s cipher p →
    packetEnd s cipher mac p ≤ p.length ∧ macMatches s cipher mac p = false)

/-- How much is read before the connection ends, if the packet is not itself longer. -/
def discardPoint : Nat :=
  if Plausible s cipher p then packetMaxSize + cipher.blockSize else packetMaxSize

def swallowed : Nat :=
  if Plausible s cipher p then
    max (packetMaxSize + cipher.blockSize) (packetEnd s cipher mac p)
  else packetMaxSize

end Stream

variable {s st : Ssh Ctx} {cipher : BlockCipher Ctx} {mac : Mac UInt32} {p x : Bytes}

section Boundary

variable (h : CbcBoundary s cipher mac)

include h

lemma CbcBoundary.blockSize_eq : cipher.blockSize = 8 ∨ cipher.blockSize = 16 := by
  obtain ⟨-, hSize, -⟩ := h.keys
  exact hSize

lemma CbcBoundary.sizes : s.read.newkeys.blockSize = cipher.blockSize ∧ s.read.newkeys.aadlen = 0 ∧
    s.read.newkeys.authlen = 0 ∧ s.read.newkeys.maclen = mac.macLen := by
  obtain ⟨id, hSize, sendStart, receiveStart, hk⟩ := h.keys
  rw [hk]
  exact ⟨rfl, rfl, rfl, rfl⟩

lemma CbcBoundary.cipherDecrypt_eq (ctx : Ctx) (seqnr : UInt32)
    (src : Bytes) (hSrc : src.length % cipher.blockSize = 0) : cipherDecrypt s.read.newkeys ctx seqnr 0 src =
      .ok (cipher.blocks cipher.decrypt (src.length / cipher.blockSize) ctx src) := by
  obtain ⟨id, hSize, sendStart, receiveStart, hk⟩ := h.keys
  rw [hk, cipherDecrypt]
  dsimp only
  rw [drop_zero, if_neg (not_not.2 hSrc), take_zero, nil_append]

lemma CbcBoundary.macCheckEncrypted_eq (seqnr : UInt32)
    (encrypted code : Bytes) : macCheckEncrypted s.read.newkeys seqnr encrypted code = true := by
  obtain ⟨id, hSize, sendStart, receiveStart, hk⟩ := h.keys
  rw [hk]
  rfl

lemma CbcBoundary.macCheckClear_eq (seqnr : UInt32) (clear code : Bytes) :
    macCheckClear s.read.newkeys seqnr clear code = decide (mac.compute seqnr clear = code) := by
  obtain ⟨id, hSize, sendStart, receiveStart, hk⟩ := h.keys
  rw [hk]
  rfl

end Boundary

section
variable (h : cipher.blockSize ≤ p.length)
include h

lemma announced_append : announced s cipher (p ++ x) = announced s cipher p := by
  rw [announced, announced, firstClear, firstClear, take_append_of_le_length h]

lemma plausible_append : Plausible s cipher (p ++ x) ↔ Plausible s cipher p := by
  rw [Plausible, Plausible, announced_append h]

lemma packetEnd_append : packetEnd s cipher mac (p ++ x) = packetEnd s cipher mac p := by
  rw [packetEnd, packetEnd, announced_append h]

lemma discardPoint_append : discardPoint s cipher (p ++ x) = discardPoint s cipher p := by
  simp [discardPoint, plausible_append h]

lemma swallowed_append : swallowed s cipher mac (p ++ x) = swallowed s cipher mac p := by
  simp [swallowed, plausible_append h, packetEnd_append h]

end

section Packets

variable (h : CbcBoundary s cipher mac)

include h

lemma blockSize_le_of_plausible (hs : Plausible s cipher p) :
    cipher.blockSize ≤ 4 + announced s cipher p := by
  obtain ⟨hGood, hb⟩ := hs
  have hSize := h.blockSize_eq
  generalize cipher.blockSize = size at hSize hb ⊢
  rcases hSize with rfl | rfl
  · omega
  · omega

lemma macMatches_append (hs : Plausible s cipher p) (hEnd : packetEnd s cipher mac p ≤ p.length) :
    macMatches s cipher mac (p ++ x) = macMatches s cipher mac p := by
  have hFirst := blockSize_le_of_plausible h hs
  rw [packetEnd] at hEnd
  have hf : cipher.blockSize ≤ p.length := by omega
  have hr : ((p ++ x).drop cipher.blockSize).take (4 + announced s cipher p - cipher.blockSize) =
    (p.drop cipher.blockSize).take (4 + announced s cipher p - cipher.blockSize) := by
    rw [drop_append_of_le_length hf, take_append_of_le_length]
    rw [length_drop]
    omega
  have hCode : ((p ++ x).drop (4 + announced s cipher p)).take mac.macLen =
    (p.drop (4 + announced s cipher p)).take mac.macLen := by
    rw [drop_append_of_le_length (by omega), take_append_of_le_length]
    rw [length_drop]
    omega
  have hc : firstClear s cipher (p ++ x) = firstClear s cipher p := by
    rw [firstClear, firstClear, take_append_of_le_length hf]
  rw [macMatches, macMatches, restClear, restClear, announced_append hf, hc]
  simp [hr, hCode]

lemma broken_append (hf : cipher.blockSize ≤ p.length)
    (hw : Plausible s cipher p → packetEnd s cipher mac p ≤ p.length) :
    Broken s cipher mac (p ++ x) ↔ Broken s cipher mac p := by
  rw [Broken, Broken, plausible_append hf, packetEnd_append hf, length_append]
  apply and_congr
  · omega
  · apply forall_congr'
    intro hs
    have hEnd := hw hs
    rw [macMatches_append h hs hEnd]
    apply and_congr
    · omega
    · exact Iff.rfl

lemma Broken.append (hBroken : Broken s cipher mac p) (x : Bytes) : Broken s cipher mac (p ++ x) :=
  (broken_append h hBroken.1 fun hs => (hBroken.2 hs).1).2 hBroken

end Packets

lemma Incomplete.not_broken (h : Incomplete s cipher mac p) : ¬ Broken s cipher mac p := by
  rintro ⟨hFront, hEnd⟩
  rcases h with hs | ⟨hSane, hs⟩
  · omega
  · have := (hEnd hSane).1
    omega

/-! One look for a packet. -/

/-- What is left to throw away when so much of the stream has been read. -/
inductive Stops (point : Nat) (p : Bytes) : Halt Ctx → Prop where
  | now (h : point ≤ p.length) : Stops point p (.err .macInvalid)
  | later {st : Ssh Ctx} (hMore : st.packetDiscard ≠ 0)
      (hPoint : st.packetDiscard + p.length = point) : Stops point p (.discarding st)

lemma sshPacketStartDiscard_stops {point discard : Nat} (h : CbcBoundary s cipher mac)
    (consumed : Nat) (hr : st.read.newkeys = s.read.newkeys)
    (hPoint : discard + consumed = point) (hInput : st.input.length + consumed = p.length) :
    Stops point p (sshPacketStartDiscard st discard) := by
  obtain ⟨id, hSize, sendStart, receiveStart, hk⟩ := h.keys
  rw [sshPacketStartDiscard, hr, hk]
  split_ifs with hEnough
  · apply Stops.now
    omega
  · apply Stops.later
    · show discard - st.input.length ≠ 0
      omega
    · show discard - st.input.length + p.length = point
      omega

/-- What a look for a packet finds after so much of the stream. -/
inductive Looks (s : Ssh Ctx) (cipher : BlockCipher Ctx) (mac : Mac UInt32) (p : Bytes) :
    Except (Halt Ctx) (Ssh Ctx × Option Received) → Prop where
  | waits {st : Ssh Ctx} (hIncomplete : Incomplete s cipher mac p)
      (hDiscard : st.packetDiscard = 0) : Looks s cipher mac p (.ok (st, none))
  | stops {halt : Halt Ctx} (hBroken : Broken s cipher mac p)
      (hStops : Stops (discardPoint s cipher p) p halt) : Looks s cipher mac p (.error halt)
  | takes {st : Ssh Ctx} {packet : Received} (hSound : ¬ Broken s cipher mac p) :
      Looks s cipher mac p (.ok (st, some packet))
  | refuses {code : Err} (hSound : ¬ Broken s cipher mac p) (hCode : code ≠ .macInvalid) :
      Looks s cipher mac p (.error (.err code))

variable {code : Err} {front : List Bytes}

lemma unpack_error {incoming : Bytes} (h : unpack incoming = .error code) : code ≠ .macInvalid := by
  rw [unpack] at h
  split_ifs at h
  · cases h
    decide
  · cases h
    decide
  · split at h
    · cases h
      decide
    · split_ifs at h
      cases h
      decide

lemma acceptPacket_error {opened : Ssh Ctx} (h : acceptPacket opened = .error code) : code ≠ .macInvalid := by
  obtain hc | ⟨counted, -, h⟩ := bind_eq_error.1 h
  · rw [countRead] at hc
    split_ifs at hc
    cases hc
    decide
  obtain hu | ⟨out, -, h⟩ := bind_eq_error.1 h
  · exact unpack_error hu
  obtain hf | ⟨finished, -, h⟩ := bind_eq_error.1 h
  · rw [finishRead, sshSetNewkeysIn] at hf
    split_ifs at hf
    split at hf <;> cases hf
    decide
  · cases h

/-- The session once the length is read, with the block still in the input. -/
def lengthRead (s : Ssh Ctx) (cipher : BlockCipher Ctx) (p : Bytes) : Ssh Ctx :=
  { s with
    read := { s.read with context := (firstClear s cipher p).1 }
    incomingPacket := (firstClear s cipher p).2
    packlen := announced s cipher p
    input := p }

def lengthKnown (s : Ssh Ctx) (cipher : BlockCipher Ctx) (p : Bytes) : Ssh Ctx :=
  { lengthRead s cipher p with input := p.drop cipher.blockSize }

section Looks

variable (h : CbcBoundary s cipher mac)

include h

lemma readLength_boundary (hFront : cipher.blockSize ≤ p.length) : readLength (feed s p) =
      if badLength (announced s cipher p) then
        .error (sshPacketStartDiscard (lengthRead s cipher p) packetMaxSize)
      else .ok (some (lengthKnown s cipher p)) := by
  have hi : (feed s p).input = p := by
    show s.input ++ p = p
    rw [h.input, nil_append]
  have hPos : 0 < cipher.blockSize := by
    rcases h.blockSize_eq with h8 | h16
    · omega
    · omega
  have ht : (p.take cipher.blockSize).length = cipher.blockSize := by
    rw [length_take]
    omega
  have hOne : cipher.blocks cipher.decrypt 1 s.read.context (p.take cipher.blockSize) =
    firstClear s cipher p := by
    rw [BlockCipher.blocks, BlockCipher.blocks, take_take, Nat.min_self]
    simp only [append_nil]
    rfl
  have hDec : cipherDecrypt (feed s p).read.newkeys (feed s p).read.context
    (feed s p).send.state.seqnr 0 (p.take cipher.blockSize) = .ok (firstClear s cipher p) := by
    have hText := h.cipherDecrypt_eq s.read.context s.send.state.seqnr
      (p.take cipher.blockSize) (by rw [ht, Nat.mod_self])
    rw [ht, Nat.div_self hPos, hOne] at hText
    exact hText
  have hb : (feed s p).read.newkeys.blockSize = cipher.blockSize := h.sizes.1
  have hAad : (feed s p).read.newkeys.aadlen = 0 := h.sizes.2.1
  have hp : (feed s p).packlen = 0 := h.packlen
  rw [readLength, hi, hb, hDec]
  rw [if_neg (not_not.2 hp), if_neg (not_not.2 hAad), if_neg (by omega), ok_bind]
  rfl

lemma needed_lengthKnown (hg : badLength (announced s cipher p) = false) :
    (needed (lengthKnown s cipher p) % cipher.blockSize = 0 ↔
      (4 + announced s cipher p) % cipher.blockSize = 0) ∧
      ((4 + announced s cipher p) % cipher.blockSize = 0 →
        needed (lengthKnown s cipher p) = 4 + announced s cipher p - cipher.blockSize) := by
  have hp : (lengthKnown s cipher p).packlen = announced s cipher p := rfl
  have hAad : (lengthKnown s cipher p).read.newkeys.aadlen = 0 := h.sizes.2.1
  have hSize : (lengthKnown s cipher p).read.newkeys.blockSize = cipher.blockSize := h.sizes.1
  rw [needed, if_neg (not_not.2 hAad), hp, hSize]
  have hb := h.blockSize_eq
  rw [badLength_eq_false, packetMaxSize] at hg
  generalize cipher.blockSize = size at hb ⊢
  rcases hb with rfl | rfl
  · omega
  · omega

lemma openPacket_misaligned (hg : badLength (announced s cipher p) = false)
    (hb : ¬ (4 + announced s cipher p) % cipher.blockSize = 0) :
    openPacket (lengthKnown s cipher p) = .error (sshPacketStartDiscard (lengthKnown s cipher p)
      (packetMaxSize - cipher.blockSize)) := by
  have hn := (needed_lengthKnown h hg).1.not.2 hb
  have hBlock : (lengthKnown s cipher p).read.newkeys.blockSize = cipher.blockSize :=
    h.sizes.1
  rw [openPacket]
  rw [hBlock, if_pos hn]

/-- The session once the rest of the packet is decrypted, with the code still in the input. -/
def decrypted (s : Ssh Ctx) (cipher : BlockCipher Ctx) (p : Bytes) : Ssh Ctx :=
  { lengthKnown s cipher p with
    read := { s.read with context := (restClear s cipher p).1 }
    incomingPacket := (firstClear s cipher p).2 ++ (restClear s cipher p).2
    input := p.drop (4 + announced s cipher p) }

lemma openPacket_plausible (hFront : cipher.blockSize ≤ p.length) (hSane : Plausible s cipher p) :
    openPacket (lengthKnown s cipher p) =
      if p.length < packetEnd s cipher mac p then .ok none
      else if macMatches s cipher mac p then
        .ok (some { decrypted s cipher p with input := p.drop (packetEnd s cipher mac p) })
      else .error (sshPacketStartDiscard (decrypted s cipher p)
        (packetMaxSize - (4 + announced s cipher p - cipher.blockSize))) := by
  obtain ⟨hg, hb⟩ := hSane
  obtain ⟨ha, hn⟩ := needed_lengthKnown h hg
  have hf := blockSize_le_of_plausible h ⟨hg, hb⟩
  have hBlock : (lengthKnown s cipher p).read.newkeys.blockSize = cipher.blockSize :=
    h.sizes.1
  have hAad : (lengthKnown s cipher p).read.newkeys.aadlen = 0 := h.sizes.2.1
  have hAuth : (lengthKnown s cipher p).read.newkeys.authlen = 0 := h.sizes.2.2.1
  have hMac : (lengthKnown s cipher p).read.newkeys.maclen = mac.macLen := h.sizes.2.2.2
  have hi : (lengthKnown s cipher p).input = p.drop cipher.blockSize := rfl
  have hEnd : cipher.blockSize + (4 + announced s cipher p - cipher.blockSize) =
    4 + announced s cipher p := Nat.add_sub_of_le hf
  have hAll : (p.drop cipher.blockSize).drop (4 + announced s cipher p - cipher.blockSize + mac.macLen) =
    p.drop (packetEnd s cipher mac p) := by rw [drop_drop, ← Nat.add_assoc, hEnd, packetEnd]
  have hNotMore : ¬ packetMaxSize < 4 + announced s cipher p - cipher.blockSize := by
    rw [badLength_eq_false] at hg
    have hBlockSize := h.blockSize_eq
    omega
  rw [openPacket]
  dsimp only
  rw [hBlock, hAad, hAuth, hMac, if_neg (not_not.2 (ha.2 hb)), hn hb, hi,
    Nat.zero_add, Nat.add_zero, hAll, drop_drop, hEnd]
  by_cases hs : p.length < packetEnd s cipher mac p
  · rw [if_pos hs, if_pos]
    rw [packetEnd] at hs
    rw [length_drop]
    omega
  have hl : ¬ (p.drop cipher.blockSize).length <
    4 + announced s cipher p - cipher.blockSize + mac.macLen := by
    rw [packetEnd] at hs
    rw [length_drop]
    omega
  have ht : ((p.drop cipher.blockSize).take (4 + announced s cipher p - cipher.blockSize)).length =
    4 + announced s cipher p - cipher.blockSize := by
    rw [length_take]
    omega
  have hw : (4 + announced s cipher p - cipher.blockSize) % cipher.blockSize = 0 := by
    rw [← hn hb]
    exact ha.2 hb
  have hDec : cipherDecrypt (lengthKnown s cipher p).read.newkeys
    (lengthKnown s cipher p).read.context (lengthKnown s cipher p).read.state.seqnr 0
    ((p.drop cipher.blockSize).take (4 + announced s cipher p - cipher.blockSize)) =
    .ok (restClear s cipher p) := by
    have hr := h.cipherDecrypt_eq (firstClear s cipher p).1 s.read.state.seqnr
      ((p.drop cipher.blockSize).take (4 + announced s cipher p - cipher.blockSize))
      (by rw [ht, hw])
    rw [ht] at hr
    exact hr
  have he : ∀ seqnr encrypted code,
    ¬ macCheckEncrypted (lengthKnown s cipher p).read.newkeys seqnr encrypted code = false :=
    fun seqnr encrypted code => by
      rw [show (lengthKnown s cipher p).read.newkeys = s.read.newkeys from rfl, h.macCheckEncrypted_eq]
      decide
  have hc : macCheckClear (lengthKnown s cipher p).read.newkeys (lengthKnown s cipher p).read.state.seqnr
    ((lengthKnown s cipher p).incomingPacket ++ (restClear s cipher p).2)
    ((p.drop (4 + announced s cipher p)).take mac.macLen) = macMatches s cipher mac p :=
    h.macCheckClear_eq _ _ _
  rw [if_neg hs, if_neg hl, if_neg (he _ _ _), hDec, ok_bind, hc]
  cases macMatches s cipher mac p with
  | true => rfl
  | false =>
    rw [if_pos rfl, if_neg hNotMore]
    rfl

lemma takePacket_short (hs : p.length < cipher.blockSize) :
    takePacket (feed s p) = .ok (feed s p, none) := by
  have hp : (feed s p).packlen = 0 := h.packlen
  have hAad : (feed s p).read.newkeys.aadlen = 0 := h.sizes.2.1
  have hb : (feed s p).read.newkeys.blockSize = cipher.blockSize := h.sizes.1
  have hi : (feed s p).input = p := by
    show s.input ++ p = p
    rw [h.input, nil_append]
  have hLen : readLength (feed s p) = .ok none := by
    rw [readLength]
    rw [if_neg (not_not.2 hp), if_neg (not_not.2 hAad), if_pos]
    rw [hi, hb]
    exact hs
  exact (Taking.short hLen).eq

lemma looks_implausible (hf : cipher.blockSize ≤ p.length)
    (hNot : ¬ Plausible s cipher p) : Looks s cipher mac p (takePacket (feed s p)) := by
  have hLen := readLength_boundary h hf
  have hSize := h.blockSize_eq
  have hStops : ∀ halt : Halt Ctx, Stops packetMaxSize p halt → Looks s cipher mac p (.error halt) := by
    intro halt hStops
    refine .stops ⟨hf, fun hs => absurd hs hNot⟩ ?_
    rw [discardPoint, if_neg hNot]
    exact hStops
  cases hBad : badLength (announced s cipher p) with
  | true =>
    rw [if_pos hBad] at hLen
    rw [(Taking.unsized hLen).eq]
    exact hStops _ (sshPacketStartDiscard_stops h 0 rfl rfl rfl)
  | false =>
    have hb : ¬ (4 + announced s cipher p) % cipher.blockSize = 0 := fun hw =>
      hNot ⟨hBad, hw⟩
    rw [if_neg (Bool.eq_false_iff.1 hBad)] at hLen
    rw [(Taking.unopened hLen (openPacket_misaligned h hBad hb)).eq]
    apply hStops
    refine sshPacketStartDiscard_stops h cipher.blockSize rfl ?_ ?_
    · rw [packetMaxSize]
      omega
    · show (p.drop cipher.blockSize).length + cipher.blockSize = p.length
      rw [length_drop]
      omega

lemma looks_plausible (hf : cipher.blockSize ≤ p.length)
    (hs : Plausible s cipher p) : Looks s cipher mac p (takePacket (feed s p)) := by
  have hLen := readLength_boundary h hf
  have ho := openPacket_plausible h hf hs
  have hFirst := blockSize_le_of_plausible h hs
  have hr := hs.1
  rw [badLength_eq_false] at hr
  rw [if_neg (Bool.eq_false_iff.1 hs.1)] at hLen
  by_cases hShort : p.length < packetEnd s cipher mac p
  · rw [if_pos hShort] at ho
    rw [(Taking.waits hLen ho).eq]
    exact .waits (.inr ⟨hs, hShort⟩) h.packetDiscard
  rw [if_neg hShort] at ho
  cases hm : macMatches s cipher mac p with
  | true =>
    have hSound : ¬ Broken s cipher mac p := by
      intro hBroken
      rw [(hBroken.2 hs).2] at hm
      cases hm
    rw [hm, if_pos rfl] at ho
    cases ha : acceptPacket { decrypted s cipher p with
      input := p.drop (packetEnd s cipher mac p) } with
    | error code =>
      rw [(Taking.refused hLen ho ha).eq]
      exact .refuses hSound (acceptPacket_error ha)
    | ok out =>
      rw [(Taking.taken hLen ho ha).eq]
      exact .takes hSound
  | false =>
    rw [hm, if_neg nofun] at ho
    rw [(Taking.unopened hLen ho).eq]
    refine .stops ⟨hf, fun _ => ⟨Nat.le_of_not_lt hShort, hm⟩⟩ ?_
    rw [packetEnd] at hShort
    rw [discardPoint, if_pos hs]
    -- The code is still in the input, and the first block is not part of what was needed.
    refine sshPacketStartDiscard_stops h (4 + announced s cipher p) rfl ?_ ?_
    · have hSize := h.blockSize_eq
      omega
    · show (p.drop (4 + announced s cipher p)).length + (4 + announced s cipher p) = p.length
      rw [length_drop]
      omega

lemma takePacket_looks (p : Bytes) : Looks s cipher mac p (takePacket (feed s p)) := by
  by_cases hf : cipher.blockSize ≤ p.length
  · by_cases hSane : Plausible s cipher p
    · exact looks_plausible h hf hSane
    · exact looks_implausible h hf hSane
  · have hs := Nat.lt_of_not_le hf
    rw [takePacket_short h hs]
    exact .waits (.inl hs) h.packetDiscard

end Looks

/-! Reads. -/

/-- A session that has read so much of a stream and waits for more. -/
inductive Swallowing (s : Ssh Ctx) (cipher : BlockCipher Ctx) (mac : Mac UInt32) (p : Bytes)
    (st : Ssh Ctx) : Prop where
  | reading (hIncomplete : Incomplete s cipher mac p) (hDiscard : st.packetDiscard = 0)
      (hSame : ∀ x, takePacket (feed st x) = takePacket (feed s (p ++ x)))
  | discarding (hBroken : Broken s cipher mac p) (hMore : st.packetDiscard ≠ 0)
      (hPoint : st.packetDiscard + p.length = discardPoint s cipher p)

/-- What one more read does. -/
inductive Rounds (s : Ssh Ctx) (cipher : BlockCipher Ctx) (mac : Mac UInt32) (p : Bytes) :
    Outcome Ctx → Prop where
  | waits {st : Ssh Ctx} (h : Swallowing s cipher mac p st) : Rounds s cipher mac p (.waiting st)
  | ends (hBroken : Broken s cipher mac p) (hPoint : discardPoint s cipher p ≤ p.length) :
      Rounds s cipher mac p (.ended .macInvalid)
  | takes (hSound : ¬ Broken s cipher mac p) : Rounds s cipher mac p .accepted
  | refuses {code : Err} (hSound : ¬ Broken s cipher mac p) (hCode : code ≠ .macInvalid) :
      Rounds s cipher mac p (.ended code)

lemma Swallowing.boundary (h : CbcBoundary s cipher mac) : Swallowing s cipher mac [] s := by
  refine .reading (.inl ?_) h.packetDiscard fun x => rfl
  rcases h.blockSize_eq with h8 | h16
  · rw [h8]
    decide
  · rw [h16]
    decide

lemma Swallowing.rounds (hEdge : CbcBoundary s cipher mac) (h : Swallowing s cipher mac p st)
    (buf : Bytes) : Rounds s cipher mac (p ++ buf) (readRound st buf) := by
  cases h with
  | reading hIncomplete hDiscard hSame =>
    have hFed : sshPacketProcessIncoming st buf = .ok (feed st buf) := by
      rw [sshPacketProcessIncoming, if_neg (not_not.2 hDiscard)]
      rfl
    have hl := takePacket_looks hEdge (p ++ buf)
    have hz : ¬ (feed st buf).packetDiscard ≠ 0 := not_not.2 hDiscard
    rw [readRound, hFed]
    dsimp only
    rw [receivePacket, if_neg hz, hSame]
    generalize ht : takePacket (feed s (p ++ buf)) = found at hl ⊢
    cases hl with
    | waits hMore hn =>
      refine .waits (.reading hMore hn fun x => ?_)
      rw [takePacket_resume ht, feed_feed]
    | stops hBroken hStops =>
      cases hStops with
      | now hPoint => exact .ends hBroken hPoint
      | later hMore hPoint => exact .waits (.discarding hBroken hMore hPoint)
    | takes hSound => exact .takes hSound
    | refuses hSound hCode => exact .refuses hSound hCode
  | discarding hBroken hMore hPoint =>
    have hStill := hBroken.append hEdge buf
    have hs : discardPoint s cipher (p ++ buf) = discardPoint s cipher p :=
      discardPoint_append hBroken.1
    rw [readRound, sshPacketProcessIncoming, if_pos hMore]
    by_cases he : st.packetDiscard ≤ buf.length
    · rw [if_pos he]
      apply Rounds.ends hStill
      rw [hs, length_append]
      omega
    · have hLeft : st.packetDiscard - buf.length ≠ 0 := by omega
      rw [if_neg he]
      dsimp only
      rw [receivePacket, if_pos hLeft]
      apply Rounds.waits
      apply Swallowing.discarding hStill hLeft
      rw [hs, length_append]
      show st.packetDiscard - buf.length + (p.length + buf.length) = discardPoint s cipher p
      omega

lemma Swallowing.readAll (he : CbcBoundary s cipher mac) {bufs : List Bytes}
    {last : Ssh Ctx} (h : Swallowing s cipher mac p st) (hr : readAll st bufs = .waiting last) :
    Swallowing s cipher mac (p ++ bufs.flatten) last := by
  induction bufs generalizing p st with
  | nil =>
    cases hr
    rw [flatten_nil, append_nil]
    exact h
  | cons buf bufs ih =>
    have hRound := h.rounds he buf
    rw [Packet.readAll] at hr
    generalize readRound st buf = outcome at hRound hr
    cases hRound with
    | waits hn =>
      rw [flatten_cons, ← append_assoc]
      exact ih hn hr
    | ends => cases hr
    | takes => cases hr
    | refuses => cases hr

lemma readAll_concat (h : readAll s front = .waiting st) (last : Bytes) :
    readAll s (front ++ [last]) = readRound st last := by
  induction front generalizing s with
  | nil =>
    cases h
    rw [nil_append, readAll]
    generalize readRound st last = outcome
    cases outcome with
    | waiting next => rfl
    | accepted => rfl
    | ended code => rfl
  | cons buf front ih =>
    rw [cons_append, readAll]
    rw [readAll] at h
    cases hr : readRound s buf with
    | waiting next =>
      rw [hr] at h
      exact ih h
    | accepted =>
      rw [hr] at h
      cases h
    | ended code =>
      rw [hr] at h
      cases h

/-! How much is swallowed. -/

lemma discardPoint_le_swallowed : discardPoint s cipher p ≤ swallowed s cipher mac p := by
  rw [discardPoint, swallowed]
  split_ifs
  · exact Nat.le_max_left _ _
  · exact Nat.le_refl _

lemma blockSize_le_swallowed (h : CbcBoundary s cipher mac) :
    cipher.blockSize ≤ swallowed s cipher mac p := by
  have hSize := h.blockSize_eq
  rw [swallowed, packetMaxSize]
  split_ifs
  · omega
  · omega

lemma Swallowing.length_lt (he : CbcBoundary s cipher mac)
    (h : Swallowing s cipher mac p st) (x : Bytes) : p.length < swallowed s cipher mac (p ++ x) := by
  by_cases hf : cipher.blockSize ≤ p.length
  · rw [swallowed_append hf]
    cases h with
    | reading hIncomplete =>
      rcases hIncomplete with hs | ⟨hSane, hs⟩
      · omega
      · rw [swallowed, if_pos hSane]
        exact Nat.lt_of_lt_of_le hs (Nat.le_max_right _ _)
    | discarding hBroken hMore hPoint =>
      apply Nat.lt_of_lt_of_le _ discardPoint_le_swallowed
      omega
  · exact Nat.lt_of_lt_of_le (Nat.lt_of_not_le hf) (blockSize_le_swallowed he)

lemma Swallowing.ends_iff (hEdge : CbcBoundary s cipher mac)
    (h : Swallowing s cipher mac p st) (buf : Bytes) : readRound st buf = .ended .macInvalid ↔
      Broken s cipher mac (p ++ buf) ∧ discardPoint s cipher (p ++ buf) ≤ (p ++ buf).length := by
  have hr := h.rounds hEdge buf
  generalize readRound st buf = outcome at hr ⊢
  cases hr with
  | waits hn =>
    constructor
    · intro he
      cases he
    · rintro ⟨hBroken, hPoint⟩
      cases hn with
      | reading hIncomplete => exact absurd hBroken hIncomplete.not_broken
      | discarding _ hMore hLeft => omega
  | ends hBroken hPoint => exact ⟨fun _ => ⟨hBroken, hPoint⟩, fun _ => rfl⟩
  | takes hSound =>
    constructor
    · intro he
      cases he
    · rintro ⟨hBroken, -⟩
      exact absurd hBroken hSound
  | refuses hSound hCode =>
    refine ⟨fun he => ?_, fun he => absurd he.1 hSound⟩
    cases he
    exact absurd rfl hCode

/-- The end of a damaged stream is known from how much of it was read. -/
lemma ends_iff_swallowed_le (hBroken : Broken s cipher mac p) :
    discardPoint s cipher p ≤ p.length ↔ swallowed s cipher mac p ≤ p.length := by
  rw [discardPoint, swallowed]
  split_ifs with hs
  · have hEnd := (hBroken.2 hs).1
    omega
  · exact Iff.rfl

lemma Broken.take (h : CbcBoundary s cipher mac) (hBroken : Broken s cipher mac p)
    {front : Bytes} {n : Nat} (hf : swallowed s cipher mac (front ++ x) ≤ front.length + n)
    (hs : p = front ++ x) (hLess : n ≤ x.length) : Broken s cipher mac (front ++ x.take n) ∧
      swallowed s cipher mac (front ++ x.take n) = swallowed s cipher mac (front ++ x) := by
  subst hs
  have hCut : front ++ x = (front ++ x.take n) ++ x.drop n := by
    rw [append_assoc, take_append_drop]
  have hLen : (front ++ x.take n).length = front.length + n := by
    rw [length_append, length_take]
    omega
  have hSize : cipher.blockSize ≤ (front ++ x.take n).length := by
    rw [hLen]
    exact (blockSize_le_swallowed h).trans hf
  have hSame : swallowed s cipher mac (front ++ x) = swallowed s cipher mac (front ++ x.take n) := by
    rw [hCut]
    exact swallowed_append hSize
  refine ⟨?_, hSame.symm⟩
  rw [hCut] at hBroken
  refine (broken_append h hSize fun hSane => ?_).1 hBroken
  rw [hSame, swallowed, if_pos hSane] at hf
  rw [hLen]
  exact (Nat.le_max_right _ _).trans hf

/-- Whatever the reads are, they end after the same number of bytes of the stream. -/
lemma Swallows.length_eq {last : Bytes} (he : CbcBoundary s cipher mac) (h : Swallows s front last) :
    (front.flatten ++ last).length = swallowed s cipher mac (front.flatten ++ last) := by
  obtain ⟨st, hr⟩ := h.reads
  have hw := (Swallowing.boundary he).readAll he hr
  rw [nil_append] at hw
  have hEnds := h.ends
  rw [readAll_concat hr, hw.ends_iff he] at hEnds
  obtain ⟨hBroken, hPoint⟩ := hEnds
  have hEnough := (ends_iff_swallowed_le hBroken).1 hPoint
  have hPre := hw.length_lt he last
  rw [length_append] at hEnough ⊢
  apply Nat.le_antisymm _ hEnough
  by_contra hMore
  -- Cut the last read where the connection would have ended.
  have hl : swallowed s cipher mac (front.flatten ++ last) - front.flatten.length < last.length := by omega
  have hSum : front.flatten.length +
    (swallowed s cipher mac (front.flatten ++ last) - front.flatten.length) =
    swallowed s cipher mac (front.flatten ++ last) := by omega
  obtain ⟨hCut, hSame⟩ := hBroken.take he (Nat.le_of_eq hSum.symm) rfl hl.le
  apply h.tight _ hl
  rw [readAll_concat hr, hw.ends_iff he]
  refine ⟨hCut, (ends_iff_swallowed_le hCut).2 ?_⟩
  rw [hSame, length_append, length_take]
  omega

/-- Two damaged streams are swallowed to the same length exactly if the length in the first
block is implausible in both, or plausible in both with packets that are not too long or equally
long. -/
theorem discard_constant_iff (h : CbcBoundary s cipher mac) {front other : List Bytes}
    {last end' : Bytes} (hOne : Swallows s front last) (hOther : Swallows s other end') :
    (front.flatten ++ last).length = (other.flatten ++ end').length ↔
      (Plausible s cipher (front.flatten ++ last) ↔ Plausible s cipher (other.flatten ++ end')) ∧
      (Plausible s cipher (front.flatten ++ last) →
        max (packetMaxSize + cipher.blockSize) (packetEnd s cipher mac (front.flatten ++ last)) =
          max (packetMaxSize + cipher.blockSize) (packetEnd s cipher mac (other.flatten ++ end'))) := by
  have hSize := h.blockSize_eq
  rw [hOne.length_eq h, hOther.length_eq h, swallowed, swallowed]
  by_cases hFirst : Plausible s cipher (front.flatten ++ last)
  · by_cases hSecond : Plausible s cipher (other.flatten ++ end')
    · rw [if_pos hFirst, if_pos hSecond]
      simp [hFirst, hSecond]
    · rw [if_pos hFirst, if_neg hSecond]
      simp only [hFirst, hSecond, iff_false, not_true, false_and]
      omega
  · by_cases hSecond : Plausible s cipher (other.flatten ++ end')
    · rw [if_neg hFirst, if_pos hSecond]
      simp only [hFirst, hSecond, iff_true, false_and, iff_false]
      omega
    · rw [if_neg hFirst, if_neg hSecond]
      simp [hFirst, hSecond]

/-! Streams that are damaged in different ways: the first block says that the packet is empty,
or that it does not end with a block, or the packet is whole and has a wrong code. -/

lemma cbcBoundary_shiftSession : CbcBoundary shiftSession shiftCipher sumMac where
  keys := ⟨0, .inl rfl, 0, 0, rfl⟩
  packlen := rfl
  packetDiscard := rfl
  input := rfl

lemma swallows_single (h : CbcBoundary s cipher mac) (hBroken : Broken s cipher mac p)
    (hLen : p.length = discardPoint s cipher p) : Swallows s [] p := by
  have hs := Swallowing.boundary h
  constructor
  case reads => exact ⟨s, rfl⟩
  case ends =>
    rw [readAll_concat rfl, hs.ends_iff h]
    exact ⟨hBroken, hLen.ge⟩
  case tight =>
    intro n hLess
    rw [readAll_concat rfl, Ne, hs.ends_iff h, nil_append]
    rintro ⟨hCut, hPoint⟩
    have hSame : discardPoint s cipher (p.take n ++ p.drop n) = discardPoint s cipher (p.take n) :=
      discardPoint_append hCut.1
    rw [take_append_drop] at hSame
    rw [← hSame, ← hLen, length_take] at hPoint
    omega

def emptyStream : Bytes := List.replicate 8 0 ++ List.replicate (packetMaxSize - 8) 0

def misalignedStream : Bytes :=
  [0, 0, 0, 13, 4, 0, 0, 0] ++ List.replicate (packetMaxSize - 8) 0

def wrongCodeStream : Bytes :=
  ([0, 0, 0, 12, 4, 0, 0, 0] ++ List.replicate 9 0) ++ List.replicate (packetMaxSize - 9) 0

lemma swallows_implausible {head : Bytes} (hh : head.length = 8)
    (hNot : ¬ Plausible shiftSession shiftCipher head) :
    Swallows shiftSession [] (head ++ List.replicate (packetMaxSize - 8) 0) := by
  have hf : shiftCipher.blockSize ≤ head.length := hh.ge
  apply swallows_single cbcBoundary_shiftSession
  · apply Broken.append cbcBoundary_shiftSession
    exact ⟨hf, fun hs => absurd hs hNot⟩
  · rw [discardPoint_append hf, discardPoint, if_neg hNot, length_append,
      length_replicate, hh, packetMaxSize]

lemma swallows_wrongCodeStream : Swallows shiftSession [] wrongCodeStream := by
  have hs : Plausible shiftSession shiftCipher
    ([0, 0, 0, 12, 4, 0, 0, 0] ++ List.replicate 9 0) := by decide
  apply swallows_single cbcBoundary_shiftSession
  · apply Broken.append cbcBoundary_shiftSession
    unfold Broken
    decide
  · rw [wrongCodeStream, discardPoint_append (by decide), discardPoint, if_pos hs,
      length_append, length_replicate, packetMaxSize]
    rfl

theorem discard_constant_implausible :
    Swallows shiftSession [] emptyStream ∧ Swallows shiftSession [] misalignedStream ∧
      (([] : List Bytes).flatten ++ emptyStream).length =
        (([] : List Bytes).flatten ++ misalignedStream).length := by
  have hEmpty : ¬ Plausible shiftSession shiftCipher (List.replicate 8 0) := by decide
  have hMisaligned : ¬ Plausible shiftSession shiftCipher [0, 0, 0, 13, 4, 0, 0, 0] := by decide
  have hSwallows : Swallows shiftSession [] emptyStream := swallows_implausible rfl hEmpty
  have hOther : Swallows shiftSession [] misalignedStream := swallows_implausible rfl hMisaligned
  have hFirst : ¬ Plausible shiftSession shiftCipher emptyStream :=
    (plausible_append (by decide)).not.2 hEmpty
  have hSecond : ¬ Plausible shiftSession shiftCipher misalignedStream :=
    (plausible_append (by decide)).not.2 hMisaligned
  refine ⟨hSwallows, hOther, (discard_constant_iff cbcBoundary_shiftSession hSwallows hOther).2 ?_⟩
  rw [flatten_nil, nil_append, nil_append]
  exact ⟨iff_of_false hFirst hSecond, fun hPlausible => absurd hPlausible hFirst⟩

/-- A packet with a wrong code is swallowed for one block longer. -/
theorem discard_tells_length :
    CbcBoundary shiftSession shiftCipher sumMac ∧ Swallows shiftSession [] emptyStream ∧
      Swallows shiftSession [] wrongCodeStream ∧ emptyStream.length + 8 = wrongCodeStream.length := by
  refine ⟨cbcBoundary_shiftSession, swallows_implausible rfl (by decide), swallows_wrongCodeStream, ?_⟩
  simp only [emptyStream, wrongCodeStream, length_append, length_replicate, packetMaxSize]
  rfl

end Packet
