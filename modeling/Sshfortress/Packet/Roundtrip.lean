import Sshfortress.Packet.Receive

/-! What is sent is received. The two sides start with the same keys and counters and
contexts in step; the bytes may be cut anywhere on the way. -/
namespace Packet

open Base Base.Wire Base.Cipher List

variable {Ctx : Type}

/-! Padding. -/

variable {s r final next v waiting : Ssh Ctx} {payload encrypted pad rest packet : Bytes}
  {extraPad : UInt8} {sender after receiver : Ctx} {frames : List Frame}
  {sends : List (UInt8 × Bytes)} {k : Keys Ctx} {blockSize len fuel : Nat} {type : UInt8}
  {seqnr : UInt32} {frame : Frame}

lemma minPadding_spec (h : blockSize = 8 ∨ blockSize = 16) :
    4 ≤ minPadding blockSize len ∧ minPadding blockSize len < 20 ∧
      (len + minPadding blockSize len) % blockSize = 0 := by
  unfold minPadding
  rcases h with rfl | rfl
  · dsimp only
    split_ifs <;> omega
  · dsimp only
    split_ifs <;> omega

lemma roundup_mod {x : Nat} (h : blockSize = 8 ∨ blockSize = 16) :
    roundup x blockSize % 256 % blockSize = 0 := by
  unfold roundup
  rcases h with rfl | rfl
  · omega
  · omega

lemma padLength_spec {padlen : Nat} (hb : blockSize = 8 ∨ blockSize = 16)
    (h : padLength blockSize len extraPad = .ok padlen) :
    4 ≤ padlen ∧ padlen < 256 ∧ (len + padlen) % blockSize = 0 := by
  obtain ⟨hLow, hHigh, hf⟩ := @minPadding_spec blockSize len hb
  unfold padLength at h
  dsimp only at h
  split_ifs at h with hNone hRound hWrap
  · cases h
    exact ⟨hLow, by omega, hf⟩
  · cases h
    have hm := roundup_mod (x := extraPad.toNat) hb
    generalize roundup extraPad.toNat blockSize % 256 = rounded at *
    -- The rest modulo the rounded value is again a whole number of blocks.
    have hRest : (len + minPadding blockSize len) % rounded % blockSize = 0 := by
      rw [Nat.mod_mod_of_dvd _ (Nat.dvd_of_mod_eq_zero hm), hf]
    refine ⟨by omega, by omega, ?_⟩
    rcases hb with rfl | rfl
    · omega
    · omega

/-! The packet before encryption. -/

lemma clearPacket_length (payload padding : Bytes) :
    (clearPacket payload padding).length = 5 + payload.length + padding.length := by
  simp [clearPacket, putU32, digits_length]
  omega

lemma value_clearPacket {padding : Bytes} (h : 1 + payload.length + padding.length < 256 ^ 4) :
    value ((clearPacket payload padding).take 4) = 1 + payload.length + padding.length := by
  exact value_digits h

/-- A type that the receiver takes and that has no effect on the session. -/
structure Sendable (payload : Bytes) : Prop where
  nonempty : payload ≠ []
  length_le : payload.length ≤ packetMaxSize - 512
  type : ∀ type rest, payload = type :: rest → msgMin ≤ type ∧ type < msgLocalMin ∧
    type ≠ msgNewkeys ∧ type ≠ msgUserauthSuccess

lemma unpack_clearPacket {padding : Bytes} (hLow : 4 ≤ padding.length)
    (hh : padding.length < 256) (hMin : msgMin ≤ type) (hMax : type < msgLocalMin) :
    unpack (clearPacket (type :: rest) padding) = .ok (type, rest) := by
  have hLen := clearPacket_length (type :: rest) padding
  have hp : ((clearPacket (type :: rest) padding).getD 4 0).toNat = padding.length := by
    simp [clearPacket, putU32, digits_length, Nat.mod_eq_of_lt hh]
  have hPayload : ((clearPacket (type :: rest) padding).drop 5).take
    ((clearPacket (type :: rest) padding).length - 5 - padding.length) = type :: rest := by
    apply take_left'
    omega
  have hr : ¬ (type < msgMin ∨ msgLocalMin ≤ type) := by
    rw [not_or, UInt8.not_lt, UInt8.not_le]
    exact ⟨hMin, hMax⟩
  unfold unpack
  rw [hp]
  rw [if_neg (by omega), if_neg (by omega), hPayload]
  exact if_neg hr

/-! Encryption. -/

/-- The contexts of the two sides fit each other. -/
def Keys.InStep (k : Keys Ctx) (sender receiver : Ctx) : Prop :=
  match k with
  | none => True
  | some ⟨_, .mac cipher _ _ _, _, _, _⟩ => cipher.inStep sender receiver
  | some ⟨_, .aead cipher _, _, _, _⟩ => cipher.inStep sender receiver

lemma macCompute_length (k : Keys Ctx) (seqnr : UInt32) (clear encrypted : Bytes) :
    (macCompute k seqnr clear encrypted).length = k.maclen := by
  match k with
  | none => rfl
  | some ⟨_, .mac _ _ mac etm, _, _, _⟩ => exact mac.compute_length _ _
  | some ⟨_, .aead _ _, _, _, _⟩ => rfl

lemma macCheckEncrypted_compute (k : Keys Ctx) (seqnr : UInt32) (clear encrypted : Bytes) :
    macCheckEncrypted k seqnr (encrypted.take (encrypted.length - k.authlen))
      (macCompute k seqnr clear encrypted) = true := by
  match k with
  | none => rfl
  | some ⟨_, .mac _ _ mac true, _, _, _⟩ => simp [macCheckEncrypted, macCompute, Keys.authlen]
  | some ⟨_, .mac _ _ mac false, _, _, _⟩ => rfl
  | some ⟨_, .aead _ _, _, _, _⟩ => rfl

lemma macCheckEncrypted_of_aadlen (h : k.aadlen = 0) (seqnr : UInt32) (encrypted mac : Bytes) :
    macCheckEncrypted k seqnr encrypted mac = true := by
  match k with
  | none => rfl
  | some ⟨_, .mac _ _ _ true, _, _, _⟩ => cases h
  | some ⟨_, .mac _ _ _ false, _, _, _⟩ => rfl
  | some ⟨_, .aead _ _, _, _, _⟩ => rfl

lemma macCheckClear_compute (k : Keys Ctx) (seqnr : UInt32) (clear encrypted : Bytes) :
    macCheckClear k seqnr clear (macCompute k seqnr clear encrypted) = true := by
  match k with
  | none => rfl
  | some ⟨_, .mac _ _ mac true, _, _, _⟩ => rfl
  | some ⟨_, .mac _ _ mac false, _, _, _⟩ => simp [macCheckClear, macCompute]
  | some ⟨_, .aead _ _, _, _, _⟩ => rfl

/-- A text of whole blocks, the first block decrypted ahead of the others. -/
lemma blocks_ahead (c : BlockCipher Ctx) {m : Nat} (hStep : c.inStep sender receiver)
    (hLen : packet.length = (1 + m) * c.blockSize) :
    ∃ first rest, (c.blocks c.encrypt (1 + m) sender packet).2 = first ++ rest ∧
      first.length = c.blockSize ∧ rest.length = m * c.blockSize ∧
      (c.blocks c.decrypt 1 receiver first).2 = packet.take c.blockSize ∧
      (c.blocks c.decrypt m (c.blocks c.decrypt 1 receiver first).1 rest).2 =
        packet.drop c.blockSize ∧ c.inStep (c.blocks c.encrypt (1 + m) sender packet).1
        (c.blocks c.decrypt m (c.blocks c.decrypt 1 receiver first).1 rest).1 := by
  rw [Nat.add_mul, Nat.one_mul] at hLen
  have hf : (packet.take c.blockSize).length = 1 * c.blockSize := by
    rw [length_take, Nat.one_mul]
    omega
  have hb : (packet.drop c.blockSize).length = m * c.blockSize := by
    rw [length_drop]
    omega
  have hSame : c.blocks c.encrypt 1 sender packet =
    c.blocks c.encrypt 1 sender (packet.take c.blockSize) := by
    have hs := c.blocks_append c.encrypt 1 sender (packet.take c.blockSize)
      (packet.drop c.blockSize) (by omega)
    rwa [take_append_drop] at hs
  obtain ⟨hFirst, hm⟩ := c.blocks_decrypt_encrypt 1 sender receiver _ hf hStep
  obtain ⟨hr, hl⟩ := c.blocks_decrypt_encrypt m _ _ _ hb hm
  rw [c.blocks_add, Nat.one_mul, hSame]
  refine ⟨_, _, rfl, ?_, c.blocks_length c.encrypt_length m _ _ hb, hFirst, hr, hl⟩
  rw [c.blocks_length c.encrypt_length 1 _ _ hf, Nat.one_mul]

lemma cipherDecrypt_ahead (first second : UInt32) (hAad : k.aadlen = 0)
    (hStep : k.InStep sender receiver) (hb : k.blockSize ≤ packet.length)
    (hFull : packet.length % k.blockSize = 0)
    (h : cipherEncrypt k sender seqnr packet = .ok (after, encrypted)) :
    encrypted.length = packet.length ∧ ∃ middle last,
      cipherDecrypt k receiver first 0 (encrypted.take k.blockSize) = .ok (middle, packet.take k.blockSize) ∧
      cipherDecrypt k middle second 0 (encrypted.drop k.blockSize) =
        .ok (last, packet.drop k.blockSize) ∧ k.InStep after last := by
  have hs := k.blockSize_eq
  match k with
  | none =>
    cases h
    exact ⟨rfl, receiver, receiver, rfl, rfl, trivial⟩
  | some ⟨id, .mac c cbc mac false, hEq, sendStart, receiveStart⟩ =>
    change c.blockSize ≤ packet.length at hb
    change packet.length % c.blockSize = 0 at hFull
    change c.blockSize = 8 ∨ c.blockSize = 16 at hs
    have hPos : 0 < c.blockSize := by omega
    obtain ⟨n, hn⟩ := Nat.dvd_of_mod_eq_zero hFull
    obtain ⟨m, rfl⟩ : ∃ m, n = 1 + m := by
      cases n with
      | zero => omega
      | succ m => exact ⟨m, Nat.add_comm m 1⟩
    have hLen : packet.length = (1 + m) * c.blockSize := by rw [hn, Nat.mul_comm]
    obtain ⟨front, rest, ht, hf, hr, hDec, hd, hNext⟩ :=
      blocks_ahead c hStep hLen
    have hc : packet.length / c.blockSize = 1 + m := by rw [hLen, Nat.mul_div_cancel _ hPos]
    simp only [cipherEncrypt, Keys.aadlen, drop_zero, hFull, ne_eq, not_true_eq_false,
      if_false, hc, take_zero, nil_append] at h
    cases h
    rw [ht]
    refine ⟨?_, (c.blocks c.decrypt 1 receiver front).1, _, ?_, ?_, hNext⟩
    · rw [length_append, hf, hr, hLen, Nat.add_mul, Nat.one_mul]
    · have hOne : c.blockSize / c.blockSize = 1 := Nat.div_self hPos
      simp only [cipherDecrypt, Keys.blockSize, Protection.blockSize, drop_zero,
        take_left' hf, hf, Nat.mod_self, hOne, ne_eq, not_true_eq_false, if_false,
        take_zero, nil_append, hDec]
    · have hm : m * c.blockSize / c.blockSize = m := Nat.mul_div_cancel _ hPos
      simp only [cipherDecrypt, Keys.blockSize, Protection.blockSize, drop_zero,
        drop_left' hf, hr, Nat.mul_mod_left, hm, ne_eq, not_true_eq_false,
        if_false, take_zero, nil_append, hd]

lemma cipherDecrypt_whole (hAad : k.aadlen = 4) (hStep : k.InStep sender receiver)
    (hLong : 4 ≤ packet.length) (hf : (packet.length - 4) % k.blockSize = 0)
    (h : cipherEncrypt k sender seqnr packet = .ok (after, encrypted)) :
    encrypted.length = packet.length + k.authlen ∧
      cipherGetLength k receiver seqnr encrypted = value (packet.take 4) ∧
      ∃ last, cipherDecrypt k receiver seqnr 4 encrypted = .ok (last, packet) ∧ k.InStep after last := by
  have hh : (packet.take 4).length = 4 := by
    rw [length_take]
    omega
  match k with
  | some ⟨id, .mac c cbc mac true, hEq, sendStart, receiveStart⟩ =>
    change (packet.length - 4) % c.blockSize = 0 at hf
    have ht : (packet.drop 4).length = packet.length - 4 := length_drop
    have hc : (packet.drop 4).length = (packet.length - 4) / c.blockSize * c.blockSize := by
      rw [ht, Nat.div_mul_cancel (Nat.dvd_of_mod_eq_zero hf)]
    have he := c.blocks_length c.encrypt_length _ sender _ hc
    obtain ⟨hp, hn⟩ := c.blocks_decrypt_encrypt _ sender receiver _ hc hStep
    simp only [cipherEncrypt, Keys.aadlen, ht, hf, ne_eq, not_true_eq_false, if_false] at h
    cases h
    refine ⟨?_, ?_, _, ?_, hn⟩
    · rw [length_append, hh, he, ← hc, ht]
      simp only [Keys.authlen]
      omega
    · simp only [cipherGetLength, take_left' hh]
    · have hLen : (packet.length - 4) / c.blockSize * c.blockSize = packet.length - 4 :=
        Nat.div_mul_cancel (Nat.dvd_of_mod_eq_zero hf)
      simp only [cipherDecrypt, drop_left' hh, take_left' hh, he,
        hLen, hf, ne_eq, not_true_eq_false, if_false, hp, take_append_drop]
  | some ⟨id, .aead c size, hEq, sendStart, receiveStart⟩ =>
    obtain ⟨last, hDec, hn⟩ := c.decrypt_encrypt sender receiver seqnr (packet.take 4)
      (packet.drop 4) hStep
    have hGet := c.getLength_encrypt sender receiver seqnr (packet.take 4) (packet.drop 4) hStep hh
    have hLen := c.encrypt_length sender seqnr (packet.take 4) (packet.drop 4)
    have hOut : c.encrypt sender seqnr (packet.take 4) (packet.drop 4) = (after, encrypted) :=
      Except.ok.inj h
    rw [← length_append, take_append_drop, hOut] at hLen
    rw [hh, take_append_drop, hOut] at hDec
    rw [hOut] at hGet hn
    refine ⟨hLen, hGet, last, ?_, hn⟩
    simp only [cipherDecrypt, hDec]

/-! One packet. -/

def PacketState.count (p : PacketState) (len blockSize : Nat) : PacketState where
  seqnr := p.seqnr + 1
  packets := p.packets + 1
  blocks := p.blocks + UInt64.ofNat (len / blockSize)
  bytes := p.bytes + UInt64.ofNat len

lemma padding_length (s : Ssh Ctx) (padlen : Nat) : (padding s padlen).2.length = padlen := by
  unfold padding
  split_ifs
  · exact arc4randomBuf_length s padlen
  · exact length_replicate

/-- What the sender does to its direction and to the wire. -/
lemma sshPacketSend2Wrapped_spec (hPayload : Sendable payload)
    (h : sshPacketSend2Wrapped s payload = .ok (next, frame)) :
    ∃ pad context encrypted,
      padLength s.send.newkeys.blockSize (5 + payload.length - s.send.newkeys.aadlen) s.extraPad =
        .ok pad.length ∧
      cipherEncrypt s.send.newkeys s.send.context s.send.state.seqnr (clearPacket payload pad) =
        .ok (context, encrypted) ∧
      frame.bytes = encrypted ++ macCompute s.send.newkeys s.send.state.seqnr
        (clearPacket payload pad) encrypted ∧
      frame.len = (clearPacket payload pad).length ∧
      next.output = s.output ++ frame.bytes ∧
      next.send = { s.send with
        context
        state := s.send.state.count frame.len s.send.newkeys.blockSize } := by
  obtain ⟨⟨counted, sealed⟩, hs, h⟩ := bind_eq_ok.1 h
  obtain ⟨finished, hf, h⟩ := bind_eq_ok.1 h
  cases h
  obtain ⟨padlen, hPad, hs⟩ := bind_eq_ok.1 hs
  obtain ⟨⟨context, encrypted⟩, hEncrypt, hs⟩ := bind_eq_ok.1 hs
  cases hs
  obtain ⟨type, rest, rfl⟩ := exists_cons_of_ne_nil hPayload.nonempty
  obtain ⟨-, -, hn, hSucc⟩ := hPayload.type type rest rfl
  have hp : padLength s.send.newkeys.blockSize
    (5 + (type :: rest).length - s.send.newkeys.aadlen) s.extraPad =
    .ok (padding s padlen).2.length := by
    rw [padding_length]
    exact hPad
  obtain ⟨-, ⟨ht, -⟩ | ⟨-, ⟨ht, -, -⟩ | ⟨-, rfl⟩⟩⟩ := finishSend_cases hf
  · exact absurd (Option.some.inj ht) hn
  · exact absurd (Option.some.inj ht) hSucc
  · exact ⟨_, context, encrypted, hp, hEncrypt, rfl, rfl, rfl, rfl⟩

lemma acceptPacket_clear (hi : s.incomingPacket = clearPacket (type :: rest) pad)
    (hPacklen : s.packlen + 4 = (clearPacket (type :: rest) pad).length) (hLow : 4 ≤ pad.length)
    (hh : pad.length < 256) (hPayload : Sendable (type :: rest))
    (hc : ¬ (s.read.state.packets + 1 = 0 ∧ s.bugNorekey = false)) :
    acceptPacket s = .ok ({ s with
        read := { s.read with
          state := s.read.state.count (clearPacket (type :: rest) pad).length s.read.newkeys.blockSize }
        incomingPacket := rest
        packlen := 0 },
      ⟨type, rest, s.read.newkeys.map Newkeys.id, s.read.state.seqnr⟩) := by
  obtain ⟨hMin, hMax, hn, hs⟩ := hPayload.type type rest rfl
  have ho : ¬ (type = msgUserauthSuccess ∧ s.serverSide = false) := fun h => hs h.1
  unfold acceptPacket
  rw [hPacklen, hi, unpack_clearPacket hLow hh hMin hMax, countRead, if_neg hc]
  simp only [ok_bind, finishRead, if_neg hn, if_neg ho]
  rfl

/-- The receiver is where the sender is. -/
structure Synced (s r : Ssh Ctx) : Prop where
  newkeys : r.read.newkeys = s.send.newkeys
  state : r.read.state = s.send.state
  inStep : s.send.newkeys.InStep s.send.context r.read.context
  packlen : r.packlen = 0
  packetDiscard : r.packetDiscard = 0
  input : r.input = []

lemma packet_sizes (hPayload : Sendable payload)
    (hPad : padLength k.blockSize (5 + payload.length - k.aadlen) extraPad = .ok pad.length) :
    4 ≤ pad.length ∧ pad.length < 256 ∧ ((clearPacket payload pad).length - k.aadlen) % k.blockSize = 0 ∧
      k.blockSize ≤ (clearPacket payload pad).length ∧ badLength (1 + payload.length + pad.length) = false ∧
      1 + payload.length + pad.length < 256 ^ 4 := by
  obtain ⟨hLow, hh, hf⟩ := padLength_spec k.blockSize_eq hPad
  have hm := hPayload.length_le
  have hs := k.blockSize_eq
  have hAad := k.aadlen_eq
  rw [clearPacket_length]
  unfold packetMaxSize at hm
  refine ⟨hLow, hh, ?_, ?_, ?_, by omega⟩
  · rw [← hf]
    congr 1
    omega
  · rcases hs with h8 | h16
    · omega
    · rw [h16] at hf ⊢
      omega
  · rw [badLength_eq_false, packetMaxSize]
    exact ⟨by omega, by omega⟩

lemma openPacket_complete {text mac clear : Bytes} {context : Ctx}
    (hb : needed s % s.read.newkeys.blockSize = 0) (hInput : s.input = text ++ mac)
    (ht : text.length = s.read.newkeys.aadlen + needed s + s.read.newkeys.authlen)
    (hMac : mac.length = s.read.newkeys.maclen)
    (hc : macCheckEncrypted s.read.newkeys s.read.state.seqnr
      (text.take (text.length - s.read.newkeys.authlen)) mac = true)
    (hDec : cipherDecrypt s.read.newkeys s.read.context s.read.state.seqnr
      s.read.newkeys.aadlen text = .ok (context, clear))
    (hClear : macCheckClear s.read.newkeys s.read.state.seqnr (s.incomingPacket ++ clear) mac = true) :
    openPacket s = .ok (some { s with
      read := { s.read with context }
      incomingPacket := s.incomingPacket ++ clear
      input := [] }) := by
  have hs : ¬ s.input.length < s.read.newkeys.aadlen + needed s + s.read.newkeys.authlen +
    s.read.newkeys.maclen := by
    rw [hInput, length_append]
    omega
  have hf : s.input.take (s.read.newkeys.aadlen + needed s) =
    text.take (text.length - s.read.newkeys.authlen) := by
    rw [hInput, take_append_of_le_length (by omega)]
    congr 1
    omega
  have hTotal : s.input.take (s.read.newkeys.aadlen + needed s + s.read.newkeys.authlen) = text := by
    rw [hInput, ← ht, take_left]
  have hr : s.input.drop (s.read.newkeys.aadlen + needed s + s.read.newkeys.authlen) = mac := by
    rw [hInput, ← ht, drop_left]
  have hAll : s.input.drop (s.read.newkeys.aadlen + needed s + s.read.newkeys.authlen +
    s.read.newkeys.maclen) = [] := by rw [← drop_drop, hr, ← hMac, drop_length]
  have hCode : mac.take s.read.newkeys.maclen = mac := by rw [← hMac, take_length]
  unfold openPacket
  simp only [hb, ne_eq, not_true_eq_false, if_false, if_neg hs, hf, hTotal, hr,
    hAll, hCode, hc, Bool.true_eq_false, hDec, ok_bind, hClear]

/-- The receiver opens what was sealed for it with this padding, and is in step with the sender. -/
def Opens (r : Ssh Ctx) (payload pad encrypted : Bytes) (after : Ctx) : Prop :=
  ∃ known context, readLength (feed r (encrypted ++ macCompute r.read.newkeys r.read.state.seqnr
      (clearPacket payload pad) encrypted)) = .ok (some known) ∧
    openPacket known = .ok (some { r with
      read := { r.read with context }
      incomingPacket := clearPacket payload pad
      packlen := 1 + payload.length + pad.length
      input := [] }) ∧
    r.read.newkeys.InStep after context

section Open

variable (hPacklen : r.packlen = 0) (hInput : r.input = [])
  (hStep : r.read.newkeys.InStep sender r.read.context) (hPayload : Sendable payload)
  (hPad : padLength r.read.newkeys.blockSize (5 + payload.length - r.read.newkeys.aadlen) extraPad =
    .ok pad.length)
  (hEncrypt : cipherEncrypt r.read.newkeys sender r.read.state.seqnr (clearPacket payload pad) =
    .ok (after, encrypted))
include hPacklen hInput hStep hPayload hPad hEncrypt

lemma open_whole (hAad : r.read.newkeys.aadlen = 4) : Opens r payload pad encrypted after := by
  obtain ⟨-, -, hf, -, hg, hs⟩ := packet_sizes hPayload hPad
  have hLen := clearPacket_length payload pad
  rw [hAad] at hf
  obtain ⟨he, hGet, context, hDec, hNext⟩ :=
    cipherDecrypt_whole hAad hStep (by omega) hf hEncrypt
  have hMac := macCompute_length r.read.newkeys r.read.state.seqnr (clearPacket payload pad) encrypted
  have hc := macCheckEncrypted_compute r.read.newkeys r.read.state.seqnr
    (clearPacket payload pad) encrypted
  have hClear := macCheckClear_compute r.read.newkeys r.read.state.seqnr
    (clearPacket payload pad) encrypted
  unfold Opens
  generalize macCompute r.read.newkeys r.read.state.seqnr (clearPacket payload pad) encrypted = mac at *
  let known : Ssh Ctx := { feed r (encrypted ++ mac) with
    packlen := 1 + payload.length + pad.length, incomingPacket := [] }
  refine ⟨known, context, ?_, ?_, hNext⟩
  · have hKnown : ¬ (feed r (encrypted ++ mac)).packlen ≠ 0 := not_not.2 hPacklen
    have hNonzero : (feed r (encrypted ++ mac)).read.newkeys.aadlen ≠ 0 := by
      change r.read.newkeys.aadlen ≠ 0
      omega
    have hl : ¬ (feed r (encrypted ++ mac)).input.length < 4 := by
      simp only [feed, hInput, nil_append, length_append]
      omega
    have hv : cipherGetLength r.read.newkeys r.read.context r.read.state.seqnr
      (r.input ++ (encrypted ++ mac)) = 1 + payload.length + pad.length := by
      rw [hInput, nil_append, cipherGetLength_append _ _ _ _ _ (by omega), hGet, value_clearPacket hs]
    unfold readLength
    rw [if_neg hKnown, if_pos hNonzero, if_neg hl]
    simp only [feed, hv, hg]
    rfl
  · have hn : needed known = 1 + payload.length + pad.length := by
      exact if_pos (by change r.read.newkeys.aadlen ≠ 0; omega)
    have hb : (1 + payload.length + pad.length) % r.read.newkeys.blockSize = 0 := by
      rw [← hf, hLen]
      congr 1
      omega
    have hk : known.input = encrypted ++ mac := by
      change r.input ++ (encrypted ++ mac) = encrypted ++ mac
      rw [hInput, nil_append]
    have ho : openPacket known = .ok (some { known with
      read := { known.read with context }
      incomingPacket := known.incomingPacket ++ clearPacket payload pad
      input := [] }) := by
      apply openPacket_complete _ hk _ hMac hc _ hClear
      · rw [hn]
        exact hb
      · rw [hn, he, hLen]
        change _ = r.read.newkeys.aadlen + _ + r.read.newkeys.authlen
        omega
      · change cipherDecrypt _ _ _ r.read.newkeys.aadlen _ = _
        rw [hAad]
        exact hDec
    exact ho

lemma open_ahead (hAad : r.read.newkeys.aadlen = 0) (hAuth : r.read.newkeys.authlen = 0) :
    Opens r payload pad encrypted after := by
  obtain ⟨-, -, hf, hb, hg, hs⟩ := packet_sizes hPayload hPad
  have hSize := r.read.newkeys.blockSize_eq
  have hLen := clearPacket_length payload pad
  rw [hAad, Nat.sub_zero] at hf
  obtain ⟨he, middle, context, hFirst, hSnd, hNext⟩ :=
    cipherDecrypt_ahead r.send.state.seqnr r.read.state.seqnr hAad hStep hb hf hEncrypt
  have hMac := macCompute_length r.read.newkeys r.read.state.seqnr (clearPacket payload pad) encrypted
  have hc := macCheckClear_compute r.read.newkeys r.read.state.seqnr (clearPacket payload pad) encrypted
  unfold Opens
  generalize macCompute r.read.newkeys r.read.state.seqnr (clearPacket payload pad) encrypted = mac at *
  let known : Ssh Ctx := { r with
    read := { r.read with context := middle }
    incomingPacket := (clearPacket payload pad).take r.read.newkeys.blockSize
    packlen := 1 + payload.length + pad.length
    input := encrypted.drop r.read.newkeys.blockSize ++ mac }
  refine ⟨known, context, ?_, ?_, hNext⟩
  · have hKnown : ¬ (feed r (encrypted ++ mac)).packlen ≠ 0 := not_not.2 hPacklen
    have hz : ¬ (feed r (encrypted ++ mac)).read.newkeys.aadlen ≠ 0 := not_not.2 hAad
    have hl : ¬ (feed r (encrypted ++ mac)).input.length <
      (feed r (encrypted ++ mac)).read.newkeys.blockSize := by
      simp only [feed, hInput, nil_append, length_append]
      omega
    have hFront : (r.input ++ (encrypted ++ mac)).take r.read.newkeys.blockSize =
      encrypted.take r.read.newkeys.blockSize := by
      rw [hInput, nil_append, take_append_of_le_length (by omega)]
    have hBack : (r.input ++ (encrypted ++ mac)).drop r.read.newkeys.blockSize =
      encrypted.drop r.read.newkeys.blockSize ++ mac := by
      rw [hInput, nil_append, drop_append_of_le_length (by omega)]
    have hv : value (((clearPacket payload pad).take r.read.newkeys.blockSize).take 4) =
      1 + payload.length + pad.length := by
      rw [take_take, Nat.min_eq_left (by omega), value_clearPacket hs]
    unfold readLength
    rw [if_neg hKnown, if_neg hz, if_neg hl]
    simp only [feed, hFront, hBack, hFirst, ok_bind, hv, hg]
    rfl
  · have hn : needed known = (clearPacket payload pad).length - r.read.newkeys.blockSize := by
      have hz : ¬ known.read.newkeys.aadlen ≠ 0 := not_not.2 hAad
      unfold needed
      rw [if_neg hz]
      change (4 + (1 + payload.length + pad.length) + 2 ^ 32 - r.read.newkeys.blockSize) % 2 ^ 32 = _
      omega
    have ho : openPacket known = .ok (some { known with
      read := { known.read with context }
      incomingPacket := known.incomingPacket ++ (clearPacket payload pad).drop r.read.newkeys.blockSize
      input := [] }) := by
      have hKnownAad : known.read.newkeys.aadlen = 0 := hAad
      have hKnownMac : mac.length = known.read.newkeys.maclen := hMac
      have hk : known.input = encrypted.drop r.read.newkeys.blockSize ++ mac := rfl
      apply openPacket_complete _ hk _ hKnownMac (macCheckEncrypted_of_aadlen hKnownAad _ _ _)
      · change cipherDecrypt _ _ _ r.read.newkeys.aadlen _ = _
        rw [hAad]
        exact hSnd
      · change macCheckClear _ _ ((clearPacket payload pad).take _ ++ _) _ = true
        rw [take_append_drop]
        exact hc
      · rw [hn]
        rcases hSize with h8 | h16
        · rw [h8] at hf hb ⊢
          omega
        · rw [h16] at hf hb ⊢
          omega
      · rw [hn, length_drop, he]
        change _ = r.read.newkeys.aadlen + _ + r.read.newkeys.authlen
        omega
    have hw : known.incomingPacket ++ (clearPacket payload pad).drop r.read.newkeys.blockSize =
      clearPacket payload pad := take_append_drop _ _
    rw [hw] at ho
    exact ho

end Open

/-- A packet of the sender is taken whole, and the two sides are level again. -/
lemma takePacket_frame (hs : Synced s r) (hPayload : Sendable payload)
    (h : sshPacketSend2Wrapped s payload = .ok (next, frame))
    (hc : ¬ (r.read.state.packets + 1 = 0 ∧ r.bugNorekey = false)) :
    ∃ context incomingPacket packet, takePacket (feed r frame.bytes) = .ok ({ r with
        read := { r.read with
          context
          state := r.read.state.count frame.len r.read.newkeys.blockSize }
        incomingPacket
        packlen := 0
        input := [] }, some packet) ∧
      packet.payload = payload ∧
      next.send.newkeys = s.send.newkeys ∧
      next.send.state = s.send.state.count frame.len s.send.newkeys.blockSize ∧
      s.send.newkeys.InStep next.send.context context := by
  obtain ⟨hk, hState, hStep, hPacklen, hDrop, hInput⟩ := hs
  obtain ⟨pad, after, encrypted, hPad, hEncrypt, hb, hLen, -, hn⟩ :=
    sshPacketSend2Wrapped_spec hPayload h
  rw [← hk] at hPad hEncrypt hb hStep
  rw [← hState] at hEncrypt hb
  obtain ⟨known, context, hl, ho, hAfter⟩ : Opens r payload pad encrypted after := by
    rcases r.read.newkeys.aadlen_eq with ⟨hz, hAuth⟩ | hf
    · exact open_ahead hPacklen hInput hStep hPayload hPad hEncrypt hz hAuth
    · exact open_whole hPacklen hInput hStep hPayload hPad hEncrypt hf
  rw [← hb] at hl
  obtain ⟨hLow, hh, -, -, -, -⟩ := packet_sizes hPayload hPad
  obtain ⟨type, rest, rfl⟩ := exists_cons_of_ne_nil hPayload.nonempty
  let opened : Ssh Ctx := { r with
    read := { r.read with context }
    incomingPacket := clearPacket (type :: rest) pad
    packlen := 1 + (type :: rest).length + pad.length
    input := [] }
  have hPkt : opened.packlen + 4 = (clearPacket (type :: rest) pad).length := by
    rw [clearPacket_length]
    change 1 + (type :: rest).length + pad.length + 4 = _
    omega
  have ha := acceptPacket_clear (s := opened) rfl hPkt hLow hh hPayload hc
  refine ⟨context, rest, ⟨type, rest, r.read.newkeys.map Newkeys.id, r.read.state.seqnr⟩, ?_, rfl,
    ?_, ?_, ?_⟩
  · rw [(Taking.taken hl ho ha).eq, hLen]
  · rw [hn]
  · rw [hn]
  · rw [hn, ← hk]
    exact hAfter

/-! Many packets. -/

/-- A run of the sender: each packet is given with its extra padding. -/
def sendAll (s : Ssh Ctx) : List (UInt8 × Bytes) → Except Err (Ssh Ctx × List Frame)
  | [] => .ok (s, [])
  | (extraPad, payload) :: rest => do
    let (s, frame) ← sshPacketSend2Wrapped { s with extraPad } payload
    let (s, frames) ← sendAll s rest
    return (s, frame :: frames)

/-- Call `ssh_packet_read_poll2` until it returns no packet. -/
def drain : Nat → Ssh Ctx → Except Err (Ssh Ctx × List Received)
  | 0, _ => .error .internalError
  | fuel + 1, s => do
    let (s, found, _) ← sshPacketReadPoll2 s
    match found with
    | none => return (s, [])
    | some packet => do
      let (s, packets) ← drain fuel s
      return (s, packet :: packets)

/-- A run of the receiver over segments, with fuel for the calls after each of them. -/
def receive (fuel : Nat) (s : Ssh Ctx) : List Bytes → Except Err (Ssh Ctx × List Received)
  | [] => .ok (s, [])
  | segment :: segments => do
    let s ← sshPacketProcessIncoming s segment
    let (s, first) ← drain fuel s
    let (s, rest) ← receive fuel s segments
    return (s, first ++ rest)

/-- A receiver that has counted a packet and looked whether an exchange is due. -/
def counted (r : Ssh Ctx) (frame : Frame) : Ssh Ctx :=
  { r with read := { r.read with
    state := r.read.state.count frame.len r.read.newkeys.blockSize } }

def Quiet : Ssh Ctx → List Frame → Prop
  | _, [] => True
  | r, frame :: frames =>
    (r.read.state.packets + 1 = 0 → r.bugNorekey = true) ∧
      sshPacketNeedRekeying (counted r frame) 0 = false ∧ Quiet (tick (counted r frame)) frames

lemma Quiet.of_buffers (h : Quiet r frames) (context : Ctx) (incomingPacket input : Bytes)
    (packlen : Nat) :
    Quiet { r with read := { r.read with context }, incomingPacket, packlen, input } frames := by
  induction frames generalizing r with
  | nil => trivial
  | cons frame frames ih => exact ⟨h.1, h.2.1, ih h.2.2⟩

def wire (frames : List Frame) : Bytes := (frames.map Frame.bytes).flatten

lemma sendAll_cons (h : sendAll s ((extraPad, payload) :: sends) = .ok (final, frames)) :
    ∃ next frame rest, sshPacketSend2Wrapped { s with extraPad } payload = .ok (next, frame) ∧
      sendAll next sends = .ok (final, rest) ∧ frames = frame :: rest := by
  obtain ⟨⟨next, frame⟩, hs, h⟩ := bind_eq_ok.1 h
  obtain ⟨⟨last, rest⟩, hr, h⟩ := bind_eq_ok.1 h
  cases h
  exact ⟨next, frame, rest, hs, hr, rfl⟩

lemma sendAll_output (hs : ∀ send ∈ sends, Sendable send.2)
    (h : sendAll s sends = .ok (final, frames)) : final.output = s.output ++ wire frames := by
  induction sends generalizing s frames with
  | nil =>
    cases h
    exact (append_nil _).symm
  | cons send sends ih =>
    obtain ⟨next, frame, rest, hSend, hr, rfl⟩ := sendAll_cons h
    obtain ⟨-, -, -, -, -, -, -, hOut, -⟩ :=
      sshPacketSend2Wrapped_spec (hs _ mem_cons_self) hSend
    rw [ih (fun other ho => hs other (.tail _ ho)) hr, hOut]
    simp [wire]

lemma takePacket_idle (h : Synced s r) : takePacket r = .ok (r, none) := by
  have hk : ¬ r.packlen ≠ 0 := not_not.2 h.packlen
  have hLen : r.input.length = 0 := by rw [h.input, length_nil]
  have hSize := r.read.newkeys.blockSize_eq
  have hw : readLength r = .ok none := by
    unfold readLength
    rw [if_neg hk]
    by_cases hAad : r.read.newkeys.aadlen ≠ 0
    · rw [if_pos hAad]
      exact if_pos (by omega)
    · rw [if_neg hAad]
      exact if_pos (by omega)
  exact (Taking.short hw).eq

/-- The receiver waits in the middle of a stream: it has taken some packets, and it
has looked at the first bytes of the others without finding one that is complete. -/
inductive Underway (final : Ssh Ctx) (sends : List (UInt8 × Bytes)) (rest : Bytes)
    (waiting : Ssh Ctx) : Prop where
  | intro {s r : Ssh Ctx} {frames : List Frame} {seen : Bytes} (synced : Synced s r)
      (sendable : ∀ send ∈ sends, Sendable send.2) (sent : sendAll s sends = .ok (final, frames))
      (quiet : Quiet r frames) (waits : takePacket (feed r seen) = .ok (waiting, none))
      (cut : seen ++ rest = wire frames)

lemma feed_feed (s : Ssh Ctx) (x y : Bytes) : feed (feed s x) y = feed s (x ++ y) := by
  unfold feed
  rw [append_assoc]

lemma feed_nil (s : Ssh Ctx) : feed s [] = s := by
  unfold feed
  rw [append_nil]

lemma feed_eq_feed {t : Ssh Ctx} {x y : Bytes} (h : feed s x = feed t y) (hInput : t.input = []) :
    s = feed t s.input ∧ s.input ++ x = y := by
  constructor
  · have hs : { feed s x with input := s.input } = { feed t y with input := s.input } := by rw [h]
    unfold feed
    rw [hInput]
    exact hs
  · have hb : s.input ++ x = t.input ++ y := congrArg Ssh.input h
    rw [hb, hInput, nil_append]

lemma takePacket_wire {send : UInt8 × Bytes} (hs : Synced s r) (hSendable : Sendable send.2)
    (hSent : sendAll s (send :: sends) = .ok (final, frames)) (hq : Quiet r frames) :
    ∃ next taken later packet,
      takePacket (feed r (wire frames)) = .ok (feed taken (wire later), some packet) ∧
      packet.payload = send.2 ∧ Synced next (tick taken) ∧
      sendAll next sends = .ok (final, later) ∧ Quiet (tick taken) later ∧
      sshPacketNeedRekeying taken 0 = false := by
  obtain ⟨extraPad, payload⟩ := send
  obtain ⟨next, frame, later, hSend, hl, rfl⟩ := sendAll_cons hSent
  obtain ⟨hw, hDue, hr⟩ := hq
  have hc : ¬ (r.read.state.packets + 1 = 0 ∧ r.bugNorekey = false) := by
    rintro ⟨hz, hBug⟩
    rw [hw hz] at hBug
    cases hBug
  have hSynced' : Synced { s with extraPad } r :=
    ⟨hs.newkeys, hs.state, hs.inStep, hs.packlen, hs.packetDiscard, hs.input⟩
  obtain ⟨context, incomingPacket, packet, hTake, hPkt, hk, hState, hStep⟩ :=
    takePacket_frame hSynced' hSendable hSend hc
  have ht := takePacket_feed hTake (wire later)
  rw [feed_feed] at ht
  refine ⟨next, _, later, packet, ht, hPkt, ?_, hl, hr.of_buffers context incomingPacket [] 0, hDue⟩
  · constructor
    · exact hs.newkeys.trans hk.symm
    · rw [hState]
      change r.read.state.count frame.len r.read.newkeys.blockSize = _
      rw [hs.state, hs.newkeys]
    · rw [hk]
      exact hStep
    · rfl
    · exact hs.packetDiscard
    · rfl

lemma sshPacketReadPoll2_none (hd : v.packetDiscard = 0)
    (h : takePacket v = .ok (waiting, none)) : sshPacketReadPoll2 v = .ok (waiting, none, []) := by
  unfold sshPacketReadPoll2
  rw [if_neg (not_not.2 hd), h]

lemma sshPacketReadPoll2_some {packet : Received} (hd : v.packetDiscard = 0)
    (h : takePacket v = .ok (next, some packet)) (hDue : sshPacketNeedRekeying next 0 = false) :
    sshPacketReadPoll2 v = .ok (tick next, some packet, []) := by
  unfold sshPacketReadPoll2
  rw [if_neg (not_not.2 hd), h]
  simp only [rekeyAfterRead, hDue]
  rfl

lemma drain_underway {seen : Bytes} (hFuel : sends.length < fuel) (hs : Synced s r)
    (hSend : ∀ send ∈ sends, Sendable send.2) (hSent : sendAll s sends = .ok (final, frames))
    (hq : Quiet r frames) (hSame : takePacket v = takePacket (feed r seen))
    (hd : v.packetDiscard = 0) (hCut : seen ++ rest = wire frames) :
    ∃ waiting packets left, drain fuel v = .ok (waiting, packets) ∧
      sends.map Prod.snd = packets.map Received.payload ++ left.map Prod.snd ∧
      Underway final left rest waiting := by
  induction sends generalizing v s r seen frames fuel with
  | nil =>
    cases hSent
    obtain ⟨rfl, rfl⟩ := append_eq_nil_iff.1 hCut
    have hi : takePacket (feed r []) = .ok (r, none) := by
      rw [feed_nil]
      exact takePacket_idle hs
    have hp := sshPacketReadPoll2_none hd (hSame.trans hi)
    obtain ⟨fuel, rfl⟩ : ∃ m, fuel = m + 1 := ⟨fuel - 1, by omega⟩
    refine ⟨r, [], [], ?_, rfl, hs, hSend, rfl, hq, hi, rfl⟩
    unfold drain
    rw [hp]
    rfl
  | cons send sends ih =>
    obtain ⟨fuel, rfl⟩ : ∃ m, fuel = m + 1 := ⟨fuel - 1, by omega⟩
    obtain ⟨next, taken, later, packet, ht, hPkt, hn, hl, hr, hDue⟩ :=
      takePacket_wire hs (hSend send mem_cons_self) hSent hq
    rw [← hCut, ← feed_feed] at ht
    cases hStep : takePacket (feed r seen) with
    | error halt =>
      obtain ⟨other, ho⟩ := takePacket_error hStep rest
      rw [ho] at ht
      cases ht
    | ok out =>
      obtain ⟨after, found⟩ := out
      cases found with
      | none =>
        have hp := sshPacketReadPoll2_none hd (hSame.trans hStep)
        refine ⟨after, [], send :: sends, ?_, rfl, hs, hSend, hSent, hq, hStep, hCut⟩
        unfold drain
        rw [hp]
        rfl
      | some found =>
        rw [takePacket_feed hStep rest] at ht
        obtain ⟨hState, hf⟩ := Prod.mk.inj (Except.ok.inj ht)
        cases hf
        obtain ⟨ha, hb⟩ := feed_eq_feed hState hn.input
        have hDueAfter : sshPacketNeedRekeying after 0 = false := by
          rw [ha]
          exact hDue
        have hp := sshPacketReadPoll2_some hd (hSame.trans hStep) hDueAfter
        have hTick : takePacket (tick after) = takePacket (feed (tick taken) after.input) :=
          congrArg (fun s => takePacket (tick s)) ha
        have hk : (tick after).packetDiscard = 0 := by
          rw [ha]
          exact hn.packetDiscard
        have hLess : sends.length < fuel := by
          rw [length_cons] at hFuel
          omega
        obtain ⟨waiting, packets, left, hDrain, hPkts, hu⟩ :=
          ih hLess hn (fun other ho => hSend other (.tail _ ho)) hl hr hTick hk hb
        refine ⟨waiting, packet :: packets, left, ?_, ?_, hu⟩
        · unfold drain
          rw [hp, ok_bind]
          dsimp only
          rw [hDrain]
          rfl
        · rw [map_cons, map_cons, hPkts, hPkt, cons_append]

lemma takePacket_waiting (h : takePacket s = .ok (waiting, none)) :
    waiting.packetDiscard = s.packetDiscard := by
  cases takePacket_taking h with
  | short => rfl
  | waits hLen => exact (readLength_some hLen).2.2

lemma receive_underway {segments : List Bytes} (hFuel : sends.length < fuel)
    (h : Underway final sends segments.flatten waiting) :
    ∃ after packets left, receive fuel waiting segments = .ok (after, packets) ∧
      sends.map Prod.snd = packets.map Received.payload ++ left.map Prod.snd ∧
      Underway final left [] after := by
  induction segments generalizing waiting sends with
  | nil => exact ⟨waiting, [], sends, rfl, rfl, h⟩
  | cons segment segments ih =>
    obtain ⟨hs, hSend, hSent, hq, hw, hCut⟩ := h
    have hd : waiting.packetDiscard = 0 :=
      (takePacket_waiting hw).trans hs.packetDiscard
    have hr := takePacket_resume hw segment
    rw [feed_feed] at hr
    rw [flatten_cons, ← append_assoc] at hCut
    obtain ⟨next, first, middle, hDrain, hf, hu⟩ :=
      drain_underway hFuel hs hSend hSent hq hr hd hCut
    have hShorter : middle.length ≤ sends.length := by
      have hl := congrArg List.length hf
      simp only [length_map, length_append] at hl
      omega
    obtain ⟨after, rest, left, hRest, hm, hLast⟩ := ih (by omega) hu
    refine ⟨after, first ++ rest, left, ?_, ?_, hLast⟩
    · unfold receive
      rw [sshPacketProcessIncoming, if_neg (not_not.2 hd), ok_bind]
      change (do
        let (s, first) ← drain fuel (feed waiting segment)
        let (s, rest) ← receive fuel s segments
        return (s, first ++ rest)) = _
      rw [hDrain, ok_bind]
      dsimp only
      rw [hRest]
      rfl
    · rw [hf, hm, map_append, append_assoc]

lemma Underway.finish {after : Ssh Ctx} {left : List (UInt8 × Bytes)}
    (h : Underway final left [] after) : left = [] ∧ Synced final after := by
  obtain ⟨hs, hSend, hSent, hq, hw, hCut⟩ := h
  rw [append_nil] at hCut
  cases left with
  | nil =>
    cases hSent
    rw [hCut, show wire [] = [] from rfl, feed_nil, takePacket_idle hs] at hw
    cases hw
    exact ⟨rfl, hs⟩
  | cons send left =>
    obtain ⟨next, taken, later, packet, ht, -⟩ :=
      takePacket_wire hs (hSend send mem_cons_self) hSent hq
    rw [hCut, ht] at hw
    cases hw

/-- Packets sent one after the other arrive as they were sent, however the bytes are
cut, and the two sides end level, as they started. -/
theorem receive_sendAll {s r final : Ssh Ctx} {sends : List (UInt8 × Bytes)} {frames : List Frame}
    {segments : List Bytes} {fuel : Nat} (hSynced : Synced s r)
    (hSendable : ∀ send ∈ sends, Sendable send.2) (hSent : sendAll s sends = .ok (final, frames))
    (hQuiet : Quiet r frames) (hCut : final.output = s.output ++ segments.flatten)
    (hFuel : sends.length < fuel) : ∃ after packets, receive fuel r segments = .ok (after, packets) ∧
      packets.map Received.payload = sends.map Prod.snd ∧ Synced final after := by
  have hBytes : segments.flatten = wire frames := by
    rw [sendAll_output hSendable hSent] at hCut
    exact (append_cancel_left hCut).symm
  have hIdle : takePacket (feed r []) = .ok (r, none) := by
    rw [feed_nil]
    exact takePacket_idle hSynced
  have hStart : Underway final sends segments.flatten r :=
    ⟨hSynced, hSendable, hSent, hQuiet, hIdle, hBytes⟩
  obtain ⟨after, packets, left, hReceive, hPackets, hEnd⟩ := receive_underway hFuel hStart
  obtain ⟨rfl, hLevel⟩ := hEnd.finish
  rw [map_nil, append_nil] at hPackets
  exact ⟨after, packets, hReceive, hPackets.symm, hLevel⟩

/-- Two packets, the second with extra padding, cut inside the first block. -/
theorem receive_sendAll_shift :
    ∃ final frames, sendAll shiftSession [(0, [90, 1, 2]), (32, [94])] = .ok (final, frames) ∧
      final.output.length = 50 ∧ ∃ after packets,
        receive 3 shiftSession [final.output.take 5, final.output.drop 5] = .ok (after, packets) ∧
        packets.map Received.payload = [[90, 1, 2], [94]] ∧ Synced final after := by
  have hSynced : Synced shiftSession shiftSession :=
    ⟨rfl, rfl, Eq.refl (0 : UInt8), rfl, rfl, rfl⟩
  have hSendable : ∀ send ∈ [((0 : UInt8), ([90, 1, 2] : Bytes)), (32, [94])], Sendable send.2 := by
    intro send hSend
    simp only [mem_cons, not_mem_nil, or_false] at hSend
    rcases hSend with rfl | rfl
    · refine ⟨by decide, by decide, ?_⟩
      rintro _ _ ⟨⟩
      decide
    · refine ⟨by decide, by decide, ?_⟩
      rintro _ _ ⟨⟩
      decide
  refine ⟨_, _, rfl, by decide +kernel, ?_⟩
  apply receive_sendAll hSynced hSendable rfl
  · exact ⟨by decide, rfl, by decide, rfl, trivial⟩
  · rfl
  · decide

end Packet
