import Sshfortress.Packet.Send

/-! Receiving. Bytes arrive in any portions; the length of a packet is read as soon
as it can be, and is kept until the rest of the packet is there. -/
namespace Packet

open Base Base.Wire Base.Cipher List

variable {Ctx : Type}

/-- A packet that was accepted, under which key and number. -/
structure Received where
  type : UInt8
  rest : Bytes
  key : Option Nat
  seqnr : UInt32
  deriving DecidableEq

def Received.payload (p : Received) : Bytes := p.type :: p.rest

/-- Why no packet will come any more: an error, or a damaged packet under a cipher
for which a fixed number of bytes is first read and thrown away. -/
inductive Halt (Ctx : Type) where
  | err (code : Err)
  | discarding (s : Ssh Ctx)

def sshPacketStartDiscard (s : Ssh Ctx) (discard : Nat) : Halt Ctx :=
  match s.read.newkeys with
  | some ⟨_, .mac _ true _ false, _, _, _⟩ =>
    if discard ≤ s.input.length then .err .macInvalid
    else .discarding { s with packetDiscard := discard - s.input.length }
  | _ => .err .macInvalid

def cipherDecrypt (k : Keys Ctx) (ctx : Ctx) (seqnr : UInt32) (aadlen : Nat) (src : Bytes) :
    Except (Halt Ctx) (Ctx × Bytes) :=
  match k with
  | none => .ok (ctx, src)
  | some ⟨_, .mac cipher _ _ _, _, _, _⟩ =>
    let text := src.drop aadlen
    if text.length % cipher.blockSize ≠ 0 then .error (.err .invalidArgument)
    else
      let out := cipher.blocks cipher.decrypt (text.length / cipher.blockSize) ctx text
      .ok (out.1, src.take aadlen ++ out.2)
  | some ⟨_, .aead cipher _, _, _, _⟩ =>
    match cipher.decrypt ctx seqnr aadlen src with
    | none => .error (.err .macInvalid)
    | some out => .ok out

def cipherGetLength (k : Keys Ctx) (ctx : Ctx) (seqnr : UInt32) (cp : Bytes) : Nat :=
  match k with
  | some ⟨_, .aead cipher _, _, _, _⟩ => cipher.getLength ctx seqnr (cp.take 4)
  | _ => value (cp.take 4)

def badLength (packlen : Nat) : Bool := packlen < 1 + 4 || packetMaxSize < packlen

variable {packlen : Nat} {x : Bytes} {now later : Except (Halt Ctx) (Option (Ssh Ctx))}
  {out : Except (Halt Ctx) (Ssh Ctx × Option Received)} {found : Option Received}
  {frames : List Frame}

lemma badLength_eq_false : badLength packlen = false ↔ 5 ≤ packlen ∧ packlen ≤ packetMaxSize := by
  simp [badLength]

/-- The length of the packet, if it is known or can be read now. The first block is
decrypted for it with the number of the other direction, which block ciphers ignore. -/
def readLength (s : Ssh Ctx) : Except (Halt Ctx) (Option (Ssh Ctx)) :=
  let k := s.read.newkeys
  if s.packlen ≠ 0 then .ok (some s)
  else if k.aadlen ≠ 0 then
    if s.input.length < 4 then .ok none
    else
      let packlen := cipherGetLength k s.read.context s.read.state.seqnr s.input
      if badLength packlen then .error (.err .connCorrupt)
      else .ok (some { s with packlen, incomingPacket := [] })
  else if s.input.length < k.blockSize then .ok none
  else do
    let (context, block) ← cipherDecrypt k s.read.context s.send.state.seqnr 0 (s.input.take k.blockSize)
    let packlen := value (block.take 4)
    let s := { s with read := { s.read with context }, incomingPacket := block, packlen }
    if badLength packlen then .error (sshPacketStartDiscard s packetMaxSize)
    else .ok (some { s with input := s.input.drop k.blockSize })

/-- The code over the encrypted packet is checked before anything is decrypted. -/
def macCheckEncrypted (k : Keys Ctx) (seqnr : UInt32) (encrypted mac : Bytes) : Bool :=
  match k with
  | some ⟨_, .mac _ _ m true, _, _, _⟩ => m.compute seqnr encrypted = mac
  | _ => true

def macCheckClear (k : Keys Ctx) (seqnr : UInt32) (clear mac : Bytes) : Bool :=
  match k with
  | some ⟨_, .mac _ _ m false, _, _, _⟩ => m.compute seqnr clear = mac
  | _ => true

/-- The encrypted bytes still to come, in an `u_int`. -/
def needed (s : Ssh Ctx) : Nat :=
  let k := s.read.newkeys
  if k.aadlen ≠ 0 then s.packlen else (4 + s.packlen + 2 ^ 32 - k.blockSize) % 2 ^ 32

/-- Decrypt the rest of a packet and check its code, if all of it is there. -/
def openPacket (s : Ssh Ctx) : Except (Halt Ctx) (Option (Ssh Ctx)) :=
  let k := s.read.newkeys
  let seqnr := s.read.state.seqnr
  let need := needed s
  let total := k.aadlen + need + k.authlen
  if need % k.blockSize ≠ 0 then
    .error (sshPacketStartDiscard s (packetMaxSize - k.blockSize))
  else if s.input.length < total + k.maclen then .ok none
  else
    let mac := (s.input.drop total).take k.maclen
    if macCheckEncrypted k seqnr (s.input.take (k.aadlen + need)) mac = false then
      .error (.err .macInvalid)
    else do
      let (context, text) ← cipherDecrypt k s.read.context seqnr k.aadlen (s.input.take total)
      let opened := { s with
        read := { s.read with context }
        incomingPacket := s.incomingPacket ++ text
        input := s.input.drop (total + k.maclen) }
      if macCheckClear k seqnr opened.incomingPacket mac = false then
        if packetMaxSize < need then .error (.err .internalError)
        else .error (sshPacketStartDiscard { opened with input := s.input.drop total }
          (packetMaxSize - need))
      else .ok (some opened)

def countRead (s : Ssh Ctx) (len : Nat) : Except Err (Ssh Ctx) :=
  let state := s.read.state
  if state.packets + 1 = 0 ∧ s.bugNorekey = false then .error .needRekey
  else .ok { s with read := { s.read with state := {
    seqnr := state.seqnr + 1
    packets := state.packets + 1
    blocks := state.blocks + UInt64.ofNat (len / s.read.newkeys.blockSize)
    bytes := state.bytes + UInt64.ofNat len } } }

/-- What the type of an accepted packet does to the session. -/
def finishRead (s : Ssh Ctx) (type : UInt8) : Except Err (Ssh Ctx) :=
  if type = msgNewkeys then sshSetNewkeysIn s
  else if type = msgUserauthSuccess ∧ s.serverSide = false then
    .ok { s with afterAuthentication := true }
  else .ok s

/-- The type and the rest of an opened packet, without header and padding. -/
def unpack (incoming : Bytes) : Except Err (UInt8 × Bytes) :=
  let padlen := (incoming.getD 4 0).toNat
  if padlen < 4 then .error .connCorrupt
  else if incoming.length < 4 + 1 + padlen then .error .messageIncomplete
  else
    match (incoming.drop 5).take (incoming.length - 5 - padlen) with
    | [] => .error .messageIncomplete
    | type :: rest =>
      if type < msgMin ∨ msgLocalMin ≤ type then .error .protocolError else .ok (type, rest)

/-- An opened packet is counted, unpacked and takes effect. -/
def acceptPacket (s : Ssh Ctx) : Except Err (Ssh Ctx × Received) := do
  let counted ← countRead s (s.packlen + 4)
  let (type, rest) ← unpack s.incomingPacket
  let finished ← finishRead { counted with incomingPacket := rest } type
  return ({ finished with packlen := 0 }, ⟨type, rest, s.read.newkeys.map Newkeys.id, s.read.state.seqnr⟩)

/-- Take one packet out of the input, if there is one. -/
def takePacket (s : Ssh Ctx) : Except (Halt Ctx) (Ssh Ctx × Option Received) := do
  match ← readLength s with
  | none => return (s, none)
  | some known =>
    match ← openPacket known with
    | none => return (known, none)
    | some opened =>
      let (s, packet) ← (acceptPacket opened).mapError .err
      return (s, some packet)

def rekeyAfterRead (s : Ssh Ctx) : Except Err (Ssh Ctx × List Frame) :=
  if sshPacketNeedRekeying s 0 then kexStartRekex (tick s) else .ok (tick s, [])

/-- One call: the packet that was read, if any, and what was sent on the way. -/
def sshPacketReadPoll2 (s : Ssh Ctx) : Except Err (Ssh Ctx × Option Received × List Frame) :=
  if s.packetDiscard ≠ 0 then .ok (s, none, [])
  else
    match takePacket s with
    | .error (.err code) => .error code
    | .error (.discarding s) => .ok (s, none, [])
    | .ok (s, none) => .ok (s, none, [])
    | .ok (s, some packet) => do
      let (s, frames) ← rekeyAfterRead s
      return (s, some packet, frames)

def sshPacketProcessIncoming (s : Ssh Ctx) (buf : Bytes) : Except Err (Ssh Ctx) :=
  if s.packetDiscard ≠ 0 then
    if s.packetDiscard ≤ buf.length then .error .macInvalid
    else .ok { s with packetDiscard := s.packetDiscard - buf.length }
  else .ok { s with input := s.input ++ buf }

/-! More input never changes what was read before it. -/

def feed (s : Ssh Ctx) (x : Bytes) : Ssh Ctx := { s with input := s.input ++ x }

/-- How the outcome of a step with more input relates to the one without: a step that
waited may do anything, all others are settled. -/
inductive Extends (x : Bytes) : Except (Halt Ctx) (Option (Ssh Ctx)) →
    Except (Halt Ctx) (Option (Ssh Ctx)) → Prop where
  | wait {later : Except (Halt Ctx) (Option (Ssh Ctx))} : Extends x (.ok none) later
  | read {s : Ssh Ctx} : Extends x (.ok (some s)) (.ok (some (feed s x)))
  | halt {now later : Halt Ctx} : Extends x (.error now) (.error later)

variable {s next known opened : Ssh Ctx} {halt : Halt Ctx} {packet : Received}

lemma Extends.eq_of_read (h : Extends x now later) (hr : now = .ok (some s)) :
    later = .ok (some (feed s x)) := by
  subst hr
  cases h
  rfl

lemma Extends.eq_of_halt (h : Extends x now later) (hh : now = .error halt) :
    ∃ other, later = .error other := by
  subst hh
  cases h
  exact ⟨_, rfl⟩

lemma cipherGetLength_append (k : Keys Ctx) (ctx : Ctx) (seqnr : UInt32) (cp x : Bytes)
    (h : 4 ≤ cp.length) : cipherGetLength k ctx seqnr (cp ++ x) = cipherGetLength k ctx seqnr cp := by
  unfold cipherGetLength
  rw [take_append_of_le_length h]

lemma ne_zero_of_badLength (h : ¬ badLength packlen = true) : packlen ≠ 0 := by
  rw [Bool.not_eq_true, badLength_eq_false] at h
  omega

lemma readLength_extends (s : Ssh Ctx) (x : Bytes) : Extends x (readLength s) (readLength (feed s x)) := by
  unfold readLength
  dsimp +instances only [feed]
  by_cases hk : s.packlen ≠ 0
  · simp only [if_pos hk]
    exact .read
  simp only [if_neg hk]
  by_cases hAad : s.read.newkeys.aadlen ≠ 0
  · simp only [if_pos hAad]
    by_cases hs : s.input.length < 4
    · rw [if_pos hs]
      exact .wait
    have hl : ¬ (s.input ++ x).length < 4 := by
      rw [length_append]
      omega
    rw [if_neg hs, if_neg hl, cipherGetLength_append _ _ _ _ _ (by omega)]
    split_ifs with hBad
    · exact .halt
    · exact .read
  simp only [if_neg hAad]
  by_cases hs : s.input.length < s.read.newkeys.blockSize
  · rw [if_pos hs]
    exact .wait
  have hf : (s.input ++ x).take s.read.newkeys.blockSize =
    s.input.take s.read.newkeys.blockSize := take_append_of_le_length (by omega)
  have hb : (s.input ++ x).drop s.read.newkeys.blockSize =
    s.input.drop s.read.newkeys.blockSize ++ x := drop_append_of_le_length (by omega)
  have hl : ¬ (s.input ++ x).length < s.read.newkeys.blockSize := by
    rw [length_append]
    omega
  rw [if_neg hs, if_neg hl, hf, hb]
  cases cipherDecrypt s.read.newkeys s.read.context s.send.state.seqnr 0
    (s.input.take s.read.newkeys.blockSize) with
  | error halt => exact .halt
  | ok out =>
    simp only [ok_bind]
    split_ifs with hBad
    · exact .halt
    · exact .read

structure ReadKept (s next : Ssh Ctx) : Prop where
  bugNorekey : next.bugNorekey = s.bugNorekey
  send : next.send = s.send
  rekeying : next.rekeying = s.rekeying
  outgoing : next.outgoing = s.outgoing
  kex : next.kex = { s.kex with newkeysIn := next.kex.newkeysIn }

/-- Until a packet is complete, neither keys nor counters change. -/
structure Opening (s next : Ssh Ctx) : Prop extends ReadKept s next where
  newkeys : next.read.newkeys = s.read.newkeys
  state : next.read.state = s.read.state
  newkeysIn : next.kex.newkeysIn = s.kex.newkeysIn

lemma Opening.refl (s : Ssh Ctx) : Opening s s := ⟨⟨rfl, rfl, rfl, rfl, rfl⟩, rfl, rfl, rfl⟩

lemma readLength_some (h : readLength s = .ok (some known)) :
    Opening s known ∧ known.packlen ≠ 0 ∧ known.packetDiscard = s.packetDiscard := by
  have hs : Opening s s := .refl s
  rw [readLength] at h
  dsimp only at h
  split_ifs at h with hk hAad hShort hBad hBlock
  · cases h
    exact ⟨hs, hk, rfl⟩
  · cases h
  · cases h
    exact ⟨{ hs with }, ne_zero_of_badLength hBad, rfl⟩
  · cases h
  · obtain ⟨⟨context, block⟩, -, h⟩ := bind_eq_ok.1 h
    split_ifs at h with hBad
    cases h
    exact ⟨{ hs with }, ne_zero_of_badLength hBad, rfl⟩

lemma readLength_known (h : readLength s = .ok (some known)) (x : Bytes) :
    readLength (feed known x) = .ok (some (feed known x)) :=
  if_pos (readLength_some h).2.1

variable (s)

lemma openPacket_extends (x : Bytes) : Extends x (openPacket s) (openPacket (feed s x)) := by
  have hNeeded : needed (feed s x) = needed s := rfl
  simp only [openPacket, hNeeded]
  dsimp +instances only [feed]
  by_cases hb : needed s % s.read.newkeys.blockSize ≠ 0
  · simp only [if_pos hb]
    exact .halt
  simp only [if_neg hb]
  by_cases hs : s.input.length < s.read.newkeys.aadlen + needed s + s.read.newkeys.authlen +
    s.read.newkeys.maclen
  · rw [if_pos hs]
    exact .wait
  have hl : ¬ (s.input ++ x).length < s.read.newkeys.aadlen + needed s + s.read.newkeys.authlen +
    s.read.newkeys.maclen := by
    rw [length_append]
    omega
  rw [if_neg hs, if_neg hl]
  -- All bytes that are looked at were there before.
  have hd : ∀ n ≤ s.input.length, (s.input ++ x).drop n = s.input.drop n ++ x :=
    fun n hn => drop_append_of_le_length hn
  have hh : (s.input ++ x).take (s.read.newkeys.aadlen + needed s) =
    s.input.take (s.read.newkeys.aadlen + needed s) := take_append_of_le_length (by omega)
  have ht : (s.input ++ x).take (s.read.newkeys.aadlen + needed s + s.read.newkeys.authlen) =
    s.input.take (s.read.newkeys.aadlen + needed s + s.read.newkeys.authlen) :=
    take_append_of_le_length (by omega)
  have hr := hd (s.read.newkeys.aadlen + needed s + s.read.newkeys.authlen +
    s.read.newkeys.maclen) (by omega)
  have hMac : ((s.input ++ x).drop (s.read.newkeys.aadlen + needed s + s.read.newkeys.authlen)).take
    s.read.newkeys.maclen =
    (s.input.drop (s.read.newkeys.aadlen + needed s + s.read.newkeys.authlen)).take
      s.read.newkeys.maclen := by
    rw [hd _ (by omega), take_append_of_le_length]
    rw [length_drop]
    omega
  simp only [hMac, hh, ht, hr]
  cases cipherDecrypt s.read.newkeys s.read.context s.read.state.seqnr s.read.newkeys.aadlen
    (s.input.take (s.read.newkeys.aadlen + needed s + s.read.newkeys.authlen)) with
  | error halt =>
    split
    · exact .halt
    · exact .halt
  | ok out =>
    simp only [ok_bind]
    split_ifs
    · exact .halt
    · exact .halt
    · exact .halt
    · exact .read

/-! What an accepted packet does has nothing to do with the bytes behind it. -/

lemma countRead_feed (len : Nat) (x : Bytes) :
    countRead (feed s x) len = (countRead s len).map fun counted => feed counted x := by
  unfold countRead
  rw [apply_ite (Except.map _)]
  rfl

lemma finishRead_feed (type : UInt8) (x : Bytes) :
    finishRead (feed s x) type = (finishRead s type).map fun finished => feed finished x := by
  have hk : sshSetNewkeysIn (feed s x) = (sshSetNewkeysIn s).map fun finished => feed finished x := by
    have hKex : (feed s x).kex = s.kex := rfl
    rw [sshSetNewkeysIn, sshSetNewkeysIn, hKex]
    cases s.kex.newkeysIn with
    | none => rfl
    | some k => rfl
  unfold finishRead
  rw [apply_ite (Except.map _), apply_ite (Except.map _), hk]
  rfl

lemma acceptPacket_feed (x : Bytes) :
    acceptPacket (feed s x) = (acceptPacket s).map fun out => (feed out.1 x, out.2) := by
  unfold acceptPacket
  have hp : (feed s x).packlen = s.packlen := rfl
  have hi : (feed s x).incomingPacket = s.incomingPacket := rfl
  rw [hp, hi, countRead_feed]
  cases countRead s (s.packlen + 4) with
  | error code => rfl
  | ok counted =>
    simp only [Except.map, ok_bind]
    cases unpack s.incomingPacket with
    | error code => rfl
    | ok out =>
      have hf := finishRead_feed { counted with incomingPacket := out.2 } out.1 x
      have hs : { feed counted x with incomingPacket := out.2 } =
        feed { counted with incomingPacket := out.2 } x := rfl
      simp only [ok_bind, hs, hf]
      cases finishRead { counted with incomingPacket := out.2 } out.1 with
      | error code => rfl
      | ok finished => rfl

variable {s}

/-- How far one packet gets. -/
inductive Taking (s : Ssh Ctx) : Except (Halt Ctx) (Ssh Ctx × Option Received) → Prop where
  | unsized {halt : Halt Ctx} (h : readLength s = .error halt) : Taking s (.error halt)
  | short (h : readLength s = .ok none) : Taking s (.ok (s, none))
  | unopened {known : Ssh Ctx} {halt : Halt Ctx} (hLength : readLength s = .ok (some known))
      (h : openPacket known = .error halt) : Taking s (.error halt)
  | waits {known : Ssh Ctx} (hLength : readLength s = .ok (some known))
      (h : openPacket known = .ok none) : Taking s (.ok (known, none))
  | refused {known opened : Ssh Ctx} {code : Err} (hLength : readLength s = .ok (some known))
      (hOpen : openPacket known = .ok (some opened)) (h : acceptPacket opened = .error code) :
      Taking s (.error (.err code))
  | taken {known opened next : Ssh Ctx} {packet : Received}
      (hLength : readLength s = .ok (some known)) (hOpen : openPacket known = .ok (some opened))
      (h : acceptPacket opened = .ok (next, packet)) : Taking s (.ok (next, some packet))

lemma Taking.eq (h : Taking s out) : takePacket s = out := by
  unfold takePacket
  cases h with
  | unsized h => simp only [h]; rfl
  | short h => simp only [h]; rfl
  | unopened hLength h => simp only [hLength, ok_bind, h]; rfl
  | waits hLength h => simp only [hLength, ok_bind, h]; rfl
  | refused hLength hOpen h => simp only [hLength, ok_bind, hOpen, h]; rfl
  | taken hLength hOpen h => simp only [hLength, ok_bind, hOpen, h]; rfl

lemma takePacket_taking (h : takePacket s = out) : Taking s out := by
  suffices hOut : ∃ out, Taking s out by
    obtain ⟨out, ht⟩ := hOut
    rw [← h, ht.eq]
    exact ht
  cases hLength : readLength s with
  | error halt => exact ⟨_, .unsized hLength⟩
  | ok found =>
    cases found with
    | none => exact ⟨_, .short hLength⟩
    | some known =>
      cases hOpen : openPacket known with
      | error halt => exact ⟨_, .unopened hLength hOpen⟩
      | ok body =>
        cases body with
        | none => exact ⟨_, .waits hLength hOpen⟩
        | some opened =>
          cases ha : acceptPacket opened with
          | error code => exact ⟨_, .refused hLength hOpen ha⟩
          | ok out => exact ⟨_, .taken hLength hOpen ha⟩

/-- A packet that was taken is taken in the same way with more behind it. -/
lemma takePacket_feed (h : takePacket s = .ok (next, some packet)) (x : Bytes) :
    takePacket (feed s x) = .ok (feed next x, some packet) := by
  cases takePacket_taking h with
  | taken hLength hOpen ha =>
    have hk := (readLength_extends s x).eq_of_read hLength
    refine (Taking.taken hk ((openPacket_extends _ x).eq_of_read hOpen) ?_).eq
    rw [acceptPacket_feed, ha]
    rfl

/-- A session that waits for the rest of a packet goes on as if it had all of it at once. -/
lemma takePacket_resume {waiting : Ssh Ctx} (h : takePacket s = .ok (waiting, none)) (x : Bytes) :
    takePacket (feed waiting x) = takePacket (feed s x) := by
  cases takePacket_taking h with
  | short => rfl
  | waits hLength hOpen =>
    unfold takePacket
    rw [(readLength_extends s x).eq_of_read hLength, readLength_known hLength x]
    rfl

/-- A session that stopped would have stopped with more input as well. -/
lemma takePacket_error (h : takePacket s = .error halt) (x : Bytes) :
    ∃ other, takePacket (feed s x) = .error other := by
  have hk := readLength_extends s x
  cases takePacket_taking h with
  | unsized hLength =>
    obtain ⟨other, ho⟩ := hk.eq_of_halt hLength
    exact ⟨other, (Taking.unsized ho).eq⟩
  | unopened hLength hOpen =>
    obtain ⟨other, ho⟩ := (openPacket_extends _ x).eq_of_halt hOpen
    exact ⟨other, (Taking.unopened (hk.eq_of_read hLength) ho).eq⟩
  | refused hLength hOpen ha =>
    have hOpened := (openPacket_extends _ x).eq_of_read hOpen
    have hAcc := (acceptPacket_feed _ x).trans (congrArg (Except.map _) ha)
    exact ⟨_, (Taking.refused (hk.eq_of_read hLength) hOpened hAcc).eq⟩

/-! What reading does to a session. -/

lemma openPacket_opening (h : openPacket s = .ok (some opened)) : Opening s opened := by
  rw [openPacket] at h
  dsimp only at h
  split at h
  · cases h
  split at h
  · cases h
  split at h
  · cases h
  obtain ⟨⟨context, text⟩, -, h⟩ := bind_eq_ok.1 h
  split_ifs at h
  cases h
  exact ⟨⟨rfl, rfl, rfl, rfl, rfl⟩, rfl, rfl, rfl⟩

/-- A packet is accepted under the key and the number of the moment; only a NEWKEYS
message changes the key, and then the packets under it are counted from zero. -/
structure Accepted (s next : Ssh Ctx) (packet : Received) : Prop extends ReadKept s next where
  key : packet.key = s.read.newkeys.map Newkeys.id
  seqnr : packet.seqnr = s.read.state.seqnr
  counted : ¬ (s.read.state.packets + 1 = 0 ∧ s.bugNorekey = false)
  next_seqnr : next.read.state.seqnr = s.read.state.seqnr + 1
  next_keys : packet.type ≠ msgNewkeys ∧ next.read.newkeys = s.read.newkeys ∧
      next.read.state.packets = s.read.state.packets + 1 ∧
      next.kex.newkeysIn = s.kex.newkeysIn ∨
    packet.type = msgNewkeys ∧ ∃ k, s.kex.newkeysIn = some k ∧ next.read.newkeys = some k ∧
      next.read.state.packets = 0 ∧ next.kex.newkeysIn = none

lemma acceptPacket_accepted (h : acceptPacket s = .ok (next, packet)) : Accepted s next packet := by
  obtain ⟨counted, hc, h⟩ := bind_eq_ok.1 h
  obtain ⟨⟨type, rest⟩, -, h⟩ := bind_eq_ok.1 h
  obtain ⟨finished, hf, h⟩ := bind_eq_ok.1 h
  cases h
  rw [countRead] at hc
  split_ifs at hc with hw
  cases hc
  rw [finishRead] at hf
  split_ifs at hf with hn hSucc
  · rw [sshSetNewkeysIn] at hf
    cases hIn : s.kex.newkeysIn with
    | none =>
      rw [hIn] at hf
      cases hf
    | some k =>
      rw [hIn] at hf
      cases hf
      exact ⟨⟨rfl, rfl, rfl, rfl, rfl⟩, rfl, rfl, hw, rfl, .inr ⟨hn, k, hIn, rfl, rfl, rfl⟩⟩
  · cases hf
    exact ⟨⟨rfl, rfl, rfl, rfl, rfl⟩, rfl, rfl, hw, rfl, .inl ⟨hn, rfl, rfl, rfl⟩⟩
  · cases hf
    exact ⟨⟨rfl, rfl, rfl, rfl, rfl⟩, rfl, rfl, hw, rfl, .inl ⟨hn, rfl, rfl, rfl⟩⟩

lemma Opening.trans {middle : Ssh Ctx} (front : Opening s middle) (back : Opening middle next) :
    Opening s next where
  bugNorekey := back.bugNorekey.trans front.bugNorekey
  send := back.send.trans front.send
  rekeying := back.rekeying.trans front.rekeying
  outgoing := back.outgoing.trans front.outgoing
  kex := by rw [back.kex, front.kex]
  newkeys := back.newkeys.trans front.newkeys
  state := back.state.trans front.state
  newkeysIn := back.newkeysIn.trans front.newkeysIn

lemma Opening.accepted (front : Opening s opened) (back : Accepted opened next packet) :
    Accepted s next packet where
  bugNorekey := back.bugNorekey.trans front.bugNorekey
  send := back.send.trans front.send
  rekeying := back.rekeying.trans front.rekeying
  outgoing := back.outgoing.trans front.outgoing
  kex := by rw [back.kex, front.kex]
  key := by rw [back.key, front.newkeys]
  seqnr := by rw [back.seqnr, front.state]
  counted := by
    rw [← front.state, ← front.bugNorekey]
    exact back.counted
  next_seqnr := by rw [back.next_seqnr, front.state]
  next_keys := by
    rw [← front.newkeys, ← front.state, ← front.newkeysIn]
    exact back.next_keys

lemma takePacket_cases (h : takePacket s = .ok (next, found)) :
    found = none ∧ Opening s next ∨ ∃ packet, found = some packet ∧ Accepted s next packet := by
  cases takePacket_taking h with
  | short => exact .inl ⟨rfl, .refl s⟩
  | waits hLength => exact .inl ⟨rfl, (readLength_some hLength).1⟩
  | taken hLength hOpen ha =>
    have ho := (readLength_some hLength).1.trans (openPacket_opening hOpen)
    exact .inr ⟨_, rfl, ho.accepted (acceptPacket_accepted ha)⟩

structure Discarding (s next : Ssh Ctx) : Prop extends Opening s next where
  packetDiscard : next.packetDiscard ≠ 0

lemma sshPacketStartDiscard_discarding {discard : Nat}
    (h : sshPacketStartDiscard s discard = .discarding next) : Discarding s next := by
  rw [sshPacketStartDiscard] at h
  split at h
  · split_ifs at h with hAll
    cases h
    exact ⟨⟨⟨rfl, rfl, rfl, rfl, rfl⟩, rfl, rfl, rfl⟩, Nat.sub_ne_zero_of_lt (Nat.lt_of_not_le hAll)⟩
  · cases h

lemma Discarding.after (back : Discarding opened next) (front : Opening s opened) : Discarding s next :=
  ⟨front.trans back.toOpening, back.packetDiscard⟩

lemma cipherDecrypt_error {k : Keys Ctx} {ctx : Ctx} {seqnr : UInt32} {aadlen : Nat} {src : Bytes}
    (h : cipherDecrypt k ctx seqnr aadlen src = .error halt) : ∃ code, halt = .err code := by
  unfold cipherDecrypt at h
  split at h
  · cases h
  · dsimp only at h
    split_ifs at h
    cases h
    exact ⟨_, rfl⟩
  · split at h
    · cases h
      exact ⟨_, rfl⟩
    · cases h

lemma readLength_discarding (h : readLength s = .error (.discarding next)) : Discarding s next := by
  rw [readLength] at h
  dsimp only at h
  split_ifs at h
  · cases h
  obtain hDec | ⟨out, -, h⟩ := bind_eq_error.1 h
  · obtain ⟨code, hc⟩ := cipherDecrypt_error hDec
    cases hc
  · split_ifs at h
    have hd := sshPacketStartDiscard_discarding (Except.error.inj h)
    exact hd.after ⟨⟨rfl, rfl, rfl, rfl, rfl⟩, rfl, rfl, rfl⟩

lemma openPacket_discarding (h : openPacket s = .error (.discarding next)) : Discarding s next := by
  rw [openPacket] at h
  dsimp only at h
  split at h
  · exact sshPacketStartDiscard_discarding (Except.error.inj h)
  split at h
  · cases h
  split at h
  · cases h
  obtain hDec | ⟨out, -, h⟩ := bind_eq_error.1 h
  · obtain ⟨code, hc⟩ := cipherDecrypt_error hDec
    cases hc
  · split_ifs at h
    · cases h
    · have hd := sshPacketStartDiscard_discarding (Except.error.inj h)
      exact hd.after ⟨⟨rfl, rfl, rfl, rfl, rfl⟩, rfl, rfl, rfl⟩

lemma takePacket_discarding (h : takePacket s = .error (.discarding next)) : Discarding s next := by
  cases takePacket_taking h with
  | unsized hLength => exact readLength_discarding hLength
  | unopened hLength hOpen => exact (openPacket_discarding hOpen).after (readLength_some hLength).1

/-- What one call does: no packet and no change that matters, or a packet and the start
of an exchange if one is due. -/
lemma sshPacketReadPoll2_cases (h : sshPacketReadPoll2 s = .ok (next, found, frames)) :
    found = none ∧ frames = [] ∧ Opening s next ∨
      ∃ packet taken, found = some packet ∧ Accepted s taken packet ∧
        rekeyAfterRead taken = .ok (next, frames) := by
  rw [sshPacketReadPoll2] at h
  split at h
  · cases h
    exact .inl ⟨rfl, rfl, .refl s⟩
  cases ht : takePacket s with
  | error halt =>
    rw [ht] at h
    cases halt with
    | err code => cases h
    | discarding discarding =>
      cases h
      exact .inl ⟨rfl, rfl, (takePacket_discarding ht).toOpening⟩
  | ok out =>
    obtain ⟨taken, packet⟩ := out
    rw [ht] at h
    rcases takePacket_cases ht with ⟨rfl, ho⟩ | ⟨packet, rfl, hAcc⟩
    · cases h
      exact .inl ⟨rfl, rfl, ho⟩
    · obtain ⟨⟨after, sent⟩, hr, h⟩ := bind_eq_ok.1 h
      cases h
      exact .inr ⟨packet, taken, rfl, hAcc, hr⟩

lemma rekeyAfterRead_sends (h : rekeyAfterRead s = .ok (next, frames)) : Sends s frames next := by
  rw [rekeyAfterRead] at h
  split_ifs at h
  · exact .trans (.queue s.rekeying s.outgoing s.rekeyTime (s.readings + 1)) (kexStartRekex_sends h)
  · cases h
    exact .queue s.rekeying s.outgoing s.rekeyTime (s.readings + 1)

end Packet
