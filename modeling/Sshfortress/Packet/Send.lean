import Sshfortress.Packet.Basic

/-! Sending. A packet is padded, protected and appended to the output; while keys
are exchanged, packets that do not belong to the exchange wait in a queue. -/
namespace Packet

open Base Base.Wire Base.Cipher

variable {Ctx : Type}

/-! One packet. -/

/-- A packet on the wire: what it carries, under which key and number, and its bytes.
`len` counts the packet without its authentication. -/
structure Frame where
  payload : Bytes
  key : Option Nat
  seqnr : UInt32
  len : Nat
  bytes : Bytes
  deriving DecidableEq

def minPadding (blockSize len : Nat) : Nat :=
  let padlen := blockSize - len % blockSize
  if padlen < 4 then padlen + blockSize else padlen

/-- The length of the padding in an `u_char`. With extra padding the length is
rounded up further, and a rounding that does not fit is an error. -/
def padLength (blockSize len : Nat) (extraPad : UInt8) : Except Err Nat :=
  let padlen := minPadding blockSize len
  if extraPad = 0 then .ok padlen
  else
    let rounded := roundup extraPad.toNat blockSize % 256
    if rounded < extraPad.toNat then .error .invalidArgument
    else
      let pad := rounded - (len + padlen) % rounded
      if (padlen + pad) % 256 < padlen then .error .invalidArgument
      else .ok ((padlen + pad) % 256)

/-- Random under a key, else zero. -/
def padding (s : Ssh Ctx) (padlen : Nat) : Ssh Ctx × Bytes :=
  if s.send.newkeys.isSome then arc4randomBuf s padlen else (s, List.replicate padlen 0)

def cipherEncrypt (k : Keys Ctx) (ctx : Ctx) (seqnr : UInt32) (src : Bytes) : Except Err (Ctx × Bytes) :=
  match k with
  | none => .ok (ctx, src)
  | some ⟨_, .mac cipher _ _ _, _, _, _⟩ =>
    let text := src.drop k.aadlen
    if text.length % cipher.blockSize ≠ 0 then .error .invalidArgument
    else
      let out := cipher.blocks cipher.encrypt (text.length / cipher.blockSize) ctx text
      .ok (out.1, src.take k.aadlen ++ out.2)
  | some ⟨_, .aead cipher _, _, _, _⟩ =>
    .ok (cipher.encrypt ctx seqnr (src.take k.aadlen) (src.drop k.aadlen))

/-- The code behind the packet, over the clear or over the encrypted packet. -/
def macCompute (k : Keys Ctx) (seqnr : UInt32) (clear encrypted : Bytes) : Bytes :=
  match k with
  | some ⟨_, .mac _ _ mac etm, _, _, _⟩ => mac.compute seqnr (if etm then encrypted else clear)
  | _ => []

def clearPacket (payload padding : Bytes) : Bytes :=
  putU32 (1 + payload.length + padding.length) ++ UInt8.ofNat padding.length :: payload ++ padding

/-- The first part of `ssh_packet_send2_wrapped`: the packet is in the output and
counted. -/
def sealPacket (s : Ssh Ctx) (payload : Bytes) : Except Err (Ssh Ctx × Frame) := do
  let k := s.send.newkeys
  let seqnr := s.send.state.seqnr
  let padlen ← padLength k.blockSize (5 + payload.length - k.aadlen) s.extraPad
  let padded := padding s padlen
  let packet := clearPacket payload padded.2
  let encrypted ← cipherEncrypt k s.send.context seqnr packet
  let bytes := encrypted.2 ++ macCompute k seqnr packet encrypted.2
  let state := { s.send.state with seqnr := seqnr + 1, packets := s.send.state.packets + 1 }
  return ({ padded.1 with
      extraPad := 0
      output := s.output ++ bytes
      send := { s.send with context := encrypted.1, state } },
    ⟨payload, k.map Newkeys.id, seqnr, packet.length, bytes⟩)

def countSend (s : Ssh Ctx) (frame : Frame) : Ssh Ctx :=
  let state := { s.send.state with
    blocks := s.send.state.blocks + UInt64.ofNat (frame.len / s.send.newkeys.blockSize)
    bytes := s.send.state.bytes + UInt64.ofNat frame.len }
  { s with send := { s.send with state } }

/-- The second part. The counter of packets must not return to zero; the keys are
changed by the message that announces them. -/
def finishSend (s : Ssh Ctx) (frame : Frame) : Except Err (Ssh Ctx) :=
  if s.send.state.packets = 0 ∧ s.bugNorekey = false then .error .needRekey
  else if frame.payload.head? = some msgNewkeys then sshSetNewkeysOut (countSend s frame)
  else if frame.payload.head? = some msgUserauthSuccess ∧ s.serverSide then
    .ok { countSend s frame with afterAuthentication := true }
  else .ok (countSend s frame)

def sshPacketSend2Wrapped (s : Ssh Ctx) (payload : Bytes) : Except Err (Ssh Ctx × Frame) := do
  let (s, frame) ← sealPacket s payload
  let s ← finishSend s frame
  return (s, frame)

variable {s next : Ssh Ctx} {frames : List Frame} {frame : Frame} {payload : Bytes}

lemma finishSend_cases (h : finishSend s frame = .ok next) :
    ¬ (s.send.state.packets = 0 ∧ s.bugNorekey = false) ∧
      ((frame.payload.head? = some msgNewkeys ∧ sshSetNewkeysOut (countSend s frame) = .ok next) ∨
        frame.payload.head? ≠ some msgNewkeys ∧
          (frame.payload.head? = some msgUserauthSuccess ∧ s.serverSide = true ∧
            next = { countSend s frame with afterAuthentication := true } ∨
            ¬ (frame.payload.head? = some msgUserauthSuccess ∧ s.serverSide = true) ∧
              next = countSend s frame)) := by
  unfold finishSend at h
  split_ifs at h with hw hn hs
  · exact ⟨hw, .inl ⟨hn, h⟩⟩
  · cases h
    exact ⟨hw, .inr ⟨hn, .inl ⟨hs.1, hs.2, rfl⟩⟩⟩
  · cases h
    exact ⟨hw, .inr ⟨hn, .inr ⟨hs, rfl⟩⟩⟩

/-- What sending a packet leaves alone. -/
structure Kept (s next : Ssh Ctx) : Prop where
  bugNorekey : next.bugNorekey = s.bugNorekey
  read : next.read = s.read
  rekeying : next.rekeying = s.rekeying
  outgoing : next.outgoing = s.outgoing
  incomingPacket : next.incomingPacket = s.incomingPacket
  packlen : next.packlen = s.packlen
  packetDiscard : next.packetDiscard = s.packetDiscard
  kex : next.kex = { s.kex with newkeysOut := next.kex.newkeysOut }

lemma padding_eq (s : Ssh Ctx) (padlen : Nat) :
    (padding s padlen).1 = { s with drawn := (padding s padlen).1.drawn } := by
  unfold padding
  split_ifs
  · rfl
  · rfl

lemma sealPacket_spec (h : sealPacket s payload = .ok (next, frame)) :
    frame.payload = payload ∧ frame.key = s.send.newkeys.map Newkeys.id ∧
      frame.seqnr = s.send.state.seqnr ∧ Kept s next ∧ next.kex = s.kex ∧
      next.send.newkeys = s.send.newkeys ∧ next.send.state.seqnr = s.send.state.seqnr + 1 ∧
      next.send.state.packets = s.send.state.packets + 1 := by
  obtain ⟨padlen, -, h⟩ := bind_eq_ok.1 h
  obtain ⟨encrypted, -, h⟩ := bind_eq_ok.1 h
  rw [padding_eq] at h
  cases h
  exact ⟨rfl, rfl, rfl, ⟨rfl, rfl, rfl, rfl, rfl, rfl, rfl, rfl⟩, rfl, rfl, rfl, rfl⟩

/-- A packet is sent under the key and the number of the moment; only a NEWKEYS message
changes the key, and then the packets under it are counted from zero. -/
lemma sshPacketSend2Wrapped_cases (h : sshPacketSend2Wrapped s payload = .ok (next, frame)) :
    frame.payload = payload ∧ frame.key = s.send.newkeys.map Newkeys.id ∧
      frame.seqnr = s.send.state.seqnr ∧ Kept s next ∧ next.send.state.seqnr = s.send.state.seqnr + 1 ∧
      ¬ (s.send.state.packets + 1 = 0 ∧ s.bugNorekey = false) ∧
      (payload.head? ≠ some msgNewkeys ∧ next.send.newkeys = s.send.newkeys ∧
        next.send.state.packets = s.send.state.packets + 1 ∧ next.kex.newkeysOut = s.kex.newkeysOut ∨
        payload.head? = some msgNewkeys ∧ ∃ k, s.kex.newkeysOut = some k ∧
          next.send.newkeys = some k ∧ next.send.state.packets = 0 ∧ next.kex.newkeysOut = none) := by
  obtain ⟨⟨counted, sealed⟩, hSeal, h⟩ := bind_eq_ok.1 h
  obtain ⟨finished, hf, h⟩ := bind_eq_ok.1 h
  cases h
  obtain ⟨hl, hKey, hSeqnr, hk, hKex, hKeys, hn, hp⟩ := sealPacket_spec hSeal
  obtain ⟨hw, hc⟩ := finishSend_cases hf
  rw [hp, hk.bugNorekey] at hw
  rw [hl] at hc
  obtain ⟨hBug, hRead, hr, ho, hi, hPack, hd, hs⟩ := hk
  refine ⟨hl, hKey, hSeqnr, ?_⟩
  rcases hc with ⟨ht, hSet⟩ | ⟨ht, ⟨-, -, rfl⟩ | ⟨-, rfl⟩⟩
  · unfold sshSetNewkeysOut at hSet
    cases hOut : (countSend counted frame).kex.newkeysOut with
    | none =>
      rw [hOut] at hSet
      cases hSet
    | some k =>
      rw [hOut] at hSet
      cases hSet
      have hWaits : s.kex.newkeysOut = some k := by
        rw [← hKex]
        exact hOut
      exact ⟨⟨hBug, hRead, hr, ho, hi, hPack, hd,
        by rw [← hKex]; rfl⟩, hn, hw, .inr ⟨ht, k, hWaits, rfl, rfl, rfl⟩⟩
  · exact ⟨⟨hBug, hRead, hr, ho, hi, hPack, hd, hs⟩, hn, hw,
      .inl ⟨ht, hKeys, hp, congrArg Kex.newkeysOut hKex⟩⟩
  · exact ⟨⟨hBug, hRead, hr, ho, hi, hPack, hd, hs⟩, hn, hw,
      .inl ⟨ht, hKeys, hp, congrArg Kex.newkeysOut hKex⟩⟩

/-! The key exchange is started with a KEXINIT message. -/

def kexCookieLen : Nat := 16

/-- Nothing happens if it has been sent. A KEXINIT message is never held back, so
that `ssh_packet_send2` has only the flag to set here. -/
def kexSendKexinit (s : Ssh Ctx) : Except Err (Ssh Ctx × List Frame) :=
  if s.kex.initSent then .ok (s, [])
  else if s.kex.my.length < kexCookieLen then .error .invalidFormat
  else do
    let drawn := arc4randomBuf s kexCookieLen
    let my := drawn.2 ++ s.kex.my.drop kexCookieLen
    let (s, frame) ← sshPacketSend2Wrapped
      { drawn.1 with kex := { s.kex with done := false, my }, rekeying := true } (msgKexinit :: my)
    return ({ s with kex := { s.kex with initSent := true } }, [frame])

def kexStartRekex (s : Ssh Ctx) : Except Err (Ssh Ctx × List Frame) :=
  if s.kex.done = false then .error .internalError
  else kexSendKexinit { s with kex := { s.kex with done := false } }

/-! The queue. -/

/-- Send what was held back, until a packet makes the next exchange due. The list is
the queue of the session. -/
def sendOutgoing : List Bytes → Ssh Ctx → Except Err (Ssh Ctx × List Frame)
  | [], s => .ok (s, [])
  | payload :: rest, s =>
    if sshPacketNeedRekeying s (payload.length + 5) then kexStartRekex (tick s)
    else do
      let (s, frame) ← sshPacketSend2Wrapped { tick s with outgoing := rest } payload
      let (s, frames) ← sendOutgoing rest s
      return (s, frame :: frames)

/-- After our NEWKEYS message the complete queue can be sent. -/
def afterSend (type : UInt8) (s : Ssh Ctx) : Except Err (Ssh Ctx × List Frame) :=
  if type = msgNewkeys then
    sendOutgoing s.outgoing { tick s with rekeying := false, rekeyTime := s.clock s.readings }
  else .ok (s, [])

def sshPacketSend2 (s : Ssh Ctx) (payload : Bytes) : Except Err (Ssh Ctx × List Frame) :=
  match payload.head? with
  | none => .error .internalError
  | some type =>
    if sshPacketTypeIsKex type then do
      -- An exchange starts with sending KEXINIT.
      let (s, frame) ← sshPacketSend2Wrapped { s with rekeying := s.rekeying || type = msgKexinit } payload
      let (s, frames) ← afterSend type s
      return (s, frame :: frames)
    else
      let needRekey := sshPacketNeedRekeying s (payload.length + 5)
      if needRekey || s.rekeying then
        let queued := { tick s with outgoing := s.outgoing ++ [payload] }
        if needRekey then kexStartRekex queued else .ok (queued, [])
      else do
        let (s, frame) ← sshPacketSend2Wrapped (tick s) payload
        return (s, [frame])

/-! What sending is made of. -/

/-- Packets that are sealed one after the other, with bookkeeping between them. -/
inductive Sends : Ssh Ctx → List Frame → Ssh Ctx → Prop where
  | refl {s : Ssh Ctx} : Sends s [] s
  | trans {s middle last : Ssh Ctx} {front back : List Frame} (first : Sends s front middle)
      (rest : Sends middle back last) : Sends s (front ++ back) last
  | packet {s next : Ssh Ctx} {payload : Bytes} {frame : Frame}
      (h : sshPacketSend2Wrapped s payload = .ok (next, frame)) : Sends s [frame] next
  | queue {s : Ssh Ctx} (rekeying : Bool) (outgoing : List Bytes) (rekeyTime readings : Nat) :
      Sends s [] { s with rekeying, outgoing, rekeyTime, readings }
  | kex {s : Ssh Ctx} (drawn : Nat) (my : Bytes) (initSent done rekeying : Bool) :
      Sends s [] { s with drawn, rekeying, kex := { s.kex with my, initSent, done } }

lemma kexSendKexinit_cases (h : kexSendKexinit s = .ok (next, frames)) :
    s.kex.initSent = true ∧ next = s ∧ frames = [] ∨ s.kex.initSent = false ∧ ∃ drawn my sent frame,
        sshPacketSend2Wrapped { s with
          drawn, kex := { s.kex with done := false, my }, rekeying := true } (msgKexinit :: my) =
          .ok (sent, frame) ∧
        next = { sent with kex := { sent.kex with initSent := true } } ∧ frames = [frame] := by
  rw [kexSendKexinit] at h
  split_ifs at h with hs hShort
  · cases h
    exact .inl ⟨hs, rfl, rfl⟩
  · obtain ⟨⟨sent, frame⟩, hw, h⟩ := bind_eq_ok.1 h
    cases h
    exact .inr ⟨Bool.eq_false_iff.2 hs, _, _, sent, frame, hw, rfl, rfl⟩

lemma kexSendKexinit_sends (h : kexSendKexinit s = .ok (next, frames)) : Sends s frames next := by
  rcases kexSendKexinit_cases h with
    ⟨-, rfl, rfl⟩ | ⟨-, drawn, my, sent, frame, hw, rfl, rfl⟩
  · exact .refl
  · exact .trans (.kex drawn my _ false true)
      (.trans (.packet hw) (.kex sent.drawn sent.kex.my true sent.kex.done sent.rekeying))

lemma kexStartRekex_sends (h : kexStartRekex s = .ok (next, frames)) : Sends s frames next := by
  rw [kexStartRekex] at h
  split_ifs at h
  exact .trans (.kex s.drawn s.kex.my s.kex.initSent false s.rekeying) (kexSendKexinit_sends h)

lemma sendOutgoing_sends {queue : List Bytes} (h : sendOutgoing queue s = .ok (next, frames)) :
    Sends s frames next := by
  induction queue generalizing s frames with
  | nil =>
    cases h
    exact .refl
  | cons payload rest ih =>
    rw [sendOutgoing] at h
    split_ifs at h
    · exact .trans (.queue s.rekeying s.outgoing s.rekeyTime (s.readings + 1)) (kexStartRekex_sends h)
    · obtain ⟨⟨sent, frame⟩, hw, h⟩ := bind_eq_ok.1 h
      obtain ⟨⟨last, later⟩, hr, h⟩ := bind_eq_ok.1 h
      cases h
      exact .trans (.queue s.rekeying rest s.rekeyTime (s.readings + 1)) (.trans (.packet hw) (ih hr))

lemma sshPacketSend2_sends (h : sshPacketSend2 s payload = .ok (next, frames)) : Sends s frames next := by
  cases payload with
  | nil => cases h
  | cons type rest =>
    simp only [sshPacketSend2, List.head?_cons] at h
    split at h
    · obtain ⟨⟨sent, frame⟩, hw, h⟩ := bind_eq_ok.1 h
      obtain ⟨⟨last, later⟩, ha, h⟩ := bind_eq_ok.1 h
      cases h
      have hf : Sends s [frame] sent :=
        .trans (.queue _ s.outgoing s.rekeyTime s.readings) (.packet hw)
      rw [afterSend] at ha
      split_ifs at ha
      · exact .trans hf (.trans (.queue false _ _ _) (sendOutgoing_sends ha))
      · cases ha
        exact hf
    · split_ifs at h
      · exact .trans (.queue s.rekeying _ s.rekeyTime (s.readings + 1)) (kexStartRekex_sends h)
      · cases h
        exact .queue s.rekeying _ s.rekeyTime (s.readings + 1)
      · obtain ⟨⟨sent, frame⟩, hw, h⟩ := bind_eq_ok.1 h
        cases h
        exact .trans (.queue s.rekeying s.outgoing s.rekeyTime (s.readings + 1)) (.packet hw)

end Packet
