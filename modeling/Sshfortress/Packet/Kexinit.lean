import Sshfortress.Packet.Exchange

/-! The buffer for the peer's KEXINIT message. It is appended to by each message and
emptied at the end of an exchange, so that it holds one message as long as no second
one comes before that. -/
namespace Packet

open Base Base.Wire Base.Cipher Base.Transition List

variable {Ctx : Type}

/-! The size of a packet. -/

/-- A packet whose length is known is being waited for with a length that was checked. -/
def LengthChecked (s : Ssh Ctx) : Prop :=
  s.packetDiscard = 0 → s.packlen ≠ 0 → badLength s.packlen = false ∧
    s.incomingPacket.length = if s.read.newkeys.aadlen = 0 then s.read.newkeys.blockSize else 0

lemma cipherDecrypt_length {k : Keys Ctx} {ctx context : Ctx} {seqnr : UInt32} {aadlen : Nat}
    {src out : Bytes} (h : cipherDecrypt k ctx seqnr aadlen src = .ok (context, out)) :
    out.length + k.authlen = src.length := by
  match k with
  | none =>
    cases h
    rfl
  | some ⟨_, .mac cipher _ _ _, _, _, _⟩ =>
    simp only [cipherDecrypt] at h
    split_ifs at h with hb
    cases h
    have hw : (src.drop aadlen).length = (src.drop aadlen).length / cipher.blockSize * cipher.blockSize :=
      (Nat.div_mul_cancel (Nat.dvd_of_mod_eq_zero (not_not.1 hb))).symm
    have ht := cipher.blocks_length cipher.decrypt_length _ ctx _ hw
    rw [← hw] at ht
    rw [length_append, ht, length_take, length_drop]
    show min aadlen src.length + (src.length - aadlen) + 0 = src.length
    omega
  | some ⟨_, .aead cipher _, _, _, _⟩ =>
    simp only [cipherDecrypt] at h
    split at h
    · cases h
    · next found hf =>
      cases h
      exact cipher.decrypt_length _ _ _ _ _ _ hf

variable {s next : Ssh Ctx} {t : Transport Ctx} {events : List Event} {frames : List Frame}
  {algs : Kex.Algorithms} {compat : Kex.Compat} {known : Ssh Ctx} {packet : Received}
  {found : Option Received} {method : Option (MethodStep Ctx)}

lemma readLength_checked (hd : s.packetDiscard = 0) (hc : LengthChecked s)
    (h : readLength s = .ok (some known)) :
    badLength known.packlen = false ∧ known.incomingPacket.length =
      if known.read.newkeys.aadlen = 0 then known.read.newkeys.blockSize else 0 := by
  rw [readLength] at h
  dsimp only at h
  split_ifs at h with hk hAad hShort hBad hBlock
  · cases h
    exact hc hd hk
  · cases h
  · cases h
    refine ⟨Bool.eq_false_iff.2 hBad, ?_⟩
    rw [if_neg hAad]
    rfl
  · cases h
  · obtain ⟨⟨context, block⟩, hDec, h⟩ := bind_eq_ok.1 h
    split_ifs at h with hBad
    cases h
    refine ⟨Bool.eq_false_iff.2 hBad, ?_⟩
    have hLen := cipherDecrypt_length hDec
    have hz : s.read.newkeys.aadlen = 0 := not_not.1 hAad
    have hAuth := s.read.newkeys.aadlen_eq
    rw [length_take] at hLen
    rw [if_pos hz]
    show block.length = s.read.newkeys.blockSize
    omega

lemma needed_ahead {packlen size : Nat} (hs : size = 8 ∨ size = 16) (hLow : 5 ≤ packlen)
    (hHigh : packlen ≤ 256 * 1024) (h : (4 + packlen + 2 ^ 32 - size) % 2 ^ 32 % size = 0) :
    size + (4 + packlen + 2 ^ 32 - size) % 2 ^ 32 = 4 + packlen := by
  rcases hs with rfl | rfl
  · omega
  · omega

lemma openPacket_length {opened : Ssh Ctx} (hg : badLength known.packlen = false)
    (hi : known.incomingPacket.length =
      if known.read.newkeys.aadlen = 0 then known.read.newkeys.blockSize else 0)
    (h : openPacket known = .ok (some opened)) :
    opened.incomingPacket.length = 4 + known.packlen := by
  rw [openPacket] at h
  dsimp only at h
  split at h
  · cases h
  next hb =>
  split at h
  · cases h
  next hl =>
  split at h
  · cases h
  obtain ⟨⟨context, text⟩, hDec, h⟩ := bind_eq_ok.1 h
  split_ifs at h
  cases h
  have ht := cipherDecrypt_length hDec
  have hs := known.read.newkeys.blockSize_eq
  have hAad := known.read.newkeys.aadlen_eq
  rw [length_take] at ht
  rw [badLength_eq_false, packetMaxSize] at hg
  show (known.incomingPacket ++ text).length = 4 + known.packlen
  rw [length_append, hi]
  rw [needed] at ht hb hl
  rcases hAad with ⟨hz, hAuth⟩ | hFour
  · rw [if_neg (not_not.2 hz)] at ht hb hl
    rw [if_pos hz]
    have hAll := needed_ahead hs (by omega) (by omega) (not_not.1 hb)
    generalize (4 + known.packlen + 2 ^ 32 - known.read.newkeys.blockSize) % 2 ^ 32 = need at *
    omega
  · have hn : known.read.newkeys.aadlen ≠ 0 := by omega
    rw [if_pos hn] at ht hb hl
    rw [if_neg hn]
    omega

lemma unpack_length {incoming rest : Bytes} {type : UInt8}
    (h : unpack incoming = .ok (type, rest)) : rest.length + 10 ≤ incoming.length := by
  rw [unpack] at h
  split_ifs at h with hPad hShort
  split at h
  · cases h
  · next first others hl =>
    split_ifs at h
    cases h
    have hLen := congrArg List.length hl
    rw [length_take, length_drop, length_cons] at hLen
    omega

lemma takePacket_length (hd : s.packetDiscard = 0) (hc : LengthChecked s)
    (h : takePacket s = .ok (next, some packet)) : packet.rest.length ≤ packetMaxSize := by
  cases takePacket_taking h with
  | taken hLen ho ha =>
    obtain ⟨hg, hi⟩ := readLength_checked hd hc hLen
    have hOpened := openPacket_length hg hi ho
    obtain ⟨counted, -, ha⟩ := bind_eq_ok.1 ha
    obtain ⟨⟨type, rest⟩, hu, ha⟩ := bind_eq_ok.1 ha
    obtain ⟨finished, -, ha⟩ := bind_eq_ok.1 ha
    cases ha
    have hRest := unpack_length hu
    rw [badLength_eq_false] at hg
    show rest.length ≤ packetMaxSize
    omega

/-! Sizes that were checked stay checked. -/

lemma Kept.checked (hk : Kept s next) (h : LengthChecked s) : LengthChecked next := by
  rw [LengthChecked, hk.packetDiscard, hk.packlen, hk.incomingPacket, hk.read]
  exact h

lemma Sends.checked (hs : Sends s frames next) (h : LengthChecked s) : LengthChecked next := by
  induction hs with
  | refl => exact h
  | trans _ _ ihFirst ihRest => exact ihRest (ihFirst h)
  | packet hw =>
    obtain ⟨-, -, -, hk, -⟩ := sshPacketSend2Wrapped_cases hw
    exact hk.checked h
  | queue => exact h
  | kex => exact h

lemma Sends.peer (hs : Sends s frames next) : next.kex.peer = s.kex.peer := by
  induction hs with
  | refl => rfl
  | trans _ _ ihFirst ihRest => exact ihRest.trans ihFirst
  | packet hw =>
    obtain ⟨-, -, -, hk, -⟩ := sshPacketSend2Wrapped_cases hw
    rw [hk.kex]
  | queue => rfl
  | kex => rfl

lemma takePacket_checked (hd : s.packetDiscard = 0) (hc : LengthChecked s)
    (h : takePacket s = .ok (next, found)) : LengthChecked next := by
  cases takePacket_taking h with
  | short => exact hc
  | waits hLen => exact fun _ _ => readLength_checked hd hc hLen
  | taken hLen hOpen ha =>
    obtain ⟨counted, -, ha⟩ := bind_eq_ok.1 ha
    obtain ⟨unpacked, -, ha⟩ := bind_eq_ok.1 ha
    obtain ⟨finished, -, ha⟩ := bind_eq_ok.1 ha
    cases ha
    exact fun _ hk => absurd rfl hk

lemma sshPacketReadPoll2_checked (hc : LengthChecked s)
    (h : sshPacketReadPoll2 s = .ok (next, found, frames)) : LengthChecked next ∧ next.kex.peer = s.kex.peer ∧
      ∀ packet, found = some packet → packet.rest.length ≤ packetMaxSize := by
  rw [sshPacketReadPoll2] at h
  split at h
  · cases h
    exact ⟨hc, rfl, fun _ hn => by cases hn⟩
  next hr =>
  have hDrop : s.packetDiscard = 0 := not_not.1 hr
  cases ht : takePacket s with
  | error halt =>
    rw [ht] at h
    cases halt with
    | err code => cases h
    | discarding discarding =>
      cases h
      have hd := takePacket_discarding ht
      refine ⟨fun hz => absurd hz hd.packetDiscard, ?_, fun _ hn => by cases hn⟩
      rw [hd.kex]
  | ok out =>
    obtain ⟨taken, packet⟩ := out
    rw [ht] at h
    have hTaken := takePacket_checked hDrop hc ht
    cases packet with
    | none =>
      cases h
      rcases takePacket_cases ht with ⟨-, ho⟩ | ⟨packet, hSome, -⟩
      · refine ⟨hTaken, ?_, fun _ hn => by cases hn⟩
        rw [ho.kex]
      · cases hSome
    | some packet =>
      obtain ⟨⟨after, sent⟩, hRekey, h⟩ := bind_eq_ok.1 h
      cases h
      have hs := rekeyAfterRead_sends hRekey
      rcases takePacket_cases ht with ⟨hn, -⟩ | ⟨other, -, hAcc⟩
      · cases hn
      · refine ⟨hs.checked hTaken, ?_, ?_⟩
        · rw [hs.peer, hAcc.kex]
        · intro found hf
          cases hf
          exact takePacket_length hDrop hc ht

/-! The machine. -/

/-- What holds between two steps, whatever the peer sends. -/
structure Ready (t : Transport Ctx) : Prop where
  checked : LengthChecked t.ssh
  dispatch : ∀ type, t.dispatch type = .kexInputKexinit → type = msgKexinit

variable {next : Transport Ctx}

lemma Works.ready (h : Works t events next) (hr : Ready t) : Ready next := by
  induction h with
  | refl => exact hr
  | trans _ _ ihFront ihBack => exact ihBack (ihFront hr)
  | handlers h =>
    refine ⟨hr.checked, fun type ht => ?_⟩
    rcases h type ht with hk | hOld
    · exact hk
    · exact hr.dispatch type hOld
  | derive keysIn keysOut => exact ⟨hr.checked, hr.dispatch⟩
  | send h => exact ⟨(sshPacketSend2_sends h).checked hr.checked, hr.dispatch⟩
  | kexinit h => exact ⟨(kexSendKexinit_sends h).checked hr.checked, hr.dispatch⟩
  | rekex h => exact ⟨(kexStartRekex_sends h).checked hr.checked, hr.dispatch⟩

lemma Moves.ready (h : Moves t events next) (hr : Ready t) : Ready next := by
  induction h with
  | works h => exact h.ready hr
  | trans _ _ ihFront ihBack => exact ihBack (ihFront hr)
  | settings => exact ⟨hr.checked, hr.dispatch⟩
  | negotiate => exact ⟨hr.checked, hr.dispatch⟩
  | peer => exact ⟨hr.checked, hr.dispatch⟩
  | finish => exact ⟨hr.checked, hr.dispatch⟩
  | input h =>
    refine ⟨?_, hr.dispatch⟩
    rw [sshPacketProcessIncoming] at h
    split_ifs at h with hDrop he
    · cases h
      exact fun hz => absurd hz (Nat.sub_ne_zero_of_lt (Nat.lt_of_not_le he))
    · cases h
      exact hr.checked
  | read h => exact ⟨(sshPacketReadPoll2_checked hr.checked h).1, hr.dispatch⟩

lemma Works.calm (h : Works t events next) :
    next.ssh.kex.peer = t.ssh.kex.peer ∧ ∀ peer, Event.negotiated peer ∉ events := by
  have hs : ∀ (frames : List Frame) peer, Event.negotiated peer ∉ frames.map Event.sent := by
    intro frames peer hMem
    obtain ⟨frame, -, hFrame⟩ := mem_map.1 hMem
    cases hFrame
  induction h with
  | refl => exact ⟨rfl, fun _ => not_mem_nil⟩
  | trans _ _ ihFront ihBack =>
    refine ⟨ihBack.1.trans ihFront.1, fun peer hMem => ?_⟩
    rcases mem_append.1 hMem with hFirst | hr
    · exact ihFront.2 peer hFirst
    · exact ihBack.2 peer hr
  | handlers => exact ⟨rfl, fun _ => not_mem_nil⟩
  | derive => exact ⟨rfl, fun _ => not_mem_nil⟩
  | send h =>
    refine ⟨(sshPacketSend2_sends h).peer, fun peer hMem => ?_⟩
    rcases mem_cons.1 hMem with hn | hf
    · cases hn
    · exact hs _ peer hf
  | kexinit h => exact ⟨(kexSendKexinit_sends h).peer, hs _⟩
  | rekex h => exact ⟨(kexStartRekex_sends h).peer, hs _⟩

lemma kexInputKexinit_peer {body : Bytes}
    (h : kexInputKexinit algs compat t body method = .ok (next, events)) :
    next.ssh.kex.peer = t.ssh.kex.peer ++ body ∧
      ∀ peer, Event.negotiated peer ∈ events → peer = t.ssh.kex.peer ++ body := by
  obtain ⟨ssh, frames, extInfoC, chosen, rest, hk, rfl, hRun, rfl⟩ := kexInputKexinit_eq_ok h
  have hp := (kexSendKexinit_sends hk).peer
  obtain ⟨hKept, hn⟩ := (runMethod_works hRun).calm
  refine ⟨hKept.trans hp, fun peer hMem => ?_⟩
  rcases mem_append.1 hMem with hf | hr
  · obtain ⟨frame, -, hFrame⟩ := mem_map.1 hf
    cases hFrame
  · rcases mem_cons.1 hr with hh | hl
    · cases hh
      exact hp
    · exact absurd hl (hn peer)

lemma dispatchPacket_negotiated {peer : Bytes}
    (h : dispatchPacket algs compat t packet method = .ok (next, events))
    (hMem : Event.negotiated peer ∈ events) : t.dispatch packet.type = .kexInputKexinit ∧
      kexInputKexinit algs compat t packet.rest method = .ok (next, events) := by
  rw [dispatchPacket] at h
  split_ifs at h
  · cases h
    cases hMem
  · cases h
    cases hMem
  · cases h
    cases hMem
  · split at h
    · cases h
    · exact absurd hMem ((sshpktSend_works h).calm.2 peer)
    · cases h
      cases hMem
    · next hh => exact ⟨hh, h⟩
    · rw [kexInputExtInfo] at h
      split_ifs at h
      cases h
      cases hMem
    · rw [kexInputNewkeys] at h
      split_ifs at h
      cases h
      cases hMem
    · exact absurd hMem ((runMethod_works h).calm.2 peer)

/-- When the step reads a KEXINIT message and hands it to its handler, the buffer is
empty: the peer sends no second one before the exchange is finished. -/
def NoSecondKexinit (t : Transport Ctx) (input : Input Ctx) : Prop :=
  ∀ method ssh packet frames, input = .poll method →
    sshPacketReadPoll2 t.ssh = .ok (ssh, some packet, frames) →
    t.dispatch packet.type = .kexInputKexinit → t.ssh.kex.peer = []

/-- When the step negotiates, it has received a KEXINIT message, the negotiation is over
that message alone, and the buffer holds that message alone. -/
def HoldsOneKexinit (algs : Kex.Algorithms) (compat : Kex.Compat) (t : Transport Ctx)
    (input : Input Ctx) : Prop :=
  ∀ next events, step algs compat t input = .ok (next, events) →
    ∀ peer, Event.negotiated peer ∈ events → ∃ packet, Event.received packet ∈ events ∧
      packet.type = msgKexinit ∧ peer = packet.rest ∧ next.ssh.kex.peer = packet.rest ∧
      packet.rest.length ≤ packetMaxSize

lemma step_holdsOneKexinit {input : Input Ctx} (hr : Ready t)
    (hf : NoSecondKexinit t input) : HoldsOneKexinit algs compat t input := by
  intro next events hStep peer hMem
  have hp := step_eq_ok hStep
  cases input with
  | poll method =>
    obtain ⟨ssh, frames, ⟨-, -, rfl⟩ | ⟨packet, rest, hRead, hRest, rfl⟩⟩ := poll_eq_ok hp
    · obtain ⟨frame, -, hFrame⟩ := mem_map.1 hMem
      cases hFrame
    · have hl : Event.negotiated peer ∈ rest := by simpa using hMem
      obtain ⟨hh, hk⟩ := dispatchPacket_negotiated hRest hl
      obtain ⟨hn, ho⟩ := kexInputKexinit_peer hk
      obtain ⟨-, hSame, hLen⟩ := sshPacketReadPoll2_checked hr.checked hRead
      have he : ssh.kex.peer = [] :=
        hSame.trans (hf method ssh packet frames rfl hRead hh)
      have hPeer := ho peer hl
      rw [he, nil_append] at hPeer hn
      exact ⟨packet, mem_cons_self .., hr.dispatch packet.type hh, hPeer, hn, hLen packet rfl⟩
  | start =>
    obtain ⟨ssh, frames, hs, rfl, rfl⟩ := lift_eq_ok hp
    exact absurd hMem ((Works.kexinit hs).calm.2 peer)
  | rekex =>
    obtain ⟨ssh, frames, hs, rfl, rfl⟩ := lift_eq_ok hp
    exact absurd hMem ((Works.rekex hs).calm.2 peer)
  | send packet => exact absurd hMem ((sshpktSend_works hp).calm.2 peer)
  | addPadding pad =>
    cases hp
    cases hMem
  | rekeyLimits bytes seconds =>
    cases hp
    cases hMem
  | dispatchRange low high setting =>
    cases hp
    cases hMem
  | dispatchKexinit =>
    cases hp
    cases hMem
  | dispatchExtInfo =>
    cases hp
    cases hMem
  | incoming buf =>
    obtain ⟨ssh, -, hp⟩ := bind_eq_ok.1 hp
    cases hp
    cases hMem

/-- As long as the peer sends one KEXINIT message per exchange, the buffer holds the one
that the negotiation is based on. -/
theorem holdsOneKexinit_along {algs : Kex.Algorithms} {compat : Kex.Compat} {t : Transport Ctx}
    {inputs : List (Input Ctx)} (hReady : Ready t)
    (hFirst : Along (step algs compat) NoSecondKexinit t inputs) :
    Along (step algs compat) (HoldsOneKexinit algs compat) t inputs := by
  apply along_of_invariant Ready _ hReady hFirst
  intro s input hState hCondition
  exact ⟨step_holdsOneKexinit hState hCondition,
    fun next events hStep => (step_moves hStep).ready hState⟩

def onceInputs : List (Input UInt8) :=
  [.start, .incoming (plainPacket serverKexinit), .poll (some shiftMethod)]

lemma clientStart_ready : Ready clientStart := by
  apply (kexResetDispatch_works _).ready
  constructor
  · intro _ hk
    exact absurd rfl hk
  · intro type ht
    cases ht

lemma onceInputs_noSecondKexinit :
    Along (step Kex.smallAlgorithms ⟨false, false⟩) NoSecondKexinit clientStart onceInputs := by
  constructor
  · intro _ _ _ _ hp
    cases hp
  intro begun seen hs
  constructor
  · intro _ _ _ _ hp
    cases hp
  intro fed later hFed
  constructor
  · intro _ _ _ _ _ _ _
    obtain ⟨ssh, frames, hSend, rfl, rfl⟩ := lift_eq_ok (step_eq_ok hs)
    obtain ⟨more, hi, hFed⟩ := bind_eq_ok.1 (step_eq_ok hFed)
    cases hFed
    have hPeer := (kexSendKexinit_sends hSend).peer
    rw [sshPacketProcessIncoming] at hi
    split_ifs at hi
    · cases hi
      exact hPeer
    · cases hi
      exact hPeer
  · intro _ _ _
    trivial

theorem holdsOneKexinit_along_once : Along (step Kex.smallAlgorithms ⟨false, false⟩)
    (HoldsOneKexinit Kex.smallAlgorithms ⟨false, false⟩) clientStart onceInputs ∧
      ((run (step Kex.smallAlgorithms ⟨false, false⟩) clientStart onceInputs).toOption.map
        fun out => decide (Event.negotiated (Kex.kexProp2buf Kex.serverProposal) ∈ out.2)) = some true := by
  constructor
  · exact holdsOneKexinit_along clientStart_ready onceInputs_noSecondKexinit
  · decide +kernel

/-- The peer sends its KEXINIT message, and sends it again while the method waits for an
answer. -/
def twiceInputs : List (Input UInt8) :=
  [.start, .incoming (plainPacket serverKexinit), .poll (some ⟨[], [], none⟩),
    .incoming (plainPacket serverKexinit)]

/-- The second message is appended to the first, and the second negotiation is over both. -/
theorem second_kexinit_appended : ¬ Along (step Kex.smallAlgorithms ⟨false, false⟩)
    (HoldsOneKexinit Kex.smallAlgorithms ⟨false, false⟩) clientStart
    (twiceInputs ++ [.poll (some ⟨[], [], none⟩)]) := by
  intro hAlong
  have hSeen : ((run (step Kex.smallAlgorithms ⟨false, false⟩) clientStart
    twiceInputs).toOption.bind fun middle =>
      ((step Kex.smallAlgorithms ⟨false, false⟩ middle.1
        (.poll (some ⟨[], [], none⟩))).toOption.map fun out =>
          (out.2.filter (· matches .negotiated _), out.2.filter (· matches .received _)))) =
    some ([.negotiated (Kex.kexProp2buf Kex.serverProposal ++ Kex.kexProp2buf Kex.serverProposal)],
      [.received ⟨msgKexinit, Kex.kexProp2buf Kex.serverProposal, none, 1⟩]) := by decide +kernel
  obtain ⟨⟨middle, before⟩, hRun, hSeen⟩ := Option.bind_eq_some_iff.1 hSeen
  obtain ⟨⟨next, events⟩, hStep, hShown⟩ := Option.map_eq_some_iff.1 hSeen
  obtain ⟨hNegotiated, hReceived⟩ := Prod.mk.inj hShown
  have hLast := (along_append hAlong (toOption_eq_some.1 hRun)).1
  have hOver := mem_of_mem_filter (hNegotiated ▸ mem_singleton_self _)
  obtain ⟨packet, hPacket, -, hBuffer, -, -⟩ :=
    hLast next events (toOption_eq_some.1 hStep) _ hOver
  have hOnly : Event.received packet ∈ events.filter (· matches .received _) :=
    mem_filter.2 ⟨hPacket, rfl⟩
  rw [hReceived, mem_singleton] at hOnly
  cases hOnly
  have hEmpty : Kex.kexProp2buf Kex.serverProposal ≠ [] := by decide +kernel
  exact hEmpty (append_right_eq_self.1 hBuffer)

end Packet
