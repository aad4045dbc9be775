import Sshfortress.Base.Numbering
import Sshfortress.Packet.Exchange
import Sshfortress.Packet.Roundtrip

/-! Keys and sequence numbers. Packets are sealed and accepted under the key and the
number of the moment. Besides the packets themselves, only the derivation of keys and
the transfer of the session to the monitor, which serves it after authentication, touch
what decides the next pair of key and number. -/
namespace Packet

open Base Base.Wire Base.Cipher Base.Transition Base.Numbering List

variable {Ctx : Type}

/-! The transfer of a session to another process. -/

structure KeyState (Ctx : Type) where
  (my peer : Bytes)
  initSent : Bool
  (newkeysOut newkeysIn : Newkeys Ctx)
  rekeyLimit : UInt64
  rekeyInterval : Nat
  (send read : PacketState)
  (sendContext receiveContext : Ctx)
  (input output : Bytes)

def sshPacketGetState (s : Ssh Ctx) : Except Err (KeyState Ctx) :=
  match s.send.newkeys, s.read.newkeys with
  | some newkeysOut, some newkeysIn => .ok {
      my := s.kex.my
      peer := s.kex.peer
      initSent := s.kex.initSent
      newkeysOut
      newkeysIn
      rekeyLimit := s.rekeyLimit
      rekeyInterval := s.rekeyInterval
      send := s.send.state
      read := s.read.state
      sendContext := s.send.context
      receiveContext := s.read.context
      input := s.input
      output := s.output }
  | _, _ => .error .internalError

def kexFromBlob (m : KeyState Ctx) : Kex Ctx where
  my := m.my
  peer := m.peer
  initSent := m.initSent
  done := true
  extInfoC := false
  newkeysIn := some m.newkeysIn
  newkeysOut := some m.newkeysOut

/-- The counters are restored first, and then the keys are installed as new ones. -/
def sshPacketSetState (s : Ssh Ctx) (m : KeyState Ctx) : Except Err (Ssh Ctx) := do
  let restored := { tick s with
    kex := kexFromBlob m
    rekeyLimit := m.rekeyLimit
    rekeyInterval := m.rekeyInterval
    send := { s.send with state := m.send }
    read := { s.read with state := m.read }
    rekeyTime := s.clock s.readings }
  let s ← sshSetNewkeysIn restored
  let s ← sshSetNewkeysOut s
  return { s with
    send := { s.send with context := m.sendContext }
    read := { s.read with context := m.receiveContext }
    afterAuthentication := true
    rekeying := false
    input := m.input
    output := m.output }

/-- The session goes on in a process that has this state of its own. Both know what
the peer cannot do. -/
def transfer (s monitor : Ssh Ctx) : Except Err (Ssh Ctx) := do
  let m ← sshPacketGetState s
  sshPacketSetState { monitor with bugNorekey := s.bugNorekey } m

/-! The calls of one connection. -/

/-- The first part of `ssh_packet_read_poll2`, before an exchange is started. -/
def receivePacket (s : Ssh Ctx) : Except Err (Ssh Ctx × Option Received) :=
  if s.packetDiscard ≠ 0 then .ok (s, none)
  else
    match takePacket s with
    | .error (.err code) => .error code
    | .error (.discarding s) => .ok (s, none)
    | .ok out => .ok out

/-- A connection, with how many packets under the keys in force were counted before a
transfer. After an error nothing more is called. -/
structure Connection (Ctx : Type) extends Transport Ctx where
  (carriedIn carriedOut : Nat)
  failed : Bool

inductive Call (Ctx : Type) where
  /-- `ssh_packet_send2_wrapped`. -/
  | sendWrapped (payload : Bytes)
  /-- `ssh_packet_read_poll2`, up to the packet. -/
  | readPoll
  | incoming (buf : Bytes)
  | deriveKeys (keysIn keysOut : Newkeys Ctx)
  /-- A negotiation, which makes room for the keys to come. -/
  | chooseConf
  | transfer (monitor : Ssh Ctx)
  /-- Anything else that is done to the session and its handlers. -/
  | other (changed : Transport Ctx)

/-- The changed state, as far as it is not the concern of the calls above. -/
def surroundings (t changed : Transport Ctx) : Transport Ctx :=
  { changed with
    derived := t.derived
    ssh := { changed.ssh with
      bugNorekey := t.ssh.bugNorekey
      read := t.ssh.read
      send := t.ssh.send
      input := t.ssh.input
      incomingPacket := t.ssh.incomingPacket
      packlen := t.ssh.packlen
      packetDiscard := t.ssh.packetDiscard
      kex := { changed.ssh.kex with
        newkeysIn := t.ssh.kex.newkeysIn
        newkeysOut := t.ssh.kex.newkeysOut } } }

/-- A packet that is sealed is in the output, also if the call then fails. -/
def sendWrapped (c : Connection Ctx) (payload : Bytes) : Except Err (Connection Ctx × List Event) := do
  let (counted, frame) ← sealPacket c.ssh payload
  match finishSend counted frame with
  | .error _ => return ({ c with ssh := counted, failed := true }, [.sent frame])
  | .ok ssh =>
    let carriedOut := if payload.head? = some msgNewkeys then 0 else c.carriedOut
    return ({ c with ssh, carriedOut }, [.sent frame])

def readPoll (c : Connection Ctx) : Except Err (Connection Ctx × List Event) := do
  let (ssh, found) ← receivePacket c.ssh
  match found with
  | none => return ({ c with ssh }, [])
  | some packet =>
    let carriedIn := if packet.type = msgNewkeys then 0 else c.carriedIn
    return ({ c with ssh, carriedIn }, [.received packet])

def performCall (c : Connection Ctx) : Call Ctx → Except Err (Connection Ctx × List Event)
  | .sendWrapped payload => sendWrapped c payload
  | .readPoll => readPoll c
  | .incoming buf => do
    let ssh ← sshPacketProcessIncoming c.ssh buf
    return ({ c with ssh }, [])
  | .deriveKeys keysIn keysOut =>
    .ok ({ c with toTransport := kexDeriveKeys c.toTransport keysIn keysOut }, [])
  | .chooseConf =>
    .ok ({ c with ssh := { c.ssh with kex := { c.ssh.kex with
      newkeysIn := none, newkeysOut := none } } }, [])
  | .transfer monitor => do
    let ssh ← transfer c.ssh monitor
    return ({ c with
      ssh
      dispatch := fun _ => .unset
      carriedIn := c.carriedIn + c.ssh.read.state.packets.toNat
      carriedOut := c.carriedOut + c.ssh.send.state.packets.toNat }, [])
  | .other changed => .ok ({ c with toTransport := surroundings c.toTransport changed }, [])

def callStep (c : Connection Ctx) (call : Call Ctx) : Except Stop (Connection Ctx × List Event) :=
  if c.failed then .error .fatal else (performCall c call).mapError fun _ => .fatal

/-! Every pair of key and number that was used. -/

def sealedPairs (events : List Event) : List (Option Nat × UInt32) :=
  events.filterMap fun
    | .sent frame => some (frame.key, frame.seqnr)
    | _ => none

def acceptedPairs (events : List Event) : List (Option Nat × UInt32) :=
  events.filterMap fun
    | .received packet => some (packet.key, packet.seqnr)
    | _ => none

def outLane (c : Connection Ctx) : Lane Nat UInt32 where
  drawn := { id | id < c.derived }
  key := c.ssh.send.newkeys.map Newkeys.id
  pending := c.ssh.kex.newkeysOut.map Newkeys.id
  number := c.ssh.send.state.seqnr
  under := c.carriedOut + c.ssh.send.state.packets.toNat

def inLane (c : Connection Ctx) : Lane Nat UInt32 where
  drawn := { id | id < c.derived }
  key := c.ssh.read.newkeys.map Newkeys.id
  pending := c.ssh.kex.newkeysIn.map Newkeys.id
  number := c.ssh.read.state.seqnr
  under := c.carriedIn + c.ssh.read.state.packets.toNat

lemma toNat_succ {n : UInt32} (h : n + 1 ≠ 0) : (n + 1).toNat = n.toNat + 1 := by
  have hBound := UInt32.toNat_lt n
  have hWrap : n.toNat + 1 ≠ 2 ^ 32 := by
    intro hl
    apply h
    apply UInt32.toNat_inj.1
    rw [UInt32.toNat_add, UInt32.toNat_one, hl]
    rfl
  rw [UInt32.toNat_add, UInt32.toNat_one]
  omega

lemma setOf_lt_succ (n : Nat) : { id | id < n + 1 } = insert n { id | id < n } := by
  ext id
  simp only [Set.mem_ofPred_eq, Set.mem_insert_iff]
  omega

variable {c next last : Connection Ctx} {events : List Event} {call : Call Ctx} {s : Ssh Ctx}
  {payload : Bytes} {calls : List (Call Ctx)}

lemma transfer_spec {monitor next : Ssh Ctx} (h : transfer s monitor = .ok next) :
    next.bugNorekey = s.bugNorekey ∧ next.send.newkeys = s.send.newkeys ∧ next.read.newkeys = s.read.newkeys ∧
      next.send.state.seqnr = s.send.state.seqnr ∧ next.read.state.seqnr = s.read.state.seqnr ∧
      next.send.state.packets = 0 ∧ next.read.state.packets = 0 ∧
      next.kex.newkeysIn = none ∧ next.kex.newkeysOut = none := by
  obtain ⟨m, hGet, hSet⟩ := bind_eq_ok.1 h
  rw [sshPacketGetState] at hGet
  split at hGet
  · next newkeysOut newkeysIn hOut hIn =>
    cases hGet
    cases hSet
    exact ⟨rfl, hOut.symm, hIn.symm, rfl, rfl, rfl, rfl, rfl, rfl⟩
  · cases hGet

lemma callStep_eq_ok : callStep c call = .ok (next, events) ↔
    c.failed = false ∧ performCall c call = .ok (next, events) := by
  rw [callStep]
  cases c.failed with
  | false => simp [mapError_eq_ok]
  | true => simp

lemma receivePacket_cases {next : Ssh Ctx} {found : Option Received}
    (h : receivePacket s = .ok (next, found)) :
    found = none ∧ Opening s next ∨ ∃ packet, found = some packet ∧ Accepted s next packet := by
  rw [receivePacket] at h
  split at h
  · cases h
    exact .inl ⟨rfl, .refl s⟩
  split at h
  · cases h
  · next ht =>
    cases h
    exact .inl ⟨rfl, (takePacket_discarding ht).toOpening⟩
  · next ht =>
    cases h
    exact takePacket_cases ht

lemma sendWrapped_cases (h : sendWrapped c payload = .ok (next, events)) :
    (∃ ssh frame, sshPacketSend2Wrapped c.ssh payload = .ok (ssh, frame) ∧ events = [.sent frame] ∧
      next = { c with
        ssh, carriedOut := if payload.head? = some msgNewkeys then 0 else c.carriedOut }) ∨
      ∃ counted frame, sealPacket c.ssh payload = .ok (counted, frame) ∧ events = [.sent frame] ∧
        next = { c with ssh := counted, failed := true } := by
  obtain ⟨⟨counted, frame⟩, hs, h⟩ := bind_eq_ok.1 h
  dsimp only at h
  cases hf : finishSend counted frame with
  | error code =>
    rw [hf] at h
    cases h
    exact .inr ⟨counted, frame, hs, rfl, rfl⟩
  | ok ssh =>
    rw [hf] at h
    cases h
    refine .inl ⟨ssh, frame, ?_, rfl, rfl⟩
    rw [sshPacketSend2Wrapped, hs, ok_bind]
    dsimp only
    rw [hf]
    rfl

lemma sealedPairs_sent {frame : Frame} (hKey : frame.key = c.ssh.send.newkeys.map Newkeys.id)
    (hs : frame.seqnr = c.ssh.send.state.seqnr) :
    sealedPairs [.sent frame] = [((outLane c).key, (outLane c).number)] := by
  simp [sealedPairs, outLane, hKey, hs]

lemma sendWrapped_move (hBug : c.ssh.bugNorekey = false) (h : sendWrapped c payload = .ok (next, events)) :
    ∃ l, Move (outLane c) (sealedPairs events) l ∧ (next.failed = false → l = outLane next) := by
  rcases sendWrapped_cases h with ⟨ssh, frame, hSend, rfl, rfl⟩ | ⟨counted, frame, hSeal, rfl, rfl⟩
  · obtain ⟨-, hKey, hs, -, hn, hw, hk⟩ := sshPacketSend2Wrapped_cases hSend
    rw [sealedPairs_sent hKey hs]
    rcases hk with ⟨ht, hSame, hp, hPend⟩ | ⟨ht, k, hPend, hNew, hp, hNone⟩
    · refine ⟨_, .use, fun _ => ?_⟩
      have hc := toNat_succ fun hz => hw ⟨hz, hBug⟩
      simp only [outLane, if_neg ht, hSame, hp, hPend, hn, hc, Nat.add_assoc]
    · refine ⟨_, .change (k := k.id) ?_, fun _ => ?_⟩
      · rw [outLane, hPend]
        rfl
      · simp only [outLane, if_pos ht, hNew, hp, hNone, hn]
        rfl
  · obtain ⟨-, hKey, hs, -⟩ := sealPacket_spec hSeal
    rw [sealedPairs_sent hKey hs]
    exact ⟨_, .use, fun hNever => by cases hNever⟩

lemma sendWrapped_kept (h : sendWrapped c payload = .ok (next, events)) :
    Kept c.ssh next.ssh ∧ acceptedPairs events = [] ∧ inLane next = inLane c := by
  rcases sendWrapped_cases h with ⟨ssh, frame, hs, rfl, rfl⟩ | ⟨counted, frame, hSeal, rfl, rfl⟩
  · obtain ⟨-, -, -, hk, -⟩ := sshPacketSend2Wrapped_cases hs
    exact ⟨hk, rfl, by simp only [inLane, hk.read, congrArg Kex.newkeysIn hk.kex]⟩
  · obtain ⟨-, -, -, hk, -⟩ := sealPacket_spec hSeal
    exact ⟨hk, rfl, by simp only [inLane, hk.read, congrArg Kex.newkeysIn hk.kex]⟩

lemma readPoll_move (hBug : c.ssh.bugNorekey = false) (h : readPoll c = .ok (next, events)) :
    Move (inLane c) (acceptedPairs events) (inLane next) ∧ sealedPairs events = [] ∧
      outLane next = outLane c ∧ next.failed = c.failed ∧ next.ssh.bugNorekey = false := by
  obtain ⟨⟨ssh, found⟩, hr, h⟩ := bind_eq_ok.1 h
  rcases receivePacket_cases hr with ⟨rfl, ho⟩ | ⟨packet, rfl, hAcc⟩
  · cases h
    have hs : inLane { c with ssh } = inLane c := by
      simp only [inLane, ho.newkeys, ho.newkeysIn, ho.state]
    have hOut : outLane { c with ssh } = outLane c := by
      simp only [outLane, ho.send, congrArg Kex.newkeysOut ho.kex]
    rw [hs]
    exact ⟨.stay, rfl, hOut, rfl, ho.bugNorekey.trans hBug⟩
  · cases h
    have hPairs : acceptedPairs [.received packet] = [((inLane c).key, (inLane c).number)] := by
      simp [acceptedPairs, inLane, hAcc.key, hAcc.seqnr]
    rw [hPairs]
    refine ⟨?_, rfl, ?_, rfl, hAcc.bugNorekey.trans hBug⟩
    · rcases hAcc.next_keys with
        ⟨ht, hs, hp, hPend⟩ | ⟨ht, k, hPend, hNew, hp, hn⟩
      · have hCount := toNat_succ fun hz => hAcc.counted ⟨hz, hBug⟩
        have hUse := Move.use (l := inLane c)
        simp only [inLane, if_neg ht, hs, hp, hPend, hAcc.next_seqnr, hCount, ← Nat.add_assoc] at hUse ⊢
        exact hUse
      · have hc := Move.change (l := inLane c) (k := k.id) (by rw [inLane, hPend]; rfl)
        simp only [inLane, if_pos ht, hNew, hp, hn, hAcc.next_seqnr] at hc ⊢
        exact hc
    · simp only [outLane, hAcc.send, congrArg Kex.newkeysOut hAcc.kex]

/-- What a call does to both directions, and which calls use a pair. Sending may end the connection,
and then only the pairs count. -/
lemma callStep_move (hBug : c.ssh.bugNorekey = false) (h : callStep c call = .ok (next, events)) :
    next.ssh.bugNorekey = false ∧
      (∃ l, Move (outLane c) (sealedPairs events) l ∧ (next.failed = false → l = outLane next)) ∧
      Move (inLane c) (acceptedPairs events) (inLane next) ∧
      (sealedPairs events = [] ∨ ∃ payload, call = .sendWrapped payload) ∧
      (acceptedPairs events = [] ∨ call = .readPoll) := by
  obtain ⟨-, h⟩ := callStep_eq_ok.1 h
  cases call with
  | sendWrapped payload =>
    obtain ⟨hk, hn, hIn⟩ := sendWrapped_kept h
    refine ⟨hk.bugNorekey.trans hBug, sendWrapped_move hBug h, ?_, .inr ⟨payload, rfl⟩, .inl hn⟩
    rw [hn, hIn]
    exact .stay
  | readPoll =>
    obtain ⟨hIn, hn, hOut, -, hNext⟩ := readPoll_move hBug h
    refine ⟨hNext, ⟨outLane c, ?_, fun _ => hOut.symm⟩, hIn, .inl hn, .inr rfl⟩
    rw [hn]
    exact .stay
  | incoming buf =>
    obtain ⟨ssh, hi, h⟩ := bind_eq_ok.1 h
    cases h
    rw [sshPacketProcessIncoming] at hi
    split_ifs at hi <;> cases hi
    all_goals exact ⟨hBug, ⟨_, .stay, fun _ => rfl⟩, .stay, .inl rfl, .inl rfl⟩
  | deriveKeys keysIn keysOut =>
    cases h
    refine ⟨hBug, ⟨_, .draw c.derived (Nat.lt_irrefl _), fun _ => ?_⟩, ?_, .inl rfl, .inl rfl⟩
    · simp only [outLane, kexDeriveKeys, setOf_lt_succ, Option.map_some]
    · have hd := Move.draw (l := inLane c) c.derived (Nat.lt_irrefl _)
      simp only [inLane, kexDeriveKeys, setOf_lt_succ, Option.map_some] at hd ⊢
      exact hd
  | chooseConf =>
    cases h
    exact ⟨hBug, ⟨_, .drop, fun _ => rfl⟩, .drop, .inl rfl, .inl rfl⟩
  | transfer monitor =>
    obtain ⟨ssh, ht, h⟩ := bind_eq_ok.1 h
    cases h
    obtain ⟨hNext, hOutKeys, hInKeys, hOutSeqnr, hInSeqnr, ho, hInPackets, hIn, hOut⟩ :=
      transfer_spec ht
    refine ⟨hNext.trans hBug, ⟨_, .drop, fun _ => ?_⟩, ?_, .inl rfl, .inl rfl⟩
    · simp only [outLane, hOutKeys, hOutSeqnr, ho, hOut]
      rfl
    · have hDrop := Move.drop (l := inLane c)
      simp only [inLane, hInKeys, hInSeqnr, hInPackets, hIn] at hDrop ⊢
      exact hDrop
  | other changed =>
    cases h
    exact ⟨hBug, ⟨_, .stay, fun _ => rfl⟩, .stay, .inl rfl, .inl rfl⟩

/-! Whole runs. -/

lemma number_succ (start : UInt32) (n : Nat) :
    start + UInt32.ofNat (n + 1) = start + UInt32.ofNat n + 1 := by
  rw [UInt32.ofNat_add, UInt32.add_assoc]
  rfl

lemma number_round (start : UInt32) {i j : Nat} (hOrder : i < j)
    (h : start + UInt32.ofNat i = start + UInt32.ofNat j) : 2 ^ 32 ≤ j - i := by
  have hs := congrArg UInt32.toNat h
  simp only [UInt32.toNat_add, UInt32.toNat_ofNat'] at hs
  omega

/-- A connection before its first key. -/
structure Start (c : Connection Ctx) : Prop where
  bugNorekey : c.ssh.bugNorekey = false
  out_key : c.ssh.send.newkeys = none
  out_pending : c.ssh.kex.newkeysOut = none
  out_packets : c.ssh.send.state.packets = 0
  out_carried : c.carriedOut = 0
  in_key : c.ssh.read.newkeys = none
  in_pending : c.ssh.kex.newkeysIn = none
  in_packets : c.ssh.read.state.packets = 0
  in_carried : c.carriedIn = 0

/-- Both directions have kept track of the pairs that were used. -/
structure Tracked (out inn : UInt32) (c : Connection Ctx) (past : List Event) : Prop where
  bugNorekey : c.ssh.bugNorekey = false
  out : ∃ l, Tracks (fun n => out + UInt32.ofNat n) (sealedPairs past) l ∧
    (c.failed = false → l = outLane c)
  inn : Tracks (fun n => inn + UInt32.ofNat n) (acceptedPairs past) (inLane c)

lemma tracks_nil {start : UInt32} {l : Lane Nat UInt32} (hKey : l.key = none)
    (hp : l.pending = none) (hNum : l.number = start) (hu : l.under = 0) :
    Tracks (fun n => start + UInt32.ofNat n) [] l where
  numbered := by
    intro i entry he
    cases he
  next := by
    rw [hNum]
    exact (UInt32.add_zero start).symm
  recent := ⟨[], by rw [hu]; rfl, fun k _ hn => by cases hn⟩
  used_drawn := by
    intro k hUsed
    cases hUsed
  key_drawn := by
    intro k hk
    rw [hKey] at hk
    cases hk
  pending_new := by
    intro k hk
    rw [hp] at hk
    cases hk

lemma Start.tracked (h : Start c) : Tracked c.ssh.send.state.seqnr c.ssh.read.state.seqnr c [] where
  bugNorekey := h.bugNorekey
  out := by
    refine ⟨outLane c, tracks_nil ?_ ?_ rfl ?_, fun _ => rfl⟩
    · rw [outLane, h.out_key]
      rfl
    · rw [outLane, h.out_pending]
      rfl
    · rw [outLane, h.out_carried, h.out_packets]
      rfl
  inn := by
    refine tracks_nil ?_ ?_ rfl ?_
    · rw [inLane, h.in_key]
      rfl
    · rw [inLane, h.in_pending]
      rfl
    · rw [inLane, h.in_carried, h.in_packets]
      rfl

lemma Tracked.step {out inn : UInt32} {past : List Event} (h : Tracked out inn c past)
    (hs : callStep c call = .ok (next, events)) : Tracked out inn next (past ++ events) := by
  obtain ⟨l, hOut, hl⟩ := h.out
  have hLive := (callStep_eq_ok.1 hs).1
  rw [hl hLive] at hOut
  obtain ⟨hBug, ⟨after, hm, ha⟩, hIn, -⟩ := callStep_move h.bugNorekey hs
  refine ⟨hBug, ⟨after, ?_, ha⟩, ?_⟩
  · rw [sealedPairs, filterMap_append]
    exact hOut.move (number_succ out) hm
  · rw [acceptedPairs, filterMap_append]
    exact h.inn.move (number_succ inn) hIn

/-- A key that was carried over a transfer is not used for more packets than there are
numbers. -/
def Fits (c : Connection Ctx) : Call Ctx → Prop
  | .sendWrapped _ =>
    c.carriedOut ≠ 0 → c.carriedOut + c.ssh.send.state.packets.toNat < 2 ^ 32
  | .readPoll => c.carriedIn ≠ 0 → c.carriedIn + c.ssh.read.state.packets.toNat < 2 ^ 32
  | _ => True

lemma under_lt {carried : Nat} {packets : UInt32}
    (h : carried ≠ 0 → carried + packets.toNat < 2 ^ 32) : carried + packets.toNat < 2 ^ 32 := by
  by_cases hc : carried = 0
  · have hBound := UInt32.toNat_lt packets
    omega
  · exact h hc

lemma callStep_pairs (hBug : c.ssh.bugNorekey = false) (h : callStep c call = .ok (next, events))
    (hf : Fits c call) : (sealedPairs events ≠ [] → (outLane c).under < 2 ^ 32) ∧
      (acceptedPairs events ≠ [] → (inLane c).under < 2 ^ 32) := by
  obtain ⟨-, -, -, hSealed, hAcc⟩ := callStep_move hBug h
  constructor <;> intro hs
  · obtain ⟨payload, rfl⟩ := hSealed.resolve_left hs
    exact under_lt hf
  · cases hAcc.resolve_left hs
    exact under_lt hf

lemma run_tracked (hs : Start c) (hRun : run callStep c calls = .ok (last, events)) :
    Tracked c.ssh.send.state.seqnr c.ssh.read.state.seqnr last events := by
  have ha : Along callStep (fun _ _ => True) c calls :=
    along_of_forall fun _ _ _ => trivial
  exact run_events (Tracked c.ssh.send.state.seqnr c.ssh.read.state.seqnr)
    (fun _ _ _ _ _ ht _ hStep => ht.step hStep) hs.tracked ha hRun

lemma run_short (hStart : Start c) (hf : Along callStep Fits c calls)
    (hRun : run callStep c calls = .ok (last, events)) :
    Short (2 ^ 32) (sealedPairs events) ∧ Short (2 ^ 32) (acceptedPairs events) := by
  have he : Short (2 ^ 32) ([] : List (Option Nat × UInt32)) := by
    intro i j k _ hn
    cases hn
  have hEnd := run_events (fun s past =>
    Tracked c.ssh.send.state.seqnr c.ssh.read.state.seqnr s past ∧
      Short (2 ^ 32) (sealedPairs past) ∧ Short (2 ^ 32) (acceptedPairs past))
    ?_ ⟨hStart.tracked, he, he⟩ hf hRun
  · exact hEnd.2
  rintro s past call next first ⟨ht, hSealed, hAcc⟩ hc hs
  obtain ⟨l, hOut, hl⟩ := ht.out
  have hLive := (callStep_eq_ok.1 hs).1
  rw [hl hLive] at hOut
  obtain ⟨-, ⟨after, hm, -⟩, hIn, -⟩ := callStep_move ht.bugNorekey hs
  obtain ⟨ho, hi⟩ := callStep_pairs ht.bugNorekey hs hc
  refine ⟨ht.step hs, ?_, ?_⟩
  · rw [sealedPairs, filterMap_append]
    exact hSealed.move hOut hm fun hSome _ => ho hSome
  · rw [acceptedPairs, filterMap_append]
    exact hAcc.move ht.inn hIn fun hSome _ => hi hSome

lemma run_nodup (hs : Start c) (hf : Along callStep Fits c calls)
    (hRun : run callStep c calls = .ok (last, events)) :
    (keyed (sealedPairs events)).Nodup ∧ (keyed (acceptedPairs events)).Nodup := by
  have ht := run_tracked hs hRun
  obtain ⟨l, hOut, -⟩ := ht.out
  obtain ⟨hSealed, hAcc⟩ := run_short hs hf hRun
  constructor
  · exact nodup_keyed (fun i j ho => number_round _ ho) hOut.numbered hSealed
  · exact nodup_keyed (fun i j ho => number_round _ ho) ht.inn.numbered hAcc

/-- No pair of key and number is used twice: the numbers go on by one with every packet
of a direction, over all changes of keys and all transfers, and no key lasts longer than
the numbers do. -/
theorem pairs_not_reused {c last : Connection Ctx} {calls : List (Call Ctx)} {events : List Event}
    (hStart : Start c) (hRun : run callStep c calls = .ok (last, events)) :
    Numbered (fun n => c.ssh.send.state.seqnr + UInt32.ofNat n) (sealedPairs events) ∧
      Numbered (fun n => c.ssh.read.state.seqnr + UInt32.ofNat n) (acceptedPairs events) ∧
      (Along callStep Fits c calls →
        (keyed (sealedPairs events)).Nodup ∧ (keyed (acceptedPairs events)).Nodup) := by
  have hTracked := run_tracked hStart hRun
  obtain ⟨l, hOut, -⟩ := hTracked.out
  exact ⟨hOut.numbered, hTracked.inn.numbered, fun hFits => run_nodup hStart hFits hRun⟩

instance (c : Connection Ctx) : ∀ call, Decidable (Fits c call)
  | .sendWrapped _ => inferInstanceAs (Decidable (_ → _))
  | .readPoll => inferInstanceAs (Decidable (_ → _))
  | .incoming _ => isTrue trivial
  | .deriveKeys _ _ => isTrue trivial
  | .chooseConf => isTrue trivial
  | .transfer _ => isTrue trivial
  | .other _ => isTrue trivial

def serverStart : Connection UInt8 where
  ssh := { shiftSession with
    serverSide := true
    read := { shiftDirection 0 with newkeys := none }
    send := { shiftDirection 0 with newkeys := none }
    kex := ⟨Kex.kexProp2buf Kex.serverProposal, [], false, false, false, none, none⟩ }
  dispatch := fun _ => .unset
  derived := 0
  carriedIn := 0
  carriedOut := 0
  failed := false

lemma serverStart_start : Start serverStart := by constructor <;> rfl

/-- Keys are exchanged, two packets are sent under them, and the session is transferred. -/
def carriedCalls : List (Call UInt8) :=
  [.deriveKeys (shiftKeys 0) (shiftKeys 0), .sendWrapped [msgNewkeys],
    .incoming (plainPacket [msgNewkeys]), .readPoll, .sendWrapped [msgIgnore],
    .sendWrapped [msgIgnore], .transfer serverStart.ssh]

theorem pairs_not_reused_carried :
    ((run callStep serverStart (carriedCalls ++ [.sendWrapped [msgIgnore]])).toOption.map
      fun out => sealedPairs out.2) = some [(none, 0), (some 0, 1), (some 0, 2), (some 0, 3)] ∧
      ∀ last events,
        run callStep serverStart (carriedCalls ++ [.sendWrapped [msgIgnore]]) = .ok (last, events) →
        (keyed (sealedPairs events)).Nodup ∧ (keyed (acceptedPairs events)).Nodup := by
  constructor
  · decide +kernel
  · intro last events hRun
    exact (pairs_not_reused serverStart_start hRun).2.2 (by decide +kernel)

/-! A key that is carried over a transfer can outlast the numbers. -/

lemma sealPacket_returns (payload : Bytes) (hPad : s.extraPad = 0) :
    ∃ counted frame, sealPacket s payload = .ok (counted, frame) ∧ counted.extraPad = 0 := by
  have hp : padLength s.send.newkeys.blockSize (5 + payload.length - s.send.newkeys.aadlen)
    s.extraPad = .ok (minPadding s.send.newkeys.blockSize
      (5 + payload.length - s.send.newkeys.aadlen)) := by
    exact if_pos hPad
  obtain ⟨-, -, hf⟩ := @minPadding_spec s.send.newkeys.blockSize
    (5 + payload.length - s.send.newkeys.aadlen) s.send.newkeys.blockSize_eq
  generalize minPadding s.send.newkeys.blockSize
    (5 + payload.length - s.send.newkeys.aadlen) = padlen at hp hf
  have hb : ((clearPacket payload (padding s padlen).2).drop s.send.newkeys.aadlen).length %
    s.send.newkeys.blockSize = 0 := by
    rw [length_drop, clearPacket_length, padding_length, ← hf]
    have hAad := s.send.newkeys.aadlen_eq
    congr 1
    omega
  have hEnc : ∃ out, cipherEncrypt s.send.newkeys s.send.context s.send.state.seqnr
    (clearPacket payload (padding s padlen).2) = .ok out := by
    generalize s.send.newkeys = keys at hb ⊢
    match keys with
    | none => exact ⟨_, rfl⟩
    | some ⟨_, .mac cipher _ _ _, _, _, _⟩ => exact ⟨_, if_neg (not_not.2 hb)⟩
    | some ⟨_, .aead cipher _, _, _, _⟩ => exact ⟨_, rfl⟩
  obtain ⟨out, hEnc⟩ := hEnc
  rw [sealPacket, hp, ok_bind]
  dsimp only
  rw [hEnc]
  exact ⟨_, _, rfl, rfl⟩

lemma run_ignores {id n : Nat} (hl : c.failed = false) (hPad : c.ssh.extraPad = 0)
    (hKey : c.ssh.send.newkeys.map Newkeys.id = some id)
    (hCount : c.ssh.send.state.packets.toNat + n < 2 ^ 32) :
    ∃ last events, run callStep c (List.replicate n (.sendWrapped [msgIgnore])) =
      .ok (last, events) ∧ (sealedPairs events).map Prod.fst = List.replicate n (some id) := by
  induction n generalizing c with
  | zero => exact ⟨c, [], rfl, rfl⟩
  | succ n ih =>
    obtain ⟨counted, frame, hs, hCnt⟩ := sealPacket_returns [msgIgnore] hPad
    obtain ⟨hLoad, hFrame, -, -, -, hk, -, hp⟩ := sealPacket_spec hs
    have hn : c.ssh.send.state.packets + 1 ≠ 0 := by
      intro hz
      have hv := congrArg UInt32.toNat hz
      rw [UInt32.toNat_add, UInt32.toNat_one, UInt32.toNat_zero] at hv
      omega
    have hf : finishSend counted frame = .ok (countSend counted frame) := by
      rw [finishSend, if_neg (by rw [hp]; exact fun h => hn h.1), hLoad,
        if_neg (by decide), if_neg (by rintro ⟨hNever, -⟩; revert hNever; decide)]
    have hStep : callStep c (.sendWrapped [msgIgnore]) =
      .ok ({ c with ssh := countSend counted frame }, [.sent frame]) := by
      rw [callStep_eq_ok]
      simp only [performCall, sendWrapped, hs, ok_bind, hf]
      exact ⟨hl, rfl⟩
    obtain ⟨last, events, hRun, he⟩ := ih (c := { c with ssh := countSend counted frame })
      hl hCnt (by rw [← hKey, ← hk]; rfl) (by
        have hv := toNat_succ hn
        show counted.send.state.packets.toNat + n < 2 ^ 32
        rw [hp, hv]
        omega)
    refine ⟨last, .sent frame :: events, ?_, ?_⟩
    · rw [replicate_succ, run_cons_eq_ok]
      exact ⟨_, _, _, hStep, hRun, rfl⟩
    · rw [replicate_succ, ← he, ← hKey, ← hFrame]
      rfl

/-- After the transfer the packets are counted from zero again, and the key is used for
more packets than there are numbers. -/
theorem transfer_reuses_pair : Start serverStart ∧ ∃ last events, run callStep serverStart (carriedCalls ++
    List.replicate (2 ^ 32 - 1) (.sendWrapped [msgIgnore])) = .ok (last, events) ∧
      ¬ (keyed (sealedPairs events)).Nodup := by
  refine ⟨serverStart_start, ?_⟩
  have hSeen : ((run callStep serverStart carriedCalls).toOption.map fun out =>
    (sealedPairs out.2, out.1.failed, out.1.ssh.extraPad, out.1.ssh.send.state.packets,
      out.1.ssh.send.newkeys.map Newkeys.id)) =
    some ([(none, 0), (some 0, 1), (some 0, 2)], false, 0, 0, some 0) := by decide +kernel
  obtain ⟨⟨middle, before⟩, hFront, hShown⟩ := Option.map_eq_some_iff.1 hSeen
  simp only [Prod.mk.injEq] at hShown
  obtain ⟨hBefore, hLive, hPad, hPackets, hKey⟩ := hShown
  obtain ⟨last, events, hBack, hEvents⟩ := run_ignores (n := 2 ^ 32 - 1) hLive hPad hKey
    (by rw [hPackets]; decide)
  have hRun := run_append (toOption_eq_some.1 hFront) hBack
  refine ⟨last, before ++ events, hRun, ?_⟩
  obtain ⟨l, hTracks, -⟩ := (run_tracked serverStart_start hRun).out
  have hPairs : sealedPairs (before ++ events) =
    [(none, 0), (some 0, 1), (some 0, 2)] ++ sealedPairs events := by
    rw [sealedPairs, filterMap_append, ← hBefore]
    rfl
  have hLength : (sealedPairs events).length = 2 ^ 32 - 1 := by
    rw [← length_map (f := Prod.fst), hEvents, length_replicate]
  -- The second packet, and the one that comes a round later.
  have hFirst : (sealedPairs (before ++ events))[1]? = some (some 0, 1) := by
    rw [hPairs]
    rfl
  have hLater : (sealedPairs (before ++ events))[2 ^ 32 + 1]? = some (some 0, 1) := by
    have hPlace : (sealedPairs (before ++ events))[2 ^ 32 + 1]? = (sealedPairs events)[2 ^ 32 - 2]? := by
      rw [hPairs, getElem?_append_right (by decide)]
      rfl
    obtain ⟨entry, hEntry⟩ : ∃ entry, (sealedPairs events)[2 ^ 32 - 2]? = some entry :=
      ⟨_, getElem?_eq_getElem (by rw [hLength]; decide)⟩
    have hUnder : some entry.1 = some (some 0) := by
      have hKeys := congrArg (·[2 ^ 32 - 2]?) hEvents
      simp only [getElem?_map, hEntry, getElem?_replicate] at hKeys
      exact hKeys
    have hNumber := hTracks.numbered (2 ^ 32 + 1) entry (hPlace.trans hEntry)
    rw [hPlace, hEntry]
    exact congrArg some (Prod.ext (Option.some.inj hUnder) (hNumber.trans (by decide)))
  exact not_nodup_keyed (by decide) hFirst hLater

end Packet
