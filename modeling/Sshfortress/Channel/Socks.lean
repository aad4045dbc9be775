import Sshfortress.Base.Always
import Sshfortress.Channel.Flow

/-! Dynamic forwarding. A local client asks for its destination by SOCKS, and the replies to it
are put on the queue that later holds the data of the channel. What leaves the queue is counted
for the window, whatever it is. -/
namespace Channel
open Base Base.Transition List

/-! The channel and the decoders. -/

structure Inet where
  ntoa : Bytes → Bytes
  ntop : Bytes → Option Bytes

/-- A channel made for dynamic forwarding. As long as its type is of another kind than the
handlers tell apart, `opening` says whether it is OPENING or still DYNAMIC. -/
structure Proxied extends Chan2 where
  (opening authDone : Bool)
  path : Option Bytes
  hostPort : Nat
  deriving DecidableEq

def Proxied.onChan2 (next : Chan2) (c : Proxied) : Proxied := { c with toChan2 := next }

inductive Note where
  | replied (bytes : Bytes)
  | asked (path : Option Bytes) (port : Nat)
  | did (action : Action)
  | sent (message : Message)
  deriving DecidableEq

inductive Decoded where
  | bad
  | more
  | done
  deriving DecidableEq

def niMaxhost : Nat := 1025

def word16 (bytes : Bytes) (i : Nat) : Nat := (bytes.getD i 0).toNat * 256 + (bytes.getD (i + 1) 0).toNat

inductive Scan where
  | found
  | more
  | tooLong
  deriving DecidableEq

/-- The loop that looks for the ends of the strings behind the fixed part. -/
def scanStrings (need : Nat) : Nat → Nat → Bytes → Scan
  | _, _, [] => .more
  | found, i, byte :: rest =>
    let found := if byte = 0 then found + 1 else found
    if byte = 0 && found = need then .found
    else if 1024 < i then .tooLong
    else scanStrings need found (i + 1) rest

/-- SOCKS4A has an address 0.0.0.x and the name of the host as a second string. -/
def stringsNeeded (p : Bytes) : Nat :=
  if p.getD 4 0 = 0 && p.getD 5 0 = 0 && p.getD 6 0 = 0 && p.getD 7 0 ≠ 0 then 2 else 1

def socks4Reply : Bytes := [0, 90, 0, 0, 0, 0, 0, 0]

def answerSocks4 (command : UInt8) (c : Proxied) : Proxied × List Note × Decoded :=
  if command ≠ 1 then (c, [], .bad)
  else ({ c with output := c.output ++ socks4Reply }, [.replied socks4Reply], .done)

def channelDecodeSocks4 (inet : Inet) (c : Proxied) : Except Stop (Proxied × List Note × Decoded) :=
  let p := c.input
  if p.length < 8 then .ok (c, [], .more)
  else
    match scanStrings (stringsNeeded p) 0 8 (p.drop 8) with
    | .tooLong => .ok (c, [], .bad)
    | .more => .ok (c, [], .more)
    | .found =>
      let user := cstr (p.drop 8)
      let rest := (p.drop 8).drop (user.length + 1)
      if 0 ∉ p.drop 8 then .error .fatal
      else if stringsNeeded p = 1 then
        .ok (answerSocks4 (p.getD 1 0) { c with
          input := rest
          path := some (inet.ntoa ((p.drop 4).take 4))
          hostPort := word16 p 2 })
      else
        let host := cstr rest
        if rest.length < host.length + 1 then .error .fatal
        else if niMaxhost < host.length + 1 then .ok ({ c with input := rest, path := none }, [], .bad)
        else
          .ok (answerSocks4 (p.getD 1 0) { c with
            input := rest.drop (host.length + 1)
            path := some host
            hostPort := word16 p 2 })

def socks5Greeting : Bytes := [5, 0]

def socks5Reply : Bytes := [5, 0, 0, 1, 0, 0, 0, 0, 0, 0]

/-- The length of the address, which a name has in front of it. -/
def addrlen (p : Bytes) : Option Nat :=
  match p.getD 3 0 with
  | 1 => some 4
  | 3 => some (p.getD 4 0).toNat
  | 4 => some 16
  | _ => none

def addrstart (p : Bytes) : Nat := if p.getD 3 0 = 3 then 5 else 4

def destination (inet : Inet) (p address : Bytes) : Option Bytes :=
  if p.getD 3 0 = 3 then if niMaxhost ≤ address.length then none else some (cstr address)
  else inet.ntop address

/-- The part of `channel_decode_socks5` before the methods are agreed on. -/
def socks5Methods (c : Proxied) : Proxied × List Note × Decoded :=
  let nmethods := (c.input.getD 1 0).toNat
  if c.input.length < 2 then (c, [], .more)
  else if c.input.length < nmethods + 2 then (c, [], .more)
  else if 0 ∉ (c.input.drop 2).take nmethods then (c, [], .bad)
  else
    ({ c with
      input := c.input.drop (nmethods + 2)
      output := c.output ++ socks5Greeting
      authDone := true }, [.replied socks5Greeting], .more)

def channelDecodeSocks5 (inet : Inet) (c : Proxied) : Proxied × List Note × Decoded :=
  let p := c.input
  if p.getD 0 0 ≠ 5 then (c, [], .bad)
  else if !c.authDone then socks5Methods c
  else if p.length < 5 then (c, [], .more)
  else if p.getD 1 0 ≠ 1 || p.getD 2 0 ≠ 0 then (c, [], .bad)
  else
    match addrlen p with
    | none => (c, [], .bad)
    | some len =>
      let behind := addrstart p + len
      if p.length < behind + 2 then (c, [], .more)
      else
        match destination inet p ((p.drop (addrstart p)).take len) with
        | none => ({ c with input := p.drop (behind + 2), path := none }, [], .bad)
        | some host =>
          ({ c with
            input := p.drop (behind + 2)
            path := some host
            hostPort := word16 p behind
            output := c.output ++ socks5Reply }, [.replied socks5Reply], .done)

/-- The first byte tells the protocol. -/
def decodeSocks (inet : Inet) (c : Proxied) : Except Stop (Proxied × List Note × Decoded) :=
  match c.input.getD 0 0 with
  | 4 => channelDecodeSocks4 inet c
  | 5 => .ok (channelDecodeSocks5 inet c)
  | _ => .ok (c, [], .bad)

def channelPreDynamic (inet : Inet) (c : Proxied) : Except Stop (Proxied × List Note) :=
  if c.input.length < 3 then .ok (c, [])
  else do
    let (c, notes, decoded) ← decodeSocks inet c
    match decoded with
    | .bad => return ({ c with type := .zombie }, notes)
    | .more => return (c, notes)
    | .done => return ({ c with opening := true }, notes ++ [.asked c.path c.hostPort])

/-! The channel as a machine. -/

/-- A round of `channel_post_open`, with the messages that go out on the way. -/
def postOpen (fellows : Datafellows) (r : Round) (g : Globals) (c : Chan2) :
    Except Stop (Chan2 × List Note) := do
  let (g, read, first) ← channelHandleRfd proto2 r c.toChan g
  let (_, written, second) ← channelHandleWfd proto2 r read g
  let after := channelHandleEfd r { c with toChan := written }
  let (checked, third) := channelCheckWindow after.toChan
  return ({ after with toChan := checked },
    first.map .did ++ (eowAfter fellows c read).map .sent ++ second.map .did ++
      (eowAfter fellows { c with toChan := read } written).map .sent ++ third.map .did)

abbrev Arrival := { message : Message // message.dataLength ≤ 256 * 1024 }

inductive ProxyTurn where
  | preDynamic
  | preOpen
  | postOpen (r : Round) (g : Globals)
  | outputPoll
  | confirmed (window maxpacket : UInt32)
  | refused
  | arrives (message : Arrival)
  | collect

/-- Messages for a channel that may not receive any end the connection, but for adjustments. -/
def strayInput (message : Message) (c : Proxied) : Except Stop (Proxied × List Note) :=
  match message with
  | .windowAdjust _ => .ok (c, [])
  | _ => .error (.exit 255)

def proxyInput (fellows : Datafellows) (message : Message) (c : Proxied) :
    Except Stop (Proxied × List Note) :=
  if c.type = .zombie then strayInput message c
  else (channelInput fellows message c.toChan2).map fun out => (c.onChan2 out.1, out.2.map .sent)

/-- A channel that is freed stays behind as a dead one. -/
def collected (fellows : Datafellows) (c : Chan2) : Chan2 × List Message :=
  let (next, sent, dead) := chanIsDead fellows c true
  (if dead then { next with type := .zombie } else next, sent)

/-- The handlers are chosen by the type of the channel. -/
def proxyStep (inet : Inet) (fellows : Datafellows) (c : Proxied) :
    ProxyTurn → Except Stop (Proxied × List Note)
  | .preDynamic =>
    if c.type = .other && !c.opening then channelPreDynamic inet c else .ok (c, [])
  | .preOpen =>
    if c.type = .opened then .ok (c.onChan2 (channelPreOpen c.toChan2), []) else .ok (c, [])
  | .postOpen r g =>
    if c.type = .opened || c.type = .other && !c.opening then
      (postOpen fellows r g c.toChan2).map fun out => (c.onChan2 out.1, out.2)
    else .ok (c, [])
  | .outputPoll =>
    (channelOutputPoll c.toChan2).map fun out => (c.onChan2 out.1, out.2.map .sent)
  | .confirmed window maxpacket =>
    if c.type = .other && c.opening then
      .ok ({ c with type := .opened, remoteWindow := window, remoteMaxpacket := maxpacket }, [])
    else .error (.exit 255)
  | .refused =>
    if c.type = .other && c.opening then .ok ({ c with type := .zombie }, [])
    else .error (.exit 255)
  | .arrives message => proxyInput fellows message.val c
  | .collect =>
    .ok (c.onChan2 (collected fellows c.toChan2).1, (collected fellows c.toChan2).2.map .sent)

def tcpPacketDefault : UInt32 := 32 * 1024

def tcpWindowDefault : UInt32 := 64 * tcpPacketDefault

def dynamicSettings : Settings where
  ctype := text "dynamic-tcpip"
  logfd := false
  logfdTime := false
  datagram := false
  inputFilter := false
  outputFilter := false
  localMaxpacket := tcpPacketDefault

def freshDynamic : Proxied where
  toSettings := dynamicSettings
  type := .other
  rfd := true
  wfd := true
  sock := true
  isatty := false
  detachClose := false
  istate := .opened
  ostate := .opened
  closeSent := false
  closeRcvd := false
  input := []
  output := []
  localWindow := tcpWindowDefault
  localWindowMax := tcpWindowDefault
  localConsumed := 0
  remoteWindow := 0
  remoteMaxpacket := 0
  efd := false
  extendedUsage := .ignore
  extended := []
  eofSent := false
  eofRcvd := false
  isLocal := false
  forceDrain := false
  detachUser := false
  opening := false
  authDone := false
  path := none
  hostPort := 0

/-! What is counted. -/

def Note.repliedLength : Note → Nat
  | .replied bytes => bytes.length
  | _ => 0

def Note.handedLength : Note → Nat
  | .did (.handed bytes) => bytes.length
  | _ => 0

def Note.adjustment : Note → Nat
  | .did (.adjusted window) => window.toNat
  | _ => 0

def repliedBytes (notes : List Note) : Nat := (notes.map Note.repliedLength).sum

def handedBytes (notes : List Note) : Nat := (notes.map Note.handedLength).sum

def adjustedBytes (notes : List Note) : Nat := (notes.map Note.adjustment).sum

def writtenData (notes : List Note) : Nat := handedBytes notes - repliedBytes notes

def queuedData (c : Proxied) (notes : List Note) : Nat :=
  c.output.length - (repliedBytes notes - handedBytes notes)

/-- Each adjustment gives back the data that was written since the one before: all adjustments
up to this one give back all that was written. -/
def AdjustsExactly (notes : List Note) : Prop :=
  ∀ front window back, notes = front ++ .did (.adjusted window) :: back →
    adjustedBytes front + window.toNat = writtenData front

/-- The account of a channel that gives back what was received and written, and no more. -/
def WindowKept (s : Proxied × List Note) : Prop :=
  s.1.localWindow.toNat + s.1.localConsumed.toNat + queuedData s.1 s.2 ≤ s.1.localWindowMax.toNat ∧
    AdjustsExactly s.2

@[simp] lemma repliedBytes_append (front back : List Note) :
    repliedBytes (front ++ back) = repliedBytes front + repliedBytes back := by simp [repliedBytes]

@[simp] lemma repliedBytes_cons (note : Note) (notes : List Note) :
    repliedBytes (note :: notes) = note.repliedLength + repliedBytes notes := by simp [repliedBytes]

@[simp] lemma handedBytes_append (front back : List Note) :
    handedBytes (front ++ back) = handedBytes front + handedBytes back := by simp [handedBytes]

def Note.Silent : Note → Prop
  | .replied _ => False
  | .asked _ _ => True
  | .did (.handed _) => False
  | .did (.adjusted _) => False
  | .did _ => True
  | .sent _ => True

lemma Note.Silent.lengths {note : Note} (h : note.Silent) :
    note.repliedLength = 0 ∧ note.handedLength = 0 := by
  cases note with
  | replied bytes => exact h.elim
  | asked path port => exact ⟨rfl, rfl⟩
  | sent message => exact ⟨rfl, rfl⟩
  | did action =>
    cases action with
    | handed bytes => exact h.elim
    | _ => exact ⟨rfl, rfl⟩

variable {c : Proxied} {past notes : List Note} {next : Chan2} {r : Round} {actions : List Action}
  {fellows : Datafellows} {inet : Inet} {g g' : Globals} {sent : List Message}

lemma silent_bytes (h : ∀ note ∈ notes, note.Silent) : repliedBytes notes = 0 ∧ handedBytes notes = 0 := by
  constructor
  · apply sum_eq_zero
    simp only [mem_map, forall_exists_index, and_imp, forall_apply_eq_imp_iff₂]
    exact fun note hMem => (h note hMem).lengths.1
  · apply sum_eq_zero
    simp only [mem_map, forall_exists_index, and_imp, forall_apply_eq_imp_iff₂]
    exact fun note hMem => (h note hMem).lengths.2

lemma silent_sent (sent : List Message) : ∀ note ∈ sent.map Note.sent, note.Silent := by
  intro note hMem
  obtain ⟨message, -, rfl⟩ := mem_map.1 hMem
  trivial

lemma silent_ofRead (h : ∀ a ∈ actions, a.ofRead = true) : ∀ note ∈ actions.map Note.did, note.Silent := by
  intro note hMem
  obtain ⟨action, ha, rfl⟩ := mem_map.1 hMem
  have hRead := h action ha
  cases action <;> trivial

/-! Steps that leave the account alone. -/

/-- The windows do not change, and the queue at most loses everything at once, when a write to
the client of an open channel has failed. -/
structure Steady (c next : Chan2) : Prop where
  settings : next.toSettings = c.toSettings
  localWindow : next.localWindow = c.localWindow
  localWindowMax : next.localWindowMax = c.localWindowMax
  localConsumed : next.localConsumed = c.localConsumed
  efd : next.efd = c.efd
  type : next.type = c.type ∨ next.type = .zombie
  ostate : next.ostate = .opened → c.ostate = .opened
  output : next.output = c.output ∨ next.output = [] ∧ next.type ≠ .other ∧ next.ostate ≠ .opened

lemma Steady.refl (c : Chan2) : Steady c c := ⟨rfl, rfl, rfl, rfl, rfl, .inl rfl, id, .inl rfl⟩

lemma Steady.type_ne_other {c : Chan2} (h : Steady c next) (ht : c.type ≠ .other) :
    next.type ≠ .other := by
  rcases h.type with hs | hd
  · rw [hs]
    exact ht
  · rw [hd]
    simp

lemma Steady.trans {c middle : Chan2} (front : Steady c middle) (back : Steady middle next) :
    Steady c next where
  settings := back.settings.trans front.settings
  localWindow := back.localWindow.trans front.localWindow
  localWindowMax := back.localWindowMax.trans front.localWindowMax
  localConsumed := back.localConsumed.trans front.localConsumed
  efd := back.efd.trans front.efd
  type := by
    rcases back.type with hs | hd
    · rw [hs]
      exact front.type
    · exact .inr hd
  ostate := fun ho => front.ostate (back.ostate ho)
  output := by
    rcases back.output with hs | hc
    · rw [hs]
      rcases front.output with hf | ⟨he, ht, hState⟩
      · exact .inl hf
      · exact .inr ⟨he, back.type_ne_other ht, fun ho => hState (back.ostate ho)⟩
    · exact .inr hc

lemma steady_chanRcvdEow (c : Chan2) : Steady c (c.onChan (chanRcvdEow proto2)) := by
  obtain ⟨rfd, istate, hEq, -⟩ := chanRcvdEow_eq proto2 c.toChan
  rw [Chan2.onChan, hEq]
  exact ⟨rfl, rfl, rfl, rfl, rfl, .inl rfl, id, .inl rfl⟩

lemma readFailed_eq (c : Chan) : ∃ rfd istate type, readFailed proto2 c = { c with rfd, istate, type } ∧
      (type = c.type ∨ c.type ≠ .opened ∧ type = .zombie) := by
  rw [readFailed]
  by_cases ht : c.type ≠ .opened
  · rw [if_pos ht]
    exact ⟨c.rfd, c.istate, .zombie, rfl, .inr ⟨ht, rfl⟩⟩
  · obtain ⟨rfd, istate, hEq, -⟩ := chanReadFailed_eq proto2 c
    rw [if_neg ht, proto2_compat13, if_neg Bool.false_ne_true, hEq]
    exact ⟨rfd, istate, c.type, rfl, .inl rfl⟩

lemma writeFailed_eq (c : Chan) : writeFailed proto2 c = c ∨ (∃ wfd, c.type = .opened ∧
        writeFailed proto2 c = { c with wfd, ostate := .closed, output := [] }) ∨
      c.type ≠ .opened ∧ writeFailed proto2 c = { c with type := .zombie } := by
  rw [writeFailed]
  by_cases ht : c.type ≠ .opened
  · rw [if_pos ht]
    exact .inr (.inr ⟨ht, rfl⟩)
  · rw [if_neg ht, proto2_compat13, if_neg Bool.false_ne_true]
    rcases chanWriteFailed_eq proto2 c with ⟨-, hEq⟩ | ⟨wfd, ostate, hEq, -, hc⟩
    · exact .inl hEq
    · rw [hEq, hc rfl]
      exact .inr (.inl ⟨wfd, not_not.1 ht, rfl⟩)

lemma Shift.steady {c : Chan2} (h : Shift c next) : Steady c next := by
  cases h with
  | writeDrains hOpen => exact ⟨rfl, rfl, rfl, rfl, rfl, .inl rfl, nofun, .inl rfl⟩
  | writeEnds wfd he => exact ⟨rfl, rfl, rfl, rfl, rfl, .inl rfl, nofun, .inl he.symm⟩
  | tornDown => exact ⟨rfl, rfl, rfl, rfl, rfl, .inl rfl, nofun, .inl rfl⟩
  | _ => exact ⟨rfl, rfl, rfl, rfl, rfl, .inl rfl, id, .inl rfl⟩

lemma Shifts.steady {c : Chan2} (h : Shifts c next sent) : Steady c next := by
  induction h with
  | done c => exact .refl c
  | eof hDrain => exact ⟨rfl, rfl, rfl, rfl, rfl, .inl rfl, id, .inl rfl⟩
  | step hs rest ih => exact hs.steady.trans ih

lemma steady_chanRcvdClose2 (c : Chan2) : Steady c (chanRcvdClose2 c).1 := by
  refine Steady.trans ?_ (chanRcvdClose2_shifts c).steady
  split
  · exact .refl c
  · exact ⟨rfl, rfl, rfl, rfl, rfl, .inl rfl, id, .inl rfl⟩

lemma Polls.steady {c : Chan2} (h : Polls c next sent) : Steady c next := by
  induction h with
  | idle => exact .refl c
  | drops input => exact ⟨rfl, rfl, rfl, rfl, rfl, .inl rfl, id, .inl rfl⟩
  | sends input bytes => exact ⟨rfl, rfl, rfl, rfl, rfl, .inl rfl, id, .inl rfl⟩
  | drains h => exact h.steady
  | sendsExtended front extended bytes _ _ _ _ _ ih =>
    exact ih.trans ⟨rfl, rfl, rfl, rfl, rfl, .inl rfl, id, .inl rfl⟩

lemma steady_chanIsDead (fellows : Datafellows) (c : Chan2) (doSend : Bool) :
    Steady c (chanIsDead fellows c doSend).1 := by
  rcases chanIsDead_cases fellows c doSend with ⟨hs, -⟩ | ⟨-, -, -, hm, -⟩
  · rw [hs]
    exact .refl c
  · rw [hm]
    exact ⟨rfl, rfl, rfl, rfl, rfl, .inl rfl, id, .inl rfl⟩

lemma steady_collected (fellows : Datafellows) (c : Chan2) : Steady c (collected fellows c).1 := by
  have hSteady := steady_chanIsDead fellows c true
  rw [collected]
  dsimp only
  split
  · exact hSteady.trans ⟨rfl, rfl, rfl, rfl, rfl, .inr rfl, id, .inl rfl⟩
  · exact hSteady

lemma steady_channelInput {c : Chan2} {message : Message} (hEfd : c.efd = false)
    (hData : ∀ bytes, message ≠ .data bytes) (h : channelInput fellows message c = .ok (next, sent)) :
    Steady c next := by
  cases message with
  | data bytes => exact absurd rfl (hData bytes)
  | extendedData code bytes =>
    obtain ⟨after, hi, hd⟩ := bind_eq_ok.1 h
    cases hd
    rw [channelInputExtendedData, hEfd] at hi
    simp only [Bool.not_false, Bool.true_or, if_true] at hi
    split_ifs at hi <;> cases hi <;> exact .refl _
  | windowAdjust adjust =>
    obtain ⟨after, hi, hd⟩ := bind_eq_ok.1 h
    cases hd
    rw [channelInputWindowAdjust] at hi
    split_ifs at hi
    cases hi
    exact ⟨rfl, rfl, rfl, rfl, rfl, .inl rfl, id, .inl rfl⟩
  | eof =>
    have hSteady := (channelInputIeof_shifts c).steady
    rwa [show channelInputIeof c = (next, sent) from Except.ok.inj h] at hSteady
  | close =>
    have hSteady := steady_chanRcvdClose2 c
    rwa [show chanRcvdClose2 c = (next, sent) from Except.ok.inj h] at hSteady
  | eow =>
    cases h
    exact steady_chanRcvdEow c

/-! What the decoders can do. -/

/-- The request is incomplete, refused, greeted or answered. -/
inductive Decodes (c : Proxied) : Proxied × List Note × Decoded → Prop where
  | waits : Decodes c (c, [], .more)
  | fails (input : Bytes) (path : Option Bytes) (port : Nat) :
      Decodes c ({ c with input := input, path := path, hostPort := port }, [], .bad)
  | greets (input : Bytes) (hFirst : c.authDone = false) :
      Decodes c ({ c with
        input := input
        output := c.output ++ socks5Greeting
        authDone := true }, [.replied socks5Greeting], .more)
  | answers (input : Bytes) (path : Option Bytes) (port : Nat) (reply : Bytes)
      (hReply : reply = socks4Reply ∨ reply = socks5Reply) :
      Decodes c ({ c with
        input := input
        path := path
        hostPort := port
        output := c.output ++ reply }, [.replied reply], .done)

lemma answerSocks4_decodes (command : UInt8) (c : Proxied) (input : Bytes) (path : Option Bytes)
    (port : Nat) :
    Decodes c (answerSocks4 command { c with input := input, path := path, hostPort := port }) := by
  rw [answerSocks4]
  split
  · exact .fails input path port
  · exact .answers input path port socks4Reply (.inl rfl)

variable {out : Proxied × List Note × Decoded} {s : Proxied × List Note} {turn : ProxyTurn}

lemma channelDecodeSocks4_decodes (h : channelDecodeSocks4 inet c = .ok out) : Decodes c out := by
  rw [channelDecodeSocks4] at h
  dsimp only at h
  split at h
  · cases h
    exact .waits
  split at h
  · cases h
    exact .fails c.input c.path c.hostPort
  · cases h
    exact .waits
  split at h
  · cases h
  split at h
  · cases h
    exact answerSocks4_decodes ..
  split at h
  · cases h
  split at h
  · cases h
    exact .fails _ none c.hostPort
  · cases h
    exact answerSocks4_decodes ..

lemma socks5Methods_decodes (hFirst : c.authDone = false) : Decodes c (socks5Methods c) := by
  rw [socks5Methods]
  split
  · exact .waits
  split
  · exact .waits
  split
  · exact .fails c.input c.path c.hostPort
  · exact .greets _ hFirst

lemma channelDecodeSocks5_decodes (inet : Inet) (c : Proxied) : Decodes c (channelDecodeSocks5 inet c) := by
  rw [channelDecodeSocks5]
  split
  · exact .fails c.input c.path c.hostPort
  split
  · next hFirst => exact socks5Methods_decodes (Bool.not_eq_true' _ ▸ hFirst)
  split
  · exact .waits
  split
  · exact .fails c.input c.path c.hostPort
  cases hLength : addrlen c.input with
  | none => exact .fails c.input c.path c.hostPort
  | some len =>
    dsimp only
    split
    · exact .waits
    split
    · exact .fails _ none c.hostPort
    · exact .answers _ _ _ socks5Reply (.inr rfl)

lemma decodeSocks_decodes (h : decodeSocks inet c = .ok out) : Decodes c out := by
  rw [decodeSocks] at h
  split at h
  · exact channelDecodeSocks4_decodes h
  · cases h
    exact channelDecodeSocks5_decodes inet c
  · cases h
    exact .fails c.input c.path c.hostPort

/-- A round before the request is complete. -/
inductive PreDynamic (c : Proxied) : Proxied → List Note → Prop where
  | waits : PreDynamic c c []
  | dies (input : Bytes) (path : Option Bytes) (port : Nat) :
      PreDynamic c { c with input := input, path := path, hostPort := port, type := .zombie } []
  | greets (input : Bytes) (hFirst : c.authDone = false) :
      PreDynamic c { c with
        input := input
        output := c.output ++ socks5Greeting
        authDone := true } [.replied socks5Greeting]
  | asks (input : Bytes) (path : Option Bytes) (port : Nat) (reply : Bytes)
      (hReply : reply = socks4Reply ∨ reply = socks5Reply) :
      PreDynamic c { c with
        input := input
        path := path
        hostPort := port
        output := c.output ++ reply
        opening := true } [.replied reply, .asked path port]

lemma channelPreDynamic_cases {next : Proxied} (h : channelPreDynamic inet c = .ok (next, notes)) :
    PreDynamic c next notes := by
  rw [channelPreDynamic] at h
  split at h
  · cases h
    exact .waits
  · obtain ⟨out, hOut, hd⟩ := bind_eq_ok.1 h
    cases decodeSocks_decodes hOut with
    | waits =>
      cases hd
      exact .waits
    | fails input path port =>
      cases hd
      exact .dies input path port
    | greets input hFirst =>
      cases hd
      exact .greets input hFirst
    | answers input path port reply hReply =>
      cases hd
      exact .asks input path port reply hReply

/-! What a round of an open channel can do. -/

/-- The client takes something off the queue. -/
def takesOutput (r : Round) (c : Chan) : Bool :=
  c.wfd && r.writable && c.output ≠ [] &&
    match r.write with
    | .wrote n => 0 < n
    | _ => false

def windowDue (c : Chan) : Bool :=
  c.type = .opened && !c.closeSent && !c.closeRcvd &&
    (c.localMaxpacket * 3 < c.localWindowMax - c.localWindow ||
      c.localWindow < c.localWindowMax / 2) && 0 < c.localConsumed

lemma channelCheckWindow_eq (c : Chan) : channelCheckWindow c = if windowDue c then
      ({ c with localWindow := c.localWindow + c.localConsumed, localConsumed := 0 },
        [.adjusted c.localConsumed])
    else (c, []) :=
  rfl

structure Streams (c : Chan) : Prop where
  datagram : c.datagram = false
  inputFilter : c.inputFilter = false
  outputFilter : c.outputFilter = false

lemma Streams.fetchOutput_eq {c : Chan} (hs : Streams c) (writable : Bool) :
    fetchOutput writable c = .ok (if c.wfd && writable && c.output ≠ [] then .data c.output c
      else .nothing) := by
  rw [fetchOutput]
  split
  · rw [hs.outputFilter, hs.datagram]
    rfl
  · rfl

lemma Streams.readSide_cases {c next : Chan} (hs : Streams c) {k : Option Keys}
    (h : readSide proto2 r k c g = .ok (g', next, actions)) :
    next = c ∨ next = readFailed proto2 c ∨ ∃ input, next = { c with input } := by
  rcases readSide_eq_ok h with ⟨-, -, hSame, -⟩ | ⟨-, -, hf, -⟩ | ⟨chunk, -, hr⟩
  · exact .inl hSame
  · exact .inr (.inl hf)
  · obtain ⟨-, -, hn, -⟩ := relayChunk_eq_ok hs.inputFilter hs.datagram hr
    exact .inr (.inr ⟨_, hn⟩)

lemma Streams.handleRfd_cases {c next : Chan} (hs : Streams c)
    (h : channelHandleRfd proto2 r c g = .ok (g', next, actions)) :
    next = c ∨ next = readFailed proto2 c ∨ ∃ input, next = { c with input } := by
  obtain ⟨found, hFetch, hr⟩ := channelHandleRfd_eq_ok h
  rw [hs.fetchOutput_eq] at hFetch
  cases hFetch
  split at hr
  · exact hs.readSide_cases hr
  · next hf => split at hf <;> cases hf
  · next hf =>
    split at hf
    · cases hf
      exact hs.readSide_cases hr
    · cases hf

lemma Streams.handleRfd_leaves {c next : Chan} (hs : Streams c)
    (h : channelHandleRfd proto2 r c g = .ok (g', next, actions)) :
    (∀ c2 : Chan2, c2.toChan = c → Steady c2 { c2 with toChan := next }) ∧
      takesOutput r next = takesOutput r c ∧ windowDue next = windowDue c := by
  rcases hs.handleRfd_cases h with rfl | rfl | ⟨input, rfl⟩
  · exact ⟨fun c2 hc => hc ▸ .refl c2, rfl, rfl⟩
  · obtain ⟨rfd, istate, type, hf, ht⟩ := readFailed_eq c
    rw [hf]
    refine ⟨fun c2 hc => ?_, rfl, ?_⟩
    · subst hc
      refine ⟨rfl, rfl, rfl, rfl, rfl, ?_, id, .inl rfl⟩
      exact ht.imp id And.right
    · rcases ht with rfl | ⟨ho, rfl⟩
      · rfl
      · simp [windowDue, ho]
  · refine ⟨fun c2 hc => ?_, rfl, rfl⟩
    subst hc
    exact ⟨rfl, rfl, rfl, rfl, rfl, .inl rfl, id, .inl rfl⟩

lemma Streams.handleWfd_cases {c next : Chan} (hs : Streams c)
    (h : channelHandleWfd proto2 r c g = .ok (g', next, actions)) :
    takesOutput r c = false ∧ (next = c ∨ next = writeFailed proto2 c) ∧ actions = [] ∨
      takesOutput r c = true ∧ ∃ len, 0 < len ∧ len ≤ c.output.length ∧
        next = { c with
          output := c.output.drop len
          localConsumed := c.localConsumed + UInt32.ofNat len } ∧
        actions = [.handed (c.output.take len)] := by
  obtain ⟨-, found, hf, hRest⟩ := channelHandleWfd_eq_ok h
  rw [hs.fetchOutput_eq] at hf
  cases hf
  by_cases hr : (c.wfd && r.writable && c.output ≠ []) = true
  · rw [if_pos hr] at hRest
    dsimp only at hRest
    rw [hs.datagram, if_neg nofun] at hRest
    have hSome : c.output ≠ [] := by
      simp only [Bool.and_eq_true, decide_eq_true_eq] at hr
      exact hr.2
    rcases writeStream_eq_ok hRest with ⟨hn, hNext, ha⟩ | ⟨n, len, hw, -, hPos, hLen, rfl, ha⟩
    · refine .inl ⟨?_, hNext, ha⟩
      rw [takesOutput, hr]
      cases hw : r.write with
      | wrote n =>
        cases n with
        | zero => rfl
        | succ n => exact absurd hw (hn hSome n)
      | _ => rfl
    · refine .inr ⟨?_, len, hPos, hLen, ?_, ha⟩
      · rw [takesOutput, hr, hw]
        rfl
      · have hc : c.output.length - (c.output.drop len).length = len := by
          rw [length_drop]
          omega
        rw [countConsumed, proto2_compat20, if_pos rfl, hc]
  · rw [if_neg hr] at hRest
    obtain ⟨rfl, rfl⟩ := hRest
    refine .inl ⟨?_, .inl rfl, rfl⟩
    rw [takesOutput, Bool.eq_false_iff.2 hr, Bool.false_and]

lemma windowDue_writeFailed (c : Chan) : windowDue (writeFailed proto2 c) = windowDue c := by
  rcases writeFailed_eq c with hs | ⟨wfd, -, hc⟩ | ⟨ho, hd⟩
  · rw [hs]
  · rw [hc]
    rfl
  · rw [hd]
    simp [windowDue, ho]

lemma steady_writeFailed (c : Chan2) : Steady c { c with toChan := writeFailed proto2 c.toChan } := by
  rcases writeFailed_eq c.toChan with hs | ⟨wfd, ht, hc⟩ | ⟨-, hd⟩
  · rw [hs]
    exact .refl c
  · have hk : c.type ≠ .other := by simp [ht]
    rw [hc]
    exact ⟨rfl, rfl, rfl, rfl, rfl, .inl rfl, nofun, .inr ⟨rfl, hk, nofun⟩⟩
  · rw [hd]
    exact ⟨rfl, rfl, rfl, rfl, rfl, .inr rfl, id, .inl rfl⟩

/-- A round that takes nothing off the queue and gives nothing back, one that gives something
back, and one that takes something off the queue. -/
inductive PostOpen (r : Round) (c next : Chan2) (notes : List Note) : Prop where
  | quiet (hTakes : takesOutput r c.toChan = false) (hDue : windowDue c.toChan = false)
      (hSteady : Steady c next) (hSilent : ∀ note ∈ notes, note.Silent)
  | adjusts (hTakes : takesOutput r c.toChan = false) (hDue : windowDue c.toChan = true)
      (front : List Note) (hSilent : ∀ note ∈ front, note.Silent)
      (hNotes : notes = front ++ [.did (.adjusted c.localConsumed)])
  | writes (hTakes : takesOutput r c.toChan = true) (len : Nat) (hPos : 0 < len)
      (hLength : len ≤ c.output.length) (hHanded : handedBytes notes = len)
      (hReplied : repliedBytes notes = 0) (hMax : next.localWindowMax = c.localWindowMax)
      (hOutput : next.output = c.output.drop len)
      (hCounted : next.localWindow = c.localWindow ∧
          next.localConsumed = c.localConsumed + UInt32.ofNat len ∨
        next.localWindow = c.localWindow + (c.localConsumed + UInt32.ofNat len) ∧
          next.localConsumed = 0)

lemma channelHandleEfd_closed {c : Chan2} (hEfd : c.efd = false) : channelHandleEfd r c = c := by
  rw [channelHandleEfd, hEfd]
  rfl

lemma channelCheckWindow_moves (c : Chan) : (channelCheckWindow c).1.output = c.output ∧
    (channelCheckWindow c).1.localWindowMax = c.localWindowMax ∧
    handedBytes ((channelCheckWindow c).2.map Note.did) = 0 ∧
    repliedBytes ((channelCheckWindow c).2.map Note.did) = 0 ∧
    ((channelCheckWindow c).1.localWindow = c.localWindow ∧
      (channelCheckWindow c).1.localConsumed = c.localConsumed ∨
      (channelCheckWindow c).1.localWindow = c.localWindow + c.localConsumed ∧
        (channelCheckWindow c).1.localConsumed = 0) := by
  rw [channelCheckWindow_eq]
  split
  · exact ⟨rfl, rfl, rfl, rfl, .inr ⟨rfl, rfl⟩⟩
  · exact ⟨rfl, rfl, rfl, rfl, .inl ⟨rfl, rfl⟩⟩

lemma Streams.of_settings {c next : Chan} (hs : Streams c)
    (hSet : next.toSettings = c.toSettings) : Streams next := by
  constructor
  · rw [hSet, hs.datagram]
  · rw [hSet, hs.inputFilter]
  · rw [hSet, hs.outputFilter]

lemma postOpen_cases {c : Chan2} (hs : Streams c.toChan) (hEfd : c.efd = false)
    (h : postOpen fellows r g c = .ok (next, notes)) : PostOpen r c next notes := by
  obtain ⟨⟨g', read, first⟩, hr, h⟩ := bind_eq_ok.1 h
  obtain ⟨⟨g'', written, second⟩, hWrite, h⟩ := bind_eq_ok.1 h
  obtain ⟨hl, hTakes, hDue⟩ := hs.handleRfd_leaves hr
  have hSteady : Steady c { c with toChan := read } := hl c rfl
  have hFirst := silent_ofRead ((channelHandleRfd_reads hr).ofRead)
  dsimp only at h
  rw [channelHandleEfd_closed (c := { c with toChan := written }) hEfd] at h
  have hAfter : Streams read := hs.of_settings hSteady.settings
  rcases hAfter.handleWfd_cases hWrite with
    ⟨hn, hSame, rfl⟩ | ⟨hSome, len, hPos, hLength, rfl, rfl⟩
  · have hw : Steady c { c with toChan := written } ∧ windowDue written = windowDue c.toChan := by
      rcases hSame with rfl | rfl
      · exact ⟨hSteady, hDue⟩
      · exact ⟨hSteady.trans (steady_writeFailed { c with toChan := read }),
          (windowDue_writeFailed read).trans hDue⟩
    obtain ⟨hb, hSameDue⟩ := hw
    have hu : written.localConsumed = c.localConsumed := hb.localConsumed
    rw [hTakes] at hn
    rw [channelCheckWindow_eq, hSameDue] at h
    cases ha : windowDue c.toChan with
    | false =>
      rw [ha, if_neg nofun] at h
      cases h
      refine .quiet hn ha hb ?_
      simp only [map_nil, append_nil, forall_mem_append]
      exact ⟨⟨hFirst, silent_sent _⟩, silent_sent _⟩
    | true =>
      rw [ha, if_pos rfl, hu] at h
      cases h
      refine .adjusts hn ha _ ?_ rfl
      simp only [map_nil, append_nil, forall_mem_append]
      exact ⟨⟨hFirst, silent_sent _⟩, silent_sent _⟩
  · have hOutput : read.output = c.output := by
      rcases hSteady.output with hOutput | ⟨hEmpty, -⟩
      · exact hOutput
      · have hZero : read.output.length = 0 := congrArg List.length hEmpty
        omega
    have ht : (read.output.take len).length = len := by
      rw [length_take]
      omega
    have hf := silent_bytes hFirst
    have he := fun sent => silent_bytes (silent_sent sent)
    obtain ⟨hq, hMax, hHanded, hReplied, hCounted⟩ := channelCheckWindow_moves { read with
      output := read.output.drop len
      localConsumed := read.localConsumed + UInt32.ofNat len }
    cases h
    refine .writes (hTakes.symm.trans hSome) len hPos (hOutput ▸ hLength) ?_ ?_
      (hMax.trans hSteady.localWindowMax) (hq.trans (hOutput ▸ rfl)) ?_
    · rw [handedBytes_append, handedBytes_append, handedBytes_append, handedBytes_append,
        hf.2, (he _).2, (he _).2, hHanded]
      simp [handedBytes, Note.handedLength, ht]
    · rw [repliedBytes_append, repliedBytes_append, repliedBytes_append, repliedBytes_append,
        hf.1, (he _).1, (he _).1, hReplied]
      rfl
    · rw [← hSteady.localWindow, ← hSteady.localConsumed]
      exact hCounted

/-! The account until something is taken off the queue. -/

/-- Nothing has left the queue: replies are in front, and data behind them. -/
structure Intact (c : Proxied) (replied : Nat) : Prop where
  sum : c.localWindow.toNat + c.localConsumed.toNat + c.output.length = tcpWindowDefault.toNat + replied
  front : replied ≤ c.output.length
  none : replied = 0 → c.output = []

/-- A failed write has emptied the queue for good. -/
structure Cleared (c : Proxied) : Prop where
  output : c.output = []
  type : c.type ≠ .other
  ostate : c.ostate ≠ .opened
  sum : c.localWindow.toNat + c.localConsumed.toNat ≤ tcpWindowDefault.toNat

/-- A channel from which nothing was written, with the notes of its life. -/
structure Waiting (s : Proxied × List Note) : Prop where
  settings : s.1.toSettings = dynamicSettings
  localWindowMax : s.1.localWindowMax = tcpWindowDefault
  efd : s.1.efd = false
  kind : s.1.type = .other ∨ s.1.type = .opened ∨ s.1.type = .zombie
  opened : s.1.type = .opened → s.1.opening = true
  answered : s.1.opening = true → 0 < repliedBytes s.2
  greeted : s.1.opening = false → repliedBytes s.2 = if s.1.authDone then 2 else 0
  few : repliedBytes s.2 ≤ 12
  unwritten : handedBytes s.2 = 0
  unadjusted : ∀ window, .did (.adjusted window) ∉ s.2
  account : Intact s.1 (repliedBytes s.2) ∨ Cleared s.1

lemma tcpWindowDefault_toNat : tcpWindowDefault.toNat = 2097152 := rfl

lemma freshDynamic_waiting : Waiting (freshDynamic, []) where
  settings := rfl
  localWindowMax := rfl
  efd := rfl
  kind := .inl rfl
  opened := nofun
  answered := nofun
  greeted := fun _ => rfl
  few := Nat.zero_le _
  unwritten := rfl
  unadjusted := nofun
  account := .inl ⟨rfl, Nat.le_refl _, fun _ => rfl⟩

lemma adjustsExactly_of_none (h : ∀ window, .did (.adjusted window) ∉ notes) : AdjustsExactly notes := by
  intro front window back hNotes
  refine absurd ?_ (h window)
  simp [hNotes]

lemma Waiting.kept (h : Waiting s) : WindowKept s := by
  refine ⟨?_, adjustsExactly_of_none h.unadjusted⟩
  rw [queuedData, h.unwritten, h.localWindowMax, Nat.sub_zero]
  rcases h.account with hi | hc
  · have hSum := hi.sum
    have hFront := hi.front
    omega
  · have hSum := hc.sum
    rw [hc.output]
    simpa using hSum

lemma Waiting.streams (h : Waiting s) : Streams s.1.toChan :=
  Streams.of_settings (c := freshDynamic.toChan) ⟨rfl, rfl, rfl⟩ h.settings

lemma Waiting.accounts (h : Waiting (c, past)) : Intact c (repliedBytes past) ∨ Cleared c := h.account

lemma Waiting.intact (h : Waiting (c, past)) (ht : c.type = .other) : Intact c (repliedBytes past) :=
  h.accounts.resolve_right fun hc => hc.type ht

lemma Waiting.steady (h : Waiting (c, past)) (hSteady : Steady c.toChan2 next)
    (hSilent : ∀ note ∈ notes, note.Silent) : Waiting (c.onChan2 next, past ++ notes) := by
  obtain ⟨hReplied, hHanded⟩ := silent_bytes hSilent
  have hs : repliedBytes (past ++ notes) = repliedBytes past := by
    rw [repliedBytes_append, hReplied, Nat.add_zero]
  constructor
  · exact hSteady.settings.trans h.settings
  · exact hSteady.localWindowMax.trans h.localWindowMax
  · exact hSteady.efd.trans h.efd
  · rcases hSteady.type with ht | hd
    · exact (ht.symm ▸ h.kind : next.type = .other ∨ next.type = .opened ∨ next.type = .zombie)
    · exact .inr (.inr hd)
  · intro ho
    rcases hSteady.type with ht | hd
    · exact h.opened (ht.symm.trans ho)
    · exact absurd (hd.symm.trans ho) (by simp)
  · exact hs ▸ h.answered
  · exact hs ▸ h.greeted
  · exact hs ▸ h.few
  · rw [handedBytes_append, hHanded, h.unwritten]
  · intro window hMem
    rcases mem_append.1 hMem with hOld | hNew
    · exact h.unadjusted window hOld
    · exact hSilent _ hNew
  · rw [hs]
    rcases hSteady.output with hOutput | ⟨he, ht, hState⟩
    · rcases h.account with hi | hc
      · refine .inl ⟨?_, ?_, ?_⟩
        · rw [Proxied.onChan2, hSteady.localWindow, hSteady.localConsumed, hOutput]
          exact hi.sum
        · rw [Proxied.onChan2, hOutput]
          exact hi.front
        · rw [Proxied.onChan2, hOutput]
          exact hi.none
      · refine .inr ⟨hOutput.trans hc.output, hSteady.type_ne_other hc.type,
          fun ho => hc.ostate (hSteady.ostate ho), ?_⟩
        rw [Proxied.onChan2, hSteady.localWindow, hSteady.localConsumed]
        exact hc.sum
    · refine .inr ⟨he, ht, hState, ?_⟩
      rw [Proxied.onChan2, hSteady.localWindow, hSteady.localConsumed]
      rcases h.accounts with hi | hc
      · have hSum := hi.sum
        have hFront := hi.front
        omega
      · exact hc.sum

lemma Intact.reply {next : Proxied} {replied : Nat} {reply : Bytes} (h : Intact c replied)
    (hReply : 0 < reply.length) (hWin : next.localWindow = c.localWindow)
    (hu : next.localConsumed = c.localConsumed) (hOutput : next.output = c.output ++ reply) :
    Intact next (replied + reply.length) := by
  have hSum := h.sum
  have hFront := h.front
  have hLength : next.output.length = c.output.length + reply.length := by
    rw [hOutput, length_append]
  refine ⟨?_, ?_, ?_⟩
  · rw [hWin, hu]
    omega
  · omega
  · omega

section
variable (h : Waiting (c, past))
include h

lemma Waiting.preDynamic {next : Proxied} (ht : c.type = .other)
    (he : c.opening = false) (hPre : PreDynamic c next notes) : Waiting (next, past ++ notes) := by
  have hi := h.intact ht
  have hg : repliedBytes past = if c.authDone then 2 else 0 := h.greeted he
  have hHanded : handedBytes (past ++ notes) = 0 := by
    rw [handedBytes_append, h.unwritten]
    cases hPre <;> rfl
  have ha : ∀ window, .did (.adjusted window) ∉ past ++ notes := by
    intro window hMem
    refine (mem_append.1 hMem).elim (h.unadjusted window) fun hNew => ?_
    cases hPre <;> simp at hNew
  have hReplied : ∀ reply : Bytes, ∀ rest, repliedBytes rest = 0 →
    repliedBytes (past ++ .replied reply :: rest) = repliedBytes past + reply.length := by
    intro reply rest hr
    rw [repliedBytes_append, repliedBytes_cons, hr]
    rfl
  cases hPre with
  | waits =>
    rw [append_nil]
    exact h
  | dies input path port =>
    rw [append_nil]
    exact ⟨h.settings, h.localWindowMax, h.efd, .inr (.inr rfl), nofun, h.answered, h.greeted,
      h.few, h.unwritten, h.unadjusted, .inl ⟨hi.sum, hi.front, hi.none⟩⟩
  | greets input hFirst =>
    rw [hFirst, if_neg nofun] at hg
    have hTwo : repliedBytes (past ++ [.replied socks5Greeting]) = 2 := by
      rw [hReplied _ [] rfl, hg]
      rfl
    refine ⟨h.settings, h.localWindowMax, h.efd, .inl ht, fun ho => ?_, fun ho => ?_,
      fun _ => hTwo, by rw [hTwo]; decide, hHanded, ha, .inl ?_⟩
    · exact absurd (ht.symm.trans ho) (by simp)
    · exact absurd (he.symm.trans ho) (by simp)
    · rw [hReplied _ [] rfl]
      exact hi.reply (by decide) rfl rfl rfl
  | asks input path port reply hReply =>
    have hLength : 0 < reply.length ∧ reply.length ≤ 10 := by
      rcases hReply with rfl | rfl
      · decide
      · decide
    have hs := hReplied reply [.asked path port] rfl
    have hBefore : repliedBytes past ≤ 2 := by
      rw [hg]
      split <;> omega
    refine ⟨h.settings, h.localWindowMax, h.efd, .inl ht, fun _ => rfl, fun _ => ?_, nofun,
      ?_, hHanded, ha, .inl ?_⟩
    · rw [hs]
      omega
    · rw [hs]
      omega
    · rw [hs]
      exact hi.reply hLength.1 rfl rfl rfl

lemma Waiting.confirmed (ht : c.type = .other) (ho : c.opening = true) (window maxpacket : UInt32) :
    Waiting ({ c with type := .opened, remoteWindow := window, remoteMaxpacket := maxpacket }, past ++ []) := by
  have hi := h.intact ht
  rw [append_nil]
  refine ⟨h.settings, h.localWindowMax, h.efd, .inr (.inl rfl), fun _ => ho, fun _ => h.answered ho,
    fun he => ?_, h.few, h.unwritten, h.unadjusted, .inl ⟨hi.sum, hi.front, hi.none⟩⟩
  exact absurd (ho.symm.trans he) (by simp)

/-! Data. -/

lemma Waiting.held_lt : c.localWindow.toNat + c.localConsumed.toNat + c.output.length ≤ 2097164 := by
  have hFew : repliedBytes past ≤ 12 := h.few
  rcases h.accounts with hi | hc
  · have hSum := hi.sum
    rw [tcpWindowDefault_toNat] at hSum
    omega
  · have hSum := hc.sum
    have hNone : c.output.length = 0 := congrArg List.length hc.output
    rw [tcpWindowDefault_toNat] at hSum
    omega

lemma Waiting.windowLength_eq (data : Bytes) : windowLength c.toChan data = UInt32.ofNat data.length := by
  rw [windowLength, h.streams.datagram]
  simp

lemma Waiting.inputData_cases (data : Bytes) :
    (c.type = .opened → c.ostate = .opened) ∧ channelInputData2 data c.toChan2 = c.toChan2 ∨
      c.type = .opened ∧ c.ostate ≠ .opened ∧ channelInputData2 data c.toChan2 = { c.toChan2 with
          localWindow := c.localWindow - UInt32.ofNat data.length
          localConsumed := c.localConsumed + UInt32.ofNat data.length } ∨
      c.type = .opened ∧ c.ostate = .opened ∧ UInt32.ofNat data.length ≤ c.localWindow ∧
        channelInputData2 data c.toChan2 = { c.toChan2 with
          localWindow := c.localWindow - UInt32.ofNat data.length
          output := c.output ++ data } := by
  have hLength := h.windowLength_eq data
  have hg : c.datagram = false := h.streams.datagram
  rw [channelInputData2, Chan2.onChan, channelInputData, hLength]
  dsimp only
  by_cases ht : c.type = .opened
  · rw [if_neg (by simp [ht]), proto2_compat13, proto2_compat20]
    by_cases hs : c.ostate = .opened
    · rw [if_neg (by simp [hs])]
      by_cases hr : c.localWindow < UInt32.ofNat data.length
      · rw [if_pos (by simp [hr])]
        exact .inl ⟨fun _ => hs, rfl⟩
      · rw [if_neg (by simp [hr]), if_pos rfl, queueEntry, if_neg (by simp [hg])]
        exact .inr (.inr ⟨ht, hs, UInt32.not_lt.1 hr, rfl⟩)
    · rw [if_pos (by simp [hs]), if_pos rfl]
      exact .inr (.inl ⟨ht, hs, rfl⟩)
  · rw [if_pos]
    · exact .inl ⟨fun ho => absurd ho ht, rfl⟩
    · rcases h.kind with hk | hk | hk
      · simp [show c.type = _ from hk]
      · exact absurd hk ht
      · simp [show c.type = _ from hk]

end

/-- Data that finds no room on the way out must fit the window. -/
def dataFits (c : Proxied) (data : Bytes) : Prop :=
  c.type = .opened → c.ostate ≠ .opened → UInt32.ofNat data.length ≤ c.localWindow
  deriving Decidable

lemma toNat_sub_le {window len : UInt32} (h : len ≤ window) :
    (window - len).toNat + len.toNat = window.toNat := by
  have hLe := UInt32.le_iff_toNat_le.1 h
  rw [UInt32.toNat_sub_of_le _ _ h]
  omega

section
variable (h : Waiting (c, past))
include h

lemma Waiting.data {data : Bytes} (hPkt : data.length ≤ 256 * 1024)
    (hf : dataFits c data) : Waiting (c.onChan2 (channelInputData2 data c.toChan2), past ++ []) := by
  have hHeld := h.held_lt
  rcases h.inputData_cases data with ⟨-, hSame⟩ | ⟨ht, hs, hCounted⟩ | ⟨ht, hs, hLe, hq⟩
  · rw [hSame]
    exact h.steady (.refl _) (by simp)
  · have hLe := hf ht hs
    have hWin := toNat_sub_le hLe
    have hUsed : (c.localConsumed + UInt32.ofNat data.length).toNat =
      c.localConsumed.toNat + (UInt32.ofNat data.length).toNat := by
      rw [UInt32.toNat_add]
      omega
    rw [hCounted, append_nil]
    refine ⟨h.settings, h.localWindowMax, h.efd, h.kind, h.opened, h.answered, h.greeted, h.few,
      h.unwritten, h.unadjusted, ?_⟩
    rcases h.accounts with hi | hc
    · refine .inl ⟨?_, hi.front, hi.none⟩
      have hSum := hi.sum
      simp only [Proxied.onChan2]
      omega
    · refine .inr ⟨hc.output, hc.type, hc.ostate, ?_⟩
      have hSum := hc.sum
      simp only [Proxied.onChan2]
      omega
  · have hWin := toNat_sub_le hLe
    have hLength : (UInt32.ofNat data.length).toNat = data.length := by
      rw [UInt32.toNat_ofNat']
      omega
    have hAnswered : 0 < repliedBytes past := h.answered (h.opened ht)
    rw [hq, append_nil]
    refine ⟨h.settings, h.localWindowMax, h.efd, h.kind, h.opened, h.answered, h.greeted, h.few,
      h.unwritten, h.unadjusted, ?_⟩
    rcases h.accounts with hi | hc
    · have hSum := hi.sum
      have hFront := hi.front
      refine .inl ⟨?_, ?_, fun hn => ?_⟩
      · simp only [Proxied.onChan2, length_append]
        omega
      · simp only [Proxied.onChan2, length_append]
        omega
      · have hZero : repliedBytes past = 0 := hn
        omega
    · exact absurd hs hc.ostate

lemma Waiting.data_breaks {data : Bytes} (hPkt : data.length ≤ 256 * 1024) (hNot : ¬ dataFits c data) :
    ¬ WindowKept (c.onChan2 (channelInputData2 data c.toChan2), past ++ []) := by
  rw [dataFits, Classical.not_imp, Classical.not_imp] at hNot
  obtain ⟨ht, hs, hl⟩ := hNot
  have hLength : (UInt32.ofNat data.length).toNat = data.length := by
    rw [UInt32.toNat_ofNat']
    omega
  have hMore : c.localWindow.toNat < data.length := by
    rw [UInt32.not_le, UInt32.lt_iff_toNat_lt, hLength] at hl
    exact hl
  have hMax : c.localWindowMax = tcpWindowDefault := h.localWindowMax
  rcases h.inputData_cases data with ⟨ho, -⟩ | ⟨-, -, hCounted⟩ | ⟨-, ho, -⟩
  · exact absurd (ho ht) hs
  · intro hk
    have hSum := hk.1
    rw [hCounted] at hSum
    simp only [Proxied.onChan2] at hSum
    rw [UInt32.toNat_sub, UInt32.toNat_add, hLength, hMax, tcpWindowDefault_toNat] at hSum
    omega
  · exact absurd ho hs

/-! Rounds. -/

lemma Waiting.writes_breaks {len : Nat} (hPos : 0 < len)
    (hLength : len ≤ c.output.length) (hHanded : handedBytes notes = len)
    (hReplied : repliedBytes notes = 0) (hMax : next.localWindowMax = c.localWindowMax)
    (hOutput : next.output = c.output.drop len) (hCounted : next.localWindow = c.localWindow ∧
      next.localConsumed = c.localConsumed + UInt32.ofNat len ∨
      next.localWindow = c.localWindow + (c.localConsumed + UInt32.ofNat len) ∧
        next.localConsumed = 0) : ¬ WindowKept (c.onChan2 next, past ++ notes) := by
  rintro ⟨hSum, -⟩
  have hHeld := h.held_lt
  have hUnwritten : handedBytes past = 0 := h.unwritten
  have hi : Intact c (repliedBytes past) := by
    rcases h.accounts with hi | hc
    · exact hi
    · have hn : c.output.length = 0 := congrArg List.length hc.output
      omega
  have hPre := hi.sum
  have hSome : repliedBytes past ≠ 0 := by
    intro hz
    have hn : c.output.length = 0 := congrArg List.length (hi.none hz)
    omega
  have hBoth : next.localWindow.toNat + next.localConsumed.toNat =
    c.localWindow.toNat + c.localConsumed.toNat + len := by
    rcases hCounted with ⟨hWin, hu⟩ | ⟨hWin, hu⟩
    · rw [hWin, hu, toNat_add_ofNat (by omega)]
      omega
    · rw [hWin, hu, UInt32.toNat_add, toNat_add_ofNat (by omega), UInt32.toNat_zero]
      omega
  have hl : c.localWindowMax = tcpWindowDefault := h.localWindowMax
  simp only [Proxied.onChan2, queuedData, hMax, hOutput, length_drop, repliedBytes_append,
    handedBytes_append, hHanded, hReplied, hUnwritten, hl] at hSum
  omega

variable {next : Proxied}

lemma Waiting.adjusts_breaks {front : List Note}
    (hDue : windowDue c.toChan = true) (hSilent : ∀ note ∈ front, note.Silent) :
    ¬ WindowKept (next, past ++ (front ++ [.did (.adjusted c.localConsumed)])) := by
  rintro ⟨-, he⟩
  have hu : handedBytes past = 0 := h.unwritten
  have hg := he (past ++ front) c.localConsumed [] (by rw [append_assoc])
  rw [writtenData, handedBytes_append, hu, (silent_bytes hSilent).2, Nat.zero_sub] at hg
  have hs : 0 < c.localConsumed := by
    simp only [windowDue, Bool.and_eq_true, decide_eq_true_eq] at hDue
    exact hDue.2
  rw [UInt32.lt_iff_toNat_lt] at hs
  omega

/-- The client takes nothing off the queue and no adjustment is due, and data that finds no room
on the way out fits the window. -/
def Undisturbed (s : Proxied × List Note) : ProxyTurn → Prop
  | .postOpen r _ =>
    (s.1.type = .opened || s.1.type = .other && !s.1.opening) = true →
      takesOutput r s.1.toChan = false ∧ windowDue s.1.toChan = false
  | .arrives ⟨.data bytes, _⟩ => dataFits s.1 bytes
  | _ => True

instance (s : Proxied × List Note) : ∀ turn, Decidable (Undisturbed s turn)
  | .preDynamic | .preOpen | .outputPoll | .confirmed _ _ | .refused | .collect => isTrue trivial
  | .postOpen _ _ => inferInstanceAs (Decidable (_ → _ ∧ _))
  | .arrives ⟨.data _, _⟩ => inferInstanceAs (Decidable (dataFits _ _))
  | .arrives ⟨.extendedData _ _, _⟩ | .arrives ⟨.windowAdjust _, _⟩ | .arrives ⟨.eof, _⟩
  | .arrives ⟨.close, _⟩ | .arrives ⟨.eow, _⟩ => isTrue trivial

lemma Waiting.stays : Waiting (c, past ++ []) := by rwa [append_nil]

lemma proxyInput_waiting {message : Arrival} (hc : Undisturbed (c, past) (.arrives message))
    (hs : proxyInput fellows message.val c = .ok (next, notes)) : Waiting (next, past ++ notes) := by
  obtain ⟨message, hPkt⟩ := message
  rw [proxyInput] at hs
  split at hs
  · rw [strayInput.eq_def] at hs
    split at hs
    · cases hs
      exact h.stays
    · cases hs
  · obtain ⟨⟨after, sent⟩, hi, hDone⟩ := map_eq_ok.1 hs
    cases hDone
    by_cases hd : ∃ bytes, message = .data bytes
    · obtain ⟨bytes, rfl⟩ := hd
      cases hi
      exact h.data hPkt hc
    · have ho : ∀ bytes, message ≠ .data bytes := fun bytes hb => hd ⟨bytes, hb⟩
      exact h.steady (steady_channelInput h.efd ho hi) (silent_sent sent)

/-- A step without such a disturbance leaves the account right. -/
lemma proxyStep_waiting
    (hc : Undisturbed (c, past) turn) (hs : proxyStep inet fellows c turn = .ok (next, notes)) :
    Waiting (next, past ++ notes) := by
  cases turn with
  | preDynamic =>
    rw [proxyStep] at hs
    split at hs
    · next hd =>
      simp only [Bool.and_eq_true, decide_eq_true_eq, Bool.not_eq_true'] at hd
      exact h.preDynamic hd.1 hd.2 (channelPreDynamic_cases hs)
    · cases hs
      exact h.stays
  | preOpen =>
    rw [proxyStep] at hs
    split at hs
    · cases hs
      exact h.steady (channelPreOpen_shifts _).steady (by simp)
    · cases hs
      exact h.stays
  | postOpen r g =>
    rw [proxyStep] at hs
    split at hs
    · next hh =>
      obtain ⟨⟨after, shown⟩, hp, hDone⟩ := map_eq_ok.1 hs
      cases hDone
      obtain ⟨hTakes, hDue⟩ := hc hh
      cases postOpen_cases h.streams h.efd hp with
      | quiet _ _ hSteady hSilent => exact h.steady hSteady hSilent
      | adjusts _ hNow => exact absurd (hDue.symm.trans hNow) (by simp)
      | writes hNow => exact absurd (hTakes.symm.trans hNow) (by simp)
    · cases hs
      exact h.stays
  | outputPoll =>
    obtain ⟨⟨after, sent⟩, hPoll, hDone⟩ := map_eq_ok.1 hs
    cases hDone
    exact h.steady (channelOutputPoll_polls hPoll).steady (silent_sent sent)
  | confirmed window maxpacket =>
    rw [proxyStep] at hs
    split at hs
    · next ho =>
      simp only [Bool.and_eq_true, decide_eq_true_eq] at ho
      cases hs
      exact h.confirmed ho.1 ho.2 window maxpacket
    · cases hs
  | refused =>
    rw [proxyStep] at hs
    split at hs
    · cases hs
      have hDead : Steady c.toChan2 { c.toChan2 with type := .zombie } :=
        ⟨rfl, rfl, rfl, rfl, rfl, .inr rfl, id, .inl rfl⟩
      exact h.steady hDead (by simp)
    · cases hs
  | arrives message => exact proxyInput_waiting h hc hs
  | collect =>
    cases hs
    exact h.steady (steady_collected fellows c.toChan2) (silent_sent _)

/-- Every other step makes it wrong. -/
lemma proxyStep_breaks (hd : ¬ Undisturbed (c, past) turn)
    (hs : proxyStep inet fellows c turn = .ok (next, notes)) : ¬ WindowKept (next, past ++ notes) := by
  cases turn with
  | postOpen r g =>
    rw [Undisturbed, Classical.not_imp] at hd
    obtain ⟨hh, hSome⟩ := hd
    rw [proxyStep, if_pos hh] at hs
    obtain ⟨⟨after, shown⟩, hp, hDone⟩ := map_eq_ok.1 hs
    cases hDone
    cases postOpen_cases h.streams h.efd hp with
    | quiet hTakes hDue => exact absurd ⟨hTakes, hDue⟩ hSome
    | adjusts _ hDue front hSilent hNotes =>
      subst hNotes
      exact h.adjusts_breaks hDue hSilent
    | writes _ len hPos hLength hHanded hReplied hMax hOutput hCounted =>
      exact h.writes_breaks hPos hLength hHanded hReplied hMax hOutput hCounted
  | arrives message =>
    obtain ⟨message, hPkt⟩ := message
    cases message with
    | data bytes =>
      have ht : c.type = .opened := by
        by_contra ho
        exact hd fun hOpen => absurd hOpen ho
      rw [proxyStep, proxyInput, if_neg (by simp [ht])] at hs
      cases hs
      exact h.data_breaks hPkt hd
    | _ => exact absurd trivial hd
  | _ => exact absurd trivial hd

end

/-- The window of a channel for dynamic forwarding is accounted for exactly as long as no byte of
a reply was written, no credit was given back for data that was thrown away, and no thrown away
data was larger than the window. -/
theorem socks_window_iff (inet : Inet) (fellows : Datafellows) (turns : List ProxyTurn) :
    Throughout (recording (proxyStep inet fellows)) WindowKept (freshDynamic, []) turns ↔
      Taken (recording (proxyStep inet fellows)) Undisturbed (freshDynamic, []) turns := by
  refine throughout_iff_taken Waiting (fun _ => Waiting.kept) ?_ ?_ freshDynamic_waiting
  · rintro ⟨c, past⟩ turn next notes hWaiting hUndisturbed hStep
    obtain ⟨after, hAfter, rfl⟩ := recording_eq_ok.1 hStep
    exact proxyStep_waiting hWaiting hUndisturbed hAfter
  · rintro ⟨c, past⟩ turn next notes hWaiting hDisturbed hStep
    obtain ⟨after, hAfter, rfl⟩ := recording_eq_ok.1 hStep
    exact proxyStep_breaks hWaiting hDisturbed hAfter

def noInet : Inet := ⟨id, some⟩

/-- A SOCKS4 request for port 80 of 10.0.0.1, which is granted, and the reply is written. -/
def socks4Session : List ProxyTurn :=
  [.postOpen (reads [4, 1, 0, 80, 10, 0, 0, 1, 0]) twoSessions.globals, .preDynamic,
    .confirmed 2097152 32768,
    .postOpen { quietRound with writable := true, write := .wrote 8 } twoSessions.globals]

/-- Eight bytes that the peer never sent are about to be given back to it. -/
theorem socks_reply_counted : (¬ ∀ turns, Throughout (recording (proxyStep noInet ⟨false, true⟩)) WindowKept
    (freshDynamic, []) turns) ∧
    ∃ last sent, run (proxyStep noInet ⟨false, true⟩) freshDynamic socks4Session = .ok (last, sent) ∧
      last.localWindow = last.localWindowMax ∧ last.localConsumed = 8 ∧ last.output = [] := by
  have hEnd : (run (recording (proxyStep noInet ⟨false, true⟩)) (freshDynamic, []) socks4Session).toOption.map
    (fun out => (out.1.1.localWindow, out.1.1.localConsumed, out.1.1.localWindowMax,
      out.1.1.output)) = some (2097152, 8, 2097152, []) := by decide +kernel
  have hPlain : (run (proxyStep noInet ⟨false, true⟩) freshDynamic socks4Session).toOption.map
    (fun out => (out.1.localWindow, out.1.localConsumed, out.1.localWindowMax, out.1.output)) =
      some (2097152, 8, 2097152, []) := by decide +kernel
  constructor
  · intro hClaim
    obtain ⟨⟨⟨last, past⟩, sent⟩, hRun, hLast⟩ := Option.map_eq_some_iff.1 hEnd
    simp only [Prod.mk.injEq] at hLast
    obtain ⟨hWindow, hConsumed, hMax, hOutput⟩ := hLast
    have hSum := ((hClaim socks4Session).last (toOption_eq_some.1 hRun)).1
    simp only [hWindow, hConsumed, hMax] at hSum
    exact absurd (Nat.le_trans (Nat.le_add_right _ _) hSum) (by decide)
  · obtain ⟨⟨last, sent⟩, hRun, hLast⟩ := Option.map_eq_some_iff.1 hPlain
    simp only [Prod.mk.injEq] at hLast
    obtain ⟨hWindow, hConsumed, hMax, hOutput⟩ := hLast
    exact ⟨last, sent, toOption_eq_some.1 hRun, hWindow.trans hMax.symm, hConsumed, hOutput⟩

end Channel
