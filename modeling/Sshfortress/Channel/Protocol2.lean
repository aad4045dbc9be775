import Sshfortress.Channel.Effects

/-! Channels of protocol 2 on either side of a connection, with their extended data, the
window of the peer, and the messages by which the two sides end a channel. -/
namespace Channel
open Base
open Bool (and_eq_true or_eq_true)

inductive ExtendedUsage where
  | ignore
  | read
  | write
  deriving DecidableEq

/-- A channel with what protocol 2 adds. `detachUser` tells whether a callback is
registered for the end of the channel. -/
structure Chan2 extends Chan where
  (remoteWindow remoteMaxpacket : UInt32)
  efd : Bool
  extendedUsage : ExtendedUsage
  extended : Bytes
  (eofSent eofRcvd isLocal forceDrain detachUser : Bool)
  deriving DecidableEq

inductive Message where
  | data (bytes : Bytes)
  | extendedData (code : Nat) (bytes : Bytes)
  | windowAdjust (adjust : UInt32)
  | eof
  | close
  /-- The request that asks the peer to stop writing. -/
  | eow
  deriving DecidableEq

/-- The properties of the peer's version that matter here. -/
structure Datafellows where
  (bugExteof newOpenssh : Bool)
  deriving DecidableEq

def proto2 : Compat := ⟨false, true⟩

@[simp] lemma proto2_compat13 : proto2.compat13 = false := rfl

@[simp] lemma proto2_compat20 : proto2.compat20 = true := rfl

def extendedDataStderr : Nat := 1

variable (fellows : Datafellows)

def Chan2.onChan (f : Chan → Chan) (c : Chan2) : Chan2 := { c with toChan := f c.toChan }

def efdInputActive (c : Chan2) : Bool :=
  c.extendedUsage = .read && (c.efd || c.extended ≠ [])

def efdOutputActive (c : Chan2) : Bool :=
  c.extendedUsage = .write && c.efd && (!(c.eofRcvd || c.closeRcvd) || c.extended ≠ [])

/-! Messages that end a channel. -/

def chanSendEof2 (c : Chan2) : Chan2 × List Message :=
  match c.istate with
  | .waitDrain => ({ c with eofSent := true }, [.eof])
  | _ => (c, [])

def chanSendClose2 (c : Chan2) : Chan2 × List Message :=
  if c.ostate ≠ .closed || c.istate ≠ .closed then (c, [])
  else if c.closeSent then (c, [])
  else ({ c with closeSent := true }, [.close])

def chanSendEow2 (c : Chan2) : List Message :=
  if c.ostate = .closed then []
  else if fellows.newOpenssh then [.eow]
  else []

/-! What happens to a channel. -/

def chanIbufEmpty (c : Chan2) : Chan2 × List Message :=
  if c.input ≠ [] then (c, [])
  else
    match c.istate with
    | .waitDrain =>
      let (c, sent) := if c.closeSent || c.isLocal then (c, []) else chanSendEof2 c
      ({ c with istate := .closed }, sent)
    | _ => (c, [])

def chanObufEmpty (c : Chan2) : Chan2 :=
  if c.output ≠ [] then c
  else
    match c.ostate with
    | .waitDrain => { c.onChan (chanShutdownWrite proto2) with ostate := .closed }
    | _ => c

def drainOutput (c : Chan2) : Chan2 :=
  if c.ostate = .opened then { c with ostate := .waitDrain } else c

/-- The input side ends when the peer closes the channel. -/
def closeInput (c : Chan2) : Chan2 × List Message :=
  match c.istate with
  | .opened => ({ c.onChan (chanShutdownRead proto2) with istate := .closed }, [])
  | .waitDrain =>
    let (c, sent) := if c.isLocal then (c, []) else chanSendEof2 c
    ({ c with istate := .closed }, sent)
  | _ => (c, [])

def chanRcvdClose2 (c : Chan2) : Chan2 × List Message :=
  let c := if c.isLocal then c else { c with closeRcvd := true }
  -- Larval channels are torn down immediately.
  if c.type = .larval then ({ c with ostate := .closed, istate := .closed }, [])
  else closeInput (drainOutput c)

def chanRcvdEof2 (c : Chan2) : Chan2 := drainOutput { c with eofRcvd := true }

def chanRcvdIeof (c : Chan2) : Chan2 :=
  let c := chanRcvdEof2 c
  if c.ostate = .waitDrain && c.output = [] && !efdOutputActive c then chanObufEmpty c else c

def chanWriteFailed2 (c : Chan2) : Chan2 × List Message :=
  match c.ostate with
  | .opened | .waitDrain =>
    let c := c.onChan (chanShutdownWrite proto2)
    let sent := if c.ctype = text "session" then chanSendEow2 fellows c else []
    ({ c with ostate := .closed }, sent)
  | _ => (c, [])

/-- Whether the channel is dead, and a CLOSE message that is sent on the occasion. -/
def chanIsDead (c : Chan2) (doSend : Bool) : Chan2 × List Message × Bool :=
  if c.type = .zombie then (c, [], true)
  else if c.istate ≠ .closed || c.ostate ≠ .closed then (c, [], false)
  else if fellows.bugExteof && c.extendedUsage = .write && c.efd && c.extended ≠ [] then
    (c, [], false)
  else if c.isLocal then (c, [], true)
  else if !c.closeSent && !doSend && c.closeRcvd then (c, [], true)
  else
    let (c, sent) := if !c.closeSent && doSend then chanSendClose2 c else (c, [])
    (c, sent, c.closeSent && c.closeRcvd)

/-! Data. -/

/-- The request that a failed write causes on the way, if it ended the output side. -/
def eowAfter (c : Chan2) (next : Chan) : List Message :=
  if (c.ostate = .opened || c.ostate = .waitDrain) && next.ostate = .closed &&
      c.ctype = text "session" then
    chanSendEow2 fellows c
  else []

def channelHandleRfd2 (r : Round) (g : Globals) (c : Chan2) : Except Stop (Chan2 × List Message) := do
  let (_, next, _) ← channelHandleRfd proto2 r c.toChan g
  return ({ c with toChan := next }, eowAfter fellows c next)

def channelHandleWfd2 (r : Round) (g : Globals) (c : Chan2) : Except Stop (Chan2 × List Message) := do
  let (_, next, _) ← channelHandleWfd proto2 r c.toChan g
  return ({ c with toChan := next }, eowAfter fellows c next)

/-- Extended data goes to or comes from a descriptor of its own. -/
def channelHandleEfd (r : Round) (c : Chan2) : Chan2 :=
  if !c.efd then c
  else if c.extendedUsage = .write && r.writable && c.extended ≠ [] then
    match r.write with
    | .retry => c
    | .failed => { c with efd := false }
    | .wrote n =>
      let len := min n c.extended.length
      if len = 0 then { c with efd := false }
      else { c with
        extended := c.extended.drop len
        localConsumed := c.localConsumed + UInt32.ofNat len }
  else if c.extendedUsage ≠ .write && (c.detachClose || r.readable) then
    match r.read with
    | .interrupted => c
    | .again => if c.detachClose then { c with efd := false } else c
    | .failed => { c with efd := false }
    | .data bytes =>
      if bytes = [] then { c with efd := false }
      else if c.extendedUsage = .ignore then c
      else { c with extended := c.extended ++ bytes.take 16384 }
  else c

def Action.message : Action → Option Message
  | .adjusted window => some (.windowAdjust window)
  | _ => none

def channelCheckWindow2 (c : Chan2) : Chan2 × List Message :=
  ({ c with toChan := (channelCheckWindow c.toChan).1 },
    (channelCheckWindow c.toChan).2.filterMap Action.message)

/-- How much of the buffered data can be sent at once. -/
def sendLength (c : Chan2) (len : Nat) : Nat :=
  min (min len c.remoteWindow.toNat) c.remoteMaxpacket.toNat

/-- What is buffered for the peer is sent. A datagram goes as a whole or is dropped. -/
def pollInput (c : Chan2) : Except Stop (Chan2 × List Message) :=
  if c.datagram then
    match Wire.getString c.input with
    | none => .error .fatal
    | some (data, rest) =>
      if c.remoteWindow.toNat < data.length || c.remoteMaxpacket.toNat < data.length then
        .ok ({ c with input := rest }, [])
      else .ok ({ c with
        input := rest
        remoteWindow := c.remoteWindow - UInt32.ofNat data.length }, [.data data])
  else
    let len := sendLength c c.input.length
    if len = 0 then .ok (c, [])
    else .ok ({ c with
      input := c.input.drop len
      remoteWindow := c.remoteWindow - UInt32.ofNat len }, [.data (c.input.take len)])

def pollExtended (c : Chan2) : Chan2 × List Message :=
  if c.eofSent || c.remoteWindow = 0 || c.extended = [] || c.extendedUsage ≠ .read then (c, [])
  else
    let len := sendLength c c.extended.length
    ({ c with
      extended := c.extended.drop len
      remoteWindow := c.remoteWindow - UInt32.ofNat len },
      [.extendedData extendedDataStderr (c.extended.take len)])

/-- Datagrams leave nothing for the second part. -/
def channelOutputPoll (c : Chan2) : Except Stop (Chan2 × List Message) :=
  if c.type ≠ .opened then .ok (c, [])
  else if c.closeSent || c.closeRcvd then .ok (c, [])
  else if (c.istate = .opened || c.istate = .waitDrain) && c.input ≠ [] then do
    let (next, sent) ← pollInput c
    if c.datagram then return (next, sent)
    else return ((pollExtended next).1, sent ++ (pollExtended next).2)
  else
    let drained :=
      if c.istate = .waitDrain && !efdInputActive c then chanIbufEmpty c else (c, [])
    .ok ((pollExtended drained.1).1, drained.2 ++ (pollExtended drained.1).2)

/-! Messages of the peer. -/

def channelInputData2 (data : Bytes) (c : Chan2) : Chan2 :=
  c.onChan fun c => (channelInputData proto2 data c).1

def channelInputExtendedData (code : Nat) (data : Bytes) (c : Chan2) : Except Stop Chan2 :=
  if c.type ≠ .opened then .ok c
  else if c.eofRcvd && !fellows.bugExteof then .error (.exit 255)
  else if !c.efd || c.extendedUsage ≠ .write || code ≠ extendedDataStderr then .ok c
  else if c.localWindow.toNat < data.length then .ok c
  else .ok { c with
    localWindow := c.localWindow - UInt32.ofNat data.length
    extended := c.extended ++ data }

def drainInput (c : Chan2) : Chan2 × List Message :=
  if c.input = [] then chanIbufEmpty { c with istate := .waitDrain }
  else ({ c with istate := .waitDrain }, [])

def channelInputIeof (c : Chan2) : Chan2 × List Message :=
  let c := chanRcvdIeof c
  if c.forceDrain && c.istate = .opened then drainInput c else (c, [])

def channelInputWindowAdjust (adjust : UInt32) (c : Chan2) : Except Stop Chan2 :=
  if c.remoteWindow + adjust < c.remoteWindow then .error .fatal
  else .ok { c with remoteWindow := c.remoteWindow + adjust }

def channelInput (message : Message) (c : Chan2) : Except Stop (Chan2 × List Message) :=
  match message with
  | .data bytes => .ok (channelInputData2 bytes c, [])
  | .extendedData code bytes => do
    let c ← channelInputExtendedData fellows code bytes c
    return (c, [])
  | .windowAdjust adjust => do
    let c ← channelInputWindowAdjust adjust c
    return (c, [])
  | .eof => .ok (channelInputIeof c)
  | .close => .ok (chanRcvdClose2 c)
  | .eow => .ok (c.onChan (chanRcvdEow proto2), [])

/-- The part of `channel_pre_open` that changes the channel. -/
def channelPreOpen (c : Chan2) : Chan2 :=
  if c.ostate = .waitDrain && c.output = [] && !efdOutputActive c then chanObufEmpty c else c

/-! The end of a channel. -/

/-- What can be seen of a channel: messages, the verdict that it is dead, and that it is
freed, each with the channel at that moment. -/
inductive Outcome where
  | sent (message : Message)
  | dead (doSend : Bool) (c : Chan2)
  | freed (c : Chan2)
  deriving DecidableEq

def checkDead (c : Chan2) (doSend : Bool) : Chan2 × List Outcome × Bool :=
  let (next, sent, dead) := chanIsDead fellows c doSend
  (next, sent.map .sent ++ if dead then [.dead doSend next] else [], dead)

def freeIfDead (c : Chan2) : Chan2 × List Outcome :=
  let (next, seen, dead) := checkDead fellows c true
  (next, seen ++ if dead then [.freed next] else [])

def channelCancelCleanup (c : Chan2) : Chan2 := { c with detachUser := false, detachClose := false }

/-- The callback is told, and may or may not detach itself. -/
def channelGarbageCollect (detaches : Bool) (c : Chan2) : Chan2 × List Outcome :=
  if c.detachUser then
    let told := checkDead fellows c c.detachClose
    if told.2.2 && detaches then
      let rest := freeIfDead fellows (channelCancelCleanup told.1)
      (rest.1, told.2.1 ++ rest.2)
    else (told.1, told.2.1)
  else freeIfDead fellows c

lemma chanWriteFailed2_eq (c : Chan2) : chanWriteFailed2 fellows c = (c.onChan (chanWriteFailed proto2),
    eowAfter fellows c (chanWriteFailed proto2 c.toChan)) := by
  obtain ⟨wfd, hs⟩ := chanShutdownWrite_eq proto2 c.toChan
  cases hState : c.ostate with
  | opened =>
    simp [chanWriteFailed2, chanWriteFailed, eowAfter, chanSendEow2, Chan2.onChan, hState, hs]
  | waitDrain =>
    simp [chanWriteFailed2, chanWriteFailed, eowAfter, chanSendEow2, Chan2.onChan, hState, hs]
  | waitIeof => simp [chanWriteFailed2, chanWriteFailed, eowAfter, Chan2.onChan, hState]
  | closed => simp [chanWriteFailed2, chanWriteFailed, eowAfter, Chan2.onChan, hState]

/-! What the functions for the ends of the two sides do, one thing at a time. -/

/-- A step towards the end of a side that sends nothing. -/
inductive Shift (c : Chan2) : Chan2 → Prop where
  | readEnds (rfd : Bool) (hOpen : c.istate = .opened) : Shift c { c with rfd, istate := .closed }
  | readDrains (hOpen : c.istate = .opened) : Shift c { c with istate := .waitDrain }
  | drained (hDrain : c.istate = .waitDrain) : Shift c { c with istate := .closed }
  | writeDrains (hOpen : c.ostate = .opened) : Shift c { c with ostate := .waitDrain }
  | writeEnds (wfd : Bool) (hEmpty : c.output = []) :
      Shift c { c with output := [], wfd, ostate := .closed }
  | eofRcvd : Shift c { c with eofRcvd := true }
  | tornDown : Shift c { c with ostate := .closed, istate := .closed }

/-- Such steps, and then an EOF message or none. -/
inductive Shifts : Chan2 → Chan2 → List Message → Prop where
  | done (c : Chan2) : Shifts c c []
  | eof {c : Chan2} (hDrain : c.istate = .waitDrain) :
      Shifts c { c with eofSent := true, istate := .closed } [.eof]
  | step {c middle next : Chan2} {sent : List Message} (h : Shift c middle)
      (rest : Shifts middle next sent) : Shifts c next sent

variable {c next : Chan2} {sent : List Message}

lemma Shift.shifts (h : Shift c next) : Shifts c next [] := .step h (.done next)

variable {middle : Chan2} {first : List Message}

lemma Shifts.trans (front : Shifts c middle first) (hs : first = [])
    (back : Shifts middle next sent) : Shifts c next sent := by
  induction front with
  | done c => exact back
  | eof hDrain => cases hs
  | step h rest ih => exact .step h (ih hs back)

lemma Shifts.eof_of_mem (h : Shifts c next sent) : ∀ message ∈ sent, message = .eof := by
  induction h with
  | done c => simp
  | eof hDrain => simp
  | step h rest ih => exact ih

lemma Shifts.closeSent (h : Shifts c next sent) : next.closeSent = c.closeSent := by
  induction h with
  | done c => rfl
  | eof hDrain => rfl
  | step h rest ih => cases h <;> exact ih

lemma drained_shifts (hDrain : c.istate = .waitDrain) (quiet : Bool) :
    Shifts c { (if quiet then (c, []) else chanSendEof2 c).1 with istate := .closed }
      (if quiet then (c, []) else chanSendEof2 c).2 := by
  cases quiet with
  | true => exact (Shift.drained hDrain).shifts
  | false =>
    rw [chanSendEof2, hDrain]
    exact .eof hDrain

variable (c)

lemma chanIbufEmpty_shifts : Shifts c (chanIbufEmpty c).1 (chanIbufEmpty c).2 := by
  rw [chanIbufEmpty]
  split
  · exact .done c
  split
  · next hDrain => exact drained_shifts hDrain _
  · exact .done c

lemma chanObufEmpty_shifts : Shifts c (chanObufEmpty c) [] := by
  obtain ⟨wfd, hs⟩ := chanShutdownWrite_eq proto2 c.toChan
  rw [chanObufEmpty]
  split
  · exact .done c
  · next hEmpty =>
    split
    · rw [Chan2.onChan, hs]
      exact (Shift.writeEnds wfd (not_not.1 hEmpty)).shifts
    · exact .done c

lemma channelPreOpen_shifts : Shifts c (channelPreOpen c) [] := by
  rw [channelPreOpen]
  split
  · exact chanObufEmpty_shifts c
  · exact .done c

lemma drainOutput_shifts : Shifts c (drainOutput c) [] := by
  rw [drainOutput]
  split
  · next hOpen => exact (Shift.writeDrains hOpen).shifts
  · exact .done c

lemma closeInput_shifts : Shifts c (closeInput c).1 (closeInput c).2 := by
  obtain ⟨rfd, hs⟩ := chanShutdownRead_eq proto2 c.toChan
  rw [closeInput]
  split
  · next hOpen =>
    rw [Chan2.onChan, hs]
    exact (Shift.readEnds rfd hOpen).shifts
  · next hDrain => exact drained_shifts hDrain _
  · exact .done c

lemma chanRcvdClose2_shifts :
    Shifts (if c.isLocal then c else { c with closeRcvd := true }) (chanRcvdClose2 c).1
      (chanRcvdClose2 c).2 := by
  rw [chanRcvdClose2]
  generalize (if c.isLocal then c else { c with closeRcvd := true }) = marked
  split
  · exact Shift.tornDown.shifts
  · exact (drainOutput_shifts marked).trans rfl (closeInput_shifts _)

lemma channelInputIeof_shifts : Shifts c (channelInputIeof c).1 (channelInputIeof c).2 := by
  have hEof : Shifts c (chanRcvdIeof c) [] := by
    have hDrain : Shifts c (chanRcvdEof2 c) [] := .step .eofRcvd (drainOutput_shifts _)
    rw [chanRcvdIeof]
    split
    · exact hDrain.trans rfl (chanObufEmpty_shifts _)
    · exact hDrain
  rw [channelInputIeof]
  split
  · next hf =>
    simp only [and_eq_true, decide_eq_true_eq] at hf
    refine hEof.trans rfl (.step (.readDrains hf.2) ?_)
    rw [drainInput]
    split
    · exact chanIbufEmpty_shifts _
    · exact .done _
  · exact hEof

/-! What the functions that send data can do. -/

lemma channelCheckWindow2_cases : channelCheckWindow2 c = (c, []) ∨
      c.closeSent = false ∧ c.closeRcvd = false ∧ channelCheckWindow2 c =
        ({ c with localWindow := c.localWindow + c.localConsumed, localConsumed := 0 },
          [.windowAdjust c.localConsumed]) := by
  rw [channelCheckWindow2, channelCheckWindow]
  split_ifs with hDue
  · simp only [and_eq_true, Bool.not_eq_true'] at hDue
    exact .inr ⟨hDue.1.1.1.2, hDue.1.1.2, rfl⟩
  · exact .inl rfl

lemma take_sendLength (buffer : Bytes) :
    (buffer.take (sendLength c buffer.length)).length = sendLength c buffer.length ∧
      (buffer.take (sendLength c buffer.length)).length ≤ c.remoteWindow.toNat ∧
      (buffer.take (sendLength c buffer.length)).length ≤ c.remoteMaxpacket.toNat := by
  rw [List.length_take, sendLength]
  omega

variable {c}

/-- What a poll does: nothing, or buffered data is sent or dropped, or the input side ends; and
then extended data is sent. -/
inductive Polls (c : Chan2) : Chan2 → List Message → Prop where
  | idle : Polls c c []
  | drops (input : Bytes) : Polls c { c with input } []
  | sends (input bytes : Bytes) (hState : c.istate ≠ .closed) (hOpen : c.closeSent = false)
      (hWindow : bytes.length ≤ c.remoteWindow.toNat) (hPacket : bytes.length ≤ c.remoteMaxpacket.toNat) :
      Polls c { c with input, remoteWindow := c.remoteWindow - UInt32.ofNat bytes.length } [.data bytes]
  | drains {next : Chan2} {sent : List Message} (h : Shifts c next sent) : Polls c next sent
  | sendsExtended {middle : Chan2} {first : List Message} (front : Polls c middle first)
      (extended bytes : Bytes) (hOpen : middle.closeSent = false) (hEof : middle.eofSent = false)
      (hUsage : middle.extendedUsage = .read) (hWindow : bytes.length ≤ middle.remoteWindow.toNat)
      (hPacket : bytes.length ≤ middle.remoteMaxpacket.toNat) :
      Polls c { middle with extended, remoteWindow := middle.remoteWindow - UInt32.ofNat bytes.length }
        (first ++ [.extendedData extendedDataStderr bytes])

lemma pollInput_polls (hState : c.istate ≠ .closed) (hOpen : c.closeSent = false)
    (h : pollInput c = .ok (next, sent)) : Polls c next sent ∧ next.closeSent = false := by
  rw [pollInput] at h
  split at h
  · split at h
    · cases h
    · next data rest _ =>
      split_ifs at h with hBig
      · cases h
        exact ⟨.drops rest, hOpen⟩
      · cases h
        simp only [or_eq_true, decide_eq_true_eq, not_or, Nat.not_lt] at hBig
        exact ⟨.sends rest data hState hOpen hBig.1 hBig.2, hOpen⟩
  · dsimp only at h
    split_ifs at h
    · cases h
      exact ⟨.idle, hOpen⟩
    · cases h
      obtain ⟨hLen, hWindow, hPacket⟩ := take_sendLength c c.input
      have hs := Polls.sends (c.input.drop (sendLength c c.input.length)) _ hState hOpen hWindow hPacket
      rw [hLen] at hs
      exact ⟨hs, hOpen⟩

lemma pollExtended_polls (front : Polls c middle first) (hOpen : middle.closeSent = false) :
    Polls c (pollExtended middle).1 (first ++ (pollExtended middle).2) := by
  rw [pollExtended]
  split_ifs with hn
  · rw [List.append_nil]
    exact front
  · simp only [or_eq_true, decide_eq_true_eq, not_or, ne_eq, not_not, Bool.not_eq_true] at hn
    obtain ⟨hLen, hWindow, hPacket⟩ := take_sendLength middle middle.extended
    have hs := front.sendsExtended (middle.extended.drop (sendLength middle middle.extended.length)) _
      hOpen hn.1.1.1 hn.2 hWindow hPacket
    rw [hLen] at hs
    exact hs

lemma channelOutputPoll_polls (h : channelOutputPoll c = .ok (next, sent)) : Polls c next sent := by
  rw [channelOutputPoll] at h
  split at h
  · cases h
    exact .idle
  split at h
  · cases h
    exact .idle
  next hc =>
  simp only [or_eq_true, not_or, Bool.not_eq_true] at hc
  split at h
  · next hi =>
    obtain ⟨⟨middle, first⟩, hp, h⟩ := bind_eq_ok.1 h
    have hState : c.istate ≠ .closed := by
      intro hClosed
      simp [hClosed] at hi
    obtain ⟨hf, hOpen⟩ := pollInput_polls hState hc.1 hp
    split_ifs at h
    · cases h
      exact hf
    · cases h
      exact pollExtended_polls hf hOpen
  · have hs := chanIbufEmpty_shifts c
    split_ifs at h
    · cases h
      exact pollExtended_polls (.drains hs) (hs.closeSent.trans hc.1)
    · cases h
      exact pollExtended_polls .idle hc.1

lemma chanIsDead_cases (c : Chan2) (doSend : Bool) :
    (chanIsDead fellows c doSend).1 = c ∧ (chanIsDead fellows c doSend).2.1 = [] ∨
      c.closeSent = false ∧ c.istate = .closed ∧ c.ostate = .closed ∧
        (chanIsDead fellows c doSend).1 = { c with closeSent := true } ∧
        (chanIsDead fellows c doSend).2.1 = [.close] := by
  rw [chanIsDead]
  split_ifs with hZombie hOpen hActive hLocal hAlmost hs
  · exact .inl ⟨rfl, rfl⟩
  · exact .inl ⟨rfl, rfl⟩
  · exact .inl ⟨rfl, rfl⟩
  · exact .inl ⟨rfl, rfl⟩
  · exact .inl ⟨rfl, rfl⟩
  · simp only [or_eq_true, decide_eq_true_eq, not_or, not_not, ne_eq] at hOpen
    simp only [and_eq_true, Bool.not_eq_true'] at hs
    rw [chanSendClose2, if_neg (by simp [hOpen.1, hOpen.2]), if_neg (by simp [hs.1])]
    exact .inr ⟨hs.1, hOpen.1, hOpen.2, rfl, rfl⟩
  · exact .inl ⟨rfl, rfl⟩

lemma channelHandleEfd_cases (r : Round) (c : Chan2) : (∃ efd, channelHandleEfd r c = { c with efd }) ∨
      (∃ len, c.extendedUsage = .write ∧ 0 < len ∧ len ≤ c.extended.length ∧
        channelHandleEfd r c = { c with
          extended := c.extended.drop len
          localConsumed := c.localConsumed + UInt32.ofNat len }) ∨
      ∃ extended, c.extendedUsage ≠ .write ∧ channelHandleEfd r c = { c with extended } := by
  rw [channelHandleEfd]
  split
  · exact .inl ⟨c.efd, rfl⟩
  split
  · next hw =>
    simp only [and_eq_true, decide_eq_true_eq] at hw
    split
    · exact .inl ⟨c.efd, rfl⟩
    · exact .inl ⟨false, rfl⟩
    · dsimp only
      split_ifs with hn
      · exact .inl ⟨false, rfl⟩
      · exact .inr (.inl ⟨_, hw.1.1, Nat.pos_of_ne_zero hn, Nat.min_le_right _ _, rfl⟩)
  split
  · next hr =>
    simp only [and_eq_true, decide_eq_true_eq] at hr
    split
    · exact .inl ⟨c.efd, rfl⟩
    · split_ifs
      · exact .inl ⟨false, rfl⟩
      · exact .inl ⟨c.efd, rfl⟩
    · exact .inl ⟨false, rfl⟩
    · split_ifs
      · exact .inl ⟨false, rfl⟩
      · exact .inl ⟨c.efd, rfl⟩
      · exact .inr (.inr ⟨_, hr.1, rfl⟩)
  · exact .inl ⟨c.efd, rfl⟩

end Channel
