import Sshfortress.Base.Transition
import Sshfortress.Channel.Basic

/-! The handlers that move data between a client and its target and record it on
the way, and the process as a machine that runs them one by one. -/
namespace Channel
open Base

inductive Incoming where
  | nothing
  | failed
  | chunk (bytes : Bytes)
  deriving DecidableEq

def force (c : Chan) : Bool := c.isatty && c.detachClose && c.istate ≠ .closed

def readTarget (r : Round) (c : Chan) : Incoming :=
  if c.rfd && (force c || r.readable) then
    match r.read with
    | .interrupted => .nothing
    | .again => if force c then .failed else .nothing
    | .failed => .failed
    | .data bytes => if bytes = [] then .failed else .chunk (bytes.take 16384)
  else .nothing

def recordable (sshtype : Bytes) : Bool :=
  sshtype = text "shell" || sshtype = text "window-change" ||
    sshtype = text "winadj@putty.projects.tartarus.org"

def elapsed (now oldtime : Timeval) : Timeval :=
  let sec := now.sec - oldtime.sec
  let usec := now.usec - oldtime.usec
  if usec < 0 then ⟨sec - 1, usec + 1000000⟩ else ⟨sec, usec⟩

/-- The line `"%ld.%06ld %d\n"` of the timing file. -/
def timingRecord (delta : Timeval) (len : Nat) : Bytes :=
  let micros :=
    if delta.usec < 0 then 45 :: zeroPadded 10 5 delta.usec.natAbs
    else zeroPadded 10 6 delta.usec.natAbs
  signedDecimal delta.sec ++ text "." ++ micros ++ text " " ++ decimal len ++ text "\n"

def considerKeys (r : Round) (k : Keys) (chunk : Bytes) (g : Globals) :
    Except Stop (Globals × List Action) :=
  let buffR := snprintf 16384 (cstr chunk)
  let written := buffR ++ List.replicate (chunk.length - buffR.length) 0
  match classify r.rodata k buffR chunk.length with
  | .extract => do
    let (emulator, sent) ← extractCommands r.db g.audituser g.emulator g.rfdLog
    return ({ g with emulator := emulator, rfdLog := [] }, .extracted :: sent.map (Action.queried))
  | .truncate => .ok ({ g with rfdLog := [] }, [])
  | .replace => .ok ({ g with rfdLog := written }, [])
  | .ignore => .ok (g, [])
  | .append => .ok ({ g with rfdLog := g.rfdLog ++ written }, [])

/-- The block that writes the playback and timing files and then looks at the
queued keys. -/
def recordChunk (r : Round) (k : Option Keys) (chunk : Bytes) (c : Chan) (g : Globals) :
    Except Stop (Globals × List Action) :=
  let record := timingRecord (elapsed r.now g.oldtime) chunk.length
  let files := Action.logged chunk :: if c.logfdTime then [Action.timed record] else []
  let g := { g with oldtime := r.now }
  match k with
  | none => .ok (g, files)
  | some k => do
    let (g, actions) ← considerKeys r k chunk g
    return (g, files ++ .considered k :: actions)

/-- Only output under the right request type, of a channel with a playback file, is
recorded. -/
def recordIfShell (r : Round) (k : Option Keys) (chunk : Bytes) (c : Chan) (g : Globals) :
    Except Stop (Globals × List Action) :=
  if c.logfd && recordable g.sshtype then recordChunk r k chunk c g else .ok (g, [])

/-- On a little-endian host the family in front of the packet is always that of
version 4. -/
def sysTunInfilter (chunk : Bytes) : Option Bytes :=
  if 16380 < chunk.length then none else some (Wire.putU32 2 ++ chunk)

def relayChunk (compat : Compat) (r : Round) (k : Option Keys) (chunk : Bytes)
    (c : Chan) (g : Globals) : Except Stop (Globals × Chan × List Action) :=
  if c.inputFilter then
    match sysTunInfilter chunk with
    | none => .ok (g, chanReadFailed compat c, [])
    | some packet =>
      .ok (g, { c with input := c.input ++ Wire.putString packet }, [.relayed packet])
  else if c.datagram then
    .ok (g, { c with input := c.input ++ Wire.putString chunk }, [.relayed chunk])
  else do
    let (g, actions) ← recordIfShell r k chunk c g
    return (g, { c with input := c.input ++ chunk }, actions ++ [.relayed chunk])

def readSide (compat : Compat) (r : Round) (k : Option Keys) (c : Chan) (g : Globals) :
    Except Stop (Globals × Chan × List Action) :=
  match readTarget r c with
  | .nothing => .ok (g, c, [])
  | .failed => .ok (g, readFailed compat c, [])
  | .chunk chunk => relayChunk compat r k chunk c g

/-- The audit looks at the output queue before anything is read. When it looks at
nothing, `buf_w` and `dlen` keep whatever value they have. -/
def channelHandleRfd (compat : Compat) (r : Round) (c : Chan) (g : Globals) :
    Except Stop (Globals × Chan × List Action) := do
  match ← fetchOutput r.writable c with
  | .nothing => readSide compat r r.stale c g
  | .stops c => return (g, filterStops compat c, [])
  | .data bytes c => readSide compat r (some ⟨bytes ++ r.after, bytes.length⟩) c g

def slowedDown (later : Timeval) : Timeval := ⟨later.sec, later.usec - 90000⟩

/-- `local_consumed` grows by what left the queue since `before`. -/
def countConsumed (compat : Compat) (before c : Chan) : Chan :=
  if compat.compat20 then
    { c with localConsumed :=
        c.localConsumed + UInt32.ofNat (before.output.length - c.output.length) }
  else c

/-- Write one datagram; what the descriptor does not take is lost. -/
def writeDatagram (compat : Compat) (r : Round) (bytes : Bytes) (before c : Chan) : Chan × List Action :=
  let next := match r.write with
    | .retry => c
    | .failed => filterStops compat c
    | .wrote n => if min n bytes.length = 0 then filterStops compat c else countConsumed compat before c
  (next, [.handed bytes])

/-- Write what the descriptor takes, and consume that much of the queue. -/
def writeStream (compat : Compat) (r : Round) (bytes : Bytes) (before c : Chan) :
    Except Stop (Chan × List Action) :=
  match r.write with
  | .retry => .ok (c, [])
  | .failed => .ok (writeFailed compat c, [])
  | .wrote n =>
    let len := min n bytes.length
    if len = 0 then .ok (writeFailed compat c, [])
    else if c.output.length < len then .error .fatal
    else
      .ok (countConsumed compat before { c with output := c.output.drop len }, [.handed (bytes.take len)])

def channelHandleWfd (compat : Compat) (r : Round) (c : Chan) (g : Globals) :
    Except Stop (Globals × Chan × List Action) := do
  let g := { g with oldtime := slowedDown r.later }
  match ← fetchOutput r.writable c with
  | .nothing => return (g, c, [])
  | .stops next => return (g, filterStops compat next, [])
  | .data bytes next =>
    if c.datagram then
      let (next, actions) := writeDatagram compat r bytes c next
      return (g, next, actions)
    else if !c.outputFilter && contains (bytes ++ r.after) (text "*\x18A\x04") then
      -- The start of a file transfer ends the process.
      .error (.exit (-1))
    else
      let (next, actions) ← writeStream compat r bytes c next
      return (g, next, actions)

def channelCheckWindow (c : Chan) : Chan × List Action :=
  if c.type = .opened && !c.closeSent && !c.closeRcvd &&
      (c.localMaxpacket * 3 < c.localWindowMax - c.localWindow ||
        c.localWindow < c.localWindowMax / 2) && 0 < c.localConsumed then
    ({ c with localWindow := c.localWindow + c.localConsumed, localConsumed := 0 },
      [.adjusted c.localConsumed])
  else (c, [])

/-- One round of an open channel, without the part for extended data. -/
def channelPostOpen (compat : Compat) (r : Round) (c : Chan) (g : Globals) :
    Except Stop (Globals × Chan × List Action) := do
  let (g, c, first) ← channelHandleRfd compat r c g
  let (g, c, second) ← channelHandleWfd compat r c g
  if compat.compat20 then
    let (c, third) := channelCheckWindow c
    return (g, c, first ++ second ++ third)
  else return (g, c, first ++ second)

def queueEntry (c : Chan) (data : Bytes) : Bytes :=
  if c.datagram then Wire.putString data else data

def windowLength (c : Chan) (data : Bytes) : UInt32 :=
  UInt32.ofNat data.length + if c.datagram then 4 else 0

/-- Data from the client. What does not fit the window, or comes after the output
side has ended, is dropped. -/
def channelInputData (compat : Compat) (data : Bytes) (c : Chan) : Chan × List Action :=
  let winLen := windowLength c data
  if c.type ≠ .opened && c.type ≠ .x11Opened then (c, [])
  else if !compat.compat13 && c.ostate ≠ .opened then
    if compat.compat20 then
      ({ c with localWindow := c.localWindow - winLen, localConsumed := c.localConsumed + winLen }, [])
    else (c, [])
  else if compat.compat20 && c.localWindow < winLen then (c, [])
  else
    let c := if compat.compat20 then { c with localWindow := c.localWindow - winLen } else c
    ({ c with output := c.output ++ queueEntry c data }, [.queued data])

/-- What the session code answers to a request, and the descriptors it attaches
when it starts a program. -/
structure SessionAnswer where
  known : Bool
  outcome : Except Stop Bool
  (sameFd isTty : Bool)

def channelSetFds (a : SessionAnswer) (c : Chan) : Chan :=
  { c with
    type := .opened, rfd := true, wfd := true, sock := a.sameFd, isatty := a.isTty
    localWindow := 2097152, localWindowMax := 2097152 }

def sessionInputChannelReq (a : SessionAnswer) (rtype : Bytes) (c : Chan) : Except Stop (Chan × Bool) :=
  let starts := [text "shell", text "exec", text "subsystem"]
  let prepares :=
    [text "pty-req", text "x11-req", text "auth-agent-req@openssh.com", text "env"]
  if !a.known then .ok (c, false)
  else if c.type = .larval && starts.contains rtype then do
    let success ← a.outcome
    return (if success then channelSetFds a c else c, success)
  else if (c.type = .larval && prepares.contains rtype) ||
      rtype = text "window-change" || rtype = text "break" then do
    let success ← a.outcome
    return (c, success)
  else .ok (c, false)

def requestOutcome (compat : Compat) (a : SessionAnswer) (rtype : Bytes) (c : Chan) :
    Except Stop (Chan × Bool) :=
  if rtype = text "eow@openssh.com" then .ok (chanRcvdEow compat c, false)
  else if (c.type = .larval || c.type = .opened) && c.ctype = text "session" then
    sessionInputChannelReq a rtype c
  else .ok (c, false)

/-- The request type goes into a fixed array of the process before anything is
looked at. -/
def serverInputChannelReq (compat : Compat) (rtype : Bytes) (a : SessionAnswer)
    (c : Chan) (g : Globals) : Except Stop (Globals × Chan × List Action) :=
  let rtype := cstr rtype
  if 256 ≤ rtype.length then .error .crash
  else do
    let g := { g with sshtype := rtype }
    let (c, success) ← requestOutcome compat a rtype c
    return (g, c, [.answered rtype success])

abbrev Payload := { bytes : Bytes // bytes.length ≤ 256 * 1024 }

inductive Call where
  | data (payload : Payload)
  | request (rtype : Bytes) (a : SessionAnswer)
  | rfd (r : Round)
  | wfd (r : Round)
  | post (r : Round)

def handle (compat : Compat) : Call → Chan → Globals → Except Stop (Globals × Chan × List Action)
  | .data payload, c, g =>
    let (c, actions) := channelInputData compat payload.val c
    .ok (g, c, actions)
  | .request rtype a, c, g => serverInputChannelReq compat rtype a c g
  | .rfd r, c, g => channelHandleRfd compat r c g
  | .wfd r, c, g => channelHandleWfd compat r c g
  | .post r, c, g => channelPostOpen compat r c g

structure Server where
  compat : Compat
  chans : Nat → Option Chan
  globals : Globals

/-- Run a handler on a channel of the table. A message for a channel that does not
exist ends the connection; the select loop only visits channels that exist. -/
def step (s : Server) : Nat × Call → Except Stop (Server × List (Nat × Action))
  | (id, call) =>
    match s.chans id with
    | none => .error (.exit 255)
    | some c => do
      let (g, c, actions) ← handle s.compat call c s.globals
      return ({ s with chans := Function.update s.chans id (some c), globals := g }, actions.map (id, ·))

def seenOn (id : Nat) (event : Nat × Action) : Option Action :=
  if event.1 = id then some event.2 else none

def actionsOn (id : Nat) (events : List (Nat × Action)) : List Action :=
  events.filterMap (seenOn id)

end Channel
