import Sshfortress.Channel.Flow

/-! The table of channels and the connection between two of them. A slot is used again as soon as
its channel was freed, and messages name the slot of the receiver by its number alone. -/
namespace Channel
open Base
open Function (update)

/-! Slots. -/

/-- How far a channel has come. The peer knows nothing of a listener, nor of a channel whose
destination is still to be read from its socket. -/
inductive Stage where
  | listening
  | dynamic
  | opening
  | connecting
  | live
  deriving DecidableEq

def Stage.hidden : Stage → Bool
  | .listening | .dynamic => true
  | _ => false

/-- A slot in use. `talk` tells channels apart that use the same slot one after the other: it
numbers the channels in the order in which they were made, and the two ends of one channel have
the same number. Nothing that is done depends on it. -/
structure Entry where
  chan : Chan2
  stage : Stage
  (remoteId talk : Nat)
  deriving DecidableEq

def noRemote : Nat := 2 ^ 32 - 1

def slotAt (slots : List (Option Entry)) (id : Nat) : Option Entry := (slots[id]?).join

/-- Listeners and dead channels receive no messages. -/
def channelLookup (slots : List (Option Entry)) (id : Nat) : Option Entry :=
  match slotAt slots id with
  | some e => if e.stage = .listening || e.chan.type = .zombie then none else some e
  | none => none

/-- The first free slot is taken, in a table that grows by ten. -/
def channelNew (slots : List (Option Entry)) (e : Entry) : Except Stop (List (Option Entry) × Nat) :=
  let slots := if slots = [] then List.replicate 10 none else slots
  match slots.findIdx? Option.isNone with
  | some id => .ok (slots.set id (some e), id)
  | none =>
    if 10000 < slots.length then .error .fatal
    else .ok (slots ++ some e :: List.replicate 9 none, slots.length)

structure Seed where
  settings : Settings
  (rfd wfd sock efd : Bool)
  window : UInt32
  extendedUsage : ExtendedUsage
  forceDrain : Bool

def newChan (seed : Seed) (type : Kind) : Chan2 where
  toSettings := seed.settings
  type := type
  rfd := seed.rfd
  wfd := seed.wfd
  sock := seed.sock
  isatty := false
  detachClose := false
  istate := .opened
  ostate := .opened
  closeSent := false
  closeRcvd := false
  input := []
  output := []
  localWindow := seed.window
  localWindowMax := seed.window
  localConsumed := 0
  remoteWindow := 0
  remoteMaxpacket := 0
  efd := seed.efd
  extendedUsage := seed.extendedUsage
  extended := []
  eofSent := false
  eofRcvd := false
  isLocal := false
  forceDrain := seed.forceDrain
  detachUser := false

/-! Packets. -/

inductive Packet where
  | opens (sender : Nat) (window maxpacket : UInt32)
  | confirmation (recipient sender : Nat) (window maxpacket : UInt32)
  | failure (recipient : Nat)
  | message (recipient : Nat) (message : Message)
  deriving DecidableEq

def Packet.recipient : Packet → Option Nat
  | .opens _ _ _ => none
  | .confirmation recipient _ _ _ => some recipient
  | .failure recipient => some recipient
  | .message recipient _ => some recipient

/-- Whether the packet answers the request to open a channel. -/
def Packet.settles : Packet → Bool
  | .confirmation _ _ _ _ => true
  | .failure _ => true
  | _ => false

structure Flight where
  talk : Nat
  packet : Packet
  deriving DecidableEq

/-! The connection. -/

structure Connection where
  slots : Side → List (Option Entry)
  toward : Side → List Flight
  talks : Nat

def Connection.start : Connection := ⟨fun _ => [], fun _ => [], 0⟩

def Connection.put (s : Connection) (side : Side) (id : Nat) (e : Option Entry) : Connection :=
  { s with slots := update s.slots side ((s.slots side).set id e) }

def Connection.send (s : Connection) (side : Side) (talk : Nat) (packets : List Packet) : Connection :=
  let flights := packets.map (Flight.mk talk)
  { s with toward := update s.toward side.peer (s.toward side.peer ++ flights) }

def Connection.take (s : Connection) (side : Side) (rest : List Flight) : Connection :=
  { s with toward := update s.toward side rest }

def Connection.fill (s : Connection) (side : Side) (e : Entry) : Except Stop (Connection × Nat) :=
  (channelNew (s.slots side) e).map fun out =>
    ({ s with slots := update s.slots side out.1 }, out.2)

/-- Messages of a channel go to the slot that the peer has named. -/
def Connection.say (s : Connection) (side : Side) (e : Entry) (sent : List Message) : Connection :=
  s.send side e.talk (sent.map (Packet.message e.remoteId))

/-- What a side does about a request: it refuses, accepts with a channel of some kind, or tries
to connect first. -/
inductive Answer where
  | refuse
  | session (seed : Seed)
  | x11 (seed : Seed)
  | accept (seed : Seed)
  | connect (seed : Seed)

inductive Act where
  | listen (seed : Seed)
  | dynamic (seed : Seed)
  | requestOpen (id : Nat)
  | markDead (id : Nat)
  | open (seed : Seed)
  | deliver (answer : Answer)
  | connected (id : Nat) (success : Bool)
  | setFds (id : Nat) (seed : Seed) (isatty : Bool)
  | x11Ready (id : Nat)
  | work (id : Nat) (occurrence : Occurrence)
  | garbageCollect (id : Nat) (detaches : Bool)

/-- The functions that are called for a channel by itself, according to its type: handlers run for
open channels, and an X11 channel can be rejected. -/
def Occurrence.allowed : Kind → Occurrence → Bool
  | .opened, .rfd _ _ | .opened, .wfd _ _ | .opened, .efd _ | .opened, .preOpen
  | .opened, .outputPoll | .opened, .checkWindow | .opened, .registerCleanup _
  | .opened, .readFailed | .opened, .writeFailed | .opened, .ibufEmpty | .opened, .obufEmpty => true
  | .x11Opened, .readFailed | .x11Opened, .writeFailed | .x11Opened, .ibufEmpty => true
  | _, _ => false

def asksFor (e : Entry) (id : Nat) : Packet :=
  .opens id e.chan.localWindowMax e.chan.localMaxpacket

def confirms (e : Entry) (id : Nat) : Packet :=
  .confirmation e.remoteId id e.chan.localWindow e.chan.localMaxpacket

def answerOpen (s : Connection) (side : Side) (talk sender : Nat) (window maxpacket : UInt32) :
    Answer → Except Stop Connection
  | .refuse => .ok (s.send side talk [.failure sender])
  -- A session wants to be told of the end of its channel from the start.
  | .session seed => accepted .live { newChan seed .larval with detachUser := true }
  | .x11 seed => accepted .live (newChan seed .x11Opened)
  | .accept seed => accepted .live (newChan seed .opened)
  | .connect seed => accepted .connecting (newChan seed .other)
where
  accepted (stage : Stage) (chan : Chan2) : Except Stop Connection := do
    let chan := { chan with remoteWindow := window, remoteMaxpacket := maxpacket }
    let e : Entry := ⟨chan, stage, sender, talk⟩
    let (s, id) ← s.fill side e
    return if stage = .live then s.send side talk [confirms e id] else s

def receive (fellows : Datafellows) (s : Connection) (side : Side) (flight : Flight)
    (answer : Answer) : Except Stop Connection :=
  match flight.packet with
  | .opens sender window maxpacket => answerOpen s side flight.talk sender window maxpacket answer
  | .confirmation id sender window maxpacket =>
    match channelLookup (s.slots side) id with
    | some e =>
      if e.stage = .opening then
        .ok (s.put side id (some { e with
          chan := { e.chan with type := .opened, remoteWindow := window, remoteMaxpacket := maxpacket }
          stage := .live
          remoteId := sender }))
      else .error (.exit 255)
    | none => .error (.exit 255)
  | .failure id =>
    match channelLookup (s.slots side) id with
    | some e =>
      if e.stage = .opening then
        .ok (s.put side id (some { e with chan := e.chan.onChan chanMarkDead }))
      else .error (.exit 255)
    | none => .error (.exit 255)
  | .message id message =>
    match channelLookup (s.slots side) id with
    | some e => do
      let (chan, sent) ← channelInput fellows message e.chan
      return (s.put side id (some { e with chan := chan })).say side e sent
    | none =>
      match message with
      | .windowAdjust _ => .ok s
      | _ => .error (.exit 255)

def isFreed (seen : List Outcome) : Bool :=
  seen.any fun outcome =>
    match outcome with
    | .freed _ => true
    | _ => false

/-- A channel of our own, which the peer is asked for at once or not yet. -/
def Connection.make (s : Connection) (side : Side) (stage : Stage) (seed : Seed) :
    Except Stop (Connection × List Flight) := do
  let e : Entry := ⟨newChan seed .other, stage, noRemote, s.talks⟩
  let (next, id) ← s.fill side e
  let next := { next with talks := s.talks + 1 }
  return (if stage = .opening then next.send side s.talks [asksFor e id] else next, [])

def actOn (fellows : Datafellows) (s : Connection) (side : Side) (id : Nat) (e : Entry) :
    Act → Except Stop Connection
  | .requestOpen _ =>
    if e.stage = .dynamic && e.chan.type ≠ .zombie then
      .ok ((s.put side id (some { e with stage := .opening })).send side e.talk [asksFor e id])
    else .ok s
  | .markDead _ =>
    if e.stage.hidden then .ok (s.put side id (some { e with chan := e.chan.onChan chanMarkDead }))
    else .ok s
  | .connected _ success =>
    if e.stage = .connecting && e.chan.type ≠ .zombie then
      if success then
        let e := { e with chan := { e.chan with type := .opened }, stage := .live }
        .ok ((s.put side id (some e)).send side e.talk [confirms e id])
      else
        .ok ((s.put side id (some { e with chan := e.chan.onChan chanMarkDead })).send side e.talk
          [.failure e.remoteId])
    else .ok s
  | .setFds _ seed isatty =>
    if e.stage = .live && e.chan.type = .larval then
      let chan := { e.chan with
        type := .opened
        rfd := seed.rfd
        wfd := seed.wfd
        sock := seed.sock
        isatty := isatty
        efd := seed.efd
        extendedUsage := seed.extendedUsage
        localWindow := seed.window
        localWindowMax := seed.window }
      .ok ((s.put side id (some { e with chan := chan })).say side e [.windowAdjust seed.window])
    else .ok s
  | .x11Ready _ =>
    if e.stage = .live && e.chan.type = .x11Opened then
      .ok (s.put side id (some { e with chan := { e.chan with type := .opened } }))
    else .ok s
  | .work _ occurrence =>
    if e.stage = .live && occurrence.allowed e.chan.type then do
      let (chan, seen) ← closeStep fellows e.chan occurrence
      return (s.put side id (some { e with chan := chan })).say side e (messages seen)
    else .ok s
  | .garbageCollect _ detaches =>
    let (chan, seen) := channelGarbageCollect fellows detaches e.chan
    .ok ((s.put side id (if isFreed seen then none else some { e with chan := chan })).say side e
      (messages seen))
  | _ => .ok s

def Act.slot : Act → Option Nat
  | .requestOpen id | .markDead id | .connected id _ | .setFds id _ _ | .x11Ready id | .work id _
  | .garbageCollect id _ => some id
  | _ => none

def connStep (fellows : Datafellows) (s : Connection) : Side × Act → Except Stop (Connection × List Flight)
  | (side, .listen seed) => s.make side .listening seed
  | (side, .dynamic seed) => s.make side .dynamic seed
  | (side, .open seed) => s.make side .opening seed
  | (side, .deliver answer) =>
    match s.toward side with
    | [] => .ok (s, [])
    | flight :: rest =>
      (receive fellows (s.take side rest) side flight answer).map fun next => (next, [flight])
  | (side, act) =>
    match act.slot.bind (slotAt (s.slots side)) with
    | none => .ok (s, [])
    | some e => (actOn fellows s side (act.slot.getD 0) e act).map fun next => (next, [])

end Channel
