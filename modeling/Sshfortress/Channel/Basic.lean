import Sshfortress.Base.Wire
import Sshfortress.Channel.Commands

/-! Channels of one server process: the record, the transitions of its two sides
when reading or writing ends, and the ways to take data off the output queue. -/
namespace Channel
open Base

structure Compat where
  (compat13 compat20 : Bool)
  deriving DecidableEq

inductive Kind where
  | larval
  | opened
  | x11Opened
  | inputDraining
  | zombie
  | other
  deriving DecidableEq

inductive InputState where
  | opened
  | waitDrain
  | waitOclose
  | closed
  deriving DecidableEq

inductive OutputState where
  | opened
  | waitDrain
  | waitIeof
  | closed
  deriving DecidableEq

/-- What is settled when a channel is made. The only filters the server installs
are the two of the tunnel device, so a filter is there or not. -/
structure Settings where
  ctype : Bytes
  (logfd logfdTime datagram inputFilter outputFilter : Bool)
  localMaxpacket : UInt32
  deriving DecidableEq

/-- A channel. Descriptors are kept as open or not. -/
structure Chan extends Settings where
  type : Kind
  (rfd wfd sock isatty detachClose : Bool)
  istate : InputState
  ostate : OutputState
  (closeSent closeRcvd : Bool)
  (input output : Bytes)
  (localWindow localWindowMax localConsumed : UInt32)
  deriving DecidableEq

variable (compat : Compat)

def chanShutdownWrite (c : Chan) : Chan :=
  let c := { c with output := [] }
  if compat.compat20 && c.type = .larval then c
  else if c.sock then c
  else { c with wfd := false }

def chanShutdownRead (c : Chan) : Chan :=
  if compat.compat20 && c.type = .larval then c
  else if c.sock then c
  else { c with rfd := false }

def chanReadFailed (c : Chan) : Chan :=
  match c.istate with
  | .opened => { chanShutdownRead compat c with istate := .waitDrain }
  | _ => c

/-- Protocol 1 leaves an open side waiting for the peer, protocol 2 closes it. -/
def chanWriteFailed (c : Chan) : Chan :=
  match c.ostate with
  | .opened =>
    { chanShutdownWrite compat c with
      ostate := if compat.compat20 then .closed else .waitIeof }
  | .waitDrain => { chanShutdownWrite compat c with ostate := .closed }
  | _ => c

def chanMarkDead (c : Chan) : Chan := { c with type := .zombie }

def chanRcvdEow (c : Chan) : Chan :=
  match c.istate with
  | .opened => { chanShutdownRead compat c with istate := .closed }
  | _ => c

/-- What both handlers do when the output filter returns nothing. -/
def filterStops (c : Chan) : Chan :=
  if c.type = .opened then chanWriteFailed compat c else chanMarkDead c

def readFailed (c : Chan) : Chan :=
  if c.type ≠ .opened then chanMarkDead c
  else if compat.compat13 then { c with output := [], type := .inputDraining }
  else chanReadFailed compat c

def writeFailed (c : Chan) : Chan :=
  if c.type ≠ .opened then chanMarkDead c
  else if compat.compat13 then { c with output := [], type := .inputDraining }
  else chanWriteFailed compat c

/-! What becomes of a side that fails, or is told to stop. -/

variable (c : Chan)

lemma chanShutdownWrite_eq : ∃ wfd, chanShutdownWrite compat c = { c with output := [], wfd } := by
  rw [chanShutdownWrite]
  split_ifs
  · exact ⟨c.wfd, rfl⟩
  · exact ⟨c.wfd, rfl⟩
  · exact ⟨false, rfl⟩

lemma chanShutdownRead_eq : ∃ rfd, chanShutdownRead compat c = { c with rfd } := by
  rw [chanShutdownRead]
  split_ifs
  · exact ⟨c.rfd, rfl⟩
  · exact ⟨c.rfd, rfl⟩
  · exact ⟨false, rfl⟩

lemma chanReadFailed_eq : ∃ rfd istate, chanReadFailed compat c = { c with rfd, istate } ∧
      (istate = c.istate ∨ c.istate = .opened ∧ istate = .waitDrain) := by
  obtain ⟨rfd, hs⟩ := chanShutdownRead_eq compat c
  rw [chanReadFailed, hs]
  split
  · next ho => exact ⟨rfd, .waitDrain, rfl, .inr ⟨ho, rfl⟩⟩
  · exact ⟨c.rfd, c.istate, rfl, .inl rfl⟩

lemma chanRcvdEow_eq :
    ∃ rfd istate, chanRcvdEow compat c = { c with rfd, istate } ∧ (istate = c.istate ∨ istate = .closed) := by
  obtain ⟨rfd, hs⟩ := chanShutdownRead_eq compat c
  rw [chanRcvdEow, hs]
  split
  · exact ⟨rfd, .closed, rfl, .inr rfl⟩
  · exact ⟨c.rfd, c.istate, rfl, .inl rfl⟩

lemma chanWriteFailed_eq : c.ostate ≠ .opened ∧ chanWriteFailed compat c = c ∨
      ∃ wfd ostate, chanWriteFailed compat c = { c with output := [], wfd, ostate } ∧
        ostate ≠ .opened ∧ (compat.compat20 = true → ostate = .closed) := by
  obtain ⟨wfd, hs⟩ := chanShutdownWrite_eq compat c
  rw [chanWriteFailed, hs]
  split
  · exact .inr ⟨wfd, _, rfl, by split_ifs <;> simp, fun h => if_pos h⟩
  · exact .inr ⟨wfd, .closed, rfl, by simp, fun _ => rfl⟩
  · next hNot _ => exact .inl ⟨hNot, rfl⟩

inductive Fetched where
  | nothing
  | stops (c : Chan)
  | data (bytes : Bytes) (c : Chan)

/-- The first string of the queue, which must be well formed. -/
def bufferGetString (c : Chan) : Except Stop (Bytes × Chan) :=
  match Wire.getString c.output with
  | some (s, rest) => .ok (s, { c with output := rest })
  | none => .error .fatal

/-- The three ways in which `channel_handle_rfd` and `channel_handle_wfd` look at
the queue. The filter and the datagram case take the string off the queue. -/
def fetchOutput (writable : Bool) (c : Chan) : Except Stop Fetched :=
  if c.wfd && writable && c.output ≠ [] then
    if c.outputFilter then do
      -- `sys_tun_outfilter` drops the address family in front of the packet.
      let (s, c) ← bufferGetString c
      return if s.length < 4 then .stops c else .data (s.drop 4) c
    else if c.datagram then do
      let (s, c) ← bufferGetString c
      return .data s c
    else .ok (.data c.output c)
  else .ok .nothing

lemma bufferGetString_eq_ok {c next : Chan} {s : Bytes} (h : bufferGetString c = .ok (s, next)) :
    ∃ rest, Wire.getString c.output = some (s, rest) ∧ next = { c with output := rest } := by
  unfold bufferGetString at h
  cases hGet : Wire.getString c.output with
  | none =>
    rw [hGet] at h
    cases h
  | some found =>
    rw [hGet] at h
    cases h
    exact ⟨found.2, rfl, rfl⟩

structure Timeval where
  (sec usec : Int)
  deriving DecidableEq

inductive ReadResult where
  | data (bytes : Bytes)
  | interrupted
  | again
  | failed
  deriving DecidableEq

inductive WriteResult where
  | wrote (count : Nat)
  | retry
  | failed
  deriving DecidableEq

/-- What a round of the select loop finds for one channel: readiness and the answers
of the system calls, the two clock readings, the database, and the memory that the
handlers read without having set it. `stale` is the value of the uninitialised
variables `buf_w` and `dlen`, with `none` for a null pointer; `after` is the memory
behind the queued data and `rodata` the memory behind a literal. -/
structure Round where
  (readable writable : Bool)
  read : ReadResult
  write : WriteResult
  (now later : Timeval)
  db : Database
  stale : Option Keys
  after : Bytes
  rodata : Bytes → Bytes

/-- The globals of the process that the audit uses. `rfdLog` is the content of the
file of collected output, which is named after the process. -/
structure Globals where
  sshtype : Bytes
  oldtime : Timeval
  (audituser rfdLog : Bytes)
  emulator : Emulator

inductive Action where
  | queued (bytes : Bytes)
  | handed (bytes : Bytes)
  | relayed (bytes : Bytes)
  | logged (bytes : Bytes)
  | timed (record : Bytes)
  | considered (keys : Keys)
  | extracted
  | queried (sql : Bytes)
  | adjusted (window : UInt32)
  | answered (rtype : Bytes) (success : Bool)
  deriving DecidableEq

end Channel
