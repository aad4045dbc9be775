import Sshfortress.Base.Cipher
import Sshfortress.Base.Interaction

/-! The state of the packet layer (protocol 2, no compression): keys and contexts
of the two directions, counters, buffers, the queue of packets held back during a
key exchange, and what decides when the next exchange is due. -/
namespace Packet

open Base Base.Wire Base.Cipher

def packetMaxSize : Nat := 256 * 1024

inductive Err where
  | invalidArgument
  | internalError
  | invalidFormat
  | messageIncomplete
  | needRekey
  | macInvalid
  | connCorrupt
  | protocolError
  | noBufferSpace
  | disconnected
  /-- No common algorithm, or a failure inside the key exchange method. -/
  | kexFailed
  deriving DecidableEq

/-! Message types. -/

def msgDisconnect : UInt8 := 1
def msgIgnore : UInt8 := 2
def msgUnimplemented : UInt8 := 3
def msgDebug : UInt8 := 4
def msgServiceRequest : UInt8 := 5
def msgServiceAccept : UInt8 := 6
def msgExtInfo : UInt8 := 7
def msgKexinit : UInt8 := 20
def msgNewkeys : UInt8 := 21
def msgTransportMin : UInt8 := 1
def msgTransportMax : UInt8 := 49
def msgUserauthSuccess : UInt8 := 52
def msgMin : UInt8 := 1
def msgLocalMin : UInt8 := 192

/-- Whether a type belongs to the key exchange, and may be sent during one. -/
def sshPacketTypeIsKex (type : UInt8) : Bool :=
  msgTransportMin ≤ type && type ≤ msgTransportMax && type ≠ msgServiceRequest &&
    type ≠ msgServiceAccept && type ≠ msgExtInfo

/-! Keys. -/

/-- How the packets of a direction are protected. A cipher that authenticates by
itself has no message authentication code beside it. -/
inductive Protection (Ctx : Type) where
  | mac (cipher : BlockCipher Ctx) (cbc : Bool) (mac : Mac UInt32) (etm : Bool)
  | aead (cipher : Aead Ctx UInt32) (blockSize : Nat)

def Protection.blockSize {Ctx : Type} : Protection Ctx → Nat
  | .mac cipher _ _ _ => cipher.blockSize
  | .aead _ blockSize => blockSize

/-- The keys of one direction, with the contexts that either side starts from. The
number tells keys of different exchanges apart. -/
structure Newkeys (Ctx : Type) where
  id : Nat
  protection : Protection Ctx
  blockSize_eq : protection.blockSize = 8 ∨ protection.blockSize = 16
  (sendStart receiveStart : Ctx)

/-- Before the first exchange there are no keys. -/
abbrev Keys (Ctx : Type) := Option (Newkeys Ctx)

namespace Keys

variable {Ctx : Type}

def blockSize : Keys Ctx → Nat
  | none => 8
  | some k => k.protection.blockSize

/-- The bytes in front that are not encrypted as part of the text. -/
def aadlen : Keys Ctx → Nat
  | some ⟨_, .mac _ _ _ true, _, _, _⟩ => 4
  | some ⟨_, .aead _ _, _, _, _⟩ => 4
  | _ => 0

def authlen : Keys Ctx → Nat
  | some ⟨_, .aead cipher _, _, _, _⟩ => cipher.authlen
  | _ => 0

def maclen : Keys Ctx → Nat
  | some ⟨_, .mac _ _ mac _, _, _, _⟩ => mac.macLen
  | _ => 0

lemma blockSize_eq (k : Keys Ctx) : k.blockSize = 8 ∨ k.blockSize = 16 := by
  cases k with
  | none => exact .inl rfl
  | some k => exact k.blockSize_eq

lemma aadlen_eq (k : Keys Ctx) : k.aadlen = 0 ∧ k.authlen = 0 ∨ k.aadlen = 4 := by
  match k with
  | none => exact .inl ⟨rfl, rfl⟩
  | some ⟨_, .mac _ _ _ true, _, _, _⟩ => exact .inr rfl
  | some ⟨_, .mac _ _ _ false, _, _, _⟩ => exact .inl ⟨rfl, rfl⟩
  | some ⟨_, .aead _ _, _, _, _⟩ => exact .inr rfl

end Keys

/-! The session. -/

structure PacketState where
  (seqnr packets : UInt32)
  (blocks bytes : UInt64)
  deriving DecidableEq

structure Direction (Ctx : Type) where
  newkeys : Keys Ctx
  context : Ctx
  state : PacketState
  maxBlocks : UInt64

/-- What the packet layer knows of the key exchange. New keys wait here until the
message that announces them. -/
structure Kex (Ctx : Type) where
  (my peer : Bytes)
  (initSent done extInfoC : Bool)
  (newkeysIn newkeysOut : Keys Ctx)

/-- A session for which `kex_new` has run. Random bytes and readings of the clock
come from streams that are fixed in advance and arbitrary. -/
structure Ssh (Ctx : Type) where
  (serverSide bugNorekey afterAuthentication : Bool)
  (read send : Direction Ctx)
  rekeyLimit : UInt64
  (rekeyInterval rekeyTime : Nat)
  extraPad : UInt8
  (input output incomingPacket : Bytes)
  (packlen packetDiscard : Nat)
  rekeying : Bool
  outgoing : List Bytes
  kex : Kex Ctx
  random : Nat → UInt8
  drawn : Nat
  clock : Nat → Nat
  readings : Nat

variable {Ctx : Type}

def arc4randomBuf (s : Ssh Ctx) (n : Nat) : Ssh Ctx × Bytes :=
  ({ s with drawn := s.drawn + n }, (List.range n).map fun i => s.random (s.drawn + i))

lemma arc4randomBuf_length (s : Ssh Ctx) (n : Nat) : (arc4randomBuf s n).2.length = n := by
  simp [arc4randomBuf]

/-! When an exchange is due. -/

def roundup (x y : Nat) : Nat := (x + (y - 1)) / y * y

def maxPackets : UInt32 := 0x80000000

def sshPacketIsRekeying (s : Ssh Ctx) : Bool := s.rekeying || !s.kex.done

/-- Whether a packet of this length makes an exchange due. Every evaluation has a
reading of the clock, whether it looks at it or not. -/
def sshPacketNeedRekeying (s : Ssh Ctx) (outboundPacketLen : Nat) : Bool :=
  if !s.afterAuthentication then false
  else if sshPacketIsRekeying s then false
  else if s.bugNorekey then false
  -- One packet in or out is permitted per exchange.
  else if s.send.state.packets = 0 ∧ s.read.state.packets = 0 then false
  else if s.rekeyInterval ≠ 0 ∧ s.rekeyTime + s.rekeyInterval ≤ s.clock s.readings then true
  else if maxPackets < s.send.state.packets ∨ maxPackets < s.read.state.packets then true
  else
    let outBlocks := UInt64.ofNat (roundup outboundPacketLen s.send.newkeys.blockSize)
    (s.send.maxBlocks ≠ 0 && s.send.maxBlocks < s.send.state.blocks + outBlocks) ||
      (s.read.maxBlocks ≠ 0 && s.read.maxBlocks < s.read.state.blocks)

def tick (s : Ssh Ctx) : Ssh Ctx := { s with readings := s.readings + 1 }

/-! Installing keys. -/

/-- Small blocks are limited to 1 GB. -/
def maxBlocks (blockSize : Nat) (rekeyLimit : UInt64) : UInt64 :=
  let most : UInt64 := if 16 ≤ blockSize then 1 <<< UInt64.ofNat (blockSize * 2)
    else 0x40000000 / UInt64.ofNat blockSize
  if rekeyLimit ≠ 0 then min most (rekeyLimit / UInt64.ofNat blockSize) else most

/-- A direction with new keys. The sequence number goes on. -/
def Direction.setNewkeys (d : Direction Ctx) (k : Newkeys Ctx) (start : Ctx) (rekeyLimit : UInt64) :
    Direction Ctx where
  newkeys := some k
  context := start
  state := { d.state with packets := 0, blocks := 0 }
  maxBlocks := Packet.maxBlocks k.protection.blockSize rekeyLimit

def sshSetNewkeysOut (s : Ssh Ctx) : Except Err (Ssh Ctx) :=
  match s.kex.newkeysOut with
  | none => .error .internalError
  | some k => .ok { s with
      send := s.send.setNewkeys k k.sendStart s.rekeyLimit
      kex := { s.kex with newkeysOut := none } }

def sshSetNewkeysIn (s : Ssh Ctx) : Except Err (Ssh Ctx) :=
  match s.kex.newkeysIn with
  | none => .error .internalError
  | some k => .ok { s with
      read := s.read.setNewkeys k k.receiveStart s.rekeyLimit
      kex := { s.kex with newkeysIn := none } }

/-! A small instance. -/

/-- Adds the context to every byte, and moves on to the next context. -/
def shiftCipher : BlockCipher UInt8 where
  blockSize := 8
  encrypt ctx block := (ctx + 1, block.map (· + ctx))
  decrypt ctx block := (ctx + 1, block.map (· - ctx))
  inStep sender receiver := sender = receiver
  encrypt_length ctx block h := by rw [List.length_map, h]
  decrypt_length ctx block h := by rw [List.length_map, h]
  decrypt_encrypt sender receiver block hStep _ := by simp [hStep, Function.comp_def]
  inStep_after sender receiver block hStep _ := by rw [hStep]

def sumMac : Mac UInt32 where
  macLen := 1
  compute seqnr data := [seqnr.toUInt8 + data.sum]
  compute_length _ _ := rfl

def shiftKeys (id : Nat) : Newkeys UInt8 where
  id
  protection := .mac shiftCipher true sumMac false
  blockSize_eq := .inl rfl
  sendStart := 0
  receiveStart := 0

def shiftDirection (id : Nat) : Direction UInt8 where
  newkeys := some (shiftKeys id)
  context := 0
  state := ⟨0, 0, 0, 0⟩
  maxBlocks := 0

def shiftSession : Ssh UInt8 where
  serverSide := false
  bugNorekey := false
  afterAuthentication := false
  read := shiftDirection 0
  send := shiftDirection 0
  rekeyLimit := 0
  rekeyInterval := 0
  rekeyTime := 0
  extraPad := 0
  input := []
  output := []
  incomingPacket := []
  packlen := 0
  packetDiscard := 0
  rekeying := false
  outgoing := []
  kex := ⟨List.replicate 16 0, [], false, true, false, none, none⟩
  random _ := 7
  drawn := 0
  clock _ := 0
  readings := 0

end Packet
