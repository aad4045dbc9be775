import Sshfortress.Base.Codec
import Sshfortress.Packet.Basic

/-! The state of the packet layer as bytes. After authentication the unprivileged process writes
its state to a buffer, and a fresh process restores its own state from there and installs the
keys as if they had just been exchanged. -/
namespace Serial

open Base Base.Wire List
open Packet (Err PacketState)

/-! Tables. -/

/-- A row of the table of ciphers: the name, whether it is one of protocol 2, the lengths, and
the two kinds of ciphers that keep their state in another way. -/
structure Sshcipher where
  name : Bytes
  ssh2 : Bool
  (blockSize keyLen ivLen authLen : Nat)
  (chachapoly rc4 : Bool)
  deriving DecidableEq

def ciphers : List Sshcipher := [ ⟨text "none", false, 8, 0, 0, 0, false, false⟩,
  ⟨text "3des-cbc", true, 8, 24, 0, 0, false, false⟩,
  ⟨text "blowfish-cbc", true, 8, 16, 0, 0, false, false⟩,
  ⟨text "cast128-cbc", true, 8, 16, 0, 0, false, false⟩,
  ⟨text "arcfour", true, 8, 16, 0, 0, false, true⟩,
  ⟨text "arcfour128", true, 8, 16, 0, 0, false, true⟩,
  ⟨text "arcfour256", true, 8, 32, 0, 0, false, true⟩,
  ⟨text "aes128-cbc", true, 16, 16, 0, 0, false, false⟩,
  ⟨text "aes192-cbc", true, 16, 24, 0, 0, false, false⟩,
  ⟨text "aes256-cbc", true, 16, 32, 0, 0, false, false⟩,
  ⟨text "rijndael-cbc@lysator.liu.se", true, 16, 32, 0, 0, false, false⟩,
  ⟨text "aes128-ctr", true, 16, 16, 0, 0, false, false⟩,
  ⟨text "aes192-ctr", true, 16, 24, 0, 0, false, false⟩,
  ⟨text "aes256-ctr", true, 16, 32, 0, 0, false, false⟩,
  ⟨text "aes128-gcm@openssh.com", true, 16, 16, 12, 16, false, false⟩,
  ⟨text "aes256-gcm@openssh.com", true, 16, 32, 12, 16, false, false⟩,
  ⟨text "chacha20-poly1305@openssh.com", true, 8, 64, 0, 16, true, false⟩]

/-- The address of a row. The table is at the same place in both processes. -/
abbrev CipherRef := Fin ciphers.length

def CipherRef.entry (c : CipherRef) : Sshcipher := ciphers.get c

def cipherByName (name : Bytes) : Option CipherRef := ciphers.findFinIdx? fun c => c.name = name

def cipherIvlen (c : Sshcipher) : Nat :=
  if c.ivLen ≠ 0 ∨ c.chachapoly then c.ivLen else c.blockSize

/-- What `mac_setup` takes from the table of codes. -/
structure Macalg where
  name : Bytes
  (keyLen macLen : Nat)
  etm : Bool
  deriving DecidableEq

def macs : List Macalg := [ ⟨text "hmac-sha1", 20, 20, false⟩, ⟨text "hmac-sha1-96", 20, 12, false⟩,
  ⟨text "hmac-sha2-256", 32, 32, false⟩,
  ⟨text "hmac-sha2-512", 64, 64, false⟩,
  ⟨text "hmac-md5", 16, 16, false⟩,
  ⟨text "hmac-md5-96", 16, 12, false⟩,
  ⟨text "hmac-ripemd160", 20, 20, false⟩,
  ⟨text "hmac-ripemd160@openssh.com", 20, 20, false⟩,
  ⟨text "umac-64@openssh.com", 16, 8, false⟩,
  ⟨text "umac-128@openssh.com", 16, 16, false⟩,
  ⟨text "hmac-sha1-etm@openssh.com", 20, 20, true⟩,
  ⟨text "hmac-sha1-96-etm@openssh.com", 20, 12, true⟩,
  ⟨text "hmac-sha2-256-etm@openssh.com", 32, 32, true⟩,
  ⟨text "hmac-sha2-512-etm@openssh.com", 64, 64, true⟩,
  ⟨text "hmac-md5-etm@openssh.com", 16, 16, true⟩,
  ⟨text "hmac-md5-96-etm@openssh.com", 16, 12, true⟩,
  ⟨text "hmac-ripemd160-etm@openssh.com", 20, 20, true⟩,
  ⟨text "umac-64-etm@openssh.com", 16, 8, true⟩,
  ⟨text "umac-128-etm@openssh.com", 16, 16, true⟩]

def macSetup (name : Bytes) : Option Macalg := macs.find? fun m => m.name = name

lemma cipherByName_entry : ∀ c : CipherRef, cipherByName c.entry.name = some c := by
  decide +kernel

/-! The state. -/

structure Sshenc where
  name : Cstring
  cipher : CipherRef
  (enabled blockSize : UInt32)
  (key iv : Bytes)
  deriving DecidableEq

/-- The code, with what the table says of it. It stays empty beside authenticated encryption. -/
structure Sshmac where
  name : Cstring
  enabled : UInt32
  key : Bytes
  macLen : Nat
  etm : Bool
  deriving DecidableEq

def Sshmac.unset : Sshmac := ⟨⟨[], not_mem_nil⟩, 0, [], 0, false⟩

structure Sshcomp where
  (type enabled : UInt32)
  name : Cstring
  deriving DecidableEq

def compZlib : UInt32 := 1
def compDelayed : UInt32 := 2

structure Newkeys where
  enc : Sshenc
  mac : Sshmac
  comp : Sshcomp
  deriving DecidableEq

structure KexItems where
  sessionId : Bytes
  (weNeed hostkeyType kexType : UInt32)
  (my peer : Bytes)
  flags : UInt32
  (clientVersionString serverVersionString : Cstring)
  deriving DecidableEq

structure Kex extends KexItems where
  (newkeysIn newkeysOut : Option Newkeys)
  (server done : Bool)

/-- What the libraries for encryption and compression provide. A context that was just set up
has the vector it was given, and the state of a cipher can be replaced by other bytes. -/
structure Library (Evp : Type) where
  init : CipherRef → Bytes → Bytes → Bool → Evp
  (iv state : Evp → Bytes)
  setState : Evp → Bytes → Evp
  stateLen : CipherRef → Nat
  streamLen : Nat
  (outStream inStream : Bytes)
  streamLen_ne : streamLen ≠ 0
  iv_init : ∀ c key vector encrypt, vector.length = cipherIvlen c.entry →
    iv (init c key vector encrypt) = vector
  state_init : ∀ c key vector encrypt, (state (init c key vector encrypt)).length = stateLen c
  iv_setState : ∀ evp bytes, iv (setState evp bytes) = iv evp
  state_setState : ∀ evp bytes, bytes.length = (state evp).length → state (setState evp bytes) = bytes

structure SshcipherCtx (Evp : Type) where
  cipher : CipherRef
  encrypt : Bool
  evp : Evp

structure Half (Evp : Type) where
  newkeys : Option Newkeys
  context : SshcipherCtx Evp
  state : PacketState
  maxBlocks : UInt64

structure SessionState (Evp : Type) where
  kex : Kex
  (send read : Half Evp)
  rekeyLimit : UInt64
  rekeyInterval : UInt32
  rekeyTime : Nat
  (afterAuthentication rekeying : Bool)
  (compressionIn compressionOut : Option Bytes)
  (input output : Bytes)

variable {Evp : Type} (lib : Library Evp)

/-! Contexts. -/

def evpIvLength (c : Sshcipher) : Nat := if c.rc4 then 0 else cipherIvlen c

/-- The buffer for the vector after the call. -/
def cipherGetKeyiv (cc : SshcipherCtx Evp) (iv : Bytes) : Except Err Bytes :=
  let c := cc.cipher.entry
  if c.chachapoly then
    if iv.length ≠ 0 then .error .invalidArgument else .ok iv
  else if c.ssh2 = false then .error .invalidArgument
  else if evpIvLength c = 0 then .ok iv
  else if evpIvLength c ≠ iv.length then .error .invalidArgument
  else .ok (lib.iv cc.evp)

def cipherInit (c : CipherRef) (key iv : Bytes) (encrypt : Bool) : Except Err (SshcipherCtx Evp) :=
  if key.length < c.entry.keyLen ∨ iv.length < cipherIvlen c.entry then .error .invalidArgument
  else .ok ⟨c, encrypt, lib.init c key iv encrypt⟩

def cipherGetKeycontext (cc : SshcipherCtx Evp) : Bytes :=
  if cc.cipher.entry.rc4 then lib.state cc.evp else []

def cipherSetKeycontext (cc : SshcipherCtx Evp) (dat : Bytes) : SshcipherCtx Evp :=
  if cc.cipher.entry.rc4 then { cc with evp := lib.setState cc.evp dat } else cc

/-! Writing. -/

def kexToBlob (kex : KexItems) : Bytes :=
  putString kex.sessionId ++ (putWord32 kex.weNeed ++ (putWord32 kex.hostkeyType ++
    (putWord32 kex.kexType ++ (putString kex.my ++ (putString kex.peer ++ (putWord32 kex.flags ++
      (putString kex.clientVersionString ++ putString kex.serverVersionString)))))))

def putPointer (c : CipherRef) : Bytes := putU64 c

def encBlob (enc : Sshenc) : Bytes :=
  putString enc.name ++ (putPointer enc.cipher ++ (putWord32 enc.enabled ++
    (putWord32 enc.blockSize ++ (putString enc.key ++ putString enc.iv))))

def macBlob (mac : Sshmac) : Bytes :=
  putString mac.name ++ (putWord32 mac.enabled ++ putString mac.key)

def compBlob (comp : Sshcomp) : Bytes :=
  putWord32 comp.type ++ (putWord32 comp.enabled ++ putString comp.name)

/-- The keys of a direction. Beside authenticated encryption there is no code to write. -/
def keysBlob (k : Newkeys) : Bytes :=
  encBlob k.enc ++ ((if k.enc.cipher.entry.authLen = 0 then macBlob k.mac else []) ++ compBlob k.comp)

def Half.exported (half : Half Evp) : Except Err Newkeys :=
  match half.newkeys with
  | none => .error .internalError
  | some k => do
    let iv ← cipherGetKeyiv lib half.context k.enc.iv
    return { k with enc := { k.enc with iv } }

def newkeysToBlob (half : Half Evp) : Except Err Bytes := do
  let k ← half.exported lib
  return putString (keysBlob k)

def stateBlob (p : PacketState) : Bytes :=
  putWord32 p.seqnr ++ (putWord64 p.blocks ++ (putWord32 p.packets ++ putWord64 p.bytes))

def sshPacketGetCompressState (s : SessionState Evp) : Bytes :=
  putString (putString (s.compressionIn.getD []) ++ putString (s.compressionOut.getD []))

/-- Whatever does not fit into a buffer makes the call fail. -/
def sshPacketGetState (s : SessionState Evp) : Except Err Bytes := do
  let out ← newkeysToBlob lib s.send
  let in_ ← newkeysToBlob lib s.read
  let m := kexToBlob s.kex.toKexItems ++ (out ++ (in_ ++ (putWord64 s.rekeyLimit ++
    (putWord32 s.rekeyInterval ++ (stateBlob s.send.state ++ (stateBlob s.read.state ++
      (putString (cipherGetKeycontext lib s.send.context) ++
        (putString (cipherGetKeycontext lib s.read.context) ++
          (sshPacketGetCompressState s ++ (putString s.input ++ putString s.output))))))))))
  if sizeMax < m.length then .error .noBufferSpace else .ok m

/-! Reading. -/

def kexFromBlob : Getter KexItems :=
  andThen getString fun sessionId => andThen getWord32 fun weNeed =>
    andThen getWord32 fun hostkeyType => andThen getWord32 fun kexType =>
      andThen getString fun my => andThen getString fun peer => andThen getWord32 fun flags =>
        andThen getCstr fun clientVersionString => andThen getCstr fun serverVersionString =>
          give ⟨sessionId, weNeed, hostkeyType, kexType, my, peer, flags, clientVersionString,
            serverVersionString⟩

def getPointer : Getter CipherRef :=
  andThen getU64 fun n => if h : n < ciphers.length then give ⟨n, h⟩ else reject

def getEnc : Getter Sshenc :=
  andThen getCstr fun name => andThen getPointer fun cipher => andThen getWord32 fun enabled =>
    andThen getWord32 fun blockSize => andThen getString fun key => andThen getString fun iv =>
      give ⟨name, cipher, enabled, blockSize, key, iv⟩

def getMac : Getter Sshmac :=
  andThen getCstr fun name =>
    match macSetup name.val with
    | none => reject
    | some alg => andThen getWord32 fun enabled => andThen getString fun key =>
      if alg.keyLen < key.length then reject else give ⟨name, enabled, key, alg.macLen, alg.etm⟩

def getComp : Getter Sshcomp :=
  andThen getWord32 fun type => andThen getWord32 fun enabled => andThen getCstr fun name =>
    give ⟨type, enabled, name⟩

def newkeysFromBlob : Getter Newkeys :=
  within (andThen getEnc fun enc =>
    andThen (if enc.cipher.entry.authLen = 0 then getMac else give .unset) fun mac =>
      andThen getComp fun comp =>
        if cipherByName enc.name.val ≠ some enc.cipher then reject else give ⟨enc, mac, comp⟩)

def getPacketState : Getter PacketState :=
  andThen getWord32 fun seqnr => andThen getWord64 fun blocks => andThen getWord32 fun packets =>
    andThen getWord64 fun bytes => give ⟨seqnr, packets, blocks, bytes⟩

/-- A stream that was started is as long as the record of the library. -/
def getStream (stream : Bytes) : Getter (Option Bytes) :=
  if stream.length = 0 then give none
  else if stream.length ≠ lib.streamLen then reject
  else give (some stream)

def sshPacketSetCompressState : Getter (Option Bytes × Option Bytes) :=
  inside (andThen getString fun inblob => andThen getString fun outblob =>
    andThen (getStream lib inblob) fun compressionIn =>
      andThen (getStream lib outblob) fun compressionOut => give (compressionIn, compressionOut))

/-- All that is read before the keys are installed. -/
structure Items where
  kex : KexItems
  (newkeysOut newkeysIn : Newkeys)
  rekeyLimit : UInt64
  rekeyInterval : UInt32
  (send read : PacketState)

def getItems : Getter Items :=
  andThen kexFromBlob fun kex => andThen newkeysFromBlob fun newkeysOut =>
    andThen newkeysFromBlob fun newkeysIn => andThen getWord64 fun rekeyLimit =>
      andThen getWord32 fun rekeyInterval => andThen getPacketState fun send =>
        andThen getPacketState fun read =>
          give ⟨kex, newkeysOut, newkeysIn, rekeyLimit, rekeyInterval, send, read⟩

/-- Keys are moved to a direction, whose counters of packets and blocks start again. -/
def Half.setNewkeys (half : Half Evp) (k : Newkeys) (enabled : UInt32) (encrypt : Bool)
    (rekeyLimit : UInt64) : Except Err (Half Evp) := do
  let context ← cipherInit lib k.enc.cipher k.enc.key k.enc.iv encrypt
  return {
    newkeys := some { k with
      mac := { k.mac with enabled := 1 }
      comp := { k.comp with enabled } }
    context
    state := { half.state with packets := 0, blocks := 0 }
    maxBlocks := Packet.maxBlocks k.enc.blockSize.toNat rekeyLimit }

/-- Compression that is not delayed, or no longer, starts with the keys. -/
def startsCompression (comp : Sshcomp) (afterAuthentication : Bool) : Bool :=
  (comp.type = compZlib || (comp.type = compDelayed && afterAuthentication)) && comp.enabled = 0

def sshSetNewkeysIn (s : SessionState Evp) : Except Err (SessionState Evp) :=
  match s.kex.newkeysIn with
  | none => .error .internalError
  | some k => do
    let starts := startsCompression k.comp s.afterAuthentication
    let read ← s.read.setNewkeys lib k (if starts then 1 else k.comp.enabled) false s.rekeyLimit
    return { s with
      read
      compressionIn := if starts then some lib.inStream else s.compressionIn
      kex := { s.kex with newkeysIn := none } }

def sshSetNewkeysOut (s : SessionState Evp) : Except Err (SessionState Evp) :=
  match s.kex.newkeysOut with
  | none => .error .internalError
  | some k => do
    let starts := startsCompression k.comp s.afterAuthentication
    let send ← s.send.setNewkeys lib k (if starts then 1 else k.comp.enabled) true s.rekeyLimit
    return { s with
      send
      compressionOut := if starts then some lib.outStream else s.compressionOut
      kex := { s.kex with newkeysOut := none } }

def parse {α : Type} (getter : Getter α) (m : Bytes) : Except Err (α × Bytes) :=
  match getter m with
  | none => .error .invalidFormat
  | some out => .ok out

/-- The state with the items in it, at this time, before the keys are installed. -/
def restore (s : SessionState Evp) (now : Nat) (items : Items) : SessionState Evp :=
  { s with
    kex := { items.kex with
      newkeysIn := some items.newkeysIn
      newkeysOut := some items.newkeysOut
      server := true
      done := true }
    rekeyLimit := items.rekeyLimit
    rekeyInterval := items.rekeyInterval
    send := { s.send with state := items.send }
    read := { s.read with state := items.read }
    rekeyTime := now }

def sshPacketSetState (s : SessionState Evp) (now : Nat) (m : Bytes) : Except Err (SessionState Evp) := do
  let (items, m) ← parse getItems m
  let s ← sshSetNewkeysIn lib (restore s now items)
  let s ← sshSetNewkeysOut lib s
  let (keyout, m) ← parse getString m
  let (keyin, m) ← parse getString m
  if (cipherGetKeycontext lib s.send.context).length ≠ keyout.length ∨
      (cipherGetKeycontext lib s.read.context).length ≠ keyin.length then
    .error .invalidFormat
  else do
    let (streams, m) ← parse (sshPacketSetCompressState lib) m
    let (input, m) ← parse getString m
    let (output, m) ← parse getString m
    if m.length ≠ 0 then .error .invalidFormat
    else return { s with
      send := { s.send with context := cipherSetKeycontext lib s.send.context keyout }
      read := { s.read with context := cipherSetKeycontext lib s.read.context keyin }
      compressionIn := streams.1
      compressionOut := streams.2
      afterAuthentication := true
      rekeying := false
      input
      output }

/-! Keyed states. -/

/-- Keys as they are chosen from the tables and installed. -/
structure Installed (k : Newkeys) : Prop where
  name : k.enc.name.val = k.enc.cipher.entry.name
  key : k.enc.cipher.entry.keyLen ≤ k.enc.key.length
  iv : k.enc.iv.length = cipherIvlen k.enc.cipher.entry
  enabled : k.mac.enabled = 1
  mac : k.enc.cipher.entry.authLen = 0 → ∃ alg, macSetup k.mac.name.val = some alg ∧
    k.mac.key.length ≤ alg.keyLen ∧ k.mac.macLen = alg.macLen ∧ k.mac.etm = alg.etm
  aead : k.enc.cipher.entry.authLen ≠ 0 → k.mac = { Sshmac.unset with enabled := 1 }
  comp : k.comp.type = compZlib → k.comp.enabled ≠ 0

/-- A direction whose context belongs to its keys. -/
structure Half.Keyed (half : Half Evp) : Prop where
  keys : ∃ k, half.newkeys = some k ∧ Installed k ∧ half.context.cipher = k.enc.cipher
  iv : (lib.iv half.context.evp).length = cipherIvlen half.context.cipher.entry
  state : (lib.state half.context.evp).length = lib.stateLen half.context.cipher

/-- Both directions are keyed, and a stream is a record of the library. -/
structure Keyed (s : SessionState Evp) : Prop where
  send : s.send.Keyed lib
  read : s.read.Keyed lib
  compressionIn : ∀ stream, s.compressionIn = some stream → stream.length = lib.streamLen
  compressionOut : ∀ stream, s.compressionOut = some stream → stream.length = lib.streamLen

/-! What is restored. -/

structure RestoredHalf (s t : Half Evp) : Prop where
  keys : ∃ k, s.exported lib = .ok k ∧ t.newkeys = some k
  iv : ∀ buf, cipherGetKeyiv lib t.context buf = cipherGetKeyiv lib s.context buf
  context : cipherGetKeycontext lib t.context = cipherGetKeycontext lib s.context
  state : t.state = s.state

/-- Every item that was written is as it was. -/
structure Restored (s t : SessionState Evp) : Prop where
  kex : t.kex.toKexItems = s.kex.toKexItems
  send : RestoredHalf lib s.send t.send
  read : RestoredHalf lib s.read t.read
  rekeyLimit : t.rekeyLimit = s.rekeyLimit
  rekeyInterval : t.rekeyInterval = s.rekeyInterval
  compressionIn : t.compressionIn = s.compressionIn
  compressionOut : t.compressionOut = s.compressionOut
  input : t.input = s.input
  output : t.output = s.output

/-! Each record is read as it was written. -/

lemma reads_kex {k : KexItems} (h : (kexToBlob k).length ≤ sizeMax) :
    Reads kexFromBlob (kexToBlob k) k := by
  simp only [kexToBlob, length_append, length_putString, length_putWord32] at h
  exact (reads_string (by omega)).andThen ((reads_word32 _).andThen ((reads_word32 _).andThen
    ((reads_word32 _).andThen ((reads_string (by omega)).andThen ((reads_string (by omega)).andThen
      ((reads_word32 _).andThen ((reads_cstr _ (by omega)).andThen
        ((reads_cstr _ (by omega)).last (reads_give _)))))))))

lemma reads_pointer (c : CipherRef) : Reads getPointer (putPointer c) c := by
  have hs : ciphers.length < 256 ^ 8 := by decide
  have hr : Reads getU64 (putPointer c) c := fun rest =>
    getInt_digits (Nat.lt_trans c.isLt hs) rest
  apply hr.last
  rw [dif_pos c.isLt]
  exact reads_give c

lemma reads_enc {enc : Sshenc} (h : (encBlob enc).length ≤ sizeMax) : Reads getEnc (encBlob enc) enc := by
  simp only [encBlob, length_append, length_putString, length_putWord32] at h
  exact (reads_cstr _ (by omega)).andThen ((reads_pointer _).andThen ((reads_word32 _).andThen
    ((reads_word32 _).andThen ((reads_string (by omega)).andThen
      ((reads_string (by omega)).last (reads_give _))))))

lemma reads_mac {mac : Sshmac} {alg : Macalg} (h : (macBlob mac).length ≤ sizeMax)
    (hAlg : macSetup mac.name.val = some alg) (hKey : mac.key.length ≤ alg.keyLen)
    (hLen : mac.macLen = alg.macLen) (hEtm : mac.etm = alg.etm) : Reads getMac (macBlob mac) mac := by
  simp only [macBlob, length_append, length_putString, length_putWord32] at h
  refine (reads_cstr _ (by omega)).andThen ?_
  rw [hAlg]
  refine (reads_word32 _).andThen ((reads_string (by omega)).last ?_)
  rw [if_neg (Nat.not_lt.2 hKey), ← hLen, ← hEtm]
  exact reads_give mac

lemma reads_comp {comp : Sshcomp} (h : (compBlob comp).length ≤ sizeMax) :
    Reads getComp (compBlob comp) comp := by
  simp only [compBlob, length_append, length_putString, length_putWord32] at h
  exact (reads_word32 _).andThen ((reads_word32 _).andThen ((reads_cstr _ (by omega)).last (reads_give _)))

/-- The keys as they are read. The code beside authenticated encryption is not written. -/
def Newkeys.read (k : Newkeys) : Newkeys :=
  { k with mac := if k.enc.cipher.entry.authLen = 0 then k.mac else .unset }

variable {k : Newkeys} {s : SessionState Evp} {half : Half Evp}

lemma reads_newkeys (hk : Installed k) (h : (putString (keysBlob k)).length ≤ sizeMax) :
    Reads newkeysFromBlob (putString (keysBlob k)) k.read := by
  rw [length_putString] at h
  refine Reads.within ?_ (by omega)
  simp only [keysBlob, length_append] at h
  refine (reads_enc (by omega)).andThen (Reads.andThen (a := k.read.mac) ?_ ((reads_comp (by omega)).last ?_))
  · rw [Newkeys.read]
    split_ifs at h ⊢ with ha
    · obtain ⟨alg, hAlg, hKey, hLen, hEtm⟩ := hk.mac ha
      exact reads_mac (by omega) hAlg hKey hLen hEtm
    · exact reads_give _
  · rw [hk.name, cipherByName_entry, if_neg (not_not.2 rfl)]
    exact reads_give k.read

lemma reads_packetState (p : PacketState) : Reads getPacketState (stateBlob p) p :=
  (reads_word32 _).andThen ((reads_word64 _).andThen ((reads_word32 _).andThen
    ((reads_word64 _).last (reads_give _))))

lemma reads_stream {stream : Option Bytes}
    (h : ∀ bytes, stream = some bytes → bytes.length = lib.streamLen) :
    Reads (getStream lib (stream.getD [])) [] stream := by
  cases stream with
  | none => exact reads_give none
  | some bytes =>
    have hLen := h bytes rfl
    rw [getStream, Option.getD_some, hLen, if_neg lib.streamLen_ne, if_neg (not_not.2 rfl)]
    exact reads_give (some bytes)

lemma reads_compressState (hk : Keyed lib s) (h : (sshPacketGetCompressState s).length ≤ sizeMax) :
    Reads (sshPacketSetCompressState lib) (sshPacketGetCompressState s)
      (s.compressionIn, s.compressionOut) := by
  rw [sshPacketGetCompressState, length_putString] at h
  refine Reads.inside ?_ (by omega)
  simp only [length_append, length_putString] at h
  refine (reads_string (by omega)).andThen ((reads_string (by omega)).last ?_)
  exact (reads_stream lib hk.compressionIn).last ((reads_stream lib hk.compressionOut).last (reads_give _))

/-! Writing keys and installing them again. -/

variable {cc : SshcipherCtx Evp} {α : Type} {bytes : Bytes} {newkeysOut newkeysIn : Newkeys}
  {getter : Getter α} {a : α}

lemma cipherGetKeyiv_cases {buf iv : Bytes} (h : cipherGetKeyiv lib cc buf = .ok iv) :
    (iv = buf ∧ (cc.cipher.entry.chachapoly = true ∨ evpIvLength cc.cipher.entry = 0)) ∨
      (iv = lib.iv cc.evp ∧ evpIvLength cc.cipher.entry ≠ 0 ∧ evpIvLength cc.cipher.entry = buf.length) := by
  rw [cipherGetKeyiv] at h
  split_ifs at h with hc hBuf hKind hn hLen
  · cases h
    exact .inl ⟨rfl, .inl hc⟩
  · cases h
    exact .inl ⟨rfl, .inr hn⟩
  · cases h
    exact .inr ⟨rfl, hn, not_not.1 hLen⟩

lemma cipherGetKeyiv_congr {other : SshcipherCtx Evp} (hc : cc.cipher = other.cipher)
    (hIv : cc.cipher.entry.chachapoly = false → evpIvLength cc.cipher.entry ≠ 0 →
      lib.iv cc.evp = lib.iv other.evp) (buf : Bytes) :
    cipherGetKeyiv lib cc buf = cipherGetKeyiv lib other buf := by
  rw [cipherGetKeyiv, cipherGetKeyiv, ← hc]
  split_ifs with hChacha hBuf hKind hn hLen
  · rfl
  · rfl
  · rfl
  · rfl
  · rfl
  · rw [hIv (Bool.eq_false_iff.2 hChacha) hn]

lemma exported_eq_ok (hk : half.Keyed lib) (h : half.exported lib = .ok k) :
    Installed k ∧ half.context.cipher = k.enc.cipher ∧
      (k.enc.cipher.entry.chachapoly = false → evpIvLength k.enc.cipher.entry ≠ 0 →
        k.enc.iv = lib.iv half.context.evp) := by
  obtain ⟨old, hOld, hKeys, hc⟩ := hk.keys
  rw [Half.exported, hOld] at h
  obtain ⟨iv, hIv, h⟩ := bind_eq_ok.1 h
  cases h
  rcases cipherGetKeyiv_cases lib hIv with ⟨rfl, hn⟩ | ⟨rfl, hSome, hLen⟩
  · refine ⟨hKeys, hc, fun hChacha hLen => ?_⟩
    rw [hc] at hn
    rcases hn with hYes | hz
    · rw [hChacha] at hYes
      cases hYes
    · exact absurd hz hLen
  · refine ⟨{ hKeys with iv := ?_ }, hc, fun _ _ => rfl⟩
    rw [← hc]
    exact hk.iv

lemma startsCompression_installed (h : Installed k) (hPre : s.afterAuthentication = false) :
    startsCompression k.comp s.afterAuthentication = false := by
  have hZlib := h.comp
  rw [startsCompression, hPre]
  by_cases hType : k.comp.type = compZlib <;> simp_all

/-- The context that a direction gets from its keys. -/
def Newkeys.context (k : Newkeys) (encrypt : Bool) : SshcipherCtx Evp :=
  ⟨k.enc.cipher, encrypt, lib.init k.enc.cipher k.enc.key k.enc.iv encrypt⟩

def Half.installed (half : Half Evp) (k : Newkeys) (encrypt : Bool) (rekeyLimit : UInt64) : Half Evp where
  newkeys := some k
  context := k.context lib encrypt
  state := { half.state with packets := 0, blocks := 0 }
  maxBlocks := Packet.maxBlocks k.enc.blockSize.toNat rekeyLimit

lemma setNewkeys_installed (h : Installed k) (half : Half Evp) (encrypt : Bool)
    (rekeyLimit : UInt64) : half.setNewkeys lib k.read k.comp.enabled encrypt rekeyLimit =
      .ok (half.installed lib k encrypt rekeyLimit) := by
  have hKey := h.key
  have hIv := h.iv
  have hi : cipherInit lib k.enc.cipher k.enc.key k.enc.iv encrypt = .ok (k.context lib encrypt) :=
    if_neg (by omega)
  have hMac : { k.read.mac with enabled := 1 } = k.mac := by
    rw [Newkeys.read]
    split_ifs with ha
    · rw [← h.enabled]
    · rw [h.aead ha]
  rw [Half.setNewkeys, hMac]
  exact bind_eq_ok.2 ⟨_, hi, rfl⟩

lemma context_restored (hk : half.Keyed lib) (h : half.exported lib = .ok k) (encrypt : Bool) :
    (cipherGetKeycontext lib (k.context lib encrypt)).length = (cipherGetKeycontext lib half.context).length ∧
      cipherGetKeycontext lib (cipherSetKeycontext lib (k.context lib encrypt)
        (cipherGetKeycontext lib half.context)) = cipherGetKeycontext lib half.context ∧
      ∀ buf, cipherGetKeyiv lib (cipherSetKeycontext lib (k.context lib encrypt)
        (cipherGetKeycontext lib half.context)) buf = cipherGetKeyiv lib half.context buf := by
  obtain ⟨hKeys, hc, hv⟩ := exported_eq_ok lib hk h
  have hIv : lib.iv (k.context lib encrypt).evp = k.enc.iv := lib.iv_init _ _ _ _ hKeys.iv
  have hLen : (lib.state (k.context lib encrypt).evp).length = (lib.state half.context.evp).length := by
    rw [hk.state, hc]
    exact lib.state_init _ _ _ _
  have hs : (k.context lib encrypt).cipher.entry.rc4 = k.enc.cipher.entry.rc4 := rfl
  simp only [cipherGetKeycontext, cipherSetKeycontext, hc, hs]
  by_cases hRc4 : k.enc.cipher.entry.rc4 = true
  · simp only [hRc4, hs, if_true]
    refine ⟨hLen, lib.state_setState _ _ hLen.symm,
      cipherGetKeyiv_congr lib hc.symm fun hChacha hSome => ?_⟩
    rw [lib.iv_setState, hIv]
    exact hv hChacha hSome
  · simp only [hRc4, hs, if_false, Bool.false_eq_true, true_and]
    exact cipherGetKeyiv_congr lib hc.symm fun hChacha hSome => hIv.trans (hv hChacha hSome)

/-! The whole buffer. -/

lemma parse_of_reads (h : Reads getter bytes a) (rest : Bytes) :
    parse getter (bytes ++ rest) = .ok (a, rest) := by rw [parse, h]

lemma parse_end (h : Reads getter bytes a) : parse getter bytes = .ok (a, []) := by
  rw [parse, h.end_eq]

def itemsBlob (s : SessionState Evp) (newkeysOut newkeysIn : Newkeys) : Bytes :=
  kexToBlob s.kex.toKexItems ++ (putString (keysBlob newkeysOut) ++
    (putString (keysBlob newkeysIn) ++ (putWord64 s.rekeyLimit ++ (putWord32 s.rekeyInterval ++
      (stateBlob s.send.state ++ stateBlob s.read.state)))))

def contextBlob (s : SessionState Evp) : Bytes :=
  putString (cipherGetKeycontext lib s.send.context) ++
    (putString (cipherGetKeycontext lib s.read.context) ++
      (sshPacketGetCompressState s ++ (putString s.input ++ putString s.output)))

def itemsOf (s : SessionState Evp) (newkeysOut newkeysIn : Newkeys) : Items where
  kex := s.kex.toKexItems
  newkeysOut := newkeysOut.read
  newkeysIn := newkeysIn.read
  rekeyLimit := s.rekeyLimit
  rekeyInterval := s.rekeyInterval
  send := s.send.state
  read := s.read.state

lemma sshPacketGetState_eq_ok {m : Bytes} (h : sshPacketGetState lib s = .ok m) :
    ∃ newkeysOut newkeysIn, s.send.exported lib = .ok newkeysOut ∧
      s.read.exported lib = .ok newkeysIn ∧ m.length ≤ sizeMax ∧
      m = itemsBlob s newkeysOut newkeysIn ++ contextBlob lib s := by
  obtain ⟨out, hOut, h⟩ := bind_eq_ok.1 h
  obtain ⟨in_, hIn, h⟩ := bind_eq_ok.1 h
  obtain ⟨newkeysOut, hs, hOut⟩ := bind_eq_ok.1 hOut
  obtain ⟨newkeysIn, hr, hIn⟩ := bind_eq_ok.1 hIn
  cases hOut
  cases hIn
  dsimp only at h
  split_ifs at h with hf
  cases h
  refine ⟨newkeysOut, newkeysIn, hs, hr, Nat.le_of_not_lt hf, ?_⟩
  simp [itemsBlob, contextBlob]

lemma reads_items (hOut : Installed newkeysOut) (hIn : Installed newkeysIn)
    (h : (itemsBlob s newkeysOut newkeysIn).length ≤ sizeMax) :
    Reads getItems (itemsBlob s newkeysOut newkeysIn) (itemsOf s newkeysOut newkeysIn) := by
  simp only [itemsBlob, length_append] at h
  exact (reads_kex (by omega)).andThen ((reads_newkeys hOut (by omega)).andThen
    ((reads_newkeys hIn (by omega)).andThen ((reads_word64 _).andThen ((reads_word32 _).andThen
      ((reads_packetState _).andThen ((reads_packetState _).last (reads_give _)))))))

def restored (s : SessionState Evp) (now : Nat) (newkeysOut newkeysIn : Newkeys) : SessionState Evp where
  kex := { s.kex.toKexItems with
    newkeysIn := none
    newkeysOut := none
    server := true
    done := true }
  send := { s.send.installed lib newkeysOut true s.rekeyLimit with
    context := cipherSetKeycontext lib (newkeysOut.context lib true)
      (cipherGetKeycontext lib s.send.context) }
  read := { s.read.installed lib newkeysIn false s.rekeyLimit with
    context := cipherSetKeycontext lib (newkeysIn.context lib false)
      (cipherGetKeycontext lib s.read.context) }
  rekeyLimit := s.rekeyLimit
  rekeyInterval := s.rekeyInterval
  rekeyTime := now
  afterAuthentication := true
  rekeying := false
  compressionIn := s.compressionIn
  compressionOut := s.compressionOut
  input := s.input
  output := s.output

def installIn (s : SessionState Evp) (k : Newkeys) : SessionState Evp :=
  { s with
    read := s.read.installed lib k false s.rekeyLimit
    kex := { s.kex with newkeysIn := none } }

def installOut (s : SessionState Evp) (k : Newkeys) : SessionState Evp :=
  { s with
    send := s.send.installed lib k true s.rekeyLimit
    kex := { s.kex with newkeysOut := none } }

lemma sshSetNewkeysIn_installed (hi : Installed k) (hk : s.kex.newkeysIn = some k.read)
    (hPre : s.afterAuthentication = false) : sshSetNewkeysIn lib s = .ok (installIn lib s k) := by
  have hs : startsCompression k.read.comp s.afterAuthentication = false :=
    @startsCompression_installed _ k s hi hPre
  simp only [sshSetNewkeysIn, hk, hs]
  exact bind_eq_ok.2 ⟨_, setNewkeys_installed lib hi s.read false s.rekeyLimit, rfl⟩

lemma sshSetNewkeysOut_installed (hi : Installed k)
    (hk : s.kex.newkeysOut = some k.read) (hPre : s.afterAuthentication = false) :
    sshSetNewkeysOut lib s = .ok (installOut lib s k) := by
  have hs : startsCompression k.read.comp s.afterAuthentication = false :=
    @startsCompression_installed _ k s hi hPre
  simp only [sshSetNewkeysOut, hk, hs]
  exact bind_eq_ok.2 ⟨_, setNewkeys_installed lib hi s.send true s.rekeyLimit, rfl⟩

lemma sshPacketSetState_eq {fresh : SessionState Evp} (hk : Keyed lib s)
    (hf : fresh.afterAuthentication = false) (hOut : s.send.exported lib = .ok newkeysOut)
    (hIn : s.read.exported lib = .ok newkeysIn)
    (hFits : (itemsBlob s newkeysOut newkeysIn ++ contextBlob lib s).length ≤ sizeMax) (now : Nat) :
    sshPacketSetState lib fresh now (itemsBlob s newkeysOut newkeysIn ++ contextBlob lib s) =
      .ok (restored lib s now newkeysOut newkeysIn) := by
  have hKeysOut := (exported_eq_ok lib hk.send hOut).1
  have hKeysIn := (exported_eq_ok lib hk.read hIn).1
  have hSend := (context_restored lib hk.send hOut true).1
  have hr := (context_restored lib hk.read hIn false).1
  simp only [contextBlob, length_append, length_putString] at hFits
  have hs : (itemsBlob s newkeysOut newkeysIn).length ≤ sizeMax := by omega
  have hi := parse_of_reads (reads_items hKeysOut hKeysIn hs) (contextBlob lib s)
  rw [sshPacketSetState, hi, ok_bind]
  dsimp only
  rw [sshSetNewkeysIn_installed (s := restore fresh now (itemsOf s newkeysOut newkeysIn)) lib
    hKeysIn rfl hf, ok_bind,
    sshSetNewkeysOut_installed
      (s := installIn lib (restore fresh now (itemsOf s newkeysOut newkeysIn)) newkeysIn) lib
      hKeysOut rfl hf, ok_bind,
    contextBlob, parse_of_reads (reads_string (by omega)), ok_bind]
  rw [parse_of_reads (reads_string (by omega)), ok_bind]
  rw [if_neg]
  · rw [parse_of_reads (reads_compressState lib hk (by omega)), ok_bind]
    rw [parse_of_reads (reads_string (by omega)), ok_bind]
    rw [parse_end (reads_string (by omega)), ok_bind]
    rfl
  · exact not_or.2 ⟨not_not.2 hSend, not_not.2 hr⟩

/-! The transfer. -/

lemma restoredHalf_of_state {next : Half Evp} {encrypt : Bool} (hk : half.Keyed lib)
    (h : half.exported lib = .ok k) (hKeys : next.newkeys = some k)
    (hc : next.context = cipherSetKeycontext lib (k.context lib encrypt)
      (cipherGetKeycontext lib half.context)) (hs : next.state = half.state) :
    RestoredHalf lib half next := by
  obtain ⟨-, hb, hIv⟩ := context_restored lib hk h encrypt
  constructor
  case keys => exact ⟨k, h, hKeys⟩
  case iv =>
    rw [hc]
    exact hIv
  case context =>
    rw [hc]
    exact hb
  case state => exact hs

lemma state_eq_iff (p : PacketState) :
    { p with packets := 0, blocks := 0 } = p ↔ p.packets = 0 ∧ p.blocks = 0 := by
  obtain ⟨seqnr, packets, blocks, bytes⟩ := p
  simp only [PacketState.mk.injEq, true_and, and_true]
  exact ⟨fun h => ⟨h.1.symm, h.2.symm⟩, fun h => ⟨h.1.symm, h.2.symm⟩⟩

/-- The state that was written is restored exactly if no packet and no block was counted under
the keys of either direction. -/
theorem state_transfer_iff {s fresh : SessionState Evp} {m : Bytes} (hKeyed : Keyed lib s)
    (hFresh : fresh.afterAuthentication = false) (hGet : sshPacketGetState lib s = .ok m)
    (now : Nat) : (∃ t, sshPacketSetState lib fresh now m = .ok t ∧ Restored lib s t) ↔
      (s.send.state.packets = 0 ∧ s.send.state.blocks = 0) ∧
        (s.read.state.packets = 0 ∧ s.read.state.blocks = 0) := by
  obtain ⟨newkeysOut, newkeysIn, hOut, hIn, hFits, rfl⟩ := sshPacketGetState_eq_ok lib hGet
  rw [sshPacketSetState_eq lib hKeyed hFresh hOut hIn hFits now]
  constructor
  · rintro ⟨t, hSet, hRestored⟩
    cases hSet
    exact ⟨(state_eq_iff _).1 hRestored.send.state, (state_eq_iff _).1 hRestored.read.state⟩
  · rintro ⟨hSend, hRead⟩
    refine ⟨_, rfl, ?_⟩
    constructor
    case kex => rfl
    case send =>
      exact restoredHalf_of_state lib hKeyed.send hOut rfl rfl ((state_eq_iff _).2 hSend)
    case read =>
      exact restoredHalf_of_state lib hKeyed.read hIn rfl rfl ((state_eq_iff _).2 hRead)
    all_goals rfl

/-! A small instance. -/

/-- A context that is its vector and four bytes of state. -/
def smallLibrary : Library (Bytes × Bytes) where
  init _ _ vector _ := (vector, [0, 0, 0, 0])
  iv evp := evp.1
  state evp := evp.2
  setState evp bytes := (evp.1, bytes)
  stateLen _ := 4
  streamLen := 1
  outStream := [0]
  inStream := [0]
  streamLen_ne := by decide
  iv_init _ _ _ _ _ := rfl
  state_init _ _ _ _ := rfl
  iv_setState _ _ := rfl
  state_setState _ _ _ := rfl

def smallKeys : Newkeys where
  enc := ⟨⟨text "aes128-ctr", by decide +kernel⟩, ⟨11, by decide⟩, 0, 16, List.replicate 16 1,
    List.replicate 16 2⟩
  mac := ⟨⟨text "hmac-sha1", by decide +kernel⟩, 1, List.replicate 20 3, 20, false⟩
  comp := ⟨0, 0, ⟨text "none", by decide +kernel⟩⟩

lemma installed_smallKeys : Installed smallKeys where
  name := by decide +kernel
  key := by decide +kernel
  iv := by decide +kernel
  enabled := rfl
  mac _ := ⟨⟨text "hmac-sha1", 20, 20, false⟩, by decide +kernel, by decide +kernel, rfl, rfl⟩
  aead h := absurd (by decide +kernel) h
  comp h := absurd h (by decide)

def smallHalf (encrypt : Bool) (state : PacketState) : Half (Bytes × Bytes) where
  newkeys := some smallKeys
  context := ⟨⟨11, by decide⟩, encrypt, (List.replicate 16 4, [5, 6, 7, 8])⟩
  state
  maxBlocks := 0

def smallState (send read : PacketState) : SessionState (Bytes × Bytes) where
  kex := {
    sessionId := [9]
    weNeed := 20
    hostkeyType := 0
    kexType := 0
    my := [1]
    peer := [2]
    flags := 0
    clientVersionString := ⟨text "SSH-2.0-a", by decide +kernel⟩
    serverVersionString := ⟨text "SSH-2.0-b", by decide +kernel⟩
    newkeysIn := none
    newkeysOut := none
    server := true
    done := true }
  send := smallHalf true send
  read := smallHalf false read
  rekeyLimit := 0
  rekeyInterval := 0
  rekeyTime := 0
  afterAuthentication := false
  rekeying := false
  compressionIn := none
  compressionOut := none
  input := [10]
  output := [11]

lemma keyed_smallState (send read : PacketState) : Keyed smallLibrary (smallState send read) := by
  have hk : ∀ encrypt state, (smallHalf encrypt state).Keyed smallLibrary := by
    intro encrypt state
    exact ⟨⟨smallKeys, rfl, installed_smallKeys, rfl⟩, installed_smallKeys.iv, rfl⟩
  constructor
  case send => exact hk true send
  case read => exact hk false read
  case compressionIn =>
    intro stream hn
    cases hn
  case compressionOut =>
    intro stream hn
    cases hn

theorem state_transfer_uncounted :
    ∃ m t, sshPacketGetState smallLibrary (smallState ⟨3, 0, 0, 100⟩ ⟨4, 0, 0, 200⟩) = .ok m ∧
      sshPacketSetState smallLibrary (smallState ⟨0, 0, 0, 0⟩ ⟨0, 0, 0, 0⟩) 7 m = .ok t ∧
      Restored smallLibrary (smallState ⟨3, 0, 0, 100⟩ ⟨4, 0, 0, 200⟩) t := by
  have hSome : (sshPacketGetState smallLibrary
    (smallState ⟨3, 0, 0, 100⟩ ⟨4, 0, 0, 200⟩)).toOption.isSome = true := by decide +kernel
  obtain ⟨m, hGet⟩ := Option.isSome_iff_exists.1 hSome
  have hGet := toOption_eq_some.1 hGet
  obtain ⟨t, hSet, hRestored⟩ :=
    (@state_transfer_iff _ smallLibrary _ (smallState ⟨0, 0, 0, 0⟩ ⟨0, 0, 0, 0⟩) m
      (keyed_smallState _ _) rfl hGet 7).2 ⟨⟨rfl, rfl⟩, ⟨rfl, rfl⟩⟩
  exact ⟨m, t, hGet, hSet, hRestored⟩

/-- Two packets were sent under the keys, and the fresh process counts from zero. -/
theorem state_transfer_forgets : Keyed smallLibrary (smallState ⟨5, 2, 8, 100⟩ ⟨4, 1, 4, 200⟩) ∧
    ∃ m, sshPacketGetState smallLibrary (smallState ⟨5, 2, 8, 100⟩ ⟨4, 1, 4, 200⟩) = .ok m ∧
      ¬ ∃ t, sshPacketSetState smallLibrary (smallState ⟨0, 0, 0, 0⟩ ⟨0, 0, 0, 0⟩) 7 m = .ok t ∧
        Restored smallLibrary (smallState ⟨5, 2, 8, 100⟩ ⟨4, 1, 4, 200⟩) t := by
  have hKeyed := keyed_smallState ⟨5, 2, 8, 100⟩ ⟨4, 1, 4, 200⟩
  have hSome : (sshPacketGetState smallLibrary
    (smallState ⟨5, 2, 8, 100⟩ ⟨4, 1, 4, 200⟩)).toOption.isSome = true := by decide +kernel
  obtain ⟨m, hGet⟩ := Option.isSome_iff_exists.1 hSome
  have hGet := toOption_eq_some.1 hGet
  refine ⟨hKeyed, m, hGet, ?_⟩
  rintro ⟨t, hSet, hRestored⟩
  obtain ⟨newkeysOut, newkeysIn, hOut, hIn, hFits, rfl⟩ := sshPacketGetState_eq_ok _ hGet
  rw [sshPacketSetState_eq smallLibrary hKeyed rfl hOut hIn hFits 7] at hSet
  cases hSet
  have hPackets := congrArg PacketState.packets hRestored.send.state
  cases hPackets

end Serial
