import Sshfortress.Base.Wire
import Sshfortress.Base.Interaction

/-! The choice of algorithms and the keys derived from it. Each side reads both
KEXINIT messages, its own and that of the peer, and picks from the two name lists
without a further message; client and server must come to the same result. -/
namespace Kex

open Base Base.Wire List

inductive KexInitProposals where
  | kexAlgs
  | serverHostKeyAlgs
  | encAlgsCtos
  | encAlgsStoc
  | macAlgsCtos
  | macAlgsStoc
  | compAlgsCtos
  | compAlgsStoc
  | langCtos
  | langStoc
  deriving DecidableEq

def KexInitProposals.all : List KexInitProposals :=
  [.kexAlgs, .serverHostKeyAlgs, .encAlgsCtos, .encAlgsStoc, .macAlgsCtos, .macAlgsStoc,
    .compAlgsCtos, .compAlgsStoc, .langCtos, .langStoc]

abbrev Proposal := KexInitProposals → Bytes

inductive KexModes where
  | modeIn
  | modeOut
  deriving DecidableEq

inductive KexExchange where
  | dhGrp1Sha1
  | dhGrp14Sha1
  | dhGrp14Sha256
  | dhGrp16Sha512
  | dhGrp18Sha512
  | dhGexSha1
  | dhGexSha256
  | ecdhSha2
  | c25519Sha256
  deriving DecidableEq

inductive CompType where
  | none
  | zlib
  | delayed
  deriving DecidableEq

/-- The errors of the negotiation; `badMessage` stands for those of the buffer
functions that read a KEXINIT message. -/
inductive Err where
  | noKexAlgMatch
  | noHostkeyAlgMatch
  | noCipherAlgMatch
  | noMacAlgMatch
  | noCompressAlgMatch
  | internalError
  | invalidArgument
  | badMessage
  deriving DecidableEq

/-! The tables of algorithms a side was built with. -/

structure Sshcipher where
  name : Bytes
  (blockSize keyLen ivLen authLen : Nat)
  chachapoly : Bool
  deriving DecidableEq

namespace Sshcipher

def cipherIvlen (c : Sshcipher) : Nat := if c.ivLen ≠ 0 ∨ c.chachapoly then c.ivLen else c.blockSize

def cipherSeclen (c : Sshcipher) : Nat := if c.name = text "3des-cbc" then 14 else c.keyLen

end Sshcipher

inductive MacType where
  | digest (hmacBytes : Nat)
  | umac (keyBits bits : Nat)
  deriving DecidableEq

structure Macalg where
  name : Bytes
  type : MacType
  truncatebits : Nat
  etm : Bool
  deriving DecidableEq

structure Kexalg where
  name : Bytes
  type : KexExchange
  (ecNid hashAlg : Nat)
  deriving DecidableEq

structure Digest where
  bytes : Nat
  hash : Bytes → Bytes
  bytes_pos : 0 < bytes
  hash_length : ∀ m, (hash m).length = bytes

/-- A key type of `none` is `KEY_UNSPEC`. -/
structure Algorithms where
  ciphers : List Sshcipher
  macs : List Macalg
  kexalgs : List Kexalg
  digests : Nat → Option Digest
  sshkeyTypeFromName : Bytes → Option Nat
  sshkeyEcdsaNidFromName : Bytes → Nat

/-! What is chosen. -/

structure Sshenc where
  name : Bytes
  cipher : Sshcipher
  (keyLen ivLen blockSize : Nat)
  (key iv : Option Bytes)
  deriving DecidableEq

structure Sshmac where
  name : Option Bytes
  (keyLen macLen : Nat)
  etm : Bool
  key : Option Bytes
  deriving DecidableEq

/-- What is left of it for a cipher that authenticates by itself. -/
def Sshmac.zero : Sshmac := ⟨none, 0, 0, false, none⟩

structure Sshcomp where
  type : CompType
  name : Bytes
  deriving DecidableEq

structure Newkeys where
  enc : Sshenc
  mac : Sshmac
  comp : Sshcomp
  deriving DecidableEq

structure Hostkeyalg where
  name : Bytes
  (type nid : Nat)
  deriving DecidableEq

structure Conf where
  extInfoC : Bool
  kexalg : Kexalg
  hostkeyAlg : Hostkeyalg
  newkeys : KexModes → Newkeys
  (weNeed dhNeed : Nat)
  skipPacket : Bool

/-- The error, and the list of the peer in which nothing was found. -/
structure Failure where
  code : Err
  failedChoice : Option Bytes
  deriving DecidableEq

/-- The compatibility flags that matter here. -/
structure Compat where
  (bugHmac bugFirstkex : Bool)
  deriving DecidableEq

def found {α : Type} (code : Err) : Option α → Except Err α
  | none => .error code
  | some a => .ok a

/-! Reading a KEXINIT message. -/

def kexCookieLen : Nat := 16

/-- A message without a guess; the cookie is filled in when it is sent. -/
def kexProp2buf (proposal : Proposal) : Bytes :=
  List.replicate kexCookieLen 0 ++
    (KexInitProposals.all.flatMap fun i => putString (proposal i)) ++ [0] ++ putU32 0

def getProposal : List KexInitProposals → Proposal → Getter Proposal
  | [], proposal, b => some (proposal, b)
  | i :: rest, proposal, b =>
    match getCstring b with
    | none => none
    | some (list, b) => getProposal rest (Function.update proposal i list) b

/-- The proposal and whether a guessed packet follows; bytes behind are ignored. -/
def kexBuf2prop (raw : Bytes) : Except Err (Proposal × Bool) := do
  let (_, b) ← found .badMessage (getFixed kexCookieLen raw)
  let (proposal, b) ← found .badMessage (getProposal KexInitProposals.all (fun _ => []) b)
  let (v, b) ← found .badMessage (getU8 b)
  let (_, _) ← found .badMessage (getU32 b)
  return (proposal, v ≠ 0)

/-! Choosing. -/

def maxProp : Nat := 40

def names (list : Bytes) : List Bytes := (list.splitOn 44).takeWhile (· ≠ [])

/-- The first name of the client that is among the first `maxProp` of the server. -/
def matchList (client server : Bytes) : Option Bytes :=
  let sproposals := (names server).take maxProp
  (names client).find? fun p => sproposals.contains p

variable (algs : Algorithms) (compat : Compat)

def cipherByName (name : Bytes) : Option Sshcipher := algs.ciphers.find? (·.name = name)

def kexAlgByName (name : Bytes) : Option Kexalg := algs.kexalgs.find? (·.name = name)

def macSetupByAlg (m : Macalg) : Sshmac :=
  let (keyLen, macLen) := match m.type with
    | .digest hmacBytes => (hmacBytes, hmacBytes)
    | .umac keyBits bits => (keyBits / 8, bits / 8)
  let macLen := if m.truncatebits ≠ 0 then m.truncatebits / 8 else macLen
  ⟨none, keyLen, macLen, m.etm, none⟩

def macSetup (name : Bytes) : Option Sshmac := (algs.macs.find? (·.name = name)).map macSetupByAlg

def chooseEnc (client server : Bytes) : Except Err Sshenc := do
  let name ← found .noCipherAlgMatch (matchList client server)
  let cipher ← found .internalError (cipherByName algs name)
  return ⟨name, cipher, cipher.keyLen, cipher.cipherIvlen, cipher.blockSize, none, none⟩

def chooseMac (client server : Bytes) : Except Err Sshmac := do
  let name ← found .noMacAlgMatch (matchList client server)
  let mac ← found .internalError (macSetup algs name)
  -- An old peer truncates the key.
  return { mac with keyLen := if compat.bugHmac then 16 else mac.keyLen, name := some name }

def compType (name : Bytes) : Option CompType :=
  if name = text "zlib@openssh.com" then some .delayed
  else if name = text "zlib" then some .zlib
  else if name = text "none" then some .none
  else none

def chooseComp (client server : Bytes) : Except Err Sshcomp := do
  let name ← found .noCompressAlgMatch (matchList client server)
  let type ← found .internalError (compType name)
  return ⟨type, name⟩

def chooseKex (client server : Bytes) : Except Err Kexalg := do
  let name ← found .noKexAlgMatch (matchList client server)
  found .internalError (kexAlgByName algs name)

def chooseHostkeyalg (client server : Bytes) : Except Err Hostkeyalg := do
  let name ← found .noHostkeyAlgMatch (matchList client server)
  let type ← found .internalError (algs.sshkeyTypeFromName name)
  return ⟨name, type, algs.sshkeyEcdsaNidFromName name⟩

/-- Whether both sides would have guessed alike: the first names of two lists. -/
def proposalsMatch (my peer : Proposal) : Bool :=
  [KexInitProposals.kexAlgs, .serverHostKeyAlgs].all fun i =>
    (my i).takeWhile (· ≠ 44) = (peer i).takeWhile (· ≠ 44)

def ctos (server : Bool) (mode : KexModes) : Bool :=
  (!server && mode = .modeOut) || (server && mode = .modeIn)

/-- A failed choice is reported with the list of the peer. -/
def orFail {α : Type} (peer : Proposal) (i : KexInitProposals) : Except Err α → Except Failure α
  | .error code => .error ⟨code, some (peer i)⟩
  | .ok a => .ok a

/-- The MAC is ignored for authenticated encryption. -/
def chooseMacFor (enc : Sshenc) (peer : Proposal) (nmac : KexInitProposals)
    (client server : Bytes) : Except Failure Sshmac :=
  if enc.cipher.authLen = 0 then orFail peer nmac (chooseMac algs compat client server)
  else .ok .zero

def chooseNewkeys (cprop sprop peer : Proposal) (ctos : Bool) : Except Failure Newkeys := do
  let nenc := if ctos then KexInitProposals.encAlgsCtos else .encAlgsStoc
  let nmac := if ctos then KexInitProposals.macAlgsCtos else .macAlgsStoc
  let ncomp := if ctos then KexInitProposals.compAlgsCtos else .compAlgsStoc
  let enc ← orFail peer nenc (chooseEnc algs (cprop nenc) (sprop nenc))
  let mac ← chooseMacFor algs compat enc peer nmac (cprop nmac) (sprop nmac)
  let comp ← orFail peer ncomp (chooseComp (cprop ncomp) (sprop ncomp))
  return ⟨enc, mac, comp⟩

/-- The lengths are compared one after the other, over both directions. -/
def weNeed (newkeys : KexModes → Newkeys) : Nat :=
  [KexModes.modeIn, .modeOut].foldl (fun need mode =>
    let n := newkeys mode
    max (max (max (max need n.enc.keyLen) n.enc.blockSize) n.enc.ivLen) n.mac.keyLen) 0

def dhNeed (newkeys : KexModes → Newkeys) : Nat :=
  [KexModes.modeIn, .modeOut].foldl (fun need mode =>
    let n := newkeys mode
    max (max (max (max need n.enc.cipher.cipherSeclen) n.enc.blockSize) n.enc.ivLen) n.mac.keyLen) 0

def byMode {α : Type} (modeIn modeOut : α) : KexModes → α
  | .modeIn => modeIn
  | .modeOut => modeOut

def kexChooseConf (server : Bool) (extInfoC : Bool) (my peer : Bytes) : Except Failure Conf := do
  let (my, _) ← (kexBuf2prop my).mapError (⟨·, none⟩)
  let (peer, firstKexFollows) ← (kexBuf2prop peer).mapError (⟨·, none⟩)
  let cprop := if server then peer else my
  let sprop := if server then my else peer
  let extInfoC := extInfoC || (server && (matchList (text "ext-info-c") (peer .kexAlgs)).isSome)
  let kexalg ← orFail peer .kexAlgs (chooseKex algs (cprop .kexAlgs) (sprop .kexAlgs))
  let hostkeyAlg ← orFail peer .serverHostKeyAlgs
    (chooseHostkeyalg algs (cprop .serverHostKeyAlgs) (sprop .serverHostKeyAlgs))
  let modeIn ← chooseNewkeys algs compat cprop sprop peer (ctos server .modeIn)
  let modeOut ← chooseNewkeys algs compat cprop sprop peer (ctos server .modeOut)
  let newkeys := byMode modeIn modeOut
  return {
    extInfoC, kexalg, hostkeyAlg, newkeys
    weNeed := weNeed newkeys
    dhNeed := dhNeed newkeys
    skipPacket := firstKexFollows && !proposalsMatch my peer && !compat.bugFirstkex }

/-! Deriving the keys. -/

/-- Further digests over what there is, until there is enough. -/
def expandKey (digest : Digest) (sharedSecret hash : Bytes) (need : Nat) (digested : Bytes) : Bytes :=
  if digested.length < need then
    expandKey digest sharedSecret hash need (digested ++ digest.hash (sharedSecret ++ hash ++ digested))
  else digested
termination_by need - digested.length
decreasing_by
  have hPos := digest.bytes_pos
  rw [length_append, digest.hash_length]
  omega

def deriveKey (hashAlg : Nat) (sessionId : Bytes) (id : UInt8) (need : Nat)
    (hash sharedSecret : Bytes) : Except Err Bytes := do
  let digest ← found .invalidArgument (algs.digests hashAlg)
  return expandKey digest sharedSecret hash need (digest.hash (sharedSecret ++ hash ++ [id] ++ sessionId))

/-- Six keys, named by the letters from `A` on, are dealt out by direction. -/
def kexDeriveKeys (server : Bool) (conf : Conf) (sessionId hash sharedSecret : Bytes) :
    Except Err (KexModes → Newkeys) := do
  let derive := fun i => deriveKey algs conf.kexalg.hashAlg sessionId (65 + i) conf.weNeed hash
    sharedSecret
  let keyA ← derive 0
  let keyB ← derive 1
  let keyC ← derive 2
  let keyD ← derive 3
  let keyE ← derive 4
  let keyF ← derive 5
  return fun mode =>
    let ctos := ctos server mode
    let newkeys := conf.newkeys mode
    { newkeys with
      enc := { newkeys.enc with
        iv := some (if ctos then keyA else keyB)
        key := some (if ctos then keyC else keyD) }
      mac := { newkeys.mac with key := some (if ctos then keyE else keyF) } }

/-! Agreement. -/

/-- Two computations both fail, or both succeed with related results. -/
inductive Agree {ε δ α β : Type} (related : α → β → Prop) : Except ε α → Except δ β → Prop where
  | ok {a : α} {b : β} (h : related a b) : Agree related (.ok a) (.ok b)
  | error {e : ε} {f : δ} : Agree related (.error e) (.error f)

def guessed (raw : Bytes) : Bool :=
  match kexBuf2prop raw with
  | .ok (_, follows) => follows
  | .error _ => false

def guessWrong (client server : Bytes) : Bool :=
  match kexBuf2prop client, kexBuf2prop server with
  | .ok (cprop, _), .ok (sprop, _) => !proposalsMatch cprop sprop && !compat.bugFirstkex
  | _, _ => false

section Agreement

variable {algs compat} {peer : Proposal} {i : KexInitProposals} {other : Proposal}

lemma orFail_eq_ok {α : Type} {x : Except Err α} {a : α} : orFail peer i x = .ok a ↔ x = .ok a := by
  cases x with
  | error code => simp [orFail]
  | ok b => simp [orFail]

lemma chooseMacFor_peer {enc : Sshenc} {client server : Bytes} {mac : Sshmac}
    (h : chooseMacFor algs compat enc peer i client server = .ok mac) :
    chooseMacFor algs compat enc other i client server = .ok mac := by
  unfold chooseMacFor at h ⊢
  split_ifs at h ⊢
  · exact orFail_eq_ok.2 (orFail_eq_ok.1 h)
  · exact h

lemma chooseNewkeys_peer {cprop sprop : Proposal} {ctos : Bool} {n : Newkeys}
    (h : chooseNewkeys algs compat cprop sprop peer ctos = .ok n) :
    chooseNewkeys algs compat cprop sprop other ctos = .ok n := by
  unfold chooseNewkeys at h ⊢
  simp only [bind_eq_ok, orFail_eq_ok] at h ⊢
  obtain ⟨enc, hEnc, mac, hMac, hc⟩ := h
  exact ⟨enc, hEnc, mac, chooseMacFor_peer hMac, hc⟩

lemma proposalsMatch_comm (my peer : Proposal) : proposalsMatch my peer = proposalsMatch peer my := by
  unfold proposalsMatch
  simp only [eq_comm]

/-- What both sides read and choose, told by client and server instead of by own
and peer. -/
structure Negotiated (algs : Algorithms) (compat : Compat) (client server : Bytes) where
  (cprop sprop : Proposal)
  (clientGuessed serverGuessed : Bool)
  kexalg : Kexalg
  hostkeyAlg : Hostkeyalg
  (toServer toClient : Newkeys)
  client_read : kexBuf2prop client = .ok (cprop, clientGuessed)
  server_read : kexBuf2prop server = .ok (sprop, serverGuessed)
  kex_chosen : chooseKex algs (cprop .kexAlgs) (sprop .kexAlgs) = .ok kexalg
  hostkey_chosen : chooseHostkeyalg algs (cprop .serverHostKeyAlgs) (sprop .serverHostKeyAlgs) =
    .ok hostkeyAlg
  toServer_chosen : ∀ peer, chooseNewkeys algs compat cprop sprop peer true = .ok toServer
  toClient_chosen : ∀ peer, chooseNewkeys algs compat cprop sprop peer false = .ok toClient

namespace Negotiated

variable {client server : Bytes}

def clientConf (n : Negotiated algs compat client server) (extInfoC : Bool) : Conf where
  extInfoC := extInfoC
  kexalg := n.kexalg
  hostkeyAlg := n.hostkeyAlg
  newkeys := byMode n.toClient n.toServer
  weNeed := weNeed (byMode n.toClient n.toServer)
  dhNeed := dhNeed (byMode n.toClient n.toServer)
  skipPacket := n.serverGuessed && guessWrong compat client server

def serverConf (n : Negotiated algs compat client server) (extInfoC : Bool) : Conf where
  extInfoC := extInfoC || (matchList (text "ext-info-c") (n.cprop .kexAlgs)).isSome
  kexalg := n.kexalg
  hostkeyAlg := n.hostkeyAlg
  newkeys := byMode n.toServer n.toClient
  weNeed := weNeed (byMode n.toServer n.toClient)
  dhNeed := dhNeed (byMode n.toServer n.toClient)
  skipPacket := n.clientGuessed && guessWrong compat client server

end Negotiated

variable {client server : Bytes} {extInfoC : Bool} {conf : Conf}

/-- The client chooses from the two messages exactly what they have in common. -/
lemma kexChooseConf_client : kexChooseConf algs compat false extInfoC client server = .ok conf ↔
    ∃ n : Negotiated algs compat client server, conf = n.clientConf extInfoC := by
  unfold kexChooseConf
  constructor
  · intro h
    simp only [bind_eq_ok, mapError_eq_ok, orFail_eq_ok, Prod.exists, if_neg,
      Bool.false_eq_true, not_false_eq_true] at h
    obtain ⟨my, clientGuessed, hc, peer, serverGuessed, hs, kexalg, hKex, hostkeyAlg,
      hh, modeIn, hIn, modeOut, hOut, h⟩ := h
    cases h
    refine ⟨⟨my, peer, clientGuessed, serverGuessed, kexalg, hostkeyAlg, modeOut, modeIn, hc,
      hs, hKex, hh, fun _ => chooseNewkeys_peer hOut, fun _ => chooseNewkeys_peer hIn⟩, ?_⟩
    simp [Negotiated.clientConf, guessWrong, hc, hs, Bool.and_assoc]
  · rintro ⟨n, rfl⟩
    have hIn := n.toClient_chosen n.sprop
    have hOut := n.toServer_chosen n.sprop
    simp only [n.client_read, n.server_read, Except.mapError, ok_bind, Bool.false_eq_true,
      if_false, n.kex_chosen, n.hostkey_chosen, orFail, ctos, reduceCtorEq, decide_false,
      decide_true, Bool.and_false, Bool.and_true, Bool.not_false, Bool.or_false, Bool.false_and,
      hIn, hOut]
    simp [Negotiated.clientConf, guessWrong, n.client_read, n.server_read, Bool.and_assoc, pure, Except.pure]

lemma kexChooseConf_server : kexChooseConf algs compat true extInfoC server client = .ok conf ↔
    ∃ n : Negotiated algs compat client server, conf = n.serverConf extInfoC := by
  unfold kexChooseConf
  constructor
  · intro h
    simp only [bind_eq_ok, mapError_eq_ok, orFail_eq_ok, Prod.exists, if_true] at h
    obtain ⟨my, serverGuessed, hs, peer, clientGuessed, hc, kexalg, hKex, hostkeyAlg,
      hh, modeIn, hIn, modeOut, hOut, h⟩ := h
    cases h
    refine ⟨⟨peer, my, clientGuessed, serverGuessed, kexalg, hostkeyAlg, modeIn, modeOut, hc,
      hs, hKex, hh, fun _ => chooseNewkeys_peer hIn, fun _ => chooseNewkeys_peer hOut⟩, ?_⟩
    simp [Negotiated.serverConf, guessWrong, hc, hs, Bool.and_assoc, proposalsMatch_comm my peer]
  · rintro ⟨n, rfl⟩
    have hIn := n.toServer_chosen n.cprop
    have hOut := n.toClient_chosen n.cprop
    simp only [n.client_read, n.server_read, Except.mapError, ok_bind, if_true, n.kex_chosen,
      n.hostkey_chosen, orFail, ctos, reduceCtorEq, decide_false, decide_true, Bool.and_false,
      Bool.and_true, Bool.not_true, Bool.or_false, Bool.false_or, hIn, hOut]
    simp [Negotiated.serverConf, guessWrong, n.client_read, n.server_read, Bool.and_assoc,
      proposalsMatch_comm n.sprop n.cprop, pure, Except.pure]

/-! The numbers of bytes needed do not depend on whose view is taken. -/

lemma weNeed_swap (a b : Newkeys) : weNeed (byMode a b) = weNeed (byMode b a) := by
  simp only [weNeed, foldl_cons, foldl_nil, byMode]
  ac_rfl

lemma dhNeed_swap (a b : Newkeys) : dhNeed (byMode a b) = dhNeed (byMode b a) := by
  simp only [dhNeed, foldl_cons, foldl_nil, byMode]
  ac_rfl

/-- Opposite directions of the two sides get the same keys. -/
lemma kexDeriveKeys_opposite {cconf sconf : Conf} (hAlg : cconf.kexalg = sconf.kexalg)
    (hn : cconf.weNeed = sconf.weNeed)
    (hOut : cconf.newkeys .modeOut = sconf.newkeys .modeIn)
    (hIn : cconf.newkeys .modeIn = sconf.newkeys .modeOut) (sessionId hash sharedSecret : Bytes) :
    Agree (fun ckeys skeys =>
      ckeys .modeOut = skeys .modeIn ∧ ckeys .modeIn = skeys .modeOut)
      (kexDeriveKeys algs false cconf sessionId hash sharedSecret)
      (kexDeriveKeys algs true sconf sessionId hash sharedSecret) := by
  unfold kexDeriveKeys deriveKey
  rw [hAlg, hn]
  cases algs.digests sconf.kexalg.hashAlg with
  | none => exact .error
  | some digest =>
    apply Agree.ok
    dsimp only
    rw [hOut, hIn]
    exact ⟨rfl, rfl⟩

end Agreement

/-! Two sides with different lists. -/

def smallDigest : Digest where
  bytes := 2
  hash := fun m => [UInt8.ofNat m.length, m.foldl (· + ·) 0]
  bytes_pos := by decide
  hash_length := fun _ => rfl

def smallAlgorithms : Algorithms where
  ciphers := [⟨text "aes128-ctr", 16, 16, 0, 0, false⟩,
    ⟨text "chacha20-poly1305@openssh.com", 8, 64, 0, 16, true⟩]
  macs := [⟨text "hmac-sha2-256", .digest 32, 0, false⟩,
    ⟨text "umac-64-etm@openssh.com", .umac 128 64, 0, true⟩]
  kexalgs := [⟨text "curve25519-sha256@libssh.org", .c25519Sha256, 0, 2⟩]
  digests := fun _ => some smallDigest
  sshkeyTypeFromName := fun name => if name = text "ssh-ed25519" then some 4 else none
  sshkeyEcdsaNidFromName := fun _ => 0

def clientProposal : Proposal
  | .kexAlgs => text "curve25519-sha256@libssh.org,ext-info-c"
  | .serverHostKeyAlgs => text "ssh-rsa,ssh-ed25519"
  | .encAlgsCtos | .encAlgsStoc => text "chacha20-poly1305@openssh.com,aes128-ctr"
  | .macAlgsCtos | .macAlgsStoc => text "umac-64-etm@openssh.com,hmac-sha2-256"
  | .compAlgsCtos | .compAlgsStoc => text "none,zlib"
  | .langCtos | .langStoc => []

def serverProposal : Proposal
  | .kexAlgs => text "curve25519-sha256@libssh.org"
  | .serverHostKeyAlgs => text "ssh-ed25519"
  | .encAlgsCtos => text "aes128-ctr"
  | .encAlgsStoc => text "aes128-ctr,chacha20-poly1305@openssh.com"
  | .macAlgsCtos | .macAlgsStoc => text "hmac-sha2-256"
  | .compAlgsCtos | .compAlgsStoc => text "none"
  | .langCtos | .langStoc => []

end Kex
