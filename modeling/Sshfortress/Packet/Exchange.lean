import Sshfortress.Base.Transition
import Sshfortress.Kex.Proposal
import Sshfortress.Packet.Receive

/-! Key exchange over the packet layer. Packets that were read are dispatched by their
type; the handlers of the exchange send messages of their own, install keys and
change the table of handlers. The computations of the key exchange method are left
open: each time it runs, it may do anything a method can do. -/
namespace Packet

open Base Base.Wire Base.Transition

variable {Ctx : Type}

/-! The table of handlers. -/

inductive Handler where
  | unset
  /-- `kex_protocol_error` and `dispatch_protocol_error`, which answer alike. -/
  | protocolError
  | application
  | kexInputKexinit
  | kexInputExtInfo
  | kexInputNewkeys
  | method
  deriving DecidableEq

/-- Handlers that have nothing to do with the key exchange. -/
inductive Setting where
  | unset
  | protocolError
  | application
  deriving DecidableEq

def Setting.handler : Setting → Handler
  | .unset => .unset
  | .protocolError => .protocolError
  | .application => .application

/-- A session with its handlers. Derivations of keys are numbered. -/
structure Transport (Ctx : Type) where
  ssh : Ssh Ctx
  dispatch : UInt8 → Handler
  derived : Nat

def sshDispatchRange (t : Transport Ctx) (low high : UInt8) (handler : Handler) : Transport Ctx :=
  { t with dispatch := fun type => if low ≤ type ∧ type ≤ high then handler else t.dispatch type }

def sshDispatchSet (t : Transport Ctx) (type : UInt8) (handler : Handler) : Transport Ctx :=
  { t with dispatch := Function.update t.dispatch type handler }

def kexResetDispatch (t : Transport Ctx) : Transport Ctx :=
  sshDispatchSet (sshDispatchRange t msgTransportMin msgTransportMax .protocolError)
    msgKexinit .kexInputKexinit

/-! What can be seen of a run. -/

inductive Event where
  | submitted (payload : Bytes)
  | sent (frame : Frame)
  | received (packet : Received)
  /-- A negotiation that succeeded, over this content of the peer's buffer. -/
  | negotiated (peer : Bytes)
  deriving DecidableEq

abbrev Seen (Ctx : Type) := Transport Ctx × List Event

def andThen (x : Except Err (Seen Ctx)) (f : Transport Ctx → Except Err (Seen Ctx)) :
    Except Err (Seen Ctx) := do
  let (t, first) ← x
  let (t, rest) ← f t
  return (t, first ++ rest)

def lift (t : Transport Ctx) (x : Except Err (Ssh Ctx × List Frame)) : Except Err (Seen Ctx) := do
  let (ssh, frames) ← x
  return ({ t with ssh }, frames.map .sent)

def sshpktSend (t : Transport Ctx) (payload : Bytes) : Except Err (Seen Ctx) := do
  let (ssh, frames) ← sshPacketSend2 t.ssh payload
  return ({ t with ssh }, .submitted payload :: frames.map .sent)

def sendEach (t : Transport Ctx) : List Bytes → Except Err (Seen Ctx)
  | [] => .ok (t, [])
  | payload :: rest => andThen (sshpktSend t payload) fun t => sendEach t rest

/-! The handlers. -/

def kexMessage (n : Fin 20) (rest : Bytes) : Bytes := UInt8.ofNat (30 + n) :: rest

/-- What a run of the method does: messages it sends, handlers it installs or removes,
and the keys, if it is finished. -/
structure MethodStep (Ctx : Type) where
  sends : List (Fin 20 × Bytes)
  handlers : List (Fin 20 × Bool)
  keys : Option (Newkeys Ctx × Newkeys Ctx)

def kexDeriveKeys (t : Transport Ctx) (keysIn keysOut : Newkeys Ctx) : Transport Ctx :=
  { t with
    ssh := { t.ssh with kex := { t.ssh.kex with
      newkeysIn := some { keysIn with id := t.derived }
      newkeysOut := some { keysOut with id := t.derived } } }
    derived := t.derived + 1 }

def extInfo : Bytes :=
  msgExtInfo :: putU32 1 ++ putString (text "server-sig-algs") ++
    putString (text "rsa-sha2-256,rsa-sha2-512")

def kexSendExtInfo (t : Transport Ctx) : Except Err (Seen Ctx) :=
  if t.ssh.kex.extInfoC then sshpktSend t extInfo else .ok (t, [])

def kexSendNewkeys (t : Transport Ctx) : Except Err (Seen Ctx) :=
  andThen (sshpktSend (kexResetDispatch t) [msgNewkeys]) fun t =>
    kexSendExtInfo (sshDispatchSet t msgNewkeys .kexInputNewkeys)

def installHandlers (t : Transport Ctx) (handlers : List (Fin 20 × Bool)) : Transport Ctx :=
  handlers.foldl (fun t (n, on) =>
    sshDispatchSet t (UInt8.ofNat (30 + n)) (if on then .method else .unset)) t

def finishMethod (t : Transport Ctx) (keys : Option (Newkeys Ctx × Newkeys Ctx)) : Except Err (Seen Ctx) :=
  match keys with
  | none => .ok (t, [])
  | some (keysIn, keysOut) => kexSendNewkeys (kexDeriveKeys t keysIn keysOut)

def runMethod (t : Transport Ctx) : Option (MethodStep Ctx) → Except Err (Seen Ctx)
  | none => .error .kexFailed
  | some method =>
    andThen (sendEach t (method.sends.map fun message => kexMessage message.1 message.2))
      fun t => finishMethod (installHandlers t method.handlers) method.keys

def skipStrings : Nat → Bytes → Option Bytes
  | 0, b => some b
  | n + 1, b => (skipString b).bind fun (_, b) => skipStrings n b

/-- A KEXINIT message that can be discarded field by field, up to its end. -/
def kexinitComplete (body : Bytes) : Bool :=
  (do
    let (_, b) ← getFixed kexCookieLen body
    let b ← skipStrings Kex.KexInitProposals.all.length b
    let (_, b) ← getU8 b
    let (_, b) ← getU32 b
    return b) = some []

/-- The negotiation over both buffers; the keys that will be derived have new places. -/
def kexChooseConf (algs : Kex.Algorithms) (compat : Kex.Compat) (t : Transport Ctx) :
    Except Err (Seen Ctx) :=
  let kex := t.ssh.kex
  match Kex.kexChooseConf algs compat t.ssh.serverSide kex.extInfoC kex.my kex.peer with
  | .error _ => .error .kexFailed
  | .ok conf => .ok ({ t with ssh := { t.ssh with kex := { kex with
      extInfoC := conf.extInfoC, newkeysIn := none, newkeysOut := none } } },
      [.negotiated kex.peer])

def kexInputKexinit (algs : Kex.Algorithms) (compat : Kex.Compat) (t : Transport Ctx) (body : Bytes)
    (method : Option (MethodStep Ctx)) : Except Err (Seen Ctx) :=
  let peer := t.ssh.kex.peer ++ body
  if sizeMax < peer.length then .error .noBufferSpace
  else if kexinitComplete body = false then .error .invalidFormat
  else
    let t := { t with ssh := { t.ssh with kex := { t.ssh.kex with peer } } }
    andThen (lift t (kexSendKexinit t.ssh)) fun t =>
      andThen (kexChooseConf algs compat t) fun t => runMethod t method

def kexInputNewkeys (t : Transport Ctx) (body : Bytes) : Except Err (Seen Ctx) :=
  if body ≠ [] then .error .invalidFormat
  else .ok (sshDispatchSet { t with ssh := { t.ssh with kex := { t.ssh.kex with
    done := true, peer := [], initSent := false } } } msgNewkeys .protocolError, [])

def getInfos : Nat → Bytes → Option Bytes
  | 0, b => some b
  | n + 1, b => do
    let (_, b) ← getCstring b
    let (_, b) ← getCstring b
    getInfos n b

def kexInputExtInfo (t : Transport Ctx) (body : Bytes) : Except Err (Seen Ctx) :=
  if (getU32 body).bind (fun (n, b) => getInfos n b) = some [] then
    .ok (sshDispatchSet t msgExtInfo .protocolError, [])
  else .error .invalidFormat

def protocolError (t : Transport Ctx) (seqnr : UInt32) : Except Err (Seen Ctx) :=
  sshpktSend t (msgUnimplemented :: putU32 seqnr.toNat)

/-- A packet that was read. The first four types are dealt with before the table. -/
def dispatchPacket (algs : Kex.Algorithms) (compat : Kex.Compat) (t : Transport Ctx)
    (packet : Received) (method : Option (MethodStep Ctx)) : Except Err (Seen Ctx) :=
  if packet.type = msgIgnore then .ok (t, [])
  else if packet.type = msgDebug then
    if ((getU8 packet.rest).bind fun (_, b) => skipStrings 2 b).isSome then .ok (t, [])
    else .error .invalidFormat
  else if packet.type = msgDisconnect then .error .disconnected
  else if packet.type = msgUnimplemented then
    if (getU32 packet.rest).isSome then .ok (t, []) else .error .invalidFormat
  else
    match t.dispatch packet.type with
    | .unset => .error .disconnected
    | .protocolError => protocolError t packet.seqnr
    | .application => .ok (t, [])
    | .kexInputKexinit => kexInputKexinit algs compat t packet.rest method
    | .kexInputExtInfo => kexInputExtInfo t packet.rest
    | .kexInputNewkeys => kexInputNewkeys t packet.rest
    | .method => runMethod t method

/-! The machine. -/

/-- A packet of the application, which leaves the two messages that frame an exchange
to the key exchange. -/
structure Submission where
  type : UInt8
  rest : Bytes
  ne_kexinit : type ≠ msgKexinit
  ne_newkeys : type ≠ msgNewkeys

def Submission.payload (p : Submission) : Bytes := p.type :: p.rest

inductive Input (Ctx : Type) where
  /-- The first exchange is started by `kex_setup`. -/
  | start
  | rekex
  | send (packet : Submission)
  | addPadding (pad : UInt8)
  | rekeyLimits (bytes : UInt64) (seconds : Nat)
  | dispatchRange (low high : UInt8) (setting : Setting)
  /-- An application that lets the peer start an exchange. -/
  | dispatchKexinit
  | dispatchExtInfo
  | incoming (buf : Bytes)
  /-- A packet is read and dispatched; if the method runs, it does this. -/
  | poll (method : Option (MethodStep Ctx))

def poll (algs : Kex.Algorithms) (compat : Kex.Compat) (t : Transport Ctx)
    (method : Option (MethodStep Ctx)) : Except Err (Seen Ctx) := do
  let (ssh, found, frames) ← sshPacketReadPoll2 t.ssh
  match found with
  | none => return ({ t with ssh }, frames.map .sent)
  | some packet =>
    andThen (.ok ({ t with ssh }, .received packet :: frames.map .sent)) fun t =>
      dispatchPacket algs compat t packet method

def perform (algs : Kex.Algorithms) (compat : Kex.Compat) (t : Transport Ctx) :
    Input Ctx → Except Err (Seen Ctx)
  | .start => lift t (kexSendKexinit t.ssh)
  | .rekex => lift t (kexStartRekex t.ssh)
  | .send packet => sshpktSend t packet.payload
  | .addPadding pad => .ok ({ t with ssh := { t.ssh with extraPad := pad } }, [])
  | .rekeyLimits bytes seconds =>
    .ok ({ t with ssh := { t.ssh with rekeyLimit := bytes, rekeyInterval := seconds } }, [])
  | .dispatchRange low high setting => .ok (sshDispatchRange t low high setting.handler, [])
  | .dispatchKexinit => .ok (sshDispatchSet t msgKexinit .kexInputKexinit, [])
  | .dispatchExtInfo => .ok (sshDispatchSet t msgExtInfo .kexInputExtInfo, [])
  | .incoming buf => do
    let ssh ← sshPacketProcessIncoming t.ssh buf
    return ({ t with ssh }, [])
  | .poll method => poll algs compat t method

/-- Every error ends the process. -/
def step (algs : Kex.Algorithms) (compat : Kex.Compat) (t : Transport Ctx) (input : Input Ctx) :
    Except Stop (Seen Ctx) :=
  (perform algs compat t input).mapError fun _ => .fatal

/-! What a step is made of. -/

/-- The new table has the handler of KEXINIT messages at their type, or where the old
table has it. -/
def OnlyKexinit (old new : UInt8 → Handler) : Prop :=
  ∀ type, new type = .kexInputKexinit → type = msgKexinit ∨ old type = .kexInputKexinit

lemma onlyKexinit_set (t : Transport Ctx) (type : UInt8) (handler : Handler)
    (h : handler = .kexInputKexinit → type = msgKexinit) :
    OnlyKexinit t.dispatch (sshDispatchSet t type handler).dispatch := by
  intro other ho
  by_cases ht : other = type
  · subst ht
    simp only [sshDispatchSet, Function.update_self] at ho
    exact .inl (h ho)
  · simp only [sshDispatchSet, Function.update_of_ne ht] at ho
    exact .inr ho

lemma onlyKexinit_range (t : Transport Ctx) (low high : UInt8) {handler : Handler}
    (h : handler ≠ .kexInputKexinit) :
    OnlyKexinit t.dispatch (sshDispatchRange t low high handler).dispatch := by
  intro other ho
  rw [sshDispatchRange] at ho
  dsimp only at ho
  split_ifs at ho
  · exact absurd ho h
  · exact .inr ho

/-- Sending, and preparing for what comes next. -/
inductive Works : Transport Ctx → List Event → Transport Ctx → Prop where
  | refl {t : Transport Ctx} : Works t [] t
  | trans {t middle last : Transport Ctx} {first rest : List Event} (front : Works t first middle)
      (back : Works middle rest last) : Works t (first ++ rest) last
  | handlers {t : Transport Ctx} {dispatch : UInt8 → Handler}
      (h : OnlyKexinit t.dispatch dispatch) : Works t [] { t with dispatch }
  | derive {t : Transport Ctx} (keysIn keysOut : Newkeys Ctx) :
      Works t [] (kexDeriveKeys t keysIn keysOut)
  | send {t : Transport Ctx} {payload : Bytes} {ssh : Ssh Ctx} {frames : List Frame}
      (h : sshPacketSend2 t.ssh payload = .ok (ssh, frames)) :
      Works t (.submitted payload :: frames.map .sent) { t with ssh }
  | kexinit {t : Transport Ctx} {ssh : Ssh Ctx} {frames : List Frame}
      (h : kexSendKexinit t.ssh = .ok (ssh, frames)) : Works t (frames.map .sent) { t with ssh }
  | rekex {t : Transport Ctx} {ssh : Ssh Ctx} {frames : List Frame}
      (h : kexStartRekex t.ssh = .ok (ssh, frames)) : Works t (frames.map .sent) { t with ssh }

/-- All moves of the machine, one after the other, with what is seen of them. -/
inductive Moves : Transport Ctx → List Event → Transport Ctx → Prop where
  | works {t next : Transport Ctx} {events : List Event} (h : Works t events next) :
      Moves t events next
  | trans {t middle last : Transport Ctx} {first rest : List Event} (front : Moves t first middle)
      (back : Moves middle rest last) : Moves t (first ++ rest) last
  | settings {t : Transport Ctx} (extraPad : UInt8) (rekeyLimit : UInt64) (rekeyInterval : Nat) :
      Moves t [] { t with ssh := { t.ssh with extraPad, rekeyLimit, rekeyInterval } }
  | negotiate {t : Transport Ctx} (extInfoC : Bool) :
      Moves t [.negotiated t.ssh.kex.peer] { t with ssh := { t.ssh with
        kex := { t.ssh.kex with extInfoC, newkeysIn := none, newkeysOut := none } } }
  | peer {t : Transport Ctx} (peer : Bytes) :
      Moves t [] { t with ssh := { t.ssh with kex := { t.ssh.kex with peer } } }
  | finish {t : Transport Ctx} : Moves t [] { t with ssh := { t.ssh with kex := { t.ssh.kex with
      done := true, peer := [], initSent := false } } }
  | input {t : Transport Ctx} {buf : Bytes} {ssh : Ssh Ctx}
      (h : sshPacketProcessIncoming t.ssh buf = .ok ssh) : Moves t [] { t with ssh }
  | read {t : Transport Ctx} {ssh : Ssh Ctx} {found : Option Received} {frames : List Frame}
      (h : sshPacketReadPoll2 t.ssh = .ok (ssh, found, frames)) :
      Moves t (found.toList.map .received ++ frames.map .sent) { t with ssh }

variable {events : List Event} {t next : Transport Ctx} {algs : Kex.Algorithms}
  {compat : Kex.Compat} {method : Option (MethodStep Ctx)}

/-- Two parts of a step, for any way of describing them. -/
lemma andThen_eq_ok {x : Except Err (Seen Ctx)} {f : Transport Ctx → Except Err (Seen Ctx)}
    {last : Transport Ctx} (h : andThen x f = .ok (last, events)) :
    ∃ middle first rest, x = .ok (middle, first) ∧ f middle = .ok (last, rest) ∧ events = first ++ rest := by
  obtain ⟨⟨middle, first⟩, hx, h⟩ := bind_eq_ok.1 h
  obtain ⟨⟨finish, rest⟩, hf, h⟩ := bind_eq_ok.1 h
  cases h
  exact ⟨middle, first, rest, hx, hf, rfl⟩

lemma lift_eq_ok {x : Except Err (Ssh Ctx × List Frame)} (h : lift t x = .ok (next, events)) :
    ∃ ssh frames, x = .ok (ssh, frames) ∧ next = { t with ssh } ∧ events = frames.map .sent := by
  obtain ⟨⟨ssh, frames⟩, hx, h⟩ := bind_eq_ok.1 h
  cases h
  exact ⟨ssh, frames, hx, rfl, rfl⟩

lemma sshpktSend_works {payload : Bytes} (h : sshpktSend t payload = .ok (next, events)) :
    Works t events next := by
  obtain ⟨⟨ssh, frames⟩, hs, h⟩ := bind_eq_ok.1 h
  cases h
  exact .send hs

lemma sendEach_works {payloads : List Bytes} (h : sendEach t payloads = .ok (next, events)) :
    Works t events next := by
  induction payloads generalizing t events with
  | nil =>
    cases h
    exact .refl
  | cons payload payloads ih =>
    obtain ⟨middle, first, rest, hf, hr, rfl⟩ := andThen_eq_ok h
    exact .trans (sshpktSend_works hf) (ih hr)

lemma kexResetDispatch_works (t : Transport Ctx) : Works t [] (kexResetDispatch t) := by
  have hr := onlyKexinit_range t msgTransportMin msgTransportMax
    (show Handler.protocolError ≠ .kexInputKexinit by decide)
  have hSet := onlyKexinit_set (sshDispatchRange t msgTransportMin msgTransportMax .protocolError)
    msgKexinit .kexInputKexinit (fun _ => rfl)
  exact .trans (.handlers hr) (.handlers hSet)

lemma kexSendNewkeys_works (h : kexSendNewkeys t = .ok (next, events)) : Works t events next := by
  obtain ⟨middle, first, rest, hs, hi, rfl⟩ := andThen_eq_ok h
  have hr := kexResetDispatch_works t
  have hSet := onlyKexinit_set middle msgNewkeys .kexInputNewkeys (fun hn => by cases hn)
  have hf : Works t first (sshDispatchSet middle msgNewkeys .kexInputNewkeys) := by
    have hTwo := Works.trans hr (.trans (sshpktSend_works hs) (.handlers hSet))
    rwa [List.nil_append, List.append_nil] at hTwo
  rw [kexSendExtInfo] at hi
  split_ifs at hi
  · exact .trans hf (sshpktSend_works hi)
  · cases hi
    exact .trans hf .refl

lemma installHandlers_works (t : Transport Ctx) (handlers : List (Fin 20 × Bool)) :
    Works t [] (installHandlers t handlers) := by
  induction handlers generalizing t with
  | nil => exact .refl
  | cons handler handlers ih =>
    obtain ⟨n, on⟩ := handler
    have ho : (if on then Handler.method else .unset) ≠ .kexInputKexinit := by
      cases on with
      | false => decide
      | true => decide
    have hSet := onlyKexinit_set t (UInt8.ofNat (30 + n)) _ (fun h => absurd h ho)
    exact .trans (.handlers hSet) (ih _)

lemma runMethod_works (h : runMethod t method = .ok (next, events)) : Works t events next := by
  cases method with
  | none => cases h
  | some method =>
    rw [runMethod] at h
    obtain ⟨middle, first, rest, hFirst, hf, rfl⟩ := andThen_eq_ok h
    have hi := installHandlers_works middle method.handlers
    apply Works.trans (sendEach_works hFirst)
    unfold finishMethod at hf
    split at hf
    · cases hf
      exact hi
    · next keysIn keysOut _ =>
      exact .trans hi (.trans (.derive keysIn keysOut) (kexSendNewkeys_works hf))

lemma kexChooseConf_eq_ok (h : kexChooseConf algs compat t = .ok (next, events)) :
    ∃ conf, Kex.kexChooseConf algs compat t.ssh.serverSide t.ssh.kex.extInfoC t.ssh.kex.my
      t.ssh.kex.peer = .ok conf ∧
      next = { t with ssh := { t.ssh with kex := { t.ssh.kex with
        extInfoC := conf.extInfoC, newkeysIn := none, newkeysOut := none } } } ∧
      events = [.negotiated t.ssh.kex.peer] := by
  unfold kexChooseConf at h
  dsimp only at h
  split at h
  · cases h
  · next conf hc =>
    cases h
    exact ⟨conf, hc, rfl, rfl⟩

variable {body : Bytes} {input : Input Ctx}

section
variable (h : kexInputKexinit algs compat t body method = .ok (next, events))
include h

lemma kexInputKexinit_eq_ok :
    ∃ ssh frames extInfoC chosen rest,
      kexSendKexinit { t.ssh with kex := { t.ssh.kex with peer := t.ssh.kex.peer ++ body } } =
        .ok (ssh, frames) ∧
      chosen = { t with ssh := { ssh with kex := { ssh.kex with
        extInfoC, newkeysIn := none, newkeysOut := none } } } ∧
      runMethod chosen method = .ok (next, rest) ∧
      events = frames.map .sent ++ (.negotiated ssh.kex.peer :: rest) := by
  rw [kexInputKexinit] at h
  split_ifs at h
  obtain ⟨middle, first, rest, hs, hr, rfl⟩ := andThen_eq_ok h
  obtain ⟨chosen, seen, later, hc, hRun, rfl⟩ := andThen_eq_ok hr
  obtain ⟨ssh, frames, hk, rfl, rfl⟩ := lift_eq_ok hs
  obtain ⟨conf, -, rfl, rfl⟩ := kexChooseConf_eq_ok hc
  exact ⟨ssh, frames, conf.extInfoC, _, later, hk, rfl, hRun, rfl⟩

lemma kexInputKexinit_moves :
    Moves t events next := by
  obtain ⟨ssh, frames, extInfoC, chosen, rest, hk, rfl, hRun, rfl⟩ := kexInputKexinit_eq_ok h
  exact .trans (.trans (.peer (t.ssh.kex.peer ++ body)) (.works (.kexinit hk)))
    (.trans (.negotiate extInfoC) (.works (runMethod_works hRun)))

end

lemma dispatchPacket_moves {packet : Received}
    (h : dispatchPacket algs compat t packet method = .ok (next, events)) : Moves t events next := by
  rw [dispatchPacket] at h
  split_ifs at h
  · cases h
    exact .works .refl
  · cases h
    exact .works .refl
  · cases h
    exact .works .refl
  · split at h
    · cases h
    · exact .works (sshpktSend_works h)
    · cases h
      exact .works .refl
    · exact kexInputKexinit_moves h
    · rw [kexInputExtInfo] at h
      split_ifs at h
      cases h
      exact .works (.handlers (onlyKexinit_set t _ _ fun hn => by cases hn))
    · rw [kexInputNewkeys] at h
      split_ifs at h
      cases h
      exact .trans .finish (.works (.handlers (onlyKexinit_set _ _ _ fun hn => by cases hn)))
    · exact .works (runMethod_works h)

lemma poll_eq_ok (h : poll algs compat t method = .ok (next, events)) :
    ∃ ssh frames, sshPacketReadPoll2 t.ssh = .ok (ssh, none, frames) ∧ next = { t with ssh } ∧
      events = frames.map .sent ∨
      ∃ packet rest, sshPacketReadPoll2 t.ssh = .ok (ssh, some packet, frames) ∧
        dispatchPacket algs compat { t with ssh } packet method = .ok (next, rest) ∧
        events = .received packet :: frames.map .sent ++ rest := by
  obtain ⟨⟨ssh, found, frames⟩, hr, h⟩ := bind_eq_ok.1 h
  refine ⟨ssh, frames, ?_⟩
  cases found with
  | none =>
    cases h
    exact .inl ⟨hr, rfl, rfl⟩
  | some packet =>
    obtain ⟨middle, first, rest, hf, hRest, rfl⟩ := andThen_eq_ok h
    cases hf
    exact .inr ⟨packet, rest, hr, hRest, rfl⟩

lemma poll_moves (h : poll algs compat t method = .ok (next, events)) : Moves t events next := by
  obtain ⟨ssh, frames, ⟨hr, rfl, rfl⟩ | ⟨packet, rest, hr, hRest, rfl⟩⟩ := poll_eq_ok h
  · exact .read hr
  · exact .trans (.read hr) (dispatchPacket_moves hRest)

lemma step_eq_ok (h : step algs compat t input = .ok (next, events)) :
    perform algs compat t input = .ok (next, events) :=
  mapError_eq_ok.1 h

/-- Whatever a step does, it does by these moves. -/
lemma step_moves (h : step algs compat t input = .ok (next, events)) : Moves t events next := by
  have hp := step_eq_ok h
  cases input with
  | start =>
    obtain ⟨ssh, frames, hs, rfl, rfl⟩ := lift_eq_ok hp
    exact .works (.kexinit hs)
  | rekex =>
    obtain ⟨ssh, frames, hs, rfl, rfl⟩ := lift_eq_ok hp
    exact .works (.rekex hs)
  | send packet => exact .works (sshpktSend_works hp)
  | addPadding pad =>
    cases hp
    exact .settings pad _ _
  | rekeyLimits bytes seconds =>
    cases hp
    exact .settings _ bytes seconds
  | dispatchRange low high setting =>
    cases hp
    have ho : setting.handler ≠ .kexInputKexinit := by
      cases setting with
      | unset => decide
      | protocolError => decide
      | application => decide
    exact .works (.handlers (onlyKexinit_range t low high ho))
  | dispatchKexinit =>
    cases hp
    exact .works (.handlers (onlyKexinit_set t _ _ fun _ => rfl))
  | dispatchExtInfo =>
    cases hp
    exact .works (.handlers (onlyKexinit_set t _ _ fun hn => by cases hn))
  | incoming buf =>
    obtain ⟨ssh, hi, hp⟩ := bind_eq_ok.1 hp
    cases hp
    exact .input hi
  | poll method => exact poll_moves hp

/-! A small instance. -/

def clientStart : Transport UInt8 :=
  kexResetDispatch {
    ssh := { shiftSession with
      read := { shiftDirection 0 with newkeys := none }
      send := { shiftDirection 0 with newkeys := none }
      kex := ⟨Kex.kexProp2buf Kex.clientProposal, [], false, false, false, none, none⟩ }
    dispatch := fun _ => .unset
    derived := 0 }

def plainPacket (payload : Bytes) : Bytes :=
  clearPacket payload (List.replicate (minPadding 8 (5 + payload.length)) 0)

def serverKexinit : Bytes := msgKexinit :: Kex.kexProp2buf Kex.serverProposal

def shiftMethod : MethodStep UInt8 := ⟨[], [], some (shiftKeys 0, shiftKeys 0)⟩

end Packet
