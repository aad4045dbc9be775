import Sshfortress.Monitor.UserBlob

/-! The privileged monitor before authentication (protocol 2). The child sends
requests of its choice; the monitor looks each up in a table whose permissions
the handlers themselves change, runs the handler, and leaves the loop once a
request decides that the user is authenticated. Replies are not modelled, but
for what a reply to a key request says. -/
namespace Monitor

open Base Base.Wire Base.Mysql Auth

inductive ReqType where
  | moduli | sign | pwnam | authserv | auth2ReadBanner | authpassword | keyallowed | keyverify
  deriving DecidableEq

namespace ReqType

def code : ReqType → UInt8
  | .moduli => 0
  | .authserv => 4
  | .sign => 6
  | .pwnam => 8
  | .auth2ReadBanner => 10
  | .authpassword => 12
  | .keyallowed => 22
  | .keyverify => 24

def all : List ReqType :=
  [.moduli, .sign, .pwnam, .authserv, .auth2ReadBanner, .authpassword, .keyallowed, .keyverify]

/-- `MON_ONCE`: disabled after the call. -/
def once : ReqType → Bool
  | .moduli | .sign | .pwnam | .authserv | .auth2ReadBanner => true
  | .authpassword | .keyallowed | .keyverify => false

/-- `MON_ISAUTH`: required for authentication. -/
def isauth : ReqType → Bool
  | .authpassword | .keyallowed | .keyverify => true
  | .moduli | .sign | .pwnam | .authserv | .auth2ReadBanner => false

/-- `MON_AUTHDECIDE`: decides authentication. -/
def authdecide : ReqType → Bool
  | .authpassword | .keyverify => true
  | .moduli | .sign | .pwnam | .authserv | .auth2ReadBanner | .keyallowed => false

end ReqType

inductive AuthMethod where
  | unknown | none | password | publickey | hostbased
  deriving DecidableEq

structure KeyState where
  blob : Bytes
  blobtype : Nat
  (cuser chost : Bytes)
  deriving DecidableEq

structure Config where
  compat : Compat
  options : Options
  numAuthMethods : Nat
  bugRsasigmd5 : Bool
  remoteIp : Bytes

structure State where
  permit : ReqType → Bool
  authctxt : Authctxt
  service : Option Bytes
  failures : Nat
  process : Process
  sessionId2 : Option Bytes
  key : Option KeyState
  passwordCalls : Nat
  authMethod : AuthMethod

/-- What the monitor asks of the rest of the system while it handles one
request; every answer is arbitrary. -/
structure World where
  hostkeyPublic : Nat → Option Bytes
  hostkeyPrivate : Nat → Bool
  (agent signs : Bool)
  pwent : Option Passwd
  fakepw : Passwd
  system : System
  database : Answers
  stale : Bytes
  (keyFromBlob keyIsRsa : Bytes → Bool)
  userKeyAllowed : Bytes → Nat → Bool
  hostbasedKeyAllowed : Bytes → Bytes → Bytes → Bool
  keyVerify : Int
  updateMethodsLists : Bool
  rootAllowed : AuthMethod → Bool

inductive BlobCheck where
  | user | host
  deriving DecidableEq

/-- A request that was handled, with what matters of it. -/
inductive Handled where
  | moduli
  | sign
  | pwnam (valid : Bool)
  | authserv
  | auth2ReadBanner
  | authpassword (authenticated : Bool)
  | keyallowed (type : Nat) (blob : Bytes) (allowed : Bool)
  | keyverify (blob : Bytes) (check : BlobCheck) (verified : Bool)
  deriving DecidableEq

namespace Handled

def type : Handled → ReqType
  | .moduli => .moduli
  | .sign => .sign
  | .pwnam _ => .pwnam
  | .authserv => .authserv
  | .auth2ReadBanner => .auth2ReadBanner
  | .authpassword _ => .authpassword
  | .keyallowed .. => .keyallowed
  | .keyverify .. => .keyverify

/-- What the handler returned; only two of them ever return 1. -/
def ret : Handled → Nat
  | .authpassword authenticated => authenticated.toNat
  | .keyverify _ _ verified => verified.toNat
  | _ => 0

end Handled

/-! Permissions. -/

def monitorPermit (permit : ReqType → Bool) (type : ReqType) : ReqType → Bool :=
  Function.update permit type true

def monitorPermitAuthentications (permit : ReqType → Bool) : ReqType → Bool :=
  fun type => type.isauth || type.authdecide || permit type

def toInt32 (n : Nat) : Int := if n < 2 ^ 31 then n else n - 2 ^ 32

/-! The handlers. Each reads its request from the rest of the message. -/

variable (cfg : Config) (w : World) (s : State)

abbrev Answer := Except Stop (State × Handled)

def mmAnswerModuli (m : Bytes) : Answer := do
  let (min, m) ← need (getU32 m)
  let (want, m) ← need (getU32 m)
  let (max, _) ← need (getU32 m)
  if toInt32 max < toInt32 min ∨ toInt32 want < toInt32 min ∨ toInt32 max < toInt32 want then
    .error .fatal
  else return (s, .moduli)

def hostkeyProof (sessionId2 hostkey : Bytes) : Bytes :=
  putString (text "hostkeys-prove-00@openssh.com") ++ putString sessionId2 ++ putString hostkey

def mmAnswerSign (m : Bytes) : Answer := do
  let (keyid, m) ← need (getU32 m)
  let (p, m) ← need (getString m)
  let (_, _) ← need (getCstring m)
  if 2 ^ 31 ≤ keyid then .error .fatal
  else if ¬ [20, 32, 48, 64].contains p.length ∧ (s.sessionId2.bind fun sessionId2 =>
        (w.hostkeyPublic keyid).map fun hostkey => hostkeyProof sessionId2 hostkey) ≠ some p then
    .error .fatal
  else if (w.hostkeyPrivate keyid || ((w.hostkeyPublic keyid).isSome && w.agent)) && w.signs then
    return ({ s with
      sessionId2 := some (s.sessionId2.getD p)
      permit := monitorPermit s.permit .pwnam }, .sign)
  else .error .fatal

/-- The row for a login name without a target; it must fit its buffer, and a
failed connection is used all the same. -/
def recordFailedLogin (audituser : Bytes) : Except Stop Unit :=
  let buf := text "INSERT INTO `loginfailed_day` VALUES (null, '" ++ cfg.remoteIp ++
    text "', 'ssh2', '" ++ audituser ++ text "', '0', NOW())"
  if buf.length < 256 ∧ w.database.init ∧ w.database.connect then .ok () else .error .crash

/-- Look up who logs in. Every name is looked up as `root`, and the name that
stays in the context has been cut by `strtok`. -/
def mmAnswerPwnamallow (m : Bytes) : Answer := do
  let (username, _) ← need (getString m)
  let audituser ← strcpy 256 (some username)
  let s := { s with
    process := { s.process with audituser }
    permit := monitorPermit (monitorPermit s.permit .authserv) .auth2ReadBanner }
  match loginQuery "" audituser with
  | none =>
    recordFailedLogin cfg w audituser
    return (s, .pwnam false)
  | some query =>
    if s.authctxt.attempt ≠ 0 then .error .fatal
    else
      let authctxt := { s.authctxt with
        attempt := s.authctxt.attempt + 1
        user := some (cstr (strtokCut 45 audituser))
        pw := some (w.pwent.getD w.fakepw)
        valid := s.authctxt.valid || w.pwent.isSome }
      return ({ s with authctxt, process := { s.process with getQuery := query } }, .pwnam w.pwent.isSome)

def mmAnswerAuthserv (m : Bytes) : Answer := do
  let (service, m) ← need (getString m)
  let (style, _) ← need (getString m)
  let style := if cstr style = [] then none else some (cstr style)
  return ({ s with
    permit := monitorPermitAuthentications s.permit
    service := some (cstr service)
    authctxt := { s.authctxt with style } }, .authserv)

def mmAnswerAuth2ReadBanner : Answer := .ok (s, .auth2ReadBanner)

def mmAnswerAuthpassword (m : Bytes) : Answer := do
  let (passwd, _) ← need (getString m)
  let (authenticated, authctxt, process) ← Auth.mmAnswerAuthpassword w.system cfg.options
    w.database { s.process with stale := w.stale } s.authctxt passwd
  let passwordCalls := s.passwordCalls + 1
  return ({ s with
    authctxt
    process
    passwordCalls
    authMethod := if passwd = [] ∧ passwordCalls = 1 then .none else .password },
    .authpassword authenticated)

def mmHostkey : Nat := 1
def mmUserkey : Nat := 2
def mmRsahostkey : Nat := 3

/-- Whether a key of this type is allowed, and the method it is logged under.
Types other than the two known ones are fatal. -/
def keyAllowed (type : Nat) (cuser chost blob : Bytes) (attempt : Nat) : Except Stop (Bool × AuthMethod) :=
  if w.keyFromBlob blob && s.authctxt.valid then
    if w.keyIsRsa blob && cfg.bugRsasigmd5 then .error .fatal
    else if type = mmUserkey then .ok (w.userKeyAllowed blob attempt, .publickey)
    else if type = mmHostkey then .ok (w.hostbasedKeyAllowed cuser chost blob, .hostbased)
    else .error .fatal
  else .ok (false, s.authMethod)

def mmAnswerKeyallowed (m : Bytes) : Answer := do
  let (type, m) ← need (getU32 m)
  let (cuser, m) ← need (getString m)
  let (chost, m) ← need (getString m)
  let (blob, m) ← need (getString m)
  let (attempt, _) ← need (getU32 m)
  if type = mmRsahostkey then .error .fatal
  else
    let (allowed, authMethod) ← keyAllowed cfg w s type (cstr cuser) (cstr chost) blob attempt
    let key := if allowed then some ⟨blob, type, cstr cuser, cstr chost⟩ else none
    return ({ s with key, authMethod }, .keyallowed type blob allowed)

/-- The check of the blob that a host key signed; every field is compared. -/
def monitorValidHostbasedblob (data cuser chost : Bytes) : Except Stop Bool := do
  let (sessionId, b) ← need (getString data)
  let (type, b) ← need (getU8 b)
  let (user, b) ← need (getCstring b)
  let (_, b) ← need (skipString b)
  let (method, b) ← need (getCstring b)
  let (_, b) ← need (skipString b)
  let (_, b) ← need (skipString b)
  let (host, b) ← need (getString b)
  let (clientUser, b) ← need (getString b)
  let host := cstr host
  let host := if host.getLast? = some 46 then host.dropLast else host
  return s.sessionId2 = some sessionId && type = 50 &&
    user = expectedUser (s.authctxt.user.getD (text "(null)")) s.authctxt.style &&
    method = text "hostbased" && host = chost && cstr clientUser = cuser && b = []

/-- The blob check for the type of the allowed key, and which one it was. -/
def validData (key : KeyState) (data : Bytes) : Except Stop (Bool × Process × BlobCheck) :=
  if key.blobtype = mmUserkey then do
    let (valid, process) ← monitorValidUserblob ⟨cfg.compat, s.sessionId2⟩ w.database s.process data
    return (valid, process, .user)
  else if key.blobtype = mmHostkey then do
    let valid ← monitorValidHostbasedblob s data key.cuser key.chost
    return (valid, s.process, .host)
  else .error .fatal

def mmAnswerKeyverify (m : Bytes) : Answer := do
  let (blob, m) ← need (getString m)
  let (_, m) ← need (getString m)
  let (data, _) ← need (getString m)
  match s.key with
  | none => .error .fatal
  | some key =>
    if key.blob ≠ blob ∨ w.keyFromBlob blob = false then .error .fatal
    else
      let (valid, process, check) ← validData cfg w s key data
      if valid then
        return ({ s with
          process
          key := none
          authMethod := if key.blobtype = mmUserkey then .publickey else .hostbased },
          .keyverify blob check (w.keyVerify == 1))
      else .error .fatal

/-! The loop. -/

def answer (type : ReqType) (m : Bytes) : Answer :=
  match type with
  | .moduli => mmAnswerModuli s m
  | .sign => mmAnswerSign w s m
  | .pwnam => mmAnswerPwnamallow cfg w s m
  | .authserv => mmAnswerAuthserv s m
  | .auth2ReadBanner => mmAnswerAuth2ReadBanner s
  | .authpassword => mmAnswerAuthpassword cfg w s m
  | .keyallowed => mmAnswerKeyallowed cfg w s m
  | .keyverify => mmAnswerKeyverify cfg w s m

/-- Handle one message: an unknown or unpermitted type is fatal, and a type
that may be used only once is disabled afterwards. -/
def monitorRead (message : Bytes) : Answer := do
  let (code, m) ← need (getU8 message)
  match ReqType.all.find? fun type => type.code = code with
  | none => .error .fatal
  | some type =>
    if s.permit type then
      let (next, handled) ← answer cfg w s type m
      return ({ next with
        permit := if type.once then Function.update next.permit type false else next.permit },
        handled)
    else .error .fatal

/-- One turn of the loop: the state, what was handled, and whether the user is
now authenticated. -/
def preauthTurn (message : Bytes) : Except Stop (State × Handled × Bool) := do
  let (s, handled) ← monitorRead cfg w { s with authMethod := .unknown } message
  let returned := handled.ret == 1
  let partialAuth := cfg.numAuthMethods != 0 && returned && !w.updateMethodsLists
  if returned && !partialAuth then
    if handled.type.authdecide = false then .error .fatal
    else match s.authctxt.pw with
      | none => .error .crash
      | some pw =>
        let authenticated := !(pw.uid == 0 && !w.rootAllowed s.authMethod)
        return ({ s with failures := if authenticated then s.failures else s.failures + 1 },
          handled, authenticated)
  else
    return ({ s with failures :=
      if handled.type.authdecide && !partialAuth then s.failures + 1 else s.failures },
      handled, false)

inductive Outcome where
  | left (s : State) (handled : List Handled)
  | stopped (reason : Stop)
  | waiting

/-- The loop over the messages of the child; `handled` is what was handled
before. Leaving it is still refused for an invalid user or an unknown method. -/
def monitorChildPreauth : List (Bytes × World) → State → List Handled → Outcome
  | [], _, _ => .waiting
  | (message, w) :: rest, s, handled =>
    match preauthTurn cfg w s message with
    | .error reason => .stopped reason
    | .ok (next, last, authenticated) =>
      if authenticated then
        if next.authctxt.valid = false ∨ next.authMethod = .unknown then .stopped .fatal
        else .left next (handled ++ [last])
      else monitorChildPreauth rest next (handled ++ [last])

/-- The state at the start: the context is zeroed and only the moduli and a
signature may be asked for. -/
def State.initial (process : Process) : State where
  permit := fun type => type = .moduli || type = .sign
  authctxt := ⟨false, 0, none, none, none, false⟩
  service := none
  failures := 0
  process := process
  sessionId2 := none
  key := none
  passwordCalls := 0
  authMethod := .unknown

end Monitor
