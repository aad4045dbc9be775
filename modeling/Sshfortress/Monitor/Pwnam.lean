import Sshfortress.Monitor.Protocol

/-! The reply to a user lookup. The monitor writes the account and the options as
raw blocks of memory followed by the strings behind their pointers, and the child
reads them back. Which strings follow is decided on each side by the same block. -/
namespace Monitor

open Base Base.Wire Base.Mysql Auth List

/-- The options with a string, in the order in which they are copied. -/
inductive StringOption where
  | banner
  | trustedUserCaKeys
  | revokedKeysFile
  | authorizedKeysCommand
  | authorizedKeysCommandUser
  | authorizedPrincipalsFile
  | authorizedPrincipalsCommand
  | authorizedPrincipalsCommandUser
  | hostbasedKeyTypes
  | pubkeyKeyTypes
  deriving DecidableEq

def StringOption.all : List StringOption :=
  [.banner, .trustedUserCaKeys, .revokedKeysFile, .authorizedKeysCommand,
    .authorizedKeysCommandUser, .authorizedPrincipalsFile, .authorizedPrincipalsCommand,
    .authorizedPrincipalsCommandUser, .hostbasedKeyTypes, .pubkeyKeyTypes]

inductive ArrayOption where
  | authorizedKeysFiles
  | allowUsers
  | denyUsers
  | allowGroups
  | denyGroups
  | acceptEnv
  | authMethods
  deriving DecidableEq

def ArrayOption.all : List ArrayOption :=
  [.authorizedKeysFiles, .allowUsers, .denyUsers, .allowGroups, .denyGroups, .acceptEnv, .authMethods]

inductive Slot where
  | string (option : StringOption)
  | element (option : ArrayOption) (index : Nat)
  deriving DecidableEq

/-- How the compiler lays out the two records, and which members the system has. The
functions read from a block whether a pointer is set and what a counter holds. -/
structure Abi where
  (passwdSize optionsSize : Nat)
  (gecos pwClass : Bool)
  isSet : StringOption → Bytes → Bool
  count : ArrayOption → Bytes → Nat

/-- The strings that belong to a block, in the order of `COPY_MATCH_STRING_OPTS`. -/
def Abi.slots (abi : Abi) (block : Bytes) : List Slot :=
  (StringOption.all.filter (abi.isSet · block)).map Slot.string ++
    ArrayOption.all.flatMap fun option => (List.range (abi.count option block)).map (.element option)

variable (abi : Abi)

/-- The options of a process: their memory and what the pointers in it lead to. -/
structure ServerOptions where
  block : Bytes
  block_length : block.length = abi.optionsSize
  behind : Slot → Bytes

/-- An account entry: its memory, what the checks read, and its strings. -/
structure PasswdEntry where
  block : Bytes
  block_length : block.length = abi.passwdSize
  account : Passwd
  (name gecos pwClass dir shell : Bytes)

variable {abi}

/-- The entry as the child sees it; a member the system lacks is not sent. -/
structure ChildPasswd where
  (block name passwd : Bytes)
  (gecos pwClass : Option Bytes)
  (dir shell : Bytes)
  deriving DecidableEq

structure ChildOptions where
  block : Bytes
  strings : List (Slot × Bytes)
  deriving DecidableEq

/-- The password is never sent. -/
def PasswdEntry.sent (e : PasswdEntry abi) : ChildPasswd where
  block := e.block
  name := e.name
  passwd := text "*"
  gecos := if abi.gecos then some e.gecos else none
  pwClass := if abi.pwClass then some e.pwClass else none
  dir := e.dir
  shell := e.shell

def ServerOptions.sent (options : ServerOptions abi) : ChildOptions where
  block := options.block
  strings := (abi.slots options.block).map fun slot => (slot, options.behind slot)

/-! The two ends of the pipe. -/

def monitorAnsPwnam : UInt8 := 9

def mmRequestSend (type : UInt8) (m : Bytes) : Bytes := putU32 (m.length + 1) ++ type :: m

def requestMax : Nat := 256 * 1024

def mmRequestReceiveExpect (type : UInt8) (stream : Bytes) : Except Stop Bytes := do
  let (msgLen, stream) ← need (getU32 stream)
  if requestMax < msgLen then .error .fatal
  else
    let (m, _) ← need (getFixed msgLen stream)
    let (rtype, m) ← need (getU8 m)
    if rtype ≠ type then .error .fatal else .ok m

def putIf (present : Bool) (s : Bytes) : Bytes := if present then putString s else []

def getIf (present : Bool) (m : Bytes) : Except Stop (Option Bytes × Bytes) :=
  if present then do
    let (s, m) ← need (getString m)
    return (some s, m)
  else .ok (none, m)

def PasswdEntry.put (e : PasswdEntry abi) : Bytes :=
  putString e.block ++ putString e.name ++ putString (text "*") ++ putIf abi.gecos e.gecos ++
    putIf abi.pwClass e.pwClass ++ putString e.dir ++ putString e.shell

def ServerOptions.put (options : ServerOptions abi) : Bytes :=
  putString options.block ++ (abi.slots options.block).flatMap fun slot => putString (options.behind slot)

/-- What the monitor writes. Without `--` in the name the jump to the end leaves the
rest of the request in the buffer and the answer to the lookup out of it. -/
def pwnamReply (options : ServerOptions abi) (pwent : Option (PasswdEntry abi))
    (username rest : Bytes) : Bytes :=
  let head := match loginQuery "" username with
    | none => rest
    | some _ => match pwent with
      | none => [0]
      | some e => 1 :: e.put
  head ++ options.put

/-- The handler together with its reply, which must fit a buffer. -/
def mmAnswerPwnamallowSend (cfg : Config) (w : World) (s : State) (options : ServerOptions abi)
    (pwent : Option (PasswdEntry abi)) (m : Bytes) : Except Stop (State × Bytes) := do
  let (username, rest) ← need (getString m)
  let (next, _) ← mmAnswerPwnamallow cfg { w with pwent := pwent.map (·.account) } s m
  let reply := pwnamReply options pwent (cstr username) rest
  if sizeMax < reply.length then .error .fatal
  else .ok (next, mmRequestSend monitorAnsPwnam reply)

def getPasswd (abi : Abi) (m : Bytes) : Except Stop (ChildPasswd × Bytes) := do
  let (block, m) ← need (getString m)
  if block.length ≠ abi.passwdSize then .error .fatal
  else
    let (name, m) ← need (getString m)
    let (passwd, m) ← need (getString m)
    let (gecos, m) ← getIf abi.gecos m
    let (pwClass, m) ← getIf abi.pwClass m
    let (dir, m) ← need (getString m)
    let (shell, m) ← need (getString m)
    return (⟨block, name, passwd, gecos, pwClass, dir, shell⟩, m)

def getSlots : List Slot → Bytes → Except Stop (List (Slot × Bytes) × Bytes)
  | [], m => .ok ([], m)
  | slot :: slots, m => do
    let (s, m) ← need (getString m)
    let (rest, m) ← getSlots slots m
    return ((slot, s) :: rest, m)

def getOptions (abi : Abi) (m : Bytes) : Except Stop (ChildOptions × Bytes) := do
  let (block, m) ← need (getString m)
  if block.length ≠ abi.optionsSize then .error .fatal
  else
    let (strings, m) ← getSlots (abi.slots block) m
    return (⟨block, strings⟩, m)

def getFound (abi : Abi) (found : UInt8) (m : Bytes) : Except Stop (Option ChildPasswd × Bytes) :=
  if found = 0 then .ok (none, m)
  else do
    let (pw, m) ← getPasswd abi m
    return (some pw, m)

/-- What the child makes of the reply, and the bytes it does not read. -/
def mmGetpwnamallow (abi : Abi) (stream : Bytes) :
    Except Stop (Option ChildPasswd × ChildOptions × Bytes) := do
  let m ← mmRequestReceiveExpect monitorAnsPwnam stream
  let (found, m) ← need (getU8 m)
  let (pw, m) ← getFound abi found m
  let (options, m) ← getOptions abi m
  return (pw, options, m)

/-! Reading back what was written. -/

lemma requestMax_le : requestMax ≤ sizeMax - 4 := by simp [requestMax, sizeMax]

lemma need_getString {s : Bytes} (h : s.length ≤ sizeMax - 4) (m : Bytes) :
    need (getString (putString s ++ m)) = .ok (s, m) := by
  rw [getString_putString h]
  rfl

lemma getIf_putIf {present : Bool} {s : Bytes} (h : (putIf present s).length ≤ requestMax) (m : Bytes) :
    getIf present (putIf present s ++ m) = .ok (if present then some s else none, m) := by
  cases present with
  | false => rfl
  | true =>
    have hf : s.length ≤ sizeMax - 4 := by
      simp only [putIf, if_true, length_putString] at h
      have hMax := requestMax_le
      omega
    simp only [getIf, putIf, if_true, need_getString hf]
    rfl

lemma getSlots_put (slots : List Slot) (behind : Slot → Bytes) (m : Bytes)
    (h : (slots.flatMap fun slot => putString (behind slot)).length ≤ requestMax) :
    getSlots slots ((slots.flatMap fun slot => putString (behind slot)) ++ m) =
      .ok (slots.map fun slot => (slot, behind slot), m) := by
  induction slots with
  | nil => rfl
  | cons slot slots ih =>
    simp only [flatMap_cons, length_append, length_putString] at h
    have hMax := requestMax_le
    have hf : (behind slot).length ≤ sizeMax - 4 := by omega
    rw [getSlots, flatMap_cons, append_assoc, need_getString hf]
    have hr := ih (by omega)
    simp only [ok_bind, hr]
    rfl

lemma getOptions_put (options : ServerOptions abi) (m : Bytes) (h : options.put.length ≤ requestMax) :
    getOptions abi (options.put ++ m) = .ok (options.sent, m) := by
  simp only [ServerOptions.put, length_append, length_putString] at h
  have hMax := requestMax_le
  have hb : options.block.length ≤ sizeMax - 4 := by omega
  have hs := getSlots_put (abi.slots options.block) options.behind m (by omega)
  unfold getOptions ServerOptions.put
  rw [append_assoc, need_getString hb]
  simp only [ok_bind, options.block_length, ne_eq, not_true_eq_false, if_false, hs]
  rfl

lemma getPasswd_put (e : PasswdEntry abi) (m : Bytes) (h : e.put.length ≤ requestMax) :
    getPasswd abi (e.put ++ m) = .ok (e.sent, m) := by
  simp only [PasswdEntry.put, length_append, length_putString] at h
  have hMax := requestMax_le
  have hb : e.block.length ≤ sizeMax - 4 := by omega
  have hn : e.name.length ≤ sizeMax - 4 := by omega
  have hStar : (text "*").length ≤ sizeMax - 4 := by omega
  have hDir : e.dir.length ≤ sizeMax - 4 := by omega
  have hs : e.shell.length ≤ sizeMax - 4 := by omega
  have hg := @getIf_putIf abi.gecos e.gecos (by omega)
  have hc := @getIf_putIf abi.pwClass e.pwClass (by omega)
  unfold getPasswd PasswdEntry.put
  simp only [append_assoc, need_getString hb, need_getString hn, need_getString hStar,
    need_getString hDir, need_getString hs, hg, hc, ok_bind, e.block_length,
    ne_eq, not_true_eq_false, if_false]
  rfl

variable {s next : State} {m : Bytes} {options : ServerOptions abi}
  {pwent : Option (PasswdEntry abi)} {w : World} {handled : Handled}

lemma mmRequestReceiveExpect_send (type : UInt8) (hBuf : m.length ≤ sizeMax) :
    mmRequestReceiveExpect type (mmRequestSend type m) =
      if m.length + 1 ≤ requestMax then .ok m else .error .fatal := by
  have hLen : getU32 (mmRequestSend type m) = some (m.length + 1, type :: m) := by
    apply getInt_digits
    have hBound : sizeMax + 1 < 256 ^ 4 := by simp [sizeMax]
    omega
  have hb : getFixed (m.length + 1) (type :: m) = some (type :: m, []) := by
    have hFixed : getFixed (m.length + 1) (type :: m ++ []) = some (type :: m, []) :=
      getFixed_append rfl
    rwa [append_nil] at hFixed
  unfold mmRequestReceiveExpect
  simp only [hLen, need, ok_bind, hb, getU8, ne_eq, not_true_eq_false, if_false]
  by_cases hf : m.length + 1 ≤ requestMax
  · rw [if_pos hf, if_neg (Nat.not_lt.2 hf)]
  · rw [if_neg hf, if_pos (Nat.lt_of_not_le hf)]

variable {username rest : Bytes}

lemma pwnamReply_found (h : (loginQuery "" username).isSome) :
    pwnamReply options pwent username rest = (pwent.elim [0] fun e => 1 :: e.put) ++ options.put := by
  obtain ⟨query, hq⟩ := Option.isSome_iff_exists.1 h
  unfold pwnamReply
  rw [hq]
  cases pwent with
  | none => rfl
  | some e => rfl

def replyLength (options : ServerOptions abi) (pwent : Option (PasswdEntry abi)) : Nat :=
  1 + (pwent.elim 0 fun e => e.put.length) + options.put.length

lemma pwnamReply_length (h : (loginQuery "" username).isSome) :
    (pwnamReply options pwent username rest).length = replyLength options pwent := by
  rw [pwnamReply_found h, length_append]
  cases pwent with
  | none => rfl
  | some e => simp only [replyLength, Option.elim, length_cons, Nat.add_comm]

lemma mmGetpwnamallow_answer (hAns : m = (pwent.elim [0] fun e => 1 :: e.put) ++ options.put)
    (hLen : m.length = replyLength options pwent) (hFits : replyLength options pwent + 1 ≤ requestMax) :
    mmGetpwnamallow abi (mmRequestSend monitorAnsPwnam m) =
      .ok (pwent.map PasswdEntry.sent, options.sent, []) := by
  have hMax := requestMax_le
  have hr := mmRequestReceiveExpect_send (m := m) monitorAnsPwnam (by omega)
  rw [if_pos (by omega)] at hr
  unfold replyLength at hFits
  have ho := getOptions_put options [] (by omega)
  rw [append_nil] at ho
  have hf : ∃ found rest, getU8 m = some (found, rest) ∧
    getFound abi found rest = .ok (pwent.map PasswdEntry.sent, options.put) := by
    rw [hAns]
    cases pwent with
    | none => exact ⟨0, options.put, rfl, rfl⟩
    | some e =>
      have he : e.put.length ≤ requestMax := by
        simp only [Option.elim] at hFits
        omega
      have hn : (1 : UInt8) ≠ 0 := by decide
      refine ⟨1, e.put ++ options.put, rfl, ?_⟩
      rw [getFound, if_neg hn, getPasswd_put e options.put he]
      rfl
  obtain ⟨found, rest, hU8, hf⟩ := hf
  unfold mmGetpwnamallow
  simp only [hr, ok_bind, hU8, need, hf, ho]
  rfl

lemma mmGetpwnamallow_long (hBuf : m.length ≤ sizeMax) (hl : ¬ m.length + 1 ≤ requestMax) :
    mmGetpwnamallow abi (mmRequestSend monitorAnsPwnam m) = .error .fatal := by
  have hr := mmRequestReceiveExpect_send monitorAnsPwnam hBuf
  rw [if_neg hl] at hr
  unfold mmGetpwnamallow
  rw [hr]
  rfl

/-! The states in which a name may be sent. -/

variable {cfg : Config} {process : Process}

/-- The states between two requests of a child that is not yet authenticated. -/
inductive Reached (cfg : Config) (process : Process) : State → Prop where
  | start : Reached cfg process (State.initial process)
  | turn {s next : State} {w : World} {message : Bytes} {handled : Handled}
      (h : Reached cfg process s)
      (hTurn : preauthTurn cfg w s message = .ok (next, handled, false)) :
      Reached cfg process next

/-- Nobody has been looked up. -/
def Authctxt.Untouched (authctxt : Authctxt) : Prop :=
  authctxt.attempt = 0 ∧ authctxt.user = none ∧ authctxt.pw = none

def ReqType.keepsAuthctxt : ReqType → Bool
  | .moduli | .sign | .auth2ReadBanner => true
  | .pwnam | .authserv | .authpassword | .keyallowed | .keyverify => false

lemma answer_keepsAuthctxt {type : ReqType} (ht : type.keepsAuthctxt = true)
    (h : answer cfg w s type m = .ok (next, handled)) : next.authctxt = s.authctxt := by
  cases type with
  | moduli =>
    obtain ⟨-, rfl⟩ := moduli_refines h
    rfl
  | auth2ReadBanner =>
    cases h
    rfl
  | sign =>
    obtain ⟨-, _, _, -, -, rfl⟩ := sign_refines h
    rfl
  | pwnam | authserv | authpassword | keyallowed | keyverify => cases ht

lemma preauthTurn_keepsAuthctxt {message : Bytes} {authenticated : Bool}
    (ht : handled.type.keepsAuthctxt = true)
    (h : preauthTurn cfg w s message = .ok (next, handled, authenticated)) : next.authctxt = s.authctxt := by
  obtain ⟨after, failures, hr, rfl, -⟩ := preauthTurn_eq_ok h
  obtain ⟨m, answered, -, -, hAns, rfl⟩ := monitorRead_eq_ok hr
  have hk := answer_keepsAuthctxt ht hAns
  exact hk

lemma Reached.untouched (h : Reached cfg process s) : ∃ phase : Phase, phase.Permits s.permit ∧
    (phase = .start ∨ phase = .signed → Authctxt.Untouched s.authctxt) := by
  induction h with
  | start =>
    obtain ⟨phase, -, -, hp⟩ := (Invariant.initial process).phase
    exact ⟨phase, hp, fun _ => ⟨rfl, rfl, rfl⟩⟩
  | @turn s next w message handled hReached hTurn ih =>
    obtain ⟨phase, hp, hKeep⟩ := ih
    obtain ⟨hPerm, -, hv, -⟩ := preauthTurn_refines hTurn
    have hn := (phase.permits_after (v := s.view) hp hPerm).2
    rw [← hv] at hn
    refine ⟨phase.next handled, hn, ?_⟩
    intro he
    -- Only the requests that keep the context leave the child in an early phase.
    have hk : handled.type.keepsAuthctxt = true ∧ (phase = .start ∨ phase = .signed) := by
      cases handled with
      | sign => exact ⟨rfl, .inl (hp.1.1 hPerm)⟩
      | moduli => exact ⟨rfl, he⟩
      | auth2ReadBanner => exact ⟨rfl, he⟩
      | pwnam valid => simp [Phase.next] at he
      | authserv => simp [Phase.next] at he
      | authpassword _ | keyallowed _ _ _ | keyverify _ _ _ =>
        obtain ⟨valid, rfl⟩ := (hp.2.2.2 _ rfl).1 hPerm
        simp [Phase.next] at he
    rw [preauthTurn_keepsAuthctxt hk.1 hTurn]
    exact hKeep hk.2

lemma Reached.untouched_of_permit (h : Reached cfg process s) (hPerm : s.permit .pwnam = true) :
    Authctxt.Untouched s.authctxt := by
  obtain ⟨phase, hp, hk⟩ := h.untouched
  exact hk (.inr (hp.2.1.1 hPerm))

/-! The whole exchange. -/

section Exchange

variable {w : World} {s : State} {username : Bytes}

lemma name_fits (h : username.length ≤ 255) : username.length ≤ sizeMax - 4 := by
  unfold sizeMax
  omega

lemma strcpy_short (h : username.length ≤ 255) : strcpy 256 (some username) = .ok (cstr username) := by
  have hs : (cstr username).length < 256 := by
    have hTake : (cstr username).length ≤ username.length :=
      (takeWhile_sublist _).length_le
    omega
  rw [strcpy, if_pos hs]

lemma loginQuery_isSome (h : contains username (text "--") = true) :
    (loginQuery "" (cstr username)).isSome := by
  unfold loginQuery
  rw [Option.isSome_map]
  exact h

lemma loginQuery_eq_none (h : ¬ contains username (text "--") = true) :
    loginQuery "" (cstr username) = none := by
  unfold loginQuery
  simpa [Base.contains] using h

variable {rest : Bytes}

lemma mmAnswerPwnamallow_target (hLen : username.length ≤ 255) (hk : Authctxt.Untouched s.authctxt)
    (ht : contains username (text "--") = true) :
    ∃ next handled, mmAnswerPwnamallow cfg w s (putString username ++ rest) = .ok (next, handled) ∧
      next.authctxt.pw.isSome ∧ next.authctxt.user.isSome := by
  have hf := name_fits hLen
  obtain ⟨query, hq⟩ := Option.isSome_iff_exists.1 (loginQuery_isSome ht)
  unfold mmAnswerPwnamallow
  simp only [need_getString hf, ok_bind, strcpy_short hLen, hq, hk.1, ne_eq, not_true_eq_false, if_false]
  exact ⟨_, _, rfl, rfl, rfl⟩

lemma mmAnswerPwnamallow_other (hLen : username.length ≤ 255) (ho : ¬ contains username (text "--") = true) :
    mmAnswerPwnamallow cfg w s (putString username ++ rest) =
      (recordFailedLogin cfg w (cstr username)).map fun _ =>
        ({ s with
          process := { s.process with audituser := cstr username }
          permit := monitorPermit (monitorPermit s.permit .authserv) .auth2ReadBanner },
          .pwnam false) := by
  unfold mmAnswerPwnamallow
  simp only [need_getString (name_fits hLen), ok_bind, strcpy_short hLen, loginQuery_eq_none ho]
  cases recordFailedLogin cfg w (cstr username) with
  | error reason => rfl
  | ok _ => rfl

/-- The lookup of a name, from the request to what the child reads: whenever a
name may be sent, both sides end with a complete context exactly if the name
contains `--` and the answer is not too long to be read. -/
theorem pwnam_complete_iff (abi : Abi) (cfg : Config) (process : Process) (w : World) (s : State)
    (options : ServerOptions abi) (pwent : Option (PasswdEntry abi)) (username rest : Bytes)
    (hReached : Reached cfg process s) (hPermit : s.permit .pwnam = true)
    (hLength : username.length ≤ 255) :
    (∃ next reply, mmAnswerPwnamallowSend cfg w s options pwent (putString username ++ rest) =
        .ok (next, reply) ∧
      next.authctxt.pw.isSome ∧ next.authctxt.user.isSome ∧
      mmGetpwnamallow abi reply = .ok (pwent.map PasswdEntry.sent, options.sent, [])) ↔
    contains username (text "--") = true ∧ replyLength options pwent + 1 ≤ requestMax := by
  have hUntouched := hReached.untouched_of_permit hPermit
  have hMax := requestMax_le
  have hFits := name_fits hLength
  constructor
  · rintro ⟨next, reply, hSend, hPw, -, hRead⟩
    unfold mmAnswerPwnamallowSend at hSend
    simp only [need_getString hFits, ok_bind, bind_eq_ok, Prod.exists] at hSend
    obtain ⟨answered, handled, hAnswer, hSend⟩ := hSend
    split at hSend
    · cases hSend
    rename_i hBuffer
    cases hSend
    have hTarget : contains username (text "--") = true := by
      by_contra hOther
      rw [mmAnswerPwnamallow_other hLength hOther] at hAnswer
      cases hRecord : recordFailedLogin cfg { w with pwent := pwent.map (·.account) } (cstr username) with
      | error reason =>
        rw [hRecord] at hAnswer
        cases hAnswer
      | ok _ =>
        rw [hRecord] at hAnswer
        cases hAnswer
        simp [hUntouched.2.2] at hPw
    refine ⟨hTarget, ?_⟩
    have hReply := @pwnamReply_length abi options pwent (cstr username) rest (loginQuery_isSome hTarget)
    by_contra hLong
    rw [mmGetpwnamallow_long (by omega) (by omega)] at hRead
    cases hRead
  · rintro ⟨hTarget, hShort⟩
    obtain ⟨next, handled, hAnswer, hPw, hUser⟩ :=
      @mmAnswerPwnamallow_target cfg { w with pwent := pwent.map (·.account) } s username rest
        hLength hUntouched hTarget
    have hQuery := loginQuery_isSome hTarget
    have hReply := @pwnamReply_length abi options pwent (cstr username) rest hQuery
    have hBuffer : ¬ sizeMax < (pwnamReply options pwent (cstr username) rest).length := by omega
    refine ⟨next, mmRequestSend monitorAnsPwnam (pwnamReply options pwent (cstr username) rest),
      ?_, hPw, hUser, ?_⟩
    · unfold mmAnswerPwnamallowSend
      simp only [need_getString hFits, ok_bind, hAnswer, if_neg hBuffer]
    · exact mmGetpwnamallow_answer (pwnamReply_found hQuery) hReply hShort

end Exchange

/-! A monitor with small records. -/

def smallAbi : Abi := ⟨2, 8, true, false, fun option _ => option = .banner, fun _ _ => 0⟩

def smallOptions : ServerOptions smallAbi := ⟨List.replicate 8 0, rfl, fun _ => text "/etc/banner"⟩

def rootEntry : PasswdEntry smallAbi :=
  ⟨[0, 0], rfl, ⟨0, text "x"⟩, text "root", text "root", [], text "/root", text "/bin/sh"⟩

def signMessage : Bytes :=
  [6] ++ putU32 0 ++ putString hashOfExchange ++ putString (text "ssh-rsa")

def signedState : State :=
  let s := State.initial aliceProcess
  { s with
    sessionId2 := some hashOfExchange
    permit := Function.update (monitorPermit s.permit .pwnam) .sign false }

lemma signedState_reached : Reached plainConfig aliceProcess signedState :=
  @Reached.turn _ _ _ _ willingWorld signMessage .sign .start rfl

/-- A name with a target is answered completely. -/
theorem pwnam_complete_alice : ∃ next reply,
      mmAnswerPwnamallowSend plainConfig willingWorld signedState smallOptions (some rootEntry)
        (putString (text "alice--3") ++ []) = .ok (next, reply) ∧
      next.authctxt.pw.isSome ∧ next.authctxt.user.isSome ∧
      mmGetpwnamallow smallAbi reply = .ok (some rootEntry.sent, smallOptions.sent, []) := by
  have hFits : replyLength smallOptions (some rootEntry) + 1 ≤ requestMax := by decide +kernel
  exact (pwnam_complete_iff smallAbi plainConfig aliceProcess willingWorld signedState
    smallOptions (some rootEntry) (text "alice--3") [] signedState_reached rfl
    (by decide +kernel)).2 ⟨by decide +kernel, hFits⟩

/-- The answer to a plain name: nobody is in the context of the monitor, and the
child takes the first byte of the options for the answer and dies. -/
theorem pwnam_plain_name_incomplete :
    Reached plainConfig aliceProcess signedState ∧ signedState.permit .pwnam = true ∧ ∃ next reply,
      mmAnswerPwnamallowSend plainConfig willingWorld signedState smallOptions (some rootEntry)
        (putString (text "root")) = .ok (next, reply) ∧ next.authctxt.pw = none ∧ next.authctxt.user = none ∧
      mmGetpwnamallow smallAbi reply = .error .fatal := by
  have hLength : (text "root").length ≤ 255 := by decide
  have hOther : ¬ contains (text "root") (text "--") = true := by decide
  have hRecord : recordFailedLogin plainConfig { willingWorld with pwent := some rootEntry.account }
    (cstr (text "root")) = .ok () := by rw [recordFailedLogin, if_pos (by decide +kernel)]
  have hAnswer := @mmAnswerPwnamallow_other plainConfig
    { willingWorld with pwent := some rootEntry.account } signedState (text "root") [] hLength hOther
  rw [hRecord, append_nil] at hAnswer
  refine ⟨signedState_reached, rfl, ?_⟩
  unfold mmAnswerPwnamallowSend
  have hName := need_getString (name_fits hLength) []
  rw [append_nil] at hName
  simp only [hName, ok_bind, Option.map_some, hAnswer, Except.map]
  exact ⟨_, _, rfl, rfl, rfl, by decide +kernel⟩

end Monitor
