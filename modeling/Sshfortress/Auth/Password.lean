import Sshfortress.Base.Mysql

/-! Password authentication. The candidate is compared with the hash of the
local account and with a password that a database lookup brings along; every
way the lookup can fail is an answer of the client library. -/
namespace Auth

open Base Base.Mysql
open Bool (and_eq_true false_eq_true)

structure Passwd where
  uid : Nat
  passwd : Bytes
  deriving DecidableEq

structure Authctxt where
  valid : Bool
  attempt : Nat
  (user style : Option Bytes)
  pw : Option Passwd
  forcePwchange : Bool
  deriving DecidableEq

inductive PermitRoot where
  | no | forcedOnly | noPasswd | yes
  deriving DecidableEq

structure Options where
  permitRootLogin : PermitRoot
  (permitEmptyPasswd passwordAuthentication : Bool)

/-- Where the session is relayed to: the columns of the login row. -/
structure Target where
  (dstip dstPort dstname dstpassword : Bytes)
  deriving DecidableEq

/-- The functions of the system that password authentication relies on.
`xcrypt` without a salt picks one; it can fail. -/
structure System where
  shadowPw : Passwd → Bytes
  shadowPwexpired : Bool
  xcrypt : Bytes → Option Bytes → Option Bytes

/-- The state of the process that the functions below read and write.
`stale` is what the stack holds where `srcpasword` is not written. -/
structure Process where
  (audituser getQuery : Bytes)
  target : Target
  (expireChecked forwardingDisabled : Bool)
  stale : Bytes

/-- The columns copied out of a row: the source password and the target. -/
def copyRow (row : Row) : Except Stop (Bytes × Target) := do
  let srcpasword ← strcpy 512 (row 0)
  let dstip ← strcpy 512 (row 1)
  let dstPort ← strcpy 128 (row 2)
  let dstname ← strcpy 512 (row 3)
  let dstpassword ← strcpy 512 (row 4)
  return (srcpasword, ⟨dstip, dstPort, dstname, dstpassword⟩)

/-- The salt of a stored hash; a hash of fewer than two characters has none. -/
def saltOf (valid : Bool) (pwPassword : Bytes) : Option Bytes :=
  if valid && 2 ≤ pwPassword.length then some pwPassword else none

def comparePasswords (sys : System) (authctxt : Authctxt) (pw : Passwd)
    (password srcpasword : Bytes) : Bool :=
  let pwPassword := if authctxt.valid then sys.shadowPw pw else pw.passwd
  if pwPassword = [] ∧ password = [] then true
  else match sys.xcrypt password (saltOf authctxt.valid pwPassword) with
    | none => false
    | some encrypted => encrypted = pwPassword || password = srcpasword

variable (sys : System) (options : Options) (db : Answers)

/-- The outcome and the process afterwards. The early returns of the source
give `EXIT_FAILURE` and `1`, and both count as success for the caller. -/
def sysAuthPasswd (process : Process) (authctxt : Authctxt) (pw : Passwd) (password : Bytes) :
    Except Stop (Bool × Process) :=
  if !db.init then .ok (true, process)
  else if db.connect then
    if !db.query process.getQuery then .ok (true, process)
    else if db.store then
      match db.row with
      | none => .error (.exit 255)
      | some row => do
        let (srcpasword, target) ← copyRow row
        return (comparePasswords sys authctxt pw password srcpasword, { process with target })
    else .ok (comparePasswords sys authctxt pw password process.stale, process)
  else .ok (comparePasswords sys authctxt pw password process.stale, process)

def checkExpiry (process : Process) (authctxt : Authctxt) : Authctxt :=
  { authctxt with
    forcePwchange := authctxt.forcePwchange || (!process.expireChecked && sys.shadowPwexpired) }

def authPassword (process : Process) (authctxt : Authctxt) (password : Bytes) :
    Except Stop (Bool × Authctxt × Process) :=
  if 1024 < password.length then .ok (false, authctxt, process)
  else match authctxt.pw with
    | none => .error .crash
    | some pw =>
      let ok := authctxt.valid && !(pw.uid == 0 && options.permitRootLogin != .yes)
      if password = [] ∧ options.permitEmptyPasswd = false then .ok (false, authctxt, process)
      else do
        let authctxt := checkExpiry sys process authctxt
        let (result, process) ← sysAuthPasswd sys db { process with expireChecked := true }
          authctxt pw password
        let process := { process with
          forwardingDisabled := process.forwardingDisabled || authctxt.forcePwchange }
        return (result && ok, authctxt, process)

/-- The reply of the monitor to a password request: the string of the request
is read as a C string. -/
def mmAnswerAuthpassword (process : Process) (authctxt : Authctxt) (passwd : Bytes) :
    Except Stop (Bool × Authctxt × Process) :=
  if options.passwordAuthentication then
    authPassword sys options db process authctxt (cstr passwd)
  else .ok (false, authctxt, process)

/-! What a candidate password is accepted for. -/

/-- The account itself accepts: it has no password and none is given, or the
candidate hashes to the stored hash. -/
def AccountAccepts (pw : Passwd) (password : Bytes) : Prop :=
  sys.shadowPw pw = [] ∧ password = [] ∨
    sys.xcrypt password (saltOf true (sys.shadowPw pw)) = some (sys.shadowPw pw)

/-- A row fetched by this call carries the candidate as its source password. -/
def RowAccepts (sql password : Bytes) : Prop :=
  ∃ row field, db.fetched sql = some row ∧ row 0 = some field ∧ cstr field = password

/-- The checks that stand before and beside the comparison. -/
def gate (authctxt : Authctxt) (pw : Passwd) (password : Bytes) : Bool :=
  password.length ≤ 1024 && authctxt.valid && !(pw.uid == 0 && options.permitRootLogin != .yes) &&
    !(decide (password = []) && !options.permitEmptyPasswd)

/-- The lookup fails in a way that lets the candidate in: no client handle, a
refused statement, or no result while the unwritten array happens to hold the
candidate. -/
def failureAccepts (process : Process) (pw : Passwd) (password : Bytes) : Bool :=
  !db.init || (db.connect && !db.query process.getQuery) || ((!db.connect || !db.store) &&
      (sys.xcrypt password (saltOf true (sys.shadowPw pw))).isSome && password = process.stale)

variable {password : Bytes} {authctxt : Authctxt} {pw : Passwd} {process : Process}

lemma comparePasswords_eq_true (hv : authctxt.valid = true) {srcpasword : Bytes} :
    comparePasswords sys authctxt pw password srcpasword = true ↔ AccountAccepts sys pw password ∨
      (sys.xcrypt password (saltOf true (sys.shadowPw pw))).isSome = true ∧ password = srcpasword := by
  unfold comparePasswords AccountAccepts
  simp only [hv, if_true]
  by_cases he : sys.shadowPw pw = [] ∧ password = []
  · simp [he]
  · rw [if_neg he]
    cases hCrypt : sys.xcrypt password (saltOf true (sys.shadowPw pw)) with
    | none => simp [he]
    | some encrypted => simp [he]

lemma strcpy_eq_ok {size : Nat} {column : Option Bytes} {text : Bytes}
    (h : strcpy size column = .ok text) : ∃ field, column = some field ∧ cstr field = text := by
  unfold strcpy at h
  cases column with
  | none => cases h
  | some field =>
    dsimp only at h
    split at h
    · cases h
      exact ⟨field, rfl, rfl⟩
    · cases h

lemma copyRow_eq_ok {row : Row} {srcpasword : Bytes} {target : Target}
    (h : copyRow row = .ok (srcpasword, target)) : ∃ field, row 0 = some field ∧ cstr field = srcpasword := by
  obtain ⟨copied, hf, h⟩ := bind_eq_ok.1 h
  obtain ⟨field, hField, rfl⟩ := strcpy_eq_ok hf
  obtain ⟨dstip, _, h⟩ := bind_eq_ok.1 h
  obtain ⟨dstPort, _, h⟩ := bind_eq_ok.1 h
  obtain ⟨dstname, _, h⟩ := bind_eq_ok.1 h
  obtain ⟨dstpassword, _, h⟩ := bind_eq_ok.1 h
  cases h
  exact ⟨field, hField, rfl⟩

/-- `sys_auth_passwd` of a valid account succeeds because the account accepts,
because a fetched row does, or because of a failure of the lookup. -/
lemma sysAuthPasswd_true {process' : Process} (hv : authctxt.valid = true)
    (h : sysAuthPasswd sys db process authctxt pw password = .ok (true, process')) :
    AccountAccepts sys pw password ∨ RowAccepts db process.getQuery password ∨
      failureAccepts sys db process pw password = true := by
  -- Without a result the comparison is made with whatever the array holds.
  have hu (hm : (!db.connect || !db.store) = true)
    (hCompare : comparePasswords sys authctxt pw password process.stale = true) :
    AccountAccepts sys pw password ∨ RowAccepts db process.getQuery password ∨
      failureAccepts sys db process pw password = true := by
    rcases (comparePasswords_eq_true sys hv).1 hCompare with ha | ⟨hCrypt, hStale⟩
    · exact .inl ha
    · refine .inr (.inr ?_)
      simp [failureAccepts, hm, hCrypt, ← hStale]
  unfold sysAuthPasswd at h
  cases hi : db.init with
  | false => exact .inr (.inr (by simp [failureAccepts, hi]))
  | true =>
  cases hc : db.connect with
  | false =>
    simp only [hi, hc, Bool.not_true, false_eq_true, if_false, Except.ok.injEq, Prod.mk.injEq] at h
    exact hu (by simp [hc]) h.1
  | true =>
  cases hq : db.query process.getQuery with
  | false => exact .inr (.inr (by simp [failureAccepts, hc, hq]))
  | true =>
  cases hs : db.store with
  | false =>
    simp only [hi, hc, hq, hs, Bool.not_true, false_eq_true, if_false,
      if_true, Except.ok.injEq, Prod.mk.injEq] at h
    exact hu (by simp [hs]) h.1
  | true =>
    simp only [hi, hc, hq, hs, Bool.not_true, false_eq_true, if_false, if_true] at h
    cases hRow : db.row with
    | none =>
      rw [hRow] at h
      cases h
    | some row =>
      rw [hRow] at h
      obtain ⟨⟨srcpasword, target⟩, hCopy, hRes⟩ := bind_eq_ok.1 h
      simp only [pure, Except.pure, Except.ok.injEq, Prod.mk.injEq] at hRes
      obtain ⟨field, hf, rfl⟩ := copyRow_eq_ok hCopy
      rcases (comparePasswords_eq_true sys hv).1 hRes.1 with ha | ⟨_, hSame⟩
      · exact .inl ha
      · refine .inr (.inl ⟨row, field, ?_, hf, hSame.symm⟩)
        simp [Answers.fetched, hi, hc, hq, hs, hRow]

lemma sysAuthPasswd_of_failureAccepts (hv : authctxt.valid = true)
    (h : failureAccepts sys db process pw password = true) :
    sysAuthPasswd sys db process authctxt pw password = .ok (true, process) := by
  have hu (hs : (sys.xcrypt password (saltOf true (sys.shadowPw pw))).isSome = true ∧
    password = process.stale) :
    comparePasswords sys authctxt pw password process.stale = true :=
    (comparePasswords_eq_true sys hv).2 (.inr hs)
  unfold sysAuthPasswd
  simp only [failureAccepts, Bool.or_eq_true, and_eq_true, Bool.not_eq_true', decide_eq_true_eq] at h
  cases hi : db.init with
  | false => rfl
  | true =>
  cases hc : db.connect with
  | false =>
    have hs := h.resolve_left (by simp [hi, hc])
    simp [hu ⟨hs.1.2, hs.2⟩]
  | true =>
  cases hq : db.query process.getQuery with
  | false => rfl
  | true =>
    have hs := h.resolve_left (by simp [hi, hq])
    have hStore : db.store = false := by simpa [hc] using hs.1.1
    simp [hStore, hu ⟨hs.1.2, hs.2⟩]

lemma not_rowAccepts_of_failureAccepts (h : failureAccepts sys db process pw password = true) :
    ¬ RowAccepts db process.getQuery password := by
  rintro ⟨row, field, hf, _⟩
  unfold Answers.fetched at hf
  split at hf
  · rename_i hAll
    simp only [and_eq_true] at hAll
    simp [failureAccepts, hAll] at h
  · cases hf

lemma authPassword_true_iff : (∃ authctxt' process',
      authPassword sys options db process authctxt password = .ok (true, authctxt', process')) ↔
    ∃ pw, authctxt.pw = some pw ∧ gate options authctxt pw password = true ∧
      ∃ process', sysAuthPasswd sys db { process with expireChecked := true }
        (checkExpiry sys process authctxt) pw password = .ok (true, process') := by
  constructor
  · rintro ⟨authctxt', process', h⟩
    unfold authPassword at h
    split at h
    · cases h
    rename_i hLen
    cases hPw : authctxt.pw with
    | none =>
      rw [hPw] at h
      cases h
    | some pw =>
      rw [hPw] at h
      dsimp only at h
      split at h
      · cases h
      rename_i he
      obtain ⟨⟨result, after⟩, hSys, hRes⟩ := bind_eq_ok.1 h
      simp only [pure, Except.pure, Except.ok.injEq, Prod.mk.injEq, and_eq_true] at hRes
      obtain ⟨⟨rfl, hOk⟩, _⟩ := hRes
      refine ⟨pw, rfl, ?_, after, hSys⟩
      simp only [gate, and_eq_true, decide_eq_true_eq]
      exact ⟨⟨⟨by omega, hOk.1⟩, hOk.2⟩, by simpa [imp_iff_not_or] using he⟩
  · rintro ⟨pw, hPw, hg, after, hSys⟩
    simp only [gate, and_eq_true, decide_eq_true_eq] at hg
    obtain ⟨⟨⟨hLen, hv⟩, hr⟩, he⟩ := hg
    have hs : ¬ 1024 < password.length := by omega
    have hGiven : ¬ (password = [] ∧ options.permitEmptyPasswd = false) := by simpa [imp_iff_not_or] using he
    unfold authPassword
    simp only [hs, hPw, hGiven, if_false, hv, hr, hSys]
    exact ⟨_, _, rfl⟩

/-- Success means that the account or a fetched row accepts the candidate. -/
def FailsClosed (process : Process) (authctxt : Authctxt) (password : Bytes) : Prop :=
  ∀ authctxt' process',
    authPassword sys options db process authctxt password = .ok (true, authctxt', process') →
    ∃ pw, authctxt.pw = some pw ∧
      (AccountAccepts sys pw password ∨ RowAccepts db process.getQuery password)

/-- Password authentication fails closed exactly when, past the gate, none of
the accepting failures meets a candidate that the account itself refuses. -/
theorem authPassword_failsClosed_iff (process : Process) (authctxt : Authctxt) (password : Bytes) :
    FailsClosed sys options db process authctxt password ↔
      ∀ pw, authctxt.pw = some pw → gate options authctxt pw password = true →
        failureAccepts sys db process pw password = true → AccountAccepts sys pw password := by
  constructor
  · intro hClosed pw hPw hGate hFailure
    have hValid : authctxt.valid = true := by
      simp only [gate, and_eq_true] at hGate
      exact hGate.1.1.2
    obtain ⟨authctxt', process', hSuccess⟩ := (authPassword_true_iff sys options db).2
      ⟨pw, hPw, hGate, _, sysAuthPasswd_of_failureAccepts sys db hValid hFailure⟩
    obtain ⟨pw', hPw', hAccepts⟩ := hClosed authctxt' process' hSuccess
    rw [hPw, Option.some.injEq] at hPw'
    rw [← hPw'] at hAccepts
    exact hAccepts.resolve_right (not_rowAccepts_of_failureAccepts sys db hFailure)
  · intro hFailures authctxt' process' hSuccess
    obtain ⟨pw, hPw, hGate, _, hSys⟩ :=
      (authPassword_true_iff sys options db).1 ⟨authctxt', process', hSuccess⟩
    have hValid : authctxt.valid = true := by
      simp only [gate, and_eq_true] at hGate
      exact hGate.1.1.2
    refine ⟨pw, hPw, ?_⟩
    rcases sysAuthPasswd_true sys db hValid hSys with hAccount | hRow | hFailure
    · exact .inl hAccount
    · exact .inr hRow
    · exact .inl (hFailures pw hPw hGate hFailure)

/-! An account whose hash no candidate produces, and a client library that
runs out of memory. -/

def lockedSystem : System := ⟨fun _ => text "$1$abc$hash", false, fun password _ => some password⟩

def defaultOptions : Options := ⟨.noPasswd, false, true⟩

def noClient : Answers := ⟨false, false, fun _ => false, false, none⟩

def aliceProcess : Process :=
  ⟨text "alice--3", text "SELECT", ⟨[], [], [], []⟩, false, false, []⟩

def aliceContext : Authctxt := ⟨true, 1, some (text "alice"), none, some ⟨1000, text "x"⟩, false⟩

/-- When `mysql_init` fails, a wrong password is accepted. -/
theorem authPassword_open_without_client :
    ¬ FailsClosed lockedSystem defaultOptions noClient aliceProcess aliceContext (text "guess") := by
  intro hClosed
  obtain ⟨pw, hPw, hAccepts⟩ := hClosed _ _ rfl
  cases hPw
  rcases hAccepts with (hEmpty | hHash) | ⟨row, field, hFetched, _⟩
  · exact absurd hEmpty.2 (by decide)
  · exact absurd hHash (by decide)
  · cases hFetched

end Auth
