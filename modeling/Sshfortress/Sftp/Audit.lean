import Sshfortress.Sftp.ReadOnly

/-! The audit of the SFTP server: every call that changes the file system must
come after the submission, by the same handler, of a log line that names the
path and the change. A log line is cut at 1023 bytes, and the handler of
`fsetstat` submits nothing for a change of size or mode. -/
namespace Sftp

open Base Base.Wire Handler List

/-- The calls whose audit is asked for. -/
def Sys.changes : Sys → Bool
  | .write .. | .utimes .. | .futimes .. => false
  | request => request.modifies

def auditInsert (cfg : Config) (line : Bytes) : Bytes :=
  text "insert into sftpcomm values (NULL, '" ++ cfg.audituser ++ text "', '" ++ line ++ text "', NOW())"

/-- `fd` belongs to an open file of the table under this name. -/
def OpenAs (table : List Handle) (fd : Nat) (name : Bytes) : Prop :=
  ∃ h ∈ table, h.use = .file ∧ h.fd = fd ∧ h.name = name

/-- The line names the path that the call affects and the kind of change. For
a call on a descriptor the path is the one the file was opened under. -/
def Names (table : List Handle) : Sys → Bytes → Prop
  | .open name _ _, line => line = text "upload " ++ quoted name
  | .truncate name _, line => text "set " ++ quoted name ++ text " size " <+: line
  | .ftruncate fd _, line =>
    ∃ name, OpenAs table fd name ∧ text "set " ++ quoted name ++ text " size " <+: line
  | .chmod name _, line => text "chmod " ++ quoted name <+: line
  | .fchmod fd _, line => ∃ name, OpenAs table fd name ∧
      (text "chmod " ++ quoted name <+: line ∨ text "set " ++ quoted name ++ text " mode " <+: line)
  | .chown name _ _, line => text "chown " ++ quoted name <+: line
  | .fchown fd _ _, line => ∃ name, OpenAs table fd name ∧
      (text "chown " ++ quoted name <+: line ∨ text "set " ++ quoted name ++ text " owner " <+: line)
  | .unlink name, line => line = text "delete  " ++ name ∨
      ∃ other, line = oldNew "rename" name other ∨ line = oldNew "rename" other name
  | .mkdir name _, line => line = text "mkdir  " ++ quoted name
  | .rmdir name, line => line = text "rmdir " ++ quoted name
  | .link oldpath newpath, line =>
    line = oldNew "hardlink" oldpath newpath ∨ line = oldNew "rename" oldpath newpath
  | .rename oldpath newpath, line =>
    line = oldNew "rename" oldpath newpath ∨ line = oldNew "posix-rename" oldpath newpath
  | .symlink oldpath newpath, line => line = oldNew "symlink" oldpath newpath
  | _, _ => False

/-- A changing call is allowed after the submission of a line that names it. -/
def Audited (cfg : Config) (table : List Handle) (trace : Trace Sys Resp) (request : Sys) : Prop :=
  request.changes = true → ∃ line answer,
    ⟨.mysqlQuery (auditInsert cfg line), answer⟩ ∈ trace ∧ Names table request line

def fits (line : Bytes) : Bool := line.length < 1024

/-- Requests whose handler submits, in full, what the audit needs. -/
def Request.auditable (cfg : Config) (s : Server) : Request → Bool
  | .open name pflags _ => cfg.readonly && hasFlag pflags fxfWrite ||
      !(Sys.open name (flagsFromPortable pflags) 0).changes || fits (text "upload " ++ quoted name)
  | .setstat name a =>
    (!hasFlag a.flags attrSize || fits (text "set " ++ quoted name ++ text " size ")) &&
    (!hasFlag a.flags attrPermissions || fits (text "chmod " ++ quoted name)) &&
    (!hasFlag a.flags attrUidgid || fits (text "chown " ++ quoted name))
  | .fsetstat handle a =>
    let handle := if handle.length < 256 then s.handleFromString handle else none
    let name := (s.handleToName handle).getD []
    (s.handleToFd handle).isNone || !hasFlag a.flags attrSize && !hasFlag a.flags attrPermissions &&
      (!hasFlag a.flags attrUidgid || fits (text "set " ++ quoted name ++ text " owner "))
  | .remove name => fits (text "delete  " ++ name)
  | .mkdir name _ => fits (text "mkdir  " ++ quoted name)
  | .rmdir name => fits (text "rmdir " ++ quoted name)
  | .rename oldpath newpath => fits (oldNew "rename" oldpath newpath)
  | .symlink oldpath newpath => fits (oldNew "symlink" oldpath newpath)
  | .posixRename oldpath newpath => fits (oldNew "posix-rename" oldpath newpath)
  | .hardlink oldpath newpath => fits (oldNew "hardlink" oldpath newpath)
  | _ => true

variable {line : Bytes}

lemma snprintf_eq_of_fits (h : fits line = true) : snprintf 1024 line = line := by
  apply snprintf_eq_self
  simpa [fits] using h

lemma prefix_snprintf_of_fits {front rest : Bytes} (h : fits front = true) :
    front <+: snprintf 1024 (front ++ rest) := by
  apply prefix_snprintf (prefix_append _ _)
  simpa [fits] using h

lemma sftpcommInsert_eq (cfg : Config) (h : line.length < 1024) :
    sftpcommInsert cfg line = auditInsert cfg line := by
  apply snprintf_eq_self
  have hUser := cfg.audituserFits
  have hf : (text "insert into sftpcomm values (NULL, '").length = 36 := by decide
  have hm : (text "', '").length = 4 := by decide
  have hb : (text "', NOW())").length = 9 := by decide
  simp only [length_append, hf, hm, hb]
  omega

lemma sftpcommInsert_snprintf (cfg : Config) (formatted : Bytes) :
    sftpcommInsert cfg (snprintf 1024 formatted) = auditInsert cfg (snprintf 1024 formatted) := by
  apply sftpcommInsert_eq
  unfold snprintf
  rw [length_take]
  omega

section Rules

variable {cfg : Config} {table : List Handle} {α β : Type} {s : Server} {request : Sys}
  {m : SftpM α} {formatted : Bytes}

lemma Audited.after {earlier later : Trace Sys Resp} (h : Audited cfg table later request) :
    Audited cfg table (earlier ++ later) request := by
  intro hc
  obtain ⟨line, answer, hMem, hn⟩ := h hc
  exact ⟨line, answer, mem_append_right _ hMem, hn⟩

/-- Every changing call of the handler is audited within the handler. -/
def Covered (cfg : Config) (table : List Handle) (m : SftpM α) (s : Server) : Prop :=
  Meets (Audited cfg table) (fun _ _ _ => True) m s

lemma Covered.bind {f : α → SftpM β} (hm : Covered cfg table m s)
    (hf : ∀ a next, Covered cfg table (f a) next) : Covered cfg table (m >>= f) s := by
  unfold Covered
  rw [meets_bind]
  apply Meets.mono hm (fun _ _ h => h)
  intro a next trace _
  exact (hf a next).mono (fun _ _ h => h.after) fun _ _ _ h => h

lemma covered_of_only (h : Only (fun request => request.changes = false) m) : Covered cfg table m s := by
  apply h.meets
  intro trace request hq hc
  rw [hq] at hc
  cases hc

section
variable (hConnected : cfg.connected = true)
include hConnected

lemma covered_submit (h : Only (fun request => request.changes = true →
      Names table request (snprintf 1024 formatted)) m) :
    Covered cfg table (do submitAudit cfg formatted; m) s := by
  unfold Covered submitAudit
  simp only [hConnected, if_true, sys, meets_bind, meets_ask, meets_pure]
  constructor
  · intro hc
    cases hc
  intro answer
  apply h.meets
  intro later request hn hc
  rw [sftpcommInsert_snprintf]
  exact ⟨_, answer, mem_append_left _ mem_cons_self, hn hc⟩

lemma covered_submit_call (h : Names table request (snprintf 1024 formatted)) :
    Covered cfg table (do submitAudit cfg formatted; sys request) s :=
  covered_submit hConnected (.ask fun _ => h)

lemma covered_submit_status
    (h : Names table request (snprintf 1024 formatted)) (id : Nat) (status : Resp request → Status) :
    Covered cfg table (do
      submitAudit cfg formatted
      let r ← sys request
      sendStatus id (status r)) s :=
  covered_submit hConnected (Only.bind (.ask fun _ => h) fun _ => only_sendStatus _ id _)

end

lemma covered_applyAttr {a : Attrib} {bit : Nat} {status : Status} {change : SftpM (Except Errno Unit)}
    (h : hasFlag a.flags bit = true → Covered cfg table change s) :
    Covered cfg table (applyAttr a bit status change) s := by
  unfold applyAttr
  split
  · rename_i hf
    exact (h hf).bind fun _ _ => trivial
  · trivial

end Rules

lemma changes_of_inspects {request : Sys} (h : request.Inspects) : request.changes = false := by
  cases request with
  | write fd data => rfl
  | utimes name atime mtime => rfl
  | futimes fd atime mtime => rfl
  | _ => exact h

lemma openAs_handleToFd {s : Server} {handle : Option Nat} {fd : Nat} (h : s.handleToFd handle = some fd) :
    OpenAs s.handles fd ((s.handleToName handle).getD []) := by
  simp only [Server.handleToFd, Option.bind_eq_some_iff, Option.map_eq_some_iff] at h
  obtain ⟨i, rfl, slot, hf, rfl⟩ := h
  obtain ⟨hInt, hs, hUse⟩ := handleIsOk_eq_some.1 hf
  have hDir : s.handleIsOk i .dir = none := by
    rw [Option.eq_none_iff_forall_ne_some]
    intro other hOther
    obtain ⟨_, hSame, ho⟩ := handleIsOk_eq_some.1 hOther
    rw [hs, Option.some.injEq] at hSame
    rw [← hSame, hUse] at ho
    cases ho
  simp only [Server.handleToName, Option.bind_some, hDir, hf, Option.orElse_none,
    Option.map_some, Option.getD_some]
  exact ⟨slot, mem_of_getElem? hs, hUse, rfl, rfl⟩

lemma stringFromPortable_ne_read {name : Bytes} {pflags mode : Nat}
    (h : (Sys.open name (flagsFromPortable pflags) mode).changes = true) :
    stringFromPortable pflags ≠ text "READ" := by
  revert h
  simp only [Sys.changes, Sys.modifies]
  unfold flagsFromPortable stringFromPortable
  generalize hasFlag pflags fxfRead = read
  generalize hasFlag pflags fxfWrite = write
  generalize hasFlag pflags fxfAppend = append
  generalize hasFlag pflags fxfCreat = creat
  generalize hasFlag pflags fxfTrunc = trunc
  generalize hasFlag pflags fxfExcl = excl
  revert read write append creat trunc excl
  decide

section Handlers

variable {cfg : Config} {s : Server} (hConnected : cfg.connected = true) (id : Nat)

include hConnected

variable {a : Attrib} {name : Bytes}

lemma processSetstat_covered (h : (Request.setstat name a).auditable cfg s = true) :
    Covered cfg s.handles (processSetstat cfg id name a) s := by
  simp only [Request.auditable, Bool.and_eq_true, Bool.or_eq_true, Bool.not_eq_true'] at h
  obtain ⟨⟨hs, hm⟩, ho⟩ := h
  refine Covered.bind (covered_applyAttr fun hf => ?_) fun status s₁ => ?_
  · apply covered_submit_call hConnected
    exact prefix_snprintf_of_fits (hs.resolve_left (by simp [hf]))
  refine Covered.bind (covered_applyAttr fun hf => ?_) fun status s₂ => ?_
  · apply covered_submit_call hConnected
    rw [append_assoc]
    exact prefix_snprintf_of_fits (hm.resolve_left (by simp [hf]))
  refine Covered.bind (covered_applyAttr fun _ => covered_of_only (.ask rfl)) fun status s₃ => ?_
  refine Covered.bind (covered_applyAttr fun hf => ?_) fun status s₄ => ?_
  · apply covered_submit_call hConnected
    simp only [append_assoc (text "chown " ++ quoted name)]
    exact prefix_snprintf_of_fits (ho.resolve_left (by simp [hf]))
  exact covered_of_only (only_sendStatus _ id _)

lemma processFsetstat_covered {handle : Bytes} (h : (Request.fsetstat handle a).auditable cfg s = true) :
    Covered cfg s.handles (processFsetstat cfg id handle a) s := by
  unfold Covered processFsetstat getHandle
  simp only [meets_bind, meets_get, meets_pure, nil_append]
  simp only [Request.auditable, Bool.or_eq_true, Bool.and_eq_true, Bool.not_eq_true',
    Option.isNone_iff_eq_none] at h
  generalize (if handle.length < 256 then s.handleFromString handle else none) = found at h ⊢
  cases hFd : s.handleToFd found with
  | none => exact covered_of_only (only_sendStatus _ id _)
  | some fd =>
    obtain ⟨⟨hs, hm⟩, ho⟩ := h.resolve_left (by simp [hFd])
    refine Covered.bind (covered_applyAttr fun hf => ?_) fun status s₁ => ?_
    · rw [hs] at hf
      cases hf
    refine Covered.bind (covered_applyAttr fun hf => ?_) fun status s₂ => ?_
    · rw [hm] at hf
      cases hf
    refine Covered.bind (covered_applyAttr fun _ => covered_of_only (.ask rfl))
      fun status s₃ => ?_
    refine Covered.bind (covered_applyAttr fun hf => ?_) fun status s₄ => ?_
    · apply covered_submit_call hConnected
      refine ⟨_, openAs_handleToFd hFd, .inr ?_⟩
      simp only [append_assoc (text "set " ++ quoted _ ++ text " owner ")]
      exact prefix_snprintf_of_fits (ho.resolve_left (by simp [hf]))
    exact covered_of_only (only_sendStatus _ id _)

lemma processOpen_covered {pflags : Nat} (h : (Request.open name pflags a).auditable cfg s = true) :
    Covered cfg s.handles (processOpen cfg id name pflags a) s := by
  simp only [Request.auditable, Bool.or_eq_true, Bool.and_eq_true, Bool.not_eq_true'] at h
  rcases h with (⟨hr, hw⟩ | hq) | hf
  · apply covered_of_only
    refine Only.bind (calm_submitAudit cfg _ fun _ => rfl).within fun _ => ?_
    rw [flagsFromPortable_write hw, hr]
    exact only_sendStatus _ id _
  · apply covered_of_only
    refine Only.bind (calm_submitAudit cfg _ fun _ => rfl).within fun _ => ?_
    refine Only.ite (only_sendStatus _ id _) ?_
    exact Only.bind (.ask hq) fun r => (openResult_serves r fun _ => rfl).within
  · apply covered_submit hConnected
    refine Only.ite (only_sendStatus _ id _) ?_
    refine Only.bind (.ask fun hc => ?_) fun r => (openResult_serves r fun _ => nofun).within
    rw [if_neg (stringFromPortable_ne_read hc)]
    exact snprintf_eq_of_fits hf

lemma processRename_covered {oldpath newpath : Bytes} (h : fits (oldNew "rename" oldpath newpath) = true) :
    Covered cfg s.handles (processRename cfg id oldpath newpath) s := by
  obtain ⟨renames, hEq, hs⟩ := processRename_eq cfg id oldpath newpath
  rw [hEq]
  apply covered_submit hConnected
  rw [snprintf_eq_of_fits h]
  refine Only.bind (.ask nofun) fun sb => (hs _ nofun ?_ ?_ ?_ ?_ sb).within
  · exact fun _ => .inl rfl
  · exact fun _ => .inr rfl
  · exact fun _ => .inr ⟨newpath, .inl rfl⟩
  · exact fun _ => .inr ⟨oldpath, .inr rfl⟩

/-- Every handler covers its own changes when its request is auditable. -/
lemma perform_covered {request : Request} (h : request.auditable cfg s = true) :
    Covered cfg s.handles (perform cfg id request) s := by
  cases request with
  | «open» name pflags a => exact processOpen_covered hConnected id h
  | write handle off data =>
    exact covered_of_only (processWrite_serves handle off data (fun _ => rfl) fun _ => rfl).within
  | setstat name a => exact processSetstat_covered hConnected id h
  | fsetstat handle a => exact processFsetstat_covered hConnected id h
  | remove name =>
    apply covered_submit_status hConnected
    exact .inl (snprintf_eq_of_fits h)
  | mkdir name a =>
    apply covered_submit_status hConnected
    exact snprintf_eq_of_fits h
  | rmdir name =>
    apply covered_submit_status hConnected
    exact snprintf_eq_of_fits h
  | rename oldpath newpath => exact processRename_covered hConnected id h
  | symlink oldpath newpath =>
    apply covered_submit_status hConnected
    exact snprintf_eq_of_fits h
  | posixRename oldpath newpath =>
    apply covered_submit_status hConnected
    exact .inr (snprintf_eq_of_fits h)
  | hardlink oldpath newpath =>
    apply covered_submit_status hConnected
    exact .inl (snprintf_eq_of_fits h)
  | fsync handle =>
    refine covered_of_only (Serves.withFd handle .noSuchFile (fun _ _ fd => _) ?_ fun _ _ fd => ?_).within
    · exact fun _ _ _ _ => rfl
    · exact .ask rfl fun r => .sendStatus _
  | close _ | read _ _ _ | lstat _ | fstat _ | opendir _ | readdir _ | realpath _ | stat _
  | readlink _ | statvfs _ | fstatvfs _ =>
    refine covered_of_only (Only.mono (perform_inspects id cfg rfl ?_) fun _ => changes_of_inspects)
    intro name pflags a ho
    cases ho

lemma turn_covered {input : Bytes} (h : ∀ request ∈ pendingRequest cfg (s.receive input),
    request.auditable cfg (s.receive input) = true) :
    Prog.Meets (Audited cfg s.handles) (fun _ _ => True) (turn cfg input s) := by
  unfold turn
  rw [Prog.meets_bind]
  refine meets_process (s := s.receive input) ?_
  intro request id rest hp _
  exact perform_covered (s := { s.receive input with iqueue := rest }) hConnected id (h request hp)

end Handlers

/-- In every turn of the run each changing call comes after the submission, in
the same turn, of a line that names it. -/
def AuditedRun (cfg : Config) (run : List (Bytes × Server × Trace Sys Resp)) : Prop :=
  ∀ entry ∈ run, ∀ before event after, entry.2.2 = before ++ event :: after →
    Audited cfg entry.2.1.handles before event.request

/-- With a live connection every run whose pending requests are auditable is
audited. -/
theorem serve_audited (cfg : Config) (hConnected : cfg.connected = true) (env : Env Sys Resp)
    (inputs : List Bytes) (start : Server) (hAuditable : ∀ entry ∈ Prog.serve (turn cfg) env inputs start,
      ∀ request ∈ pendingRequest cfg (entry.2.1.receive entry.1),
        request.auditable cfg (entry.2.1.receive entry.1) = true) :
    AuditedRun cfg (Prog.serve (turn cfg) env inputs start) := by
  intro entry hEntry before event after hTrace
  exact Prog.serve_calls (fun _ => True) (fun input s => ∀ request ∈ pendingRequest cfg (s.receive input),
      request.auditable cfg (s.receive input) = true)
    (fun _ s => Audited cfg s.handles)
    (fun _ _ _ h => turn_covered hConnected h) env inputs start trivial hAuditable
    entry hEntry before event after hTrace

def auditedConfig : Config := ⟨false, none, none, text "alice", readonlyConfig.audituserFits, true⟩

def fsetstatMessage (handle perm : Nat) : Bytes :=
  putString ([10] ++ putU32 8 ++ putString (putU32 handle) ++
    encodeAttrib { attribClear with flags := attrPermissions, perm })

/-- An upload to a new file is named before the file is created. -/
theorem serve_audited_upload :
    AuditedRun auditedConfig (Prog.serve (turn auditedConfig) (fun _ => Sys.succeed)
      [initMessage, openMessage (text "/tmp/new") (fxfWrite ||| fxfCreat)] Server.initial) :=
  serve_audited auditedConfig rfl _ _ _ (by decide)

/-- Changing the mode of a file through its handle submits nothing. -/
theorem serve_fchmod_unaudited :
    ¬ AuditedRun auditedConfig (Prog.serve (turn auditedConfig) (fun _ => Sys.succeed)
      [initMessage, openMessage (text "/etc/motd") fxfRead, fsetstatMessage 0 0o777] Server.initial) := by
  intro h
  have hLast : ∃ entry ∈ Prog.serve (turn auditedConfig) (fun _ => Sys.succeed)
    [initMessage, openMessage (text "/etc/motd") fxfRead, fsetstatMessage 0 0o777]
    Server.initial, entry.2.2 = [] ++ ⟨.fchmod 3 0o777, .ok ()⟩ :: [] := by
    refine ⟨_, mem_of_getElem? (i := 2) rfl, rfl⟩
  obtain ⟨entry, hMem, hTrace⟩ := hLast
  obtain ⟨line, answer, hSubmitted, _⟩ := h entry hMem [] _ [] hTrace rfl
  cases hSubmitted

end Sftp
