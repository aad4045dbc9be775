import Sshfortress.Auth.Password

/-! The end of `do_child`: the command of a session is run on the target by a
second `ssh`, and afterwards written to the audit. The statement is made by
splicing the command as it is, and only for some results of the run. -/
namespace SessionExec

open Base Base.Mysql Auth List

inductive Ended where
  | exited (status : Fin 256)
  | signaled
  deriving DecidableEq

/-- One execution of `runprogram`: the terminal or the child cannot be set up,
or the loop makes some rounds. In each round `handleoutput` may have been
called, and its result is given; in the last one the child is found to have
ended. -/
inductive ProgramRun where
  | setupFailed
  | ran (rounds : List (Option Int)) (ended : Ended)
  deriving DecidableEq

/-- Once `handleoutput` has asked to terminate it is not called again. -/
def terminateAfter (rounds : List (Option Int)) : Int :=
  rounds.foldl (fun terminate output => if terminate = 0 then output.getD 0 else terminate) 0

def returnRuntimeError : Int := 3

def runprogram : ProgramRun → Int
  | .setupFailed => returnRuntimeError
  | .ran rounds ended =>
    if 0 < terminateAfter rounds then terminateAfter rounds
    else match ended with
      | .exited status => status.val
      | .signaled => 255

/-- What `do_child` reads of the configuration and of the process. The name of
the audited user is a fixed array, which bounds its length. -/
structure Config where
  subsystemArgs : List Bytes
  target : Target
  audituser : Bytes
  audituserFits : audituser.length < 256
  remoteIp : Bytes
  compat20 : Bool
  sshtype : Bytes
  sftpPid : Nat

/-- What the system answers. `home` is the output of the command that asks the
target for the home directory. -/
structure World where
  home : Bytes
  (mkdir chdir : Bool)
  sftpServer : Int
  tryConnect : Bool
  run : ProgramRun
  (mysqlInit mysqlConnect : Bool)

inductive Action where
  | popen (command : Bytes)
  | mkdir (path : Bytes)
  | removeLogs
  | sshSystem (port dstname dstpassword dstip mount : Bytes)
  | chdir (path : Bytes)
  | chroot (path : Bytes)
  | sftpServerMain
  | system (command : Bytes)
  | runprogram (args : List Bytes)
  | query (sql : Bytes)
  deriving DecidableEq

variable (cfg : Config) (w : World)

/-- The subsystem: mount the target and serve it over SFTP. -/
def runSubsystem : List Action × Stop :=
  let t := cfg.target
  let sftpPath := snprintf 2048 (text "ssh -z'" ++ t.dstpassword ++ text "' -p" ++ t.dstPort ++
    text "  " ++ t.dstname ++ text "@" ++ t.dstip ++ text " 'echo $HOME'")
  let tmpfile := snprintf 256 (text "/var/tmp/" ++ decimal cfg.sftpPid)
  let sftpchdir := snprintf 512 (tmpfile ++ (cstr (w.home.take 256)).dropLast)
  let start := [.popen sftpPath, .mkdir tmpfile]
  if !w.mkdir then (start, .exit 255)
  else
    let mount := [.removeLogs, .sshSystem t.dstPort t.dstname t.dstpassword t.dstip tmpfile,
      .chdir sftpchdir]
    let fallback := if w.chdir then [] else [.chdir tmpfile]
    (start ++ mount ++ fallback ++ [.chroot tmpfile, .sftpServerMain], .exit w.sftpServer)

/-- `ssh-copy-id` sends a script that adds a key; it is recognised by these
words. -/
def isCopyId (command : Bytes) : Bool :=
  contains command (text "cat") && contains command (text ">>") &&
    contains command (text ".ssh/authorized_keys") && contains command (text "restorecon") &&
    contains command (text "077") && contains command (text "umask")

def addKey : Bytes :=
  text ("cat >> .ssh/authorized_keys || exit 1 ; if type restorecon >/dev/null 2>&1 ; " ++
    "then restorecon -F .ssh .ssh/authorized_keys ; fi")

def sshArgs (command : Option Bytes) : List Bytes :=
  [text "ssh", text "-p" ++ cfg.target.dstPort, cfg.target.dstname ++ text "@" ++ cfg.target.dstip] ++
    command.toList

def loginfailedInsert : Bytes :=
  text "INSERT INTO `loginfailed_day` VALUES (null, '" ++ cfg.remoteIp ++ text "', '" ++
    (if cfg.compat20 then text "ssh2" else text "ssh1") ++ text "', '" ++ cfg.audituser ++
    text "', '2', NOW())"

def commandsInsert (command : Bytes) : Bytes :=
  snprintf 4096 (text "INSERT INTO `commands` VALUES (null, '" ++ cfg.audituser ++
    text "', NOW(), \"" ++ command ++ text "\", '0', '0');")

def audits (f : Int) : Bool := f = 0 || f = 255 || f = 127

/-- The statements submitted after the run. A missing client handle, and a
missing connection when there is something to submit, are used all the same. -/
def auditExec (command : Option Bytes) : Except Stop (List Action) :=
  if audits (runprogram w.run) then
    if !w.mysqlInit then .error .crash
    else match command with
      | none => .ok []
      | some command =>
        if w.mysqlConnect then
          .ok [.query (commandsInsert cfg command), .query (loginfailedInsert cfg)]
        else .error .crash
  else .ok []

def keepsLogs : Bool :=
  cfg.sshtype = text "shell" || cfg.sshtype = text "window-change" ||
    cfg.sshtype = text "winadj@putty.projects.tartarus.org"

/-- Run on the target, write to the audit, leave. -/
def runOnTarget (command : Option Bytes) : List Action × Stop :=
  let prepared := if (command.map isCopyId).getD false then [.system addKey] else []
  if !w.tryConnect then (prepared, .exit 255)
  else
    let ran := prepared ++ [.runprogram (sshArgs cfg command)]
    match auditExec cfg w command with
    | .error reason => (ran, reason)
    | .ok queries => (ran ++ queries ++ (if keepsLogs cfg then [] else [.removeLogs]), .exit 255)

/-- The end of `do_child`. Any command is compared with the last configured
subsystem, and there must be one. -/
def doChild (command : Option Bytes) : List Action × Stop :=
  match command with
  | none => runOnTarget cfg w none
  | some command =>
    match cfg.subsystemArgs.getLast? with
    | none => ([], .crash)
    | some subsystem =>
      if command = subsystem then runSubsystem cfg w else runOnTarget cfg w (some command)

/-! What the audit should hold: one statement that stores the command. -/

/-- The user and the command that a statement stores in `commands`, as the
database reads its literals. -/
def commandsRow (sql : Bytes) : Option (Bytes × Bytes) := do
  let s ← sql.dropPrefix? (text "INSERT INTO `commands` VALUES (null, '")
  let (user, s) ← literal 39 s
  let s ← s.dropPrefix? (text ", NOW(), \"")
  let (command, s) ← literal 34 s
  if s = text ", '0', '0');" then return (user, command) else none

def Action.submitted : Action → Option Bytes
  | .query sql => some sql
  | _ => none

def commandsSubmitted (actions : List Action) : List Bytes :=
  (actions.filterMap Action.submitted).filter (text "INSERT INTO `commands`").isPrefixOf

/-- Exactly one statement inserts into `commands`, and it stores this command
for this user. -/
def StoresCommand (actions : List Action) (user command : Bytes) : Prop :=
  ∃ sql, commandsSubmitted actions = [sql] ∧ commandsRow sql = some (user, command)

lemma dropPrefix_eq_some {l p s : Bytes} : l.dropPrefix? p = some s ↔ l = p ++ s := by
  rw [dropPrefix?_eq_some_iff]
  constructor
  · rintro ⟨p', rfl, hEq⟩
    rw [eq_of_beq hEq]
  · rintro rfl
    exact ⟨p, rfl, beq_self_eq_true p⟩

def spliced (user command : Bytes) : Bytes :=
  text "INSERT INTO `commands` VALUES (null, '" ++ (user ++ 39 :: (text ", NOW(), \"" ++
    (command ++ 34 :: text ", '0', '0');")))

/-- Splicing keeps the values exactly when they are plain between their
quotes. Each literal read back is at most as long as its source, so in a
statement of this length both must be read in full. -/
lemma commandsRow_spliced (user command : Bytes) :
    commandsRow (spliced user command) = some (user, command) ↔
      plain 39 user = true ∧ plain 34 command = true := by
  constructor
  · intro h
    simp only [commandsRow, spliced, Option.bind_eq_bind, Option.bind_eq_some_iff,
      dropPrefix_eq_some, append_cancel_left_eq, Prod.exists] at h
    obtain ⟨_, rfl, user', s₁, hu, s₂, rfl, command', s₃, hCmd, hEnd⟩ := h
    split at hEnd
    case isFalse => cases hEnd
    rename_i ht
    cases hEnd
    obtain ⟨source, hSource, hUserLe, hUserSame⟩ := literal_eq_some hu
    obtain ⟨source', hs, hCommandLe, hCommandSame⟩ := literal_eq_some hCmd
    have hLen := congrArg List.length hSource
    rw [hs, ht] at hLen
    simp only [length_append, length_cons] at hLen
    obtain ⟨rfl, hUserPlain⟩ := hUserSame (by omega)
    obtain ⟨rfl, hc⟩ := hCommandSame (by omega)
    exact ⟨hUserPlain, hc⟩
  · rintro ⟨hu, hCmd⟩
    have hUserRead := literal_plain (q := 39) (by decide) hu (c := 44) (by decide)
      (text " NOW(), \"" ++ (command ++ 34 :: text ", '0', '0');"))
    have hCommandRead := literal_plain (q := 34) (by decide) hCmd (c := 44) (by decide)
      (text " '0', '0');")
    simp only [commandsRow, Option.bind_eq_bind, Option.bind_eq_some_iff, dropPrefix_eq_some, Prod.exists]
    exact ⟨_, rfl, user, _, hUserRead, _, rfl, command, _, hCommandRead, rfl⟩

lemma commandsInsert_eq_spliced {command : Bytes} (h : command.length ≤ 2000) :
    commandsInsert cfg command = spliced cfg.audituser command := by
  have hUser := cfg.audituserFits
  have hf : (text "INSERT INTO `commands` VALUES (null, '").length = 38 := by decide
  have hm : (text "', NOW(), \"").length = 11 := by decide
  have hb : (text "\", '0', '0');").length = 13 := by decide
  unfold commandsInsert
  rw [snprintf_eq_self]
  · simp only [spliced, append_assoc]
    rfl
  · simp only [length_append, hf, hm, hb]
    omega

lemma isPrefixOf_spliced (user command : Bytes) :
    (text "INSERT INTO `commands`").isPrefixOf (spliced user command) = true := by
  rw [ isPrefixOf_iff_prefix]
  exact ⟨text " VALUES (null, '" ++ _, rfl⟩

lemma isPrefixOf_loginfailedInsert :
    (text "INSERT INTO `commands`").isPrefixOf (loginfailedInsert cfg) = false := by
  rfl

/-- Of all actions, only the audit after the run can insert into `commands`. -/
lemma commandsSubmitted_runOnTarget {command : Bytes} (hr : w.tryConnect = true)
    {queries : List Action} (hq : auditExec cfg w (some command) = .ok queries) :
    commandsSubmitted (runOnTarget cfg w (some command)).1 = commandsSubmitted queries := by
  have hp : (if (Option.map isCopyId (some command)).getD false = true
    then [Action.system addKey] else []).filterMap Action.submitted = [] := by split <;> rfl
  have hl : (if keepsLogs cfg = true then [] else [Action.removeLogs]).filterMap
    Action.submitted = [] := by split <;> rfl
  unfold runOnTarget commandsSubmitted
  simp only [hr, hq, Bool.not_true, Bool.false_eq_true, if_false, filterMap_append,
    hp, hl, nil_append, append_nil]
  rfl

/-- For a command that reaches the target, with the database working, exactly
one row stores it if and only if the run gave one of the audited results and
both spliced values are plain between their quotes. -/
theorem doChild_storesCommand_iff (command subsystem : Bytes)
    (hSubsystem : cfg.subsystemArgs.getLast? = some subsystem) (hCommand : command ≠ subsystem)
    (hLength : command.length ≤ 2000) (hRuns : w.tryConnect = true)
    (hInit : w.mysqlInit = true) (hConnect : w.mysqlConnect = true) :
    StoresCommand (doChild cfg w (some command)).1 cfg.audituser command ↔
      audits (runprogram w.run) = true ∧ plain 34 command = true ∧ plain 39 cfg.audituser = true := by
  have hChild : doChild cfg w (some command) = runOnTarget cfg w (some command) := by
    simp [doChild, hSubsystem, hCommand]
  rw [hChild]
  cases hAudits : audits (runprogram w.run) with
  | false =>
    have hQueries : auditExec cfg w (some command) = .ok [] := by simp [auditExec, hAudits]
    rw [StoresCommand, commandsSubmitted_runOnTarget cfg w hRuns hQueries]
    simp [commandsSubmitted]
  | true =>
    have hQueries : auditExec cfg w (some command) =
      .ok [.query (spliced cfg.audituser command), .query (loginfailedInsert cfg)] := by
      simp [auditExec, hAudits, hInit, hConnect, commandsInsert_eq_spliced cfg hLength]
    have hSubmitted : commandsSubmitted [.query (spliced cfg.audituser command),
      .query (loginfailedInsert cfg)] = [spliced cfg.audituser command] := by
      simp [commandsSubmitted, Action.submitted, isPrefixOf_spliced, isPrefixOf_loginfailedInsert]
    rw [StoresCommand, commandsSubmitted_runOnTarget cfg w hRuns hQueries, hSubmitted]
    simp only [List.cons.injEq, and_true, exists_eq_left', commandsRow_spliced, true_and]
    exact and_comm

def aliceConfig : Config where
  subsystemArgs := [text "/usr/libexec/sftp-server"]
  target := ⟨text "10.0.0.7", text "22", text "ops", text "secret"⟩
  audituser := text "alice--3"
  audituserFits := by decide
  remoteIp := text "192.0.2.1"
  compat20 := true
  sshtype := text "exec"
  sftpPid := 4711

/-- A target that runs the command to this exit status, and a live database. -/
def exitsWith (status : Fin 256) : World :=
  ⟨[], true, true, 0, true, .ran [none] (.exited status), true, true⟩

/-- A successful plain command is stored. -/
theorem doChild_storesCommand_uptime :
    StoresCommand (doChild aliceConfig (exitsWith 0) (some (text "uptime"))).1
      aliceConfig.audituser (text "uptime") :=
  (doChild_storesCommand_iff aliceConfig (exitsWith 0) (text "uptime")
    (text "/usr/libexec/sftp-server") rfl (by decide) (by decide) rfl rfl rfl).2 (by decide)

/-- The same command is not stored when it exits with status 1. -/
theorem doChild_loses_failed_command :
    ¬ StoresCommand (doChild aliceConfig (exitsWith 1) (some (text "uptime"))).1
      aliceConfig.audituser (text "uptime") := by
  rintro ⟨sql, hSubmitted, _⟩
  have hNone : commandsSubmitted (doChild aliceConfig (exitsWith 1) (some (text "uptime"))).1 = [] := by
    decide
  rw [hNone] at hSubmitted
  cases hSubmitted

end SessionExec
