import Sshfortress.Sftp.Basic

/-! The request handlers of the SFTP server and the loop body that finds them.
Every handler of the source first reads its arguments, and ends the process
when they are malformed; the arguments are read here as one `Request`, and the
handler proper starts from it. -/
namespace Sftp

open Base Base.Wire

inductive Request where
  | open (name : Bytes) (pflags : Nat) (a : Attrib)
  | close (handle : Bytes)
  | read (handle : Bytes) (off len : Nat)
  | write (handle : Bytes) (off : Nat) (data : Bytes)
  | lstat (name : Bytes)
  | fstat (handle : Bytes)
  | setstat (name : Bytes) (a : Attrib)
  | fsetstat (handle : Bytes) (a : Attrib)
  | opendir (path : Bytes)
  | readdir (handle : Bytes)
  | remove (name : Bytes)
  | mkdir (name : Bytes) (a : Attrib)
  | rmdir (name : Bytes)
  | realpath (path : Bytes)
  | stat (name : Bytes)
  | rename (oldpath newpath : Bytes)
  | readlink (path : Bytes)
  | symlink (oldpath newpath : Bytes)
  | posixRename (oldpath newpath : Bytes)
  | statvfs (path : Bytes)
  | fstatvfs (handle : Bytes)
  | hardlink (oldpath newpath : Bytes)
  | fsync (handle : Bytes)
  deriving DecidableEq

def sys (request : Sys) : SftpM (Resp request) := Handler.ask request

/-! Reading the queue and sending replies. -/

/-- Read from the front of `iqueue`; a short or malformed field is fatal. -/
def getArg {α : Type} (getter : Getter α) : SftpM α := do
  let s ← get
  match getter s.iqueue with
  | none => Handler.stop .fatal
  | some (v, rest) =>
    set { s with iqueue := rest }
    return v

def sendMsg (msg : Bytes) : SftpM Unit :=
  modify fun s => { s with oqueue := s.oqueue ++ putString msg }

def sendStatus (id : Nat) (status : Status) : SftpM Unit := do
  let s ← get
  let tail := if s.version ≥ 3 then putString (statusToMessage status) ++ putString [] else []
  sendMsg ([101] ++ putU32 id ++ putU32 status.code ++ tail)

def sendDataOrHandle (type : UInt8) (id : Nat) (data : Bytes) : SftpM Unit :=
  sendMsg ([type] ++ putU32 id ++ putString data)

def sendData (id : Nat) (data : Bytes) : SftpM Unit := sendDataOrHandle 103 id data

def sendHandle (id handle : Nat) : SftpM Unit := sendDataOrHandle 102 id (putU32 handle)

def sendNames (id : Nat) (stats : List (Bytes × Bytes × Attrib)) : SftpM Unit :=
  sendMsg ([104] ++ putU32 id ++ putU32 stats.length ++
    stats.flatMap fun (name, longName, a) => putString name ++ putString longName ++ encodeAttrib a)

def sendAttrib (id : Nat) (a : Attrib) : SftpM Unit :=
  sendMsg ([105] ++ putU32 id ++ encodeAttrib a)

def sendStatvfs (id : Nat) (st : StatVfs) : SftpM Unit :=
  sendMsg ([201] ++ putU32 id ++ putU64 st.bsize ++ putU64 st.frsize ++ putU64 st.blocks ++
    putU64 st.bfree ++ putU64 st.bavail ++ putU64 st.files ++ putU64 st.ffree ++
    putU64 st.favail ++ putU64 st.fsid ++
    putU64 ((if st.rdonly then 1 else 0) ||| (if st.nosuid then 2 else 0)) ++ putU64 st.namemax)

/-- `get_handle` after its string has been read: strings of 256 bytes and more
are never looked up. -/
def getHandle (handle : Bytes) : SftpM (Option Nat) := do
  let s ← get
  return if handle.length < 256 then s.handleFromString handle else none

def statusAfter (status : Status) (r : Except Errno Unit) : Status :=
  match r with
  | .ok _ => status
  | .error e => errnoToPortable e

variable (cfg : Config)

def sftpcommInsert (line : Bytes) : Bytes :=
  snprintf 3584 (text "insert into sftpcomm values (NULL, '" ++ cfg.audituser ++
    text "', '" ++ line ++ text "', NOW())")

/-- Submit a log line that was formatted into a buffer of 1024 bytes. -/
def submitAudit (formatted : Bytes) : SftpM Unit := do
  if cfg.connected then
    let _ ← sys (.mysqlQuery (sftpcommInsert cfg (snprintf 1024 formatted)))
  return

def quoted (name : Bytes) : Bytes := text "\"" ++ name ++ text "\""

/-- The line of a request on two paths: `what old "..." new "..."`. -/
def oldNew (what : String) (oldpath newpath : Bytes) : Bytes :=
  text what ++ text " old " ++ quoted oldpath ++ text " new " ++ quoted newpath

def processInit : SftpM Unit := do
  let version ← getArg getU32
  modify fun s => { s with version }
  sendMsg ([2] ++ putU32 3 ++ putString (text "posix-rename@openssh.com") ++ putString (text "1") ++
    putString (text "statvfs@openssh.com") ++ putString (text "2") ++
    putString (text "fstatvfs@openssh.com") ++ putString (text "2") ++
    putString (text "hardlink@openssh.com") ++ putString (text "1") ++
    putString (text "fsync@openssh.com") ++ putString (text "1"))

/-- The end of `processOpen`: enter the descriptor into the handle table. -/
def openResult (id : Nat) (name : Bytes) (flags : Nat) (r : Except Errno Nat) : SftpM Unit :=
  match r with
  | .error e => sendStatus id (errnoToPortable e)
  | .ok fd => do
    let s ← get
    match s.handleNew .file name fd flags 0 with
    | (none, next) =>
      set next
      let _ ← sys (.close fd)
      sendStatus id .failure
    | (some handle, next) =>
      set next
      sendHandle id handle

def processOpen (id : Nat) (name : Bytes) (pflags : Nat) (a : Attrib) : SftpM Unit := do
  let flags := flagsFromPortable pflags
  let mode := if hasFlag a.flags attrPermissions then a.perm else 0o666
  submitAudit cfg ((if stringFromPortable pflags = text "READ" then text "download "
    else text "upload ") ++ quoted name)
  -- Only the access mode is looked at; the create and truncate flags are not.
  if cfg.readonly && (flags &&& oAccmode == oWronly || flags &&& oAccmode == oRdwr) then
    sendStatus id .permissionDenied
  else
    let r : Except Errno Nat ← sys (.open name flags mode)
    openResult id name flags r

def processClose (id : Nat) (handle : Bytes) : SftpM Unit := do
  let handle ← getHandle handle
  let s ← get
  match handle with
  | none => sendStatus id .noSuchFile
  | some i =>
    match s.handleIsOk i .file, s.handleIsOk i .dir with
    | some h, _ =>
      let r : Except Errno Unit ← sys (.close h.fd)
      modify fun s => s.handleUnused i
      sendStatus id (statusAfter .ok r)
    | none, some h =>
      let r : Except Errno Unit ← sys (.closedir h.dirp)
      modify fun s => s.handleUnused i
      sendStatus id (statusAfter .ok r)
    | none, none => sendStatus id .noSuchFile

def processRead (id : Nat) (handle : Bytes) (off len : Nat) : SftpM Unit := do
  let handle ← getHandle handle
  let len := min len (64 * 1024)
  let s ← get
  match s.handleToFd handle with
  | none => sendStatus id .failure
  | some fd =>
    let seek : Except Errno Unit ← sys (.lseek fd off)
    match seek with
    | .error e => sendStatus id (errnoToPortable e)
    | .ok _ =>
      let r : Except Errno Bytes ← sys (.read fd len)
      match r with
      | .error e => sendStatus id (errnoToPortable e)
      | .ok data =>
        let buf := data.take len
        if buf = [] then sendStatus id .eof
        else
          sendData id buf
          modify fun s => s.handleUpdateRead handle buf.length

/-- A file opened for appending is written at its end, without seeking. -/
def seekForWrite (flags fd off : Nat) : SftpM (Except Errno Unit) :=
  if hasFlag flags oAppend then pure (.ok ()) else sys (.lseek fd off)

def processWrite (id : Nat) (handle : Bytes) (off : Nat) (data : Bytes) : SftpM Unit := do
  let handle ← getHandle handle
  let s ← get
  match s.handleToFd handle with
  | none => sendStatus id .failure
  | some fd =>
    let seek ← seekForWrite (s.handleToFlags handle) fd off
    match seek with
    | .error e => sendStatus id (errnoToPortable e)
    | .ok _ =>
      let r : Except Errno Nat ← sys (.write fd data)
      match r with
      | .error e => sendStatus id (errnoToPortable e)
      | .ok written =>
        if written = data.length then
          modify fun s => s.handleUpdateWrite handle written
          sendStatus id .ok
        else sendStatus id .failure

def sendStatResult (id : Nat) (r : Except Errno FileStat) : SftpM Unit :=
  match r with
  | .error e => sendStatus id (errnoToPortable e)
  | .ok st => sendAttrib id (statToAttrib st)

def processStat (id : Nat) (name : Bytes) : SftpM Unit := do
  let r : Except Errno FileStat ← sys (.stat name)
  sendStatResult id r

def processLstat (id : Nat) (name : Bytes) : SftpM Unit := do
  let r : Except Errno FileStat ← sys (.lstat name)
  sendStatResult id r

def processFstat (id : Nat) (handle : Bytes) : SftpM Unit := do
  let handle ← getHandle handle
  let s ← get
  match s.handleToFd handle with
  | none => sendStatus id .failure
  | some fd =>
    let r : Except Errno FileStat ← sys (.fstat fd)
    sendStatResult id r

/-- One attribute of a `setstat`: when the client asks for it the change is
made, and its failure replaces the status. -/
def applyAttr (a : Attrib) (bit : Nat) (status : Status) (change : SftpM (Except Errno Unit)) :
    SftpM Status :=
  if hasFlag a.flags bit then do
    let r ← change
    return statusAfter status r
  else return status

def processSetstat (id : Nat) (name : Bytes) (a : Attrib) : SftpM Unit := do
  let status ← applyAttr a attrSize .ok do
    submitAudit cfg (text "set " ++ quoted name ++ text " size " ++ decimal a.size)
    sys (.truncate name a.size)
  let status ← applyAttr a attrPermissions status do
    submitAudit cfg (text "chmod " ++ quoted name ++ text " mode " ++ zeroPadded 8 4 a.perm)
    sys (.chmod name (a.perm &&& 0o7777))
  let status ← applyAttr a attrAcmodtime status (sys (.utimes name a.atime a.mtime))
  let status ← applyAttr a attrUidgid status do
    submitAudit cfg (text "chown " ++ quoted name ++ text " owner " ++ decimal a.uid ++
      text " group " ++ decimal a.gid)
    sys (.chown name a.uid a.gid)
  sendStatus id status

/-- The sibling of `processSetstat` on an open file. Only the change of owner
is submitted to the audit; the change of size and of mode are not. -/
def processFsetstat (id : Nat) (handle : Bytes) (a : Attrib) : SftpM Unit := do
  let handle ← getHandle handle
  let s ← get
  match s.handleToFd handle with
  | none => sendStatus id .failure
  | some fd =>
    let name := (s.handleToName handle).getD []
    let status ← applyAttr a attrSize .ok (sys (.ftruncate fd a.size))
    let status ← applyAttr a attrPermissions status (sys (.fchmod fd (a.perm &&& 0o7777)))
    let status ← applyAttr a attrAcmodtime status (sys (.futimes fd a.atime a.mtime))
    let status ← applyAttr a attrUidgid status do
      submitAudit cfg (text "set " ++ quoted name ++ text " owner " ++ decimal a.uid ++
        text " group " ++ decimal a.gid)
      sys (.fchown fd a.uid a.gid)
    sendStatus id status

def processOpendir (id : Nat) (path : Bytes) : SftpM Unit := do
  let r : Except Errno Nat ← sys (.opendir path)
  match r with
  | .error e => sendStatus id (errnoToPortable e)
  | .ok dirp =>
    let s ← get
    match s.handleNew .dir path 0 0 dirp with
    | (none, next) =>
      set next
      let _ ← sys (.closedir dirp)
      sendStatus id .failure
    | (some handle, next) =>
      set next
      sendHandle id handle

/-- Collect up to `room` entries of a directory; an entry that cannot be
inspected is left out and does not count. -/
def collectStats (path : Bytes) : Nat → List Bytes → SftpM (List (Bytes × Bytes × Attrib))
  | 0, _ => return []
  | _, [] => return []
  | room + 1, name :: rest => do
    let pathname := snprintf 4096 (path ++ (if path = text "/" then [] else text "/") ++ name)
    let r : Except Errno FileStat ← sys (.lstat pathname)
    match r with
    | .error _ => collectStats path (room + 1) rest
    | .ok st =>
      let longName : Bytes ← sys (.lsFile name st)
      let others ← collectStats path room rest
      return (name, longName, statToAttrib st) :: others

def processReaddir (id : Nat) (handle : Bytes) : SftpM Unit := do
  let handle ← getHandle handle
  let s ← get
  match s.handleToDir handle, s.handleToName handle with
  | some dirp, some path =>
    let entries : List Bytes ← sys (.readdir dirp)
    let stats ← collectStats path 100 entries
    if stats = [] then sendStatus id .eof else sendNames id stats
  | _, _ => sendStatus id .failure

def processRemove (id : Nat) (name : Bytes) : SftpM Unit := do
  submitAudit cfg (text "delete  " ++ name)
  let r : Except Errno Unit ← sys (.unlink name)
  sendStatus id (statusAfter .ok r)

def processMkdir (id : Nat) (name : Bytes) (a : Attrib) : SftpM Unit := do
  let mode := if hasFlag a.flags attrPermissions then a.perm &&& 0o7777 else 0o777
  submitAudit cfg (text "mkdir  " ++ quoted name)
  let r : Except Errno Unit ← sys (.mkdir name mode)
  sendStatus id (statusAfter .ok r)

def processRmdir (id : Nat) (name : Bytes) : SftpM Unit := do
  submitAudit cfg (text "rmdir " ++ quoted name)
  let r : Except Errno Unit ← sys (.rmdir name)
  sendStatus id (statusAfter .ok r)

def sendPathResult (id : Nat) (r : Except Errno Bytes) : SftpM Unit :=
  match r with
  | .error e => sendStatus id (errnoToPortable e)
  | .ok path => sendNames id [(path, path, attribClear)]

def processRealpath (id : Nat) (path : Bytes) : SftpM Unit := do
  let r : Except Errno Bytes ← sys (.realpath (if path = [] then text "." else path))
  sendPathResult id r

/-- Rename when `newpath` does not exist. -/
def renameUnlessExists (id : Nat) (oldpath newpath : Bytes) : SftpM Unit := do
  let st : Except Errno FileStat ← sys (.stat newpath)
  match st with
  | .ok _ => sendStatus id .failure
  | .error _ =>
    let r : Except Errno Unit ← sys (.rename oldpath newpath)
    sendStatus id (statusAfter .ok r)

def processRename (id : Nat) (oldpath newpath : Bytes) : SftpM Unit := do
  submitAudit cfg (oldNew "rename" oldpath newpath)
  let sb : Except Errno FileStat ← sys (.lstat oldpath)
  match sb with
  | .error e => sendStatus id (errnoToPortable e)
  | .ok sb =>
    if sb.isRegular then
      let linked : Except Errno Unit ← sys (.link oldpath newpath)
      match linked with
      | .error e =>
        -- The file system has no links: fall back to a racy rename.
        if e = .eopnotsupp || e = .enosys || e = .exdev || e = .eperm then
          renameUnlessExists id oldpath newpath
        else sendStatus id (errnoToPortable e)
      | .ok _ =>
        let removed : Except Errno Unit ← sys (.unlink oldpath)
        match removed with
        | .error e =>
          let _ ← sys (.unlink newpath)
          sendStatus id (errnoToPortable e)
        | .ok _ => sendStatus id .ok
    else renameUnlessExists id oldpath newpath

def processReadlink (id : Nat) (path : Bytes) : SftpM Unit := do
  let r : Except Errno Bytes ← sys (.readlink path)
  sendPathResult id r

def processSymlink (id : Nat) (oldpath newpath : Bytes) : SftpM Unit := do
  submitAudit cfg (oldNew "symlink" oldpath newpath)
  let r : Except Errno Unit ← sys (.symlink oldpath newpath)
  sendStatus id (statusAfter .ok r)

def processExtendedPosixRename (id : Nat) (oldpath newpath : Bytes) : SftpM Unit := do
  submitAudit cfg (oldNew "posix-rename" oldpath newpath)
  let r : Except Errno Unit ← sys (.rename oldpath newpath)
  sendStatus id (statusAfter .ok r)

def sendStatvfsResult (id : Nat) (r : Except Errno StatVfs) : SftpM Unit :=
  match r with
  | .error e => sendStatus id (errnoToPortable e)
  | .ok st => sendStatvfs id st

def processExtendedStatvfs (id : Nat) (path : Bytes) : SftpM Unit := do
  submitAudit cfg (text "statvfs " ++ quoted path)
  let r : Except Errno StatVfs ← sys (.statvfs path)
  sendStatvfsResult id r

def processExtendedFstatvfs (id : Nat) (handle : Bytes) : SftpM Unit := do
  let handle ← getHandle handle
  let s ← get
  match s.handleToFd handle with
  | none => sendStatus id .failure
  | some fd =>
    let r : Except Errno StatVfs ← sys (.fstatvfs fd)
    sendStatvfsResult id r

def processExtendedHardlink (id : Nat) (oldpath newpath : Bytes) : SftpM Unit := do
  submitAudit cfg (oldNew "hardlink" oldpath newpath)
  let r : Except Errno Unit ← sys (.link oldpath newpath)
  sendStatus id (statusAfter .ok r)

def processExtendedFsync (id : Nat) (handle : Bytes) : SftpM Unit := do
  let handle ← getHandle handle
  let s ← get
  match s.handleToFd handle with
  | none => sendStatus id .noSuchFile
  | some fd =>
    let r : Except Errno Unit ← sys (.fsync fd)
    sendStatus id (statusAfter .ok r)

def perform (id : Nat) : Request → SftpM Unit
  | .open name pflags a => processOpen cfg id name pflags a
  | .close handle => processClose id handle
  | .read handle off len => processRead id handle off len
  | .write handle off data => processWrite id handle off data
  | .lstat name => processLstat id name
  | .fstat handle => processFstat id handle
  | .setstat name a => processSetstat cfg id name a
  | .fsetstat handle a => processFsetstat cfg id handle a
  | .opendir path => processOpendir id path
  | .readdir handle => processReaddir id handle
  | .remove name => processRemove cfg id name
  | .mkdir name a => processMkdir cfg id name a
  | .rmdir name => processRmdir cfg id name
  | .realpath path => processRealpath id path
  | .stat name => processStat id name
  | .rename oldpath newpath => processRename cfg id oldpath newpath
  | .readlink path => processReadlink id path
  | .symlink oldpath newpath => processSymlink cfg id oldpath newpath
  | .posixRename oldpath newpath => processExtendedPosixRename cfg id oldpath newpath
  | .statvfs path => processExtendedStatvfs cfg id path
  | .fstatvfs handle => processExtendedFstatvfs id handle
  | .hardlink oldpath newpath => processExtendedHardlink cfg id oldpath newpath
  | .fsync handle => processExtendedFsync id handle

/-! The two dispatch tables. -/

def args1 {α : Type} (first : Getter α) (make : α → Request) : Getter Request := fun queue => do
  let (a, queue) ← first queue
  return (make a, queue)

def args2 {α β : Type} (first : Getter α) (second : Getter β) (make : α → β → Request) :
    Getter Request := fun queue => do
  let (a, queue) ← first queue
  let (b, queue) ← second queue
  return (make a b, queue)

def args3 {α β γ : Type} (first : Getter α) (second : Getter β) (third : Getter γ)
    (make : α → β → γ → Request) : Getter Request := fun queue => do
  let (a, queue) ← first queue
  let (b, queue) ← second queue
  let (c, queue) ← third queue
  return (make a b c, queue)

structure SftpHandler where
  name : Bytes
  extName : Option Bytes
  type : UInt8
  args : Getter Request
  doesWrite : Bool

def handlers : List SftpHandler := [
  ⟨text "open", none, 3, args3 getCstring getU32 decodeAttrib .open, false⟩,
  ⟨text "close", none, 4, args1 getString .close, false⟩,
  ⟨text "read", none, 5, args3 getString getU64 getU32 .read, false⟩,
  ⟨text "write", none, 6, args3 getString getU64 getString .write, true⟩,
  ⟨text "lstat", none, 7, args1 getCstring .lstat, false⟩,
  ⟨text "fstat", none, 8, args1 getString .fstat, false⟩,
  ⟨text "setstat", none, 9, args2 getCstring decodeAttrib .setstat, true⟩,
  ⟨text "fsetstat", none, 10, args2 getString decodeAttrib .fsetstat, true⟩,
  ⟨text "opendir", none, 11, args1 getCstring .opendir, false⟩,
  ⟨text "readdir", none, 12, args1 getString .readdir, false⟩,
  ⟨text "remove", none, 13, args1 getCstring .remove, true⟩,
  ⟨text "mkdir", none, 14, args2 getCstring decodeAttrib .mkdir, true⟩,
  ⟨text "rmdir", none, 15, args1 getCstring .rmdir, true⟩,
  ⟨text "realpath", none, 16, args1 getCstring .realpath, false⟩,
  ⟨text "stat", none, 17, args1 getCstring .stat, false⟩,
  ⟨text "rename", none, 18, args2 getCstring getCstring .rename, true⟩,
  ⟨text "readlink", none, 19, args1 getCstring .readlink, false⟩,
  ⟨text "symlink", none, 20, args2 getCstring getCstring .symlink, true⟩]

def extendedHandlers : List SftpHandler := [
  ⟨text "posix-rename", some (text "posix-rename@openssh.com"), 0,
    args2 getCstring getCstring .posixRename, true⟩,
  ⟨text "statvfs", some (text "statvfs@openssh.com"), 0, args1 getCstring .statvfs, false⟩,
  ⟨text "fstatvfs", some (text "fstatvfs@openssh.com"), 0, args1 getString .fstatvfs, false⟩,
  ⟨text "hardlink", some (text "hardlink@openssh.com"), 0, args2 getCstring getCstring .hardlink, true⟩,
  ⟨text "fsync", some (text "fsync@openssh.com"), 0, args1 getString .fsync, true⟩]

/-- The comma-separated names of a list, up to the first empty one and at most
forty of them. -/
def proposals (server : Bytes) : List Bytes :=
  ((server.splitOn 44).takeWhile (· ≠ [])).take 40

/-- `match_list` for a single name without commas. -/
def matchList (client server : Bytes) : Bool := client ∈ proposals server

def requestPermitted (h : SftpHandler) : Bool :=
  if cfg.readonly && h.doesWrite then false
  else if (cfg.requestBlacklist.map (matchList h.name)).getD false then false
  else match cfg.requestWhitelist with
    | some list => matchList h.name list
    | none => true

/-- Run a table entry if the request is permitted. -/
def handle (id : Nat) (h : SftpHandler) : SftpM Unit := do
  if requestPermitted cfg h then
    let request ← getArg h.args
    perform cfg id request
  else sendStatus id .permissionDenied

def processExtended (id : Nat) : SftpM Unit := do
  let request ← getArg getCstring
  match extendedHandlers.find? fun h => h.extName = some request with
  | some h => handle cfg id h
  | none => sendStatus id .opUnsupported

/-- Find the handler of one complete message. -/
def dispatch (type : UInt8) : SftpM Unit := do
  if type = 1 then
    processInit
    modify fun s => { s with initDone := true }
  else
    let s ← get
    if s.initDone then
      let id ← getArg getU32
      if type = 200 then processExtended cfg id
      else match handlers.find? fun h => h.type = type with
        | some h => handle cfg id h
        | none => return
    else Handler.stop .fatal

def sftpMaxMsgLength : Nat := 256 * 1024

/-- Drop what the handler left unread of its message. -/
def discardRest (msgLen bufLen : Nat) : SftpM Unit := do
  let s ← get
  if bufLen < s.iqueue.length then Handler.stop (.exit 255)
  else
    let consumed := bufLen - s.iqueue.length
    if msgLen < consumed then Handler.stop (.exit 255)
    else if s.iqueue.length < msgLen - consumed then Handler.stop .fatal
    else set { s with iqueue := s.iqueue.drop (msgLen - consumed) }

def process : SftpM Unit := do
  let s ← get
  if s.iqueue.length < 5 then return
  else
    let msgLen := value (s.iqueue.take 4)
    if sftpMaxMsgLength < msgLen then Handler.stop (.exit 11)
    else if s.iqueue.length < msgLen + 4 then return
    else
      set { s with iqueue := s.iqueue.drop 4 }
      let type ← getArg getU8
      dispatch cfg type
      discardRest msgLen (s.iqueue.length - 4)

def Server.receive (s : Server) (input : Bytes) : Server := { s with iqueue := s.iqueue ++ input }

/-- One turn of the main loop: some bytes arrive, then `process` runs. -/
def turn (input : Bytes) (s : Server) : Prog Sys Resp Server := do
  let out ← (process cfg) (s.receive input)
  return out.2

end Sftp
