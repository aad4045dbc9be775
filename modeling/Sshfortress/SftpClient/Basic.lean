import Sshfortress.Sftp.Basic

/-! The SFTP client: downloads, uploads and recursive downloads. The server is part of the
surroundings, as are the local files and the signal that interrupts a transfer. Messages to
the user and the progress meter are not modelled. -/
namespace SftpClient

open Base Base.Wire
open Sftp (Attrib attribClear decodeAttrib encodeAttrib getWhen hasFlag skipExtended attrSize attrUidgid attrPermissions
  attrAcmodtime attrExtended fxfRead fxfWrite fxfAppend fxfCreat fxfTrunc oWronly oCreat oTrunc)

def maxMsgLength : Nat := 256 * 1024

def minReadSize : Nat := 512

def maxDirDepth : Nat := 64

/-! What the client says. -/

inductive Request where
  | open (id : Nat) (path : Bytes) (pflags : Nat) (a : Attrib)
  | close (id : Nat) (handle : Bytes)
  | read (id : Nat) (handle : Bytes) (offset len : Nat)
  | write (id : Nat) (handle : Bytes) (offset : Nat) (data : Bytes)
  | fsetstat (id : Nat) (handle : Bytes) (a : Attrib)
  | opendir (id : Nat) (path : Bytes)
  | readdir (id : Nat) (handle : Bytes)
  | realpath (id : Nat) (path : Bytes)
  | stat (code : UInt8) (id : Nat) (path : Bytes)
  | fsync (id : Nat) (handle : Bytes)
  deriving DecidableEq

def Request.encode : Request → Bytes
  | .open id path pflags a => [3] ++ putU32 id ++ putString path ++ putU32 pflags ++ encodeAttrib a
  | .close id handle => [4] ++ putU32 id ++ putString handle
  | .read id handle offset len => [5] ++ putU32 id ++ putString handle ++ putU64 offset ++ putU32 len
  | .write id handle offset data => [6] ++ putU32 id ++ putString handle ++ putU64 offset ++ putString data
  | .fsetstat id handle a => [10] ++ putU32 id ++ putString handle ++ encodeAttrib a
  | .opendir id path => [11] ++ putU32 id ++ putString path
  | .readdir id handle => [12] ++ putU32 id ++ putString handle
  | .realpath id path => [16] ++ putU32 id ++ putString path
  | .stat code id path => [code] ++ putU32 id ++ putString path
  | .fsync id handle => [200] ++ putU32 id ++ putString (text "fsync@openssh.com") ++ putString handle

structure Read where
  (id len offset : Nat)
  deriving DecidableEq

structure Ack where
  (id len offset : Nat)
  deriving DecidableEq

/-- What the client is waiting for when it takes the next message. The surroundings see it;
the message can be anything all the same. -/
inductive Awaited where
  | reply (id : Nat)
  | closed (id : Nat)
  | names (id : Nat)
  | reads (queue : List Read)
  | acks (queue : List Ack)

/-! The surroundings. -/

structure Stat where
  mode : Nat
  size : Int
  (uid gid atime mtime : Nat)
  deriving DecidableEq

/-- How `lseek` and `atomicio(vwrite, ...)` end: all is in the file, or only some first
bytes, which the caller does not learn. -/
inductive Stored where
  | whole
  | failed (count : Nat)
  deriving DecidableEq

inductive Made where
  | made
  | exists
  | failed
  deriving DecidableEq

inductive Call where
  | send (r : Request)
  | getMsg (awaited : Awaited)
  | interrupted
  | open (path : Bytes) (flags mode : Nat)
  | fstat (fd : Nat)
  | lseek (fd offset : Nat)
  | read (fd len : Nat)
  | store (fd offset : Nat) (data : Bytes)
  | ftruncate (fd size : Nat)
  | fchmod (fd mode : Nat)
  | utimes (path : Bytes) (atime mtime : Nat)
  | fsync (fd : Nat)
  | close (fd : Nat)
  | mkdir (path : Bytes) (mode : Nat)

/-- What each call can answer. A message is not there when the connection is closed. `read`
stands for the loop that tries again when a signal came. -/
def Answer : Call → Type
  | .send _ => Unit
  | .getMsg _ => Option Bytes
  | .interrupted => Bool
  | .open .. => Option Nat
  | .fstat _ => Option Stat
  | .read .. => Option Bytes
  | .store .. => Stored
  | .mkdir .. => Made
  | .lseek .. | .ftruncate .. | .fchmod .. | .utimes .. | .fsync _ | .close _ => Bool

structure Conn where
  (transferBuflen numRequests version msgId : Nat)
  fsyncExt : Bool
  deriving DecidableEq

abbrev ClientM := Handler Call Answer Conn

def ask (call : Call) : ClientM (Answer call) := Handler.ask call

def fatal {α : Type} : ClientM α := Handler.stop .fatal

def interrupted : ClientM Bool := ask .interrupted

def closeFd (fd : Nat) : ClientM Bool := ask (.close fd)

def optionally (wanted : Bool) (m : ClientM Unit) : ClientM Unit := if wanted then m else pure ()

/-! Messages. -/

def nextId : ClientM Nat := do
  let conn ← get
  set { conn with msgId := (conn.msgId + 1) % 2 ^ 32 }
  return conn.msgId

def sendMsg (r : Request) : ClientM Unit :=
  if maxMsgLength < r.encode.length then fatal else ask (.send r)

def getMsg (awaited : Awaited) : ClientM Bytes := do
  match ← ask (.getMsg awaited) with
  | none => fatal
  | some msg => if maxMsgLength < msg.length then fatal else return msg

def need {α : Type} : Option α → ClientM α
  | none => fatal
  | some v => pure v

def header : Getter (UInt8 × Nat) := fun msg => do
  let (type, rest) ← getU8 msg
  let (id, rest) ← getU32 rest
  return ((type, id), rest)

/-- The reply to one request: its type and what follows the id. -/
def getReply (awaited : Awaited) (expectedId : Nat) : ClientM (UInt8 × Bytes) := do
  let msg ← getMsg awaited
  let ((type, id), body) ← need (header msg)
  if id ≠ expectedId then fatal else return (type, body)

def getStatus (awaited : Awaited) (expectedId : Nat) : ClientM Nat := do
  let (type, body) ← getReply awaited expectedId
  if type ≠ 101 then fatal
  else do
    let (status, _) ← need (getU32 body)
    return status

def getHandle (expectedId : Nat) : ClientM (Option Bytes) := do
  let (type, body) ← getReply (.reply expectedId) expectedId
  if type = 101 then do
    let _ ← need (getU32 body)
    return none
  else if type ≠ 102 then fatal
  else do
    let (handle, _) ← need (getString body)
    return some handle

/-- The fields before the vendor extensions are there, and the number of extensions is
not: the one error of `decode_attrib` that ends the process. -/
def countMissing (queue : Bytes) : Bool :=
  Option.isSome do
    let (flags, queue) ← getU32 queue
    let (_, queue) ← getWhen (hasFlag flags attrSize) getU64 queue
    let (_, queue) ← getWhen (hasFlag flags attrUidgid) getU32 queue
    let (_, queue) ← getWhen (hasFlag flags attrUidgid) getU32 queue
    let (_, queue) ← getWhen (hasFlag flags attrPermissions) getU32 queue
    let (_, queue) ← getWhen (hasFlag flags attrAcmodtime) getU32 queue
    let (_, queue) ← getWhen (hasFlag flags attrAcmodtime) getU32 queue
    if hasFlag flags attrExtended && (getU32 queue).isNone then some () else none

def decode (queue : Bytes) : Except Stop (Option (Attrib × Bytes)) :=
  match decodeAttrib queue with
  | some found => .ok (some found)
  | none => if countMissing queue then .error .fatal else .ok none

def getDecodeStat (expectedId : Nat) : ClientM (Option Attrib) := do
  let (type, body) ← getReply (.reply expectedId) expectedId
  if type = 101 then do
    let _ ← need (getU32 body)
    return none
  else if type ≠ 105 then fatal
  else
    match decode body with
    | .error reason => Handler.stop reason
    | .ok found => return found.map (·.1)

/-- Whether the server closed the handle. -/
def doClose (handle : Bytes) : ClientM Bool := do
  let id ← nextId
  sendMsg (.close id handle)
  let status ← getStatus (.closed id) id
  return status = 0

def doStat (path : Bytes) : ClientM (Option Attrib) := do
  let conn ← get
  let id ← nextId
  sendMsg (.stat (if conn.version = 0 then 7 else 17) id path)
  getDecodeStat id

def doFsetstat (handle : Bytes) (a : Attrib) : ClientM Bool := do
  let id ← nextId
  sendMsg (.fsetstat id handle a)
  let status ← getStatus (.reply id) id
  return status = 0

def doFsync (handle : Bytes) : ClientM Unit := do
  let conn ← get
  if conn.fsyncExt then do
    let id ← nextId
    sendMsg (.fsync id handle)
    let _ ← getStatus (.reply id) id
    return
  else return

def doRealpath (path : Bytes) : ClientM (Option Bytes) := do
  let id ← nextId
  sendMsg (.realpath id path)
  let (type, body) ← getReply (.reply id) id
  if type = 101 then do
    let _ ← need (getU32 body)
    return none
  else if type ≠ 104 then fatal
  else do
    let (count, body) ← need (getU32 body)
    if count ≠ 1 then fatal
    else do
      let (filename, body) ← need (getCstring body)
      let (_, body) ← need (getCstring body)
      let _ ← need (decodeAttrib body)
      return some filename

/-! Directories. -/

structure Dirent where
  (filename longname : Bytes)
  a : Attrib
  deriving DecidableEq

/-- The entries of a NAME reply, without those whose name has a slash. The list is not there
when the attributes of an entry cannot be decoded. -/
def names : Nat → Bytes → Except Stop (Option (List Dirent))
  | 0, _ => .ok (some [])
  | count + 1, body =>
    match getCstring body with
    | none => .error .fatal
    | some (filename, body) =>
      match getCstring body with
      | none => .error .fatal
      | some (longname, body) => do
        match ← decode body with
        | none => return none
        | some (a, body) =>
          match ← names count body with
          | none => return none
          | some rest => return some (if 47 ∈ filename then rest else ⟨filename, longname, a⟩ :: rest)

inductive Names where
  | more (entries : List Dirent)
  | finished
  | refused
  | undecoded

def readNames (type : UInt8) (body : Bytes) : Except Stop Names :=
  if type = 101 then
    match getU32 body with
    | none => .error .fatal
    | some (status, _) => .ok (if status = 1 then .finished else .refused)
  else if type ≠ 104 then .error .fatal
  else
    match getU32 body with
    | none => .error .fatal
    | some (count, body) =>
      if count = 0 then .ok .finished
      else (names count body).map fun
        | none => .undecoded
        | some entries => .more entries

inductive Listing where
  | complete (entries : List Dirent)
  | refused
  | undecoded

def readdirRound (handle : Bytes) (entries : List Dirent) : ClientM (ForInStep Listing) := do
  if ← interrupted then return .done (.complete entries)
  else do
    let id ← nextId
    sendMsg (.readdir id handle)
    let (type, body) ← getReply (.names id) id
    match readNames type body with
    | .error reason => Handler.stop reason
    | .ok (.more found) => return .yield (.complete (entries ++ found))
    | .ok .finished => return .done (.complete entries)
    | .ok .refused => return .done .refused
    | .ok .undecoded => return .done .undecoded

def readdirLoop (rounds : Nat) (handle : Bytes) : ClientM Listing :=
  Handler.iterate (fun
    | .complete entries => readdirRound handle entries
    | other => return .done other) rounds (.complete [])

/-- `do_readdir`. The handle is not closed after an entry that cannot be decoded. -/
def doReaddir (rounds : Nat) (path : Bytes) : ClientM (Option (List Dirent)) := do
  let id ← nextId
  sendMsg (.opendir id path)
  match ← getHandle id with
  | none => return none
  | some handle =>
    match ← readdirLoop rounds handle with
    | .undecoded => return none
    | .refused => do
      let _ ← doClose handle
      return none
    | .complete entries => do
      let _ ← doClose handle
      if ← interrupted then return some [] else return some entries

/-! Downloads. -/

/-- The request in the queue that a reply names, with what stands before and behind it. -/
def findRequest {α : Type} (idOf : α → Nat) (id : Nat) : List α → Option (List α × α × List α)
  | [] => none
  | req :: rest =>
    if idOf req = id then some ([], req, rest)
    else (findRequest idOf id rest).map fun (before, found, after) => (req :: before, found, after)

structure Download where
  (offset highwater buflen numReq maxReq : Nat)
  requests : List Read
  (writeError readError reordered : Bool)
  deriving DecidableEq

namespace Download

def issue (d : Download) (id : Nat) : Download :=
  { d with
    offset := (d.offset + d.buflen) % 2 ^ 64
    numReq := d.numReq + 1
    requests := d.requests ++ [⟨id, d.buflen, d.offset⟩] }

/-- A STATUS came for the request between `before` and `after`. -/
def refused (d : Download) (status : Nat) (before after : List Read) : Download :=
  { d with
    readError := d.readError || status ≠ 1
    maxReq := 0
    requests := before ++ after
    numReq := d.numReq - 1 }

/-- Note the outcome of a write. Only the first failure is noted as one; after it, a write
that fails moves the mark like one that does not. -/
def note (d : Download) (req : Read) (len : Nat) (stored : Stored) : Download :=
  if stored ≠ .whole && !d.writeError then { d with writeError := true, maxReq := 0 }
  else if !d.reordered && req.offset ≤ d.highwater then { d with highwater := (req.offset + len) % 2 ^ 64 }
  else if !d.reordered && d.highwater < req.offset then { d with reordered := true }
  else d

def finish (d : Download) (before after : List Read) : Download :=
  { d with requests := before ++ after, numReq := d.numReq - 1 }

/-- The missing data is asked for again, under a new id, and the next requests get smaller. -/
def shorten (d : Download) (id : Nat) (req : Read) (len : Nat) (before after : List Read) : Download :=
  { d with
    requests := before ++ ⟨id, req.len - len, (req.offset + len) % 2 ^ 64⟩ :: after
    buflen := if len < d.buflen then max minReadSize len else d.buflen }

/-- How many requests there may be from now on. -/
def widen (d : Download) (size numRequests : Nat) : Download :=
  if 0 < d.maxReq then
    if 0 < size ∧ size < d.offset then { d with maxReq := 1 }
    else if d.maxReq ≤ numRequests then { d with maxReq := (d.maxReq + 1) % 2 ^ 32 }
    else d
  else d

end Download

def sendReads (handle : Bytes) : Nat → Download → ClientM Download
  | 0, d => pure d
  | count + 1, d => do
    let id ← nextId
    sendMsg (.read id handle d.offset d.buflen)
    sendReads handle count (d.issue id)

def receiveData (fd : Nat) (handle : Bytes) (size : Nat) (d : Download) (before : List Read) (req : Read)
    (after : List Read) (data : Bytes) : ClientM Download := do
  let stored ← ask (.store fd req.offset data)
  let d := d.note req data.length stored
  let conn ← get
  if data.length = req.len then return (d.finish before after).widen size conn.numRequests
  else do
    let id ← nextId
    let d := d.shorten id req data.length before after
    sendMsg (.read id handle ((req.offset + data.length) % 2 ^ 64) (req.len - data.length))
    return d.widen size conn.numRequests

def receive (fd : Nat) (handle : Bytes) (size : Nat) (d : Download) : ClientM Download := do
  let msg ← getMsg (.reads d.requests)
  let ((type, id), body) ← need (header msg)
  let (before, req, after) ← need (findRequest Read.id id d.requests)
  if type = 101 then do
    let (status, _) ← need (getU32 body)
    return d.refused status before after
  else if type = 103 then do
    let (data, _) ← need (getString body)
    if req.len < data.length then fatal else receiveData fd handle size d before req after data
  else fatal

/-- One round of the loop of `do_download`. An interrupt stops new requests; those that are
under way are waited for. -/
def downloadRound (fd : Nat) (handle : Bytes) (size : Nat) (d : Download) : ClientM (ForInStep Download) :=
  if d.numReq = 0 ∧ d.maxReq = 0 then return .done d
  else do
    let stopped ← interrupted
    if stopped ∧ d.numReq = 0 then return .done d
    else do
      let d := if stopped then { d with maxReq := 0 } else d
      let d ← sendReads handle (d.maxReq - d.numReq) d
      let d ← receive fd handle size d
      return .yield d

def isReg (perm : Nat) : Bool := perm &&& 0o170000 = 0o100000

def isDir (perm : Nat) : Bool := perm &&& 0o170000 = 0o040000

/-- Override the umask, and the times if the server sent them. -/
def preserveAttrib (fd : Nat) (localPath : Bytes) (a : Attrib) (mode : Nat) : ClientM Unit := do
  let _ ← ask (.fchmod fd mode)
  optionally (hasFlag a.flags attrAcmodtime) do
    let _ ← ask (.utimes localPath a.atime a.mtime)
    return

def downloadStatus (fd : Nat) (handle localPath : Bytes) (a : Attrib) (mode : Nat) (preserve fsync : Bool)
    (d : Download) : ClientM Int :=
  if d.readError then do
    let _ ← doClose handle
    return -1
  else if d.writeError then do
    let _ ← doClose handle
    return 4
  else do
    let closed ← doClose handle
    let failed ← (if closed then interrupted else pure true : ClientM Bool)
    optionally preserve (preserveAttrib fd localPath a mode)
    optionally fsync do
      let _ ← ask (.fsync fd)
      return
    return if failed then 4 else 0

def closeDownload (fd : Nat) (handle localPath : Bytes) (a : Attrib) (mode : Nat) (preserve fsync : Bool)
    (d : Download) : ClientM Int := do
  let cut ← (if d.readError || d.writeError then pure true else interrupted : ClientM Bool)
  optionally cut do
    let _ ← ask (.ftruncate fd d.highwater)
    return
  let status ← downloadStatus fd handle localPath a mode preserve fsync d
  let _ ← closeFd fd
  return status

/-- Where the download starts: behind what is there already. -/
def startOffset (fd size : Nat) (resume : Bool) : ClientM (Option Nat) :=
  if resume then do
    match ← ask (.fstat fd) with
    | none => return none
    | some st =>
      if st.size < 0 then return none
      else if size < st.size.toNat then return none
      else return some st.size.toNat
  else return some 0

/-- The attributes that the caller has, or those that the server tells. -/
def givenOrStat (a : Option Attrib) (path : Bytes) : ClientM (Option Attrib) :=
  match a with
  | some a => return some a
  | none => doStat path

/-- Open a remote file: the id of the request, and the handle if there is one. -/
def openRemote (path : Bytes) (pflags : Nat) (a : Attrib) : ClientM (Nat × Option Bytes) := do
  let id ← nextId
  sendMsg (.open id path pflags a)
  let handle ← getHandle id
  return (id, handle)

/-- `do_download` once the remote file is open. Set-user-id bits are not preserved. -/
def downloadHandle (rounds buflen : Nat) (handle localPath : Bytes) (a : Attrib) (preserve resume fsync : Bool) :
    ClientM Int := do
  let mode := if hasFlag a.flags attrPermissions then a.perm &&& 0o777 else 0o666
  let size := if hasFlag a.flags attrSize then a.size else 0
  match ← ask (.open localPath (oWronly ||| oCreat ||| if resume then 0 else oTrunc) (mode ||| 0o200)) with
  | none => do
    let _ ← doClose handle
    return -1
  | some fd =>
    match ← startOffset fd size resume with
    | none => do
      let _ ← doClose handle
      let _ ← closeFd fd
      return -1
    | some start => do
      let d ← Handler.iterate (downloadRound fd handle size) rounds
        ⟨start, start, buflen, 0, 1, [], false, false, false⟩
      if d.requests ≠ [] then fatal
      else closeDownload fd handle localPath a mode preserve fsync d

def doDownload (rounds : Nat) (remotePath localPath : Bytes) (a : Option Attrib) (preserve resume fsync : Bool) :
    ClientM Int := do
  match ← givenOrStat a remotePath with
  | none => return -1
  | some a =>
    if hasFlag a.flags attrPermissions && !isReg a.perm then return -1
    else do
      let conn ← get
      match ← openRemote remotePath fxfRead attribClear with
      | (_, none) => return -1
      | (_, some handle) => downloadHandle rounds conn.transferBuflen handle localPath a preserve resume fsync

/-! Recursive downloads. -/

def pathAppend (p1 p2 : Bytes) : Bytes :=
  if p1 ≠ [] ∧ p1.getLast? ≠ some 47 then p1 ++ [47] ++ p2 else p1 ++ p2

/-- The loop over the entries of a directory, with what is done for each. -/
def eachEntry (visit : Dirent → ClientM Int) : List Dirent → Int → ClientM Int
  | [], ret => pure ret
  | entry :: entries, ret => do
    if ← interrupted then return ret
    else do
      let result ← visit entry
      eachEntry visit entries (if result = -1 then -1 else ret)

/-- What is done for an entry. A directory is taken care of by `recurse`. -/
def downloadEntry (recurse : Bytes → Bytes → Attrib → ClientM Int) (rounds : Nat) (src dst : Bytes)
    (preserve resume fsync : Bool) (entry : Dirent) : ClientM Int :=
  let newDst := pathAppend dst entry.filename
  let newSrc := pathAppend src entry.filename
  if isDir entry.a.perm then
    if entry.filename = text "." ∨ entry.filename = text ".." then return 0 else recurse newSrc newDst entry.a
  else if isReg entry.a.perm then doDownload rounds newSrc newDst (some entry.a) preserve resume fsync
  else return 0

/-- The contents of a directory whose copy is there. -/
def downloadContents (visit : Dirent → ClientM Int) (rounds : Nat) (src dst : Bytes) (a : Attrib) (preserve : Bool) :
    ClientM Int := do
  match ← doReaddir rounds src with
  | none => return -1
  | some entries => do
    let ret ← eachEntry visit entries 0
    optionally (preserve && hasFlag a.flags attrAcmodtime) do
      let _ ← ask (.utimes dst a.atime a.mtime)
      return
    return ret

def downloadDirInternal (preserve resume fsync : Bool) :
    Nat → Bytes → Bytes → Nat → Option Attrib → ClientM Int
  | 0, _, _, _, _ => fatal
  | rounds + 1, src, dst, depth, dirattrib =>
    if maxDirDepth ≤ depth then return -1
    else do
      match ← givenOrStat dirattrib src with
      | none => return -1
      | some a =>
        if !isDir a.perm then return -1
        else do
          let mode := if hasFlag a.flags attrPermissions then a.perm &&& 0o1777 else 0o777
          match ← ask (.mkdir dst mode) with
          | .failed => return -1
          | _ =>
            let recurse newSrc newDst entryAttrib :=
              downloadDirInternal preserve resume fsync rounds newSrc newDst (depth + 1) (some entryAttrib)
            downloadContents (downloadEntry recurse rounds src dst preserve resume fsync) rounds src dst a preserve

def downloadDir (rounds : Nat) (src dst : Bytes) (dirattrib : Option Attrib) (preserve resume fsync : Bool) :
    ClientM Int := do
  match ← doRealpath src with
  | none => return -1
  | some srcCanon => downloadDirInternal preserve resume fsync rounds srcCanon dst 0 dirattrib

/-! Uploads. -/

def Stat.toAttrib (st : Stat) : Attrib where
  flags := attrSize ||| attrUidgid ||| attrPermissions ||| attrAcmodtime
  size := st.size.toNat
  uid := st.uid
  gid := st.gid
  perm := st.mode
  atime := st.atime
  mtime := st.mtime

def uploadAttrib (st : Stat) (preserve : Bool) : Attrib :=
  { st.toAttrib with
    flags := if preserve then attrPermissions ||| attrAcmodtime else attrPermissions
    perm := st.mode &&& 0o777 }

structure Upload where
  (id ackid status offset : Nat)
  acks : List Ack
  deriving DecidableEq

def sendWrite (handle data : Bytes) (u : Upload) : ClientM Upload := do
  let id := (u.id + 1) % 2 ^ 32
  sendMsg (.write id handle u.offset data)
  return { u with id := id, acks := u.acks ++ [⟨id, data.length, u.offset⟩] }

/-- The next acknowledgement. Its status takes the place of the one before it. -/
def receiveAck (u : Upload) : ClientM Upload := do
  let msg ← getMsg (.acks u.acks)
  let ((type, rid), body) ← need (header msg)
  if type ≠ 101 then fatal
  else do
    let (status, _) ← need (getU32 body)
    let (before, _, after) ← need (findRequest Ack.id rid u.acks)
    return { u with status := status, acks := before ++ after, ackid := (u.ackid + 1) % 2 ^ 32 }

def readLocal (fd : Nat) : ClientM Bytes := do
  let conn ← get
  let data ← ask (.read fd conn.transferBuflen)
  need data

/-- Whether an acknowledgement is waited for before the next write. -/
def Upload.waits (u : Upload) (startid numRequests : Nat) (data : Bytes) : Prop :=
  u.id = startid ∨ data = [] ∨ numRequests ≤ (u.id + 2 ^ 32 - u.ackid) % 2 ^ 32
  deriving Decidable

/-- The rest of a round of the loop of `do_upload`, with the bytes that were read. -/
def uploadData (handle : Bytes) (startid : Nat) (u : Upload) (data : Bytes) : ClientM (ForInStep Upload) :=
  if data = [] ∧ u.acks = [] then return .done u
  else do
    let u ← (if data = [] then pure u else sendWrite handle data u : ClientM Upload)
    let conn ← get
    let u ← (if u.waits startid conn.numRequests data then receiveAck u else pure u : ClientM Upload)
    if 2 ^ 63 ≤ u.offset + data.length then fatal else return .yield { u with offset := u.offset + data.length }

/-- One round of the loop of `do_upload`. Nothing is read after an interrupt or while the last
status is an error, and then the acknowledgements that are due are waited for. -/
def uploadRound (fd : Nat) (handle : Bytes) (startid : Nat) (u : Upload) : ClientM (ForInStep Upload) := do
  let stopped ← interrupted
  let data ← (if stopped ∨ u.status ≠ 0 then pure [] else readLocal fd : ClientM Bytes)
  uploadData handle startid u data

def closeUpload (fd : Nat) (handle : Bytes) (a : Attrib) (preserve fsync : Bool) (u : Upload) : ClientM Int := do
  let localClosed ← closeFd fd
  optionally preserve do
    let _ ← doFsetstat handle a
    return
  optionally fsync (doFsync handle)
  let closed ← doClose handle
  return if u.status = 0 ∧ localClosed ∧ closed then 0 else -1

/-- Where the upload starts: behind what the server has, if that is less than there is. An
offset from `2 ^ 63` on is negative as `off_t`: it passes the comparison, and `lseek` refuses
it. -/
def resumeOffset (fd : Nat) (st : Stat) (remotePath : Bytes) (resume : Bool) : ClientM (Option Nat) :=
  if resume then do
    match ← doStat remotePath with
    | none => return none
    | some c =>
      if c.size < 2 ^ 63 ∧ st.size ≤ c.size then return none
      else if 2 ^ 63 ≤ c.size then return none
      else do
        let sought : Bool ← ask (.lseek fd c.size)
        return if sought then some c.size else none
  else return some 0

def doUpload (rounds : Nat) (localPath remotePath : Bytes) (preserve resume fsync : Bool) : ClientM Int := do
  match ← ask (.open localPath 0 0) with
  | none => return -1
  | some fd =>
    match ← ask (.fstat fd) with
    | none => do
      let _ ← closeFd fd
      return -1
    | some st =>
      if !isReg st.mode then do
        let _ ← closeFd fd
        return -1
      else do
        let a := uploadAttrib st preserve
        match ← resumeOffset fd st remotePath resume with
        | none => do
          let _ ← closeFd fd
          return -1
        | some start =>
          match ← openRemote remotePath (fxfWrite ||| fxfCreat ||| if resume then fxfAppend else fxfTrunc) a with
          | (_, none) => do
            let _ ← closeFd fd
            return -1
          | (id, some handle) => do
            let startid := (id + 1) % 2 ^ 32
            let u ← Handler.iterate (uploadRound fd handle startid) rounds ⟨id, startid, 0, start, []⟩
            closeUpload fd handle a preserve fsync u

/-! What the parts of the client call, and what they leave alone. -/

variable {α : Type} {later : Events}

lemma findRequest_eq_some {idOf : α → Nat} {id : Nat} {queue before after : List α} {req : α}
    (h : findRequest idOf id queue = some (before, req, after)) : queue = before ++ req :: after := by
  induction queue generalizing before with
  | nil => cases h
  | cons first rest ih =>
    rw [findRequest] at h
    split_ifs at h with hHere
    · cases h
      rfl
    · obtain ⟨⟨front, found, back⟩, hf, hEq⟩ := Option.map_eq_some_iff.1 h
      cases hEq
      rw [ih hf]
      rfl

def Conn.Same (conn next : Conn) : Prop :=
  next.numRequests = conn.numRequests ∧ next.transferBuflen = conn.transferBuflen

lemma Conn.Same.refl (conn : Conn) : conn.Same conn := ⟨rfl, rfl⟩

lemma Conn.Same.trans {first second third : Conn} (h : first.Same second) (hn : second.Same third) :
    first.Same third :=
  ⟨hn.1.trans h.1, hn.2.trans h.2⟩

abbrev Events := Trace Call Answer

def Uninterrupted (trace : Events) : Prop := (⟨.interrupted, true⟩ : Event Call Answer) ∉ trace

variable {trace : Events}

lemma Uninterrupted.left (h : Uninterrupted (trace ++ later)) : Uninterrupted trace :=
  fun hMem => h (List.mem_append_left _ hMem)

lemma Uninterrupted.right (h : Uninterrupted (trace ++ later)) : Uninterrupted later :=
  fun hMem => h (List.mem_append_right _ hMem)

/-- Whatever the answers are, a return comes with the postcondition. -/
abbrev Gives {α : Type} (post : α → Conn → Trace Call Answer → Prop) (m : ClientM α) (conn : Conn) : Prop :=
  Handler.Meets (fun _ _ => True) post m conn

/-- Only these calls are made, and the settings stay. -/
def Within {α : Type} (only : Call → Prop) (m : ClientM α) : Prop :=
  ∀ conn, Handler.Meets (fun _ => only) (fun _ next _ => conn.Same next) m conn

section Within

variable {α β : Type} {only : Call → Prop}

lemma Within.pure (a : α) : Within only (pure a : ClientM α) := fun conn => Conn.Same.refl conn

lemma Within.fatal : Within only (fatal : ClientM α) := fun _ => trivial

lemma Within.stop (reason : Stop) : Within only (Handler.stop reason : ClientM α) := fun _ => trivial

lemma Within.get : Within only (get : ClientM Conn) := fun conn => Conn.Same.refl conn

lemma Within.ask {call : Call} (h : only call) : Within only (ask call) :=
  fun conn => Handler.meets_ask.2 ⟨h, fun _ => Conn.Same.refl conn⟩

variable {path : Bytes} {m : ClientM α} {awaited : Awaited}

lemma Within.bind {f : α → ClientM β} (hm : Within only m) (hf : ∀ a, Within only (f a)) :
    Within only (m >>= f) := by
  intro conn
  rw [Handler.meets_bind]
  refine (hm conn).mono (fun _ _ h => h) fun a next _ hs => ?_
  exact (hf a next).mono (fun _ _ h => h) fun _ _ _ hl => hs.trans hl

lemma Within.ite {c : Prop} [Decidable c] {n : ClientM α} (hm : Within only m)
    (hn : Within only n) : Within only (if c then m else n) := by
  split
  · exact hm
  · exact hn

lemma Within.iterate {body : β → ClientM (ForInStep β)} (hb : ∀ b, Within only (body b)) (rounds : Nat) (b : β) :
    Within only (Handler.iterate body rounds b) := by
  induction rounds generalizing b with
  | zero => exact .stop _
  | succ rounds ih =>
    refine .bind (hb b) fun step => ?_
    cases step with
    | done b => exact .pure b
    | yield b => exact ih b

lemma Within.nextId : Within only nextId := fun _ => ⟨rfl, rfl⟩

lemma Within.need (found : Option α) : Within only (need found) := by
  cases found with
  | none => exact .fatal
  | some v => exact .pure v

lemma Within.sendMsg {r : Request} (h : only (.send r)) : Within only (sendMsg r) :=
  .ite .fatal (.ask h)

section
variable (h : only (.getMsg awaited))
include h

lemma Within.getMsg : Within only (getMsg awaited) := by
  refine .bind (.ask h) fun answer => ?_
  cases (answer : Option Bytes) with
  | none => exact .fatal
  | some msg => exact .ite .fatal (.pure msg)

lemma Within.getReply (id : Nat) : Within only (getReply awaited id) :=
  .bind (.getMsg h) fun _ => .bind (.need _) fun _ => .ite .fatal (.pure _)

lemma Within.getStatus (id : Nat) : Within only (getStatus awaited id) :=
  .bind (.getReply h id) fun _ =>
    .ite .fatal (.bind (.need _) fun _ => .pure _)

end

variable {id : Nat}

lemma Within.getHandle (h : only (.getMsg (.reply id))) : Within only (getHandle id) :=
  .bind (.getReply h id) fun _ =>
    .ite (.bind (.need _) fun _ => .pure _) (.ite .fatal (.bind (.need _) fun _ => .pure _))

lemma Within.getDecodeStat (h : only (.getMsg (.reply id))) : Within only (getDecodeStat id) := by
  refine .bind (.getReply h id) fun reply => ?_
  refine .ite (.bind (.need _) fun _ => .pure _) (.ite .fatal ?_)
  cases decode reply.2 with
  | error reason => exact .stop reason
  | ok found => exact .pure _

lemma Within.doClose {handle : Bytes} (hs : ∀ id, only (.send (.close id handle)))
    (hGet : ∀ id, only (.getMsg (.closed id))) : Within only (doClose handle) :=
  .bind .nextId fun id => .bind (.sendMsg (hs id)) fun _ =>
    .bind (.getStatus (hGet id) id) fun _ => .pure _

lemma Within.doStat (hs : ∀ code id, only (.send (.stat code id path)))
    (hGet : ∀ id, only (.getMsg (.reply id))) : Within only (doStat path) :=
  .bind .get fun _ => .bind .nextId fun id => .bind (.sendMsg (hs _ id)) fun _ =>
    .getDecodeStat (hGet id)

lemma Within.optionally {wanted : Bool} {m : ClientM Unit} (h : Within only m) : Within only (optionally wanted m) :=
  .ite h (.pure ())

lemma Within.givenOrStat {a : Option Attrib}
    (hs : ∀ code id, only (.send (.stat code id path))) (hGet : ∀ id, only (.getMsg (.reply id))) :
    Within only (givenOrStat a path) := by
  cases a with
  | none => exact .doStat hs hGet
  | some a => exact .pure _

lemma Within.openRemote {pflags : Nat} {a : Attrib}
    (hs : ∀ id, only (.send (.open id path pflags a))) (hGet : ∀ id, only (.getMsg (.reply id))) :
    Within only (openRemote path pflags a) :=
  .bind .nextId fun id => .bind (.sendMsg (hs id)) fun _ =>
    .bind (.getHandle (hGet id)) fun _ => .pure _

lemma Within.doRealpath (hs : ∀ id, only (.send (.realpath id path)))
    (hGet : ∀ id, only (.getMsg (.reply id))) : Within only (doRealpath path) := by
  refine .bind .nextId fun id => .bind (.sendMsg (hs id)) fun _ => ?_
  refine .bind (.getReply (hGet id) id) fun reply => ?_
  refine .ite (.bind (.need _) fun _ => .pure _) (.ite .fatal ?_)
  refine .bind (.need _) fun _ => .ite .fatal (.bind (.need _) fun _ => ?_)
  exact .bind (.need _) fun _ => .bind (.need _) fun _ => .pure _

lemma Within.events (h : Within only m) (conn : Conn) :
    Gives (fun _ next trace => conn.Same next ∧ ∀ event ∈ trace, only event.request) m conn :=
  Prog.Meets.of_only (h conn) fun _ _ _ _ => trivial

end Within

section Gives

variable {α β : Type} {conn : Conn} {post : α → Conn → Trace Call Answer → Prop} {m : ClientM α}
  {awaited : Awaited} {id : Nat}

lemma Gives.bind {post : β → Conn → Trace Call Answer → Prop} {f : α → ClientM β}
    (h : Gives (fun a next trace => Gives (fun b last later => post b last (trace ++ later)) (f a) next) m conn) :
    Gives post (m >>= f) conn :=
  (Handler.meets_bind m f).2 h

protected lemma Gives.ask {call : Call} {post : Answer call → Conn → Trace Call Answer → Prop}
    (h : ∀ answer, post answer conn [⟨call, answer⟩]) : Gives post (ask call) conn :=
  Handler.meets_ask.2 ⟨trivial, h⟩

lemma Gives.interrupted {post : Bool → Conn → Trace Call Answer → Prop}
    (h : ∀ stopped : Bool, post stopped conn [⟨.interrupted, stopped⟩]) : Gives post interrupted conn :=
  .ask h

lemma Gives.closeFd {fd : Nat} {post : Bool → Conn → Trace Call Answer → Prop}
    (h : ∀ closed : Bool, post closed conn [⟨.close fd, closed⟩]) : Gives post (closeFd fd) conn :=
  .ask h

lemma Gives.mono {other : α → Conn → Trace Call Answer → Prop} (h : Gives post m conn)
    (hp : ∀ a next trace, post a next trace → other a next trace) : Gives other m conn :=
  Handler.Meets.mono h (fun _ _ _ => trivial) hp

lemma Gives.of_forall (h : ∀ a next trace, post a next trace) : Gives post m conn :=
  Prog.meets_of_forall (fun _ _ => trivial) fun _ _ => h _ _ _

lemma Gives.iterate {body : β → ClientM (ForInStep β)} {post : β → Conn → Trace Call Answer → Prop}
    (invariant : β → Conn → Trace Call Answer → Prop) (hb : ∀ b now past, invariant b now past →
      Gives (fun step next later => Handler.roundPost post invariant step next (past ++ later)) (body b) now)
    (rounds : Nat) {b : β} (h : invariant b conn []) : Gives post (Handler.iterate body rounds b) conn :=
  Handler.meets_iterate (fun _ _ => True) invariant hb rounds h

lemma Gives.need {found : Option α} (h : ∀ v, found = some v → post v conn []) : Gives post (need found) conn := by
  cases found with
  | none => trivial
  | some v => exact h v rfl

protected lemma Gives.sendMsg {r : Request} {post : Unit → Conn → Trace Call Answer → Prop} (h : post () conn [⟨.send r, ()⟩]) :
    Gives post (sendMsg r) conn := by
  by_cases hl : maxMsgLength < r.encode.length
  · have hs : sendMsg r = fatal := if_pos hl
    rw [hs]
    trivial
  · have hSend : sendMsg r = ask (.send r) := if_neg hl
    rw [hSend]
    exact .ask fun _ => h

lemma Gives.getMsg {post : Bytes → Conn → Trace Call Answer → Prop}
    (h : ∀ msg, post msg conn [⟨.getMsg awaited, some msg⟩]) : Gives post (getMsg awaited) conn := by
  refine .bind (.ask fun answer => ?_)
  cases answer with
  | none => trivial
  | some msg =>
    dsimp only
    split_ifs
    · trivial
    · exact h msg

lemma Gives.getReply {post : UInt8 × Bytes → Conn → Trace Call Answer → Prop}
    (h : ∀ msg type body, header msg = some ((type, id), body) → post (type, body) conn [⟨.getMsg awaited, some msg⟩]) :
    Gives post (getReply awaited id) conn := by
  refine .bind (.getMsg fun msg => .bind (.need fun reply hHdr => ?_))
  obtain ⟨⟨type, found⟩, body⟩ := reply
  dsimp only
  by_cases hId : found ≠ id
  · rw [if_pos hId]
    trivial
  · rw [if_neg hId]
    exact h msg type body (not_not.1 hId ▸ hHdr)

variable {post : Nat → Conn → Trace Call Answer → Prop}

lemma Gives.getStatus
    (h : ∀ msg body status rest, header msg = some ((101, id), body) → getU32 body = some (status, rest) →
      post status conn [⟨.getMsg awaited, some msg⟩]) : Gives post (getStatus awaited id) conn := by
  refine .bind (.getReply fun msg type body hHdr => ?_)
  dsimp only
  by_cases ht : type ≠ 101
  · rw [if_pos ht]
    trivial
  · rw [if_neg ht]
    obtain rfl := not_not.1 ht
    exact .bind (.need fun found hs => h msg body found.1 found.2 hHdr hs)

lemma Gives.getHandle {post : Option Bytes → Conn → Trace Call Answer → Prop}
    (h : ∀ handle msg, post handle conn [⟨.getMsg (.reply id), some msg⟩]) :
    Gives post (getHandle id) conn := by
  refine .bind (.getReply fun msg type body _ => ?_)
  dsimp only
  split_ifs
  · exact .bind (.need fun _ _ => h _ msg)
  · trivial
  · exact .bind (.need fun _ _ => h _ msg)

lemma Gives.get {post : Conn → Conn → Trace Call Answer → Prop} (h : post conn conn []) : Gives post get conn := h

lemma Gives.nextId
    (h : post conn.msgId { conn with msgId := (conn.msgId + 1) % 2 ^ 32 } []) : Gives post nextId conn := h

end Gives

/-! Surroundings that follow a script. -/

structure Script where
  msgs : List Bytes
  stores : List Stored := []
  reads : List Bytes := []

def isMsg : Event Call Answer → Bool
  | ⟨.getMsg _, _⟩ => true
  | _ => false

def isStore : Event Call Answer → Bool
  | ⟨.store .., _⟩ => true
  | _ => false

def isRead : Event Call Answer → Bool
  | ⟨.read .., _⟩ => true
  | _ => false

/-- The messages, the outcomes of writes and the bytes of the local file are taken one after
the other; all else succeeds, and nobody interrupts. -/
def Script.env (script : Script) : Env Call Answer := fun trace call =>
  match call with
  | .send _ => ()
  | .getMsg _ => script.msgs[trace.countP isMsg]?
  | .interrupted => false
  | .open .. => some 3
  | .fstat _ => some ⟨0o100644, 0, 0, 0, 0, 0⟩
  | .read .. => some (script.reads.getD (trace.countP isRead) [])
  | .store .. => script.stores.getD (trace.countP isStore) .whole
  | .mkdir .. => .made
  | .lseek .. | .ftruncate .. | .fchmod .. | .utimes .. | .fsync _ | .close _ => true

def statusMsg (id status : Nat) : Bytes := [101] ++ putU32 id ++ putU32 status

def handleMsg (id : Nat) (handle : Bytes) : Bytes := [102] ++ putU32 id ++ putString handle

def dataMsg (id : Nat) (data : Bytes) : Bytes := [103] ++ putU32 id ++ putString data

def calm : Event Call Answer → Bool
  | ⟨.interrupted, stopped⟩ => !stopped
  | _ => true

lemma uninterrupted_of_calm (h : trace.all calm = true) : Uninterrupted trace :=
  fun hMem => absurd (List.all_eq_true.1 h _ hMem) Bool.false_ne_true

lemma returns_of_status {out : Except Stop (Int × Conn) × α} {status : Int}
    (h : out.1.toOption.map Prod.fst = some status) : ∃ last, out.1 = .ok (status, last) := by
  obtain ⟨⟨found, last⟩, hOk, rfl⟩ := Option.map_eq_some_iff.1 h
  exact ⟨last, toOption_eq_some.1 hOk⟩

end SftpClient
