import Sshfortress.Base.Interaction
import Sshfortress.Base.Wire

/-! The data of the SFTP server: protocol constants, attributes, the handle
table, the state of the process, and the system calls it can make. Logging is
not modelled; nothing the server decides depends on it. -/
namespace Sftp

open Base Base.Wire

def hasFlag (flags bit : Nat) : Bool := flags &&& bit != 0

/-! Portable open modes and the flags of `open(2)` on the target system. -/

def fxfRead : Nat := 0x01
def fxfWrite : Nat := 0x02
def fxfAppend : Nat := 0x04
def fxfCreat : Nat := 0x08
def fxfTrunc : Nat := 0x10
def fxfExcl : Nat := 0x20

def oRdonly : Nat := 0
def oWronly : Nat := 1
def oRdwr : Nat := 2
def oAccmode : Nat := 3
def oCreat : Nat := 0o100
def oExcl : Nat := 0o200
def oTrunc : Nat := 0o1000
def oAppend : Nat := 0o2000

def flagsFromPortable (pflags : Nat) : Nat :=
  let flags :=
    if hasFlag pflags fxfRead && hasFlag pflags fxfWrite then oRdwr
    else if hasFlag pflags fxfRead then oRdonly
    else if hasFlag pflags fxfWrite then oWronly
    else 0
  let flags := if hasFlag pflags fxfAppend then flags ||| oAppend else flags
  let flags := if hasFlag pflags fxfCreat then flags ||| oCreat else flags
  let flags := if hasFlag pflags fxfTrunc then flags ||| oTrunc else flags
  if hasFlag pflags fxfExcl then flags ||| oExcl else flags

def appendName (present : Bool) (name : String) (ret : Bytes) : Bytes :=
  if present then (if ret = [] then ret else ret ++ text ",") ++ text name else ret

/-- The names of the portable flags that are set, with commas between. -/
def stringFromPortable (pflags : Nat) : Bytes :=
  let ret := appendName (hasFlag pflags fxfRead) "READ" []
  let ret := appendName (hasFlag pflags fxfWrite) "WRITE" ret
  let ret := appendName (hasFlag pflags fxfAppend) "APPEND" ret
  let ret := appendName (hasFlag pflags fxfCreat) "CREATE" ret
  let ret := appendName (hasFlag pflags fxfTrunc) "TRUNCATE" ret
  appendName (hasFlag pflags fxfExcl) "EXCL" ret

inductive Errno where
  | enoent | enotdir | ebadf | eloop
  | eperm | eacces | efault
  | enametoolong | einval
  | enosys | eopnotsupp | exdev
  | other (code : Nat)
  deriving DecidableEq

inductive Status where
  | ok | eof | noSuchFile | permissionDenied | failure
  | badMessage | noConnection | connectionLost | opUnsupported
  deriving DecidableEq

def Status.code : Status → Nat
  | .ok => 0
  | .eof => 1
  | .noSuchFile => 2
  | .permissionDenied => 3
  | .failure => 4
  | .badMessage => 5
  | .noConnection => 6
  | .connectionLost => 7
  | .opUnsupported => 8

def statusToMessage : Status → Bytes
  | .ok => text "Success"
  | .eof => text "End of file"
  | .noSuchFile => text "No such file"
  | .permissionDenied => text "Permission denied"
  | .failure => text "Failure"
  | .badMessage => text "Bad message"
  | .noConnection => text "No connection"
  | .connectionLost => text "Connection lost"
  | .opUnsupported => text "Operation unsupported"

def errnoToPortable : Errno → Status
  | .enoent | .enotdir | .ebadf | .eloop => .noSuchFile
  | .eperm | .eacces | .efault => .permissionDenied
  | .enametoolong | .einval => .badMessage
  | .enosys => .opUnsupported
  | .eopnotsupp | .exdev | .other _ => .failure

/-! Attributes on the wire. -/

def attrSize : Nat := 0x01
def attrUidgid : Nat := 0x02
def attrPermissions : Nat := 0x04
def attrAcmodtime : Nat := 0x08
def attrExtended : Nat := 0x80000000

structure Attrib where
  (flags size uid gid perm atime mtime : Nat)
  deriving DecidableEq

def attribClear : Attrib := ⟨0, 0, 0, 0, 0, 0, 0⟩

def getWhen (present : Bool) (getter : Getter Nat) : Getter Nat := fun queue =>
  if present then getter queue else some (0, queue)

/-- The vendor extensions are read and dropped. -/
def skipExtended : Nat → Getter Unit
  | 0, queue => some ((), queue)
  | count + 1, queue =>
    match getCstring queue with
    | none => none
    | some (_, queue) =>
      match getString queue with
      | none => none
      | some (_, queue) => skipExtended count queue

def decodeAttrib : Getter Attrib := fun queue => do
  let (flags, queue) ← getU32 queue
  let (size, queue) ← getWhen (hasFlag flags attrSize) getU64 queue
  let (uid, queue) ← getWhen (hasFlag flags attrUidgid) getU32 queue
  let (gid, queue) ← getWhen (hasFlag flags attrUidgid) getU32 queue
  let (perm, queue) ← getWhen (hasFlag flags attrPermissions) getU32 queue
  let (atime, queue) ← getWhen (hasFlag flags attrAcmodtime) getU32 queue
  let (mtime, queue) ← getWhen (hasFlag flags attrAcmodtime) getU32 queue
  let (count, queue) ← getWhen (hasFlag flags attrExtended) getU32 queue
  let (_, queue) ← skipExtended count queue
  return (⟨flags, size, uid, gid, perm, atime, mtime⟩, queue)

def encodeAttrib (a : Attrib) : Bytes :=
  putU32 a.flags ++
  (if hasFlag a.flags attrSize then putU64 a.size else []) ++
  (if hasFlag a.flags attrUidgid then putU32 a.uid ++ putU32 a.gid else []) ++
  (if hasFlag a.flags attrPermissions then putU32 a.perm else []) ++
  (if hasFlag a.flags attrAcmodtime then putU32 a.atime ++ putU32 a.mtime else [])

/-- The fields of `struct stat` that the server looks at. -/
structure FileStat where
  (mode size uid gid atime mtime : Nat)
  deriving DecidableEq

def FileStat.isRegular (st : FileStat) : Bool := st.mode &&& 0o170000 == 0o100000

def statToAttrib (st : FileStat) : Attrib where
  flags := attrSize ||| attrUidgid ||| attrPermissions ||| attrAcmodtime
  size := st.size
  uid := st.uid
  gid := st.gid
  perm := st.mode
  atime := st.atime
  mtime := st.mtime

structure StatVfs where
  (bsize frsize blocks bfree bavail files ffree favail fsid : Nat)
  (rdonly nosuid : Bool)
  namemax : Nat
  deriving DecidableEq

/-! The surroundings of the server. -/

inductive Sys where
  | open (name : Bytes) (flags mode : Nat)
  | close (fd : Nat)
  | lseek (fd off : Nat)
  | read (fd len : Nat)
  | write (fd : Nat) (data : Bytes)
  | stat (name : Bytes)
  | lstat (name : Bytes)
  | fstat (fd : Nat)
  | truncate (name : Bytes) (size : Nat)
  | ftruncate (fd size : Nat)
  | chmod (name : Bytes) (mode : Nat)
  | fchmod (fd mode : Nat)
  | utimes (name : Bytes) (atime mtime : Nat)
  | futimes (fd atime mtime : Nat)
  | chown (name : Bytes) (uid gid : Nat)
  | fchown (fd uid gid : Nat)
  | opendir (path : Bytes)
  | readdir (dirp : Nat)
  | closedir (dirp : Nat)
  | unlink (name : Bytes)
  | mkdir (name : Bytes) (mode : Nat)
  | rmdir (name : Bytes)
  | realpath (path : Bytes)
  | link (oldpath newpath : Bytes)
  | rename (oldpath newpath : Bytes)
  | readlink (path : Bytes)
  | symlink (oldpath newpath : Bytes)
  | statvfs (path : Bytes)
  | fstatvfs (fd : Nat)
  | fsync (fd : Nat)
  | lsFile (name : Bytes) (st : FileStat)
  | mysqlQuery (sql : Bytes)
  deriving DecidableEq

/-- What each call can answer. `readdir` stands for the whole loop over one
directory stream and answers the entries that are left in it. -/
def Resp : Sys → Type
  | .open .. | .opendir _ => Except Errno Nat
  | .read .. | .realpath _ | .readlink _ => Except Errno Bytes
  | .write .. => Except Errno Nat
  | .stat _ | .lstat _ | .fstat _ => Except Errno FileStat
  | .readdir _ => List Bytes
  | .statvfs _ | .fstatvfs _ => Except Errno StatVfs
  | .lsFile .. => Bytes
  | .mysqlQuery _ => Bool
  | .close _ | .lseek .. | .truncate .. | .ftruncate .. | .chmod .. | .fchmod ..
  | .utimes .. | .futimes .. | .chown .. | .fchown .. | .closedir _ | .unlink _
  | .mkdir .. | .rmdir _ | .link .. | .rename .. | .symlink .. | .fsync _ => Except Errno Unit

/-! The handle table. -/

inductive HandleUse where
  | unused | dir | file
  deriving DecidableEq

structure Handle where
  use : HandleUse
  (dirp fd flags : Nat)
  name : Bytes
  (bytesRead bytesWrite : Nat)
  nextUnused : Option Nat
  deriving DecidableEq

def Handle.blank : Handle := ⟨.unused, 0, 0, 0, [], 0, 0, none⟩

/-- The settings that never change while the server runs. The name of the
audited user is a fixed array of the process, which bounds its length. -/
structure Config where
  readonly : Bool
  (requestWhitelist requestBlacklist : Option Bytes)
  audituser : Bytes
  audituserFits : audituser.length < 256
  connected : Bool

structure Server where
  version : Nat
  initDone : Bool
  handles : List Handle
  firstUnusedHandle : Option Nat
  (iqueue oqueue : Bytes)
  deriving DecidableEq

def Server.initial : Server := ⟨0, false, [], none, [], []⟩

abbrev SftpM := Handler Sys Resp Server

namespace Server

def handleUnused (s : Server) (i : Nat) : Server :=
  { s with
    handles := s.handles.modify i fun h =>
      { h with use := .unused, nextUnused := s.firstUnusedHandle }
    firstUnusedHandle := some i }

/-- Grow the table by one free slot unless the counter would wrap around. -/
def handleGrow (s : Server) : Option Server :=
  if s.firstUnusedHandle.isSome then some s
  else if (s.handles.length + 1) % 2 ^ 32 ≤ s.handles.length then none
  else
    let grown : Server := { s with handles := s.handles ++ [Handle.blank] }
    some (grown.handleUnused s.handles.length)

def handleNew (s : Server) (use : HandleUse) (name : Bytes) (fd flags dirp : Nat) : Option Nat × Server :=
  match s.handleGrow with
  | none => (none, s)
  | some grown =>
    match grown.firstUnusedHandle with
    | none => (none, grown)
    | some i =>
      let slot := grown.handles.getD i .blank
      (some i, { grown with
        firstUnusedHandle := slot.nextUnused
        handles := grown.handles.set i
          { slot with use, dirp, fd, flags, name, bytesRead := 0, bytesWrite := 0 } })

/-- The slot `i` when it is in use as `use`. Numbers from `2 ^ 31` on are
negative as `int`. -/
def handleIsOk (s : Server) (i : Nat) (use : HandleUse) : Option Handle :=
  if i < 2 ^ 31 then
    match s.handles[i]? with
    | some h => if h.use = use then some h else none
    | none => none
  else none

def handleFromString (s : Server) (handle : Bytes) : Option Nat :=
  if handle.length ≠ 4 then none
  else
    let val := value handle
    if (s.handleIsOk val .file).isSome || (s.handleIsOk val .dir).isSome then some val else none

def handleToName (s : Server) (handle : Option Nat) : Option Bytes :=
  handle.bind fun i =>
    ((s.handleIsOk i .dir).orElse fun _ => s.handleIsOk i .file).map (·.name)

def handleToDir (s : Server) (handle : Option Nat) : Option Nat :=
  handle.bind fun i => (s.handleIsOk i .dir).map (·.dirp)

def handleToFd (s : Server) (handle : Option Nat) : Option Nat :=
  handle.bind fun i => (s.handleIsOk i .file).map (·.fd)

def handleToFlags (s : Server) (handle : Option Nat) : Nat :=
  (handle.bind fun i => (s.handleIsOk i .file).map (·.flags)).getD 0

def handleUpdateRead (s : Server) (handle : Option Nat) (bytes : Nat) : Server :=
  match handle.bind fun i => (s.handleIsOk i .file).map fun h => (i, h) with
  | some (i, h) => { s with handles := s.handles.set i { h with bytesRead := h.bytesRead + bytes } }
  | none => s

def handleUpdateWrite (s : Server) (handle : Option Nat) (bytes : Nat) : Server :=
  match handle.bind fun i => (s.handleIsOk i .file).map fun h => (i, h) with
  | some (i, h) => { s with handles := s.handles.set i { h with bytesWrite := h.bytesWrite + bytes } }
  | none => s

end Server

lemma handleIsOk_eq_some {s : Server} {i : Nat} {use : HandleUse} {slot : Handle} :
    s.handleIsOk i use = some slot ↔ i < 2 ^ 31 ∧ s.handles[i]? = some slot ∧ slot.use = use := by
  unfold Server.handleIsOk
  by_cases hInt : i < 2 ^ 31
  · rw [if_pos hInt, and_iff_right hInt]
    cases s.handles[i]? with
    | none => simp
    | some found =>
      simp only [Option.ite_none_right_eq_some, Option.some.injEq]
      constructor
      · rintro ⟨hUse, rfl⟩
        exact ⟨rfl, hUse⟩
      · rintro ⟨rfl, hUse⟩
        exact ⟨hUse, rfl⟩
  · rw [if_neg hInt]
    simp only [reduceCtorEq, hInt, false_and]

end Sftp
