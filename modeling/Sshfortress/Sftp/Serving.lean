import Sshfortress.Sftp.Dispatch
import Sshfortress.Sftp.Handles

/-! How the handlers of the SFTP server are put together. Between looking at the state and
sending its reply a handler makes system calls; nothing it does depends on the input queue. -/
namespace Sftp
open Base Base.Wire Handler List

def Answers (id : Nat) (reply : Bytes) : Prop :=
  ∃ type payload, reply = type :: (putU32 id ++ payload)

variable {only : Sys → Prop} {α β : Type} {id : Nat}

/-- Work that sends nothing, with system calls of some kind only. -/
inductive Calm (only : Sys → Prop) : {α : Type} → SftpM α → Prop where
  | pure {α : Type} (a : α) : Calm only (pure a : SftpM α)
  | sys {request : Sys} (h : only request) : Calm only (sys request)
  | bind {α β : Type} {m : SftpM α} {f : α → SftpM β} (hm : Calm only m) (hf : ∀ a, Calm only (f a)) :
      Calm only (m >>= f)
  | look {α : Type} {f : Server → SftpM α} (hSame : ∀ s queue, f { s with iqueue := queue } = f s)
      (hf : ∀ s, Calm only (f s)) : Calm only (get >>= f)
  | countRead (handle : Option Nat) (bytes : Nat) :
      Calm only (modify fun s => s.handleUpdateRead handle bytes)
  | countWrite (handle : Option Nat) (bytes : Nat) :
      Calm only (modify fun s => s.handleUpdateWrite handle bytes)

/-- Work that sends one reply. A new handle is entered, and an open one given back, before
the reply. -/
inductive Serves (only : Sys → Prop) (id : Nat) : SftpM Unit → Prop where
  | send {msg : Bytes} (h : Answers id msg) : Serves only id (sendMsg msg)
  | after {α : Type} {m : SftpM α} {f : α → SftpM Unit} (hm : Calm only m)
      (hf : ∀ a, Serves only id (f a)) : Serves only id (m >>= f)
  | before {m : SftpM Unit} {f : Unit → SftpM Unit} (hm : Serves only id m)
      (hf : ∀ a, Calm only (f a)) : Serves only id (m >>= f)
  | look {f : Server → SftpM Unit} (hSame : ∀ s queue, f { s with iqueue := queue } = f s)
      (hf : ∀ s, Serves only id (f s)) : Serves only id (get >>= f)
  | enter (entry : Entry) {failed : SftpM Unit} {done : Nat → SftpM Unit}
      (hFailed : Serves only id failed) (hDone : ∀ handle, Serves only id (done handle)) :
      Serves only id (do
        let s ← get
        match s.handleNew entry.use entry.name entry.fd entry.flags entry.dirp with
        | (none, next) =>
          set next
          failed
        | (some handle, next) =>
          set next
          done handle)
  | close (handle : Bytes) (hFile : ∀ fd, only (.close fd)) (hDir : ∀ dirp, only (.closedir dirp)) :
      Serves only id (processClose id handle)

variable {c : Prop} {m : SftpM α} {request : Sys} {f : Resp request → SftpM Unit}

lemma Calm.ite [Decidable c] {n : SftpM α} (hm : Calm only m) (hn : Calm only n) :
    Calm only (if c then m else n) := by
  split
  · exact hm
  · exact hn

lemma Serves.ite [Decidable c] {m n : SftpM Unit} (hm : Serves only id m) (hn : Serves only id n) :
    Serves only id (if c then m else n) := by
  split
  · exact hm
  · exact hn

lemma Calm.within (h : Calm only m) : Only only m := by
  induction h with
  | pure a => exact .pure a
  | sys h => exact .ask h
  | bind _ _ hm hf => exact hm.bind hf
  | look _ _ hf => exact Only.get.bind hf
  | countRead => exact .modify _
  | countWrite => exact .modify _

lemma Serves.within {m : SftpM Unit} (h : Serves only id m) : Only only m := by
  induction h with
  | send => exact only_sendMsg only _
  | after hm _ hf => exact hm.within.bind hf
  | before _ hf hm => exact hm.bind fun a => (hf a).within
  | look _ _ hf => exact Only.get.bind hf
  | enter entry _ _ hFailed hDone =>
    refine Only.get.bind fun s => ?_
    obtain ⟨_ | handle, next⟩ := s.handleNew entry.use entry.name entry.fd entry.flags entry.dirp
    · exact (Only.set _).bind fun _ => hFailed
    · exact (Only.set _).bind fun _ => hDone handle
  | close handle hFile hDir =>
    refine Only.bind (Only.get.bind fun _ => Only.pure _) fun handle => Only.get.bind fun s => ?_
    cases handle with
    | none => exact only_sendStatus _ id _
    | some i =>
      dsimp only
      split
      · exact Only.bind (.ask (hFile _)) fun _ => Only.bind (.modify _) fun _ => only_sendStatus _ id _
      · exact Only.bind (.ask (hDir _)) fun _ => Only.bind (.modify _) fun _ => only_sendStatus _ id _
      · exact only_sendStatus _ id _

/-! The parts of the handlers. -/

lemma calm_getHandle (handle : Bytes) : Calm only (getHandle handle) :=
  .look (fun _ _ => rfl) fun _ => .pure _

lemma calm_submitAudit (cfg : Config) (formatted : Bytes) (h : ∀ sql, only (.mysqlQuery sql)) :
    Calm only (submitAudit cfg formatted) := by
  unfold submitAudit
  split
  · exact .bind (.sys (h _)) fun _ => .pure _
  · exact .pure _

lemma calm_applyAttr (a : Attrib) (bit : Nat) (status : Status) {change : SftpM (Except Errno Unit)}
    (h : Calm only change) : Calm only (applyAttr a bit status change) := by
  unfold applyAttr
  split
  · exact h.bind fun _ => .pure _
  · exact .pure _

lemma calm_seekForWrite (flags fd off : Nat) (h : only (.lseek fd off)) :
    Calm only (seekForWrite flags fd off) :=
  .ite (.pure _) (.sys h)

lemma calm_collectStats (hs : ∀ name, only (.lstat name)) (hLs : ∀ name st, only (.lsFile name st))
    (path : Bytes) (room : Nat) (entries : List Bytes) : Calm only (collectStats path room entries) := by
  induction entries generalizing room with
  | nil => cases room <;> exact .pure _
  | cons name rest ih =>
    cases room with
    | zero => exact .pure _
    | succ room =>
      refine .bind (.sys (hs _)) fun r => ?_
      cases r with
      | error e => exact ih (room + 1)
      | ok st => exact .bind (.sys (hLs _ _)) fun _ => (ih room).bind fun _ => .pure _

protected lemma Serves.sendStatus (status : Status) : Serves only id (sendStatus id status) := by
  refine .look (fun _ _ => rfl) fun s => .send ?_
  exact ⟨101, _, by simp only [cons_append, append_assoc]; rfl⟩

lemma Serves.sendDataOrHandle (type : UInt8) (data : Bytes) :
    Serves only id (sendDataOrHandle type id data) :=
  .send ⟨type, _, rfl⟩

lemma Serves.sendNames (stats : List (Bytes × Bytes × Attrib)) : Serves only id (sendNames id stats) :=
  .send ⟨104, _, by simp only [cons_append, append_assoc]; rfl⟩

lemma Serves.sendStatResult (r : Except Errno FileStat) : Serves only id (sendStatResult id r) := by
  cases r with
  | error e => exact .sendStatus _
  | ok st => exact .send ⟨105, _, rfl⟩

lemma Serves.sendPathResult (r : Except Errno Bytes) : Serves only id (sendPathResult id r) := by
  cases r with
  | error e => exact .sendStatus _
  | ok path => exact .sendNames _

lemma Serves.sendStatvfsResult (r : Except Errno StatVfs) : Serves only id (sendStatvfsResult id r) := by
  cases r with
  | error e => exact .sendStatus _
  | ok st => exact .send ⟨201, _, by simp only [cons_append, append_assoc]; rfl⟩

lemma Serves.ask (h : only request) (hf : ∀ r, Serves only id (f r)) :
    Serves only id (Sftp.sys request >>= f) :=
  .after (.sys h) hf

lemma Serves.audited (cfg : Config) {line : Bytes} (ha : ∀ sql, only (.mysqlQuery sql))
    (h : only request) (hf : ∀ r, Serves only id (f r)) :
    Serves only id (submitAudit cfg line >>= fun _ => Sftp.sys request >>= f) :=
  .after (calm_submitAudit cfg line ha) fun _ => .ask h hf

lemma Serves.withFd (handle : Bytes) (missing : Status) (body : Option Nat → Server → Nat → SftpM Unit)
    (hSame : ∀ handle s fd queue, body handle { s with iqueue := queue } fd = body handle s fd)
    (hb : ∀ handle s fd, Serves only id (body handle s fd)) :
    Serves only id (do
      let handle ← getHandle handle
      let s ← get
      match s.handleToFd handle with
      | none => sendStatus id missing
      | some fd => body handle s fd) := by
  refine .after (calm_getHandle handle) fun handle => .look (fun s queue => ?_) fun s => ?_
  · have hFd : ({ s with iqueue := queue } : Server).handleToFd handle = s.handleToFd handle := rfl
    rw [hFd]
    cases s.handleToFd handle with
    | none => rfl
    | some fd => exact hSame handle s fd queue
  · cases s.handleToFd handle with
    | none => exact .sendStatus missing
    | some fd => exact hb handle s fd

/-! The handlers. -/

lemma openResult_serves {name : Bytes} {flags : Nat} (r : Except Errno Nat) (h : ∀ fd, only (.close fd)) :
    Serves only id (openResult id name flags r) := by
  cases r with
  | error e => exact .sendStatus _
  | ok fd =>
    exact .enter ⟨false, name, fd, flags, 0⟩ (.ask (h fd) fun _ => .sendStatus _)
      fun handle => .sendDataOrHandle 102 (putU32 handle)

lemma processOpendir_serves (path : Bytes) (ho : only (.opendir path))
    (hc : ∀ dirp, only (.closedir dirp)) : Serves only id (processOpendir id path) := by
  refine .ask ho fun r => ?_
  cases r with
  | error e => exact .sendStatus _
  | ok dirp =>
    exact .enter ⟨true, path, 0, 0, dirp⟩ (.ask (hc dirp) fun _ => .sendStatus _)
      fun handle => .sendDataOrHandle 102 (putU32 handle)

lemma processRead_serves (handle : Bytes) (off len : Nat) (hs : ∀ fd, only (.lseek fd off))
    (hr : ∀ fd len, only (.read fd len)) : Serves only id (processRead id handle off len) := by
  refine .withFd handle .failure (fun handle _ fd => _) (fun _ _ _ _ => rfl) fun handle s fd => ?_
  refine .ask (hs fd) fun seek => ?_
  cases seek with
  | error e => exact .sendStatus _
  | ok _ =>
    refine .ask (hr fd _) fun r => ?_
    cases r with
    | error e => exact .sendStatus _
    | ok data => exact .ite (.sendStatus _) (.before (.sendDataOrHandle _ _) fun _ => .countRead _ _)

lemma processWrite_serves (handle : Bytes) (off : Nat) (data : Bytes) (hs : ∀ fd, only (.lseek fd off))
    (hw : ∀ fd, only (.write fd data)) : Serves only id (processWrite id handle off data) := by
  refine .withFd handle .failure (fun handle s fd => _) (fun _ _ _ _ => rfl) fun handle s fd => ?_
  refine .after (calm_seekForWrite _ fd off (hs fd)) fun seek => ?_
  cases seek with
  | error e => exact .sendStatus _
  | ok _ =>
    refine .ask (hw fd) fun r => ?_
    cases r with
    | error e => exact .sendStatus _
    | ok written =>
      exact .ite (.after (.countWrite _ _) fun _ => .sendStatus _) (.sendStatus _)

lemma processReaddir_serves (handle : Bytes) (hr : ∀ dirp, only (.readdir dirp))
    (hs : ∀ name, only (.lstat name)) (hLs : ∀ name st, only (.lsFile name st)) :
    Serves only id (processReaddir id handle) := by
  refine .after (calm_getHandle handle) fun handle => .look (fun _ _ => rfl) fun s => ?_
  split
  · refine .ask (hr _) fun entries => .after (calm_collectStats hs hLs _ _ _) fun stats => ?_
    exact .ite (.sendStatus _) (.sendNames _)
  · exact .sendStatus _

lemma renameUnlessExists_serves {oldpath newpath : Bytes} (hs : only (.stat newpath))
    (hr : only (.rename oldpath newpath)) : Serves only id (renameUnlessExists id oldpath newpath) := by
  refine .ask hs fun st => ?_
  cases st with
  | ok _ => exact .sendStatus _
  | error _ => exact .ask hr fun _ => .sendStatus _

lemma processRename_eq (cfg : Config) (id : Nat) (oldpath newpath : Bytes) :
    ∃ renames : Except Errno FileStat → SftpM Unit, processRename cfg id oldpath newpath = (do
      submitAudit cfg (oldNew "rename" oldpath newpath)
      let sb : Except Errno FileStat ← sys (.lstat oldpath)
      renames sb) ∧
      ∀ only : Sys → Prop, only (.stat newpath) → only (.rename oldpath newpath) →
        only (.link oldpath newpath) → only (.unlink oldpath) → only (.unlink newpath) →
        ∀ sb, Serves only id (renames sb) := by
  refine ⟨_, rfl, fun only hs hr hl hOld hNew sb => ?_⟩
  cases sb with
  | error e => exact .sendStatus _
  | ok sb =>
    refine .ite (.ask hl fun linked => ?_) (renameUnlessExists_serves hs hr)
    cases linked with
    | error e => exact .ite (renameUnlessExists_serves hs hr) (.sendStatus _)
    | ok _ =>
      refine .ask hOld fun removed => ?_
      cases removed with
      | error e => exact .ask hNew fun _ => .sendStatus _
      | ok _ => exact .sendStatus _

/-- Calls that can modify the file system. -/
def Sys.modifies : Sys → Bool
  | .open _ flags _ => flags &&& oAccmode != oRdonly || hasFlag flags oCreat || hasFlag flags oTrunc
  | .write .. | .truncate .. | .ftruncate .. | .chmod .. | .fchmod .. | .utimes .. | .futimes ..
  | .chown .. | .fchown .. | .unlink _ | .mkdir .. | .rmdir _ | .link .. | .rename ..
  | .symlink .. => true
  | .close _ | .lseek .. | .read .. | .stat _ | .lstat _ | .fstat _ | .opendir _ | .readdir _
  | .closedir _ | .realpath _ | .readlink _ | .statvfs _ | .fstatvfs _ | .fsync _ | .lsFile ..
  | .mysqlQuery _ => false

section
variable (cfg : Config)

lemma processSetstat_serves (name : Bytes) (a : Attrib) (h : ∀ call, only call) :
    Serves only id (processSetstat cfg id name a) := by
  have ha : ∀ line request, Calm only (submitAudit cfg line >>= fun _ => sys request) :=
    fun line request => (calm_submitAudit cfg line fun _ => h _).bind fun _ => .sys (h _)
  refine .after (calm_applyAttr a _ _ (ha _ _)) fun _ => ?_
  refine .after (calm_applyAttr a _ _ (ha _ _)) fun _ => ?_
  refine .after (calm_applyAttr a _ _ (.sys (h _))) fun _ => ?_
  exact .after (calm_applyAttr a _ _ (ha _ _)) fun _ => .sendStatus _

lemma processFsetstat_serves (handle : Bytes) (a : Attrib) (h : ∀ call, only call) :
    Serves only id (processFsetstat cfg id handle a) := by
  refine .withFd handle .failure (fun handle s fd => _) (fun _ _ _ _ => rfl) fun handle s fd => ?_
  refine .after (calm_applyAttr a _ _ (.sys (h _))) fun _ => ?_
  refine .after (calm_applyAttr a _ _ (.sys (h _))) fun _ => ?_
  refine .after (calm_applyAttr a _ _ (.sys (h _))) fun _ => ?_
  refine .after (calm_applyAttr a _ _ ?_) fun _ => .sendStatus _
  exact (calm_submitAudit cfg _ fun _ => h _).bind fun _ => .sys (h _)

/-- Every handler sends one reply. Only those that write, and `open`, modify anything. -/
lemma perform_serves (request : Request) (hq : ∀ call : Sys, call.modifies = false → only call)
    (ho : (request.doesWrite = true ∨ ∃ name pflags a, request = .open name pflags a) → ∀ call, only call) :
    Serves only id (perform cfg id request) := by
  have ha : ∀ sql, only (.mysqlQuery sql) := fun _ => hq _ rfl
  have hw : request.doesWrite = true → ∀ call, only call := fun h => ho (.inl h)
  have hSame : ∀ {f : Nat → SftpM Unit} (_ : Option Nat) (_ : Server) (fd : Nat) (_ : Bytes), f fd = f fd :=
    fun _ _ _ _ => rfl
  cases request with
  | «open» name pflags a =>
    refine .after (calm_submitAudit cfg _ ha) fun _ => .ite (.sendStatus _) ?_
    exact .ask (ho (.inr ⟨name, pflags, a, rfl⟩) _) fun r => openResult_serves r fun _ => hq _ rfl
  | close handle => exact .close handle (fun _ => hq _ rfl) fun _ => hq _ rfl
  | read handle off len =>
    exact processRead_serves handle off len (fun _ => hq _ rfl) fun _ _ => hq _ rfl
  | write handle off data =>
    exact processWrite_serves handle off data (fun _ => hq _ rfl) fun _ => hw rfl _
  | lstat name => exact .ask (hq _ rfl) fun r => .sendStatResult r
  | fstat handle =>
    exact .withFd handle .failure _ hSame fun _ _ _ => .ask (hq _ rfl) fun r => .sendStatResult r
  | setstat name a => exact processSetstat_serves cfg name a (hw rfl)
  | fsetstat handle a => exact processFsetstat_serves cfg handle a (hw rfl)
  | opendir path => exact processOpendir_serves path (hq _ rfl) fun _ => hq _ rfl
  | readdir handle =>
    exact processReaddir_serves handle (fun _ => hq _ rfl) (fun _ => hq _ rfl) fun _ _ => hq _ rfl
  | remove name => exact .audited cfg ha (hw rfl _) fun _ => .sendStatus _
  | mkdir name a => exact .audited cfg ha (hw rfl _) fun _ => .sendStatus _
  | rmdir name => exact .audited cfg ha (hw rfl _) fun _ => .sendStatus _
  | realpath path => exact .ask (hq _ rfl) fun r => .sendPathResult r
  | stat name => exact .ask (hq _ rfl) fun r => .sendStatResult r
  | rename oldpath newpath =>
    obtain ⟨renames, hEq, hs⟩ := processRename_eq cfg id oldpath newpath
    have hAll := hw rfl
    rw [perform, hEq]
    exact .audited cfg ha (hAll _) (hs _ (hAll _) (hAll _) (hAll _) (hAll _) (hAll _))
  | readlink path => exact .ask (hq _ rfl) fun r => .sendPathResult r
  | symlink oldpath newpath => exact .audited cfg ha (hw rfl _) fun _ => .sendStatus _
  | posixRename oldpath newpath => exact .audited cfg ha (hw rfl _) fun _ => .sendStatus _
  | statvfs path => exact .audited cfg ha (hq _ rfl) fun r => .sendStatvfsResult r
  | fstatvfs handle =>
    exact .withFd handle .failure _ hSame fun _ _ _ => .ask (hq _ rfl) fun r => .sendStatvfsResult r
  | hardlink oldpath newpath => exact .audited cfg ha (hw rfl _) fun _ => .sendStatus _
  | fsync handle =>
    exact .withFd handle .noSuchFile _ hSame fun _ _ _ => .ask (hq _ rfl) fun _ => .sendStatus _

end

end Sftp
