import Sshfortress.Sftp.Serving

/-! Read-only mode. The tables ban every handler that writes, and `processOpen`
refuses to open for writing; what is left over is an `open` that does not write
but creates or truncates. -/
namespace Sftp

open Base Base.Wire Handler

def Sys.Inspects (request : Sys) : Prop := request.modifies = false

/-- An `open` for reading, or for nothing, that asks to create or to truncate. -/
def Request.createsUnwritten : Request → Bool
  | .open _ pflags _ =>
    !hasFlag pflags fxfWrite && (hasFlag pflags fxfCreat || hasFlag pflags fxfTrunc)
  | _ => false

variable {only : Sys → Prop} {pflags : Nat} {name : Bytes} (id : Nat)

lemma perform_inspects (cfg : Config) {request : Request} (hr : request.doesWrite = false)
    (hOpen : ∀ name pflags a, request ≠ .open name pflags a) :
    Only Sys.Inspects (perform cfg id request) := by
  refine (perform_serves cfg request (fun _ hc => hc) fun ho => ?_).within
  rcases ho with hw | ⟨name, pflags, a, hs⟩
  · cases hr.symm.trans hw
  · exact absurd hs (hOpen name pflags a)

lemma flagsFromPortable_write (h : hasFlag pflags fxfWrite = true) :
    (flagsFromPortable pflags &&& oAccmode == oWronly ||
      flagsFromPortable pflags &&& oAccmode == oRdwr) = true := by
  unfold flagsFromPortable
  rw [h]
  generalize hasFlag pflags fxfRead = read
  generalize hasFlag pflags fxfAppend = append
  generalize hasFlag pflags fxfCreat = creat
  generalize hasFlag pflags fxfTrunc = trunc
  generalize hasFlag pflags fxfExcl = excl
  revert read append creat trunc excl
  decide

lemma flagsFromPortable_inspects {mode : Nat} (hw : hasFlag pflags fxfWrite = false)
    (hc : hasFlag pflags fxfCreat = false) (ht : hasFlag pflags fxfTrunc = false) :
    (Sys.open name (flagsFromPortable pflags) mode).Inspects := by
  simp only [Sys.Inspects, Sys.modifies]
  unfold flagsFromPortable
  rw [hw, hc, ht]
  generalize hasFlag pflags fxfRead = read
  generalize hasFlag pflags fxfAppend = append
  generalize hasFlag pflags fxfExcl = excl
  revert read append excl
  decide

lemma processOpen_inspects {cfg : Config} (hr : cfg.readonly = true) {a : Attrib}
    (h : (Request.open name pflags a).createsUnwritten = false) :
    Only Sys.Inspects (processOpen cfg id name pflags a) := by
  refine Only.bind (calm_submitAudit cfg _ fun _ => rfl).within fun _ => ?_
  cases hw : hasFlag pflags fxfWrite with
  | true =>
    rw [flagsFromPortable_write hw, hr]
    exact only_sendStatus _ id _
  | false =>
    have hq : hasFlag pflags fxfCreat = false ∧ hasFlag pflags fxfTrunc = false := by
      simpa [Request.createsUnwritten, hw] using h
    refine Only.ite (only_sendStatus _ id _) ?_
    refine Only.bind (.ask (flagsFromPortable_inspects hw hq.1 hq.2)) fun r => ?_
    exact (openResult_serves r fun _ => rfl).within

/-- In read-only mode a turn of the main loop modifies nothing, unless the
pending request is an `open` that creates or truncates without writing. -/
lemma turn_inspects {cfg : Config} (hr : cfg.readonly = true) {input : Bytes} {s : Server}
    (h : ∀ request ∈ pendingRequest cfg (s.receive input), request.createsUnwritten = false) :
    Prog.Meets (fun _ => Sys.Inspects) (fun _ _ => True) (turn cfg input s) := by
  unfold turn
  rw [Prog.meets_bind]
  refine meets_process (s := s.receive input) ?_
  intro request id rest hp hb
  by_cases ho : ∃ name pflags a, request = .open name pflags a
  · obtain ⟨name, pflags, a, rfl⟩ := ho
    exact processOpen_inspects id hr (h _ hp) _
  · push Not at ho
    exact perform_inspects id cfg (hb hr) ho _

def InspectsOnly (run : List (Bytes × Server × Trace Sys Resp)) : Prop :=
  ∀ entry ∈ run, ∀ event ∈ entry.2.2, event.request.modifies = false

/-- A server in read-only mode, whatever the clients send and the calls answer,
modifies the file system only through an `open` that creates or truncates
without asking to write. -/
theorem readonly_serve_inspects (cfg : Config) (hReadonly : cfg.readonly = true)
    (env : Env Sys Resp) (inputs : List Bytes) (start : Server)
    (hOpens : ∀ entry ∈ Prog.serve (turn cfg) env inputs start,
      ∀ request ∈ pendingRequest cfg (entry.2.1.receive entry.1), request.createsUnwritten = false) :
    InspectsOnly (Prog.serve (turn cfg) env inputs start) := by
  intro entry hEntry event hEvent
  obtain ⟨before, after, hTrace⟩ := List.append_of_mem hEvent
  exact Prog.serve_calls (fun _ => True)
    (fun input s => ∀ request ∈ pendingRequest cfg (s.receive input), request.createsUnwritten = false)
    (fun _ _ _ => Sys.Inspects)
    (fun input s _ h => turn_inspects hReadonly h) env inputs start trivial hOpens
    entry hEntry before event after hTrace

/-! A server on which every call succeeds. -/

def Sys.succeed : (request : Sys) → Resp request
  | .open .. | .opendir _ => .ok 3
  | .read .. | .realpath _ | .readlink _ => .ok (text "x")
  | .write _ data => .ok data.length
  | .stat _ | .lstat _ | .fstat _ => .ok ⟨0o100644, 0, 0, 0, 0, 0⟩
  | .readdir _ => []
  | .statvfs _ | .fstatvfs _ => .ok ⟨0, 0, 0, 0, 0, 0, 0, 0, 0, false, false, 0⟩
  | .lsFile .. => []
  | .mysqlQuery _ => true
  | .close _ | .lseek .. | .truncate .. | .ftruncate .. | .chmod .. | .fchmod ..
  | .utimes .. | .futimes .. | .chown .. | .fchown .. | .closedir _ | .unlink _
  | .mkdir .. | .rmdir _ | .link .. | .rename .. | .symlink .. | .fsync _ => .ok ()

def readonlyConfig : Config := ⟨true, none, none, text "alice", by decide, false⟩

def initMessage : Bytes := putString ([1] ++ putU32 3)

def openMessage (name : Bytes) (pflags : Nat) : Bytes :=
  putString ([3] ++ putU32 7 ++ putString name ++ putU32 pflags ++ encodeAttrib attribClear)

/-- Reading a file is served, and modifies nothing. -/
theorem readonly_serve_inspects_read : InspectsOnly (Prog.serve (turn readonlyConfig) (fun _ => Sys.succeed)
    [initMessage, openMessage (text "/etc/motd") fxfRead] Server.initial) :=
  readonly_serve_inspects readonlyConfig rfl _ _ _ (by decide)

/-- Asking to read and to create opens a new file in read-only mode. -/
theorem readonly_serve_creates : ¬ InspectsOnly (Prog.serve (turn readonlyConfig) (fun _ => Sys.succeed)
    [initMessage, openMessage (text "/tmp/new") (fxfRead ||| fxfCreat)] Server.initial) := by
  unfold InspectsOnly
  decide

end Sftp
