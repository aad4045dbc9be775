import Sshfortress.Sftp.Server

/-! What one call of `process` can do: the request that stands complete at the
front of the queue, if any, reaches its handler, and nothing else makes a
system call. -/
namespace Sftp

open Base Base.Wire Handler List

/-- The table entry for the complete message at the front of the queue, and
the bytes its arguments start at. -/
def pendingRow (s : Server) : Option (SftpHandler × Bytes) :=
  let msgLen := value (s.iqueue.take 4)
  if s.initDone = false ∨ sftpMaxMsgLength < msgLen ∨ s.iqueue.length < msgLen + 4 then none
  else do
    let (type, queue) ← getU8 (s.iqueue.drop 4)
    let (_, queue) ← getU32 queue
    if type = 200 then
      let (name, queue) ← getCstring queue
      let row ← extendedHandlers.find? fun h => h.extName = some name
      return (row, queue)
    else
      let row ← handlers.find? fun h => h.type = type
      return (row, queue)

/-- The permitted request that `process` hands to its handler next. -/
def pendingRequest (cfg : Config) (s : Server) : Option Request := do
  let (row, queue) ← pendingRow s
  if requestPermitted cfg row then
    let (request, _) ← row.args queue
    return request
  else none

/-- Requests whose handler is banned in read-only mode. -/
def Request.doesWrite : Request → Bool
  | .write .. | .setstat .. | .fsetstat .. | .remove _ | .mkdir .. | .rmdir _ | .rename ..
  | .symlink .. | .posixRename .. | .hardlink .. | .fsync _ => true
  | .open .. | .close _ | .read .. | .lstat _ | .fstat _ | .opendir _ | .readdir _
  | .realpath _ | .stat _ | .readlink _ | .statvfs _ | .fstatvfs _ => false

variable {queue rest : Bytes} {cfg : Config} {α : Type} {request : Request} {row : SftpHandler}
  {first : Getter α}

lemma args1_eq_some {make : α → Request} (h : args1 first make queue = some (request, rest)) :
    ∃ a, request = make a := by
  simp only [args1, Option.bind_eq_bind, Option.bind_eq_some_iff, Prod.exists] at h
  obtain ⟨a, tail, _, hp⟩ := h
  cases hp
  exact ⟨a, rfl⟩

variable {β : Type} {id : Nat} {second : Getter β}

lemma args2_eq_some {make : α → β → Request}
    (h : args2 first second make queue = some (request, rest)) : ∃ a b, request = make a b := by
  simp only [args2, Option.bind_eq_bind, Option.bind_eq_some_iff, Prod.exists] at h
  obtain ⟨a, _, _, b, _, _, hp⟩ := h
  cases hp
  exact ⟨a, b, rfl⟩

lemma args3_eq_some {γ : Type} {third : Getter γ} {make : α → β → γ → Request}
    (h : args3 first second third make queue = some (request, rest)) : ∃ a b c, request = make a b c := by
  simp only [args3, Option.bind_eq_bind, Option.bind_eq_some_iff, Prod.exists] at h
  obtain ⟨a, _, _, b, _, _, c, _, _, hp⟩ := h
  cases hp
  exact ⟨a, b, c, rfl⟩

/-- The `does_write` column says of every table entry what its handler does. -/
lemma row_doesWrite (hRow : row ∈ handlers ++ extendedHandlers)
    (h : row.args queue = some (request, rest)) : request.doesWrite = row.doesWrite := by
  simp only [handlers, extendedHandlers, cons_append, nil_append, mem_cons,
    not_mem_nil, or_false] at hRow
  rcases hRow with rfl | rfl | rfl | rfl | rfl | rfl | rfl | rfl | rfl | rfl | rfl | rfl | rfl |
    rfl | rfl | rfl | rfl | rfl | rfl | rfl | rfl | rfl | rfl
  all_goals
    first
    | (obtain ⟨_, rfl⟩ := args1_eq_some h; rfl)
    | (obtain ⟨_, _, rfl⟩ := args2_eq_some h; rfl)
    | (obtain ⟨_, _, _, rfl⟩ := args3_eq_some h; rfl)

variable {allowed : Trace Sys Resp → Sys → Prop} {s : Server}

@[simp] lemma meets_getArg {getter : Getter α} {post : α → Server → Trace Sys Resp → Prop} :
    Meets allowed post (getArg getter) s ↔
      ∀ v rest, getter s.iqueue = some (v, rest) → post v { s with iqueue := rest } [] := by
  unfold getArg
  rw [meets_bind, meets_get]
  cases hGet : getter s.iqueue with
  | none => simp
  | some pair =>
    obtain ⟨v, rest⟩ := pair
    simp only [meets_bind, meets_set, meets_pure, nil_append, Option.some.injEq, Prod.mk.injEq]
    constructor
    · rintro h v' rest' ⟨rfl, rfl⟩
      exact h
    · intro h
      exact h v rest ⟨rfl, rfl⟩

@[simp] lemma meets_sendMsg {msg : Bytes} {post : Unit → Server → Trace Sys Resp → Prop} :
    Meets allowed post (sendMsg msg) s ↔
      post () { s with oqueue := s.oqueue ++ putString msg } [] := Iff.rfl

variable (only : Sys → Prop)

lemma only_sendMsg (msg : Bytes) : Only only (sendMsg msg) :=
  Only.modify _

lemma only_sendStatus (id : Nat) (status : Status) : Only only (sendStatus id status) :=
  Only.get.bind fun _ => only_sendMsg only _

lemma only_discardRest (msgLen bufLen : Nat) :
    Only only (discardRest msgLen bufLen) := by
  refine Only.get.bind fun s => Only.ite (Only.stop _) ?_
  exact Only.ite (Only.stop _) (Only.ite (Only.stop _) (Only.set _))

lemma meets_handle (h : requestPermitted cfg row = true → ∀ request rest,
    row.args s.iqueue = some (request, rest) →
    Meets allowed (fun _ _ _ => True) (perform cfg id request) { s with iqueue := rest }) :
    Meets allowed (fun _ _ _ => True) (handle cfg id row) s := by
  unfold handle
  split
  · rename_i hp
    rw [meets_bind, meets_getArg]
    intro request rest ha
    exact h hp request rest ha
  · exact (only_sendStatus (fun _ => False) id _).meets fun _ _ => False.elim

lemma requestPermitted_readonly (h : requestPermitted cfg row = true)
    (hr : cfg.readonly = true) : row.doesWrite = false := by
  unfold requestPermitted at h
  split at h
  · cases h
  · rename_i hb
    simpa [hr] using hb

/-- What the handler of the pending request is judged by, whichever queue is
left for it to read. -/
def JudgesPending (cfg : Config) (allowed : Trace Sys Resp → Sys → Prop) (s : Server) : Prop :=
  ∀ request id rest, pendingRequest cfg s = some request →
    (cfg.readonly = true → request.doesWrite = false) →
    Meets allowed (fun _ _ _ => True) (perform cfg id request) { s with iqueue := rest }

section
variable (h : JudgesPending cfg allowed s)
include h

lemma meets_handle_of_pending
    (hRow : pendingRow s = some (row, queue)) (hMem : row ∈ handlers ++ extendedHandlers) :
    Meets allowed (fun _ _ _ => True) (handle cfg id row) { s with iqueue := queue } := by
  refine meets_handle fun hp request rest ha => ?_
  refine h request id rest ?_ fun hr => ?_
  · simp [pendingRequest, hRow, hp, show row.args queue = some (request, rest) from ha]
  · rw [row_doesWrite hMem ha]
    exact requestPermitted_readonly hp hr

lemma meets_dispatch {type : UInt8}
    (hl : value (s.iqueue.take 4) ≤ sftpMaxMsgLength)
    (hc : value (s.iqueue.take 4) + 4 ≤ s.iqueue.length)
    (ht : getU8 (s.iqueue.drop 4) = some (type, queue)) :
    Meets allowed (fun _ _ _ => True) (dispatch cfg type) { s with iqueue := queue } := by
  unfold dispatch
  split
  · simp [processInit]
  rw [meets_bind, meets_get]
  split
  · rename_i hi
    replace hi : s.initDone = true := hi
    rw [meets_bind, meets_getArg]
    intro id rest hId
    replace hId : getU32 queue = some (id, rest) := hId
    split
    · rename_i hExt
      unfold processExtended
      rw [meets_bind, meets_getArg]
      intro name rest' hn
      replace hn : getCstring rest = some (name, rest') := hn
      split
      · rename_i row hf
        refine meets_handle_of_pending (s := s) h ?_ ?_
        · simp [pendingRow, hi, hl, hc, ht, hId, hExt, hn, hf]
        · exact mem_append_right _ (mem_of_find?_eq_some hf)
      · exact (only_sendStatus (fun _ => False) id _).meets fun _ _ => False.elim
    · rename_i hp
      split
      · rename_i row hf
        refine meets_handle_of_pending (s := s) h ?_ ?_
        · simp [pendingRow, hi, hl, hc, ht, hId, hp, hf]
        · exact mem_append_left _ (mem_of_find?_eq_some hf)
      · trivial
  · trivial

/-- The rule for `process`: it is enough to judge the handler of the pending
request. -/
lemma meets_process :
    Meets allowed (fun _ _ _ => True) (process cfg) s := by
  unfold process
  rw [meets_bind, meets_get]
  split
  · trivial
  dsimp only
  split
  · trivial
  rename_i hLimit
  split
  · trivial
  rename_i hComplete
  rw [meets_bind, meets_set, meets_bind, meets_getArg]
  intro type queue ht
  rw [meets_bind]
  refine (meets_dispatch h (by omega) (by omega) ht).mono (fun _ _ h => h) fun _ next _ _ => ?_
  exact (only_discardRest (fun _ => False) _ _).meets fun _ _ => False.elim

end

end Sftp
