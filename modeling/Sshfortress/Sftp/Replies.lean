import Sshfortress.Sftp.Handles
import Sshfortress.Sftp.ReadOnly

/-! Requests and replies of the SFTP server. A handler sends exactly one reply, which
carries the number of its request, whatever the system calls answer. -/
namespace Sftp
open Base Base.Wire Base.Transition Base.FreeList Handler List

/-! Arguments are read from the front of the message. -/

lemma local_getWhen {present : Bool} {getter : Getter Nat} (h : Local getter) :
    Local (getWhen present getter) :=
  .ite h (.pure 0)

lemma local_skipExtended (count : Nat) : Local (skipExtended count) := by
  induction count with
  | zero => exact .pure ()
  | succ count ih =>
    have hs : skipExtended (count + 1) = (fun queue => (getCstring queue).bind fun p =>
      (getString p.2).bind fun q => skipExtended count q.2) := by
      funext queue
      rw [skipExtended]
      cases getCstring queue with
      | none => rfl
      | some pair =>
        cases hStr : getString pair.2 <;> simp [hStr]
    rw [hs]
    have hBoth := Local.bind local_getCstring fun _ => Local.bind local_getString fun _ => ih
    exact hBoth

variable {s next start : Server} {α β : Type} {queue body later received : Bytes} {m : SftpM Unit}
  {bodies : List Bytes} {first : Getter α}

lemma local_decodeAttrib : Local decodeAttrib := by
  have hU32 : Local getU32 := local_getInt 4
  have hw (present : Bool) : Local (getWhen present getU32) := local_getWhen hU32
  have hs (present : Bool) : Local (getWhen present getU64) := local_getWhen (local_getInt 8)
  exact .bind hU32 fun flags => .bind (hs (hasFlag flags attrSize)) fun size =>
    .bind (hw (hasFlag flags attrUidgid)) fun uid => .bind (hw (hasFlag flags attrUidgid)) fun gid =>
    .bind (hw (hasFlag flags attrPermissions)) fun perm =>
    .bind (hw (hasFlag flags attrAcmodtime)) fun atime =>
    .bind (hw (hasFlag flags attrAcmodtime)) fun mtime =>
    .bind (hw (hasFlag flags attrExtended)) fun count =>
    .bind (local_skipExtended count) fun _ => .pure (⟨flags, size, uid, gid, perm, atime, mtime⟩ : Attrib)

lemma local_args1 {make : α → Request} (hf : Local first) : Local (args1 first make) :=
  .bind hf fun _ => .pure _

variable {work : Work} {second : Getter β} {only : Sys → Prop} {input : Bytes × Env Sys Resp}

lemma local_args2 {make : α → β → Request} (hf : Local first) (hSnd : Local second) :
    Local (args2 first second make) :=
  .bind hf fun _ => .bind hSnd fun _ => .pure _

lemma local_args3 {γ : Type} {third : Getter γ} {make : α → β → γ → Request}
    (hf : Local first) (hSnd : Local second) (ht : Local third) :
    Local (args3 first second third make) :=
  .bind hf fun _ => .bind hSnd fun _ => .bind ht fun _ => .pure _

lemma local_args {row : SftpHandler} (hRow : row ∈ handlers ++ extendedHandlers) : Local row.args := by
  have hStr := local_getString
  have hCstring := local_getCstring
  have hAttrib := local_decodeAttrib
  have hU32 : Local getU32 := local_getInt 4
  have hU64 : Local getU64 := local_getInt 8
  simp only [handlers, extendedHandlers, cons_append, nil_append, mem_cons, not_mem_nil, or_false] at hRow
  rcases hRow with rfl | rfl | rfl | rfl | rfl | rfl | rfl | rfl | rfl | rfl | rfl | rfl | rfl |
    rfl | rfl | rfl | rfl | rfl | rfl | rfl | rfl | rfl | rfl
  all_goals
    first
    | exact local_args1 ‹_›
    | exact local_args2 ‹_› ‹_›
    | exact local_args3 ‹_› ‹_› ‹_›

/-! What a handler does to the state. -/

structure Same (s next : Server) : Prop where
  iqueue : next.iqueue = s.iqueue
  initDone : next.initDone = s.initDone
  table : Table s → Table next

def Quiet {α : Type} (m : SftpM α) : Prop :=
  ∀ s, Sure (fun _ next => Same s next ∧ next.oqueue = s.oqueue) m s

def Replies (id : Nat) (m : SftpM Unit) : Prop :=
  ∀ s, Sure (fun _ next => Same s next ∧
    ∃ reply, next.oqueue = s.oqueue ++ putString reply ∧ Answers id reply) m s

lemma Same.refl (s : Server) : Same s s := ⟨rfl, rfl, id⟩

lemma Same.trans {middle : Server} (front : Same s middle) (back : Same middle next) : Same s next where
  iqueue := back.iqueue.trans front.iqueue
  initDone := back.initDone.trans front.initDone
  table h := back.table (front.table h)

variable {id : Nat}

lemma counted_same (handle : Option Nat) (counted : Handle → Handle) (hUse : ∀ h, (counted h).use = h.use)
    (hn : next = match handle.bind fun i => (s.handleIsOk i .file).map fun h => (i, h) with
      | some (i, h) => { s with handles := s.handles.set i (counted h) }
      | none => s) : Same s next ∧ next.oqueue = s.oqueue := by
  subst hn
  split
  · next i h hFound =>
    obtain ⟨number, -, hMap⟩ := Option.bind_eq_some_iff.1 hFound
    obtain ⟨found, hOk, hp⟩ := Option.map_eq_some_iff.1 hMap
    cases hp
    obtain ⟨-, hs, hf⟩ := handleIsOk_eq_some.1 hOk
    refine ⟨⟨rfl, rfl, fun ht => ht.update hs ?_ ?_⟩, rfl⟩
    · simp [Handle.Unused, hf]
    · simp [Handle.Unused, hUse, hf]
  · exact ⟨.refl s, rfl⟩

lemma Calm.quiet {m : SftpM α} (h : Calm only m) : Quiet m := by
  induction h with
  | pure => exact fun s => ⟨.refl s, rfl⟩
  | sys => exact fun s _ => ⟨.refl s, rfl⟩
  | bind _ _ hm hf =>
    intro s
    rw [sure_bind]
    apply (hm s).mono
    rintro a middle ⟨hs, hq⟩
    apply (hf a middle).mono
    rintro b next ⟨hn, hl⟩
    exact ⟨hs.trans hn, hl.trans hq⟩
  | look _ _ hf => exact fun s => hf s s
  | countRead handle bytes =>
    exact fun s => counted_same handle (fun h => { h with bytesRead := h.bytesRead + bytes }) (fun _ => rfl) rfl
  | countWrite handle bytes =>
    exact fun s => counted_same handle (fun h => { h with bytesWrite := h.bytesWrite + bytes }) (fun _ => rfl) rfl

lemma Replies.from (hm : Replies id m) (hs : Same s next) (hq : next.oqueue = s.oqueue) :
    Sure (fun _ last => Same s last ∧
      ∃ reply, last.oqueue = s.oqueue ++ putString reply ∧ Answers id reply) m next := by
  apply (hm next).mono
  rintro a last ⟨hl, reply, hr, ha⟩
  rw [hq] at hr
  exact ⟨hs.trans hl, reply, hr, ha⟩

variable (cfg : Config)

lemma handleNew_frame (s : Server) (use : HandleUse) (name : Bytes) (fd flags dirp : Nat) :
    (s.handleNew use name fd flags dirp).2.iqueue = s.iqueue ∧
      (s.handleNew use name fd flags dirp).2.oqueue = s.oqueue ∧
      (s.handleNew use name fd flags dirp).2.initDone = s.initDone := by
  have hGrow : ∀ grown, s.handleGrow = some grown →
    grown.iqueue = s.iqueue ∧ grown.oqueue = s.oqueue ∧ grown.initDone = s.initDone := by
    intro grown hg
    rw [Server.handleGrow] at hg
    split at hg
    · cases hg
      exact ⟨rfl, rfl, rfl⟩
    · split at hg
      · cases hg
      · cases hg
        exact ⟨rfl, rfl, rfl⟩
  rw [Server.handleNew]
  split
  · exact ⟨rfl, rfl, rfl⟩
  · next grown hg =>
    split
    · exact hGrow grown hg
    · exact hGrow grown hg

lemma handleNew_same (s : Server) (entry : Entry) :
    Same s (s.handleNew entry.use entry.name entry.fd entry.flags entry.dirp).2 := by
  obtain ⟨hi, -, hInit⟩ := handleNew_frame s entry.use entry.name entry.fd entry.flags entry.dirp
  refine ⟨hi, hInit, fun ht => ?_⟩
  rcases handleNew_spec ht entry with ⟨hn, -⟩ | ⟨i, next, hNew, hNext, -⟩
  · rw [hn]
    exact ht
  · rw [hNew]
    exact hNext

lemma handleUnused_same {i : Nat} {use : HandleUse} {h : Handle} (hOk : s.handleIsOk i use = some h)
    (hUse : use ≠ .unused) : Same s (s.handleUnused i) := by
  obtain ⟨-, hs, hu⟩ := handleIsOk_eq_some.1 hOk
  exact ⟨rfl, rfl, fun ht => handleUnused_table ht hs (hu ▸ hUse)⟩

lemma replies_sendMsg {msg : Bytes} (h : Answers id msg) : Replies id (sendMsg msg) :=
  fun _ => ⟨⟨rfl, rfl, fun ht => ht⟩, msg, rfl, h⟩

lemma replies_sendStatus (status : Status) : Replies id (sendStatus id status) :=
  fun s => replies_sendMsg ⟨101, _, by simp only [cons_append, append_assoc]; rfl⟩ s

lemma Serves.replies (h : Serves only id m) : Replies id m := by
  induction h with
  | send h => exact replies_sendMsg h
  | after hm _ hf =>
    intro s
    rw [sure_bind]
    exact (hm.quiet s).mono fun a middle hMiddle => (hf a).from hMiddle.1 hMiddle.2
  | before _ hf hm =>
    intro s
    rw [sure_bind]
    apply (hm s).mono
    rintro a middle ⟨hs, reply, hr, ha⟩
    apply ((hf a).quiet middle).mono
    rintro b next ⟨hn, hq⟩
    rw [← hq] at hr
    exact ⟨hs.trans hn, reply, hr, ha⟩
  | look _ _ hf => exact fun s => hf s s
  | enter entry _ _ hFail hd =>
    intro s
    have hs := handleNew_same s entry
    have hq := (handleNew_frame s entry.use entry.name entry.fd entry.flags entry.dirp).2.1
    rw [sure_bind, sure_get]
    rcases hNew : s.handleNew entry.use entry.name entry.fd entry.flags entry.dirp with ⟨_ | handle, next⟩
    · rw [hNew] at hs hq
      exact hFail.from hs hq
    · rw [hNew] at hs hq
      exact (hd handle).from hs hq
  | close handle =>
    intro s
    rw [processClose, sure_bind]
    refine ((@calm_getHandle only handle).quiet s).mono ?_
    rintro handle middle ⟨hs, hq⟩
    rw [sure_bind, sure_get]
    cases handle with
    | none => exact (replies_sendStatus _).from hs hq
    | some i =>
      dsimp only
      -- The slot is given back in the state in which it was found open.
      split
      · next h hFile =>
        exact fun r => (replies_sendStatus _).from (hs.trans (handleUnused_same hFile (by simp))) hq
      · next h _ hDir =>
        exact fun r => (replies_sendStatus _).from (hs.trans (handleUnused_same hDir (by simp))) hq
      · exact (replies_sendStatus _).from hs hq

/-! Whole messages. -/

def argsComplete (row : SftpHandler) (queue : Bytes) : Bool :=
  !requestPermitted cfg row || (row.args queue).isSome

/-- The number of the request in a message, if it is well formed and of a known type. An
extended request is known by its type alone, and the arguments of a refused request are
not looked at. -/
def requestId (body : Bytes) : Option Nat := do
  let (type, queue) ← getU8 body
  let (id, queue) ← getU32 queue
  if type = 200 then
    let (name, queue) ← getCstring queue
    match extendedHandlers.find? fun h => h.extName = some name with
    | some row => if argsComplete cfg row queue then some id else none
    | none => some id
  else
    match handlers.find? fun h => h.type = type with
    | some row => if argsComplete cfg row queue then some id else none
    | none => none

inductive Work where
  | perform (request : Request)
  | refused
  | unsupported

/-- What the server does about a message once it has read all it wants of it. -/
inductive Act where
  | init (version : Nat)
  | request (id : Nat) (work : Work)

def rowWork (row : SftpHandler) : Getter Work :=
  if requestPermitted cfg row then andThen row.args fun request => give (.perform request)
  else give .refused

def requestWork (type : UInt8) : Getter Work :=
  if type = 200 then andThen getCstring fun name =>
    match extendedHandlers.find? fun h => h.extName = some name with
    | some row => rowWork cfg row
    | none => give .unsupported
  else match handlers.find? fun h => h.type = type with
    | some row => rowWork cfg row
    | none => reject

/-- Everything `process` and the handlers read of a message, from its type on.
Nothing is done about a message of an unknown type. -/
def acting (initDone : Bool) : Getter Act :=
  andThen getU8 fun type =>
    if type = 1 then andThen getU32 fun version => give (.init version)
    else if initDone then andThen getU32 fun id =>
      andThen (requestWork cfg type) fun work => give (.request id work)
    else reject

lemma local_rowWork (hRow : row ∈ handlers ++ extendedHandlers) : Local (rowWork cfg row) := by
  unfold rowWork
  split
  · exact .andThen (local_args hRow) fun _ => .give _
  · exact .give _

lemma local_requestWork (type : UInt8) : Local (requestWork cfg type) := by
  unfold requestWork
  split
  · refine .andThen local_getCstring fun name => ?_
    split
    · next row hf =>
      exact local_rowWork cfg (mem_append_right _ (mem_of_find?_eq_some hf))
    · exact .give _
  · split
    · next row hf =>
      exact local_rowWork cfg (mem_append_left _ (mem_of_find?_eq_some hf))
    · exact .reject

lemma local_acting (initDone : Bool) : Local (acting cfg initDone) := by
  refine .andThen local_getU8 fun type => ?_
  split
  · exact .andThen (local_getInt 4) fun _ => .give _
  · split
    · exact .andThen (local_getInt 4) fun _ =>
        .andThen (local_requestWork cfg type) fun _ => .give _
    · exact .reject

/-- The part of `process` between the length of a message and the check of what
was consumed. -/
def handleFrame : SftpM Unit := do
  let type ← getArg getU8
  dispatch cfg type

/-- What `get_arg` does with what the getter found. -/
def takeArg (s : Server) : Option (α × Bytes) → SftpM α
  | none => Handler.stop .fatal
  | some (v, rest) => set { s with iqueue := rest } >>= fun _ => pure v

lemma getArg_bind_some {v : α} (h : getter s.iqueue = some (v, rest)) :
    (getArg getter >>= f) s = f v { s with iqueue := rest } := by
  change ((getArg getter s).bind fun x => f x.1 x.2) = _
  have ht : getArg getter s = .done (v, { s with iqueue := rest }) := by
    change takeArg s (getter s.iqueue) s = _
    rw [h]
    rfl
  rw [ht]
  rfl

def Work.handler (id : Nat) : Work → SftpM Unit
  | .perform request => Sftp.perform cfg id request
  | .refused => sendStatus id .permissionDenied
  | .unsupported => sendStatus id .opUnsupported

lemma handle_some (h : rowWork cfg row s.iqueue = some (work, rest)) :
    handle cfg id row s = work.handler cfg id { s with iqueue := rest } := by
  unfold rowWork at h
  unfold handle
  split_ifs at h with hp
  · obtain ⟨request, tail, ha, hg⟩ := andThen_eq_some.1 h
    cases hg
    rw [if_pos hp, getArg_bind_some ha]
    rfl
  · cases h
    rw [if_neg hp]
    rfl

lemma dispatch_request (ht : type ≠ 1) (hi : s.initDone = true) :
    dispatch cfg type s = (getArg getU32 >>= fun id =>
      if type = 200 then processExtended cfg id
      else match handlers.find? fun h => h.type = type with
        | some h => handle cfg id h
        | none => pure ()) s := by
  change (if type = 1 then _ else _ : SftpM Unit) s = _
  rw [if_neg ht]
  exact congrFun (if_pos hi) s

lemma request_some (h : requestWork cfg type s.iqueue = some (work, rest)) :
    (if type = 200 then processExtended cfg id
      else match handlers.find? fun h => h.type = type with
        | some h => handle cfg id h
        | none => pure ()) s = work.handler cfg id { s with iqueue := rest } := by
  unfold requestWork at h
  split_ifs at h with hExt
  · rw [if_pos hExt]
    obtain ⟨name, tail, hn, hf⟩ := andThen_eq_some.1 h
    rw [processExtended, getArg_bind_some hn]
    cases hRow : extendedHandlers.find? fun h => h.extName = some name with
    | some row =>
      rw [hRow] at hf
      exact handle_some cfg (s := { s with iqueue := tail }) hf
    | none =>
      rw [hRow] at hf
      cases hf
      rfl
  · rw [if_neg hExt]
    cases hRow : handlers.find? fun h => h.type = type with
    | some row =>
      rw [hRow] at h
      exact handle_some cfg h
    | none =>
      rw [hRow] at h
      cases h

lemma handleFrame_request (h : acting cfg s.initDone s.iqueue = some (.request id work, rest)) :
    handleFrame cfg s = work.handler cfg id { s with iqueue := rest } := by
  obtain ⟨type, tail, ht, hr⟩ := andThen_eq_some.1 h
  rw [handleFrame, getArg_bind_some ht]
  split_ifs at hr with hf hd
  · obtain ⟨taken, last, -, hg⟩ := andThen_eq_some.1 hr
    cases hg
  · obtain ⟨number, last, hNum, hw⟩ := andThen_eq_some.1 hr
    obtain ⟨found, other, hFound, hg⟩ := andThen_eq_some.1 hw
    cases hg
    rw [dispatch_request cfg (s := { s with iqueue := tail }) hf hd, getArg_bind_some hNum]
    exact request_some cfg (s := { s with iqueue := last }) hFound
  · cases hr

lemma handler_replies (id : Nat) (work : Work) : Replies id (work.handler cfg id) := by
  cases work with
  | perform request => exact (@perform_serves (fun _ => True) id cfg request (fun _ _ => trivial) fun _ _ => trivial).replies
  | refused => exact replies_sendStatus _
  | unsupported => exact replies_sendStatus _

lemma rowWork_of_argsComplete (h : argsComplete cfg row queue = true) :
    ∃ work rest, rowWork cfg row queue = some (work, rest) := by
  unfold rowWork
  by_cases hp : requestPermitted cfg row = true
  · rw [argsComplete, hp, Bool.not_true, Bool.false_or, Option.isSome_iff_exists] at h
    obtain ⟨⟨request, rest⟩, ha⟩ := h
    rw [if_pos hp]
    exact ⟨.perform request, rest, andThen_eq_some.2 ⟨request, rest, ha, rfl⟩⟩
  · rw [if_neg hp]
    exact ⟨.refused, queue, rfl⟩

lemma acting_of_requestId (h : requestId cfg body = some id) :
    ∃ work rest, acting cfg true body = some (.request id work, rest) := by
  obtain ⟨⟨type, queue⟩, ht, h⟩ := Option.bind_eq_some_iff.1 h
  obtain ⟨⟨number, tail⟩, hNum, h⟩ := Option.bind_eq_some_iff.1 h
  dsimp only at h
  obtain ⟨hNotInit, rfl, work, rest, hw⟩ : type ≠ 1 ∧ number = id ∧
    ∃ work rest, requestWork cfg type tail = some (work, rest) := by
    unfold requestWork
    by_cases hExt : type = 200
    · rw [if_pos hExt] at h ⊢
      obtain ⟨⟨name, left⟩, hn, h⟩ := Option.bind_eq_some_iff.1 h
      simp only [andThen_eq_some]
      split at h
      · next row hf =>
        split_ifs at h with ha
        obtain ⟨work, rest, hw⟩ := rowWork_of_argsComplete cfg ha
        exact ⟨by simp [hExt], Option.some.inj h, work, rest, name, left, hn, by rw [hf]; exact hw⟩
      · next hf =>
        exact ⟨by simp [hExt], Option.some.inj h, .unsupported, left, name, left, hn, by rw [hf]; rfl⟩
    · rw [if_neg hExt] at h ⊢
      split at h
      · next row hf =>
        split_ifs at h with ha
        refine ⟨?_, Option.some.inj h, by rw [hf]; exact rowWork_of_argsComplete cfg ha⟩
        rintro rfl
        cases hf
      · cases h
  refine ⟨work, rest, andThen_eq_some.2 ⟨type, queue, ht, ?_⟩⟩
  rw [if_neg hNotInit, if_pos rfl]
  exact andThen_eq_some.2 ⟨number, tail, hNum, andThen_eq_some.2 ⟨work, rest, hw, rfl⟩⟩

/-- The message that stands whole in front of the queue. -/
def pendingBody (queue : Bytes) : Option Bytes :=
  if queue.length < 5 ∨ queue.length < value (queue.take 4) + 4 then none
  else some ((queue.drop 4).take (value (queue.take 4)))

lemma pendingBody_eq_some (h : pendingBody queue = some body) :
    5 ≤ queue.length ∧ body.length = value (queue.take 4) ∧ ∃ later, queue = putString body ++ later := by
  unfold pendingBody at h
  split_ifs at h with hs
  cases h
  simp only [not_or, Nat.not_lt] at hs
  refine ⟨hs.1, ?_, queue.drop (4 + value (queue.take 4)), (putString_append_drop hs.2).symm⟩
  rw [length_take, length_drop]
  omega

lemma discardRest_cases (msgLen bufLen : Nat) (s : Server) :
    (∃ reason, discardRest msgLen bufLen s = .halt reason) ∨
      (s.iqueue.length ≤ bufLen ∧ bufLen - s.iqueue.length ≤ msgLen ∧ discardRest msgLen bufLen s =
          .done ((), { s with iqueue := s.iqueue.drop (msgLen - (bufLen - s.iqueue.length)) })) := by
  change (∃ reason, (if bufLen < s.iqueue.length then _ else _ : SftpM Unit) s = .halt reason) ∨
    (_ ∧ _ ∧ (if bufLen < s.iqueue.length then _ else _ : SftpM Unit) s = _)
  split_ifs with hMore hOver hUnder
  · exact .inl ⟨.exit 255, rfl⟩
  · exact .inl ⟨.exit 255, rfl⟩
  · exact .inl ⟨.fatal, rfl⟩
  · exact .inr ⟨by omega, by omega, rfl⟩

lemma process_frame (hp : pendingBody s.iqueue = some body) (hLimit : body.length ≤ sftpMaxMsgLength) :
    process cfg s = handleFrame cfg { s with iqueue := s.iqueue.drop 4 } >>= fun out =>
      discardRest body.length (s.iqueue.length - 4) out.2 := by
  obtain ⟨hFive, hLen, later, hq⟩ := pendingBody_eq_some hp
  have hTotal : s.iqueue.length = 4 + body.length + later.length := by
    rw [hq, length_append, length_putString]
  change (if s.iqueue.length < 5 then _ else _ : SftpM Unit) s = _
  rw [if_neg (by omega), if_neg (by omega), if_neg (by omega), ← hLen]
  exact (Prog.bind_assoc (getArg getU8 { s with iqueue := s.iqueue.drop 4 })
    (fun x => dispatch cfg x.1 x.2) fun out => discardRest body.length (s.iqueue.length - 4) out.2).symm

lemma process_served (hId : requestId cfg body = some id) (hp : pendingBody s.iqueue = some body)
    (hl : body.length ≤ sftpMaxMsgLength) (hi : s.initDone = true)
    (hq : s.iqueue = putString body ++ later) :
    Sure (fun _ next => next.initDone = true ∧ (Table s → Table next) ∧ next.iqueue = later ∧
      ∃ reply, next.oqueue = s.oqueue ++ putString reply ∧ Answers id reply) (process cfg) s := by
  obtain ⟨work, rest, hAct⟩ := acting_of_requestId cfg hId
  have hTotal : s.iqueue.length = 4 + body.length + later.length := by
    rw [hq, length_append, length_putString]
  have hRead : acting cfg s.initDone (s.iqueue.drop 4) = some (.request id work, rest ++ later) := by
    rw [hi, hq, drop_putString]
    exact (local_acting cfg true).append later hAct
  have hRest := ((local_acting cfg true).suffix hAct).length_le
  unfold Sure
  rw [process_frame cfg hp hl, handleFrame_request cfg (s := { s with iqueue := s.iqueue.drop 4 }) hRead]
  refine (Prog.sure_bind _ _).2 (Prog.Sure.mono (handler_replies cfg id work _) ?_)
  rintro out ⟨hs, hr⟩
  have hn : out.2.iqueue = rest ++ later := hs.iqueue
  have hLen : out.2.iqueue.length = rest.length + later.length := by rw [hn, length_append]
  change Prog.Sure _ ((if s.iqueue.length - 4 < out.2.iqueue.length then _ else _ : SftpM Unit) out.2)
  rw [if_neg (by omega), if_neg (by omega), if_neg (by omega)]
  refine ⟨hs.initDone.trans hi, hs.table, ?_, hr⟩
  rw [hLen, hn]
  exact drop_left' (by omega)

/-! Runs of the main loop. -/

/-- Bytes arrive and `process` runs once, with some answers to its system calls. Shown is
the message it found. -/
def serveStep (s : Server) (input : Bytes × Env Sys Resp) : Except Stop (Server × List Bytes) :=
  (Prog.run input.2 (turn cfg input.1 s)).1.map fun next =>
    (next, (pendingBody (s.receive input.1).iqueue).toList)

/-- Whatever stands in front of the queue announces a length that is allowed, and once it
is whole it is a well-formed request of a known type. -/
def RequestNext (s : Server) (input : Bytes × Env Sys Resp) : Prop :=
  ((s.receive input.1).iqueue.length < 5 ∨ value ((s.receive input.1).iqueue.take 4) ≤ sftpMaxMsgLength) ∧
    ∀ body ∈ pendingBody (s.receive input.1).iqueue, (requestId cfg body).isSome = true
  deriving Decidable

def Paired (bodies replies : List Bytes) : Prop :=
  List.Forall₂ (fun body reply => ∃ id, requestId cfg body = some id ∧ Answers id reply) bodies replies

/-- What is true of the server and of the requests it has found. -/
structure Accounted (start s : Server) (received : Bytes) (bodies : List Bytes) : Prop where
  initDone : s.initDone = true
  table : Table start → Table s
  iqueue : start.iqueue ++ received = (bodies.map putString).flatten ++ s.iqueue
  oqueue : ∃ replies, s.oqueue = start.oqueue ++ (replies.map putString).flatten ∧
    Paired cfg bodies replies

lemma process_waits (hn : pendingBody s.iqueue = none)
    (hLimit : s.iqueue.length < 5 ∨ value (s.iqueue.take 4) ≤ sftpMaxMsgLength) :
    Sure (fun _ next => next = s) (process cfg) s := by
  unfold pendingBody at hn
  split_ifs at hn with hShort
  unfold process
  rw [sure_bind, sure_get]
  by_cases hFew : s.iqueue.length < 5
  · rw [if_pos hFew]
    rfl
  · rw [if_neg hFew]
    rw [if_neg (by omega), if_pos (by omega)]
    rfl

lemma turn_sure {input : Bytes} {post : Server → Prop}
    (h : Sure (fun _ next => post next) (process cfg) (s.receive input)) :
    Prog.Sure post (turn cfg input s) := by
  unfold turn
  rw [Prog.sure_bind]
  exact h

section
variable (h : Accounted cfg start s received bodies)
include h

lemma turn_accounted (hn : RequestNext cfg s input) :
    Prog.Sure (fun next => Accounted cfg start next (received ++ input.1)
      (bodies ++ (pendingBody (s.receive input.1).iqueue).toList)) (turn cfg input.1 s) := by
  obtain ⟨hi, ht, hq, replies, hOut, hp⟩ := h
  obtain ⟨hl, hk⟩ := hn
  have hr : start.iqueue ++ (received ++ input.1) =
    (bodies.map putString).flatten ++ (s.receive input.1).iqueue := by
    rw [← append_assoc, hq, append_assoc]
    rfl
  apply turn_sure
  cases hPend : pendingBody (s.receive input.1).iqueue with
  | none =>
    apply (process_waits cfg hPend hl).mono
    rintro _ next rfl
    rw [Option.toList_none, append_nil]
    exact ⟨hi, ht, hr, replies, hOut, hp⟩
  | some body =>
    obtain ⟨hFive, hLen, later, hf⟩ := pendingBody_eq_some hPend
    obtain ⟨id, hId⟩ := Option.isSome_iff_exists.1 (hk body hPend)
    have hs : (s.receive input.1).initDone = true := hi
    apply (process_served cfg hId hPend (by omega) hs hf).mono
    rintro _ next ⟨hd, hSound, hRest, reply, hReply, ha⟩
    refine ⟨hd, fun hStart => hSound (ht hStart), ?_, replies ++ [reply], ?_, ?_⟩
    · rw [hr, hf, hRest]
      simp
    · rw [hReply, show (s.receive input.1).oqueue = s.oqueue from rfl, hOut]
      simp
    · exact rel_append hp (.cons ⟨id, hId, ha⟩ .nil)

lemma serveStep_accounted (hn : RequestNext cfg s input) :
    ∃ next found, serveStep cfg s input = .ok (next, found) ∧
      Accounted cfg start next (received ++ input.1) (bodies ++ found) := by
  obtain ⟨next, hRun, ha⟩ := (turn_accounted cfg h hn).run input.2
  exact ⟨next, _, by rw [serveStep, hRun]; rfl, ha⟩

lemma run_accounted {inputs : List (Bytes × Env Sys Resp)}
    (hr : Along (serveStep cfg) (RequestNext cfg) s inputs) :
    ∃ last found, run (serveStep cfg) s inputs = .ok (last, found) ∧
      Accounted cfg start last (received ++ (inputs.map Prod.fst).flatten) (bodies ++ found) := by
  induction inputs generalizing s received bodies with
  | nil => exact ⟨s, [], rfl, by simpa using h⟩
  | cons input inputs ih =>
    obtain ⟨next, first, hs, ha⟩ := serveStep_accounted cfg h hr.1
    obtain ⟨last, rest, hRun, hEnd⟩ := ih ha (hr.2 next first hs)
    refine ⟨last, first ++ rest, run_cons_eq_ok.2 ⟨next, first, rest, hs, hRun, rfl⟩, ?_⟩
    simpa using hEnd

end

/-- Every run of the server after the start of the protocol, whatever the system calls
answer: each request that is found has exactly one reply, with its number, and the
replies are in the order of the requests. -/
theorem replies_paired {s : Server} {inputs : List (Bytes × Env Sys Resp)} (hInit : s.initDone = true)
    (hRequests : Along (serveStep cfg) (RequestNext cfg) s inputs) :
    ∃ last bodies replies, run (serveStep cfg) s inputs = .ok (last, bodies) ∧
      s.iqueue ++ (inputs.map Prod.fst).flatten = (bodies.map putString).flatten ++ last.iqueue ∧
      last.oqueue = s.oqueue ++ (replies.map putString).flatten ∧ Paired cfg bodies replies := by
  have hStart : Accounted cfg s s [] [] := ⟨hInit, fun h => h, by simp, [], by simp, .nil⟩
  obtain ⟨last, bodies, hRun, hEnd⟩ := run_accounted cfg hStart hRequests
  obtain ⟨replies, hOutput, hPaired⟩ := hEnd.oqueue
  exact ⟨last, bodies, replies, hRun, hEnd.iqueue, hOutput, hPaired⟩

/-- A client opens a file, sends an extended request that nobody knows, asks to remove a file
in read-only mode, and closes the file; the last two come in pieces. -/
def fourRequests : List (Bytes × Env Sys Resp) :=
  [(openMessage (text "/etc/motd") fxfRead, fun _ => Sys.succeed),
    (putString ([200] ++ putU32 8 ++ putString (text "x@y")) ++
      (putString ([13] ++ putU32 9 ++ putString (text "/etc/motd"))).take 6, fun _ => Sys.succeed),
    ((putString ([13] ++ putU32 9 ++ putString (text "/etc/motd"))).drop 6 ++
      putString ([4] ++ putU32 10 ++ putString (putU32 0)), fun _ => Sys.succeed),
    ([], fun _ => Sys.succeed)]

theorem replies_paired_four : ∃ last bodies replies,
      run (serveStep readonlyConfig) { Server.initial with initDone := true } fourRequests =
        .ok (last, bodies) ∧
      bodies.map (requestId readonlyConfig) = [some 7, some 8, some 9, some 10] ∧
      last.oqueue = (replies.map putString).flatten ∧ Paired readonlyConfig bodies replies := by
  have hRequests : Along (serveStep readonlyConfig) (RequestNext readonlyConfig)
    { Server.initial with initDone := true } fourRequests := by decide +kernel
  have hIds : (run (serveStep readonlyConfig) { Server.initial with initDone := true }
    fourRequests).toOption.map (fun out => out.2.map (requestId readonlyConfig)) =
    some [some 7, some 8, some 9, some 10] := by decide +kernel
  obtain ⟨last, bodies, replies, hRun, -, hOutput, hPaired⟩ :=
    replies_paired readonlyConfig rfl hRequests
  rw [hRun] at hIds
  exact ⟨last, bodies, replies, hRun, Option.some.inj hIds, hOutput, hPaired⟩

end Sftp
