import Sshfortress.Sftp.Replies

/-! Messages of the SFTP server and their frames. A handler reads its arguments from the
queue of all that was received, and only afterwards is it checked that they were inside
the frame of the message. -/
namespace Sftp
open Base Base.Wire Handler List

/-! Handlers do not look at the queue. -/

def SameBut (s t : Server) : Prop := ∃ queue, t = { s with iqueue := queue }

def Blind {α : Type} (m : SftpM α) : Prop :=
  ∀ s queue, Prog.Alike (fun x y => y.1 = x.1 ∧ SameBut x.2 y.2) (m s) (m { s with iqueue := queue })

variable {s : Server} {α β : Type} {body rest : Bytes} {id : Nat} {type : UInt8} {row : SftpHandler}
  {f : α → SftpM β} {getter : Getter α} {m : SftpM α} {only : Sys → Prop}
  {p : Prog Sys Resp (Unit × Server)} {act : Act}

lemma Blind.bind (hm : Blind m) (hf : ∀ a, Blind (f a)) : Blind (m >>= f) := by
  intro s queue
  apply (hm s queue).bind
  rintro ⟨a, next⟩ ⟨b, other⟩ ⟨hs, rest, ho⟩
  dsimp only at hs ho
  subst hs ho
  exact hf _ next rest

lemma blind_modify {f : Server → Server}
    (h : ∀ s queue, f { s with iqueue := queue } = { f s with iqueue := queue }) :
    Blind (modify f : SftpM Unit) :=
  fun s queue => .done ⟨rfl, queue, h s queue⟩

lemma blind_sendMsg (msg : Bytes) : Blind (sendMsg msg) := blind_modify fun _ _ => rfl

lemma handleNew_iqueue (s : Server) (queue : Bytes) (use : HandleUse) (name : Bytes)
    (fd flags dirp : Nat) :
    ({ s with iqueue := queue } : Server).handleNew use name fd flags dirp =
      ((s.handleNew use name fd flags dirp).1,
        { (s.handleNew use name fd flags dirp).2 with iqueue := queue }) := by
  have hg : ({ s with iqueue := queue } : Server).handleGrow =
    s.handleGrow.map fun grown => { grown with iqueue := queue } := by
    simp only [Server.handleGrow]
    split
    · rfl
    · split
      · rfl
      · rfl
  rw [Server.handleNew, Server.handleNew, hg]
  cases s.handleGrow with
  | none => rfl
  | some grown =>
    dsimp only [Option.map_some]
    cases hf : grown.firstUnusedHandle with
    | none => simp [hf]
    | some i => rfl

lemma blind_get {f : Server → SftpM α} (hs : ∀ s queue, f { s with iqueue := queue } = f s)
  (hf : ∀ s, Blind (f s)) : Blind (get >>= f) := by
  intro s queue
  change Prog.Alike _ (f s s) (f { s with iqueue := queue } { s with iqueue := queue })
  rw [hs s queue]
  exact hf s s queue

lemma Calm.blind (h : Calm only m) : Blind m := by
  induction h with
  | pure => exact fun _ queue => .done ⟨rfl, queue, rfl⟩
  | sys => exact fun _ queue => .call fun _ => .done ⟨rfl, queue, rfl⟩
  | bind _ _ hm hf => exact hm.bind hf
  | look hs _ hf => exact blind_get hs hf
  | countRead =>
    apply blind_modify
    intro s queue
    simp only [Server.handleUpdateRead, Server.handleIsOk]
    split <;> rfl
  | countWrite =>
    apply blind_modify
    intro s queue
    simp only [Server.handleUpdateWrite, Server.handleIsOk]
    split <;> rfl

/-- No handler looks at the queue once it has its arguments. -/
def entering (failed : SftpM Unit) (done : Nat → SftpM Unit) : Option Nat × Server → SftpM Unit
  | (none, next) => set next >>= fun _ => failed
  | (some handle, next) => set next >>= fun _ => done handle

lemma Serves.blind {m : SftpM Unit} (h : Serves only id m) : Blind m := by
  have hs : ∀ status, Blind (sendStatus id status) :=
    fun status => blind_get (fun _ _ => rfl) fun _ => blind_sendMsg _
  induction h with
  | send => exact blind_sendMsg _
  | after hm _ hf => exact hm.blind.bind hf
  | before _ hf hm => exact hm.bind fun a => (hf a).blind
  | look hSame _ hf => exact blind_get hSame hf
  | @enter entry failed done _ _ hFail hd =>
    intro s queue
    change Prog.Alike _ (entering failed done (s.handleNew entry.use entry.name entry.fd entry.flags entry.dirp) s)
      (entering failed done (({ s with iqueue := queue } : Server).handleNew entry.use entry.name entry.fd entry.flags
        entry.dirp) { s with iqueue := queue })
    rw [handleNew_iqueue s queue]
    rcases s.handleNew entry.use entry.name entry.fd entry.flags entry.dirp with ⟨_ | handle, next⟩
    · exact hFail next queue
    · exact hd handle next queue
  | close handle =>
    refine (@calm_getHandle only handle).blind.bind fun handle => blind_get (fun _ _ => rfl) fun s => ?_
    have hFreed : ∀ i request (status : Resp request → Status), Blind (do
      let r ← sys request
      modify fun s => s.handleUnused i
      sendStatus id (status r)) := fun i request status =>
      Blind.bind (fun _ queue => .call fun _ => .done ⟨rfl, queue, rfl⟩) fun _ =>
        (blind_modify fun _ _ => rfl).bind fun _ => hs _
    cases handle with
    | none => exact hs _
    | some i =>
      dsimp only
      split
      · exact hFreed i _ _
      · exact hFreed i _ _
      · exact hs _

/-! The frame and what is read from it. -/

variable (cfg : Config)

lemma getArg_bind_none (h : getter s.iqueue = none) : (getArg getter >>= f) s = .halt .fatal := by
  change ((getArg getter s).bind fun x => f x.1 x.2) = _
  have ht : getArg getter s = .halt .fatal := by
    change takeArg s (getter s.iqueue) s = _
    rw [h]
    rfl
  rw [ht]
  rfl

/-- A program that reads on and does nothing else. -/
def Idle (s : Server) (p : Prog Sys Resp (Unit × Server)) : Prop :=
  (∃ reason, p = .halt reason) ∨ ∃ rest, rest <:+ s.iqueue ∧ p = .done ((), { s with iqueue := rest })

lemma Idle.of_rest (hr : rest <:+ s.iqueue) (h : Idle { s with iqueue := rest } p) : Idle s p := by
  rcases h with hh | ⟨tail, ht, hd⟩
  · exact .inl hh
  · exact .inr ⟨tail, ht.trans hr, hd⟩

lemma Idle.getArg (hl : Local getter) {f : α → SftpM Unit}
    (h : ∀ v rest, getter s.iqueue = some (v, rest) → Idle { s with iqueue := rest } (f v { s with iqueue := rest })) :
    Idle s ((getArg getter >>= f) s) := by
  cases ht : getter s.iqueue with
  | none => exact .inl ⟨.fatal, getArg_bind_none ht⟩
  | some pair =>
    obtain ⟨v, rest⟩ := pair
    rw [getArg_bind_some ht]
    exact (h v rest ht).of_rest (hl.suffix ht)

lemma handle_none (h : rowWork cfg row s.iqueue = none) : handle cfg id row s = .halt .fatal := by
  unfold rowWork at h
  unfold handle
  split_ifs at h with hp
  · rw [if_pos hp]
    apply getArg_bind_none
    rw [Option.eq_none_iff_forall_ne_some]
    rintro ⟨request, rest⟩ ha
    cases andThen_eq_none.1 h request rest ha
  · cases h

/-- A handler that answers and leaves the input queue as it found it. -/
def Acts (m : SftpM Unit) : Prop :=
  ∀ s, Sure (fun _ next => next.iqueue = s.iqueue ∧ ∃ reply, next.oqueue = s.oqueue ++ putString reply) m s

lemma Replies.acts {m : SftpM Unit} (h : Replies id m) : Acts m := by
  intro s
  apply (h s).mono
  rintro _ next ⟨hs, reply, hr, -⟩
  exact ⟨hs.iqueue, reply, hr⟩

lemma handler_blind (id : Nat) (work : Work) : Blind (work.handler cfg id) := by
  cases work with
  | perform request => exact (@perform_serves (fun _ => True) id cfg request (fun _ _ => trivial) fun _ _ => trivial).blind
  | refused => exact (@Serves.sendStatus (fun _ => True) id _).blind
  | unsupported => exact (@Serves.sendStatus (fun _ => True) id _).blind

lemma dispatch_init : ∃ message, ∀ s, dispatch cfg 1 s = (getArg getU32 >>= fun version => do
    modify fun s => { s with version }
    sendMsg message
    modify fun s => { s with initDone := true } : SftpM Unit) s := by
  have hi : ∃ message, processInit = (getArg getU32 >>= fun version => do
    modify fun s => { s with version }
    sendMsg message) := ⟨_, rfl⟩
  obtain ⟨message, hi⟩ := hi
  refine ⟨message, fun s => ?_⟩
  change ((processInit s).bind _) = _
  rw [hi]
  cases ht : getU32 s.iqueue with
  | none =>
    rw [getArg_bind_none ht, getArg_bind_none ht]
    rfl
  | some pair =>
    rw [getArg_bind_some ht, getArg_bind_some ht]
    rfl

lemma dispatch_early (ht : type ≠ 1) (hi : s.initDone = false) : dispatch cfg type s = .halt .fatal := by
  change (if type = 1 then _ else _ : SftpM Unit) s = _
  rw [if_neg ht]
  change (if s.initDone = true then _ else _ : SftpM Unit) s = _
  rw [if_neg (by simp [hi])]
  rfl

lemma request_none (h : requestWork cfg type s.iqueue = none) :
    Idle s ((if type = 200 then processExtended cfg id
      else match handlers.find? fun h => h.type = type with
        | some h => handle cfg id h
        | none => pure ()) s) := by
  unfold requestWork at h
  split_ifs at h with hExt
  · rw [if_pos hExt]
    refine Idle.getArg local_getCstring fun name rest hn => ?_
    have hr := andThen_eq_none.1 h name rest hn
    cases hRow : extendedHandlers.find? fun h => h.extName = some name with
    | some row =>
      rw [hRow] at hr
      exact .inl ⟨_, handle_none cfg (s := { s with iqueue := rest }) hr⟩
    | none =>
      rw [hRow] at hr
      cases hr
  · rw [if_neg hExt]
    cases hRow : handlers.find? fun h => h.type = type with
    | some row =>
      rw [hRow] at h
      exact .inl ⟨_, handle_none cfg h⟩
    | none => exact .inr ⟨s.iqueue, suffix_refl _, rfl⟩

lemma handleFrame_some (act : Act) : ∃ m, Blind m ∧ Acts m ∧ ∀ s rest,
    acting cfg s.initDone s.iqueue = some (act, rest) →
      handleFrame cfg s = m { s with iqueue := rest } := by
  cases act with
  | init version =>
    obtain ⟨message, hi⟩ := dispatch_init cfg
    refine ⟨do
      modify fun s => { s with version }
      sendMsg message
      modify fun s => { s with initDone := true }, ?_, ?_, ?_⟩
    · exact (blind_modify fun _ _ => rfl).bind fun _ =>
        (blind_sendMsg message).bind fun _ => blind_modify fun _ _ => rfl
    · exact fun s => ⟨rfl, message, rfl⟩
    · intro s rest h
      obtain ⟨type, tail, hType, hr⟩ := andThen_eq_some.1 h
      rw [handleFrame, getArg_bind_some hType]
      split_ifs at hr with hf hDone
      · obtain ⟨taken, last, ht, hg⟩ := andThen_eq_some.1 hr
        cases hg
        rw [hf, hi, getArg_bind_some ht]
      · obtain ⟨id, last, -, hw⟩ := andThen_eq_some.1 hr
        obtain ⟨work, other, -, hg⟩ := andThen_eq_some.1 hw
        cases hg
      · cases hr
  | request id work =>
    exact ⟨work.handler cfg id, handler_blind cfg id work, (handler_replies cfg id work).acts,
      fun _ _ h => handleFrame_request cfg h⟩

lemma handleFrame_none (h : acting cfg s.initDone s.iqueue = none) : Idle s (handleFrame cfg s) := by
  refine Idle.getArg local_getU8 fun type rest ht => ?_
  have hr := andThen_eq_none.1 h type rest ht
  split_ifs at hr with hf hd
  · obtain ⟨message, hi⟩ := dispatch_init cfg
    rw [hf, hi]
    refine Idle.getArg (local_getInt 4) fun version last hv => ?_
    cases andThen_eq_none.1 hr version last hv
  · rw [dispatch_request cfg (s := { s with iqueue := rest }) hf hd]
    refine Idle.getArg (local_getInt 4) fun id last hId => ?_
    apply request_none cfg (s := { s with iqueue := last })
    rw [Option.eq_none_iff_forall_ne_some]
    rintro ⟨work, tail⟩ hw
    cases andThen_eq_none.1 (andThen_eq_none.1 hr id last hId) work tail hw
  · exact .inl ⟨.fatal, dispatch_early cfg hf (by simpa using hd)⟩

/-! What `process` does to the outside and to its own state. -/

/-- The calls of one `process`, and the state that its handler leaves apart from the
input queue. A message whose arguments cannot be read has no effect. -/
def effects (env : Env Sys Resp) (s : Server) : Trace Sys Resp × Server :=
  match pendingBody s.iqueue with
  | none => ([], { s with iqueue := [] })
  | some body =>
    if sftpMaxMsgLength < body.length then ([], { s with iqueue := [] })
    else
      let ran := Prog.run env (handleFrame cfg { s with iqueue := s.iqueue.drop 4 })
      (ran.2, match ran.1 with
        | .ok out => { out.2 with iqueue := [] }
        | .error _ => { s with iqueue := [] })

lemma run_discardRest (p : Prog Sys Resp (Unit × Server)) (msgLen bufLen : Nat) (env : Env Sys Resp) :
    (Prog.run env (p >>= fun out => discardRest msgLen bufLen out.2)).2 = (Prog.run env p).2 ∧
      ∀ next, (Prog.run env (p >>= fun out => discardRest msgLen bufLen out.2)).1 = .ok ((), next) →
        ∃ middle, (Prog.run env p).1 = .ok ((), middle) ∧ middle.iqueue.length ≤ bufLen ∧
          bufLen - middle.iqueue.length ≤ msgLen ∧ next = { middle with
            iqueue := middle.iqueue.drop (msgLen - (bufLen - middle.iqueue.length)) } := by
  rw [Prog.run_bind]
  cases hRan : (Prog.run env p).1 with
  | error reason => exact ⟨rfl, fun next hn => by cases hn⟩
  | ok out =>
    dsimp only
    rcases discardRest_cases msgLen bufLen out.2 with ⟨reason, hh⟩ | ⟨hl, hw, hd⟩
    · rw [hh]
      exact ⟨append_nil _, fun next hn => by cases hn⟩
    · rw [hd]
      refine ⟨append_nil _, fun next hn => ?_⟩
      cases hn
      exact ⟨out.2, rfl, hl, hw, rfl⟩

lemma pendingBody_putString (hLength : body.length < 2 ^ 32) (hBody : body ≠ []) (later : Bytes) :
    pendingBody (putString body ++ later) = some body := by
  have hv : value (putU32 body.length) = body.length := value_digits (by simpa using hLength)
  have hPos := length_pos_iff.2 hBody
  have hTotal : (putString body ++ later).length = 4 + body.length + later.length := by
    rw [length_append, length_putString]
  rw [pendingBody, take_putString, hv, if_neg (by omega), drop_putString, take_left' rfl]

lemma process_oversize (hp : pendingBody s.iqueue = some body)
    (hLimit : sftpMaxMsgLength < body.length) : process cfg s = .halt (.exit 11) := by
  obtain ⟨hFive, hLength, -⟩ := pendingBody_eq_some hp
  change (if s.iqueue.length < 5 then _ else _ : SftpM Unit) s = _
  rw [if_neg (by omega), if_pos (by omega)]
  rfl

/-! Isolation of a frame from what follows it. -/

/-- Nothing but the frame decides what is done, and when `process` returns it has
consumed the frame. -/
def Isolated (s : Server) (body : Bytes) : Prop :=
  ∀ env later other, effects cfg env { s with iqueue := putString body ++ later } =
      effects cfg env { s with iqueue := putString body ++ other } ∧
    ∀ next, (Prog.run env (process cfg { s with iqueue := putString body ++ later })).1 = .ok ((), next) →
      next.iqueue = later

/-- The message has everything the server would act on, or it cannot be made into one
by what follows. -/
def SelfContained (initDone : Bool) (body : Bytes) : Prop :=
  sftpMaxMsgLength < body.length ∨ body ≠ [] ∧
    ((acting cfg initDone body).isSome ∨ ∀ later, acting cfg initDone (body ++ later) = none)

lemma run_idle (h : Idle s p) (env : Env Sys Resp) :
    (Prog.run env p).2 = [] ∧ ∀ out, (Prog.run env p).1 = .ok out →
      ∃ rest, rest <:+ s.iqueue ∧ out.2 = { s with iqueue := rest } := by
  rcases h with ⟨reason, rfl⟩ | ⟨rest, hr, rfl⟩
  · exact ⟨rfl, fun out hOut => by cases hOut⟩
  · refine ⟨rfl, fun out hOut => ?_⟩
    cases hOut
    exact ⟨rest, hr, rfl⟩

section

variable {s : Server} {body : Bytes} (hLength : body.length < 2 ^ 32) (hBody : body ≠ [])
  (hLimit : body.length ≤ sftpMaxMsgLength) (env : Env Sys Resp) (later : Bytes)

include hLength hBody hLimit

lemma effects_frame : effects cfg env { s with iqueue := putString body ++ later } =
      ((Prog.run env (handleFrame cfg { s with iqueue := body ++ later })).2,
        match (Prog.run env (handleFrame cfg { s with iqueue := body ++ later })).1 with
        | .ok out => { out.2 with iqueue := [] }
        | .error _ => { s with iqueue := [] }) := by
  rw [effects, pendingBody_putString hLength hBody]
  dsimp only
  rw [if_neg (Nat.not_lt.2 hLimit), drop_putString]

/-- Wherever the handler stopped reading, what is left afterwards starts at the end of
the frame. -/
lemma process_consumed
    (hs : ∀ out, (Prog.run env (handleFrame cfg { s with iqueue := body ++ later })).1 = .ok out →
      out.2.iqueue <:+ body ++ later) {next : Server}
    (h : (Prog.run env (process cfg { s with iqueue := putString body ++ later })).1 = .ok ((), next)) :
    next.iqueue = later := by
  have hp := pendingBody_putString hLength hBody later
  have hf := process_frame cfg (s := { s with iqueue := putString body ++ later }) hp hLimit
  rw [drop_putString, length_append, length_putString] at hf
  rw [hf] at h
  obtain ⟨middle, hm, hl, hw, rfl⟩ := (run_discardRest _ _ _ env).2 next h
  have ht := suffix_iff_eq_drop.1 (hs _ hm)
  rw [length_append] at ht
  generalize middle.iqueue.length = left at ht hl hw ⊢
  rw [ht, drop_drop]
  exact drop_left' (by omega)

lemma effects_idle (hn : acting cfg s.initDone (body ++ later) = none) :
    effects cfg env { s with iqueue := putString body ++ later } = ([], { s with iqueue := [] }) := by
  have hi := run_idle (handleFrame_none cfg (s := { s with iqueue := body ++ later }) hn) env
  rw [effects_frame cfg hLength hBody hLimit, hi.1]
  split
  · next out hOut =>
    obtain ⟨rest, -, hr⟩ := hi.2 out hOut
    rw [hr]
  · rfl

end

section
variable (hLength : body.length < 2 ^ 32)
include hLength

/-- An act that was read from the frame alone is the same whatever follows. -/
lemma acted_isolated (hBody : body ≠ [])
    (hLimit : body.length ≤ sftpMaxMsgLength) (hAct : acting cfg s.initDone body = some (act, rest)) :
    Isolated cfg s body := by
  intro env later other
  obtain ⟨m, hb, ha, hh⟩ := handleFrame_some cfg act
  have hr : ∀ queue, handleFrame cfg { s with iqueue := body ++ queue } =
    m { s with iqueue := rest ++ queue } := fun queue =>
    hh { s with iqueue := body ++ queue } _ ((local_acting cfg s.initDone).append queue hAct)
  constructor
  · rw [effects_frame cfg hLength hBody hLimit, effects_frame cfg hLength hBody hLimit, hr, hr]
    obtain ⟨ht, hRes⟩ := (hb { s with iqueue := rest ++ later } (rest ++ other)).run env
    rcases hRes with ⟨x, y, hx, hy, -, queue, hs⟩ | ⟨reason, hx, hy⟩
    · rw [ht, hx, hy]
      dsimp only
      rw [hs]
    · rw [ht, hx, hy]
  · intro next hn
    apply process_consumed cfg hLength hBody hLimit env later _ hn
    intro out hOut
    rw [hr] at hOut
    obtain ⟨last, hl, hk, -⟩ := (ha { s with iqueue := rest ++ later }).run env
    rw [hl] at hOut
    cases hOut
    rw [hk]
    exact (local_acting cfg s.initDone).suffix ((local_acting cfg s.initDone).append later hAct)

lemma idle_isolated (hBody : body ≠ []) (hLimit : body.length ≤ sftpMaxMsgLength)
    (hn : ∀ later, acting cfg s.initDone (body ++ later) = none) : Isolated cfg s body := by
  intro env later other
  constructor
  · rw [effects_idle cfg hLength hBody hLimit env later (hn later),
      effects_idle cfg hLength hBody hLimit env other (hn other)]
  · intro next hNext
    apply process_consumed cfg hLength hBody hLimit env later _ hNext
    intro out hOut
    have hi := handleFrame_none cfg (s := { s with iqueue := body ++ later }) (hn later)
    obtain ⟨rest, hr, hl⟩ := (run_idle hi env).2 out hOut
    rw [hl]
    exact hr

lemma oversize_isolated (hLimit : sftpMaxMsgLength < body.length) : Isolated cfg s body := by
  have hBody : body ≠ [] := length_pos_iff.1 (by omega)
  have hNil : ∀ env later, effects cfg env { s with iqueue := putString body ++ later } =
    ([], { s with iqueue := [] }) := by
    intro env later
    rw [effects, pendingBody_putString hLength hBody]
    dsimp only
    rw [if_pos hLimit]
  intro env later other
  refine ⟨(hNil env later).trans (hNil env other).symm, fun next hn => ?_⟩
  rw [process_oversize cfg (s := { s with iqueue := putString body ++ later })
    (pendingBody_putString hLength hBody later) hLimit] at hn
  cases hn

lemma not_isolated {later : Bytes} (hBody : body ≠ [])
    (hLimit : body.length ≤ sftpMaxMsgLength) (hNone : acting cfg s.initDone body = none)
    (hAct : acting cfg s.initDone (body ++ later) = some (act, rest)) : ¬ Isolated cfg s body := by
  intro hi
  let env : Env Sys Resp := fun _ => Sys.succeed
  obtain ⟨hs, -⟩ := hi env later []
  rw [effects_idle cfg hLength hBody hLimit env [] (by rwa [append_nil]),
    effects_frame cfg hLength hBody hLimit] at hs
  obtain ⟨m, -, ha, hh⟩ := handleFrame_some cfg act
  rw [hh { s with iqueue := body ++ later } rest hAct] at hs
  obtain ⟨last, hl, -, reply, hr⟩ := (ha { s with iqueue := rest }).run env
  rw [hl] at hs
  have hq : last.2.oqueue = s.oqueue := congrArg (·.2.oqueue) hs
  rw [hr] at hq
  have he := congrArg List.length (append_right_eq_self.1 hq)
  rw [length_putString] at he
  exact absurd he (by simp)

end

/-- A frame is served the same whatever follows it exactly when all that the server
acts on lies inside the frame. -/
theorem frame_isolated (s : Server) {body : Bytes} (hLength : body.length < 2 ^ 32) :
    Isolated cfg s body ↔ SelfContained cfg s.initDone body := by
  constructor
  · intro hIsolated
    by_cases hLimit : sftpMaxMsgLength < body.length
    · exact .inl hLimit
    have hBody : body ≠ [] := by
      rintro rfl
      -- Four bytes are too few for `process` even when they announce no more.
      have hWaits := (hIsolated (fun _ => Sys.succeed) [] []).2 { s with iqueue := putString [] ++ [] } rfl
      cases hWaits
    refine .inr ⟨hBody, ?_⟩
    cases hNone : acting cfg s.initDone body with
    | some pair => exact .inl rfl
    | none =>
      refine .inr fun later => ?_
      cases hAct : acting cfg s.initDone (body ++ later) with
      | none => rfl
      | some pair =>
        exact absurd hIsolated (not_isolated cfg hLength hBody (Nat.not_lt.1 hLimit) hNone hAct)
  · rintro (hLimit | ⟨hBody, hActs⟩)
    · exact oversize_isolated cfg hLength hLimit
    · by_cases hLimit : sftpMaxMsgLength < body.length
      · exact oversize_isolated cfg hLength hLimit
      rcases hActs with hAct | hNone
      · obtain ⟨⟨act, rest⟩, hAct⟩ := Option.isSome_iff_exists.1 hAct
        exact acted_isolated cfg hLength hBody (Nat.not_lt.1 hLimit) hAct
      · exact idle_isolated cfg hLength hBody (Nat.not_lt.1 hLimit) hNone

def writableConfig : Config := { readonlyConfig with readonly := false }

theorem frame_isolated_remove : Isolated writableConfig { Server.initial with initDone := true }
      ([13] ++ putU32 9 ++ putString (text "/etc/motd")) :=
  (frame_isolated writableConfig { Server.initial with initDone := true } (by decide)).2
    (.inr ⟨by decide, .inl (by decide)⟩)

/-- A request to remove whose frame ends before the name removes the file that the next
bytes name. -/
theorem frame_overread :
    ¬ Isolated writableConfig { Server.initial with initDone := true } ([13] ++ putU32 9 ++ putU32 9) := by
  intro hIsolated
  have hSame := (hIsolated (fun _ => Sys.succeed) (text "/etc/motd") []).1
  exact absurd (congrArg (·.1.length) hSame) (by decide +kernel)

end Sftp
