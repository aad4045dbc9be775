import Sshfortress.Channel.Effects

/-! The way from the client to the target. The write handler hands the output queue
on byte by byte or datagram by datagram; the audit in the read handler looks at the
same queue first, and takes a datagram off it. -/
namespace Channel
open Base Base.Transition List

variable {compat : Compat} {r : Round} {c d e next : Chan} {g g' : Globals}
  {actions first rest : List Action}

/-- The channel after the audit of the read handler has looked at the queue. -/
def Fetched.channel (compat : Compat) (c : Chan) : Fetched → Chan
  | .nothing => c
  | .stops popped => filterStops compat popped
  | .data _ popped => popped

def auditTap (compat : Compat) (r : Round) (c : Chan) : Except Stop Chan :=
  (fetchOutput r.writable c).map (Fetched.channel compat c)

lemma readTarget_output (queue : Bytes) : readTarget r { c with output := queue } = readTarget r c :=
  rfl

/-- When there is nothing to read, the read handler is its audit. -/
lemma channelHandleRfd_eq_auditTap (hi : readTarget r c = .nothing) :
    channelHandleRfd compat r c g = (auditTap compat r c).map fun tapped => (g, tapped, []) := by
  have hr : ∀ (k : Option Keys) (queue : Bytes),
    readSide compat r k { c with output := queue } g = .ok (g, { c with output := queue }, []) := by
    intro k queue
    unfold readSide
    rw [readTarget_output, hi]
  unfold channelHandleRfd auditTap
  cases hf : fetchOutput r.writable c with
  | error stop => rfl
  | ok found =>
    rcases fetchOutput_eq_ok hf with ⟨-, rfl⟩ | ⟨-, ⟨-, -, rfl⟩ | ⟨-, s, left, -, rfl⟩⟩
    · exact hr r.stale c.output
    · exact hr _ c.output
    · split_ifs
      · rfl
      · exact hr _ left
      · exact hr _ left

/-- Nothing is queued for a target that can be written to, or the queue is one of
bytes, which can be looked at in place. -/
def TapHarmless (r : Round) (c : Chan) : Prop :=
  (c.wfd && r.writable && c.output ≠ []) = false ∨ (c.outputFilter = false ∧ c.datagram = false)

/-- The channel can still hand on what it is sent. -/
structure Live (c : Chan) : Prop where
  output : c.ostate = .opened
  dead : c.type ≠ .zombie
  draining : c.type ≠ .inputDraining

lemma not_live_chanMarkDead : ¬ Live (chanMarkDead c) := fun h => h.dead rfl

lemma not_live_chanWriteFailed : ¬ Live (chanWriteFailed compat c) := by
  intro h
  have ho := h.output
  rcases chanWriteFailed_eq compat c with ⟨hNot, hEq⟩ | ⟨wfd, ostate, hEq, hNot, -⟩
  · exact hNot (hEq ▸ ho)
  · rw [hEq] at ho
    exact hNot ho

lemma not_live_filterStops : ¬ Live (filterStops compat c) := by
  unfold filterStops
  split_ifs
  · exact not_live_chanWriteFailed
  · exact not_live_chanMarkDead

lemma not_live_writeFailed : ¬ Live (writeFailed compat c) := by
  unfold writeFailed
  split_ifs
  · exact not_live_chanMarkDead
  · exact fun h => h.draining rfl
  · exact not_live_chanWriteFailed

/-- The parts of a channel that say whether it is live and what is queued. -/
structure SameQueue (c d : Chan) : Prop where
  output : d.output = c.output
  ostate : d.ostate = c.ostate
  type : d.type = c.type

lemma SameQueue.live (h : SameQueue c d) (hl : Live d) : Live c :=
  ⟨h.ostate ▸ hl.output, h.type ▸ hl.dead, h.type ▸ hl.draining⟩

lemma sameQueue_chanReadFailed : SameQueue c (chanReadFailed compat c) := by
  obtain ⟨rfd, istate, hEq, -⟩ := chanReadFailed_eq compat c
  rw [hEq]
  exact ⟨rfl, rfl, rfl⟩

lemma readFailed_live (h : Live (readFailed compat c)) : SameQueue c (readFailed compat c) := by
  unfold readFailed at h ⊢
  split_ifs at h ⊢
  · exact absurd h not_live_chanMarkDead
  · exact absurd rfl h.draining
  · exact sameQueue_chanReadFailed

variable {s left queue : Bytes} {k : Option Keys} {id : Nat} {events : List (Nat × Action)}

lemma relayChunk_sameQueue {chunk : Bytes}
    (h : relayChunk compat r k chunk c g = .ok (g', next, actions)) : SameQueue c next := by
  unfold relayChunk at h
  split_ifs at h
  · split at h
    · cases h
      exact sameQueue_chanReadFailed
    · cases h
      exact ⟨rfl, rfl, rfl⟩
  · cases h
    exact ⟨rfl, rfl, rfl⟩
  · obtain ⟨⟨later, records⟩, -, hd⟩ := bind_eq_ok.1 h
    cases hd
    exact ⟨rfl, rfl, rfl⟩

lemma readSide_sameQueue (hl : Live next)
    (h : readSide compat r k c g = .ok (g', next, actions)) : SameQueue c next := by
  rcases readSide_eq_ok h with ⟨-, -, rfl, -⟩ | ⟨-, -, rfl, -⟩ | ⟨chunk, -, hr⟩
  · exact ⟨rfl, rfl, rfl⟩
  · exact readFailed_live hl
  · exact relayChunk_sameQueue hr

lemma getString_ne (h : Wire.getString queue = some (s, left)) : left ≠ queue := by
  intro hs
  have hLen := Wire.getString_length h
  rw [hs] at hLen
  omega

lemma chanWriteFailed_output : (chanWriteFailed compat c).output = c.output ∨
    (chanWriteFailed compat c).output = [] := by
  rcases chanWriteFailed_eq compat c with ⟨-, hEq⟩ | ⟨wfd, ostate, hEq, -⟩
  · exact .inl (by rw [hEq])
  · exact .inr (by rw [hEq])

lemma filterStops_output : (filterStops compat c).output = c.output ∨
    (filterStops compat c).output = [] := by
  unfold filterStops
  split_ifs
  · exact chanWriteFailed_output
  · exact .inl rfl

/-- The audit leaves the queue alone exactly in the harmless cases. -/
lemma auditTap_output_iff :
    (∃ tapped, auditTap compat r c = .ok tapped ∧ tapped.output = c.output) ↔ TapHarmless r c := by
  constructor
  · rintro ⟨tapped, hTap, hs⟩
    unfold auditTap at hTap
    cases hf : fetchOutput r.writable c with
    | error stop =>
      rw [hf] at hTap
      cases hTap
    | ok found =>
      rw [hf] at hTap
      cases hTap
      rcases fetchOutput_eq_ok hf with ⟨hn, -⟩ | ⟨hPend, hStream | ⟨-, s, left, hGet, hFound⟩⟩
      · exact .inl hn
      · exact .inr ⟨hStream.1, hStream.2.1⟩
      · exfalso
        have hNe : c.output ≠ [] := by
          simp only [Bool.and_eq_true, decide_eq_true_eq] at hPend
          exact hPend.2
        have hp := getString_ne hGet
        subst hFound
        split_ifs at hs
        · have hc := @filterStops_output compat { c with output := left }
          rcases hc with hStop | hStop
          · exact hp (hStop.symm.trans hs)
          · exact hNe (hs.symm.trans hStop)
        · exact hp hs
        · exact hp hs
  · intro hh
    unfold auditTap fetchOutput
    rcases hh with hn | ⟨hFilt, hg⟩
    · rw [hn]
      exact ⟨c, rfl, rfl⟩
    · split_ifs
      · exact absurd hFilt (by simp_all)
      · exact absurd hg (by simp_all)
      · exact ⟨c, rfl, rfl⟩
      · exact ⟨c, rfl, rfl⟩

def queuedChunks (actions : List Action) : List Bytes :=
  actions.filterMap fun
    | .queued bytes => some bytes
    | _ => none

def handedChunks (actions : List Action) : List Bytes :=
  actions.filterMap fun
    | .handed bytes => some bytes
    | _ => none

@[simp] lemma queuedChunks_append :
    queuedChunks (first ++ rest) = queuedChunks first ++ queuedChunks rest :=
  filterMap_append ..

@[simp] lemma handedChunks_append :
    handedChunks (first ++ rest) = handedChunks first ++ handedChunks rest :=
  filterMap_append ..

/-- The part of a datagram that is written: a tunnel drops the address family. -/
def carried (settings : Settings) (datagram : Bytes) : Bytes :=
  if settings.outputFilter then datagram.drop 4 else datagram

/-- The queue of a datagram channel is made of these datagrams. -/
def Holds (queue : Bytes) (datagrams : List Bytes) : Prop :=
  queue = (datagrams.map Wire.putString).flatten ∧ ∀ d ∈ datagrams, d.length ≤ 256 * 1024

/-- First in, first out: what was handed to the target, followed by what is still
queued, is what was queued before, followed by what was queued since. For a stream
this is about bytes, for a datagram channel about datagrams. -/
def Delivered (c d : Chan) (actions : List Action) : Prop :=
  if c.datagram then
    ∀ before, Holds c.output before → ∃ left, Holds d.output left ∧
      handedChunks actions ++ left.map (carried c.toSettings) =
        (before ++ queuedChunks actions).map (carried c.toSettings)
  else
    (handedChunks actions).flatten ++ d.output = c.output ++ (queuedChunks actions).flatten

lemma delivered_of_same (hOut : d.output = c.output) (hh : handedChunks actions = [])
    (hq : queuedChunks actions = []) : Delivered c d actions := by
  unfold Delivered
  rw [hh, hq, hOut]
  split_ifs
  · intro before hPre
    exact ⟨before, hPre, by simp⟩
  · simp

lemma Delivered.trans (hSet : d.toSettings = c.toSettings) (hf : Delivered c d first)
    (hr : Delivered d e rest) : Delivered c e (first ++ rest) := by
  unfold Delivered at hf hr ⊢
  rw [hSet] at hr
  rw [handedChunks_append, queuedChunks_append]
  by_cases hg : c.datagram = true
  · rw [if_pos hg] at hf hr ⊢
    intro before hPre
    obtain ⟨middle, hm, hh⟩ := hf before hPre
    obtain ⟨left, hLeft, hl⟩ := hr middle hm
    refine ⟨left, hLeft, ?_⟩
    calc
      handedChunks first ++ handedChunks rest ++ left.map (carried c.toSettings)
        = handedChunks first ++ (middle ++ queuedChunks rest).map (carried c.toSettings) := by
          rw [append_assoc, hl]
      _ = (handedChunks first ++ middle.map (carried c.toSettings)) ++
        (queuedChunks rest).map (carried c.toSettings) := by simp
      _ = (before ++ (queuedChunks first ++ queuedChunks rest)).map (carried c.toSettings) := by
        rw [hh]
        simp
  · rw [if_neg hg] at hf hr ⊢
    calc
      (handedChunks first ++ handedChunks rest).flatten ++ e.output
        = (handedChunks first).flatten ++ (d.output ++ (queuedChunks rest).flatten) := by
          rw [flatten_append, append_assoc, hr]
      _ = c.output ++ (queuedChunks first ++ queuedChunks rest).flatten := by
        rw [← append_assoc, hf]
        simp

lemma handedChunks_ofRead (h : ∀ a ∈ actions, a.ofRead = true) : handedChunks actions = [] := by
  apply filterMap_eq_nil_iff.2
  intro a ha
  have hAction := h a ha
  cases a <;> first | rfl | cases hAction

lemma queuedChunks_ofRead (h : ∀ a ∈ actions, a.ofRead = true) : queuedChunks actions = [] := by
  apply filterMap_eq_nil_iff.2
  intro a ha
  have hAction := h a ha
  cases a <;> first | rfl | cases hAction

lemma channelHandleRfd_delivers (hTap : TapHarmless r c) (hl : Live next)
    (h : channelHandleRfd compat r c g = .ok (g', next, actions)) : Live c ∧ Delivered c next actions := by
  obtain ⟨found, hf, hr⟩ := channelHandleRfd_eq_ok h
  have hRead := (channelHandleRfd_reads h).ofRead
  have hs : SameQueue c next := by
    rcases fetchOutput_eq_ok hf with ⟨-, rfl⟩ | ⟨hPend, ⟨-, -, rfl⟩ | ⟨hp, -⟩⟩
    · exact readSide_sameQueue hl hr
    · exact readSide_sameQueue hl hr
    · exfalso
      rcases hTap with hn | ⟨hFilt, hg⟩
      · rw [hPend] at hn
        cases hn
      · rw [hFilt, hg] at hp
        simp at hp
  exact ⟨hs.live hl, delivered_of_same hs.output (handedChunks_ofRead hRead) (queuedChunks_ofRead hRead)⟩

lemma sameQueue_countConsumed (before : Chan) : SameQueue c (countConsumed compat before c) := by
  unfold countConsumed
  split_ifs <;> exact ⟨rfl, rfl, rfl⟩

lemma writeStream_delivers (hs : c.datagram = false) (hl : Live next)
    (h : writeStream compat r c.output c c = .ok (next, actions)) : Live c ∧ Delivered c next actions := by
  rcases writeStream_eq_ok h with ⟨-, rfl | rfl, rfl⟩ | ⟨n, len, -, -, -, -, rfl, rfl⟩
  · exact ⟨hl, delivered_of_same rfl rfl rfl⟩
  · exact absurd hl not_live_writeFailed
  · have hc := @sameQueue_countConsumed compat { c with output := c.output.drop len } c
    have hd := hc.live hl
    constructor
    · exact ⟨hd.output, hd.dead, hd.draining⟩
    · unfold Delivered
      rw [hs, hc.output]
      simp [handedChunks, queuedChunks]

lemma getString_holds {datagrams : List Bytes} (hh : Holds queue datagrams)
    (hGet : Wire.getString queue = some (s, left)) : ∃ later, datagrams = s :: later ∧ Holds left later := by
  obtain ⟨hq, hb⟩ := hh
  cases datagrams with
  | nil =>
    rw [hq] at hGet
    cases hGet
  | cons d later =>
    have hLen : d.length ≤ Wire.sizeMax - 4 :=
      (hb d mem_cons_self).trans (by decide)
    rw [hq, map_cons, flatten_cons, Wire.getString_putString hLen] at hGet
    cases hGet
    exact ⟨later, rfl, rfl, fun x hx => hb x (.tail _ hx)⟩

lemma delivered_pop (hg : c.datagram = true) (hGet : Wire.getString c.output = some (s, left))
    (hOut : d.output = left) : Delivered c d [.handed (carried c.toSettings s)] := by
  unfold Delivered
  rw [if_pos hg]
  intro before hPre
  obtain ⟨later, rfl, hl⟩ := getString_holds hPre hGet
  refine ⟨later, hOut ▸ hl, ?_⟩
  simp [handedChunks, queuedChunks]

lemma writeDatagram_live {bytes : Bytes} {before : Chan}
    (hl : Live (writeDatagram compat r bytes before c).1) :
    SameQueue c (writeDatagram compat r bytes before c).1 := by
  unfold writeDatagram at hl ⊢
  cases hw : r.write with
  | retry => exact ⟨rfl, rfl, rfl⟩
  | failed =>
    simp only [hw] at hl
    exact absurd hl not_live_filterStops
  | wrote count =>
    simp only [hw] at hl ⊢
    split_ifs at hl ⊢
    · exact absurd hl not_live_filterStops
    · exact sameQueue_countConsumed before

lemma channelHandleWfd_delivers (hFilt : c.outputFilter = true → c.datagram = true)
    (hl : Live next) (h : channelHandleWfd compat r c g = .ok (g', next, actions)) :
    Live c ∧ Delivered c next actions := by
  obtain ⟨-, found, hf, hr⟩ := channelHandleWfd_eq_ok h
  rcases fetchOutput_eq_ok hf with ⟨-, rfl⟩ | ⟨-, ⟨-, hs, rfl⟩ | ⟨hPops, s, left, hGet, rfl⟩⟩
  · obtain ⟨rfl, rfl⟩ := hr
    exact ⟨hl, delivered_of_same rfl rfl rfl⟩
  · dsimp only at hr
    rw [hs] at hr
    exact writeStream_delivers hs hl hr
  · have hg : c.datagram = true := hPops.elim hFilt id
    -- Both ways of popping end in the same write, of the part that is carried.
    have hw : (next, actions) =
      writeDatagram compat r (carried c.toSettings s) c { c with output := left } := by
      unfold carried
      split_ifs at hr ⊢ with hFiltered hShort
      · exact absurd (hr.1 ▸ hl) not_live_filterStops
      · exact hr
      · exact hr
    have hn := congrArg Prod.fst hw
    have ha : actions = [.handed (carried c.toSettings s)] := congrArg Prod.snd hw
    dsimp only at hn
    rw [hn] at hl ⊢
    have hSame := writeDatagram_live hl
    have hp := hSame.live hl
    rw [ha]
    exact ⟨⟨hp.output, hp.dead, hp.draining⟩, delivered_pop hg hGet hSame.output⟩

lemma channelInputData_delivers (payload : Payload)
    (h : channelInputData compat payload.val c = (next, actions)) (hl : Live next) :
    Live c ∧ Delivered c next actions := by
  rcases channelInputData_eq payload.val with ⟨window, consumed, hDrop⟩ | ⟨window, hq⟩
  · cases hDrop.symm.trans h
    exact ⟨⟨hl.output, hl.dead, hl.draining⟩, delivered_of_same rfl rfl rfl⟩
  · cases hq.symm.trans h
    refine ⟨⟨hl.output, hl.dead, hl.draining⟩, ?_⟩
    unfold Delivered queueEntry
    split_ifs with hGram
    · intro before hPre
      refine ⟨before ++ [payload.val], ⟨?_, ?_⟩, by simp [handedChunks, queuedChunks]⟩
      · simp [hPre.1]
      · intro d hd
        rcases mem_append.1 hd with hOld | hNew
        · exact hPre.2 d hOld
        · rw [mem_singleton.1 hNew]
          exact payload.property
    · simp [handedChunks, queuedChunks]

lemma sameQueue_channelCheckWindow : SameQueue c (channelCheckWindow c).1 := by
  unfold channelCheckWindow
  split_ifs <;> exact ⟨rfl, rfl, rfl⟩

lemma channelCheckWindow_silent :
    handedChunks (channelCheckWindow c).2 = [] ∧ queuedChunks (channelCheckWindow c).2 = [] := by
  unfold channelCheckWindow
  split_ifs <;> exact ⟨rfl, rfl⟩

lemma requestOutcome_live {a : SessionAnswer} {rtype : Bytes} {success : Bool}
    (h : requestOutcome compat a rtype c = .ok (next, success)) :
    next.output = c.output ∧ (Live next → Live c) := by
  unfold requestOutcome at h
  split_ifs at h
  · cases h
    obtain ⟨rfd, istate, hEq, -⟩ := chanRcvdEow_eq compat c
    rw [hEq]
    exact ⟨rfl, fun hl => ⟨hl.output, hl.dead, hl.draining⟩⟩
  · unfold sessionInputChannelReq at h
    dsimp only at h
    split_ifs at h with hUnknown hs
    · cases h
      exact ⟨rfl, id⟩
    · obtain ⟨answer, -, hd⟩ := bind_eq_ok.1 h
      cases hd
      have hLarval : c.type = .larval := by
        simp only [Bool.and_eq_true, decide_eq_true_eq] at hs
        exact hs.1
      split_ifs
      · refine ⟨rfl, fun hl => ⟨hl.output, ?_, ?_⟩⟩ <;> rw [hLarval] <;> decide
      · exact ⟨rfl, id⟩
    · obtain ⟨answer, -, hd⟩ := bind_eq_ok.1 h
      cases hd
      exact ⟨rfl, id⟩
    · cases h
      exact ⟨rfl, id⟩
  · cases h
    exact ⟨rfl, id⟩

/-- The audit of the call, if it makes one, is harmless. -/
def HarmlessCall (c : Chan) : Call → Prop
  | .rfd r | .post r => TapHarmless r c
  | _ => True

/-- Every call with a harmless audit delivers first in, first out. -/
lemma handle_delivers {call : Call} (hf : c.outputFilter = true → c.datagram = true)
    (hh : HarmlessCall c call) (hl : Live next)
    (h : handle compat call c g = .ok (g', next, actions)) : Live c ∧ Delivered c next actions := by
  cases call with
  | data payload => exact channelInputData_delivers payload (handle_data h).2 hl
  | request rtype a =>
    obtain ⟨-, success, hHow, rfl⟩ := serverInputChannelReq_eq_ok h
    obtain ⟨hOut, hPre⟩ := requestOutcome_live hHow
    exact ⟨hPre hl, delivered_of_same hOut rfl rfl⟩
  | rfd r => exact channelHandleRfd_delivers hh hl h
  | wfd r => exact channelHandleWfd_delivers hf hl h
  | post r =>
    obtain ⟨g₁, c₁, first, c₂, second, hr, hw, hd⟩ := channelPostOpen_eq_ok h
    have hSet := (channelHandleRfd_reads hr).touches.settings
    have hb : Live c₂ → Live c ∧ Delivered c c₂ (first ++ second) := by
      intro hl₂
      obtain ⟨hl₁, hWritten⟩ := channelHandleWfd_delivers (by rw [hSet]; exact hf) hl₂ hw
      obtain ⟨hl₀, hk⟩ := channelHandleRfd_delivers hh hl₁ hr
      exact ⟨hl₀, hk.trans hSet hWritten⟩
    split_ifs at hd
    · cases hd
      have hWin := @sameQueue_channelCheckWindow c₂
      obtain ⟨hl₀, hGot⟩ := hb (hWin.live hl)
      have hs := @channelCheckWindow_silent c₂
      refine ⟨hl₀, hGot.trans ?_ (delivered_of_same hWin.output hs.1 hs.2)⟩
      exact (channelHandleWfd_touches hw).settings.trans hSet
    · cases hd
      exact hb hl

/-- The condition on one step: on this channel the audit is harmless. -/
def HarmlessOn (id : Nat) (s : Server) (input : Nat × Call) : Prop :=
  input.1 = id → ∀ c, s.chans id = some c → HarmlessCall c input.2

lemma step_delivers {s s' : Server} {input : Nat × Call}
    (hf : c.outputFilter = true → c.datagram = true) (hc : s.chans id = some c)
    (hHarmless : HarmlessOn id s input) (hs : step s input = .ok (s', events)) :
    ∃ next, s'.chans id = some next ∧ next.toSettings = c.toSettings ∧
      (Live next → Live c ∧ Delivered c next (actionsOn id events)) := by
  obtain ⟨other, call⟩ := input
  rcases step_channel hc hs with ⟨hId, g, next, hh, hn⟩ | ⟨-, hNone, hSame⟩
  · exact ⟨next, hn, handle_settings hh, fun hl =>
      handle_delivers hf (hHarmless hId c hc) hl hh⟩
  · rw [hNone]
    exact ⟨c, hSame, rfl, fun hl => ⟨hl, delivered_of_same rfl rfl rfl⟩⟩

/-- In a run in which all audits of a channel are harmless, everything queued on it is
handed to the target once and in order, as long as the channel lives. -/
lemma run_delivers {s last : Server} {calls : List (Nat × Call)} (hc : s.chans id = some c)
    (hf : c.outputFilter = true → c.datagram = true)
    (ha : Along step (HarmlessOn id) s calls) (hRun : run step s calls = .ok (last, events))
    (hl : last.chans id = some d) :
    d.toSettings = c.toSettings ∧ (Live d → Delivered c d (actionsOn id events)) := by
  have hEnd : ∃ next, last.chans id = some next ∧ next.toSettings = c.toSettings ∧
    (Live next → Delivered c next (actionsOn id events)) := by
    refine run_events (fun server past => ∃ next, server.chans id = some next ∧
      next.toSettings = c.toSettings ∧ (Live next → Delivered c next (actionsOn id past)))
      ?_ ⟨c, hc, rfl, fun _ => delivered_of_same rfl rfl rfl⟩ ha hRun
    rintro server past input later shown ⟨middle, hMiddle, hSet, hp⟩ hh hStep
    obtain ⟨next, hn, hSame, hs⟩ :=
      step_delivers (by rw [hSet]; exact hf) hMiddle hh hStep
    refine ⟨next, hn, hSame.trans hSet, fun hNextLive => ?_⟩
    obtain ⟨hm, hGot⟩ := hs hNextLive
    rw [actionsOn_append]
    exact (hp hm).trans hSet hGot
  obtain ⟨next, hn, hSet, hGot⟩ := hEnd
  obtain rfl : next = d := Option.some.inj (hn.symm.trans hl)
  exact ⟨hSet, hGot⟩

/-- The audit leaves the queue alone exactly in the harmless cases; and in a run in
which all audits of a channel are harmless, everything queued on it is handed to the
target once and in order, as long as the channel lives. -/
theorem audit_delivers_iff (id : Nat) (c : Chan) :
    (∀ compat r, (∃ tapped, auditTap compat r c = .ok tapped ∧ tapped.output = c.output) ↔ TapHarmless r c) ∧
    ∀ (s last : Server) (d : Chan) (calls : List (Nat × Call)) (events : List (Nat × Action)),
      s.chans id = some c → (c.outputFilter = true → c.datagram = true) →
      Along step (HarmlessOn id) s calls → run step s calls = .ok (last, events) →
      last.chans id = some d → Live d → Delivered c d (actionsOn id events) := by
  refine ⟨fun compat r => auditTap_output_iff, ?_⟩
  intro s last d calls events hChan hFilter hAlong hRun hLast hLive
  exact (run_delivers hChan hFilter hAlong hRun hLast).2 hLive

/-- An open shell whose client has typed two keys, of which one fits. -/
def openSession : Chan :=
  { freshSession with type := .opened, rfd := true, wfd := true, isatty := true, localWindow := 4096 }

def oneSession (c : Chan) : Server :=
  { twoSessions with chans := fun id => if id = 0 then some c else none }

def writes (count : Nat) : Round := { quietRound with writable := true, write := .wrote count }

theorem audit_delivers_keystrokes : ∃ last d events, run step (oneSession openSession)
    [(0, .data ⟨text "ls", by decide⟩), (0, .rfd (writes 1)), (0, .wfd (writes 1))] = .ok (last, events) ∧
    last.chans 0 = some d ∧ d.output = text "s" ∧ Delivered openSession d (actionsOn 0 events) := by
  have hAlong : Along step (HarmlessOn 0) (oneSession openSession)
    [(0, .data ⟨text "ls", by decide⟩), (0, .rfd (writes 1)), (0, .wfd (writes 1))] := by
    refine ⟨fun _ _ _ => trivial, ?_⟩
    rintro next events hData
    cases hData
    refine ⟨?_, fun _ _ _ => ⟨fun _ _ _ => trivial, fun _ _ _ => trivial⟩⟩
    rintro - c hChan
    cases hChan
    exact .inr ⟨rfl, rfl⟩
  refine ⟨_, _, _, rfl, rfl, by decide, ?_⟩
  exact (audit_delivers_iff 0 openSession).2 (oneSession openSession) _ _ _ _ rfl
    (fun h => by cases h) hAlong rfl rfl ⟨rfl, by decide, by decide⟩

def openTunnel : Chan :=
  { openSession with ctype := text "tun", logfd := false, logfdTime := false, datagram := true }

def busyRound : Round := { reads [9] with writable := true, write := .wrote 3 }

/-- The datagram that the audit takes off the queue reaches nobody. -/
theorem audit_loses_datagram : ∃ last d events, ¬ (∃ tapped, auditTap ⟨false, true⟩ busyRound
      { openTunnel with output := Wire.putString [1, 2, 3] } = .ok tapped ∧
      tapped.output = Wire.putString [1, 2, 3]) ∧
    run step (oneSession openTunnel)
      [(0, .data ⟨[1, 2, 3], by decide⟩), (0, .rfd busyRound), (0, .wfd busyRound)] =
      .ok (last, events) ∧
    last.chans 0 = some d ∧ Live d ∧ ¬ Delivered openTunnel d (actionsOn 0 events) := by
  refine ⟨_, _, _, ?_, rfl, rfl, ⟨rfl, by decide, by decide⟩, ?_⟩
  · rintro ⟨tapped, hTap, hSame⟩
    have hHarmless := auditTap_output_iff.1 ⟨tapped, hTap, hSame⟩
    unfold TapHarmless at hHarmless
    revert hHarmless
    decide
  · intro hDelivered
    obtain ⟨left, hLeft, hHanded⟩ := hDelivered [] ⟨rfl, by simp⟩
    have hPlain : carried openTunnel.toSettings = id := rfl
    rw [hPlain, map_id, map_id] at hHanded
    change left = [[1, 2, 3]] at hHanded
    rw [hHanded] at hLeft
    exact absurd hLeft.1 (by decide)

end Channel
