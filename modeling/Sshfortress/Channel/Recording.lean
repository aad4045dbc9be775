import Sshfortress.Channel.Effects

/-! Completeness of the session recording. Whether output is recorded depends on the
type of the last request of the whole process, so it is complete only as long as no
request of another kind arrives, on whatever channel. -/
namespace Channel
open Base Base.Transition List

def relayedChunks (actions : List Action) : List Bytes :=
  actions.filterMap fun
    | .relayed bytes => some bytes
    | _ => none

def loggedChunks (actions : List Action) : List Bytes :=
  actions.filterMap fun
    | .logged bytes => some bytes
    | _ => none

def timingRecords (actions : List Action) : List Bytes :=
  actions.filterMap fun
    | .timed record => some record
    | _ => none

def Describes (record chunk : Bytes) : Prop := ∃ delta, record = timingRecord delta chunk.length

/-- The playback file holds every chunk relayed to the user, in order, and the
timing file has one record for each. -/
def Recorded (actions : List Action) : Prop :=
  loggedChunks actions = relayedChunks actions ∧
    List.Forall₂ Describes (timingRecords actions) (relayedChunks actions)

lemma Recorded.append {first rest : List Action} (hf : Recorded first)
    (hr : Recorded rest) : Recorded (first ++ rest) := by
  constructor
  · have hLog := congrArg₂ (· ++ ·) hf.1 hr.1
    simpa [loggedChunks, relayedChunks] using hLog
  · simpa [timingRecords, relayedChunks] using rel_append hf.2 hr.2

/-- Actions that concern neither the user's screen nor the two files. -/
def Action.aside : Action → Bool
  | .relayed _ | .logged _ | .timed _ => false
  | _ => true

variable {actions : List Action}

lemma chunks_of_aside (h : ∀ a ∈ actions, a.aside = true) :
    relayedChunks actions = [] ∧ loggedChunks actions = [] ∧ timingRecords actions = [] := by
  induction actions with
  | nil => exact ⟨rfl, rfl, rfl⟩
  | cons a actions ih =>
    have hr := ih fun b hb => h b (.tail _ hb)
    have hf := h a mem_cons_self
    cases a <;> first | exact hr | cases hf

lemma recorded_of_aside (h : ∀ a ∈ actions, a.aside = true) : Recorded actions := by
  obtain ⟨hr, hl, ht⟩ := chunks_of_aside h
  unfold Recorded
  rw [hr, hl, ht]
  exact ⟨rfl, .nil⟩

variable {compat : Compat} {r : Round} {c next : Chan} {g g' : Globals} {actions : List Action}

lemma Action.aside_of_ofRow {a : Action} (h : a.ofRow = true) : a.aside = true := by
  cases a <;> first | rfl | cases h

variable {k : Option Keys} {call : Call} {id : Nat}

lemma recordChunk_recorded {chunk : Bytes} (hTime : c.logfdTime = true)
    (h : recordChunk r k chunk c g = .ok (g', actions)) : Recorded (actions ++ [.relayed chunk]) := by
  obtain ⟨delta, rows, rfl, hRows, -⟩ := recordChunk_eq_ok h
  rw [if_pos hTime]
  have hAside : ∀ a ∈ rows, a.aside = true := fun a ha => Action.aside_of_ofRow (hRows a ha)
  obtain ⟨hr, hl, ht⟩ := chunks_of_aside hAside
  simp only [relayedChunks, loggedChunks, timingRecords] at hr hl ht
  constructor
  · simp [loggedChunks, relayedChunks, hr, hl]
  · have hOne : List.Forall₂ Describes [timingRecord delta chunk.length] [chunk] :=
      .cons ⟨delta, rfl⟩ .nil
    simpa [timingRecords, relayedChunks, hr, ht] using hOne

/-- A stream channel with both files open and no filter on what is read. -/
structure Settings.Played (settings : Settings) : Prop where
  log : settings.logfd = true
  time : settings.logfdTime = true
  stream : settings.datagram = false
  unfiltered : settings.inputFilter = false

lemma readSide_recorded (hp : c.Played) (ht : recordable g.sshtype = true)
    (h : readSide compat r k c g = .ok (g', next, actions)) : Recorded actions := by
  rcases readSide_eq_ok h with ⟨-, -, -, rfl⟩ | ⟨-, -, -, rfl⟩ | ⟨chunk, -, hr⟩
  · exact recorded_of_aside (by simp)
  · exact recorded_of_aside (by simp)
  · obtain ⟨records, rfl, -, ⟨-, hRec⟩ | ⟨hOff, -, -⟩⟩ :=
      relayChunk_eq_ok hp.unfiltered hp.stream hr
    · exact recordChunk_recorded hp.time hRec
    · rw [hp.log, ht] at hOff
      cases hOff

lemma channelHandleRfd_recorded (hp : c.Played) (ht : recordable g.sshtype = true)
    (h : channelHandleRfd compat r c g = .ok (g', next, actions)) : Recorded actions := by
  obtain ⟨found, hf, hr⟩ := channelHandleRfd_eq_ok h
  cases found with
  | nothing => exact readSide_recorded hp ht hr
  | stops popped =>
    rw [hr.2.2]
    exact recorded_of_aside (by simp)
  | data bytes popped =>
    have hTouches : Touches compat c popped := (fetchOutput_touches hf).2 bytes popped rfl
    exact readSide_recorded (hTouches.settings ▸ hp) ht hr

lemma writeStream_aside {bytes : Bytes} {before : Chan}
    (h : writeStream compat r bytes before c = .ok (next, actions)) : ∀ a ∈ actions, a.aside = true := by
  rcases writeStream_eq_ok h with ⟨-, -, rfl⟩ | ⟨n, len, -, -, -, -, -, rfl⟩ <;> simp [Action.aside]

lemma channelHandleWfd_aside (h : channelHandleWfd compat r c g = .ok (g', next, actions)) :
    ∀ a ∈ actions, a.aside = true := by
  obtain ⟨-, found, -, hr⟩ := channelHandleWfd_eq_ok h
  cases found with
  | nothing => simp [hr.2]
  | stops popped => simp [hr.2]
  | data bytes popped =>
    split_ifs at hr
    · have ha : actions = [.handed bytes] := congrArg Prod.snd hr
      simp [ha, Action.aside]
    · exact writeStream_aside hr

lemma channelCheckWindow_aside : ∀ a ∈ (channelCheckWindow c).2, a.aside = true := by
  unfold channelCheckWindow
  split_ifs <;> simp [Action.aside]

lemma handle_recorded (hp : c.Played) (ht : recordable g.sshtype = true)
    (h : handle compat call c g = .ok (g', next, actions)) : Recorded actions := by
  cases call with
  | data payload =>
    obtain ⟨-, hData⟩ := handle_data h
    rcases channelInputData_eq payload.val with ⟨window, consumed, hDrop⟩ | ⟨window, hq⟩
    · cases hDrop.symm.trans hData
      exact recorded_of_aside (by simp)
    · cases hq.symm.trans hData
      exact recorded_of_aside (by simp [Action.aside])
  | request rtype a =>
    obtain ⟨-, success, -, rfl⟩ := serverInputChannelReq_eq_ok h
    exact recorded_of_aside (by simp [Action.aside])
  | rfd r => exact channelHandleRfd_recorded hp ht h
  | wfd r => exact recorded_of_aside (channelHandleWfd_aside h)
  | post r =>
    obtain ⟨g₁, c₁, first, c₂, second, hr, hw, hd⟩ := channelPostOpen_eq_ok h
    have hb : Recorded (first ++ second) :=
      (channelHandleRfd_recorded hp ht hr).append (recorded_of_aside (channelHandleWfd_aside hw))
    split_ifs at hd
    · cases hd
      exact hb.append (recorded_of_aside channelCheckWindow_aside)
    · cases hd
      exact hb

/-- A request under whose name output is recorded; other calls are free. -/
def RecordableCall (input : Nat × Call) : Prop :=
  match input.2 with
  | .request rtype _ => recordable (cstr rtype) = true
  | _ => True

/-- The channel is still the one with the two files, and the request type is right. -/
def Recording (id : Nat) (s : Server) : Prop :=
  recordable s.globals.sshtype = true ∧ ∃ c, s.chans id = some c ∧ c.Played

lemma sshtypeAfter_recordable {sshtype : Bytes} (ht : recordable sshtype = true)
    (hc : RecordableCall (id, call)) : recordable (call.sshtypeAfter sshtype) = true := by
  cases call <;> first | exact ht | exact hc

lemma step_recording {s s' : Server} {input : Nat × Call} {events : List (Nat × Action)}
    (hr : Recording id s) (hc : RecordableCall input) (hs : step s input = .ok (s', events)) :
    Recording id s' ∧ Recorded (actionsOn id events) := by
  obtain ⟨ht, c, hChan, hp⟩ := hr
  obtain ⟨other, call⟩ := input
  have hn : recordable s'.globals.sshtype = true := by
    rw [step_sshtype hs]
    exact sshtypeAfter_recordable ht hc
  rcases step_channel hChan hs with ⟨-, g, next, hh, hNext⟩ | ⟨-, hNone, hSame⟩
  · have hSet := handle_settings hh
    exact ⟨⟨hn, next, hNext, hSet ▸ hp⟩, handle_recorded hp ht hh⟩
  · rw [hNone]
    exact ⟨⟨hn, c, hSame, hp⟩, recorded_of_aside (by simp)⟩

/-- After a request for a shell, whether it was the first or a repeated one, the
recording is complete as long as later requests, on whatever channel, are of the
recordable types. -/
theorem run_recorded {s started last : Server} {id : Nat} {a : SessionAnswer} {c : Chan}
    {calls : List (Nat × Call)} {first events : List (Nat × Action)}
    (hChan : s.chans id = some c) (hPlayed : c.Played)
    (hShell : step s (id, .request (text "shell") a) = .ok (started, first))
    (hCalls : ∀ input ∈ calls, RecordableCall input)
    (hRun : run step started calls = .ok (last, events)) : Recorded (actionsOn id events) := by
  have hStart : Recording id started := by
    have hType : recordable started.globals.sshtype = true := by
      rw [step_sshtype hShell]
      change recordable (cstr (text "shell")) = true
      decide
    rcases step_channel hChan hShell with ⟨-, g, next, hHandle, hNext⟩ | ⟨hOther, -, -⟩
    · exact ⟨hType, next, hNext, handle_settings hHandle ▸ hPlayed⟩
    · exact absurd rfl hOther
  have hAlong : Along step (fun _ input => RecordableCall input) started calls :=
    along_of_forall fun input hInput _ => hCalls input hInput
  have hEnd : Recording id last ∧ Recorded (actionsOn id events) := by
    refine run_events (fun server past => Recording id server ∧ Recorded (actionsOn id past))
      ?_ ⟨hStart, recorded_of_aside (by simp [actionsOn])⟩ hAlong hRun
    intro server past input next shown hHolds hCall hStep
    obtain ⟨hNext, hShown⟩ := step_recording hHolds.1 hCall hStep
    rw [actionsOn_append]
    exact ⟨hNext, hHolds.2.append hShown⟩
  exact hEnd.2

theorem run_recorded_greeting : ∃ started first last events,
    step twoSessions (0, .request (text "shell") accepted) = .ok (started, first) ∧
      run step started [(0, .rfd (reads (text "hello")))] = .ok (last, events) ∧
      Recorded (actionsOn 0 events) := by
  have hCalls : ∀ input ∈ [(0, Call.rfd (reads (text "hello")))], RecordableCall input := by
    simp [RecordableCall]
  have hPlayed : freshSession.Played := ⟨rfl, rfl, rfl, rfl⟩
  refine ⟨_, _, _, _, rfl, rfl, ?_⟩
  exact run_recorded (s := twoSessions) (a := accepted) rfl hPlayed rfl hCalls rfl

/-- A command run on a second session of the connection ends the recording of the
shell on the first. -/
theorem exec_elsewhere_unrecorded : ∃ started first last events,
    step twoSessions (0, .request (text "shell") accepted) = .ok (started, first) ∧
      (0, .answered (text "shell") true) ∈ first ∧ run step started
        [(1, .request (text "exec") accepted), (0, .rfd (reads (text "hello")))] =
        .ok (last, events) ∧ ¬ Recorded (actionsOn 0 events) := by
  refine ⟨_, _, _, _, rfl, by decide, rfl, ?_⟩
  intro hRecorded
  exact absurd hRecorded.1 (by decide)

end Channel
