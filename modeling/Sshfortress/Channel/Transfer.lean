import Sshfortress.Channel.Relay

/-! The block of file transfers. Before the write handler writes, it looks for the signature
that starts a transfer, in the C string at the start of the queue. What has been written is
no longer in the queue, what follows a NUL is not in the string, and a queue without a NUL
runs on into the memory behind it. -/
namespace Channel
open Base Base.Transition

/-- What `lrzsz` starts a transfer with. -/
def signature : Bytes := text "*\x18A\x04"

/-- The bytes that were put into the queue of a channel, and those written to its target. -/
def queuedOn (id : Nat) (events : List (Nat × Action)) : Bytes := (queuedChunks (actionsOn id events)).flatten

def handedOn (id : Nat) (events : List (Nat × Action)) : Bytes := (handedChunks (actionsOn id events)).flatten

/-- The write handler ends the process only for the signature, and does so before the last
byte of it is written. -/
structure BlocksRight (id : Nat) (s : Server) (past : List (Nat × Action)) (r : Round) : Prop where
  justified : step s (id, .wfd r) = .error (.exit (-1)) → signature <:+: queuedOn id past
  inTime : ∀ next events, step s (id, .wfd r) = .ok (next, events) → ¬ signature <:+: handedOn id (past ++ events)

def Ready (c : Chan) (r : Round) (pending : Bytes) : Prop := c.wfd = true ∧ r.writable = true ∧ pending ≠ []
  deriving Decidable

/-- How many of the pending bytes the target takes. -/
def Round.accepts (r : Round) (pending : Bytes) : Nat :=
  match r.write with
  | .wrote n => min n pending.length
  | _ => 0

variable {c : Chan} {id : Nat} {past : List (Nat × Action)}

lemma harmlessCall_stream (hs : c.datagram = false) (hf : c.outputFilter = false)
    (call : Call) : HarmlessCall c call := by
  cases call with
  | rfd r => exact .inr ⟨hf, hs⟩
  | post r => exact .inr ⟨hf, hs⟩
  | _ => trivial

lemma run_stream {start s : Server} {d : Chan} {calls : List (Nat × Call)}
    (hc : start.chans id = some c) (he : c.output = []) (hs : c.datagram = false)
    (hf : c.outputFilter = false) (hRun : run step start calls = .ok (s, past))
    (hl : s.chans id = some d) :
    d.toSettings = c.toSettings ∧ (Live d → handedOn id past ++ d.output = queuedOn id past) := by
  have ha : Along step (HarmlessOn id) start calls := by
    have hAll : Along step (fun _ _ => True) start calls := along_of_forall fun _ _ _ => trivial
    refine along_of_invariant (fun server => ∃ next, server.chans id = some next ∧ next.toSettings = c.toSettings)
      ?_ ⟨c, hc, rfl⟩ hAll
    rintro server ⟨other, call⟩ ⟨next, hn, hSet⟩ -
    constructor
    · rintro - e hOther
      obtain rfl : next = e := Option.some.inj (hn.symm.trans hOther)
      exact harmlessCall_stream (hSet ▸ hs) (hSet ▸ hf) call
    · intro later events hStep
      rcases step_channel hn hStep with ⟨-, g, after, hh, hAfter⟩ | ⟨-, -, hSame⟩
      · exact ⟨after, hAfter, (handle_settings hh).trans hSet⟩
      · exact ⟨next, hSame, hSet⟩
  obtain ⟨hSet, hGot⟩ :=
    run_delivers hc (fun h => absurd (hf.symm.trans h) (by decide)) ha hRun hl
  refine ⟨hSet, fun hLive => ?_⟩
  have ho := hGot hLive
  unfold Delivered at ho
  rw [hs, he] at ho
  exact ho

lemma writeStream_handed (compat : Compat) {r : Round} :
    ∃ next actions, writeStream compat r c.output c c = .ok (next, actions) ∧
      (handedChunks actions).flatten = c.output.take (r.accepts c.output) := by
  unfold writeStream Round.accepts
  cases r.write with
  | retry => exact ⟨_, _, rfl, rfl⟩
  | failed => exact ⟨_, _, rfl, rfl⟩
  | wrote n =>
    dsimp only
    by_cases hn : min n c.output.length = 0
    · rw [if_pos hn, hn]
      exact ⟨_, _, rfl, rfl⟩
    · rw [if_neg hn, if_neg (by omega)]
      exact ⟨_, _, rfl, by simp [handedChunks]⟩

lemma channelHandleWfd_block (compat : Compat) (r : Round) (g : Globals)
    (hs : c.datagram = false) (hFilt : c.outputFilter = false) :
    (Ready c r c.output ∧ signature <:+: cstr (c.output ++ r.after) ∧
      channelHandleWfd compat r c g = .error (.exit (-1))) ∨
    (¬ (Ready c r c.output ∧ signature <:+: cstr (c.output ++ r.after)) ∧ ∃ g' next actions,
      channelHandleWfd compat r c g = .ok (g', next, actions) ∧
      (handedChunks actions).flatten = if Ready c r c.output then c.output.take (r.accepts c.output) else []) := by
  by_cases hr : Ready c r c.output
  · have hf : fetchOutput r.writable c = .ok (.data c.output c) := by
      obtain ⟨hWfd, hw, hp⟩ := hr
      rw [fetchOutput, if_pos (by simp [hWfd, hw, hp]), if_neg (by simp [hFilt]), if_neg (by simp [hs])]
    by_cases hSeen : signature <:+: cstr (c.output ++ r.after)
    · have hc : contains (c.output ++ r.after) (text "*\x18A\x04") = true := contains_iff.2 hSeen
      refine .inl ⟨hr, hSeen, ?_⟩
      rw [channelHandleWfd, hf]
      simp only [hs, hFilt, hc, bind, Except.bind]
      rfl
    · have hc : contains (c.output ++ r.after) (text "*\x18A\x04") = false :=
        Bool.eq_false_iff.2 (mt contains_iff.1 hSeen)
      obtain ⟨next, actions, hWrite, hh⟩ := writeStream_handed compat (r := r) (c := c)
      refine .inr ⟨fun hb => hSeen hb.2, { g with oldtime := slowedDown r.later }, next, actions, ?_, ?_⟩
      · rw [channelHandleWfd, hf]
        simp only [hs, hFilt, hc, hWrite, bind, Except.bind]
        rfl
      · rw [if_pos hr]
        exact hh
  · have hf : fetchOutput r.writable c = .ok .nothing := by
      rw [fetchOutput, if_neg]
      intro hp
      simp only [Bool.and_eq_true, decide_eq_true_eq] at hp
      exact hr ⟨hp.1.1, hp.1.2, hp.2⟩
    refine .inr ⟨fun hb => hr hb.1, { g with oldtime := slowedDown r.later }, c, [], ?_, ?_⟩
    · rw [channelHandleWfd, hf]
      rfl
    · rw [if_neg hr]
      rfl

/-- The signature can be seen at the call: it stands in the queue before its first NUL, or a
queue without a NUL is continued to it by the memory behind. -/
def Visible (c : Chan) (r : Round) (pending : Bytes) : Prop :=
  Ready c r pending ∧ signature <:+: cstr (pending ++ r.after)

/-- How many bytes of the stream have been written when the call is over. -/
def writtenAfter (c : Chan) (r : Round) (written : Nat) (pending : Bytes) : Nat :=
  written + if Ready c r pending then r.accepts pending else 0

lemma handedOn_step {actions : List Action} :
    handedOn id (past ++ actions.map (id, ·)) = handedOn id past ++ (handedChunks actions).flatten := by
  simp [handedOn]

/-- The block works for a call exactly if a signature that the call would complete can be
seen then, and what is seen is in the stream. -/
theorem transfer_block_iff {id : Nat} {start s : Server} {c d : Chan} {calls : List (Nat × Call)}
    {past : List (Nat × Action)} (r : Round) (hChan : start.chans id = some c) (hEmpty : c.output = [])
    (hStream : c.datagram = false) (hFilter : c.outputFilter = false)
    (hRun : run step start calls = .ok (s, past)) (hLast : s.chans id = some d) (hLive : Live d) :
    let stream := queuedOn id past
    let written := (handedOn id past).length
    BlocksRight id s past r ↔
      (signature <:+: stream.take (writtenAfter d r written (stream.drop written)) →
        Visible d r (stream.drop written)) ∧
      (Visible d r (stream.drop written) → signature <:+: stream) := by
  dsimp only
  obtain ⟨hSettings, hOrder⟩ := run_stream hChan hEmpty hStream hFilter hRun hLast
  have hDatagram : d.datagram = false := hSettings ▸ hStream
  have hOutput : d.outputFilter = false := hSettings ▸ hFilter
  rw [← hOrder hLive, List.drop_left]
  have hTake : ∀ n, (handedOn id past ++ d.output).take ((handedOn id past).length + n) =
    handedOn id past ++ d.output.take n := fun n => List.take_length_add_append n
  have hHanded : (handedOn id past ++ d.output).take (writtenAfter d r (handedOn id past).length d.output) =
    handedOn id past ++ if Ready d r d.output then d.output.take (r.accepts d.output) else [] := by
    rw [writtenAfter, hTake]
    split_ifs <;> simp
  rw [hHanded]
  rcases channelHandleWfd_block s.compat r s.globals hDatagram hOutput with
    ⟨hReady, hSeen, hExit⟩ | ⟨hUnseen, g', next, actions, hOk, hWritten⟩
  · have hStep : step s (id, .wfd r) = .error (.exit (-1)) := by
      simp only [step, hLast, handle, hExit]
      rfl
    have hVisible : Visible d r d.output := ⟨hReady, hSeen⟩
    constructor
    · rintro ⟨hJustified, -⟩
      have hThere := hJustified hStep
      rw [← hOrder hLive] at hThere
      exact ⟨fun _ => hVisible, fun _ => hThere⟩
    · rintro ⟨-, hThere⟩
      refine ⟨fun _ => ?_, fun later events hOk => ?_⟩
      · rw [← hOrder hLive]
        exact hThere hVisible
      · rw [hStep] at hOk
        cases hOk
  · have hStep : step s (id, .wfd r) =
      .ok ({ s with chans := Function.update s.chans id (some next), globals := g' }, actions.map (id, ·)) :=
      step_eq_ok.2 ⟨d, g', next, actions, hLast, hOk, rfl, rfl⟩
    constructor
    · rintro ⟨-, hInTime⟩
      have hAbsent := hInTime _ _ hStep
      rw [handedOn_step, hWritten] at hAbsent
      exact ⟨fun hThere => absurd hThere hAbsent, fun hVisible => absurd hVisible hUnseen⟩
    · rintro ⟨hSeen, -⟩
      refine ⟨fun hExit => ?_, fun later events hTaken => ?_⟩
      · rw [hStep] at hExit
        cases hExit
      · rw [hStep] at hTaken
        cases hTaken
        rw [handedOn_step, hWritten]
        exact fun hThere => hUnseen (hSeen hThere)

/-- The signature in one message: it is seen before any byte of it is written. -/
theorem transfer_block_whole : ∃ s past,
    run step (oneSession openSession) [(0, .data ⟨signature, by decide +kernel⟩)] = .ok (s, past) ∧
      BlocksRight 0 s past (writes 4) := by
  obtain ⟨s, past, d, hRun, hLast, hLive, hPast⟩ : ∃ s past d,
    run step (oneSession openSession) [(0, .data ⟨signature, by decide +kernel⟩)] = .ok (s, past) ∧
      s.chans 0 = some d ∧ Live d ∧ d.wfd = true ∧ queuedOn 0 past = signature ∧ handedOn 0 past = [] :=
    ⟨_, _, _, rfl, rfl, ⟨rfl, by decide, by decide⟩, rfl, rfl, rfl⟩
  obtain ⟨hWfd, hQueued, hHanded⟩ := hPast
  refine ⟨s, past, hRun, (transfer_block_iff (writes 4) rfl rfl rfl rfl hRun hLast hLive).2 ?_⟩
  rw [hQueued, hHanded]
  have hVisible : Visible d (writes 4) signature := ⟨⟨hWfd, rfl, by decide +kernel⟩, by decide +kernel⟩
  exact ⟨fun _ => hVisible, fun _ => List.infix_rfl⟩

/-- The signature in two messages, the first of which is written before the second comes. -/
theorem transfer_block_evaded : ∃ s past, run step (oneSession openSession)
    [(0, .data ⟨text "*\x18", by decide +kernel⟩), (0, .wfd (writes 2)),
      (0, .data ⟨text "A\x04", by decide +kernel⟩)] = .ok (s, past) ∧
      ¬ BlocksRight 0 s past (writes 2) := by
  refine ⟨_, _, rfl, ?_⟩
  intro hRight
  exact hRight.inTime _ _ rfl (by decide +kernel)

end Channel
