import Sshfortress.Channel.Segmentation

/-! Two sessions of one connection. The collected output, the emulator and the time of
the last record belong to the process, not to the channel. What one session leaves
there ends up in the rows of the other, unless its output is read only in rounds in
which none of its own keys are looked at. -/
namespace Channel
open Base Base.Transition
open Function (update update_of_ne update_self)

variable {compat : Compat} {r : Round} {c next : Chan} {g g' : Globals} {actions : List Action}

/-- The same round, as it would be without any traffic. -/
def Round.silent (r : Round) : Round :=
  { r with readable := false, writable := false, read := .again }

/-- The calls of a run in which one channel carries no traffic: its messages are
left out, and its rounds find nothing to read or to write. -/
def silenced (b : Nat) (input : Nat × Call) : List (Nat × Call) :=
  if input.1 = b then
    match input.2 with
    | .data _ => []
    | .post r => [(b, .post r.silent)]
    | call => [(b, call)]
  else [input]

/-- A round that brings something looks at no keys: none are pending for a target that
can be written to, and the stale pointer is null. -/
def DetachedRound (r : Round) (c : Chan) : Prop :=
  Brings r c → Fetches r c = false ∧ r.stale = none

lemma readSide_unkeyed_globals {k : Option Keys} (hf : c.inputFilter = false)
    (hStream : c.datagram = false) (hn : Brings r c → k = none)
    (h : readSide compat r k c g = .ok (g', next, actions)) :
    ∃ oldtime, g' = { g with oldtime := oldtime } := by
  rcases readSide_eq_ok h with ⟨-, hs, -, -⟩ | ⟨-, hs, -, -⟩ | ⟨chunk, hc, hr⟩
  · exact ⟨g.oldtime, hs⟩
  · exact ⟨g.oldtime, hs⟩
  · rw [hn ⟨chunk, hc⟩] at hr
    obtain ⟨records, -, -, ⟨-, hRec⟩ | ⟨-, hs, -⟩⟩ := relayChunk_eq_ok hf hStream hr
    · obtain ⟨-, -, -, -, ⟨-, -, ht⟩ | ⟨keys, -, hSome, -, -⟩⟩ := recordChunk_eq_ok hRec
      · exact ⟨r.now, ht⟩
      · cases hSome
    · exact ⟨g.oldtime, hs⟩

lemma channelPostOpen_detached (hs : c.Shell) (hr : DetachedRound r c)
    (h : channelPostOpen compat r c g = .ok (g', next, actions)) :
    g' = { g with oldtime := slowedDown r.later } := by
  obtain ⟨g₁, c₁, first, c₂, second, hRead, hw, -⟩ := channelPostOpen_eq_ok h
  have hg : ∃ oldtime, g₁ = { g with oldtime := oldtime } := by
    obtain ⟨found, hf, hSide⟩ := channelHandleRfd_eq_ok hRead
    rcases channelHandleRfd_stream hs hf with ⟨-, rfl⟩ | ⟨hSome, rfl⟩
    · exact readSide_unkeyed_globals hs.unfiltered hs.stream (fun hb => (hr hb).2) hSide
    · refine readSide_unkeyed_globals hs.unfiltered hs.stream (fun hb => ?_) hSide
      have hn := (hr hb).1
      rw [hSome] at hn
      cases hn
  obtain ⟨oldtime, rfl⟩ := hg
  exact (channelHandleWfd_eq_ok hw).1

lemma not_brings_silent : ¬ Brings r.silent c := by
  rintro ⟨chunk, hc⟩
  unfold readTarget at hc
  by_cases hr : (c.rfd && (force c || r.silent.readable)) = true
  · rw [if_pos hr] at hc
    change (if force c = true then Incoming.failed else Incoming.nothing) = _ at hc
    split_ifs at hc
  · rw [if_neg hr] at hc
    cases hc

lemma channelPostOpen_silent (r : Round) (c : Chan) (g : Globals) :
    ∃ next actions, channelPostOpen compat r.silent c g =
      .ok ({ g with oldtime := slowedDown r.later }, next, actions) := by
  have hf : ∀ c : Chan, fetchOutput r.silent.writable c = .ok .nothing := by
    intro c
    unfold fetchOutput
    rw [if_neg (by simp [Round.silent])]
  have hr : ∃ c₁, channelHandleRfd compat r.silent c g = .ok (g, c₁, []) := by
    unfold channelHandleRfd
    rw [hf c]
    unfold readSide
    cases ht : readTarget r.silent c with
    | nothing => exact ⟨c, rfl⟩
    | failed => exact ⟨readFailed compat c, rfl⟩
    | chunk chunk => exact absurd ⟨chunk, ht⟩ not_brings_silent
  obtain ⟨c₁, hr⟩ := hr
  have hw : channelHandleWfd compat r.silent c₁ g =
    .ok ({ g with oldtime := slowedDown r.later }, c₁, []) := by
    unfold channelHandleWfd
    rw [hf c₁]
    rfl
  unfold channelPostOpen
  rw [hr]
  change ∃ next actions, (channelHandleWfd compat r.silent c₁ g >>= _) = _
  rw [hw]
  by_cases hc : compat.compat20 = true
  · exact ⟨_, _, by simp only [hc]; rfl⟩
  · exact ⟨_, _, by simp only [hc]; rfl⟩

/-- The condition on one step: the other channel has messages and detached rounds. -/
def Detached (b : Nat) (s : Server) (input : Nat × Call) : Prop :=
  input.1 = b → ∀ c, s.chans b = some c →
    match input.2 with
    | .data _ => True
    | .post r => DetachedRound r c
    | _ => False

/-- The two runs agree on everything but the channel that is silent in one of them. -/
structure AgreeOff (b : Nat) (s t : Server) : Prop where
  compat : t.compat = s.compat
  globals : t.globals = s.globals
  chans : ∀ id, id ≠ b → t.chans id = s.chans id
  traffic : ∃ c, s.chans b = some c ∧ c.Shell
  silence : ∃ c, t.chans b = some c

lemma AgreeOff.update_both {b id : Nat} {s t : Server} (h : AgreeOff b s t) (hId : id ≠ b)
    (next : Chan) (g : Globals) :
    AgreeOff b { s with chans := update s.chans id (some next), globals := g }
      { t with chans := update t.chans id (some next), globals := g } where
  compat := h.compat
  globals := rfl
  chans := by
    intro other ho
    by_cases hs : other = id
    · subst hs
      simp
    · simp [update_of_ne hs, h.chans other ho]
  traffic := by
    obtain ⟨c, hc, hShell⟩ := h.traffic
    exact ⟨c, by simp [update_of_ne (Ne.symm hId), hc], hShell⟩
  silence := by
    obtain ⟨c, hc⟩ := h.silence
    exact ⟨c, by simp [update_of_ne (Ne.symm hId), hc]⟩

/-- Each step is matched by the silenced one, with the same to see on the first
channel. -/
lemma step_isolated {a b : Nat} {s t s' : Server} {input : Nat × Call}
    {events : List (Nat × Action)} (hNe : a ≠ b) (ha : AgreeOff b s t)
    (hCall : Detached b s input) (hStep : step s input = .ok (s', events)) :
    ∃ t' shown, run step t (silenced b input) = .ok (t', shown) ∧
      actionsOn a shown = actionsOn a events ∧ AgreeOff b s' t' := by
  obtain ⟨id, call⟩ := input
  obtain ⟨c, g, next, actions, hc, hh, rfl, rfl⟩ := step_eq_ok.1 hStep
  by_cases hId : id = b
  · subst hId
    obtain ⟨d, hOwn, hs⟩ := ha.traffic
    obtain rfl : c = d := Option.some.inj (hc.symm.trans hOwn)
    have hTraffic : ∃ e, update s.chans id (some next) id = some e ∧ e.Shell :=
      ⟨next, update_self .., handle_settings hh ▸ hs⟩
    have hm := hCall rfl c hc
    rw [actionsOn_of_ne (Ne.symm hNe)]
    unfold silenced
    rw [if_pos rfl]
    cases call with
    | data payload =>
      refine ⟨t, [], rfl, rfl, ha.compat, ?_, ?_, hTraffic, ha.silence⟩
      · rw [ha.globals, (handle_data hh).1]
      · intro other ho
        rw [ha.chans other ho]
        exact (update_of_ne ho ..).symm
    | post r =>
      have hg := channelPostOpen_detached hs hm hh
      obtain ⟨e, hSilent⟩ := ha.silence
      obtain ⟨quiet, shown, hq⟩ := @channelPostOpen_silent t.compat r e t.globals
      have ht : step t (id, .post r.silent) = .ok ({ t with
          chans := update t.chans id (some quiet)
          globals := { t.globals with oldtime := slowedDown r.later } }, shown.map (id, ·)) :=
        step_eq_ok.2 ⟨e, _, quiet, shown, hSilent, hq, rfl, rfl⟩
      refine ⟨_, shown.map (id, ·), run_cons_eq_ok.2 ⟨_, _, [], ht, rfl, by simp⟩, ?_, ?_⟩
      · exact actionsOn_of_ne (Ne.symm hNe) shown
      · refine ⟨ha.compat, ?_, ?_, hTraffic, quiet, update_self ..⟩
        · rw [hg, ha.globals]
        · intro other ho
          dsimp only
          rw [update_of_ne ho, update_of_ne ho, ha.chans other ho]
    | request rtype answer => exact hm.elim
    | rfd r => exact hm.elim
    | wfd r => exact hm.elim
  · have ht : step t (id, call) = .ok ({ t with chans := update t.chans id (some next), globals := g },
        actions.map (id, ·)) := by
      refine step_eq_ok.2 ⟨c, g, next, actions, ?_, ?_, rfl, rfl⟩
      · rw [ha.chans id hId, hc]
      · rw [ha.compat, ha.globals, hh]
    unfold silenced
    rw [if_neg hId]
    exact ⟨_, _, run_cons_eq_ok.2 ⟨_, _, [], ht, rfl, by simp⟩, rfl, ha.update_both hId next g⟩

/-- As long as the rounds of one recorded shell are detached, everything that
happens on another channel, its rows and records included, is what happens when the
shell carries no traffic. -/
theorem run_isolated {a b : Nat} {s last : Server} {c : Chan} {calls : List (Nat × Call)}
    {events : List (Nat × Action)} (hNe : a ≠ b) (hChan : s.chans b = some c) (hShell : c.Shell)
    (hAlong : Along step (Detached b) s calls) (hRun : run step s calls = .ok (last, events)) :
    ∃ last' events', run step s (calls.flatMap (silenced b)) = .ok (last', events') ∧
      actionsOn a events' = actionsOn a events := by
  have hStart : AgreeOff b s s := ⟨rfl, rfl, fun _ _ => rfl, ⟨c, hChan, hShell⟩, c, hChan⟩
  have hStep := fun s t input s' shown (hAgree : AgreeOff b s t) hCall hTaken =>
    @step_isolated a b s t s' input shown hNe hAgree hCall hTaken
  obtain ⟨last', events', hSilenced, hSame, -⟩ :=
    run_simulates (AgreeOff b) (silenced b) (seenOn a) (seenOn a) hStep hStart hAlong hRun
  exact ⟨last', events', hSilenced, hSame⟩

def twoShells : Server :=
  { shellServer with chans := fun id => if id < 2 then some openSession else none }

lemma return_fits : (text "\r").length ≤ 256 * 1024 := by decide

/-- The key of the second shell is written before its echo is read; then the first
shell enters a line. -/
def takingTurns : List (Nat × Call) :=
  [(1, .data ⟨text "r", by decide⟩), (1, .post (writes 1)), (1, .post (reads (text "r"))),
    (0, .data ⟨text "\r", return_fits⟩), (0, .post (answers (text "\r\n")))]

theorem run_isolated_takingTurns : ∃ last events last' events',
    run step twoShells takingTurns = .ok (last, events) ∧
    run step twoShells (takingTurns.flatMap (silenced 1)) = .ok (last', events') ∧
    actionsOn 0 events' = actionsOn 0 events := by
  have hShell : openSession.Shell := ⟨⟨rfl, rfl, rfl, rfl⟩, rfl⟩
  have hOther : ∀ (s : Server) (call : Call), Detached 1 s (0, call) :=
    fun s call hId => absurd hId (by simp)
  have hAlong : Along step (Detached 1) twoShells takingTurns := by
    refine ⟨fun _ _ _ => trivial, fun next events hData => ?_⟩
    refine ⟨fun _ c _ hBrings => ?_, fun next events hWrite => ?_⟩
    · obtain ⟨chunk, hChunk⟩ := hBrings
      unfold readTarget at hChunk
      rw [show (writes 1).read = .again from rfl, show (writes 1).readable = false from rfl] at hChunk
      split_ifs at hChunk
    · refine ⟨fun _ c _ _ => ⟨?_, rfl⟩, fun _ _ _ => ⟨hOther _ _, fun _ _ _ => ⟨hOther _ _, ?_⟩⟩⟩
      · unfold Fetches
        rw [show (reads (text "r")).writable = false from rfl, Bool.and_false, Bool.false_and]
      · exact fun _ _ _ => trivial
  obtain ⟨last', events', hSilenced, hSame⟩ :=
    run_isolated (a := 0) (b := 1) (by decide) rfl hShell hAlong rfl
  exact ⟨_, _, last', events', rfl, hSilenced, hSame⟩

/-- The key of the second shell is written in the round in which its echo is read. -/
def echoed : List (Nat × Call) :=
  [(1, .data ⟨text "r", by decide⟩), (1, .post (answers (text "r"))),
    (0, .data ⟨text "\r", return_fits⟩), (0, .post (answers (text "\r\n")))]

/-- What was typed in the second shell becomes a row of the first, which has typed
nothing but a carriage return. -/
theorem echo_crosses_over : ∃ last events last' events', run step twoShells echoed = .ok (last, events) ∧
    run step twoShells (echoed.flatMap (silenced 1)) = .ok (last', events') ∧
    .queried (insertCommand (text "alice") (text "r")) ∈ actionsOn 0 events ∧
    actionsOn 0 events' ≠ actionsOn 0 events := by
  exact ⟨_, _, _, _, rfl, rfl, by decide, by decide⟩

end Channel
