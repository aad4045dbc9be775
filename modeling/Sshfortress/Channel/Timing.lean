import Sshfortress.Base.Decimal
import Sshfortress.Channel.Recording

/-! The timing file. Each record gives the time since the last reading of the clock, which
the write handler dates back by 90 milliseconds without borrowing from the seconds. -/
namespace Channel
open Base Base.Transition Base.Decimal List

namespace Timeval

def micros (t : Timeval) : Int := t.sec * 1000000 + t.usec

/-- A value the clock can show. -/
def IsReading (t : Timeval) : Prop := 0 ≤ t.usec ∧ t.usec < 1000000
  deriving Decidable

def IsOld (t : Timeval) : Prop := -90000 ≤ t.usec ∧ t.usec < 1000000
  deriving Decidable

variable {t : Timeval}

lemma IsReading.isOld (h : t.IsReading) : t.IsOld := by
  unfold IsReading IsOld at *
  omega

lemma isOld_slowedDown (h : t.IsReading) : (slowedDown t).IsOld := by
  unfold IsReading IsOld slowedDown at *
  dsimp only
  omega

end Timeval

/-- The record, read as a decimal number of seconds, is that many microseconds, and its
fraction is one of microseconds. -/
def Denotes (record : Bytes) (micros : Int) : Prop :=
  (readNumeral record).value * 1000000 = micros ∧ Decimal.value (readNumeral record).fraction ≤ 999999

variable {delta now old : Timeval} {s : Server}

lemma readNumeral_timingRecord (h : 0 ≤ delta.usec) (len : Nat) : readNumeral (timingRecord delta len) =
    ⟨delta.sec < 0, decimal delta.sec.natAbs, zeroPadded 10 6 delta.usec.natAbs⟩ := by
  have hr : ∀ c ∈ (text " " ++ decimal len ++ text "\n").head?, isDigit c = false := by
    intro c hc
    obtain rfl : 32 = c := Option.some.inj hc
    decide
  have hf : ∀ c ∈ zeroPadded 10 6 delta.usec.natAbs, isDigit c = true := fun c hc =>
    isDigit_of_mem_zeroPadded hc
  rw [← readNumeral_eq delta.sec hf hr, timingRecord, if_neg (by omega)]
  simp [show text "." = [46] from rfl]

lemma denotes_timingRecord (h : 0 ≤ delta.usec) (len : Nat) :
    Denotes (timingRecord delta len) delta.micros ↔ delta.usec < 1000000 ∧ (0 ≤ delta.sec ∨ delta.usec = 0) := by
  obtain ⟨usec, hu⟩ := Int.eq_ofNat_of_zero_le h
  unfold Denotes
  rw [readNumeral_timingRecord h, Numeral.value, value_zeroPadded, value_decimal, hu]
  simp only [Int.natAbs_natCast, Timeval.micros, hu]
  by_cases hSmall : usec < 1000000
  · have hf : (usec : Int) < 1000000 ∧ usec ≤ 999999 := by omega
    rw [length_zeroPadded (by decide) hSmall]
    rcases lt_or_ge delta.sec 0 with hNeg | hPos
    · obtain ⟨sec, hSec⟩ : ∃ sec : Nat, delta.sec = -(sec : Int) := ⟨delta.sec.natAbs, by omega⟩
      have hv : (-1 * ((sec : ℚ) + usec / 10 ^ 6) * 1000000 = ((-(sec : Int) * 1000000 + usec : Int) : ℚ)) ↔
        usec = 0 := by
        push_cast
        constructor
        · intro hEq
          have hz : (usec : ℚ) = 0 := by linarith
          exact_mod_cast hz
        · rintro rfl
          norm_num
      have hs : -(sec : Int) < 0 := hSec ▸ hNeg
      rw [hSec]
      simp only [hs, decide_true, if_true, Int.natAbs_neg, Int.natAbs_natCast, hv]
      omega
    · obtain ⟨sec, hSec⟩ := Int.eq_ofNat_of_zero_le hPos
      have hv : 1 * ((sec : ℚ) + usec / 10 ^ 6) * 1000000 = ((sec * 1000000 + usec : Int) : ℚ) := by
        push_cast
        ring
      have hs : ¬ (sec : Int) < 0 := by omega
      rw [hSec]
      simp only [hs, decide_false, Bool.false_eq_true, if_false, Int.natAbs_natCast, hv]
      exact ⟨fun _ => ⟨hf.1, .inl (by omega)⟩, fun _ => ⟨trivial, hf.2⟩⟩
  · constructor
    · rintro ⟨-, hFraction⟩
      omega
    · rintro ⟨hf, -⟩
      omega

lemma elapsed_usec (hNow : now.IsReading) (hOld : old.IsOld) : 0 ≤ (elapsed now old).usec := by
  unfold elapsed Timeval.IsReading Timeval.IsOld at *
  dsimp only
  split_ifs <;> dsimp only <;> omega

lemma micros_elapsed (now old : Timeval) : (elapsed now old).micros = now.micros - old.micros := by
  unfold elapsed Timeval.micros
  dsimp only
  split_ifs <;> dsimp only <;> omega

/-- What decides it, in terms of the two times. -/
def Exact (now old : Timeval) : Prop :=
  now.usec - old.usec < 1000000 ∧ (old.micros ≤ now.micros ∨ now.usec = old.usec)
  deriving Decidable

lemma exact_iff (hNow : now.IsReading) (hOld : old.IsOld) :
    (elapsed now old).usec < 1000000 ∧ (0 ≤ (elapsed now old).sec ∨ (elapsed now old).usec = 0) ↔ Exact now old := by
  unfold elapsed Exact Timeval.micros Timeval.IsReading Timeval.IsOld at *
  dsimp only
  split_ifs <;> dsimp only <;> omega

/-! Where the records come from. -/

def Call.round : Call → Option Round
  | .rfd r | .wfd r | .post r => some r
  | _ => none

def Call.readings : Call → List Timeval
  | .rfd r => [r.now]
  | .wfd r => [r.later]
  | .post r => [r.now, r.later]
  | _ => []

section Handlers
variable {compat : Compat} {r : Round} {c next : Chan} {g g' : Globals} {actions : List Action} (record : Bytes)

lemma not_timed_of_aside (h : ∀ a ∈ actions, a.aside = true) : Action.timed record ∉ actions := by
  intro hRec
  cases h _ hRec

variable {k : Option Keys} {chunk : Bytes} {call : Call}

lemma recordChunk_timed (h : recordChunk r k chunk c g = .ok (g', actions)) : g'.oldtime = r.now ∧
    (Action.timed record ∈ actions → record = timingRecord (elapsed r.now g.oldtime) chunk.length) := by
  have hf : Action.timed record ∈
    (if c.logfdTime then [Action.timed (timingRecord (elapsed r.now g.oldtime) chunk.length)] else []) →
    record = timingRecord (elapsed r.now g.oldtime) chunk.length := by
    intro hRec
    split_ifs at hRec
    · exact Action.timed.inj (mem_singleton.1 hRec)
    · cases hRec
  cases k with
  | none =>
    cases h
    refine ⟨rfl, fun hRec => ?_⟩
    rcases mem_cons.1 hRec with hl | hRec
    · cases hl
    · exact hf hRec
  | some keys =>
    obtain ⟨⟨later, sent⟩, hk, hd⟩ := bind_eq_ok.1 h
    cases hd
    obtain ⟨⟨emulator, rfdLog, rfl⟩, -⟩ := considerKeys_eq_ok hk
    refine ⟨rfl, fun hRec => ?_⟩
    rcases mem_append.1 hRec with hRec | hRow
    · rcases mem_cons.1 hRec with hl | hRec
      · cases hl
      · exact hf hRec
    · have hr : ∀ a ∈ Action.considered keys :: sent, a.aside = true :=
        forall_mem_cons.2 ⟨rfl, fun a ha => Action.aside_of_ofRow (considerKeys_ofRow hk a ha)⟩
      exact absurd hRow (not_timed_of_aside record hr)

lemma relayChunk_timed (h : relayChunk compat r k chunk c g = .ok (g', next, actions)) :
    (g'.oldtime = g.oldtime ∨ g'.oldtime = r.now) ∧
      (Action.timed record ∈ actions → record = timingRecord (elapsed r.now g.oldtime) chunk.length) := by
  unfold relayChunk at h
  split_ifs at h
  · split at h <;> cases h <;> simp
  · cases h
    simp
  · obtain ⟨⟨later, records⟩, hRec, hd⟩ := bind_eq_ok.1 h
    cases hd
    unfold recordIfShell at hRec
    split_ifs at hRec
    · obtain ⟨hTime, ht⟩ := recordChunk_timed record hRec
      refine ⟨.inr hTime, fun hMem => ?_⟩
      rcases mem_append.1 hMem with hMem | hMem
      · exact ht hMem
      · cases mem_singleton.1 hMem
    · cases hRec
      simp

lemma readSide_timed (h : readSide compat r k c g = .ok (g', next, actions)) :
    (g'.oldtime = g.oldtime ∨ g'.oldtime = r.now) ∧
      (Action.timed record ∈ actions → ∃ len, record = timingRecord (elapsed r.now g.oldtime) len) := by
  rcases readSide_eq_ok h with ⟨-, rfl, -, rfl⟩ | ⟨-, rfl, -, rfl⟩ | ⟨chunk, -, hr⟩
  · simp
  · simp
  · obtain ⟨hTime, ht⟩ := relayChunk_timed record hr
    exact ⟨hTime, fun hMem => ⟨chunk.length, ht hMem⟩⟩

lemma channelHandleRfd_timed (h : channelHandleRfd compat r c g = .ok (g', next, actions)) :
    (g'.oldtime = g.oldtime ∨ g'.oldtime = r.now) ∧
      (Action.timed record ∈ actions → ∃ len, record = timingRecord (elapsed r.now g.oldtime) len) := by
  obtain ⟨found, -, hr⟩ := channelHandleRfd_eq_ok h
  cases found with
  | nothing => exact readSide_timed record hr
  | stops popped =>
    obtain ⟨rfl, -, rfl⟩ := hr
    simp
  | data bytes popped => exact readSide_timed record hr

lemma handle_oldtime (h : handle compat call c g = .ok (g', next, actions))
    (hOld : g.oldtime.IsOld) (hc : ∀ t ∈ call.readings, t.IsReading) : g'.oldtime.IsOld := by
  cases call with
  | data payload =>
    rw [(handle_data h).1]
    exact hOld
  | request rtype a =>
    rw [(serverInputChannelReq_eq_ok h).1]
    exact hOld
  | rfd r =>
    rcases (channelHandleRfd_timed [] h).1 with hs | hNow
    · rw [hs]
      exact hOld
    · rw [hNow]
      exact (hc r.now (by simp [Call.readings])).isOld
  | wfd r =>
    rw [(channelHandleWfd_eq_ok h).1]
    exact Timeval.isOld_slowedDown (hc r.later (by simp [Call.readings]))
  | post r =>
    obtain ⟨g₁, c₁, first, c₂, second, -, hw, -⟩ := channelPostOpen_eq_ok h
    rw [(channelHandleWfd_eq_ok hw).1]
    exact Timeval.isOld_slowedDown (hc r.later (by simp [Call.readings]))

lemma handle_timed (h : handle compat call c g = .ok (g', next, actions))
    (hRec : Action.timed record ∈ actions) {r : Round} (hr : call.round = some r) :
    r.now ∈ call.readings ∧ ∃ len, record = timingRecord (elapsed r.now g.oldtime) len := by
  cases call with
  | data payload => cases hr
  | request rtype a => cases hr
  | rfd r' =>
    obtain rfl : r' = r := Option.some.inj hr
    exact ⟨by simp [Call.readings], (channelHandleRfd_timed record h).2 hRec⟩
  | wfd r' => exact absurd hRec (not_timed_of_aside record (channelHandleWfd_aside h))
  | post r' =>
    obtain rfl : r' = r := Option.some.inj hr
    refine ⟨by simp [Call.readings], ?_⟩
    obtain ⟨g₁, c₁, first, c₂, second, hRead, hw, hd⟩ := channelPostOpen_eq_ok h
    have hf : Action.timed record ∈ first := by
      have hSnd := not_timed_of_aside record (channelHandleWfd_aside hw)
      have hThird := not_timed_of_aside record (channelCheckWindow_aside (c := c₂))
      split_ifs at hd <;> cases hd <;> simp_all
    exact (channelHandleRfd_timed record hRead).2 hf

end Handlers

lemma step_oldtime {next : Server} {input : Nat × Call} {events : List (Nat × Action)}
    (hOld : s.globals.oldtime.IsOld) (hc : ∀ t ∈ input.2.readings, t.IsReading)
    (h : step s input = .ok (next, events)) : next.globals.oldtime.IsOld := by
  obtain ⟨c, g, after, actions, -, hh, rfl, -⟩ := step_eq_ok.1 h
  exact handle_oldtime hh hOld hc

lemma run_oldtime {start : Server} {calls : List (Nat × Call)} {past : List (Nat × Action)}
    (hs : start.globals.oldtime.IsOld) (hc : ∀ input ∈ calls, ∀ t ∈ input.2.readings, t.IsReading)
    (hRun : run step start calls = .ok (s, past)) : s.globals.oldtime.IsOld := by
  have ha : Along step (fun _ input => ∀ t ∈ input.2.readings, t.IsReading) start calls :=
    along_of_forall fun input hi _ => hc input hi
  refine run_events (fun server _ => server.globals.oldtime.IsOld) ?_ hs ha hRun
  intro server past input next events hOld hr hStep
  exact step_oldtime hOld hr hStep

theorem timing_record_exact_iff {start s next : Server} {calls : List (Nat × Call)} {past events : List (Nat × Action)}
    {id : Nat} {call : Call} {r : Round} {record : Bytes} (hStart : start.globals.oldtime.IsOld)
    (hClock : ∀ input ∈ calls ++ [(id, call)], ∀ t ∈ input.2.readings, t.IsReading)
    (hRun : run step start calls = .ok (s, past)) (hStep : step s (id, call) = .ok (next, events))
    (hRound : call.round = some r) (hRecord : (id, Action.timed record) ∈ events) :
    Denotes record (r.now.micros - s.globals.oldtime.micros) ↔ Exact r.now s.globals.oldtime := by
  have hOld := run_oldtime hStart (fun input hInput => hClock input (mem_append_left _ hInput)) hRun
  obtain ⟨c, g, after, actions, -, hHandle, -, rfl⟩ := step_eq_ok.1 hStep
  obtain ⟨a, hMem, hPair⟩ := mem_map.1 hRecord
  obtain ⟨-, rfl⟩ := Prod.mk.inj hPair
  obtain ⟨hReading, len, rfl⟩ := handle_timed record hHandle hMem hRound
  have hNow : r.now.IsReading := hClock (id, call) (by simp) r.now hReading
  rw [← micros_elapsed, denotes_timingRecord (elapsed_usec hNow hOld), exact_iff hNow hOld]

def oneShell : Server :=
  { twoSessions with
    chans := fun id => if id < 2 then some (channelSetFds accepted freshSession) else none
    globals := { twoSessions.globals with sshtype := text "shell" } }

def readsAt (now : Timeval) : Round := { reads (text "x") with now := now }

theorem timing_record_exact_later : ∃ next events,
    step oneShell (0, .rfd (readsAt ⟨3, 250000⟩)) = .ok (next, events) ∧
      (0, .timed (text "3.250000 1\n")) ∈ events ∧ Denotes (text "3.250000 1\n") 3250000 := by
  have hClock : ∀ input ∈ [] ++ [(0, Call.rfd (readsAt ⟨3, 250000⟩))], ∀ t ∈ input.2.readings, t.IsReading := by
    decide
  refine ⟨_, _, rfl, by decide +kernel, ?_⟩
  exact (timing_record_exact_iff (by decide) hClock (rfl : run step oneShell [] = .ok (oneShell, [])) rfl rfl
    (by decide +kernel)).2 (by decide)

/-- A write at 5.01 s dates the clock back to 4.92 s, kept as 5 s and -80000 µs. Output at
5.95 s is then 1.03 s and not 0.103 s later. -/
theorem timing_record_wrong : ∃ s past next events,
    run step oneShell [(0, .wfd { quietRound with later := ⟨5, 10000⟩ })] = .ok (s, past) ∧
      step s (0, .rfd (readsAt ⟨5, 950000⟩)) = .ok (next, events) ∧
      (0, .timed (text "0.1030000 1\n")) ∈ events ∧
      ¬ Denotes (text "0.1030000 1\n") (Timeval.micros ⟨5, 950000⟩ - s.globals.oldtime.micros) := by
  refine ⟨_, _, _, _, rfl, rfl, by decide +kernel, ?_⟩
  rintro ⟨-, hFraction⟩
  revert hFraction
  decide +kernel

end Channel
