import Sshfortress.Sftp.Replies

/-! The main loop of the SFTP server: what is read and written between two calls of `select`. -/
namespace Sftp
open Base Base.Wire Base.Transition Handler List

/-- What is read, how much of the output is taken, and the answers to system calls. -/
structure Wakeup where
  input : { bytes : Bytes // bytes.length ≤ 4 * 4096 }
  written : Nat
  env : Env Sys Resp

def Server.hasRoom (s : Server) : Bool := s.oqueue.length + sftpMaxMsgLength ≤ sizeMax

/-- Nothing is read while the input or the replies to it might not fit. -/
def Server.exchange (s : Server) (w : Wakeup) : Server where
  __ := if s.iqueue.length + 4 * 4096 ≤ sizeMax && s.hasRoom then s.receive w.input.val else s
  oqueue := s.oqueue.drop w.written

variable (cfg : Config) {s : Server} {w : Wakeup}

def mainStep (s : Server) (w : Wakeup) : Except Stop (Server × List Bytes) :=
  if (s.exchange w).hasRoom then serveStep cfg (s.exchange w) ([], w.env) else .ok (s.exchange w, [])

/-- The server is not about to wait for input although a whole request is there: it has something to
write, and will look again. -/
structure Awake (s : Server) : Prop where
  initDone : s.initDone = true
  bounded : s.iqueue.length ≤ sizeMax
  awake : s.oqueue = [] → pendingBody s.iqueue = none

lemma Awake.exchange (h : Awake s) (w : Wakeup) :
    (s.exchange w).initDone = true ∧ (s.exchange w).iqueue.length ≤ sizeMax := by
  have hLen := w.input.prop
  unfold Server.exchange
  split_ifs with hRoom
  · simp only [Bool.and_eq_true, decide_eq_true_eq] at hRoom
    refine ⟨h.initDone, ?_⟩
    rw [Server.receive, length_append]
    omega
  · exact ⟨h.initDone, h.bounded⟩

lemma mainStep_awake (h : Awake s) (hNext : RequestNext cfg (s.exchange w) ([], w.env)) :
    ∃ next found, mainStep cfg s w = .ok (next, found) ∧ Awake next := by
  obtain ⟨hInit, hBounded⟩ := h.exchange w
  unfold mainStep
  generalize s.exchange w = t at *
  by_cases hRoom : t.hasRoom = true
  · have hStart : Accounted cfg t t [] [] := ⟨hInit, id, by simp, [], by simp, .nil⟩
    obtain ⟨next, found, hServe, hDone, -, hQueue, replies, hOutput, hPaired⟩ := serveStep_accounted cfg hStart hNext
    rw [append_nil, append_nil, nil_append] at hQueue
    rw [if_pos hRoom]
    refine ⟨next, found, hServe, hDone, ?_, fun hEmpty => ?_⟩
    · rw [hQueue, length_append] at hBounded
      omega
    · obtain ⟨out, -, hFound⟩ := map_eq_ok.1 hServe
      obtain ⟨-, rfl⟩ := Prod.mk.inj hFound
      rw [Server.receive, append_nil] at hQueue hPaired
      rw [hOutput, append_eq_nil_iff, flatten_eq_nil_iff] at hEmpty
      cases hPend : pendingBody t.iqueue with
      | none =>
        rw [hPend] at hQueue
        exact (congrArg pendingBody hQueue).symm.trans hPend
      | some body =>
        rw [hPend] at hPaired
        cases hPaired with
        | cons =>
          have hReply := congrArg length (hEmpty.2 _ mem_cons_self)
          rw [length_putString, length_nil] at hReply
          omega
  · rw [if_neg hRoom]
    refine ⟨t, [], rfl, hInit, hBounded, fun hEmpty => ?_⟩
    rw [Server.hasRoom, hEmpty] at hRoom
    exact absurd (by decide) hRoom

/-- However input and output are interleaved with the requests, the server never waits for more
input with a whole request in its queue and nothing to write; nor does that queue grow beyond
its largest size. -/
theorem main_loop_awake {s : Server} {wakeups : List Wakeup} (hAwake : Awake s)
    (hRequests : Along (mainStep cfg) (fun s w => RequestNext cfg (s.exchange w) ([], w.env)) s wakeups) :
    ∃ last found, run (mainStep cfg) s wakeups = .ok (last, found) ∧ last.iqueue.length ≤ sizeMax ∧
      (last.oqueue = [] → pendingBody last.iqueue = none) := by
  obtain ⟨last, found, hRun, hLast⟩ := @run_total _ _ _ _ _ _ _ [] (fun s _ => Awake s)
    (fun s past w h hNext => mainStep_awake cfg h hNext) hAwake hRequests
  exact ⟨last, found, hRun, hLast.bounded, hLast.awake⟩

/-- Two requests come in one read; the answer to the first is written before the second is looked at. -/
def twoAtOnce : List Wakeup :=
  [⟨⟨putString ([13] ++ putU32 9 ++ putString (text "/a")) ++
      putString ([13] ++ putU32 10 ++ putString (text "/b")), by decide⟩, 0, fun _ => Sys.succeed⟩,
    ⟨⟨[], by decide⟩, 65536, fun _ => Sys.succeed⟩]

theorem main_loop_awake_two : ∃ last found,
    run (mainStep readonlyConfig) { Server.initial with initDone := true } twoAtOnce = .ok (last, found) ∧
      last.iqueue.length ≤ sizeMax ∧ (last.oqueue = [] → pendingBody last.iqueue = none) := by
  refine main_loop_awake readonlyConfig ⟨rfl, by decide, fun _ => rfl⟩ ?_
  decide +kernel

end Sftp
