import Sshfortress.Base.Extent
import Sshfortress.SftpClient.Basic

/-! Uploads tell whether the server has the file. Every WRITE is noted until a STATUS names
it, and the ranges that are written follow each other. The status of the upload is the status
of the last acknowledgement: one that comes after a failed write takes its place, and the
rest of the file is read as if nothing had happened. -/
namespace SftpClient

open Base Base.Wire Base.Extent List
open Prod (ext fst snd)
open Sftp (Attrib)
open scoped List

/-! What is said and heard about the file. -/

def writeOf : Event Call Answer → Option (Ack × Bytes)
  | ⟨.send (.write id _ offset data), _⟩ => some (⟨id, data.length, offset⟩, data)
  | _ => none

def ackOf : Event Call Answer → Option (Ack × Nat)
  | ⟨.getMsg (.acks queue), some msg⟩ => do
    let ((_, rid), body) ← header msg
    let (status, _) ← getU32 body
    let (_, ack, _) ← findRequest Ack.id rid queue
    return (ack, status)
  | _ => none

def readOf : Event Call Answer → Option (Nat × Bytes)
  | ⟨.read _ len, some data⟩ => some (len, data)
  | _ => none

def seekOf : Event Call Answer → Option Nat
  | ⟨.lseek _ offset, true⟩ => some offset
  | _ => none

/-- A file descriptor or a handle could not be closed. -/
def closeFailed : Event Call Answer → Bool
  | ⟨.close _, closed⟩ => !closed
  | ⟨.getMsg (.closed _), some msg⟩ => ((header msg).bind fun reply => getU32 reply.2).map fst ≠ some 0
  | _ => false

def writes (trace : Events) : List (Ack × Bytes) := trace.filterMap writeOf

def acknowledged (trace : Events) : List (Ack × Nat) := trace.filterMap ackOf

def localReads (trace : Events) : List (Nat × Bytes) := trace.filterMap readOf

def seeks (trace : Events) : List Nat := trace.filterMap seekOf

def uploadStart (trace : Events) : Nat := (seeks trace).headD 0

def ranges (trace : Events) : List Extent := (writes trace).map fun write => ⟨write.1.offset, write.1.len⟩

def written (trace : Events) : Bytes := ((writes trace).map snd).flatten

/-- The reads give the file piece by piece, and nothing only at its end. -/
def readsOut : Bytes → List (Nat × Bytes) → Bool
  | _, [] => true
  | rest, (len, data) :: later =>
    data <+: rest && data.length ≤ len && (data ≠ [] || rest = [] || len = 0) && readsOut (rest.drop data.length) later

/-- Every WRITE is acknowledged once, as done, and the ranges follow each other from the
start of the upload to the end of the file. -/
structure Uploaded (localFile : Bytes) (trace : Events) : Prop where
  acknowledged : (acknowledged trace).Perm ((writes trace).map fun write => (write.1, 0))
  joined : Joined (uploadStart trace) (ranges trace)
  covered : written trace = localFile.drop (uploadStart trace)

/-- No failed write is followed by a success to the end. -/
def Unmasked (trace : Events) : Prop :=
  (∀ ack ∈ acknowledged trace, ack.2 = 0) ∨ (∃ ack ∈ (acknowledged trace).getLast?, ack.2 ≠ 0) ∨
    ∃ event ∈ trace, closeFailed event = true

section Trace

variable {trace later : Events}

@[simp] lemma writes_append : writes (trace ++ later) = writes trace ++ writes later := filterMap_append ..

@[simp] lemma acknowledged_append : acknowledged (trace ++ later) = acknowledged trace ++ acknowledged later :=
  filterMap_append ..

@[simp] lemma localReads_append : localReads (trace ++ later) = localReads trace ++ localReads later :=
  filterMap_append ..

@[simp] lemma seeks_append : seeks (trace ++ later) = seeks trace ++ seeks later := filterMap_append ..

@[simp] lemma ranges_append : ranges (trace ++ later) = ranges trace ++ ranges later := by
  simp [ranges]

@[simp] lemma written_append : written (trace ++ later) = written trace ++ written later := by
  simp [written]

/-- The trace has no part in the transfer. -/
structure Idle (trace : Events) : Prop where
  writes : writes trace = []
  acknowledged : acknowledged trace = []
  reads : localReads trace = []

lemma Idle.append (h : Idle trace) (hl : Idle later) : Idle (trace ++ later) where
  writes := by rw [writes_append, h.writes, hl.writes, append_nil]
  acknowledged := by rw [acknowledged_append, h.acknowledged, hl.acknowledged, append_nil]
  reads := by rw [localReads_append, h.reads, hl.reads, append_nil]

/-- The calls that neither have a part in the transfer nor seek or close. -/
def Aside : Call → Prop
  | .send (.write ..) | .getMsg (.acks _) | .getMsg (.closed _) | .read .. | .lseek .. | .close _ => False
  | _ => True

lemma eventOf_of_aside {event : Event Call Answer} (h : Aside event.request) :
    writeOf event = none ∧ ackOf event = none ∧ readOf event = none ∧ seekOf event = none ∧ closeFailed event = false := by
  obtain ⟨call, answer⟩ := event
  cases call with
  | send r =>
    cases r with
    | write id handle offset data => exact h.elim
    | _ => exact ⟨rfl, rfl, rfl, rfl, rfl⟩
  | getMsg awaited =>
    cases awaited with
    | acks queue => exact h.elim
    | closed id => exact h.elim
    | _ => exact ⟨rfl, rfl, rfl, rfl, rfl⟩
  | read fd len => exact h.elim
  | lseek fd offset => exact h.elim
  | close fd => exact h.elim
  | _ => exact ⟨rfl, rfl, rfl, rfl, rfl⟩

lemma idle_of_aside (h : ∀ event ∈ trace, Aside event.request) :
    Idle trace ∧ seeks trace = [] ∧ ∀ event ∈ trace, closeFailed event = false :=
  have hn event he := eventOf_of_aside (h event he)
  ⟨⟨filterMap_eq_nil_iff.2 fun event he => (hn event he).1,
    filterMap_eq_nil_iff.2 fun event he => (hn event he).2.1,
    filterMap_eq_nil_iff.2 fun event he => (hn event he).2.2.1⟩,
    filterMap_eq_nil_iff.2 fun event he => (hn event he).2.2.2.1,
    fun event he => (hn event he).2.2.2.2⟩

end Trace

/-! The loop. -/

section Loop

variable {buflen start next fd startid : Nat} {handle data : Bytes} {u : Upload} {past : Events} {conn : Conn}

/-- What the loop keeps: `next` is where the next write goes and `data` is what was read and
not sent yet. -/
structure Uploading (buflen start : Nat) (u : Upload) (next : Nat) (data : Bytes) (past : Events) : Prop where
  status : u.status = ((acknowledged past).getLast?.map snd).getD 0
  queue : ((acknowledged past).map fst ++ u.acks).Perm ((writes past).map fst)
  joined : Joined start (ranges past)
  place : start + total (ranges past) = next
  read : written past ++ data = ((localReads past).map snd).flatten
  sized : ∀ read ∈ localReads past, read.1 = buflen
  seeks : seeks past = []
  closed : ∀ event ∈ past, closeFailed event = false

lemma Uploading.append (h : Uploading buflen start u next data past) {later : Events} {u' : Upload} {next' : Nat}
    {data' : Bytes} (hStat : u'.status = ((acknowledged later).getLast?.map snd).getD u.status)
    (hq : ((acknowledged later).map fst ++ u'.acks).Perm (u.acks ++ (writes later).map fst))
    (hj : Joined next (ranges later)) (hp : next + total (ranges later) = next')
    (hr : written later ++ data' = data ++ ((localReads later).map snd).flatten)
    (hs : ∀ read ∈ localReads later, read.1 = buflen) (hSeeks : SftpClient.seeks later = [])
    (hc : ∀ event ∈ later, closeFailed event = false) : Uploading buflen start u' next' data' (past ++ later) where
  status := by
    rw [hStat, h.status, acknowledged_append, getLast?_append]
    cases (acknowledged later).getLast? with
    | none => rfl
    | some ack => rfl
  queue := by
    rw [acknowledged_append, writes_append, map_append, map_append, append_assoc]
    calc (acknowledged past).map fst ++ ((acknowledged later).map fst ++ u'.acks)
      _ ~ (acknowledged past).map fst ++ (u.acks ++ (writes later).map fst) := hq.append_left _
      _ = (acknowledged past).map fst ++ u.acks ++ (writes later).map fst := (append_assoc ..).symm
      _ ~ (writes past).map fst ++ (writes later).map fst := h.queue.append_right _
  joined := by
    rw [ranges_append, joined_append, h.place]
    exact ⟨h.joined, hj⟩
  place := by rw [ranges_append, total_append, ← Nat.add_assoc, h.place, hp]
  read := by
    rw [written_append, localReads_append, map_append, flatten_append, ← h.read, append_assoc, hr,
      append_assoc]
  sized := by
    rw [localReads_append]
    exact forall_mem_append.2 ⟨h.sized, hs⟩
  seeks := by rw [seeks_append, h.seeks, hSeeks, append_nil]
  closed := forall_mem_append.2 ⟨h.closed, hc⟩

lemma Uploading.interrupted (h : Uploading buflen start u next [] past) (stopped : Bool) :
    Uploading buflen start u next [] (past ++ [⟨.interrupted, stopped⟩]) :=
  h.append rfl (.of_eq (append_nil _).symm) trivial rfl rfl (forall_mem_nil _) rfl
    (forall_mem_singleton.2 rfl)

lemma Uploading.read_data (h : Uploading buflen start u next [] past) (fd : Nat) (data : Bytes) :
    Uploading buflen start u next data (past ++ [⟨.read fd buflen, some data⟩]) :=
  h.append rfl (.of_eq (append_nil _).symm) trivial rfl (append_nil _).symm (forall_mem_singleton.2 rfl)
    rfl (forall_mem_singleton.2 rfl)

lemma Uploading.send (h : Uploading buflen start u u.offset data past) (id : Nat) (handle : Bytes) :
    Uploading buflen start { u with id := id, acks := u.acks ++ [⟨id, data.length, u.offset⟩] }
      (u.offset + data.length) [] (past ++ [⟨.send (.write id handle u.offset data), ()⟩]) :=
  h.append rfl .rfl ⟨rfl, trivial⟩ rfl (by simp [written, writes, writeOf, localReads, readOf]) (forall_mem_nil _)
    rfl (forall_mem_singleton.2 rfl)

lemma Uploading.receive (h : Uploading buflen start u next [] past) {msg body rest : Bytes} {type : UInt8}
    {rid status ackid : Nat} {ack : Ack} {before after : List Ack} (hHdr : header msg = some ((type, rid), body))
    (hs : getU32 body = some (status, rest)) (hf : findRequest Ack.id rid u.acks = some (before, ack, after)) :
    Uploading buflen start { u with status := status, acks := before ++ after, ackid := ackid } next []
      (past ++ [⟨.getMsg (.acks u.acks), some msg⟩]) := by
  have hAck : acknowledged [⟨.getMsg (.acks u.acks), some msg⟩] = [(ack, status)] := by
    simp [acknowledged, ackOf, hHdr, hs, hf]
  refine h.append ?_ ?_ trivial rfl rfl (forall_mem_nil _) rfl (forall_mem_singleton.2 rfl)
  · rw [hAck]
    rfl
  · rw [hAck, findRequest_eq_some hf]
    show (ack :: (before ++ after)).Perm (before ++ ack :: after ++ [])
    rw [append_nil]
    exact perm_middle.symm

/-- How the loop ends: nothing is awaited, and without an interrupt or an error it ends at the
end of the local file. -/
structure Drained (buflen start : Nat) (u : Upload) (past : Events) : Prop extends
    Uploading buflen start u u.offset [] past where
  acks : u.acks = []
  eof : Uninterrupted past → u.status = 0 → ∃ front, localReads past = front ++ [(buflen, [])]

lemma gives_receiveAck (h : Uploading buflen start u next [] past) :
    Gives (fun u' now later => now = conn ∧ u'.offset = u.offset ∧ Uploading buflen start u' next [] (past ++ later))
      (receiveAck u) conn := by
  refine .bind (.getMsg fun msg => ?_)
  refine .bind (.need fun reply hHdr => ?_)
  obtain ⟨⟨type, rid⟩, body⟩ := reply
  dsimp only
  by_cases ht : type ≠ 101
  · rw [if_pos ht]
    trivial
  · rw [if_neg ht]
    refine .bind (.need fun found hs => ?_)
    obtain ⟨status, rest⟩ := found
    refine .bind (.need fun place hf => ?_)
    exact ⟨rfl, rfl, h.receive hHdr hs hf⟩

variable {now : Conn}

lemma gives_uploadData (h : Uploading conn.transferBuflen start u u.offset data past)
    (hEof : data = [] → Uninterrupted past → u.status = 0 →
      ∃ front, localReads past = front ++ [(conn.transferBuflen, [])]) (hs : conn.Same now) :
    Gives (fun step later trace => Handler.roundPost
      (fun u later past => conn.Same later ∧ Drained conn.transferBuflen start u past)
      (fun u later past => conn.Same later ∧ Uploading conn.transferBuflen start u u.offset [] past)
      step later (past ++ trace)) (uploadData handle startid u data) now := by
  unfold uploadData
  by_cases hd : data = [] ∧ u.acks = []
  · rw [if_pos hd]
    obtain ⟨rfl, ha⟩ := hd
    refine ⟨hs, ?_⟩
    rw [append_nil]
    exact { h with acks := ha, eof := hEof rfl }
  · rw [if_neg hd]
    have hSend : Gives (fun u' later trace => later = now ∧ u'.offset = u.offset ∧
      Uploading conn.transferBuflen start u' (u.offset + data.length) [] (past ++ trace))
      (if data = [] then pure u else sendWrite handle data u : ClientM Upload) now := by
      by_cases hData : data = []
      · rw [if_pos hData]
        subst hData
        refine ⟨rfl, rfl, ?_⟩
        rw [append_nil]
        exact h
      · rw [if_neg hData]
        exact .bind (.sendMsg ⟨rfl, rfl, h.send _ handle⟩)
    refine .bind (hSend.mono ?_)
    rintro u₁ later sent ⟨rfl, hOff, hSent⟩
    refine .bind (.get (.bind ?_))
    have hWait : Gives (fun u' last trace => last = later ∧ u'.offset = u₁.offset ∧
      Uploading conn.transferBuflen start u' (u.offset + data.length) [] (past ++ sent ++ trace))
      (if u₁.waits startid later.numRequests data then receiveAck u₁ else pure u₁ : ClientM Upload) later := by
      by_cases hw : u₁.waits startid later.numRequests data
      · rw [if_pos hw]
        exact gives_receiveAck hSent
      · rw [if_neg hw]
        refine ⟨rfl, rfl, ?_⟩
        rw [append_nil]
        exact hSent
    refine hWait.mono ?_
    rintro u₂ last heard ⟨rfl, hSameOffset, hh⟩
    by_cases hl : 2 ^ 63 ≤ u₂.offset + data.length
    · rw [if_pos hl]
      trivial
    · rw [if_neg hl]
      refine ⟨hs, ?_⟩
      simp only [nil_append, append_nil, ← append_assoc]
      rw [hSameOffset, hOff]
      exact { hh with }

lemma gives_uploadRound (h : Uploading conn.transferBuflen start u u.offset [] past)
    (hs : conn.Same now) : Gives (fun step later trace => Handler.roundPost
      (fun u later past => conn.Same later ∧ Drained conn.transferBuflen start u past)
      (fun u later past => conn.Same later ∧ Uploading conn.transferBuflen start u u.offset [] past)
      step later (past ++ trace)) (uploadRound fd handle startid u) now := by
  refine .bind (.interrupted fun stopped => ?_)
  have ha := h.interrupted stopped
  by_cases hSkip : stopped ∨ u.status ≠ 0
  · rw [if_pos hSkip]
    have hEof : Uninterrupted (past ++ [⟨.interrupted, stopped⟩]) → u.status = 0 →
      ∃ front, localReads (past ++ [⟨.interrupted, stopped⟩]) = front ++ [(conn.transferBuflen, [])] := by
      intro hq hStat
      have hStopped : stopped = true := hSkip.resolve_right (not_not.2 hStat)
      subst hStopped
      exact absurd (mem_append_right _ (mem_singleton_self _)) hq
    refine (gives_uploadData ha (fun _ => hEof) hs).mono ?_
    intro step later trace hStep
    rwa [append_assoc] at hStep
  · rw [if_neg hSkip]
    refine .bind (.bind (.get (.bind (.ask fun answer => ?_))))
    refine .need fun data hd => ?_
    obtain rfl : answer = some data := hd
    have hr := ha.read_data fd data
    have hEof : data = [] → ∃ front,
      localReads (past ++ [⟨.interrupted, stopped⟩] ++ [⟨.read fd conn.transferBuflen, some data⟩]) =
        front ++ [(conn.transferBuflen, [])] := by
      rintro rfl
      exact ⟨_, localReads_append⟩
    refine (gives_uploadData hr (fun hd _ _ => hEof hd) hs).mono ?_
    intro step later trace hStep
    rw [hs.2]
    simpa using hStep

lemma gives_uploadLoop (rounds id : Nat) (hs : conn.Same now) :
    Gives (fun u later trace => conn.Same later ∧ Drained conn.transferBuflen start u trace)
      (Handler.iterate (uploadRound fd handle startid) rounds ⟨id, startid, 0, start, []⟩) now := by
  refine .iterate (fun u later past => conn.Same later ∧ Uploading conn.transferBuflen start u u.offset [] past)
    (fun u later past h => gives_uploadRound h.2 h.1) rounds ⟨hs, ?_⟩
  exact ⟨rfl, .rfl, trivial, rfl, rfl, forall_mem_nil _, rfl, forall_mem_nil _⟩

end Loop

/-! Before and after the loop. -/

section Ends

variable {fd : Nat} {handle remotePath : Bytes} {a : Attrib} {conn : Conn}

lemma gives_doClose : Gives (fun closed _ trace => Idle trace ∧ seeks trace = [] ∧
    (closed = true ↔ ∀ event ∈ trace, closeFailed event = false)) (doClose handle) conn := by
  refine .bind (.nextId (.bind (.sendMsg (.bind ?_))))
  refine .getStatus fun msg body status rest hHdr hs => ⟨⟨rfl, rfl, rfl⟩, rfl, ?_⟩
  simp [closeFailed, hHdr, hs]

lemma gives_closeUpload (preserve fsync : Bool) (u : Upload) :
    Gives (fun status _ trace => Idle trace ∧ seeks trace = [] ∧
      (status = 0 ↔ u.status = 0 ∧ ∀ event ∈ trace, closeFailed event = false))
      (closeUpload fd handle a preserve fsync u) conn := by
  refine .bind (.closeFd fun localClosed => ?_)
  have hSet : Within Aside (optionally preserve do let _ ← doFsetstat handle a; return) :=
    .optionally (.bind (.bind .nextId fun id => .bind (.sendMsg trivial) fun _ =>
      .bind (.getStatus trivial id) fun _ => .pure _) fun _ => .pure _)
  have hSync : Within Aside (optionally fsync (doFsync handle)) :=
    .optionally (.bind .get fun _ => .ite (.bind .nextId fun id =>
      .bind (.sendMsg trivial) fun _ => .bind (.getStatus trivial id) fun _ => .pure _)
      (.pure _))
  refine .bind ((hSet.events conn).mono ?_)
  rintro - now set ⟨-, hSetCalls⟩
  refine .bind ((hSync.events now).mono ?_)
  rintro - next synced ⟨-, hSyncCalls⟩
  refine .bind (gives_doClose.mono ?_)
  rintro closed last talk ⟨ht, hSeeks, hc⟩
  obtain ⟨hSetIdle, hSetSeeks, hSetClosed⟩ := idle_of_aside hSetCalls
  obtain ⟨hSyncIdle, hSyncSeeks, hs⟩ := idle_of_aside hSyncCalls
  have hf : Idle [⟨.close fd, localClosed⟩] := ⟨rfl, rfl, rfl⟩
  show Idle ([⟨.close fd, localClosed⟩] ++ (set ++ (synced ++ (talk ++ [])))) ∧ _
  rw [append_nil]
  refine ⟨hf.append (hSetIdle.append (hSyncIdle.append ht)), ?_, ?_⟩
  · rw [seeks_append, seeks_append, seeks_append, hSetSeeks, hSyncSeeks, hSeeks]
    rfl
  · rw [forall_mem_append, forall_mem_append, forall_mem_append, ← hc, and_iff_right hSetClosed,
      and_iff_right hs, forall_mem_singleton]
    cases localClosed <;> cases closed <;> simp [closeFailed]

lemma gives_resumeOffset (st : Stat) (resume : Bool) :
    Gives (fun found later trace => conn.Same later ∧ Idle trace ∧ (∀ event ∈ trace, closeFailed event = false) ∧
      ∀ start, found = some start → (seeks trace).headD 0 = start)
      (resumeOffset fd st remotePath resume) conn := by
  cases resume with
  | false => exact ⟨Conn.Same.refl conn, ⟨rfl, rfl, rfl⟩, forall_mem_nil _, fun start hs => Option.some.inj hs⟩
  | true =>
    have hStat : Within Aside (doStat remotePath) := .doStat (fun _ _ => trivial) fun _ => trivial
    refine .bind ((hStat.events conn).mono ?_)
    rintro found later trace ⟨hSame, hCalls⟩
    obtain ⟨hi, hSeeks, hc⟩ := idle_of_aside hCalls
    have hn : conn.Same later ∧ Idle (trace ++ []) ∧ (∀ event ∈ trace ++ [], closeFailed event = false) ∧
      ∀ start, none = some start → (seeks (trace ++ [])).headD 0 = start := by
      rw [append_nil]
      exact ⟨hSame, hi, hc, fun start hs => (nomatch hs)⟩
    cases found with
    | none => exact hn
    | some c =>
      dsimp only
      split_ifs with hSmall hLarge
      · exact hn
      · exact hn
      · have hSeek : ∀ post, (∀ sought : Bool, post sought later [⟨.lseek fd c.size, sought⟩]) →
          Gives post (ask (.lseek fd c.size)) later := fun post hp => .ask hp
        refine .bind (hSeek _ fun sought => ?_)
        refine ⟨hSame, hi.append ⟨rfl, rfl, rfl⟩,
          forall_mem_append.2 ⟨hc, forall_mem_singleton.2 rfl⟩, fun start hs => ?_⟩
        cases sought with
        | false => cases hs
        | true =>
          cases hs
          rw [seeks_append, hSeeks]
          rfl

end Ends

/-! The theorem. -/

lemma flatten_of_readsOut {buflen : Nat} (hb : 0 < buflen) {rest : Bytes} {front : List (Nat × Bytes)}
    (h : readsOut rest (front ++ [(buflen, [])]) = true) : (front.map snd).flatten = rest := by
  induction front generalizing rest with
  | nil =>
    simp only [nil_append, readsOut, Bool.and_eq_true, Bool.or_eq_true, decide_eq_true_eq, ne_eq,
      not_true_eq_false, false_or, hb.ne', or_false] at h
    exact h.1.2.symm
  | cons read front ih =>
    obtain ⟨len, data⟩ := read
    simp only [cons_append, readsOut, Bool.and_eq_true, decide_eq_true_eq] at h
    obtain ⟨back, rfl⟩ := h.1.1.1
    have hl := ih h.2
    rw [drop_left] at hl
    rw [map_cons, flatten_cons, hl]

lemma uploaded_iff (localFile : Bytes) {buflen start : Nat} {u : Upload} {status : Int} {lead loop rest : Events}
    (hBuflen : 0 < buflen) (hLead : Idle lead) (hStart : (seeks lead).headD 0 = start)
    (hLeadClosed : ∀ event ∈ lead, closeFailed event = false) (hl : Drained buflen start u loop) (hr : Idle rest)
    (hSeeks : seeks rest = []) (hs : status = 0 ↔ u.status = 0 ∧ ∀ event ∈ rest, closeFailed event = false)
    (hQuiet : Uninterrupted (lead ++ (loop ++ rest)))
    (hReads : readsOut (localFile.drop (uploadStart (lead ++ (loop ++ rest)))) (localReads (lead ++ (loop ++ rest))) =
      true) :
    (status = 0 → Uploaded localFile (lead ++ (loop ++ rest))) ↔ Unmasked (lead ++ (loop ++ rest)) := by
  have hw : writes (lead ++ (loop ++ rest)) = writes loop := by simp [hLead.writes, hr.writes]
  have ha : acknowledged (lead ++ (loop ++ rest)) = acknowledged loop := by
    simp [hLead.acknowledged, hr.acknowledged]
  have hLocal : localReads (lead ++ (loop ++ rest)) = localReads loop := by simp [hLead.reads, hr.reads]
  have hb : uploadStart (lead ++ (loop ++ rest)) = start := by
    rw [uploadStart, seeks_append, seeks_append, hl.seeks, hSeeks, append_nil, append_nil, hStart]
  have hLast : (∃ ack ∈ (acknowledged loop).getLast?, ack.2 ≠ 0) ↔ u.status ≠ 0 := by
    rw [hl.status]
    cases (acknowledged loop).getLast? with
    | none => simp
    | some ack => simp
  have hf : (∃ event ∈ lead ++ (loop ++ rest), closeFailed event = true) ↔
    ¬ ∀ event ∈ rest, closeFailed event = false := by
    constructor
    · rintro ⟨event, he, hf⟩ hn
      have hAll := forall_mem_append.2 ⟨hLeadClosed, forall_mem_append.2 ⟨hl.closed, hn⟩⟩
      exact absurd hf (by rw [hAll event he]; exact Bool.false_ne_true)
    · intro hSome
      obtain ⟨event, he⟩ := not_forall.1 hSome
      obtain ⟨he, hf⟩ := Classical.not_imp.1 he
      exact ⟨event, mem_append_right _ (mem_append_right _ he), by simpa using hf⟩
  unfold Unmasked
  rw [ha, hLast, hf]
  constructor
  · intro h
    by_cases hz : status = 0
    · left
      intro ack hAck
      have hp := (h hz).acknowledged
      rw [ha, hw] at hp
      obtain ⟨write, -, rfl⟩ := mem_map.1 (hp.mem_iff.1 hAck)
      rfl
    · right
      rw [hs] at hz
      exact not_and_or.1 hz
  · intro h hz
    obtain ⟨hg, hc⟩ := hs.1 hz
    have hAll : ∀ ack ∈ acknowledged loop, ack.2 = 0 :=
      h.resolve_right fun hBad => hBad.elim (absurd hg) fun ho => ho hc
    have hq : Uninterrupted loop := fun hMem =>
      hQuiet (mem_append_right _ (mem_append_left _ hMem))
    obtain ⟨front, hFront⟩ := hl.eof hq hg
    refine ⟨?_, ?_, ?_⟩
    · have hQueue := hl.queue
      rw [hl.acks, append_nil] at hQueue
      have hSame : (acknowledged loop).map (fun ack => (ack.1, 0)) = acknowledged loop := by
        conv_rhs => rw [← map_id (acknowledged loop)]
        exact map_congr_left fun ack hAck => ext rfl (hAll ack hAck).symm
      rw [ha, hw, ← hSame]
      have hPairs := hQueue.map fun ack => (ack, 0)
      rwa [map_map, map_map] at hPairs
    · rw [hb, ranges, hw]
      exact hl.joined
    · have hRead := hl.read
      rw [hb, hLocal, hFront] at hReads
      rw [append_nil, hFront, map_append, flatten_append, flatten_of_readsOut hBuflen hReads] at hRead
      rw [written, hw, hb]
      exact hRead.trans (append_nil _)

lemma unmasked_untouched {localFile : Bytes} {trace : Events} (h : Idle trace) :
    ((-1 : Int) = 0 → Uploaded localFile trace) ↔ Unmasked trace := by
  refine iff_of_true (fun hz => absurd hz (by decide)) (.inl ?_)
  rw [h.acknowledged]
  exact forall_mem_nil _

lemma gives_doUpload {conn : Conn} (hb : 0 < conn.transferBuflen) (localFile : Bytes) (rounds : Nat)
    (localPath remotePath : Bytes) (preserve resume fsync : Bool) :
    Gives (fun status _ trace => Uninterrupted trace →
      readsOut (localFile.drop (uploadStart trace)) (localReads trace) = true →
      ((status = 0 → Uploaded localFile trace) ↔ Unmasked trace))
      (doUpload rounds localPath remotePath preserve resume fsync) conn := by
  have hc : ∀ (fd : Nat) (closed : Bool), Idle [⟨.close fd, closed⟩] := fun _ _ => ⟨rfl, rfl, rfl⟩
  refine .bind (.ask fun answer => ?_)
  have ho : Idle [⟨.open localPath 0 0, answer⟩] := ⟨rfl, rfl, rfl⟩
  cases answer with
  | none => exact fun _ _ => unmasked_untouched ho
  | some fd =>
    refine .bind (.ask fun answer => ?_)
    have hStat : Idle [⟨.fstat fd, answer⟩] := ⟨rfl, rfl, rfl⟩
    cases answer with
    | none =>
      exact .bind (.closeFd fun closed _ _ =>
        unmasked_untouched (ho.append (hStat.append (hc fd closed))))
    | some st =>
      dsimp only
      by_cases hReg : (!isReg st.mode) = true
      · rw [if_pos hReg]
        exact .bind (.closeFd fun closed _ _ =>
          unmasked_untouched (ho.append (hStat.append (hc fd closed))))
      · rw [if_neg hReg]
        refine .bind ((gives_resumeOffset st resume).mono ?_)
        rintro found now sought ⟨hSame, hs, hSoughtClosed, hf⟩
        cases found with
        | none =>
          exact .bind (.closeFd fun closed _ _ =>
            unmasked_untouched (ho.append (hStat.append (hs.append (hc fd closed)))))
        | some start =>
          have hRemote : ∀ pflags, Within Aside (openRemote remotePath pflags (uploadAttrib st preserve)) :=
            fun _ => .openRemote (fun _ => trivial) fun _ => trivial
          refine .bind (((hRemote _).events now).mono ?_)
          rintro ⟨id, handle⟩ later talk ⟨hNow, hTalk⟩
          obtain ⟨ht, hTalkSeeks, hTalkClosed⟩ := idle_of_aside hTalk
          cases handle with
          | none =>
            exact .bind (.closeFd fun closed _ _ => unmasked_untouched
              (ho.append (hStat.append (hs.append (ht.append (hc fd closed))))))
          | some handle =>
            refine .bind ((gives_uploadLoop rounds id (hSame.trans hNow)).mono ?_)
            rintro u next loop ⟨-, hl⟩
            refine (gives_closeUpload preserve fsync u).mono ?_
            rintro status last rest ⟨hRest, hr, hStatus⟩
            have hLead := ho.append (hStat.append (hs.append ht))
            have hStart : (seeks ([⟨.open localPath 0 0, some fd⟩] ++ ([⟨.fstat fd, some st⟩] ++
              (sought ++ talk)))).headD 0 = start := by
              rw [← hf start rfl, seeks_append, seeks_append, seeks_append, hTalkSeeks, append_nil]
              rfl
            have hClosed : ∀ event ∈ ([⟨.open localPath 0 0, some fd⟩] ++ ([⟨.fstat fd, some st⟩] ++
              (sought ++ talk)) : Events), closeFailed event = false :=
              forall_mem_append.2 ⟨forall_mem_singleton.2 rfl, forall_mem_append.2
                ⟨forall_mem_singleton.2 rfl, forall_mem_append.2 ⟨hSoughtClosed, hTalkClosed⟩⟩⟩
            have hd := uploaded_iff localFile hb hLead hStart hClosed hl hRest hr hStatus
            simpa using hd

/-- A success means that the server has the file exactly if no failed write is followed by a
success to the end. -/
theorem upload_reported_iff {localFile localPath remotePath : Bytes} {conn last : Conn} {rounds : Nat}
    {preserve resume fsync : Bool} {env : Env Call Answer} {status : Int} {trace : Events}
    (hBuflen : 0 < conn.transferBuflen)
    (hRun : Prog.run env (doUpload rounds localPath remotePath preserve resume fsync conn) = (.ok (status, last), trace))
    (hQuiet : Uninterrupted trace)
    (hReads : readsOut (localFile.drop (uploadStart trace)) (localReads trace) = true) :
    (status = 0 → Uploaded localFile trace) ↔ Unmasked trace := by
  have hGives := gives_doUpload hBuflen localFile rounds localPath remotePath preserve resume fsync
  have hResult := Prog.Meets.result hGives env (congrArg fst hRun)
  rw [hRun] at hResult
  exact hResult hQuiet hReads

def oneAhead : Conn := ⟨1, 1, 3, 1, false⟩

def threeBytes : Bytes := text "abc"

def threeAcks (second : Nat) : Script where
  msgs := [handleMsg 1 [7], statusMsg 2 0, statusMsg 3 second, statusMsg 4 0, statusMsg 2 0]
  reads := threeBytes.map fun byte => [byte]

def threeWrites (second : Nat) : Except Stop (Int × Conn) × Events :=
  Prog.run (threeAcks second).env (doUpload 9 (text "l") (text "/r") false false false oneAhead)

theorem upload_reported_three : ∃ last, (threeWrites 0).1 = .ok (0, last) ∧ Uploaded threeBytes (threeWrites 0).2 := by
  obtain ⟨last, hRun⟩ : ∃ last, (threeWrites 0).1 = .ok (0, last) := returns_of_status (by decide +kernel)
  refine ⟨last, hRun, ?_⟩
  have hBuflen : 0 < oneAhead.transferBuflen := by decide
  have hQuiet : Uninterrupted (threeWrites 0).2 := uninterrupted_of_calm (by decide +kernel)
  have hReads : readsOut (threeBytes.drop (uploadStart (threeWrites 0).2)) (localReads (threeWrites 0).2) = true := by
    decide +kernel
  have hAll : ∀ ack ∈ acknowledged (threeWrites 0).2, ack.2 = 0 := by decide +kernel
  have hWhole : threeWrites 0 = (.ok (0, last), (threeWrites 0).2) := ext hRun rfl
  exact (upload_reported_iff hBuflen hWhole hQuiet hReads).2 (.inl hAll) rfl

/-- The second write fails and the third one is acknowledged: the upload succeeds. -/
theorem upload_masks_failure : ∃ last, (threeWrites 4).1 = .ok (0, last) ∧ Uninterrupted (threeWrites 4).2 ∧
    readsOut (threeBytes.drop (uploadStart (threeWrites 4).2)) (localReads (threeWrites 4).2) = true ∧
    ¬ Uploaded threeBytes (threeWrites 4).2 := by
  obtain ⟨last, hRun⟩ : ∃ last, (threeWrites 4).1 = .ok (0, last) := returns_of_status (by decide +kernel)
  refine ⟨last, hRun, uninterrupted_of_calm (by decide +kernel), by decide +kernel, fun h => ?_⟩
  have hFailed : (⟨3, 1, 1⟩, 4) ∈ acknowledged (threeWrites 4).2 := by decide +kernel
  obtain ⟨write, -, hWrite⟩ := mem_map.1 (h.acknowledged.mem_iff.1 hFailed)
  exact absurd (congrArg snd hWrite) (show (0 : Nat) ≠ 4 by decide)

end SftpClient
