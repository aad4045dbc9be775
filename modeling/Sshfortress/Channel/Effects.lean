import Sshfortress.Channel.Handlers

/-! What a handler call can do, said once for each handler: which channel it leaves
behind, what becomes of the globals, and what it shows. -/
namespace Channel
open Base List

variable {compat : Compat} {r : Round} {c next : Chan} {g g' : Globals} {actions : List Action}

/-- What the handlers for the descriptors do to a channel, one thing at a time: they use its
queues, and they end a side, or the channel, that fails. -/
inductive Touch (compat : Compat) (c : Chan) : Chan → Prop where
  | input (queued : Bytes) : Touch compat c { c with input := queued }
  | output (rest : Bytes) : Touch compat c { c with output := rest }
  | consumed (count : UInt32) : Touch compat c { c with localConsumed := count }
  | readFailed : Touch compat c (chanReadFailed compat c)
  | writeFailed : Touch compat c (chanWriteFailed compat c)
  | inputDraining (hCompat : compat.compat13 = true) :
      Touch compat c { c with output := [], type := .inputDraining }
  | dead (hType : c.type ≠ .opened) : Touch compat c (chanMarkDead c)

abbrev Touches (compat : Compat) : Chan → Chan → Prop := Relation.ReflTransGen (Touch compat)

lemma Touch.settings (h : Touch compat c next) : next.toSettings = c.toSettings := by
  cases h with
  | readFailed =>
    obtain ⟨rfd, istate, hEq, -⟩ := chanReadFailed_eq compat c
    rw [hEq]
  | writeFailed => rcases chanWriteFailed_eq compat c with ⟨-, hEq⟩ | ⟨wfd, ostate, hEq, -⟩ <;> rw [hEq]
  | _ => rfl

lemma Touches.settings (h : Touches compat c next) : next.toSettings = c.toSettings := by
  induction h with
  | refl => rfl
  | tail _ ht ih => exact ht.settings.trans ih

lemma filterStops_touches (c : Chan) : Touches compat c (filterStops compat c) := by
  rw [filterStops]
  split_ifs with hType
  · exact .single .writeFailed
  · exact .single (.dead hType)

lemma readFailed_touches (c : Chan) : Touches compat c (readFailed compat c) := by
  rw [readFailed]
  split_ifs with hType hCompat
  · exact .single (.dead hType)
  · exact .single (.inputDraining hCompat)
  · exact .single .readFailed

lemma writeFailed_touches (c : Chan) : Touches compat c (writeFailed compat c) := by
  rw [writeFailed]
  split_ifs with hType hCompat
  · exact .single (.dead hType)
  · exact .single (.inputDraining hCompat)
  · exact .single .writeFailed

lemma countConsumed_touches (before : Chan) : Touches compat c (countConsumed compat before c) := by
  rw [countConsumed]
  split_ifs
  · exact .single (.consumed _)
  · exact .refl

variable {writable success : Bool} {found : Fetched} {bytes : Bytes} {before : Chan} {other : Nat}

lemma fetchOutput_eq_ok (h : fetchOutput writable c = .ok found) :
    ((c.wfd && writable && c.output ≠ []) = false ∧ found = .nothing) ∨
    (c.wfd && writable && c.output ≠ []) = true ∧
      ((c.outputFilter = false ∧ c.datagram = false ∧ found = .data c.output c) ∨
        ((c.outputFilter = true ∨ c.datagram = true) ∧ ∃ s rest, Wire.getString c.output = some (s, rest) ∧
          found = if c.outputFilter then
            if s.length < 4 then .stops { c with output := rest }
            else .data (s.drop 4) { c with output := rest }
            else .data s { c with output := rest })) := by
  unfold fetchOutput at h
  split_ifs at h with hp hFilt hg
  · obtain ⟨⟨s, popped⟩, hGet, hf⟩ := bind_eq_ok.1 h
    obtain ⟨rest, hStr, rfl⟩ := bufferGetString_eq_ok hGet
    cases hf
    exact .inr ⟨hp, .inr ⟨.inl hFilt, s, rest, hStr, by rw [if_pos hFilt]⟩⟩
  · obtain ⟨⟨s, popped⟩, hGet, hf⟩ := bind_eq_ok.1 h
    obtain ⟨rest, hStr, rfl⟩ := bufferGetString_eq_ok hGet
    cases hf
    exact .inr ⟨hp, .inr ⟨.inr hg, s, rest, hStr, by rw [if_neg hFilt]⟩⟩
  · cases h
    exact .inr ⟨hp, .inl ⟨by simpa using hFilt, by simpa using hg, rfl⟩⟩
  · cases h
    exact .inl ⟨by simpa using hp, rfl⟩

lemma fetchOutput_touches (h : fetchOutput writable c = .ok found) :
    (∀ popped, found = .stops popped → Touches compat c popped) ∧
      ∀ bytes popped, found = .data bytes popped → Touches compat c popped := by
  rcases fetchOutput_eq_ok h with ⟨-, rfl⟩ | ⟨-, ⟨-, -, rfl⟩ | ⟨-, s, rest, -, rfl⟩⟩
  · simp
  · refine ⟨by simp, fun bytes popped hf => ?_⟩
    cases hf
    exact .refl
  · constructor
    · intro popped hf
      split_ifs at hf
      cases hf
      exact .single (.output rest)
    · intro bytes popped hf
      split_ifs at hf <;> cases hf <;> exact .single (.output rest)

variable {k : Option Keys} {chunk rtype : Bytes} {call : Call} {id : Nat} {a : SessionAnswer}
  {s s' : Server} {events : List (Nat × Action)}

lemma considerKeys_eq_ok {k : Keys} (h : considerKeys r k chunk g = .ok (g', actions)) :
    (∃ emulator rfdLog, g' = { g with emulator := emulator, rfdLog := rfdLog }) ∧
      ((Keys.is r.rodata k (text "\r") = false ∧ actions = []) ∨ (Keys.is r.rodata k (text "\r") = true ∧
          ∃ sent : List Bytes, actions = .extracted :: sent.map Action.queried)) := by
  unfold considerKeys at h
  dsimp only at h
  cases hb : classify r.rodata k (snprintf 16384 (cstr chunk)) chunk.length with
  | extract =>
    rw [hb] at h
    obtain ⟨⟨emulator, sent⟩, -, hd⟩ := bind_eq_ok.1 h
    cases hd
    exact ⟨⟨emulator, [], rfl⟩, .inr ⟨classify_eq_extract.1 hb, sent, rfl⟩⟩
  | truncate | replace | ignore | append =>
    have ho : Keys.is r.rodata k (text "\r") = false := by
      rw [Bool.eq_false_iff, ne_eq, ← classify_eq_extract, hb]
      decide
    rw [hb] at h
    cases h
    exact ⟨⟨g.emulator, _, rfl⟩, .inl ⟨ho, rfl⟩⟩

def Action.ofRow : Action → Bool
  | .considered _ | .extracted | .queried _ => true
  | _ => false

lemma considerKeys_ofRow {k : Keys} (h : considerKeys r k chunk g = .ok (g', actions)) :
    ∀ a ∈ actions, a.ofRow = true := by
  intro a ha
  obtain ⟨-, ⟨-, rfl⟩ | ⟨-, sent, rfl⟩⟩ := considerKeys_eq_ok h
  · cases ha
  · rcases mem_cons.1 ha with rfl | hs
    · rfl
    · obtain ⟨sql, -, rfl⟩ := mem_map.1 hs
      rfl

/-- A recorded chunk is written to both files that are open; then the keys that are
there are looked at. -/
lemma recordChunk_eq_ok (h : recordChunk r k chunk c g = .ok (g', actions)) :
    ∃ delta rows, actions = .logged chunk ::
      (if c.logfdTime then [.timed (timingRecord delta chunk.length)] else []) ++ rows ∧
      (∀ a ∈ rows, a.ofRow = true) ∧
      ((k = none ∧ rows = [] ∧ g' = { g with oldtime := r.now }) ∨
        ∃ keys sent, k = some keys ∧ rows = .considered keys :: sent ∧
          considerKeys r keys chunk { g with oldtime := r.now } = .ok (g', sent)) := by
  refine ⟨elapsed r.now g.oldtime, ?_⟩
  cases k with
  | none =>
    cases h
    exact ⟨[], (append_nil _).symm, by simp, .inl ⟨rfl, rfl, rfl⟩⟩
  | some keys =>
    obtain ⟨⟨later, sent⟩, hk, hd⟩ := bind_eq_ok.1 h
    cases hd
    have hr : ∀ a ∈ Action.considered keys :: sent, a.ofRow = true :=
      forall_mem_cons.2 ⟨rfl, considerKeys_ofRow hk⟩
    exact ⟨.considered keys :: sent, rfl, hr, .inr ⟨keys, sent, rfl, rfl, hk⟩⟩

/-- On a stream channel without a filter every chunk is relayed, and recorded first
if the channel has a playback file and the request type is the right one. -/
lemma relayChunk_eq_ok (hf : c.inputFilter = false) (hg : c.datagram = false)
    (h : relayChunk compat r k chunk c g = .ok (g', next, actions)) :
    ∃ records, actions = records ++ [.relayed chunk] ∧
      next = { c with input := c.input ++ chunk } ∧
      (((c.logfd && recordable g.sshtype) = true ∧ recordChunk r k chunk c g = .ok (g', records)) ∨
        ((c.logfd && recordable g.sshtype) = false ∧ g' = g ∧ records = [])) := by
  unfold relayChunk at h
  rw [hf, hg] at h
  obtain ⟨⟨later, records⟩, hRec, hd⟩ := bind_eq_ok.1 h
  cases hd
  refine ⟨records, rfl, rfl, ?_⟩
  unfold recordIfShell at hRec
  split_ifs at hRec with hr
  · exact .inl ⟨hr, hRec⟩
  · cases hRec
    exact .inr ⟨by simpa using hr, rfl, rfl⟩

lemma readSide_eq_ok (h : readSide compat r k c g = .ok (g', next, actions)) :
    (readTarget r c = .nothing ∧ g' = g ∧ next = c ∧ actions = []) ∨
    (readTarget r c = .failed ∧ g' = g ∧ next = readFailed compat c ∧ actions = []) ∨
    ∃ chunk, readTarget r c = .chunk chunk ∧ relayChunk compat r k chunk c g = .ok (g', next, actions) := by
  unfold readSide at h
  cases hr : readTarget r c with
  | nothing =>
    rw [hr] at h
    cases h
    exact .inl ⟨rfl, rfl, rfl, rfl⟩
  | failed =>
    rw [hr] at h
    cases h
    exact .inr (.inl ⟨rfl, rfl, rfl, rfl⟩)
  | chunk chunk =>
    rw [hr] at h
    exact .inr (.inr ⟨chunk, rfl, h⟩)

/-- The read handler either ends at the filter or goes on to the read side, with the
keys it found or with the stale ones. -/
lemma channelHandleRfd_eq_ok (h : channelHandleRfd compat r c g = .ok (g', next, actions)) :
    ∃ found, fetchOutput r.writable c = .ok found ∧
      match found with
      | .nothing => readSide compat r r.stale c g = .ok (g', next, actions)
      | .stops popped => g' = g ∧ next = filterStops compat popped ∧ actions = []
      | .data bytes popped =>
        readSide compat r (some ⟨bytes ++ r.after, bytes.length⟩) popped g = .ok (g', next, actions) := by
  obtain ⟨found, hf, hr⟩ := bind_eq_ok.1 h
  refine ⟨found, hf, ?_⟩
  cases found with
  | nothing => exact hr
  | stops popped =>
    cases hr
    exact ⟨rfl, rfl, rfl⟩
  | data bytes popped => exact hr

def Action.ofRead : Action → Bool
  | .relayed _ | .logged _ | .timed _ => true
  | action => action.ofRow

lemma Action.ofRead_of_ofRow {a : Action} (h : a.ofRow = true) : a.ofRead = true := by
  cases a <;> first | exact h | rfl

/-- What a read does: it touches the channel, leaves the request type alone, and shows only
what goes with a read. -/
structure Reading (compat : Compat) (c next : Chan) (g g' : Globals) (actions : List Action) : Prop where
  touches : Touches compat c next
  sshtype : g'.sshtype = g.sshtype
  ofRead : ∀ a ∈ actions, a.ofRead = true

lemma recordIfShell_reads (h : recordIfShell r k chunk c g = .ok (g', actions)) :
    g'.sshtype = g.sshtype ∧ ∀ a ∈ actions, a.ofRead = true := by
  unfold recordIfShell at h
  split_ifs at h
  · obtain ⟨delta, rows, rfl, hr, hg⟩ := recordChunk_eq_ok h
    constructor
    · rcases hg with ⟨-, -, rfl⟩ | ⟨keys, sent, -, -, hk⟩
      · rfl
      · obtain ⟨⟨emulator, rfdLog, rfl⟩, -⟩ := considerKeys_eq_ok hk
        rfl
    · intro a ha
      rcases mem_append.1 ha with hf | hRow
      · rcases mem_cons.1 hf with rfl | ht
        · rfl
        · split_ifs at ht
          · rw [mem_singleton.1 ht]
            rfl
          · cases ht
      · exact Action.ofRead_of_ofRow (hr a hRow)
  · cases h
    exact ⟨rfl, by simp⟩

lemma relayChunk_reads (h : relayChunk compat r k chunk c g = .ok (g', next, actions)) :
    Reading compat c next g g' actions := by
  have hs : ∀ bytes, ∀ a ∈ [Action.relayed bytes], a.ofRead = true := fun _ =>
    forall_mem_singleton.2 rfl
  unfold relayChunk at h
  split_ifs at h
  · split at h
    · cases h
      exact ⟨.single .readFailed, rfl, forall_mem_nil _⟩
    · cases h
      exact ⟨.single (.input _), rfl, hs _⟩
  · cases h
    exact ⟨.single (.input _), rfl, hs _⟩
  · obtain ⟨⟨later, records⟩, hRec, hd⟩ := bind_eq_ok.1 h
    cases hd
    obtain ⟨hType, hr⟩ := recordIfShell_reads hRec
    exact ⟨.single (.input _), hType, forall_mem_append.2 ⟨hr, hs _⟩⟩

lemma readSide_reads (h : readSide compat r k c g = .ok (g', next, actions)) :
    Reading compat c next g g' actions := by
  rcases readSide_eq_ok h with ⟨-, rfl, rfl, rfl⟩ | ⟨-, rfl, rfl, rfl⟩ | ⟨chunk, -, hr⟩
  · exact ⟨.refl, rfl, forall_mem_nil _⟩
  · exact ⟨readFailed_touches c, rfl, forall_mem_nil _⟩
  · exact relayChunk_reads hr

lemma channelHandleRfd_reads (h : channelHandleRfd compat r c g = .ok (g', next, actions)) :
    Reading compat c next g g' actions := by
  obtain ⟨found, hf, hr⟩ := channelHandleRfd_eq_ok h
  obtain ⟨hs, hd⟩ := @fetchOutput_touches compat _ _ _ hf
  cases found with
  | nothing => exact readSide_reads hr
  | stops popped =>
    obtain ⟨rfl, rfl, rfl⟩ := hr
    exact ⟨(hs popped rfl).trans (filterStops_touches popped), rfl, forall_mem_nil _⟩
  | data bytes popped =>
    have hRead := readSide_reads hr
    exact ⟨(hd bytes popped rfl).trans hRead.touches, hRead.sshtype, hRead.ofRead⟩

lemma channelHandleWfd_eq_ok (h : channelHandleWfd compat r c g = .ok (g', next, actions)) :
    g' = { g with oldtime := slowedDown r.later } ∧ ∃ found, fetchOutput r.writable c = .ok found ∧
        match found with
        | .nothing => next = c ∧ actions = []
        | .stops popped => next = filterStops compat popped ∧ actions = []
        | .data bytes popped =>
          if c.datagram then (next, actions) = writeDatagram compat r bytes c popped
          else writeStream compat r bytes c popped = .ok (next, actions) := by
  obtain ⟨found, hf, hr⟩ := bind_eq_ok.1 h
  cases found with
  | nothing =>
    cases hr
    exact ⟨rfl, .nothing, hf, rfl, rfl⟩
  | stops popped =>
    cases hr
    exact ⟨rfl, .stops popped, hf, rfl, rfl⟩
  | data bytes popped =>
    dsimp only at hr
    split_ifs at hr with hg
    · cases hr
      refine ⟨rfl, .data bytes popped, hf, ?_⟩
      dsimp only
      rw [if_pos hg]
    · obtain ⟨⟨written, shown⟩, hw, hd⟩ := bind_eq_ok.1 hr
      cases hd
      refine ⟨rfl, .data bytes popped, hf, ?_⟩
      dsimp only
      rw [if_neg hg]
      exact hw

lemma writeDatagram_touches (bytes : Bytes) (before : Chan) :
    Touches compat c (writeDatagram compat r bytes before c).1 := by
  unfold writeDatagram
  split
  · exact .refl
  · exact filterStops_touches c
  · split_ifs
    · exact filterStops_touches c
    · exact countConsumed_touches before

section
variable (h : writeStream compat r bytes before c = .ok (next, actions))
include h

lemma writeStream_eq_ok :
    ((bytes ≠ [] → ∀ n, r.write ≠ .wrote (n + 1)) ∧ (next = c ∨ next = writeFailed compat c) ∧ actions = []) ∨
      ∃ n len, r.write = .wrote (n + 1) ∧ len = min (n + 1) bytes.length ∧ 0 < len ∧ len ≤ c.output.length ∧
        next = countConsumed compat before { c with output := c.output.drop len } ∧
        actions = [.handed (bytes.take len)] := by
  unfold writeStream at h
  cases hw : r.write with
  | retry =>
    rw [hw] at h
    cases h
    exact .inl ⟨nofun, .inl rfl, rfl⟩
  | failed =>
    rw [hw] at h
    cases h
    exact .inl ⟨nofun, .inr rfl, rfl⟩
  | wrote taken =>
    rw [hw] at h
    dsimp only at h
    split_ifs at h with hNone hShort
    · cases h
      refine .inl ⟨fun hs n ht => ?_, .inr rfl, rfl⟩
      cases ht
      have hPos := length_pos_iff.2 hs
      omega
    · cases h
      obtain ⟨n, rfl⟩ : ∃ n, taken = n + 1 := ⟨taken - 1, by omega⟩
      exact .inr ⟨n, _, rfl, rfl, by omega, by omega, rfl, rfl⟩

lemma writeStream_touches :
    Touches compat c next := by
  rcases writeStream_eq_ok h with ⟨-, rfl | rfl, -⟩ | ⟨n, len, -, -, -, -, rfl, -⟩
  · exact .refl
  · exact writeFailed_touches c
  · exact (Relation.ReflTransGen.single (.output _)).trans (countConsumed_touches before)

end

lemma channelHandleWfd_touches (h : channelHandleWfd compat r c g = .ok (g', next, actions)) :
    Touches compat c next := by
  obtain ⟨-, found, hf, hr⟩ := channelHandleWfd_eq_ok h
  obtain ⟨hs, hd⟩ := fetchOutput_touches hf
  cases found with
  | nothing => rw [hr.1]
  | stops popped =>
    rw [hr.1]
    exact (hs popped rfl).trans (filterStops_touches popped)
  | data bytes popped =>
    apply (hd bytes popped rfl).trans
    split_ifs at hr with hGram
    · have hn : next = (writeDatagram compat r bytes c popped).1 := congrArg Prod.fst hr
      rw [hn]
      exact writeDatagram_touches bytes c
    · exact writeStream_touches hr

@[simp] lemma channelCheckWindow_settings : (channelCheckWindow c).1.toSettings = c.toSettings := by
  unfold channelCheckWindow
  split_ifs <;> rfl

lemma channelPostOpen_eq_ok (h : channelPostOpen compat r c g = .ok (g', next, actions)) :
    ∃ g₁ c₁ first c₂ second, channelHandleRfd compat r c g = .ok (g₁, c₁, first) ∧
      channelHandleWfd compat r c₁ g₁ = .ok (g', c₂, second) ∧
      (next, actions) = if compat.compat20 then
        ((channelCheckWindow c₂).1, first ++ second ++ (channelCheckWindow c₂).2)
        else (c₂, first ++ second) := by
  obtain ⟨⟨g₁, c₁, first⟩, hr, hRest⟩ := bind_eq_ok.1 h
  obtain ⟨⟨g₂, c₂, second⟩, hw, hd⟩ := bind_eq_ok.1 hRest
  split_ifs at hd with hCompat
  · cases hd
    exact ⟨g₁, c₁, first, c₂, second, hr, hw, (if_pos hCompat).symm⟩
  · cases hd
    exact ⟨g₁, c₁, first, next, second, hr, hw, (if_neg hCompat).symm⟩

lemma sessionInputChannelReq_settings (h : sessionInputChannelReq a rtype c = .ok (next, success)) :
    next.toSettings = c.toSettings := by
  unfold sessionInputChannelReq at h
  dsimp only at h
  split_ifs at h
  · cases h
    rfl
  · obtain ⟨answer, -, hd⟩ := bind_eq_ok.1 h
    cases hd
    cases success <;> rfl
  · obtain ⟨answer, -, hd⟩ := bind_eq_ok.1 h
    cases hd
    rfl
  · cases h
    rfl

lemma requestOutcome_settings (h : requestOutcome compat a rtype c = .ok (next, success)) :
    next.toSettings = c.toSettings := by
  unfold requestOutcome at h
  split_ifs at h
  · cases h
    obtain ⟨rfd, istate, hEq, -⟩ := chanRcvdEow_eq compat c
    rw [hEq]
  · exact sessionInputChannelReq_settings h
  · cases h
    rfl

lemma serverInputChannelReq_eq_ok
    (h : serverInputChannelReq compat rtype a c g = .ok (g', next, actions)) :
    g' = { g with sshtype := cstr rtype } ∧ ∃ success,
      requestOutcome compat a (cstr rtype) c = .ok (next, success) ∧
      actions = [.answered (cstr rtype) success] := by
  unfold serverInputChannelReq at h
  dsimp only at h
  split_ifs at h
  obtain ⟨⟨later, success⟩, hHow, hd⟩ := bind_eq_ok.1 h
  cases hd
  exact ⟨rfl, success, hHow, rfl⟩

lemma channelInputData_eq (data : Bytes) : (∃ window consumed, channelInputData compat data c =
      ({ c with localWindow := window, localConsumed := consumed }, [])) ∨
    ∃ window, channelInputData compat data c =
      ({ c with localWindow := window, output := c.output ++ queueEntry c data }, [.queued data]) := by
  unfold channelInputData
  dsimp only
  split_ifs
  · exact .inl ⟨c.localWindow, c.localConsumed, rfl⟩
  · exact .inl ⟨_, _, rfl⟩
  · exact .inl ⟨c.localWindow, c.localConsumed, rfl⟩
  · exact .inl ⟨c.localWindow, c.localConsumed, rfl⟩
  · exact .inr ⟨_, rfl⟩
  · exact .inr ⟨c.localWindow, rfl⟩

lemma handle_data {payload : Payload} (h : handle compat (.data payload) c g = .ok (g', next, actions)) :
    g' = g ∧ channelInputData compat payload.val c = (next, actions) := by
  obtain ⟨rfl, rfl, rfl⟩ := h
  exact ⟨rfl, rfl⟩

lemma handle_settings (h : handle compat call c g = .ok (g', next, actions)) :
    next.toSettings = c.toSettings := by
  cases call with
  | data payload =>
    obtain ⟨-, hData⟩ := handle_data h
    rcases channelInputData_eq payload.val with ⟨window, consumed, hDrop⟩ | ⟨window, hq⟩
    · cases hDrop.symm.trans hData
      rfl
    · cases hq.symm.trans hData
      rfl
  | request rtype a =>
    obtain ⟨-, success, hHow, -⟩ := serverInputChannelReq_eq_ok h
    exact requestOutcome_settings hHow
  | rfd r => exact (channelHandleRfd_reads h).touches.settings
  | wfd r => exact (channelHandleWfd_touches h).settings
  | post r =>
    obtain ⟨g₁, c₁, first, c₂, second, hr, hw, hd⟩ := channelPostOpen_eq_ok h
    have hb : c₂.toSettings = c.toSettings :=
      (channelHandleWfd_touches hw).settings.trans (channelHandleRfd_reads hr).touches.settings
    split_ifs at hd
    · cases hd
      exact channelCheckWindow_settings.trans hb
    · cases hd
      exact hb

def Call.sshtypeAfter (sshtype : Bytes) : Call → Bytes
  | .request rtype _ => cstr rtype
  | _ => sshtype

lemma handle_sshtype (h : handle compat call c g = .ok (g', next, actions)) :
    g'.sshtype = call.sshtypeAfter g.sshtype := by
  cases call with
  | data payload =>
    rw [(handle_data h).1]
    rfl
  | request rtype a =>
    rw [(serverInputChannelReq_eq_ok h).1]
    rfl
  | rfd r => exact (channelHandleRfd_reads h).sshtype
  | wfd r =>
    rw [(channelHandleWfd_eq_ok h).1]
    rfl
  | post r =>
    obtain ⟨g₁, c₁, first, c₂, second, hr, hw, -⟩ := channelPostOpen_eq_ok h
    rw [(channelHandleWfd_eq_ok hw).1]
    exact (channelHandleRfd_reads hr).sshtype

/-- A step is a call on a channel of the table; the other channels stay as they are. -/
lemma step_eq_ok : step s (id, call) = .ok (s', events) ↔ ∃ c g next actions, s.chans id = some c ∧
        handle s.compat call c s.globals = .ok (g, next, actions) ∧
        s' = { s with chans := Function.update s.chans id (some next), globals := g } ∧
        events = actions.map (id, ·) := by
  unfold step
  cases hChan : s.chans id with
  | none => simp [hChan]
  | some c =>
    simp only [hChan, bind_eq_ok, Prod.exists, Option.some.injEq]
    constructor
    · rintro ⟨g, next, actions, hc, hd⟩
      cases hd
      exact ⟨c, g, next, actions, rfl, hc, rfl, rfl⟩
    · rintro ⟨c, g, next, actions, rfl, hc, rfl, rfl⟩
      exact ⟨g, next, actions, hc, rfl⟩

@[simp] lemma actionsOn_append (id : Nat) (first rest : List (Nat × Action)) :
    actionsOn id (first ++ rest) = actionsOn id first ++ actionsOn id rest :=
  filterMap_append ..

@[simp] lemma actionsOn_self (id : Nat) (actions : List Action) :
    actionsOn id (actions.map (id, ·)) = actions := by
  simp [actionsOn, seenOn, filterMap_map, Function.comp_def]

lemma actionsOn_of_ne (h : other ≠ id) (actions : List Action) :
    actionsOn id (actions.map (other, ·)) = [] := by
  simp [actionsOn, seenOn, filterMap_map, Function.comp_def, h]

lemma step_sshtype (h : step s (id, call) = .ok (s', events)) :
    s'.globals.sshtype = call.sshtypeAfter s.globals.sshtype := by
  obtain ⟨c, g, next, actions, -, hh, rfl, -⟩ := step_eq_ok.1 h
  exact handle_sshtype hh

/-- A step seen from one channel: its own call, or nothing. -/
lemma step_channel (hc : s.chans id = some c) (h : step s (other, call) = .ok (s', events)) :
    (other = id ∧ ∃ g next, handle s.compat call c s.globals = .ok (g, next, actionsOn id events) ∧
      s'.chans id = some next) ∨ (other ≠ id ∧ actionsOn id events = [] ∧ s'.chans id = some c) := by
  obtain ⟨d, g, next, actions, ho, hh, rfl, rfl⟩ := step_eq_ok.1 h
  by_cases hId : other = id
  · subst hId
    obtain rfl : d = c := Option.some.inj (ho.symm.trans hc)
    rw [actionsOn_self]
    exact .inl ⟨rfl, g, next, hh, Function.update_self ..⟩
  · refine .inr ⟨hId, actionsOn_of_ne hId actions, ?_⟩
    exact (Function.update_of_ne (Ne.symm hId) ..).trans hc

/-! A small connection for the concrete runs of the following modules. -/

def quietRound : Round where
  readable := false
  writable := false
  read := .again
  write := .retry
  now := ⟨0, 0⟩
  later := ⟨0, 0⟩
  db := ⟨true, fun _ => true⟩
  stale := none
  after := []
  rodata := fun _ => []

def freshSession : Chan where
  ctype := text "session"
  logfd := true
  logfdTime := true
  datagram := false
  inputFilter := false
  outputFilter := false
  localMaxpacket := 32768
  type := .larval
  rfd := false
  wfd := false
  sock := false
  isatty := false
  detachClose := false
  istate := .opened
  ostate := .opened
  closeSent := false
  closeRcvd := false
  input := []
  output := []
  localWindow := 0
  localWindowMax := 0
  localConsumed := 0

def twoSessions : Server where
  compat := ⟨false, true⟩
  chans := fun id => if id < 2 then some freshSession else none
  globals := ⟨[], ⟨0, 0⟩, text "alice", [], Emulator.start⟩

def accepted : SessionAnswer := ⟨true, .ok true, false, true⟩

def reads (bytes : Bytes) : Round := { quietRound with readable := true, read := .data bytes }

end Channel
