import Sshfortress.Channel.Recording
import Sshfortress.Channel.Relay

/-! When the commands of a session are extracted. The branch that does it is entered
if the bytes queued for the target are, at that moment, a lone carriage return, and
something is read in the same round. So it is entered once for every carriage return
only if the client's bytes arrive, and are written, in step with the reads. -/
namespace Channel
open Base Base.Transition List

variable {compat : Compat} {r : Round} {c next : Chan} {g g' : Globals} {actions first rest : List Action}

def Brings (r : Round) (c : Chan) : Prop := ∃ chunk, readTarget r c = .chunk chunk

def Takes (r : Round) : Prop := ∃ count, r.write = .wrote (count + 1)

def Fetches (r : Round) (c : Chan) : Bool := c.wfd && r.writable && c.output ≠ []

/-- The extraction branch is entered once for every carriage return handed to the
target. -/
def EntersPerReturn (actions : List Action) : Prop :=
  actions.count .extracted = (handedChunks actions).flatten.count 13

lemma EntersPerReturn.append (hf : EntersPerReturn first) (hr : EntersPerReturn rest) :
    EntersPerReturn (first ++ rest) := by
  unfold EntersPerReturn at *
  rw [count_append, handedChunks_append, flatten_append, count_append, hf, hr]

/-- A recorded shell: a stream channel with both files and no filters. -/
structure Settings.Shell (settings : Settings) : Prop extends settings.Played where
  plain : settings.outputFilter = false

variable {k : Option Keys}

lemma readSide_cases (hs : c.Shell) (ht : recordable g.sshtype = true)
    (h : readSide compat r k c g = .ok (g', next, actions)) :
    (¬ Brings r c ∧ actions = []) ∨ ∃ chunk files rows, readTarget r c = .chunk chunk ∧
        actions = files ++ rows ++ [.relayed chunk] ∧
        next = { c with input := c.input ++ chunk } ∧
        files.count .extracted = 0 ∧ (∀ keys, .considered keys ∉ files) ∧
        ((k = none ∧ rows = []) ∨ ∃ keys sent, k = some keys ∧ rows = .considered keys :: sent ∧
          considerKeys r keys chunk { g with oldtime := r.now } = .ok (g', sent)) := by
  rcases readSide_eq_ok h with ⟨hn, -, -, rfl⟩ | ⟨hf, -, -, rfl⟩ | ⟨chunk, hc, hr⟩
  · refine .inl ⟨?_, rfl⟩
    rintro ⟨chunk, hc⟩
    rw [hn] at hc
    cases hc
  · refine .inl ⟨?_, rfl⟩
    rintro ⟨chunk, hc⟩
    rw [hf] at hc
    cases hc
  · obtain ⟨records, rfl, hNext, ⟨-, hRec⟩ | ⟨hOff, -, -⟩⟩ :=
      relayChunk_eq_ok hs.unfiltered hs.stream hr
    · obtain ⟨delta, rows, rfl, -, hRows⟩ := recordChunk_eq_ok hRec
      rw [if_pos hs.time]
      refine .inr ⟨chunk, _, rows, hc, rfl, hNext, rfl, by simp, ?_⟩
      rcases hRows with ⟨hn, he, -⟩ | hk
      · exact .inl ⟨hn, he⟩
      · exact .inr hk
    · rw [hs.log, ht] at hOff
      cases hOff

lemma considerKeys_count {k : Keys} {chunk : Bytes} (h : considerKeys r k chunk g = .ok (g', actions)) :
    actions.count .extracted = if k.is r.rodata (text "\r") then 1 else 0 := by
  obtain ⟨-, ⟨ho, rfl⟩ | ⟨hr, sent, rfl⟩⟩ := considerKeys_eq_ok h
  · rw [ho]
    rfl
  · rw [hr, count_cons_self, if_pos rfl]
    have hq : (sent.map Action.queried).count .extracted = 0 := by
      apply count_eq_zero.2
      intro hMem
      obtain ⟨sql, -, hEq⟩ := mem_map.1 hMem
      cases hEq
    rw [hq]

lemma readSide_unkeyed (hShell : c.Shell) (ht : recordable g.sshtype = true)
    (hn : Brings r c → k = none) (h : readSide compat r k c g = .ok (g', next, actions)) :
    actions.count .extracted = 0 ∧ ∀ keys, .considered keys ∉ actions := by
  rcases readSide_cases hShell ht h with ⟨-, rfl⟩ | ⟨chunk, files, rows, hChunk, rfl, -, hf, hc, hr⟩
  · simp
  · rcases hr with ⟨-, rfl⟩ | ⟨keys, sent, hs, -, -⟩
    · constructor
      · simp [count_append, hf]
      · simpa using hc
    · rw [hn ⟨chunk, hChunk⟩] at hs
      cases hs

lemma readSide_keyed {keys : Keys} (hs : c.Shell) (ht : recordable g.sshtype = true)
    (h : readSide compat r (some keys) c g = .ok (g', next, actions)) :
    (¬ Brings r c ∧ actions.count .extracted = 0) ∨
      (Brings r c ∧ actions.count .extracted = (if keys.is r.rodata (text "\r") then 1 else 0) ∧
        ∃ chunk, next = { c with input := c.input ++ chunk }) := by
  rcases readSide_cases hs ht h with ⟨hn, rfl⟩ | ⟨chunk, files, rows, hc, rfl, hNext, hf, -, hr⟩
  · exact .inl ⟨hn, rfl⟩
  · rcases hr with ⟨ha, -⟩ | ⟨found, sent, hSome, rfl, hk⟩
    · cases ha
    · cases hSome
      refine .inr ⟨⟨chunk, hc⟩, ?_, chunk, hNext⟩
      have hSent := considerKeys_count hk
      rw [count_append, count_append, count_cons_of_ne (by simp), hf, hSent]
      simp

lemma readFailed_queue : (readFailed compat c).wfd = c.wfd ∧
    ((readFailed compat c).output = c.output ∨ (readFailed compat c).output = []) := by
  unfold readFailed
  split_ifs
  · exact ⟨rfl, .inl rfl⟩
  · exact ⟨rfl, .inr rfl⟩
  · obtain ⟨rfd, istate, hEq, -⟩ := chanReadFailed_eq compat c
    rw [hEq]
    exact ⟨rfl, .inl rfl⟩

lemma readSide_queue (hf : c.inputFilter = false) (hs : c.datagram = false)
    (h : readSide compat r k c g = .ok (g', next, actions)) :
    next.wfd = c.wfd ∧ (next.output = c.output ∨ next.output = []) := by
  rcases readSide_eq_ok h with ⟨-, -, rfl, -⟩ | ⟨-, -, rfl, -⟩ | ⟨chunk, -, hr⟩
  · exact ⟨rfl, .inl rfl⟩
  · exact readFailed_queue
  · obtain ⟨records, -, rfl, -⟩ := relayChunk_eq_ok hf hs hr
    exact ⟨rfl, .inl rfl⟩

lemma channelHandleWfd_stream (hPlain : c.outputFilter = false) (hs : c.datagram = false)
    (h : channelHandleWfd compat r c g = .ok (g', next, actions)) :
    (actions = [] ∧ (Fetches r c = true → ¬ Takes r)) ∨
      (Fetches r c = true ∧ ∃ count, r.write = .wrote (count + 1) ∧
        actions = [.handed (c.output.take (count + 1))]) := by
  obtain ⟨-, found, hFetch, hr⟩ := channelHandleWfd_eq_ok h
  rcases fetchOutput_eq_ok hFetch with ⟨hn, rfl⟩ | ⟨hp, ⟨-, -, rfl⟩ | ⟨hPops, -⟩⟩
  · refine .inl ⟨hr.2, fun hf => ?_⟩
    rw [show Fetches r c = false from hn] at hf
    cases hf
  · dsimp only at hr
    rw [hs] at hr
    have hSome : c.output ≠ [] := by
      simp only [Bool.and_eq_true, decide_eq_true_eq] at hp
      exact hp.2
    rcases writeStream_eq_ok hr with ⟨hn, -, rfl⟩ | ⟨n, len, hw, rfl, -, -, -, rfl⟩
    · exact .inl ⟨rfl, fun _ ⟨count, hc⟩ => hn hSome count hc⟩
    · exact .inr ⟨hp, n, hw, by rw [← take_eq_take_min]⟩
  · rw [hPlain, hs] at hPops
    simp at hPops

/-- The condition on a round. Queued bytes that can be written are free of carriage
returns, or they are one carriage return and the round brings something exactly if
it takes something. If no bytes can be written, a round that brings something finds
the stale pointer to be null. -/
def KeyedRound (r : Round) (c : Chan) : Prop :=
  (Fetches r c = true → 13 ∉ c.output ∨ (c.output = [13] ∧ (Brings r c ↔ Takes r))) ∧
    (Fetches r c = false → Brings r c → r.stale = none)

lemma channelHandleRfd_stream {found : Fetched} (hs : c.Shell)
    (hf : fetchOutput r.writable c = .ok found) :
    (Fetches r c = false ∧ found = .nothing) ∨ (Fetches r c = true ∧ found = .data c.output c) := by
  rcases fetchOutput_eq_ok hf with ⟨hn, rfl⟩ | ⟨hPend, ⟨-, -, rfl⟩ | ⟨hp, -⟩⟩
  · exact .inl ⟨hn, rfl⟩
  · exact .inr ⟨hPend, rfl⟩
  · rw [hs.plain, hs.stream] at hp
    simp at hp

lemma fetches_of_queue (hq : next.wfd = c.wfd ∧ (next.output = c.output ∨ next.output = []))
    (hn : Fetches r c = false) : Fetches r next = false := by
  unfold Fetches at *
  rcases hq with ⟨hWfd, hOut | hOut⟩
  · rw [hWfd, hOut]
    exact hn
  · simp [hOut]

lemma channelHandleWfd_extracted (hp : c.outputFilter = false) (hs : c.datagram = false)
    (h : channelHandleWfd compat r c g = .ok (g', next, actions)) : actions.count .extracted = 0 := by
  rcases channelHandleWfd_stream hp hs h with ⟨rfl, -⟩ | ⟨-, count, -, rfl⟩
  · rfl
  · rfl

lemma readSide_shell (hs : c.Shell) (h : readSide compat r k c g = .ok (g', next, actions)) :
    next.Shell :=
  (readSide_reads h).touches.settings ▸ hs

section Round

variable {g₁ : Globals} {c₁ : Chan}

section
variable (hs : c.Shell)
include hs

lemma unkeyed_round (ht : recordable g.sshtype = true)
    (hn : Fetches r c = false) (hStale : Brings r c → r.stale = none)
    (hSide : readSide compat r r.stale c g = .ok (g₁, c₁, first))
    (hw : channelHandleWfd compat r c₁ g₁ = .ok (g', next, rest)) :
    first.count .extracted = 0 ∧ (∀ keys, .considered keys ∉ first) ∧ rest = [] := by
  obtain ⟨hFirst, hFirstKeys⟩ := readSide_unkeyed hs ht hStale hSide
  have hs₁ := readSide_shell hs hSide
  have hq := readSide_queue hs.unfiltered hs.stream hSide
  refine ⟨hFirst, hFirstKeys, ?_⟩
  rcases channelHandleWfd_stream hs₁.plain hs₁.stream hw with ⟨he, -⟩ | ⟨hf, -⟩
  · exact he
  · rw [fetches_of_queue hq hn] at hf
    cases hf

lemma mem_of_handed (h : channelHandleWfd compat r c g = .ok (g', next, actions))
    {x : UInt8} (hx : x ∈ (handedChunks actions).flatten) : x ∈ c.output := by
  rcases channelHandleWfd_stream hs.plain hs.stream h with ⟨rfl, -⟩ | ⟨-, count, -, rfl⟩
  · cases hx
  · simp only [handedChunks, filterMap_cons, filterMap_nil, flatten_cons, flatten_nil, append_nil] at hx
    exact mem_of_mem_take hx

lemma free_round (hType : recordable g.sshtype = true) (hNe : c.output ≠ []) (hf : 13 ∉ c.output)
    (hSide : readSide compat r (some ⟨c.output ++ r.after, c.output.length⟩) c g =
      .ok (g₁, c₁, first)) (hw : channelHandleWfd compat r c₁ g₁ = .ok (g', next, rest)) :
    first.count .extracted = 0 ∧ (handedChunks rest).flatten.count 13 = 0 := by
  have hIs := @is_return_of_notMem r.rodata c.output r.after hNe hf
  have hq := readSide_queue hs.unfiltered hs.stream hSide
  constructor
  · rcases readSide_keyed hs hType hSide with ⟨-, hz⟩ | ⟨-, hc, -⟩
    · exact hz
    · rw [hc, hIs]
      rfl
  · apply count_eq_zero.2
    intro hMem
    have ht := mem_of_handed (readSide_shell hs hSide) hw hMem
    rcases hq.2 with hSame | he
    · exact hf (hSame ▸ ht)
    · rw [he] at ht
      cases ht

lemma return_round (hType : recordable g.sshtype = true)
    (hf : Fetches r c = true) (hReturn : c.output = [13]) (hb : Brings r c ↔ Takes r)
    (hSide : readSide compat r (some ⟨c.output ++ r.after, c.output.length⟩) c g =
      .ok (g₁, c₁, first)) (hWrite : channelHandleWfd compat r c₁ g₁ = .ok (g', next, rest)) :
    first.count .extracted = (handedChunks rest).flatten.count 13 := by
  have hs₁ := readSide_shell hs hSide
  have hw := channelHandleWfd_stream hs₁.plain hs₁.stream hWrite
  rcases readSide_keyed hs hType hSide with ⟨hq, hz⟩ | ⟨hBrings, hc, chunk, hn⟩
  · have hr : ¬ Takes r := fun ht => hq (hb.2 ht)
    rw [hz]
    rcases hw with ⟨rfl, -⟩ | ⟨-, count, hTaken, -⟩
    · rfl
    · exact absurd ⟨count, hTaken⟩ hr
  · have hIs : Keys.is r.rodata ⟨c.output ++ r.after, c.output.length⟩ (text "\r") = true := by
      rw [hReturn]
      exact is_return_single r.rodata r.after
    have hOut : c₁.output = [13] := by rw [hn, ← hReturn]
    have hStill : Fetches r c₁ = true := by
      rw [hn]
      exact hf
    rw [hc, hIs]
    rcases hw with ⟨-, hr⟩ | ⟨-, count, -, rfl⟩
    · exact absurd (hb.1 hBrings) (hr hStill)
    · rw [hOut]
      simp [handedChunks]

/-- A round that meets the condition enters the branch as often as it hands on a
carriage return, and without pending bytes it considers no keys. -/
lemma readWrite_entersPerReturn (ht : recordable g.sshtype = true)
    (hr : KeyedRound r c) (hRead : channelHandleRfd compat r c g = .ok (g₁, c₁, first))
    (hw : channelHandleWfd compat r c₁ g₁ = .ok (g', next, rest)) :
    EntersPerReturn (first ++ rest) ∧ (c.output = [] → ∀ keys, .considered keys ∉ first ++ rest) := by
  have hs₁ : c₁.Shell := (channelHandleRfd_reads hRead).touches.settings ▸ hs
  have hRest := channelHandleWfd_extracted hs₁.plain hs₁.stream hw
  have hh := handedChunks_ofRead ((channelHandleRfd_reads hRead).ofRead)
  obtain ⟨found, hFetch, hSide⟩ := channelHandleRfd_eq_ok hRead
  unfold EntersPerReturn
  rw [count_append, hRest, handedChunks_append, hh, nil_append, Nat.add_zero]
  rcases channelHandleRfd_stream hs hFetch with ⟨hn, rfl⟩ | ⟨hSome, rfl⟩
  · obtain ⟨hf, hk, rfl⟩ := unkeyed_round hs ht hn (hr.2 hn) hSide hw
    rw [append_nil]
    exact ⟨hf, fun _ => hk⟩
  · have hNe : c.output ≠ [] := by
      simp only [Fetches, Bool.and_eq_true, decide_eq_true_eq] at hSome
      exact hSome.2
    refine ⟨?_, fun he => absurd he hNe⟩
    rcases hr.1 hSome with hFree | ⟨hReturn, hb⟩
    · obtain ⟨hf, hSnd⟩ := free_round hs ht hNe hFree hSide hw
      rw [hf, hSnd]
    · exact return_round hs ht hSome hReturn hb hSide hw

end

end Round

/-- Reads and writes happen in rounds, and the rounds meet the condition. -/
def KeyedCall (c : Chan) : Call → Prop
  | .post r => KeyedRound r c
  | .rfd _ | .wfd _ => False
  | _ => True

lemma handle_entersPerReturn {call : Call} (hs : c.Shell)
    (ht : recordable g.sshtype = true) (hc : KeyedCall c call)
    (h : handle compat call c g = .ok (g', next, actions)) :
    EntersPerReturn actions ∧ (c.output = [] → ∀ keys, .considered keys ∉ actions) := by
  cases call with
  | data payload =>
    obtain ⟨-, hData⟩ := handle_data h
    rcases channelInputData_eq payload.val with ⟨window, consumed, hDrop⟩ | ⟨window, hq⟩
    · cases hDrop.symm.trans hData
      exact ⟨rfl, by simp⟩
    · cases hq.symm.trans hData
      exact ⟨rfl, by simp⟩
  | request rtype a =>
    obtain ⟨-, success, -, rfl⟩ := serverInputChannelReq_eq_ok h
    exact ⟨rfl, by simp⟩
  | rfd r => exact hc.elim
  | wfd r => exact hc.elim
  | post r =>
    obtain ⟨g₁, c₁, first, c₂, second, hr, hw, hd⟩ := channelPostOpen_eq_ok h
    obtain ⟨he, hi⟩ := readWrite_entersPerReturn hs ht hc hr hw
    split_ifs at hd
    · cases hd
      have hWin : EntersPerReturn (channelCheckWindow c₂).2 ∧
        ∀ keys, .considered keys ∉ (channelCheckWindow c₂).2 := by
        unfold channelCheckWindow
        split_ifs
        · exact ⟨rfl, by simp⟩
        · exact ⟨rfl, by simp⟩
      refine ⟨he.append hWin.1, fun hEmpty keys hMem => ?_⟩
      rcases mem_append.1 hMem with hb | hl
      · exact hi hEmpty keys hb
      · exact hWin.2 keys hl
    · cases hd
      exact ⟨he, hi⟩

/-- The condition on one step of a connection with a recorded shell. -/
def Segmented (id : Nat) (s : Server) (input : Nat × Call) : Prop :=
  RecordableCall input ∧ (input.1 = id → ∀ c, s.chans id = some c → KeyedCall c input.2)

/-- Whatever this step does, it takes no keys into account if none are pending. -/
def IgnoresIdle (id : Nat) (s : Server) (input : Nat × Call) : Prop :=
  ∀ c next events, s.chans id = some c → c.output = [] → step s input = .ok (next, events) →
    ∀ keys, .considered keys ∉ actionsOn id events

def HasShell (id : Nat) (s : Server) : Prop :=
  recordable s.globals.sshtype = true ∧ ∃ c, s.chans id = some c ∧ c.Shell

variable {s : Server} {id : Nat} {events : List (Nat × Action)}

lemma step_entersPerReturn {s' : Server} {input : Nat × Call} (hHas : HasShell id s)
    (hCall : Segmented id s input) (hStep : step s input = .ok (s', events)) :
    HasShell id s' ∧ EntersPerReturn (actionsOn id events) ∧
      ∀ c, s.chans id = some c → c.output = [] → ∀ keys, .considered keys ∉ actionsOn id events := by
  obtain ⟨ht, c, hc, hs⟩ := hHas
  obtain ⟨hReq, hk⟩ := hCall
  obtain ⟨other, call⟩ := input
  have hn : recordable s'.globals.sshtype = true := by
    rw [step_sshtype hStep]
    exact sshtypeAfter_recordable ht hReq
  rcases step_channel hc hStep with ⟨hId, g, next, hh, hNext⟩ | ⟨-, hNone, hSame⟩
  · obtain ⟨he, hi⟩ := handle_entersPerReturn hs ht (hk hId c hc) hh
    refine ⟨⟨hn, next, hNext, handle_settings hh ▸ hs⟩, he, ?_⟩
    intro found hf hEmpty
    obtain rfl : found = c := Option.some.inj (hf.symm.trans hc)
    exact hi hEmpty
  · rw [hNone]
    exact ⟨⟨hn, c, hSame, hs⟩, rfl, by simp⟩

/-- One run of a connection with a recorded shell. -/
lemma run_entersPerReturn {last : Server} {calls : List (Nat × Call)} (hHas : HasShell id s)
    (ha : Along step (Segmented id) s calls) (hRun : run step s calls = .ok (last, events)) :
    EntersPerReturn (actionsOn id events) ∧ Along step (IgnoresIdle id) s calls := by
  constructor
  · have hEnd : HasShell id last ∧ EntersPerReturn (actionsOn id events) := by
      refine run_events (fun server past => HasShell id server ∧ EntersPerReturn (actionsOn id past))
        ?_ ⟨hHas, rfl⟩ ha hRun
      intro server past input next shown hh hc hs
      obtain ⟨hn, hShown, -⟩ := step_entersPerReturn hh.1 hc hs
      rw [actionsOn_append]
      exact ⟨hn, hh.2.append hShown⟩
    exact hEnd.2
  · refine along_of_invariant (HasShell id) ?_ hHas ha
    intro server input hServer hc
    constructor
    · intro c next shown hChan he hs
      exact (step_entersPerReturn hServer hc hs).2.2 c hChan he
    · intro next shown hs
      exact (step_entersPerReturn hServer hc hs).1

/-- Two runs of the same connection that cut and interleave the client's bytes in
different ways, each within the condition: both enter the branch once for every
carriage return, neither looks at keys that are not there, and if the same bytes
reach the target the branch is entered equally often. -/
theorem segmentations_enterPerReturn {s last₁ last₂ : Server} {id : Nat}
    {calls₁ calls₂ : List (Nat × Call)} {events₁ events₂ : List (Nat × Action)} (hHas : HasShell id s)
    (hAlong₁ : Along step (Segmented id) s calls₁) (hAlong₂ : Along step (Segmented id) s calls₂)
    (hRun₁ : run step s calls₁ = .ok (last₁, events₁)) (hRun₂ : run step s calls₂ = .ok (last₂, events₂)) :
    (EntersPerReturn (actionsOn id events₁) ∧ EntersPerReturn (actionsOn id events₂)) ∧
    (Along step (IgnoresIdle id) s calls₁ ∧ Along step (IgnoresIdle id) s calls₂) ∧
    ((handedChunks (actionsOn id events₁)).flatten = (handedChunks (actionsOn id events₂)).flatten →
      (actionsOn id events₁).count .extracted = (actionsOn id events₂).count .extracted) := by
  obtain ⟨hEnters₁, hIdle₁⟩ := run_entersPerReturn hHas hAlong₁ hRun₁
  obtain ⟨hEnters₂, hIdle₂⟩ := run_entersPerReturn hHas hAlong₂ hRun₂
  refine ⟨⟨hEnters₁, hEnters₂⟩, ⟨hIdle₁, hIdle₂⟩, ?_⟩
  intro hSame
  calc
    (actionsOn id events₁).count .extracted
      = (handedChunks (actionsOn id events₁)).flatten.count 13 := hEnters₁
    _ = (handedChunks (actionsOn id events₂)).flatten.count 13 := by rw [hSame]
    _ = (actionsOn id events₂).count .extracted := hEnters₂.symm

def answers (bytes : Bytes) : Round :=
  { reads bytes with writable := true, write := .wrote bytes.length }

def shellServer : Server :=
  { oneSession openSession with globals := { twoSessions.globals with sshtype := text "shell" } }

/-- The client sends a carriage return, which is written when its echo is read. -/
def entered : List (Nat × Call) :=
  [(0, .data ⟨text "\r", by decide⟩), (0, .post (answers (text "\r\n")))]

/-- The same with a round in between in which the target is not ready. -/
def enteredLater : List (Nat × Call) :=
  [(0, .data ⟨text "\r", by decide⟩), (0, .post quietRound), (0, .post (answers (text "\r\n")))]

theorem segmentations_enterPerReturn_once : ∃ last₁ last₂ events₁ events₂,
    run step shellServer entered = .ok (last₁, events₁) ∧
    run step shellServer enteredLater = .ok (last₂, events₂) ∧
    EntersPerReturn (actionsOn 0 events₁) ∧ EntersPerReturn (actionsOn 0 events₂) ∧
    (actionsOn 0 events₁).count .extracted = (actionsOn 0 events₂).count .extracted := by
  have hShell : HasShell 0 shellServer :=
    ⟨by decide, openSession, rfl, ⟨⟨rfl, rfl, rfl, rfl⟩, rfl⟩⟩
  have hReturn : ∀ c : Chan, c.output = [13] → c.rfd = true → KeyedRound (answers (text "\r\n")) c := by
    intro c hOutput hRfd
    refine ⟨fun _ => .inr ⟨hOutput, ⟨fun _ => ⟨1, rfl⟩, fun _ => ⟨text "\r\n", ?_⟩⟩⟩, fun _ _ => rfl⟩
    unfold readTarget
    rw [hRfd, show (answers (text "\r\n")).readable = true from rfl, Bool.or_true]
    rfl
  have hAlong₁ : Along step (Segmented 0) shellServer entered := by
    refine ⟨⟨trivial, fun _ _ _ => trivial⟩, fun next events hData => ?_⟩
    cases hData
    refine ⟨⟨trivial, fun _ c hChan => ?_⟩, fun _ _ _ => trivial⟩
    cases hChan
    exact hReturn _ (by decide) rfl
  have hAlong₂ : Along step (Segmented 0) shellServer enteredLater := by
    refine ⟨⟨trivial, fun _ _ _ => trivial⟩, fun next events hData => ?_⟩
    cases hData
    refine ⟨⟨trivial, fun _ c hChan => ?_⟩, fun next events hQuiet => ?_⟩
    · cases hChan
      exact ⟨fun hFetches => absurd hFetches (by decide), fun _ _ => rfl⟩
    · cases hQuiet
      refine ⟨⟨trivial, fun _ c hChan => ?_⟩, fun _ _ _ => trivial⟩
      cases hChan
      exact hReturn _ (by decide) rfl
  refine ⟨_, _, _, _, rfl, rfl, ?_⟩
  obtain ⟨⟨hEnters₁, hEnters₂⟩, -, hSame⟩ :=
    segmentations_enterPerReturn hShell hAlong₁ hAlong₂ rfl rfl
  exact ⟨hEnters₁, hEnters₂, hSame (by decide)⟩

def typed : List (Nat × Call) :=
  [(0, .data ⟨text "l", by decide⟩), (0, .post (answers (text "l"))),
    (0, .data ⟨text "s", by decide⟩), (0, .post (answers (text "s"))),
    (0, .data ⟨text "\r", by decide⟩), (0, .post (answers (text "\r\n")))]

def pasted : List (Nat × Call) :=
  [(0, .data ⟨text "ls\r", by decide⟩), (0, .post (answers (text "ls\r\n")))]

/-- The typed command is extracted; the pasted one reaches the target without the
extraction branch being entered. -/
theorem pasted_command_escapes : ∃ last₁ last₂ events₁ events₂,
    run step shellServer typed = .ok (last₁, events₁) ∧ run step shellServer pasted = .ok (last₂, events₂) ∧
    (handedChunks (actionsOn 0 events₁)).flatten = text "ls\r" ∧
    (handedChunks (actionsOn 0 events₂)).flatten = text "ls\r" ∧
    EntersPerReturn (actionsOn 0 events₁) ∧ ¬ EntersPerReturn (actionsOn 0 events₂) := by
  refine ⟨_, _, _, _, rfl, rfl, by decide, by decide, ?_, ?_⟩
  · unfold EntersPerReturn
    decide
  · unfold EntersPerReturn
    decide

end Channel
