import Sshfortress.Base.Credit
import Sshfortress.Channel.Close

/-! Flow control of protocol 2: the two ends of one stream channel, joined by links that
keep the order of messages. The windows of the two ends are one account of credit in
each direction. -/
namespace Channel
open Base Base.Transition Base.Credit List

inductive Side where
  | near
  | far
  deriving DecidableEq

def Side.peer : Side → Side
  | .near => .far
  | .far => .near

@[simp] lemma Side.peer_peer (side : Side) : side.peer.peer = side := by cases side <;> rfl

@[simp] lemma Side.peer_ne (side : Side) : side.peer ≠ side := by cases side <;> simp [Side.peer]

@[simp] lemma Side.ne_peer (side : Side) : side ≠ side.peer := side.peer_ne.symm

lemma Side.eq_or_peer (side other : Side) : other = side ∨ other = side.peer := by
  cases side <;> cases other <;> simp [Side.peer]

/-- Both ends of the channel, and the messages on their way to each, the oldest first. -/
structure Pair where
  chan : Side → Chan2
  toward : Side → List Message

/-- What an end can do next. Everything that arrives is a message of the other end. -/
inductive Turn where
  | rfd (r : Round) (g : Globals)
  | wfd (r : Round) (g : Globals)
  | efd (r : Round)
  | preOpen
  | checkWindow
  | outputPoll
  | deliver

def Pair.after (s : Pair) (side : Side) (next : Chan2) (sent : List Message) : Pair where
  chan := Function.update s.chan side next
  toward := Function.update s.toward side.peer (s.toward side.peer ++ sent)

def Pair.taken (s : Pair) (side : Side) (rest : List Message) : Pair :=
  { s with toward := Function.update s.toward side rest }

def work (fellows : Datafellows) (c : Chan2) : Turn → Except Stop (Chan2 × List Message)
  | .rfd r g => channelHandleRfd2 fellows r g c
  | .wfd r g => channelHandleWfd2 fellows r g c
  | .efd r => .ok (channelHandleEfd r c, [])
  | .preOpen => .ok (channelPreOpen c, [])
  | .checkWindow => .ok (channelCheckWindow2 c)
  | .outputPoll => channelOutputPoll c
  | .deliver => .ok (c, [])

def flowStep (fellows : Datafellows) (s : Pair) : Side × Turn → Except Stop (Pair × List Message)
  | (side, .deliver) =>
    match s.toward side with
    | [] => .ok (s, [])
    | message :: rest =>
      (channelInput fellows message (s.chan side)).map fun out =>
        ((s.taken side rest).after side out.1 out.2, out.2)
  | (side, turn) =>
    (work fellows (s.chan side) turn).map fun out => (s.after side out.1 out.2, out.2)

/-! The account of one direction. -/

def Message.dataLength : Message → Nat
  | .data bytes => bytes.length
  | .extendedData _ bytes => bytes.length
  | _ => 0

def Message.adjustment : Message → Nat
  | .windowAdjust adjust => adjust.toNat
  | _ => 0

def dataBytes (messages : List Message) : Nat := (messages.map Message.dataLength).sum

def adjustBytes (messages : List Message) : Nat := (messages.map Message.adjustment).sum

/-- Extended data that was received and is not written yet. On a side that reads extended
data from its own descriptor the buffer holds what is to be sent. -/
def receivedExtended (c : Chan2) : Nat :=
  if c.extendedUsage = .write then c.extended.length else 0

def heldBytes (c : Chan2) : Nat := c.localConsumed.toNat + c.output.length + receivedExtended c

def Pair.account (s : Pair) (side : Side) : Account where
  granted := (s.chan side.peer).remoteWindow.toNat
  flying := dataBytes (s.toward side)
  returning := adjustBytes (s.toward side.peer)
  window := (s.chan side).localWindow.toNat
  held := heldBytes (s.chan side)

@[simp] lemma dataBytes_nil : dataBytes [] = 0 := rfl

@[simp] lemma adjustBytes_nil : adjustBytes [] = 0 := rfl

@[simp] lemma dataBytes_cons (message : Message) (rest : List Message) :
    dataBytes (message :: rest) = message.dataLength + dataBytes rest := by simp [dataBytes]

@[simp] lemma adjustBytes_cons (message : Message) (rest : List Message) :
    adjustBytes (message :: rest) = message.adjustment + adjustBytes rest := by simp [adjustBytes]

@[simp] lemma dataBytes_append (front back : List Message) :
    dataBytes (front ++ back) = dataBytes front + dataBytes back := by simp [dataBytes]

@[simp] lemma adjustBytes_append (front back : List Message) :
    adjustBytes (front ++ back) = adjustBytes front + adjustBytes back := by simp [adjustBytes]

variable {c next : Chan2} {sent rest : List Message} {s : Pair} {message : Message} {side : Side}
  {fellows : Datafellows} {r : Round} {g : Globals} {messages : List Message} {middle : Chan2}
  {actions : List Action} {window adjust : UInt32} {n : Nat} {data : Bytes}

lemma dataLength_le (h : message ∈ messages) : message.dataLength ≤ dataBytes messages :=
  le_sum_of_mem (mem_map_of_mem h)

lemma adjustment_le (h : message ∈ messages) : message.adjustment ≤ adjustBytes messages :=
  le_sum_of_mem (mem_map_of_mem h)

/-! What an end does by itself. -/

structure Plain (c : Chan2) : Prop where
  type : c.type = .opened
  datagram : c.datagram = false
  inputFilter : c.inputFilter = false
  outputFilter : c.outputFilter = false

def Roomy (c : Chan2) : Prop := c.localWindow.toNat + heldBytes c ≤ c.localWindowMax.toNat

structure SameTerms (c next : Chan2) : Prop where
  settings : next.toSettings = c.toSettings
  type : next.type = c.type
  localWindowMax : next.localWindowMax = c.localWindowMax
  remoteMaxpacket : next.remoteMaxpacket = c.remoteMaxpacket
  extendedUsage : next.extendedUsage = c.extendedUsage

/-- A message within the terms of its sender. -/
def Message.MeetsTerms (c : Chan2) : Message → Prop
  | .data bytes => bytes.length ≤ c.remoteMaxpacket.toNat
  | .extendedData code bytes =>
    code = extendedDataStderr ∧ c.extendedUsage = .read ∧ bytes.length ≤ c.remoteMaxpacket.toNat
  | _ => True

/-- Credit is spent on the data that is sent, and given back from what is held. -/
structure Works (c next : Chan2) (sent : List Message) : Prop where
  terms : SameTerms c next
  spends : next.remoteWindow.toNat + dataBytes sent = c.remoteWindow.toNat
  adjusts : next.localWindow.toNat = c.localWindow.toNat + adjustBytes sent
  holds : heldBytes next + adjustBytes sent ≤ heldBytes c
  meets : ∀ message ∈ sent, message.MeetsTerms c

lemma SameTerms.trans (front : SameTerms c middle) (back : SameTerms middle next) : SameTerms c next where
  settings := back.settings.trans front.settings
  type := back.type.trans front.type
  localWindowMax := back.localWindowMax.trans front.localWindowMax
  remoteMaxpacket := back.remoteMaxpacket.trans front.remoteMaxpacket
  extendedUsage := back.extendedUsage.trans front.extendedUsage

lemma SameTerms.plain (h : SameTerms c next) (hp : Plain c) : Plain next := by
  have hSet := h.settings
  constructor
  · rw [h.type, hp.type]
  · rw [show next.datagram = c.datagram from congrArg Settings.datagram hSet, hp.datagram]
  · rw [show next.inputFilter = c.inputFilter from congrArg Settings.inputFilter hSet, hp.inputFilter]
  · rw [show next.outputFilter = c.outputFilter from congrArg Settings.outputFilter hSet, hp.outputFilter]

lemma SameTerms.meets (h : SameTerms c next) (hm : message.MeetsTerms next) : message.MeetsTerms c := by
  cases message with
  | data bytes =>
    rw [Message.MeetsTerms, h.remoteMaxpacket] at hm
    exact hm
  | extendedData code bytes =>
    rw [Message.MeetsTerms, h.remoteMaxpacket, h.extendedUsage] at hm
    exact hm
  | windowAdjust adjust => trivial
  | eof => trivial
  | close => trivial
  | eow => trivial

lemma Works.trans {first : List Message} (front : Works c middle first)
    (back : Works middle next rest) : Works c next (first ++ rest) where
  terms := front.terms.trans back.terms
  spends := by
    rw [dataBytes_append, ← front.spends, ← back.spends]
    omega
  adjusts := by
    rw [adjustBytes_append, back.adjusts, front.adjusts]
    omega
  holds := by
    have hFront := front.holds
    have hBack := back.holds
    rw [adjustBytes_append]
    omega
  meets := by
    intro message hMem
    rcases mem_append.1 hMem with hf | hr
    · exact front.meets message hf
    · exact front.terms.meets (back.meets message hr)

lemma Works.of_quiet (ht : SameTerms c next) (hr : next.remoteWindow = c.remoteWindow)
    (hWin : next.localWindow = c.localWindow) (hh : heldBytes next ≤ heldBytes c)
    (hs : ∀ message ∈ sent, message = .eof ∨ message = .close ∨ message = .eow) : Works c next sent := by
  have hNoData : dataBytes sent = 0 := by
    apply sum_eq_zero
    simp only [mem_map, forall_exists_index, and_imp, forall_apply_eq_imp_iff₂]
    intro message hMem
    rcases hs message hMem with rfl | rfl | rfl <;> rfl
  have hn : adjustBytes sent = 0 := by
    apply sum_eq_zero
    simp only [mem_map, forall_exists_index, and_imp, forall_apply_eq_imp_iff₂]
    intro message hMem
    rcases hs message hMem with rfl | rfl | rfl <;> rfl
  refine ⟨ht, ?_, ?_, ?_, ?_⟩
  · rw [hNoData, hr, Nat.add_zero]
  · rw [hn, hWin, Nat.add_zero]
  · rw [hn, Nat.add_zero]
    exact hh
  · intro message hMem
    rcases hs message hMem with rfl | rfl | rfl <;> trivial

/-- What a change of the common part leaves alone. The queue can only get shorter. -/
structure Quiet (c next : Chan) : Prop where
  settings : next.toSettings = c.toSettings
  type : next.type = c.type
  localWindow : next.localWindow = c.localWindow
  localWindowMax : next.localWindowMax = c.localWindowMax
  localConsumed : next.localConsumed = c.localConsumed
  output : next.output.length ≤ c.output.length

lemma Quiet.refl (c : Chan) : Quiet c c := ⟨rfl, rfl, rfl, rfl, rfl, Nat.le_refl _⟩

lemma Quiet.works (h : Quiet c.toChan next.toChan) (hr : next.remoteWindow = c.remoteWindow)
    (hPkt : next.remoteMaxpacket = c.remoteMaxpacket)
    (hu : next.extendedUsage = c.extendedUsage) (hExt : next.extended = c.extended)
    (hs : ∀ message ∈ sent, message = .eof ∨ message = .close ∨ message = .eow) : Works c next sent := by
  have ht : SameTerms c next := ⟨h.settings, h.type, h.localWindowMax, hPkt, hu⟩
  refine .of_quiet ht hr h.localWindow ?_ hs
  have hOut := h.output
  rw [heldBytes, heldBytes, receivedExtended, receivedExtended, h.localConsumed, hu, hExt]
  omega

lemma chanReadFailed_quiet (c : Chan) : Quiet c (chanReadFailed proto2 c) := by
  obtain ⟨rfd, istate, hEq, -⟩ := chanReadFailed_eq proto2 c
  rw [hEq]
  exact ⟨rfl, rfl, rfl, rfl, rfl, Nat.le_refl _⟩

lemma chanRcvdEow_quiet (c : Chan) : Quiet c (chanRcvdEow proto2 c) := by
  obtain ⟨rfd, istate, hEq, -⟩ := chanRcvdEow_eq proto2 c
  rw [hEq]
  exact ⟨rfl, rfl, rfl, rfl, rfl, Nat.le_refl _⟩

lemma chanWriteFailed_quiet (c : Chan) : Quiet c (chanWriteFailed proto2 c) := by
  rcases chanWriteFailed_eq proto2 c with ⟨-, hEq⟩ | ⟨wfd, ostate, hEq, -⟩
  · rw [hEq]
    exact .refl c
  · rw [hEq]
    exact ⟨rfl, rfl, rfl, rfl, rfl, Nat.zero_le _⟩

lemma readFailed_quiet {c : Chan} (ht : c.type = .opened) : Quiet c (readFailed proto2 c) := by
  rw [readFailed, if_neg (not_not.2 ht), proto2_compat13, if_neg Bool.false_ne_true]
  exact chanReadFailed_quiet c

lemma writeFailed_quiet {c : Chan} (ht : c.type = .opened) : Quiet c (writeFailed proto2 c) := by
  rw [writeFailed, if_neg (not_not.2 ht), proto2_compat13, if_neg Bool.false_ne_true]
  exact chanWriteFailed_quiet c

lemma fetchOutput_plain (hp : Plain c) {writable : Bool} {found : Fetched}
    (h : fetchOutput writable c.toChan = .ok found) : found = .nothing ∨ found = .data c.output c.toChan := by
  rcases fetchOutput_eq_ok h with ⟨-, hNil⟩ | ⟨-, ⟨-, -, hd⟩ | ⟨ho, -⟩⟩
  · exact .inl hNil
  · exact .inr hd
  · rw [hp.outputFilter, hp.datagram] at ho
    simp at ho

lemma readSide_quiet (hp : Plain c) {k : Option Keys} {g' : Globals} {next : Chan}
    (h : readSide proto2 r k c.toChan g = .ok (g', next, actions)) : Quiet c.toChan next := by
  rcases readSide_eq_ok h with ⟨-, -, rfl, -⟩ | ⟨-, -, rfl, -⟩ | ⟨chunk, -, hr⟩
  · exact .refl _
  · exact readFailed_quiet hp.type
  · obtain ⟨-, -, rfl, -⟩ := relayChunk_eq_ok hp.inputFilter hp.datagram hr
    exact ⟨rfl, rfl, rfl, rfl, rfl, Nat.le_refl _⟩

lemma eowAfter_quiet (fellows : Datafellows) (c : Chan2) (next : Chan) :
    ∀ message ∈ eowAfter fellows c next, message = .eof ∨ message = .close ∨ message = .eow :=
  fun _ hMem => .inr (.inr (eowAfter_eow _ hMem))

lemma channelHandleRfd2_works (hp : Plain c)
    (h : channelHandleRfd2 fellows r g c = .ok (next, sent)) : Works c next sent := by
  obtain ⟨⟨g', after, actions⟩, hRead, h⟩ := bind_eq_ok.1 h
  cases h
  obtain ⟨found, hf, hr⟩ := channelHandleRfd_eq_ok hRead
  have hq : Quiet c.toChan after := by
    rcases fetchOutput_plain hp hf with rfl | rfl
    · exact readSide_quiet hp hr
    · exact readSide_quiet hp hr
  exact Quiet.works hq rfl rfl rfl rfl (eowAfter_quiet fellows c after)

lemma toNat_add_ofNat (h : window.toNat + n < 2 ^ 32) :
    (window + UInt32.ofNat n).toNat = window.toNat + n := by
  rw [UInt32.toNat_add, UInt32.toNat_ofNat']
  omega

lemma toNat_sub_ofNat (h : n ≤ window.toNat) : (window - UInt32.ofNat n).toNat = window.toNat - n := by
  have hBound := window.toNat_lt
  rw [UInt32.toNat_sub, UInt32.toNat_ofNat']
  omega

lemma Roomy.held_lt (h : Roomy c) : heldBytes c < 2 ^ 32 := by
  have hBound := c.localWindowMax.toNat_lt
  rw [Roomy] at h
  omega

lemma writeStream_works {after : Chan} (hp : Plain c) (hr : Roomy c)
    (hs : ∀ message ∈ sent, message = .eof ∨ message = .close ∨ message = .eow)
    (h : writeStream proto2 r c.output c.toChan c.toChan = .ok (after, actions))
    (hn : next = { c with toChan := after }) : Works c next sent := by
  subst hn
  rcases writeStream_eq_ok h with ⟨-, rfl | rfl, -⟩ | ⟨n, len, -, -, -, hLen, rfl, -⟩
  · exact Quiet.works (.refl _) rfl rfl rfl rfl hs
  · exact Quiet.works (writeFailed_quiet hp.type) rfl rfl rfl rfl hs
  · refine .of_quiet ⟨rfl, rfl, rfl, rfl, rfl⟩ rfl rfl ?_ hs
    have hh := hr.held_lt
    have hLength : (c.output.drop len).length = c.output.length - len := length_drop
    have hUsed : (c.localConsumed + UInt32.ofNat (c.output.length - (c.output.drop len).length)).toNat =
      c.localConsumed.toNat + (c.output.length - (c.output.drop len).length) := by
      apply toNat_add_ofNat
      rw [heldBytes] at hh
      omega
    simp only [heldBytes, countConsumed, proto2_compat20, if_true, receivedExtended]
    omega

lemma channelHandleWfd2_works (hp : Plain c) (hRoomy : Roomy c)
    (h : channelHandleWfd2 fellows r g c = .ok (next, sent)) : Works c next sent := by
  obtain ⟨⟨g', after, actions⟩, hw, h⟩ := bind_eq_ok.1 h
  cases h
  obtain ⟨-, found, hf, hr⟩ := channelHandleWfd_eq_ok hw
  have hs := eowAfter_quiet fellows c after
  rcases fetchOutput_plain hp hf with rfl | rfl
  · obtain ⟨rfl, -⟩ := hr
    exact Quiet.works (.refl _) rfl rfl rfl rfl hs
  · dsimp only at hr
    rw [hp.datagram, if_neg nofun] at hr
    exact writeStream_works hp hRoomy hs hr rfl

lemma channelHandleEfd_works (hr : Roomy c) : Works c (channelHandleEfd r c) [] := by
  have hNil : ∀ message ∈ ([] : List Message), message = .eof ∨ message = .close ∨ message = .eow := by
    simp
  rcases channelHandleEfd_cases r c with
    ⟨efd, hs⟩ | ⟨len, hu, -, hLen, hw⟩ | ⟨extended, hu, hRead⟩
  · rw [hs]
    exact Quiet.works (.refl _) rfl rfl rfl rfl hNil
  · rw [hw]
    refine .of_quiet ⟨rfl, rfl, rfl, rfl, rfl⟩ rfl rfl ?_ hNil
    have hh := hr.held_lt
    have hUsed : (c.localConsumed + UInt32.ofNat len).toNat = c.localConsumed.toNat + len := by
      apply toNat_add_ofNat
      rw [heldBytes, receivedExtended, if_pos hu] at hh
      omega
    have hLength : (c.extended.drop len).length = c.extended.length - len := length_drop
    simp only [heldBytes, receivedExtended, hu, if_true]
    omega
  · rw [hRead]
    refine .of_quiet ⟨rfl, rfl, rfl, rfl, rfl⟩ rfl rfl ?_ hNil
    simp only [heldBytes, receivedExtended, hu, if_false]
    omega

lemma channelCheckWindow2_works (hr : Roomy c) :
    Works c (channelCheckWindow2 c).1 (channelCheckWindow2 c).2 := by
  rcases channelCheckWindow2_cases c with hs | ⟨-, -, ha⟩
  · rw [hs]
    exact Quiet.works (.refl _) rfl rfl rfl rfl (by simp)
  · have hBound := c.localWindowMax.toNat_lt
    have hWin : (c.localWindow + c.localConsumed).toNat = c.localWindow.toNat + c.localConsumed.toNat := by
      rw [Roomy, heldBytes] at hr
      rw [UInt32.toNat_add]
      omega
    rw [ha]
    refine ⟨⟨rfl, rfl, rfl, rfl, rfl⟩, by simp [Message.dataLength], ?_, ?_, by simp [Message.MeetsTerms]⟩
    · simpa [Message.adjustment] using hWin
    · simp only [heldBytes, receivedExtended, adjustBytes_cons, adjustBytes_nil, Message.adjustment]
      have hZero : (0 : UInt32).toNat = 0 := rfl
      omega

lemma Shift.works (h : Shift c next) : Works c next [] := by
  cases h with
  | writeEnds wfd hEmpty =>
    exact Quiet.works ⟨rfl, rfl, rfl, rfl, rfl, Nat.zero_le _⟩ rfl rfl rfl rfl (by simp)
  | _ => exact Quiet.works ⟨rfl, rfl, rfl, rfl, rfl, Nat.le_refl _⟩ rfl rfl rfl rfl (by simp)

lemma Shifts.works (h : Shifts c next sent) : Works c next sent := by
  induction h with
  | done c => exact Quiet.works (.refl _) rfl rfl rfl rfl (by simp)
  | eof hDrain => exact Quiet.works ⟨rfl, rfl, rfl, rfl, rfl, Nat.le_refl _⟩ rfl rfl rfl rfl (by simp)
  | step hs rest ih => exact hs.works.trans ih

lemma chanRcvdClose2_works (c : Chan2) : Works c (chanRcvdClose2 c).1 (chanRcvdClose2 c).2 := by
  have hm : Works c (if c.isLocal then c else { c with closeRcvd := true }) [] := by
    split
    · exact Quiet.works (.refl _) rfl rfl rfl rfl (by simp)
    · exact Quiet.works ⟨rfl, rfl, rfl, rfl, rfl, Nat.le_refl _⟩ rfl rfl rfl rfl (by simp)
  exact hm.trans (chanRcvdClose2_shifts c).works

lemma Polls.works (h : Polls c next sent) : Works c next sent := by
  induction h with
  | idle => exact Quiet.works (.refl _) rfl rfl rfl rfl (by simp)
  | drops input => exact Quiet.works ⟨rfl, rfl, rfl, rfl, rfl, Nat.le_refl _⟩ rfl rfl rfl rfl (by simp)
  | sends input bytes _ _ hWin hPkt =>
    refine ⟨⟨rfl, rfl, rfl, rfl, rfl⟩, ?_, rfl, ?_, ?_⟩
    · dsimp only
      rw [toNat_sub_ofNat hWin]
      simp only [dataBytes_cons, dataBytes_nil, Message.dataLength]
      omega
    · simp [heldBytes, receivedExtended, Message.adjustment]
    · simp [Message.MeetsTerms, hPkt]
  | drains h => exact h.works
  | sendsExtended front extended bytes _ _ hu hWin hPkt ih =>
    refine ih.trans ⟨⟨rfl, rfl, rfl, rfl, rfl⟩, ?_, rfl, ?_, ?_⟩
    · dsimp only
      rw [toNat_sub_ofNat hWin]
      simp only [dataBytes_cons, dataBytes_nil, Message.dataLength]
      omega
    · simp only [heldBytes, receivedExtended, hu, adjustBytes_cons, adjustBytes_nil,
        Message.adjustment, reduceCtorEq, if_false]
      omega
    · simp [Message.MeetsTerms, hu, hPkt]

lemma work_works {turn : Turn} (hp : Plain c) (hr : Roomy c)
    (h : work fellows c turn = .ok (next, sent)) : Works c next sent := by
  cases turn with
  | rfd r g => exact channelHandleRfd2_works hp h
  | wfd r g => exact channelHandleWfd2_works hp hr h
  | efd r =>
    cases h
    exact channelHandleEfd_works hr
  | preOpen =>
    cases h
    exact (channelPreOpen_shifts c).works
  | checkWindow =>
    have hw := channelCheckWindow2_works hr
    rwa [Except.ok.inj h] at hw
  | outputPoll => exact (channelOutputPoll_polls h).works
  | deliver =>
    cases h
    exact Quiet.works (.refl _) rfl rfl rfl rfl (by simp)

/-! What arrives. Messages that end something only make an end work. -/

lemma channelInputData2_takes (hp : Plain c) (hr : Roomy c)
    (hf : data.length ≤ c.localWindow.toNat) : SameTerms c (channelInputData2 data c) ∧
      (channelInputData2 data c).remoteWindow = c.remoteWindow ∧
      (channelInputData2 data c).localWindow.toNat = c.localWindow.toNat - data.length ∧
      heldBytes (channelInputData2 data c) = heldBytes c + data.length := by
  have hLen : windowLength c.toChan data = UInt32.ofNat data.length := by
    simp [windowLength, hp.datagram]
  have hWin : (c.localWindow - UInt32.ofNat data.length).toNat = c.localWindow.toNat - data.length :=
    toNat_sub_ofNat hf
  have hBound := c.localWindowMax.toNat_lt
  have hn : ¬ c.localWindow < UInt32.ofNat data.length := by
    rw [UInt32.lt_iff_toNat_lt, UInt32.toNat_ofNat']
    omega
  rw [Roomy] at hr
  by_cases ho : c.ostate = .opened
  · have hi : channelInputData2 data c = { c with
      localWindow := c.localWindow - UInt32.ofNat data.length
      output := c.output ++ data } := by
      simp [channelInputData2, Chan2.onChan, channelInputData, hp.type, ho, hLen, hn,
        queueEntry, hp.datagram]
    rw [hi]
    refine ⟨⟨rfl, rfl, rfl, rfl, rfl⟩, rfl, hWin, ?_⟩
    simp only [heldBytes, receivedExtended, length_append]
    omega
  · have hi : channelInputData2 data c = { c with
      localWindow := c.localWindow - UInt32.ofNat data.length
      localConsumed := c.localConsumed + UInt32.ofNat data.length } := by
      simp [channelInputData2, Chan2.onChan, channelInputData, hp.type, ho, hLen]
    have hUsed : (c.localConsumed + UInt32.ofNat data.length).toNat =
      c.localConsumed.toNat + data.length := by
      apply toNat_add_ofNat
      rw [heldBytes] at hr
      omega
    rw [hi]
    refine ⟨⟨rfl, rfl, rfl, rfl, rfl⟩, rfl, hWin, ?_⟩
    simp only [heldBytes, receivedExtended]
    omega

lemma channelInputExtendedData_takes (hp : Plain c)
    (hf : data.length ≤ c.localWindow.toNat) (hEfd : c.efd = true) (hu : c.extendedUsage = .write)
    (h : channelInputExtendedData fellows extendedDataStderr data c = .ok next) :
    SameTerms c next ∧ next.remoteWindow = c.remoteWindow ∧
      next.localWindow.toNat = c.localWindow.toNat - data.length ∧
      heldBytes next = heldBytes c + data.length := by
  rw [channelInputExtendedData, if_neg (not_not.2 hp.type)] at h
  split at h
  · cases h
  simp only [hEfd, hu, Bool.not_true, ne_eq, not_true_eq_false, decide_false, Bool.or_self,
    Bool.false_eq_true, if_false] at h
  rw [if_neg (Nat.not_lt.2 hf)] at h
  cases h
  refine ⟨⟨rfl, rfl, rfl, rfl, hu.symm⟩, rfl, toNat_sub_ofNat hf, ?_⟩
  simp only [heldBytes, receivedExtended, hu, if_true, length_append]
  omega

lemma channelInputWindowAdjust_takes (h : channelInputWindowAdjust adjust c = .ok next)
    (hf : c.remoteWindow.toNat + adjust.toNat < 2 ^ 32) :
    SameTerms c next ∧ next.remoteWindow.toNat = c.remoteWindow.toNat + adjust.toNat ∧
      next.localWindow = c.localWindow ∧ heldBytes next = heldBytes c := by
  rw [channelInputWindowAdjust] at h
  split_ifs at h
  cases h
  refine ⟨⟨rfl, rfl, rfl, rfl, rfl⟩, ?_, rfl, rfl⟩
  rw [UInt32.toNat_add, Nat.mod_eq_of_lt hf]

/-! The pair. -/

/-- A message that the side it is sent to can take. -/
def Message.Acceptable (c : Chan2) : Message → Prop
  | .data bytes => bytes.length ≤ c.localMaxpacket.toNat
  | .extendedData code bytes =>
    code = extendedDataStderr ∧ c.extendedUsage = .write ∧ bytes.length ≤ c.localMaxpacket.toNat
  | _ => True

/-- What both ends agreed on when the channel was opened: neither sends more at once than
the other takes, nor extended data that the other does not write anywhere. -/
structure Agreed (s : Pair) : Prop where
  plain : ∀ side, Plain (s.chan side)
  packet : ∀ side, (s.chan side.peer).remoteMaxpacket = (s.chan side).localMaxpacket
  extended : ∀ side, (s.chan side.peer).extendedUsage = .read → (s.chan side).extendedUsage = .write
  acceptable : ∀ side, ∀ message ∈ s.toward side, message.Acceptable (s.chan side)

structure Balanced (s : Pair) : Prop extends Agreed s where
  sound : ∀ side, Sound (s.chan side).localWindowMax.toNat (s.account side)

structure Opened (s : Pair) : Prop where
  plain : ∀ side, Plain (s.chan side)
  packet : ∀ side, (s.chan side.peer).remoteMaxpacket = (s.chan side).localMaxpacket
  extended : ∀ side, (s.chan side.peer).extendedUsage = .read → (s.chan side).extendedUsage = .write
  quiet : ∀ side, s.toward side = []
  window : ∀ side, (s.chan side.peer).remoteWindow = (s.chan side).localWindow
  room : ∀ side, Roomy (s.chan side)

lemma Opened.balanced (h : Opened s) : Balanced s where
  plain := h.plain
  packet := h.packet
  extended := h.extended
  acceptable := by
    intro side message hMem
    rw [h.quiet side] at hMem
    cases hMem
  sound := by
    intro side
    constructor
    · simp [Pair.account, h.quiet, h.window]
    · exact h.room side

lemma Balanced.roomy (h : Balanced s) (side : Side) : Roomy (s.chan side) :=
  (h.sound side).bounded

lemma acceptable_of_sameTerms (h : SameTerms c next) (ha : message.Acceptable c) :
    message.Acceptable next := by
  have hPkt : next.localMaxpacket = c.localMaxpacket := congrArg Settings.localMaxpacket h.settings
  cases message with
  | data bytes =>
    rw [Message.Acceptable, hPkt]
    exact ha
  | extendedData code bytes =>
    rw [Message.Acceptable, hPkt, h.extendedUsage]
    exact ha
  | windowAdjust adjust => trivial
  | eof => trivial
  | close => trivial
  | eow => trivial

lemma Agreed.acceptable_of_meets (h : Agreed s) (hm : message.MeetsTerms (s.chan side)) :
    message.Acceptable (s.chan side.peer) := by
  have hPkt := h.packet side.peer
  have hExt := h.extended side.peer
  rw [Side.peer_peer] at hPkt hExt
  cases message with
  | data bytes =>
    rw [Message.Acceptable, ← hPkt]
    exact hm
  | extendedData code bytes =>
    rw [Message.Acceptable, ← hPkt]
    exact ⟨hm.1, hExt hm.2.1, hm.2.2⟩
  | windowAdjust adjust => trivial
  | eof => trivial
  | close => trivial
  | eow => trivial

variable (s) (side) (next) (sent)

@[simp] lemma after_chan_self : (s.after side next sent).chan side = next := by simp [Pair.after]

@[simp] lemma after_chan_peer :
    (s.after side next sent).chan side.peer = s.chan side.peer := by simp [Pair.after]

@[simp] lemma after_toward_self :
    (s.after side next sent).toward side = s.toward side := by simp [Pair.after]

@[simp] lemma after_toward_peer :
    (s.after side next sent).toward side.peer = s.toward side.peer ++ sent := by simp [Pair.after]

variable {sent} {next}

@[simp] lemma taken_chan (side other : Side) (rest : List Message) :
    (s.taken side rest).chan other = s.chan other := rfl

@[simp] lemma taken_toward_self (rest : List Message) :
    (s.taken side rest).toward side = rest := by simp [Pair.taken]

@[simp] lemma taken_toward_peer (rest : List Message) :
    (s.taken side rest).toward side.peer = s.toward side.peer := by simp [Pair.taken]

variable {side} {s}

lemma forall_side {property : Side → Prop} (side : Side) (hs : property side)
    (hp : property side.peer) : ∀ other, property other := by
  intro other
  rcases side.eq_or_peer other with rfl | rfl
  · exact hs
  · exact hp

lemma Agreed.after (h : Agreed s) (ht : SameTerms (s.chan side) next)
    (hm : ∀ message ∈ sent, message.MeetsTerms (s.chan side)) : Agreed (s.after side next sent) := by
  have hPeerPacket := h.packet side.peer
  have hp := h.extended side.peer
  rw [Side.peer_peer] at hPeerPacket hp
  have hPkt : next.localMaxpacket = (s.chan side).localMaxpacket :=
    congrArg Settings.localMaxpacket ht.settings
  constructor
  · refine forall_side side ?_ ?_
    · rw [after_chan_self]
      exact ht.plain (h.plain side)
    · rw [after_chan_peer]
      exact h.plain side.peer
  · refine forall_side side ?_ ?_
    · rw [after_chan_self, after_chan_peer, hPkt]
      exact h.packet side
    · rw [Side.peer_peer, after_chan_self, after_chan_peer, ht.remoteMaxpacket]
      exact hPeerPacket
  · refine forall_side side ?_ ?_
    · rw [after_chan_self, after_chan_peer, ht.extendedUsage]
      exact h.extended side
    · rw [Side.peer_peer, after_chan_self, after_chan_peer, ht.extendedUsage]
      exact hp
  · refine forall_side side ?_ ?_
    · rw [after_chan_self, after_toward_self]
      exact fun message hMem => acceptable_of_sameTerms ht (h.acceptable side message hMem)
    · rw [after_chan_peer, after_toward_peer]
      intro message hMem
      rcases mem_append.1 hMem with hOld | hNew
      · exact h.acceptable side.peer message hOld
      · exact h.acceptable_of_meets (hm message hNew)

lemma Agreed.taken (h : Agreed s) (ht : s.toward side = message :: rest) : Agreed (s.taken side rest) := by
  refine ⟨h.plain, h.packet, h.extended, forall_side side ?_ ?_⟩
  · rw [taken_toward_self]
    intro later hMem
    apply h.acceptable side later
    rw [ht]
    exact .tail _ hMem
  · rw [taken_toward_peer]
    exact h.acceptable side.peer

/-- An end that works spends credit in one direction, and drops and gives it back in the
other. -/
lemma Works.moves (h : Works (s.chan side) next sent) :
    ∀ other, Moves (s.account other) ((s.after side next sent).account other) := by
  have hSpends := h.spends
  have hHolds := h.holds
  refine forall_side side ?_ ?_
  · have hd := Move.discard (s.account side)
      (heldBytes (s.chan side) - (heldBytes next + adjustBytes sent)) (Nat.sub_le _ _)
    have ha := Move.adjust { s.account side with
      held := heldBytes (s.chan side) - (heldBytes (s.chan side) - (heldBytes next + adjustBytes sent)) }
      (adjustBytes sent) (by dsimp only; omega)
    have hn : (s.after side next sent).account side = { s.account side with
      returning := (s.account side).returning + adjustBytes sent
      window := (s.account side).window + adjustBytes sent
      held := heldBytes (s.chan side) -
        (heldBytes (s.chan side) - (heldBytes next + adjustBytes sent)) - adjustBytes sent } := by
      simp only [Pair.account, after_chan_self, after_chan_peer, after_toward_self, after_toward_peer,
        adjustBytes_append, h.adjusts, Account.mk.injEq, true_and]
      omega
    rw [hn]
    exact (Relation.ReflTransGen.single hd).tail ha
  · have hs := Move.send (s.account side.peer) (dataBytes sent) (by
      simp only [Pair.account, Side.peer_peer]
      omega)
    have hn : (s.after side next sent).account side.peer = { s.account side.peer with
      granted := (s.account side.peer).granted - dataBytes sent
      flying := (s.account side.peer).flying + dataBytes sent } := by
      simp only [Pair.account, Side.peer_peer, after_chan_self, after_chan_peer, after_toward_self,
        after_toward_peer, dataBytes_append, Account.mk.injEq, and_self, and_true]
      omega
    rw [hn]
    exact Relation.ReflTransGen.single hs

section
variable (h : Balanced s)
include h

lemma Balanced.after (hw : Works (s.chan side) next sent) : Balanced (s.after side next sent) where
  toAgreed := h.toAgreed.after hw.terms hw.meets
  sound := by
    have hm := hw.moves
    refine forall_side side ?_ ?_
    · rw [after_chan_self, hw.terms.localWindowMax]
      exact (hm side).sound (h.sound side)
    · rw [after_chan_peer]
      exact (hm side.peer).sound (h.sound side.peer)

lemma Balanced.taken (ht : s.toward side = message :: rest)
    (hd : message.dataLength = 0) (ha : message.adjustment = 0) : Balanced (s.taken side rest) where
  toAgreed := h.toAgreed.taken ht
  sound := by
    refine forall_side side ?_ ?_
    · have hs : (s.taken side rest).account side = s.account side := by
        simp [Pair.account, ht, hd]
      rw [hs]
      exact h.sound side
    · have hs : (s.taken side rest).account side.peer = s.account side.peer := by
        simp [Pair.account, ht, ha]
      rw [hs]
      exact h.sound side.peer

lemma Balanced.arrives (ht : s.toward side = message :: rest)
    (ha : message.adjustment = 0) (hTerms : SameTerms (s.chan side) next)
    (hr : next.remoteWindow = (s.chan side).remoteWindow)
    (hWin : next.localWindow.toNat = (s.chan side).localWindow.toNat - message.dataLength)
    (hh : heldBytes next = heldBytes (s.chan side) + message.dataLength) :
    Balanced ((s.taken side rest).after side next []) where
  toAgreed := (h.toAgreed.taken ht).after hTerms (by simp)
  sound := by
    refine forall_side side ?_ ?_
    · have hm := Move.arrive (s.account side) message.dataLength (by simp [Pair.account, ht])
      have hn : ((s.taken side rest).after side next []).account side = { s.account side with
        flying := (s.account side).flying - message.dataLength
        window := (s.account side).window - message.dataLength
        held := (s.account side).held + message.dataLength } := by
        simp [Pair.account, ht, hWin, hh]
      rw [hn, after_chan_self, hTerms.localWindowMax]
      exact hm.sound (h.sound side)
    · have hs : ((s.taken side rest).after side next []).account side.peer =
        s.account side.peer := by simp [Pair.account, ht, ha, hr]
      rw [hs, after_chan_peer]
      exact h.sound side.peer

lemma Balanced.regains (ht : s.toward side = .windowAdjust adjust :: rest)
    (hTerms : SameTerms (s.chan side) next)
    (hr : next.remoteWindow.toNat = (s.chan side).remoteWindow.toNat + adjust.toNat)
    (hWin : next.localWindow = (s.chan side).localWindow) (hh : heldBytes next = heldBytes (s.chan side)) :
    Balanced ((s.taken side rest).after side next []) where
  toAgreed := (h.toAgreed.taken ht).after hTerms (by simp)
  sound := by
    refine forall_side side ?_ ?_
    · have hs : ((s.taken side rest).after side next []).account side = s.account side := by
        simp [Pair.account, ht, hWin, hh, Message.dataLength]
      rw [hs, after_chan_self, hTerms.localWindowMax]
      exact h.sound side
    · have hm := Move.regain (s.account side.peer) adjust.toNat
        (by simp [Pair.account, ht, Message.adjustment])
      have hn : ((s.taken side rest).after side next []).account side.peer = { s.account side.peer with
          granted := (s.account side.peer).granted + adjust.toNat
          returning := (s.account side.peer).returning - adjust.toNat } := by
        simp [Pair.account, ht, hr, Message.adjustment]
      rw [hn, after_chan_peer]
      exact hm.sound (h.sound side.peer)

lemma Balanced.fits (hMem : message ∈ s.toward side) :
    message.dataLength ≤ (s.chan side).localWindow.toNat ∧
      message.dataLength ≤ (s.chan side).localMaxpacket.toNat ∧
      (s.chan side).remoteWindow.toNat + message.adjustment < 2 ^ 32 := by
  have hd := (dataLength_le hMem).trans (h.sound side).flying_le
  refine ⟨hd, ?_, ?_⟩
  · have ha := h.acceptable side message hMem
    cases message with
    | data bytes => exact ha
    | extendedData code bytes => exact ha.2.2
    | windowAdjust adjust => exact Nat.zero_le _
    | eof => exact Nat.zero_le _
    | close => exact Nat.zero_le _
    | eow => exact Nat.zero_le _
  · have hr := (h.sound side.peer).returning_le
    have hBound := (s.chan side.peer).localWindowMax.toNat_lt
    have hAdjust := adjustment_le hMem
    simp only [Pair.account, Side.peer_peer] at hr
    omega

def Turn.delivers : Turn → Bool
  | .deliver => true
  | _ => false

def extendedNext : List Message → Bool
  | .extendedData _ _ :: _ => true
  | _ => false

/-- Extended data finds its descriptor open. -/
def EfdOpen (s : Pair) (input : Side × Turn) : Prop :=
  input.2.delivers = true → extendedNext (s.toward input.1) = true → (s.chan input.1).efd = true
  deriving Decidable

lemma Balanced.delivers (ht : s.toward side = message :: rest)
    (hEfd : ∀ code bytes, message = .extendedData code bytes → (s.chan side).efd = true)
    (hi : channelInput fellows message (s.chan side) = .ok (next, sent)) :
    Balanced ((s.taken side rest).after side next sent) := by
  have hMem : message ∈ s.toward side := by simp [ht]
  obtain ⟨hWin, -, hr⟩ := h.fits hMem
  have hp := h.plain side
  cases message with
  | data bytes =>
    cases hi
    obtain ⟨hTerms, hs, hTaken, hh⟩ := channelInputData2_takes hp (h.roomy side) hWin
    exact h.arrives ht rfl hTerms hs hTaken hh
  | extendedData code bytes =>
    obtain ⟨after, hTake, hd⟩ := bind_eq_ok.1 hi
    cases hd
    obtain ⟨rfl, hu, -⟩ := h.acceptable side _ hMem
    obtain ⟨hTerms, hs, hTaken, hh⟩ :=
      channelInputExtendedData_takes hp hWin (hEfd _ _ rfl) hu hTake
    exact h.arrives ht rfl hTerms hs hTaken hh
  | windowAdjust adjust =>
    obtain ⟨after, hTake, hd⟩ := bind_eq_ok.1 hi
    cases hd
    obtain ⟨hTerms, hg, hs, hh⟩ := channelInputWindowAdjust_takes hTake hr
    exact h.regains ht hTerms hg hs hh
  | eof =>
    have hw := (channelInputIeof_shifts (s.chan side)).works
    rw [show channelInputIeof (s.chan side) = (next, sent) from Except.ok.inj hi] at hw
    exact (h.taken ht rfl rfl).after hw
  | close =>
    have hw := chanRcvdClose2_works (s.chan side)
    rw [show chanRcvdClose2 (s.chan side) = (next, sent) from Except.ok.inj hi] at hw
    exact (h.taken ht rfl rfl).after hw
  | eow =>
    cases hi
    apply (h.taken ht rfl rfl).after
    exact Quiet.works (chanRcvdEow_quiet (s.chan side).toChan) rfl rfl rfl rfl (by simp)

lemma flowStep_balanced {next : Pair} {input : Side × Turn}
    (hEfd : EfdOpen s input) (hs : flowStep fellows s input = .ok (next, sent)) : Balanced next := by
  obtain ⟨side, turn⟩ := input
  by_cases hTurn : turn = .deliver
  · subst hTurn
    rw [flowStep] at hs
    split at hs
    · cases hs
      exact h
    · next message rest ht =>
      obtain ⟨⟨after, shown⟩, hi, hd⟩ := map_eq_ok.1 hs
      cases hd
      apply h.delivers ht _ hi
      rintro code bytes rfl
      exact hEfd rfl (by simp [ht, extendedNext])
  · rw [flowStep.eq_2 _ _ _ _ (by simpa using hTurn)] at hs
    obtain ⟨⟨after, shown⟩, hw, hd⟩ := map_eq_ok.1 hs
    cases hd
    exact h.after (work_works (h.plain side) (h.roomy side) hw)

end

/-- Flow control: as long as extended data finds its descriptor open, all credit is
accounted for in both directions, what is received and not yet given back stays within the
window, and so no message is too much or too big for its receiver and no window wraps. -/
theorem flow_control {fellows : Datafellows} {s last : Pair} {turns : List (Side × Turn)}
    {sent : List Message} (hOpened : Opened s) (hEfd : Along (flowStep fellows) EfdOpen s turns)
    (hRun : run (flowStep fellows) s turns = .ok (last, sent)) (side : Side) :
    (last.chan side.peer).remoteWindow.toNat + dataBytes (last.toward side) +
      adjustBytes (last.toward side.peer) = (last.chan side).localWindow.toNat ∧
      (last.chan side).localWindow.toNat + (last.chan side).localConsumed.toNat +
        (last.chan side).output.length + receivedExtended (last.chan side) ≤
          (last.chan side).localWindowMax.toNat ∧ ∀ message ∈ last.toward side,
        message.dataLength ≤ (last.chan side).localWindow.toNat ∧
        message.dataLength ≤ (last.chan side).localMaxpacket.toNat ∧
        (last.chan side).remoteWindow.toNat + message.adjustment < 2 ^ 32 := by
  have hLast : Balanced last :=
    run_events (fun state _ => Balanced state)
      (fun state _ input next events hBalanced hOpen hStep => flowStep_balanced hBalanced hOpen hStep)
      hOpened.balanced hEfd hRun
  have hSound := hLast.sound side
  refine ⟨hSound.balanced, ?_, fun message hMem => hLast.fits hMem⟩
  have hBounded := hSound.bounded
  simp only [Pair.account, heldBytes] at hBounded
  omega

/-- A client and its server with a small window. The server sends what a program writes
to its standard error as extended data. -/
def smallPair : Pair where
  chan side := { shellSession with
    localWindow := 8
    localWindowMax := 8
    localMaxpacket := 4
    remoteWindow := 8
    remoteMaxpacket := 4
    extendedUsage := match side with
      | .near => .write
      | .far => .read }
  toward _ := []

lemma smallPair_opened : Opened smallPair := by
  constructor
  · exact fun _ => ⟨rfl, rfl, rfl, rfl⟩
  · exact fun _ => rfl
  · intro side
    cases side with
    | near => exact fun _ => rfl
    | far => exact fun hr => absurd hr (by decide)
  · exact fun _ => rfl
  · exact fun _ => rfl
  · intro side
    rw [Roomy]
    cases side with
    | near => decide
    | far => decide

def writesOne : Round := { quietRound with writable := true, write := .wrote 1 }

/-- Standard error fills the window by two packets, the client writes a part of it and
gives that much back, and the program ends. -/
def erringProgram : List (Side × Turn) :=
  [(.far, .efd (reads [1, 2, 3, 4, 5])), (.far, .rfd (reads [6, 7]) twoSessions.globals),
    (.far, .outputPoll), (.far, .outputPoll), (.near, .deliver), (.near, .deliver), (.near, .deliver),
    (.near, .efd writesOne), (.near, .wfd writesOne twoSessions.globals), (.near, .checkWindow),
    (.far, .deliver), (.far, .rfd (reads []) twoSessions.globals), (.far, .efd (reads [])),
    (.far, .outputPoll), (.near, .deliver)]

theorem flow_control_erring :
    ∃ last sent, run (flowStep ⟨false, true⟩) smallPair erringProgram = .ok (last, sent) ∧
      (last.chan .far).remoteWindow = 3 ∧ (last.chan .near).localWindow = 3 ∧
      (last.chan .near).localConsumed = 0 ∧ (last.chan .near).output = [7] ∧
      (last.chan .near).extended = [2, 3, 4, 5] ∧
      3 + dataBytes (last.toward .near) + adjustBytes (last.toward .far) = 3 := by
  have hEnd : (run (flowStep ⟨false, true⟩) smallPair erringProgram).toOption.map
    (fun out => ((out.1.chan .far).remoteWindow, (out.1.chan .near).localWindow,
      (out.1.chan .near).localConsumed, (out.1.chan .near).output, (out.1.chan .near).extended)) =
    some (3, 3, 0, [7], [2, 3, 4, 5]) := by decide +kernel
  have hEfd : Along (flowStep ⟨false, true⟩) EfdOpen smallPair erringProgram := by decide +kernel
  obtain ⟨⟨last, sent⟩, hRun, hLast⟩ := Option.map_eq_some_iff.1 hEnd
  simp only [Prod.mk.injEq] at hLast
  obtain ⟨hRemote, hWindow, hConsumed, hOutput, hExtended⟩ := hLast
  have hFlow := (flow_control smallPair_opened hEfd (toOption_eq_some.1 hRun) .near).1
  refine ⟨last, sent, toOption_eq_some.1 hRun, hRemote, hWindow, hConsumed, hOutput, hExtended, ?_⟩
  rw [Side.peer, hRemote, hWindow] at hFlow
  exact hFlow

/-- After a failed write of extended data the descriptor is closed, and what arrives then
is thrown away: its credit is lost for good. -/
def failingStderr : List (Side × Turn) :=
  [(.far, .efd (reads [1])), (.far, .outputPoll), (.near, .deliver),
    (.near, .efd { quietRound with writable := true, write := .failed }),
    (.far, .efd (reads [2, 3])), (.far, .outputPoll), (.near, .deliver)]

theorem credit_lost : ¬ ∀ (turns : List (Side × Turn)) (last : Pair) (sent : List Message),
    run (flowStep ⟨false, true⟩) smallPair turns = .ok (last, sent) →
      (last.chan .far).remoteWindow.toNat + dataBytes (last.toward .near) +
        adjustBytes (last.toward .far) = (last.chan .near).localWindow.toNat := by
  intro hClaim
  have hEnd : (run (flowStep ⟨false, true⟩) smallPair failingStderr).toOption.map
    (fun out => decide ((out.1.chan .far).remoteWindow.toNat + dataBytes (out.1.toward .near) +
      adjustBytes (out.1.toward .far) = (out.1.chan .near).localWindow.toNat)) = some false := by
    decide +kernel
  obtain ⟨⟨last, sent⟩, hRun, hLost⟩ := Option.map_eq_some_iff.1 hEnd
  exact of_decide_eq_false hLost (hClaim failingStderr last sent (toOption_eq_some.1 hRun))

end Channel
