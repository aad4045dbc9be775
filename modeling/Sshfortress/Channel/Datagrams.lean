import Sshfortress.Base.Always
import Sshfortress.Channel.Flow

/-! Flow control of the channels of a tunnel. A datagram is kept with its length in front of it,
and the receiver charges the four bytes of the length; the sender pays for the datagram alone. -/
namespace Channel
open Base Base.Transition Base.Credit List

/-! The account. -/

/-- What the receiver takes off its window for a message. -/
def Message.charge : Message → Nat
  | .data bytes => bytes.length + 4
  | .extendedData _ bytes => bytes.length
  | _ => 0

def charges (messages : List Message) : Nat := (messages.map Message.charge).sum

@[simp] lemma charges_append (front back : List Message) :
    charges (front ++ back) = charges front + charges back := by simp [charges]

/-- The window of the sender, the charges for what is on its way to the receiver, and the
adjustments that are on their way back make the window of the receiver. -/
def WindowsAgree (s : Pair) : Prop :=
  ∀ side, (s.chan side.peer).remoteWindow.toNat + charges (s.toward side) +
    adjustBytes (s.toward side.peer) = (s.chan side).localWindow.toNat

/-! Ends of a tunnel through which nothing has come. -/

structure Unused (c : Chan2) : Prop where
  type : c.type = .opened
  datagram : c.datagram = true
  extendedUsage : c.extendedUsage = .ignore
  output : c.output = []
  localConsumed : c.localConsumed = 0
  room : c.localWindow.toNat ≤ c.localWindowMax.toNat

def Message.Plain (message : Message) : Prop := message = .eof ∨ message = .close ∨ message = .eow

variable {c next : Chan2} {sent messages : List Message} {fellows : Datafellows} {s : Pair}
  {r : Round} {g : Globals}

lemma Unused.heldBytes_eq (h : Unused c) : heldBytes c = 0 := by
  simp [heldBytes, receivedExtended, h.output, h.localConsumed, h.extendedUsage]

lemma Unused.roomy (h : Unused c) : Roomy c := by
  rw [Roomy, h.heldBytes_eq]
  exact h.room

lemma sum_plain {f : Message → Nat} (hEof : f .eof = 0) (hc : f .close = 0)
    (hEow : f .eow = 0) (h : ∀ message ∈ messages, message.Plain) : (messages.map f).sum = 0 := by
  apply sum_eq_zero
  simp only [mem_map, forall_exists_index, and_imp, forall_apply_eq_imp_iff₂]
  intro message hMem
  rcases h message hMem with rfl | rfl | rfl
  · exact hEof
  · exact hc
  · exact hEow

section
variable (h : ∀ message ∈ messages, message.Plain)
include h

lemma charges_plain : charges messages = 0 := sum_plain rfl rfl rfl h

lemma dataBytes_plain : dataBytes messages = 0 := sum_plain rfl rfl rfl h

lemma adjustBytes_plain : adjustBytes messages = 0 := sum_plain rfl rfl rfl h

end

lemma Shifts.plain (h : Shifts c next sent) :
    ∀ message ∈ sent, message.Plain := fun message hMem => .inl (h.eof_of_mem message hMem)

/-- An end that works without sending data or credit stays unused, with the same windows. -/
structure Rests (c next : Chan2) (sent : List Message) : Prop where
  unused : Unused next
  localWindow : next.localWindow = c.localWindow
  remoteWindow : next.remoteWindow = c.remoteWindow
  plain : ∀ message ∈ sent, message.Plain

lemma Works.rests (h : Works c next sent) (hu : Unused c)
    (hp : ∀ message ∈ sent, message.Plain) : Rests c next sent := by
  have hh := h.holds
  rw [hu.heldBytes_eq, heldBytes] at hh
  have ha := h.adjusts
  have hs := h.spends
  rw [adjustBytes_plain hp, Nat.add_zero] at ha
  rw [dataBytes_plain hp, Nat.add_zero] at hs
  have hWin : next.localWindow = c.localWindow := UInt32.toNat_inj.1 ha
  have hg : next.datagram = c.datagram := congrArg Settings.datagram h.terms.settings
  refine ⟨?_, hWin, UInt32.toNat_inj.1 hs, hp⟩
  constructor
  case type => rw [h.terms.type, hu.type]
  case datagram => rw [hg, hu.datagram]
  case extendedUsage => rw [h.terms.extendedUsage, hu.extendedUsage]
  case output =>
    apply length_eq_zero_iff.1
    omega
  case localConsumed =>
    apply UInt32.toNat_inj.1
    show next.localConsumed.toNat = 0
    omega
  case room =>
    rw [hWin, h.terms.localWindowMax]
    exact hu.room

lemma Unused.fetchOutput_eq (h : Unused c) (writable : Bool) :
    fetchOutput writable c.toChan = .ok .nothing := by
  rw [fetchOutput, if_neg]
  simp [h.output]

lemma relayChunk_quiet {c next : Chan} {k : Option Keys} {chunk : Bytes} {g' : Globals}
    {actions : List Action} (h : relayChunk proto2 r k chunk c g = .ok (g', next, actions)) :
    Quiet c next := by
  rw [relayChunk] at h
  split_ifs at h with hFilt hGram
  · split at h
    · cases h
      exact chanReadFailed_quiet c
    · cases h
      exact ⟨rfl, rfl, rfl, rfl, rfl, Nat.le_refl _⟩
  · cases h
    exact ⟨rfl, rfl, rfl, rfl, rfl, Nat.le_refl _⟩
  · obtain ⟨⟨later, records⟩, -, hd⟩ := bind_eq_ok.1 h
    cases hd
    exact ⟨rfl, rfl, rfl, rfl, rfl, Nat.le_refl _⟩

lemma Unused.handleRfd (hu : Unused c)
    (h : channelHandleRfd2 fellows r g c = .ok (next, sent)) : Rests c next sent := by
  obtain ⟨⟨g', after, actions⟩, hRead, h⟩ := bind_eq_ok.1 h
  cases h
  obtain ⟨found, hf, hRest⟩ := channelHandleRfd_eq_ok hRead
  rw [hu.fetchOutput_eq] at hf
  cases hf
  have hq : Quiet c.toChan after := by
    rcases readSide_eq_ok hRest with ⟨-, -, rfl, -⟩ | ⟨-, -, rfl, -⟩ | ⟨chunk, -, hr⟩
    · exact .refl _
    · exact readFailed_quiet hu.type
    · exact relayChunk_quiet hr
  have hs := eowAfter_quiet fellows c after
  have hw : Works c { c with toChan := after } (eowAfter fellows c after) :=
    Quiet.works hq rfl rfl rfl rfl hs
  exact hw.rests hu hs

lemma Unused.handleWfd (hu : Unused c)
    (h : channelHandleWfd2 fellows r g c = .ok (next, sent)) : Rests c next sent := by
  obtain ⟨⟨g', after, actions⟩, hw, h⟩ := bind_eq_ok.1 h
  cases h
  obtain ⟨-, found, hf, hr⟩ := channelHandleWfd_eq_ok hw
  rw [hu.fetchOutput_eq] at hf
  cases hf
  obtain ⟨rfl, -⟩ := hr
  have hs := eowAfter_quiet fellows c c.toChan
  exact (Quiet.works (.refl _) rfl rfl rfl rfl hs).rests hu hs

lemma Unused.checkWindow (hu : Unused c) : Rests c (channelCheckWindow2 c).1 (channelCheckWindow2 c).2 := by
  have hNil : channelCheckWindow2 c = (c, []) := by
    rw [channelCheckWindow2, channelCheckWindow, hu.localConsumed, if_neg]
    · rfl
    · simp
  rw [hNil]
  exact ⟨hu, rfl, rfl, forall_mem_nil _⟩

/-! Datagrams. -/

/-- The next datagram would be sent: it is within the window and the size that the peer
allows. -/
def datagramReady (c : Chan2) : Bool :=
  !c.closeSent && !c.closeRcvd && (c.istate = .opened || c.istate = .waitDrain) &&
    match Wire.getString c.input with
    | some (data, _) =>
      data.length ≤ c.remoteWindow.toNat && data.length ≤ c.remoteMaxpacket.toNat
    | none => false

lemma pollExtended_unused (h : c.extendedUsage = .ignore) : pollExtended c = (c, []) := by
  rw [pollExtended, if_pos]
  simp [h]

lemma Unused.outputPoll (hu : Unused c) (hr : datagramReady c = false)
    (h : channelOutputPoll c = .ok (next, sent)) : Rests c next sent := by
  refine (channelOutputPoll_polls h).works.rests hu ?_
  rw [channelOutputPoll, if_neg (not_not.2 hu.type)] at h
  by_cases hc : (c.closeSent || c.closeRcvd) = true
  · rw [if_pos hc] at h
    cases h
    exact forall_mem_nil _
  rw [if_neg hc] at h
  by_cases hi : ((c.istate = .opened || c.istate = .waitDrain) && c.input ≠ []) = true
  · rw [if_pos hi] at h
    obtain ⟨⟨after, shown⟩, hp, h⟩ := bind_eq_ok.1 h
    dsimp only at h
    rw [if_pos hu.datagram] at h
    cases h
    rw [pollInput, if_pos hu.datagram] at hp
    cases hGet : Wire.getString c.input with
    | none =>
      rw [hGet] at hp
      cases hp
    | some found =>
      obtain ⟨data, rest⟩ := found
      rw [hGet] at hp
      dsimp only at hp
      split_ifs at hp with hBig
      · cases hp
        exact forall_mem_nil _
      · exfalso
        rw [datagramReady, hGet] at hr
        simp only [Bool.or_eq_true, decide_eq_true_eq, not_or, Nat.not_lt, Bool.not_eq_true,
          Bool.and_eq_true] at hBig hc hi
        simp only [hc.1, hc.2, hBig.1, hBig.2, Bool.not_false, Bool.true_and, decide_true,
          Bool.and_true, Bool.or_eq_false_iff, decide_eq_false_iff_not] at hr
        exact hi.1.elim hr.1 hr.2
  · rw [if_neg hi] at h
    have hUsage : (if c.istate = .waitDrain && !efdInputActive c then chanIbufEmpty c
      else (c, [])).1.extendedUsage = .ignore := by
      split_ifs
      · rw [(chanIbufEmpty_shifts c).works.terms.extendedUsage, hu.extendedUsage]
      · exact hu.extendedUsage
    dsimp only at h
    rw [pollExtended_unused hUsage, append_nil] at h
    cases h
    split_ifs
    · exact (chanIbufEmpty_shifts c).plain
    · exact forall_mem_nil _

lemma outputPoll_ready (hu : Unused c) (hr : datagramReady c = true) :
    ∃ data rest, data.length ≤ c.remoteWindow.toNat ∧ channelOutputPoll c = .ok ({ c with
      input := rest
      remoteWindow := c.remoteWindow - UInt32.ofNat data.length }, [.data data]) := by
  rw [datagramReady] at hr
  cases hGet : Wire.getString c.input with
  | none =>
    rw [hGet] at hr
    simp at hr
  | some found =>
    obtain ⟨data, rest⟩ := found
    rw [hGet] at hr
    simp only [Bool.and_eq_true, Bool.not_eq_true', decide_eq_true_eq] at hr
    obtain ⟨⟨⟨hSent, hRcvd⟩, hs⟩, hWin, hPkt⟩ := hr
    have hSome : c.input ≠ [] := by
      intro hn
      rw [hn] at hGet
      cases hGet
    refine ⟨data, rest, hWin, ?_⟩
    have hp : pollInput c = .ok ({ c with
      input := rest
      remoteWindow := c.remoteWindow - UInt32.ofNat data.length }, [.data data]) := by
      rw [pollInput, if_pos hu.datagram, hGet]
      simp [hWin, hPkt]
    rw [channelOutputPoll, if_neg (not_not.2 hu.type), if_neg (by simp [hSent, hRcvd]),
      if_pos (by simp only [hs, Bool.true_and, decide_eq_true_eq]; exact hSome), hp,
      ok_bind]
    dsimp only
    rw [if_pos hu.datagram]
    rfl

variable {turn : Turn} {message : Message} {side : Side} {input : Side × Turn}

lemma Unused.works (hu : Unused c) (hr : turn = .outputPoll → datagramReady c = false)
    (h : work fellows c turn = .ok (next, sent)) : Rests c next sent := by
  have hNil : ∀ message ∈ ([] : List Message), message.Plain := forall_mem_nil _
  cases turn with
  | rfd r g => exact hu.handleRfd h
  | wfd r g => exact hu.handleWfd h
  | efd r =>
    cases h
    exact (channelHandleEfd_works hu.roomy).rests hu hNil
  | preOpen =>
    cases h
    exact (channelPreOpen_shifts c).works.rests hu hNil
  | checkWindow =>
    have hRests := hu.checkWindow
    rwa [Except.ok.inj h] at hRests
  | outputPoll => exact hu.outputPoll (hr rfl) h
  | deliver =>
    cases h
    exact ⟨hu, rfl, rfl, hNil⟩

lemma Unused.takes (hu : Unused c) (hp : message.Plain)
    (h : channelInput fellows message c = .ok (next, sent)) : Rests c next sent := by
  rcases hp with rfl | rfl | rfl
  · have hr := (channelInputIeof_shifts c).works.rests hu (channelInputIeof_shifts c).plain
    rwa [show channelInputIeof c = (next, sent) from Except.ok.inj h] at hr
  · have hr := (chanRcvdClose2_works c).rests hu (chanRcvdClose2_shifts c).plain
    rwa [show chanRcvdClose2 c = (next, sent) from Except.ok.inj h] at hr
  · cases h
    have hw : Works c (c.onChan (chanRcvdEow proto2)) [] :=
      Quiet.works (chanRcvdEow_quiet c.toChan) rfl rfl rfl rfl (by simp)
    exact hw.rests hu (forall_mem_nil _)

/-! The pair. -/

structure Untouched (s : Pair) : Prop where
  unused : ∀ side, Unused (s.chan side)
  window : ∀ side, (s.chan side.peer).remoteWindow = (s.chan side).localWindow
  plain : ∀ side, ∀ message ∈ s.toward side, message.Plain

structure TunnelOpened (s : Pair) : Prop where
  unused : ∀ side, Unused (s.chan side)
  window : ∀ side, (s.chan side.peer).remoteWindow = (s.chan side).localWindow
  quiet : ∀ side, s.toward side = []

def Turn.polls : Turn → Bool
  | .outputPoll => true
  | _ => false

lemma Turn.polls_eq_true : turn.polls = true ↔ turn = .outputPoll := by
  cases turn <;> simp [Turn.polls]

/-- A poll of the channel finds no datagram that it could send. -/
def NoDatagram (s : Pair) (input : Side × Turn) : Prop :=
  input.2.polls = true → datagramReady (s.chan input.1) = false
  deriving Decidable

lemma TunnelOpened.untouched (h : TunnelOpened s) : Untouched s where
  unused := h.unused
  window := h.window
  plain := by
    intro side message hMem
    rw [h.quiet side] at hMem
    cases hMem

section
variable (h : Untouched s)
include h

lemma Untouched.agree : WindowsAgree s := by
  intro side
  rw [h.window side, charges_plain (h.plain side), adjustBytes_plain (h.plain side.peer), Nat.add_zero]

lemma Untouched.after (hr : Rests (s.chan side) next sent) : Untouched (s.after side next sent) := by
  have hp := h.window side.peer
  rw [Side.peer_peer] at hp
  constructor
  · refine forall_side side ?_ ?_
    · rw [after_chan_self]
      exact hr.unused
    · rw [after_chan_peer]
      exact h.unused side.peer
  · refine forall_side side ?_ ?_
    · rw [after_chan_self, after_chan_peer, hr.localWindow]
      exact h.window side
    · rw [Side.peer_peer, after_chan_self, after_chan_peer, hr.remoteWindow]
      exact hp
  · refine forall_side side ?_ ?_
    · rw [after_toward_self]
      exact h.plain side
    · rw [after_toward_peer]
      intro message hMem
      rcases mem_append.1 hMem with hOld | hNew
      · exact h.plain side.peer message hOld
      · exact hr.plain message hNew

lemma Untouched.taken {rest : List Message}
    (ht : s.toward side = message :: rest) : Untouched (s.taken side rest) := by
  refine ⟨h.unused, h.window, forall_side side ?_ ?_⟩
  · rw [taken_toward_self]
    intro later hMem
    apply h.plain side later
    rw [ht]
    exact .tail _ hMem
  · rw [taken_toward_peer]
    exact h.plain side.peer

lemma flowStep_untouched {next : Pair} (hn : NoDatagram s input)
    (hs : flowStep fellows s input = .ok (next, sent)) : Untouched next := by
  obtain ⟨side, turn⟩ := input
  by_cases hTurn : turn = .deliver
  · subst hTurn
    rw [flowStep] at hs
    split at hs
    · cases hs
      exact h
    · next message rest ht =>
      obtain ⟨⟨after, shown⟩, hi, hd⟩ := map_eq_ok.1 hs
      cases hd
      have hp : message.Plain := by
        apply h.plain side message
        rw [ht]
        exact mem_cons_self
      exact (h.taken ht).after ((h.unused side).takes hp hi)
  · rw [flowStep.eq_2 _ _ _ _ (by simpa using hTurn)] at hs
    obtain ⟨⟨after, shown⟩, hw, hd⟩ := map_eq_ok.1 hs
    cases hd
    exact h.after ((h.unused side).works (fun hPoll => hn (Turn.polls_eq_true.2 hPoll)) hw)

/-- The first datagram costs its sender four bytes less than its receiver. -/
lemma flowStep_datagram (hs : ¬ NoDatagram s input) :
    ∃ next sent, flowStep fellows s input = .ok (next, sent) ∧ ¬ WindowsAgree next := by
  obtain ⟨side, turn⟩ := input
  rw [NoDatagram, Turn.polls_eq_true] at hs
  obtain ⟨rfl, hr⟩ := Classical.not_imp.1 hs
  obtain ⟨data, rest, hWin, hPoll⟩ :=
    outputPoll_ready (h.unused side) (Bool.not_eq_false _ ▸ hr)
  refine ⟨_, _, congrArg (Except.map _) hPoll, fun ha => ?_⟩
  have hp := ha side.peer
  have hPre := h.agree side.peer
  simp only [Side.peer_peer, after_chan_self, after_chan_peer, after_toward_self,
    after_toward_peer, charges_append] at hp hPre
  rw [toNat_sub_ofNat hWin] at hp
  simp only [charges, Message.charge, map_cons, map_nil, sum_cons, sum_nil] at hp hPre
  omega

end

/-- The windows of a tunnel agree throughout a run exactly if no datagram is sent. -/
theorem datagram_agreement_iff {fellows : Datafellows} {s : Pair} {turns : List (Side × Turn)}
    (hOpened : TunnelOpened s) : Throughout (flowStep fellows) WindowsAgree s turns ↔
      Along (flowStep fellows) NoDatagram s turns :=
  throughout_iff_along Untouched (fun _ => Untouched.agree)
    (fun _ _ _ _ hUntouched hNone hStep => flowStep_untouched hUntouched hNone hStep)
    (fun _ _ hUntouched hSome => flowStep_datagram hUntouched hSome) hOpened.untouched

def smallTunnel : Pair where
  chan _ := { shellSession with
    datagram := true
    localWindow := 8
    localWindowMax := 8
    localMaxpacket := 4
    remoteWindow := 8
    remoteMaxpacket := 4
    extendedUsage := .ignore }
  toward _ := []

lemma smallTunnel_opened : TunnelOpened smallTunnel :=
  ⟨fun _ => ⟨rfl, rfl, rfl, rfl, rfl, Nat.le_refl _⟩, fun _ => rfl, fun _ => rfl⟩

/-- A datagram that is too large for the other end's packets is dropped by its sender. -/
def largeDatagram : List (Side × Turn) :=
  [(.far, .rfd (reads [1, 2, 3, 4, 5]) twoSessions.globals), (.far, .outputPoll),
    (.near, .checkWindow), (.far, .outputPoll)]

theorem datagram_agreement_large :
    Throughout (flowStep ⟨false, true⟩) WindowsAgree smallTunnel largeDatagram :=
  (datagram_agreement_iff smallTunnel_opened).2 (by decide +kernel)

def twoDatagrams : List (Side × Turn) :=
  [(.far, .rfd (reads [1, 2, 3]) twoSessions.globals), (.far, .outputPoll), (.near, .deliver),
    (.far, .rfd (reads [4, 5, 6]) twoSessions.globals), (.far, .outputPoll), (.near, .deliver)]

/-- The windows differ after the first datagram, and the second one is dropped as too much. -/
theorem datagram_window_leaks :
    (¬ ∀ turns, Throughout (flowStep ⟨false, true⟩) WindowsAgree smallTunnel turns) ∧
    ∃ last sent, run (flowStep ⟨false, true⟩) smallTunnel twoDatagrams = .ok (last, sent) ∧
      dataBytes sent = 6 ∧ last.toward .near = [] ∧
      (last.chan .far).remoteWindow = 2 ∧ (last.chan .near).localWindow = 1 ∧
      (last.chan .near).output = [0, 0, 0, 3, 1, 2, 3] := by
  have hEnd : (run (flowStep ⟨false, true⟩) smallTunnel twoDatagrams).toOption.map
    (fun out => (dataBytes out.2, (out.1.chan .far).remoteWindow, (out.1.chan .near).localWindow,
      (out.1.chan .near).output, (out.1.toward .near ++ out.1.toward .far).isEmpty)) =
    some (6, 2, 1, [0, 0, 0, 3, 1, 2, 3], true) := by decide +kernel
  obtain ⟨⟨last, sent⟩, hRun, hLast⟩ := Option.map_eq_some_iff.1 hEnd
  simp only [Prod.mk.injEq, List.isEmpty_iff, append_eq_nil_iff] at hLast
  obtain ⟨hSent, hRemote, hWindow, hOutput, hNear, hFar⟩ := hLast
  constructor
  · intro hClaim
    have hAgree := (hClaim twoDatagrams).last (toOption_eq_some.1 hRun) .near
    rw [Side.peer, hRemote, hWindow, hNear, hFar] at hAgree
    exact absurd hAgree (by decide)
  · exact ⟨last, sent, toOption_eq_some.1 hRun, hSent, hNear, hRemote, hWindow, hOutput⟩

end Channel
