import Sshfortress.Channel.Table

/-! What marks a channel while it is used. Its type changes only where a channel is opened, it is
marked as closed by the peer when CLOSE arrives, and CLOSE is the last thing that it says. -/
namespace Channel
open Base Base.Transition List

/-! What the functions of an open channel leave alone. -/

/-- The type stays, and so does the mark that the peer has closed the channel. -/
structure Keeps (c next : Chan) : Prop where
  type : next.type = c.type
  closeRcvd : next.closeRcvd = c.closeRcvd
  detachClose : next.detachClose = c.detachClose

variable (c : Chan)

lemma Keeps.refl : Keeps c c := ⟨rfl, rfl, rfl⟩

lemma Keeps.trans {c middle next : Chan} (front : Keeps c middle) (back : Keeps middle next) :
    Keeps c next :=
  ⟨back.type.trans front.type, back.closeRcvd.trans front.closeRcvd,
    back.detachClose.trans front.detachClose⟩

lemma chanReadFailed_keeps : Keeps c (chanReadFailed proto2 c) := by
  obtain ⟨rfd, istate, hEq, -⟩ := chanReadFailed_eq proto2 c
  rw [hEq]
  exact ⟨rfl, rfl, rfl⟩

lemma chanWriteFailed_keeps : Keeps c (chanWriteFailed proto2 c) := by
  rcases chanWriteFailed_eq proto2 c with ⟨-, hEq⟩ | ⟨wfd, ostate, hEq, -⟩
  · rw [hEq]
    exact .refl c
  · rw [hEq]
    exact ⟨rfl, rfl, rfl⟩

lemma chanRcvdEow_keeps : Keeps c (chanRcvdEow proto2 c) := by
  obtain ⟨rfd, istate, hEq, -⟩ := chanRcvdEow_eq proto2 c
  rw [hEq]
  exact ⟨rfl, rfl, rfl⟩

lemma Touch.keeps {c next : Chan} (ht : c.type = .opened) (h : Touch proto2 c next) : Keeps c next := by
  cases h with
  | readFailed => exact chanReadFailed_keeps c
  | writeFailed => exact chanWriteFailed_keeps c
  | inputDraining hc => cases hc
  | dead ho => exact absurd ht ho
  | _ => exact ⟨rfl, rfl, rfl⟩

lemma Touches.keeps {c next : Chan} (hType : c.type = .opened) (h : Touches proto2 c next) :
    Keeps c next := by
  induction h with
  | refl => exact .refl c
  | tail _ ht ih => exact ih.trans (ht.keeps (ih.type.trans hType))

/-! What a channel says. -/

def Finished (c : Chan2) : Prop := c.closeSent = true → c.istate = .closed ∧ c.ostate = .closed

variable {c next : Chan2} {sent : List Message} {fellows : Datafellows} {message : Message}

lemma Effect.finished (h : Effect c next sent) (hFin : Finished c) : Finished next := by
  intro hNow
  rcases h.closeSent.1 hNow with hOld | hSent
  · obtain ⟨hIn, hOut⟩ := hFin hOld
    exact ⟨h.istate.eq_closed hIn, h.ostate.eq_closed hOut⟩
  · exact ⟨(h.close hSent).2.1, (h.close hSent).2.2.1⟩

/-- Nothing, some words, or the last word. -/
inductive Speaks (c next : Chan2) (sent : List Message) : Prop where
  | silent (hSame : next.closeSent = c.closeSent) (hNone : sent = [])
  | words (hBefore : c.closeSent = false) (hAfter : next.closeSent = false) (hWords : .close ∉ sent)
  | closes (hBefore : c.closeSent = false) (hAfter : next.closeSent = true) (hSent : sent = [.close])

lemma Effect.speaks (h : Effect c next sent) (hFin : Finished c)
    (hEow : .eow ∈ sent → c.ostate ≠ .closed) : Speaks c next sent := by
  by_cases hc : .close ∈ sent
  · obtain ⟨hBefore, -, -, hSent⟩ := h.close hc
    exact .closes hBefore (h.closeSent.2 (.inr hc)) hSent
  have hSame : next.closeSent = c.closeSent :=
    Bool.eq_iff_iff.2 (h.closeSent.trans (or_iff_left hc))
  cases hSent : c.closeSent with
  | false => exact .words hSent (hSame.trans hSent) hc
  | true =>
    obtain ⟨hIn, hOut⟩ := hFin hSent
    refine .silent hSame ?_
    apply eq_nil_iff_forall_not_mem.2
    intro message hMem
    cases message with
    | data bytes => exact (h.data bytes hMem).1 hIn
    | extendedData code bytes =>
      exact absurd (hSent.symm.trans (h.extendedData code bytes hMem).2) (by simp)
    | windowAdjust adjust => exact absurd (hSent.symm.trans (h.windowAdjust adjust hMem)) (by simp)
    | eof => exact (h.eof hMem).1 hIn
    | close => exact hc hMem
    | eow => exact hEow hMem hOut

lemma eowAfter_ostate {next : Chan} (h : .eow ∈ eowAfter fellows c next) : c.ostate ≠ .closed := by
  intro hc
  rw [eowAfter, hc] at h
  simp at h

structure Stays (c next : Chan2) : Prop where
  keeps : Keeps c.toChan next.toChan
  isLocal : next.isLocal = c.isLocal
  detachUser : next.detachUser = c.detachUser

lemma Stays.refl (c : Chan2) : Stays c c := ⟨.refl _, rfl, rfl⟩

lemma Stays.trans {middle : Chan2} (front : Stays c middle) (back : Stays middle next) : Stays c next :=
  ⟨front.keeps.trans back.keeps, back.isLocal.trans front.isLocal, back.detachUser.trans front.detachUser⟩

lemma Stays.facts (h : Stays c next) :
    next.type = c.type ∧ next.closeRcvd = c.closeRcvd ∧ next.isLocal = c.isLocal :=
  ⟨h.keeps.type, h.keeps.closeRcvd, h.isLocal⟩

lemma Shift.stays (h : Shift c next) : Stays c next := by
  cases h <;> exact ⟨⟨rfl, rfl, rfl⟩, rfl, rfl⟩

lemma Shifts.stays (h : Shifts c next sent) : Stays c next := by
  induction h with
  | done c => exact .refl c
  | eof hDrain => exact ⟨⟨rfl, rfl, rfl⟩, rfl, rfl⟩
  | step hs rest ih => exact hs.stays.trans ih

lemma Polls.stays (h : Polls c next sent) : Stays c next ∧ .eow ∉ sent := by
  induction h with
  | idle => exact ⟨.refl _, by simp⟩
  | drops input => exact ⟨⟨⟨rfl, rfl, rfl⟩, rfl, rfl⟩, by simp⟩
  | sends input bytes => exact ⟨⟨⟨rfl, rfl, rfl⟩, rfl, rfl⟩, by simp⟩
  | drains h => exact ⟨h.stays, fun hMem => nomatch h.eof_of_mem _ hMem⟩
  | sendsExtended front extended bytes _ _ _ _ _ ih =>
    exact ⟨ih.1.trans ⟨⟨rfl, rfl, rfl⟩, rfl, rfl⟩, by simpa using ih.2⟩

lemma channelHandleEfd_stays (r : Round) (c : Chan2) : Stays c (channelHandleEfd r c) := by
  rcases channelHandleEfd_cases r c with
    ⟨efd, hSame⟩ | ⟨len, -, -, -, hw⟩ | ⟨extended, -, hr⟩
  · rw [hSame]
    exact ⟨⟨rfl, rfl, rfl⟩, rfl, rfl⟩
  · rw [hw]
    exact ⟨⟨rfl, rfl, rfl⟩, rfl, rfl⟩
  · rw [hr]
    exact ⟨⟨rfl, rfl, rfl⟩, rfl, rfl⟩

lemma closeStep_stays {occurrence : Occurrence} {seen : List Outcome}
    (hMay : occurrence.allowed c.type = true) (h : closeStep fellows c occurrence = .ok (next, seen)) :
    (next.type = c.type ∧ next.closeRcvd = c.closeRcvd ∧ next.isLocal = c.isLocal) ∧
      (.eow ∈ messages seen → c.ostate ≠ .closed) := by
  cases occurrence with
  | rfd r g =>
    have ht : c.type = .opened := by
      cases hKind : c.type <;> rw [hKind] at hMay <;> first | rfl | cases hMay
    obtain ⟨⟨after, sent⟩, hr, hSame⟩ := map_eq_ok.1 h
    cases hSame
    obtain ⟨⟨g', chan, actions⟩, hRfd, hr⟩ := bind_eq_ok.1 hr
    cases hr
    have hk := (channelHandleRfd_reads hRfd).touches.keeps ht
    refine ⟨⟨hk.type, hk.closeRcvd, rfl⟩, ?_⟩
    rw [messages_sent]
    exact eowAfter_ostate
  | wfd r g =>
    have ht : c.type = .opened := by
      cases hKind : c.type <;> rw [hKind] at hMay <;> first | rfl | cases hMay
    obtain ⟨⟨after, sent⟩, hw, hSame⟩ := map_eq_ok.1 h
    cases hSame
    obtain ⟨⟨g', chan, actions⟩, hWfd, hw⟩ := bind_eq_ok.1 hw
    cases hw
    have hk := (channelHandleWfd_touches hWfd).keeps ht
    refine ⟨⟨hk.type, hk.closeRcvd, rfl⟩, ?_⟩
    rw [messages_sent]
    exact eowAfter_ostate
  | efd r =>
    cases h
    exact ⟨(channelHandleEfd_stays r c).facts, by simp [messages]⟩
  | preOpen =>
    cases h
    exact ⟨(channelPreOpen_shifts c).stays.facts, by simp [messages]⟩
  | outputPoll =>
    obtain ⟨⟨after, sent⟩, hp, hSame⟩ := map_eq_ok.1 h
    cases hSame
    obtain ⟨hStays, hNone⟩ := (channelOutputPoll_polls hp).stays
    refine ⟨hStays.facts, ?_⟩
    rw [messages_sent]
    exact fun hMem => absurd hMem hNone
  | checkWindow =>
    cases h
    rw [messages_sent]
    rcases channelCheckWindow2_cases c with hNone | ⟨-, -, ha⟩
    · rw [hNone]
      exact ⟨(Stays.refl c).facts, by simp⟩
    · rw [ha]
      exact ⟨⟨rfl, rfl, rfl⟩, by simp⟩
  | registerCleanup doClose =>
    cases h
    exact ⟨⟨rfl, rfl, rfl⟩, by simp [messages]⟩
  | readFailed =>
    cases h
    have hk := chanReadFailed_keeps c.toChan
    exact ⟨⟨hk.type, hk.closeRcvd, rfl⟩, by simp [messages]⟩
  | writeFailed =>
    cases h
    rw [messages_sent, chanWriteFailed2_eq]
    have hk := chanWriteFailed_keeps c.toChan
    exact ⟨⟨hk.type, hk.closeRcvd, rfl⟩, eowAfter_ostate⟩
  | ibufEmpty =>
    cases h
    rw [messages_sent]
    have hs := chanIbufEmpty_shifts c
    exact ⟨hs.stays.facts, fun hMem => by cases hs.eof_of_mem _ hMem⟩
  | obufEmpty =>
    cases h
    exact ⟨(chanObufEmpty_shifts c).stays.facts, by simp [messages]⟩
  | garbageCollect detaches => cases hKind : c.type <;> rw [hKind] at hMay <;> cases hMay
  | received message => cases hKind : c.type <;> rw [hKind] at hMay <;> cases hMay
  | confirmed window maxpacket => cases hKind : c.type <;> rw [hKind] at hMay <;> cases hMay
  | isDead doSend => cases hKind : c.type <;> rw [hKind] at hMay <;> cases hMay
  | markDead => cases hKind : c.type <;> rw [hKind] at hMay <;> cases hMay

/-! Messages of the peer. -/

lemma channelInputData2_stays (data : Bytes) (c : Chan2) : Stays c (channelInputData2 data c) := by
  rw [channelInputData2, Chan2.onChan]
  rcases @channelInputData_eq proto2 c.toChan data with
    ⟨window, consumed, hd⟩ | ⟨window, hq⟩
  · rw [hd]
    exact ⟨⟨rfl, rfl, rfl⟩, rfl, rfl⟩
  · rw [hq]
    exact ⟨⟨rfl, rfl, rfl⟩, rfl, rfl⟩

/-- What a message does to the channel: CLOSE sets the mark that the peer has closed it, and at
most EOF is sent in answer. -/
structure Hears (message : Message) (c next : Chan2) (sent : List Message) : Prop where
  type : next.type = c.type
  isLocal : next.isLocal = c.isLocal
  detachUser : next.detachUser = c.detachUser
  detachClose : next.detachClose = c.detachClose
  closeRcvd : next.closeRcvd = (c.closeRcvd || decide (message = .close))
  eof : ∀ answer ∈ sent, answer = .eof

lemma Stays.hears (h : Stays c next) (ho : message ≠ .close)
    (hSent : ∀ answer ∈ sent, answer = .eof) : Hears message c next sent where
  type := h.keeps.type
  isLocal := h.isLocal
  detachUser := h.detachUser
  detachClose := h.keeps.detachClose
  closeRcvd := by
    rw [h.keeps.closeRcvd]
    simp [ho]
  eof := hSent

lemma chanRcvdClose2_hears (hl : c.isLocal = false) :
    Hears .close c (chanRcvdClose2 c).1 (chanRcvdClose2 c).2 := by
  have hs := chanRcvdClose2_shifts c
  rw [if_neg (by simp [hl])] at hs
  have hc := hs.stays
  refine ⟨hc.keeps.type, hc.isLocal, hc.detachUser, hc.keeps.detachClose, ?_, hs.eof_of_mem⟩
  rw [hc.keeps.closeRcvd]
  simp

lemma channelInput_hears (hl : c.isLocal = false)
    (h : channelInput fellows message c = .ok (next, sent)) : Hears message c next sent := by
  cases message with
  | data bytes =>
    cases h
    exact (channelInputData2_stays bytes c).hears (by simp) (by simp)
  | extendedData code bytes =>
    obtain ⟨after, hi, h⟩ := bind_eq_ok.1 h
    cases h
    refine Stays.hears ?_ (by simp) (by simp)
    rw [channelInputExtendedData] at hi
    split_ifs at hi <;> cases hi <;> exact ⟨⟨rfl, rfl, rfl⟩, rfl, rfl⟩
  | windowAdjust adjust =>
    obtain ⟨after, hi, h⟩ := bind_eq_ok.1 h
    cases h
    refine Stays.hears ?_ (by simp) (by simp)
    rw [channelInputWindowAdjust] at hi
    split_ifs at hi
    cases hi
    exact ⟨⟨rfl, rfl, rfl⟩, rfl, rfl⟩
  | eof =>
    have hs := channelInputIeof_shifts c
    rw [show channelInputIeof c = (next, sent) from Except.ok.inj h] at hs
    exact hs.stays.hears (by simp) hs.eof_of_mem
  | close =>
    have hc := chanRcvdClose2_hears hl
    rwa [show chanRcvdClose2 c = (next, sent) from Except.ok.inj h] at hc
  | eow =>
    cases h
    exact Stays.hears ⟨chanRcvdEow_keeps c.toChan, rfl, rfl⟩ (by simp) (by simp)

/-! Dead channels. -/

variable (fellows)

lemma chanIsDead_stays (c : Chan2) (doSend : Bool) : Stays c (chanIsDead fellows c doSend).1 := by
  rcases chanIsDead_cases fellows c doSend with ⟨hSame, -⟩ | ⟨-, -, -, hm, -⟩
  · rw [hSame]
    exact .refl c
  · rw [hm]
    exact ⟨⟨rfl, rfl, rfl⟩, rfl, rfl⟩

lemma channelGarbageCollect_stays (detaches : Bool) (c : Chan2) :
    (channelGarbageCollect fellows detaches c).1.type = c.type ∧
      (channelGarbageCollect fellows detaches c).1.closeRcvd = c.closeRcvd ∧
        (channelGarbageCollect fellows detaches c).1.isLocal = c.isLocal := by
  have ht := (chanIsDead_stays fellows c c.detachClose).facts
  rw [channelGarbageCollect]
  dsimp only
  split_ifs
  · have hr := (chanIsDead_stays fellows
      (channelCancelCleanup (checkDead fellows c c.detachClose).1) true).facts
    exact ⟨hr.1.trans ht.1, hr.2.1.trans ht.2.1, hr.2.2.trans ht.2.2⟩
  · exact ht
  · exact (chanIsDead_stays fellows c true).facts

lemma channelGarbageCollect_noEow (detaches : Bool) (c : Chan2) :
    .eow ∉ messages (channelGarbageCollect fellows detaches c).2 := by
  have hNone (doSend : Bool) (c : Chan2) : .eow ∉ (chanIsDead fellows c doSend).2.1 := by
    rcases chanIsDead_sent fellows c doSend with hSent | hSent
    · simp [hSent]
    · simp [hSent]
  rw [channelGarbageCollect]
  dsimp only
  split_ifs
  · rw [messages_append, checkDead_messages, freeIfDead_messages, mem_append, not_or]
    exact ⟨hNone _ _, hNone _ _⟩
  · rw [checkDead_messages]
    exact hNone _ _
  · rw [freeIfDead_messages]
    exact hNone _ _

lemma isFreed_append (first rest : List Outcome) :
    isFreed (first ++ rest) = (isFreed first || isFreed rest) :=
  any_append

lemma isFreed_checkDead (c : Chan2) (doSend : Bool) :
    isFreed (checkDead fellows c doSend).2.1 = false := by
  rw [checkDead]
  dsimp only
  split_ifs
  · simp [isFreed]
  · simp [isFreed]

lemma isFreed_freeIfDead (c : Chan2) :
    isFreed (freeIfDead fellows c).2 = (chanIsDead fellows c true).2.2 := by
  rw [freeIfDead]
  cases hd : (chanIsDead fellows c true).2.2 with
  | false => simp [checkDead, hd, isFreed]
  | true => simp [checkDead, hd, isFreed]

variable {fellows} {detaches : Bool}

lemma channelGarbageCollect_freed (ht : c.type ≠ .zombie) (hl : c.isLocal = false)
    (h : isFreed (channelGarbageCollect fellows detaches c).2 = true) :
    (channelGarbageCollect fellows detaches c).1.closeRcvd = true ∧
      (channelGarbageCollect fellows detaches c).1.closeSent = true := by
  -- The channel that is freed is the one that is left, so the verdict tells about it.
  have hf (c : Chan2) (ht : c.type ≠ .zombie) (hl : c.isLocal = false)
    (h : isFreed (freeIfDead fellows c).2 = true) :
    (freeIfDead fellows c).1.closeRcvd = true ∧ (freeIfDead fellows c).1.closeSent = true := by
    rw [isFreed_freeIfDead] at h
    obtain ⟨hk, -, hOwn⟩ := (chanIsDead_stays fellows c true).facts
    obtain ⟨hr, hSent⟩ := chanIsDead_dead h (by rwa [hk]) (by rwa [hOwn])
    exact ⟨hr, hSent rfl⟩
  have hTold := (chanIsDead_stays fellows c c.detachClose).facts
  rw [channelGarbageCollect] at h ⊢
  dsimp only at h ⊢
  split_ifs at h ⊢
  · rw [isFreed_append, isFreed_checkDead, Bool.false_or] at h
    refine hf _ ?_ ?_ h
    · exact fun hz => ht (hTold.1.symm.trans hz)
    · exact hTold.2.2.trans hl
  · rw [isFreed_checkDead] at h
    cases h
  · exact hf c ht hl h

lemma channelGarbageCollect_zombie (fellows : Datafellows) (detaches : Bool)
    (ht : c.type = .zombie) : messages (channelGarbageCollect fellows detaches c).2 = [] := by
  have hd (c : Chan2) (doSend : Bool) (ht : c.type = .zombie) :
    chanIsDead fellows c doSend = (c, [], true) := by rw [chanIsDead, if_pos ht]
  rw [channelGarbageCollect]
  dsimp only
  split_ifs
  · rw [messages_append, checkDead_messages, freeIfDead_messages, hd c _ ht, nil_append,
      checkDead, hd c _ ht]
    rw [hd (channelCancelCleanup c) true ht]
  · rw [checkDead_messages, hd c _ ht]
  · rw [freeIfDead_messages, hd c _ ht]

lemma channelGarbageCollect_open (fellows : Datafellows) (detaches : Bool)
    (ht : c.type ≠ .zombie) (hIn : c.istate ≠ .closed) :
    channelGarbageCollect fellows detaches c = (c, []) := by
  have ha (doSend : Bool) : checkDead fellows c doSend = (c, [], false) := by
    rw [checkDead, chanIsDead, if_neg ht, if_pos (by simp [hIn])]
    rfl
  rw [channelGarbageCollect, freeIfDead, ha, ha]
  simp

/-- A channel whose user wants to be told of its end before CLOSE is sent. -/
structure Attached (c : Chan2) : Prop where
  closeSent : c.closeSent = false
  detachUser : c.detachUser = true
  detachClose : c.detachClose = false

lemma Hears.attached (h : Hears message c next sent) (he : Effect c next sent)
    (ha : Attached c) : Attached next where
  closeSent := by
    apply Bool.eq_false_iff.2
    intro hNow
    rcases he.closeSent.1 hNow with hOld | hSent
    · rw [ha.closeSent] at hOld
      cases hOld
    · cases h.eof _ hSent
  detachUser := h.detachUser.trans ha.detachUser
  detachClose := h.detachClose.trans ha.detachClose

lemma chanIsDead_asked (ht : c.type ≠ .zombie) (hl : c.isLocal = false)
    (ha : Attached c) (h : (chanIsDead fellows c false).2.2 = true) :
    (chanIsDead fellows (channelCancelCleanup c) true).2.2 = true := by
  have hSent := ha.closeSent
  rw [chanIsDead, if_neg ht] at h
  split_ifs at h with ho hActive hOwn hAlmost hs
  · rw [hl] at hOwn
    cases hOwn
  · have hr : c.closeRcvd = true := by simpa [hSent] using hAlmost
    have hc : chanSendClose2 (channelCancelCleanup c) =
      ({ channelCancelCleanup c with closeSent := true }, [.close]) := by
      rw [channelCancelCleanup, chanSendClose2]
      rw [if_neg (by rwa [Bool.or_comm]), if_neg (by simp [hSent])]
    rw [chanIsDead, hc, channelCancelCleanup]
    rw [if_neg ht, if_neg ho, if_neg hActive, if_neg hOwn, if_neg (by simp), if_pos (by simp [hSent])]
    exact hr
  · simp at hs
  · simp [hSent] at h

lemma channelGarbageCollect_attached (ht : c.type ≠ .zombie) (hl : c.isLocal = false) (ha : Attached c)
    (h : isFreed (channelGarbageCollect fellows detaches c).2 = false) :
    (channelGarbageCollect fellows detaches c).1 = c := by
  have hu := ha.detachUser
  have hc := ha.detachClose
  have hAsked : (chanIsDead fellows c false).1 = c := by
    rw [chanIsDead]
    split_ifs <;> simp_all
  rw [channelGarbageCollect] at h ⊢
  rw [if_pos hu, hc] at h ⊢
  dsimp only at h ⊢
  split_ifs at h ⊢ with hTold
  · -- The peer has closed the channel, so it is freed as soon as we do.
    rw [isFreed_append, isFreed_checkDead, Bool.false_or, isFreed_freeIfDead] at h
    have hd := chanIsDead_asked ht hl ha (Bool.and_eq_true_iff.1 hTold).1
    rw [show (checkDead fellows c false).1 = c from hAsked, hd] at h
    cases h
  · exact hAsked

end Channel
