import Sshfortress.Channel.Protocol2

/-! How a channel of protocol 2 ends. Its two sides only move towards their end, each
message that ends something is sent once, and nothing follows that it rules out. -/
namespace Channel
open Base Base.Transition List

/-! The two sides move forward. -/

def InputState.Leads (a b : InputState) : Prop :=
  b = a ∨ b = .closed ∨ a = .opened ∧ b = .waitDrain

def OutputState.Leads (a b : OutputState) : Prop :=
  b = a ∨ b = .closed ∨ a = .opened ∧ b = .waitDrain

variable {a b : InputState} {message : Message}

lemma InputState.Leads.trans {c : InputState} (front : a.Leads b) (back : b.Leads c) : a.Leads c := by
  rcases back with rfl | rfl | ⟨rfl, rfl⟩
  · exact front
  · exact .inr (.inl rfl)
  · rcases front with rfl | hn | ⟨-, hn⟩
    · exact .inr (.inr ⟨rfl, rfl⟩)
    · cases hn
    · cases hn

lemma OutputState.Leads.trans {a b c : OutputState} (front : a.Leads b) (back : b.Leads c) : a.Leads c := by
  rcases back with rfl | rfl | ⟨rfl, rfl⟩
  · exact front
  · exact .inr (.inl rfl)
  · rcases front with rfl | hn | ⟨-, hn⟩
    · exact .inr (.inr ⟨rfl, rfl⟩)
    · cases hn
    · cases hn

lemma InputState.Leads.eq_closed (h : a.Leads b) (hc : a = .closed) : b = .closed := by
  rcases h with rfl | rfl | ⟨rfl, -⟩
  · exact hc
  · rfl
  · cases hc

lemma OutputState.Leads.eq_closed {a b : OutputState} (h : a.Leads b) (hc : a = .closed) : b = .closed := by
  rcases h with rfl | rfl | ⟨rfl, -⟩
  · exact hc
  · rfl
  · cases hc

/-- A part of a handler that may end a side and sends neither EOF nor CLOSE. -/
structure Forward (c next : Chan) : Prop where
  istate : c.istate.Leads next.istate
  ostate : c.ostate.Leads next.ostate
  closeSent : next.closeSent = c.closeSent

lemma Forward.of_eq {c next : Chan} (hIn : next.istate = c.istate) (hOut : next.ostate = c.ostate)
    (hs : next.closeSent = c.closeSent) : Forward c next :=
  ⟨.inl hIn, .inl hOut, hs⟩

variable (c : Chan)

lemma Forward.refl : Forward c c := .of_eq rfl rfl rfl

lemma Forward.trans {c middle next : Chan} (front : Forward c middle)
    (back : Forward middle next) : Forward c next :=
  ⟨front.istate.trans back.istate, front.ostate.trans back.ostate, back.closeSent.trans front.closeSent⟩

lemma chanReadFailed_forward : Forward c (chanReadFailed proto2 c) := by
  obtain ⟨rfd, istate, hEq, hl⟩ := chanReadFailed_eq proto2 c
  rw [hEq]
  exact ⟨hl.imp_right .inr, .inl rfl, rfl⟩

lemma chanWriteFailed_forward : Forward c (chanWriteFailed proto2 c) := by
  rcases chanWriteFailed_eq proto2 c with ⟨-, hEq⟩ | ⟨wfd, ostate, hEq, -, hc⟩
  · rw [hEq]
    exact .refl c
  · rw [hEq]
    exact ⟨.inl rfl, .inr (.inl (hc rfl)), rfl⟩

lemma chanRcvdEow_forward : Forward c (chanRcvdEow proto2 c) := by
  obtain ⟨rfd, istate, hEq, hl⟩ := chanRcvdEow_eq proto2 c
  rw [hEq]
  exact ⟨hl.imp_right .inl, .inl rfl, rfl⟩

lemma Touch.forward {c next : Chan} (h : Touch proto2 c next) : Forward c next := by
  cases h with
  | readFailed => exact chanReadFailed_forward c
  | writeFailed => exact chanWriteFailed_forward c
  | _ => exact .of_eq rfl rfl rfl

lemma Touches.forward {c next : Chan} (h : Touches proto2 c next) : Forward c next := by
  induction h with
  | refl => exact .refl c
  | tail _ ht ih => exact ih.trans ht.forward

lemma channelInputData_forward (data : Bytes) (c : Chan) :
    Forward c (channelInputData proto2 data c).1 := by
  rcases channelInputData_eq data with ⟨window, consumed, hd⟩ | ⟨window, hq⟩
  · rw [hd]
    exact .of_eq rfl rfl rfl
  · rw [hq]
    exact .of_eq rfl rfl rfl

/-! The machine. -/

/-- What can happen to a channel, in any order: its descriptors are served, the peer sends
something, the connection is polled, dead channels are looked for, and the functions for the
ends of the two sides are called from elsewhere. -/
inductive Occurrence where
  | rfd (r : Round) (g : Globals)
  | wfd (r : Round) (g : Globals)
  | efd (r : Round)
  | preOpen
  | outputPoll
  | checkWindow
  | garbageCollect (detaches : Bool)
  | received (message : Message)
  | confirmed (window maxpacket : UInt32)
  | registerCleanup (doClose : Bool)
  | readFailed
  | writeFailed
  | ibufEmpty
  | obufEmpty
  | isDead (doSend : Bool)
  | markDead

def sentOnly (out : Chan2 × List Message) : Chan2 × List Outcome := (out.1, out.2.map .sent)

def closeStep (fellows : Datafellows) (c : Chan2) : Occurrence → Except Stop (Chan2 × List Outcome)
  | .rfd r g => (channelHandleRfd2 fellows r g c).map sentOnly
  | .wfd r g => (channelHandleWfd2 fellows r g c).map sentOnly
  | .efd r => .ok (channelHandleEfd r c, [])
  | .preOpen => .ok (channelPreOpen c, [])
  | .outputPoll => (channelOutputPoll c).map sentOnly
  | .checkWindow => .ok (sentOnly (channelCheckWindow2 c))
  | .garbageCollect detaches => .ok (channelGarbageCollect fellows detaches c)
  | .received message => (channelInput fellows message c).map sentOnly
  | .confirmed window maxpacket =>
    .ok ({ c with type := .opened, remoteWindow := window, remoteMaxpacket := maxpacket }, [])
  | .registerCleanup doClose => .ok ({ c with detachUser := true, detachClose := doClose }, [])
  | .readFailed => .ok (c.onChan (chanReadFailed proto2), [])
  | .writeFailed => .ok (sentOnly (chanWriteFailed2 fellows c))
  | .ibufEmpty => .ok (sentOnly (chanIbufEmpty c))
  | .obufEmpty => .ok (chanObufEmpty c, [])
  | .isDead doSend => .ok ((checkDead fellows c doSend).1, (checkDead fellows c doSend).2.1)
  | .markDead => .ok (c.onChan chanMarkDead, [])

def messages (seen : List Outcome) : List Message :=
  seen.filterMap fun
    | .sent message => some message
    | _ => none

/-! What one occurrence can do. -/

/-- A step that may send something, and what it says about the channel. -/
structure Effect (c next : Chan2) (sent : List Message) : Prop where
  istate : c.istate.Leads next.istate
  ostate : c.ostate.Leads next.ostate
  closeSent : next.closeSent = true ↔ c.closeSent = true ∨ .close ∈ sent
  eofSent : next.eofSent = true ↔ c.eofSent = true ∨ .eof ∈ sent
  data : ∀ bytes, .data bytes ∈ sent → c.istate ≠ .closed ∧ c.closeSent = false
  extendedData : ∀ code bytes, .extendedData code bytes ∈ sent → c.eofSent = false ∧ c.closeSent = false
  windowAdjust : ∀ adjust, .windowAdjust adjust ∈ sent → c.closeSent = false
  eof : .eof ∈ sent → c.istate ≠ .closed ∧ next.istate = .closed ∧ sent = [.eof]
  close : .close ∈ sent →
    c.closeSent = false ∧ next.istate = .closed ∧ next.ostate = .closed ∧ sent = [.close]

variable {c next middle : Chan2} {sent past : List Message} {fellows : Datafellows}

section
variable (h : Forward c.toChan next.toChan)
include h

section
variable (hEof : next.eofSent = c.eofSent)
include hEof

lemma Effect.of_plain (hNoEof : .eof ∉ sent) (hn : .close ∉ sent)
    (hd : ∀ bytes, .data bytes ∈ sent → c.istate ≠ .closed ∧ c.closeSent = false)
    (hExt : ∀ code bytes, .extendedData code bytes ∈ sent → c.eofSent = false ∧ c.closeSent = false)
    (ha : ∀ adjust, .windowAdjust adjust ∈ sent → c.closeSent = false) : Effect c next sent where
  istate := h.istate
  ostate := h.ostate
  closeSent := by
    rw [h.closeSent]
    exact (or_iff_left hn).symm
  eofSent := by
    rw [hEof]
    exact (or_iff_left hNoEof).symm
  data := hd
  extendedData := hExt
  windowAdjust := ha
  eof := fun hMem => absurd hMem hNoEof
  close := fun hMem => absurd hMem hn

lemma Effect.of_forward (hs : ∀ message ∈ sent, message = .eow) : Effect c next sent := by
  apply Effect.of_plain h hEof
  · intro hMem
    cases hs _ hMem
  · intro hMem
    cases hs _ hMem
  · intro bytes hMem
    cases hs _ hMem
  · intro code bytes hMem
    cases hs _ hMem
  · intro adjust hMem
    cases hs _ hMem

lemma Effect.of_forward_nil : Effect c next [] :=
  .of_forward h hEof fun _ hn => by cases hn

end

end

lemma Effect.closeSent_eq (h : Effect c next []) : next.closeSent = c.closeSent :=
  Bool.eq_iff_iff.2 (h.closeSent.trans (or_iff_left not_mem_nil))

lemma Effect.eofSent_eq (h : Effect c next []) : next.eofSent = c.eofSent :=
  Bool.eq_iff_iff.2 (h.eofSent.trans (or_iff_left not_mem_nil))

lemma Effect.after (back : Effect middle next sent) (front : Effect c middle []) : Effect c next sent where
  istate := front.istate.trans back.istate
  ostate := front.ostate.trans back.ostate
  closeSent := by
    rw [← front.closeSent_eq]
    exact back.closeSent
  eofSent := by
    rw [← front.eofSent_eq]
    exact back.eofSent
  data := by
    intro bytes hMem
    obtain ⟨ho, hc⟩ := back.data bytes hMem
    exact ⟨fun hClosed => ho (front.istate.eq_closed hClosed), front.closeSent_eq ▸ hc⟩
  extendedData := by
    intro code bytes hMem
    obtain ⟨hn, hc⟩ := back.extendedData code bytes hMem
    exact ⟨front.eofSent_eq ▸ hn, front.closeSent_eq ▸ hc⟩
  windowAdjust := by
    intro adjust hMem
    exact front.closeSent_eq ▸ back.windowAdjust adjust hMem
  eof := by
    intro hMem
    obtain ⟨ho, hr⟩ := back.eof hMem
    exact ⟨fun hClosed => ho (front.istate.eq_closed hClosed), hr⟩
  close := by
    intro hMem
    obtain ⟨hc, hr⟩ := back.close hMem
    exact ⟨front.closeSent_eq ▸ hc, hr⟩

lemma Effect.before (front : Effect c middle sent) (back : Effect middle next []) : Effect c next sent where
  istate := front.istate.trans back.istate
  ostate := front.ostate.trans back.ostate
  closeSent := by
    rw [back.closeSent_eq]
    exact front.closeSent
  eofSent := by
    rw [back.eofSent_eq]
    exact front.eofSent
  data := front.data
  extendedData := front.extendedData
  windowAdjust := front.windowAdjust
  eof := by
    intro hMem
    obtain ⟨ho, hc, hs⟩ := front.eof hMem
    exact ⟨ho, back.istate.eq_closed hc, hs⟩
  close := by
    intro hMem
    obtain ⟨ho, hIn, hOut, hs⟩ := front.close hMem
    exact ⟨ho, back.istate.eq_closed hIn, back.ostate.eq_closed hOut, hs⟩

lemma Shift.forward (h : Shift c next) : Forward c.toChan next.toChan ∧ next.eofSent = c.eofSent := by
  cases h with
  | readEnds rfd ho => exact ⟨⟨.inr (.inl rfl), .inl rfl, rfl⟩, rfl⟩
  | readDrains ho => exact ⟨⟨.inr (.inr ⟨ho, rfl⟩), .inl rfl, rfl⟩, rfl⟩
  | drained hDrain => exact ⟨⟨.inr (.inl rfl), .inl rfl, rfl⟩, rfl⟩
  | writeDrains ho => exact ⟨⟨.inl rfl, .inr (.inr ⟨ho, rfl⟩), rfl⟩, rfl⟩
  | writeEnds wfd hEmpty => exact ⟨⟨.inl rfl, .inr (.inl rfl), rfl⟩, rfl⟩
  | eofRcvd => exact ⟨.refl _, rfl⟩
  | tornDown => exact ⟨⟨.inr (.inl rfl), .inr (.inl rfl), rfl⟩, rfl⟩

lemma Shifts.effect (h : Shifts c next sent) : Effect c next sent := by
  induction h with
  | done c => exact .of_forward_nil (.refl _) rfl
  | eof hd =>
    constructor
    · exact .inr (.inl rfl)
    · exact .inl rfl
    · simp
    · simp
    · simp
    · simp
    · simp
    · intro _
      rw [hd]
      exact ⟨by decide, rfl, rfl⟩
    · simp
  | step hs rest ih => exact ih.after (.of_forward_nil hs.forward.1 hs.forward.2)

lemma chanRcvdClose2_effect (c : Chan2) : Effect c (chanRcvdClose2 c).1 (chanRcvdClose2 c).2 := by
  refine (chanRcvdClose2_shifts c).effect.after ?_
  split
  · exact .of_forward_nil (.refl _) rfl
  · exact .of_forward_nil (.of_eq rfl rfl rfl) rfl

lemma channelInput_effect (h : channelInput fellows message c = .ok (next, sent)) : Effect c next sent := by
  cases message with
  | data bytes =>
    cases h
    exact .of_forward_nil (channelInputData_forward bytes c.toChan) rfl
  | extendedData code bytes =>
    obtain ⟨after, hi, h⟩ := bind_eq_ok.1 h
    cases h
    rw [channelInputExtendedData] at hi
    split_ifs at hi
    · cases hi
      exact .of_forward_nil (.refl _) rfl
    · cases hi
      exact .of_forward_nil (.refl _) rfl
    · cases hi
      exact .of_forward_nil (.refl _) rfl
    · cases hi
      exact .of_forward_nil (.of_eq rfl rfl rfl) rfl
  | windowAdjust adjust =>
    obtain ⟨after, hi, h⟩ := bind_eq_ok.1 h
    cases h
    rw [channelInputWindowAdjust] at hi
    split_ifs at hi
    cases hi
    exact .of_forward_nil (.refl _) rfl
  | eof =>
    have he := (channelInputIeof_shifts c).effect
    rwa [Except.ok.inj h] at he
  | close =>
    have he := chanRcvdClose2_effect c
    rwa [Except.ok.inj h] at he
  | eow =>
    cases h
    exact .of_forward_nil (chanRcvdEow_forward c.toChan) rfl

lemma channelCheckWindow2_effect (c : Chan2) :
    Effect c (channelCheckWindow2 c).1 (channelCheckWindow2 c).2 := by
  rcases channelCheckWindow2_cases c with hn | ⟨ho, -, ha⟩
  · rw [hn]
    exact .of_forward_nil (.refl _) rfl
  · rw [ha]
    have hf : Forward c.toChan
      { c with localWindow := c.localWindow + c.localConsumed, localConsumed := 0 }.toChan :=
      .of_eq rfl rfl rfl
    apply Effect.of_plain hf rfl
    · simp
    · simp
    · simp
    · simp
    · intro adjust _
      exact ho

lemma Polls.effect (h : Polls c next sent) : Effect c next sent := by
  induction h with
  | idle => exact .of_forward_nil (.refl _) rfl
  | drops input => exact .of_forward_nil (.of_eq rfl rfl rfl) rfl
  | sends input bytes hs ho =>
    refine .of_plain (.of_eq rfl rfl rfl) rfl ?_ ?_ (fun _ _ => ⟨hs, ho⟩) ?_ ?_
    · simp
    · simp
    · simp
    · simp
  | drains h => exact h.effect
  | @sendsExtended middle first front extended bytes ho hn _ _ _ h =>
    -- What was done before neither closed the channel nor sent EOF.
    have hEof : c.eofSent = false ∧ .eof ∉ first := by
      rw [← Bool.not_eq_true, ← not_or, ← h.eofSent, hn]
      decide
    have hc : c.closeSent = false ∧ .close ∉ first := by
      rw [← Bool.not_eq_true, ← not_or, ← h.closeSent, ho]
      decide
    refine .of_plain ⟨h.istate, h.ostate, ho.trans hc.1.symm⟩ (hn.trans hEof.1.symm)
      ?_ ?_ ?_ (fun _ _ _ => ⟨hEof.1, hc.1⟩) (fun _ _ => hc.1)
    · simpa using hEof.2
    · simpa using hc.2
    · intro other hMem
      rcases mem_append.1 hMem with hf | hNever
      · exact h.data other hf
      · simp at hNever

/-! Dead channels. -/

lemma chanIsDead_effect (fellows : Datafellows) (c : Chan2) (doSend : Bool) :
    Effect c (chanIsDead fellows c doSend).1 (chanIsDead fellows c doSend).2.1 := by
  rcases chanIsDead_cases fellows c doSend with ⟨hs, hn⟩ | ⟨ho, hIn, hOut, hm, hSent⟩
  · rw [hs, hn]
    exact .of_forward_nil (.refl _) rfl
  · rw [hm, hSent]
    constructor
    · exact .inl rfl
    · exact .inl rfl
    · simp
    · simp
    · simp
    · simp
    · simp
    · simp
    · exact fun _ => ⟨ho, hIn, hOut, rfl⟩

/-- A channel is dead as a zombie, or with both sides closed; then it is local, or the peer
has closed it, and so have we unless the question was only asked. -/
lemma chanIsDead_dead {doSend : Bool} (h : (chanIsDead fellows c doSend).2.2 = true)
    (ht : (chanIsDead fellows c doSend).1.type ≠ .zombie)
    (hOwn : (chanIsDead fellows c doSend).1.isLocal = false) :
    (chanIsDead fellows c doSend).1.closeRcvd = true ∧
      (doSend = true → (chanIsDead fellows c doSend).1.closeSent = true) := by
  rw [chanIsDead] at h ht hOwn ⊢
  split_ifs at h ht hOwn ⊢ with hz hOpen hActive hl ha hSend
  · exact absurd hz ht
  · rw [hl] at hOwn
    cases hOwn
  · simp only [Bool.and_eq_true, Bool.not_eq_true'] at ha
    refine ⟨ha.2, fun hDo => ?_⟩
    rw [ha.1.2] at hDo
    cases hDo
  · exact ⟨(Bool.and_eq_true_iff.1 h).2, fun _ => (Bool.and_eq_true_iff.1 h).1⟩
  · exact ⟨(Bool.and_eq_true_iff.1 h).2, fun _ => (Bool.and_eq_true_iff.1 h).1⟩

/-! What is seen of a step: messages, as the effect allows them, and verdicts. -/

/-- A verdict that can be given: for a channel that is neither local nor a zombie, the peer
has closed it, and so have we unless nothing was to be sent. -/
def Justified : Outcome → Prop
  | .sent _ => True
  | .dead doSend c => c.type ≠ .zombie → c.isLocal = false →
      c.closeRcvd = true ∧ (doSend = true → c.closeSent = true)
  | .freed c => c.type ≠ .zombie → c.isLocal = false → c.closeRcvd = true ∧ c.closeSent = true

lemma messages_sent (sent : List Message) : messages (sent.map .sent) = sent := by
  induction sent with
  | nil => rfl
  | cons message sent ih => exact congrArg (message :: ·) ih

lemma messages_append (first rest : List Outcome) :
    messages (first ++ rest) = messages first ++ messages rest :=
  filterMap_append ..

lemma justified_sent (sent : List Message) : ∀ outcome ∈ sent.map Outcome.sent, Justified outcome := by
  intro outcome hMem
  obtain ⟨message, -, rfl⟩ := mem_map.1 hMem
  trivial

structure Shows (c next : Chan2) (seen : List Outcome) : Prop where
  effect : Effect c next (messages seen)
  justified : ∀ outcome ∈ seen, Justified outcome

lemma Shows.of_sent (h : Effect c next sent) : Shows c next (sent.map .sent) where
  effect := by
    rw [messages_sent]
    exact h
  justified := justified_sent sent

lemma Shows.of_forward (h : Forward c.toChan next.toChan) (hEof : next.eofSent = c.eofSent) :
    Shows c next [] :=
  .of_sent (.of_forward_nil h hEof)

variable (fellows)

lemma checkDead_shows (c : Chan2) (doSend : Bool) :
    Shows c (checkDead fellows c doSend).1 (checkDead fellows c doSend).2.1 := by
  have he := chanIsDead_effect fellows c doSend
  rw [checkDead]
  constructor
  · dsimp only
    split_ifs
    · simpa [messages] using he
    · simpa [messages] using he
  · intro outcome hMem
    rcases mem_append.1 hMem with hs | hv
    · exact justified_sent _ outcome hs
    · split_ifs at hv with ht
      · rw [mem_singleton.1 hv]
        exact chanIsDead_dead ht
      · cases hv

lemma freeIfDead_shows (c : Chan2) : Shows c (freeIfDead fellows c).1 (freeIfDead fellows c).2 := by
  obtain ⟨he, hj⟩ := checkDead_shows fellows c true
  rw [freeIfDead]
  constructor
  · dsimp only
    split_ifs
    · simpa [messages] using he
    · simpa [messages] using he
  · intro outcome hMem
    rcases mem_append.1 hMem with hs | hf
    · exact hj outcome hs
    · split_ifs at hf with ht
      · rw [mem_singleton.1 hf]
        intro hk hl
        obtain ⟨hr, hSent⟩ := chanIsDead_dead ht hk hl
        exact ⟨hr, hSent rfl⟩
      · cases hf

lemma Effect.twice {first rest : List Message} (front : Effect c middle first)
    (back : Effect middle next rest) (hf : first = [] ∨ first = [.close])
    (hr : rest = [] ∨ rest = [.close]) : Effect c next (first ++ rest) := by
  rcases hf with rfl | rfl
  · exact back.after front
  · rcases hr with rfl | rfl
    · rw [append_nil]
      exact front.before back
    · have hs := front.closeSent.2 (.inr (mem_singleton.2 rfl))
      obtain ⟨hn, -⟩ := back.close (mem_singleton.2 rfl)
      rw [hs] at hn
      cases hn

lemma chanIsDead_sent (c : Chan2) (doSend : Bool) :
    (chanIsDead fellows c doSend).2.1 = [] ∨ (chanIsDead fellows c doSend).2.1 = [.close] := by
  rcases chanIsDead_cases fellows c doSend with ⟨-, hn⟩ | ⟨-, -, -, -, hs⟩
  · exact .inl hn
  · exact .inr hs

lemma checkDead_messages (c : Chan2) (doSend : Bool) :
    messages (checkDead fellows c doSend).2.1 = (chanIsDead fellows c doSend).2.1 := by
  rw [checkDead]
  rw [messages_append, messages_sent]
  split_ifs
  · simp [messages]
  · simp [messages]

lemma freeIfDead_messages (c : Chan2) :
    messages (freeIfDead fellows c).2 = (chanIsDead fellows c true).2.1 := by
  rw [freeIfDead]
  rw [messages_append, checkDead_messages]
  split_ifs
  · simp [messages]
  · simp [messages]

lemma channelGarbageCollect_shows (detaches : Bool) (c : Chan2) :
    Shows c (channelGarbageCollect fellows detaches c).1 (channelGarbageCollect fellows detaches c).2 := by
  have ht := checkDead_shows fellows c c.detachClose
  rw [channelGarbageCollect]
  dsimp only
  split_ifs
  · have hd : Effect c (channelCancelCleanup (checkDead fellows c c.detachClose).1)
      (messages (checkDead fellows c c.detachClose).2.1) :=
      ht.effect.before (.of_forward_nil (.of_eq rfl rfl rfl) rfl)
    have hr := freeIfDead_shows fellows (channelCancelCleanup (checkDead fellows c c.detachClose).1)
    constructor
    · rw [messages_append]
      apply hd.twice hr.effect
      · rw [checkDead_messages]
        exact chanIsDead_sent fellows c c.detachClose
      · rw [freeIfDead_messages]
        exact chanIsDead_sent fellows _ true
    · intro outcome hMem
      rcases mem_append.1 hMem with hs | hl
      · exact ht.justified outcome hs
      · exact hr.justified outcome hl
  · exact ht
  · exact freeIfDead_shows fellows c

variable {fellows}

lemma eowAfter_eow {next : Chan} : ∀ message ∈ eowAfter fellows c next, message = .eow := by
  intro message hMem
  rw [eowAfter] at hMem
  split_ifs at hMem
  · rw [chanSendEow2] at hMem
    split_ifs at hMem
    · cases hMem
    · exact mem_singleton.1 hMem
    · cases hMem
  · cases hMem

lemma channelHandleEfd_forward (r : Round) (c : Chan2) :
    Forward c.toChan (channelHandleEfd r c).toChan ∧ (channelHandleEfd r c).eofSent = c.eofSent := by
  rcases channelHandleEfd_cases r c with
    ⟨efd, hs⟩ | ⟨len, -, -, -, hw⟩ | ⟨extended, -, hr⟩
  · rw [hs]
    exact ⟨.refl _, rfl⟩
  · rw [hw]
    exact ⟨.of_eq rfl rfl rfl, rfl⟩
  · rw [hr]
    exact ⟨.refl _, rfl⟩

lemma closeStep_shows {occurrence : Occurrence} {seen : List Outcome}
    (h : closeStep fellows c occurrence = .ok (next, seen)) : Shows c next seen := by
  cases occurrence with
  | rfd r g =>
    obtain ⟨⟨after, sent⟩, hr, hs⟩ := map_eq_ok.1 h
    cases hs
    obtain ⟨⟨g', chan, actions⟩, hRfd, hr⟩ := bind_eq_ok.1 hr
    cases hr
    exact .of_sent (.of_forward ((channelHandleRfd_reads hRfd).touches.forward) rfl eowAfter_eow)
  | wfd r g =>
    obtain ⟨⟨after, sent⟩, hw, hs⟩ := map_eq_ok.1 h
    cases hs
    obtain ⟨⟨g', chan, actions⟩, hWfd, hw⟩ := bind_eq_ok.1 hw
    cases hw
    exact .of_sent (.of_forward ((channelHandleWfd_touches hWfd).forward) rfl eowAfter_eow)
  | efd r =>
    cases h
    obtain ⟨hf, hEof⟩ := channelHandleEfd_forward r c
    exact .of_forward hf hEof
  | preOpen =>
    cases h
    exact .of_sent (channelPreOpen_shifts c).effect
  | outputPoll =>
    obtain ⟨⟨after, sent⟩, hp, hs⟩ := map_eq_ok.1 h
    cases hs
    exact .of_sent ((channelOutputPoll_polls hp).effect)
  | checkWindow =>
    cases h
    exact .of_sent (channelCheckWindow2_effect c)
  | garbageCollect detaches =>
    have hShows := channelGarbageCollect_shows fellows detaches c
    rwa [Except.ok.inj h] at hShows
  | received message =>
    obtain ⟨⟨after, sent⟩, hi, hs⟩ := map_eq_ok.1 h
    cases hs
    exact .of_sent (channelInput_effect hi)
  | confirmed window maxpacket =>
    cases h
    exact .of_forward (.of_eq rfl rfl rfl) rfl
  | registerCleanup doClose =>
    cases h
    exact .of_forward (.of_eq rfl rfl rfl) rfl
  | readFailed =>
    cases h
    exact .of_forward (chanReadFailed_forward c.toChan) rfl
  | writeFailed =>
    cases h
    rw [chanWriteFailed2_eq]
    exact .of_sent (.of_forward (chanWriteFailed_forward c.toChan) rfl eowAfter_eow)
  | ibufEmpty =>
    cases h
    exact .of_sent (chanIbufEmpty_shifts c).effect
  | obufEmpty =>
    cases h
    exact .of_sent (chanObufEmpty_shifts c).effect
  | isDead doSend =>
    cases h
    exact checkDead_shows fellows c doSend
  | markDead =>
    cases h
    exact .of_forward (.of_eq rfl rfl rfl) rfl

/-! Whole runs. -/

def MayFollow (earlier later : Message) : Prop :=
  (earlier = .close → later = .eow) ∧ (earlier = .eof → (∀ bytes, later ≠ .data bytes) ∧
      (∀ code bytes, later ≠ .extendedData code bytes) ∧ later ≠ .eof)

/-- A channel with the messages sent so far: what ended something is remembered, and the
sides are closed accordingly. -/
structure Orderly (c : Chan2) (past : List Message) : Prop where
  order : past.Pairwise MayFollow
  close : .close ∈ past → c.closeSent = true
  eof : .eof ∈ past → c.eofSent = true
  closeSent : c.closeSent = true → c.istate = .closed ∧ c.ostate = .closed
  eofSent : c.eofSent = true → c.istate = .closed

lemma Effect.pairwise (h : Effect c next sent) : sent.Pairwise MayFollow := by
  by_cases hEof : .eof ∈ sent
  · rw [(h.eof hEof).2.2]
    exact pairwise_singleton _ _
  by_cases hc : .close ∈ sent
  · rw [(h.close hc).2.2.2]
    exact pairwise_singleton _ _
  apply List.Pairwise.imp_of_mem _ (pairwise_of_forall fun _ _ => trivial)
  intro earlier later hMem _ _
  constructor
  · rintro rfl
    exact absurd hMem hc
  · rintro rfl
    exact absurd hMem hEof

lemma Effect.mayFollow (ho : Orderly c past) (h : Effect c next sent) :
    ∀ earlier ∈ past, ∀ later ∈ sent, MayFollow earlier later := by
  intro earlier he later hl
  constructor
  · rintro rfl
    have hs := ho.close he
    obtain ⟨hIn, -⟩ := ho.closeSent hs
    cases later with
    | data bytes =>
      have hn := (h.data bytes hl).2
      rw [hs] at hn
      cases hn
    | extendedData code bytes =>
      have hn := (h.extendedData code bytes hl).2
      rw [hs] at hn
      cases hn
    | windowAdjust adjust =>
      have hn := h.windowAdjust adjust hl
      rw [hs] at hn
      cases hn
    | eof => exact absurd hIn (h.eof hl).1
    | close =>
      have hn := (h.close hl).1
      rw [hs] at hn
      cases hn
    | eow => rfl
  · rintro rfl
    have hs := ho.eof he
    have hIn := ho.eofSent hs
    refine ⟨?_, ?_, ?_⟩
    · rintro bytes rfl
      exact (h.data bytes hl).1 hIn
    · rintro code bytes rfl
      have hn := (h.extendedData code bytes hl).1
      rw [hs] at hn
      cases hn
    · rintro rfl
      exact (h.eof hl).1 hIn

lemma Orderly.step (ho : Orderly c past) (h : Effect c next sent) : Orderly next (past ++ sent) where
  order := pairwise_append.2 ⟨ho.order, h.pairwise, h.mayFollow ho⟩
  close := by
    intro hMem
    rcases mem_append.1 hMem with hp | hs
    · exact h.closeSent.2 (.inl (ho.close hp))
    · exact h.closeSent.2 (.inr hs)
  eof := by
    intro hMem
    rcases mem_append.1 hMem with hp | hs
    · exact h.eofSent.2 (.inl (ho.eof hp))
    · exact h.eofSent.2 (.inr hs)
  closeSent := by
    intro hNow
    rcases h.closeSent.1 hNow with hOld | hs
    · obtain ⟨hIn, hOut⟩ := ho.closeSent hOld
      exact ⟨h.istate.eq_closed hIn, h.ostate.eq_closed hOut⟩
    · exact ⟨(h.close hs).2.1, (h.close hs).2.2.1⟩
  eofSent := by
    intro hNow
    rcases h.eofSent.1 hNow with hOld | hs
    · exact h.istate.eq_closed (ho.eofSent hOld)
    · exact (h.eof hs).2.1

lemma count_le_one (h : past.Pairwise MayFollow) (ho : ¬ MayFollow message message) : past.count message ≤ 1 := by
  induction past with
  | nil => exact Nat.zero_le 1
  | cons first rest ih =>
    obtain ⟨hf, hr⟩ := pairwise_cons.1 h
    by_cases hs : first = message
    · subst hs
      have hn : first ∉ rest := fun hMem => ho (hf first hMem)
      rw [count_cons_self, count_eq_zero_of_not_mem hn]
    · rw [count_cons_of_ne hs]
      exact ih hr

/-- The close protocol: both sides only move forward, EOF and CLOSE are sent at most once,
nothing is sent after them that they rule out, and a channel that is neither local nor a
zombie is called dead only when the peer has closed it and, unless nothing was to be sent,
so have we; it is freed only when both have. -/
theorem close_protocol {fellows : Datafellows} {c last : Chan2} {occurrences : List Occurrence}
    {seen : List Outcome} (hClose : c.closeSent = false) (hEof : c.eofSent = false)
    (hRun : run (closeStep fellows) c occurrences = .ok (last, seen)) :
    Along (closeStep fellows) (fun s occurrence => ∀ next shown,
      closeStep fellows s occurrence = .ok (next, shown) →
        s.istate.Leads next.istate ∧ s.ostate.Leads next.ostate) c occurrences ∧
      (messages seen).count .eof ≤ 1 ∧ (messages seen).count .close ≤ 1 ∧
      (messages seen).Pairwise MayFollow ∧ ∀ outcome ∈ seen, Justified outcome := by
  have hAlways : Along (closeStep fellows) (fun _ _ => True) c occurrences :=
    along_of_forall fun _ _ _ => trivial
  have hStart : Orderly c [] := by
    constructor
    · exact List.Pairwise.nil
    · simp
    · simp
    · simp [hClose]
    · simp [hEof]
  have hEnd := run_events (fun s past =>
    Orderly s (messages past) ∧ ∀ outcome ∈ past, Justified outcome)
    ?_ ⟨hStart, by simp⟩ hAlways hRun
  · refine ⟨along_of_forall ?_, ?_, ?_, hEnd.1.order, hEnd.2⟩
    · intro occurrence _ s next shown hStep
      have hEffect := (closeStep_shows hStep).effect
      exact ⟨hEffect.istate, hEffect.ostate⟩
    · exact count_le_one hEnd.1.order fun hTwice => (hTwice.2 rfl).2.2 rfl
    · apply count_le_one hEnd.1.order
      intro hTwice
      cases hTwice.1 rfl
  · rintro s past occurrence next shown ⟨hOrderly, hPast⟩ - hStep
    obtain ⟨hEffect, hShown⟩ := closeStep_shows hStep
    constructor
    · rw [messages_append]
      exact hOrderly.step hEffect
    · intro outcome hMem
      rcases mem_append.1 hMem with hOld | hNew
      · exact hPast outcome hOld
      · exact hShown outcome hNew

def shellSession : Chan2 where
  toChan := { freshSession with
    type := .opened
    rfd := true
    wfd := true
    localWindow := 65536
    localWindowMax := 65536 }
  remoteWindow := 65536
  remoteMaxpacket := 32768
  efd := true
  extendedUsage := .read
  extended := []
  eofSent := false
  eofRcvd := false
  isLocal := false
  forceDrain := false
  detachUser := false

/-- The shell exits with output left, the peer answers our EOF with its CLOSE, and the
channel is freed after ours. -/
def exitingSession : List Occurrence :=
  [.rfd (reads [100, 111, 110, 101]) twoSessions.globals, .readFailed, .outputPoll, .efd (reads []),
    .outputPoll, .received .close, .preOpen, .garbageCollect false, .garbageCollect false]

theorem close_protocol_exiting :
    ∃ last seen, run (closeStep ⟨false, true⟩) shellSession exitingSession = .ok (last, seen) ∧
      messages seen = [.data [100, 111, 110, 101], .eof, .close] ∧
      (messages seen).Pairwise MayFollow ∧ ∀ outcome ∈ seen, Justified outcome := by
  have hMessages : (run (closeStep ⟨false, true⟩) shellSession exitingSession).toOption.map
    (fun out => messages out.2) = some [.data [100, 111, 110, 101], .eof, .close] := by
    decide +kernel
  obtain ⟨⟨last, seen⟩, hRun, hSeen⟩ := Option.map_eq_some_iff.1 hMessages
  have hProtocol := close_protocol rfl rfl (toOption_eq_some.1 hRun)
  exact ⟨last, seen, toOption_eq_some.1 hRun, hSeen, hProtocol.2.2.2.1, hProtocol.2.2.2.2⟩

/-- A session asks to be told of the end of its channel without a CLOSE on the way: it is
told that the channel is dead before ours was sent. -/
theorem dead_without_close : ¬ ∀ (occurrences : List Occurrence) (last : Chan2) (seen : List Outcome),
    run (closeStep ⟨false, true⟩) shellSession occurrences = .ok (last, seen) →
      ∀ doSend d, .dead doSend d ∈ seen → d.isLocal = false → d.closeSent = true ∧ d.closeRcvd = true := by
  intro hClaim
  have hSeen : (run (closeStep ⟨false, true⟩) shellSession
    [.registerCleanup false, .received .close, .preOpen, .garbageCollect false]).toOption.map
      (fun out => out.2.any fun outcome =>
        match outcome with
        | .dead _ d => !d.isLocal && !d.closeSent
        | _ => false) = some true := by decide +kernel
  obtain ⟨⟨last, seen⟩, hRun, hAny⟩ := Option.map_eq_some_iff.1 hSeen
  obtain ⟨outcome, hMem, hDead⟩ := any_eq_true.1 hAny
  cases outcome with
  | sent message => cases hDead
  | freed c => cases hDead
  | dead doSend d =>
    simp only [Bool.and_eq_true, Bool.not_eq_true'] at hDead
    have hBoth := hClaim _ last seen (toOption_eq_some.1 hRun) doSend d hMem hDead.1
    rw [hDead.2] at hBoth
    cases hBoth.1

end Channel
