import Sshfortress.Channel.Identifiers

/-! What the two tables say of one channel. -/
namespace Channel
open Base Base.Transition List

variable {place : Side → Option (Nat × End)} {link : Side → List Packet} {side : Side}
  {mine theirs : Option (Nat × End)} {toMe toThem : List Packet} {slot other : Nat} {sent rcvd : Bool}

/-- The other end of an open channel knows our slot or waits to be told it, or it is gone because
both have closed the channel, and has heard everything. -/
def Matched (theirs : Option (Nat × End)) (toThem : List Packet) (slot other : Nat) (sent : Bool) :
    Prop :=
  (∃ found, theirs = some (other, found) ∧ (found = .requested ∨ ∃ s r, found = .live slot s r)) ∨
    theirs = none ∧ toThem = [] ∧ sent = true

lemma Established.matched (h : Established mine theirs toMe toThem)
    (hp : mine = some (slot, .live other sent rcvd)) : Matched theirs toThem slot other sent := by
  obtain ⟨hMine, hTheirs, -, hToThem⟩ := h
  subst hp
  cases hMine
  cases hTheirs with
  | live => exact .inl ⟨_, rfl, .inr ⟨_, _, rfl⟩⟩
  | freed => exact .inr ⟨rfl, hToThem.order.silent rfl⟩

lemma Conversation.matched (h : Conversation place link)
    (hp : place side = some (slot, .live other sent rcvd)) :
    Matched (place side.peer) (link side.peer) slot other sent := by
  obtain ⟨opener, hPhase⟩ := h
  rcases opener.eq_or_peer side with rfl | rfl
  · generalize place side = mine, link side = toMe at hPhase hp
    generalize place side.peer = theirs, link side.peer = toThem at hPhase ⊢
    subst hp
    cases hPhase with
    | ended hMine => cases hMine
    | established h => exact h.matched rfl
  · rw [Side.peer_peer]
    generalize place opener.peer = mine, link opener.peer = toMe at hPhase hp
    generalize place opener = theirs, link opener = toThem at hPhase ⊢
    subst hp
    cases hPhase with
    | ended _ hTheirs => cases hTheirs
    | refused hTheirs => cases hTheirs
    | confirmed => exact .inl ⟨_, rfl, .inl rfl⟩
    | established h => exact h.symm.matched rfl

/-- Whatever the sides do, a channel that is open on one side has its other end in the slot that the
side names for it, and that end names our slot or is about to learn it; unless both have closed
the channel. Then the other side has no slot for it, and nothing is on the way there. -/
theorem live_ends_agree {fellows : Datafellows} {turns : List (Side × Act)} {last : Connection}
    {delivered : List Flight} {side : Side} {id : Nat} {e : Entry}
    (hRun : run (connStep fellows) .start turns = .ok (last, delivered))
    (hSlot : slotAt (last.slots side) id = some e) (hLive : e.stage = .live) :
    (∃ other, slotAt (last.slots side.peer) e.remoteId = some other ∧ other.talk = e.talk ∧
      (other.stage = .opening ∨ other.stage = .live ∧ other.remoteId = id)) ∨
    e.chan.closeSent = true ∧
      (∀ id other, slotAt (last.slots side.peer) id = some other → other.talk ≠ e.talk) ∧
      ∀ flight ∈ last.toward side.peer, flight.talk ≠ e.talk := by
  obtain ⟨ends, h⟩ : Inv last := by
    refine run_events (fun s _ => Inv s) ?_ ⟨_, coherent_start⟩ (along_of_forall fun _ _ _ => trivial) hRun
    exact fun s past input next events h _ hStep => connStep_inv h hStep
  have hHere := (h.tracks side e.talk id _).2 ⟨e, hSlot, rfl, rfl⟩
  rw [toEnd_live ((h.sound side id e hSlot).live hLive) hLive] at hHere
  rcases (h.conversation e.talk).matched hHere with ⟨found, hThere, hEnd⟩ | ⟨hNone, hSilent, hSent⟩
  · obtain ⟨other, hOther, hTalk, rfl⟩ := (h.tracks ..).1 hThere
    refine .inl ⟨other, hOther, hTalk, ?_⟩
    rcases hEnd with hr | ⟨sent, rcvd, hl⟩
    · exact .inl (of_toEnd_requested hr).2
    · exact .inr ⟨(of_toEnd_live hl).2.1, (of_toEnd_live hl).2.2.1⟩
  · refine .inr ⟨hSent, fun id other hOther hTalk => ?_, fun flight hMem hTalk => ?_⟩
    · have hPlace := (h.tracks side.peer e.talk id _).2 ⟨other, hOther, hTalk, rfl⟩
      rw [hNone] at hPlace
      cases hPlace
    · have hLink : flight.packet ∈ linkOf last side.peer e.talk :=
        mem_map.2 ⟨flight, mem_filter.2 ⟨hMem, by simp [hTalk]⟩, rfl⟩
      rw [hSilent] at hLink
      cases hLink

theorem live_ends_agree_reused : ∃ last delivered e other,
    run (connStep ⟨false, true⟩) .start reusedSlots = .ok (last, delivered) ∧
      slotAt (last.slots .far) 0 = some e ∧ slotAt (last.slots .near) e.remoteId = some other ∧
      other.talk = e.talk := by
  have hEnd : ((run (connStep ⟨false, true⟩) .start reusedSlots).toOption.bind fun out =>
      slotAt (out.1.slots .far) 0).map (fun e => (e.stage, e.chan.closeSent)) = some (.live, false) := by
    decide +kernel
  obtain ⟨e, hFound, hLast⟩ := Option.map_eq_some_iff.1 hEnd
  obtain ⟨⟨last, delivered⟩, hRun, hSlot⟩ := Option.bind_eq_some_iff.1 hFound
  obtain ⟨hLive, hOpen⟩ := Prod.mk.inj hLast
  have hRun := toOption_eq_some.1 hRun
  rcases live_ends_agree hRun hSlot hLive with ⟨other, hOther, hTalk, -⟩ | ⟨hSent, -⟩
  · exact ⟨last, delivered, e, other, hRun, hSlot, hOther, hTalk⟩
  · exact absurd (hOpen.symm.trans hSent) Bool.false_ne_true

end Channel
