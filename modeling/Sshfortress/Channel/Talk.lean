import Sshfortress.Base.LastWord
import Sshfortress.Channel.Table

/-! One channel from the request for it to the last CLOSE, as its two ends and the packets between
them see it. Slots and their numbers are only names here. -/
namespace Channel
open Base Base.LastWord List

/-- What an end of the channel has come to, with the slot of the other end where it is known. -/
inductive End where
  | hidden
  | requested
  | pending (remote : Nat)
  | live (remote : Nat) (sent rcvd : Bool)
  | dead

/-! Messages of an open channel. -/

def Packet.isClose : Packet → Bool
  | .message _ word => decide (word = .close)
  | _ => false

/-- Everything on its way goes to one slot, and CLOSE comes last. -/
structure Stream (slot : Nat) (sent rcvd : Bool) (flying : List Packet) : Prop where
  addressed : ∀ packet ∈ flying, ∃ message, packet = .message slot message
  order : Direction Packet.isClose sent rcvd flying

section Stream

variable {slot : Nat} {sent rcvd : Bool} {flying : List Packet}

lemma Stream.start : Stream slot false false [] := ⟨nofun, .start⟩

lemma Stream.more {words : List Message} (h : Stream slot false rcvd flying)
    (hWords : .close ∉ words) : Stream slot false rcvd (flying ++ words.map (.message slot)) where
  addressed := by
    refine forall_mem_append.2 ⟨h.addressed, ?_⟩
    intro packet hMem
    obtain ⟨message, -, rfl⟩ := mem_map.1 hMem
    exact ⟨message, rfl⟩
  order := by
    refine h.order.more ?_
    intro packet hMem
    obtain ⟨message, hw, rfl⟩ := mem_map.1 hMem
    exact decide_eq_false fun hc => hWords (hc ▸ hw)

lemma Stream.closes (h : Stream slot false rcvd flying) :
    Stream slot true rcvd (flying ++ [.message slot .close]) where
  addressed := forall_mem_append.2 ⟨h.addressed, forall_mem_singleton.2 ⟨.close, rfl⟩⟩
  order := h.order.ends rfl

lemma Stream.hears {message : Message} (h : Stream slot sent rcvd (.message slot message :: flying)) :
    rcvd = false ∧ Stream slot sent (decide (message = .close)) flying :=
  ⟨h.order.hears.1, fun packet hMem => h.addressed packet (.tail _ hMem), h.order.hears.2⟩

lemma Stream.unheard {packet : Packet} (h : Stream slot sent rcvd flying) (hMem : packet ∈ flying) :
    rcvd = false := by
  apply Bool.eq_false_iff.2
  intro hh
  rw [(h.order.silent hh).1] at hMem
  cases hMem

end Stream

/-- An end of an open channel, which may have been freed after both have closed it. -/
inductive Party : Option (Nat × End) → Nat → Nat → Bool → Bool → Prop where
  | live {slot remote : Nat} {sent rcvd : Bool} :
      Party (some (slot, .live remote sent rcvd)) slot remote sent rcvd
  | freed {slot remote : Nat} : Party none slot remote true true

/-- An open channel: each end knows the slot of the other. -/
inductive Established (mine theirs : Option (Nat × End)) (toMe toThem : List Packet) : Prop where
  | intro {slot other : Nat} {sent rcvd sent' rcvd' : Bool} (hMine : Party mine slot other sent rcvd)
      (hTheirs : Party theirs other slot sent' rcvd') (hToMe : Stream slot sent' rcvd toMe)
      (hToThem : Stream other sent rcvd' toThem)

lemma Established.symm {mine theirs : Option (Nat × End)} {toMe toThem : List Packet}
    (h : Established mine theirs toMe toThem) : Established theirs mine toThem toMe := by
  obtain ⟨hMine, hTheirs, hToMe, hToThem⟩ := h
  exact ⟨hTheirs, hMine, hToThem, hToMe⟩

/-! The whole of it. -/

inductive Gone : Option (Nat × End) → Prop where
  | none : Gone none
  | dead {slot : Nat} : Gone (some (slot, .dead))

/-- How far a channel has come, from the side that asks for it. -/
inductive Phase : Option (Nat × End) → Option (Nat × End) → List Packet → List Packet → Prop where
  | ended {mine theirs : Option (Nat × End)} (hMine : Gone mine) (hTheirs : Gone theirs) :
      Phase mine theirs [] []
  | hidden {slot : Nat} : Phase (some (slot, .hidden)) none [] []
  | asked {slot : Nat} {window maxpacket : UInt32} :
      Phase (some (slot, .requested)) none [] [.opens slot window maxpacket]
  | pending {slot other : Nat} :
      Phase (some (slot, .requested)) (some (other, .pending slot)) [] []
  | refused {slot : Nat} {theirs : Option (Nat × End)} (hTheirs : Gone theirs) :
      Phase (some (slot, .requested)) theirs [.failure slot] []
  | confirmed {slot other : Nat} {sent : Bool} {window maxpacket : UInt32} {words : List Packet}
      (hWords : Stream slot sent false words) :
      Phase (some (slot, .requested)) (some (other, .live slot sent false))
        (.confirmation slot other window maxpacket :: words) []
  | established {mine theirs : Option (Nat × End)} {toMe toThem : List Packet}
      (h : Established mine theirs toMe toThem) : Phase mine theirs toMe toThem

/-- What one end can do: the packet that it takes, what becomes of it, and what it sends. -/
inductive Move : Option (Nat × End) → List Packet → Option (Nat × End) → List Packet → Prop where
  | stays {mine : Option (Nat × End)} : Move mine [] mine []
  | asks {slot : Nat} {window maxpacket : UInt32} :
      Move (some (slot, .hidden)) [] (some (slot, .requested)) [.opens slot window maxpacket]
  | dies {slot : Nat} : Move (some (slot, .hidden)) [] (some (slot, .dead)) []
  | refuses {sender : Nat} {window maxpacket : UInt32} :
      Move none [.opens sender window maxpacket] none [.failure sender]
  | accepts {sender slot : Nat} {window maxpacket window' maxpacket' : UInt32} :
      Move none [.opens sender window maxpacket] (some (slot, .live sender false false))
        [.confirmation sender slot window' maxpacket']
  | waits {sender slot : Nat} {window maxpacket : UInt32} :
      Move none [.opens sender window maxpacket] (some (slot, .pending sender)) []
  | connects {slot remote : Nat} {window maxpacket : UInt32} :
      Move (some (slot, .pending remote)) [] (some (slot, .live remote false false))
        [.confirmation remote slot window maxpacket]
  | fails {slot remote : Nat} :
      Move (some (slot, .pending remote)) [] (some (slot, .dead)) [.failure remote]
  | confirmed {slot sender : Nat} {window maxpacket : UInt32} :
      Move (some (slot, .requested)) [.confirmation slot sender window maxpacket]
        (some (slot, .live sender false false)) []
  | refused {slot : Nat} : Move (some (slot, .requested)) [.failure slot] (some (slot, .dead)) []
  | speaks {slot remote : Nat} {rcvd : Bool} {words : List Message} (hWords : .close ∉ words) :
      Move (some (slot, .live remote false rcvd)) [] (some (slot, .live remote false rcvd))
        (words.map (.message remote))
  | closes {slot remote : Nat} {rcvd : Bool} :
      Move (some (slot, .live remote false rcvd)) [] (some (slot, .live remote true rcvd))
        [.message remote .close]
  | leaves {slot remote : Nat} :
      Move (some (slot, .live remote false true)) [] none [.message remote .close]
  | hears {slot remote : Nat} {sent : Bool} {message : Message} {words : List Message}
      (hSilent : sent = true → words = []) (hWords : .close ∉ words) :
      Move (some (slot, .live remote sent false)) [.message slot message]
        (some (slot, .live remote sent (decide (message = .close)))) (words.map (.message remote))
  | frees {slot remote : Nat} : Move (some (slot, .live remote true true)) [] none []
  | drops {slot : Nat} : Move (some (slot, .dead)) [] none []

section Moves

variable {mine theirs after : Option (Nat × End)} {toMe toThem taken rest sent : List Packet}

lemma Established.acts (h : Established mine theirs toMe toThem) (hm : Move mine taken after sent)
    (ht : toMe = taken ++ rest) : Established after theirs rest (toThem ++ sent) := by
  obtain @⟨slot, other, spoke, heard, spoke', heard', hMine, hTheirs, hToMe, hToThem⟩ := h
  subst ht
  cases hMine with
  | live =>
    cases hm with
    | stays =>
      rw [append_nil]
      exact ⟨.live, hTheirs, hToMe, hToThem⟩
    | speaks hWords => exact ⟨.live, hTheirs, hToMe, hToThem.more hWords⟩
    | closes => exact ⟨.live, hTheirs, hToMe, hToThem.closes⟩
    | leaves => exact ⟨.freed, hTheirs, hToMe, hToThem.closes⟩
    | hears hSilent hWords =>
      refine ⟨.live, hTheirs, hToMe.hears.2, ?_⟩
      cases spoke with
      | false => exact hToThem.more hWords
      | true =>
        rw [hSilent rfl, map_nil, append_nil]
        exact hToThem
    | frees =>
      rw [append_nil]
      exact ⟨.freed, hTheirs, hToMe, hToThem⟩
  | freed =>
    -- Nothing can be taken any more.
    have hn := (hToMe.order.silent rfl).1
    cases hm with
    | stays =>
      rw [append_nil]
      exact ⟨.freed, hTheirs, hToMe, hToThem⟩
    | refuses => cases hn
    | accepts => cases hn
    | waits => cases hn

lemma Gone.acts (h : Gone mine) (hm : Move mine taken after sent) (ht : [] = taken ++ rest) :
    Gone after ∧ sent = [] ∧ rest = [] := by
  cases h with
  | none =>
    cases hm with
    | stays => exact ⟨.none, rfl, ht.symm⟩
    | refuses => cases ht
    | accepts => cases ht
    | waits => cases ht
  | dead =>
    cases hm with
    | stays => exact ⟨.dead, rfl, ht.symm⟩
    | drops => exact ⟨.none, rfl, ht.symm⟩

lemma Phase.openerActs (h : Phase mine theirs toMe toThem) (hm : Move mine taken after sent)
    (ht : toMe = taken ++ rest) : Phase after theirs rest (toThem ++ sent) := by
  cases h with
  | ended hMine hTheirs =>
    obtain ⟨ha, rfl, rfl⟩ := hMine.acts hm ht
    exact .ended ha hTheirs
  | hidden =>
    cases hm <;> cases ht
    case stays.refl => exact .hidden
    case asks.refl => exact .asked
    case dies.refl => exact .ended .dead .none
  | asked =>
    cases hm <;> cases ht
    case stays.refl => exact .asked
  | pending =>
    cases hm <;> cases ht
    case stays.refl => exact .pending
  | refused hTheirs =>
    cases hm <;> cases ht
    case stays.refl => exact .refused hTheirs
    case refused.refl => exact .ended .dead hTheirs
  | confirmed hWords =>
    cases hm <;> cases ht
    case stays.refl => exact .confirmed hWords
    case confirmed.refl => exact .established ⟨.live, .live, hWords, .start⟩
  | established h => exact .established (h.acts hm ht)

lemma Phase.otherActs (h : Phase mine theirs toMe toThem) (hm : Move theirs taken after sent)
    (ht : toThem = taken ++ rest) : Phase mine after (toMe ++ sent) rest := by
  cases h with
  | ended hMine hTheirs =>
    obtain ⟨ha, rfl, rfl⟩ := hTheirs.acts hm ht
    exact .ended hMine ha
  | hidden =>
    cases hm <;> cases ht
    case stays.refl => exact .hidden
  | asked =>
    cases hm <;> cases ht
    case stays.refl => exact .asked
    case refuses.refl => exact .refused .none
    case accepts.refl => exact .confirmed .start
    case waits.refl => exact .pending
  | pending =>
    cases hm <;> cases ht
    case stays.refl => exact .pending
    case connects.refl => exact .confirmed .start
    case fails.refl => exact .refused .dead
  | refused hTheirs =>
    obtain ⟨ha, rfl, rfl⟩ := hTheirs.acts hm ht
    exact .refused ha
  | confirmed hWords =>
    -- The other end may say everything before its confirmation has arrived.
    cases hm <;> cases ht
    case stays.refl =>
      rw [append_nil]
      exact .confirmed hWords
    case speaks.refl hMore => exact .confirmed (hWords.more hMore)
    case closes.refl => exact .confirmed hWords.closes
  | established h => exact .established (h.symm.acts hm ht).symm

end Moves

/-! Both sides. -/

/-- One of the sides has asked. -/
def Conversation (place : Side → Option (Nat × End)) (link : Side → List Packet) : Prop :=
  ∃ opener : Side, Phase (place opener) (place opener.peer) (link opener) (link opener.peer)

section Conversation

variable {place : Side → Option (Nat × End)} {link link' : Side → List Packet} {side : Side}

lemma Conversation.move {after : Option (Nat × End)} {taken sent : List Packet}
    (h : Conversation place link) (hm : Move (place side) taken after sent)
    (hs : link side = taken ++ link' side) (hp : link' side.peer = link side.peer ++ sent) :
    Conversation (Function.update place side after) link' := by
  obtain ⟨opener, hPhase⟩ := h
  refine ⟨opener, ?_⟩
  rcases opener.eq_or_peer side with rfl | rfl
  · rw [Function.update_self, Function.update_of_ne (Side.peer_ne _), hp]
    exact hPhase.openerActs hm hs
  · rw [Side.peer_peer] at hp
    rw [Function.update_self, Function.update_of_ne (Side.ne_peer _), hp]
    exact hPhase.otherActs hm hs

/-- The end that a packet on its way finds when it arrives. -/
def Packet.Meets : Packet → Option (Nat × End) → Prop
  | .opens _ _ _, place => place = none
  | .confirmation slot _ _ _, place => place = some (slot, .requested)
  | .failure slot, place => place = some (slot, .requested)
  | .message slot _, place => ∃ remote sent, place = some (slot, .live remote sent false)

variable {packet : Packet} {mine theirs : Option (Nat × End)} {toMe toThem : List Packet} {slot : Nat}

lemma Established.meets (h : Established mine theirs toMe toThem) (hMem : packet ∈ toMe) :
    packet.Meets mine := by
  obtain ⟨hMine, -, hToMe, -⟩ := h
  obtain ⟨message, rfl⟩ := hToMe.addressed packet hMem
  have ho := hToMe.unheard hMem
  cases hMine with
  | live =>
    subst ho
    exact ⟨_, _, rfl⟩
  | freed => cases ho

/-- The first packet on its way finds the channel that it is about. -/
lemma Conversation.meets {rest : List Packet} (h : Conversation place link)
    (hh : link side = packet :: rest) : packet.Meets (place side) := by
  obtain ⟨opener, hp⟩ := h
  rcases opener.eq_or_peer side with rfl | rfl
  · generalize place side = mine, link side = toMe at hp hh
    subst hh
    generalize place side.peer = theirs, link side.peer = toThem at hp
    cases hp with
    | refused => rfl
    | confirmed => rfl
    | established h => exact h.meets mem_cons_self
  · generalize place opener.peer = theirs, link opener.peer = toThem at hp hh
    subst hh
    generalize place opener = mine, link opener = toMe at hp
    cases hp with
    | asked => rfl
    | established h => exact h.symm.meets mem_cons_self

/-- An end that a packet other than a request can be for. -/
def End.Expects (packet : Packet) : End → Prop
  | .requested => True
  | .live _ _ rcvd => rcvd = false ∧ packet.settles = false
  | _ => False

lemma Established.expects (h : Established mine theirs toMe toThem) (hMem : packet ∈ toMe)
    (hs : packet.recipient = some slot) : ∃ found, mine = some (slot, found) ∧ found.Expects packet := by
  obtain ⟨message, rfl⟩ : ∃ message, packet = .message slot message := by
    obtain ⟨-, -, hToMe, -⟩ := h
    obtain ⟨message, rfl⟩ := hToMe.addressed packet hMem
    obtain rfl := Option.some.inj hs
    exact ⟨message, rfl⟩
  obtain ⟨remote, sent, rfl⟩ := h.meets hMem
  exact ⟨_, rfl, rfl, rfl⟩

/-- Everything on its way to a slot is about the channel that is there. -/
lemma Conversation.expects (h : Conversation place link) (hMem : packet ∈ link side)
    (hs : packet.recipient = some slot) :
    ∃ found, place side = some (slot, found) ∧ found.Expects packet := by
  obtain ⟨opener, hp⟩ := h
  rcases opener.eq_or_peer side with rfl | rfl
  · generalize place side = mine, link side = toMe at hp hMem ⊢
    generalize place side.peer = theirs, link side.peer = toThem at hp
    cases hp with
    | ended => cases hMem
    | hidden => cases hMem
    | asked => cases hMem
    | pending => cases hMem
    | refused =>
      obtain rfl := mem_singleton.1 hMem
      obtain rfl := Option.some.inj hs
      exact ⟨_, rfl, trivial⟩
    | confirmed hWords =>
      rcases mem_cons.1 hMem with rfl | hw
      · obtain rfl := Option.some.inj hs
        exact ⟨_, rfl, trivial⟩
      · obtain ⟨message, rfl⟩ := hWords.addressed packet hw
        obtain rfl := Option.some.inj hs
        exact ⟨_, rfl, trivial⟩
    | established h => exact h.expects hMem hs
  · generalize place opener.peer = theirs, link opener.peer = toThem at hp hMem ⊢
    generalize place opener = mine, link opener = toMe at hp
    cases hp with
    | ended => cases hMem
    | hidden => cases hMem
    | asked =>
      obtain rfl := mem_singleton.1 hMem
      cases hs
    | pending => cases hMem
    | refused => cases hMem
    | confirmed => cases hMem
    | established h => exact h.symm.expects hMem hs

end Conversation

end Channel
