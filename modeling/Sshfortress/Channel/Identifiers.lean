import Sshfortress.Channel.Marks
import Sshfortress.Channel.Talk

/-! Numbers of channels on a connection. Whatever is on its way to a slot is about the channel
that is in the slot, although slots are used again at once: a channel is freed when both sides
have closed it, and then nothing is left on its way. -/
namespace Channel
open Base Base.Transition List
open Function (update update_of_ne update_self)

/-! Slots. -/

variable {e : Entry} {id : Nat} {slots : List (Option Entry)} {side : Side}

lemma slotAt_lt (h : slotAt slots id = some e) : id < slots.length := by
  by_contra hb
  rw [slotAt, getElem?_eq_none (not_lt.1 hb)] at h
  cases h

lemma slotAt_set (hId : id < slots.length) (next : Option Entry) (other : Nat) :
    slotAt (slots.set id next) other = if other = id then next else slotAt slots other := by
  rw [slotAt, getElem?_set]
  split_ifs with hs ho ho
  · rfl
  · exact absurd hs.symm ho
  · exact absurd ho.symm hs
  · rfl

lemma slotAt_append_free (slots : List (Option Entry)) (e : Option Entry) (n other : Nat) :
    slotAt (slots ++ e :: List.replicate n none) other =
      if other = slots.length then e else slotAt slots other := by
  rw [slotAt, slotAt]
  rcases lt_trichotomy other slots.length with hl | rfl | hMore
  · rw [getElem?_append_left hl, if_neg (Nat.ne_of_lt hl)]
  · rw [getElem?_append_right (Nat.le_refl _), if_pos rfl, Nat.sub_self]
    rfl
  · obtain ⟨k, rfl⟩ : ∃ k, other = slots.length + (k + 1) := ⟨other - slots.length - 1, by omega⟩
    rw [getElem?_append_right (by omega), if_neg (by omega), Nat.add_sub_cancel_left,
      getElem?_cons_succ, getElem?_eq_none (by omega : slots.length ≤ _)]
    rw [getElem?_replicate]
    split_ifs <;> rfl

lemma channelNew_spec {slots' : List (Option Entry)} (h : channelNew slots e = .ok (slots', id)) :
    slotAt slots id = none ∧
      ∀ other, slotAt slots' other = if other = id then some e else slotAt slots other := by
  have hg (other : Nat) : slotAt (if slots = [] then List.replicate 10 none else slots) other =
    slotAt slots other := by
    split_ifs with he
    · subst he
      rw [slotAt, getElem?_replicate]
      split_ifs <;> rfl
    · rfl
  rw [channelNew] at h
  generalize (if slots = [] then List.replicate 10 none else slots) = grown at h hg
  split at h
  · rename_i free hf
    cases h
    obtain ⟨hLt, hn, -⟩ := findIdx?_eq_some_iff_getElem.1 hf
    constructor
    · rw [← hg, slotAt, getElem?_eq_getElem hLt, Option.isNone_iff_eq_none.1 hn]
      rfl
    · intro other
      rw [slotAt_set hLt, hg]
  · split_ifs at h
    cases h
    constructor
    · rw [← hg, slotAt, getElem?_eq_none (Nat.le_refl _)]
      rfl
    · intro other
      rw [slotAt_append_free, hg]

/-! An entry as an end of its channel. -/

def Entry.toEnd (e : Entry) : End :=
  if e.chan.type = .zombie then .dead
  else
    match e.stage with
    | .listening | .dynamic => .hidden
    | .opening => .requested
    | .connecting => .pending e.remoteId
    | .live => .live e.remoteId e.chan.closeSent e.chan.closeRcvd

structure Sound (e : Entry) : Prop where
  isLocal : e.chan.isLocal = false
  finished : Finished e.chan
  fresh : e.stage ≠ .live → e.chan.type ≠ .zombie →
    e.chan.closeSent = false ∧ e.chan.closeRcvd = false ∧ e.chan.istate ≠ .closed
  live : e.stage = .live → e.chan.type ≠ .zombie
  attached : e.chan.type = .larval → Attached e.chan

lemma Sound.opened (hLocal : e.chan.isLocal = false) (hFin : Finished e.chan)
    (hs : e.stage = .live) (ht : e.chan.type = .opened) : Sound e where
  isLocal := hLocal
  finished := hFin
  fresh := fun ho => absurd hs ho
  live := fun _ => by
    rw [ht]
    nofun
  attached := fun hl => nomatch ht.symm.trans hl

lemma Sound.dead (h : Sound e) (hs : e.stage ≠ .live) :
    Sound { e with chan := e.chan.onChan chanMarkDead } where
  isLocal := h.isLocal
  finished := h.finished
  fresh := fun _ ho => absurd rfl ho
  live := fun hl => absurd hl hs
  attached := nofun

lemma toEnd_zombie (h : e.chan.type = .zombie) : e.toEnd = .dead := if_pos h

lemma toEnd_markDead (e : Entry) : Entry.toEnd { e with chan := e.chan.onChan chanMarkDead } = .dead :=
  toEnd_zombie rfl

section
variable (ht : e.chan.type ≠ .zombie)
include ht

lemma toEnd_hidden (hs : e.stage.hidden = true) : e.toEnd = .hidden := by
  rw [Entry.toEnd, if_neg ht]
  cases hIs : e.stage with
  | listening => rfl
  | dynamic => rfl
  | opening => simp [hIs, Stage.hidden] at hs
  | connecting => simp [hIs, Stage.hidden] at hs
  | live => simp [hIs, Stage.hidden] at hs

lemma toEnd_opening (hs : e.stage = .opening) : e.toEnd = .requested := by rw [Entry.toEnd, if_neg ht, hs]

lemma toEnd_connecting (hs : e.stage = .connecting) :
    e.toEnd = .pending e.remoteId := by rw [Entry.toEnd, if_neg ht, hs]

lemma toEnd_live (hs : e.stage = .live) :
    e.toEnd = .live e.remoteId e.chan.closeSent e.chan.closeRcvd := by
  rw [Entry.toEnd, if_neg ht, hs]

end

lemma toEnd_onChan {chan : Chan2} (ht : chan.type ≠ .zombie) (hs : e.stage = .live) :
    Entry.toEnd { e with chan := chan } = .live e.remoteId chan.closeSent chan.closeRcvd :=
  toEnd_live ht hs

lemma of_toEnd_requested (h : e.toEnd = .requested) : e.chan.type ≠ .zombie ∧ e.stage = .opening := by
  rw [Entry.toEnd] at h
  split_ifs at h with ht
  refine ⟨ht, ?_⟩
  cases hIs : e.stage <;> rw [hIs] at h <;> first | rfl | cases h

lemma of_toEnd_live {remote : Nat} {sent rcvd : Bool} (h : e.toEnd = .live remote sent rcvd) :
    e.chan.type ≠ .zombie ∧ e.stage = .live ∧ e.remoteId = remote ∧ e.chan.closeSent = sent ∧
      e.chan.closeRcvd = rcvd := by
  rw [Entry.toEnd] at h
  split_ifs at h with ht
  refine ⟨ht, ?_⟩
  cases hIs : e.stage <;> rw [hIs] at h <;> cases h
  exact ⟨rfl, rfl, rfl, rfl⟩

/-! Where the ends of all channels are. -/

def Tracks (slots : Side → List (Option Entry)) (ends : Nat → Side → Option (Nat × End)) : Prop :=
  ∀ side talk id found, ends talk side = some (id, found) ↔
    ∃ e, slotAt (slots side) id = some e ∧ e.talk = talk ∧ e.toEnd = found

variable {talk : Nat}

lemma Tracks.change {slots slots' : Side → List (Option Entry)}
    {ends : Nat → Side → Option (Nat × End)} {before next : Option Entry} (h : Tracks slots ends)
    (hPre : slotAt (slots side) id = before) (hOld : ∀ e, before = some e → e.talk = talk)
    (hNew : before = none → ends talk side = none) (hn : ∀ e, next = some e → e.talk = talk)
    (hp : slots' side.peer = slots side.peer) (hSlots : ∀ other,
      slotAt (slots' side) other = if other = id then next else slotAt (slots side) other) :
    Tracks slots' (update ends talk (update (ends talk) side (next.map fun e => (id, e.toEnd)))) := by
  intro side' talk' id' found
  rcases side.eq_or_peer side' with rfl | rfl
  · rw [hSlots]
    by_cases ht : talk' = talk
    · subst ht
      rw [update_self, update_self]
      split_ifs with hId
      · subst hId
        constructor
        · intro hs
          obtain ⟨e, rfl, hEnd⟩ := Option.map_eq_some_iff.1 hs
          cases hEnd
          exact ⟨e, rfl, hn e rfl, rfl⟩
        · rintro ⟨e, rfl, -, rfl⟩
          rfl
      · constructor
        · intro hs
          obtain ⟨e, -, hEnd⟩ := Option.map_eq_some_iff.1 hs
          cases hEnd
          exact absurd rfl hId
        · -- The channel would be in two slots.
          rintro ⟨e, hSlot, hSame, -⟩
          have hThere := (h side' talk' id' _).2 ⟨e, hSlot, hSame, rfl⟩
          cases hWas : before with
          | none =>
            rw [hNew hWas] at hThere
            cases hThere
          | some old =>
            have hh := (h side' talk' id _).2 ⟨old, hPre.trans hWas, hOld old hWas, rfl⟩
            exact absurd (Prod.mk.inj (Option.some.inj (hThere.symm.trans hh))).1 hId
    · rw [update_of_ne ht, h]
      split_ifs with hId
      · subst hId
        constructor
        · rintro ⟨e, hSlot, rfl, -⟩
          exact absurd (hOld e (hPre.symm.trans hSlot)) ht
        · rintro ⟨e, hSlot, rfl, -⟩
          exact absurd (hn e hSlot) ht
      · rfl
  · rw [hp, ← h]
    by_cases ht : talk' = talk
    · subst ht
      rw [update_self, update_of_ne (Side.peer_ne side)]
    · rw [update_of_ne ht]

/-! What is on its way for one channel. -/

section Queues

variable (s : Connection) (side : Side) (talk : Nat) (packets : List Packet) (rest : List Flight)

@[simp] lemma send_toward : (s.send side talk packets).toward side = s.toward side :=
  update_of_ne (Side.ne_peer side) ..

@[simp] lemma send_toward_peer : (s.send side talk packets).toward side.peer =
    s.toward side.peer ++ packets.map (Flight.mk talk) :=
  update_self ..

@[simp] lemma take_toward : (s.take side rest).toward side = rest := update_self ..

@[simp] lemma take_toward_peer : (s.take side rest).toward side.peer = s.toward side.peer :=
  update_of_ne (Side.peer_ne side) ..

end Queues

def linkOf (s : Connection) (side : Side) (talk : Nat) : List Packet :=
  ((s.toward side).filter fun flight => flight.talk = talk).map Flight.packet

/-- A side takes something of a channel from its queue and sends something about it. -/
structure Exchange (link link' : Side → Nat → List Packet) (side : Side) (talk : Nat)
    (taken sent : List Packet) : Prop where
  others : ∀ other, other ≠ talk → ∀ any, link' any other = link any other
  self : link side talk = taken ++ link' side talk
  peer : link' side.peer talk = link side.peer talk ++ sent

lemma Exchange.refl (link : Side → Nat → List Packet) (side : Side) (talk : Nat) :
    Exchange link link side talk [] [] :=
  ⟨fun _ _ _ => rfl, rfl, (append_nil _).symm⟩

lemma Exchange.trans {link middle link' : Side → Nat → List Packet} {taken sent : List Packet}
    (front : Exchange link middle side talk taken []) (back : Exchange middle link' side talk [] sent) :
    Exchange link link' side talk taken sent where
  others := fun other ho any => (back.others other ho any).trans (front.others other ho any)
  self := by
    rw [front.self, back.self]
    rfl
  peer := by rw [back.peer, front.peer, append_nil]

lemma exchange_send (s : Connection) (side : Side) (talk : Nat) (packets : List Packet) :
    Exchange (linkOf s) (linkOf (s.send side talk packets)) side talk [] packets where
  others := by
    intro other ho any
    rcases side.eq_or_peer any with rfl | rfl
    · rw [linkOf, send_toward, linkOf]
    · have hn : (packets.map (Flight.mk talk)).filter (fun flight => flight.talk = other) = [] := by
        simp [filter_eq_nil_iff, Ne.symm ho]
      rw [linkOf, send_toward_peer, filter_append, hn, append_nil, linkOf]
  self := by rw [linkOf, linkOf, send_toward, nil_append]
  peer := by
    have hAll : (packets.map (Flight.mk talk)).filter (fun flight => flight.talk = talk) =
      packets.map (Flight.mk talk) := by simp
    rw [linkOf, send_toward_peer, filter_append, hAll, map_append, map_map, linkOf]
    exact congrArg _ (map_id packets)

lemma exchange_take {s : Connection} {flight : Flight} {rest : List Flight}
    (h : s.toward side = flight :: rest) :
    Exchange (linkOf s) (linkOf (s.take side rest)) side flight.talk [flight.packet] [] where
  others := by
    intro other ho any
    rcases side.eq_or_peer any with rfl | rfl
    · rw [linkOf, take_toward, linkOf, h, filter_cons_of_neg (by simpa using Ne.symm ho)]
    · rw [linkOf, take_toward_peer, linkOf]
  self := by
    rw [linkOf, linkOf, take_toward, h, filter_cons_of_pos (by simp)]
    rfl
  peer := by rw [linkOf, linkOf, take_toward_peer, append_nil]

/-! The whole connection. -/

/-- Every channel is in some phase, and a number that was not given yet is nowhere. -/
structure Coherent (s : Connection) (ends : Nat → Side → Option (Nat × End)) : Prop where
  tracks : Tracks s.slots ends
  conversation : ∀ talk, Conversation (ends talk) fun side => linkOf s side talk
  fresh : ∀ talk, s.talks ≤ talk → ∀ side, ends talk side = none ∧ linkOf s side talk = []
  sound : ∀ side id e, slotAt (s.slots side) id = some e → Sound e

lemma coherent_start : Coherent .start fun _ _ => none where
  tracks := by
    intro side talk id found
    simp [Connection.start, slotAt]
  conversation := fun _ => ⟨.near, .ended .none .none⟩
  fresh := fun _ _ _ => ⟨rfl, rfl⟩
  sound := by
    intro side id e hSlot
    simp [Connection.start, slotAt] at hSlot

section Changes

variable {s t : Connection} {ends : Nat → Side → Option (Nat × End)} {side : Side} {id talk : Nat}
  {taken sent : List Packet}

lemma Coherent.lt_of_place (h : Coherent s ends) {found : Nat × End} (hp : ends talk side = some found) :
    talk < s.talks := by
  by_contra hf
  rw [(h.fresh talk (not_lt.1 hf) side).1] at hp
  cases hp

lemma Coherent.lt_of_link (h : Coherent s ends) {packet : Packet} {rest : List Packet}
    (hl : linkOf s side talk = packet :: rest) : talk < s.talks := by
  by_contra hf
  rw [(h.fresh talk (not_lt.1 hf) side).2] at hl
  cases hl

lemma Coherent.change {before next : Option Entry} {place : Side → Option (Nat × End)}
    (h : Coherent s ends) (hPre : slotAt (s.slots side) id = before)
    (hOld : ∀ e, before = some e → e.talk = talk) (hNew : before = none → ends talk side = none)
    (hn : ∀ e, next = some e → e.talk = talk ∧ Sound e)
    (hp : t.slots side.peer = s.slots side.peer)
    (hSlots : ∀ other,
      slotAt (t.slots side) other = if other = id then next else slotAt (s.slots side) other)
    (ht : s.talks ≤ t.talks) (hTalk : talk < t.talks)
    (he : Exchange (linkOf s) (linkOf t) side talk taken sent)
    (hPlace : place = update (ends talk) side (next.map fun e => (id, e.toEnd)))
    (hc : Conversation place fun side => linkOf t side talk) :
    Coherent t (update ends talk place) where
  tracks := by
    rw [hPlace]
    exact h.tracks.change hPre hOld hNew (fun e hSome => (hn e hSome).1) hp hSlots
  conversation := by
    intro other
    by_cases hs : other = talk
    · subst hs
      rw [update_self]
      exact hc
    · rw [update_of_ne hs]
      simpa only [he.others other hs] using h.conversation other
  fresh := by
    intro other hf any
    have hs : other ≠ talk := by omega
    rw [update_of_ne hs, he.others other hs]
    exact h.fresh other (ht.trans hf) any
  sound := by
    intro any other e hSlot
    rcases side.eq_or_peer any with rfl | rfl
    · rw [hSlots] at hSlot
      split_ifs at hSlot
      · exact (hn e hSlot).2
      · exact h.sound any other e hSlot
    · rw [hp] at hSlot
      exact h.sound _ other e hSlot

def Inv (s : Connection) : Prop := ∃ ends, Coherent s ends

variable {e : Entry} {slots : List (Option Entry)}

lemma Inv.moves (h : Inv s) (hSlot : slotAt (s.slots side) id = some e) (next : Option Entry)
    (hs : t.slots = (s.put side id next).slots) (ht : t.talks = s.talks)
    (he : Exchange (linkOf s) (linkOf t) side e.talk taken sent)
    (hNext : ∀ e', next = some e' → e'.talk = e.talk ∧ Sound e')
    (hm : Move (some (id, e.toEnd)) taken (next.map fun e' => (id, e'.toEnd)) sent) : Inv t := by
  obtain ⟨ends, hCoh⟩ := h
  have hp : ends e.talk side = some (id, e.toEnd) :=
    (hCoh.tracks side e.talk id _).2 ⟨e, hSlot, rfl, rfl⟩
  have hTalk : Conversation (update (ends e.talk) side (next.map fun e' => (id, e'.toEnd)))
    fun any => linkOf t any e.talk := by
    rw [← hp] at hm
    exact (hCoh.conversation e.talk).move hm he.self he.peer
  refine ⟨_, hCoh.change hSlot ?_ ?_ hNext ?_ ?_ (Nat.le_of_eq ht.symm) ?_ he rfl hTalk⟩
  · intro old hSame
    rw [Option.some.inj hSame]
  · intro hn
    cases hn
  · rw [hs]
    exact update_of_ne (Side.peer_ne side) ..
  · intro other
    rw [hs, Connection.put]
    dsimp only
    rw [update_self, slotAt_set (slotAt_lt hSlot)]
  · rw [ht]
    exact hCoh.lt_of_place hp

lemma Coherent.fills (h : Coherent s ends) (hNew : channelNew (s.slots side) e = .ok (slots, id))
    (hs : t.slots = update s.slots side slots) (hp : ends e.talk side = none)
    (hSound : Sound e) (ht : s.talks ≤ t.talks) (hTalk : e.talk < t.talks)
    (he : Exchange (linkOf s) (linkOf t) side e.talk taken sent)
    (hc : Conversation (update (ends e.talk) side (some (id, e.toEnd)))
      fun any => linkOf t any e.talk) : Inv t := by
  obtain ⟨hf, ho⟩ := channelNew_spec hNew
  have hNext : ∀ next, some e = some next → next.talk = e.talk ∧ Sound next := by
    intro next hSame
    obtain rfl := Option.some.inj hSame
    exact ⟨rfl, hSound⟩
  refine ⟨_, h.change hf ?_ (fun _ => hp) hNext ?_ ?_ ht hTalk he rfl hc⟩
  · intro old hn
    cases hn
  · rw [hs]
    exact update_of_ne (Side.peer_ne side) ..
  · intro other
    rw [hs, update_self]
    exact ho other

variable {sender : Nat} {window maxpacket : UInt32}

lemma Inv.accepts (h : Inv s) (hNew : channelNew (s.slots side) e = .ok (slots, id))
    (hs : t.slots = update s.slots side slots) (ht : t.talks = s.talks)
    (he : Exchange (linkOf s) (linkOf t) side e.talk [.opens sender window maxpacket] sent) (hSound : Sound e)
    (hm : Move none [.opens sender window maxpacket] (some (id, e.toEnd)) sent) : Inv t := by
  obtain ⟨ends, hCoh⟩ := h
  have hp : ends e.talk side = none := (hCoh.conversation e.talk).meets he.self
  rw [← hp] at hm
  exact hCoh.fills hNew hs hp hSound (Nat.le_of_eq ht.symm) (ht ▸ hCoh.lt_of_link he.self) he
    ((hCoh.conversation e.talk).move hm he.self he.peer)

lemma Inv.makes (h : Inv s) (hNew : channelNew (s.slots side) e = .ok (slots, id))
    (ht : e.talk = s.talks) (hs : t.slots = update s.slots side slots)
    (hTalks : t.talks = s.talks + 1)
    (he : Exchange (linkOf s) (linkOf t) side e.talk [] sent) (hSound : Sound e)
    (hp : Phase (some (id, e.toEnd)) none [] sent) : Inv t := by
  obtain ⟨ends, hCoh⟩ := h
  have hf := hCoh.fresh e.talk (Nat.le_of_eq ht.symm)
  refine hCoh.fills hNew hs (hf side).1 hSound (by omega) (by omega) he ?_
  have hSelf : linkOf t side e.talk = [] := he.self.symm.trans (hf side).2
  refine ⟨side, ?_⟩
  dsimp only
  rw [update_self, update_of_ne (Side.peer_ne side), (hf side.peer).1, hSelf, he.peer, (hf side.peer).2]
  exact hp

lemma Inv.refuses (h : Inv s) (hSlots : t.slots = s.slots) (ht : t.talks = s.talks)
    (he : Exchange (linkOf s) (linkOf t) side talk [.opens sender window maxpacket]
      [.failure sender]) : Inv t := by
  obtain ⟨ends, hCoh⟩ := h
  have hp : ends talk side = none := (hCoh.conversation talk).meets he.self
  have hm : Move (ends talk side) [.opens sender window maxpacket] (ends talk side) [.failure sender] := by
    rw [hp]
    exact .refuses
  have hTalk : talk < s.talks := hCoh.lt_of_link he.self
  refine ⟨ends, ?_, ?_, ?_, ?_⟩
  · rw [hSlots]
    exact hCoh.tracks
  · intro other
    by_cases hs : other = talk
    · subst hs
      rw [← Function.update_eq_self side (ends other)]
      exact (hCoh.conversation other).move hm he.self he.peer
    · simpa only [he.others other hs] using hCoh.conversation other
  · intro other hf any
    rw [ht] at hf
    have hs : other ≠ talk := by omega
    rw [he.others other hs]
    exact hCoh.fresh other hf any
  · rw [hSlots]
    exact hCoh.sound

end Changes

/-! New channels. -/

lemma Sound.of_new (hLocal : e.chan.isLocal = false) (hs : e.chan.closeSent = false)
    (hr : e.chan.closeRcvd = false) (hIn : e.chan.istate = .opened) (ht : e.chan.type ≠ .zombie)
    (hl : e.chan.type = .larval → e.chan.detachUser = true ∧ e.chan.detachClose = false) : Sound e where
  isLocal := hLocal
  finished := by
    intro hc
    rw [hs] at hc
    cases hc
  fresh := by
    intro _ _
    rw [hIn]
    exact ⟨hs, hr, nofun⟩
  live := fun _ => ht
  attached := fun hk => ⟨hs, (hl hk).1, (hl hk).2⟩

section Steps

variable {fellows : Datafellows} {s t : Connection} {side : Side} {flight : Flight}
  {rest : List Flight} {stage : Stage} {seed : Seed} {sender : Nat} {maxpacket : UInt32}
  {sent : List Message}

lemma Inv.make {seen : List Flight} (h : Inv s) (hStage : stage.hidden = true ∨ stage = .opening)
    (hm : s.make side stage seed = .ok (t, seen)) : Inv t := by
  obtain ⟨⟨next, id⟩, hf, hm⟩ := bind_eq_ok.1 hm
  obtain ⟨⟨slots, id'⟩, hNew, hf⟩ := map_eq_ok.1 hf
  cases hf
  have hs : Sound ⟨newChan seed .other, stage, noRemote, s.talks⟩ :=
    .of_new rfl rfl rfl rfl nofun nofun
  rcases hStage with hh | rfl
  · have ho : stage ≠ .opening := by
      rintro rfl
      cases hh
    dsimp only at hm
    rw [if_neg ho] at hm
    cases hm
    refine h.makes hNew rfl rfl rfl (Exchange.refl _ side _) hs ?_
    rw [toEnd_hidden (e := ⟨newChan seed .other, stage, noRemote, s.talks⟩) nofun hh]
    exact .hidden
  · cases hm
    exact h.makes hNew rfl rfl rfl (exchange_send _ side _ _) hs .asked

variable {id : Nat} {e : Entry} {chan : Chan2} {seen : List Outcome} {window : UInt32}
  {answer : Answer} {detaches : Bool}

lemma Inv.accepted {kind : Kind} {user : Bool} (h : Inv s) (hq : s.toward side = flight :: rest)
    (ho : flight.packet = .opens sender window maxpacket)
    (hs : stage = .live ∨ stage = .connecting)
    (hc : chan = { newChan seed kind with detachUser := user }) (hk : kind ≠ .zombie)
    (hl : kind = .larval → user = true)
    (hd : answerOpen.accepted (s.take side rest) side flight.talk sender window maxpacket stage
      chan = .ok t) : Inv t := by
  obtain ⟨⟨next, id⟩, hf, hd⟩ := bind_eq_ok.1 hd
  obtain ⟨⟨slots, id'⟩, hNew, hf⟩ := map_eq_ok.1 hf
  cases hf
  subst hc
  have ht := exchange_take hq
  rw [ho] at ht
  rcases hs with rfl | rfl
  · cases hd
    refine h.accepts hNew rfl rfl (ht.trans (exchange_send _ side _ _)) ?_ ?_
    · exact .of_new rfl rfl rfl rfl hk fun hIs => ⟨hl hIs, rfl⟩
    · rw [toEnd_live hk rfl]
      exact .accepts
  · cases hd
    refine h.accepts hNew rfl rfl ht ?_ ?_
    · exact .of_new rfl rfl rfl rfl hk fun hIs => ⟨hl hIs, rfl⟩
    · rw [toEnd_connecting hk rfl]
      exact .waits

lemma Inv.answerOpen (h : Inv s) (hq : s.toward side = flight :: rest)
    (ho : flight.packet = .opens sender window maxpacket)
    (hd : answerOpen (s.take side rest) side flight.talk sender window maxpacket answer = .ok t) :
    Inv t := by
  cases answer with
  | refuse =>
    cases hd
    have ht := exchange_take hq
    rw [ho] at ht
    exact h.refuses rfl rfl (ht.trans (exchange_send _ side _ _))
  | session seed =>
    have hc : { newChan seed .larval with detachUser := true } =
      { newChan seed .larval with detachUser := true } := rfl
    exact h.accepted hq ho (.inl rfl) hc nofun (fun _ => rfl) hd
  | x11 seed =>
    have hc : newChan seed .x11Opened = { newChan seed .x11Opened with detachUser := false } := rfl
    exact h.accepted hq ho (.inl rfl) hc nofun nofun hd
  | accept seed =>
    have hc : newChan seed .opened = { newChan seed .opened with detachUser := false } := rfl
    exact h.accepted hq ho (.inl rfl) hc nofun nofun hd
  | connect seed =>
    have hc : newChan seed .other = { newChan seed .other with detachUser := false } := rfl
    exact h.accepted hq ho (.inr rfl) hc nofun nofun hd

/-! Packets for channels that exist. -/

lemma channelLookup_of_slotAt {slots : List (Option Entry)} (hSlot : slotAt slots id = some e)
    (ht : e.chan.type ≠ .zombie) (hs : e.stage ≠ .listening) : channelLookup slots id = some e := by
  rw [channelLookup, hSlot]
  exact if_neg (by simp [ht, hs])

lemma Inv.meets (h : Inv s) (hq : s.toward side = flight :: rest) :
    ∃ place, flight.packet.Meets place ∧ ∀ id found, place = some (id, found) →
      ∃ e, slotAt (s.slots side) id = some e ∧ e.talk = flight.talk ∧ e.toEnd = found ∧ Sound e := by
  obtain ⟨ends, hCoh⟩ := h
  refine ⟨ends flight.talk side, (hCoh.conversation flight.talk).meets (exchange_take hq).self, ?_⟩
  intro id found hp
  obtain ⟨e, hSlot, ht, hEnd⟩ := (hCoh.tracks side flight.talk id found).1 hp
  exact ⟨e, hSlot, ht, hEnd, hCoh.sound side id e hSlot⟩

lemma Inv.settled (h : Inv s) (hq : s.toward side = flight :: rest)
    (hm : flight.packet.Meets = fun place => place = some (id, .requested)) :
    ∃ e, channelLookup ((s.take side rest).slots side) id = some e ∧
      slotAt (s.slots side) id = some e ∧ e.talk = flight.talk ∧ e.stage = .opening ∧
      e.toEnd = .requested ∧ Sound e := by
  obtain ⟨place, hp, hf⟩ := h.meets hq
  rw [hm] at hp
  obtain ⟨e, hSlot, ht, hEnd, hSound⟩ := hf id .requested hp
  obtain ⟨hType, hs⟩ := of_toEnd_requested hEnd
  exact ⟨e, channelLookup_of_slotAt hSlot hType (by rw [hs]; nofun), hSlot, ht, hs, hEnd, hSound⟩

lemma Speaks.move {next : Chan2} (h : Speaks e.chan next sent) (hs : e.stage = .live)
    (ht : e.chan.type ≠ .zombie) (hSame : next.type = e.chan.type)
    (hr : next.closeRcvd = e.chan.closeRcvd) :
    Move (some (id, e.toEnd)) [] (some (id, Entry.toEnd { e with chan := next }))
      (sent.map (.message e.remoteId)) := by
  rw [toEnd_live ht hs, toEnd_onChan (hSame ▸ ht) hs, hr]
  cases h with
  | silent hSame hn =>
    rw [hSame, hn]
    exact .stays
  | words hPre ha hw =>
    rw [hPre, ha]
    exact .speaks hw
  | closes hPre ha hSent =>
    rw [hPre, ha, hSent]
    exact .closes

lemma Sound.next {next : Chan2} (h : Sound e) (hs : e.stage = .live)
    (he : Effect e.chan next sent) (hSame : next.type = e.chan.type)
    (hl : next.isLocal = e.chan.isLocal) (ha : next.type = .larval → Attached next) :
    Sound { e with chan := next } where
  isLocal := hl.trans h.isLocal
  finished := he.finished h.finished
  fresh := fun ho => absurd hs ho
  live := fun hLive hz => h.live hLive (hSame.symm.trans hz)
  attached := ha

lemma Inv.message {message : Message} (h : Inv s) (hq : s.toward side = flight :: rest)
    (hPkt : flight.packet = .message id message)
    (hd : receive fellows (s.take side rest) side flight answer = .ok t) : Inv t := by
  obtain ⟨place, hp, hf⟩ := h.meets hq
  rw [hPkt] at hp
  obtain ⟨remote, sent, hp⟩ := hp
  obtain ⟨e, hSlot, hTalk, hEnd, hs⟩ := hf id _ hp
  obtain ⟨ht, hStage, rfl, rfl, hr⟩ := of_toEnd_live hEnd
  have hl : channelLookup ((s.take side rest).slots side) id = some e :=
    channelLookup_of_slotAt hSlot ht (by rw [hStage]; nofun)
  rw [receive, hPkt] at hd
  dsimp only at hd
  rw [hl] at hd
  obtain ⟨⟨chan, answers⟩, hi, hd⟩ := bind_eq_ok.1 hd
  cases hd
  have he := channelInput_effect hi
  have hh := channelInput_hears hs.isLocal hi
  have hw : .close ∉ answers := fun hc => nomatch hh.eof _ hc
  have hTake := exchange_take hq
  rw [hPkt, ← hTalk] at hTake
  refine h.moves hSlot (some { e with chan := chan }) rfl rfl
    (hTake.trans (exchange_send _ side _ _)) ?_ ?_
  · intro e' hn
    cases hn
    refine ⟨rfl, hs.next hStage he hh.type hh.isLocal fun hLarval => ?_⟩
    exact hh.attached he (hs.attached (hh.type ▸ hLarval))
  · rw [Option.map_some, hEnd, toEnd_onChan (hh.type ▸ ht) hStage, hh.closeRcvd, hr, Bool.false_or]
    -- An answer is an EOF, which is not sent after CLOSE.
    cases he.speaks hs.finished fun hEow => nomatch hh.eof _ hEow with
    | silent hSame hNone =>
      rw [hSame, hNone]
      exact .hears (fun _ => rfl) (by simp)
    | words hPre ha =>
      rw [hPre, ha]
      exact .hears nofun hw
    | closes hPre ha hSent =>
      rw [hSent] at hw
      exact absurd (mem_singleton.2 rfl) hw

lemma Inv.receive (h : Inv s) (hq : s.toward side = flight :: rest)
    (hd : receive fellows (s.take side rest) side flight answer = .ok t) : Inv t := by
  have ht := exchange_take hq
  cases hPkt : flight.packet with
  | opens sender window maxpacket =>
    rw [Channel.receive, hPkt] at hd
    exact h.answerOpen hq hPkt hd
  | confirmation id sender window maxpacket =>
    obtain ⟨e, hl, hSlot, hTalk, hs, hEnd, hSound⟩ :=
      h.settled hq (by rw [hPkt]; rfl)
    simp only [Channel.receive, hPkt, hl, if_pos hs] at hd
    cases hd
    obtain ⟨hSent, hr, -⟩ := hSound.fresh (by rw [hs]; nofun) (of_toEnd_requested hEnd).1
    rw [hPkt, ← hTalk] at ht
    refine h.moves hSlot (some _) rfl rfl ht ?_ ?_
    · intro next hn
      cases hn
      exact ⟨rfl, .opened hSound.isLocal hSound.finished rfl rfl⟩
    · have hm : Move (some (id, .requested)) [.confirmation id sender window maxpacket]
        (some (id, .live sender e.chan.closeSent e.chan.closeRcvd)) [] := by
        rw [hSent, hr]
        exact .confirmed
      rw [hEnd]
      exact hm
  | failure id =>
    obtain ⟨e, hl, hSlot, hTalk, hs, hEnd, hSound⟩ :=
      h.settled hq (by rw [hPkt]; rfl)
    simp only [Channel.receive, hPkt, hl, if_pos hs] at hd
    cases hd
    rw [hPkt, ← hTalk] at ht
    refine h.moves hSlot (some _) rfl rfl ht ?_ ?_
    · intro next hn
      cases hn
      exact ⟨rfl, hSound.dead (by rw [hs]; nofun)⟩
    · rw [hEnd]
      exact .refused
  | message id message => exact h.message hq hPkt hd

/-! What a side does by itself. -/

lemma gc_move (hSound : Sound e) (hStage : e.stage = .live)
    (hGc : channelGarbageCollect fellows detaches e.chan = (chan, seen)) :
    Move (some (id, e.toEnd)) []
      ((if isFreed seen then none else some { e with chan := chan }).map fun next => (id, next.toEnd))
      ((messages seen).map (.message e.remoteId)) := by
  have ht := hSound.live hStage
  have hs := (channelGarbageCollect_shows fellows detaches e.chan).effect.speaks hSound.finished
    fun hEow => absurd hEow (channelGarbageCollect_noEow fellows detaches e.chan)
  have hStays := channelGarbageCollect_stays fellows detaches e.chan
  rw [hGc] at hs hStays
  cases hFreed : isFreed seen with
  | false => exact hs.move hStage ht hStays.1 hStays.2.1
  | true =>
    have hb := channelGarbageCollect_freed ht hSound.isLocal (by rwa [hGc])
    rw [hGc] at hb
    have hr : e.chan.closeRcvd = true := hStays.2.1.symm.trans hb.1
    rw [toEnd_live ht hStage, hr]
    cases hs with
    | silent hSame hn =>
      rw [hn, ← hSame, hb.2]
      exact .frees
    | words hPre ha hWords => exact absurd (hb.2.symm.trans ha) nofun
    | closes hPre ha hSent =>
      rw [hPre, hSent]
      exact .leaves

lemma gc_sound (hs : Sound e) (hStage : e.stage = .live)
    (hGc : channelGarbageCollect fellows detaches e.chan = (chan, seen))
    (hFreed : isFreed seen = false) : Sound { e with chan := chan } := by
  have he := (channelGarbageCollect_shows fellows detaches e.chan).effect
  have hStays := channelGarbageCollect_stays fellows detaches e.chan
  rw [hGc] at he hStays
  refine hs.next hStage he hStays.1 hStays.2.2 fun hl => ?_
  have ha := hs.attached (hStays.1.symm.trans hl)
  have hSame := channelGarbageCollect_attached (hs.live hStage) hs.isLocal ha (by rwa [hGc])
  rw [hGc] at hSame
  rwa [show chan = e.chan from hSame]

lemma Inv.guarded {done : Except Stop Connection} {may : Prop} [Decidable may] (h : Inv s)
    (hd : (if may then done else .ok s) = .ok t) (ht : may → done = .ok t → Inv t) : Inv t := by
  split_ifs at hd with hMay
  · exact ht hMay hd
  · cases hd
    exact h

section Own

variable (h : Inv s) (hSlot : slotAt (s.slots side) id = some e)

include h hSlot

lemma Inv.stays {next : Entry} (ht : next.talk = e.talk) (hs : Sound next) (hEnd : next.toEnd = e.toEnd) :
    Inv (s.put side id (some next)) := by
  refine h.moves hSlot (some next) rfl rfl (Exchange.refl _ side _) ?_ ?_
  · intro e' hn
    obtain rfl := Option.some.inj hn
    exact ⟨ht, hs⟩
  · rw [Option.map_some, hEnd]
    exact .stays

lemma Inv.sound : Sound e := by
  obtain ⟨ends, hCoh⟩ := h
  exact hCoh.sound side id e hSlot

lemma Inv.markDead (hs : e.stage.hidden = true) :
    Inv (s.put side id (some { e with chan := e.chan.onChan chanMarkDead })) := by
  have ho : e.stage ≠ .live := by
    intro hl
    rw [hl] at hs
    cases hs
  refine h.moves hSlot (some _) rfl rfl (Exchange.refl _ side _) ?_ ?_
  · intro next hn
    cases hn
    exact ⟨rfl, (h.sound hSlot).dead ho⟩
  · rw [Option.map_some, toEnd_markDead]
    by_cases ht : e.chan.type = .zombie
    · rw [toEnd_zombie ht]
      exact .stays
    · rw [toEnd_hidden ht hs]
      exact .dies

lemma Inv.garbageCollect (hGc : channelGarbageCollect fellows detaches e.chan = (chan, seen)) :
    Inv ((s.put side id (if isFreed seen then none else some { e with chan := chan })).say side e
      (messages seen)) := by
  have hs := h.sound hSlot
  have hExch := exchange_send
    (s.put side id (if isFreed seen then none else some { e with chan := chan })) side e.talk
    ((messages seen).map (.message e.remoteId))
  by_cases hStage : e.stage = .live
  · refine h.moves hSlot _ rfl rfl hExch ?_ (gc_move hs hStage hGc)
    intro next hn
    split_ifs at hn with hf
    cases hn
    exact ⟨rfl, gc_sound hs hStage hGc (Bool.eq_false_iff.2 hf)⟩
  by_cases ht : e.chan.type = .zombie
  · have hNone := channelGarbageCollect_zombie fellows detaches ht
    have he := (channelGarbageCollect_shows fellows detaches e.chan).effect
    have hStays := channelGarbageCollect_stays fellows detaches e.chan
    rw [hGc] at hNone he hStays
    have hz : chan.type = .zombie := hStays.1.trans ht
    refine h.moves hSlot _ rfl rfl hExch ?_ ?_
    · intro next hn
      split_ifs at hn with hf
      cases hn
      refine ⟨rfl, hStays.2.2.trans hs.isLocal, he.finished hs.finished, ?_, ?_, ?_⟩
      · exact fun _ ho => absurd hz ho
      · exact fun hLive => absurd hLive hStage
      · exact fun hl => nomatch hz.symm.trans hl
    · rw [hNone, toEnd_zombie ht]
      split_ifs
      · exact .drops
      · rw [Option.map_some, toEnd_zombie hz]
        exact .stays
  · have hIn := (hs.fresh hStage ht).2.2
    rw [channelGarbageCollect_open fellows detaches ht hIn] at hGc
    cases hGc
    refine h.moves hSlot _ rfl rfl hExch ?_ .stays
    intro next hn
    cases hn
    exact ⟨rfl, hs⟩

lemma Inv.work {occurrence : Occurrence} (hs : e.stage = .live)
    (hMay : occurrence.allowed e.chan.type = true)
    (hStep : closeStep fellows e.chan occurrence = .ok (chan, seen)) :
    Inv ((s.put side id (some { e with chan := chan })).say side e (messages seen)) := by
  have hSound := h.sound hSlot
  have he := (closeStep_shows hStep).effect
  obtain ⟨⟨hk, hr, hLocal⟩, hEow⟩ := closeStep_stays hMay hStep
  refine h.moves hSlot (some _) rfl rfl (exchange_send _ side _ _) ?_ ?_
  · intro next hn
    cases hn
    refine ⟨rfl, hSound.next hs he hk hLocal fun hl => ?_⟩
    rw [hk.symm.trans hl] at hMay
    cases hMay
  · exact (he.speaks hSound.finished hEow).move hs (hSound.live hs) hk hr

lemma Inv.requestOpen (hStage : e.stage = .dynamic) (ht : e.chan.type ≠ .zombie) :
    Inv ((s.put side id (some { e with stage := .opening })).send side e.talk [asksFor e id]) := by
  have hs := h.sound hSlot
  have hf := hs.fresh (by rw [hStage]; nofun) ht
  refine h.moves hSlot (some _) rfl rfl (exchange_send _ side _ _) ?_ ?_
  · intro next hn
    cases hn
    exact ⟨rfl, hs.isLocal, hs.finished, fun _ _ => hf, nofun, hs.attached⟩
  · have ha : Entry.toEnd { e with stage := .opening } = .requested := toEnd_opening ht rfl
    rw [toEnd_hidden ht (by rw [hStage]; rfl), Option.map_some, ha]
    exact .asks

lemma Inv.connected (hStage : e.stage = .connecting) (ht : e.chan.type ≠ .zombie) :
    Inv ((s.put side id (some { e with chan := { e.chan with type := .opened }, stage := .live })).send
      side e.talk [confirms { e with chan := { e.chan with type := .opened }, stage := .live } id]) ∧
      Inv ((s.put side id (some { e with chan := e.chan.onChan chanMarkDead })).send side e.talk
        [.failure e.remoteId]) := by
  have hs := h.sound hSlot
  have ho : e.stage ≠ .live := by
    rw [hStage]
    nofun
  obtain ⟨hSent, hr, -⟩ := hs.fresh ho ht
  constructor
  · refine h.moves hSlot (some _) rfl rfl (exchange_send _ side _ _) ?_ ?_
    · intro next hn
      cases hn
      exact ⟨rfl, .opened hs.isLocal hs.finished rfl rfl⟩
    · have hm : Move (some (id, .pending e.remoteId)) []
        (some (id, .live e.remoteId e.chan.closeSent e.chan.closeRcvd))
        [.confirmation e.remoteId id e.chan.localWindow e.chan.localMaxpacket] := by
        rw [hSent, hr]
        exact .connects
      rw [toEnd_connecting ht hStage]
      exact hm
  · refine h.moves hSlot (some _) rfl rfl (exchange_send _ side _ _) ?_ ?_
    · intro next hn
      cases hn
      exact ⟨rfl, hs.dead ho⟩
    · rw [toEnd_connecting ht hStage, Option.map_some, toEnd_markDead]
      exact .fails

lemma Inv.setFds (hs : e.stage = .live) (ht : e.chan.type = .larval) (ho : chan.type = .opened)
    (hSent : chan.closeSent = e.chan.closeSent) (hr : chan.closeRcvd = e.chan.closeRcvd)
    (hl : chan.isLocal = e.chan.isLocal) :
    Inv ((s.put side id (some { e with chan := chan })).say side e [.windowAdjust window]) := by
  have hSound := h.sound hSlot
  have hu := (hSound.attached ht).closeSent
  refine h.moves hSlot (some _) rfl rfl (exchange_send _ side _ _) ?_ ?_
  · intro next hn
    cases hn
    refine ⟨rfl, .opened (hl.trans hSound.isLocal) ?_ hs ho⟩
    intro hc
    exact nomatch hc.symm.trans (hSent.trans hu)
  · rw [toEnd_live (hSound.live hs) hs, Option.map_some,
      toEnd_onChan (by rw [ho]; nofun) hs, hSent, hr, hu]
    exact .speaks (by simp)

lemma Inv.x11Ready (hs : e.stage = .live) :
    Inv (s.put side id (some { e with chan := { e.chan with type := .opened } })) := by
  have hSound := h.sound hSlot
  refine h.stays hSlot rfl (.opened hSound.isLocal hSound.finished hs rfl) ?_
  rw [toEnd_live (hSound.live hs) hs]
  exact toEnd_onChan nofun hs

lemma Inv.actOn {act : Act} (hd : actOn fellows s side id e act = .ok t) : Inv t := by
  cases act with
  | requestOpen _ =>
    refine h.guarded hd fun hMay hd => ?_
    cases hd
    rw [Bool.and_eq_true, decide_eq_true_eq, decide_eq_true_eq] at hMay
    exact h.requestOpen hSlot hMay.1 hMay.2
  | markDead _ =>
    refine h.guarded hd fun hMay hd => ?_
    cases hd
    exact h.markDead hSlot hMay
  | connected _ success =>
    refine h.guarded hd fun hMay hd => ?_
    rw [Bool.and_eq_true, decide_eq_true_eq, decide_eq_true_eq] at hMay
    split_ifs at hd
    · cases hd
      exact (h.connected hSlot hMay.1 hMay.2).1
    · cases hd
      exact (h.connected hSlot hMay.1 hMay.2).2
  | setFds _ seed isatty =>
    refine h.guarded hd fun hMay hd => ?_
    cases hd
    rw [Bool.and_eq_true, decide_eq_true_eq, decide_eq_true_eq] at hMay
    exact h.setFds hSlot hMay.1 hMay.2 rfl rfl rfl rfl
  | x11Ready _ =>
    refine h.guarded hd fun hMay hd => ?_
    cases hd
    rw [Bool.and_eq_true, decide_eq_true_eq] at hMay
    exact h.x11Ready hSlot hMay.1
  | work _ occurrence =>
    refine h.guarded hd fun hMay hd => ?_
    obtain ⟨⟨chan, seen⟩, hs, hd⟩ := bind_eq_ok.1 hd
    cases hd
    rw [Bool.and_eq_true, decide_eq_true_eq] at hMay
    exact h.work hSlot hMay.1 hMay.2 hs
  | garbageCollect _ detaches =>
    rw [← Except.ok.inj hd]
    exact h.garbageCollect hSlot rfl
  | _ =>
    cases hd
    exact h

end Own

/-- A step that acts on a slot. -/
def actStep (fellows : Datafellows) (s : Connection) (side : Side) (act : Act) : Except Stop (Connection × List Flight) :=
  match act.slot.bind (slotAt (s.slots side)) with
  | none => .ok (s, [])
  | some e => (actOn fellows s side (act.slot.getD 0) e act).map fun next => (next, [])

lemma connStep_inv {input : Side × Act} {seen : List Flight} (h : Inv s)
    (hs : connStep fellows s input = .ok (t, seen)) : Inv t := by
  obtain ⟨side, act⟩ := input
  have ha (ho : actStep fellows s side act = .ok (t, seen)) : Inv t := by
    rw [actStep] at ho
    cases hSlot : act.slot with
    | none =>
      rw [hSlot] at ho
      cases ho
      exact h
    | some id =>
      rw [hSlot] at ho
      cases he : slotAt (s.slots side) id with
      | none =>
        rw [Option.bind_some, he] at ho
        cases ho
        exact h
      | some e =>
        rw [Option.bind_some, he] at ho
        obtain ⟨next, hd, hSame⟩ := map_eq_ok.1 ho
        cases hSame
        exact h.actOn he hd
  cases act with
  | listen seed => exact h.make (.inl rfl) hs
  | dynamic seed => exact h.make (.inl rfl) hs
  | «open» seed => exact h.make (.inr rfl) hs
  | deliver answer =>
    rw [connStep] at hs
    cases hq : s.toward side with
    | nil =>
      rw [hq] at hs
      cases hs
      exact h
    | cons flight rest =>
      rw [hq] at hs
      obtain ⟨next, hd, hSame⟩ := map_eq_ok.1 hs
      cases hSame
      exact h.receive hq hd
  | requestOpen id => exact ha hs
  | markDead id => exact ha hs
  | connected id success => exact ha hs
  | setFds id seed isatty => exact ha hs
  | x11Ready id => exact ha hs
  | work id occurrence => exact ha hs
  | garbageCollect id detaches => exact ha hs

end Steps

/-! Whole runs. -/

/-- Whatever the sides do, everything on its way to a slot finds the channel there that it is
about, a confirmation or a refusal finds it still waiting for one, and no channel has two slots. -/
theorem channel_ids_never_confused {fellows : Datafellows} {turns : List (Side × Act)}
    {last : Connection} {delivered : List Flight}
    (hRun : run (connStep fellows) .start turns = .ok (last, delivered)) :
    (∀ side, ∀ flight ∈ last.toward side, ∀ id, flight.packet.recipient = some id →
      ∃ e, channelLookup (last.slots side) id = some e ∧ e.talk = flight.talk ∧
        (flight.packet.settles = true → e.stage = .opening)) ∧
      ∀ side id id' e e', slotAt (last.slots side) id = some e →
        slotAt (last.slots side) id' = some e' → e.talk = e'.talk → id = id' := by
  have hAlways : Along (connStep fellows) (fun _ _ => True) .start turns :=
    along_of_forall fun _ _ _ => trivial
  obtain ⟨ends, hCoherent⟩ : Inv last := by
    refine run_events (fun s _ => Inv s) ?_ ⟨_, coherent_start⟩ hAlways hRun
    intro s past input next events h _ hStep
    exact connStep_inv h hStep
  constructor
  · intro side flight hMem id hId
    have hLink : flight.packet ∈ linkOf last side flight.talk :=
      mem_map.2 ⟨flight, mem_filter.2 ⟨hMem, by simp⟩, rfl⟩
    obtain ⟨found, hPlace, hExpects⟩ := (hCoherent.conversation flight.talk).expects hLink hId
    obtain ⟨e, hSlot, hTalk, hEnd⟩ := (hCoherent.tracks side flight.talk id found).1 hPlace
    cases found with
    | requested =>
      obtain ⟨hType, hStage⟩ := of_toEnd_requested hEnd
      exact ⟨e, channelLookup_of_slotAt hSlot hType (by rw [hStage]; nofun), hTalk, fun _ => hStage⟩
    | live remote sent rcvd =>
      obtain ⟨hType, hStage, -⟩ := of_toEnd_live hEnd
      refine ⟨e, channelLookup_of_slotAt hSlot hType (by rw [hStage]; nofun), hTalk, fun hSettles => ?_⟩
      rw [hExpects.2] at hSettles
      cases hSettles
    | hidden => exact hExpects.elim
    | pending remote => exact hExpects.elim
    | dead => exact hExpects.elim
  · intro side id id' e e' hSlot hSlot' hTalk
    have hHere := (hCoherent.tracks side e.talk id _).2 ⟨e, hSlot, rfl, rfl⟩
    have hThere := (hCoherent.tracks side e.talk id' _).2 ⟨e', hSlot', hTalk.symm, rfl⟩
    exact (Prod.mk.inj (Option.some.inj (hHere.symm.trans hThere))).1

def plainSeed : Seed where
  settings := shellSession.toSettings
  rfd := true
  wfd := true
  sock := false
  efd := false
  window := 64
  extendedUsage := .ignore
  forceDrain := false

/-- A channel is opened and closed from both sides, and the slots are used again at once. The
first data of the second channel follow its confirmation. -/
def reusedSlots : List (Side × Act) :=
  [(.near, .open plainSeed), (.far, .deliver (.accept plainSeed)), (.near, .deliver .refuse),
    (.near, .work 0 .readFailed), (.near, .work 0 .ibufEmpty), (.far, .deliver .refuse),
    (.far, .work 0 .readFailed), (.far, .work 0 .ibufEmpty), (.near, .deliver .refuse),
    (.near, .garbageCollect 0 false), (.far, .garbageCollect 0 false),
    (.far, .deliver .refuse), (.far, .garbageCollect 0 false),
    (.near, .deliver .refuse), (.near, .garbageCollect 0 false),
    (.near, .open plainSeed), (.far, .deliver (.accept plainSeed)),
    (.far, .work 0 (.rfd (reads [104, 105]) twoSessions.globals)), (.far, .work 0 .outputPoll)]

theorem channel_ids_never_confused_reused :
    ∃ last delivered, run (connStep ⟨false, true⟩) .start reusedSlots = .ok (last, delivered) ∧
      (delivered.map fun flight => (flight.talk, flight.packet.recipient)) =
        [(0, none), (0, some 0), (0, some 0), (0, some 0), (0, some 0), (0, some 0), (1, none)] ∧
      ((last.toward .near).map fun flight => (flight.talk, flight.packet.recipient)) =
        [(1, some 0), (1, some 0)] ∧
      ∀ flight ∈ last.toward .near, ∃ e, channelLookup (last.slots .near) 0 = some e ∧
        e.talk = flight.talk := by
  have hEnd : (run (connStep ⟨false, true⟩) .start reusedSlots).toOption.map
    (fun out => ((out.2.map fun flight => (flight.talk, flight.packet.recipient)),
      (out.1.toward .near).map fun flight => (flight.talk, flight.packet.recipient))) =
    some ([(0, none), (0, some 0), (0, some 0), (0, some 0), (0, some 0), (0, some 0), (1, none)],
      [(1, some 0), (1, some 0)]) := by decide +kernel
  obtain ⟨⟨last, delivered⟩, hRun, hLast⟩ := Option.map_eq_some_iff.1 hEnd
  obtain ⟨hDelivered, hFlying⟩ := Prod.mk.inj hLast
  have hIds := (channel_ids_never_confused (toOption_eq_some.1 hRun)).1 .near
  refine ⟨last, delivered, toOption_eq_some.1 hRun, hDelivered, hFlying, ?_⟩
  intro flight hMem
  have hRecipient : (flight.talk, flight.packet.recipient) ∈ [(1, some 0), (1, some 0)] := by
    rw [← hFlying]
    exact mem_map_of_mem hMem
  obtain ⟨e, hLookup, hTalk, -⟩ := hIds flight hMem 0 (by simp_all)
  exact ⟨e, hLookup, hTalk⟩

end Channel
