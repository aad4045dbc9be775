import Sshfortress.Base.Gate
import Sshfortress.Packet.Exchange

/-! Packets across key exchanges. The packet layer is a queue behind a gate that our
KEXINIT message closes and our NEWKEYS message opens; whatever happens, what is
seen of a session is what such a gate would do. -/
namespace Packet

open Base Base.Wire Base.Transition List

variable {Ctx : Type}

def kind (payload : Bytes) : Gate.Kind :=
  match payload.head? with
  | none => .other
  | some type =>
    if type = msgKexinit then .close
    else if type = msgNewkeys then .reopen
    else if sshPacketTypeIsKex type then .other
    else .data

def gate (s : Ssh Ctx) : Gate.State Bytes := ⟨s.rekeying, s.outgoing⟩

def sentEvents (frames : List Frame) : List (Gate.Event Bytes) :=
  frames.map fun frame => .sent frame.payload

def Event.atGate : Event → Option (Gate.Event Bytes)
  | .submitted payload => some (.submitted payload)
  | .sent frame => some (.sent frame.payload)
  | .received _ => none
  | .negotiated _ => none

/-- Between two calls: only data waits, nothing waits at an open gate, and an exchange
that is finished does not count as begun. -/
structure Settled (s : Ssh Ctx) : Prop where
  queue : ∀ payload ∈ s.outgoing, kind payload = .data
  drained : s.rekeying = false → s.outgoing = []
  initSent : s.kex.done = true → s.kex.initSent = false

/-- The gate explains what was seen, and the session is settled again. -/
def Explained (s : Ssh Ctx) (events : List (Gate.Event Bytes)) (next : Ssh Ctx) : Prop :=
  Gate.run kind (gate s) events = some (gate next) ∧ Settled next

variable {s next : Ssh Ctx} {frames : List Frame} {payload : Bytes} {t : Transport Ctx}
  {events : List Event}

lemma Explained.trans {middle : Ssh Ctx} {front back : List (Gate.Event Bytes)}
    (hf : Explained s front middle) (hb : Explained middle back next) :
    Explained s (front ++ back) next :=
  ⟨Gate.run_append_eq_some.2 ⟨_, hf.1, hb.1⟩, hb.2⟩

variable {type : UInt8} {rest : Bytes}

lemma kind_eq_data_iff : kind (type :: rest) = .data ↔ sshPacketTypeIsKex type = false := by
  by_cases hi : type = msgKexinit
  · subst hi
    show Gate.Kind.close = .data ↔ _
    decide
  by_cases hNew : type = msgNewkeys
  · subst hNew
    show Gate.Kind.reopen = .data ↔ _
    decide
  · simp [kind, hi, hNew]

lemma kind_eq_reopen (h : kind payload = .reopen) : payload.head? = some msgNewkeys := by
  rw [kind] at h
  split at h
  · cases h
  · next type ht =>
    split_ifs at h with hInit hNew
    rw [ht, hNew]

lemma run_single {g next : Gate.State Bytes} {event : Gate.Event Bytes}
    (h : Gate.step kind g event = some next) : Gate.run kind g [event] = some next :=
  Gate.run_cons_eq_some.2 ⟨next, h, rfl⟩

/-! The packet layer. -/

lemma kexSendKexinit_closes (hq : ∀ payload ∈ s.outgoing, kind payload = .data)
    (hf : s.kex.initSent = false) (h : kexSendKexinit s = .ok (next, frames)) :
    Explained s (sentEvents frames) next := by
  rcases kexSendKexinit_cases h with
    ⟨hs, -⟩ | ⟨-, drawn, my, sent, frame, hw, rfl, rfl⟩
  · rw [hf] at hs
    cases hs
  · obtain ⟨hl, -, -, hk, -⟩ := sshPacketSend2Wrapped_cases hw
    have hc : kind frame.payload = .close := by
      rw [hl]
      rfl
    have hg : gate { sent with kex := { sent.kex with initSent := true } } =
      { gate s with closed := true } := by rw [gate, gate, hk.rekeying, hk.outgoing]
    constructor
    · rw [hg]
      exact run_single (Gate.step_sent_close hc)
    · constructor
      · show ∀ payload ∈ sent.outgoing, kind payload = .data
        rw [hk.outgoing]
        exact hq
      · show sent.rekeying = false → _
        rw [hk.rekeying]
        intro ho
        cases ho
      · show sent.kex.done = true → _
        rw [hk.kex]
        intro hd
        cases hd

lemma kexSendKexinit_explained (hDue : Settled s) (h : kexSendKexinit s = .ok (next, frames)) :
    Explained s (sentEvents frames) next := by
  cases hs : s.kex.initSent with
  | false => exact kexSendKexinit_closes hDue.queue hs h
  | true =>
    rw [kexSendKexinit, if_pos hs] at h
    cases h
    exact ⟨rfl, hDue⟩

lemma kexStartRekex_explained (hq : ∀ payload ∈ s.outgoing, kind payload = .data)
    (hi : s.kex.done = true → s.kex.initSent = false) (h : kexStartRekex s = .ok (next, frames)) :
    Explained s (sentEvents frames) next := by
  rw [kexStartRekex] at h
  split_ifs at h with hd
  have hf := hi (eq_true_of_ne_false hd)
  have hc := kexSendKexinit_closes (s := { s with kex := { s.kex with done := false } }) hq hf h
  exact hc

/-- Releasing the queue, up to its end or to the packet that makes an exchange due. -/
lemma sendOutgoing_explained {queue : List Bytes} (ho : s.outgoing = queue)
    (hOpen : s.rekeying = false) (hq : ∀ payload ∈ queue, kind payload = .data)
    (hi : s.kex.done = true → s.kex.initSent = false)
    (h : sendOutgoing queue s = .ok (next, frames)) : Explained s (sentEvents frames) next := by
  induction queue generalizing s frames with
  | nil =>
    cases h
    refine ⟨rfl, ?_, fun _ => ho, hi⟩
    rw [ho]
    exact hq
  | cons payload rest ih =>
    rw [sendOutgoing] at h
    split_ifs at h with hDue
    · have hw : ∀ other ∈ (tick s).outgoing, kind other = .data := by
        show ∀ other ∈ s.outgoing, kind other = .data
        rw [ho]
        exact hq
      exact kexStartRekex_explained (s := tick s) hw hi h
    · obtain ⟨⟨sent, frame⟩, hWrapped, h⟩ := bind_eq_ok.1 h
      obtain ⟨⟨last, later⟩, hRest, h⟩ := bind_eq_ok.1 h
      cases h
      obtain ⟨hLoad, -, -, hk, -⟩ := sshPacketSend2Wrapped_cases hWrapped
      have hs : sent.rekeying = false := hk.rekeying.trans hOpen
      have hKex : sent.kex.done = true → sent.kex.initSent = false := by
        rw [hk.kex]
        exact hi
      have hl := ih hk.outgoing hs (fun other hOther => hq other (.tail _ hOther)) hKex hRest
      have hd : kind frame.payload = .data := by
        rw [hLoad]
        exact hq payload mem_cons_self
      have hr : Gate.step kind (gate s) (.sent frame.payload) = some (gate sent) := by
        rw [gate, gate, hOpen, ho, hs, hk.outgoing, ← hLoad]
        exact Gate.step_sent_data hd
      exact ⟨Gate.run_cons_eq_some.2 ⟨gate sent, hr, hl.1⟩, hl.2⟩

lemma sshPacketSend2Wrapped_kex {sent : Ssh Ctx} {frame : Frame} (hKex : sshPacketTypeIsKex type = true)
    (h : sshPacketSend2Wrapped { s with rekeying := s.rekeying || type = msgKexinit }
      (type :: rest) = .ok (sent, frame)) :
    Gate.step kind (gate s) (.sent frame.payload) =
      some { gate sent with closed := if type = msgNewkeys then false else sent.rekeying } := by
  obtain ⟨hl, -, -, hk, -⟩ := sshPacketSend2Wrapped_cases h
  rw [hl, gate, gate, hk.rekeying, hk.outgoing]
  by_cases hi : type = msgKexinit
  · subst hi
    simp [Gate.step, kind, msgKexinit, msgNewkeys]
  by_cases hNew : type = msgNewkeys
  · subst hNew
    simp [Gate.step, kind, msgKexinit, msgNewkeys]
  · simp [Gate.step, kind, hi, hNew, hKex]

lemma sshPacketSend2_explained (hs : Settled s) (h : sshPacketSend2 s payload = .ok (next, frames)) :
    Explained s (.submitted payload :: sentEvents frames) next := by
  cases payload with
  | nil => cases h
  | cons type rest =>
    simp only [sshPacketSend2, head?_cons] at h
    by_cases hKex : sshPacketTypeIsKex type = true
    · rw [if_pos hKex] at h
      obtain ⟨⟨sent, frame⟩, hw, h⟩ := bind_eq_ok.1 h
      obtain ⟨⟨last, later⟩, ha, h⟩ := bind_eq_ok.1 h
      cases h
      have hc : kind (type :: rest) ≠ .data := by
        rw [Ne, kind_eq_data_iff, hKex]
        decide
      have hSub := Gate.step_submitted_control (g := gate s) hc
      have hSent := sshPacketSend2Wrapped_kex hKex hw
      obtain ⟨-, -, -, hk, -⟩ := sshPacketSend2Wrapped_cases hw
      have hq : ∀ payload ∈ sent.outgoing, kind payload = .data := by
        rw [hk.outgoing]
        exact hs.queue
      have hi : sent.kex.done = true → sent.kex.initSent = false := by
        rw [hk.kex]
        exact hs.initSent
      rw [afterSend] at ha
      split_ifs at ha with hNew
      · rw [if_pos hNew] at hSent
        have hr := sendOutgoing_explained
          (s := { tick sent with rekeying := false, rekeyTime := sent.clock sent.readings })
          rfl rfl hq hi ha
        exact ⟨Gate.run_cons_eq_some.2 ⟨_, hSub, Gate.run_cons_eq_some.2 ⟨_, hSent, hr.1⟩⟩, hr.2⟩
      · rw [if_neg hNew] at hSent
        cases ha
        refine ⟨Gate.run_cons_eq_some.2 ⟨_, hSub, run_single hSent⟩, hq, ?_, hi⟩
        rw [hk.rekeying, hk.outgoing, Bool.or_eq_false_iff]
        intro ho
        exact hs.drained ho.1
    · rw [if_neg hKex] at h
      have hd : kind (type :: rest) = .data :=
        kind_eq_data_iff.2 (Bool.eq_false_iff.2 hKex)
      have hSub := Gate.step_submitted (g := gate s) hd
      have hq : ∀ payload ∈ s.outgoing ++ [type :: rest], kind payload = .data := by
        intro payload hl
        rcases mem_append.1 hl with hOld | hNew
        · exact hs.queue payload hOld
        · rw [mem_singleton.1 hNew]
          exact hd
      split_ifs at h with hh hDue
      · have hr := kexStartRekex_explained
          (s := { tick s with outgoing := s.outgoing ++ [type :: rest] }) hq
          hs.initSent h
        exact ⟨Gate.run_cons_eq_some.2 ⟨_, hSub, hr.1⟩, hr.2⟩
      · -- Held back while the gate is closed.
        cases h
        have hClosed : s.rekeying = true := by
          rcases Bool.or_eq_true_iff.1 hh with hNeed | hRekeying
          · exact absurd hNeed hDue
          · exact hRekeying
        refine ⟨run_single hSub, hq, ?_, hs.initSent⟩
        show s.rekeying = false → _
        rw [hClosed]
        intro ho
        cases ho
      · obtain ⟨⟨sent, frame⟩, hw, h⟩ := bind_eq_ok.1 h
        cases h
        obtain ⟨hl, -, -, hk, -⟩ := sshPacketSend2Wrapped_cases hw
        have ho : s.rekeying = false := by
          rw [Bool.or_eq_true_iff, not_or] at hh
          exact Bool.eq_false_iff.2 hh.2
        have he := hs.drained ho
        have hSent : sent.rekeying = false := hk.rekeying.trans ho
        have hn : sent.outgoing = [] := hk.outgoing.trans he
        have hRelease : Gate.step kind { gate s with queue := s.outgoing ++ [type :: rest] }
          (.sent frame.payload) = some (gate sent) := by
          rw [hl, gate, gate, he, ho, hSent, hn]
          exact Gate.step_sent_data hd
        refine ⟨Gate.run_cons_eq_some.2 ⟨_, hSub, run_single hRelease⟩, ?_, fun _ => hn, ?_⟩
        · rw [hn]
          intro payload hl
          cases hl
        · rw [hk.kex]
          exact hs.initSent

/-! Reading. -/

lemma ReadKept.settled (hk : ReadKept s next) (hDue : Settled s) : Settled next where
  queue := by
    rw [hk.outgoing]
    exact hDue.queue
  drained := by
    rw [hk.rekeying, hk.outgoing]
    exact hDue.drained
  initSent := by
    rw [hk.kex]
    exact hDue.initSent

lemma ReadKept.gate_eq (hk : ReadKept s next) : gate next = gate s := by
  rw [gate, gate, hk.rekeying, hk.outgoing]

lemma sshPacketReadPoll2_explained {found : Option Received} (hDue : Settled s)
    (h : sshPacketReadPoll2 s = .ok (next, found, frames)) : Explained s (sentEvents frames) next := by
  rcases sshPacketReadPoll2_cases h with ⟨-, rfl, ho⟩ | ⟨packet, taken, -, hAcc, hr⟩
  · have hk := ho.toReadKept
    exact ⟨congrArg some hk.gate_eq.symm, hk.settled hDue⟩
  · have hk := hAcc.toReadKept
    have ht := hk.settled hDue
    rw [Explained, ← hk.gate_eq]
    rw [rekeyAfterRead] at hr
    split_ifs at hr
    · exact kexStartRekex_explained (s := tick taken) ht.queue ht.initSent hr
    · cases hr
      exact ⟨rfl, ht.queue, ht.drained, ht.initSent⟩

/-! Whole runs. -/

lemma atGate_sent (frames : List Frame) :
    (frames.map Event.sent).filterMap Event.atGate = sentEvents frames := by
  induction frames with
  | nil => rfl
  | cons frame frames ih =>
    simp only [map_cons, filterMap_cons, Event.atGate, ih]
    rfl

lemma atGate_received (found : Option Received) :
    (found.toList.map Event.received).filterMap Event.atGate = [] := by
  cases found with
  | none => rfl
  | some packet => rfl

variable {next : Transport Ctx}

lemma Works.explained (h : Works t events next) (hDue : Settled t.ssh) :
    Explained t.ssh (events.filterMap Event.atGate) next.ssh := by
  induction h with
  | refl => exact ⟨rfl, hDue⟩
  | trans _ _ ihFront ihBack =>
    rw [filterMap_append]
    have hf := ihFront hDue
    exact hf.trans (ihBack hf.2)
  | handlers _ => exact ⟨rfl, hDue⟩
  | derive keysIn keysOut => exact ⟨rfl, hDue.queue, hDue.drained, hDue.initSent⟩
  | send h =>
    simp only [filterMap_cons, Event.atGate, atGate_sent]
    exact sshPacketSend2_explained hDue h
  | kexinit h =>
    rw [atGate_sent]
    exact kexSendKexinit_explained hDue h
  | rekex h =>
    rw [atGate_sent]
    exact kexStartRekex_explained hDue.queue hDue.initSent h

lemma Moves.explained (h : Moves t events next) (hDue : Settled t.ssh) :
    Explained t.ssh (events.filterMap Event.atGate) next.ssh := by
  induction h with
  | works h => exact h.explained hDue
  | trans _ _ ihFront ihBack =>
    rw [filterMap_append]
    have hf := ihFront hDue
    exact hf.trans (ihBack hf.2)
  | settings => exact ⟨rfl, hDue.queue, hDue.drained, hDue.initSent⟩
  | negotiate extInfoC => exact ⟨rfl, hDue.queue, hDue.drained, hDue.initSent⟩
  | peer peer => exact ⟨rfl, hDue.queue, hDue.drained, hDue.initSent⟩
  | finish => exact ⟨rfl, hDue.queue, hDue.drained, fun _ => rfl⟩
  | input h =>
    rw [sshPacketProcessIncoming] at h
    split_ifs at h
    · cases h
      exact ⟨rfl, hDue.queue, hDue.drained, hDue.initSent⟩
    · cases h
      exact ⟨rfl, hDue.queue, hDue.drained, hDue.initSent⟩
  | read h =>
    rw [filterMap_append, atGate_received, atGate_sent]
    exact sshPacketReadPoll2_explained hDue h

def isData (payload : Bytes) : Bool :=
  match payload.head? with
  | none => false
  | some type => !sshPacketTypeIsKex type

lemma kind_eq_data : kind payload = .data ↔ isData payload = true := by
  cases payload with
  | nil =>
    decide
  | cons type rest =>
    rw [kind_eq_data_iff]
    show _ ↔ (!sshPacketTypeIsKex type) = true
    rw [Bool.not_eq_true']

def submissions (events : List Event) : List Bytes :=
  events.filterMap fun
    | .submitted payload => some payload
    | _ => none

def onWire (events : List Event) : List Bytes :=
  events.filterMap fun
    | .sent frame => some frame.payload
    | _ => none

lemma submitted_atGate (events : List Event) :
    Gate.submitted (events.filterMap Event.atGate) = submissions events := by
  induction events with
  | nil => rfl
  | cons event events ih =>
    cases event with
    | submitted payload => exact congrArg (payload :: ·) ih
    | sent frame => exact ih
    | received packet => exact ih
    | negotiated peer => exact ih

lemma sent_atGate (events : List Event) : Gate.sent (events.filterMap Event.atGate) = onWire events := by
  induction events with
  | nil => rfl
  | cons event events ih =>
    cases event with
    | submitted payload => exact ih
    | sent frame => exact congrArg (frame.payload :: ·) ih
    | received packet => exact ih
    | negotiated peer => exact ih

lemma data_eq_filter (payloads : List Bytes) : Gate.data kind payloads = payloads.filter isData := by
  simp [Gate.data, kind_eq_data]

/-- A run from a session with nothing held back is explained by the gate. -/
lemma run_explained {algs : Kex.Algorithms} {compat : Kex.Compat} {last : Transport Ctx}
    {inputs : List (Input Ctx)} (hs : Settled t.ssh)
    (hRun : run (step algs compat) t inputs = .ok (last, events)) :
    Explained t.ssh (events.filterMap Event.atGate) last.ssh := by
  have ha : Along (step algs compat) (fun _ _ => True) t inputs :=
    along_of_forall fun _ _ _ => trivial
  apply run_events (fun s past => Explained t.ssh (past.filterMap Event.atGate) s.ssh) _ ⟨rfl, hs⟩ ha hRun
  intro s past input next seen hp _ hStep
  rw [filterMap_append]
  exact hp.trans ((step_moves hStep).explained hp.2)

/-- Across any number of exchanges, the packets that are not part of one go out in the
order in which they were submitted, none twice; those that have not gone out wait,
and none waits once our NEWKEYS message is out; and none is sent between our KEXINIT
message and our NEWKEYS message. -/
theorem rekeying_keeps_packets {algs : Kex.Algorithms} {compat : Kex.Compat}
    {t last : Transport Ctx} {inputs : List (Input Ctx)} {events : List Event}
    (hStart : Settled t.ssh) (hEmpty : t.ssh.outgoing = [])
    (hRun : run (step algs compat) t inputs = .ok (last, events)) :
    (onWire events).filter isData ++ last.ssh.outgoing = (submissions events).filter isData ∧
      (last.ssh.rekeying = false → (onWire events).filter isData = (submissions events).filter isData) ∧
      ∀ front middle back kexinit packet, onWire events = front ++ kexinit :: (middle ++ packet :: back) →
        kexinit.head? = some msgKexinit → isData packet = true →
        ∃ newkeys ∈ middle, newkeys.head? = some msgNewkeys := by
  obtain ⟨hGate, hSettled⟩ := run_explained hStart hRun
  have hConserved : (onWire events).filter isData ++ last.ssh.outgoing =
    (submissions events).filter isData := by
    have h := Gate.run_conserves hGate
    rw [submitted_atGate, sent_atGate, data_eq_filter, data_eq_filter, gate, hEmpty, nil_append] at h
    exact h.symm
  refine ⟨hConserved, ?_, ?_⟩
  · intro hOpen
    rw [← hConserved, hSettled.drained hOpen, append_nil]
  · intro front middle back kexinit packet hWire hKexinit hPacket
    rw [← sent_atGate] at hWire
    have hClose : kind kexinit = .close := by
      rw [kind, hKexinit]
      rfl
    have hData : kind packet = .data := kind_eq_data.2 hPacket
    obtain ⟨newkeys, hMem, hReopen⟩ := Gate.run_silent hGate hWire hClose hData
    exact ⟨newkeys, hMem, kind_eq_reopen hReopen⟩

/-- A packet is submitted during the first exchange. -/
def firstInputs : List (Input UInt8) :=
  [.start, .send ⟨90, [], by decide, by decide⟩, .incoming (plainPacket serverKexinit),
    .poll (some shiftMethod)]

theorem rekeying_keeps_packets_first : ∃ last events,
    run (step Kex.smallAlgorithms ⟨false, false⟩) clientStart firstInputs = .ok (last, events) ∧
    (submissions events).filter isData = [[90]] ∧ (onWire events).filter isData = [[90]] := by
  have hSettled : Settled clientStart.ssh :=
    ⟨fun _ hNone => absurd hNone not_mem_nil, fun _ => rfl, fun _ => rfl⟩
  have hSeen : ((run (step Kex.smallAlgorithms ⟨false, false⟩) clientStart
    firstInputs).toOption.map fun out =>
      ((submissions out.2).filter isData, out.1.ssh.rekeying)) = some ([[90]], false) := by
    decide +kernel
  obtain ⟨⟨last, events⟩, hRun, hShown⟩ := Option.map_eq_some_iff.1 hSeen
  obtain ⟨hSubmitted, hOpen⟩ := Prod.mk.inj hShown
  have hRun := toOption_eq_some.1 hRun
  obtain ⟨-, hSent, -⟩ := rekeying_keeps_packets hSettled rfl hRun
  exact ⟨last, events, hRun, hSubmitted, (hSent hOpen).trans hSubmitted⟩

end Packet
