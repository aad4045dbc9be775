import Sshfortress.Channel.Flow

/-! One end of a stream channel whose peer sends what it likes. -/
namespace Channel
open Base Base.Transition List

variable {c next : Chan2} {sent : List Message} {fellows : Datafellows} {message : Message}

/-- A turn of the end itself, or a message that the peer made up. -/
abbrev HostileInput := Turn ⊕ { message : Message // message.dataLength < 2 ^ 32 }

def hostileStep (fellows : Datafellows) (c : Chan2) : HostileInput → Except Stop (Chan2 × List Message)
  | .inl turn => work fellows c turn
  | .inr message => channelInput fellows message.val c

lemma Works.roomy (h : Works c next sent) (hr : Roomy c) : SameTerms c next ∧ Roomy next := by
  have hAdjusts := h.adjusts
  have hHolds := h.holds
  rw [Roomy] at *
  rw [h.terms.localWindowMax]
  exact ⟨h.terms, by omega⟩

/-- Data is dropped or fits into the window. -/
lemma channelInput_roomy (hp : Plain c) (hr : Roomy c) (ho : c.ostate = .opened)
    (hLen : message.dataLength < 2 ^ 32) (h : channelInput fellows message c = .ok (next, sent)) :
    SameTerms c next ∧ Roomy next := by
  have hSame : SameTerms c c := ⟨rfl, rfl, rfl, rfl, rfl⟩
  cases message with
  | data bytes =>
    cases h
    by_cases hFits : bytes.length ≤ c.localWindow.toNat
    · obtain ⟨hTerms, -, hTaken, hHeld⟩ := channelInputData2_takes hp hr hFits
      rw [Roomy] at *
      rw [hTerms.localWindowMax]
      exact ⟨hTerms, by omega⟩
    · have hTooMuch : c.localWindow < UInt32.ofNat bytes.length := by
        change bytes.length < 2 ^ 32 at hLen
        rw [UInt32.lt_iff_toNat_lt, UInt32.toNat_ofNat_of_lt' hLen]
        exact Nat.not_le.1 hFits
      have hDropped : channelInputData2 bytes c = c := by
        simp [channelInputData2, Chan2.onChan, channelInputData, windowLength, hp.type, hp.datagram, ho, hTooMuch]
      rw [hDropped]
      exact ⟨hSame, hr⟩
  | extendedData code bytes =>
    obtain ⟨after, hTake, hd⟩ := bind_eq_ok.1 h
    cases hd
    rw [channelInputExtendedData] at hTake
    split_ifs at hTake with _ _ hUsage hFits <;> cases hTake
    · exact ⟨hSame, hr⟩
    · exact ⟨hSame, hr⟩
    · exact ⟨hSame, hr⟩
    · have hWrite : c.extendedUsage = .write := by simp_all
      refine ⟨⟨rfl, rfl, rfl, rfl, rfl⟩, ?_⟩
      simp only [Roomy, heldBytes, receivedExtended, hWrite, if_true, length_append,
        toNat_sub_ofNat (Nat.not_lt.1 hFits)] at hr ⊢
      omega
  | windowAdjust adjust =>
    obtain ⟨after, hTake, hd⟩ := bind_eq_ok.1 h
    cases hd
    rw [channelInputWindowAdjust] at hTake
    split_ifs at hTake
    cases hTake
    exact ⟨⟨rfl, rfl, rfl, rfl, rfl⟩, hr⟩
  | eof =>
    have hw := (channelInputIeof_shifts c).works
    rw [Except.ok.inj h] at hw
    exact hw.roomy hr
  | close =>
    have hw := chanRcvdClose2_works c
    rw [Except.ok.inj h] at hw
    exact hw.roomy hr
  | eow =>
    cases h
    have hw : Works c (c.onChan (chanRcvdEow proto2)) [] :=
      (chanRcvdEow_quiet c.toChan).works rfl rfl rfl rfl (forall_mem_nil _)
    exact hw.roomy hr

/-- Whatever a peer sends, a channel that takes data never holds more of it than its window:
what is queued, what was written and not yet given back and what may still be sent are together
within the largest window. -/
theorem hostile_peer_bounded {fellows : Datafellows} {c last : Chan2} {inputs : List HostileInput}
    {sent : List Message} (hPlain : Plain c) (hRoomy : Roomy c)
    (hOpen : Along (hostileStep fellows) (fun c _ => c.ostate = .opened) c inputs)
    (hRun : run (hostileStep fellows) c inputs = .ok (last, sent)) :
    last.localWindow.toNat + last.localConsumed.toNat + last.output.length + receivedExtended last ≤
      c.localWindowMax.toNat := by
  have hEnd : SameTerms c last ∧ Roomy last := by
    refine run_events (fun s _ => SameTerms c s ∧ Roomy s) ?_ ⟨⟨rfl, rfl, rfl, rfl, rfl⟩, hRoomy⟩ hOpen hRun
    rintro s past input next shown ⟨hTerms, hr⟩ ho hStep
    have hp := hTerms.plain hPlain
    have hNext : SameTerms s next ∧ Roomy next := by
      cases input with
      | inl turn => exact (work_works hp hr hStep).roomy hr
      | inr message => exact channelInput_roomy hp hr ho message.prop hStep
    exact ⟨hTerms.trans hNext.1, hNext.2⟩
  obtain ⟨hTerms, hr⟩ := hEnd
  rw [Roomy, heldBytes, hTerms.localWindowMax] at hr
  omega

/-- Twice as much as the window, and then as much as it allows. -/
def flood : List HostileInput :=
  [.inr ⟨.data (replicate 16 1), by decide⟩, .inr ⟨.data (replicate 8 2), by decide⟩, .inl .checkWindow]

theorem hostile_peer_bounded_flood : ∃ last sent,
    run (hostileStep ⟨false, true⟩) (smallPair.chan .near) flood = .ok (last, sent) ∧ last.localWindow.toNat +
      last.localConsumed.toNat + last.output.length + receivedExtended last ≤ 8 := by
  have hOpen : Along (hostileStep ⟨false, true⟩) (fun c _ => c.ostate = .opened) (smallPair.chan .near) flood := by
    decide
  exact ⟨_, _, rfl, hostile_peer_bounded (smallPair_opened.plain .near) (smallPair_opened.room .near) hOpen rfl⟩

end Channel
