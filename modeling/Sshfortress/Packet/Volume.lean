import Sshfortress.Packet.Basic

/-! How much is sent under a key. The limit and the counter are in blocks, and the packet that
is about to be sent is added to them in bytes, rounded up to whole blocks. -/
namespace Packet

open Base

variable {Ctx : Type} {s : Ssh Ctx} {n : Nat}

def readExceeds (s : Ssh Ctx) : Prop := s.read.maxBlocks ≠ 0 ∧ s.read.maxBlocks < s.read.state.blocks

def sentBlocks (s : Ssh Ctx) : Nat := s.send.state.blocks.toNat

def sendLimit (s : Ssh Ctx) : Nat := s.send.maxBlocks.toNat

/-- After authentication, between exchanges, with something sent or received under the keys,
and neither the time nor the number of packets makes an exchange due. -/
structure OnlyVolume (s : Ssh Ctx) : Prop where
  authenticated : s.afterAuthentication = true
  sendKeys : s.send.newkeys.isSome = true
  readKeys : s.read.newkeys.isSome = true
  idle : sshPacketIsRekeying s = false
  counted : ¬ (s.send.state.packets = 0 ∧ s.read.state.packets = 0)
  time : ¬ (s.rekeyInterval ≠ 0 ∧ s.rekeyTime + s.rekeyInterval ≤ s.clock s.readings)
  packets : ¬ (maxPackets < s.send.state.packets ∨ maxPackets < s.read.state.packets)

/-- A packet of this length makes an exchange due exactly if its blocks do not fit any more,
or too much was received. -/
def DecidesExactly (s : Ssh Ctx) (n : Nat) : Prop :=
  sshPacketNeedRekeying s n = true ↔ readExceeds s ∨ sendLimit s < sentBlocks s + n / s.send.newkeys.blockSize

lemma roundup_of_dvd {y : Nat} (hPos : 0 < y) (h : y ∣ n) : roundup n y = n := by
  obtain ⟨q, rfl⟩ := h
  have hDiv : (y * q + (y - 1)) / y = q := by
    rw [Nat.mul_add_div hPos, Nat.div_eq_of_lt (by omega), Nat.add_zero]
  rw [roundup, hDiv, Nat.mul_comm]

lemma sshPacketNeedRekeying_eq (h : OnlyVolume s) (hp : s.bugNorekey = false) (hLen : n < 2 ^ 32)
    (hb : s.send.newkeys.blockSize ∣ n) : sshPacketNeedRekeying s n = true ↔
      readExceeds s ∨ (sendLimit s ≠ 0 ∧ sendLimit s < (sentBlocks s + n) % 2 ^ 64) := by
  have hPos : 0 < s.send.newkeys.blockSize := by
    rcases s.send.newkeys.blockSize_eq with h8 | h16
    · omega
    · omega
  have hSum : (s.send.state.blocks + UInt64.ofNat n).toNat = (sentBlocks s + n) % 2 ^ 64 := by
    rw [UInt64.toNat_add, UInt64.toNat_ofNat', sentBlocks, Nat.mod_eq_of_lt (show n < 2 ^ 64 by omega)]
  have hz : s.send.maxBlocks ≠ 0 ↔ sendLimit s ≠ 0 := by
    rw [sendLimit, Ne, Ne, ← UInt64.toNat_inj]
    rfl
  have hl : s.send.maxBlocks < s.send.state.blocks + UInt64.ofNat n ↔
    sendLimit s < (sentBlocks s + n) % 2 ^ 64 := by
    rw [← hSum]
    exact UInt64.lt_iff_toNat_lt
  unfold sshPacketNeedRekeying
  rw [if_neg (by simp [h.authenticated]), if_neg (by simp [h.idle]), if_neg (by simp [hp]), if_neg h.counted,
    if_neg h.time, if_neg h.packets, roundup_of_dvd hPos hb]
  simp only [Bool.or_eq_true, Bool.and_eq_true, decide_eq_true_eq, ne_eq, readExceeds, ← hl]
  rw [or_comm]
  exact or_congr Iff.rfl (and_congr hz Iff.rfl)

/-- What is added in bytes decides as what is added in blocks does: there is a limit, the
packet fits even if each byte counts as a block or does not fit at all, and the counter does not
wrap around. Nothing is asked for if the peer cannot exchange keys again. -/
def UnitsAgree (s : Ssh Ctx) (n : Nat) : Prop :=
  if s.bugNorekey then ¬ readExceeds s ∧ sentBlocks s + n / s.send.newkeys.blockSize ≤ sendLimit s
  else readExceeds s ∨ (sendLimit s = 0 ∧ sentBlocks s + n / s.send.newkeys.blockSize = 0) ∨
    (sendLimit s ≠ 0 ∧ (sentBlocks s + n / s.send.newkeys.blockSize ≤ sendLimit s →
        sentBlocks s + n ≤ sendLimit s ∨ 2 ^ 64 ≤ sentBlocks s + n) ∧
      (sendLimit s < sentBlocks s + n / s.send.newkeys.blockSize →
        sentBlocks s + n < 2 ^ 64 ∨ 2 ^ 64 + sendLimit s < sentBlocks s + n))

/-- A session with a limit of 1024 bytes, in blocks of eight, and twenty blocks sent. -/
def limitedSession : Ssh UInt8 :=
  { shiftSession with
    afterAuthentication := true
    rekeyLimit := 1024
    send := { shiftDirection 0 with state := ⟨1, 1, 20, 160⟩, maxBlocks := maxBlocks 8 1024 } }

lemma onlyVolume_limitedSession : OnlyVolume limitedSession := by constructor <;> decide

end Packet
