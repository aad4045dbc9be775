import Sshfortress.Packet.Kexinit

/-! The arithmetic with the length of a packet. What is still needed is computed in an `u_int`,
by a subtraction that can wrap around for short packets; only whole blocks are waited for. -/
namespace Packet

open Base Base.Wire Base.Cipher

variable {Ctx : Type}

/-! The tags. -/

/-- The lengths of the tags that the ciphers of `cipher.c` append. -/
def authLens : List Nat := [0, 16]

/-- The lengths of the codes in `mac.c`: digests, digests cut to 96 bits, and UMAC. -/
def macLens : List Nat := [20, 12, 32, 64, 16, 8]

/-- Keys for a cipher and a code that the tables have. -/
structure Tabled (k : Keys Ctx) : Prop where
  authlen : k.authlen ∈ authLens
  maclen : k.maclen ∈ 0 :: macLens

lemma Tabled.tags_le {k : Keys Ctx} (h : Tabled k) : k.authlen + k.maclen ≤ 80 := by
  have ha : ∀ n ∈ authLens, n ≤ 16 := by decide
  have hMac : ∀ n ∈ 0 :: macLens, n ≤ 64 := by decide
  have hFirst := ha _ h.authlen
  have hSnd := hMac _ h.maclen
  omega

/-! Waiting for the rest of a packet. -/

/-- The first bytes of a packet, which are not part of what is needed: the length alone, or
the block that was decrypted for it. -/
def headLength (k : Keys Ctx) : Nat := if k.aadlen = 0 then k.blockSize else 4

/-- What holds while the rest of a packet is waited for and when it is read, for whatever
bytes follow. -/
structure LengthsSafe (known : Ssh Ctx) : Prop where
  unwrapped : headLength known.read.newkeys + needed known = 4 + known.packlen
  total : known.read.newkeys.aadlen + needed known + known.read.newkeys.authlen +
    known.read.newkeys.maclen < 2 ^ 32
  bounded : needed known ≤ packetMaxSize
  header : ∀ x opened, openPacket (feed known x) = .ok (some opened) → 4 < opened.incomingPacket.length
  padding : ∀ x opened, openPacket (feed known x) = .ok (some opened) →
    5 + (opened.incomingPacket.getD 4 0).toNat ≤ opened.incomingPacket.length ∨
      ∃ code, unpack opened.incomingPacket = .error code

lemma headLength_add_needed {known : Ssh Ctx} (hg : badLength known.packlen = false)
    (hb : needed known % known.read.newkeys.blockSize = 0) :
    headLength known.read.newkeys + needed known = 4 + known.packlen := by
  rw [badLength_eq_false, packetMaxSize] at hg
  rw [headLength]
  rw [needed] at hb ⊢
  by_cases hAad : known.read.newkeys.aadlen = 0
  · rw [if_neg (not_not.2 hAad)] at hb ⊢
    rw [if_pos hAad]
    exact needed_ahead known.read.newkeys.blockSize_eq (by omega) (by omega) hb
  · rw [if_pos hAad, if_neg hAad]

lemma unpack_padding (incoming : Bytes) :
    5 + (incoming.getD 4 0).toNat ≤ incoming.length ∨ ∃ code, unpack incoming = .error code := by
  rw [unpack]
  by_cases hPad : (incoming.getD 4 0).toNat < 4
  · right
    exact ⟨_, if_pos hPad⟩
  by_cases hs : incoming.length < 4 + 1 + (incoming.getD 4 0).toNat
  · right
    refine ⟨.messageIncomplete, ?_⟩
    rw [if_neg hPad, if_pos hs]
  · left
    omega

/-- Along every run of the transport, wherever the reader goes past its checks, nothing has
wrapped around and nothing outside of the packet is read. -/
theorem length_arithmetic_safe {start t : Transport Ctx} {events : List Event} {known : Ssh Ctx}
    (hStart : Ready start) (hMoves : Moves start events t) (hTabled : Tabled known.read.newkeys)
    (hDiscard : t.ssh.packetDiscard = 0) (hLength : readLength t.ssh = .ok (some known))
    (hBlocks : needed known % known.read.newkeys.blockSize = 0) : LengthsSafe known := by
  have hChecked := (hMoves.ready hStart).checked
  obtain ⟨hGood, hIncoming⟩ := readLength_checked hDiscard hChecked hLength
  have hHead := headLength_add_needed hGood hBlocks
  have hTags := hTabled.tags_le
  have hAad := known.read.newkeys.aadlen_eq
  have hSize := known.read.newkeys.blockSize_eq
  have hFour : 4 ≤ headLength known.read.newkeys := by
    rw [headLength]
    split_ifs
    · omega
    · exact Nat.le_refl 4
  have hOpened : ∀ x opened, openPacket (feed known x) = .ok (some opened) →
    opened.incomingPacket.length = 4 + known.packlen :=
    fun x opened hOpen => @openPacket_length Ctx (feed known x) opened hGood hIncoming hOpen
  have hRange := hGood
  rw [badLength_eq_false, packetMaxSize] at hRange
  constructor
  case unwrapped => exact hHead
  case total => omega
  case bounded =>
    rw [packetMaxSize]
    omega
  case header =>
    intro x opened hOpen
    rw [hOpened x opened hOpen]
    omega
  case padding =>
    intro x opened _
    exact unpack_padding opened.incomingPacket

/-- A client that has the first block of a packet. -/
def firstBlock : Transport UInt8 :=
  { clientStart with ssh := feed clientStart.ssh [0, 0, 0, 12, 10, 2, 0, 0] }

theorem length_arithmetic_safe_first_block :
    ∃ known, readLength firstBlock.ssh = .ok (some known) ∧ needed known = 8 ∧ LengthsSafe known := by
  have hReady : Ready firstBlock := ⟨clientStart_ready.checked, clientStart_ready.dispatch⟩
  exact ⟨_, rfl, rfl, length_arithmetic_safe hReady (.works .refl) ⟨by decide, by decide⟩ rfl rfl
    rfl⟩

end Packet
