import Mathlib

/-! Addresses of several 32-bit words and the masks that cut them to their first bits.
Bits are counted from the most significant bit of the first word. -/
namespace Base.Cidr
open List

abbrev Word := BitVec 32

/-- A mask of `words` words whose first `masklen` bits are set. -/
def netmask : Nat → Nat → List Word
  | 0, _ => []
  | words + 1, masklen =>
    if 32 ≤ masklen then BitVec.allOnes 32 :: netmask words (masklen - 32)
    else (if masklen = 0 then 0 else BitVec.allOnes 32 <<< (32 - masklen)) :: List.replicate words 0

def masked (a mask : List Word) : List Word := List.zipWith (· &&& ·) a mask

def invert (a : List Word) : List Word := a.map (~~~ ·)

def bit (a : List Word) (i : Nat) : Bool := (a.getD (i / 32) 0).getMsbD (i % 32)

@[simp] lemma length_netmask (words masklen : Nat) : (netmask words masklen).length = words := by
  induction words generalizing masklen with
  | zero => rfl
  | succ words ih =>
    rw [netmask]
    split
    · simp [ih]
    · simp

variable {a net : List Word} {i words masklen : Nat}

lemma eq_of_bit {b : List Word} (hLen : a.length = b.length)
    (h : ∀ i < 32 * a.length, bit a i = bit b i) : a = b := by
  apply ext_getElem hLen
  intro n hn hn'
  apply BitVec.eq_of_getMsbD_eq
  intro i hi
  have hBit := h (32 * n + i) (by omega)
  rw [bit, bit, show (32 * n + i) / 32 = n by omega, show (32 * n + i) % 32 = i by omega] at hBit
  rwa [getD_eq_getElem _ _ hn, getD_eq_getElem _ _ hn'] at hBit

lemma bit_cons_zero (w : Word) (a : List Word) (h : i < 32) : bit (w :: a) i = w.getMsbD i := by
  rw [bit, Nat.div_eq_of_lt h, Nat.mod_eq_of_lt h]
  rfl

lemma bit_cons_succ (w : Word) (a : List Word) (i : Nat) : bit (w :: a) (i + 32) = bit a i := by
  rw [bit, bit, show (i + 32) / 32 = i / 32 + 1 by omega, show (i + 32) % 32 = i % 32 by omega]
  rfl

lemma bit_replicate_zero (words i : Nat) : bit (List.replicate words 0) i = false := by
  rw [bit]
  by_cases hi : i / 32 < words
  · rw [getD_eq_getElem _ _ (by simpa using hi), getElem_replicate]
    exact BitVec.getMsbD_zero
  · rw [getD_eq_default _ _ (by simpa using hi)]
    exact BitVec.getMsbD_zero

lemma bit_masked {mask : List Word} (hLen : a.length = mask.length) (i : Nat) :
    bit (masked a mask) i = (bit a i && bit mask i) := by
  rw [bit, bit, bit, ← BitVec.getMsbD_and]
  congr 1
  by_cases hi : i / 32 < a.length
  · have hm : i / 32 < mask.length := by omega
    have hb : i / 32 < (masked a mask).length := by simp [masked, hLen, hm]
    rw [getD_eq_getElem _ _ hi, getD_eq_getElem _ _ hm, getD_eq_getElem _ _ hb]
    simp [masked]
  · rw [getD_eq_default _ _ (by simp [masked]; omega), getD_eq_default _ _ (by omega)]
    simp

lemma bit_invert (hi : i < 32 * a.length) : bit (invert a) i = !bit a i := by
  have hw : i / 32 < a.length := by omega
  rw [bit, bit, getD_eq_getElem _ _ (by simpa [invert] using hw), getD_eq_getElem _ _ hw]
  simp [invert, Nat.mod_lt i (show 0 < 32 by decide)]

lemma bit_netmask (hi : i < 32 * words) : bit (netmask words masklen) i = decide (i < masklen) := by
  induction words generalizing masklen i with
  | zero => omega
  | succ words ih =>
    rw [netmask]
    by_cases hFull : 32 ≤ masklen
    · rw [if_pos hFull]
      by_cases hf : i < 32
      · rw [bit_cons_zero _ _ hf]
        rw [BitVec.getMsbD_allOnes, decide_eq_decide]
        omega
      · obtain ⟨j, rfl⟩ := Nat.exists_eq_add_of_le (Nat.not_lt.1 hf)
        rw [Nat.add_comm 32 j, bit_cons_succ, ih (by omega)]
        simp only [decide_eq_decide]
        omega
    · rw [if_neg hFull]
      by_cases hf : i < 32
      · rw [bit_cons_zero _ _ hf]
        split
        · next he => simp [he]
        · simp only [BitVec.getMsbD_shiftLeft, BitVec.getMsbD_allOnes, decide_eq_decide]
          omega
      · obtain ⟨j, rfl⟩ := Nat.exists_eq_add_of_le (Nat.not_lt.1 hf)
        rw [Nat.add_comm 32 j, bit_cons_succ, bit_replicate_zero]
        simp
        omega

lemma clear_iff (hNet : net.length = words) : (∀ w ∈ masked net (invert (netmask words masklen)), w = 0) ↔
    ∀ i < 32 * words, masklen ≤ i → bit net i = false := by
  have hm : net.length = (invert (netmask words masklen)).length := by simp [invert, hNet]
  have hLen : (masked net (invert (netmask words masklen))).length = words := by simp [masked, invert, hNet]
  have hBit : ∀ i < 32 * words, bit (masked net (invert (netmask words masklen))) i =
    (bit net i && !decide (i < masklen)) := fun i hi => by
    rw [bit_masked hm, bit_invert (by simpa using hi), bit_netmask hi]
  have hZeros : (∀ w ∈ masked net (invert (netmask words masklen)), w = 0) ↔
    masked net (invert (netmask words masklen)) = List.replicate words 0 := by
    simp [eq_replicate_iff, hLen]
  rw [hZeros]
  constructor
  · intro h i hi ho
    have hz := hBit i hi
    rw [h, bit_replicate_zero] at hz
    simpa [Nat.not_lt.2 ho] using hz.symm
  · intro h
    apply eq_of_bit (by simp [hLen])
    intro i hi
    rw [hLen] at hi
    rw [hBit i hi, bit_replicate_zero]
    by_cases hInside : i < masklen
    · simp [hInside]
    · simp [h i hi (Nat.not_lt.1 hInside)]

/-- A network whose bits behind the mask are clear is what the mask leaves of an address
exactly when the two agree on the bits of the mask. -/
lemma masked_eq_iff {host : List Word} (hh : host.length = words) (hNet : net.length = words)
    (hc : ∀ w ∈ masked net (invert (netmask words masklen)), w = 0) (hMask : masklen ≤ 32 * words) :
    masked host (netmask words masklen) = net ↔ ∀ i < masklen, bit host i = bit net i := by
  have hBehind := (clear_iff hNet).1 hc
  constructor
  · rintro h i hi
    rw [← h, bit_masked (by simp [hh]), bit_netmask (by omega)]
    simp [hi]
  · intro h
    apply eq_of_bit
    · simp [masked, hh, hNet]
    · intro i hi
      have hb : i < 32 * words := by simpa [masked, hh] using hi
      rw [bit_masked (by simp [hh]), bit_netmask hb]
      by_cases hInside : i < masklen
      · simp [hInside, h i hInside]
      · simp [hInside, hBehind i hb (Nat.not_lt.1 hInside)]

end Base.Cidr
