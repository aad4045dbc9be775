import Sshfortress.Base.Wire

/-! Numbers in a buffer. A number is written without leading zeros, but for one where the next
byte would make it negative. -/
namespace Buffer
open Base Base.Wire List

def sshbufMaxBignum : Nat := 16384 / 8

/-- `sshbuf_put_bignum2_bytes`: what is appended. -/
def sshbufPutBignum2Bytes (v : Bytes) : Option Bytes :=
  if sizeMax - 5 < v.length then none else some (putBignum2Bytes v)

def sshbufGetBignum2BytesDirect : Getter Bytes := getBignum2Bytes

def significant (v : Bytes) : Bytes := v.dropWhile (· = 0)

lemma value_significant (v : Bytes) : value (significant v) = value v := by
  induction v with
  | nil => rfl
  | cons byte rest ih =>
    rw [significant, dropWhile_cons]
    split_ifs with hz
    · rw [value, of_decide_eq_true hz]
      simpa [significant] using ih
    · rfl

lemma head_significant (v : Bytes) : (significant v).head? ≠ some 0 := by
  intro hh
  have hNot := head?_dropWhile_not (fun byte : UInt8 => decide (byte = 0)) v
  rw [show (v.dropWhile _).head? = some 0 from hh] at hNot
  cases hNot

lemma pow_le_value {v : Bytes} (hh : v.head? ≠ some 0) (hs : v ≠ []) : 256 ^ (v.length - 1) ≤ value v := by
  cases v with
  | nil => exact absurd rfl hs
  | cons byte rest =>
    have hb : 0 < byte.toNat := Nat.pos_of_ne_zero fun hz => hh (congrArg some (UInt8.toNat_inj.1 hz))
    exact Nat.le_add_right_of_le (Nat.le_mul_of_pos_left _ hb)

lemma eq_of_value_eq {v w : Bytes} (hv : v.head? ≠ some 0) (hw : w.head? ≠ some 0) (h : value v = value w) :
    v = w := by
  have hLe : ∀ {v w : Bytes}, v.head? ≠ some 0 → value v = value w → v.length ≤ w.length := by
    intro v w hv h
    by_contra hl
    have hs : v ≠ [] := by
      rintro rfl
      simp at hl
    have hLow := pow_le_value hv hs
    have hHigh := value_lt w
    have hPow : 256 ^ w.length ≤ 256 ^ (v.length - 1) := Nat.pow_le_pow_right (by decide) (by omega)
    omega
  rw [← digits_value v, ← digits_value w, h, Nat.le_antisymm (hLe hv h) (hLe hw h.symm)]

lemma putString_inj {s t : Bytes} (h : putString s = putString t) : s = t := by
  simpa [putString, putU32, drop_left' (digits_length 4 _)] using congrArg (List.drop 4) h

lemma putBignum2Bytes_significant (v : Bytes) : putBignum2Bytes (significant v) = putBignum2Bytes v := by
  rw [putBignum2Bytes_eq (head_significant v)]
  rfl

/-- What was written is read, two encodings are equal exactly if the numbers are, and what is read
is a nonnegative number that is not too long. -/
theorem bignum_canonical :
    (∀ v encoded rest, (significant v).length ≤ sshbufMaxBignum → sshbufPutBignum2Bytes v = some encoded →
      sshbufGetBignum2BytesDirect (encoded ++ rest) = some (significant v, rest)) ∧
    (∀ v w encoded other, sshbufPutBignum2Bytes v = some encoded → sshbufPutBignum2Bytes w = some other →
      (encoded = other ↔ value v = value w)) ∧
    ∀ queue v rest, sshbufGetBignum2BytesDirect queue = some (v, rest) → ∃ s,
      getString queue = some (s, rest) ∧ s.head?.all (· < 128) = true ∧ v = significant s ∧ value s < 256 ^ sshbufMaxBignum := by
  refine ⟨fun v encoded rest hShort hPut => ?_, fun v w encoded other hv hw => ?_, fun queue v rest hGet => ?_⟩
  · unfold sshbufPutBignum2Bytes at hPut
    split_ifs at hPut
    cases hPut
    have hFits : (significant v).length + 1 ≤ sizeMax - 4 := Nat.succ_le_of_lt (hShort.trans_lt (by decide))
    rw [sshbufGetBignum2BytesDirect, ← putBignum2Bytes_significant,
      getBignum2Bytes_putBignum2Bytes (head_significant v) hFits]
    exact if_pos hShort
  · unfold sshbufPutBignum2Bytes at hv hw
    split_ifs at hv hw
    cases hv
    cases hw
    rw [← value_significant v, ← value_significant w]
    have hSign (s : Bytes) : value (if s.head?.any (128 ≤ ·) then 0 :: s else s) = value s := by
      split_ifs <;> simp [value]
    constructor
    · intro hSame
      exact (hSign _).symm.trans ((congrArg value (putString_inj hSame)).trans (hSign _))
    · intro hSame
      rw [← putBignum2Bytes_significant v, eq_of_value_eq (head_significant v) (head_significant w) hSame,
        putBignum2Bytes_significant w]
  · unfold sshbufGetBignum2BytesDirect getBignum2Bytes at hGet
    cases hString : getString queue with
    | none =>
      rw [hString] at hGet
      cases hGet
    | some found =>
      obtain ⟨s, behind⟩ := found
      simp only [hString] at hGet
      split_ifs at hGet with hNegative hLong
      cases hGet
      refine ⟨s, rfl, ?_, rfl, ?_⟩
      · cases hHead : s.head? with
        | none => rfl
        | some byte => simpa [hHead] using hNegative
      · -- Of 2049 bytes the first is zero.
        have hShort : (significant s).length ≤ sshbufMaxBignum := by
          show _ ≤ 2048
          simp only [Bool.or_eq_true, Bool.and_eq_true, decide_eq_true_eq] at hLong
          cases s with
          | nil => exact Nat.zero_le _
          | cons byte tail =>
            have hTail := length_dropWhile_le (fun byte : UInt8 => decide (byte = 0)) tail
            rw [significant, dropWhile_cons]
            simp only [length_cons, head?_cons, ne_eq, Option.some.injEq] at hLong
            split_ifs with hZero
            · omega
            · simp only [decide_eq_true_eq] at hZero
              simp only [hZero, not_false_eq_true, and_true] at hLong
              simp only [length_cons]
              omega
        rw [← value_significant]
        exact (value_lt _).trans_le (Nat.pow_le_pow_right (by decide) hShort)

end Buffer
