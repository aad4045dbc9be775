import Sshfortress.Base.Bytes

/-! Decimal numbers as text: what `printf` prints is read back as the number it shows. -/
namespace Base.Decimal
open List

def isDigit (c : UInt8) : Bool := 48 ≤ c && c ≤ 57

def value (digits : Bytes) : Nat := digits.foldl (fun n c => 10 * n + (c.toNat - 48)) 0

/-- A number with a sign and a fraction, digit by digit. -/
structure Numeral where
  negative : Bool
  (whole fraction : Bytes)
  deriving DecidableEq

def Numeral.value (x : Numeral) : ℚ :=
  (if x.negative then -1 else 1) * (Decimal.value x.whole + Decimal.value x.fraction / 10 ^ x.fraction.length)

def readNumeral (s : Bytes) : Numeral :=
  let negative := s.head? = some 45
  let s := if negative then s.tail else s
  let rest := s.dropWhile isDigit
  ⟨negative, s.takeWhile isDigit, if rest.head? = some 46 then rest.tail.takeWhile isDigit else []⟩

section Digits
variable {c : Char} {digits : List Char} {n width : Nat}

lemma toNat_of_isDigit (h : c.isDigit = true) : 48 ≤ c.toNat ∧ c.toNat ≤ 57 := by
  simp only [Char.isDigit, Bool.and_eq_true, decide_eq_true_eq, UInt32.le_iff_toNat_le] at h
  exact h

lemma toNat_byte (h : c.isDigit = true) : (UInt8.ofNat c.toNat).toNat = c.toNat := by
  have hRange := toNat_of_isDigit h
  exact UInt8.toNat_ofNat_of_lt' (by omega : c.toNat < 256)

lemma isDigit_byte (h : c.isDigit = true) : isDigit (UInt8.ofNat c.toNat) = true := by
  have hr := toNat_of_isDigit h
  rw [isDigit, Bool.and_eq_true, decide_eq_true_eq, decide_eq_true_eq, UInt8.le_iff_toNat_le,
    UInt8.le_iff_toNat_le, toNat_byte h]
  exact hr

lemma value_map_bytes (h : ∀ c ∈ digits, c.isDigit = true) :
    value (digits.map fun c => UInt8.ofNat c.toNat) = Nat.ofDigitChars 10 digits 0 := by
  rw [value, Nat.ofDigitChars_eq_foldl, foldl_map]
  apply foldl_ext
  intro m c hc
  rw [toNat_byte (h c hc)]
  rfl

lemma isDigit_of_mem_toDigits (h : c ∈ Nat.toDigits 10 n) : c.isDigit = true :=
  Nat.isDigit_of_mem_toDigits (by decide) (by decide) h

lemma value_decimal (n : Nat) : value (decimal n) = n := by
  rw [decimal, value_map_bytes fun c hc => isDigit_of_mem_toDigits hc, Nat.ofDigitChars_ten_toDigits]

lemma isDigit_of_mem_decimal {c : UInt8} (h : c ∈ decimal n) : isDigit c = true := by
  obtain ⟨d, hd, rfl⟩ := mem_map.1 h
  exact isDigit_byte (isDigit_of_mem_toDigits hd)

lemma zeroPadded_eq (width n : Nat) :
    zeroPadded 10 width n = List.replicate (width - (decimal n).length) 48 ++ decimal n := rfl

lemma value_zeroPadded (width n : Nat) : value (zeroPadded 10 width n) = n := by
  have hz : ∀ count, (List.replicate count (48 : UInt8)).foldl (fun n c => 10 * n + (c.toNat - 48)) 0 = 0 := by
    intro count
    induction count with
    | zero => rfl
    | succ count ih => exact ih
  rw [zeroPadded_eq, value, foldl_append, hz]
  exact value_decimal n

lemma isDigit_of_mem_zeroPadded {c : UInt8} (h : c ∈ zeroPadded 10 width n) : isDigit c = true := by
  rcases mem_append.1 h with hz | hd
  · rw [eq_of_mem_replicate hz]
    decide
  · exact isDigit_of_mem_decimal hd

lemma length_zeroPadded (hw : 0 < width) (h : n < 10 ^ width) : (zeroPadded 10 width n).length = width := by
  have hLen : (decimal n).length ≤ width := by
    rw [decimal, length_map]
    exact (Nat.length_toDigits_le_iff (by decide) hw).2 h
  rw [zeroPadded_eq, length_append, length_replicate]
  omega

end Digits

lemma span_digits {digits rest : Bytes} (hd : ∀ c ∈ digits, isDigit c = true)
    (hr : ∀ c ∈ rest.head?, isDigit c = false) :
    (digits ++ rest).takeWhile isDigit = digits ∧ (digits ++ rest).dropWhile isDigit = rest := by
  rw [takeWhile_append_of_pos hd, dropWhile_append_of_pos hd]
  cases rest with
  | nil => simp
  | cons c rest =>
    have ho := hr c rfl
    simp [ho]

lemma readNumeral_eq {fraction rest : Bytes} (n : Int) (hFraction : ∀ c ∈ fraction, isDigit c = true)
    (hr : ∀ c ∈ rest.head?, isDigit c = false) :
    readNumeral (signedDecimal n ++ 46 :: fraction ++ rest) = ⟨n < 0, decimal n.natAbs, fraction⟩ := by
  have hd : ∀ c ∈ decimal n.natAbs, isDigit c = true := fun c hc => isDigit_of_mem_decimal hc
  have hp : ∀ c ∈ (46 :: (fraction ++ rest)).head?, isDigit c = false := by
    intro c hc
    obtain rfl : 46 = c := Option.some.inj hc
    decide
  have hSpan := span_digits hd hp
  have hs := (span_digits hFraction hr).1
  have hn : (decimal n.natAbs ++ 46 :: (fraction ++ rest)).head? ≠ some 45 := by
    intro hh
    cases hf : decimal n.natAbs with
    | nil =>
      rw [hf] at hh
      cases hh
    | cons d digits =>
      rw [hf] at hh
      obtain rfl : d = 45 := Option.some.inj hh
      have hDigit := hd 45 (by rw [hf]; exact mem_cons_self ..)
      exact absurd hDigit (by decide)
  rw [signedDecimal]
  split_ifs with hNeg
  · have ht : text "-" ++ decimal n.natAbs ++ 46 :: fraction ++ rest =
      45 :: (decimal n.natAbs ++ 46 :: (fraction ++ rest)) := by
      simp [show text "-" = [45] from rfl]
    rw [ht, readNumeral]
    simp [hSpan, hs, hNeg]
  · have ht : decimal n.natAbs ++ 46 :: fraction ++ rest = decimal n.natAbs ++ 46 :: (fraction ++ rest) := by simp
    rw [ht, readNumeral]
    simp only [hn, decide_false, if_false, hSpan, hNeg]
    simp [hs]

end Base.Decimal
