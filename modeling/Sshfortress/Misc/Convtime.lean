import Sshfortress.Base.Decimal

/-! Time strings. Neither a number of seconds nor the sum is checked before it is computed, only
the sign of the sum afterwards: a time that is too long can come out as a short one. -/
namespace Misc
open Base Base.Decimal List

/-- A `long` after an operation that may overflow. -/
def long (n : Int) : Int := n.bmod (2 ^ 64)

def isspace (c : UInt8) : Bool := c = 32 || (9 ≤ c && c ≤ 13)

/-- `strtol` in base 10, with the string behind the number: nothing without a digit, or with
`ERANGE`. -/
def strtol (s : Bytes) : Option (Int × Bytes) :=
  let s := s.dropWhile isspace
  let negative := s.head? = some 45
  let s := if negative ∨ s.head? = some 43 then s.tail else s
  let n : Int := if negative then -value (s.takeWhile isDigit) else value (s.takeWhile isDigit)
  if s.takeWhile isDigit = [] ∨ n < -2 ^ 63 ∨ 2 ^ 63 ≤ n then none else some (n, s.dropWhile isDigit)

/-- The seconds of the unit behind a number, and the string behind it. -/
def qualifier : Bytes → Option (Nat × Bytes)
  | [] => some (1, [])
  | c :: behind =>
    if c = 115 ∨ c = 83 then some (1, behind)
    else if c = 109 ∨ c = 77 then some (60, behind)
    else if c = 104 ∨ c = 72 then some (60 * 60, behind)
    else if c = 100 ∨ c = 68 then some (24 * 60 * 60, behind)
    else if c = 119 ∨ c = 87 then some (7 * 24 * 60 * 60, behind)
    else none

def convtimeRound (p : Bytes) (total : Int) : Option (Int × Bytes) := do
  let (secs, endp) ← strtol p
  if secs < 0 then none
  else
    let (unit, p) ← qualifier endp
    let total := long (total + long (secs * unit))
    if total < 0 then none else some (total, p)

/-- The loop. Every round takes at least one character. -/
def convtimeLoop : Nat → Bytes → Int → Int
  | _, [], total => total
  | 0, _, _ => -1
  | rounds + 1, p, total =>
    match convtimeRound p total with
    | none => -1
    | some (total, p) => convtimeLoop rounds p total

def convtime (s : Bytes) : Int := if s = [] then -1 else convtimeLoop s.length s 0

/-- Numbers, each with a unit that only the last may lack. The list has the numbers and the
seconds of their units. -/
inductive TimeString : Bytes → List (Nat × Nat) → Prop
  | done : TimeString [] []
  | term {digits rest s : Bytes} {unit : Nat} {terms : List (Nat × Nat)} : digits ≠ [] →
      (∀ c ∈ digits, isDigit c = true) → qualifier rest = some (unit, s) → TimeString s terms →
      TimeString (digits ++ rest) ((value digits, unit) :: terms)

def seconds (terms : List (Nat × Nat)) : Nat := (terms.map fun term => term.1 * term.2).sum

/-- Every number is a `long`, and no sum is negative as one. -/
def Unnoticed : Nat → List (Nat × Nat) → Prop
  | _, [] => True
  | sofar, (n, unit) :: terms =>
    n < 2 ^ 63 ∧ (sofar + n * unit) % 2 ^ 64 < 2 ^ 63 ∧ Unnoticed (sofar + n * unit) terms

variable {s rest digits : Bytes} {unit : Nat} {terms : List (Nat × Nat)}

lemma qualifier_spec (h : qualifier rest = some (unit, s)) :
    0 < unit ∧ s.length ≤ rest.length ∧ ∀ c ∈ rest.head?, isDigit c = false := by
  cases rest with
  | nil =>
    cases h
    exact ⟨Nat.one_pos, Nat.le_refl _, nofun⟩
  | cons c behind =>
    simp only [head?_cons, Option.mem_some_iff, forall_eq']
    rw [qualifier] at h
    split_ifs at h with hS hM hH hD hW
    all_goals cases h
    · rcases hS with rfl | rfl <;> exact ⟨by decide, Nat.le_succ _, by decide⟩
    · rcases hM with rfl | rfl <;> exact ⟨by decide, Nat.le_succ _, by decide⟩
    · rcases hH with rfl | rfl <;> exact ⟨by decide, Nat.le_succ _, by decide⟩
    · rcases hD with rfl | rfl <;> exact ⟨by decide, Nat.le_succ _, by decide⟩
    · rcases hW with rfl | rfl <;> exact ⟨by decide, Nat.le_succ _, by decide⟩

lemma strtol_digits (hs : digits ≠ []) (hDigits : ∀ c ∈ digits, isDigit c = true)
    (hr : ∀ c ∈ rest.head?, isDigit c = false) :
    strtol (digits ++ rest) = if value digits < 2 ^ 63 then some ((value digits : Int), rest) else none := by
  obtain ⟨ht, hDrop⟩ := span_digits hDigits hr
  have hStart : (digits ++ rest).dropWhile isspace = digits ++ rest ∧ (digits ++ rest).head? ≠ some 45 ∧
    (digits ++ rest).head? ≠ some 43 := by
    cases digits with
    | nil => exact absurd rfl hs
    | cons c digits =>
      have hd := hDigits c mem_cons_self
      simp only [isDigit, Bool.and_eq_true, decide_eq_true_eq, UInt8.le_iff_toNat_le] at hd
      refine ⟨dropWhile_cons_of_neg ?_, ?_, ?_⟩
      · simp only [isspace, Bool.or_eq_true, Bool.and_eq_true, decide_eq_true_eq, UInt8.le_iff_toNat_le]
        rintro (rfl | hb)
        · exact absurd hd.1 (by decide)
        · exact absurd (hd.1.trans hb.2) (by decide)
      · rintro ⟨⟩
        exact absurd hd.1 (by decide)
      · rintro ⟨⟩
        exact absurd hd.1 (by decide)
  simp only [strtol, hStart, or_self, if_false, ht, hDrop, hs, false_or]
  split_ifs <;> first | rfl | omega

lemma long_natCast (n : Nat) : long n = if n % 2 ^ 64 < 2 ^ 63 then ((n % 2 ^ 64 : Nat) : Int) else
    (n % 2 ^ 64 : Nat) - 2 ^ 64 := by
  rw [long, Int.bmod]
  split_ifs <;> omega

lemma convtimeRound_eq (hs : digits ≠ []) (hd : ∀ c ∈ digits, isDigit c = true)
    (hu : qualifier rest = some (unit, s)) (sofar : Nat) :
    convtimeRound (digits ++ rest) (sofar % 2 ^ 64 : Nat) =
      if value digits < 2 ^ 63 ∧ (sofar + value digits * unit) % 2 ^ 64 < 2 ^ 63 then
        some ((((sofar + value digits * unit) % 2 ^ 64 : Nat) : Int), s)
      else none := by
  have hl : long ((sofar % 2 ^ 64 : Nat) + long (value digits * unit)) =
    long ((sofar + value digits * unit : Nat) : Int) := by
    rw [long, long, long, Int.add_bmod_bmod, Int.natCast_mod, Int.natCast_add, Int.natCast_mul, Int.emod_add_bmod]
  unfold convtimeRound
  rw [strtol_digits hs hd (qualifier_spec hu).2.2]
  by_cases hf : value digits < 2 ^ 63
  · have hPos : ¬ (value digits : Int) < 0 := by omega
    rw [if_pos hf, Option.bind_eq_bind, Option.bind_some]
    dsimp only
    rw [if_neg hPos, hu, Option.bind_eq_bind, Option.bind_some]
    rw [hl, long_natCast]
    by_cases hLow : (sofar + value digits * unit) % 2 ^ 64 < 2 ^ 63
    · rw [if_pos hLow, if_neg (by omega), if_pos ⟨hf, hLow⟩]
    · rw [if_neg hLow, if_pos (by omega), if_neg fun h => hLow h.2]
  · rw [if_neg hf, if_neg fun h => hf h.1]
    rfl

open Classical in
lemma convtimeLoop_eq (h : TimeString s terms) {rounds : Nat} (hRounds : s.length ≤ rounds)
    (sofar : Nat) : convtimeLoop rounds s (sofar % 2 ^ 64 : Nat) =
      if Unnoticed sofar terms then (((sofar + seconds terms) % 2 ^ 64 : Nat) : Int) else -1 := by
  induction h generalizing rounds sofar with
  | done => simp [convtimeLoop, Unnoticed, seconds]
  | @term digits rest s unit terms hs hd hu hRest ih =>
    have hDigit := length_pos_iff.2 hs
    have hShort := (qualifier_spec hu).2.1
    rw [length_append] at hRounds
    obtain ⟨rounds, rfl⟩ : ∃ n, rounds = n + 1 := ⟨rounds - 1, by omega⟩
    have hr := convtimeRound_eq hs hd hu sofar
    have hSum : seconds ((value digits, unit) :: terms) = value digits * unit + seconds terms := rfl
    obtain ⟨c, tail, hc⟩ := exists_cons_of_ne_nil (append_ne_nil_of_left_ne_nil hs rest)
    rw [hc] at hr ⊢
    simp only [convtimeLoop, hr, Unnoticed, hSum, ← and_assoc, ← Nat.add_assoc]
    by_cases hg : value digits < 2 ^ 63 ∧ (sofar + value digits * unit) % 2 ^ 64 < 2 ^ 63
    · simp only [hg, and_self, if_true, true_and]
      exact ih (by omega) _
    · simp only [hg, if_false, false_and]

lemma TimeString.too_long (h : TimeString s terms) {sofar : Nat}
    (hn : ¬ Unnoticed sofar terms) : 2 ^ 63 ≤ sofar + seconds terms := by
  induction h generalizing sofar with
  | done => exact absurd trivial hn
  | @term digits rest s unit terms hSome hDigits hu hRest ih =>
    have hSum : seconds ((value digits, unit) :: terms) = value digits * unit + seconds terms := rfl
    rw [hSum, ← Nat.add_assoc]
    by_cases hl : Unnoticed (sofar + value digits * unit) terms
    · have hPos := Nat.le_mul_of_pos_right (value digits) (qualifier_spec hu).1
      simp only [Unnoticed, hl, and_true, not_and] at hn
      by_contra hShort
      exact hn (by omega) (by omega)
    · exact ih hl

lemma timeString_week (digits : Bytes) (hs : digits ≠ []) (hd : ∀ c ∈ digits, isDigit c = true) :
    TimeString (digits ++ [119]) [(value digits, 604800)] := .term hs hd rfl .done

end Misc
