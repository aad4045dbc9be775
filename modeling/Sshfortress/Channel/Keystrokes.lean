import Sshfortress.Channel.Commands

/-! How the queued keys are compared with a literal. The comparison starts at the last of
the queued bytes, so what it reads of the literal is decided by their number alone. -/
namespace Channel
open Base List

def comparedIndices (s1 s2 : Bytes) : Nat → List Nat
  | 0 => []
  | n + 1 => n :: if upper (s1.getD n 0) ≠ upper (s2.getD n 0) then [] else comparedIndices s1 s2 n

variable {s1 s2 : Bytes}

lemma lt_of_mem_comparedIndices {n i : Nat} (h : i ∈ comparedIndices s1 s2 n) : i < n := by
  induction n with
  | zero => cases h
  | succ n ih =>
    rcases mem_cons.1 h with rfl | hr
    · exact Nat.lt_succ_self _
    · split_ifs at hr
      · cases hr
      · exact Nat.lt_succ_of_lt (ih hr)

lemma agree_iff_prefix (h : s1.length ≤ s2.length) :
    (∀ i < s1.length, upper (s1.getD i 0) = upper (s2.getD i 0)) ↔ s1.map upper <+: s2.map upper := by
  rw [prefix_iff_getElem]
  simp only [length_map, getElem_map, h, exists_true_left]
  constructor
  · intro hAll i hi
    have hs := hAll i hi
    simpa [List.getD, hi, Nat.lt_of_lt_of_le hi h] using hs
  · intro hAll i hi
    have hs := hAll i hi
    simpa [List.getD, hi, Nat.lt_of_lt_of_le hi h] using hs

/-- A comparison of the queued bytes with a literal is right: it stays inside both, and it
says whether they are equal but for the case of letters. -/
structure ComparesRight (rodata : Bytes → Bytes) (pending after key : Bytes) : Prop where
  inside : ∀ i ∈ comparedIndices (pending ++ after) (key ++ 0 :: rodata key) pending.length,
    i < pending.length ∧ i < key.length + 1
  equal : sshRstrncasecmp (pending ++ after) (key ++ 0 :: rodata key) pending.length = 0 ↔
    pending.map upper = key.map upper

/-- The result when the comparison stays inside: the queued bytes may be the first ones of
the literal, and may include its terminator. -/
lemma sshRstrncasecmp_literal {pending after key rest : Bytes} (h : pending.length ≤ key.length + 1) :
    sshRstrncasecmp (pending ++ after) (key ++ 0 :: rest) pending.length = 0 ↔
      pending.map upper <+: key.map upper ++ [0] := by
  have hp : ∀ i < pending.length, (pending ++ after).getD i 0 = pending.getD i 0 := by
    intro i hi
    simp [List.getD, getElem?_append, hi]
  have hl : ∀ i < pending.length, (key ++ 0 :: rest).getD i 0 = (key ++ [0]).getD i 0 := by
    intro i hi
    grind
  have ht : key.map upper ++ [0] = (key ++ [0]).map upper := by
    simp [show upper 0 = 0 from rfl]
  rw [sshRstrncasecmp_eq_zero, ht, ← agree_iff_prefix (by simpa using h)]
  constructor
  · intro hAll i hi
    rw [← hp i hi, ← hl i hi]
    exact hAll i hi
  · intro hAll i hi
    rw [hp i hi, hl i hi]
    exact hAll i hi

lemma mem_comparedIndices_last {n : Nat} : n ∈ comparedIndices s1 s2 (n + 1) := by
  exact mem_cons_self ..

theorem keys_compared_iff (rodata : Bytes → Bytes) (pending after key : Bytes) :
    ComparesRight rodata pending after key ↔ pending.length ≤ key.length + 1 ∧
      (pending.map upper = key.map upper ∨ ¬ pending.map upper <+: key.map upper ++ [0]) := by
  constructor
  · rintro ⟨hInside, hEqual⟩
    have hShort : pending.length ≤ key.length + 1 := by
      cases hLength : pending.length with
      | zero => omega
      | succ n =>
        rw [hLength] at hInside
        have hLast := (hInside n mem_comparedIndices_last).2
        omega
    rw [sshRstrncasecmp_literal hShort] at hEqual
    refine ⟨hShort, ?_⟩
    by_cases hSame : pending.map upper = key.map upper
    · exact .inl hSame
    · exact .inr fun hPrefix => hSame (hEqual.1 hPrefix)
  · rintro ⟨hShort, hWhole⟩
    constructor
    · intro i hi
      have hLess := lt_of_mem_comparedIndices hi
      exact ⟨hLess, by omega⟩
    · rw [sshRstrncasecmp_literal hShort]
      constructor
      · intro hPrefix
        exact hWhole.resolve_right (not_not_intro hPrefix)
      · intro hSame
        rw [hSame]
        exact prefix_append _ _

/-- A lone escape is taken for the up key. -/
theorem escape_taken_for_up : ¬ ComparesRight (fun _ => []) [27] [] (text "\x1b[A") := by
  intro hRight
  exact absurd (hRight.equal.1 (by decide +kernel)) (by decide +kernel)

end Channel
