import Mathlib

/-! The choice of a group from the file of moduli. The file is read twice: the first pass
finds the size and counts its lines, the second one takes the line that was drawn. A line
of the wanted size is passed over once a larger one was found. -/
namespace Kex
open List

/-- A line that `parse_prime` takes. It refuses the size 0. -/
structure Dhgroup where
  (size g p : Nat)
  positive : 0 < size
  deriving DecidableEq

/-- The lines of the file that are taken, and whose size is asked for. -/
def acceptable (min max : Int) (file : List (Option Dhgroup)) : List Dhgroup :=
  (file.filterMap id).filter fun dhg => !(max < dhg.size || dhg.size < min)

/-- A line of the first pass, with the best size and its count so far. -/
def consider (want : Int) (s : Int × Nat) (size : Int) : Int × Nat :=
  let (best, bestcount) :=
    if (want < size ∧ size < s.1) ∨ (s.1 < size ∧ s.1 < want) then (size, 0) else s
  if size = best then (best, bestcount + 1) else (best, bestcount)

def firstPass (want : Int) (sizes : List Int) : Int × Nat := sizes.foldl (consider want) (0, 0)

def secondPass (best : Int) (which : Nat) : Nat → List Dhgroup → Option Dhgroup
  | _, [] => none
  | linenum, dhg :: rest =>
    if dhg.size ≠ best then secondPass best which linenum rest
    else if linenum ≠ which then secondPass best which (linenum + 1) rest
    else some dhg

def sizes (groups : List Dhgroup) : List Int := groups.map fun dhg => dhg.size

/-- The group for a drawn number. `none` stands for the fixed group. -/
def chooseDh (file : List (Option Dhgroup)) (min want max : Int) (which : Nat) : Option Dhgroup :=
  let groups := acceptable min max file
  let (best, bestcount) := firstPass want (sizes groups)
  if bestcount = 0 then none else secondPass best which 0 groups

/-- The smallest size that is large enough, or else the largest one. -/
def BestSize (want : Int) (sizes : List Int) (best : Int) : Prop :=
  best ∈ sizes ∧ ∀ size ∈ sizes, if want ≤ best then want ≤ size → best ≤ size else size ≤ best

/-- The size is the best one, and the numbers that can be drawn stand for its lines, one each. -/
def ChoosesBest (file : List (Option Dhgroup)) (min want max : Int) : Prop :=
  let groups := acceptable min max file
  let pass := firstPass want (sizes groups)
  groups ≠ [] → BestSize want (sizes groups) pass.1 ∧
    (range pass.2).map (chooseDh file min want max) = (groups.filter (·.size = pass.1)).map some

/-- What the first pass has found in the lines so far. -/
structure Passed (want : Int) (l : List Int) (s : Int × Nat) : Prop where
  found : s.1 ∈ l ∨ l = [] ∧ s.1 = 0
  counted : s.2 = l.count s.1
  below : s.1 < want → ∀ x ∈ l, x ≤ s.1
  above : want ≤ s.1 → (∀ x ∈ l, want < x → s.1 ≤ x) ∧ (s.1 = want ↔ l.find? (want ≤ ·) = some want)

variable {want best : Int} {l : List Int} {groups : List Dhgroup} {s : Int × Nat}

lemma consider_passed {x : Int} (hWant : 0 < want) (hx : 0 < x) (h : Passed want l s) :
    Passed want (l ++ [x]) (consider want s x) := by
  obtain ⟨best, count⟩ := s
  obtain ⟨hf, hc, hBelow, ha⟩ := h
  dsimp only at hf hc hBelow ha
  -- The first size that is large enough stays the first.
  have hFirst : want ≤ best → (l ++ [x]).find? (want ≤ ·) = l.find? (want ≤ ·) := by
    intro hLe
    have hMem : best ∈ l := hf.resolve_right (by omega)
    have hSome : (l.find? (want ≤ ·)).isSome = true := find?_isSome.2 ⟨best, hMem, by simpa using hLe⟩
    rw [find?_append, Option.or_of_isSome hSome]
  have hn : best < want → (l ++ [x]).find? (want ≤ ·) = if want ≤ x then some x else none := by
    intro hLt
    have hNone : l.find? (want ≤ ·) = none := find?_eq_none.2 fun y hy => by
      have hLe := hBelow hLt y hy
      simp
      omega
    simp [find?_append, hNone, find?_singleton]
  unfold consider
  by_cases hb : (want < x ∧ x < best) ∨ (best < x ∧ best < want)
  · -- A size that replaces the best one was not seen before.
    have hNew : x ∉ l := by grind
    simp only [hb, if_true]
    refine ⟨by simp, by simp [count_append, count_eq_zero.2 hNew], by grind, fun hLe => ⟨by grind, ?_⟩⟩
    rcases hb with hb | hb
    · rw [hFirst (by omega), ← (ha (by omega)).2]
      omega
    · simp [hn hb.2, hLe]
  · simp only [hb, if_false]
    split_ifs with hs
    · exact ⟨by simp [hs], by simp [count_append, hs, hc], by grind, fun hLe => ⟨by grind, by grind⟩⟩
    · exact ⟨by grind, by simp [count_append, hs, hc], by grind, fun hLe => ⟨by grind, by grind⟩⟩

lemma firstPass_passed (hw : 0 < want) (hl : ∀ x ∈ l, 0 < x) : Passed want l (firstPass want l) := by
  induction l using List.reverseRecOn with
  | nil => constructor <;> simp [firstPass]; omega
  | append_singleton l x ih =>
    rw [firstPass, foldl_append]
    exact consider_passed hw (hl x (by simp)) (ih fun y hy => hl y (by simp [hy]))

lemma secondPass_eq {which linenum : Nat} (h : linenum ≤ which) :
    secondPass best which linenum groups = (groups.filter (·.size = best))[which - linenum]? := by
  induction groups generalizing linenum with
  | nil => rfl
  | cons dhg rest ih => grind [secondPass]

lemma Passed.bestSize_iff (h : Passed want l s) (hl : l ≠ []) :
    BestSize want l s.1 ↔ (want ∈ l → l.find? (want ≤ ·) = some want) := by
  have hMem : s.1 ∈ l := h.found.resolve_right fun hNil => hl hNil.1
  rw [BestSize, and_iff_right hMem]
  by_cases he : want ≤ s.1
  · obtain ⟨hLeast, hs⟩ := h.above he
    grind
  · have hMost := h.below (by omega)
    grind

lemma Passed.drawn (h : Passed want (sizes groups) s) :
    (range s.2).map (fun which => if s.2 = 0 then none else secondPass s.1 which 0 groups) =
      (groups.filter (·.size = s.1)).map some := by
  have hc : s.2 = (groups.filter (·.size = s.1)).length := by
    rw [h.counted, sizes, count_eq_countP, countP_map, countP_eq_length_filter]
    congr
  apply ext_getElem
  · simp [hc]
  · intro i hi _
    have hi : i < s.2 := by simpa using hi
    simp only [getElem_map, getElem_range, secondPass_eq (Nat.zero_le i), if_neg (Nat.ne_zero_of_lt hi)]
    simp [← hc, hi]

lemma firstPass_unwanted (hWant : ¬ 0 < want) (hl : ∀ x ∈ l, 0 < x) : firstPass want l = (0, 0) := by
  induction l with
  | nil => rfl
  | cons x l ih =>
    have hs : consider want (0, 0) x = (0, 0) := by
      unfold consider
      grind
    rw [firstPass, foldl_cons, hs]
    exact ih fun y hy => hl y (.tail _ hy)

/-- The choice is right exactly when no line is acceptable, or the wanted size is positive
and, if there are lines of that size, one of them is the first that is large enough. -/
theorem chooses_best_iff (file : List (Option Dhgroup)) (min want max : Int) :
    ChoosesBest file min want max ↔ acceptable min max file = [] ∨ 0 < want ∧
      (want ∈ sizes (acceptable min max file) →
        (sizes (acceptable min max file)).find? (want ≤ ·) = some want) := by
  unfold ChoosesBest chooseDh
  generalize acceptable min max file = groups
  have hPos : ∀ x ∈ sizes groups, 0 < x := by
    intro x hx
    obtain ⟨dhg, -, rfl⟩ := mem_map.1 hx
    exact Int.natCast_pos.2 dhg.positive
  by_cases hn : groups = []
  · simp [hn]
  by_cases hw : 0 < want
  · have hp := firstPass_passed hw hPos
    simp only [hp.drawn, hp.bestSize_iff (by simpa [sizes] using hn), hw]
    simp [hn]
  · simp only [firstPass_unwanted hw hPos, hn, hw, false_and, or_self, iff_false]
    intro h
    exact absurd (hPos 0 (h hn).1.1) (by decide)

/-- A line of the wanted size comes after a larger one. -/
theorem chooses_larger : ¬ ChoosesBest
    [some ⟨3072, 2, 7, by decide⟩, some ⟨2048, 2, 7, by decide⟩] 1024 2048 8192 := by
  intro h
  exact absurd ((h (by decide)).1.2 2048 (by decide)) (by decide)

end Kex
