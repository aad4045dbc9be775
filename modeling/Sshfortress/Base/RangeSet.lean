import Mathlib

/-! Sets of numbers kept as ranges in ascending order, with at least one number missing
between any two of them. Inserting a range joins it with all that it overlaps or touches. -/
namespace Base
open List

structure Range where
  (lo hi : Nat)
  le : lo ≤ hi
  deriving DecidableEq

namespace Range

def Covers (r : Range) (n : Nat) : Prop := r.lo ≤ n ∧ n ≤ r.hi
  deriving Decidable

/-- There is a gap between the two. -/
def Before (r s : Range) : Prop := r.hi + 1 < s.lo

variable {r : Range} {l : List Range}

instance : Trans Before Before Before where
  trans := by
    intro r s t hFirst hSecond
    have hLe := s.le
    unfold Before at *
    omega

def join (r s : Range) : Range where
  lo := min r.lo s.lo
  hi := max r.hi s.hi
  le := (Nat.min_le_left ..).trans (r.le.trans (Nat.le_max_left ..))

/-- Extend a range downwards over its predecessors, the nearest first, as long as there
is no gap. Gives the range and the predecessors that stay. -/
def joinPreds (r : Range) : List Range → Range × List Range
  | [] => (r, [])
  | p :: rest =>
    if p.hi + 1 < r.lo then (r, p :: rest)
    else joinPreds ⟨min p.lo r.lo, r.hi, (Nat.min_le_right ..).trans r.le⟩ rest

def joinSuccs (r : Range) : List Range → Range × List Range
  | [] => (r, [])
  | s :: rest =>
    if r.hi + 1 < s.lo then (r, s :: rest)
    else joinSuccs ⟨r.lo, max s.hi r.hi, r.le.trans (Nat.le_max_right ..)⟩ rest

/-- The first range that does not end below `r` is grown if it overlaps `r`; otherwise `r`
goes in front of it. -/
def place (r : Range) : List Range → Range × List Range
  | [] => (r, [])
  | s :: rest => if s.lo ≤ r.hi then (join s r, rest) else (r, s :: rest)

def insertInto (r : Range) (t : List Range) : List Range :=
  let (grown, after) := place r (t.dropWhile (·.hi < r.lo))
  let (grown, before) := joinPreds grown (t.takeWhile (·.hi < r.lo)).reverse
  let (grown, after) := joinSuccs grown after
  before.reverse ++ grown :: after

lemma joinPreds_spec (hb : ∀ p ∈ l, p.hi ≤ r.hi) :
    (∀ p ∈ (joinPreds r l).2.head?, Before p (joinPreds r l).1) ∧
      (joinPreds r l).2 <:+ l ∧ (joinPreds r l).1.lo ≤ r.lo ∧
      ∀ n, ((joinPreds r l).1.Covers n ∨ ∃ p ∈ (joinPreds r l).2, p.Covers n) ↔
        r.Covers n ∨ ∃ p ∈ l, p.Covers n := by
  induction l generalizing r with
  | nil => simp [joinPreds]
  | cons p rest ih =>
    obtain ⟨hHere, hr⟩ := forall_mem_cons.1 hb
    rw [joinPreds]
    split_ifs with hGap
    · exact ⟨by simpa [Before] using hGap, suffix_refl _, Nat.le_refl _, fun n => Iff.rfl⟩
    · obtain ⟨hh, hs, hLo, hc⟩ :=
        ih (r := ⟨min p.lo r.lo, r.hi, (Nat.min_le_right ..).trans r.le⟩) hr
      refine ⟨hh, hs.trans (suffix_cons ..), hLo.trans (Nat.min_le_right ..), fun n => ?_⟩
      rw [hc, exists_mem_cons_iff, ← or_assoc]
      refine or_congr_left ?_
      unfold Covers
      dsimp only
      omega

lemma joinSuccs_spec (ha : ∀ s ∈ l, r.lo ≤ s.lo) :
    (∀ s ∈ (joinSuccs r l).2.head?, Before (joinSuccs r l).1 s) ∧
      (joinSuccs r l).2 <:+ l ∧ (joinSuccs r l).1.lo = r.lo ∧
      ∀ n, ((joinSuccs r l).1.Covers n ∨ ∃ s ∈ (joinSuccs r l).2, s.Covers n) ↔
        r.Covers n ∨ ∃ s ∈ l, s.Covers n := by
  induction l generalizing r with
  | nil => simp [joinSuccs]
  | cons s rest ih =>
    obtain ⟨hHere, hr⟩ := forall_mem_cons.1 ha
    rw [joinSuccs]
    split_ifs with hGap
    · exact ⟨by simpa [Before] using hGap, suffix_refl _, rfl, fun n => Iff.rfl⟩
    · obtain ⟨hh, hs, hLo, hc⟩ :=
        ih (r := ⟨r.lo, max s.hi r.hi, r.le.trans (Nat.le_max_right ..)⟩) hr
      refine ⟨hh, hs.trans (suffix_cons ..), hLo, fun n => ?_⟩
      rw [hc, exists_mem_cons_iff, ← or_assoc]
      refine or_congr_left ?_
      unfold Covers
      dsimp only
      omega

lemma place_spec (ho : l.Pairwise Before) (hr : ∀ s ∈ l.head?, r.lo ≤ s.hi) :
    (place r l).2.Pairwise Before ∧ (∀ s ∈ (place r l).2, (place r l).1.lo ≤ s.lo) ∧ r.hi ≤ (place r l).1.hi ∧
      ∀ n, ((place r l).1.Covers n ∨ ∃ s ∈ (place r l).2, s.Covers n) ↔ r.Covers n ∨ ∃ s ∈ l, s.Covers n := by
  cases l with
  | nil => simp [place]
  | cons s rest =>
    obtain ⟨hFirst, hRest⟩ := pairwise_cons.1 ho
    have hReachHere := hr s rfl
    have hLe := s.le
    have hLeR := r.le
    have hl : ∀ q ∈ rest, s.lo ≤ q.lo := by
      intro q hq
      have hPre := hFirst q hq
      unfold Before at hPre
      omega
    rw [place]
    split_ifs with hOverlap
    · refine ⟨hRest, fun q hq => (Nat.min_le_left ..).trans (hl q hq), Nat.le_max_right .., fun n => ?_⟩
      rw [exists_mem_cons_iff, ← or_assoc]
      refine or_congr_left ?_
      unfold Covers join
      dsimp only
      omega
    · refine ⟨ho, forall_mem_cons.2 ⟨?_, fun q hq => ?_⟩, Nat.le_refl _, fun n => Iff.rfl⟩
      · dsimp only
        omega
      · have hFrom := hl q hq
        dsimp only
        omega

/-- A range is placed between two parts of the list, and joined with its neighbours. -/
def insertAt (r : Range) (front back : List Range) : List Range :=
  let (grown, after) := place r back
  let (grown, before) := joinPreds grown front.reverse
  let (grown, after) := joinSuccs grown after
  before.reverse ++ grown :: after

lemma insertAt_spec {front back : List Range} (ho : (front ++ back).Pairwise Before)
    (hb : ∀ p ∈ front, p.hi ≤ r.hi) (hr : ∀ s ∈ back.head?, r.lo ≤ s.hi) :
    (insertAt r front back).Pairwise Before ∧
      ∀ n, (∃ s ∈ insertAt r front back, s.Covers n) ↔ r.Covers n ∨ ∃ s ∈ front ++ back, s.Covers n := by
  obtain ⟨hf, hBack, -⟩ := pairwise_append.1 ho
  obtain ⟨ha, hAbove, hHi, hPlaced⟩ := place_spec hBack hr
  obtain ⟨hPred, hPreds, hl, hj⟩ :=
    joinPreds_spec fun p hp => (hb p (mem_reverse.1 hp)).trans hHi
  obtain ⟨hSucc, hSuccs, hSameLo, hAll⟩ := joinSuccs_spec fun s hs => hl.trans (hAbove s hs)
  rw [insertAt]
  constructor
  · rw [← isChain_iff_pairwise, isChain_append, isChain_cons, getLast?_reverse]
    refine ⟨(hf.sublist ?_).isChain, ⟨hSucc, ha.isChain.suffix hSuccs⟩, fun p hp s hs => ?_⟩
    · simpa using ( reverse_prefix.2 hPreds).sublist
    · cases hs
      have hPre := hPred p hp
      unfold Before at hPre ⊢
      rwa [hSameLo]
  · intro n
    have hFirst := hj n
    simp only [mem_reverse] at hFirst
    simp only [mem_append, mem_cons, mem_reverse, or_and_right, exists_or, exists_eq_left]
    rw [hAll n, or_left_comm, ← or_assoc, hFirst, or_right_comm, hPlaced n, or_right_comm, or_assoc]

lemma insertInto_spec {t : List Range} (ho : t.Pairwise Before) : (insertInto r t).Pairwise Before ∧
    ∀ n, (∃ s ∈ insertInto r t, s.Covers n) ↔ r.Covers n ∨ ∃ s ∈ t, s.Covers n := by
  have hSplit : t.takeWhile (·.hi < r.lo) ++ t.dropWhile (·.hi < r.lo) = t := takeWhile_append_dropWhile
  have hSpec := insertAt_spec (r := r) (hSplit ▸ ho) ?_ ?_
  · rwa [hSplit] at hSpec
  · intro p hp
    have hEnds : p.hi < r.lo := by simpa using mem_takeWhile_imp hp
    have hLe := r.le
    omega
  · intro s hs
    have hNot := head?_dropWhile_not (fun s : Range => decide (s.hi < r.lo)) t
    rw [Option.mem_def.1 hs] at hNot
    simpa using hNot

end Range

/-- A set kept in this way. The order is part of the value. -/
structure RangeSet where
  ranges : List Range
  apart : ranges.Pairwise Range.Before
  deriving DecidableEq

namespace RangeSet

def empty : RangeSet := ⟨[], List.Pairwise.nil⟩

def insert (r : Range) (s : RangeSet) : RangeSet := ⟨r.insertInto s.ranges, (Range.insertInto_spec s.apart).1⟩

def Covers (s : RangeSet) (n : Nat) : Prop := ∃ r ∈ s.ranges, r.Covers n
  deriving Decidable

@[simp] lemma covers_empty (n : Nat) : empty.Covers n ↔ False := by simp [Covers, empty]

@[simp] lemma covers_insert (r : Range) (s : RangeSet) (n : Nat) : (insert r s).Covers n ↔ r.Covers n ∨ s.Covers n :=
  (Range.insertInto_spec s.apart).2 n

end RangeSet
end Base
