import Mathlib

/-! Pieces of a long sequence. `cover` counts the pieces that hold a place, `Joined` says
that pieces follow each other without a gap, and `write` and `truncate` are what a file does
with a piece: a place that no piece was written to reads as `zero`. -/
namespace Base
open List

/-- The places from `start` on, `len` of them. -/
structure Extent where
  (start len : Nat)
  deriving DecidableEq

namespace Extent

variable {e : Extent} {l rest : List Extent} {m n p : Nat}

def Has (e : Extent) (p : Nat) : Prop := e.start ≤ p ∧ p < e.start + e.len
  deriving Decidable

def cover (l : List Extent) (p : Nat) : Nat := l.countP fun e => e.Has p

@[simp] lemma cover_nil : cover [] p = 0 := rfl

@[simp] lemma cover_cons : cover (e :: l) p = (if e.Has p then 1 else 0) + cover l p := by
  unfold cover
  rw [countP_cons, Nat.add_comm]
  simp

@[simp] lemma cover_append : cover (l ++ rest) p = cover l p + cover rest p := by
  exact countP_append

lemma cover_pos : 0 < cover l p ↔ ∃ e ∈ l, e.Has p := by
  unfold cover
  rw [countP_pos_iff]
  simp

lemma has_split (h : n ≤ e.len) :
    (if (⟨e.start, n⟩ : Extent).Has p then 1 else 0) + (if (⟨e.start + n, e.len - n⟩ : Extent).Has p then 1 else 0) =
      if e.Has p then 1 else 0 := by
  have hIff : ∀ start len, (⟨start, len⟩ : Extent).Has p ↔ start ≤ p ∧ p < start + len := fun _ _ => Iff.rfl
  by_cases hf : (⟨e.start, n⟩ : Extent).Has p
  · have hb : ¬ (⟨e.start + n, e.len - n⟩ : Extent).Has p := by
      rw [hIff] at hf ⊢
      omega
    have hw : e.Has p := ⟨hf.1, Nat.lt_of_lt_of_le hf.2 (Nat.add_le_add_left h _)⟩
    rw [if_pos hf, if_neg hb, if_pos hw]
  · have hs : (⟨e.start + n, e.len - n⟩ : Extent).Has p ↔ e.Has p := by
      rw [hIff] at hf ⊢
      unfold Has
      omega
    rw [if_neg hf, Nat.zero_add]
    exact if_congr hs rfl rfl

def total (l : List Extent) : Nat := (l.map len).sum

@[simp] lemma total_nil : total [] = 0 := rfl

@[simp] lemma total_cons : total (e :: l) = e.len + total l := by simp [total]

@[simp] lemma total_append : total (l ++ rest) = total l + total rest := by simp [total]

lemma total_le {bound : Nat} (h : ∀ e ∈ l, e.len ≤ bound) : total l ≤ l.length * bound := by
  induction l with
  | nil => simp
  | cons e l ih =>
    have hHead := h e mem_cons_self
    have hTail := ih fun piece hp => h piece (.tail _ hp)
    rw [total_cons, length_cons, Nat.succ_mul]
    omega

lemma sum_cover_le (places : Finset Nat) : ∑ p ∈ places, cover l p ≤ total l := by
  induction l with
  | nil => simp
  | cons e l ih =>
    have hOne : ∑ p ∈ places, (if e.Has p then 1 else 0) ≤ e.len := by
      rw [← Finset.sum_filter, ← Finset.card_eq_sum_ones]
      calc (places.filter fun p => e.Has p).card ≤ (Finset.Ico e.start (e.start + e.len)).card := by
            apply Finset.card_le_card
            intro p hp
            exact Finset.mem_Ico.2 (Finset.mem_filter.1 hp).2
        _ = e.len := by simp
    simp only [cover_cons, total_cons, Finset.sum_add_distrib]
    exact Nat.add_le_add hOne ih

lemma le_total (h : ∀ p, m ≤ p → p < n → 0 < cover l p) : n - m ≤ total l := by
  calc n - m = ∑ p ∈ Finset.Ico m n, 1 := by simp
    _ ≤ ∑ p ∈ Finset.Ico m n, cover l p := by
      apply Finset.sum_le_sum
      intro p hp
      rw [Finset.mem_Ico] at hp
      exact h p hp.1 hp.2
    _ ≤ total l := sum_cover_le _

/-- The pieces follow each other, the first one at `m`. -/
def Joined : Nat → List Extent → Prop
  | _, [] => True
  | m, e :: l => e.start = m ∧ Joined (m + e.len) l

lemma joined_append : Joined m (l ++ rest) ↔ Joined m l ∧ Joined (m + total l) rest := by
  induction l generalizing m with
  | nil => simp [Joined]
  | cons e l ih =>
    rw [cons_append, Joined, Joined, ih, total_cons, and_assoc, Nat.add_assoc]

lemma Joined.of_prefix (h : Joined m rest) (hf : l <+: rest) : Joined m l := by
  obtain ⟨back, rfl⟩ := hf
  exact (joined_append.1 h).1

lemma Joined.exists_has (h : Joined m l) (hLow : m ≤ p) (hh : p < m + total l) :
    ∃ before e after, l = before ++ e :: after ∧ e.Has p := by
  induction l generalizing m with
  | nil => simp at hh; omega
  | cons e l ih =>
    obtain ⟨hStart, hr⟩ := h
    by_cases hHere : p < m + e.len
    · exact ⟨[], e, l, rfl, by unfold Has; omega⟩
    · rw [total_cons] at hh
      obtain ⟨before, piece, after, rfl, hHas⟩ := ih hr (by omega) (by omega)
      exact ⟨e :: before, piece, after, rfl, hHas⟩

end Extent

/-! Files with holes. -/

namespace Holes

variable {α : Type} (zero : α)

/-- Put data at an offset. What lies between the end of the file and the offset is a hole. -/
def write (file : List α) (offset : Nat) (data : List α) : List α :=
  if data.isEmpty then file
  else (file ++ List.replicate (offset - file.length) zero).take offset ++ data ++ file.drop (offset + data.length)

def truncate (file : List α) (size : Nat) : List α := (file ++ List.replicate (size - file.length) zero).take size

variable {zero} {file data : List α} {offset size p : Nat}

lemma length_write :
    (write zero file offset data).length = if data = [] then file.length else max file.length (offset + data.length) := by
  unfold write
  cases data with
  | nil => simp
  | cons byte data =>
    simp only [isEmpty_cons, Bool.false_eq_true, if_false, length_append, length_take,
      length_replicate, length_drop, reduceCtorEq]
    omega

lemma getD_padded (n : Nat) : (file ++ List.replicate n zero).getD p zero = file.getD p zero := by
  by_cases hp : p < file.length
  · rw [getD_append _ _ _ _ hp]
  · rw [getD_append_right _ _ _ _ (by omega), getD_eq_default file zero (by omega)]
    simp [getD_eq_getElem?_getD, getElem?_replicate]
    split_ifs <;> rfl

lemma getD_take (n : Nat) : (file.take n).getD p zero = if p < n then file.getD p zero else zero := by
  simp only [getD_eq_getElem?_getD, getElem?_take]
  split_ifs <;> rfl

lemma getD_write : (write zero file offset data).getD p zero =
      if offset ≤ p ∧ p < offset + data.length then data.getD (p - offset) zero else file.getD p zero := by
  unfold write
  cases data with
  | nil => rw [isEmpty_nil, if_pos rfl, if_neg (by rw [length_nil]; omega)]
  | cons byte data =>
    have hf : ((file ++ List.replicate (offset - file.length) zero).take offset).length = offset := by
      simp
      omega
    rw [isEmpty_cons, if_neg nofun, append_assoc]
    by_cases hPre : p < offset
    · rw [getD_append _ _ _ _ (by omega), getD_take, if_pos hPre, getD_padded, if_neg (by omega)]
    · rw [getD_append_right _ _ _ _ (by omega), hf]
      by_cases hi : p < offset + (byte :: data).length
      · rw [getD_append _ _ _ _ (by omega), if_pos ⟨by omega, hi⟩]
      · rw [getD_append_right _ _ _ _ (by omega), if_neg (by omega), getD_eq_getElem?_getD,
          getD_eq_getElem?_getD, getElem?_drop]
        congr 2
        omega

@[simp] lemma length_truncate : (truncate zero file size).length = size := by
  simp [truncate]
  omega

lemma getD_truncate : (truncate zero file size).getD p zero = if p < size then file.getD p zero else zero := by
  unfold truncate
  rw [getD_take, getD_padded]

lemma prefix_iff (zero : α) {other : List α} :
    file <+: other ↔ file.length ≤ other.length ∧ ∀ p < file.length, file.getD p zero = other.getD p zero := by
  rw [prefix_iff_getElem]
  constructor
  · rintro ⟨hLen, hs⟩
    refine ⟨hLen, fun p hp => ?_⟩
    rw [getD_eq_getElem _ _ hp, getD_eq_getElem _ _ (by omega)]
    exact hs p hp
  · rintro ⟨hLen, hs⟩
    refine ⟨hLen, fun p hp => ?_⟩
    have hPlace := hs p hp
    rwa [getD_eq_getElem _ _ hp, getD_eq_getElem _ _ (by omega)] at hPlace

end Holes

end Base
