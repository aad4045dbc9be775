import Mathlib

/-! Tables that keep their unused slots on a list which is threaded through the slots by
index: a slot is taken from the front, and a slot that is given back goes to the front. -/
namespace Base.FreeList
open List

variable {α : Type} (next : α → Option Nat)

/-- The slots that are met from a first one on. -/
inductive Chain (slots : List α) : Option Nat → List Nat → Prop where
  | nil : Chain slots none []
  | cons {i : Nat} {slot : α} {rest : List Nat} (hSlot : slots[i]? = some slot)
      (hRest : Chain slots (next slot) rest) : Chain slots (some i) (i :: rest)

/-- The list ends, meets no slot twice, and meets exactly the unused ones. -/
def Threaded (unused : α → Prop) (slots : List α) (first : Option Nat) : Prop :=
  ∃ free, Chain next slots first free ∧ free.Nodup ∧
    ∀ i, i ∈ free ↔ ∃ slot, slots[i]? = some slot ∧ unused slot

variable {next} {unused : α → Prop} {slots : List α} {first : Option Nat} {free : List Nat}

lemma Chain.congr {other : List α} (h : Chain next slots first free) (hs : ∀ i ∈ free, other[i]? = slots[i]?) :
    Chain next other first free := by
  induction h with
  | nil => exact .nil
  | cons hSlot _ ih =>
    apply Chain.cons
    · rw [hs _ mem_cons_self]
      exact hSlot
    · exact ih fun i hMem => hs i (.tail _ hMem)

variable {i : Nat} {slot new : α}

lemma not_mem_of_used (hFree : ∀ i, i ∈ free ↔ ∃ slot, slots[i]? = some slot ∧ unused slot)
    (hSlot : slots[i]? = some slot) (hUsed : ¬ unused slot) : i ∉ free := by
  intro hMem
  obtain ⟨found, hf, hu⟩ := (hFree i).1 hMem
  rw [hSlot] at hf
  cases hf
  exact hUsed hu

lemma Threaded.nil : Threaded next unused [] none :=
  ⟨[], .nil, nodup_nil, by simp⟩

section
variable (h : Threaded next unused slots first)
include h

lemma Threaded.update (hSlot : slots[i]? = some slot)
    (hu : ¬ unused slot) (hNew : ¬ unused new) : Threaded next unused (slots.set i new) first := by
  obtain ⟨free, hc, hNodup, hf⟩ := h
  have hb := (List.getElem?_eq_some_iff.1 hSlot).1
  have hn := not_mem_of_used hf hSlot hu
  refine ⟨free, hc.congr ?_, hNodup, ?_⟩
  · intro j hMem
    have hNe : i ≠ j := fun hEq => hn (hEq ▸ hMem)
    rw [getElem?_set_ne hNe]
  · intro j
    rw [hf j]
    by_cases hEq : i = j
    · subst hEq
      rw [getElem?_set_self hb, hSlot]
      simp [hu, hNew]
    · rw [getElem?_set_ne hEq]

lemma Threaded.push (hSlot : slots[i]? = some slot)
    (hu : ¬ unused slot) (hNew : unused new) (hNext : next new = first) :
    Threaded next unused (slots.set i new) (some i) := by
  obtain ⟨free, hc, hNodup, hf⟩ := h
  have hb := (List.getElem?_eq_some_iff.1 hSlot).1
  have hn := not_mem_of_used hf hSlot hu
  refine ⟨i :: free, ?_, nodup_cons.2 ⟨hn, hNodup⟩, ?_⟩
  · apply Chain.cons (getElem?_set_self hb)
    rw [hNext]
    apply hc.congr
    intro j hMem
    have hNe : i ≠ j := fun hEq => hn (hEq ▸ hMem)
    rw [getElem?_set_ne hNe]
  · intro j
    rw [mem_cons, hf j]
    by_cases hEq : i = j
    · subst hEq
      rw [getElem?_set_self hb]
      simp [hNew]
    · rw [getElem?_set_ne hEq]
      simp [Ne.symm hEq]

lemma Threaded.grow (hNew : unused new)
    (hNext : next new = first) : Threaded next unused (slots ++ [new]) (some slots.length) := by
  obtain ⟨free, hc, hn, hf⟩ := h
  have hOld : ∀ i ∈ free, i < slots.length := by
    intro i hMem
    obtain ⟨slot, hSlot, -⟩ := (hf i).1 hMem
    exact (List.getElem?_eq_some_iff.1 hSlot).1
  refine ⟨slots.length :: free, ?_, nodup_cons.2 ⟨?_, hn⟩, ?_⟩
  · apply Chain.cons getElem?_concat_length
    rw [hNext]
    apply hc.congr
    intro j hMem
    exact getElem?_append_left (hOld j hMem)
  · intro hMem
    exact Nat.lt_irrefl _ (hOld _ hMem)
  · intro j
    rw [mem_cons, hf j]
    rcases Nat.lt_trichotomy j slots.length with hLt | rfl | hGt
    · rw [getElem?_append_left hLt]
      simp [Nat.ne_of_lt hLt]
    · rw [getElem?_concat_length]
      simp [hNew]
    · rw [getElem?_eq_none (by omega), getElem?_eq_none (by simp; omega)]
      simp [Nat.ne_of_gt hGt]

end

lemma Threaded.pop (h : Threaded next unused slots (some i)) : ∃ slot, slots[i]? = some slot ∧ unused slot ∧
    ∀ new, ¬ unused new → Threaded next unused (slots.set i new) (next slot) := by
  obtain ⟨free, hc, hn, hFree⟩ := h
  cases hc with
  | @cons _ slot rest hSlot hRest =>
    obtain ⟨hNotMem, hn⟩ := nodup_cons.1 hn
    have hb := (List.getElem?_eq_some_iff.1 hSlot).1
    obtain ⟨found, hf, hu⟩ := (hFree i).1 mem_cons_self
    rw [hSlot] at hf
    cases hf
    refine ⟨slot, hSlot, hu, fun new hNew => ⟨rest, hRest.congr ?_, hn, ?_⟩⟩
    · intro j hMem
      have hNe : i ≠ j := fun hEq => hNotMem (hEq ▸ hMem)
      rw [getElem?_set_ne hNe]
    · intro j
      by_cases hEq : i = j
      · subst hEq
        rw [getElem?_set_self hb]
        simp [hNotMem, hNew]
      · rw [getElem?_set_ne hEq, ← hFree j, mem_cons]
        simp [Ne.symm hEq]

end Base.FreeList
