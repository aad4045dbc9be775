import Mathlib

/-! Glob patterns: one symbol stands for any text, another for any one character, and
every other for itself. -/
namespace Base
open List

variable {α : Type}

/-- The pattern comes first, the text second. -/
inductive Glob (any one : α) : List α → List α → Prop where
  | nil : Glob any one [] []
  | lit {c : α} {pattern s : List α} (hAny : c ≠ any) (hOne : c ≠ one) (h : Glob any one pattern s) :
      Glob any one (c :: pattern) (c :: s)
  | one (x : α) {pattern s : List α} (h : Glob any one pattern s) : Glob any one (one :: pattern) (x :: s)
  | done {pattern s : List α} (h : Glob any one pattern s) : Glob any one (any :: pattern) s
  | more (x : α) {pattern s : List α} (h : Glob any one (any :: pattern) s) :
      Glob any one (any :: pattern) (x :: s)

namespace Glob

variable {any one c : α} {pattern s : List α}

lemma nil_iff : Glob any one [] s ↔ s = [] := by
  constructor
  · intro h
    cases h
    rfl
  · rintro rfl
    exact .nil

lemma lit_iff (hAny : c ≠ any) (hOne : c ≠ one) :
    Glob any one (c :: pattern) s ↔ ∃ rest, s = c :: rest ∧ Glob any one pattern rest := by
  constructor
  · intro h
    cases h with
    | lit _ _ h => exact ⟨_, rfl, h⟩
    | one => exact absurd rfl hOne
    | done => exact absurd rfl hAny
    | more => exact absurd rfl hAny
  · rintro ⟨rest, rfl, h⟩
    exact .lit hAny hOne h

lemma one_iff (hNe : one ≠ any) :
    Glob any one (one :: pattern) s ↔ ∃ x rest, s = x :: rest ∧ Glob any one pattern rest := by
  constructor
  · intro h
    cases h with
    | lit _ hOne _ => exact absurd rfl hOne
    | one x h => exact ⟨x, _, rfl, h⟩
    | done => exact absurd rfl hNe
    | more => exact absurd rfl hNe
  · rintro ⟨x, rest, rfl, h⟩
    exact .one x h

lemma any_iff (hNe : one ≠ any) :
    Glob any one (any :: pattern) s ↔ ∃ rest, rest <:+ s ∧ Glob any one pattern rest := by
  constructor
  · intro h
    generalize hw : any :: pattern = whole at h
    induction h with
    | nil => cases hw
    | lit hAny _ _ _ =>
      cases hw
      exact absurd rfl hAny
    | one _ _ _ =>
      cases hw
      exact absurd rfl hNe
    | done h _ =>
      cases hw
      exact ⟨_, suffix_refl _, h⟩
    | more x _ ih =>
      obtain ⟨rest, hr, h⟩ := ih hw
      exact ⟨rest, hr.trans (suffix_cons x _), h⟩
  · rintro ⟨rest, ⟨front, rfl⟩, h⟩
    induction front with
    | nil => exact .done h
    | cons x front ih => exact .more x ih

lemma append_iff {front back : List α} :
    Glob any one (front ++ back) s ↔ ∃ t rest, s = t ++ rest ∧ Glob any one front t ∧ Glob any one back rest := by
  constructor
  · intro h
    generalize hw : front ++ back = whole at h
    induction h generalizing front with
    | nil =>
      obtain ⟨rfl, rfl⟩ := append_eq_nil_iff.1 hw
      exact ⟨[], [], rfl, .nil, .nil⟩
    | @lit c pattern s hAny hOne h ih =>
      rcases append_eq_cons_iff.1 hw with ⟨rfl, rfl⟩ | ⟨front, rfl, rfl⟩
      · exact ⟨[], _, rfl, .nil, .lit hAny hOne h⟩
      · obtain ⟨t, rest, rfl, hf, hb⟩ := ih rfl
        exact ⟨c :: t, rest, rfl, .lit hAny hOne hf, hb⟩
    | @one x pattern s h ih =>
      rcases append_eq_cons_iff.1 hw with ⟨rfl, rfl⟩ | ⟨front, rfl, rfl⟩
      · exact ⟨[], _, rfl, .nil, .one x h⟩
      · obtain ⟨t, rest, rfl, hf, hb⟩ := ih rfl
        exact ⟨x :: t, rest, rfl, .one x hf, hb⟩
    | @done pattern s h ih =>
      rcases append_eq_cons_iff.1 hw with ⟨rfl, rfl⟩ | ⟨front, rfl, rfl⟩
      · exact ⟨[], _, rfl, .nil, .done h⟩
      · obtain ⟨t, rest, rfl, hf, hb⟩ := ih rfl
        exact ⟨t, rest, rfl, .done hf, hb⟩
    | @more x pattern s h ih =>
      rcases append_eq_cons_iff.1 hw with ⟨rfl, rfl⟩ | ⟨front, rfl, rfl⟩
      · exact ⟨[], _, rfl, .nil, .more x h⟩
      · obtain ⟨t, rest, rfl, hf, hb⟩ := ih (rfl : (_ :: front) ++ back = _)
        exact ⟨x :: t, rest, rfl, .more x hf, hb⟩
  · rintro ⟨t, rest, rfl, hf, hb⟩
    induction hf with
    | nil => exact hb
    | lit hAny hOne _ ih => exact .lit hAny hOne ih
    | one x _ ih => exact .one x ih
    | done _ ih => exact .done ih
    | more x _ ih => exact .more x ih

lemma cons_congr {other : List α} (h : ∀ t, Glob any one pattern t ↔ Glob any one other t) :
    Glob any one (c :: pattern) s ↔ Glob any one (c :: other) s := by
  rw [← singleton_append, ← singleton_append (l := other), append_iff, append_iff]
  simp [h]

lemma any_extend (hNe : one ≠ any) {rest : List α} (hr : rest <:+ s)
    (h : Glob any one (any :: pattern) rest) : Glob any one (any :: pattern) s := by
  obtain ⟨tail, ht, hp⟩ := (any_iff hNe).1 h
  exact (any_iff hNe).2 ⟨tail, ht.trans hr, hp⟩

lemma any_any_iff (hNe : one ≠ any) :
    Glob any one (any :: any :: pattern) s ↔ Glob any one (any :: pattern) s := by
  constructor
  · intro h
    obtain ⟨rest, hr, h⟩ := (any_iff hNe).1 h
    exact any_extend hNe hr h
  · exact .done

end Glob

end Base
