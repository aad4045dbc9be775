import Mathlib

/-! One direction of a conversation over a link that keeps the order of words. A party that has
said its last word says nothing more, and the other party has heard everything once it has heard
that word. -/
namespace Base.LastWord

variable {W : Type} {isLast : W → Bool}

/-- Whether the speaker has said its last word, whether it was heard, and what is on its way. -/
inductive Direction (isLast : W → Bool) : Bool → Bool → List W → Prop where
  | speaking {flying : List W} (hWords : ∀ word ∈ flying, isLast word = false) :
      Direction isLast false false flying
  | finished {front : List W} {word : W} (hWords : ∀ word ∈ front, isLast word = false)
      (hLast : isLast word = true) : Direction isLast true false (front ++ [word])
  | heard : Direction isLast true true []

variable {spoke heard : Bool} {flying : List W}

lemma Direction.start : Direction isLast false false [] := .speaking nofun

lemma Direction.silent (h : Direction isLast spoke heard flying) (hh : heard = true) :
    flying = [] ∧ spoke = true := by
  cases h with
  | speaking => cases hh
  | finished => cases hh
  | heard => exact ⟨rfl, rfl⟩

lemma Direction.more {words : List W} (h : Direction isLast false heard flying)
    (hWords : ∀ word ∈ words, isLast word = false) : Direction isLast false heard (flying ++ words) := by
  cases h with
  | speaking hf => exact .speaking (List.forall_mem_append.2 ⟨hf, hWords⟩)

lemma Direction.ends {word : W} (h : Direction isLast false heard flying)
    (hLast : isLast word = true) : Direction isLast true heard (flying ++ [word]) := by
  cases h with
  | speaking hf => exact .finished hf hLast

lemma Direction.hears {word : W} (h : Direction isLast spoke heard (word :: flying)) :
    heard = false ∧ Direction isLast spoke (isLast word) flying := by
  generalize hAll : word :: flying = all at h
  cases h with
  | speaking hWords =>
    subst hAll
    rw [hWords word List.mem_cons_self]
    exact ⟨rfl, .speaking fun later hMem => hWords later (.tail _ hMem)⟩
  | @finished front last hWords hLast =>
    refine ⟨rfl, ?_⟩
    cases front with
    | nil =>
      obtain ⟨rfl, rfl⟩ := List.cons.inj hAll
      rw [hLast]
      exact .heard
    | cons first front =>
      obtain ⟨rfl, rfl⟩ := List.cons.inj hAll
      rw [hWords word List.mem_cons_self]
      exact .finished (fun later hMem => hWords later (.tail _ hMem)) hLast
  | heard => cases hAll

end Base.LastWord
