import Mathlib

/-! Streams under credit: a sender spends credit that the receiver gives back when it
has dealt with what arrived. Everything is counted in the same unit. -/
namespace Base.Credit

/-- One direction of a stream: the credit the sender has left, what it sent that has not
arrived, the credit that is on its way back, what the receiver is ready to take, and
what it still has to give back. -/
structure Account where
  (granted flying returning window held : Nat)

inductive Move : Account → Account → Prop where
  | send (a : Account) (n : Nat) (h : n ≤ a.granted) :
      Move a { a with granted := a.granted - n, flying := a.flying + n }
  | arrive (a : Account) (n : Nat) (h : n ≤ a.flying) :
      Move a { a with flying := a.flying - n, window := a.window - n, held := a.held + n }
  | discard (a : Account) (n : Nat) (h : n ≤ a.held) : Move a { a with held := a.held - n }
  | adjust (a : Account) (n : Nat) (h : n ≤ a.held) :
      Move a { a with returning := a.returning + n, window := a.window + n, held := a.held - n }
  | regain (a : Account) (n : Nat) (h : n ≤ a.returning) :
      Move a { a with granted := a.granted + n, returning := a.returning - n }

abbrev Moves : Account → Account → Prop := Relation.ReflTransGen Move

/-- All credit is somewhere, and together with what is held it does not exceed the
limit. -/
structure Sound (limit : Nat) (a : Account) : Prop where
  balanced : a.granted + a.flying + a.returning = a.window
  bounded : a.window + a.held ≤ limit

variable {limit : Nat} {a : Account}

lemma Move.sound {b : Account} (h : Move a b) (hs : Sound limit a) : Sound limit b := by
  obtain ⟨hBalanced, hBounded⟩ := hs
  cases h with
  | send n h => constructor <;> dsimp only <;> omega
  | arrive n h => constructor <;> dsimp only <;> omega
  | discard n h => constructor <;> dsimp only <;> omega
  | adjust n h => constructor <;> dsimp only <;> omega
  | regain n h => constructor <;> dsimp only <;> omega

lemma Moves.sound {b : Account} (h : Moves a b) (hs : Sound limit a) : Sound limit b := by
  induction h with
  | refl => exact hs
  | tail _ hm ih => exact hm.sound ih

lemma Sound.flying_le (h : Sound limit a) : a.flying ≤ a.window := by
  have hBalanced := h.balanced
  omega

lemma Sound.returning_le (h : Sound limit a) : a.granted + a.returning ≤ limit := by
  have hBalanced := h.balanced
  have hBounded := h.bounded
  omega

end Base.Credit
