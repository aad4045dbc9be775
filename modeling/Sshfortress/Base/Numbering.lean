import Mathlib

/-! Numbers used under changing keys. Items are numbered one after the other; each one
is used together with the key of the moment, and a key that was replaced never comes
back. Numbers repeat after a full round, so a pair of key and number is new as long as
no key lasts for more than a round. -/
namespace Base.Numbering
open List
open Prod (fst)

variable {K N : Type}

/-- What decides the next pair: the keys drawn so far, the one in use, the one that waits
to replace it, the next number, and how many items were used under the key. -/
structure Lane (K N : Type) where
  drawn : Set K
  (key pending : Option K)
  number : N
  under : Nat

variable [Add N] [One N]

/-- What can happen, with the pair that is used on the way. -/
inductive Move : Lane K N → List (Option K × N) → Lane K N → Prop where
  | stay {l : Lane K N} : Move l [] l
  | use {l : Lane K N} : Move l [(l.key, l.number)]
      { l with number := l.number + 1, under := l.under + 1 }
  | change {l : Lane K N} {k : K} (h : l.pending = some k) : Move l [(l.key, l.number)]
      { l with number := l.number + 1, key := some k, pending := none, under := 0 }
  | draw {l : Lane K N} (k : K) (h : k ∉ l.drawn) :
      Move l [] { l with drawn := insert k l.drawn, pending := some k }
  | drop {l : Lane K N} : Move l [] { l with pending := none }

def keyed (past : List (Option K × N)) : List (K × N) :=
  past.filterMap fun entry => entry.1.map fun k => (k, entry.2)

def Numbered (number : Nat → N) (past : List (Option K × N)) : Prop :=
  ∀ i entry, past[i]? = some entry → entry.2 = number i

/-- No key is used at two places that are a round apart. -/
def Short (round : Nat) (past : List (Option K × N)) : Prop :=
  ∀ i j k, i < j → past[i]?.map fst = some (some k) → past[j]?.map fst = some (some k) → j - i < round

/-- A lane with its past: the last pairs are those under the key in use, and neither it nor
the one that waits was used before them. -/
structure Tracks (number : Nat → N) (past : List (Option K × N)) (l : Lane K N) : Prop where
  numbered : Numbered number past
  next : l.number = number past.length
  recent : ∃ older, past.map fst = older ++ List.replicate l.under l.key ∧
    ∀ k, l.key = some k → some k ∉ older
  used_drawn : ∀ k, some k ∈ past.map fst → k ∈ l.drawn
  key_drawn : ∀ k, l.key = some k → k ∈ l.drawn
  pending_new : ∀ k, l.pending = some k → k ∈ l.drawn ∧ some k ∉ past.map fst ∧ l.key ≠ some k

omit [Add N] [One N] in
lemma Numbered.snoc {number : Nat → N} {past : List (Option K × N)} (h : Numbered number past)
    (key : Option K) : Numbered number (past ++ [(key, number past.length)]) := by
  intro i entry he
  rw [getElem?_append] at he
  split_ifs at he with hOld
  · exact h i entry he
  · rw [getElem?_singleton] at he
    split_ifs at he with hLast
    cases he
    have hi : i = past.length := by omega
    rw [hi]

variable {round : Nat} {n : N} {k : K}

omit [Add N] [One N] in
lemma mem_fst_snoc {past : List (Option K × N)} {key : Option K}
    (h : some k ∈ (past ++ [(key, n)]).map fst) : some k ∈ past.map fst ∨ key = some k := by
  rw [map_append, mem_append] at h
  exact h.imp_right fun hl => (mem_singleton.1 hl).symm

variable {number : Nat → N} {past used : List (Option K × N)} {l next : Lane K N}

lemma Tracks.move (hs : ∀ n, number (n + 1) = number n + 1) (h : Tracks number past l)
    (hm : Move l used next) : Tracks number (past ++ used) next := by
  obtain ⟨older, hr, hOlder⟩ := h.recent
  cases hm with
  | stay => simpa using h
  | use =>
    have hKeys : (past ++ [(l.key, l.number)]).map fst = older ++ List.replicate (l.under + 1) l.key := by
      rw [map_append, hr, append_assoc, replicate_succ']
      rfl
    refine ⟨?_, ?_, ⟨older, hKeys, hOlder⟩, ?_, h.key_drawn, ?_⟩
    · rw [h.next]
      exact h.numbered.snoc l.key
    · rw [length_append, h.next]
      exact (hs _).symm
    · intro k hk
      exact (mem_fst_snoc hk).elim (h.used_drawn k) (h.key_drawn k)
    · intro k hk
      obtain ⟨hd, hUnused, ho⟩ := h.pending_new k hk
      exact ⟨hd, fun hu => (mem_fst_snoc hu).elim hUnused ho, ho⟩
  | @change new hp =>
    obtain ⟨hd, hUnused, ho⟩ := h.pending_new new hp
    refine ⟨?_, ?_, ⟨(past ++ [(l.key, l.number)]).map fst, ?_, ?_⟩, ?_, ?_, ?_⟩
    · rw [h.next]
      exact h.numbered.snoc l.key
    · rw [length_append, h.next]
      exact (hs _).symm
    · simp
    · intro k hk hu
      cases hk
      exact (mem_fst_snoc hu).elim hUnused ho
    · intro k hk
      exact (mem_fst_snoc hk).elim (h.used_drawn k) (h.key_drawn k)
    · intro k hk
      cases hk
      exact hd
    · intro k hk
      cases hk
  | draw k hNew =>
    rw [append_nil]
    refine ⟨h.numbered, h.next, ⟨older, hr, hOlder⟩, ?_, ?_, ?_⟩
    · intro other hu
      exact Set.mem_insert_of_mem k (h.used_drawn other hu)
    · intro other hKey
      exact Set.mem_insert_of_mem k (h.key_drawn other hKey)
    · intro other hp
      cases hp
      exact ⟨Set.mem_insert k l.drawn, fun hu => hNew (h.used_drawn k hu),
        fun hKey => hNew (h.key_drawn k hKey)⟩
  | drop =>
    rw [append_nil]
    refine ⟨h.numbered, h.next, ⟨older, hr, hOlder⟩, h.used_drawn, h.key_drawn, ?_⟩
    intro k hk
    cases hk

omit [Add N] [One N] in
lemma Short.snoc (h : Short round past) (ht : Tracks number past l)
    (hu : l.key ≠ none → l.under < round) : Short round (past ++ [(l.key, l.number)]) := by
  intro i j k ho hi hj
  obtain ⟨older, hr, hOlder⟩ := ht.recent
  have hLen : past.length = older.length + l.under := by
    have hc := congrArg List.length hr
    simpa using hc
  have hInside : ∀ n, n < past.length → (past ++ [(l.key, l.number)])[n]?.map fst = past[n]?.map fst := by
    intro n hn
    rw [getElem?_append_left hn]
  by_cases hl : j < past.length
  · rw [hInside i (by omega)] at hi
    rw [hInside j hl] at hj
    exact h i j k ho hi hj
  -- The later place is the new one, so the key is the one in use.
  have hEnd : j = past.length := by
    by_contra hBeyond
    rw [getElem?_eq_none (by rw [length_append]; simp; omega)] at hj
    cases hj
  subst hEnd
  have hKey : l.key = some k := by simpa using hj
  have hBound : l.under < round := hu (by rw [hKey]; simp)
  rw [hInside i ho, ← getElem?_map, hr] at hi
  have hPlace : older.length ≤ i := by
    by_contra hEarly
    rw [getElem?_append_left (by omega)] at hi
    exact hOlder k hKey (mem_of_getElem? hi)
  omega

lemma Short.move (h : Short round past) (ht : Tracks number past l)
    (hm : Move l used next) (hu : used ≠ [] → l.key ≠ none → l.under < round) :
    Short round (past ++ used) := by
  cases hm with
  | stay => simpa using h
  | use => exact h.snoc ht (hu (cons_ne_nil _ _))
  | change hPend => exact h.snoc ht (hu (cons_ne_nil _ _))
  | draw k hNew => simpa using h
  | drop => simpa using h

omit [Add N] [One N] in
/-- No pair is used twice, if equal numbers are whole rounds apart. -/
lemma nodup_keyed (hr : ∀ i j, i < j → number i = number j → round ≤ j - i)
    (hn : Numbered number past) (hs : Short round past) : (keyed past).Nodup := by
  rw [List.Nodup, keyed, pairwise_filterMap, pairwise_iff_getElem]
  intro i j hi hj ho first hf second hSnd hSame
  subst hSame
  obtain ⟨k, hKey, rfl⟩ := Option.map_eq_some_iff.1 hf
  obtain ⟨k', hk, hp⟩ := Option.map_eq_some_iff.1 hSnd
  obtain ⟨rfl, hNum⟩ := Prod.mk.inj hp
  have hApart := hs i j k' ho (by rw [getElem?_eq_getElem hi, Option.map_some, hKey])
    (by rw [getElem?_eq_getElem hj, Option.map_some, hk])
  have he : number i = number j := by
    rw [← hn i _ (getElem?_eq_getElem hi), ← hn j _ (getElem?_eq_getElem hj), hNum]
  have hFull := hr i j ho he
  omega

omit [Add N] [One N] in
lemma not_nodup_keyed {i j : Nat} (ho : i < j) (hi : past[i]? = some (some k, n))
    (hj : past[j]? = some (some k, n)) : ¬ (keyed past).Nodup := by
  rw [List.Nodup, keyed, pairwise_filterMap, pairwise_iff_getElem]
  intro hNe
  obtain ⟨hLow, hf⟩ := List.getElem?_eq_some_iff.1 hi
  obtain ⟨hh, hSnd⟩ := List.getElem?_eq_some_iff.1 hj
  exact hNe i j hLow hh ho (k, n) (by rw [hf]; rfl) (k, n) (by rw [hSnd]; rfl) rfl

end Base.Numbering
