import Sshfortress.Kex.Lists

/-! Name lists that are put together. A name is looked for among the names before the first
empty element of the list so far. -/
namespace Kex
open Base List

/-- One turn of the loop, with the size of the buffer. -/
def addName (len : Nat) (ret p : Bytes) : Option Bytes :=
  if (matchList ret p).isSome then some ret
  else if len ≤ ret.length + 1 ∨ len ≤ ret.length + 1 + p.length then none
  else some (ret ++ 44 :: p)

def kexNamesCat (a b : Bytes) : Option Bytes :=
  if a = [] then none
  else if b = [] then some a
  else if 1024 * 1024 < b.length then none
  else (names b).foldlM (addName (a.length + b.length + 2)) a

/-- The list afterwards, or `none` for an error. -/
def kexAssembleNames (default : Bytes) : Option Bytes → Option Bytes
  | none | some [] => some default
  | some (c :: list) => if c = 43 then kexNamesCat default list else some (c :: list)

/-- A list with further names. -/
def behind (a : Bytes) (list : List Bytes) : Bytes := a ++ list.flatMap (44 :: ·)

def joined : List Bytes → Bytes
  | [] => []
  | p :: rest => behind p rest

/-- The names of the second list that are neither in the first nor earlier in the second are
added, in both functions. -/
def AddsNew (a : Bytes) (b : List Bytes) : Prop :=
  let new := (b.filter (· ∉ a.splitOn 44)).eraseDups
  kexNamesCat a (joined b) = some (behind a new) ∧ kexAssembleNames a (some (43 :: joined b)) = some (behind a new)

/-- The names that are added behind those that were. -/
def added (list : List Bytes) : List Bytes → List Bytes → List Bytes
  | done, [] => done
  | done, p :: rest =>
    if p ∈ (list ++ done).takeWhile (· ≠ []) then added list done rest else added list (done ++ [p]) rest

variable {a : Bytes} {b list done : List Bytes}

lemma splitOn_behind (h : ∀ p ∈ done, 44 ∉ p) : (behind a done).splitOn 44 = a.splitOn 44 ++ done := by
  induction done generalizing a with
  | nil => simp [behind]
  | cons p done ih =>
    obtain ⟨hp, h⟩ := forall_mem_cons.1 h
    have hNext : behind a (p :: done) = behind (a ++ 44 :: p) done := by simp [behind]
    rw [hNext, ih h, splitOn_append_cons_self, splitOn_eq_singleton hp, append_assoc, singleton_append]

lemma behind_inj (hd : ∀ p ∈ done, 44 ∉ p) (hl : ∀ p ∈ list, 44 ∉ p) :
    behind a done = behind a list ↔ done = list := by
  refine ⟨fun h => ?_, congrArg _⟩
  have hParts := congrArg (List.splitOn 44) h
  rw [splitOn_behind hd, splitOn_behind hl] at hParts
  exact append_cancel_left hParts

lemma matchList_behind {p : Bytes} (h : ∀ p ∈ done, 44 ∉ p) (hp : p ≠ [] ∧ 44 ∉ p) :
    (matchList (behind a done) p).isSome ↔ p ∈ (a.splitOn 44 ++ done).takeWhile (· ≠ []) := by
  simp [matchList, names, splitOn_behind h, splitOn_eq_singleton hp.2, hp.1, maxProp]

lemma foldlM_addName {len : Nat} (hd : ∀ p ∈ done, 44 ∉ p) (hb : ∀ p ∈ b, p ≠ [] ∧ 44 ∉ p)
    (hLen : (behind a (done ++ b)).length < len) :
    b.foldlM (addName len) (behind a done) = some (behind a (added (a.splitOn 44) done b)) := by
  induction b generalizing done with
  | nil => rfl
  | cons p rest ih =>
    obtain ⟨hp, hr⟩ := forall_mem_cons.1 hb
    have hSame : (matchList (behind a done) p).isSome ↔ _ := matchList_behind hd hp
    rw [foldlM_cons, addName, added]
    by_cases hSeen : p ∈ (a.splitOn 44 ++ done).takeWhile (· ≠ [])
    · rw [if_pos (hSame.2 hSeen), if_pos hSeen]
      refine ih hd hr (Nat.lt_of_le_of_lt ?_ hLen)
      simp only [behind, flatMap_append, flatMap_cons, length_append]
      omega
    · have hRoom : (behind a done).length + 1 + p.length < len := by
        simp only [behind, flatMap_append, flatMap_cons, length_append, length_cons] at hLen ⊢
        omega
      have hNext : behind a done ++ 44 :: p = behind a (done ++ [p]) := by simp [behind]
      rw [if_neg (mt hSame.1 hSeen), if_neg (by omega), if_neg hSeen, hNext]
      refine ih ?_ hr (by simpa using hLen)
      intro q hq
      rcases mem_append.1 hq with hq | hq
      · exact hd q hq
      · exact mem_singleton.1 hq ▸ hp.2

lemma added_eq (hl : [] ∉ list) (hd : [] ∉ done) (hb : [] ∉ b) :
    added list done b = done ++ (b.filter (· ∉ list ++ done)).eraseDups := by
  induction b generalizing done with
  | nil => simp [added]
  | cons p rest ih =>
    have hAll : (list ++ done).takeWhile (· ≠ []) = list ++ done :=
      takeWhile_eq_self_iff.2 fun q hq => by grind
    obtain ⟨hp, hr⟩ := not_or.1 (mt mem_cons.2 hb)
    rw [added, hAll]
    split_ifs with hSeen
    · rw [ih hd hr, filter_cons_of_neg (by simp [hSeen])]
    · rw [ih (by simp [hd, hp]) hr, filter_cons_of_pos (by simpa using hSeen), eraseDups_cons, filter_filter, append_assoc,
        singleton_append]
      congr 3
      grind

lemma added_of_mem (hl : [] ∈ list) : added list done b = done ++ b.filter (· ∉ list.takeWhile (· ≠ [])) := by
  induction b generalizing done with
  | nil => simp [added]
  | cons p rest ih =>
    have hFront : (list ++ done).takeWhile (· ≠ []) = list.takeWhile (· ≠ []) := by
      rw [takeWhile_append, if_neg]
      intro hAll
      have hSelf := ( takeWhile_prefix (p := (· ≠ [])) (l := list)).eq_of_length hAll
      exact absurd (mem_takeWhile_imp (hSelf ▸ hl)) (by simp)
    rw [added, hFront]
    split_ifs with hSeen
    · rw [ih, filter_cons_of_neg (by simpa using hSeen)]
    · rw [ih, filter_cons_of_pos (by simpa using hSeen), append_assoc, singleton_append]

/-- The names are added as they should be exactly when the first list has no empty element, or
no name depends on what is behind it. -/
theorem adds_new_iff (ha : a ≠ []) (hb : ∀ p ∈ b, p ≠ [] ∧ 44 ∉ p) (hSize : (joined b).length ≤ 1024 * 1024) :
    AddsNew a b ↔ [] ∉ a.splitOn 44 ∨
      (∀ p ∈ b, p ∈ a.splitOn 44 → p ∈ names a) ∧ (b.filter (· ∉ names a)).eraseDups = b.filter (· ∉ names a) := by
  have hCat : kexNamesCat a (joined b) = some (behind a (added (a.splitOn 44) [] b)) := by
    rw [kexNamesCat, if_neg ha]
    cases b with
    | nil => simp [joined, behind, added]
    | cons p rest =>
      have hNames : names (joined (p :: rest)) = p :: rest := by
        rw [names, joined, splitOn_behind fun q hq => (hb q (.tail _ hq)).2, splitOn_eq_singleton (hb p mem_cons_self).2]
        exact takeWhile_eq_self_iff.2 fun q hq => decide_eq_true (hb q hq).1
      have hSome : joined (p :: rest) ≠ [] := by simp [joined, behind, (hb p mem_cons_self).1]
      have hLen : (behind a (p :: rest)).length < a.length + (joined (p :: rest)).length + 2 := by
        simp only [behind, joined, flatMap_cons, length_append, length_cons]
        omega
      have hFold := @foldlM_addName a _ [] _ (by simp) hb hLen
      rw [show behind a [] = a by simp [behind]] at hFold
      rw [if_neg hSome, if_neg (by omega), hNames, hFold]
  rw [AddsNew, kexAssembleNames, if_pos rfl, and_self, hCat, Option.some.injEq]
  by_cases hEmpty : [] ∈ a.splitOn 44
  · rw [added_of_mem hEmpty, nil_append, or_iff_right (not_not.2 hEmpty), ← names, behind_inj]
    · have hSame (h : ∀ p ∈ b, p ∈ a.splitOn 44 → p ∈ names a) :
          b.filter (· ∉ a.splitOn 44) = b.filter (· ∉ names a) := filter_congr fun p hp => by
        have hSub : p ∈ names a → p ∈ a.splitOn 44 := fun hn => ( takeWhile_prefix _).mem hn
        have hIn := h p hp
        grind
      constructor
      · intro h
        have hFound : ∀ p ∈ b, p ∈ a.splitOn 44 → p ∈ names a := by
          intro p hp hs
          by_contra hNot
          have hIn : p ∈ b.filter (· ∉ names a) := mem_filter.2 ⟨hp, by simpa using hNot⟩
          rw [h, mem_eraseDups, mem_filter] at hIn
          simp [hs] at hIn
        exact ⟨hFound, hSame hFound ▸ h.symm⟩
      · rintro ⟨hFound, hOnce⟩
        rw [hSame hFound, hOnce]
    · exact fun p hp => (hb p (mem_of_mem_filter hp)).2
    · exact fun p hp => (hb p (mem_of_mem_filter (mem_eraseDups.1 hp))).2
  · rw [added_eq hEmpty (by simp) (fun h => (hb _ h).1 rfl), append_nil]
    exact iff_of_true rfl (.inl hEmpty)

theorem adds_new_default : AddsNew (text "a,b") [text "c", text "a", text "c"] :=
  (adds_new_iff (by decide) (by decide) (by decide)).2 (.inl (by decide))

theorem adds_again : ¬ AddsNew (text "curve25519-sha256@libssh.org,,ext-info-c") [text "ext-info-c"] := by
  intro h
  exact absurd h.1 (by decide)

end Kex
