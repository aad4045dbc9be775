import Sshfortress.Kex.Proposal

/-! Intersections of name lists. `match_list` splits both lists in place, stops at an empty
element, and has room for forty names of the server. -/
namespace Kex
open Base List

/-- The second loop of `match_list`, with the offset of the next name. What `strlen` finds is
the first element, since the comma behind it has become a null byte. -/
def matchFrom (sproposals : List Bytes) (strlen : Nat) : List Bytes → Nat → Option Bytes × Nat
  | [], _ => (none, strlen)
  | p :: rest, offset =>
    if p = [] then (none, strlen)
    else if p ∈ sproposals then (some p, if rest = [] then strlen else offset + p.length + 1)
    else matchFrom sproposals strlen rest (offset + p.length + 1)

def matchListNext (client server : Bytes) : Option Bytes × Nat :=
  matchFrom ((names server).take maxProp) ((client.splitOn 44).headD []).length (client.splitOn 44) 0

variable {sproposals tokens before after : List Bytes} {strlen offset : Nat} {name client server : Bytes}

lemma matchFrom_fst :
    (matchFrom sproposals strlen tokens offset).1 = (tokens.takeWhile (· ≠ [])).find? (sproposals.contains ·) := by
  induction tokens generalizing offset with
  | nil => rfl
  | cons p rest ih =>
    rw [matchFrom]
    by_cases he : p = []
    · simp [he]
    · by_cases hf : p ∈ sproposals
      · simp [he, hf]
      · rw [if_neg he, if_neg hf, ih]
        simp [he, hf]

lemma matchListNext_fst : (matchListNext client server).1 = matchList client server := matchFrom_fst

lemma matchFrom_found (hPre : ∀ p ∈ before, p ≠ [] ∧ p ∉ sproposals) (hs : name ≠ [])
    (hn : name ∈ sproposals) :
    matchFrom sproposals strlen (before ++ name :: after) offset =
      (some name, if after = [] then strlen else offset + ((before ++ [name]).map (·.length + 1)).sum) := by
  induction before generalizing offset with
  | nil => simp [matchFrom, hs, hn, Nat.add_assoc]
  | cons p before ih =>
    rw [forall_mem_cons] at hPre
    rw [cons_append, matchFrom, if_neg hPre.1.1, if_neg hPre.1.2, ih hPre.2]
    simp [Nat.add_assoc]

def listed (list : Bytes) : List Bytes := (list.splitOn 44).filter (· ≠ [])

def firstCommon (client server : Bytes) : Option Bytes := (listed client).find? ((listed server).contains ·)

def Followed (client name : Bytes) : Prop := (client.splitOn 44).idxOf name + 1 < (client.splitOn 44).length
  deriving Decidable

/-- Where what follows the name and its comma starts. -/
def offsetBehind (client name : Bytes) : Nat :=
  if Followed client name then
    (((client.splitOn 44).take ((client.splitOn 44).idxOf name + 1)).map (·.length + 1)).sum
  else client.length

/-- `match_list` looks at the name: it stands before any empty element, and on the server's
side among the first forty. -/
def Seen (client server name : Bytes) : Prop := name ∈ names client ∧ name ∈ (names server).take maxProp

lemma mem_listed_of_names {list : Bytes} (h : name ∈ names list) : name ∈ listed list :=
  mem_filter.2 ⟨( takeWhile_prefix _).mem h, mem_takeWhile_imp (p := (· ≠ [])) h⟩

lemma seen_of_matchList (h : matchList client server = some name) : Seen client server name :=
  ⟨mem_of_find?_eq_some h, by simpa using find?_some h⟩

lemma firstCommon_split (h : firstCommon client server = some name) :
    ∃ before after, client.splitOn 44 = before ++ name :: after ∧ name ≠ [] ∧ name ∉ before ∧
      (client.splitOn 44).idxOf name = before.length ∧ ∀ p ∈ before, p ≠ [] → p ∉ listed server := by
  obtain ⟨hServer, front, rest, hSplit, hf⟩ := find?_eq_some_iff_append.1 h
  obtain ⟨before, back, ht, hPre, hb⟩ := filter_eq_append_iff.1 hSplit
  obtain ⟨skipped, after, rfl, hSkipped, hn, -⟩ := filter_eq_cons_iff.1 hb
  have he : ∀ p ∈ before ++ skipped, p ≠ [] → p ∉ listed server := by
    intro p hp hs
    rcases mem_append.1 hp with hp | hp
    · simpa using hf p (hPre ▸ mem_filter.2 ⟨hp, by simpa using hs⟩)
    · exact absurd (by simpa using hs) (hSkipped p hp)
  have hs : name ≠ [] := by simpa using hn
  have hNot : name ∉ before ++ skipped := fun hMem => he name hMem hs (by simpa using hServer)
  refine ⟨before ++ skipped, after, by rw [ht, append_assoc], hs, hNot, ?_, he⟩
  rw [ht, ← append_assoc, idxOf_append_of_notMem hNot]
  simp

/-- The claim of `match_list`'s own comment, and what `next` should be. -/
def MatchesFirst (client server : Bytes) : Prop :=
  (matchListNext client server).1 = firstCommon client server ∧
    ∀ name, firstCommon client server = some name → (matchListNext client server).2 = offsetBehind client name

/-- The first common name is found, and what follows it, exactly when it is looked at and is
not the last of several names of the client. -/
theorem matchList_first (client server : Bytes) :
    MatchesFirst client server ↔ ∀ name, firstCommon client server = some name →
      Seen client server name ∧ ((client.splitOn 44).length = 1 ∨ Followed client name) := by
  rw [MatchesFirst, matchListNext_fst]
  cases hFirst : firstCommon client server with
  | none =>
    refine iff_of_true ⟨?_, by simp⟩ (by simp)
    rw [Option.eq_none_iff_forall_ne_some]
    intro name hFound
    obtain ⟨hClient, hServer⟩ := seen_of_matchList hFound
    have hCommon := find?_eq_none.1 hFirst name (mem_listed_of_names hClient)
    exact hCommon (by simpa using mem_listed_of_names (mem_of_mem_take hServer))
  | some name =>
    obtain ⟨before, after, hTokens, hSome, hNot, hIdx, hBefore⟩ := firstCommon_split hFirst
    simp only [Option.some.injEq, forall_eq']
    by_cases hSeen : Seen client server name
    · have hEarlier : ∀ p ∈ before, p ≠ [] := by
        have hMem := hSeen.1
        rw [names, hTokens] at hMem
        obtain ⟨front, rest, hFront, hFirstHere⟩ := eq_append_cons_of_mem hMem
        have hWhole := takeWhile_append_dropWhile (p := (· ≠ [])) (l := before ++ name :: after)
        rw [hFront, append_assoc, cons_append] at hWhole
        have hPlace : front.length = before.length := by
          have hIdxOf := congrArg (List.idxOf name) hWhole
          simpa [idxOf_append_of_notMem hFirstHere, idxOf_append_of_notMem hNot] using hIdxOf
        have hSame := append_inj hWhole hPlace
        intro p hp
        have hTaken : p ∈ (before ++ name :: after).takeWhile (· ≠ []) := by
          rw [hFront, hSame.1]
          exact mem_append_left _ hp
        simpa using mem_takeWhile_imp hTaken
      have hRun : matchListNext client server = (some name,
        if after = [] then ((client.splitOn 44).headD []).length else
          ((before ++ [name]).map (·.length + 1)).sum) := by
        rw [matchListNext, hTokens, matchFrom_found _ hSome hSeen.2, Nat.zero_add]
        refine fun p hp => ⟨hEarlier p hp, fun hThere => ?_⟩
        exact hBefore p hp (hEarlier p hp) (mem_listed_of_names (mem_of_mem_take hThere))
      have hFollowed : Followed client name ↔ after ≠ [] := by
        rw [Followed, hIdx, hTokens, length_append, length_cons, ← length_pos_iff]
        omega
      have hClient : client = [44].intercalate (before ++ name :: after) := by
        rw [← hTokens, intercalate_splitOn]
      rw [← matchListNext_fst, hRun, offsetBehind]
      simp only [hSeen, true_and]
      by_cases hLast : after = []
      · have hEnd : ¬ Followed client name := fun h => hFollowed.1 h hLast
        rw [if_pos hLast, if_neg hEnd, or_iff_left hEnd, hTokens, hClient, hLast]
        cases before with
        | nil => simp
        | cons b before => cases before <;> simp
      · have hMore := hFollowed.2 hLast
        rw [if_neg hLast, if_pos hMore, hIdx, hTokens, show before ++ name :: after = (before ++ [name]) ++ after by simp,
          take_left' (by simp)]
        exact iff_of_true rfl (.inr hMore)
    · refine iff_of_false (fun h => hSeen (seen_of_matchList h.1)) fun h => hSeen h.1

/-- The last of two names is found, and `next` points into the middle of the list. -/
theorem matchList_first_last : ¬ ∀ client server, MatchesFirst client server := by
  intro hClaim
  have hOffset := (hClaim (text "a,b") (text "b")).2 (text "b") (by decide)
  revert hOffset
  decide

end Kex
