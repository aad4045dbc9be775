import Sshfortress.Base.Bytes
import Sshfortress.Base.Glob

/-! Matching of user and host patterns, and of lists of them. -/
namespace Auth
open Base List

/-! Patterns. -/

/-- The loops of `match_pattern`: try every place at which some text is left. -/
def anyFrom (accept : Bytes → Bool) : Bytes → Bool
  | [] => false
  | c :: rest => accept (c :: rest) || anyFrom accept rest

/-- `*` is 42 and `?` is 63. -/
def matchPattern : Bytes → Bytes → Bool
  | s, [] => s.isEmpty
  | s, c :: pattern =>
    if c = 42 then
      match pattern with
      | [] => true
      | next :: after =>
        if next ≠ 63 ∧ next ≠ 42 then
          anyFrom (fun t => decide (t.head? = some next) && matchPattern t.tail after) s
        else anyFrom (fun t => matchPattern t (next :: after)) s
    else match s with
      | [] => false
      | x :: rest => if c ≠ 63 ∧ c ≠ x then false else matchPattern rest pattern

variable {s : Bytes}

lemma anyFrom_iff {accept : Bytes → Bool} :
    anyFrom accept s = true ↔ ∃ t, t <:+ s ∧ t ≠ [] ∧ accept t = true := by
  induction s with
  | nil =>
    simp only [anyFrom, Bool.false_eq_true, false_iff]
    rintro ⟨t, hs, hSome, -⟩
    exact hSome (suffix_nil.1 hs)
  | cons c rest ih =>
    rw [anyFrom, Bool.or_eq_true, ih]
    constructor
    · rintro (hh | ⟨t, hs, hl⟩)
      · exact ⟨c :: rest, suffix_refl _, by simp, hh⟩
      · exact ⟨t, hs.trans (suffix_cons c rest), hl⟩
    · rintro ⟨t, hs, hl⟩
      rcases suffix_cons_iff.1 hs with rfl | hr
      · exact .inl hl.2
      · exact .inr ⟨t, hr, hl⟩

/-- Several asterisks that end a pattern want some text, unlike a single one; anywhere
else they are as good as one. -/
def strict : Bytes → Bytes
  | [] => []
  | c :: rest =>
    if c = 42 ∧ rest.head? = some 42 then
      if rest.all (· = 42) then [63, 42] else strict rest
    else c :: strict rest

variable {pattern : Bytes}

lemma strict_nil_iff (h : ¬ pattern.all (· = 42) = true) : ¬ Glob 42 63 (strict pattern) [] := by
  induction pattern with
  | nil => simp at h
  | cons c rest ih =>
    rw [strict]
    split_ifs with hStars hAll
    · intro hg
      cases hg
    · exact ih hAll
    · intro hg
      cases hg with
      | done hr =>
        apply ih _ hr
        simpa using h

lemma strict_star {rest : Bytes} (h : ¬ rest.all (· = 42) = true) :
    ∃ tail, strict (42 :: rest) = 42 :: tail := by
  induction rest with
  | nil => simp at h
  | cons c rest ih =>
    rw [strict]
    by_cases hs : c = 42
    · subst hs
      rw [if_pos ⟨rfl, rfl⟩, if_neg h]
      exact ih (by simpa using h)
    · rw [if_neg (by simpa using hs)]
      exact ⟨_, rfl⟩

lemma glob_star (s : Bytes) : Glob 42 63 [42] s :=
  (Glob.any_iff (by decide)).2 ⟨[], nil_suffix, .nil⟩

lemma matchPattern_star (s : Bytes) (next : UInt8) (after : Bytes) :
    matchPattern s (42 :: next :: after) =
      if next ≠ 63 ∧ next ≠ 42 then
        anyFrom (fun t => decide (t.head? = some next) && matchPattern t.tail after) s
      else anyFrom (fun t => matchPattern t (next :: after)) s := by
  cases s with
  | nil => rw [matchPattern, if_pos rfl]
  | cons x rest => rw [matchPattern, if_pos rfl]

lemma matchPattern_cons {c : UInt8} (hs : c ≠ 42) (x : UInt8) (rest pattern : Bytes) :
    matchPattern (x :: rest) (c :: pattern) = true ↔ (c = 63 ∨ c = x) ∧ matchPattern rest pattern = true := by
  have hStep : matchPattern (x :: rest) (c :: pattern) =
    if c ≠ 63 ∧ c ≠ x then false else matchPattern rest pattern := by
    cases pattern <;> simp [matchPattern, hs]
  grind

/-- Behind an asterisk: a plain character is searched for, and anything else is tried
where some text is left. -/
lemma search_iff {after : Bytes} {next : UInt8}
    (ha : ∀ t, matchPattern t after = true ↔ Glob 42 63 (strict after) t)
    (hn : ∀ t, matchPattern t (next :: after) = true ↔ Glob 42 63 (strict (next :: after)) t) :
    matchPattern s (42 :: next :: after) = true ↔ Glob 42 63 (strict (42 :: next :: after)) s := by
  rw [matchPattern_star]
  by_cases hs : next = 42
  · subst hs
    rw [if_neg (by simp), anyFrom_iff, strict, if_pos ⟨rfl, rfl⟩]
    simp only [hn]
    split_ifs with hAll
    · rw [Glob.one_iff (by decide)]
      constructor
      · rintro ⟨t, hSuffix, hSome, -⟩
        cases s with
        | nil => exact absurd (suffix_nil.1 hSuffix) hSome
        | cons x rest => exact ⟨x, rest, rfl, glob_star rest⟩
      · rintro ⟨x, rest, rfl, -⟩
        refine ⟨x :: rest, suffix_refl _, by simp, ?_⟩
        rw [strict]
        split_ifs with hStars
        · exact .one x (glob_star rest)
        · simp_all
        · cases after with
          | nil => exact glob_star _
          | cons c after => simp_all
    · have ho : ¬after.all (· = 42) = true := by simpa using hAll
      obtain ⟨tail, ht⟩ := strict_star ho
      constructor
      · rintro ⟨t, hSuffix, -, hg⟩
        rw [ht] at hg ⊢
        exact Glob.any_extend (by decide) hSuffix hg
      · intro hg
        refine ⟨s, suffix_refl _, ?_, hg⟩
        rintro rfl
        exact strict_nil_iff hAll hg
  · have hStrict : strict (42 :: next :: after) = 42 :: next :: strict after := by
      rw [strict, if_neg (by simpa using hs), strict, if_neg fun h => hs h.1]
    have hr : strict (next :: after) = next :: strict after := by
      rw [strict, if_neg fun h => hs h.1]
    rw [hStrict, Glob.any_iff (by decide)]
    split_ifs with hp
    · rw [anyFrom_iff]
      apply exists_congr
      intro t
      rw [Glob.lit_iff hs hp.1, and_congr_right_iff]
      intro _
      cases t with
      | nil => simp
      | cons x rest => simp [ha]
    · rw [anyFrom_iff]
      apply exists_congr
      intro t
      rw [hn, hr, and_congr_right_iff]
      intro _
      have hOne : next = 63 := by simpa [hs] using hp
      subst hOne
      rw [Glob.one_iff (by decide)]
      cases t with
      | nil => simp
      | cons x rest => simp

lemma matchPattern_iff :
    matchPattern s pattern = true ↔ Glob 42 63 (strict pattern) s := by
  -- A pattern is taken apart by one character, or by two behind an asterisk.
  induction hLen : pattern.length using Nat.strong_induction_on generalizing s pattern with
  | _ length ih =>
    have hs : ∀ {t shorter : Bytes}, shorter.length < pattern.length →
      (matchPattern t shorter = true ↔ Glob 42 63 (strict shorter) t) := fun h => ih _ (hLen ▸ h) rfl
    rcases pattern with _ | ⟨c, pattern⟩
    · rw [matchPattern, strict, Glob.nil_iff, List.isEmpty_iff]
    by_cases hStar : c = 42
    · subst hStar
      rcases pattern with _ | ⟨next, after⟩
      · have hAny : matchPattern s [42] = true := by cases s <;> rfl
        simp only [hAny, true_iff]
        exact glob_star s
      · exact search_iff (fun t => hs (by simp only [length_cons]; omega))
          fun t => hs (by simp)
    · have hStrict : strict (c :: pattern) = c :: strict pattern := by
        rw [strict, if_neg fun h => hStar h.1]
      rw [hStrict]
      cases s with
      | nil =>
        have hEnd : matchPattern [] (c :: pattern) = false := by cases pattern <;> simp [matchPattern, hStar]
        simp only [hEnd, Bool.false_eq_true, false_iff]
        intro hg
        cases hg
        exact hStar rfl
      | cons x rest =>
        rw [matchPattern_cons hStar, hs (by simp)]
        by_cases hOne : c = 63
        · subst hOne
          rw [Glob.one_iff (by decide)]
          simp
        · rw [Glob.lit_iff hStar hOne]
          simp [hOne, eq_comm]

lemma strict_iff (h : ¬ [42, 42] <:+ pattern) : Glob 42 63 (strict pattern) s ↔ Glob 42 63 pattern s := by
  induction pattern generalizing s with
  | nil => rfl
  | cons c rest ih =>
    have hr : ∀ t, Glob 42 63 (strict rest) t ↔ Glob 42 63 rest t := fun t =>
      ih fun hSuffix => h (hSuffix.trans (suffix_cons c rest))
    rw [strict]
    split_ifs with hs hAll
    · obtain ⟨rfl, hh⟩ := hs
      obtain ⟨tail, rfl⟩ := head?_eq_some_iff.1 hh
      have hEnd : 42 :: 42 :: tail = List.replicate tail.length 42 ++ [42, 42] := by
        have ht : tail = List.replicate tail.length 42 := eq_replicate_iff.2 ⟨rfl, by simpa using hAll⟩
        rw [show ([42, 42] : Bytes) = List.replicate 2 42 from rfl, ← replicate_add, Nat.add_comm,
          replicate_add, ← ht]
        rfl
      exact absurd ⟨_, hEnd.symm⟩ h
    · obtain ⟨rfl, hh⟩ := hs
      obtain ⟨tail, rfl⟩ := head?_eq_some_iff.1 hh
      rw [hr, Glob.any_any_iff (by decide)]
    · exact Glob.cons_congr hr

lemma strict_stars_iff (front : Bytes) :
    Glob 42 63 (strict (front ++ [42, 42])) s ↔ Glob 42 63 (front ++ [63, 42]) s := by
  induction front generalizing s with
  | nil => rfl
  | cons c front ih =>
    rw [cons_append, strict]
    split_ifs with hs hAll
    · obtain ⟨rfl, -⟩ := hs
      have hf : ∀ t, Glob 42 63 (front ++ [63, 42]) t ↔ Glob 42 63 [63, 42] t := by
        intro t
        rw [← ih]
        cases front with
        | nil => rfl
        | cons c front =>
          rw [all_eq_true] at hAll
          have hh : c = 42 := by simpa using hAll c (by simp)
          have ht : ∀ x ∈ front, x = 42 := fun x hx => by simpa using hAll x (by simp [hx])
          rw [cons_append, strict, if_pos, if_pos]
          · simpa using ht
          · refine ⟨hh, ?_⟩
            cases front with
            | nil => rfl
            | cons x front => simpa using ht x (by simp)
      rw [cons_append, Glob.cons_congr hf]
      constructor
      · exact .done
      · intro hg
        obtain ⟨rest, hr, hg⟩ := (Glob.any_iff (by decide)).1 hg
        obtain ⟨x, tail, rfl, -⟩ := (Glob.one_iff (by decide)).1 hg
        cases s with
        | nil => simp at hr
        | cons y s => exact .one y (glob_star s)
    · obtain ⟨rfl, hHead⟩ := hs
      cases front with
      | nil => simp at hAll
      | cons x front =>
        obtain rfl : x = 42 := by simpa using hHead
        rw [ih, cons_append, cons_append, cons_append, Glob.any_any_iff (by decide)]
    · exact Glob.cons_congr fun t => ih

/-- The text is in the language of the pattern, and nothing shorter that it starts with is. -/
def Shortest (pattern s : Bytes) : Prop :=
  Glob 42 63 pattern s ∧ ∀ t, t <+: s → t ≠ s → ¬ Glob 42 63 pattern t

/-- `match_pattern` decides the language of its pattern, unless the pattern ends in two
asterisks and there is no text left for them. -/
theorem matchPattern_language (s pattern : Bytes) : (matchPattern s pattern = true ↔ Glob 42 63 pattern s) ↔
    ¬ ∃ front, pattern = front ++ [42, 42] ∧ Shortest front s := by
  rw [matchPattern_iff]
  by_cases hEnd : [42, 42] <:+ pattern
  · obtain ⟨front, rfl⟩ := hEnd
    have hAny : Glob 42 63 (front ++ [42, 42]) s ↔ ∃ t, t <+: s ∧ Glob 42 63 front t := by
      rw [Glob.append_iff]
      constructor
      · rintro ⟨t, rest, rfl, hFront, -⟩
        exact ⟨t, prefix_append t rest, hFront⟩
      · rintro ⟨t, ⟨rest, rfl⟩, hFront⟩
        exact ⟨t, rest, rfl, hFront, .done (glob_star rest)⟩
    have hSome : Glob 42 63 (front ++ [63, 42]) s ↔ ∃ t, t <+: s ∧ t ≠ s ∧ Glob 42 63 front t := by
      rw [Glob.append_iff]
      constructor
      · rintro ⟨t, rest, rfl, hFront, hRest⟩
        obtain ⟨x, tail, rfl, -⟩ := (Glob.one_iff (by decide)).1 hRest
        exact ⟨t, prefix_append t _, by simp, hFront⟩
      · rintro ⟨t, ⟨rest, rfl⟩, hShort, hFront⟩
        cases rest with
        | nil => simp at hShort
        | cons x tail => exact ⟨t, x :: tail, rfl, hFront, .one x (glob_star tail)⟩
    rw [strict_stars_iff, hSome, hAny]
    constructor
    · rintro hSame ⟨other, hOther, hGlob, hShortest⟩
      obtain rfl := append_cancel_right hOther
      obtain ⟨t, hPrefix, hShort, hFront⟩ := hSame.2 ⟨s, prefix_refl s, hGlob⟩
      exact hShortest t hPrefix hShort hFront
    · intro hNot
      refine ⟨fun ⟨t, hPrefix, _, hFront⟩ => ⟨t, hPrefix, hFront⟩, fun ⟨t, hPrefix, hFront⟩ => ?_⟩
      by_contra hNone
      have hWhole : t = s := by
        by_contra hShort
        exact hNone ⟨t, hPrefix, hShort, hFront⟩
      subst hWhole
      exact hNot ⟨front, rfl, hFront, fun u hu hShort hGlob => hNone ⟨u, hu, hShort, hGlob⟩⟩
  · refine iff_of_true (strict_iff hEnd) ?_
    rintro ⟨front, rfl, -⟩
    exact hEnd (suffix_append front [42, 42])

/-- Two asterisks do not match the empty text. -/
theorem matchPattern_two_stars : ¬ ∀ s pattern, matchPattern s pattern = true ↔ Glob 42 63 pattern s := by
  intro hClaim
  have hMatch := (hClaim [] [42, 42]).2 (.done (.done .nil))
  cases hMatch

def toLower (c : UInt8) : UInt8 := if 65 ≤ c ∧ c ≤ 90 then c + 32 else c

/-- An element of a list: `!` (33) in front of it negates it. -/
structure Element where
  negated : Bool
  body : Bytes
  deriving DecidableEq

def readElement (element : Bytes) : Element :=
  if element.head? = some 33 then ⟨true, element.tail⟩ else ⟨false, element⟩

/-- The loop of `match_pattern_list` over the elements it finds. -/
def matchElements (string : Bytes) (lower : Bool) : List Bytes → Bool → Int
  | [], gotPositive => if gotPositive then 1 else 0
  | element :: rest, gotPositive =>
    let sub := (readElement element).body
    if 1023 ≤ sub.length then 0
    else if matchPattern string (if lower then sub.map toLower else sub) then
      if (readElement element).negated then -1 else matchElements string lower rest true
    else matchElements string lower rest gotPositive

/-- Nothing is looked for behind a comma that ends the list. -/
def listElements (list : Bytes) : List Bytes :=
  if (list.splitOn 44).getLast? = some [] then (list.splitOn 44).dropLast else list.splitOn 44

def matchPatternList (string pattern : Bytes) (lower : Bool) : Int :=
  matchElements string lower (listElements pattern) false

def matchHostname (host pattern : Bytes) : Int := matchPatternList host pattern true

lemma matchElements_range (string : Bytes) (lower : Bool) (elements : List Bytes) (got : Bool) :
    matchElements string lower elements got = -1 ∨ matchElements string lower elements got = 0 ∨
      matchElements string lower elements got = 1 := by
  induction elements generalizing got with
  | nil => cases got <;> simp [matchElements]
  | cons element rest ih =>
    rw [matchElements]
    split_ifs
    · simp
    · simp
    · exact ih _
    · exact ih _
    · simp
    · exact ih _
    · exact ih _

def elementMatches (string : Bytes) (lower : Bool) (element : Bytes) : Bool :=
  matchPattern string (if lower then (readElement element).body.map toLower else (readElement element).body)

/-- What a list of elements comes to, whatever their order. -/
lemma matchElements_eq {string : Bytes} {lower : Bool} {elements : List Bytes} {got : Bool}
    (hs : ∀ e ∈ elements, (readElement e).body.length < 1023) :
    matchElements string lower elements got =
      if ∃ e ∈ elements, (readElement e).negated = true ∧ elementMatches string lower e = true then -1
      else if got = true ∨ ∃ e ∈ elements, (readElement e).negated = false ∧ elementMatches string lower e = true then 1
      else 0 := by
  induction elements generalizing got with
  | nil => simp [matchElements]
  | cons element rest ih =>
    rw [forall_mem_cons] at hs
    simp only [matchElements, if_neg (Nat.not_le.2 hs.1), ih hs.2, exists_mem_cons_iff]
    change (if elementMatches string lower element = true then _ else _) = _
    by_cases hm : elementMatches string lower element = true
    · cases hNegated : (readElement element).negated <;> simp [hm]
    · simp [hm]

lemma toLower_eq_iff {c d : UInt8} (h : d < 65) : toLower c = d ↔ c = d := by
  unfold toLower
  split
  · grind
  · rfl

lemma readElement_lower (element : Bytes) :
    readElement (element.map toLower) = ⟨(readElement element).negated, (readElement element).body.map toLower⟩ := by
  have hm : ∀ c, toLower c = 33 ↔ c = 33 := fun c => toLower_eq_iff (by decide)
  cases element with
  | nil => rfl
  | cons c rest => by_cases hc : c = 33 <;> simp [readElement, hm, hc]

lemma matchElements_lower (string : Bytes) (elements : List Bytes) (got : Bool) :
    matchElements string true elements got = matchElements string false (elements.map (·.map toLower)) got := by
  induction elements generalizing got with
  | nil => rfl
  | cons element rest ih => simp [matchElements, readElement_lower, ih]

lemma listElements_intercalate {elements : List Bytes} (hc : ∀ e ∈ elements, 44 ∉ e) (hs : ∀ e ∈ elements, e ≠ []) :
    listElements ([44].intercalate elements) = elements := by
  rw [listElements]
  by_cases hn : elements = []
  · subst hn
    rfl
  · rw [splitOn_intercalate _ hc hn, if_neg]
    intro hl
    exact hs [] (mem_of_getLast? hl) rfl

/-- A list of patterns: a negated one that matches rules, then any other that matches, in
whatever order they stand; folding case is folding the case of the list. -/
theorem matchPatternList_eq (string : Bytes) (lower : Bool) {elements : List Bytes}
    (hComma : ∀ e ∈ elements, 44 ∉ e)
    (hBody : ∀ e ∈ elements, (readElement e).body ≠ [] ∧ (readElement e).body.length < 1023) :
    matchPatternList string ([44].intercalate elements) lower =
      (if ∃ e ∈ elements, (readElement e).negated = true ∧ elementMatches string lower e = true then -1
      else if ∃ e ∈ elements, (readElement e).negated = false ∧ elementMatches string lower e = true then 1
      else 0) ∧
    matchPatternList string ([44].intercalate elements) true =
      matchPatternList string ([44].intercalate (elements.map (·.map toLower))) false ∧
    ∀ others, others.Perm elements →
      matchPatternList string ([44].intercalate others) lower =
        matchPatternList string ([44].intercalate elements) lower := by
  have hEmpty : ∀ {e : Bytes}, (readElement e).body ≠ [] → e ≠ [] := by
    rintro _ h rfl
    exact h rfl
  have hList : ∀ others : List Bytes, others.Perm elements →
    listElements ([44].intercalate others) = others := fun others hPerm =>
    listElements_intercalate (fun e he => hComma e (hPerm.mem_iff.1 he)) fun e he =>
      hEmpty (hBody e (hPerm.mem_iff.1 he)).1
  have hEq : ∀ others : List Bytes, others.Perm elements → _ := fun others hPerm =>
    @matchElements_eq string lower others false fun e he => (hBody e (hPerm.mem_iff.1 he)).2
  refine ⟨?_, ?_, fun others hPerm => ?_⟩
  · rw [matchPatternList, hList _ (.refl _), hEq _ (.refl _)]
    simp
  · have hFolded : listElements ([44].intercalate (elements.map (·.map toLower))) = elements.map (·.map toLower) := by
      apply listElements_intercalate
      · intro e he hMem
        obtain ⟨element, hElement, rfl⟩ := mem_map.1 he
        obtain ⟨c, hc, hSelf⟩ := mem_map.1 hMem
        exact hComma element hElement ((toLower_eq_iff (by decide)).1 hSelf ▸ hc)
      · intro e he
        obtain ⟨element, hElement, rfl⟩ := mem_map.1 he
        simpa using hEmpty (hBody element hElement).1
    rw [matchPatternList, matchPatternList, hList _ (.refl _), hFolded, matchElements_lower]
  · rw [matchPatternList, matchPatternList, hList others hPerm, hList _ (.refl _), hEq others hPerm, hEq _ (.refl _)]
    simp [hPerm.mem_iff]

theorem matchPatternList_eq_evil :
    matchPatternList (text "evil.example.org") (text "*.example.org,!evil*") true = -1 ∧
      matchPatternList (text "evil.example.org") (text "!evil*,*.example.org") true = -1 := by
  obtain ⟨hEq, -, hOrder⟩ := matchPatternList_eq (text "evil.example.org") true
    (show ∀ e ∈ [text "*.example.org", text "!evil*"], 44 ∉ e by decide) (by decide)
  have hNegated : matchPatternList (text "evil.example.org") (text "*.example.org,!evil*") true = -1 :=
    hEq.trans (by decide)
  exact ⟨hNegated, (hOrder [text "!evil*", text "*.example.org"] (.swap ..)).trans hNegated⟩

end Auth
