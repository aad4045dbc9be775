import Sshfortress.Krl.Basic

/-! The tree of revoked serials. Ranges that overlap compare as equal, so that a search may end at
any of several nodes; the node it ends at is grown, and its neighbours are joined with it. -/
namespace Krl
open Base List

def serialCmp (a b : Range) : Ordering :=
  if b.lo ≤ a.hi ∧ a.lo ≤ b.hi then .eq
  else if a.lo < b.lo then .lt
  else .gt

/-- The loop over the predecessors, the nearest first. -/
lemma min_le_hi (ers crs : Range) : min crs.lo ers.lo ≤ ers.hi := (Nat.min_le_right ..).trans ers.le

lemma lo_le_max (ers crs : Range) : ers.lo ≤ max crs.hi ers.hi := ers.le.trans (Nat.le_max_right ..)

def checkPreds (ers : Range) : List Range → Range × List Range
  | [] => (ers, [])
  | crs :: rest =>
    if ers.lo ≠ 0 ∧ crs.hi < ers.lo - 1 then (ers, crs :: rest)
    else checkPreds ⟨min crs.lo ers.lo, ers.hi, min_le_hi ers crs⟩ rest

def checkSuccs (ers : Range) : List Range → Range × List Range
  | [] => (ers, [])
  | crs :: rest =>
    if ers.hi ≠ 2 ^ 64 - 1 ∧ (ers.hi + 1) % 2 ^ 64 < crs.lo then (ers, crs :: rest)
    else checkSuccs ⟨ers.lo, max crs.hi ers.hi, lo_le_max ers crs⟩ rest

/-- Where `RB_NFIND` may end in the tree: at a node that compares equal, or, if there is none,
between those that are less and those that are greater. -/
def NFind (t : List Range) (rs : Range) (k : Nat) : Prop :=
  (∃ ers ∈ t[k]?, serialCmp ers rs = .eq) ∨
    (∀ p ∈ t.take k, serialCmp p rs = .lt) ∧ ∀ s ∈ t.drop k, serialCmp s rs = .gt

/-- `insert_serial_range`, for the place where the search ends. -/
def insertSerialRange (t : List Range) (rs : Range) (k : Nat) : List Range :=
  let (ers, after) :=
    match t.drop k with
    | [] => (rs, [])
    | ers :: after => if serialCmp ers rs ≠ .eq then (rs, ers :: after) else (ers.join rs, after)
  let (ers, before) := checkPreds ers (t.take k).reverse
  let (ers, after) := checkSuccs ers after
  before.reverse ++ ers :: after

def findSerial (t : List Range) (serial : Nat) : Option Range :=
  t.find? fun ers => serialCmp ⟨serial, serial, Nat.le_refl _⟩ ers = .eq

/-- The trees that calls can lead to, the last call first, whatever the searches find. -/
inductive Inserted : List Range → List Range → Prop
  | empty : Inserted [] []
  | insert {calls t : List Range} {rs : Range} {k : Nat} :
      Inserted calls t → NFind t rs k → Inserted (rs :: calls) (insertSerialRange t rs k)

variable {a b ers : Range}

lemma serialCmp_eq_iff : serialCmp a b = .eq ↔ b.lo ≤ a.hi ∧ a.lo ≤ b.hi := by
  unfold serialCmp
  split_ifs with ho <;> simpa using ho

lemma serialCmp_ne_iff : (serialCmp a b = .lt ↔ a.hi < b.lo) ∧ (serialCmp a b = .gt ↔ b.hi < a.lo) := by
  have hA := a.le
  have hB := b.le
  unfold serialCmp
  split_ifs <;> simp <;> omega

lemma checkPreds_eq (ers : Range) (l : List Range) :
    checkPreds ers l = ers.joinPreds l ∧ (ers.joinPreds l).1.hi = ers.hi := by
  induction l generalizing ers with
  | nil => exact ⟨rfl, rfl⟩
  | cons crs rest ih =>
    have hs : (ers.lo ≠ 0 ∧ crs.hi < ers.lo - 1) ↔ crs.hi + 1 < ers.lo := by omega
    simp only [checkPreds, Range.joinPreds, hs]
    split_ifs
    · exact ⟨rfl, rfl⟩
    · exact ih _

lemma checkSuccs_eq {l : List Range} (hEnd : ers.hi < 2 ^ 64) (he : ∀ crs ∈ l, crs.hi < 2 ^ 64) :
    checkSuccs ers l = ers.joinSuccs l := by
  induction l generalizing ers with
  | nil => rfl
  | cons crs rest ih =>
    obtain ⟨hHere, hr⟩ := forall_mem_cons.1 he
    have hLe := crs.le
    have hs : (ers.hi ≠ 2 ^ 64 - 1 ∧ (ers.hi + 1) % 2 ^ 64 < crs.lo) ↔ ers.hi + 1 < crs.lo := by omega
    rw [checkSuccs, Range.joinSuccs, ih (by dsimp only; omega) hr]
    simp only [hs]

lemma checkSuccs_joinPreds {after : List Range} (front : List Range) (hEnd : ers.hi < 2 ^ 64)
    (he : ∀ crs ∈ after, crs.hi < 2 ^ 64) :
    checkSuccs (ers.joinPreds front).1 after = (ers.joinPreds front).1.joinSuccs after :=
  checkSuccs_eq ((checkPreds_eq ers front).2 ▸ hEnd) he

section Insert

variable {t : List Range} {rs : Range} {k : Nat}

lemma exists_nFind (ho : t.Pairwise Range.Before) (rs : Range) : ∃ k, NFind t rs k := by
  induction t with
  | nil => exact ⟨0, .inr ⟨nofun, nofun⟩⟩
  | cons ers t ih =>
    obtain ⟨hf, hr⟩ := pairwise_cons.1 ho
    have hLe := ers.le
    cases hCmp : serialCmp ers rs with
    | eq => exact ⟨0, .inl ⟨ers, rfl, hCmp⟩⟩
    | lt =>
      obtain ⟨k, hh | ⟨hl, hm⟩⟩ := ih hr
      · exact ⟨k + 1, .inl hh⟩
      · exact ⟨k + 1, .inr ⟨forall_mem_cons.2 ⟨hCmp, hl⟩, hm⟩⟩
    | gt =>
      refine ⟨0, .inr ⟨nofun, forall_mem_cons.2 ⟨hCmp, fun s hs => ?_⟩⟩⟩
      have hPre := hf s hs
      rw [serialCmp_ne_iff.2] at hCmp ⊢
      unfold Range.Before at hPre
      omega

/-- Where a search ends, all that is before ends before the end of what is inserted, and the first
range from there on does not end before it. -/
lemma NFind.near (h : NFind t rs k) (ho : (t.take k ++ t.drop k).Pairwise Range.Before) :
    (∀ p ∈ t.take k, p.hi ≤ rs.hi) ∧ ∀ s ∈ (t.drop k).head?, rs.lo ≤ s.hi := by
  have hLe := rs.le
  rcases h with ⟨ers, hh, hSame⟩ | ⟨hl, hm⟩
  · rw [← head?_drop] at hh
    obtain ⟨hLow, hHigh⟩ := serialCmp_eq_iff.1 hSame
    constructor
    · intro p hp
      have hPre := (pairwise_append.1 ho).2.2 p hp ers (mem_of_mem_head? hh)
      unfold Range.Before at hPre
      omega
    · intro s hs
      rwa [← Option.mem_unique hh hs]
  · constructor
    · intro p hp
      have hCmp := serialCmp_ne_iff.1.1 (hl p hp)
      omega
    · intro s hs
      have hCmp := serialCmp_ne_iff.2.1 (hm s (mem_of_mem_head? hs))
      have hLeS := s.le
      omega

lemma insertSerialRange_eq (hr : ∀ s ∈ (t.drop k).head?, rs.lo ≤ s.hi) (hEnd : rs.hi < 2 ^ 64)
    (he : ∀ ers ∈ t, ers.hi < 2 ^ 64) : insertSerialRange t rs k = rs.insertAt (t.take k) (t.drop k) := by
  have hl : ∀ s ∈ t.drop k, s.hi < 2 ^ 64 := fun s hs => he s (mem_of_mem_drop hs)
  rw [insertSerialRange, Range.insertAt]
  cases hd : t.drop k with
  | nil => simp [Range.place, (checkPreds_eq ..).1, checkSuccs_joinPreds _ hEnd (forall_mem_nil _)]
  | cons ers after =>
    rw [hd] at hl hr
    obtain ⟨hh, hRest⟩ := forall_mem_cons.1 hl
    have ho : serialCmp ers rs = .eq ↔ ers.lo ≤ rs.hi := by
      rw [serialCmp_eq_iff]
      exact and_iff_right (hr ers rfl)
    have hj : (ers.join rs).hi < 2 ^ 64 := Nat.max_lt.2 ⟨hh, hEnd⟩
    simp only [Range.place, ne_eq, ho, ite_not]
    split_ifs
    · simp [(checkPreds_eq ..).1, checkSuccs_joinPreds _ hj hRest]
    · simp [(checkPreds_eq ..).1, checkSuccs_joinPreds _ hEnd hl]

lemma insertSerialRange_spec (ho : t.Pairwise Range.Before) (hf : NFind t rs k) (hEnd : rs.hi < 2 ^ 64)
    (he : ∀ ers ∈ t, ers.hi < 2 ^ 64) : (insertSerialRange t rs k).Pairwise Range.Before ∧
      ∀ n, (∃ s ∈ insertSerialRange t rs k, s.Covers n) ↔ rs.Covers n ∨ ∃ s ∈ t, s.Covers n := by
  rw [← take_append_drop k t] at ho
  obtain ⟨hb, hr⟩ := hf.near ho
  have hs := Range.insertAt_spec ho hb hr
  rwa [← insertSerialRange_eq hr hEnd he, take_append_drop] at hs

end Insert

lemma Inserted.spec {calls t : List Range} (h : Inserted calls t) (hCalls : ∀ rs ∈ calls, rs.hi < 2 ^ 64) :
    t.Pairwise Range.Before ∧ ∀ serial, (∃ ers ∈ t, ers.Covers serial) ↔ ∃ rs ∈ calls, rs.Covers serial := by
  induction h with
  | empty => exact ⟨.nil, fun _ => Iff.rfl⟩
  | @insert calls t rs k hPre hf ih =>
    obtain ⟨hEnd, he⟩ := forall_mem_cons.1 hCalls
    obtain ⟨ho, hc⟩ := ih he
    -- A node ends where some call did.
    have hEnds : ∀ ers ∈ t, ers.hi < 2 ^ 64 := by
      intro ers hMem
      obtain ⟨rs, hRs, hHi⟩ := (hc ers.hi).1 ⟨ers, hMem, ers.le, Nat.le_refl _⟩
      exact Nat.lt_of_le_of_lt hHi.2 (he rs hRs)
    obtain ⟨hp, hInserted⟩ := insertSerialRange_spec ho hf hEnd hEnds
    refine ⟨hp, fun serial => ?_⟩
    rw [hInserted, hc, exists_mem_cons_iff]

/-- Whatever the searches find, the ranges stay apart and in order and hold the serials that were
inserted; a lookup finds these and no others, and the next search finds its place. -/
theorem revoked_serials {calls t : List Range} (h : Inserted calls t) (hCalls : ∀ rs ∈ calls, rs.hi < 2 ^ 64) :
    t.Pairwise Range.Before ∧ (∀ rs, ∃ k, NFind t rs k) ∧
      ∀ serial, ((∃ ers ∈ t, ers.Covers serial) ↔ ∃ rs ∈ calls, rs.Covers serial) ∧
        ((findSerial t serial).isSome = true ↔ ∃ rs ∈ calls, rs.Covers serial) := by
  obtain ⟨hOrder, hCovers⟩ := h.spec hCalls
  refine ⟨hOrder, exists_nFind hOrder, fun serial => ⟨hCovers serial, ?_⟩⟩
  have hSame (ers : Range) : serialCmp ⟨serial, serial, Nat.le_refl _⟩ ers = .eq ↔ ers.Covers serial :=
    serialCmp_eq_iff
  rw [← hCovers, findSerial, find?_isSome]
  simp [hSame]

/-- The whole range of serials, in two calls from both of its ends. -/
theorem revoked_serials_all : ∃ t, Inserted [⟨5, 2 ^ 64 - 1, by decide⟩, ⟨0, 4, by decide⟩] t ∧
    ((findSerial t 0).isSome = true ↔
      ∃ rs ∈ [(⟨5, 2 ^ 64 - 1, by decide⟩ : Range), ⟨0, 4, by decide⟩], rs.Covers 0) := by
  have hFirst : Inserted [⟨0, 4, by decide⟩] _ := .insert .empty (.inr ⟨nofun, nofun⟩ : NFind [] _ 0)
  have hBehind : NFind [⟨0, 4, by decide⟩] ⟨5, 2 ^ 64 - 1, by decide⟩ 1 := .inr ⟨by decide, by decide⟩
  have hSecond := hFirst.insert hBehind
  exact ⟨_, hSecond, ((revoked_serials hSecond (by decide)).2.2 0).2⟩

end Krl
