import Sshfortress.Krl.Generate

/-! The sections that the serials of a CA are written to, without the loop that writes
them, and how they look in the blob. -/
namespace Krl
open Base Base.Wire List

structure Group where
  kind : SerialSection
  first : Range
  later : List Range
  deriving DecidableEq

namespace Group

def ranges (g : Group) : List Range := g.first :: g.later

def last (g : Group) : Range := g.later.getLastD g.first

def add (g : Group) (r : Range) : Group := { g with later := g.later ++ [r] }

def span (g : Group) : Nat := g.last.hi - g.first.lo + 1

def serials (g : Group) : List Nat :=
  g.ranges.flatMap fun r => (List.range (Generator.contig r)).map (r.lo + ·)

def bitmap (g : Group) : Nat := (g.serials.map (· - g.first.lo)).foldl (fun bits n => bits ||| 1 <<< n) 0

def content (g : Group) : Bytes :=
  match g.kind with
  | .list => g.serials.flatMap putU64
  | .range => g.ranges.flatMap fun r => putU64 r.lo ++ putU64 r.hi
  | .bitmap => putU64 g.first.lo ++ putBignum2Bytes (bitmapToString g.bitmap)

def frame (g : Group) : Bytes := g.kind.type :: putString g.content

def InMemory (g : Group) : Prop := g.kind = .bitmap → g.span ≤ bitmapMax + 1

def InBlob (g : Group) : Prop := g.kind = .bitmap → g.span ≤ 16384
  deriving Decidable

def size (g : Group) : Nat :=
  5 + match g.kind with
    | .list => 8 * g.serials.length
    | .range => 16 * g.ranges.length
    | .bitmap => 13 + g.span / 8

end Group

/-- Where the sections end, from the open one on. -/
def groupsFrom (g : Group) : List Range → List Group
  | [] => [g]
  | r :: rest =>
    let (kind, force) := chooseNextState (some g.kind) (Generator.contig r) rest.head?.isNone (r.lo - g.last.hi)
      (Generator.gap r rest.head?)
    if force || kind ≠ g.kind || g.kind = .range then g :: groupsFrom ⟨kind, r, []⟩ rest
    else groupsFrom (g.add r) rest

def groups : List Range → List Group
  | [] => []
  | r :: rest =>
    groupsFrom ⟨(chooseNextState none (Generator.contig r) rest.head?.isNone 0 (Generator.gap r rest.head?)).1, r, []⟩ rest

/-! What the choice of a bitmap says. -/

variable {force final : Bool} {contig lastGap nextGap : Nat} {l : List Range}

lemma cheapest_bitmap {costBitmap costRange costList costBitmapRestart : Nat}
    (h : cheapest costBitmap costRange costList costBitmapRestart = (.bitmap, force)) :
    if force then costBitmapRestart ≤ costRange else costBitmap ≤ costRange ∧ costBitmap ≤ costBitmapRestart := by
  grind [cheapest]

/-- A long range is never put into a bitmap: a range section has at most 26 bytes. -/
lemma contig_of_chooseNextState_bitmap {state : Option SerialSection}
    (h : chooseNextState state contig final lastGap nextGap = (.bitmap, force)) : contig ≤ 208 := by
  have hc := cheapest_bitmap h
  have hRange : (8 + 2 * 64 + (if final then 0 else 8 + 64) + 7) / 8 ≤ 26 := by cases final <;> decide
  cases force with
  | false =>
    have hBitmap := hc.1
    omega
  | true =>
    have hRestart : _ ≤ _ := hc
    omega

/-- A bitmap goes on over small gaps only: a new one has a header of 9 bytes. -/
lemma lastGap_of_chooseNextState_bitmap
    (h : chooseNextState (some .bitmap) contig final lastGap nextGap = (.bitmap, false)) : lastGap ≤ 79 := by
  have hRestart := (cheapest_bitmap h).2
  omega

/-! The serials of a group. -/

namespace Group

variable {g : Group}

def Ordered (g : Group) : Prop := g.ranges.Pairwise Range.Before

lemma last_mem (g : Group) : g.last ∈ g.ranges := by
  unfold last ranges
  cases hl : g.later.getLast? with
  | none => simp [getLastD_eq_getLast?, hl]
  | some r => simp [getLastD_eq_getLast?, hl, mem_of_getLast? hl]

@[simp] lemma ranges_add (g : Group) (r : Range) : (g.add r).ranges = g.ranges ++ [r] := rfl

@[simp] lemma last_add (g : Group) (r : Range) : (g.add r).last = r := by simp [last, add]

variable {r : Range}

lemma Ordered.first_le (h : g.Ordered) (hMem : r ∈ g.ranges) : g.first.lo ≤ r.lo := by
  rcases mem_cons.1 hMem with rfl | hl
  · exact Nat.le_refl _
  · have hPre : Range.Before g.first r := (pairwise_cons.1 h).1 r hl
    have hFirst := g.first.le
    unfold Range.Before at hPre
    omega

lemma Ordered.le_last (h : g.Ordered) (hMem : r ∈ g.ranges) : r.hi ≤ g.last.hi := by
  have hEnd : g.ranges = g.ranges.dropLast ++ [g.last] := by
    have hs : g.ranges ≠ [] := cons_ne_nil _ _
    rw [last, ← getLast_eq_getLastD hs]
    exact (dropLast_concat_getLast hs).symm
  rw [Ordered, hEnd] at h
  rw [hEnd] at hMem
  rcases mem_append.1 hMem with he | hSame
  · have hPre := (pairwise_append.1 h).2.2 r he g.last (mem_singleton_self _)
    have hLast := g.last.le
    unfold Range.Before at hPre
    omega
  · rw [mem_singleton.1 hSame]

lemma mem_serials {n : Nat} : n ∈ g.serials ↔ ∃ r ∈ g.ranges, r.Covers n := by
  simp only [serials, mem_flatMap, mem_map, mem_range, Generator.contig, Range.Covers]
  refine exists_congr fun r => and_congr_right fun _ => ⟨?_, fun h => ⟨n - r.lo, by omega, by omega⟩⟩
  rintro ⟨i, hi, rfl⟩
  have hLe := r.le
  omega

lemma testBit_foldl (l : List Nat) (bits k : Nat) :
    (l.foldl (fun bits n => bits ||| 1 <<< n) bits).testBit k = true ↔ bits.testBit k = true ∨ k ∈ l := by
  induction l generalizing bits with
  | nil => simp
  | cons n l ih =>
    rw [foldl_cons, ih, Nat.testBit_or, Nat.one_shiftLeft, Nat.testBit_two_pow, mem_cons, Bool.or_eq_true,
      decide_eq_true_iff, or_assoc, @eq_comm _ n k]

lemma testBit_bitmap (h : g.Ordered) (k : Nat) :
    g.bitmap.testBit k = true ↔ ∃ r ∈ g.ranges, r.Covers (g.first.lo + k) := by
  have hf : ∀ n ∈ g.serials, g.first.lo ≤ n := by
    intro n hn
    obtain ⟨r, hr, hc⟩ := mem_serials.1 hn
    exact (h.first_le hr).trans hc.1
  rw [bitmap, testBit_foldl, Nat.zero_testBit, mem_map, ← mem_serials]
  constructor
  · rintro (hFalse | ⟨n, hn, rfl⟩)
    · cases hFalse
    · rwa [Nat.add_sub_cancel' (hf n hn)]
  · exact fun hn => .inr ⟨_, hn, Nat.add_sub_cancel_left ..⟩

lemma bitmapNbits_bitmap (h : g.Ordered) : bitmapNbits g.bitmap = g.span := by
  have hFirst := h.first_le g.last_mem
  have hLast := g.last.le
  have hTop : g.bitmap.testBit (g.last.hi - g.first.lo) = true :=
    (testBit_bitmap h _).2 ⟨g.last, g.last_mem, by omega, by omega⟩
  have hs : g.bitmap ≠ 0 := by
    intro hz
    rw [hz, Nat.zero_testBit] at hTop
    cases hTop
  have hb : g.bitmap < 2 ^ g.span := by
    refine Nat.lt_pow_two_of_testBit _ fun k hk => ?_
    rw [← Bool.not_eq_true, testBit_bitmap h]
    rintro ⟨r, hr, hc⟩
    have hEnd := h.le_last hr
    have hUpper := hc.2
    unfold span at hk
    omega
  rw [bitmapNbits, if_neg hs, span, Nat.add_right_cancel_iff, Nat.log2_eq_iff hs]
  exact ⟨Nat.ge_two_pow_of_testBit hTop, hb⟩

end Group

/-! How a bitmap is written. -/

section Bitmap

variable {bitmap : Nat}

lemma length_bitmapToString (bitmap : Nat) : (bitmapToString bitmap).length = (bitmapNbits bitmap + 7) / 8 :=
  digits_length ..

lemma lt_of_bitmapNbits (bitmap : Nat) : bitmap < 2 ^ bitmapNbits bitmap := by
  unfold bitmapNbits
  split_ifs with hz
  · simp [hz]
  · exact Nat.lt_log2_self

lemma value_bitmapToString (bitmap : Nat) : value (bitmapToString bitmap) = bitmap := by
  refine value_digits ?_
  calc bitmap < 2 ^ bitmapNbits bitmap := lt_of_bitmapNbits bitmap
    _ ≤ 2 ^ (8 * ((bitmapNbits bitmap + 7) / 8)) := Nat.pow_le_pow_right (by decide) (by omega)
    _ = 256 ^ ((bitmapNbits bitmap + 7) / 8) := by rw [Nat.pow_mul]

lemma head_bitmapToString (h : bitmap ≠ 0) :
    ∃ byte, (bitmapToString bitmap).head? = some byte ∧ byte ≠ 0 ∧ (128 ≤ byte ↔ bitmapNbits bitmap % 8 = 0) := by
  have hBits : bitmapNbits bitmap = bitmap.log2 + 1 := if_neg h
  have hw : (bitmapNbits bitmap + 7) / 8 = bitmap.log2 / 8 + 1 := by omega
  obtain ⟨hf, hTo⟩ := (Nat.log2_eq_iff h).1 rfl
  -- The byte holds the bits from the last multiple of 8 on.
  have hPos : 0 < 256 ^ (bitmap.log2 / 8) := Nat.pow_pos (by decide)
  have hLow : 2 ^ (bitmap.log2 % 8) ≤ bitmap / 256 ^ (bitmap.log2 / 8) := by
    rw [Nat.le_div_iff_mul_le hPos, show 256 = 2 ^ 8 from rfl, ← Nat.pow_mul, ← Nat.pow_add, Nat.mod_add_div]
    exact hf
  have hh : bitmap / 256 ^ (bitmap.log2 / 8) < 2 ^ (bitmap.log2 % 8 + 1) := by
    rw [Nat.div_lt_iff_lt_mul hPos, show 256 = 2 ^ 8 from rfl, ← Nat.pow_mul, ← Nat.pow_add, Nat.add_right_comm,
      Nat.mod_add_div]
    exact hTo
  have hs : bitmap.log2 % 8 + 1 ≤ 8 := Nat.mod_lt _ (by decide)
  have hb : (UInt8.ofNat (bitmap / 256 ^ (bitmap.log2 / 8))).toNat = bitmap / 256 ^ (bitmap.log2 / 8) :=
    Nat.mod_eq_of_lt (hh.trans_le (Nat.pow_le_pow_right (by decide) hs))
  refine ⟨UInt8.ofNat (bitmap / 256 ^ (bitmap.log2 / 8)), ?_, ?_, ?_⟩
  · rw [bitmapToString, hw, digits, head?_cons]
  · intro hz
    rw [hz, UInt8.toNat_zero] at hb
    omega
  · rw [UInt8.le_iff_toNat_le, hb, hBits]
    constructor
    · intro hTop
      by_contra hOther
      have hBound : 2 ^ (bitmap.log2 % 8 + 1) ≤ 2 ^ 7 := Nat.pow_le_pow_right (by decide) (by omega)
      exact absurd (hTop.trans_lt (hh.trans_le hBound)) (by decide)
    · intro hMultiple
      have hSeven : bitmap.log2 % 8 = 7 := by omega
      rw [hSeven] at hLow
      exact hLow

lemma length_putBignum2Bytes_bitmap (h : bitmap ≠ 0) :
    (putBignum2Bytes (bitmapToString bitmap)).length = 5 + bitmapNbits bitmap / 8 := by
  obtain ⟨byte, hh, hb, hHigh⟩ := head_bitmapToString h
  have hLen := length_bitmapToString bitmap
  rw [putBignum2Bytes_eq (by simpa [hh] using hb), length_putString, hh]
  by_cases hm : bitmapNbits bitmap % 8 = 0
  · simp [hHigh.2 hm, hLen]
    omega
  · have hLow : ¬128 ≤ byte := fun h => hm (hHigh.1 h)
    simp [hLow, hLen]
    omega

end Bitmap

variable {g : Group}

lemma Group.length_frame (h : g.Ordered) : g.frame.length = g.size := by
  rw [frame, length_cons, length_putString, content, size]
  cases g.kind with
  | list =>
    simp [length_flatMap, putU64, digits_length]
    omega
  | range =>
    simp [length_flatMap, putU64, digits_length]
    omega
  | bitmap =>
    have hs := bitmapNbits_bitmap h
    have hSome : g.bitmap ≠ 0 := by
      intro hz
      rw [hz] at hs
      cases hs
    simp only [length_append, putU64, digits_length, length_putBignum2Bytes_bitmap hSome, hs]
    omega

/-! The groups of a sequence of ranges are its parts. -/

lemma flatMap_ranges_groupsFrom (g : Group) (rest : List Range) :
    (groupsFrom g rest).flatMap Group.ranges = g.ranges ++ rest := by
  induction rest generalizing g with
  | nil => simp [groupsFrom]
  | cons r rest ih =>
    rw [groupsFrom]
    dsimp only
    split_ifs
    · rw [flatMap_cons, ih]
      rfl
    · rw [ih, Group.ranges_add, append_assoc]
      rfl

lemma flatMap_ranges_groups (l : List Range) : (groups l).flatMap Group.ranges = l := by
  cases l with
  | nil => rfl
  | cons r rest => exact flatMap_ranges_groupsFrom _ rest

lemma ordered_of_mem_groups (h : l.Pairwise Range.Before) (hMem : g ∈ groups l) : g.Ordered := by
  rw [← flatMap_ranges_groups l, flatMap_def] at h
  exact h.sublist (sublist_flatten_of_mem (mem_map_of_mem hMem))

lemma covers_groups (l : List Range) (n : Nat) :
    (∃ g ∈ groups l, ∃ r ∈ g.ranges, r.Covers n) ↔ ∃ r ∈ l, r.Covers n := by
  have hMem : ∀ r, r ∈ l ↔ ∃ g ∈ groups l, r ∈ g.ranges := by
    intro r
    rw [← mem_flatMap, flatMap_ranges_groups]
  constructor
  · rintro ⟨g, hg, r, hr, hc⟩
    exact ⟨r, (hMem r).2 ⟨g, hg, hr⟩, hc⟩
  · rintro ⟨r, hr, hc⟩
    obtain ⟨g, hg, hIn⟩ := (hMem r).1 hr
    exact ⟨g, hg, r, hIn, hc⟩

lemma single_of_mem_groupsFrom (h : g.kind = .range → g.later = []) (rest : List Range)
    {g' : Group} (hMem : g' ∈ groupsFrom g rest) (hr : g'.kind = .range) : g'.later = [] := by
  induction rest generalizing g with
  | nil =>
    rw [groupsFrom, mem_singleton] at hMem
    rw [hMem] at hr ⊢
    exact h hr
  | cons r rest ih =>
    rw [groupsFrom] at hMem
    dsimp only at hMem
    split_ifs at hMem with hNew
    · rcases mem_cons.1 hMem with rfl | hl
      · exact h hr
      · exact ih (fun _ => rfl) hl
    · refine ih (fun hk => ?_) hMem
      have ho : g.kind = .range := hk
      exact absurd (by simp [ho]) hNew

lemma single_of_mem_groups (hMem : g ∈ groups l) (hr : g.kind = .range) : g.later = [] := by
  cases l with
  | nil => cases hMem
  | cons r rest => exact single_of_mem_groupsFrom (fun _ => rfl) rest hMem hr

end Krl
