import Sshfortress.Channel.Printing

/-! What scrolling does to the rows of the screen. The cells of the new rows are cleared, but
their sizes are those of the rows that were there before. -/
namespace Channel
open Base List
namespace Terminal

def rowText (line : Int) (t : Terminal) : Bytes := (printedColumns line t).flatMap (printedCell line t) ++ [10]

/-- How many rows leave the screen. -/
def leaving (t : Terminal) : Int := min (t.cY - height + 1) (height - 1)

/-- A cell of the three arrays that have one for each column. -/
def cell (t : Terminal) (row x : Int) : UInt8 × UInt8 × UInt8 :=
  (t.out (x + row * width), t.outMode (x + row * width), t.outCol (x + row * width))

/-- The rows that leave are printed in order, the others move up, and the new ones are blank. -/
structure ScrollsExactly (t next : Terminal) : Prop where
  printed : next.dst = t.dst ++ (List.range t.leaving.toNat).flatMap fun line : Nat => rowText line t
  moved : ∀ i, 0 ≤ i → i < height - t.leaving → next.outSize i = t.outSize (i + t.leaving) ∧
    ∀ x, 0 ≤ x → x < width → next.cell i x = t.cell (i + t.leaving) x
  blank : ∀ i, height - t.leaving ≤ i → i < height → next.outSize i = 0 ∧
    ∀ x, 0 ≤ x → x < width → next.cell i x = (32, 0, 0)

variable {t : Terminal}

/-- What a line that is printed is read from. -/
def screen (t : Terminal) : (Int → UInt8) × (Int → UInt8) × (Int → UInt8) × (Int → UInt8) × Int :=
  (t.out, t.outMode, t.outCol, t.outSize, t.maxcX)

lemma screen_printLines (count : Nat) : (printLines count t).screen = t.screen :=
  keeps_foldl screen fun _ _ => rfl

lemma rowText_congr {u : Terminal} (h : u.screen = t.screen) (line : Int) : rowText line u = rowText line t := by
  simp only [screen, Prod.mk.injEq] at h
  have hc : printedCell line u = printedCell line t := by
    funext x
    simp [printedCell, h]
  simp [rowText, printedColumns, hc, h]

lemma dst_printLines (count : Nat) :
    (printLines count t).dst = t.dst ++ (List.range count).flatMap fun line : Nat => rowText line t := by
  induction count with
  | zero => simp [printLines]
  | succ count ih =>
    have hl : printLines (count + 1) t = printLine count (printLines count t) := by
      simp [printLines, range_succ]
    rw [hl, printLine_eq, range_succ, flatMap_append, ← append_assoc, ← ih, append_assoc, flatMap_singleton,
      ← rowText_congr (screen_printLines count)]
    rfl

def scrolled (lines : Int) (cells : Int → UInt8) (value : UInt8) (i : Int) : UInt8 :=
  if (height - lines) * width ≤ i && i < (height - lines) * width + lines * width then value
  else if 0 ≤ i && i < (height - lines) * width then cells (i + lines * width)
  else cells i

lemma scrolled_row {lines i x : Int} (hRow : 0 ≤ i ∧ i < height) (hCol : 0 ≤ x ∧ x < width)
    (cells : Int → UInt8) (value : UInt8) :
    scrolled lines cells value (x + i * width) =
      if i < height - lines then cells (x + (i + lines) * width) else value := by
  have hp : x + i * width + lines * width = x + (i + lines) * width := by rw [Int.add_mul, Int.add_assoc]
  rw [scrolled, hp]
  unfold width height at *
  simp only [Bool.and_eq_true, decide_eq_true_eq]
  by_cases hm : i < 60 - lines
  · rw [if_neg (by omega), if_pos (by omega), if_pos hm]
  · rw [if_pos (by omega), if_neg hm]

lemma outSize_scroll (h : height ≤ t.cY) (i : Int) : (scroll t).outSize i =
    if 0 ≤ i ∧ i < height - t.leaving then t.outSize (i + t.leaving) else t.outSize i := by
  have hs : (printLines t.leaving.toNat t).outSize = t.outSize := congrArg (·.2.2.2.1) (screen_printLines _)
  rw [scroll, if_pos h, ← hs]
  simp only [clearCells, Int.mul_one, Bool.and_eq_true, decide_eq_true_eq]
  rfl

lemma cell_scroll (h : height ≤ t.cY) {i x : Int} (hRow : 0 ≤ i ∧ i < height) (hCol : 0 ≤ x ∧ x < width) :
    (scroll t).cell i x = if i < height - t.leaving then t.cell (i + t.leaving) x else (32, 0, 0) := by
  have hs := screen_printLines (t := t) t.leaving.toNat
  simp only [screen, Prod.mk.injEq] at hs
  have hc : (scroll t).cell i x = (scrolled t.leaving t.out 32 (x + i * width),
    scrolled t.leaving t.outMode 0 (x + i * width), scrolled t.leaving t.outCol 0 (x + i * width)) := by
    rw [← hs.1, ← hs.2.1, ← hs.2.2.1, cell, scroll, if_pos h]
    rfl
  rw [hc]
  simp only [scrolled_row hRow hCol]
  split_ifs <;> rfl

/-- Scrolling is exact if and only if the last rows have no size attribute. -/
theorem scroll_exact_iff {t : Terminal} (h : height ≤ t.cY) :
    ScrollsExactly t (scroll t) ↔ ∀ i, height - t.leaving ≤ i → i < height → t.outSize i = 0 := by
  have hLeaving : 1 ≤ t.leaving ∧ t.leaving < height := by
    unfold leaving height at *
    omega
  constructor
  · intro he i hLow hh
    rw [← (he.blank i hLow hh).1, outSize_scroll h, if_neg (by omega)]
  · intro hs
    refine ⟨?_, fun i hLow hh => ⟨?_, fun x hx hw => ?_⟩, fun i hLow hh => ⟨?_, fun x hx hw => ?_⟩⟩
    · rw [← dst_printLines, scroll, if_pos h]
      rfl
    · rw [outSize_scroll h, if_pos ⟨hLow, hh⟩]
    · rw [cell_scroll h ⟨hLow, by omega⟩ ⟨hx, hw⟩, if_pos hh]
    · rw [outSize_scroll h, if_neg (by omega)]
      exact hs i hLow hh
    · rw [cell_scroll h ⟨by omega, hh⟩ ⟨hx, hw⟩, if_neg (by omega)]

theorem scroll_exact_fresh : ScrollsExactly { fresh Emulator.start [] with cY := 60 }
  (scroll { fresh Emulator.start [] with cY := 60 }) := (scroll_exact_iff (by decide)).2 fun _ _ _ => rfl

/-- A double-width row at the bottom: the row that follows it is double-width too. -/
theorem scroll_keeps_size :
    let t := beforeScroll (ansiCopyLoop 60 (fresh (ansiInit Emulator.start)
      (List.replicate 59 10 ++ text "\x1b#6\n")))
    height ≤ t.cY ∧ ¬ ScrollsExactly t (scroll t) := by
  refine ⟨by decide +kernel, fun he => ?_⟩
  exact absurd (he.blank 59 (by decide +kernel) (by decide)).1 (by decide +kernel)

end Terminal
end Channel
