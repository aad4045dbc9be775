import Sshfortress.Channel.Screen

/-! Which cells `print_line` prints. How far it reads is decided by `max_cX`, one number for
all lines, to which a line with a size attribute contributes twice its columns. -/
namespace Channel
open Base List
namespace Terminal

def printedColumns (line : Int) (t : Terminal) : List Nat :=
  (List.range (t.maxcX + 1).toNat).filter fun x : Nat =>
    !((t.outSize line &&& 1 ≠ 0 || t.outSize line &&& 2 ≠ 0) && t.maxcX / 2 < x)

def printedCell (line : Int) (t : Terminal) (x : Nat) : Bytes :=
  let shown := if t.outMode (x + line * width) &&& 128 ≠ 0 then 32 else t.out (x + line * width)
  if t.outSize line &&& 1 ≠ 0 && !(t.outSize line &&& 2 ≠ 0) then [shown, 32] else [shown]

lemma printLine_eq (line : Int) (t : Terminal) : printLine line t = { t with
        dst := t.dst ++ (printedColumns line t).flatMap (printedCell line t) ++ [10]
        fault := t.fault || !InRows line ||
          (printedColumns line t).any fun x : Nat => !InScreen (x + line * width) } := by
  rfl

def printedCells (line : Int) (t : Terminal) : List Int :=
  (printedColumns line t).map fun x : Nat => x + line * width

/-- All cells read are of the line, and none is printed twice. -/
structure StaysInRow (line : Int) (t : Terminal) : Prop where
  inRow : ∀ i ∈ printedCells line t, line * width ≤ i ∧ i < (line + 1) * width
  once : (printedCells line t).Nodup

lemma nodup_printedCells (line : Int) (t : Terminal) : (printedCells line t).Nodup := by
  apply List.Nodup.map
  · intro x y hs
    dsimp only at hs
    omega
  · exact nodup_range.filter _

def Doubled (line : Int) (t : Terminal) : Prop := t.outSize line &&& 1 ≠ 0 ∨ t.outSize line &&& 2 ≠ 0

variable {t : Terminal}

lemma mem_printedColumns {line : Int} {x : Nat} :
    x ∈ printedColumns line t ↔ (x : Int) ≤ t.maxcX ∧ (Doubled line t → (x : Int) ≤ t.maxcX / 2) := by
  simp only [printedColumns, Doubled, mem_filter, mem_range, Bool.not_eq_true', Bool.and_eq_false_iff,
    Bool.or_eq_false_iff, decide_eq_false_iff_not, Int.not_lt]
  constructor
  · rintro ⟨hr, hCol⟩
    refine ⟨by omega, ?_⟩
    rintro (hw | ht)
    · exact hCol.resolve_left fun hp => hp.1 hw
    · exact hCol.resolve_left fun hp => hp.2 ht
  · rintro ⟨hr, hCol⟩
    refine ⟨by omega, ?_⟩
    rw [← not_or]
    exact or_iff_not_imp_left.2 fun hd => hCol (not_not.1 hd)

/-- How far the widest line reaches, when each of its columns may count twice. -/
def Reach (t : Terminal) : Prop := 0 ≤ t.maxcX ∧ t.maxcX ≤ 2 * (width - 1)

lemma staysInRow_iff (h : Reach t) (line : Int) : StaysInRow line t ↔ t.maxcX < width ∨ Doubled line t := by
  obtain ⟨hNonneg, hReach⟩ := h
  constructor
  · intro hRow
    by_contra hw
    rw [not_or, Int.not_lt] at hw
    -- The column behind the last one of the line is printed.
    have hNext : (120 : Nat) ∈ printedColumns line t :=
      mem_printedColumns.2 ⟨hw.1, fun hd => absurd hd hw.2⟩
    have hc := (hRow.inRow _ (mem_map_of_mem hNext)).2
    unfold width at hc
    omega
  · intro hn
    refine ⟨?_, nodup_printedCells line t⟩
    intro i hi
    obtain ⟨x, hx, rfl⟩ := mem_map.1 hi
    obtain ⟨hCol, hh⟩ := mem_printedColumns.1 hx
    have hl : (x : Int) < width := by
      rcases hn with hn | hd
      · omega
      · have hHalved := hh hd
        omega
    unfold width at hl ⊢
    constructor <;> omega

/-! `max_cX` over a run. -/

variable (t)

@[simp] lemma maxcX_fgetc : (fgetc t).2.maxcX = t.maxcX := keeps_fgetc (·.maxcX) fun _ _ _ => rfl

@[simp] lemma maxcX_ungetc (b : Int) (t : Terminal) : (ungetc b t).maxcX = t.maxcX := by
  unfold ungetc
  split_ifs <;> rfl

lemma maxcX_readParams (fuel : Nat) (b : Int) (t : Terminal) : (readParams fuel b t).2.maxcX = t.maxcX :=
  keeps_readParams (·.maxcX) fun _ _ _ _ _ _ _ _ => rfl

@[simp] lemma maxcX_printLines (count : Nat) (t : Terminal) : (printLines count t).maxcX = t.maxcX :=
  keeps_foldl (·.maxcX) fun _ _ => rfl

@[simp] lemma maxcX_clearCells (start len : Int) (t : Terminal) : (clearCells start len t).maxcX = t.maxcX := rfl

lemma maxcX_action (b : Int) (t : Terminal) : (action b t).maxcX = t.maxcX := by
  unfold action
  dsimp only
  split
  case h_7 => exact keeps_eraseScreen (·.maxcX) (fun _ => rfl) maxcX_clearCells
  case h_8 => split_ifs <;> rfl
  case h_13 => exact keeps_eraseScreen (·.maxcX) (maxcX_clearCells _ _) maxcX_clearCells
  case h_14 => split <;> rfl
  case h_15 => exact keeps_foldl (·.maxcX) fun _ _ => rfl
  all_goals rfl

lemma maxcX_controlSequence : (controlSequence t).maxcX = t.maxcX := by
  have hr := maxcX_readParams (t.src.length + 1) 59 (sequenceStart t)
  rw [controlSequence_eq]
  dsimp only
  split_ifs
  · refine Eq.trans ?_ hr
    unfold questionAction
    split <;> rfl
  · rw [maxcX_action]
    exact hr

lemma maxcX_escape : (escape t).maxcX = t.maxcX := by
  have hf := maxcX_fgetc t
  have hSnd := (maxcX_fgetc (fgetc t).2).trans hf
  unfold escape
  dsimp only
  split
  case h_3 => split <;> exact hSnd
  case h_4 => exact hSnd
  case h_6 => split_ifs <;> exact hSnd
  case h_7 =>
    split_ifs
    · exact (maxcX_fgetc _).trans hSnd
    · exact hSnd
  case h_8 => exact (maxcX_controlSequence _).trans hf
  case h_9 => exact (maxcX_ungetc _ _).trans hf
  all_goals exact hf

lemma maxcX_clamp : (clamp t).maxcX = t.maxcX := by
  unfold clamp
  dsimp only
  split_ifs <;> rfl

lemma maxcX_scroll : (scroll t).maxcX = t.maxcX := by
  unfold scroll
  split_ifs
  · exact maxcX_printLines _ t
  · rfl

variable {t}

section
variable (h : Reach t)
include h

lemma Reach.congr {u : Terminal} (hs : u.maxcX = t.maxcX) : Reach u := by
  unfold Reach
  rw [hs]
  exact h

lemma reach_control (b : Int) : Reach (control b t) := by
  unfold control
  split
  case h_5 =>
    show (0 : Int) ≤ 0 ∧ (0 : Int) ≤ 2 * (width - 1)
    decide
  case h_7 => exact h.congr (maxcX_escape t)
  all_goals exact h

lemma reach_widen (hCol : 0 ≤ t.cX ∧ t.cX < width) : Reach (widen t) := by
  unfold Reach widen at *
  grind

def beforeScroll (t : Terminal) : Terminal :=
  let (b, t) := fgetc t
  clamp (if 31 < b && b < 127 then putChar b t else control b t)

lemma reach_beforeScroll : Reach (beforeScroll t) := by
  have hn : Reach (fgetc t).2 := h.congr (maxcX_fgetc t)
  apply Reach.congr ?_ (maxcX_clamp _)
  split_ifs
  · exact hn
  · exact reach_control hn _

lemma reach_iteration : Reach (iteration t) := by
  apply reach_widen ((reach_beforeScroll h).congr (maxcX_scroll _))
  obtain ⟨-, hCol, hRow⟩ := clamp_spec
    (if 31 < (fgetc t).1 && (fgetc t).1 < 127 then putChar (fgetc t).1 (fgetc t).2
      else control (fgetc t).1 (fgetc t).2)
  obtain ⟨-, hs, -⟩ := scroll_spec hRow
  rw [beforeScroll, hs]
  exact hCol

lemma reach_ansiCopyLoop (fuel : Nat) : Reach (ansiCopyLoop fuel t) :=
  ansiCopyLoop_keeps Reach (fun _ => reach_iteration) h fuel

end

/-- The states of `ansi_copy`: between two iterations, when a byte has been read (where a
form feed prints), and when the cursor has been moved (where lines scroll off). -/
inductive Reached (e : Emulator) (src : Bytes) : Terminal → Prop where
  | between (iterations : Nat) : Reached e src (ansiCopyLoop iterations (fresh (ansiInit e) src))
  | read (iterations : Nat) : Reached e src (fgetc (ansiCopyLoop iterations (fresh (ansiInit e) src))).2
  | moved (iterations : Nat) : Reached e src (beforeScroll (ansiCopyLoop iterations (fresh (ansiInit e) src)))

lemma Reached.reach {e : Emulator} {src : Bytes} (h : Reached e src t) : Reach t := by
  have hs : Reach (fresh (ansiInit e) src) := by
    show (0 : Int) ≤ 0 ∧ (0 : Int) ≤ 2 * (width - 1)
    decide
  cases h with
  | between iterations => exact reach_ansiCopyLoop hs iterations
  | read iterations => exact (reach_ansiCopyLoop hs iterations).congr (maxcX_fgetc _)
  | moved iterations => exact reach_beforeScroll (reach_ansiCopyLoop hs iterations)

theorem print_line_in_row_iff {e : Emulator} {src : Bytes} {t : Terminal} (h : Reached e src t) (line : Int) :
    StaysInRow line t ↔ t.maxcX < width ∨ Doubled line t :=
  staysInRow_iff h.reach line

def wideThenPlain : Bytes := text "\x1b#6" ++ List.replicate 60 97 ++ text "\nb"

theorem print_line_in_row_wide :
    StaysInRow 0 (ansiCopyLoop 63 (fresh (ansiInit Emulator.start) wideThenPlain)) :=
  (print_line_in_row_iff (.between 63) 0).2 (.inr (.inl (by decide +kernel)))

/-- The print of the second line runs on into the third. -/
theorem print_line_leaves_row :
    ¬ StaysInRow 1 (ansiCopyLoop 63 (fresh (ansiInit Emulator.start) wideThenPlain)) := by
  intro hRow
  exact absurd (hRow.inRow 240 (by decide +kernel)).2 (by decide)

end Terminal
end Channel
