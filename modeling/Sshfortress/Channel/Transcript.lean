import Sshfortress.Base.Layout
import Sshfortress.Channel.Parameters
import Sshfortress.Channel.Printing

/-! Plain text. A stream of printable characters and line ends fills the screen from its
top, and what scrolls off is printed on the way: together they are the lines of the
stream. -/
namespace Channel
open Base Base.Layout List
open Prod (fst snd)
namespace Terminal

/-- Printable bytes, line feeds, and carriage returns that a line feed follows. -/
inductive Plain : Bytes → Prop where
  | nil : Plain []
  | char {c : UInt8} {s : Bytes} (hLow : 32 ≤ c) (hHigh : c ≤ 126) (hRest : Plain s) : Plain (c :: s)
  | lineFeed {s : Bytes} (hRest : Plain s) : Plain (10 :: s)
  | returnLineFeed {s : Bytes} (hRest : Plain s) : Plain (13 :: 10 :: s)

def rowAt (shown : List Bytes) (current : Bytes) (y : Nat) : Bytes := (shown ++ [current]).getD y []

/-- A screen that shows the lines `shown` and below them, in the row of the cursor, the line
`current`. -/
structure Page (shown : List Bytes) (current : Bytes) (t : Terminal) : Prop where
  row : t.cY = shown.length
  onScreen : shown.length < 60
  reach : 0 ≤ t.maxcX ∧ t.maxcX < width
  fits : ∀ y, ((rowAt shown current y).length : Int) ≤ t.maxcX + 1
  cells : ∀ y < 60, ∀ x < 120, t.out ((x : Nat) + (y : Nat) * width) = (rowAt shown current y).getD x 32
  modes : ∀ i, t.outMode i = 0
  sizes : ∀ i, t.outSize i = 0
  mode : t.currentMode = 0
  plain : ∀ y, 10 ∉ rowAt shown current y
  safe : t.fault = false

/-- The lines printed so far are the lines `gone`, apart from blanks. -/
def Transcribed (gone : List Bytes) (t : Terminal) : Prop :=
  ∃ lines : List Bytes, t.dst = lines.flatMap (· ++ [10]) ∧ (∀ line ∈ lines, 10 ∉ line) ∧
    tidy 32 lines = tidy 32 gone

/-! Printing. -/

def padded (reach : Int) (line : Bytes) : Bytes := line ++ List.replicate ((reach + 1).toNat - line.length) 32

lemma notMem_padded {reach : Int} {line : Bytes} (h : 10 ∉ line) : 10 ∉ padded reach line := by
  simp [padded, h]

variable {t : Terminal} {p : Writer UInt8} {shown : List Bytes} {current rest : Bytes} {c : UInt8}

lemma printedColumns_plain {line : Int} (hs : t.outSize line = 0) :
    printedColumns line t = List.range (t.maxcX + 1).toNat := by
  rw [printedColumns, filter_eq_self]
  intro x _
  simp [hs]

section Print
variable {shown : List Bytes} {current : Bytes} {t : Terminal}

lemma Page.withDst (h : Page shown current t) (dst : Bytes) : Page shown current { t with dst := dst } :=
  ⟨h.row, h.onScreen, h.reach, h.fits, h.cells, h.modes, h.sizes, h.mode, h.plain, h.safe⟩

variable {y count : Nat}

section
variable (h : Page shown current t)
include h

lemma Page.printedText (hRow : y < 60) :
    (printedColumns y t).flatMap (printedCell y t) = padded t.maxcX (rowAt shown current y) := by
  have hr := h.reach
  have hFits := h.fits y
  unfold width at hr
  have hc : ∀ x ∈ List.range (t.maxcX + 1).toNat, printedCell y t x = [(rowAt shown current y).getD x 32] := by
    intro x hx
    have hCol := mem_range.1 hx
    have hOut := h.cells y hRow x (by omega)
    simp only [printedCell, h.modes, h.sizes, hOut]
    rfl
  rw [printedColumns_plain (h.sizes _), flatMap_congr hc, padded, ← map_getD_range (by omega),
    map_eq_flatMap]

lemma Page.printLine_eq (hRow : y < 60) :
    printLine y t = { t with dst := t.dst ++ padded t.maxcX (rowAt shown current y) ++ [10] } := by
  have hr := h.reach
  unfold width at hr
  have hi : InRows y = true := by
    rw [InRows, Bool.and_eq_true, decide_eq_true_eq, decide_eq_true_eq]
    unfold height
    omega
  have hInside : ((printedColumns y t).any fun x : Nat => !InScreen (x + y * width)) = false := by
    rw [any_eq_false]
    intro x hx
    obtain ⟨hCol, -⟩ := mem_printedColumns.1 hx
    rw [Bool.not_eq_true, Bool.not_eq_false', InScreen, Bool.and_eq_true, decide_eq_true_eq, decide_eq_true_eq]
    unfold width height
    omega
  rw [Terminal.printLine_eq, h.printedText hRow, hi, hInside, Bool.not_true, Bool.or_false, Bool.or_false]

lemma Page.printLines_eq (hCount : count ≤ 60) :
    printLines count t =
      { t with dst := t.dst ++ ((List.range count).map fun y => padded t.maxcX (rowAt shown current y)).flatMap (· ++ [10]) } := by
  induction count with
  | zero => simp [printLines]
  | succ count ih =>
    have hs : printLines (count + 1) t = printLine count (printLines count t) := by
      simp [printLines, range_succ]
    rw [hs, ih (by omega), (h.withDst _).printLine_eq (by omega), range_succ]
    simp

lemma Page.transcribed_printLines {gone : List Bytes}
    (hg : Transcribed gone t) (hc : count ≤ 60) :
    Transcribed (gone ++ (List.range count).map (rowAt shown current)) (printLines count t) := by
  obtain ⟨lines, hDst, hp, ht⟩ := hg
  refine ⟨lines ++ (List.range count).map (fun y => padded t.maxcX (rowAt shown current y)), ?_, ?_, ?_⟩
  · rw [h.printLines_eq hc, flatMap_append, ← hDst]
  · intro line hl
    rcases mem_append.1 hl with hOld | hNew
    · exact hp line hOld
    · obtain ⟨y, -, rfl⟩ := mem_map.1 hNew
      exact notMem_padded (h.plain y)
  · have hPad : tidy (32 : UInt8) _ = _ := tidy_map_pad ((List.range count).map (rowAt shown current))
      fun line => (t.maxcX + 1).toNat - line.length
    rw [map_map] at hPad
    rw [tidy_append, tidy_append, ht, ← hPad]
    rfl

end

end Print

/-! The next line. -/

lemma rowAt_nil_right (shown : List Bytes) (current : Bytes) : rowAt (shown ++ [current]) [] = rowAt shown current := by
  funext y
  unfold rowAt
  grind

variable {first : Bytes}

lemma rowAt_tail {rest : List Bytes} (hFirst : shown ++ [current] = first :: rest) (y : Nat) :
    rowAt rest [] y = rowAt shown current (y + 1) := by
  unfold rowAt
  grind

def nextLine (t : Terminal) : Terminal := { t with cX := 0, cY := t.cY + 1 }

lemma page_nextLine (h : Page shown current t) (hRoom : shown.length < 59) :
    Page (shown ++ [current]) [] (nextLine t) where
  row := by
    show t.cY + 1 = _
    rw [h.row]
    simp
  onScreen := by simp; omega
  reach := h.reach
  fits := by rw [rowAt_nil_right]; exact h.fits
  cells := by rw [rowAt_nil_right]; exact h.cells
  modes := h.modes
  sizes := h.sizes
  mode := h.mode
  plain := by rw [rowAt_nil_right]; exact h.plain
  safe := h.safe

lemma printLines_nextLine (count : Nat) (t : Terminal) :
    printLines count (nextLine t) = nextLine (printLines count t) := by
  unfold printLines
  induction List.range count generalizing t with
  | nil => rfl
  | cons line lines ih => exact ih (printLine line t)

def movedUp (cells : Int → UInt8) (stride : Int) : Int → UInt8 := fun i =>
  if 0 ≤ i && i < 59 * stride then cells (i + stride) else cells i

lemma scroll_one (hRow : t.cY = 60) :
    scroll t =
      { clearCells (59 * width) width
        { printLines 1 t with
          out := movedUp (printLines 1 t).out width, outMode := movedUp (printLines 1 t).outMode width
          outCol := movedUp (printLines 1 t).outCol width, outSize := movedUp (printLines 1 t).outSize 1 } with
        cY := 59 } := by
  have hl : min (t.cY - height + 1) (height - 1) = 1 := by
    rw [hRow]
    decide
  rw [scroll, if_pos (by rw [hRow]; decide), hl]
  rfl

lemma page_scroll (h : Page shown current t) (hFull : shown.length = 59) {rest : List Bytes}
    (hf : shown ++ [current] = first :: rest) : Page rest [] (scroll (nextLine t)) := by
  have hRow := h.row
  have hLen : rest.length = 59 := by
    have hBoth := congrArg List.length hf
    simp at hBoth
    omega
  rw [scroll_one (t := nextLine t) (by show t.cY + 1 = 60; omega), printLines_nextLine, h.printLines_eq (by decide)]
  have hOut : ∀ i, (clearCells (59 * width) width { nextLine t with out := movedUp t.out width }).out i =
    if 59 * width ≤ i && i < 59 * width + width then 32 else movedUp t.out width i := fun _ => rfl
  exact {
    row := by
      rw [hLen]
      rfl
    onScreen := by omega
    reach := h.reach
    fits := by
      intro y
      rw [rowAt_tail hf]
      exact h.fits _
    cells := by
      intro y hy x hx
      refine (hOut _).trans ?_
      unfold width movedUp
      by_cases hb : y = 59
      · -- The new line at the bottom is blank.
        have hBlank : rowAt rest [] y = [] := by simp [rowAt, hb, hLen]
        rw [hBlank, if_pos (by simp; omega)]
        rfl
      · have hUp := h.cells (y + 1) (by omega) x hx
        rw [rowAt_tail hf, ← hUp, if_neg (by simp; omega), if_pos (by simp; omega)]
        unfold width
        congr 1
        omega
    modes := by
      intro i
      show (if 59 * width ≤ i && i < 59 * width + width then 0 else movedUp t.outMode width i) = 0
      simp [movedUp, h.modes]
    sizes := by
      intro i
      show movedUp t.outSize 1 i = 0
      simp [movedUp, h.sizes]
    mode := h.mode
    plain := by
      intro y
      rw [rowAt_tail hf]
      exact h.plain _
    safe := by
      show (t.fault || _) = false
      rw [h.safe]
      decide }

lemma page_widen (h : Page shown current t) (hCol : t.cX < width) :
    Page shown current (widen t) ∧ t.cX ≤ (widen t).maxcX := by
  have hReach := h.reach
  have hMax : (widen t).maxcX = max t.maxcX t.cX := by
    simp only [widen, h.sizes, ne_eq, not_true_eq_false, if_false, Int.mul_one]
    omega
  refine ⟨⟨h.row, h.onScreen, ?_, ?_, h.cells, h.modes, h.sizes, h.mode, h.plain, h.safe⟩, ?_⟩
  · rw [hMax]
    omega
  · intro y
    have hFits := h.fits y
    omega
  · rw [hMax]
    exact Int.le_max_right ..

/-! One byte of plain text. -/

/-- The lines of the writer `p` have been printed or are shown. -/
def Holds (p : Writer UInt8) (t : Terminal) : Prop :=
  t.maxcY = t.cY ∧ ∃ gone shown, p.done = gone ++ shown ∧ Page shown p.current t ∧ Transcribed gone t

/-- Also the current line has been counted. -/
structure Shows (p : Writer UInt8) (t : Terminal) : Prop where
  holds : Holds p t
  counted : (p.current.length : Int) ≤ t.maxcX

lemma maxcY_widen (h : t.maxcY ≤ t.cY) : (widen t).maxcY = (widen t).cY := by
  show (if t.maxcY < t.cY then t.cY else t.maxcY) = t.cY
  split_ifs <;> omega

lemma clamp_wrap (hX : t.cX = width) (hY : 0 ≤ t.cY) : clamp t = nextLine t := by
  have hl : ¬ t.cX < 0 := by rw [hX]; decide
  have hTop : ¬ t.cY < 0 := by omega
  have hr : width ≤ t.cX := hX.ge
  simp only [clamp, if_neg hl, if_neg hTop, if_pos hr]
  rfl

lemma Holds.newline (h : Holds p t) :
    Shows p.newline (widen (scroll (nextLine t))) ∧ (widen (scroll (nextLine t))).cX = 0 := by
  obtain ⟨hLast, gone, shown, hd, hp, hg⟩ := h
  have hOn := hp.onScreen
  have hRow := hp.row
  have hw : (0 : Int) < width := by decide
  by_cases hr : shown.length < 59
  · have hStays : scroll (nextLine t) = nextLine t := scroll_id (by
      show t.cY + 1 < height
      unfold height
      omega)
    rw [hStays]
    obtain ⟨hn, hCnt⟩ := page_widen (page_nextLine hp hr) hw
    refine ⟨⟨⟨maxcY_widen ?_, gone, shown ++ [p.current], ?_, hn, hg⟩, hCnt⟩, rfl⟩
    · show t.maxcY ≤ t.cY + 1
      omega
    · rw [Writer.newline, hd, append_assoc]
  · -- The first line of the screen is printed.
    obtain ⟨first, rest, hf⟩ : ∃ first rest, shown ++ [p.current] = first :: rest :=
      exists_cons_of_ne_nil (by simp)
    have hb : (nextLine t).cY = 60 := by
      show t.cY + 1 = 60
      omega
    have hs := scroll_one hb
    have hCol : (scroll (nextLine t)).cX = 0 := by rw [hs]; rfl
    have hDst : (scroll (nextLine t)).dst = (printLines 1 t).dst := by rw [hs]; rfl
    have hMax : (scroll (nextLine t)).maxcY = t.maxcY := by
      rw [hs]
      exact congrArg (·.2.2.2.2) (place_printLines 1 t)
    have hPrinted := hp.transcribed_printLines hg (by decide : 1 ≤ 60)
    have hTop : rowAt shown p.current 0 = first := by rw [rowAt, hf]; rfl
    obtain ⟨hn, hCnt⟩ := page_widen (page_scroll hp (by omega) hf) (by rw [hCol]; exact hw)
    refine ⟨⟨⟨maxcY_widen ?_, gone ++ [first], rest, ?_, hn, ?_⟩, ?_⟩, hCol⟩
    · rw [hMax, hs]
      show t.maxcY ≤ 59
      omega
    · rw [Writer.newline, hd, append_assoc, hf]
      simp
    · show ∃ lines : List Bytes, (scroll (nextLine t)).dst = _ ∧ _
      rw [hDst]
      rw [range_one, map_singleton, hTop] at hPrinted
      exact hPrinted
    · rw [hCol] at hCnt
      exact hCnt

lemma rowAt_put (shown : List Bytes) (current : Bytes) (c : UInt8) (y : Nat) :
    rowAt shown (current ++ [c]) y =
      if y = shown.length then current ++ [c] else rowAt shown current y := by
  unfold rowAt
  grind

lemma rowAt_current (shown : List Bytes) (current : Bytes) : rowAt shown current shown.length = current := by
  simp [rowAt]

lemma page_putChar (h : Page shown current t) (hp : c ≠ 10)
    (hCol : t.cX = current.length) (hCnt : (current.length : Int) ≤ t.maxcX) :
    Page shown (current ++ [c]) (putChar (signed c) t) := by
  have hRow := h.row
  have hr := h.reach
  have hOn := h.onScreen
  unfold width at hr
  exact {
    row := h.row
    onScreen := h.onScreen
    reach := h.reach
    fits := by
      intro y
      rw [rowAt_put]
      split_ifs
      · show ((current ++ [c]).length : Int) ≤ t.maxcX + 1
        simp
        exact hCnt
      · exact h.fits y
    cells := by
      intro y hy x hx
      show Function.update t.out (t.cX + t.cY * width) (unsigned (signed c)) (x + y * width) = _
      rw [unsigned_signed, hCol, hRow, rowAt_put, Function.update_apply, h.cells y hy x hx]
      unfold width
      by_cases hh : y = shown.length
      · rw [if_pos hh, hh, rowAt_current]
        by_cases hEnd : x = current.length
        · rw [if_pos (by rw [hEnd]), hEnd]
          simp
        · rw [if_neg (by omega)]
          grind
      · rw [if_neg hh, if_neg (by omega)]
    modes := by
      intro i
      show Function.update t.outMode _ t.currentMode i = 0
      rw [h.mode, Function.update_apply, h.modes, ite_self]
    sizes := h.sizes
    mode := h.mode
    plain := by
      intro y
      have ho := h.plain y
      have hc := h.plain shown.length
      rw [rowAt_current] at hc
      rw [rowAt_put]
      split_ifs
      · simp [hc, Ne.symm hp]
      · exact ho
    safe := by
      have hi : InScreen (t.cX + t.cY * width) = true := by
        rw [InScreen, Bool.and_eq_true, decide_eq_true_eq, decide_eq_true_eq]
        unfold width height
        omega
      show (t.fault || !InScreen (t.cX + t.cY * width)) = false
      rw [h.safe, hi]
      rfl }

lemma Page.withInput (h : Page shown current t) (src : Bytes) (eof : Bool) (cX : Int) :
    Page shown current { t with src := src, eof := eof, cX := cX } :=
  ⟨h.row, h.onScreen, h.reach, h.fits, h.cells, h.modes, h.sizes, h.mode, h.plain, h.safe⟩

lemma Holds.withInput (h : Holds p t) (src : Bytes) (eof : Bool) (cX : Int) :
    Holds p { t with src := src, eof := eof, cX := cX } := by
  obtain ⟨hl, gone, shown, hd, hp, hg⟩ := h
  exact ⟨hl, gone, shown, hd, hp.withInput src eof cX, hg⟩

lemma Holds.row (h : Holds p t) : 0 ≤ t.cY ∧ t.cY < height := by
  obtain ⟨-, _, shown, -, hp, -⟩ := h
  have hRow := hp.row
  have hOn := hp.onScreen
  unfold height
  omega

lemma Holds.reach (h : Holds p t) : 0 ≤ t.maxcX ∧ t.maxcX < width := by
  obtain ⟨-, _, _, -, hp, -⟩ := h
  exact hp.reach

lemma Holds.stay (h : Holds p t) (hCol : 0 ≤ t.cX ∧ t.cX < width) :
    Holds p (widen (scroll (clamp t))) ∧ (widen (scroll (clamp t))).cX = t.cX ∧
      t.cX ≤ (widen (scroll (clamp t))).maxcX ∧ t.maxcX ≤ (widen (scroll (clamp t))).maxcX := by
  have hRow := h.row
  rw [clamp_id hCol hRow.1, scroll_id hRow.2]
  obtain ⟨hl, gone, shown, hd, hp, hg⟩ := h
  obtain ⟨hn, hCnt⟩ := page_widen hp hCol.2
  refine ⟨⟨maxcY_widen hl.le, gone, shown, hd, hn, hg⟩, rfl, hCnt, ?_⟩
  show t.maxcX ≤ if t.maxcX < _ then _ else t.maxcX
  split_ifs <;> omega

lemma shows_char (h : Shows p t) (hCol : t.cX = p.current.length) (hLow : 32 ≤ c)
    (hHigh : c ≤ 126) (hSrc : t.src = c :: rest) :
    Shows (p.put 120 c) (iteration t) ∧ (iteration t).cX = (p.put 120 c).current.length := by
  obtain ⟨hh, hCnt⟩ := h
  have hRow := hh.row
  have hr := hh.reach
  obtain ⟨hl, gone, shown, hd, hPage, hg⟩ := hh
  have hValue : 32 ≤ c.toNat ∧ c.toNat ≤ 126 := ⟨UInt8.le_iff_toNat_le.1 hLow, UInt8.le_iff_toNat_le.1 hHigh⟩
  have hp : c ≠ 10 := by
    rintro rfl
    revert hLow
    decide
  have hSigned : signed c = c.toNat := by
    have hC := signed_spec c
    omega
  have hc : (31 < signed c && signed c < 127) = true := by
    rw [Bool.and_eq_true, decide_eq_true_eq, decide_eq_true_eq]
    omega
  have hi : iteration t = widen (scroll (clamp (putChar (signed c) { t with src := rest }))) := by
    unfold iteration
    rw [fgetc_cons hSrc]
    dsimp only
    rw [if_pos hc]
  have hPut : Holds ⟨p.done, p.current ++ [c]⟩ (putChar (signed c) { t with src := rest }) :=
    ⟨hl, gone, shown, hd,
      page_putChar (hPage.withInput rest t.eof t.cX) hp hCol hCnt, hg⟩
  have hm : (putChar (signed c) { t with src := rest }).cX = p.current.length + 1 := by
    show t.cX + 1 = _
    rw [hCol]
  unfold width at hr
  rw [hi, Writer.put]
  split_ifs with hFull
  · have hw : clamp (putChar (signed c) { t with src := rest }) = nextLine (putChar (signed c) { t with src := rest }) := by
      apply clamp_wrap
      · rw [hm]
        unfold width
        omega
      · exact hRow.1
    rw [hw]
    exact hPut.newline
  · obtain ⟨hn, hs, ha, -⟩ := hPut.stay (by rw [hm]; unfold width; omega)
    rw [hm] at hs ha
    refine ⟨⟨hn, ?_⟩, ?_⟩
    · simpa using ha
    · rw [hs]
      simp

lemma shows_lineFeed (h : Holds p t) (hSrc : t.src = 10 :: rest) :
    Shows p.newline (iteration t) ∧ (iteration t).cX = 0 := by
  have hRow := h.row
  have hi : iteration t = widen (scroll (clamp (nextLine { t with src := rest }))) := by
    unfold iteration
    rw [fgetc_cons hSrc]
    rfl
  have hs : clamp (nextLine { t with src := rest }) = nextLine { t with src := rest } := by
    apply clamp_id
    · show (0 : Int) ≤ 0 ∧ (0 : Int) < width
      decide
    · show 0 ≤ t.cY + 1
      omega
  rw [hi, hs]
  exact (h.withInput rest t.eof t.cX).newline

lemma holds_return (h : Holds p t) (hSrc : t.src = 13 :: rest) : Holds p (iteration t) := by
  have hi : iteration t = widen (scroll (clamp { t with src := rest, cX := 0 })) := by
    unfold iteration
    rw [fgetc_cons hSrc]
    rfl
  rw [hi]
  exact ((h.withInput rest t.eof 0).stay (by show (0 : Int) ≤ 0 ∧ (0 : Int) < width; decide)).1

lemma holds_end (h : Shows p t) (hCol : t.cX = p.current.length) (hSrc : t.src = []) :
    Holds p (iteration t) := by
  have hReach := h.holds.reach
  have hCnt := h.counted
  have hi : iteration t = widen (scroll (clamp { t with src := [], eof := true })) := by
    unfold iteration fgetc
    rw [hSrc]
    rfl
  rw [hi]
  refine ((h.holds.withInput [] true t.cX).stay ?_).1
  show 0 ≤ t.cX ∧ t.cX < width
  omega

/-! The whole stream. -/

lemma input_iteration (hSrc : t.src = c :: rest) (he : c ≠ 27) :
    (iteration t).input = (rest, t.eof) := by
  have hb : signed c ≠ 27 := fun h => he ((signed_eq_iff (d := 27) (by decide)).1 h)
  unfold iteration
  rw [fgetc_cons hSrc]
  rw [input_widen, input_scroll, input_clamp]
  split_ifs
  · rfl
  · unfold control
    split
    case h_5 => exact input_formFeed _
    case h_7 hv => exact absurd hv hb
    all_goals rfl

def written (s : Bytes) : Bytes := s.filter (· ≠ 13)

lemma holds_ansiCopyLoop {s : Bytes} (hp : Plain s) (h : Shows p t)
    (hCol : t.cX = p.current.length) (hi : t.input = (s, false)) {fuel : Nat}
    (hf : s.length < fuel) : Holds (p.write 120 10 (written s)) (ansiCopyLoop fuel t) := by
  induction hp generalizing p t fuel with
  | nil =>
    obtain ⟨fuel, rfl⟩ : ∃ n, fuel = n + 1 := ⟨fuel - 1, by omega⟩
    have hSrc : t.src = [] := congrArg fst hi
    have hOpen : ¬ t.eof = true := by simp [show t.eof = false from congrArg snd hi]
    have hStop : ansiCopyLoop fuel (iteration t) = iteration t := by
      cases fuel with
      | zero => rfl
      | succ fuel => rw [ansiCopyLoop, if_pos (iteration_eof hSrc)]
    rw [ansiCopyLoop, if_neg hOpen, hStop]
    exact holds_end h hCol hSrc
  | @char c s hLow hHigh _ ih =>
    obtain ⟨fuel, rfl⟩ : ∃ n, fuel = n + 1 := ⟨fuel - 1, by omega⟩
    have hSrc : t.src = c :: s := congrArg fst hi
    have hEof : t.eof = false := congrArg snd hi
    have ho : c ≠ 13 ∧ c ≠ 10 ∧ c ≠ 27 := by
      refine ⟨?_, ?_, ?_⟩ <;>
      · rintro rfl
        revert hLow
        decide
    obtain ⟨hs, hn⟩ := shows_char h hCol hLow hHigh hSrc
    have hRest := ih hs hn (by rw [input_iteration hSrc ho.2.2, hEof]) (Nat.lt_of_succ_lt_succ hf)
    have hw : written (c :: s) = c :: written s := by simp [written, ho.1]
    rw [ansiCopyLoop, if_neg (by simp [hEof]), hw, Writer.write, foldl_cons, Writer.step, if_neg ho.2.1]
    exact hRest
  | @lineFeed s _ ih =>
    obtain ⟨fuel, rfl⟩ : ∃ n, fuel = n + 1 := ⟨fuel - 1, by omega⟩
    have hSrc : t.src = 10 :: s := congrArg fst hi
    have hEof : t.eof = false := congrArg snd hi
    obtain ⟨hs, hn⟩ := shows_lineFeed h.holds hSrc
    have hRest := ih hs hn (by rw [input_iteration hSrc (by decide), hEof]) (Nat.lt_of_succ_lt_succ hf)
    have hw : written (10 :: s) = 10 :: written s := by simp [written]
    rw [ansiCopyLoop, if_neg (by simp [hEof]), hw, Writer.write, foldl_cons, Writer.step, if_pos rfl]
    exact hRest
  | @returnLineFeed s _ ih =>
    obtain ⟨fuel, rfl⟩ : ∃ n, fuel = n + 2 := ⟨fuel - 2, by simp at hf; omega⟩
    have hSrc : t.src = 13 :: 10 :: s := congrArg fst hi
    have hEof : t.eof = false := congrArg snd hi
    have hInner := input_iteration hSrc (by decide)
    have hInnerEof : (iteration t).eof = false := (congrArg snd hInner).trans hEof
    have hInnerSrc : (iteration t).src = 10 :: s := congrArg fst hInner
    obtain ⟨hs, hn⟩ := shows_lineFeed (holds_return h.holds hSrc) hInnerSrc
    have hRest := ih hs hn (by rw [input_iteration hInnerSrc (by decide), hInnerEof])
      (by simp at hf; omega : s.length < fuel)
    have hw : written (13 :: 10 :: s) = 10 :: written s := by simp [written]
    rw [ansiCopyLoop, if_neg (by simp [hEof]), ansiCopyLoop, if_neg (by simp [hInnerEof]), hw, Writer.write,
      foldl_cons, Writer.step, if_pos rfl]
    exact hRest

lemma shows_fresh (e : Emulator) (src : Bytes) : Shows ⟨[], []⟩ (fresh (ansiInit e) src) := by
  have he : ∀ y, rowAt [] [] y = [] := by
    intro y
    cases y <;> rfl
  have hp : Page [] [] (fresh (ansiInit e) src) := {
    row := rfl
    onScreen := by decide
    reach := by show (0 : Int) ≤ 0 ∧ (0 : Int) < width; decide
    fits := by
      intro y
      rw [he]
      show (0 : Int) ≤ 0 + 1
      decide
    cells := by
      intro y _ x _
      rw [he]
      rfl
    modes := fun _ => rfl
    sizes := fun _ => rfl
    mode := rfl
    plain := by simp [he]
    safe := rfl }
  exact ⟨⟨rfl, [], [], rfl, hp, [], rfl, by simp, rfl⟩, Int.le_refl 0⟩

def textLines (s : Bytes) : List Bytes := s.splitOn 10

lemma textLines_flatMap {lines : List Bytes} (h : ∀ line ∈ lines, 10 ∉ line) :
    textLines (lines.flatMap (· ++ [10])) = lines ++ [[]] := by
  induction lines with
  | nil => rfl
  | cons line lines ih =>
    obtain ⟨hLine, hl⟩ := forall_mem_cons.1 h
    rw [flatMap_cons, append_assoc, textLines, singleton_append,
      splitOn_append_cons_self_of_not_mem hLine, ← textLines, ih hl, cons_append]

lemma map_rowAt_range (shown : List Bytes) (current : Bytes) :
    (List.range (shown.length + 1)).map (rowAt shown current) = shown ++ [current] := by
  show (List.range (shown.length + 1)).map (fun y => (shown ++ [current]).getD y []) = shown ++ [current]
  rw [map_getD_range (by simp)]
  simp

theorem plain_output_transcribed (e : Emulator) {stream : Bytes} (hPlain : Plain stream) :
    (render (ansiInit e) stream).fault = false ∧ tidy 32 (textLines (render (ansiInit e) stream).dst) =
      tidy 32 ((textLines (written stream)).flatMap (pieces 120)) := by
  obtain ⟨hLast, gone, shown, hDone, hPage, hGone⟩ :=
    holds_ansiCopyLoop hPlain (shows_fresh e stream) rfl rfl (Nat.lt_succ_self stream.length)
  have hRender : render (ansiInit e) stream =
    printLines (shown.length + 1) (ansiCopyLoop (stream.length + 1) (fresh (ansiInit e) stream)) := by
    show printLines ((ansiCopyLoop (stream.length + 1) (fresh (ansiInit e) stream)).maxcY + 1).toNat _ = _
    rw [hLast, hPage.row]
    rfl
  have hOn := hPage.onScreen
  obtain ⟨lines, hDst, hNoFeed, hTidy⟩ := hPage.transcribed_printLines hGone (by omega : shown.length + 1 ≤ 60)
  rw [map_rowAt_range, ← append_assoc, ← hDone, ← Writer.lines, lines_write (by decide)] at hTidy
  rw [hRender]
  constructor
  · rw [hPage.printLines_eq (by omega)]
    exact hPage.safe
  · rw [hDst, textLines_flatMap hNoFeed, tidy_append, hTidy]
    simp [tidy, textLines]

/-- A line of 121 characters is two lines of the transcript. -/
theorem plain_output_transcribed_long :
    tidy 32 (textLines (render (ansiInit Emulator.start) (List.replicate 121 97)).dst) =
      [List.replicate 120 97, [97]] := by
  have hPlain : ∀ n, Plain (List.replicate n 97) := by
    intro n
    induction n with
    | zero => exact .nil
    | succ n ih => exact .char (by decide) (by decide) ih
  rw [(plain_output_transcribed Emulator.start (hPlain 121)).2]
  decide +kernel

end Terminal
end Channel
