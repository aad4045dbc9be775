import Sshfortress.Channel.Parameters

/-! What the erase sequences clear. -/
namespace Channel
open Base
namespace Terminal

/-- The call of `clear_cells` that erases the screen, if there is one. -/
def screenCall (mode : Int) (one : Option (Int × Int)) (t : Terminal) : Option (Int × Int) :=
  let i := t.cX + t.cY * width
  if mode = 1 then one
  else if mode = 2 then some (0, width * height)
  else some (i, width * height - i)

def eraseCall (b : Int) (t : Terminal) : Option (Int × Int) :=
  let p := t.vt100Params 0
  let count := if 0 < p then p else 1
  match Char.ofNat b.toNat with
  | 'P' => screenCall p none t
  | '@' =>
    if t.pMark = 0 then
      let cX := max (t.cX - count) 0
      if 0 < cX - t.cY * width then some (0, cX - t.cY * width) else some (0, cX)
    else none
  | 'J' => screenCall p (some (0, t.cX - t.cY * width)) t
  | 'K' =>
    if p = 1 then some (t.cY * width, t.cX)
    else if p = 2 then some (t.cY * width, width)
    else some (t.cY * width + t.cX, width - t.cX)
  | _ => none

def cells (t : Terminal) : (Int → UInt8) × (Int → UInt8) × (Int → UInt8) := (t.out, t.outMode, t.outCol)

/-- What is left of the screen when `clear_cells` is called or not. -/
def erased (call : Option (Int × Int)) (t : Terminal) : Terminal :=
  match call with
  | some (start, len) => clearCells start len t
  | none => t

variable {t u : Terminal} {x y : Int}

lemma cells_clearCells (h : u.cells = t.cells) (start len : Int) :
    (clearCells start len u).cells = (clearCells start len t).cells := by
  obtain ⟨hOut, hr⟩ := Prod.mk.inj h
  obtain ⟨hm, hCol⟩ := Prod.mk.inj hr
  simp [cells, clearCells, hOut, hm, hCol]

lemma cells_eraseScreen {mode : Int} {one : Terminal → Terminal} {call : Option (Int × Int)}
    (hp : u.place = t.place) (hc : u.cells = t.cells) (hOne : (one u).cells = (erased call t).cells) :
    (eraseScreen mode one u).cells = (erased (screenCall mode call t) t).cells := by
  have hCol : u.cX = t.cX := congrArg (·.1) hp
  have hRow : u.cY = t.cY := congrArg (·.2.1) hp
  unfold eraseScreen screenCall
  rw [hCol, hRow]
  split
  case h_1 => exact hOne
  case h_2 => exact cells_clearCells hc _ _
  case h_3 hn hNotTwo =>
    rw [if_neg hn, if_neg hNotTwo]
    exact cells_clearCells hc _ _

lemma cells_action (b : Int) (t : Terminal) : (action b t).cells = (erased (eraseCall b t) t).cells := by
  unfold action eraseCall
  dsimp only
  split
  case h_7 hc =>
    rw [hc]
    exact cells_eraseScreen (u := { t with pMark := t.pMark + 1 }) rfl rfl rfl
  case h_8 hc =>
    rw [hc]
    split_ifs <;> rfl
  case h_13 hc =>
    rw [hc]
    exact cells_eraseScreen rfl rfl rfl
  case h_14 hc =>
    rw [hc]
    split
    case h_1 hOne => rw [hOne]; rfl
    case h_2 hTwo => rw [hTwo]; rfl
    case h_3 hn hNotTwo =>
      rw [if_neg hn, if_neg hNotTwo]
      rfl
  case h_15 hc =>
    rw [hc]
    exact keeps_foldl cells fun _ _ => rfl
  case h_16 =>
    split
    all_goals first | rfl | contradiction
  all_goals
    rw [‹Char.ofNat b.toNat = _›]
    rfl

def sequenceCall (t : Terminal) : Option (Int × Int) :=
  let (b, t) := readParams (t.src.length + 1) 59 (sequenceStart t)
  if t.qMark then none else eraseCall b t

/-- The call of the next iteration, if that reads a control sequence. -/
def nextCall (t : Terminal) : Option (Int × Int) :=
  let (b, t) := fgetc t
  if b = 27 then
    let (b, t) := fgetc t
    if b = 91 then sequenceCall t else none
  else none

lemma cells_erased (h : u.cells = t.cells) (call : Option (Int × Int)) :
    (erased call u).cells = (erased call t).cells := by
  cases call with
  | none => exact h
  | some range => exact cells_clearCells h range.1 range.2

lemma cells_controlSequence (t : Terminal) :
    (controlSequence t).cells = (erased (sequenceCall t) t).cells := by
  have hr : (readParams (t.src.length + 1) 59 (sequenceStart t)).2.cells = t.cells :=
    keeps_readParams cells fun _ _ _ _ _ _ _ _ => rfl
  rw [controlSequence_eq, sequenceCall]
  dsimp only
  split_ifs
  · refine Eq.trans ?_ hr
    unfold questionAction
    split <;> rfl
  · rw [cells_action]
    exact cells_erased hr _

/-! The first parameter is the number its letters spell. -/

/-- The value of the first parameter of a sequence without question marks. -/
def firstParameter (s : Bytes) : Int := atoi (s.takeWhile isLetter)

lemma readParam_letters (s : Bytes) (t : Terminal) :
    (readParam s t).2.vt100 = t.vt100 ++ s.takeWhile isLetter ∧ (readParam s t).2.paramPtr = t.paramPtr ∧
      (readParam s t).2.vt100Params = t.vt100Params ∧ (readParam s t).2.qMark = t.qMark := by
  induction s generalizing t with
  | nil => simp [readParam]
  | cons c rest ih =>
    rw [readParam]
    split_ifs with hl
    · obtain ⟨ht, hr⟩ := ih { t with vt100 := t.vt100 ++ [c], fault := t.fault || 8 ≤ t.vt100.length }
      refine ⟨?_, hr⟩
      rw [ht, List.takeWhile_cons_of_pos (by simpa [isLetter] using hl)]
      simp
    · rw [List.takeWhile_cons_of_neg (by simpa [isLetter] using hl)]
      simp

lemma readParams_keeps (fuel : Nat) (b : Int) (t : Terminal) :
    (∀ i < t.paramPtr, (readParams fuel b t).2.vt100Params i = t.vt100Params i) ∧
      (t.qMark = true → (readParams fuel b t).2.qMark = true) := by
  induction fuel generalizing b t with
  | zero => exact ⟨fun _ _ => rfl, id⟩
  | succ fuel ih =>
    obtain ⟨-, hPtr, hp, hm⟩ := readParam_letters t.src t
    rw [readParams]
    split_ifs
    · dsimp only
      split_ifs
      · obtain ⟨hk, hAsk⟩ := ih 59 { (readParam t.src t).2 with qMark := true }
        refine ⟨fun i hi => ?_, fun _ => hAsk rfl⟩
        rw [hk i (by rw [hPtr]; exact hi), hp]
      · obtain ⟨hk, hAsk⟩ := ih (readParam t.src t).1 (endParam (readParam t.src t).2)
        refine ⟨fun i hi => ?_, fun hOld => hAsk (hm.trans hOld)⟩
        have hPre : i ≠ (readParam t.src t).2.paramPtr := by omega
        rw [hk i (by simp only [endParam]; omega)]
        simp only [endParam, Function.update_of_ne hPre, hp]
    · exact ⟨fun _ _ => rfl, id⟩

lemma readParams_first {fuel : Nat} (hEof : t.eof = false)
    (hm : (readParams (fuel + 1) 59 (sequenceStart t)).2.qMark = false) :
    (readParams (fuel + 1) 59 (sequenceStart t)).2.vt100Params 0 = firstParameter t.src := by
  obtain ⟨ht, hPtr, -, -⟩ := readParam_letters t.src (sequenceStart t)
  have hMore : (59 = (59 : Int) && (sequenceStart t).vt100.length < 8 && !(sequenceStart t).eof) = true := by
    simp [sequenceStart, hEof]
  rw [readParams, if_pos hMore] at hm ⊢
  dsimp only at hm ⊢
  by_cases hq : (readParam t.src (sequenceStart t)).1 = 63
  · rw [show (sequenceStart t).src = t.src from rfl, if_pos hq] at hm
    rw [(readParams_keeps _ _ _).2 rfl] at hm
    cases hm
  · rw [show (sequenceStart t).src = t.src from rfl, if_neg hq]
    rw [(readParams_keeps _ _ _).1 0 (by simp [endParam])]
    simp only [endParam, hPtr, ht]
    rfl

/-! The documented ranges. -/

/-- What the parameters 0, 1 and 2 of an erase sequence select. -/
inductive Extent where
  | toEnd
  | fromStart
  | all

def Extent.parameter : Extent → Int
  | .toEnd => 0
  | .fromStart => 1
  | .all => 2

/-- The cells of the screen, from column `x` and row `y` of the cursor. -/
def Extent.OnScreen (cX cY x y : Int) : Extent → Prop
  | .toEnd => cY < y ∨ y = cY ∧ cX ≤ x
  | .fromStart => y < cY ∨ y = cY ∧ x < cX
  | .all => True

def Extent.OnLine (cX cY x y : Int) : Extent → Prop
  | .toEnd => y = cY ∧ cX ≤ x
  | .fromStart => y = cY ∧ x < cX
  | .all => y = cY

def Clears (call : Option (Int × Int)) (x y : Int) : Prop :=
  ∃ start len, call = some (start, len) ∧ start ≤ x + y * width ∧ x + y * width < start + len

/-- The call stays on the screen, and `CSI J` and `CSI K` clear what they are documented to
clear. -/
structure ErasesRight (call : Option (Int × Int)) (final parameter cX cY : Int) : Prop where
  bounds : ∀ start len, call = some (start, len) → 0 ≤ start ∧ 0 ≤ len ∧ start + len ≤ width * height
  screen : final = 74 → ∀ extent : Extent, parameter = extent.parameter → ∀ x y, 0 ≤ x → x < width →
    0 ≤ y → y < height → (Clears call x y ↔ extent.OnScreen cX cY x y)
  line : final = 75 → ∀ extent : Extent, parameter = extent.parameter → ∀ x y, 0 ≤ x → x < width →
    0 ≤ y → y < height → (Clears call x y ↔ extent.OnLine cX cY x y)

variable {start len : Int} {extent : Extent}

lemma clears_some :
    Clears (some (start, len)) x y ↔ start ≤ x + y * width ∧ x + y * width < start + len := by
  constructor
  · rintro ⟨s, l, hc, hi⟩
    obtain ⟨rfl, rfl⟩ := Prod.mk.inj (Option.some.inj hc)
    exact hi
  · intro hi
    exact ⟨start, len, rfl, hi⟩

lemma eraseCall_bounds (h : OnScreen t) {b : Int}
    (hTop : ¬ (b = 74 ∧ t.vt100Params 0 = 1 ∧ 0 < t.cY)) (hc : eraseCall b t = some (start, len)) :
    0 ≤ start ∧ 0 ≤ len ∧ start + len ≤ width * height := by
  have hX := h.column
  have hY := h.row
  unfold width at hX
  unfold height at hY
  unfold eraseCall screenCall width height at hc
  unfold width height
  split at hc
  case h_3 hChar =>
    have hByte : b = 74 := eq_of_charOf hChar (by decide)
    grind
  all_goals grind

lemma eraseCall_screen (h : OnScreen t) (hTop : ¬ (t.vt100Params 0 = 1 ∧ 0 < t.cY))
    (he : t.vt100Params 0 = extent.parameter) (hCol : 0 ≤ x ∧ x < width)
    (hRow : 0 ≤ y ∧ y < height) : Clears (eraseCall 74 t) x y ↔ extent.OnScreen t.cX t.cY x y := by
  have hX := h.column
  have hY := h.row
  have hErase : eraseCall 74 t = screenCall (t.vt100Params 0) (some (0, t.cX - t.cY * width)) t := rfl
  rw [hErase, screenCall, he]
  rw [he] at hTop
  unfold width at *
  cases extent with
  | toEnd =>
    rw [if_neg (by decide), if_neg (by decide), clears_some]
    simp only [Extent.OnScreen, width]
    omega
  | fromStart =>
    rw [if_pos (by decide), clears_some]
    simp only [Extent.OnScreen, Extent.parameter, width, true_and] at hTop ⊢
    omega
  | all =>
    rw [if_neg (by decide), if_pos (by decide), clears_some]
    simp only [Extent.OnScreen, width, iff_true]
    omega

lemma eraseCall_line (h : OnScreen t) (he : t.vt100Params 0 = extent.parameter)
    (hCol : 0 ≤ x ∧ x < width) : Clears (eraseCall 75 t) x y ↔ extent.OnLine t.cX t.cY x y := by
  have hX := h.column
  have hErase : eraseCall 75 t =
    if t.vt100Params 0 = 1 then some (t.cY * width, t.cX)
    else if t.vt100Params 0 = 2 then some (t.cY * width, width)
    else some (t.cY * width + t.cX, width - t.cX) := rfl
  rw [hErase, he]
  unfold width at *
  cases extent with
  | toEnd =>
    rw [if_neg (by decide), if_neg (by decide), clears_some]
    simp only [Extent.OnLine, width]
    omega
  | fromStart =>
    rw [if_pos (by decide), clears_some]
    simp only [Extent.OnLine, width]
    omega
  | all =>
    rw [if_neg (by decide), if_pos (by decide), clears_some]
    simp only [Extent.OnLine, width]
    omega

lemma erasesRight_iff (h : OnScreen t) (b : Int) :
    ErasesRight (eraseCall b t) b (t.vt100Params 0) t.cX t.cY ↔
      ¬ (b = 74 ∧ t.vt100Params 0 = 1 ∧ 0 < t.cY) := by
  constructor
  · rintro hr ⟨rfl, hOne, hb⟩
    have hc : eraseCall 74 t = some (0, t.cX - t.cY * width) := by
      show screenCall (t.vt100Params 0) (some (0, t.cX - t.cY * width)) t = _
      rw [screenCall, if_pos hOne]
    have hLen := (hr.bounds _ _ hc).2.1
    have hX := h.column
    unfold width at hX hLen
    omega
  · intro hTop
    refine ⟨fun start len => eraseCall_bounds h hTop, ?_, ?_⟩
    · rintro rfl extent he x y hl hr ha hb
      exact eraseCall_screen h (fun hBoth => hTop ⟨rfl, hBoth⟩) he ⟨hl, hr⟩ ⟨ha, hb⟩
    · rintro rfl extent he x y hl hr _ _
      exact eraseCall_line h he ⟨hl, hr⟩

lemma nextCall_eq {s : Bytes} (ht : t.src = 27 :: 91 :: s) :
    nextCall t = sequenceCall { t with src := s } := by
  unfold nextCall
  rw [fgetc_cons ht]
  rfl

/-- A sequence without question marks acts on what its text says. -/
lemma erasesRight_sequence_iff (h : OnScreen t) (hEof : t.eof = false)
    (hPlain : (scan 0 0 t.src).question = false) :
    ErasesRight (sequenceCall t) (scan 0 0 t.src).final (firstParameter t.src) t.cX t.cY ↔
      ¬ ((scan 0 0 t.src).final = 74 ∧ firstParameter t.src = 1 ∧ 0 < t.cY) := by
  obtain ⟨-, hf, -, hm⟩ :
    Agrees (scan 0 0 t.src) _ (readParams (t.src.length + 1) 59 (sequenceStart t)) false :=
    agrees_readParams _ (sequenceStart t) (Nat.lt_succ_self _) hEof (by simp [sequenceStart])
  rw [hPlain] at hm
  have hFirst := readParams_first hEof hm
  have hp : (readParams (t.src.length + 1) 59 (sequenceStart t)).2.place = t.place := place_readParams ..
  have hCol : (readParams (t.src.length + 1) 59 (sequenceStart t)).2.cX = t.cX := congrArg (·.1) hp
  have hRow : (readParams (t.src.length + 1) 59 (sequenceStart t)).2.cY = t.cY := congrArg (·.2.1) hp
  have hr := erasesRight_iff (h.congr hp) (scan 0 0 t.src).final
  rw [hFirst, hCol, hRow] at hr
  rw [sequenceCall]
  dsimp only
  rw [hf, if_neg (by simp [hm])]
  exact hr

theorem erase_ranges_iff (e : Emulator) (src : Bytes) (iterations : Nat) {s : Bytes}
    (hText : (ansiCopyLoop iterations (fresh (ansiInit e) src)).src = 27 :: 91 :: s)
    (hPlain : (scan 0 0 s).question = false) :
    ErasesRight (nextCall (ansiCopyLoop iterations (fresh (ansiInit e) src))) (scan 0 0 s).final (firstParameter s)
      (ansiCopyLoop iterations (fresh (ansiInit e) src)).cX (ansiCopyLoop iterations (fresh (ansiInit e) src)).cY ↔
      ¬ ((scan 0 0 s).final = 74 ∧ firstParameter s = 1 ∧
        0 < (ansiCopyLoop iterations (fresh (ansiInit e) src)).cY) := by
  have hScreen := onScreen_ansiCopyLoop (onScreen_fresh e src) iterations
  have hDrained := drained_ansiCopyLoop (t := fresh (ansiInit e) src) (fun hEof => nomatch hEof) iterations
  have hEof := hDrained.eof_eq_false (by simp [hText])
  rw [nextCall_eq hText]
  exact erasesRight_sequence_iff (t := { ansiCopyLoop iterations (fresh (ansiInit e) src) with src := s })
    (hScreen.congr rfl) hEof hPlain

/-- Erasing the second line up to its start. -/
theorem erase_ranges_second_line :
    ErasesRight (nextCall (ansiCopyLoop 1 (fresh (ansiInit Emulator.start) (text "\n\x1b[1K")))) 75 1 0 1 :=
  (erase_ranges_iff Emulator.start (text "\n\x1b[1K") 1 (s := text "1K") (by decide +kernel) (by decide +kernel)).2
    (by decide +kernel)

/-- On the second line the cells before the cursor are counted as `-120`. -/
theorem screen_start_overruns :
    ¬ ErasesRight (nextCall (ansiCopyLoop 1 (fresh (ansiInit Emulator.start) (text "\n\x1b[1J")))) 74 1 0 1 := by
  intro hRight
  exact absurd (hRight.bounds 0 (-120) (by decide +kernel)).2.1 (by decide)

end Terminal
end Channel
