import Sshfortress.Base.Bytes

/-! The terminal emulator that turns the recorded screen output of a session into
text lines. The C code works on global arrays with signed indices; `fault` notes
the first access that leaves an array or the first undefined shift, after which
the C program has no defined behaviour. -/
namespace Channel
open Base
open Function (update)

def width : Int := 120

def height : Int := 60

/-- The globals (and the one function-local static) that outlive a call. The
counter `vt100_ptr` is the length of `vt100`. -/
structure Emulator where
  (cX cY maxcX maxcY : Int)
  vt100 : Bytes
  vt100Params : Nat → Int
  paramPtr : Nat
  (currentMode currentCol : UInt8)
  (cXSave cYSave : Int)
  qMark : Bool
  pMark : Nat

def Emulator.start : Emulator where
  cX := 0
  cY := 0
  maxcX := 0
  maxcY := 0
  vt100 := []
  vt100Params := fun _ => 0
  paramPtr := 0
  currentMode := 0
  currentCol := 7
  cXSave := 0
  cYSave := 0
  qMark := false
  pMark := 0

/-- The parameters of the last sequence and `p_mark` are not reset. -/
def ansiInit (e : Emulator) : Emulator :=
  { e with
    cX := 0, cY := 0, maxcX := 0, maxcY := 0, vt100 := [], paramPtr := 0, currentMode := 0,
    currentCol := 7, cXSave := 0, cYSave := 0, qMark := false }

/-- The emulator at work: the arrays of this call, the file read and the file
written. -/
structure Terminal extends Emulator where
  (out outMode outCol outSize : Int → UInt8)
  src : Bytes
  eof : Bool
  dst : Bytes
  fault : Bool

namespace Terminal

def InScreen (i : Int) : Bool := 0 ≤ i && i < width * height

def InRows (i : Int) : Bool := 0 ≤ i && i < height

/-- A plain `char`, as the target's compiler reads a byte. -/
def signed (c : UInt8) : Int := if c < 128 then c.toNat else c.toNat - 256

def unsigned (b : Int) : UInt8 := UInt8.ofNat (b % 256).toNat

def fgetc (t : Terminal) : Int × Terminal :=
  match t.src with
  | [] => (-1, { t with eof := true })
  | c :: rest => (signed c, { t with src := rest })

/-- Pushing back end-of-file, which also the byte 255 looks like, does nothing. -/
def ungetc (b : Int) (t : Terminal) : Terminal :=
  if b = -1 then t else { t with src := unsigned b :: t.src, eof := false }

def clearCells (start len : Int) (t : Terminal) : Terminal :=
  let clear (cells : Int → UInt8) (value : UInt8) : Int → UInt8 := fun i =>
    if start ≤ i && i < start + len then value else cells i
  { t with
    out := clear t.out 32, outMode := clear t.outMode 0, outCol := clear t.outCol 0
    fault := t.fault || !(0 ≤ start && 0 ≤ len && start + len ≤ width * height) }

def printLine (line : Int) (t : Terminal) : Terminal :=
  let wide := t.outSize line &&& 1 ≠ 0
  let tall := t.outSize line &&& 2 ≠ 0
  let columns := (List.range (t.maxcX + 1).toNat).filter fun x : Nat =>
    !((wide || tall) && t.maxcX / 2 < x)
  let cell (x : Nat) : Bytes :=
    let i := x + line * width
    let shown := if t.outMode i &&& 128 ≠ 0 then 32 else t.out i
    if wide && !tall then [shown, 32] else [shown]
  { t with
    dst := t.dst ++ columns.flatMap cell ++ [10]
    fault := t.fault || !InRows line || columns.any fun x : Nat => !InScreen (x + line * width) }

def printLines (count : Nat) (t : Terminal) : Terminal :=
  (List.range count).foldl (fun t line => printLine line t) t

def putChar (b : Int) (t : Terminal) : Terminal :=
  let i := t.cX + t.cY * width
  { t with
    out := update t.out i (unsigned b)
    outMode := update t.outMode i t.currentMode
    outCol := update t.outCol i t.currentCol
    fault := t.fault || !InScreen i
    cX := t.cX + 1 }

def setSize (size : UInt8) (t : Terminal) : Terminal :=
  { t with
    outSize := update t.outSize t.cY size
    fault := t.fault || !InRows t.cY }

def formFeed (t : Terminal) : Terminal :=
  let t := clearCells 0 (width * height) (printLines (t.maxcY + 1).toNat t)
  { t with
    outSize := fun i => if InRows i then 0 else t.outSize i
    cX := 0, cY := 0, maxcX := 0, maxcY := 0 }

/-- The inner loop that collects the characters of one parameter. It stops at the
first byte above `'9'`, with no bound on what it stores. -/
def readParam : Bytes → Terminal → Int × Terminal
  | [], t => (-1, { t with src := [], eof := true })
  | c :: rest, t =>
    if signed c ≤ 57 then
      readParam rest { t with vt100 := t.vt100 ++ [c], fault := t.fault || 8 ≤ t.vt100.length }
    else
      (signed c, { t with src := rest })

def isSpace (c : UInt8) : Bool := c = 32 || (9 ≤ c && c ≤ 13)

def digitsValue (s : Bytes) : Nat :=
  (s.takeWhile fun c => 48 ≤ c && c ≤ 57).foldl (fun n c => n * 10 + (c.toNat - 48)) 0

def atoi (s : Bytes) : Int :=
  match (cstr s).dropWhile isSpace with
  | 43 :: rest => digitsValue rest
  | 45 :: rest => -digitsValue rest
  | rest => digitsValue rest

def endParam (t : Terminal) : Terminal :=
  { t with
    vt100Params := update t.vt100Params t.paramPtr (atoi t.vt100)
    paramPtr := t.paramPtr + 1
    vt100 := []
    fault := t.fault || 8 ≤ t.vt100.length || 10 ≤ t.paramPtr }

def readParams : Nat → Int → Terminal → Int × Terminal
  | 0, b, t => (b, t)
  | fuel + 1, b, t =>
    if b = 59 && t.vt100.length < 8 && !t.eof then
      let (b, t) := readParam t.src t
      if b = 63 then readParams fuel 59 { t with qMark := true }
      else readParams fuel b (endParam t)
    else (b, t)

def questionAction (b : Int) (t : Terminal) : Terminal :=
  match b with
  | 8 => { t with cX := t.cX - 1 }
  | 9 => { t with cX := t.cX / 9 + 9 }
  | 10 => { t with cX := 0, cY := t.cY + 1 }
  | 11 => { t with cY := t.cY + 1 }
  | 12 => { t with cY := t.cY + 1 }
  | 13 => { t with cX := 0 }
  | _ => t

def colour (t : Terminal) (p : Int) : Terminal :=
  let mode :=
    if p = 0 then t.currentMode &&& 32
    else if p ≤ 8 then t.currentMode ||| (1 <<< UInt8.ofNat (p - 1).toNat)
    else t.currentMode
  let col :=
    if 30 ≤ p && p ≤ 37 then UInt8.ofNat (p - 30).toNat ||| (t.currentCol &&& 0xf0)
    else if 40 ≤ p && p ≤ 47 then UInt8.ofNat ((p - 40) * 16).toNat ||| (t.currentCol &&& 0xf)
    else t.currentCol
  { t with currentMode := mode, currentCol := col, fault := t.fault || p < 0 }

/-- Everything, or everything from the cursor on; the callers differ in mode 1. -/
def eraseScreen (mode : Int) (one : Terminal → Terminal) (t : Terminal) : Terminal :=
  let i := t.cX + t.cY * width
  match mode with
  | 1 => one t
  | 2 => clearCells 0 (width * height) t
  | _ => clearCells i (width * height - i) t

/-- What the byte that ends a control sequence does. -/
def action (b : Int) (t : Terminal) : Terminal :=
  let p := t.vt100Params 0
  let count := if 0 < p then p else 1
  let row := if p = 0 then 0 else p - 1
  match Char.ofNat b.toNat with
  | 'H' | 'f' =>
    let q := t.vt100Params 1
    { t with cY := row, cX := if q = 0 then 0 else q - 1 }
  | 'A' => { t with cY := t.cY - count }
  | 'B' => { t with cY := t.cY + count }
  | 'C' => { t with cX := t.cX + count }
  | 'D' => { t with cX := t.cX - count }
  | 'P' => eraseScreen p id { t with pMark := t.pMark + 1 }
  | '@' =>
    if t.pMark = 0 then
      let t := { t with cX := max (t.cX - count) 0 }
      if 0 < t.cX - t.cY * width then clearCells 0 (t.cX - t.cY * width) t
      else clearCells 0 t.cX t
    else t
  | 'd' => { t with cY := row }
  | 'e' => { t with cY := t.cY + p }
  | 's' => { t with cXSave := t.cX, cYSave := t.cY }
  | 'u' => { t with cX := t.cXSave, cY := t.cYSave }
  | 'J' => eraseScreen p (clearCells 0 (t.cX - t.cY * width)) t
  | 'K' =>
    match p with
    | 1 => clearCells (t.cY * width) t.cX t
    | 2 => clearCells (t.cY * width) width t
    | _ => clearCells (t.cY * width + t.cX) (width - t.cX) t
  | 'm' => ((List.range t.paramPtr).map t.vt100Params).foldl colour t
  | _ => t

def controlSequence (t : Terminal) : Terminal :=
  let t : Terminal :=
    { t with
      vt100 := []
      vt100Params := fun i => if i < t.paramPtr then 0 else t.vt100Params i
      paramPtr := 0, qMark := false }
  let (b, t) := readParams (t.src.length + 1) 59 t
  if t.qMark then questionAction b t else action b t

/-- The byte after `ESC` and what follows it. An unknown one is pushed back. -/
def escape (t : Terminal) : Terminal :=
  let (b, t) := fgetc t
  match Char.ofNat b.toNat with
  | '7' => { t with cXSave := t.cX, cYSave := t.cY }
  | '8' => { t with cX := t.cXSave, cY := t.cYSave }
  | '#' =>
    let (b, t) := fgetc t
    match Char.ofNat b.toNat with
    | '3' => setSize 2 t
    | '4' => setSize 4 t
    | '5' => setSize 0 t
    | '6' => setSize 1 t
    | _ => t
  | 'P' => (fgetc t).2
  | '\\' => t
  | '(' =>
    let (b, t) := fgetc t
    if b = 48 then { t with currentMode := t.currentMode ||| 32 }
    else { t with currentMode := t.currentMode &&& 223 }
  | ']' =>
    let (b, t) := fgetc t
    if b = 48 then (fgetc t).2 else t
  | '[' => controlSequence t
  | _ => ungetc b t

def control (b : Int) (t : Terminal) : Terminal :=
  match b with
  | 8 => { t with cX := t.cX - 1 }
  | 9 => { t with cX := if t.cX % 9 = 0 then t.cX / 9 + 9 else t.cX + 1 }
  | 10 => { t with cX := 0, cY := t.cY + 1 }
  | 11 => { t with cY := t.cY + 1 }
  | 12 => formFeed t
  | 13 => { t with cX := 0 }
  | 27 => escape t
  | _ => t

/-- Bring the cursor back onto the screen, or one line below it. -/
def clamp (t : Terminal) : Terminal :=
  let t := if t.cX < 0 then { t with cX := width - 1, cY := t.cY - 1 } else t
  let t := if t.cY < 0 then { t with cY := 0 } else t
  if width ≤ t.cX then { t with cX := 0, cY := t.cY + 1 } else t

/-- Print the lines that leave the screen and move the others up. The sizes of
the new lines are not reset. -/
def scroll (t : Terminal) : Terminal :=
  if height ≤ t.cY then
    let lines := min (t.cY - height + 1) (height - 1)
    let t := printLines lines.toNat t
    let moved (cells : Int → UInt8) (stride : Int) : Int → UInt8 := fun i =>
      if 0 ≤ i && i < (height - lines) * stride then cells (i + lines * stride) else cells i
    let t := clearCells ((height - lines) * width) (lines * width) { t with
        out := moved t.out width, outMode := moved t.outMode width
        outCol := moved t.outCol width, outSize := moved t.outSize 1 }
    { t with cY := height - 1 }
  else t

def widen (t : Terminal) : Terminal :=
  let column := t.cX * (if t.outSize t.cY ≠ 0 then 2 else 1)
  { t with
    maxcX := if t.maxcX < column then column else t.maxcX
    maxcY := if t.maxcY < t.cY then t.cY else t.maxcY }

def iteration (t : Terminal) : Terminal :=
  let (b, t) := fgetc t
  widen (scroll (clamp (if 31 < b && b < 127 then putChar b t else control b t)))

def ansiCopyLoop : Nat → Terminal → Terminal
  | 0, t => t
  | fuel + 1, t => if t.eof then t else ansiCopyLoop fuel (iteration t)

/-- Each iteration uses up a byte or meets the end of the file, so the fuel is
never the reason to stop: see `ansiCopyLoop_eof`. -/
def ansiCopy (t : Terminal) : Terminal := ansiCopyLoop (t.src.length + 1) t

/-! What the parts of the emulator leave alone. -/

section Keeps

variable {α β : Type} (view : Terminal → α) {t : Terminal}

lemma keeps_foldl {f : Terminal → β → Terminal} {l : List β} (h : ∀ t b, view (f t b) = view t) :
    view (l.foldl f t) = view t := by
  induction l generalizing t with
  | nil => rfl
  | cons b l ih => exact ih.trans (h t b)

lemma keeps_fgetc (h : ∀ t src eof, view { t with src := src, eof := eof } = view t) :
  view (fgetc t).2 = view t := by
  unfold fgetc
  cases t.src with
  | nil => exact h t [] true
  | cons c rest => exact h t rest t.eof

lemma keeps_readParams (h : ∀ t vt100 params ptr mark fault src eof, view { t with
    vt100 := vt100, vt100Params := params, paramPtr := ptr, qMark := mark
    fault := fault, src := src, eof := eof } = view t) {fuel : Nat} {b : Int} :
    view (readParams fuel b t).2 = view t := by
  have hr : ∀ (s : Bytes) (t : Terminal), view (readParam s t).2 = view t := by
    intro s
    induction s with
    | nil => exact fun t => h t t.vt100 t.vt100Params t.paramPtr t.qMark t.fault [] true
    | cons c rest ih =>
      intro t
      rw [readParam]
      split_ifs
      · exact (ih _).trans (h t _ _ _ _ _ _ _)
      · exact h t t.vt100 t.vt100Params t.paramPtr t.qMark t.fault rest t.eof
  induction fuel generalizing b t with
  | zero => rfl
  | succ fuel ih =>
    rw [readParams]
    split_ifs
    · dsimp only
      split_ifs
      · exact ih.trans ((h _ _ _ _ _ _ _ _).trans (hr t.src t))
      · exact ih.trans ((h _ _ _ _ _ _ _ _).trans (hr t.src t))
    · rfl

lemma keeps_eraseScreen {mode : Int} {one : Terminal → Terminal} (hOne : ∀ t, view (one t) = view t)
    (hc : ∀ start len t, view (clearCells start len t) = view t) :
    view (eraseScreen mode one t) = view t := by
  unfold eraseScreen
  split
  · exact hOne t
  · exact hc _ _ t
  · exact hc _ _ t

end Keeps

/-- How far the file has been read. Everything but the reading functions keeps it. -/
def input (t : Terminal) : Bytes × Bool := (t.src, t.eof)

@[simp] lemma input_clearCells (start len : Int) (t : Terminal) :
    (clearCells start len t).input = t.input := rfl

@[simp] lemma input_putChar (b : Int) (t : Terminal) : (putChar b t).input = t.input := rfl

variable (t)

@[simp] lemma input_widen : (widen t).input = t.input := rfl

@[simp] lemma input_printLines (count : Nat) (t : Terminal) : (printLines count t).input = t.input :=
  keeps_foldl input fun _ _ => rfl

@[simp] lemma input_formFeed : (formFeed t).input = t.input :=
  input_printLines _ t

@[simp] lemma input_clamp : (clamp t).input = t.input := by
  unfold clamp
  dsimp only
  split_ifs <;> rfl

@[simp] lemma input_scroll : (scroll t).input = t.input := by
  unfold scroll
  split_ifs
  · exact input_printLines _ t
  · rfl

variable {t}

@[simp] lemma input_questionAction (b : Int) (t : Terminal) : (questionAction b t).input = t.input := by
  unfold questionAction
  split <;> rfl

@[simp] lemma input_action (b : Int) (t : Terminal) : (action b t).input = t.input := by
  unfold action
  dsimp only
  split
  case h_7 => exact keeps_eraseScreen input (fun _ => rfl) input_clearCells
  case h_8 => split_ifs <;> rfl
  case h_13 => exact keeps_eraseScreen input (input_clearCells _ _) input_clearCells
  case h_14 => split <;> rfl
  case h_15 => exact keeps_foldl input fun _ _ => rfl
  all_goals rfl

variable {t : Terminal} {fuel : Nat}

lemma src_of_input {u : Terminal} (h : t.input = u.input) : t.src = u.src :=
  congrArg Prod.fst h

variable (t)

lemma fgetc_src_le : (fgetc t).2.src.length ≤ t.src.length := by
  unfold fgetc
  cases hSrc : t.src with
  | nil => simp
  | cons c rest => simp

lemma ungetc_fgetc_src_le : (ungetc (fgetc t).1 (fgetc t).2).src.length ≤ t.src.length := by
  unfold fgetc ungetc
  cases hSrc : t.src with
  | nil => simp
  | cons c rest =>
    split_ifs <;> simp

lemma readParam_src_le (s : Bytes) (t : Terminal) : (readParam s t).2.src.length ≤ s.length := by
  induction s generalizing t with
  | nil => simp [readParam]
  | cons c rest ih =>
    unfold readParam
    split_ifs
    · exact (ih _).trans (by simp)
    · simp

lemma readParams_src_le (fuel : Nat) (b : Int) (t : Terminal) :
    (readParams fuel b t).2.src.length ≤ t.src.length := by
  induction fuel generalizing b t with
  | zero => exact Nat.le_refl _
  | succ fuel ih =>
    unfold readParams
    have hr := readParam_src_le t.src t
    split_ifs
    · dsimp only
      split_ifs
      · exact (ih _ _).trans hr
      · exact (ih _ _).trans hr
    · exact Nat.le_refl _

lemma controlSequence_src_le : (controlSequence t).src.length ≤ t.src.length := by
  unfold controlSequence
  dsimp only
  split_ifs
  · rw [src_of_input (input_questionAction _ _)]
    exact readParams_src_le ..
  · rw [src_of_input (input_action _ _)]
    exact readParams_src_le ..

/-- An escape sequence never lengthens what is left of the file: at most the byte
just read is pushed back. -/
lemma escape_src_le : (escape t).src.length ≤ t.src.length := by
  have hf := fgetc_src_le t
  have hSnd := (fgetc_src_le (fgetc t).2).trans hf
  have ht := (fgetc_src_le (fgetc (fgetc t).2).2).trans hSnd
  unfold escape
  dsimp only
  split
  case h_8 => exact (controlSequence_src_le _).trans hf
  case h_9 => exact ungetc_fgetc_src_le t
  case h_3 => split <;> exact hSnd
  case h_4 => exact hSnd
  case h_6 => split_ifs <;> exact hSnd
  case h_7 =>
    split_ifs
    · exact ht
    · exact hSnd
  all_goals exact hf

variable {t}

lemma control_src_le (b : Int) (t : Terminal) : (control b t).src.length ≤ t.src.length := by
  unfold control
  split
  case h_5 => exact (congrArg List.length (src_of_input (input_formFeed t))).le
  case h_7 => exact escape_src_le t
  all_goals exact Nat.le_refl _

lemma iteration_eof (h : t.src = []) : (iteration t).eof = true := by
  have hi : (iteration t).input = (fgetc t).2.input := by
    unfold iteration
    simp [fgetc, h, control]
  exact (congrArg Prod.snd hi).trans (by simp [input, fgetc, h])

lemma iteration_src_lt (h : t.src ≠ []) : (iteration t).src.length < t.src.length := by
  obtain ⟨c, rest, hSrc⟩ := List.exists_cons_of_ne_nil h
  have hr : (fgetc t).2.src = rest := by simp [fgetc, hSrc]
  have hLen : rest.length < t.src.length := by simp [hSrc]
  unfold iteration
  rw [src_of_input (input_widen _), src_of_input (input_scroll _), src_of_input (input_clamp _)]
  split_ifs
  · rw [src_of_input (input_putChar _ _), hr]
    exact hLen
  · refine (control_src_le _ _).trans_lt ?_
    rw [hr]
    exact hLen

lemma ansiCopyLoop_keeps (holds : Terminal → Prop) (hs : ∀ t, holds t → holds (iteration t)) (h : holds t)
    (fuel : Nat) : holds (ansiCopyLoop fuel t) := by
  induction fuel generalizing t with
  | zero => exact h
  | succ fuel ih =>
    rw [ansiCopyLoop]
    split_ifs
    · exact h
    · exact ih (hs t h)

lemma readParam_ends (s : Bytes) (t : Terminal) :
    (readParam s t).2.src.length < s.length ∨ (readParam s t).2.eof = true := by
  induction s generalizing t with
  | nil => exact .inr rfl
  | cons c rest ih =>
    rw [readParam]
    split_ifs
    · exact (ih _).imp_left fun hl => hl.trans (Nat.lt_succ_self _)
    · exact .inl (Nat.lt_succ_self _)

lemma readParams_stops {b : Int} (h : t.src.length < fuel ∨ t.eof = true) : let last := readParams fuel b t
  ¬ (last.1 = 59 ∧ last.2.vt100.length < 8 ∧ last.2.eof = false) := by
  induction fuel generalizing b t with
  | zero => simp [readParams, h.resolve_left (Nat.not_lt_zero _)]
  | succ fuel ih =>
    rw [readParams]
    split_ifs with hg
    · have he : (readParam t.src t).2.src.length < fuel ∨ (readParam t.src t).2.eof = true := by
        refine (readParam_ends t.src t).imp_left fun hLess => ?_
        have hFuel := h.resolve_right (by simp_all)
        omega
      dsimp only
      split_ifs
      · exact ih he
      · exact ih he
    · simpa using hg

lemma ansiCopyLoop_eof (h : t.src.length < fuel ∨ t.eof = true) : (ansiCopyLoop fuel t).eof = true := by
  induction fuel generalizing t with
  | zero => exact h.resolve_left (Nat.not_lt_zero _)
  | succ fuel ih =>
    rw [ansiCopyLoop]
    split_ifs with hEnd
    · exact hEnd
    · apply ih
      by_cases hSrc : t.src = []
      · exact .inr (iteration_eof hSrc)
      · have hLess := iteration_src_lt hSrc
        have hFuel := h.resolve_right hEnd
        exact .inl (by omega)

/-- Both loops end by their own conditions, with one round for each byte and one for the end. -/
theorem ansi_copy_terminates (t : Terminal) (more : Nat) :
    (ansiCopyLoop (t.src.length + 1 + more) t).eof = true ∧
      (∀ b, let last := readParams (t.src.length + 1 + more) b t
        ¬ (last.1 = 59 ∧ last.2.vt100.length < 8 ∧ last.2.eof = false)) ∧
      ((iteration t).src.length < t.src.length ∨ (iteration t).eof = true) := by
  refine ⟨ansiCopyLoop_eof (.inl (by omega)), fun b => readParams_stops (.inl (by omega)), ?_⟩
  by_cases hSrc : t.src = []
  · exact .inr (iteration_eof hSrc)
  · exact .inl (iteration_src_lt hSrc)

end Terminal
end Channel
