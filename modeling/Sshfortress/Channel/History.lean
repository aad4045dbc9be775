import Sshfortress.Channel.Screen

/-! What the text of one command owes to the commands before it. `ansi_init` leaves
`p_mark` and the parameters of the last control sequences as they are. Parameters that a
later sequence does not give are read in one place, the column of a cursor position. -/
namespace Channel
open Base List
open Function (update update_of_ne update_self)
namespace Terminal

def withParams (p : Nat → Int) (n : Nat) (t : Terminal) : Terminal :=
  { t with vt100Params := p, paramPtr := n }

/-- Neither reads nor writes the parameters. -/
def Ignores (f : Terminal → Terminal) : Prop := ∀ p n t, f (withParams p n t) = withParams p n (f t)

lemma Ignores.comp {f g : Terminal → Terminal} (hg : Ignores g) (hf : Ignores f) :
    Ignores fun t => g (f t) := by
  intro p n t
  show g (f (withParams p n t)) = withParams p n (g (f t))
  rw [hf, hg]

lemma Ignores.foldl {α : Type} {f : Terminal → α → Terminal} (hf : ∀ a, Ignores (f · a))
    (l : List α) : Ignores (l.foldl f) := by
  induction l with
  | nil => exact fun _ _ _ => rfl
  | cons a l ih => exact ih.comp (hf a)

lemma Ignores.ite {f g : Terminal → Terminal} (hf : Ignores f) (hg : Ignores g)
    {c : Terminal → Prop} [DecidablePred c] (hc : ∀ p n t, c (withParams p n t) ↔ c t) :
    Ignores fun t => if c t then f t else g t := by
  intro p n t
  by_cases h : c t
  · simp only [if_pos h, if_pos ((hc p n t).2 h), hf p n t]
  · simp only [if_neg h, if_neg (mt (hc p n t).1 h), hg p n t]

lemma ignores_clearCells (start len : Int) : Ignores (clearCells start len) := fun _ _ _ => rfl

lemma ignores_putChar (b : Int) : Ignores (putChar b) := fun _ _ _ => rfl

lemma ignores_setSize (size : UInt8) : Ignores (setSize size) := fun _ _ _ => rfl

lemma ignores_widen : Ignores widen := fun _ _ _ => rfl

lemma ignores_printLines (count : Nat) : Ignores (printLines count) :=
  Ignores.foldl (fun _ _ _ _ => rfl) _

lemma ignores_formFeed : Ignores formFeed := by
  intro p n t
  have hp := ignores_printLines (t.maxcY + 1).toNat p n t
  unfold formFeed
  rw [show (withParams p n t).maxcY = t.maxcY from rfl, hp]
  rfl

lemma ignores_questionAction (b : Int) : Ignores (questionAction b) := by
  intro p n t
  unfold questionAction
  split <;> rfl

lemma ignores_colours (params : List Int) : Ignores (params.foldl colour) :=
  Ignores.foldl (fun _ _ _ _ => rfl) _

lemma ignores_clamp : Ignores clamp := by
  have hl : Ignores fun t => if t.cX < 0 then { t with cX := width - 1, cY := t.cY - 1 } else t :=
    Ignores.ite (fun _ _ _ => rfl) (fun _ _ _ => rfl) fun _ _ _ => Iff.rfl
  have hTop : Ignores fun t => if t.cY < 0 then { t with cY := 0 } else t :=
    Ignores.ite (fun _ _ _ => rfl) (fun _ _ _ => rfl) fun _ _ _ => Iff.rfl
  have hr : Ignores fun t => if width ≤ t.cX then { t with cX := 0, cY := t.cY + 1 } else t :=
    Ignores.ite (fun _ _ _ => rfl) (fun _ _ _ => rfl) fun _ _ _ => Iff.rfl
  exact hr.comp (hTop.comp hl)

lemma ignores_scroll : Ignores scroll := by
  intro p n t
  unfold scroll
  rw [show (withParams p n t).cY = t.cY from rfl]
  split_ifs
  · dsimp only
    rw [ignores_printLines]
    rfl
  · rfl

lemma ignores_ungetc (b : Int) : Ignores (ungetc b) := by
  intro p n t
  unfold ungetc
  split_ifs <;> rfl

lemma fgetc_withParams (p : Nat → Int) (n : Nat) (t : Terminal) :
    fgetc (withParams p n t) = ((fgetc t).1, withParams p n (fgetc t).2) := by
  unfold fgetc
  rw [show (withParams p n t).src = t.src from rfl]
  cases t.src with
  | nil => rfl
  | cons c rest => rfl

lemma readParam_withParams (p : Nat → Int) (n : Nat) (s : Bytes) (t : Terminal) :
    readParam s (withParams p n t) = ((readParam s t).1, withParams p n (readParam s t).2) := by
  induction s generalizing t with
  | nil => rfl
  | cons c rest ih =>
    unfold readParam
    split_ifs
    · exact ih { t with vt100 := t.vt100 ++ [c], fault := t.fault || 8 ≤ t.vt100.length }
    · rfl

/-! Two terminals that differ in parameters nobody will read. -/

def column (q : Int) : Int := if q = 0 then 0 else q - 1

structure Agree (n : Nat) (p q : Nat → Int) : Prop where
  given : ∀ i < n, p i = q i
  column : column (p 1) = column (q 1)

def Alike (t u : Terminal) : Prop :=
  ∃ p, u = withParams p t.paramPtr t ∧ Agree t.paramPtr t.vt100Params p

lemma alike_withParams {p : Nat → Int} {t u : Terminal} (ha : Agree t.paramPtr t.vt100Params p)
    (hk : u = withParams t.vt100Params t.paramPtr u) : Alike u (withParams p t.paramPtr u) := by
  have hPtr : u.paramPtr = t.paramPtr := congrArg (·.paramPtr) hk
  have hp : u.vt100Params = t.vt100Params := congrArg (·.vt100Params) hk
  refine ⟨p, ?_, ?_⟩
  · rw [hPtr]
  · rw [hPtr, hp]
    exact ha

lemma Alike.map {f : Terminal → Terminal} (hf : Ignores f) {t u : Terminal} (h : Alike t u) :
    Alike (f t) (f u) := by
  obtain ⟨p, rfl, ha⟩ := h
  rw [hf p t.paramPtr t]
  exact alike_withParams ha (hf t.vt100Params t.paramPtr t)

lemma Alike.fgetc {t u : Terminal} (h : Alike t u) :
    (fgetc u).1 = (fgetc t).1 ∧ Alike (fgetc t).2 (fgetc u).2 := by
  have hi : Ignores fun t => (Terminal.fgetc t).2 := fun p n t =>
    congrArg Prod.snd (fgetc_withParams p n t)
  refine ⟨?_, h.map hi⟩
  obtain ⟨p, rfl, -⟩ := h
  rw [fgetc_withParams]

lemma Alike.readParam {t u : Terminal} (h : Alike t u) (s : Bytes) :
    (readParam s u).1 = (readParam s t).1 ∧ Alike (readParam s t).2 (readParam s u).2 := by
  have hi : Ignores fun t => (Terminal.readParam s t).2 := fun p n t =>
    congrArg Prod.snd (readParam_withParams p n s t)
  refine ⟨?_, h.map hi⟩
  obtain ⟨p, rfl, -⟩ := h
  rw [readParam_withParams]

lemma Alike.endParam {t u : Terminal} (h : Alike t u) : Alike (endParam t) (endParam u) := by
  obtain ⟨p, rfl, ha⟩ := h
  refine ⟨update p t.paramPtr (atoi t.vt100), rfl, fun i hi => ?_, ?_⟩
  · show update t.vt100Params t.paramPtr (atoi t.vt100) i = _
    by_cases hh : i = t.paramPtr
    · rw [hh, update_self, update_self]
    · rw [update_of_ne hh, update_of_ne hh]
      exact ha.given i (Nat.lt_of_le_of_ne (Nat.lt_succ_iff.1 hi) hh)
  · show column (update t.vt100Params t.paramPtr (atoi t.vt100) 1) = _
    by_cases hh : 1 = t.paramPtr
    · rw [← hh, update_self, update_self]
    · rw [update_of_ne hh, update_of_ne hh]
      exact ha.column

lemma Alike.readParams {t u : Terminal} (h : Alike t u) (fuel : Nat) (b : Int) :
    (readParams fuel b u).1 = (readParams fuel b t).1 ∧
      Alike (readParams fuel b t).2 (readParams fuel b u).2 := by
  induction fuel generalizing b t u with
  | zero => exact ⟨rfl, h⟩
  | succ fuel ih =>
    have hSrc : u.src = t.src ∧ u.vt100 = t.vt100 ∧ u.eof = t.eof := by
      obtain ⟨p, rfl, -⟩ := h
      exact ⟨rfl, rfl, rfl⟩
    obtain ⟨hb, hr⟩ := h.readParam t.src
    rw [Terminal.readParams, Terminal.readParams, hSrc.1, hSrc.2.1, hSrc.2.2]
    split_ifs with hMore
    · dsimp only
      rw [hb]
      split_ifs with hMark
      · exact ih (hr.map (f := fun t => { t with qMark := true }) fun _ _ _ => rfl) 59
      · exact ih hr.endParam _
    · exact ⟨rfl, h⟩

lemma readParams_given {fuel : Nat} {b : Int} {t : Terminal}
    (h : b = 59 ∨ t.qMark = true ∨ 0 < t.paramPtr) :
    (readParams fuel b t).1 = 59 ∨ (readParams fuel b t).2.qMark = true ∨
      0 < (readParams fuel b t).2.paramPtr := by
  induction fuel generalizing b t with
  | zero => exact h
  | succ fuel ih =>
    rw [readParams]
    split_ifs
    · dsimp only
      split_ifs
      · exact ih (.inl rfl)
      · exact ih (.inr (.inr (Nat.succ_pos _)))
    · exact h

lemma ignores_eraseScreen {one : Terminal → Terminal} (hOne : Ignores one) (mode : Int) :
    Ignores (eraseScreen mode one) := by
  intro p n t
  unfold eraseScreen
  split
  · exact hOne p n t
  · rfl
  · rfl

lemma ignores_insertBlanks (count : Int) : Ignores fun t =>
    if t.pMark = 0 then
      let t := { t with cX := max (t.cX - count) 0 }
      if 0 < t.cX - t.cY * width then clearCells 0 (t.cX - t.cY * width) t
      else clearCells 0 t.cX t
    else t := by
  have hb : Ignores fun t => if 0 < t.cX - t.cY * width then clearCells 0 (t.cX - t.cY * width) t
    else clearCells 0 t.cX t :=
    Ignores.ite (fun _ _ _ => rfl) (fun _ _ _ => rfl) fun _ _ _ => Iff.rfl
  have hm : Ignores fun t => { t with cX := max (t.cX - count) 0 } := fun _ _ _ => rfl
  exact (hb.comp hm).ite (fun _ _ _ => rfl) fun _ _ _ => Iff.rfl

/-- The byte that ends a sequence reads no parameter but the first one, the column and
those that the sequence gave. -/
lemma action_withParams {p : Nat → Int} {t : Terminal} (ha : Agree t.paramPtr t.vt100Params p)
    (hGiven : 0 < t.paramPtr) (b : Int) :
    action b (withParams p t.paramPtr t) = withParams p t.paramPtr (action b t) := by
  have hf : p 0 = t.vt100Params 0 := (ha.given 0 hGiven).symm
  have hg : (List.range t.paramPtr).map p = (List.range t.paramPtr).map t.vt100Params :=
    map_congr_left fun i hi => (ha.given i (mem_range.1 hi)).symm
  have hCol : (if p 1 = 0 then 0 else p 1 - 1) =
    if t.vt100Params 1 = 0 then 0 else t.vt100Params 1 - 1 := ha.column.symm
  unfold action
  rw [show (withParams p t.paramPtr t).vt100Params = p from rfl,
    show (withParams p t.paramPtr t).paramPtr = t.paramPtr from rfl, hf, hg]
  dsimp only
  split
  case h_1 =>
    rw [hCol]
    rfl
  case h_2 =>
    rw [hCol]
    rfl
  case h_7 => exact ignores_eraseScreen (fun _ _ _ => rfl) _ _ _ { t with pMark := t.pMark + 1 }
  case h_8 => exact ignores_insertBlanks _ _ _ t
  case h_13 => exact ignores_eraseScreen (ignores_clearCells _ _) _ _ _ t
  case h_14 => split <;> rfl
  case h_15 => exact ignores_colours _ _ _ t
  all_goals rfl

lemma Alike.sequenceStart {t u : Terminal} (h : Alike t u) : Alike (sequenceStart t) (sequenceStart u) := by
  obtain ⟨p, rfl, ha⟩ := h
  refine ⟨fun i => if i < t.paramPtr then 0 else p i, rfl, ?_, ?_⟩
  · exact fun i hi => absurd hi (Nat.not_lt_zero i)
  · show column (if 1 < t.paramPtr then 0 else t.vt100Params 1) =
      column (if 1 < t.paramPtr then 0 else p 1)
    split_ifs
    · rfl
    · exact ha.column

lemma Alike.controlSequence {t u : Terminal} (h : Alike t u) :
    Alike (controlSequence t) (controlSequence u) := by
  have hSrc : u.src = t.src := by
    obtain ⟨p, rfl, -⟩ := h
    rfl
  obtain ⟨hb, hr⟩ := h.sequenceStart.readParams (t.src.length + 1) 59
  have hg := @readParams_given (t.src.length + 1) 59 (Terminal.sequenceStart t) (.inl rfl)
  rw [controlSequence_eq, controlSequence_eq, hSrc]
  dsimp only
  rw [hb]
  generalize Terminal.readParams (t.src.length + 1) 59 (Terminal.sequenceStart t) = first at hr hg
  generalize (Terminal.readParams (t.src.length + 1) 59 (Terminal.sequenceStart u)).2 = second at hr
  obtain ⟨q, rfl, hs⟩ := hr
  rw [show (withParams q first.2.paramPtr first.2).qMark = first.2.qMark from rfl]
  split_ifs with hq
  · exact Alike.map (ignores_questionAction _) ⟨q, rfl, hs⟩
  · rcases hg with hEnd | hm | hPos
    · rw [hEnd]
      exact ⟨q, rfl, hs⟩
    · exact absurd hm hq
    · rw [action_withParams hs hPos]
      exact alike_withParams hs (action_withParams ⟨fun _ _ => rfl, rfl⟩ hPos _)

lemma Alike.escape {t u : Terminal} (h : Alike t u) : Alike (escape t) (escape u) := by
  obtain ⟨hb, hn⟩ := h.fgetc
  obtain ⟨hSnd, ha⟩ := hn.fgetc
  unfold Terminal.escape
  dsimp only
  rw [hb]
  split
  case h_1 => exact hn.map (f := fun t => { t with cXSave := t.cX, cYSave := t.cY }) fun _ _ _ => rfl
  case h_2 => exact hn.map (f := fun t => { t with cX := t.cXSave, cY := t.cYSave }) fun _ _ _ => rfl
  case h_3 =>
    rw [hSnd]
    split
    case h_5 => exact ha
    all_goals exact ha.map (ignores_setSize _)
  case h_4 => exact ha
  case h_5 => exact hn
  case h_6 =>
    rw [hSnd]
    split_ifs
    · exact ha.map (f := fun t => { t with currentMode := t.currentMode ||| 32 }) fun _ _ _ => rfl
    · exact ha.map (f := fun t => { t with currentMode := t.currentMode &&& 223 }) fun _ _ _ => rfl
  case h_7 =>
    rw [hSnd]
    split_ifs
    · exact ha.fgetc.2
    · exact ha
  case h_8 => exact hn.controlSequence
  case h_9 => exact hn.map (ignores_ungetc _)

lemma ignores_control {b : Int} (he : b ≠ 27) : Ignores (control b) := by
  intro p n t
  unfold control
  split
  case h_5 => exact ignores_formFeed p n t
  case h_7 => exact absurd rfl he
  all_goals rfl

lemma Alike.control {t u : Terminal} (h : Alike t u) (b : Int) : Alike (control b t) (control b u) := by
  by_cases he : b = 27
  · subst he
    exact h.escape
  · exact h.map (ignores_control he)

lemma Alike.iteration {t u : Terminal} (h : Alike t u) : Alike (iteration t) (iteration u) := by
  obtain ⟨hb, hn⟩ := h.fgetc
  unfold Terminal.iteration
  dsimp only
  rw [hb]
  apply Alike.map ignores_widen
  apply Alike.map ignores_scroll
  apply Alike.map ignores_clamp
  split_ifs
  · exact hn.map (ignores_putChar _)
  · exact hn.control _

lemma Alike.ansiCopyLoop {t u : Terminal} (h : Alike t u) (fuel : Nat) :
    Alike (ansiCopyLoop fuel t) (ansiCopyLoop fuel u) := by
  induction fuel generalizing t u with
  | zero => exact h
  | succ fuel ih =>
    have hEof : u.eof = t.eof := by
      obtain ⟨p, rfl, -⟩ := h
      rfl
    rw [Terminal.ansiCopyLoop, Terminal.ansiCopyLoop, hEof]
    split_ifs
    · exact h
    · exact ih h.iteration

end Terminal

/-! The text of a command after other commands. -/

/-- What is printed for the recorded output, unless an array is left on the way. -/
def shown (e : Emulator) (recorded : Bytes) : Option Bytes :=
  if (render e recorded).fault then none else some (render e recorded).dst

/-- The globals after the recorded output was processed and `ansi_init` called. -/
def leftBy (e : Emulator) (recorded : Bytes) : Option Emulator :=
  if (render e recorded).fault then none else some (ansiInit (render e recorded).toEmulator)

def shownAfter (A B : Bytes) : Option Bytes := (leftBy .start A).bind (shown · B)

/-- No control sequence `P` was seen, and a cursor position without a column means the
first column. -/
def Harmless (e : Emulator) : Prop := e.pMark = 0 ∧ (e.vt100Params 1 = 0 ∨ e.vt100Params 1 = 1)
  deriving Decidable

open Terminal in
lemma shown_of_harmless {e : Emulator} (h : Harmless e) (recorded : Bytes) :
    shown (ansiInit e) recorded = shown .start recorded := by
  have ha : Alike (fresh .start recorded) (fresh (ansiInit e) recorded) := by
    refine ⟨e.vt100Params, ?_, fun i hi => absurd hi (Nat.not_lt_zero i), ?_⟩
    · unfold fresh ansiInit withParams
      rw [h.1]
      rfl
    · rcases h.2 with hCol | hCol
      · rw [hCol]
        rfl
      · rw [hCol]
        rfl
  have hd := ha.ansiCopyLoop (recorded.length + 1)
  have hr : Alike (render .start recorded) (render (ansiInit e) recorded) := by
    have hMax : (ansiCopy (fresh (ansiInit e) recorded)).maxcY = (ansiCopy (fresh .start recorded)).maxcY := by
      obtain ⟨p, hEq, -⟩ := hd
      exact congrArg (·.maxcY) hEq
    rw [render, render, hMax]
    exact hd.map (ignores_printLines _)
  obtain ⟨p, hEq, -⟩ := hr
  rw [shown, shown, hEq]
  rfl

/-! The two remains show. -/

namespace Terminal

/-- The terminal when ESC [ H has moved the cursor to where the stale column says. -/
def home (e : Emulator) : Terminal :=
  { fresh (ansiInit e) [] with
    vt100Params := update e.vt100Params 0 0, paramPtr := 1, cX := column (e.vt100Params 1) }

lemma iteration_home (e : Emulator) :
    iteration (fresh (ansiInit e) (text "\x1b[H")) = widen (scroll (clamp (home e))) := rfl

lemma clamp_home (e : Emulator) : ∃ x y, 0 ≤ x ∧ 0 ≤ y ∧ y < height ∧
    (x = 0 → y = 0 → column (e.vt100Params 1) = 0) ∧ clamp (home e) = { home e with cX := x, cY := y } := by
  have hX : (home e).cX = column (e.vt100Params 1) := rfl
  have hY : (home e).cY = 0 := rfl
  by_cases hl : column (e.vt100Params 1) < 0
  · refine ⟨width - 1, 0, by decide, by decide, by decide, fun hz => absurd hz (by decide), ?_⟩
    unfold clamp
    rw [hX, hY, if_pos hl]
    rfl
  · by_cases hr : width ≤ column (e.vt100Params 1)
    · refine ⟨0, 1, by decide, by decide, by decide, fun _ hz => absurd hz (by decide), ?_⟩
      unfold clamp
      rw [hX, if_neg hl]
      dsimp only
      rw [hY, if_neg (by decide : ¬(0 : Int) < 0), hX, if_pos hr]
      rfl
    · refine ⟨column (e.vt100Params 1), 0, by omega, by decide, by decide, fun hz _ => hz, ?_⟩
      unfold clamp
      rw [hX, if_neg hl]
      dsimp only
      rw [hY, if_neg (by decide : ¬(0 : Int) < 0), hX, if_neg hr]
      rfl

variable {t : Terminal}

lemma length_printLines (hs : t.outSize = fun _ => 0) (count : Nat) :
    (printLines count t).dst.length = t.dst.length + count * ((t.maxcX + 1).toNat + 1) := by
  have hLine : ∀ (line : Int) (t : Terminal), t.outSize = (fun _ => 0) →
    (printLine line t).dst.length = t.dst.length + ((t.maxcX + 1).toNat + 1) := by
    intro line t hs
    simp [printLine, hs]
  have hl : ∀ (lines : List Int) (t : Terminal), t.outSize = (fun _ => 0) →
    (lines.foldl (fun t line => printLine line t) t).dst.length =
      t.dst.length + lines.length * ((t.maxcX + 1).toNat + 1) := by
    intro lines
    induction lines with
    | nil => intro t _; simp
    | cons line lines ih =>
      intro t hs
      rw [foldl_cons, ih (printLine line t) hs, hLine line t hs, length_cons, Nat.succ_mul]
      show _ + _ + lines.length * ((t.maxcX + 1).toNat + 1) = _
      omega
  rw [printLines, hl _ t hs]
  simp

lemma ansiCopyLoop_succ (h : t.eof = false) (fuel : Nat) :
    ansiCopyLoop (fuel + 1) t = ansiCopyLoop fuel (iteration t) := by
  rw [ansiCopyLoop, h, if_neg Bool.false_ne_true]

lemma widen_of_size (hs : t.outSize t.cY = 0) : widen t = { t with
      maxcX := if t.maxcX < t.cX then t.cX else t.maxcX
      maxcY := if t.maxcY < t.cY then t.cY else t.maxcY } := by
  rw [widen, if_neg (not_not.2 hs), Int.mul_one]

lemma iteration_end (h : OnScreen t) (hSrc : t.src = []) : iteration t = widen { t with eof := true } := by
  have hEnd : OnScreen { t with eof := true } := h.congr rfl
  have hr : fgetc t = (-1, { t with eof := true }) := by rw [fgetc, hSrc]
  rw [iteration, hr]
  show widen (scroll (clamp { t with eof := true })) = _
  rw [clamp_id hEnd.column hEnd.row.1, scroll_id hEnd.row.2]

lemma ansiCopy_home (e : Emulator) : ∃ x y, 0 ≤ x ∧ 0 ≤ y ∧
    (x = 0 → y = 0 → column (e.vt100Params 1) = 0) ∧
    ansiCopy (fresh (ansiInit e) (text "\x1b[H")) =
      { home e with cX := x, cY := y, maxcX := x, maxcY := y, eof := true } := by
  obtain ⟨x, y, hX, hY, hr, hz, hc⟩ := clamp_home e
  refine ⟨x, y, hX, hY, hz, ?_⟩
  have hw : ∀ b, widen { home e with cX := x, cY := y, eof := b } =
    { home e with cX := x, cY := y, maxcX := x, maxcY := y, eof := b } := by
    intro b
    have hm : (if 0 < x then x else 0) = x := by split_ifs <;> omega
    have hMaxY : (if 0 < y then y else 0) = y := by split_ifs <;> omega
    rw [widen_of_size rfl]
    show { home e with cX := x, cY := y, maxcX := if 0 < x then x else 0, maxcY := if 0 < y then y else 0, eof := b } = _
    rw [hm, hMaxY]
  have hf : iteration (fresh (ansiInit e) (text "\x1b[H")) =
    { home e with cX := x, cY := y, maxcX := x, maxcY := y } := by
    rw [iteration_home, hc, scroll, if_neg (Int.not_le.2 hr)]
    exact hw false
  have hs := onScreen_iteration (onScreen_fresh e (text "\x1b[H"))
  have hl : iteration (iteration (fresh (ansiInit e) (text "\x1b[H"))) =
    { home e with cX := x, cY := y, maxcX := x, maxcY := y, eof := true } := by
    rw [iteration_end hs (by rw [hf]; rfl), hf]
    rw [widen_of_size rfl]
    rw [if_neg (Int.lt_irrefl x), if_neg (Int.lt_irrefl y)]
  have ho : (fresh (ansiInit e) (text "\x1b[H")).eof = false := rfl
  have hStill : (iteration (fresh (ansiInit e) (text "\x1b[H"))).eof = false := by
    rw [hf]
    rfl
  show ansiCopyLoop (1 + 1 + 1 + 1) _ = _
  rw [ansiCopyLoop_succ ho, ansiCopyLoop_succ hStill, hl]
  rfl

end Terminal

variable {e : Emulator} {recorded : Bytes}

lemma shown_eq_some {printed : Bytes} (h : shown e recorded = some printed) :
    (render e recorded).dst = printed := by
  rw [shown] at h
  split at h
  · cases h
  · exact Option.some.inj h

lemma length_render {t : Terminal}
    (hc : Terminal.ansiCopy (.fresh e recorded) = t) (hs : t.outSize = fun _ => 0) (hDst : t.dst = []) :
    (render e recorded).dst.length = (t.maxcY + 1).toNat * ((t.maxcX + 1).toNat + 1) := by
  rw [render, hc, Terminal.length_printLines hs, hDst, length_nil, Nat.zero_add]

lemma column_of_shown (h : shown (ansiInit e) (text "\x1b[H") = shown .start (text "\x1b[H")) :
    Terminal.column (e.vt100Params 1) = 0 := by
  have hs : shown .start (text "\x1b[H") = some [32, 10] := by decide +kernel
  obtain ⟨x, y, hX, hY, hz, hc⟩ := Terminal.ansiCopy_home e
  have hLen := (length_render hc rfl rfl).symm.trans (congrArg List.length (shown_eq_some (h.trans hs)))
  dsimp only [length_cons, length_nil] at hLen
  have hr : (y + 1).toNat ∣ 2 := ⟨_, hLen.symm⟩
  have hBound : (y + 1).toNat ≤ 2 := Nat.le_of_dvd (by decide) hr
  have hY : y = 0 := by
    by_contra hOther
    have hTwo : (y + 1).toNat = 2 := by omega
    rw [hTwo] at hLen
    omega
  subst hY
  have hX : x = 0 := by
    simp only [Int.zero_add, Int.toNat_one, Nat.one_mul] at hLen
    omega
  exact hz hX rfl

/-- After an ESC [ P, the cursor stays at the tabulator and goes on from there. -/
lemma ansiCopy_marked (e : Emulator) (n : Nat) :
    Terminal.ansiCopy (.fresh (ansiInit { e with pMark := n + 1 }) (text "\t\x1b[@\t")) =
      { Terminal.fresh (ansiInit { e with pMark := n + 1 }) [] with
        cX := 10, maxcX := 10, vt100Params := update e.vt100Params 0 0, paramPtr := 1, eof := true } := by
  let after (x : Int) (src : Bytes) : Terminal :=
    { Terminal.fresh (ansiInit { e with pMark := n + 1 }) src with
      cX := x, maxcX := x, vt100Params := update e.vt100Params 0 0, paramPtr := 1 }
  have hTab : Terminal.iteration (.fresh (ansiInit { e with pMark := n + 1 }) (text "\t\x1b[@\t")) =
    { Terminal.fresh (ansiInit { e with pMark := n + 1 }) (text "\x1b[@\t") with cX := 9, maxcX := 9 } := rfl
  have hs : Terminal.iteration
    { Terminal.fresh (ansiInit { e with pMark := n + 1 }) (text "\x1b[@\t") with cX := 9, maxcX := 9 } =
      after 9 (text "\t") := rfl
  have ha : Terminal.iteration (after 9 (text "\t")) = after 10 [] := rfl
  have hEnd : Terminal.iteration (after 10 []) = { after 10 [] with eof := true } := rfl
  show Terminal.ansiCopyLoop (1 + 1 + 1 + 1 + 1 + 1) _ = _
  rw [Terminal.ansiCopyLoop_succ rfl, hTab, Terminal.ansiCopyLoop_succ rfl, hs, Terminal.ansiCopyLoop_succ rfl,
    ha, Terminal.ansiCopyLoop_succ rfl, hEnd]
  rfl

lemma pMark_of_shown
    (h : shown (ansiInit e) (text "\t\x1b[@\t") = shown .start (text "\t\x1b[@\t")) : e.pMark = 0 := by
  have hs : shown .start (text "\t\x1b[@\t") = some (text "          \n") := by decide +kernel
  have hLen := congrArg List.length (shown_eq_some (h.trans hs))
  cases hm : e.pMark with
  | zero => rfl
  | succ n =>
    have hSame : ansiInit e = ansiInit { e with pMark := n + 1 } := by rw [← hm]
    rw [hSame, length_render (ansiCopy_marked e n) rfl rfl] at hLen
    have ht : ((0 : Int) + 1).toNat * (((10 : Int) + 1).toNat + 1) = 12 := by decide
    exact absurd (ht.symm.trans hLen) (by decide)

lemma ansiInit_leftBy {start : Emulator} (h : leftBy start recorded = some e) : ansiInit e = e := by
  rw [leftBy] at h
  split at h
  · cases h
  · cases h
    rfl

theorem shown_after_iff (A : Bytes) :
    (∀ B, shownAfter A B = shown .start B) ↔ ∃ e, leftBy .start A = some e ∧ Harmless e := by
  constructor
  · intro hSame
    cases hLeft : leftBy .start A with
    | none =>
      have hNothing := hSame []
      rw [shownAfter, hLeft] at hNothing
      exact absurd hNothing (by decide +kernel)
    | some e =>
      have hShown : ∀ B, shown (ansiInit e) B = shown .start B := by
        intro B
        have hNext := hSame B
        rwa [shownAfter, hLeft, Option.bind_some, ← ansiInit_leftBy hLeft] at hNext
      refine ⟨e, rfl, pMark_of_shown (hShown _), ?_⟩
      have hColumn := column_of_shown (hShown _)
      unfold Terminal.column at hColumn
      split_ifs at hColumn with hZero
      · exact .inl hZero
      · exact .inr (by omega)
  · rintro ⟨e, hLeft, hHarmless⟩ B
    rw [shownAfter, hLeft, Option.bind_some, ← ansiInit_leftBy hLeft]
    exact shown_of_harmless hHarmless B

/-- A cursor position given before moves the text after a bare ESC [ H, and a deletion
seen before keeps what an insertion should clear. -/
theorem shown_after_position :
    shownAfter (text "\x1b[1;7H") (text "\x1b[Hx") ≠ shown .start (text "\x1b[Hx") ∧
      shownAfter (text "\x1b[P") (text "ab\x1b[@") ≠ shown .start (text "ab\x1b[@") := by
  decide +kernel

end Channel
