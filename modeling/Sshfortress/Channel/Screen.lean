import Sshfortress.Channel.Commands

/-! Where the cursor of the emulator can be. A control sequence may move it anywhere; the
end of each iteration brings it back. -/
namespace Channel
open Base List
namespace Terminal

/-- The saved position and the last line used are on the screen. -/
structure Saved (t : Terminal) : Prop where
  savedColumn : 0 ≤ t.cXSave ∧ t.cXSave < width
  savedRow : 0 ≤ t.cYSave ∧ t.cYSave < height
  lastRow : 0 ≤ t.maxcY ∧ t.maxcY < height

structure OnScreen (t : Terminal) : Prop extends Saved t where
  column : 0 ≤ t.cX ∧ t.cX < width
  row : 0 ≤ t.cY ∧ t.cY < height

def kept (t : Terminal) : Int × Int × Int := (t.cXSave, t.cYSave, t.maxcY)

def place (t : Terminal) : Int × Int × Int × Int × Int := (t.cX, t.cY, t.kept)

variable {t : Terminal}

lemma Saved.congr {u : Terminal} (h : Saved t) (hk : u.kept = t.kept) : Saved u := by
  have hCol : u.cXSave = t.cXSave := congrArg (·.1) hk
  have hRow : u.cYSave = t.cYSave := congrArg (·.2.1) hk
  have hl : u.maxcY = t.maxcY := congrArg (·.2.2) hk
  constructor
  · rw [hCol]
    exact h.savedColumn
  · rw [hRow]
    exact h.savedRow
  · rw [hl]
    exact h.lastRow

lemma OnScreen.congr {u : Terminal} (h : OnScreen t) (hp : u.place = t.place) : OnScreen u := by
  have hCol : u.cX = t.cX := congrArg (·.1) hp
  have hRow : u.cY = t.cY := congrArg (·.2.1) hp
  refine ⟨h.toSaved.congr (congrArg (·.2.2) hp), ?_, ?_⟩
  · rw [hCol]
    exact h.column
  · rw [hRow]
    exact h.row

@[simp] lemma place_fgetc (t : Terminal) : (fgetc t).2.place = t.place := keeps_fgetc place fun _ _ _ => rfl

@[simp] lemma place_clearCells (start len : Int) (t : Terminal) :
    (clearCells start len t).place = t.place := rfl

@[simp] lemma place_ungetc (b : Int) (t : Terminal) : (ungetc b t).place = t.place := by
  unfold ungetc
  split_ifs <;> rfl

lemma place_readParams (fuel : Nat) (b : Int) (t : Terminal) : (readParams fuel b t).2.place = t.place :=
  keeps_readParams place fun _ _ _ _ _ _ _ _ => rfl

@[simp] lemma place_printLines (count : Nat) (t : Terminal) : (printLines count t).place = t.place :=
  keeps_foldl place fun _ _ => rfl

lemma place_colours (params : List Int) (t : Terminal) : (params.foldl colour t).place = t.place :=
  keeps_foldl place fun _ _ => rfl

lemma place_eraseScreen {one : Terminal → Terminal} (hOne : ∀ t, (one t).place = t.place)
    (mode : Int) (t : Terminal) : (eraseScreen mode one t).place = t.place :=
  keeps_eraseScreen place hOne place_clearCells

/-! One iteration. -/

lemma saved_questionAction (h : Saved t) (b : Int) : Saved (questionAction b t) := by
  apply h.congr
  unfold questionAction
  split <;> rfl

lemma saved_action (h : OnScreen t) (b : Int) : Saved (action b t) := by
  unfold action
  dsimp only
  split
  case h_7 => exact h.toSaved.congr (congrArg (·.2.2) (place_eraseScreen (fun _ => rfl) _ _))
  case h_8 => split_ifs <;> exact h.toSaved.congr rfl
  case h_11 => exact ⟨h.column, h.row, h.lastRow⟩
  case h_13 => exact (h.congr (place_eraseScreen (place_clearCells _ _) _ t)).toSaved
  case h_14 => split <;> exact h.toSaved.congr rfl
  case h_15 => exact (h.congr (place_colours _ _)).toSaved
  all_goals exact h.toSaved.congr rfl

/-- The emulator when it begins to read the parameters of a sequence. -/
def sequenceStart (t : Terminal) : Terminal :=
  { t with
    vt100 := []
    vt100Params := fun i => if i < t.paramPtr then 0 else t.vt100Params i
    paramPtr := 0, qMark := false }

lemma controlSequence_eq (t : Terminal) : controlSequence t =
      let (b, t) := readParams (t.src.length + 1) 59 (sequenceStart t)
      if t.qMark then questionAction b t else action b t := rfl

lemma saved_controlSequence (h : OnScreen t) : Saved (controlSequence t) := by
  have hs : OnScreen (sequenceStart t) := h.congr rfl
  have hr := hs.congr (place_readParams (t.src.length + 1) 59 (sequenceStart t))
  rw [controlSequence_eq]
  dsimp only
  split_ifs
  · exact saved_questionAction hr.toSaved _
  · exact saved_action hr _

lemma saved_escape (h : OnScreen t) : Saved (escape t) := by
  have hn : OnScreen (fgetc t).2 := h.congr (place_fgetc t)
  have ha : OnScreen (fgetc (fgetc t).2).2 := hn.congr (place_fgetc _)
  unfold escape
  dsimp only
  split
  case h_1 => exact ⟨hn.column, hn.row, hn.lastRow⟩
  case h_3 => split <;> exact ha.toSaved.congr rfl
  case h_4 => exact ha.toSaved
  case h_6 => split_ifs <;> exact ha.toSaved.congr rfl
  case h_7 =>
    split_ifs
    · exact (ha.congr (place_fgetc _)).toSaved
    · exact ha.toSaved
  case h_8 => exact saved_controlSequence hn
  case h_9 => exact (hn.congr (place_ungetc _ _)).toSaved
  all_goals exact hn.toSaved.congr rfl

lemma saved_formFeed (h : OnScreen t) : Saved (formFeed t) := by
  have hp : OnScreen (printLines (t.maxcY + 1).toNat t) := h.congr (place_printLines _ t)
  have hTop : (0 : Int) ≤ 0 ∧ (0 : Int) < height := by decide
  exact ⟨hp.savedColumn, hp.savedRow, hTop⟩

lemma saved_control (h : OnScreen t) (b : Int) : Saved (control b t) := by
  unfold control
  split
  case h_5 => exact saved_formFeed h
  case h_7 => exact saved_escape h
  all_goals exact h.toSaved.congr rfl

lemma clamp_spec (t : Terminal) :
    (clamp t).kept = t.kept ∧ (0 ≤ (clamp t).cX ∧ (clamp t).cX < width) ∧ 0 ≤ (clamp t).cY := by
  unfold clamp kept width
  grind

lemma clamp_id (hX : 0 ≤ t.cX ∧ t.cX < width) (hY : 0 ≤ t.cY) : clamp t = t := by
  have hl : ¬ t.cX < 0 := by omega
  have hTop : ¬ t.cY < 0 := by omega
  have hr : ¬ width ≤ t.cX := by omega
  simp only [clamp, if_neg hl, if_neg hTop, if_neg hr]

lemma scroll_id (h : t.cY < height) : scroll t = t := by rw [scroll, if_neg (by omega)]

lemma scroll_spec (hRow : 0 ≤ t.cY) :
    (scroll t).kept = t.kept ∧ (scroll t).cX = t.cX ∧ 0 ≤ (scroll t).cY ∧ (scroll t).cY < height := by
  unfold scroll
  split_ifs with hBelow
  · have hp := place_printLines (min (t.cY - height + 1) (height - 1)).toNat t
    have hb : 0 ≤ height - 1 ∧ height - 1 < height := by decide
    exact ⟨congrArg (·.2.2) hp, congrArg (·.1) hp, hb⟩
  · exact ⟨rfl, rfl, hRow, Int.not_le.1 hBelow⟩

lemma onScreen_scroll_clamp (h : Saved t) : OnScreen (scroll (clamp t)) := by
  obtain ⟨hk, hCol, hRow⟩ := clamp_spec t
  obtain ⟨hs, hSame, hi⟩ := scroll_spec hRow
  refine ⟨h.congr (hs.trans hk), ?_, hi⟩
  rw [hSame]
  exact hCol

lemma onScreen_widen (h : OnScreen t) : OnScreen (widen t) := by
  refine ⟨⟨h.savedColumn, h.savedRow, ?_⟩, h.column, h.row⟩
  show 0 ≤ (if t.maxcY < t.cY then t.cY else t.maxcY) ∧ (if t.maxcY < t.cY then t.cY else t.maxcY) < height
  split_ifs
  · exact h.row
  · exact h.lastRow

lemma onScreen_iteration (h : OnScreen t) : OnScreen (iteration t) := by
  have hn : OnScreen (fgetc t).2 := h.congr (place_fgetc t)
  apply onScreen_widen
  apply onScreen_scroll_clamp
  split_ifs
  · exact hn.toSaved.congr rfl
  · exact saved_control hn _

lemma onScreen_ansiCopyLoop (h : OnScreen t) (fuel : Nat) : OnScreen (ansiCopyLoop fuel t) :=
  ansiCopyLoop_keeps OnScreen (fun _ => onScreen_iteration) h fuel

lemma onScreen_fresh (e : Emulator) (src : Bytes) : OnScreen (fresh (ansiInit e) src) := by
  have hz : (0 : Int) ≤ 0 ∧ (0 : Int) < width := by decide
  have hTop : (0 : Int) ≤ 0 ∧ (0 : Int) < height := by decide
  exact ⟨⟨hz, hTop, hTop⟩, hz, hTop⟩

/-! The accesses of one iteration. -/

/-- A cell of `out`, `out_mode` and `out_col`, or an element of `out_size`. -/
inductive Access where
  | cell (i : Int)
  | size (line : Int)

def Access.Inside : Access → Prop
  | .cell i => InScreen i = true
  | .size line => InRows line = true

def printed (count : Nat) : List Access := (List.range count).map fun line : Nat => .size line

/-- The sizes that are set, copied or looked up between the two `fgetc` of an escape. -/
def escapeTouched (t : Terminal) : List Access :=
  let (b, t) := fgetc t
  if b = 35 then
    let (b, t) := fgetc t
    if 51 ≤ b && b ≤ 54 then [.size t.cY] else []
  else []

def byteTouched (b : Int) (t : Terminal) : List Access :=
  if 31 < b && b < 127 then [.cell (t.cX + t.cY * width)]
  else if b = 12 then printed (t.maxcY + 1).toNat ++ printed height.toNat
  else if b = 27 then escapeTouched t
  else []

/-- The sizes of the lines printed, of those moved up and of the places they move to. -/
def scrollTouched (t : Terminal) : List Access :=
  if height ≤ t.cY then
    let lines := min (t.cY - height + 1) (height - 1)
    printed lines.toNat ++
      (List.range (height - lines).toNat).flatMap fun line : Nat => [.size (line + lines), .size line]
  else []

/-- The printable characters stored and the sizes accessed in the next iteration. -/
def touched (t : Terminal) : List Access :=
  let (b, t) := fgetc t
  let moved := clamp (if 31 < b && b < 127 then putChar b t else control b t)
  byteTouched b t ++ scrollTouched moved ++ [.size (scroll moved).cY]

lemma inside_cell (h : OnScreen t) : (Access.cell (t.cX + t.cY * width)).Inside := by
  have hCol := h.column
  have hRow := h.row
  rw [Access.Inside, InScreen, Bool.and_eq_true, decide_eq_true_eq, decide_eq_true_eq]
  unfold width height at *
  omega

lemma inside_size {line : Int} (hTop : 0 ≤ line) (hb : line < height) : (Access.size line).Inside := by
  simp [Access.Inside, InRows, hTop, hb]

lemma inside_printed {count : Nat} (h : (count : Int) ≤ height) : ∀ a ∈ printed count, a.Inside := by
  intro a ha
  obtain ⟨line, hl, rfl⟩ := mem_map.1 ha
  have hLess := mem_range.1 hl
  exact inside_size (by omega) (by omega)

lemma inside_escapeTouched (h : OnScreen t) : ∀ a ∈ escapeTouched t, a.Inside := by
  have hAfter : OnScreen (fgetc (fgetc t).2).2 := (h.congr (place_fgetc t)).congr (place_fgetc _)
  intro a ha
  rw [escapeTouched] at ha
  dsimp only at ha
  split_ifs at ha
  · rw [mem_singleton.1 ha]
    exact inside_size hAfter.row.1 hAfter.row.2
  · cases ha
  · cases ha

lemma inside_byteTouched (h : OnScreen t) (b : Int) : ∀ a ∈ byteTouched b t, a.Inside := by
  intro a ha
  rw [byteTouched] at ha
  split_ifs at ha
  · rw [mem_singleton.1 ha]
    exact inside_cell h
  · have hLast := h.lastRow
    rcases mem_append.1 ha with hl | hl
    · exact inside_printed (by omega) a hl
    · exact inside_printed (by decide) a hl
  · exact inside_escapeTouched h a ha
  · cases ha

lemma inside_scrollTouched (t : Terminal) : ∀ a ∈ scrollTouched t, a.Inside := by
  intro a ha
  rw [scrollTouched] at ha
  split_ifs at ha with hb
  · dsimp only at ha
    have hLines : 0 ≤ min (t.cY - height + 1) (height - 1) ∧ min (t.cY - height + 1) (height - 1) < height := by
      unfold height at hb ⊢
      omega
    rcases mem_append.1 ha with hl | hl
    · exact inside_printed (by omega) a hl
    · obtain ⟨line, hMem, hAccess⟩ := mem_flatMap.1 hl
      have hLess := mem_range.1 hMem
      simp only [mem_cons, not_mem_nil, or_false] at hAccess
      rcases hAccess with rfl | rfl
      · exact inside_size (by omega) (by omega)
      · exact inside_size (by omega) (by omega)
  · cases ha

lemma inside_touched (h : OnScreen t) : ∀ a ∈ touched t, a.Inside := by
  have hn : OnScreen (fgetc t).2 := h.congr (place_fgetc t)
  intro a ha
  rcases mem_append.1 ha with hPre | hl
  · rcases mem_append.1 hPre with hByte | hs
    · exact inside_byteTouched hn _ a hByte
    · exact inside_scrollTouched _ a hs
  · rw [mem_singleton.1 hl]
    obtain ⟨-, -, hTop, hb⟩ := scroll_spec (clamp_spec
      (if 31 < (fgetc t).1 && (fgetc t).1 < 127 then putChar (fgetc t).1 (fgetc t).2
        else control (fgetc t).1 (fgetc t).2)).2.2
    exact inside_size hTop hb

theorem cursor_on_screen (e : Emulator) (src : Bytes) (iterations : Nat) :
    OnScreen (ansiCopyLoop iterations (fresh (ansiInit e) src)) ∧
      ∀ a ∈ touched (ansiCopyLoop iterations (fresh (ansiInit e) src)), a.Inside := by
  have hScreen := onScreen_ansiCopyLoop (onScreen_fresh e src) iterations
  exact ⟨hScreen, inside_touched hScreen⟩

end Terminal
end Channel
