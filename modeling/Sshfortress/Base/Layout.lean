import Mathlib

/-! Text laid out in lines of a fixed width. A writer fills its current line, starts the
next one when it is full, and starts one at each separator; the lines it has then are the
lines of the text, each cut into pieces. -/
namespace Base.Layout
open List

variable {α : Type*}

/-- Consecutive pieces of `width` elements. The last one is shorter, and empty when the
length is a multiple of the width. -/
def pieces (width : Nat) (line : List α) : List (List α) :=
  (List.range (line.length / width + 1)).map fun i => (line.drop (i * width)).take width

structure Writer (α : Type*) where
  done : List (List α)
  current : List α

namespace Writer

def lines (p : Writer α) : List (List α) := p.done ++ [p.current]

def newline (p : Writer α) : Writer α := ⟨p.done ++ [p.current], []⟩

def put (width : Nat) (p : Writer α) (x : α) : Writer α :=
  if p.current.length + 1 = width then ⟨p.done ++ [p.current ++ [x]], []⟩ else ⟨p.done, p.current ++ [x]⟩

def step [DecidableEq α] (width : Nat) (separator : α) (p : Writer α) (x : α) : Writer α :=
  if x = separator then p.newline else p.put width x

def write [DecidableEq α] (width : Nat) (separator : α) (p : Writer α) (text : List α) : Writer α :=
  text.foldl (step width separator) p

end Writer

def fullPieces (width : Nat) (line : List α) : List (List α) :=
  (List.range (line.length / width)).map fun i => (line.drop (i * width)).take width

variable {width : Nat} {line : List α}

lemma pieces_eq (hw : 0 < width) (line : List α) :
    pieces width line = fullPieces width line ++ [line.drop (line.length / width * width)] := by
  have hl : (line.drop (line.length / width * width)).length ≤ width := by
    have hMod := Nat.mod_lt line.length hw
    have hDiv := Nat.div_add_mod' line.length width
    rw [length_drop]
    omega
  rw [pieces, range_succ, map_append, map_singleton, take_of_length_le hl, fullPieces]

lemma piece_append {i : Nat} (x : α) (h : (i + 1) * width ≤ line.length) :
    ((line ++ [x]).drop (i * width)).take width = (line.drop (i * width)).take width := by
  rw [Nat.succ_mul] at h
  rw [drop_append_of_le_length (by omega), take_append_of_le_length (by rw [length_drop]; omega)]

lemma fullPieces_append_map {count : Nat} (x : α) (h : count * width ≤ line.length) :
    (List.range count).map (fun i => ((line ++ [x]).drop (i * width)).take width) =
      (List.range count).map fun i => (line.drop (i * width)).take width := by
  apply map_congr_left
  intro i hi
  have hl : i + 1 ≤ count := mem_range.1 hi
  exact piece_append x ((Nat.mul_le_mul_right width hl).trans h)

lemma write_pieces_step (hw : 0 < width) (done : List (List α)) (line : List α) (x : α) :
    Writer.put width ⟨done ++ fullPieces width line, line.drop (line.length / width * width)⟩ x =
      ⟨done ++ fullPieces width (line ++ [x]),
        (line ++ [x]).drop ((line ++ [x]).length / width * width)⟩ := by
  have hDiv := Nat.div_add_mod' line.length width
  have hMod := Nat.mod_lt line.length hw
  have hLen : (line.drop (line.length / width * width)).length = line.length % width := by
    rw [length_drop]
    omega
  have hd : (line ++ [x]).drop (line.length / width * width) = line.drop (line.length / width * width) ++ [x] :=
    drop_append_of_le_length (by omega)
  rw [Writer.put, hLen]
  split_ifs with hFull
  · -- The piece is full: one more of them, and an empty last one.
    have hn : (line ++ [x]).length / width = line.length / width + 1 := by
      rw [length_append, length_singleton]
      rw [Nat.div_eq_iff hw]
      rw [Nat.succ_mul]
      omega
    have hp : fullPieces width (line ++ [x]) =
      fullPieces width line ++ [line.drop (line.length / width * width) ++ [x]] := by
      rw [fullPieces, hn, range_succ, map_append, map_singleton, hd,
        fullPieces_append_map x (by omega), take_of_length_le (by simp; omega), fullPieces]
    have he : (line ++ [x]).drop ((line.length / width + 1) * width) = [] := by
      apply drop_of_length_le
      rw [length_append, length_singleton, Nat.succ_mul]
      omega
    rw [hp, hn, he, append_assoc]
  · have hs : (line ++ [x]).length / width = line.length / width := by
      rw [length_append, length_singleton]
      rw [Nat.div_eq_iff hw]
      omega
    have hp : fullPieces width (line ++ [x]) = fullPieces width line := by
      rw [fullPieces, hs, fullPieces_append_map x (by omega), fullPieces]
    rw [hp, hs, hd]

section Lines
variable [DecidableEq α] {width : Nat} {separator : α}

/-- The writer in the middle of a line: what it has written of the line is `line`. -/
lemma lines_write_from (hw : 0 < width) (text : List α) (done : List (List α)) (line : List α)
    (hl : separator ∉ line) : (Writer.write width separator
      ⟨done ++ fullPieces width line, line.drop (line.length / width * width)⟩ text).lines =
      done ++ ((line ++ text).splitOn separator).flatMap (pieces width) := by
  induction text generalizing done line with
  | nil =>
    rw [append_nil, splitOn_eq_singleton hl, flatMap_singleton, pieces_eq hw, ← append_assoc]
    rfl
  | cons x text ih =>
    rw [Writer.write, foldl_cons, Writer.step]
    split_ifs with hs
    · subst hs
      have hr := ih (done ++ pieces width line) [] (by simp)
      rw [splitOn_append_cons_self_of_not_mem hl, flatMap_cons, ← append_assoc]
      rw [nil_append] at hr
      rw [← hr, pieces_eq hw, Writer.newline]
      simp [fullPieces, Writer.write]
    · rw [write_pieces_step hw]
      have hn : separator ∉ line ++ [x] := by
        simp only [mem_append, mem_singleton, not_or]
        exact ⟨hl, fun hEq => hs hEq.symm⟩
      have hr := ih done (line ++ [x]) hn
      rw [append_assoc, singleton_append] at hr
      exact hr

/-- The lines written are the lines of the text, cut into pieces. -/
lemma lines_write (hw : 0 < width) (text : List α) :
    (Writer.write width separator ⟨[], []⟩ text).lines = (text.splitOn separator).flatMap (pieces width) := by
  have hWhole := lines_write_from hw text [] [] (by simp : separator ∉ [])
  simpa [fullPieces] using hWhole

end Lines

section Tidy
variable [DecidableEq α] {blank : α}

/-- Without trailing blanks, and without the lines that are then empty. -/
def tidy (blank : α) (lines : List (List α)) : List (List α) :=
  (lines.map (List.rdropWhile (· = blank))).filter (· ≠ [])

lemma tidy_append (first second : List (List α)) :
    tidy blank (first ++ second) = tidy blank first ++ tidy blank second := by simp [tidy]

lemma rdropWhile_append_replicate (line : List α) (count : Nat) :
    (line ++ List.replicate count blank).rdropWhile (· = blank) = line.rdropWhile (· = blank) := by
  induction count with
  | zero => simp
  | succ count ih =>
    rw [replicate_succ', ← append_assoc, rdropWhile_concat_pos _ _ _ (by simp), ih]

lemma tidy_map_pad (lines : List (List α)) (pad : List α → Nat) :
    tidy blank (lines.map fun line => line ++ List.replicate (pad line) blank) = tidy blank lines := by
  simp only [tidy, map_map]
  congr 1
  apply map_congr_left
  intro line _
  exact rdropWhile_append_replicate line (pad line)

end Tidy

lemma map_getD_range {blank : α} {count : Nat} (h : line.length ≤ count) :
    (List.range count).map (fun x => line.getD x blank) = line ++ List.replicate (count - line.length) blank := by
  apply ext_getElem
  · simp
    omega
  · intro i hLeft hRight
    rw [getElem_map, getElem_range, getElem_append]
    split_ifs with hi
    · simp [List.getD, hi]
    · simp [List.getD, hi]

end Base.Layout
