import Sshfortress.Base.Mysql
import Sshfortress.Channel.Commands

/-! The literal that a command becomes. A double quote of the line gets a backslash, in an
array that has no room for it, and a backslash of the line is left alone. -/
namespace Channel
open Base Base.Mysql List

/-! The memory of `strrpc`. -/

/-- An array with a C string in it. `fault` notes that its end was passed. -/
structure Scratch where
  size : Nat
  text : Bytes
  fault : Bool

/-- `strcat`: the terminator goes behind the new text. -/
def Scratch.strcat (b : Scratch) (s : Bytes) : Scratch :=
  { b with text := b.text ++ s, fault := b.fault || b.size ≤ (b.text ++ s).length }

def strrpcLoop : Bytes → Scratch → Scratch
  | [], bstr => bstr
  | c :: rest, bstr => strrpcLoop rest (bstr.strcat (if c = 34 then [92, 34] else [c]))

/-- `strrpc` on a string in an array of `room` bytes: the string afterwards, and whether an
array was left. The array of the copy has the length of the string, and the copy is
read back together with its terminator. -/
def strrpcRun (room : Nat) (str : Bytes) : Bytes × Bool :=
  let bstr := strrpcLoop str ⟨str.length, [], false⟩
  (bstr.text, bstr.fault || bstr.size ≤ bstr.text.length || room ≤ bstr.text.length)

lemma strrpcLoop_text (s : Bytes) (bstr : Scratch) : (strrpcLoop s bstr).text = bstr.text ++ strrpc s := by
  induction s generalizing bstr with
  | nil => simp [strrpcLoop, strrpc]
  | cons c rest ih =>
    rw [strrpcLoop, ih]
    simp [Scratch.strcat, strrpc]

lemma strrpcLoop_size (s : Bytes) (bstr : Scratch) : (strrpcLoop s bstr).size = bstr.size := by
  induction s generalizing bstr with
  | nil => rfl
  | cons c rest ih => rw [strrpcLoop, ih, Scratch.strcat]

lemma length_strrpc (s : Bytes) : s.length ≤ (strrpc s).length := by
  induction s with
  | nil => exact Nat.le_refl _
  | cons c rest ih =>
    rw [strrpc] at ih ⊢
    rw [flatMap_cons, length_append, length_cons]
    split
    · simp only [length_cons, length_nil]
      omega
    · simp only [length_cons, length_nil]
      omega

lemma strrpcRun_fault (room : Nat) (s : Bytes) : (strrpcRun room s).2 = true := by
  have hLen := length_strrpc s
  rw [strrpcRun, strrpcLoop_text, strrpcLoop_size]
  simp [hLen]

/-- The line without its newline and without blanks around it. -/
def lineText (line : Bytes) : Bytes :=
  let s := cstr line
  strRTrim (strLTrim (if 1 < s.length then s.dropLast else s))

/-- What becomes of one rendered line, and whether an array was left on the way. -/
def lineRun (line : Bytes) : Bytes × Bool :=
  if lineText line = text "vim" || lineText line = text "vi" then (lineText line, false)
  else strrpcRun 16384 (lineText line)

lemma commandOf_eq (line : Bytes) : commandOf line =
      if lineText line = text "vim" || lineText line = text "vi" then lineText line
      else strrpc (lineText line) := rfl

/-! A line of text and its row. -/

def Printable (L : Bytes) : Prop := ∀ c ∈ L, 32 ≤ c ∧ c ≤ 126
  deriving Decidable

def trimmed (L : Bytes) : Bytes := strRTrim (strLTrim L)

/-- The line reaches the table as it is: no array is left, and where a row is written,
its literal ends at the quote of the format string and stands for the trimmed line. -/
structure FaithfullyStored (audituser L : Bytes) : Prop where
  inBounds : (lineRun (L ++ [10])).2 = false
  literal : commandOf (L ++ [10]) ≠ [] → ∃ after, insertCommand audituser (commandOf (L ++ [10])) =
        text "INSERT INTO `commands` VALUES (null, '" ++ audituser ++ text "', NOW(), \"" ++ after ∧
      Mysql.literal 34 after = some (trimmed L, text ", '0', '0')")

lemma lineText_line {L : Bytes} (hp : Printable L) (hs : L ≠ []) : lineText (L ++ [10]) = trimmed L := by
  have hn : (0 : UInt8) ∉ L ++ [10] := by
    intro h
    rcases mem_append.1 h with hMem | hMem
    · exact absurd (hp 0 hMem).1 (by decide)
    · exact absurd hMem (by decide)
  have hLen : 1 < (L ++ [10]).length := by
    have hPos := length_pos_of_ne_nil hs
    rw [length_append, length_singleton]
    omega
  rw [lineText, cstr_eq_self hn, if_pos hLen, dropLast_concat]
  rfl

lemma lineRun_fault {line : Bytes} (h : (lineRun line).2 = false) :
    lineText line = text "vim" ∨ lineText line = text "vi" := by
  rw [lineRun] at h
  split at h
  case isTrue he => simpa using he
  case isFalse => exact absurd h (by simp [strrpcRun_fault])

theorem command_stored_faithfully {audituser L : Bytes} (hPrintable : Printable L)
    (hUser : audituser.length < 256) :
    FaithfullyStored audituser L ↔ trimmed L = text "vim" ∨ trimmed L = text "vi" := by
  constructor
  · intro hStored
    have hEditor := lineRun_fault hStored.inBounds
    by_cases hSome : L = []
    · subst hSome
      exact absurd hEditor (by decide)
    · rwa [lineText_line hPrintable hSome] at hEditor
  · intro hEditor
    have hSome : L ≠ [] := by
      rintro rfl
      exact absurd hEditor (by decide)
    have hText := lineText_line hPrintable hSome
    have hCommand : commandOf (L ++ [10]) = trimmed L := by
      rw [commandOf_eq, hText, if_pos (by simpa using hEditor)]
    refine ⟨?_, fun _ => ⟨trimmed L ++ text "\", '0', '0')", ?_, ?_⟩⟩
    · rw [lineRun, hText, if_pos (by simpa using hEditor)]
    · rw [hCommand, insertCommand, snprintf_eq_self]
      · simp
      · have hHead : (text "INSERT INTO `commands` VALUES (null, '").length = 38 := by decide
        have hMiddle : (text "', NOW(), \"").length = 11 := by decide
        have hTail : (text "\", '0', '0')").length = 12 := by decide
        have hShort : (trimmed L).length ≤ 3 := by
          rcases hEditor with hEditor | hEditor
          · rw [hEditor]
            decide
          · rw [hEditor]
            decide
        simp only [length_append, hHead, hMiddle, hTail]
        omega
    · rcases hEditor with hEditor | hEditor
      · rw [hEditor]
        decide
      · rw [hEditor]
        decide

theorem command_stored_faithfully_editor : FaithfullyStored (text "alice") (text "  vim ") :=
  (command_stored_faithfully (by decide +kernel) (by decide +kernel)).2 (.inl (by decide +kernel))

/-- The terminator of the copy is one byte too far for any line, and the backslash that
ends a line takes the closing quote with it. -/
theorem command_copied_outside : ¬FaithfullyStored (text "alice") (text "ls") ∧
    literal 34 (commandOf (text "ls \\" ++ [10]) ++ text "\", '0', '0')") = none :=
  ⟨fun hStored => absurd hStored.inBounds (by decide), by decide⟩

/-! The memory of the trims. -/

/-- The indices that `StrRTrim` looks at from `i` down. A blank is overwritten, and the loop goes on
below it, also below the string. -/
def rightReads (i : Int) : Bytes → List Int
  | [] => [i]
  | c :: below => i :: if c = 32 then rightReads (i - 1) below else []

/-- The indices that `StrLTrim` looks at, up to the terminator. It writes at or below them. -/
def leftReads (i : Int) : Bytes → List Int
  | [] => [i]
  | _ :: rest => i :: leftReads (i + 1) rest

structure TrimsInPlace (below line : Bytes) : Prop where
  result : ∃ front back, line = replicate front 32 ++ trimmed line ++ replicate back 32
  first : (trimmed line).head? ≠ some 32
  last : (trimmed line).getLast? ≠ some 32
  again : trimmed (trimmed line) = trimmed line
  inside : ∀ i ∈ leftReads 0 line ++
      rightReads ((strLTrim line).length - 1) ((strLTrim line).reverse ++ below), 0 ≤ i ∧ i ≤ line.length

lemma mem_leftReads {i j : Int} {s : Bytes} (h : j ∈ leftReads i s) : i ≤ j ∧ j ≤ i + s.length := by
  induction s generalizing i with
  | nil => grind [leftReads]
  | cons c rest ih => grind [leftReads]

lemma mem_rightReads {i j : Int} {s below : Bytes} (ho : ∃ c ∈ s, c ≠ 32) (h : j ∈ rightReads i (s ++ below)) :
    i - s.length < j ∧ j ≤ i := by
  induction s generalizing i with
  | nil => simp at ho
  | cons c rest ih =>
    rw [cons_append, rightReads, mem_cons] at h
    rw [length_cons]
    obtain rfl | h := h
    · omega
    · split_ifs at h with hb
      · obtain ⟨other, hMem, ho⟩ := ho
        have hr := (mem_cons.1 hMem).resolve_left fun hs => ho (hs.trans hb)
        have hIn := ih ⟨other, hr, ho⟩ h
        omega
      · cases h

lemma trimmed_first (line : Bytes) : (trimmed line).head? ≠ some 32 := by
  intro hb
  have hh : (strLTrim line).head? = some 32 := by
    obtain ⟨rest, hr⟩ := rdropWhile_prefix (· = 32) (strLTrim line)
    rw [← hr]
    simpa [trimmed, strRTrim] using Or.inl hb
  have hNot := head?_dropWhile_not (· = 32) line
  rw [← strLTrim, hh] at hNot
  simp at hNot

lemma trimmed_last (line : Bytes) : (trimmed line).getLast? ≠ some 32 := by
  intro hb
  have hs : trimmed line ≠ [] := by
    rintro hNil
    simp [hNil] at hb
  rw [getLast?_eq_some_getLast hs] at hb
  exact rdropWhile_last_not _ (strLTrim line) hs (decide_eq_true (Option.some.inj hb))

theorem trims_in_place_iff (below line : Bytes) : TrimsInPlace below line ↔ ∃ c ∈ line, c ≠ 32 := by
  constructor
  · intro h
    by_contra hb
    have he : strLTrim line = [] := dropWhile_eq_nil_iff.2 (by simpa using hb)
    have hBelow := (h.inside (-1) (mem_append_right _ (by cases below <;> simp [he, rightReads]))).1
    omega
  · intro ho
    refine ⟨?_, trimmed_first line, trimmed_last line, ?_, ?_⟩
    · refine ⟨(line.takeWhile (· = 32)).length, ((strLTrim line).rtakeWhile (· = 32)).length, ?_⟩
      have hf : line.takeWhile (· = 32) = replicate _ 32 :=
        eq_replicate_of_mem fun c hMem => by simpa using mem_takeWhile_imp hMem
      have hBack : (strLTrim line).rtakeWhile (· = 32) = replicate _ 32 :=
        eq_replicate_of_mem fun c hMem => by simpa using mem_rtakeWhile_imp hMem
      rw [← hf, ← hBack, append_assoc, trimmed, strRTrim, rdropWhile_append_rtakeWhile]
      exact takeWhile_append_dropWhile.symm
    · have hl : strLTrim (trimmed line) = trimmed line := by
        have hFirst := trimmed_first line
        cases hCase : trimmed line with
        | nil => rfl
        | cons c rest => exact dropWhile_cons_of_neg (by simpa [hCase] using hFirst)
      rw [trimmed, hl]
      exact rdropWhile_idempotent _ _
    · intro i hMem
      obtain hMem | hMem := mem_append.1 hMem
      · simpa using mem_leftReads hMem
      · have hLen : (strLTrim line).length ≤ line.length := (dropWhile_suffix _).length_le
        obtain ⟨c, hc, ho⟩ := ho
        rw [← takeWhile_append_dropWhile (p := (· = 32)) (l := line), mem_append] at hc
        have hr : c ∈ strLTrim line := hc.resolve_left fun hf => ho (by simpa using mem_takeWhile_imp hf)
        have hIn := mem_rightReads ⟨c, mem_reverse.2 hr, ho⟩ hMem
        rw [length_reverse] at hIn
        omega

/-- A line of blanks is empty when its end is looked for. -/
theorem trims_outside_line : ¬ TrimsInPlace [] (text "  ") :=
  fun h => absurd (h.inside (-1) (by decide +kernel)).1 (by decide)

end Channel
