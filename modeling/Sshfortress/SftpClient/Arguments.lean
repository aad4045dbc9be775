import Sshfortress.Base.Bytes
import Sshfortress.Misc.Convtime

/-! How `sftp` splits a command line. The scanner takes quotes and backslashes away and puts a
backslash before a wildcard that was quoted, for `glob`; `undo_glob_escape` takes that away
where nothing is globbed. -/
namespace SftpClient
open Base Misc List

def isWildcard (c : UInt8) : Bool := c = 63 || c = 91 || c = 42

def undoGlobEscape : Bytes → Bytes
  | [] => []
  | [c] => [c]
  | c :: d :: rest =>
    if c ≠ 92 then c :: undoGlobEscape (d :: rest)
    else if isWildcard d || d = 92 then d :: undoGlobEscape rest
    else 92 :: d :: undoGlobEscape rest

inductive MaState where
  | start
  | squote
  | dquote
  | unquoted
  deriving DecidableEq

def MaState.quot : MaState → Option UInt8
  | .squote => some 39
  | .dquote => some 34
  | _ => none

inductive MaError where
  | tooLong
  | tooMany
  | unterminated
  | beyond
  deriving DecidableEq

/-- The text buffer, the places in it where arguments begin, and how many have ended. -/
structure Scan where
  state : MaState
  argvs : Bytes
  argv : List Nat
  argc : Nat
  lastquote : UInt8

namespace Scan

def begin (m : Scan) (state : MaState) (quote : UInt8) : Scan :=
  { m with argv := m.argv ++ [m.argvs.length], state, lastquote := quote }

def put (m : Scan) (s : Bytes) : Scan := { m with argvs := m.argvs ++ s }

def close (m : Scan) : Scan := { m.put [0] with argc := m.argc + 1, state := .start }

def enter (m : Scan) : Scan := if m.state = .start then m.begin .unquoted 0 else m

def quote (m : Scan) (c : UInt8) : Scan :=
  let q := if c = 34 then .dquote else .squote
  if m.state = .start then m.begin q c
  else if m.state = .unquoted then { m with state := q }
  else if m.state = q then { m with state := .unquoted }
  else m.put [c]

/-- The arguments, the quote of the last one and whether it was terminated. -/
def result (m : Scan) (terminated : Bool) : List Bytes × UInt8 × Bool :=
  let m := if m.state = .unquoted then m.close else m
  ((m.argv.take m.argc).map fun start => cstr (m.argvs.drop start), m.lastquote, terminated)

end Scan

def maxArgs : Nat := 128

def maxArgLen : Nat := 8192

/-- The text for a backslash and the character behind it. Behind the backslash that ends the
string is the NUL, and the loop goes on behind that. -/
def backslash (m : Scan) (d : UInt8) : Except MaError Scan :=
  match m.state.quot with
  | some quot =>
    if d = quot then .ok (m.put [d])
    else if isWildcard d then
      if maxArgLen - 5 ≤ m.argvs.length then .error .tooLong else .ok (m.put [92, 92, 92, d])
    else .ok (m.put [92, d])
  | none => .ok (m.enter.put (if isWildcard d || d = 92 then [92, d] else [d]))

def ordinary (m : Scan) (c : UInt8) : Except MaError Scan :=
  if m.enter.state.quot.isSome && isWildcard c then
    if maxArgLen - 3 ≤ m.argvs.length then .error .tooLong else .ok (m.enter.put [92, c])
  else .ok (m.enter.put [c])

def makeargvLoop (sloppy : Bool) (arg : Bytes) (m : Scan) : Except MaError (List Bytes × UInt8 × Bool) :=
  if maxArgs + 1 ≤ m.argc then .error .tooMany
  else
    match arg with
    | [] =>
      if m.state.quot = none then .ok (m.result true)
      else if sloppy then .ok ({ m with state := .unquoted }.result false)
      else .error .unterminated
    | c :: rest =>
      if isspace c then
        makeargvLoop sloppy rest
          (if m.state = .unquoted then m.close else if m.state = .start then m else m.put [c])
      else if c = 34 ∨ c = 39 then makeargvLoop sloppy rest (m.quote c)
      else if c = 92 then
        match rest with
        | [] => (backslash m 0).bind fun _ => .error .beyond
        | d :: rest => (backslash m d).bind (makeargvLoop sloppy rest)
      else if c = 35 then
        if m.state.quot.isSome then makeargvLoop sloppy rest (m.put [c]) else .ok (m.result true)
      else (ordinary m c).bind (makeargvLoop sloppy rest)
termination_by arg.length

def makeargv (arg : Bytes) (sloppy : Bool) : Except MaError (List Bytes × UInt8 × Bool) :=
  if maxArgLen - 1 < arg.length then .error .tooLong else makeargvLoop sloppy arg ⟨.start, [], [], 0, 0⟩

/-! Names that are taken as they are. -/

/-- Between quotes there is a backslash before a quote or a backslash. -/
def quoteChar (quot c : UInt8) : Bytes := if c = 92 ∨ c = quot then [92, c] else [c]

def quoted (quot : UInt8) (s : Bytes) : Bytes := quot :: (s.flatMap (quoteChar quot) ++ [quot])

def literals (s : Bytes) : List Bytes := [quoted 34 s, quoted 39 s, s.flatMap fun c => [92, c]]

/-- What the scanner leaves of a character that is taken literally. -/
def globEscape (c : UInt8) : Bytes := if isWildcard c || c = 92 then [92, c] else [c]

lemma undoGlobEscape_append (c : UInt8) (rest : Bytes) :
    undoGlobEscape (globEscape c ++ rest) = c :: undoGlobEscape rest := by
  unfold globEscape
  split_ifs with he
  · simp [undoGlobEscape, he]
  · cases rest with
    | nil => rfl
    | cons d rest =>
      have hp : c ≠ 92 := by rintro rfl; simp at he
      simp [undoGlobEscape, hp]

lemma undoGlobEscape_flatMap (s : Bytes) : undoGlobEscape (s.flatMap globEscape) = s := by
  induction s with
  | nil => rfl
  | cons c s ih => rw [flatMap_cons, undoGlobEscape_append, ih]

variable {sloppy : Bool} {m : Scan} {c quot : UInt8}

lemma isWildcard_ne (h : isWildcard c = true) : isspace c = false ∧ ¬ (c = 34 ∨ c = 39) ∧ c ≠ 35 := by
  simp only [isWildcard, Bool.or_eq_true, decide_eq_true_eq, or_assoc] at h
  rcases h with rfl | rfl | rfl <;> decide

lemma makeargvLoop_quoted (hs : m.state.quot = some quot) (hf : m.argc = 0)
    (hRoom : m.argvs.length < maxArgLen - 5) (rest : Bytes) :
    makeargvLoop sloppy (quoteChar quot c ++ rest) m = makeargvLoop sloppy rest (m.put (globEscape c)) := by
  have hFew : ¬ maxArgs + 1 ≤ m.argc := by rw [hf]; decide
  have hq : m.state = .dquote ∧ quot = 34 ∨ m.state = .squote ∧ quot = 39 := by
    cases hc : m.state <;> simp_all [MaState.quot, eq_comm]
  by_cases he : c = 92 ∨ c = quot
  · have ht : backslash m c = .ok (m.put (globEscape c)) := by
      unfold backslash globEscape
      rw [hs]
      rcases he with rfl | rfl <;> rcases hq with ⟨-, rfl⟩ | ⟨-, rfl⟩ <;> rfl
    rw [quoteChar, if_pos he, cons_append, cons_append, nil_append, makeargvLoop,
      if_neg hFew, if_neg (by decide), if_neg (by decide), if_pos rfl, ht]
    rfl
  · push Not at he
    have hp : isWildcard c = false → globEscape c = [c] := by simp +contextual [globEscape, he.1]
    have hWild := isWildcard_ne (c := c)
    rw [quoteChar, if_neg (by simpa using he), singleton_append, makeargvLoop.eq_def, if_neg hFew]
    dsimp only
    split_ifs with hSpace hUnquoted hStart hQuote hSlash hHash hSome
    · simp_all
    · simp_all
    · rw [hp (by simp_all)]
    · rw [hp (by simp_all)]
      congr 1
      unfold Scan.quote
      rcases hQuote with rfl | rfl <;> rcases hq with ⟨hc, rfl⟩ | ⟨hc, rfl⟩ <;> simp_all
    · exact absurd hSlash he.1
    · rw [hp (by simp_all)]
    · simp_all
    · have hEnter : m.enter = m := if_neg (by rcases hq with h | h <;> simp [h.1])
      have hl : ¬ maxArgLen - 3 ≤ m.argvs.length := by omega
      cases hc : isWildcard c <;> simp [ordinary, globEscape, hEnter, hs, hc, hl, hSlash] <;> rfl

lemma makeargvLoop_escaped (hs : m.state.quot = none) (hf : m.argc = 0) (rest : Bytes) :
    makeargvLoop sloppy (92 :: c :: rest) m = makeargvLoop sloppy rest (m.enter.put (globEscape c)) := by
  have hFew : ¬ maxArgs + 1 ≤ m.argc := by rw [hf]; decide
  rw [makeargvLoop, if_neg hFew, if_neg (by decide), if_neg (by decide), if_pos rfl, backslash, hs]
  rfl

lemma makeargvLoop_quotedAll (s rest : Bytes) (hs : m.state.quot = some quot) (hf : m.argc = 0)
    (hr : m.argvs.length + 2 * s.length < maxArgLen - 5) :
    makeargvLoop sloppy (s.flatMap (quoteChar quot) ++ rest) m =
      makeargvLoop sloppy rest (m.put (s.flatMap globEscape)) := by
  induction s generalizing m with
  | nil => simp [Scan.put]
  | cons c s ih =>
    have hGrown : (globEscape c).length ≤ 2 := by unfold globEscape; split <;> simp
    rw [length_cons] at hr
    rw [flatMap_cons, append_assoc, makeargvLoop_quoted hs hf (by omega), ih (m := m.put _) hs hf]
    · simp [Scan.put]
    · simp only [Scan.put, length_append]
      omega

lemma makeargvLoop_escapedAll (s : Bytes) (hs : m.state = .unquoted) (hf : m.argc = 0) :
    makeargvLoop sloppy (s.flatMap fun c => [92, c]) m = makeargvLoop sloppy [] (m.put (s.flatMap globEscape)) := by
  induction s generalizing m with
  | nil => simp [Scan.put]
  | cons c s ih =>
    have he : m.enter = m := if_neg (by simp [hs])
    rw [flatMap_cons, cons_append, singleton_append,
      makeargvLoop_escaped (by rw [hs]; rfl) hf, he, ih (m := m.put _) hs hf]
    simp [Scan.put]

lemma makeargvLoop_end {text : Bytes} (h : 0 ∉ text) (quote : UInt8) :
    makeargvLoop sloppy [] ⟨.unquoted, text, [0], 0, quote⟩ = .ok ([text], quote, true) := by
  have ht : cstr (text ++ [0]) = text := by
    rw [cstr_append h]
    exact append_nil text
  rw [makeargvLoop]
  simp [MaState.quot, Scan.result, Scan.close, Scan.put, ht, maxArgs]

lemma zero_notMem_flatMap {s : Bytes} (h : 0 ∉ s) : 0 ∉ s.flatMap globEscape := by
  intro hMem
  obtain ⟨c, hc, hz⟩ := mem_flatMap.1 hMem
  unfold globEscape at hz
  split_ifs at hz <;> simp_all

lemma length_flatMap_le {f : UInt8 → Bytes} (h : ∀ c, (f c).length ≤ 2) (s : Bytes) :
    (s.flatMap f).length ≤ 2 * s.length := by
  induction s with
  | nil => simp
  | cons c s ih =>
    have hHead := h c
    rw [flatMap_cons, length_append, length_cons]
    omega

lemma makeargvLoop_quote (hq : quot = 34 ∨ quot = 39) (hf : m.argc = 0) (rest : Bytes) :
    makeargvLoop sloppy (quot :: rest) m = makeargvLoop sloppy rest (m.quote quot) := by
  have hFew : ¬ maxArgs + 1 ≤ m.argc := by rw [hf]; decide
  have hs : isspace quot ≠ true := by rcases hq with rfl | rfl <;> decide
  rw [makeargvLoop.eq_def, if_neg hFew]
  dsimp only
  rw [if_neg hs, if_pos hq]

/-- A name that is written literally is the one argument, whatever it contains. -/
theorem literal_argument {s q : Bytes} (hSome : s ≠ []) (hNul : 0 ∉ s) (hLen : s.length ≤ 2000)
    (hl : q ∈ literals s) (sloppy : Bool) :
    ∃ arg last, makeargv q sloppy = .ok ([arg], last, true) ∧ undoGlobEscape arg = s := by
  have hEnd : ∀ quote, makeargvLoop sloppy [] ⟨.unquoted, s.flatMap globEscape, [0], 0, quote⟩ =
    .ok ([s.flatMap globEscape], quote, true) := makeargvLoop_end (zero_notMem_flatMap hNul)
  have hQuoted : ∀ state quot, state.quot = some quot → quot = 34 ∨ quot = 39 →
    Scan.quote ⟨.start, [], [], 0, 0⟩ quot = ⟨state, [], [0], 0, quot⟩ →
    makeargv (quoted quot s) sloppy = .ok ([s.flatMap globEscape], quot, true) := by
    intro state quot hState hQuot hBegin
    have hBody := length_flatMap_le (f := quoteChar quot) (fun c => by unfold quoteChar; split <;> simp) s
    have hShort : ¬ maxArgLen - 1 < (quoted quot s).length := by
      simp only [quoted, length_cons, length_append, length_nil, maxArgLen]
      omega
    rw [makeargv, if_neg hShort, quoted, makeargvLoop_quote hQuot rfl, hBegin,
      makeargvLoop_quotedAll s _ hState rfl (by simp only [length_nil, maxArgLen]; omega),
      makeargvLoop_quote hQuot rfl, ← hEnd quot]
    congr 1
    rcases hQuot with rfl | rfl <;> cases state <;> simp_all [Scan.quote, Scan.put, MaState.quot]
  refine ⟨s.flatMap globEscape, ?_⟩
  rw [undoGlobEscape_flatMap]
  simp only [literals, mem_cons, not_mem_nil, or_false] at hl
  rcases hl with rfl | rfl | rfl
  · exact ⟨34, hQuoted .dquote 34 rfl (.inl rfl) rfl, rfl⟩
  · exact ⟨39, hQuoted .squote 39 rfl (.inr rfl) rfl, rfl⟩
  · refine ⟨0, ?_, rfl⟩
    cases s with
    | nil => exact absurd rfl hSome
    | cons c s =>
      have hShort : ¬ maxArgLen - 1 < ((c :: s).flatMap fun c => [92, c]).length := by
        have hBody := length_flatMap_le (f := fun c => [92, c]) (fun _ => Nat.le_refl _) (c :: s)
        unfold maxArgLen
        omega
      rw [makeargv, if_neg hShort, flatMap_cons, cons_append, singleton_append,
        makeargvLoop_escaped rfl rfl, makeargvLoop_escapedAll s rfl rfl]
      exact hEnd 0

theorem literal_argument_star : ∃ arg last, makeargv (quoted 34 (text "\\*")) false = .ok ([arg], last, true) ∧
    undoGlobEscape arg = text "\\*" :=
  literal_argument (by decide) (by decide) (by decide) (by decide) false

end SftpClient
