import Sshfortress.Base.Interaction
import Sshfortress.Base.Bytes

/-! The database as a C client sees it: what the calls of one lookup answer,
and the default grammar of string literals. -/
namespace Base.Mysql

open Base List
open Option (map_eq_some_iff)

abbrev Row := Nat → Option Bytes

/-- What the client library answers during one lookup. `query` says of each
statement whether the server accepts it. -/
structure Answers where
  (init connect : Bool)
  query : Bytes → Bool
  store : Bool
  row : Option Row

/-- The row that reaches the program, if every call before it succeeds. -/
def Answers.fetched (db : Answers) (sql : Bytes) : Option Row :=
  if db.init && db.connect && db.query sql && db.store then db.row else none

/-- `strcpy` of a column into an array of `size` bytes. A NULL column and an
overrun both count as a crash. -/
def strcpy (size : Nat) (column : Option Bytes) : Except Stop Bytes :=
  match column with
  | none => .error .crash
  | some field => if (cstr field).length < size then .ok (cstr field) else .error .crash

/-! String literals. -/

/-- The bytes that a backslash followed by `c` stands for. -/
def unescape (c : UInt8) : Bytes :=
  if c = 48 then [0]           -- \0
  else if c = 98 then [8]      -- \b
  else if c = 110 then [10]    -- \n
  else if c = 114 then [13]    -- \r
  else if c = 116 then [9]     -- \t
  else if c = 90 then [26]     -- \Z
  else if c = 37 ∨ c = 95 then [92, c]  -- patterns keep their backslash
  else [c]

/-- Read a literal up to its closing quote `q`; the opening one is already
gone. Gives the decoded text and what follows the literal. -/
def literal (q : UInt8) : Bytes → Option (Bytes × Bytes)
  | [] => none
  | [c] => if c = q then some ([], []) else none
  | c :: d :: s =>
    if c = q then
      if d = q then (literal q s).map fun (out, rest) => (q :: out, rest) else some ([], d :: s)
    else if c = 92 then (literal q s).map fun (out, rest) => (unescape d ++ out, rest)
    else (literal q (d :: s)).map fun (out, rest) => (c :: out, rest)

/-- Text that stands for itself inside a literal quoted by `q`: no quote, and
no backslash other than in `\%` and `\_`. -/
def plain (q : UInt8) : Bytes → Bool
  | [] => true
  | [c] => c ≠ q && c ≠ 92
  | c :: d :: s =>
    if c = 92 then (d = 37 || d = 95) && plain q s else c ≠ q && plain q (d :: s)

lemma unescape_length (c : UInt8) : (unescape c).length = 1 ∨ (c = 37 ∨ c = 95) ∧ unescape c = [92, c] := by
  unfold unescape
  grind

variable {q c : UInt8} {s rest : Bytes}

/-- What was read is the decoding of a piece of the input that ends at a
quote. It is never longer than that piece, and as long only if it is the
piece itself. -/
lemma literal_eq_some {out : Bytes} (h : literal q s = some (out, rest)) :
    ∃ content, s = content ++ q :: rest ∧ out.length ≤ content.length ∧
      (out.length = content.length → out = content ∧ plain q content = true) := by
  fun_induction literal q s generalizing out rest with
  | case1 => cases h
  | case2 =>
    cases h
    exact ⟨[], rfl, le_rfl, fun _ => ⟨rfl, rfl⟩⟩
  | case3 c _ => cases h
  | case4 s ih =>
    simp only [map_eq_some_iff, Prod.exists, Prod.mk.injEq] at h
    obtain ⟨out', rest', ht, rfl, rfl⟩ := h
    obtain ⟨content, rfl, hLe, _⟩ := ih ht
    refine ⟨q :: q :: content, rfl, ?_, ?_⟩
    · simp only [length_cons]
      omega
    · -- A doubled quote loses a byte, and no later byte makes up for it.
      intro hEq
      simp only [length_cons] at hEq
      omega
  | case5 d s _ =>
    cases h
    exact ⟨[], rfl, le_rfl, fun _ => ⟨rfl, rfl⟩⟩
  | case6 d s hf ih =>
    simp only [map_eq_some_iff, Prod.exists, Prod.mk.injEq] at h
    obtain ⟨out', rest', ht, rfl, rfl⟩ := h
    obtain ⟨content, rfl, hLe, hs⟩ := ih ht
    refine ⟨92 :: d :: content, rfl, ?_, ?_⟩
    · rcases unescape_length d with hOne | ⟨_, hTwo⟩
      · simp only [length_append, length_cons, hOne]
        omega
      · simp only [hTwo, length_append, length_cons, length_nil]
        omega
    · intro hEq
      rcases unescape_length d with hOne | ⟨hPattern, hTwo⟩
      · simp only [length_append, length_cons, hOne] at hEq
        omega
      · simp only [hTwo, length_append, length_cons, length_nil] at hEq
        obtain ⟨rfl, hp⟩ := hs (by omega)
        exact ⟨by simp [hTwo], by simp [plain, hPattern, hp]⟩
  | case7 c d s hf he ih =>
    simp only [map_eq_some_iff, Prod.exists, Prod.mk.injEq] at h
    obtain ⟨out', rest', ht, rfl, rfl⟩ := h
    obtain ⟨content, hc, hLe, hs⟩ := ih ht
    refine ⟨c :: content, by simp [hc], by simpa using hLe, ?_⟩
    intro hEq
    obtain ⟨rfl, hp⟩ := hs (by simpa using hEq)
    refine ⟨rfl, ?_⟩
    cases out' with
    | nil => simp [plain, hf, he]
    | cons e content => simpa [plain, hf, he] using hp

lemma literal_plain (hq : q ≠ 92) {u : Bytes} (hp : plain q u = true) (hn : c ≠ q)
    (rest : Bytes) : literal q (u ++ q :: c :: rest) = some (u, c :: rest) := by
  fun_induction plain q u with
  | case1 => simp [literal, hn]
  | case2 e =>
    simp only [ne_eq, Bool.and_eq_true, decide_eq_true_eq] at hp
    simp [literal, hn, hp]
  | case3 d s ih =>
    simp only [Bool.and_eq_true, Bool.or_eq_true, decide_eq_true_eq] at hp
    have hTwo : unescape d = [92, d] := by rcases hp.1 with rfl | rfl <;> rfl
    have ht := ih hp.2
    simp only [cons_append, literal, hq.symm, if_false, if_true, ht, hTwo]
    rfl
  | case4 e d s he ih =>
    simp only [ne_eq, Bool.and_eq_true, decide_eq_true_eq] at hp
    have ht := ih hp.2
    simp only [cons_append] at ht
    simp [literal, he, hp.1, ht]

/-! Text between the quotes of a statement. -/

/-- The text, put between quotes, is a literal for `v` that ends at the closing quote. -/
def Spells (q : UInt8) (source v : Bytes) : Prop :=
  ∀ c rest, c ≠ q → literal q (source ++ q :: c :: rest) = some (v, c :: rest)

lemma literal_mem {out : Bytes} (h : literal q s = some (out, rest)) (hc : c ∈ out) :
    c ∈ s ∨ c ∈ ([0, 8, 9, 10, 13, 26] : Bytes) := by
  have hu : ∀ d, c ∈ unescape d → c = d ∨ c = 92 ∨ c ∈ ([0, 8, 9, 10, 13, 26] : Bytes) := by
    intro d hd
    unfold unescape at hd
    grind
  fun_induction literal q s generalizing out rest with
  | case1 => cases h
  | case2 =>
    cases h
    cases hc
  | case3 e _ => cases h
  | case4 s ih =>
    simp only [map_eq_some_iff, Prod.exists, Prod.mk.injEq] at h
    obtain ⟨out', rest', ht, rfl, rfl⟩ := h
    grind
  | case5 d s _ =>
    cases h
    cases hc
  | case6 d s hf ih =>
    simp only [map_eq_some_iff, Prod.exists, Prod.mk.injEq] at h
    obtain ⟨out', rest', ht, rfl, rfl⟩ := h
    rcases mem_append.1 hc with hh | hl
    · have hKind := hu d hh
      grind
    · have hFound := ih ht hl
      grind
  | case7 e d s hf hEscape ih =>
    simp only [map_eq_some_iff, Prod.exists, Prod.mk.injEq] at h
    obtain ⟨out', rest', ht, rfl, rfl⟩ := h
    grind

lemma literal_nil (h : literal q (c :: s) = some ([], rest)) : rest = s := by
  cases s with
  | nil =>
    rw [literal] at h
    split at h
    · cases h
      rfl
    · cases h
  | cons d s =>
    rw [literal] at h
    split_ifs at h
    · obtain ⟨⟨out, tail⟩, -, hOut⟩ := map_eq_some_iff.1 h
      cases hOut
    · cases h
      rfl
    · obtain ⟨⟨out, tail⟩, -, hOut⟩ := map_eq_some_iff.1 h
      have hNil := congrArg (·.1.length) hOut
      rcases unescape_length d with hOne | ⟨-, hTwo⟩
      · simp [hOne] at hNil
      · simp [hTwo] at hNil
    · obtain ⟨⟨out, tail⟩, -, hOut⟩ := map_eq_some_iff.1 h
      cases hOut

namespace Spells

variable {q : UInt8} {source v : Bytes}

lemma length (h : Spells q source v) (hq : q ≠ 0) :
    v.length ≤ source.length ∧ (v.length = source.length → v = source ∧ plain q source = true) := by
  obtain ⟨content, hc, hLe, hs⟩ := literal_eq_some (h 0 [] hq.symm)
  rw [append_cancel_right_eq] at hc
  subst hc
  exact ⟨hLe, hs⟩

lemma mem (h : Spells q source v) (hq : q ≠ 0) {c : UInt8} (hc : c ∈ v) :
    c ∈ source ∨ c = q ∨ c ∈ ([0, 8, 9, 10, 13, 26] : Bytes) := by
  have hMem := literal_mem (h 0 [] hq.symm) hc
  grind

lemma ne_nil (h : Spells q source v) (hq : q ≠ 0) (hs : source ≠ []) : v ≠ [] := by
  rintro rfl
  cases source with
  | nil => exact hs rfl
  | cons c rest =>
    have hr := literal_nil (h 0 [] hq.symm)
    have hLen := congrArg List.length hr
    simp at hLen

lemma self_iff (hq : q ≠ 92) (hz : q ≠ 0) : Spells q source source ↔ plain q source = true := by
  constructor
  · exact fun h => ((h.length hz).2 rfl).2
  · exact fun h c rest hc => literal_plain hq h hc rest

end Spells

end Base.Mysql
