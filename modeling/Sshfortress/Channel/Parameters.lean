import Sshfortress.Channel.Screen

/-! The two arrays a control sequence is parsed into. `vt100` has eight bytes for the letters
of one parameter and their terminator, `vt100_params` holds the values of ten parameters. Which stores a
run makes depends on the bytes of the stream alone, so whether they stay inside the arrays
is a question about its text. -/
namespace Channel
open Base List
namespace Terminal

inductive Store where
  | letter (ptr : Nat)
  | param (ptr : Nat)
  deriving DecidableEq

/-- Below `VT100_BUF`, respectively `VT100_PARAMS`. -/
def Store.Inside : Store → Prop
  | .letter ptr => ptr < 8
  | .param ptr => ptr < 10

instance (store : Store) : Decidable store.Inside :=
  match store with
  | .letter ptr => inferInstanceAs (Decidable (ptr < 8))
  | .param ptr => inferInstanceAs (Decidable (ptr < 10))

variable {t : Terminal} {c : UInt8} {s rest : Bytes} {ptr used room fuel : Nat} {b : Int}

@[simp] lemma inside_letter : (Store.letter ptr).Inside ↔ ptr < 8 := Iff.rfl

@[simp] lemma inside_param : (Store.param ptr).Inside ↔ ptr < 10 := Iff.rfl

def readParamStores : Bytes → Nat → List Store
  | [], _ => []
  | c :: rest, ptr => if signed c ≤ 57 then .letter ptr :: readParamStores rest (ptr + 1) else []

def readParamsStores : Nat → Int → Terminal → List Store
  | 0, _, _ => []
  | fuel + 1, b, t =>
    if b = 59 && t.vt100.length < 8 && !t.eof then
      let stores := readParamStores t.src t.vt100.length
      let (b, t) := readParam t.src t
      if b = 63 then stores ++ readParamsStores fuel 59 { t with qMark := true }
      else
        stores ++ .letter t.vt100.length :: .param t.paramPtr :: readParamsStores fuel b (endParam t)
    else []

/-- The stores of the next iteration. Only a control sequence makes any. -/
def iterationStores (t : Terminal) : List Store :=
  let (b, t) := fgetc t
  if b = 27 then
    let (b, t) := fgetc t
    if b = 91 then readParamsStores (t.src.length + 1) 59 (sequenceStart t) else []
  else []

def loopStores : Nat → Terminal → List Store
  | 0, _ => []
  | fuel + 1, t => if t.eof then [] else iterationStores t ++ loopStores fuel (iteration t)

def ansiCopyStores (t : Terminal) : List Store := loopStores (t.src.length + 1) t

/-! The stores are those the model faults. -/

lemma fault_readParam (s : Bytes) (t : Terminal) : (readParam s t).2.fault = true ↔
    t.fault = true ∨ ∃ store ∈ readParamStores s t.vt100.length, ¬ store.Inside := by
  induction s generalizing t with
  | nil => simp [readParam, readParamStores]
  | cons c rest ih =>
    rw [readParam, readParamStores]
    split_ifs with hLetter
    · rw [ih]
      simp [or_assoc]
    · simp

lemma fault_endParam (t : Terminal) : (endParam t).fault = true ↔
    t.fault = true ∨ ∃ store ∈ [Store.letter t.vt100.length, .param t.paramPtr], ¬ store.Inside := by
  simp [endParam, or_assoc]

lemma fault_readParams (fuel : Nat) (b : Int) (t : Terminal) : (readParams fuel b t).2.fault = true ↔
    t.fault = true ∨ ∃ store ∈ readParamsStores fuel b t, ¬ store.Inside := by
  induction fuel generalizing b t with
  | zero => simp [readParams, readParamsStores]
  | succ fuel ih =>
    have hr := fault_readParam t.src t
    rw [readParams, readParamsStores]
    split_ifs with hMore
    · dsimp only
      split_ifs with hQuestion
      · rw [ih]
        simp only [mem_append, or_and_right, exists_or, ← or_assoc, ← hr]
      · rw [ih, fault_endParam, hr]
        simp only [mem_append, mem_cons, or_and_right, exists_or, or_assoc, not_mem_nil,
          false_and, exists_false, false_or]
    · simp

/-! What the bytes of a sequence say. -/

/-- A byte the inner loop takes for a part of a number. -/
def isLetter (c : UInt8) : Bool := signed c ≤ 57

/-- What a sequence comes to: its stores, the byte that ends it (with the value it has in
the program), whether a question mark was met, and what follows it. -/
structure Scan where
  stores : List Store
  final : Int
  question : Bool
  rest : Bytes
  deriving DecidableEq

def Scan.storing (stores : List Store) (x : Scan) : Scan := { x with stores := stores ++ x.stores }

/-- The sequence, when `ptr` letters of the parameter `param` have been read. A question
mark ends it only if the letters fill `vt100`. -/
def scan : Nat → Nat → Bytes → Scan
  | ptr, param, [] => ⟨[.letter ptr, .param param], -1, false, []⟩
  | ptr, param, c :: rest =>
    if isLetter c then (scan (ptr + 1) param rest).storing [.letter ptr]
    else if c = 63 then
      if ptr < 8 then { scan ptr param rest with question := true } else ⟨[], 59, true, rest⟩
    else if c = 59 then (scan 0 (param + 1) rest).storing [.letter ptr, .param param]
    else ⟨[.letter ptr, .param param], signed c, false, rest⟩

/-- What is left after an escape sequence that is no control sequence. A byte that starts
none is read again; the end of the file cannot be told from the byte 255. -/
def afterEscape : Bytes → Bytes
  | [] => []
  | c :: rest =>
    match Char.ofNat (signed c).toNat with
    | '7' | '8' | '\\' => rest
    | '#' | 'P' | '(' => rest.tail
    | ']' => if rest.head? = some 48 then rest.tail.tail else rest.tail
    | _ => if c = 255 then rest else c :: rest

/-- The texts of the control sequences of a stream, each with all that follows it. -/
def sequencesIn : Nat → Bytes → List Bytes
  | 0, _ => []
  | _ + 1, [] => []
  | fuel + 1, c :: rest =>
    if c = 27 then
      if rest.head? = some 91 then rest.tail :: sequencesIn fuel (scan 0 0 rest.tail).rest
      else sequencesIn fuel (afterEscape rest)
    else sequencesIn fuel rest

def controlSequences (src : Bytes) : List Bytes := sequencesIn src.length src

/-- A parameter is made of letters; question marks in between are passed over. -/
def IsParameter (p : Bytes) : Prop := ∀ c ∈ p, isLetter c = true ∨ c = 63

def letters (p : Bytes) : Nat := p.countP isLetter

/-- What follows a last parameter. -/
def Ends (rest : Bytes) : Prop := ∀ c ∈ rest.head?, isLetter c = false ∧ c ≠ 63 ∧ c ≠ 59

lemma ends_nil : Ends [] := by simp [Ends]

/-- The text of a sequence of at most `room` parameters with at most seven letters each,
`used` letters of the first one having been read. In the third case the letters fill the
array and the question mark ends the sequence before the terminator is stored. -/
inductive ParametersFit : Nat → Nat → Bytes → Prop where
  | last {used room : Nat} {p rest : Bytes} (hParameter : IsParameter p)
      (hLetters : used + letters p ≤ 7) (hEnds : Ends rest) :
      ParametersFit used (room + 1) (p ++ rest)
  | next {used room : Nat} {p rest : Bytes} (hParameter : IsParameter p)
      (hLetters : used + letters p ≤ 7) (hRest : ParametersFit 0 room rest) :
      ParametersFit used (room + 1) (p ++ 59 :: rest)
  | question {used room : Nat} {p rest : Bytes} (hParameter : IsParameter p)
      (hLetters : used + letters p = 8) : ParametersFit used room (p ++ 63 :: rest)

lemma isLetter_question : isLetter 63 = false := by decide

lemma ParametersFit.used_le (h : ParametersFit used room s) : used ≤ 8 := by cases h <;> omega

lemma isParameter_cons {p : Bytes} :
    IsParameter (c :: p) ↔ (isLetter c = true ∨ c = 63) ∧ IsParameter p := by simp [IsParameter]

lemma isParameter_nil : IsParameter [] := fun _ h => nomatch h

lemma letters_cons (c : UInt8) (p : Bytes) :
    letters (c :: p) = letters p + if isLetter c = true then 1 else 0 := by
  simp [letters, countP_cons]

lemma parametersFit_cons_part (hp : isLetter c = true ∨ c = 63) (hf : ¬ (c = 63 ∧ used = 8)) :
    ParametersFit used room (c :: rest) ↔
      ParametersFit (used + if isLetter c = true then 1 else 0) room rest := by
  have hn : c ≠ 59 := by
    rintro rfl
    revert hp
    decide
  constructor
  · intro h
    generalize ht : c :: rest = s at h
    cases h with
    | @last _ room p tail hParameter hLetters hEnds =>
      cases p with
      | nil =>
        obtain rfl : tail = c :: rest := ht.symm
        obtain ⟨hNot, ho, -⟩ := hEnds c rfl
        rcases hp with hl | hq
        · simp [hNot] at hl
        · exact absurd hq ho
      | cons d p =>
        obtain ⟨rfl, rfl⟩ : c = d ∧ rest = p ++ tail := List.cons.inj ht
        rw [letters_cons] at hLetters
        exact .last (isParameter_cons.1 hParameter).2 (by omega) hEnds
    | @next _ room p tail hParameter hLetters hRest =>
      cases p with
      | nil => exact absurd (List.cons.inj ht).1 hn
      | cons d p =>
        obtain ⟨rfl, rfl⟩ : c = d ∧ rest = p ++ 59 :: tail := List.cons.inj ht
        rw [letters_cons] at hLetters
        exact .next (isParameter_cons.1 hParameter).2 (by omega) hRest
    | @question _ _ p tail hParameter hLetters =>
      cases p with
      | nil => exact absurd ⟨(List.cons.inj ht).1, hLetters⟩ hf
      | cons d p =>
        obtain ⟨rfl, rfl⟩ : c = d ∧ rest = p ++ 63 :: tail := List.cons.inj ht
        rw [letters_cons] at hLetters
        exact .question (isParameter_cons.1 hParameter).2 (by omega)
  · intro h
    cases h with
    | @last _ room p tail hParameter hLetters hEnds =>
      exact .last (p := c :: p) (isParameter_cons.2 ⟨hp, hParameter⟩) (by rw [letters_cons]; omega) hEnds
    | @next _ room p tail hParameter hLetters hRest =>
      exact .next (p := c :: p) (isParameter_cons.2 ⟨hp, hParameter⟩) (by rw [letters_cons]; omega) hRest
    | @question _ _ p tail hParameter hLetters =>
      exact .question (p := c :: p) (isParameter_cons.2 ⟨hp, hParameter⟩) (by rw [letters_cons]; omega)

lemma parametersFit_semicolon :
    ParametersFit used room (59 :: rest) ↔ used < 8 ∧ 0 < room ∧ ParametersFit 0 (room - 1) rest := by
  have hNot : ∀ d p, d = (59 : UInt8) → ¬ IsParameter (d :: p) := by
    rintro d p rfl hParameter
    exact absurd (isParameter_cons.1 hParameter).1 (by decide)
  constructor
  · intro h
    generalize ht : (59 : UInt8) :: rest = s at h
    cases h with
    | @last _ room p tail hParameter hLetters hEnds =>
      cases p with
      | nil =>
        obtain rfl : tail = 59 :: rest := ht.symm
        exact absurd rfl (hEnds 59 rfl).2.2
      | cons d p => exact absurd hParameter (hNot d p (List.cons.inj ht).1.symm)
    | @next _ room p tail hParameter hLetters hRest =>
      cases p with
      | nil =>
        obtain rfl : rest = tail := (List.cons.inj ht).2
        exact ⟨by omega, by omega, hRest⟩
      | cons d p => exact absurd hParameter (hNot d p (List.cons.inj ht).1.symm)
    | @question _ _ p tail hParameter hLetters =>
      cases p with
      | nil => exact absurd (List.cons.inj ht).1 (by decide)
      | cons d p => exact absurd hParameter (hNot d p (List.cons.inj ht).1.symm)
  · rintro ⟨hUsed, hRoom, hRest⟩
    obtain ⟨room, rfl⟩ : ∃ n, room = n + 1 := ⟨room - 1, by omega⟩
    exact .next (p := []) isParameter_nil (by simp [letters]; omega) hRest

lemma parametersFit_ends (hEnds : Ends s) : ParametersFit used room s ↔ used < 8 ∧ 0 < room := by
  constructor
  · intro h
    -- The text starts with no parameter, no semicolon and no question mark.
    have hs : ∀ (d : UInt8) (p : Bytes), s = d :: p → ¬ (isLetter d = true ∨ d = 63) ∧ d ≠ 59 := by
      rintro d p rfl
      obtain ⟨hNot, hq, hSemi⟩ := hEnds d rfl
      exact ⟨by simp [hNot, hq], hSemi⟩
    cases h with
    | @last _ room p tail hParameter hLetters _ => omega
    | @next _ room p tail hParameter hLetters hRest => omega
    | @question _ _ p tail hParameter hLetters =>
      cases p with
      | nil => exact absurd (.inr rfl) (hs 63 tail rfl).1
      | cons d p => exact absurd (isParameter_cons.1 hParameter).1 (hs d _ rfl).1
  · rintro ⟨hUsed, hRoom⟩
    obtain ⟨room, rfl⟩ : ∃ n, room = n + 1 := ⟨room - 1, by omega⟩
    exact .last (p := []) isParameter_nil (by simp [letters]; omega) hEnds

lemma ends_inside_iff {param : Nat} :
    (∀ store ∈ [Store.letter ptr, Store.param param], store.Inside) ↔ ptr < 8 ∧ 0 < 10 - param := by
  simp only [forall_mem_cons, inside_letter, inside_param, not_mem_nil, false_implies, implies_true, and_true]
  omega

lemma scan_inside_iff {param : Nat} (hPtr : ptr ≤ 8) (hp : param ≤ 10) :
    (∀ store ∈ (scan ptr param s).stores, store.Inside) ↔ ParametersFit ptr (10 - param) s := by
  induction s generalizing ptr param with
  | nil =>
    rw [parametersFit_ends ends_nil]
    exact ends_inside_iff
  | cons c rest ih =>
    rw [scan]
    split_ifs with hl hq hRoom hs
    · rw [parametersFit_cons_part (.inl hl) (fun h => by simp [h.1, isLetter_question] at hl), if_pos hl]
      simp only [Scan.storing, singleton_append, forall_mem_cons, inside_letter]
      constructor
      · rintro ⟨hLess, hRest⟩
        exact (ih hLess hp).1 hRest
      · intro hFit
        have hu := hFit.used_le
        exact ⟨hu, (ih hu hp).2 hFit⟩
    · rw [parametersFit_cons_part (.inr hq) (by omega), if_neg hl]
      exact ih hPtr hp
    · -- The array is full, and nothing more is stored.
      subst hq
      have hFit : ParametersFit ptr (10 - param) (63 :: rest) :=
        .question (p := []) isParameter_nil (by simp [letters]; omega)
      simp [hFit]
    · subst hs
      rw [parametersFit_semicolon]
      simp only [Scan.storing, cons_append, nil_append, forall_mem_cons, inside_letter, inside_param]
      constructor
      · rintro ⟨hLess, hFew, hRest⟩
        exact ⟨hLess, by omega, (ih (by omega) hFew).1 hRest⟩
      · rintro ⟨hLess, hFew, hFit⟩
        have hn : param + 1 ≤ 10 := by omega
        exact ⟨hLess, hn, (ih (by omega) hn).2 hFit⟩
    · have hEnds : Ends (c :: rest) := by
        intro d hd
        obtain rfl : c = d := Option.some.inj hd
        exact ⟨by simpa using hl, hq, hs⟩
      rw [parametersFit_ends hEnds]
      exact ends_inside_iff

/-! The program reads the stream as `scan` and `sequencesIn` do. -/

lemma signed_spec (c : UInt8) :
    c.toNat < 128 ∧ signed c = c.toNat ∨ 128 ≤ c.toNat ∧ c.toNat < 256 ∧ signed c = c.toNat - 256 := by
  unfold signed
  split_ifs with hl
  · exact .inl ⟨UInt8.lt_iff_toNat_lt.1 hl, rfl⟩
  · exact .inr ⟨UInt8.le_iff_toNat_le.1 (UInt8.not_lt.1 hl), UInt8.toNat_lt c, rfl⟩

lemma signed_eq_iff {d : UInt8} (hs : d < 128) : signed c = d.toNat ↔ c = d := by
  have hD : d.toNat < 128 := UInt8.lt_iff_toNat_lt.1 hs
  have hC := signed_spec c
  rw [← UInt8.toNat_inj]
  omega

lemma readParams_stop (fuel : Nat) (h : b = 59 → 8 ≤ t.vt100.length) :
    readParams fuel b t = (b, t) ∧ readParamsStores fuel b t = [] := by
  cases fuel with
  | zero => exact ⟨rfl, rfl⟩
  | succ fuel =>
    have hs : ¬ (b = 59 && t.vt100.length < 8 && !t.eof) = true := by
      simp only [Bool.and_eq_true, decide_eq_true_eq]
      omega
    rw [readParams, readParamsStores, if_neg hs, if_neg hs]
    exact ⟨rfl, rfl⟩

/-- What the loop stored and returned is what the text says; `asked` tells whether a
question mark came before it. -/
def Agrees (x : Scan) (stores : List Store) (result : Int × Terminal) (asked : Bool) : Prop :=
  stores = x.stores ∧ result.1 = x.final ∧ result.2.src = x.rest ∧ result.2.qMark = (asked || x.question)

lemma Agrees.storing {x : Scan} {stores : List Store} {result : Int × Terminal} {asked : Bool}
    (h : Agrees x stores result asked) (before : List Store) :
    Agrees (x.storing before) (before ++ stores) result asked :=
  ⟨congrArg (before ++ ·) h.1, h.2⟩

/-- The body of the outer loop on the text `s`, with what the later rounds do as
hypothesis. The induction is on the letters the inner loop reads. -/
lemma agrees_body (hLater : ∀ t : Terminal, t.src.length < fuel → t.eof = false → t.vt100.length < 8 →
      Agrees (scan t.vt100.length t.paramPtr t.src) (readParamsStores fuel 59 t) (readParams fuel 59 t) t.qMark)
    (s : Bytes) (t : Terminal) (hf : s.length ≤ fuel) (hEof : t.eof = false) :
    Agrees (scan t.vt100.length t.paramPtr s) (readParamStores s t.vt100.length ++
        if (readParam s t).1 = 63 then readParamsStores fuel 59 { (readParam s t).2 with qMark := true }
        else .letter (readParam s t).2.vt100.length :: .param (readParam s t).2.paramPtr ::
          readParamsStores fuel (readParam s t).1 (endParam (readParam s t).2))
      (if (readParam s t).1 = 63 then readParams fuel 59 { (readParam s t).2 with qMark := true }
        else readParams fuel (readParam s t).1 (endParam (readParam s t).2))
      t.qMark := by
  induction s generalizing t with
  | nil =>
    obtain ⟨hRes, hs⟩ :=
      readParams_stop fuel (b := -1) (t := endParam { t with src := [], eof := true }) (by omega)
    have hEnd : (-1 : Int) ≠ 63 := by decide
    rw [readParam, if_neg hEnd, if_neg hEnd, hRes, hs]
    exact ⟨rfl, rfl, rfl, (Bool.or_false _).symm⟩
  | cons c rest ih =>
    rw [readParam, readParamStores, scan]
    by_cases hl : signed c ≤ 57
    · rw [if_pos hl, if_pos hl, if_pos (by simpa [isLetter] using hl)]
      have hRest := ih { t with vt100 := t.vt100 ++ [c], fault := t.fault || 8 ≤ t.vt100.length }
        (by simp at hf; omega) hEof
      rw [show (t.vt100 ++ [c]).length = t.vt100.length + 1 by simp] at hRest
      exact hRest.storing [.letter t.vt100.length]
    · rw [if_neg hl, if_neg hl, if_neg (by simpa [isLetter] using hl)]
      have hShort : rest.length < fuel := hf
      by_cases hq : c = 63
      · have hb : signed c = 63 := (signed_eq_iff (by decide)).2 hq
        split_ifs with hr
        · obtain ⟨hs, hFinal, hSrc, hm⟩ :=
            hLater { t with src := rest, qMark := true } hShort hEof hr
          exact ⟨hs, hFinal, hSrc, by simpa using hm⟩
        · obtain ⟨hRes, hs⟩ :=
            readParams_stop fuel (b := 59) (t := { t with src := rest, qMark := true })
              (fun _ => Nat.not_lt.1 hr)
          rw [hRes, hs]
          exact ⟨rfl, rfl, rfl, (Bool.or_true _).symm⟩
      · have hb : signed c ≠ 63 := fun h => hq ((signed_eq_iff (by decide)).1 h)
        rw [if_neg hb, if_neg hb, if_neg hq]
        by_cases hSemi : c = 59
        · have hn : signed c = 59 := (signed_eq_iff (by decide)).2 hSemi
          have hEnd := hLater (endParam { t with src := rest }) hShort hEof (by simp [endParam])
          rw [if_pos hSemi, hn]
          exact hEnd.storing [.letter t.vt100.length, .param t.paramPtr]
        · have hStop : signed c ≠ 59 := fun h => hSemi ((signed_eq_iff (by decide)).1 h)
          obtain ⟨hRes, hs⟩ :=
            readParams_stop fuel (t := endParam { t with src := rest }) (fun h => absurd h hStop)
          rw [if_neg hSemi, hRes, hs]
          exact ⟨rfl, rfl, rfl, (Bool.or_false _).symm⟩

lemma agrees_readParams (fuel : Nat) (t : Terminal) (hf : t.src.length < fuel) (hEof : t.eof = false)
    (hr : t.vt100.length < 8) :
    Agrees (scan t.vt100.length t.paramPtr t.src) (readParamsStores fuel 59 t) (readParams fuel 59 t) t.qMark := by
  induction fuel generalizing t with
  | zero => omega
  | succ fuel ih =>
    have hb := agrees_body ih t.src t (Nat.lt_succ_iff.1 hf) hEof
    have hm : (59 = (59 : Int) && t.vt100.length < 8 && !t.eof) = true := by simp [hr, hEof]
    rw [readParams, readParamsStores, if_pos hm, if_pos hm]
    dsimp only
    rw [← apply_ite (readParamStores t.src t.vt100.length ++ ·)]
    exact hb

/-- Nothing is read after the end of the file has been met. -/
def Drained (input : Bytes × Bool) : Prop := input.2 = true → input.1 = []

lemma drained_fgetc (h : Drained t.input) : Drained (fgetc t).2.input := by
  unfold fgetc
  cases hSrc : t.src with
  | nil => exact fun _ => rfl
  | cons c rest =>
    intro hEof
    exact absurd (hSrc.symm.trans (h hEof)) (cons_ne_nil c rest)

lemma drained_ungetc (h : Drained t.input) : Drained (ungetc b t).input := by
  unfold ungetc
  split_ifs
  · exact h
  · intro hEof
    cases hEof

lemma drained_readParam (h : t.eof = true → s = []) : Drained (readParam s t).2.input := by
  induction s generalizing t with
  | nil => exact fun _ => rfl
  | cons c rest ih =>
    have ho : t.eof ≠ true := fun hEof => cons_ne_nil _ _ (h hEof)
    rw [readParam]
    split_ifs
    · exact ih fun hEof => absurd hEof ho
    · exact fun hEof => absurd hEof ho

section
variable (h : Drained t.input)
include h

lemma drained_readParams : Drained (readParams fuel b t).2.input := by
  induction fuel generalizing b t with
  | zero => exact h
  | succ fuel ih =>
    have hr : Drained (readParam t.src t).2.input := drained_readParam h
    rw [readParams]
    split_ifs
    · dsimp only
      split_ifs
      · exact ih hr
      · exact ih hr
    · exact h

lemma drained_controlSequence : Drained (controlSequence t).input := by
  have hr : Drained (readParams (t.src.length + 1) 59 (sequenceStart t)).2.input := drained_readParams h
  rw [controlSequence_eq]
  dsimp only
  split_ifs
  · rw [input_questionAction]
    exact hr
  · rw [input_action]
    exact hr

lemma drained_escape : Drained (escape t).input := by
  have hf := drained_fgetc h
  have hSnd := drained_fgetc hf
  unfold escape
  dsimp only
  split
  case h_3 => split <;> exact hSnd
  case h_4 => exact hSnd
  case h_6 => split_ifs <;> exact hSnd
  case h_7 =>
    split_ifs
    · exact drained_fgetc hSnd
    · exact hSnd
  case h_8 => exact drained_controlSequence hf
  case h_9 => exact drained_ungetc hf
  all_goals exact hf

lemma drained_iteration : Drained (iteration t).input := by
  have hn := drained_fgetc h
  unfold iteration
  rw [input_widen, input_scroll, input_clamp]
  split_ifs
  · exact hn
  · unfold control
    split
    case h_5 =>
      rw [input_formFeed]
      exact hn
    case h_7 => exact drained_escape hn
    all_goals exact hn

lemma drained_ansiCopyLoop (fuel : Nat) : Drained (ansiCopyLoop fuel t).input :=
  ansiCopyLoop_keeps (Drained ·.input) (fun _ => drained_iteration) h fuel

lemma Drained.eof_eq_false (hSrc : t.src ≠ []) : t.eof = false := by
  by_contra hEnd
  exact hSrc (h ((Bool.not_eq_false _).mp hEnd))

end

lemma src_iteration (t : Terminal) :
    (iteration t).src = if (fgetc t).1 = 27 then (escape (fgetc t).2).src else (fgetc t).2.src := by
  unfold iteration
  rw [src_of_input (input_widen _), src_of_input (input_scroll _), src_of_input (input_clamp _)]
  by_cases he : (fgetc t).1 = 27
  · rw [if_pos he, he]
    rfl
  · rw [if_neg he]
    split_ifs
    · rfl
    · unfold control
      split
      case h_5 => exact src_of_input (input_formFeed _)
      case h_7 hb => exact absurd hb he
      all_goals rfl

lemma src_controlSequence (hEof : t.eof = false) : (controlSequence t).src = (scan 0 0 t.src).rest := by
  have hs := agrees_readParams (t.src.length + 1) (sequenceStart t) (Nat.lt_succ_self _) hEof (by simp [sequenceStart])
  rw [controlSequence_eq]
  dsimp only
  split_ifs
  · rw [src_of_input (input_questionAction _ _)]
    exact hs.2.2.1
  · rw [src_of_input (input_action _ _)]
    exact hs.2.2.1

lemma fgetc_src (t : Terminal) : (fgetc t).2.src = t.src.tail := by
  unfold fgetc
  cases hSrc : t.src with
  | nil => rfl
  | cons c rest => rfl

lemma unsigned_signed (c : UInt8) : unsigned (signed c) = c := by
  have hC := signed_spec c
  have hv : (signed c % 256).toNat = c.toNat := by omega
  rw [unsigned, hv, UInt8.ofNat_toNat]

lemma signed_eq_neg_one : signed c = -1 ↔ c = 255 := by
  have hC := signed_spec c
  rw [← UInt8.toNat_inj, show (255 : UInt8).toNat = 255 from rfl]
  omega

/-- The characters of the switches are told apart by their values. -/
lemma eq_of_charOf {x : Char} (h : Char.ofNat b.toNat = x) (hx : 0 < x.toNat) : b = x.toNat := by
  by_cases hv : b.toNat.isValidChar
  · have hValue : x.toNat = b.toNat := by
      rw [← h, Char.ofNat, dif_pos hv]
      rfl
    omega
  · rw [← h, Char.ofNat, dif_neg hv] at hx
    exact absurd hx (by decide)

lemma fgetc_cons (hSrc : t.src = c :: rest) : fgetc t = (signed c, { t with src := rest }) := by
  unfold fgetc
  rw [hSrc]

lemma src_ungetc (c : UInt8) : (ungetc (signed c) t).src = if c = 255 then t.src else c :: t.src := by
  unfold ungetc
  rw [unsigned_signed]
  by_cases hEnd : c = 255
  · rw [if_pos hEnd, if_pos (signed_eq_neg_one.2 hEnd)]
  · rw [if_neg hEnd, if_neg (mt signed_eq_neg_one.1 hEnd)]

lemma fgetc_eq_zero : (fgetc t).1 = 48 ↔ t.src.head? = some 48 := by
  unfold fgetc
  cases t.src with
  | nil => simp
  | cons c rest =>
    rw [head?_cons, Option.some.injEq]
    exact signed_eq_iff (d := 48) (by decide)

lemma src_escape (ho : t.src.head? ≠ some 91) : (escape t).src = afterEscape t.src := by
  cases hSrc : t.src with
  | nil => simp [escape, fgetc, hSrc, ungetc, afterEscape]
  | cons c rest =>
    have hb : Char.ofNat (signed c).toNat ≠ '[' := by
      intro hc
      apply ho
      rw [hSrc, head?_cons, (signed_eq_iff (d := 91) (by decide)).1 (eq_of_charOf hc (by decide))]
    unfold escape afterEscape
    rw [fgetc_cons hSrc]
    dsimp only
    split
    case h_1 hc | h_2 hc | h_5 hc =>
      rw [hc]
      rfl
    case h_3 hc =>
      rw [hc]
      split <;> exact fgetc_src _
    case h_4 hc =>
      rw [hc]
      exact fgetc_src _
    case h_6 hc =>
      rw [hc]
      split_ifs <;> exact fgetc_src _
    case h_7 hc =>
      rw [hc]
      simp only [fgetc_eq_zero]
      split_ifs
      · rw [fgetc_src, fgetc_src]
      · exact fgetc_src _
    case h_8 hc => exact absurd hc hb
    case h_9 =>
      rw [src_ungetc]
      split_ifs
      all_goals
        split
        all_goals first | rfl | contradiction

lemma src_iteration_cons (hSrc : t.src = c :: rest) (hEof : t.eof = false) : (iteration t).src =
      if c = 27 then
        if rest.head? = some 91 then (scan 0 0 rest.tail).rest else afterEscape rest
      else rest := by
  have he : signed c = 27 ↔ c = 27 := signed_eq_iff (d := 27) (by decide)
  rw [src_iteration, fgetc_cons hSrc]
  simp only [he]
  split_ifs with hByte hb
  · obtain ⟨s, rfl⟩ : ∃ s, rest = 91 :: s := by
      cases rest with
      | nil => cases hb
      | cons d s => exact ⟨s, by rw [Option.some.inj hb]⟩
    exact src_controlSequence hEof
  · exact src_escape hb
  · rfl

lemma iterationStores_cons (hSrc : t.src = c :: rest) (hEof : t.eof = false) : iterationStores t =
      if c = 27 ∧ rest.head? = some 91 then (scan 0 0 rest.tail).stores else [] := by
  have he : signed c = 27 ↔ c = 27 := signed_eq_iff (d := 27) (by decide)
  unfold iterationStores
  rw [fgetc_cons hSrc]
  simp only [he]
  cases rest with
  | nil => simp [fgetc]
  | cons d s =>
    have hBracket : signed d = 91 ↔ d = 91 := signed_eq_iff (d := 91) (by decide)
    rw [fgetc_cons (t := { t with src := d :: s }) rfl]
    simp only [hBracket, head?_cons, Option.some.injEq, tail_cons]
    have hs := agrees_readParams (s.length + 1) (sequenceStart { t with src := s }) (Nat.lt_succ_self _) hEof
      (by simp [sequenceStart])
    split_ifs with hf hSnd hb hb
    · exact hs.1
    · exact absurd ⟨hf, hSnd⟩ hb
    · exact absurd hb.2 hSnd
    · rfl
    · exact absurd (And.left ‹_›) hf
    · rfl

lemma loopStores_nil (hSrc : t.src = []) : loopStores fuel t = [] := by
  induction fuel generalizing t with
  | zero => rfl
  | succ fuel ih =>
    have hn : (iteration t).src = [] := by
      rw [src_iteration]
      simp [fgetc, hSrc]
    rw [loopStores, ih hn]
    split_ifs
    · rfl
    · simp [iterationStores, fgetc, hSrc]

lemma loopStores_inside_iff {length : Nat} (hd : Drained t.input)
    (hFuel : t.src.length < fuel) (hLen : t.src.length ≤ length) :
    (∀ store ∈ loopStores fuel t, store.Inside) ↔ ∀ s ∈ sequencesIn length t.src, ParametersFit 0 10 s := by
  induction fuel generalizing length t with
  | zero => omega
  | succ fuel ih =>
    cases hSrc : t.src with
    | nil =>
      rw [loopStores_nil hSrc]
      cases length <;> simp [sequencesIn]
    | cons c rest =>
      have hEof := hd.eof_eq_false (by simp [hSrc])
      have hShorter := iteration_src_lt (t := t) (by simp [hSrc])
      obtain ⟨length, rfl⟩ : ∃ n, length = n + 1 := ⟨length - 1, by simp [hSrc] at hLen; omega⟩
      have hRest : _ ↔ ∀ s ∈ sequencesIn length (iteration t).src, ParametersFit 0 10 s :=
        ih (drained_iteration hd) (by omega) (by omega)
      rw [loopStores, if_neg (by simp [hEof]), forall_mem_append, hRest, iterationStores_cons hSrc hEof,
        src_iteration_cons hSrc hEof, sequencesIn]
      by_cases hByte : c = 27
      · by_cases hb : rest.head? = some 91
        · simp only [hByte, hb, and_self, if_true, forall_mem_cons]
          rw [scan_inside_iff (Nat.zero_le 8) (Nat.zero_le 10)]
        · simp [hByte, hb]
      · simp [hByte]

/-- A control sequence is parsed inside its two arrays exactly if the text of the stream
has, in each of its control sequences, at most ten parameters of at most seven letters. -/
theorem parameters_inside_iff (e : Emulator) (src : Bytes) :
    (∀ store ∈ ansiCopyStores (fresh (ansiInit e) src), store.Inside) ↔
      ∀ s ∈ controlSequences src, ParametersFit 0 10 s :=
  loopStores_inside_iff (fun hEof => nomatch hEof) (Nat.lt_succ_self _) (Nat.le_refl _)

/-- Eight digits in one parameter: the terminator is stored behind `vt100`. -/
theorem long_parameter_overruns :
    ¬ ∀ store ∈ ansiCopyStores (fresh (ansiInit Emulator.start) (text "\x1b[12345678H")), store.Inside := by
  decide +kernel

end Terminal
end Channel
