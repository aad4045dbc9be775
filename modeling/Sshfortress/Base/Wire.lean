import Sshfortress.Base.Bytes

/-! Big-endian integers and length-prefixed strings over byte queues. A getter
takes its bytes from the front of the queue or fails and leaves it alone; a
putter gives the bytes to append. -/
namespace Base.Wire
open List
open Option (bind_eq_some_iff map_eq_some_iff)

abbrev Getter (α : Type) := Bytes → Option (α × Bytes)

def sizeMax : Nat := 0x8000000

def value : Bytes → Nat
  | [] => 0
  | byte :: rest => byte.toNat * 256 ^ rest.length + value rest

def digits : Nat → Nat → Bytes
  | 0, _ => []
  | width + 1, n => UInt8.ofNat (n / 256 ^ width) :: digits width (n % 256 ^ width)

lemma digits_length (width n : Nat) : (digits width n).length = width := by
  induction width generalizing n with
  | zero => rfl
  | succ width ih => simp [digits, ih]

variable {α β : Type} {rest queue s : Bytes} {width n : Nat} {first : Getter α} {second : α → Getter β}

lemma value_digits (h : n < 256 ^ width) : value (digits width n) = n := by
  induction width generalizing n with
  | zero => simp at h; simp [digits, value, h]
  | succ width ih =>
    have hPos : 0 < 256 ^ width := Nat.pow_pos (by decide)
    have hTop : n / 256 ^ width < 256 := by
      rw [Nat.div_lt_iff_lt_mul hPos]
      rwa [Nat.pow_succ, Nat.mul_comm] at h
    have hr : n % 256 ^ width < 256 ^ width := Nat.mod_lt _ hPos
    simp only [digits, value, digits_length, ih hr]
    rw [show (UInt8.ofNat (n / 256 ^ width)).toNat = n / 256 ^ width by
      simpa using Nat.mod_eq_of_lt hTop]
    exact Nat.div_add_mod' n _

lemma value_lt (bytes : Bytes) : value bytes < 256 ^ bytes.length := by
  induction bytes with
  | nil => simp [value]
  | cons byte rest ih =>
    have hb := byte.toNat_lt
    have hTop : byte.toNat * 256 ^ rest.length + 256 ^ rest.length ≤ 256 * 256 ^ rest.length := by
      rw [← Nat.succ_mul]
      exact Nat.mul_le_mul_right _ hb
    rw [value, length_cons, Nat.pow_succ, Nat.mul_comm _ 256]
    omega

lemma digits_value (bytes : Bytes) : digits bytes.length (value bytes) = bytes := by
  induction bytes with
  | nil => rfl
  | cons byte rest ih =>
    have hr := value_lt rest
    have hPos : 0 < 256 ^ rest.length := Nat.pow_pos (by decide)
    have hDiv : (byte.toNat * 256 ^ rest.length + value rest) / 256 ^ rest.length = byte.toNat := by
      rw [Nat.mul_comm, Nat.mul_add_div hPos, Nat.div_eq_of_lt hr, Nat.add_zero]
    have hMod : (byte.toNat * 256 ^ rest.length + value rest) % 256 ^ rest.length = value rest := by
      rw [Nat.mul_comm, Nat.mul_add_mod, Nat.mod_eq_of_lt hr]
    rw [value, length_cons, digits, hDiv, hMod, ih, UInt8.ofNat_toNat]

def getFixed (width : Nat) : Getter Bytes := fun queue =>
  if queue.length < width then none else some (queue.take width, queue.drop width)

def getU8 : Getter UInt8
  | [] => none
  | byte :: rest => some (byte, rest)

def getInt (width : Nat) : Getter Nat := fun queue =>
  (getFixed width queue).map fun (front, rest) => (value front, rest)

def getU32 : Getter Nat := getInt 4

def getU64 : Getter Nat := getInt 8

/-- A string may not claim more than the queue holds. -/
def getString : Getter Bytes := fun queue =>
  match getU32 queue with
  | none => none
  | some (len, rest) => if sizeMax - 4 < len then none else getFixed len rest

/-- A string in which NUL stands at most at the very end. The caller receives
it as a C string. -/
def getCstring : Getter Bytes := fun queue =>
  match getString queue with
  | none => none
  | some (s, rest) => if 0 ∈ s.dropLast then none else some (cstr s, rest)

def skipString : Getter Unit := fun queue => (getString queue).map fun (_, rest) => ((), rest)

/-- A nonnegative integer of at most 2048 bytes, without leading zeros. One zero may stand
in front of a leading byte with the high bit. -/
def getBignum2Bytes : Getter Bytes := fun queue =>
  match getString queue with
  | none => none
  | some (s, rest) =>
    if s.head?.any (128 ≤ ·) then none
    else if 2049 < s.length || (s.length = 2049 && s.head? ≠ some 0) then none
    else some (s.dropWhile (· = 0), rest)

def putU32 (n : Nat) : Bytes := digits 4 n

def putU64 (n : Nat) : Bytes := digits 8 n

def putString (s : Bytes) : Bytes := putU32 s.length ++ s

def putBignum2Bytes (s : Bytes) : Bytes :=
  let s := s.dropWhile (· = 0)
  putString (if s.head?.any (128 ≤ ·) then 0 :: s else s)

lemma take_putString (s rest : Bytes) : (putString s ++ rest).take 4 = putU32 s.length := by
  exact take_left' (digits_length 4 _)

lemma drop_putString (s rest : Bytes) : (putString s ++ rest).drop 4 = s ++ rest := by
  exact drop_left' (digits_length 4 _)

lemma length_putString (s : Bytes) : (putString s).length = 4 + s.length := by
  rw [putString, length_append]
  exact congrArg (· + s.length) (digits_length 4 _)

lemma putString_append_drop (h : value (queue.take 4) + 4 ≤ queue.length) :
    putString ((queue.drop 4).take (value (queue.take 4))) ++ queue.drop (4 + value (queue.take 4)) = queue := by
  have hb : ((queue.drop 4).take (value (queue.take 4))).length = value (queue.take 4) := by
    rw [length_take, length_drop]
    omega
  have hd := digits_value (queue.take 4)
  rw [length_take, Nat.min_eq_left (by omega)] at hd
  rw [putString, hb, putU32, hd, append_assoc, ← drop_drop, take_append_drop, take_append_drop]

lemma getFixed_append {front : Bytes} (h : front.length = width) :
    getFixed width (front ++ rest) = some (front, rest) := by
  subst h
  simp [getFixed]

lemma getFixed_eq_some {front : Bytes} (h : getFixed width queue = some (front, rest)) :
    queue = front ++ rest ∧ front.length = width := by
  unfold getFixed at h
  split at h
  · cases h
  · cases h
    exact ⟨(take_append_drop _ _).symm, by simp; omega⟩

lemma getInt_digits (h : n < 256 ^ width) (rest : Bytes) :
    getInt width (digits width n ++ rest) = some (n, rest) := by
  simp [getInt, getFixed_append (digits_length width n), value_digits h]

lemma getInt_eq_some (h : getInt width queue = some (n, rest)) :
    ∃ front, queue = front ++ rest ∧ front.length = width ∧ value front = n := by
  obtain ⟨⟨front, tail⟩, hf, hp⟩ := map_eq_some_iff.1 h
  cases hp
  obtain ⟨hq, hLen⟩ := getFixed_eq_some hf
  exact ⟨front, hq, hLen, rfl⟩

lemma getString_putString (h : s.length ≤ sizeMax - 4) (rest : Bytes) :
    getString (putString s ++ rest) = some (s, rest) := by
  have hLen : s.length < 256 ^ 4 := by
    have : sizeMax - 4 < 256 ^ 4 := by decide
    omega
  have hU32 : getU32 (putString s ++ rest) = some (s.length, s ++ rest) := by
    exact getInt_digits hLen (s ++ rest)
  unfold getString
  rw [hU32]
  simp only [show ¬ sizeMax - 4 < s.length by omega, if_false]
  exact getFixed_append rfl

lemma getString_eq_some (h : getString queue = some (s, rest)) :
    ∃ len, queue = len ++ s ++ rest ∧ len.length = 4 ∧ value len = s.length ∧ s.length ≤ sizeMax - 4 := by
  unfold getString at h
  cases hU32 : getU32 queue with
  | none => simp [hU32] at h
  | some pair =>
    obtain ⟨n, tail⟩ := pair
    simp only [hU32] at h
    split at h
    · cases h
    · obtain ⟨front, hq, hf, hValue⟩ := getInt_eq_some hU32
      obtain ⟨ht, hs⟩ := getFixed_eq_some h
      refine ⟨front, ?_, hf, by omega, by omega⟩
      rw [hq, ht, append_assoc]

lemma getString_length (h : getString queue = some (s, rest)) :
    rest.length + 4 + s.length = queue.length := by
  obtain ⟨len, hq, hLen, _, _⟩ := getString_eq_some h
  rw [hq, length_append, length_append, hLen]
  omega

lemma putBignum2Bytes_eq (h : s.head? ≠ some 0) :
    putBignum2Bytes s = putString (if s.head?.any (128 ≤ ·) then 0 :: s else s) := by
  have hw : s.dropWhile (· = 0) = s := by
    cases s with
    | nil => rfl
    | cons byte rest =>
      have hb : byte ≠ 0 := fun hz => h (congrArg some hz)
      simp [hb]
  rw [putBignum2Bytes, hw]

lemma getBignum2Bytes_eq (hStr : getString queue = some (s, rest)) (hPos : s.head?.any (128 ≤ ·) = false) :
    getBignum2Bytes queue =
      if 2049 < s.length ∨ (s.length = 2049 ∧ s.head? ≠ some 0) then none else some (s.dropWhile (· = 0), rest) := by
  rw [getBignum2Bytes, hStr]
  dsimp only
  rw [hPos]
  simp

lemma getBignum2Bytes_putBignum2Bytes (h : s.head? ≠ some 0) (hf : s.length + 1 ≤ sizeMax - 4)
    (rest : Bytes) :
    getBignum2Bytes (putBignum2Bytes s ++ rest) = if s.length ≤ 2048 then some (s, rest) else none := by
  have ht : s.dropWhile (· = 0) = s := by
    cases s with
    | nil => rfl
    | cons byte tail => simpa using fun hz => h (congrArg some hz)
  rw [putBignum2Bytes_eq h]
  by_cases hh : s.head?.any (128 ≤ ·) = true
  · -- The zero in front is not counted.
    have hl : (0 :: s).length = s.length + 1 := rfl
    have hStr := getString_putString (hl ▸ hf) rest
    rw [if_pos hh, getBignum2Bytes_eq hStr rfl, dropWhile_cons_of_pos rfl, ht]
    by_cases hs : s.length ≤ 2048
    · rw [if_pos hs, if_neg]
      rintro (hLong | ⟨-, ho⟩)
      · omega
      · exact ho rfl
    · rw [if_neg hs, if_pos (.inl (by omega))]
  · rw [if_neg hh, getBignum2Bytes_eq (getString_putString (by omega) rest) (Bool.eq_false_iff.2 hh), ht]
    by_cases hs : s.length ≤ 2048
    · rw [if_pos hs, if_neg (by omega)]
    · rw [if_neg hs, if_pos]
      by_cases he : s.length = 2049
      · exact .inr ⟨he, h⟩
      · exact .inl (by omega)

/-- A getter takes bytes off the front, and once it has what it needs it does not look at
what follows. -/
structure Local {α : Type} (getter : Getter α) : Prop where
  suffix : ∀ {queue v rest}, getter queue = some (v, rest) → rest <:+ queue
  append : ∀ {queue v rest} (later : Bytes), getter queue = some (v, rest) →
    getter (queue ++ later) = some (v, rest ++ later)

lemma local_getFixed (width : Nat) : Local (getFixed width) where
  suffix h := by
    obtain ⟨rfl, -⟩ := getFixed_eq_some h
    exact suffix_append ..
  append later h := by
    obtain ⟨rfl, hLen⟩ := getFixed_eq_some h
    rw [append_assoc]
    exact getFixed_append hLen

lemma Local.pure (a : α) : Local fun queue => some (a, queue) where
  suffix h := by
    cases h
    exact suffix_refl _
  append later h := by
    cases h
    rfl

lemma Local.none : Local fun _ : Bytes => (none : Option (α × Bytes)) where
  suffix h := by cases h
  append later h := by cases h

lemma Local.bind (hf : Local first) (hSnd : ∀ a, Local (second a)) : Local fun queue => do
      let (a, queue) ← first queue
      second a queue where
  suffix h := by
    obtain ⟨⟨a, tail⟩, ht, hr⟩ := bind_eq_some_iff.1 h
    exact ((hSnd a).suffix hr).trans (hf.suffix ht)
  append later h := by
    obtain ⟨⟨a, tail⟩, ht, hr⟩ := bind_eq_some_iff.1 h
    rw [hf.append later ht]
    exact (hSnd a).append later hr

lemma Local.ite {second : Getter α} {condition : Prop} [Decidable condition]
    (hf : Local first) (hSnd : Local second) :
    Local fun queue => if condition then first queue else second queue := by
  by_cases h : condition
  · simpa [h] using hf
  · simpa [h] using hSnd

lemma local_getU8 : Local getU8 where
  suffix {queue v rest} h := by
    cases queue with
    | nil => cases h
    | cons byte tail =>
      cases h
      exact suffix_cons ..
  append {queue v rest} later h := by
    cases queue with
    | nil => cases h
    | cons byte tail =>
      cases h
      rfl

lemma local_getInt (width : Nat) : Local (getInt width) := by
  have hInt : getInt width = (fun queue => do
    let (front, queue) ← getFixed width queue
    some (value front, queue)) := by
    funext queue
    rw [getInt, Option.map_eq_bind]
    rfl
  rw [hInt]
  exact .bind (local_getFixed width) fun front => .pure (value front)

lemma local_getString : Local getString := by
  have hStr : getString = (fun queue => (getU32 queue).bind fun p =>
    if sizeMax - 4 < p.1 then none else getFixed p.1 p.2) := by
    funext queue
    rw [getString]
    cases getU32 queue <;> rfl
  rw [hStr]
  have hChecked : ∀ len, Local fun queue => if sizeMax - 4 < len then none else getFixed len queue :=
    fun len => .ite .none (local_getFixed len)
  exact .bind (local_getInt 4) hChecked

lemma local_getCstring : Local getCstring := by
  have hc : getCstring = (fun queue => do
    let (s, queue) ← getString queue
    if 0 ∈ s.dropLast then none else some (cstr s, queue)) := by
    funext queue
    rw [getCstring]
    cases getString queue <;> rfl
  rw [hc]
  have hChecked : ∀ s : Bytes, Local fun queue => if 0 ∈ s.dropLast then none else some (cstr s, queue) :=
    fun s => .ite .none (.pure (cstr s))
  exact .bind local_getString hChecked

/-! Getters one after the other. -/

def andThen {α β : Type} (first : Getter α) (second : α → Getter β) : Getter β := fun queue =>
  match first queue with
  | none => none
  | some (a, rest) => second a rest

def give {α : Type} (a : α) : Getter α := fun queue => some (a, queue)

def reject {α : Type} : Getter α := fun _ => none

lemma Local.give (a : α) : Local (give a) := .pure a

lemma Local.reject : Local (reject : Getter α) := .none

protected lemma Local.andThen (hf : Local first) (hSnd : ∀ a, Local (second a)) :
    Local (andThen first second) where
  suffix {queue v rest} h := by
    rw [andThen] at h
    split at h
    · cases h
    · next a tail ht => exact ((hSnd a).suffix h).trans (hf.suffix ht)
  append {queue v rest} later h := by
    rw [andThen] at h ⊢
    split at h
    · cases h
    · next a tail ht =>
      rw [hf.append later ht]
      exact (hSnd a).append later h

lemma andThen_eq_some {b : β} : andThen first second queue = some (b, rest) ↔
    ∃ a tail, first queue = some (a, tail) ∧ second a tail = some (b, rest) := by
  rw [andThen]
  cases first queue with
  | none => simp
  | some pair =>
    constructor
    · exact fun h => ⟨pair.1, pair.2, rfl, h⟩
    · rintro ⟨_, _, hp, h⟩
      cases hp
      exact h

lemma andThen_eq_none : andThen first second queue = none ↔
    ∀ a tail, first queue = some (a, tail) → second a tail = none := by
  rw [andThen]
  cases first queue with
  | none => simp
  | some pair =>
    obtain ⟨a, tail⟩ := pair
    constructor
    · rintro h _ _ hp
      cases hp
      exact h
    · exact fun h => h a tail rfl

/-! Reading a queue to its end. -/

section Drain

variable {σ : Type} {step : σ → Getter σ}

def drainFrom (step : σ → Getter σ) : Nat → σ → Bytes → Option σ
  | _, s, [] => some s
  | 0, _, _ :: _ => none
  | fuel + 1, s, byte :: rest =>
    match step s (byte :: rest) with
    | none => none
    | some (s, rest) => drainFrom step fuel s rest

/-- Take steps until the queue is empty. The fuel is enough for steps that take a byte:
see `drain_of_ne_nil`. -/
def drain (step : σ → Getter σ) (s : σ) (queue : Bytes) : Option σ := drainFrom step queue.length s queue

def Shortens (step : σ → Getter σ) : Prop :=
  ∀ {s queue next rest}, step s queue = some (next, rest) → rest.length < queue.length

lemma drainFrom_nil (fuel : Nat) (s : σ) : drainFrom step fuel s [] = some s := by
  cases fuel with
  | zero => rfl
  | succ fuel => rfl

variable {queue : Bytes}

lemma drainFrom_enough (hs : Shortens step) {fuel other : Nat} (hf : queue.length ≤ fuel)
    (ho : queue.length ≤ other) (s : σ) : drainFrom step fuel s queue = drainFrom step other s queue := by
  induction fuel generalizing other s queue with
  | zero =>
    cases queue with
    | nil => rw [drainFrom_nil, drainFrom_nil]
    | cons byte rest => cases hf
  | succ fuel ih =>
    cases queue with
    | nil => rw [drainFrom_nil, drainFrom_nil]
    | cons byte rest =>
      cases other with
      | zero => cases ho
      | succ other =>
        rw [drainFrom, drainFrom]
        cases ht : step s (byte :: rest) with
        | none => rfl
        | some pair =>
          have hShort := hs ht
          exact ih (by simp only [length_cons] at *; omega) (by simp only [length_cons] at *; omega) pair.1

@[simp] lemma drain_nil (s : σ) : drain step s [] = some s := rfl

lemma drain_of_ne_nil (hStep : Shortens step) (h : queue ≠ []) (s : σ) :
    drain step s queue = (step s queue).bind fun (next, rest) => drain step next rest := by
  cases queue with
  | nil => exact absurd rfl h
  | cons byte rest =>
    rw [drain, length_cons, drainFrom]
    cases ht : step s (byte :: rest) with
    | none => rfl
    | some pair =>
      have hs := hStep ht
      exact drainFrom_enough hStep (Nat.lt_succ_iff.1 hs) (Nat.le_refl _) pair.1

lemma drain_eq_some (hs : Shortens step) (h : queue ≠ []) {s last : σ} : drain step s queue = some last ↔
    ∃ next rest, step s queue = some (next, rest) ∧ drain step next rest = some last := by
  rw [drain_of_ne_nil hs h, bind_eq_some_iff, Prod.exists]

/-- The induction rule for a queue that is read to its end. -/
lemma drain_induction (hs : Shortens step) {motive : σ → Bytes → σ → Prop} (hEnd : ∀ s, motive s [] s)
    (hn : ∀ s queue next rest last, step s queue = some (next, rest) → motive next rest last →
      motive s queue last) {s last : σ} (h : drain step s queue = some last) : motive s queue last := by
  induction hLen : queue.length using Nat.strong_induction_on generalizing s queue with
  | _ length ih =>
    by_cases he : queue = []
    · subst he
      cases h
      exact hEnd _
    · obtain ⟨next, rest, ht, hr⟩ := (drain_eq_some hs he).1 h
      exact hn s queue next rest last ht (ih rest.length (hLen ▸ hs ht) hr rfl)

variable {α : Type} {item : Getter α}

def Consumes (item : Getter α) : Prop :=
  ∀ {queue a rest}, item queue = some (a, rest) → rest.length < queue.length

def collect (item : Getter α) (past : List α) : Getter (List α) := fun queue =>
  (item queue).map fun (a, rest) => (past ++ [a], rest)

def items (item : Getter α) (queue : Bytes) : Option (List α) := drain (collect item) [] queue

lemma shortens_collect (hi : Consumes item) : Shortens (collect item) := by
  intro past queue next rest h
  obtain ⟨⟨a, tail⟩, ht, hp⟩ := map_eq_some_iff.1 h
  cases hp
  exact hi ht

@[simp] lemma items_nil : items item [] = some [] := rfl

section
variable (hi : Consumes item)
include hi

lemma drain_collect (past : List α) (queue : Bytes) :
    drain (collect item) past queue = (items item queue).map (past ++ ·) := by
  unfold items
  induction hLen : queue.length using Nat.strong_induction_on generalizing past queue with
  | _ length ih =>
    by_cases he : queue = []
    · subst he
      simp
    · rw [drain_of_ne_nil (shortens_collect hi) he, drain_of_ne_nil (shortens_collect hi) he,
        collect, collect]
      cases ht : item queue with
      | none => rfl
      | some pair =>
        have hs : pair.2.length < length := hLen ▸ hi ht
        show drain (collect item) (past ++ [pair.1]) pair.2 =
          (drain (collect item) ([] ++ [pair.1]) pair.2).map (past ++ ·)
        rw [ih _ hs (past ++ [pair.1]) pair.2 rfl, ih _ hs ([] ++ [pair.1]) pair.2 rfl, Option.map_map]
        simp only [Function.comp_def, append_assoc, nil_append]

lemma items_of_ne_nil (h : queue ≠ []) :
    items item queue = (item queue).bind fun (a, rest) => (items item rest).map (a :: ·) := by
  rw [items, drain_of_ne_nil (shortens_collect hi) h, collect]
  cases item queue with
  | none => rfl
  | some pair => exact drain_collect hi [pair.1] pair.2

lemma items_eq_nil : items item queue = some [] ↔ queue = [] := by
  constructor
  · intro h
    by_contra hs
    rw [items_of_ne_nil hi hs] at h
    obtain ⟨_, _, hr⟩ := bind_eq_some_iff.1 h
    obtain ⟨_, _, hc⟩ := map_eq_some_iff.1 hr
    cases hc
  · rintro rfl
    rfl

lemma items_eq_cons {a : α} {all : List α} :
    items item queue = some (a :: all) ↔ ∃ rest, item queue = some (a, rest) ∧ items item rest = some all := by
  constructor
  · intro h
    have hs : queue ≠ [] := by
      rintro rfl
      cases h
    rw [items_of_ne_nil hi hs] at h
    obtain ⟨⟨_, rest⟩, ht, hr⟩ := bind_eq_some_iff.1 h
    obtain ⟨_, hAll, hc⟩ := map_eq_some_iff.1 hr
    cases hc
    exact ⟨rest, ht, hAll⟩
  · rintro ⟨rest, ht, hAll⟩
    have hs : queue ≠ [] := by
      rintro rfl
      exact absurd (hi ht) (Nat.not_lt_zero _)
    rw [items_of_ne_nil hi hs, ht]
    simp [hAll]

lemma items_flatMap {frame : α → Bytes} {all : List α}
    (h : ∀ a ∈ all, ∀ rest, item (frame a ++ rest) = some (a, rest)) : items item (all.flatMap frame) = some all := by
  induction all with
  | nil => rfl
  | cons a all ih =>
    rw [flatMap_cons, items_eq_cons hi]
    exact ⟨_, h a mem_cons_self _, ih fun b hb => h b (.tail _ hb)⟩

/-- Reading items and using each at once is reading all of them and using them in order. -/
lemma drain_eq_items {use : σ → α → Option σ}
    (hs : ∀ s queue, step s queue = (item queue).bind fun (a, rest) => (use s a).map (·, rest))
    (s : σ) (queue : Bytes) : drain step s queue = (items item queue).bind fun all => all.foldlM use s := by
  have hShortens : Shortens step := by
    intro s queue next rest h
    rw [hs] at h
    obtain ⟨⟨a, tail⟩, ht, hu⟩ := bind_eq_some_iff.1 h
    obtain ⟨_, _, hp⟩ := map_eq_some_iff.1 hu
    cases hp
    exact hi ht
  induction hLen : queue.length using Nat.strong_induction_on generalizing s queue with
  | _ length ih =>
    by_cases he : queue = []
    · subst he
      rfl
    · rw [drain_of_ne_nil hShortens he, items_of_ne_nil hi he, hs]
      cases ht : item queue with
      | none => rfl
      | some pair =>
        have hShort : pair.2.length < length := hLen ▸ hi ht
        show ((use s pair.1).map (·, pair.2)).bind _ = ((items item pair.2).map (pair.1 :: ·)).bind _
        cases hu : use s pair.1 with
        | none =>
          cases items item pair.2 with
          | none => rfl
          | some all => simp [hu]
        | some next =>
          show drain step next pair.2 = _
          rw [ih _ hShort next pair.2 rfl]
          cases items item pair.2 with
          | none => rfl
          | some all => simp [hu]

end

end Drain

end Base.Wire
