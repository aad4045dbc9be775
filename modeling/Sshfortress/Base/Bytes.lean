import Mathlib

/-! Byte strings and the C library's view of them. A C string is what stands
before the first NUL of the memory it is read from; formatted output is cut to
the size of its buffer. Nothing here knows who the bytes belong to. -/
namespace Base
open List

abbrev Bytes := List UInt8

instance : LawfulBEq Bytes := List.instLawfulBEq

def text (s : String) : Bytes := s.toByteArray.data.toList

/-- The C string that starts where `memory` starts. -/
def cstr (memory : Bytes) : Bytes := memory.takeWhile (· ≠ 0)

lemma zero_notMem_cstr (memory : Bytes) : 0 ∉ cstr memory := by
  intro hMem
  simpa using mem_takeWhile_imp hMem

variable {s needle formatted : Bytes} {size : Nat}

lemma cstr_append (h : 0 ∉ s) (rest : Bytes) : cstr (s ++ rest) = s ++ cstr rest := by
  apply takeWhile_append_of_pos
  intro c hc
  have ho : c ≠ 0 := fun hz => h (hz ▸ hc)
  simpa using ho

lemma cstr_eq_self (h : 0 ∉ s) : cstr s = s := by
  have hw := cstr_append h []
  rwa [append_nil, show cstr [] = [] from rfl, append_nil] at hw

lemma cstr_append_of_mem (h : 0 ∈ s) (rest : Bytes) : cstr (s ++ rest) = cstr s := by
  induction s with
  | nil => cases h
  | cons c s ih =>
    by_cases hz : c = 0
    · simp [cstr, hz]
    · have hl : 0 ∈ s := (mem_cons.1 h).resolve_left fun hEq => hz hEq.symm
      have hs : ∀ tail, cstr (c :: tail) = c :: cstr tail := by
        intro tail
        simp [cstr, hz]
      rw [cons_append, hs, hs, ih hl]

lemma cstr_prefix (memory : Bytes) : cstr memory <+: memory := takeWhile_prefix _

/-- `strstr`: the rest of `hay` from the first occurrence of `needle`. -/
def strstr (needle : Bytes) : Bytes → Option Bytes
  | [] => if needle.isPrefixOf [] then some [] else none
  | c :: rest => if needle.isPrefixOf (c :: rest) then some (c :: rest) else strstr needle rest

/-- Whether `strstr` finds the needle in the C string at `memory`. -/
def contains (memory needle : Bytes) : Bool := (strstr needle (cstr memory)).isSome

lemma strstr_isSome_iff {hay : Bytes} : (strstr needle hay).isSome = true ↔ needle <:+: hay := by
  induction hay with
  | nil =>
    rw [strstr]
    split_ifs with hp
    · have hNil := isPrefixOf_iff_prefix.1 hp
      simpa using hNil
    · have hNot := mt isPrefixOf_iff_prefix.2 hp
      simpa using hNot
  | cons c rest ih =>
    rw [strstr, infix_cons_iff, ← isPrefixOf_iff_prefix]
    split_ifs with hp
    · simp [hp]
    · simp [hp, ih]

lemma contains_iff {memory : Bytes} : contains memory needle = true ↔ needle <:+: cstr memory :=
  strstr_isSome_iff

/-- `strtok` with one delimiter, called on a fresh string. The token starts
after the leading delimiters and ends before the next one. -/
def strtok (delim : UInt8) (s : Bytes) : Option Bytes :=
  match s.dropWhile (· = delim) with
  | [] => none
  | c :: rest => some ((c :: rest).takeWhile (· ≠ delim))

/-- The memory of a string after `strtok`: the delimiter behind the token is
overwritten by NUL. A second call finds the same token and changes nothing. -/
def strtokCut (delim : UInt8) (s : Bytes) : Bytes :=
  let tail := s.dropWhile (· = delim)
  s.takeWhile (· = delim) ++ tail.takeWhile (· ≠ delim) ++
    match tail.dropWhile (· ≠ delim) with
    | [] => []
    | _ :: rest => 0 :: rest

/-- `snprintf` into a buffer of `size` bytes keeps one byte for the NUL. -/
def snprintf (size : Nat) (formatted : Bytes) : Bytes := formatted.take (size - 1)

lemma snprintf_eq_self (h : formatted.length < size) : snprintf size formatted = formatted :=
  take_of_length_le (by omega)

lemma prefix_snprintf {front : Bytes} (hp : front <+: formatted)
    (hFits : front.length < size) : front <+: snprintf size formatted := by
  obtain ⟨rest, rfl⟩ := hp
  unfold snprintf
  rw [take_append]
  have hAll : front.take (size - 1) = front := take_of_length_le (by omega)
  rw [hAll]
  exact prefix_append _ _

/-- `%lu` and `%d` of a nonnegative number. -/
def decimal (n : Nat) : Bytes := (Nat.toDigits 10 n).map fun c => UInt8.ofNat c.toNat

/-- `%d` and `%ld`. -/
def signedDecimal (n : Int) : Bytes :=
  if n < 0 then text "-" ++ decimal n.natAbs else decimal n.natAbs

/-- `%0*o` and `%0*ld`: digits in `base`, with zeros in front up to `width`. -/
def zeroPadded (base width : Nat) (n : Nat) : Bytes :=
  let digits := (Nat.toDigits base n).map fun c => UInt8.ofNat c.toNat
  List.replicate (width - digits.length) 48 ++ digits

end Base
