import Sshfortress.Base.Bytes

/-! Calls that are repeated until all bytes have gone. The loop is the same for one buffer and
for several segments, which differ in how they move on. It ends at an empty segment, and only
those that a call has reached are skipped. -/
namespace Atomicio
open Base List

/-- What a call comes to: bytes go, and the callback may refuse; the call is to be repeated;
the end of the file; an error. -/
inductive Result where
  | moved (count : Nat) (refused : Bool)
  | again
  | eof
  | error

def Result.count : Result → Nat
  | .moved count _ => count
  | _ => 0

inductive Reason where
  | done
  | refused
  | eof
  | error

/-- What the calls were given, and why the loop was left with which value. The loop waits when
the results are used up. -/
structure Transfer where
  given : List Bytes
  left : Option (Reason × Nat)

/-- What is left of a buffer, when the loop ends, and how it moves on. -/
structure Buffer (σ : Type) where
  bytes : σ → Bytes
  empty : σ → Bool
  advance : Nat → σ → Option σ

def Buffer.loop {σ : Type} (b : Buffer σ) (pos : Nat) (s : σ) : List Result → Transfer
  | [] => ⟨[], if b.empty s then some (.done, pos) else none⟩
  | r :: rs =>
    if b.empty s then ⟨[], some (.done, pos)⟩
    else
      let t : Transfer :=
        match r with
        | .again => b.loop pos s rs
        | .eof => ⟨[], some (.eof, pos)⟩
        | .error => ⟨[], some (.error, 0)⟩
        | .moved count refused =>
          match b.advance count s with
          | none => ⟨[], some (.error, 0)⟩
          | some next => if refused then ⟨[], some (.refused, pos + count)⟩ else b.loop (pos + count) next rs
      ⟨b.bytes s :: t.given, t.left⟩

def single : Buffer Bytes := ⟨id, isEmpty, fun count s => some (s.drop count)⟩

def atomicio6 (data : Bytes) (rs : List Result) : Transfer := single.loop 0 data rs

/-- The segments after a call. There is none for bytes that were not asked for. -/
def skip : Nat → List Bytes → Option (List Bytes)
  | rem, [] => if 0 < rem then none else some []
  | rem, seg :: rest => if seg.length ≤ rem then skip (rem - seg.length) rest else some (seg.drop rem :: rest)

def segments : Buffer (List Bytes) := ⟨flatten, fun iov => (iov.headD []).isEmpty, skip⟩

def iovMax : Nat := 1024

def atomiciov6 (iov : List Bytes) (rs : List Result) : Transfer :=
  if iovMax < iov.length then ⟨[], some (.error, 0)⟩ else segments.loop 0 iov rs

/-- How many bytes have gone. -/
def gone (rs : List Result) : Nat := (rs.map Result.count).sum

/-- No call moves more than it was given. -/
def Fits : Nat → List Result → Prop
  | _, [] => True
  | left, r :: rs => r.count ≤ left ∧ Fits (left - r.count) rs

/-- Each call is given what has not gone. The value is that of all bytes exactly when all have
gone, and at the end of the file it is that of those that have gone; without a reason the loop
does not end early. -/
structure Moves (pos : Nat) (data : Bytes) (rs : List Result) (t : Transfer) : Prop where
  given : ∀ i bytes, t.given[i]? = some bytes → bytes = data.drop (gone (rs.take i))
  whole : ∀ why n, t.left = some (why, n) →
    (n = pos + data.length ↔ gone (rs.take t.given.length) = data.length)
  eof : ∀ n, t.left = some (.eof, n) → n = pos + gone (rs.take t.given.length)
  early : ∀ n, t.left = some (.done, n) → gone (rs.take t.given.length) = data.length
  waits : t.left = none → t.given.length = rs.length

variable {σ : Type} {b : Buffer σ} {s : σ} {pos : Nat} {data : Bytes} {r : Result} {rs : List Result}
  {t : Transfer} {iov : List Bytes}

lemma Moves.cons (hc : r.count ≤ data.length) (h : Moves (pos + r.count) (data.drop r.count) rs t) :
    Moves pos data (r :: rs) ⟨data :: t.given, t.left⟩ := by
  obtain ⟨hGiven, hw, hEof, he, hWaits⟩ := h
  rw [length_drop] at hw he
  have hg : ∀ l, gone (r :: l) = r.count + gone l := fun l => by simp [gone]
  refine ⟨?_, fun why n hl => ?_, fun n hl => ?_, fun n hl => ?_, fun hl => ?_⟩
  · rintro (_ | i) bytes hb
    · simpa [gone] using hb.symm
    · rw [take_succ_cons, hg, ← drop_drop]
      exact hGiven i bytes hb
  · have hSame := hw why n hl
    rw [length_cons, take_succ_cons, hg]
    omega
  · rw [length_cons, take_succ_cons, hg, hEof n hl, Nat.add_assoc]
  · have hAll := he n hl
    rw [length_cons, take_succ_cons, hg]
    omega
  · rw [length_cons, length_cons, hWaits hl]

lemma Buffer.loop_moves {P : σ → Prop} (ho : ∀ s, P s → (b.empty s = true ↔ b.bytes s = []))
    (hn : ∀ s count, P s → count ≤ (b.bytes s).length →
      ∃ next, b.advance count s = some next ∧ P next ∧ b.bytes next = (b.bytes s).drop count)
    (hs : P s) (hf : Fits (b.bytes s).length rs) : Moves pos (b.bytes s) rs (b.loop pos s rs) := by
  induction rs generalizing pos s with
  | nil =>
    rw [Buffer.loop]
    by_cases hOver : b.empty s = true
    · have hNil := (ho s hs).1 hOver
      constructor <;> simp_all [gone]
    · constructor <;> simp_all
  | cons r rs ih =>
    unfold Buffer.loop
    split_ifs with hOver
    · have hNil := (ho s hs).1 hOver
      constructor <;> simp_all [gone]
    · obtain ⟨hc, hRest⟩ := hf
      apply Moves.cons hc
      cases r with
      | again => exact ih hs hRest
      | eof => constructor <;> simp [Result.count, gone, eq_comm]
      | error => constructor <;> grind [Result.count, gone]
      | moved count refused =>
        obtain ⟨next, hNext, hr, hb⟩ := hn s count hs hc
        simp only [Result.count, hNext]
        split_ifs
        · constructor <;> simp [gone, eq_comm]
        · rw [← hb]
          exact ih hr (by simpa [hb, Result.count] using hRest)

lemma skip_flatten (iov : List Bytes) (count : Nat) (h : count ≤ iov.flatten.length) :
    ∃ next, skip count iov = some next ∧ next.head? ≠ some [] ∧ next.flatten = iov.flatten.drop count := by
  induction iov generalizing count with
  | nil => exact ⟨[], by simp_all [skip]⟩
  | cons seg rest ih =>
    rw [flatten_cons, length_append] at h
    rw [skip, flatten_cons, drop_append]
    split_ifs with hLe
    · rw [drop_eq_nil_of_le hLe, nil_append]
      exact ih _ (by omega)
    · refine ⟨_, rfl, ?_, ?_⟩
      · simp
        omega
      · rw [flatten_cons, Nat.sub_eq_zero_of_le (by omega), drop_zero]

/-- One buffer is always moved as a whole. Segments are exactly when the first one is not empty,
or there are no bytes at all. -/
theorem transfers_whole_iff {iov : List Bytes} {rs : List Result} (hMax : iov.length ≤ iovMax)
    (hf : Fits iov.flatten.length rs) :
    Moves 0 iov.flatten rs (atomicio6 iov.flatten rs) ∧
      (Moves 0 iov.flatten rs (atomiciov6 iov rs) ↔ iov.flatten = [] ∨ iov.head? ≠ some []) := by
  constructor
  · exact Buffer.loop_moves (b := single) (P := fun _ => True) (by simp [single]) (by simp [single]) trivial hf
  · rw [atomiciov6, if_neg (by omega)]
    by_cases hFirst : iov.head? = some []
    · have ho : segments.loop 0 iov rs = ⟨[], some (.done, 0)⟩ := by
        cases rs <;> simp [Buffer.loop, segments, headD_eq_head?_getD, hFirst]
      rw [ho]
      constructor
      · intro h
        exact .inl (length_eq_zero_iff.1 (h.early 0 rfl).symm)
      · intro h
        rw [h.resolve_right (not_not.2 hFirst)]
        constructor <;> simp [gone]
    · refine iff_of_true (Buffer.loop_moves (b := segments) ?_ (fun iov count _ => skip_flatten iov count) hFirst hf)
        (.inr hFirst)
      intro iov hReady
      cases iov <;> simp_all [segments]

/-- The second segment is empty, and the first call ends in the third one. -/
theorem transfers_whole_skipping : Moves 0 [1, 2, 3] [.again, .moved 2 false, .moved 1 false]
    (atomiciov6 [[1], [], [2, 3]] [.again, .moved 2 false, .moved 1 false]) := by
  have hf : Fits 3 [.again, .moved 2 false, .moved 1 false] := by simp [Fits, Result.count]
  exact (@transfers_whole_iff [[1], [], [2, 3]] _ (by decide) hf).2.2 (.inr (by decide))

/-- Nothing is moved when the first segment is empty. -/
theorem transfers_nothing : ¬ Moves 0 [1] [.moved 1 false] (atomiciov6 [[], [1]] [.moved 1 false]) :=
  fun h => absurd (h.early 0 rfl) (by decide)

end Atomicio
