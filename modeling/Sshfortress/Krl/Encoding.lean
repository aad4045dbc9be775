import Sshfortress.Krl.Groups

/-! What `ssh_krl_to_blob` writes: the loops and buffers of the generator come down to one
sequence of bytes, and to the conditions under which it gets that far. -/
namespace Krl
open Base Base.Wire List

/-- The writer appends `out` if there is room, provided that `ok`, and fails otherwise. -/
def Emits (write : Bytes → Except Exit Bytes) (ok : Prop) (out : Bytes) : Prop :=
  ∀ buf, buf.length ≤ sizeMax → (ok → write buf = put out buf) ∧ (¬ok → write buf = .error .failed)

variable {p : Prop} {s : Bytes} {write : Bytes → Except Exit Bytes}

lemma put_eq_ok {buf out : Bytes} (h : put s buf = .ok out) : out = buf ++ s ∧ out.length ≤ sizeMax := by
  unfold put at h
  split_ifs at h with hLong
  cases h
  refine ⟨rfl, ?_⟩
  rw [length_append]
  omega

lemma put_put (a b buf : Bytes) : (put a buf).bind (put b) = put (a ++ b) buf := by
  unfold put
  by_cases hl : sizeMax < buf.length + a.length
  · have hLonger : sizeMax < buf.length + (a ++ b).length := by
      rw [length_append]
      omega
    rw [if_pos hl, if_pos hLonger]
    rfl
  · rw [if_neg hl]
    show (if sizeMax < (buf ++ a).length + b.length then _ else _) = _
    simp only [length_append, append_assoc, Nat.add_assoc]

variable {α : Type} {q : Prop} {a b : Bytes}

lemma put_bind_failed (s buf : Bytes) :
    ((put s buf).bind fun _ => (.error .failed : Except Exit α)) = .error .failed := by
  unfold put
  split_ifs
  · rfl
  · rfl

lemma emits_put (s : Bytes) : Emits (put s) True s :=
  fun _ _ => ⟨fun _ => rfl, fun h => absurd trivial h⟩

lemma emits_nothing : Emits Except.ok True [] := by
  intro buf hr
  refine ⟨fun _ => ?_, fun h => absurd trivial h⟩
  rw [put, if_neg (by simpa using hr), append_nil]

lemma Emits.andThen {first second : Bytes → Except Exit Bytes} (hFirst : Emits first p a)
    (hSnd : Emits second q b) : Emits (fun buf => (first buf).bind second) (p ∧ q) (a ++ b) := by
  intro buf hr
  obtain ⟨hWrite, hFail⟩ := hFirst buf hr
  by_cases hp : p
  · have ha : ∀ out, put a buf = .ok out → _ := fun out hOut => hSnd out (put_eq_ok hOut).2
    show (p ∧ q → (first buf).bind second = _) ∧ (_ → (first buf).bind second = _)
    rw [hWrite hp, ← put_put]
    cases hPut : put a buf with
    | error exit =>
      have hf : exit = .failed := by
        unfold put at hPut
        split_ifs at hPut
        cases hPut
        rfl
      rw [hf]
      exact ⟨fun _ => rfl, fun _ => rfl⟩
    | ok out =>
      obtain ⟨hw, hFail'⟩ := ha out hPut
      exact ⟨fun h => hw h.2, fun h => hFail' fun hq => h ⟨hp, hq⟩⟩
  · refine ⟨fun h => absurd h.1 hp, fun _ => ?_⟩
    show (first buf).bind second = _
    rw [hFail hp]
    rfl

lemma Emits.foldlM {use : Bytes → α → Except Exit Bytes} {p : α → Prop} {out : α → Bytes}
    {l : List α} (h : ∀ a ∈ l, Emits (use · a) (p a) (out a)) :
    Emits (fun buf => l.foldlM use buf) (∀ a ∈ l, p a) (l.flatMap out) := by
  induction l with
  | nil =>
    intro buf hr
    refine ⟨fun _ => (emits_nothing buf hr).1 trivial, fun hNot => absurd ?_ hNot⟩
    exact fun a ha => absurd ha not_mem_nil
  | cons a rest ih =>
    have hBoth := (h a mem_cons_self).andThen (ih fun b hb => h b (.tail _ hb))
    rw [← forall_mem_cons] at hBoth
    exact hBoth

lemma Emits.framed (h : Emits write p s) (type : UInt8) :
    Emits (fun buf => (write []).bind fun sect => (put [type] buf).bind (put (putString sect))) p
      (type :: putString s) := by
  intro buf hRoom
  obtain ⟨hw, hf⟩ := h [] (Nat.zero_le _)
  refine ⟨fun hp => ?_, fun hp => ?_⟩
  · show (write []).bind _ = put ([type] ++ putString s) buf
    rw [hw hp, put, nil_append, length_nil, Nat.zero_add]
    split_ifs with hLong
    · have hl : sizeMax < buf.length + ([type] ++ putString s).length := by
        rw [length_append, length_putString]
        omega
      show .error .failed = put ([type] ++ putString s) buf
      rw [put, if_pos hl]
    · exact put_put [type] (putString s) buf
  · show (write []).bind _ = _
    rw [hf hp]
    rfl

lemma Emits.ne_out (h : Emits write p s) (out : Bytes) : write [] ≠ .error (.out out) := by
  obtain ⟨hw, hf⟩ := h [] (Nat.zero_le _)
  by_cases hp : p
  · rw [hw hp, put]
    split_ifs
    · exact fun hOut => nomatch hOut
    · exact fun hOut => nomatch hOut
  · rw [hf hp]
    exact fun hOut => nomatch hOut

/-! The serials. -/

lemma foldlM_bitmapSetBit (l : List Nat) (bits : Nat) : ((∀ n ∈ l, n % 2 ^ 32 ≤ bitmapMax) →
    l.foldlM bitmapSetBit bits = .ok (l.foldl (fun bits n => bits ||| 1 <<< (n % 2 ^ 32)) bits)) ∧
    ((∃ n ∈ l, bitmapMax < n % 2 ^ 32) → l.foldlM bitmapSetBit bits = .error .failed) := by
  induction l generalizing bits with
  | nil => exact ⟨fun _ => rfl, fun ⟨n, hn, _⟩ => absurd hn not_mem_nil⟩
  | cons n l ih =>
    obtain ⟨hOk, hf⟩ := ih (bits ||| 1 <<< (n % 2 ^ 32))
    rw [foldlM_cons, foldl_cons]
    by_cases hh : bitmapMax < n % 2 ^ 32
    · rw [bitmapSetBit, if_pos hh]
      exact ⟨fun h => absurd (h n mem_cons_self) (Nat.not_le.2 hh), fun _ => rfl⟩
    · rw [bitmapSetBit, if_neg hh]
      refine ⟨fun h => hOk fun m hm => h m (.tail _ hm), ?_⟩
      rintro ⟨m, hm, hBig⟩
      rcases mem_cons.1 hm with rfl | hl
      · exact absurd hBig hh
      · exact hf ⟨m, hl, hBig⟩

namespace Generator

def offsets (start : Nat) (r : Range) : List Nat := ((List.range (contig r)).map (r.lo + ·)).map (· - start)

variable {w : Generator} {r : Range} {g : Group} {kind : SerialSection} {force : Bool}
  {next : Option Range} {rest : List Range} {start : Nat}

lemma mem_offsets {n : Nat} (hStart : start ≤ r.lo) : n ∈ offsets start r ↔ r.Covers (start + n) := by
  have hLe := r.le
  simp only [offsets, map_map, mem_map, mem_range, contig, Range.Covers, Function.comp_apply]
  constructor
  · rintro ⟨i, hi, rfl⟩
    omega
  · exact fun h => ⟨start + n - r.lo, by omega, by omega⟩

lemma foldlM_setBits (bits : Nat) (hs : start ≤ r.lo) (hSane : r.lo - start ≤ 2 ^ 31 - 1) :
    (r.hi - start ≤ bitmapMax →
      (List.range (contig r)).foldlM (fun bits i => bitmapSetBit bits (r.lo + i - start)) bits =
        .ok ((offsets start r).foldl (fun bits n => bits ||| 1 <<< n) bits)) ∧ (bitmapMax < r.hi - start →
      (List.range (contig r)).foldlM (fun bits i => bitmapSetBit bits (r.lo + i - start)) bits = .error .failed) := by
  have hMap : (List.range (contig r)).foldlM (fun bits i => bitmapSetBit bits (r.lo + i - start)) bits =
    (offsets start r).foldlM bitmapSetBit bits := by
    rw [offsets, map_map, foldlM_map]
    rfl
  obtain ⟨hOk, hf⟩ := foldlM_bitmapSetBit (offsets start r) bits
  have hMax : bitmapMax = 2 ^ 24 := rfl
  rw [hMap]
  refine ⟨fun hFits => ?_, fun hLong => hf ?_⟩
  · have hSmall : ∀ n ∈ offsets start r, n ≤ bitmapMax := by
      intro n hn
      have hUpper := ((mem_offsets hs).1 hn).2
      omega
    rw [hOk fun n hn => (Nat.mod_le ..).trans (hSmall n hn)]
    refine congrArg Except.ok (foldl_ext _ _ _ fun bits n hn => ?_)
    rw [Nat.mod_eq_of_lt]
    have hHere := hSmall n hn
    omega
  · -- The first offset beyond the limit, which has not wrapped around yet.
    refine ⟨max (bitmapMax + 1) (r.lo - start), (mem_offsets hs).2 ⟨by omega, ?_⟩, ?_⟩
    · have hLe := r.le
      omega
    · rw [Nat.mod_eq_of_lt (by omega)]
      omega

/-- The generator has the group open, with everything in the section that is known so far. -/
structure Holds (w : Generator) (g : Group) : Prop where
  state : w.state = some g.kind
  last : w.last = g.last.hi
  inMemory : g.InMemory
  sect : match g.kind with
    | .list => w.sect = g.serials.flatMap putU64
    | .range => w.sect = g.ranges.flatMap fun r => putU64 r.lo ++ putU64 r.hi
    | .bitmap => w.sect = putU64 g.first.lo ∧ w.bitmap = g.bitmap ∧ w.bitmapStart = g.first.lo

lemma Holds.finish (h : w.Holds g) :
    w.finish g.kind = (put g.frame w.buf).map fun buf => { w with buf, sect := [] } := by
  have hc : (if g.kind = .bitmap then w.sect ++ putBignum2Bytes (bitmapToString w.bitmap) else w.sect) =
    g.content := by
    have hs := h.sect
    unfold Group.content
    cases hk : g.kind with
    | list =>
      rw [hk] at hs
      simpa using hs
    | range =>
      rw [hk] at hs
      simpa using hs
    | bitmap =>
      rw [hk] at hs
      simp [hs]
  have hf : put g.frame w.buf = (put [g.kind.type] w.buf).bind (put (putString g.content)) := by
    rw [put_put]
    rfl
  rw [Generator.finish, hc, hf]
  cases put [g.kind.type] w.buf with
  | error exit => rfl
  | ok buf =>
    cases put (putString g.content) buf with
    | error exit => rfl
    | ok buf => rfl

lemma serials_add (g : Group) (r : Range) :
    (g.add r).serials = g.serials ++ (List.range (contig r)).map (r.lo + ·) := by
  simp [Group.serials]

lemma bitmap_add (g : Group) (r : Range) :
    (g.add r).bitmap = (offsets g.first.lo r).foldl (fun bits n => bits ||| 1 <<< n) g.bitmap := by
  rw [Group.bitmap, serials_add, map_append, foldl_append]
  rfl

lemma bitmap_single (kind : SerialSection) (r : Range) :
    (⟨kind, r, []⟩ : Group).bitmap = (offsets r.lo r).foldl (fun bits n => bits ||| 1 <<< n) 0 := by
  simp [Group.bitmap, Group.serials, Group.ranges, offsets]

lemma start_eq (ho : w.state ≠ some kind ∨ force = true ∨ (kind = .range ∧ w.sect = [])) (lo : Nat) :
    (w.start kind force lo).state = some kind ∧ (w.start kind force lo).buf = w.buf ∧
      (kind ≠ .bitmap → (w.start kind force lo).sect = []) ∧
      (kind = .bitmap → w.start kind force lo =
        { w with state := some kind, sect := putU64 lo, bitmap := 0, bitmapStart := lo }) := by
  rw [start]
  by_cases hs : w.state ≠ some kind ∨ force = true
  · rw [if_pos (by simpa using hs)]
    split_ifs with hb
    · exact ⟨rfl, rfl, fun h => absurd hb h, fun _ => rfl⟩
    · exact ⟨rfl, rfl, fun _ => rfl, fun h => absurd h hb⟩
  · rw [← or_assoc] at ho
    obtain ⟨hk, hSect⟩ := ho.resolve_left hs
    have hState : w.state = some kind := not_not.1 fun h => hs (.inl h)
    rw [if_neg (by simpa using hs)]
    exact ⟨hState, rfl, fun _ => hSect, fun h => by rw [hk] at h; cases h⟩

lemma process_list (h : w.state = some .list) (r : Range) :
    w.process r = .ok { w with sect := w.sect ++ (List.range (contig r)).flatMap fun i => putU64 (r.lo + i) } := by
  cases w
  cases h
  rfl

lemma process_range (h : w.state = some .range) (r : Range) :
    w.process r = .ok { w with sect := w.sect ++ putU64 r.lo ++ putU64 r.hi } := by
  cases w
  cases h
  rfl

lemma process_bitmap (h : w.state = some .bitmap) (hStart : w.bitmapStart ≤ r.lo)
    (hs : r.lo - w.bitmapStart ≤ 2 ^ 31 - 1) :
    (r.hi - w.bitmapStart ≤ bitmapMax → w.process r =
      .ok { w with bitmap := (offsets w.bitmapStart r).foldl (fun bits n => bits ||| 1 <<< n) w.bitmap }) ∧
      (bitmapMax < r.hi - w.bitmapStart → w.process r = .error .failed) := by
  obtain ⟨hOk, hf⟩ := foldlM_setBits w.bitmap hStart hs
  have hp : w.process r = ((List.range (contig r)).foldlM
    (fun bits i => bitmapSetBit bits (r.lo + i - w.bitmapStart)) w.bitmap).bind fun bitmap => .ok { w with bitmap } := by
    cases w
    cases h
    exact if_neg (Nat.not_lt.2 hs)
  rw [hp]
  refine ⟨fun hFits => ?_, fun hl => ?_⟩
  · rw [hOk hFits]
    rfl
  · rw [hf hl]
    rfl

lemma process_start (force : Bool) (r : Range)
    (ho : w.state ≠ some kind ∨ force = true ∨ (kind = .range ∧ w.sect = []))
    (hc : kind = .bitmap → contig r ≤ 208) :
    ∃ next, (w.start kind force r.lo).process r = .ok next ∧ next.buf = w.buf ∧
      ({ next with last := r.hi } : Generator).Holds ⟨kind, r, []⟩ := by
  obtain ⟨hs, hBuf, hSect, hb⟩ := start_eq ho r.lo
  cases kind with
  | list =>
    refine ⟨_, process_list hs r, hBuf, hs, rfl, (fun h => by cases h), ?_⟩
    simp [hSect, Group.serials, Group.ranges, flatMap_map]
  | range =>
    refine ⟨_, process_range hs r, hBuf, hs, rfl, (fun h => by cases h), ?_⟩
    simp [hSect, Group.ranges]
  | bitmap =>
    have hShort := hc rfl
    have hMax : bitmapMax = 2 ^ 24 := rfl
    unfold contig at hShort
    have hf : r.hi - r.lo ≤ bitmapMax := by omega
    rw [hb rfl]
    refine ⟨_, (process_bitmap rfl (Nat.le_refl r.lo) (by simp)).1 hf, rfl, rfl, rfl, fun _ => ?_, rfl, ?_, rfl⟩
    · show r.hi - r.lo + 1 ≤ bitmapMax + 1
      omega
    · exact (bitmap_single .bitmap r).symm

lemma process_next (hh : w.Holds g) (hr : g.kind ≠ .range) (hPre : g.last.Before r)
    (hFirst : g.first.lo ≤ g.last.lo) (hGap : g.kind = .bitmap → r.lo - g.last.hi ≤ 79) :
    ((g.add r).InMemory → ∃ next, w.process r = .ok next ∧ next.buf = w.buf ∧
      ({ next with last := r.hi } : Generator).Holds (g.add r)) ∧
      (¬(g.add r).InMemory → w.process r = .error .failed) := by
  have hs := hh.state
  have hSect := hh.sect
  cases hk : g.kind with
  | range => exact absurd hk hr
  | list =>
    rw [hk] at hs hSect
    have hAny : (g.add r).InMemory := fun h => nomatch hk.symm.trans h
    refine ⟨fun _ => ⟨_, process_list hs r, rfl, hs.trans (congrArg some hk.symm), by simp, hAny, ?_⟩,
      fun h => absurd hAny h⟩
    have hAdd : (g.add r).kind = .list := hk
    rw [hAdd]
    simp only [hSect, serials_add, flatMap_append, flatMap_map]
  | bitmap =>
    rw [hk] at hs hSect
    obtain ⟨hHead, hb, hStart⟩ := hSect
    have hSpan : g.last.hi - g.first.lo + 1 ≤ bitmapMax + 1 := hh.inMemory hk
    have hSmall := hGap hk
    have hLe := g.last.le
    have hMax : bitmapMax = 2 ^ 24 := rfl
    have hIn : (g.add r).InMemory ↔ r.hi - w.bitmapStart ≤ bitmapMax := by
      rw [hStart, Group.InMemory, Group.span, Group.last_add]
      show (g.kind = _ → r.hi - g.first.lo + 1 ≤ _) ↔ _
      rw [hk]
      simp
    unfold Range.Before at hPre
    obtain ⟨hOk, hFail⟩ := process_bitmap hs (r := r) (by omega) (by omega)
    rw [hIn]
    refine ⟨fun hf => ⟨_, hOk hf, rfl, hs.trans (congrArg some hk.symm), by simp, hIn.2 hf, ?_⟩,
      fun hl => hFail (Nat.not_le.1 hl)⟩
    have hAdd : (g.add r).kind = .bitmap := hk
    rw [hAdd]
    exact ⟨hHead, by rw [bitmap_add, hStart, hb], hStart⟩

lemma serial_eq
    (hc : chooseNextState w.state (contig r) next.isNone (if w.state = none then 0 else r.lo - w.last)
      (gap r next) = (kind, force)) :
    w.serial r next = (w.finishBefore kind force).bind fun w =>
      ((w.start kind force r.lo).process r).bind fun w => .ok { w with last := r.hi } := by
  unfold serial
  dsimp only
  rw [hc]
  rfl

lemma Holds.choice (hh : w.Holds g) (r : Range) (next : Option Range) :
    chooseNextState w.state (contig r) next.isNone (if w.state = none then 0 else r.lo - w.last) (gap r next) =
      chooseNextState (some g.kind) (contig r) next.isNone (r.lo - g.last.hi) (gap r next) := by
  rw [hh.state, hh.last]
  rfl

lemma serial_first (hs : w.state = none) (r : Range) (next : Option Range) :
    ∃ after, w.serial r next = .ok after ∧ after.buf = w.buf ∧
      after.Holds ⟨(chooseNextState none (contig r) next.isNone 0 (gap r next)).1, r, []⟩ := by
  cases hc : chooseNextState none (contig r) next.isNone 0 (gap r next) with
  | mk kind force =>
    have ho : w.state ≠ some kind := fun h => nomatch hs.symm.trans h
    obtain ⟨after, hp, hBuf, hh⟩ := process_start force r (.inl ho) fun hk =>
      contig_of_chooseNextState_bitmap (hk ▸ hc)
    refine ⟨{ after with last := r.hi }, ?_, hBuf, hh⟩
    have hEq := w.serial_eq (show chooseNextState w.state (contig r) next.isNone
      (if w.state = none then 0 else r.lo - w.last) (gap r next) = (kind, force) by rw [hs]; exact hc)
    rw [hEq, finishBefore, hs]
    show ((w.start kind force r.lo).process r).bind _ = _
    rw [hp]
    rfl

lemma serial_new (hh : w.Holds g)
    (hc : chooseNextState (some g.kind) (contig r) next.isNone (r.lo - g.last.hi) (gap r next) = (kind, force))
    (hNew : (force || kind ≠ g.kind || g.kind = .range) = true) :
    ∃ after : Bytes → Generator, w.serial r next = (put g.frame w.buf).map after ∧
      ∀ buf, (after buf).buf = buf ∧ (after buf).Holds ⟨kind, r, []⟩ := by
  have hf : w.finishBefore kind force = (put g.frame w.buf).map fun buf => { w with buf, sect := [] } := by
    rw [← hh.finish, finishBefore, hh.state]
    exact if_pos hNew
  have hs : ∀ buf, ∃ after, (({ w with buf, sect := [] } : Generator).start kind force r.lo).process r = .ok after ∧
    after.buf = buf ∧ ({ after with last := r.hi } : Generator).Holds ⟨kind, r, []⟩ := by
    intro buf
    refine process_start force r ?_ fun hk => contig_of_chooseNextState_bitmap (hk ▸ hc)
    rw [hh.state]
    by_cases hk : kind = g.kind
    · have hOr : force = true ∨ g.kind = .range := by simpa [hk] using hNew
      exact .inr (hOr.imp_right fun hr => ⟨hk.trans hr, rfl⟩)
    · exact .inl fun h => hk (Option.some.inj h).symm
  choose after hp hBuf hHolds' using hs
  refine ⟨fun buf => { after buf with last := r.hi }, ?_, fun buf => ⟨hBuf buf, hHolds' buf⟩⟩
  rw [serial_eq (hh.choice r next ▸ hc), hf]
  cases put g.frame w.buf with
  | error exit => rfl
  | ok buf =>
    show ((({ w with buf, sect := [] } : Generator).start kind force r.lo).process r).bind _ = _
    rw [hp]
    rfl

lemma serial_next (hh : w.Holds g)
    (hc : chooseNextState (some g.kind) (contig r) next.isNone (r.lo - g.last.hi) (gap r next) = (g.kind, false))
    (hr : g.kind ≠ .range) (hPre : g.last.Before r) (hFirst : g.first.lo ≤ g.last.lo) :
    ((g.add r).InMemory → ∃ after, w.serial r next = .ok after ∧ after.buf = w.buf ∧ after.Holds (g.add r)) ∧
      (¬(g.add r).InMemory → w.serial r next = .error .failed) := by
  have hf : w.finishBefore g.kind false = .ok w := by
    rw [finishBefore, hh.state]
    simp [hr]
  have hStart : w.start g.kind false r.lo = w := by
    rw [start, hh.state]
    simp
  have hs : w.serial r next = (w.process r).bind fun w => .ok { w with last := r.hi } := by
    rw [serial_eq (hh.choice r next ▸ hc), hf]
    show ((w.start g.kind false r.lo).process r).bind _ = _
    rw [hStart]
  obtain ⟨hOk, hFail⟩ := process_next hh hr hPre hFirst fun hk =>
    lastGap_of_chooseNextState_bitmap (hk ▸ hc)
  rw [hs]
  refine ⟨fun hFits => ?_, fun hl => ?_⟩
  · obtain ⟨after, hp, hBuf, hHolds'⟩ := hOk hFits
    rw [hp]
    exact ⟨_, rfl, hBuf, hHolds'⟩
  · rw [hFail hl]
    rfl

def complete (w : Generator) (rest : List Range) : Except Exit Bytes :=
  (w.serials rest).bind fun w => w.flush.bind fun w => .ok w.buf

lemma before_of_pairwise (h : (g.ranges ++ r :: rest).Pairwise Range.Before) :
    g.Ordered ∧ g.last.Before r := by
  obtain ⟨ho, -, ha⟩ := pairwise_append.1 h
  exact ⟨ho, ha g.last g.last_mem r mem_cons_self⟩

lemma tooLarge_groupsFrom (h : ¬g.InMemory) (ho : (g.ranges ++ rest).Pairwise Range.Before) :
    ¬∀ g' ∈ groupsFrom g rest, g'.InMemory := by
  induction rest generalizing g with
  | nil => exact fun hAll => h (hAll g (mem_singleton_self g))
  | cons r rest ih =>
    rw [groupsFrom]
    dsimp only
    split_ifs
    · exact fun hAll => h (hAll g mem_cons_self)
    · refine ih (fun hf => h fun hk => ?_) (by rwa [Group.ranges_add, append_assoc])
      have hs := hf hk
      have hPre := (before_of_pairwise ho).2
      have hLe := r.le
      rw [Group.span, Group.last_add] at hs
      unfold Range.Before at hPre
      show g.last.hi - g.first.lo + 1 ≤ _
      change r.hi - g.first.lo + 1 ≤ _ at hs
      omega

lemma complete_cons (w : Generator) (r : Range) (rest : List Range) :
    w.complete (r :: rest) = (w.serial r rest.head?).bind fun w => w.complete rest := by
  show ((w.serial r rest.head?).bind fun w => w.serials rest).bind _ = _
  cases w.serial r rest.head? with
  | error exit => rfl
  | ok after => rfl

/-- From an open section on, the loop writes the sections that are left. -/
lemma complete_eq (hh : w.Holds g) (hOrder : (g.ranges ++ rest).Pairwise Range.Before) :
    ((∀ g' ∈ groupsFrom g rest, g'.InMemory) → w.complete rest = put ((groupsFrom g rest).flatMap Group.frame) w.buf) ∧
      ((¬∀ g' ∈ groupsFrom g rest, g'.InMemory) → w.complete rest = .error .failed) := by
  induction rest generalizing g w with
  | nil =>
    have hComplete : w.complete [] = put g.frame w.buf := by
      show (w.flush.bind fun w => .ok w.buf) = _
      rw [flush, hh.state]
      show ((w.finish g.kind).bind fun w => .ok w.buf) = _
      rw [hh.finish]
      cases put g.frame w.buf with
      | error exit => rfl
      | ok buf => rfl
    rw [hComplete, groupsFrom, flatMap_singleton]
    exact ⟨fun _ => rfl, fun h => absurd (by simpa using hh.inMemory) h⟩
  | cons r rest ih =>
    obtain ⟨hOrdered, hPre⟩ := before_of_pairwise hOrder
    obtain ⟨-, hRest, -⟩ := pairwise_append.1 hOrder
    rw [groupsFrom, complete_cons]
    cases hc : chooseNextState (some g.kind) (contig r) rest.head?.isNone (r.lo - g.last.hi) (gap r rest.head?) with
    | mk kind force =>
      dsimp only
      split_ifs with hNew
      · obtain ⟨after, hs, ha⟩ := serial_new hh hc hNew
        have hl := fun buf => ih (ha buf).2 hRest
        have hStep : ((w.serial r rest.head?).bind fun w => w.complete rest) =
          (put g.frame w.buf).bind fun buf => (after buf).complete rest := by
          rw [hs]
          cases put g.frame w.buf with
          | error exit => rfl
          | ok buf => rfl
        rw [hStep, forall_mem_cons, flatMap_cons, ← put_put]
        refine ⟨fun hAll => ?_, fun hNot => ?_⟩
        · congr 1
          funext buf
          rw [(hl buf).1 hAll.2, (ha buf).1]
        · have hf : ∀ buf, (after buf).complete rest = .error .failed := fun buf =>
            (hl buf).2 fun hAll => hNot ⟨hh.inMemory, hAll⟩
          simp only [hf]
          exact put_bind_failed g.frame w.buf
      · have hSame : force = false ∧ kind = g.kind ∧ g.kind ≠ .range := by simpa [not_or, and_assoc] using hNew
        obtain ⟨rfl, rfl, hr⟩ := hSame
        have ho : ((g.add r).ranges ++ rest).Pairwise Range.Before := by
          rwa [Group.ranges_add, append_assoc]
        obtain ⟨hOk, hf⟩ := serial_next hh hc hr hPre (hOrdered.first_le g.last_mem)
        by_cases hFits : (g.add r).InMemory
        · obtain ⟨after, hs, hBuf, hHolds'⟩ := hOk hFits
          rw [hs, ← hBuf]
          exact ih hHolds' ho
        · rw [hf hFits]
          exact ⟨fun hAll => absurd hAll (tooLarge_groupsFrom hFits ho), fun _ => rfl⟩

end Generator

lemma emits_putSerials {serials : List Range} (h : serials.Pairwise Range.Before) :
    Emits (putSerials serials) (∀ g ∈ groups serials, g.InMemory) ((groups serials).flatMap Group.frame) := by
  intro buf hr
  cases serials with
  | nil =>
    refine ⟨fun _ => (emits_nothing buf hr).1 trivial, fun hNot => absurd ?_ hNot⟩
    exact fun g hg => absurd hg not_mem_nil
  | cons r rest =>
    obtain ⟨after, hs, hBuf, hh⟩ := Generator.serial_first (w := ⟨buf, [], 0, 0, 0, none⟩) rfl r rest.head?
    have hStep : putSerials (r :: rest) buf = after.complete rest := by
      show Generator.complete ⟨buf, [], 0, 0, 0, none⟩ (r :: rest) = _
      rw [Generator.complete_cons, hs]
      rfl
    rw [hStep, ← show after.buf = buf from hBuf]
    exact Generator.complete_eq hh h

lemma emits_putSection (type : UInt8) (sect : Bytes) :
    Emits (putSection type sect) True (if sect = [] then [] else type :: putString sect) := by
  intro buf hr
  refine ⟨fun _ => ?_, fun h => absurd trivial h⟩
  unfold putSection
  split_ifs
  · exact (emits_nothing buf hr).1 trivial
  · exact put_put [type] (putString sect) buf

/-! The whole list. -/

lemma Emits.congr (h : Emits write p a) (hIff : p ↔ q) (hOut : a = b) : Emits write q b := by
  rwa [← hIff, ← hOut]

def framed (sect : UInt8 × Bytes) : Bytes := sect.1 :: putString sect.2

/-- A section for strings, which is left out if there are none. -/
def stringsSection (type : UInt8) (l : List Bytes) : List (UInt8 × Bytes) :=
  if l = [] then [] else [(type, l.flatMap putString)]

lemma emits_strings (type : UInt8) (l : List Bytes) :
    Emits (putSection type (l.flatMap putString)) True ((stringsSection type l).flatMap framed) := by
  refine (emits_putSection type _).congr Iff.rfl ?_
  cases l with
  | nil => rfl
  | cons s rest =>
    have hs : (s :: rest).flatMap putString ≠ [] := by
      exact append_ne_nil_of_left_ne_nil (by simp [putString, putU32, digits]) _
    rw [if_neg hs, stringsSection, if_neg (cons_ne_nil _ _), flatMap_singleton]
    rfl

variable {K : Type} (ops : KeyOps K)

def RevokedCerts.subsections (rc : RevokedCerts K) : List (UInt8 × Bytes) :=
  (groups rc.revokedSerials.ranges).map (fun g => (g.kind.type, g.content)) ++
    stringsSection sectionCertKeyId rc.revokedKeyIds

def RevokedCerts.InMemory (rc : RevokedCerts K) : Prop := ∀ g ∈ groups rc.revokedSerials.ranges, g.InMemory

namespace KeyOps

def certsContent (rc : RevokedCerts K) : Bytes :=
  putString ((ops.caBlob rc.caKey).getD []) ++ (putString [] ++ rc.subsections.flatMap framed)

def sections (krl : SshKrl K) : List (UInt8 × Bytes) :=
  krl.revokedCerts.map (fun rc => (sectionCertificates, ops.certsContent rc)) ++
    (stringsSection sectionExplicitKey krl.revokedKeys ++ stringsSection sectionFingerprintSha1 krl.revokedSha1s)

def header (now : UInt64) (krl : SshKrl K) : Bytes :=
  krlMagic ++ (putU32 krlFormatVersion ++ (putU64 krl.krlVersion ++
    (putU64 (if krl.generatedDate = 0 then now.toNat else krl.generatedDate) ++ (putU64 krl.flags ++
      (putString [] ++ putString krl.comment)))))

def encoding (now : UInt64) (krl : SshKrl K) : Bytes := header now krl ++ (ops.sections krl).flatMap framed

/-- What can be written, apart from the size of the whole. -/
def Writable (krl : SshKrl K) : Prop :=
  ∀ rc ∈ krl.revokedCerts, (ops.caBlob rc.caKey).isSome = true ∧ rc.InMemory

lemma emits_subsections (rc : RevokedCerts K) :
    Emits (fun buf => (putSerials rc.revokedSerials.ranges buf).bind
      (putSection sectionCertKeyId (rc.revokedKeyIds.flatMap putString))) rc.InMemory (rc.subsections.flatMap framed) := by
  refine ((emits_putSerials rc.revokedSerials.apart).andThen (emits_strings _ rc.revokedKeyIds)).congr (and_iff_left trivial) ?_
  rw [RevokedCerts.subsections, flatMap_append, flatMap_map]
  rfl

lemma emits_certs (rc : RevokedCerts K) :
    Emits (fun buf => (ops.revokedCertsGenerate rc).bind fun sect => (put [sectionCertificates] buf).bind (put (putString sect)))
      ((ops.caBlob rc.caKey).isSome = true ∧ rc.InMemory) (framed (sectionCertificates, ops.certsContent rc)) := by
  cases hb : ops.caBlob rc.caKey with
  | none =>
    have hf : ops.revokedCertsGenerate rc = .error .failed := by
      rw [revokedCertsGenerate, revokedCertsSections, hb]
    intro buf hRoom
    refine ⟨(fun h => nomatch h.1), fun _ => ?_⟩
    rw [hf]
    rfl
  | some blob =>
    have hc : Emits (fun buf => (put (putString blob) buf).bind fun buf => (put (putString []) buf).bind fun buf =>
      (putSerials rc.revokedSerials.ranges buf).bind
        (putSection sectionCertKeyId (rc.revokedKeyIds.flatMap putString))) rc.InMemory (ops.certsContent rc) := by
      refine ((emits_put _).andThen ((emits_put _).andThen (emits_subsections rc))).congr (by simp) ?_
      rw [certsContent, hb]
      rfl
    have hg : ops.revokedCertsGenerate rc = (put (putString blob) []).bind fun buf => (put (putString []) buf).bind
      fun buf => (putSerials rc.revokedSerials.ranges buf).bind
        (putSection sectionCertKeyId (rc.revokedKeyIds.flatMap putString)) := by
      have hn := hc.ne_out
      rw [revokedCertsGenerate, revokedCertsSections, hb]
      split
      · next out hOut => exact absurd hOut (hn out)
      · rfl
    rw [hg]
    exact (hc.framed sectionCertificates).congr (by simp) rfl

lemma sshKrlToBlob_eq (now : UInt64) (krl : SshKrl K) :
    (ops.Writable krl → ops.sshKrlToBlob now krl = put (ops.encoding now krl) []) ∧
      (¬ops.Writable krl → ops.sshKrlToBlob now krl = .error .failed) := by
  have hc := Emits.foldlM fun rc (_ : rc ∈ krl.revokedCerts) => ops.emits_certs rc
  have hs := hc.andThen ((emits_strings sectionExplicitKey krl.revokedKeys).andThen
    (emits_strings sectionFingerprintSha1 krl.revokedSha1s))
  have hw := (emits_put krlMagic).andThen ((emits_put (putU32 krlFormatVersion)).andThen
    ((emits_put (putU64 krl.krlVersion)).andThen
      ((emits_put (putU64 (if krl.generatedDate = 0 then now.toNat else krl.generatedDate))).andThen
        ((emits_put (putU64 krl.flags)).andThen ((emits_put (putString [])).andThen
          ((emits_put (putString krl.comment)).andThen hs))))))
  have he := hw.congr (q := ops.Writable krl) (b := ops.encoding now krl) (by simp [Writable]) (by
    simp [encoding, header, sections, flatMap_append, flatMap_map])
  exact he [] (Nat.zero_le _)

end KeyOps
end Krl
