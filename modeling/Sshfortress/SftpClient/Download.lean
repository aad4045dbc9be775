import Sshfortress.Base.Extent
import Sshfortress.SftpClient.Basic

/-! Downloads are put together from answers in any order. The requests under way and the data
that has come cover what was asked for, each place once; the mark stands behind the data that
came without a gap. A write that fails after another one has failed is not told from one that
succeeds, and can move the mark over places that were never written. -/
namespace SftpClient

open Base Base.Wire Base.Extent List
open Sftp (Attrib attribClear hasFlag fxfRead oWronly oCreat oTrunc)

/-! What reaches the local file. -/

/-- Data that came for a READ, and what became of the write. -/
structure Arrival where
  offset : Nat
  data : Bytes
  stored : Stored
  deriving DecidableEq

namespace Arrival

def failed (a : Arrival) : Bool := a.stored ≠ .whole

/-- How many of the bytes are in the file. A write that fails leaves out at least one. -/
def written (a : Arrival) : Nat :=
  match a.stored with
  | .whole => a.data.length
  | .failed count => min count (a.data.length - 1)

def extent (a : Arrival) : Extent := ⟨a.offset, a.data.length⟩

def kept (a : Arrival) : Extent := ⟨a.offset, a.written⟩

def put (file : Bytes) (a : Arrival) : Bytes := Holes.write 0 file a.offset (a.data.take a.written)

def Honest (remote : Bytes) (a : Arrival) : Prop := a.data ≠ [] ∧ a.data <+: remote.drop a.offset

lemma written_le (a : Arrival) : a.written ≤ a.data.length := by
  unfold written
  split <;> omega

variable {a : Arrival} {remote : Bytes}

lemma written_of_not_failed (h : a.failed = false) : a.written = a.data.length := by
  unfold failed at h
  unfold written
  simp only [ne_eq, decide_eq_false_iff_not, not_not] at h
  rw [h]

lemma Honest.end_le (h : a.Honest remote) : a.offset + a.data.length ≤ remote.length := by
  have hPos := length_pos_iff.2 h.1
  have hLen := h.2.length_le
  rw [length_drop] at hLen
  omega

lemma Honest.getD (h : a.Honest remote) {p : Nat} (hp : a.extent.Has p) :
    a.data.getD (p - a.offset) 0 = remote.getD p 0 := by
  obtain ⟨rest, hr⟩ := h.2
  obtain ⟨hLow, hHigh⟩ : a.offset ≤ p ∧ p < a.offset + a.data.length := hp
  have hd : remote.getD p 0 = (remote.drop a.offset).getD (p - a.offset) 0 := by
    rw [getD_eq_getElem?_getD, getD_eq_getElem?_getD, getElem?_drop]
    congr 2
    omega
  rw [hd, ← hr, getD_append _ _ _ _ (by omega)]

lemma getD_put (h : a.Honest remote) (file : Bytes) (p : Nat) :
    (put file a).getD p 0 = if a.kept.Has p then remote.getD p 0 else file.getD p 0 := by
  have hLe := a.written_le
  have hLen : (a.data.take a.written).length = a.written := by
    rw [length_take]
    omega
  rw [put, Holes.getD_write, hLen]
  by_cases hHas : a.kept.Has p
  · have hw : a.extent.Has p := ⟨hHas.1, Nat.lt_of_lt_of_le hHas.2 (Nat.add_le_add_left hLe _)⟩
    have hk : a.offset ≤ p ∧ p < a.offset + a.written := hHas
    rw [if_pos hHas, if_pos hk, Holes.getD_take, if_pos (by omega), h.getD hw]
  · have hk : ¬ (a.offset ≤ p ∧ p < a.offset + a.written) := hHas
    rw [if_neg hHas, if_neg hk]

end Arrival

/-- The pieces of the remote file that have come, and those that are asked for. -/
def pieces (arrived : List Arrival) : List Extent := arrived.map Arrival.extent

def Read.extent (r : Read) : Extent := ⟨r.offset, r.len⟩

def asked (requests : List Read) : List Extent := requests.map Read.extent

section File

variable {remote file : Bytes} {arrived : List Arrival}

lemma getD_putAll (h : ∀ a ∈ arrived, a.Honest remote) (p : Nat) :
    (arrived.foldl Arrival.put file).getD p 0 =
      if ∃ a ∈ arrived, a.kept.Has p then remote.getD p 0 else file.getD p 0 := by
  induction arrived generalizing file with
  | nil => simp
  | cons a arrived ih =>
    rw [foldl_cons, ih fun b hb => h b (.tail _ hb), Arrival.getD_put (h a mem_cons_self)]
    by_cases hl : ∃ b ∈ arrived, b.kept.Has p
    · obtain ⟨b, hb, hHas⟩ := hl
      rw [if_pos ⟨b, hb, hHas⟩, if_pos ⟨b, .tail _ hb, hHas⟩]
    · rw [if_neg hl]
      simp [hl]

lemma length_put (a : Arrival) :
    (a.put file).length = if a.written = 0 ∨ a.data = [] then file.length else max file.length (a.offset + a.written) := by
  have hLe := a.written_le
  rw [Arrival.put, Holes.length_write, length_take, Nat.min_eq_left hLe]
  simp

lemma length_putAll_le {bound : Nat} (hFile : file.length ≤ bound)
    (h : ∀ a ∈ arrived, a.offset + a.data.length ≤ bound) : (arrived.foldl Arrival.put file).length ≤ bound := by
  induction arrived generalizing file with
  | nil => exact hFile
  | cons a arrived ih =>
    refine ih ?_ fun b hb => h b (.tail _ hb)
    have hLe := a.written_le
    have hEnd := h a mem_cons_self
    rw [length_put]
    split_ifs <;> omega

lemma length_le_putAll : file.length ≤ (arrived.foldl Arrival.put file).length := by
  induction arrived generalizing file with
  | nil => exact Nat.le_refl _
  | cons a arrived ih =>
    refine Nat.le_trans ?_ ih
    rw [length_put]
    split_ifs <;> omega

lemma lt_length_putAll {p : Nat} {a : Arrival} (ha : a ∈ arrived) (hp : a.kept.Has p) :
    p < (arrived.foldl Arrival.put file).length := by
  induction arrived generalizing file with
  | nil => cases ha
  | cons b arrived ih =>
    rcases mem_cons.1 ha with rfl | hl
    · have hLe := a.written_le
      obtain ⟨hLow, hHigh⟩ : a.offset ≤ p ∧ p < a.offset + a.written := hp
      have hf : p < (a.put file).length := by
        rw [length_put, if_neg]
        · omega
        · rintro (hn | hn)
          · omega
          · rw [hn, length_nil] at hLe
            omega
      exact Nat.lt_of_lt_of_le hf length_le_putAll
    · exact ih hl

end File

/-! What the loop keeps. -/

/-- The mark stands behind the data that came without a gap, the first failure left out. Once
a gap was seen it stays. -/
def Marked (start : Nat) (arrived : List Arrival) (highwater : Nat) (reordered : Bool) : Prop :=
  ∃ before, before <+: arrived ∧ Joined start (pieces (before.eraseP Arrival.failed)) ∧
    highwater = start + total (pieces (before.eraseP Arrival.failed)) ∧
    if reordered then ∃ next, before ++ [next] <+: arrived ∧
      ¬ Joined start (pieces ((before ++ [next]).eraseP Arrival.failed))
    else before = arrived

/-- The loop of `do_download`, for a remote file and a local one of `start` bytes, with `n`
requests at most and `cap` the size of the largest. `stopped` says that an interrupt was seen. -/
structure Downloading (remote : Bytes) (start n cap : Nat) (d : Download) (arrived : List Arrival) (stopped : Prop) :
    Prop where
  honest : ∀ a ∈ arrived, a.Honest remote
  counted : d.numReq = d.requests.length
  few : d.requests.length ≤ n + 1
  width : d.maxReq ≤ n + 1
  buflen : 0 < d.buflen ∧ d.buflen ≤ cap
  lens : ∀ r ∈ d.requests, 0 < r.len ∧ r.len ≤ cap
  started : start ≤ d.offset
  once : ∀ p, cover (pieces arrived) p + cover (asked d.requests) p ≤ if start ≤ p ∧ p < d.offset then 1 else 0
  complete : ∀ p, start ≤ p → p < d.offset → 0 < d.maxReq ∨ (p < remote.length ∧ d.readError = false) →
    0 < cover (pieces arrived) p + cover (asked d.requests) p
  ended : d.maxReq = 0 → d.readError = true ∨ d.writeError = true ∨ stopped ∨ remote.length ≤ d.offset
  failing : d.writeError = arrived.any Arrival.failed
  marked : Marked start arrived d.highwater d.reordered

section Steps

variable {remote : Bytes} {start n cap : Nat} {d : Download} {arrived : List Arrival} {stopped : Prop} {a : Arrival}

lemma pieces_eraseP_append (h : arrived.any Arrival.failed = true ∨ a.failed = false) :
    pieces ((arrived ++ [a]).eraseP Arrival.failed) = pieces (arrived.eraseP Arrival.failed) ++ [a.extent] := by
  have he : (arrived ++ [a]).eraseP Arrival.failed = arrived.eraseP Arrival.failed ++ [a] := by
    rw [eraseP_append]
    split_ifs with hAny
    · rfl
    · have hg : a.failed = false := h.resolve_left hAny
      have hn : ∀ b ∈ arrived, ¬ b.failed = true := by simpa using hAny
      rw [eraseP_of_forall_not hn, eraseP_cons_of_neg (by simp [hg]), eraseP_nil]
  rw [he, pieces, map_append]
  rfl

lemma eraseP_append_first (h : arrived.any Arrival.failed = false) (ha : a.failed = true) :
    (arrived ++ [a]).eraseP Arrival.failed = arrived.eraseP Arrival.failed := by
  have hn : ∀ b ∈ arrived, ¬ b.failed = true := by simpa using h
  rw [eraseP_append, if_neg (by simp [h]), eraseP_of_forall_not hn, eraseP_cons_of_pos ha, append_nil]

lemma note_eq (d : Download) (req : Read) (len : Nat) (stored : Stored) : ∃ highwater reordered maxReq,
      d.note req len stored =
        { d with highwater, reordered, maxReq, writeError := d.writeError || stored ≠ .whole } ∧
      (maxReq = d.maxReq ∨ maxReq = 0 ∧ (d.writeError || stored ≠ .whole) = true) := by
  unfold Download.note
  split_ifs with hf hMark hGap
  · simp only [Bool.and_eq_true, decide_eq_true_eq, Bool.not_eq_true'] at hf
    have hSame : (d.writeError || decide (stored ≠ .whole)) = true := by simp [hf.1]
    exact ⟨d.highwater, d.reordered, 0, by rw [hSame], .inr ⟨rfl, hSame⟩⟩
  all_goals
    have hSame : (d.writeError || decide (stored ≠ .whole)) = d.writeError := by
      cases hError : d.writeError <;> simp_all
    exact ⟨_, _, _, by rw [hSame], .inl rfl⟩

variable {buflen : Nat}

lemma downloading_start (hPos : 0 < buflen) (hCap : buflen ≤ cap) :
    Downloading remote start n cap ⟨start, start, buflen, 0, 1, [], false, false, false⟩ [] False where
  honest := by simp
  counted := rfl
  few := by simp
  width := by simp
  buflen := ⟨hPos, hCap⟩
  lens := by simp
  started := Nat.le_refl _
  once := by simp [pieces, asked]
  complete := by
    intro p hLow hh
    dsimp only at hh
    omega
  ended := by simp
  failing := rfl
  marked := ⟨[], nil_prefix, trivial, by simp [pieces], by simp⟩

variable (h : Downloading remote start n cap d arrived stopped)

include h

lemma Downloading.stop : Downloading remote start n cap { d with maxReq := 0 } arrived True :=
  { h with
    width := Nat.zero_le _
    complete := fun p hLow hh hWhy => h.complete p hLow hh (hWhy.imp_left fun hn => absurd hn (Nat.lt_irrefl 0))
    ended := fun _ => .inr (.inr (.inl trivial)) }

lemma Downloading.weaken {other : Prop} (hs : stopped → other) :
    Downloading remote start n cap d arrived other :=
  { h with ended := fun hn => (h.ended hn).imp_right (Or.imp_right (Or.imp_left hs)) }

/-- While requests may be sent, none is sent for more than what is missing and what is under
way. -/
lemma Downloading.offset_le (hStart : start ≤ remote.length) (hm : 0 < d.maxReq) :
    d.offset ≤ remote.length + d.requests.length * cap := by
  have hb : ∀ p, remote.length ≤ p → p < d.offset → 0 < cover (asked d.requests) p := by
    intro p hLow hh
    have hSome := h.complete p (by omega) hh (.inl hm)
    have hNone : cover (pieces arrived) p = 0 := by
      by_contra hHere
      obtain ⟨e, hMem, hHas⟩ := cover_pos.1 (Nat.pos_of_ne_zero hHere)
      obtain ⟨a, ha, rfl⟩ := mem_map.1 hMem
      have hEnd := (h.honest a ha).end_le
      have hInside : p < a.offset + a.data.length := hHas.2
      omega
    omega
  have ht := le_total hb
  have hEach : total (asked d.requests) ≤ (asked d.requests).length * cap := by
    apply total_le
    intro e he
    obtain ⟨r, hr, rfl⟩ := mem_map.1 he
    exact (h.lens r hr).2
  rw [asked, length_map] at hEach
  rw [asked] at ht
  omega

lemma Downloading.issue (id : Nat) (hStart : start ≤ remote.length)
    (hSpace : remote.length + (n + 1) * cap < 2 ^ 64)
    (hRoom : d.requests.length < d.maxReq) : Downloading remote start n cap (d.issue id) arrived stopped := by
  have hf : d.offset + d.buflen < 2 ^ 64 := by
    have hOffset := h.offset_le hStart (by omega)
    have hBuflen := h.buflen.2
    have hw := h.width
    have hMul : (d.requests.length + 1) * cap ≤ (n + 1) * cap := Nat.mul_le_mul_right _ (by omega)
    rw [Nat.succ_mul] at hMul
    omega
  have hOffset : (d.issue id).offset = d.offset + d.buflen := Nat.mod_eq_of_lt hf
  have hAsked : ∀ p, cover (asked (d.issue id).requests) p =
    cover (asked d.requests) p + if d.offset ≤ p ∧ p < d.offset + d.buflen then 1 else 0 := by
    intro p
    show cover (asked (d.requests ++ [⟨id, d.buflen, d.offset⟩])) p = _
    rw [asked, map_append, cover_append]
    simp only [map_cons, map_nil, cover_cons, cover_nil, Nat.add_zero]
    rfl
  have hStarted := h.started
  refine ⟨h.honest, ?_, ?_, h.width, h.buflen, ?_, ?_, ?_, ?_, ?_, h.failing, h.marked⟩
  · show d.numReq + 1 = (d.requests ++ [_]).length
    rw [h.counted, length_append]
    rfl
  · show (d.requests ++ [_]).length ≤ n + 1
    have hw := h.width
    rw [length_append, length_singleton]
    omega
  · intro r hr
    rcases mem_append.1 hr with hOld | hNew
    · exact h.lens r hOld
    · rw [mem_singleton] at hNew
      subst hNew
      exact h.buflen
  · rw [hOffset]
    omega
  · intro p
    have hOld := h.once p
    rw [hAsked, hOffset]
    split_ifs at hOld ⊢ <;> omega
  · intro p hLow hh hWhy
    rw [hOffset] at hh
    rw [hAsked]
    by_cases hHere : d.offset ≤ p
    · rw [if_pos ⟨hHere, hh⟩]
      omega
    · have hOld := h.complete p hLow (by omega) hWhy
      omega
  · intro hn
    exact absurd hn (by show d.maxReq ≠ 0; omega)

variable {req : Read} {before after : List Read}

lemma Downloading.request_bounds (hReq : req ∈ d.requests) {p : Nat} (hp : req.extent.Has p) :
    start ≤ p ∧ p < d.offset ∧ cover (pieces arrived) p = 0 := by
  have hAsked : 0 < cover (asked d.requests) p := cover_pos.2 ⟨req.extent, mem_map_of_mem hReq, hp⟩
  have ho := h.once p
  split_ifs at ho with hi
  · exact ⟨hi.1, hi.2, by omega⟩
  · omega

lemma Downloading.has_offset (hReq : req ∈ d.requests) : req.extent.Has req.offset :=
  ⟨Nat.le_refl _, Nat.lt_add_of_pos_right (h.lens req hReq).1⟩

lemma Downloading.refused (hQueue : d.requests = before ++ req :: after) {status : Nat}
    (hEof : status = 1 → remote.length ≤ req.offset) :
    Downloading remote start n cap (d.refused status before after) arrived stopped := by
  have hReq : req ∈ d.requests := by simp [hQueue]
  have hBounds := h.request_bounds hReq (h.has_offset hReq)
  have hAsked : ∀ p, cover (asked d.requests) p =
    (if req.extent.Has p then 1 else 0) + cover (asked (before ++ after)) p := by
    intro p
    rw [hQueue, asked, asked, map_append, map_append, map_cons, cover_append, cover_append, cover_cons]
    omega
  refine ⟨h.honest, ?_, ?_, Nat.zero_le _, h.buflen, ?_, h.started, ?_, ?_, ?_, h.failing, h.marked⟩
  · show d.numReq - 1 = (before ++ after).length
    rw [h.counted, hQueue, length_append, length_append, length_cons]
    omega
  · have hFew := h.few
    rw [hQueue] at hFew
    simp only [length_append, length_cons] at hFew
    show (before ++ after).length ≤ n + 1
    rw [length_append]
    omega
  · intro r hr
    refine h.lens r ?_
    rw [hQueue]
    rcases mem_append.1 hr with hPre | hAfter
    · exact mem_append_left _ hPre
    · exact mem_append_right _ (.tail _ hAfter)
  · intro p
    have hOld := h.once p
    rw [hAsked] at hOld
    exact Nat.le_trans (Nat.add_le_add_left (Nat.le_add_left _ _) _) hOld
  · rintro p hLow hh (hn | ⟨hi, hg⟩)
    · exact absurd hn (Nat.lt_irrefl 0)
    · -- Only the end of the file was reported, and the place is before it.
      have hf : d.readError = false ∧ status = 1 := by
        simpa [Download.refused, Bool.or_eq_false_iff] using hg
      have hOld := h.complete p hLow hh (.inr ⟨hi, hf.1⟩)
      have ho : ¬ req.extent.Has p := fun hHas => by
        have hFrom : req.offset ≤ p := hHas.1
        omega
      rw [hAsked, if_neg ho, Nat.zero_add] at hOld
      exact hOld
  · intro _
    by_cases hs : status = 1
    · have hEnd := hEof hs
      exact .inr (.inr (.inr (by show remote.length ≤ d.offset; omega)))
    · exact .inl (by simp [Download.refused, hs])

lemma Downloading.at_mark (hReq : req ∈ d.requests)
    (hj : Joined start (pieces (arrived.eraseP Arrival.failed)))
    (hMark : d.highwater = start + total (pieces (arrived.eraseP Arrival.failed)))
    (hLe : req.offset ≤ d.highwater) : req.offset = d.highwater := by
  by_contra hLess
  have hb := h.request_bounds hReq (h.has_offset hReq)
  obtain ⟨front, e, back, hs, hHas⟩ := hj.exists_has hb.1 (by omega)
  have hMem : e ∈ pieces (arrived.eraseP Arrival.failed) := by simp [hs]
  obtain ⟨a, ha, rfl⟩ := mem_map.1 hMem
  have hCovered : 0 < cover (pieces arrived) req.offset :=
    cover_pos.2 ⟨a.extent, mem_map_of_mem (mem_of_mem_eraseP ha), hHas⟩
  omega

variable (hQueue : d.requests = before ++ req :: after) (hOffset : a.offset = req.offset) (ha : a.Honest remote)
  (hSpace : remote.length < 2 ^ 64)

include hOffset ha hSpace

lemma Downloading.note_marked (hReq : req ∈ d.requests) :
    Marked start (arrived ++ [a]) (d.note req a.data.length a.stored).highwater
      (d.note req a.data.length a.stored).reordered := by
  obtain ⟨before, hFront, hj, hm, hMode⟩ := h.marked
  have hl : before <+: arrived ++ [a] := hFront.trans (prefix_append _ _)
  have hFailing := h.failing
  -- The mark stays where it was after a gap.
  have hk : d.reordered = true → Marked start (arrived ++ [a]) d.highwater d.reordered := by
    intro hGap
    rw [hGap, if_pos rfl] at hMode
    obtain ⟨next, hn, hNot⟩ := hMode
    refine ⟨before, hl, hj, hm, ?_⟩
    rw [hGap, if_pos rfl]
    exact ⟨next, hn.trans (prefix_append _ _), hNot⟩
  unfold Download.note
  by_cases hf : (a.stored ≠ .whole && !d.writeError) = true
  · rw [if_pos hf]
    simp only [Bool.and_eq_true, decide_eq_true_eq, Bool.not_eq_true'] at hf
    by_cases hGap : d.reordered = true
    · exact hk hGap
    · have hAll : before = arrived := by simpa [hGap] using hMode
      subst hAll
      have he := eraseP_append_first (a := a) (hFailing ▸ hf.2) (by simpa [Arrival.failed] using hf.1)
      refine ⟨before ++ [a], prefix_rfl, ?_, ?_, ?_⟩
      · rw [he]
        exact hj
      · rw [he]
        exact hm
      · simp [hGap]
  · rw [if_neg hf]
    by_cases hGap : d.reordered = true
    · rw [if_neg (by simp [hGap]), if_neg (by simp [hGap])]
      exact hk hGap
    · have hAll : before = arrived := by simpa [hGap] using hMode
      subst hAll
      have hp : pieces ((before ++ [a]).eraseP Arrival.failed) =
        pieces (before.eraseP Arrival.failed) ++ [a.extent] := by
        apply pieces_eraseP_append
        rw [← hFailing]
        simp only [Bool.and_eq_true, decide_eq_true_eq, Bool.not_eq_true', not_and, Bool.not_eq_false] at hf
        by_cases hw : a.stored = .whole
        · exact .inr (by simp [Arrival.failed, hw])
        · exact .inl (hf hw)
      by_cases hLe : req.offset ≤ d.highwater
      · have hHere := h.at_mark hReq hj hm hLe
        have hEnd := ha.end_le
        rw [if_pos (by simp [hGap, hLe])]
        refine ⟨before ++ [a], prefix_rfl, ?_, ?_, ?_⟩
        · rw [hp, joined_append]
          exact ⟨hj, by show a.offset = _; omega, trivial⟩
        · have hMod : (req.offset + a.data.length) % 2 ^ 64 = req.offset + a.data.length :=
            Nat.mod_eq_of_lt (by omega)
          have hLen : total [a.extent] = a.data.length := by simp [Arrival.extent]
          show (req.offset + a.data.length) % 2 ^ 64 = _
          rw [hp, total_append, hMod, hLen]
          omega
        · simp [hGap]
      · rw [if_neg (by simp [hGap, hLe]), if_pos (by simp [hGap]; omega)]
        refine ⟨before, hl, hj, hm, ?_⟩
        refine ⟨a, prefix_rfl, ?_⟩
        rw [hp, joined_append]
        rintro ⟨-, hStart, -⟩
        have hStart : a.offset = start + total (pieces (before.eraseP Arrival.failed)) := hStart
        omega

include hQueue

/-- The request that was answered is replaced by what is still missing of it. -/
lemma Downloading.receive {rest : List Read} {numReq : Nat}
    (hRest : ∀ p, (if a.extent.Has p then 1 else 0) + cover (asked rest) p = if req.extent.Has p then 1 else 0)
    (hl : ∀ r ∈ rest, 0 < r.len ∧ r.len ≤ cap) (hShort : rest.length ≤ 1)
    (hBuflen : 0 < buflen ∧ buflen ≤ cap) (hCount : numReq = (before ++ rest ++ after).length) :
    Downloading remote start n cap
      { d.note req a.data.length a.stored with requests := before ++ rest ++ after, buflen, numReq }
      (arrived ++ [a]) stopped := by
  have hReq : req ∈ d.requests := by simp [hQueue]
  have hm := h.note_marked hOffset ha hSpace hReq
  obtain ⟨highwater, reordered, maxReq, hn, hw⟩ := note_eq d req a.data.length a.stored
  rw [hn] at hm ⊢
  have hc : ∀ p, cover (pieces (arrived ++ [a])) p + cover (asked (before ++ rest ++ after)) p =
    cover (pieces arrived) p + cover (asked d.requests) p := by
    intro p
    have hSame := hRest p
    rw [hQueue]
    simp only [pieces, asked, map_append, map_cons, map_nil, cover_append, cover_cons, cover_nil] at hSame ⊢
    omega
  refine ⟨?_, hCount, ?_, ?_, hBuflen, ?_, h.started, ?_, ?_, ?_, ?_, hm⟩
  · intro b hb
    rcases mem_append.1 hb with hOld | hNew
    · exact h.honest b hOld
    · rw [mem_singleton] at hNew
      exact hNew ▸ ha
  · have hFew := h.few
    rw [hQueue] at hFew
    simp only [length_append, length_cons] at hFew ⊢
    omega
  · have hOld := h.width
    rcases hw with rfl | ⟨rfl, -⟩
    · exact hOld
    · exact Nat.zero_le _
  · intro r hr
    simp only [mem_append] at hr
    rcases hr with (hPre | hNew) | hAfter
    · exact h.lens r (by simp [hQueue, hPre])
    · exact hl r hNew
    · exact h.lens r (by simp [hQueue, hAfter])
  · intro p
    rw [hc]
    exact h.once p
  · intro p hLow hh hWhy
    rw [hc]
    refine h.complete p hLow hh (hWhy.imp_left fun hPos => ?_)
    rcases hw with rfl | ⟨rfl, -⟩
    · exact hPos
    · exact absurd hPos (Nat.lt_irrefl 0)
  · intro hNone
    rcases hw with rfl | ⟨rfl, he⟩
    · refine (h.ended hNone).imp_right (Or.imp_left fun he => ?_)
      rw [he, Bool.true_or]
    · exact .inr (.inl he)
  · show (d.writeError || decide (a.stored ≠ .whole)) = (arrived ++ [a]).any Arrival.failed
    rw [any_append, ← h.failing]
    simp [Arrival.failed]

lemma Downloading.finish (hLen : a.data.length = req.len) :
    Downloading remote start n cap ((d.note req a.data.length a.stored).finish before after) (arrived ++ [a]) stopped := by
  obtain ⟨highwater, reordered, maxReq, hn, -⟩ := note_eq d req a.data.length a.stored
  have hf : (d.note req a.data.length a.stored).finish before after =
    { d.note req a.data.length a.stored with
      requests := before ++ [] ++ after, buflen := d.buflen, numReq := d.numReq - 1 } := by
    rw [append_nil, hn]
    rfl
  rw [hf]
  refine h.receive hQueue hOffset ha hSpace ?_ (by simp) (by simp) h.buflen ?_
  · intro p
    have he : a.extent = req.extent := by rw [Arrival.extent, Read.extent, hOffset, hLen]
    simp [he, asked]
  · rw [h.counted, hQueue]
    simp only [append_nil, length_append, length_cons]
    omega

lemma Downloading.shorten (hCap : minReadSize ≤ cap) (hLen : a.data.length < req.len) (id : Nat) :
    Downloading remote start n cap ((d.note req a.data.length a.stored).shorten id req a.data.length before after)
      (arrived ++ [a]) stopped := by
  obtain ⟨highwater, reordered, maxReq, hn, -⟩ := note_eq d req a.data.length a.stored
  have hReq : req ∈ d.requests := by simp [hQueue]
  have hReqLen := h.lens req hReq
  have hEnd := ha.end_le
  have hMod : (req.offset + a.data.length) % 2 ^ 64 = req.offset + a.data.length := Nat.mod_eq_of_lt (by omega)
  have hs : (d.note req a.data.length a.stored).shorten id req a.data.length before after =
    { d.note req a.data.length a.stored with
      requests := before ++ [⟨id, req.len - a.data.length, req.offset + a.data.length⟩] ++ after
      buflen := if a.data.length < d.buflen then max minReadSize a.data.length else d.buflen
      numReq := d.numReq } := by
    rw [Download.shorten, hMod, hn]
    simp
  rw [hs]
  refine h.receive hQueue hOffset ha hSpace ?_ ?_ (by simp) ?_ ?_
  · intro p
    have hSplit := has_split (e := req.extent) (p := p) (n := a.data.length) (by show _ ≤ req.len; omega)
    have he : a.extent = ⟨req.offset, a.data.length⟩ := by rw [Arrival.extent, hOffset]
    rw [he]
    simp only [asked, map_cons, map_nil, cover_cons, cover_nil, Nat.add_zero]
    exact hSplit
  · intro r hr
    rw [mem_singleton] at hr
    subst hr
    exact ⟨by show 0 < req.len - _; omega, by show req.len - _ ≤ cap; omega⟩
  · have hOld := h.buflen
    have hMin : 0 < minReadSize := by decide
    split_ifs <;> omega
  · rw [h.counted, hQueue]
    simp only [length_append, length_cons, length_nil]
    omega

omit hQueue hOffset ha hSpace in
lemma Downloading.widen (hCount : n + 1 < 2 ^ 32) (size : Nat) :
    Downloading remote start n cap (d.widen size n) arrived stopped := by
  -- The number is changed only while there may be requests, and not to zero.
  have hSet : ∀ m, 0 < d.maxReq → 0 < m → m ≤ n + 1 →
    Downloading remote start n cap { d with maxReq := m } arrived stopped := fun m hOld hNew hLe =>
    { h with
      width := hLe
      complete := fun p hLow hh hWhy => h.complete p hLow hh (hWhy.imp_left fun _ => hOld)
      ended := fun hn => absurd hn (Nat.pos_iff_ne_zero.1 hNew) }
  unfold Download.widen
  split_ifs with hm hBeyond hFew
  · exact hSet 1 hm Nat.one_pos (by omega)
  · rw [Nat.mod_eq_of_lt (by omega)]
    exact hSet _ hm (by omega) (by omega)
  · exact h
  · exact h

end Steps

/-! What is in the file when the loop is over. -/

/-- No write fails in vain: a write that fails after another one has failed, and whose data
came without a gap behind the data before it, the first failure left out, leaves out zeros
only. -/
def NoneLost (start : Nat) (arrived : List Arrival) : Prop :=
  ∀ before a after, arrived = before ++ a :: after → a.failed = true → before.any Arrival.failed = true →
    Joined start (pieces ((before ++ [a]).eraseP Arrival.failed)) → ∀ byte ∈ a.data.drop a.written, byte = 0

variable {start id : Nat} {l : List Arrival} {msg body rest : Bytes}
  {queue before after : List Read} {req : Read} {later : Events} {conn : Conn}

lemma noneLost_of_all_whole {arrived : List Arrival} (h : arrived.any Arrival.failed = false) :
    NoneLost start arrived := by
  rintro before a after rfl hf
  simp [hf] at h

lemma eraseP_mono {m : List Arrival} (h : l <+: m) :
    l.eraseP Arrival.failed <+: m.eraseP Arrival.failed := by
  obtain ⟨rest, rfl⟩ := h
  rw [eraseP_append]
  split_ifs with hAny
  · exact prefix_append _ _
  · rw [eraseP_of_forall_not (by simpa using hAny)]
    exact prefix_append _ _

lemma split_of_eraseP {front back : List Arrival} {a : Arrival} (ha : a.failed = true)
    (h : l.eraseP Arrival.failed = front ++ a :: back) :
    ∃ before after, l = before ++ a :: after ∧ before.any Arrival.failed = true ∧
      (before ++ [a]).eraseP Arrival.failed = front ++ [a] := by
  rcases exists_or_eq_self_of_eraseP Arrival.failed l with hs | ⟨first, l₁, l₂, hg, hf, rfl, he⟩
  · rw [hs] at h
    have hn : ∀ b ∈ l, ¬ b.failed = true := by
      intro b hb hFail
      have hShort := length_eraseP_of_mem hb hFail
      rw [hs] at hShort
      have hPos := length_pos_of_mem hb
      omega
    exact absurd ha (hn a (by simp [h]))
  · rw [he] at h
    rcases append_eq_append_iff.1 h with ⟨middle, rfl, hr⟩ | ⟨middle, rfl, hr⟩
    · refine ⟨l₁ ++ first :: middle, back, by simp [hr], by simp [hf], ?_⟩
      rw [append_assoc, cons_append, eraseP_append_right _ hg, eraseP_cons_of_pos hf, append_assoc]
    · cases middle with
      | nil =>
        refine ⟨front ++ [first], back, by simp_all, by simp [hf], ?_⟩
        rw [append_nil] at hg
        rw [append_assoc, eraseP_append_right _ hg, singleton_append, eraseP_cons_of_pos hf]
      | cons b middle =>
        obtain ⟨rfl, -⟩ : a = b ∧ back = middle ++ l₂ := by simpa using hr
        exact absurd ha (hg a (by simp))

section Ends

variable {remote file : Bytes} {start n cap : Nat} {d : Download} {arrived : List Arrival} {stopped : Prop}

lemma getD_of_prefix (hFile : file <+: remote) {p : Nat} (hp : p < file.length) :
    file.getD p 0 = remote.getD p 0 :=
  ((Holes.prefix_iff 0).1 hFile).2 p hp

variable (h : Downloading remote start n cap d arrived stopped)

include h

lemma Downloading.arrival_le {a : Arrival} (ha : a ∈ arrived) : a.offset + a.data.length ≤ d.offset := by
  have hPos := length_pos_iff.2 (h.honest a ha).1
  have hl : a.extent.Has (a.offset + a.data.length - 1) :=
    ⟨by show a.offset ≤ _; omega, by show _ < a.offset + a.data.length; omega⟩
  have hCovered : 0 < cover (pieces arrived) (a.offset + a.data.length - 1) :=
    cover_pos.2 ⟨a.extent, mem_map_of_mem ha, hl⟩
  have ho := h.once (a.offset + a.data.length - 1)
  split_ifs at ho <;> omega

variable (hFile : file <+: remote) (hStart : file.length = start)

include hFile hStart

lemma Downloading.uncut (hd : d.requests = []) (hr : d.readError = false) (hw : d.writeError = false) :
    arrived.foldl Arrival.put file <+: remote ∧
      ∀ p, p < remote.length → p < d.offset → p < (arrived.foldl Arrival.put file).length := by
  have hWhole : ∀ a ∈ arrived, a.failed = false := by
    have hn := h.failing
    rw [hw] at hn
    intro a ha
    simpa using any_eq_false.1 hn.symm a ha
  have hk : ∀ p, start ≤ p → p < remote.length → p < d.offset → ∃ a ∈ arrived, a.kept.Has p := by
    intro p hLow hi hAsked
    have hc := h.complete p hLow hAsked (.inr ⟨hi, hr⟩)
    rw [hd] at hc
    obtain ⟨e, he, hHas⟩ := cover_pos.1 hc
    obtain ⟨a, ha, rfl⟩ := mem_map.1 he
    refine ⟨a, ha, hHas.1, ?_⟩
    show p < a.offset + a.written
    rw [Arrival.written_of_not_failed (hWhole a ha)]
    exact hHas.2
  have hLen : (arrived.foldl Arrival.put file).length ≤ remote.length :=
    length_putAll_le hFile.length_le fun a ha => (h.honest a ha).end_le
  have hReached : (arrived.foldl Arrival.put file).length ≤ d.offset :=
    length_putAll_le (hStart ▸ h.started) fun a ha => h.arrival_le ha
  constructor
  · refine (Holes.prefix_iff 0).2 ⟨hLen, fun p hp => ?_⟩
    rw [getD_putAll h.honest]
    by_cases hOld : p < start
    · split_ifs
      · rfl
      · exact getD_of_prefix hFile (hStart ▸ hOld)
    · rw [if_pos (hk p (by omega) (by omega) (by omega))]
  · intro p hi hAsked
    by_cases hOld : p < start
    · exact Nat.lt_of_lt_of_le (hStart ▸ hOld) length_le_putAll
    · obtain ⟨a, ha, hHas⟩ := hk p (by omega) hi hAsked
      exact lt_length_putAll ha hHas

lemma Downloading.whole (hd : d.requests = []) (ho : d.maxReq = 0) (hr : d.readError = false)
    (hw : d.writeError = false) (hs : ¬ stopped) : arrived.foldl Arrival.put file = remote := by
  obtain ⟨hf, hAll⟩ := h.uncut hFile hStart hd hr hw
  have hEnd : remote.length ≤ d.offset := by
    rcases h.ended ho with he | he | hSeen | hEnd
    · rw [hr] at he
      cases he
    · rw [hw] at he
      cases he
    · exact absurd hSeen hs
    · exact hEnd
  apply hf.eq_of_length_le
  by_contra hLess
  have hMissing := hAll (arrived.foldl Arrival.put file).length (by omega) (by omega)
  omega

lemma Downloading.cut_iff :
    Holes.truncate 0 (arrived.foldl Arrival.put file) d.highwater <+: remote ↔ NoneLost start arrived := by
  obtain ⟨marked, hf, hj, hMark, hm⟩ := h.marked
  have hGet : ∀ p < d.highwater, (Holes.truncate 0 (arrived.foldl Arrival.put file) d.highwater).getD p 0 =
    if ∃ a ∈ arrived, a.kept.Has p then remote.getD p 0 else file.getD p 0 := by
    intro p hp
    rw [Holes.getD_truncate, if_pos hp, getD_putAll h.honest]
  have hHole : ∀ p, start ≤ p → file.getD p 0 = 0 := fun p hp => getD_eq_default _ _ (by omega)
  constructor
  · intro hPrefix before a after hs hFail he hg byte hByte
    -- The data up to the failure is behind the mark.
    have hMarked : before ++ [a] <+: marked := by
      have hHere : before ++ [a] <+: arrived := ⟨after, by simp [hs]⟩
      cases hGap : d.reordered with
      | false =>
        rw [hGap, if_neg nofun] at hm
        exact hm ▸ hHere
      | true =>
        rw [hGap, if_pos rfl] at hm
        obtain ⟨next, hNext, hNot⟩ := hm
        have hn : ¬ marked ++ [next] <+: before ++ [a] := fun hBoth =>
          hNot (hg.of_prefix ((eraseP_mono hBoth).map _))
        rcases prefix_or_prefix_of_prefix hHere hNext with hBoth | hBoth
        · rcases prefix_concat_iff.1 hBoth with hSame | hf
          · exact absurd (hSame ▸ prefix_rfl) hn
          · exact hf
        · exact absurd hBoth hn
    obtain ⟨i, hi, rfl⟩ := mem_iff_getElem.1 hByte
    rw [length_drop] at hi
    have hPieces := pieces_eraseP_append (a := a) (.inl he)
    have hPlace : a.offset = start + total (pieces (before.eraseP Arrival.failed)) := by
      rw [hPieces, joined_append] at hg
      exact hg.2.1
    have hBelow : a.offset + a.data.length ≤ d.highwater := by
      obtain ⟨rest, hr⟩ := (eraseP_mono hMarked).map Arrival.extent
      have ht : total (pieces (marked.eraseP Arrival.failed)) =
        total (pieces ((before ++ [a]).eraseP Arrival.failed)) + total rest := by
        rw [pieces, pieces, ← hr, total_append]
      have hLen : total [a.extent] = a.data.length := by simp [Arrival.extent]
      rw [hPieces, total_append, hLen] at ht
      omega
    have hHas : a.extent.Has (a.offset + (a.written + i)) :=
      ⟨by show a.offset ≤ _; omega, by show _ < a.offset + a.data.length; omega⟩
    have hu : ¬ ∃ b ∈ arrived, b.kept.Has (a.offset + (a.written + i)) := by
      rintro ⟨b, hb, hk⟩
      have hNotSelf : b ≠ a := by
        rintro rfl
        have hHigh : b.offset + (b.written + i) < b.offset + b.written := hk.2
        omega
      have hExtent : b.extent.Has (a.offset + (a.written + i)) :=
        ⟨hk.1, Nat.lt_of_lt_of_le hk.2 (Nat.add_le_add_left b.written_le _)⟩
      have ho := h.once (a.offset + (a.written + i))
      have hOther : b ∈ before ++ after := by
        rw [hs, mem_append, mem_cons] at hb
        rw [mem_append]
        rcases hb with hPre | hSelf | hAfter
        · exact .inl hPre
        · exact absurd hSelf hNotSelf
        · exact .inr hAfter
      have hc : 0 < cover (pieces (before ++ after)) (a.offset + (a.written + i)) :=
        cover_pos.2 ⟨b.extent, mem_map_of_mem hOther, hExtent⟩
      rw [hs] at ho
      simp only [pieces, map_append, map_cons, cover_append, cover_cons, if_pos hHas] at ho hc
      split_ifs at ho <;> omega
    have hSame := ((Holes.prefix_iff 0).1 hPrefix).2 (a.offset + (a.written + i))
      (by rw [Holes.length_truncate]; omega)
    rw [hGet _ (by omega), if_neg hu, hHole _ (by omega)] at hSame
    have hh := (h.honest a (by simp [hs])).getD hHas
    rw [← hSame, Nat.add_sub_cancel_left, getD_eq_getElem _ _ (by omega)] at hh
    rw [getElem_drop]
    exact hh
  · intro hNone
    have hPlaces : ∀ p, start ≤ p → p < d.highwater → p < remote.length ∧
      ((∃ a ∈ arrived, a.kept.Has p) ∨ remote.getD p 0 = 0) := by
      intro p hLow hHigh
      obtain ⟨front, e, back, hs, hHas⟩ := hj.exists_has hLow (by omega)
      obtain ⟨l₁, l₂, hErase, rfl, hBack⟩ := map_eq_append_iff.1 hs
      obtain ⟨a, l₃, rfl, rfl, rfl⟩ := map_eq_cons_iff.1 hBack
      have hIn : a ∈ marked.eraseP Arrival.failed := by simp [hErase]
      have hMem : a ∈ arrived := hf.subset (mem_of_mem_eraseP hIn)
      have hInside : p < a.offset + a.data.length := hHas.2
      have hEnd := (h.honest a hMem).end_le
      refine ⟨by omega, ?_⟩
      by_cases hk : a.kept.Has p
      · exact .inl ⟨a, hMem, hk⟩
      · right
        have hFail : a.failed = true := by
          by_contra hGood
          apply hk
          refine ⟨hHas.1, ?_⟩
          show p < a.offset + a.written
          rw [Arrival.written_of_not_failed (by simpa using hGood)]
          exact hInside
        obtain ⟨before, after, rfl, he, hSame⟩ := split_of_eraseP hFail hErase
        obtain ⟨rest, rfl⟩ := hf
        have hLow : a.offset ≤ p := hHas.1
        have hNotKept : ¬ p < a.offset + a.written := fun hl => hk ⟨hLow, hl⟩
        have hg : Joined start (pieces ((before ++ [a]).eraseP Arrival.failed)) := by
          rw [hSame]
          refine hj.of_prefix ?_
          rw [hErase]
          exact ⟨pieces l₃, by simp [pieces]⟩
        have hz := hNone before a (after ++ rest) (append_assoc ..) hFail he hg
        rw [← (h.honest a hMem).getD hHas, getD_eq_getElem _ _ (by omega)]
        apply hz
        rw [mem_drop_iff_getElem]
        exact ⟨p - a.offset - a.written, by omega, by congr 1; omega⟩
    have hBelow : d.highwater ≤ remote.length := by
      have hLe := hFile.length_le
      by_contra hl
      have hEnd := (hPlaces remote.length (by omega) (by omega)).1
      omega
    refine (Holes.prefix_iff 0).2 ⟨by rw [Holes.length_truncate]; exact hBelow, fun p hp => ?_⟩
    rw [Holes.length_truncate] at hp
    rw [hGet p hp]
    split_ifs with hk
    · rfl
    · by_cases hOld : p < start
      · exact getD_of_prefix hFile (hStart ▸ hOld)
      · rw [hHole p (by omega)]
        exact ((hPlaces p (by omega) hp).2.resolve_left hk).symm

end Ends

/-! The trace of a download. -/

def arrivalOf : Event Call Answer → Option Arrival
  | ⟨.store _ offset data, stored⟩ => some ⟨offset, data, stored⟩
  | _ => none

def arrivals (trace : Events) : List Arrival := trace.filterMap arrivalOf

def change (file : Bytes) : Event Call Answer → Bytes
  | ⟨.open _ flags _, answer⟩ => if (show Option Nat from answer).isSome && hasFlag flags oTrunc then [] else file
  | ⟨.store _ offset data, stored⟩ => Arrival.put file ⟨offset, data, stored⟩
  | ⟨.ftruncate _ size, answer⟩ => if (show Bool from answer) then Holes.truncate 0 file size else file
  | _ => file

def fileAfter (file : Bytes) (trace : Events) : Bytes := trace.foldl change file

/-- The message answers the request that it names: with some of the bytes there, with the end
of the file behind it, or with an error. A message that cannot be read ends the client. -/
def proper (remote : Bytes) (queue : List Read) (msg : Bytes) : Bool :=
  match header msg with
  | none => true
  | some ((type, id), body) =>
    match findRequest Read.id id queue with
    | none => true
    | some (_, req, _) =>
      if type = 103 then
        match getString body with
        | none => true
        | some (data, _) => data ≠ [] ∧ data <+: (remote.drop req.offset).take req.len
      else if type = 101 then
        match getU32 body with
        | none => true
        | some (status, _) => status = 1 → remote.length ≤ req.offset
      else true

def answered (remote : Bytes) : Event Call Answer → Bool
  | ⟨.getMsg (.reads queue), answer⟩ => (show Option Bytes from answer).all (proper remote queue)
  | _ => true

/-- The server answers every READ from the remote file. -/
def Serves (remote : Bytes) (trace : Events) : Prop := ∀ event ∈ trace, answered remote event = true

/-- The local system tells the size of the file, and can cut it. -/
structure LocalAnswers (file : Bytes) (trace : Events) : Prop where
  size : ∀ before after fd st, trace = before ++ ⟨.fstat fd, some st⟩ :: after →
    st.size = ((fileAfter file before).length : Int)
  cut : ∀ fd size, (⟨.ftruncate fd size, false⟩ : Event Call Answer) ∉ trace

variable {trace : Events} {remote file : Bytes}

lemma proper_data {data : Bytes} (h : proper remote queue msg = true)
    (hHdr : header msg = some ((103, id), body))
    (hf : findRequest Read.id id queue = some (before, req, after))
    (hStr : getString body = some (data, rest)) :
    data ≠ [] ∧ data <+: (remote.drop req.offset).take req.len := by
  rw [proper, hHdr] at h
  simp only [hf, if_true, hStr, decide_eq_true_eq] at h
  exact h

lemma proper_eof {status : Nat} (h : proper remote queue msg = true)
    (hHdr : header msg = some ((101, id), body))
    (hf : findRequest Read.id id queue = some (before, req, after))
    (hc : getU32 body = some (status, rest)) : status = 1 → remote.length ≤ req.offset := by
  rw [proper, hHdr] at h
  simp only [hf, show ¬ (101 : UInt8) = 103 by decide, if_false, if_true, hc, decide_eq_true_eq] at h
  exact h

def LoopCall : Call → Prop
  | .send _ | .getMsg _ | .interrupted | .store .. => True
  | _ => False

@[simp] lemma arrivals_append (trace later : Events) : arrivals (trace ++ later) = arrivals trace ++ arrivals later :=
  filterMap_append ..

lemma Serves.left (h : Serves remote (trace ++ later)) : Serves remote trace :=
  fun event hMem => h event (mem_append_left _ hMem)

lemma Serves.right (h : Serves remote (trace ++ later)) : Serves remote later :=
  fun event hMem => h event (mem_append_right _ hMem)

lemma fileAfter_of_loopCall (h : ∀ event ∈ trace, LoopCall event.request) (file : Bytes) :
    fileAfter file trace = (arrivals trace).foldl Arrival.put file := by
  induction trace generalizing file with
  | nil => rfl
  | cons event trace ih =>
    have hh := h event mem_cons_self
    have ht := ih fun later hl => h later (.tail _ hl)
    obtain ⟨call, answer⟩ := event
    cases call with
    | store fd offset data => exact ht _
    | send r => exact ht _
    | getMsg awaited => exact ht _
    | interrupted => exact ht _
    | _ => exact hh.elim

section Loop

variable {remote : Bytes} {start cap fd size : Nat} {handle : Bytes} {conn : Conn} {d : Download}

structure Advances (remote : Bytes) (start cap : Nat) (conn : Conn) (d next : Download) (later : Conn) (trace : Events) :
    Prop where
  same : conn.Same later
  calls : ∀ event ∈ trace, LoopCall event.request
  kept : Serves remote trace → ∀ arrived stopped, Downloading remote start conn.numRequests cap d arrived stopped →
    Downloading remote start conn.numRequests cap next (arrived ++ arrivals trace) stopped

variable {now : Conn} {past : Events} {next : Download} {later : Conn}

lemma Advances.of_quiet {trace : Events} (hSame : conn.Same later)
    (hc : ∀ event ∈ trace, LoopCall event.request) (hn : arrivals trace = [])
    (h : ∀ arrived stopped, Downloading remote start conn.numRequests cap d arrived stopped →
      Downloading remote start conn.numRequests cap next arrived stopped) :
    Advances remote start cap conn d next later trace := by
  refine ⟨hSame, hc, fun _ arrived stopped hk => ?_⟩
  rw [hn, append_nil]
  exact h arrived stopped hk

structure LoopInv (remote : Bytes) (start cap : Nat) (conn : Conn) (d : Download) (now : Conn) (past : Events) : Prop where
  same : conn.Same now
  calls : ∀ event ∈ past, LoopCall event.request
  kept : Downloading remote start conn.numRequests cap d (arrivals past) (¬ Uninterrupted past)

section
variable (h : LoopInv remote start cap conn d now past)
include h

lemma LoopInv.advance {trace : Events}
    (hAdvances : Advances remote start cap conn d next later trace) (hs : Serves remote trace) :
    LoopInv remote start cap conn next later (past ++ trace) where
  same := hAdvances.same
  calls := fun event he => (mem_append.1 he).elim (h.calls event) (hAdvances.calls event)
  kept := by
    rw [arrivals_append]
    exact (hAdvances.kept hs _ _ h.kept).weaken fun hSeen hn => hSeen hn.left

lemma LoopInv.ask (stopped : Bool) :
    LoopInv remote start cap conn d now (past ++ [⟨.interrupted, stopped⟩]) := by
  refine h.advance (.of_quiet h.same (forall_mem_singleton.2 trivial) rfl fun _ _ hk => hk) ?_
  exact forall_mem_singleton.2 rfl

lemma LoopInv.stop (stopped : Bool) (hs : stopped = true → ¬ Uninterrupted past) :
    LoopInv remote start cap conn (if stopped then { d with maxReq := 0 } else d) now past := by
  split_ifs with hStop
  · exact ⟨h.same, h.calls, h.kept.stop.weaken fun _ => hs hStop⟩
  · exact h

end

/-- The loop is over: nothing is under way, and nothing more is asked for. -/
def LoopPost (remote : Bytes) (start cap : Nat) (conn : Conn) (d : Download) (now : Conn) (past : Events) : Prop :=
  LoopInv remote start cap conn d now past ∧ (d.maxReq = 0 ∨ ¬ Uninterrupted past)

variable (hStart : start ≤ remote.length) (hSpace : remote.length + (conn.numRequests + 1) * cap < 2 ^ 64)
  (hCount : conn.numRequests + 1 < 2 ^ 32) (hCap : minReadSize ≤ cap) (hSame : conn.Same now)

include hSpace hSame

include hStart in
lemma gives_sendReads {count : Nat} (hRoom : count = 0 ∨ d.numReq + count ≤ d.maxReq) :
    Gives (Advances remote start cap conn d) (sendReads handle count d) now := by
  induction count generalizing d now with
  | zero => exact .of_quiet hSame (forall_mem_nil _) rfl fun _ _ h => h
  | succ count ih =>
    have hn : (d.issue now.msgId).numReq + count ≤ (d.issue now.msgId).maxReq := by
      show d.numReq + 1 + count ≤ d.maxReq
      omega
    have hNow : conn.Same { now with msgId := (now.msgId + 1) % 2 ^ 32 } := ⟨hSame.1, hSame.2⟩
    refine .bind (.nextId (.bind (.sendMsg ?_)))
    refine (ih hNow (.inr hn)).mono ?_
    intro next later trace hr
    refine ⟨hr.same, forall_mem_cons.2 ⟨trivial, hr.calls⟩, fun hs arrived stopped h => ?_⟩
    have hCnt := h.counted
    exact hr.kept hs.right.right arrived stopped (h.issue now.msgId hStart hSpace (by omega))

include hCount hCap

variable (start) in
lemma gives_receiveData {before after : List Read} {req : Read} {data : Bytes}
    (hQueue : d.requests = before ++ req :: after) (hLen : data.length ≤ req.len) :
    Gives (fun next later trace => conn.Same later ∧ (data ≠ [] ∧ data <+: (remote.drop req.offset).take req.len →
      Advances remote start cap conn d next later trace))
      (receiveData fd handle size d before req after data) now := by
  refine .bind (.ask fun stored => ?_)
  refine .bind (.get ?_)
  have hs : remote.length < 2 ^ 64 := by omega
  have hh : data ≠ [] ∧ data <+: (remote.drop req.offset).take req.len →
    (⟨req.offset, data, stored⟩ : Arrival).Honest remote := fun hd =>
    ⟨hd.1, hd.2.trans ( take_prefix _ _)⟩
  split_ifs with hw
  · refine ⟨hSame, fun hd => ⟨hSame, forall_mem_singleton.2 trivial, fun _ arrived stopped h => ?_⟩⟩
    rw [hSame.1]
    exact (h.finish hQueue rfl (hh hd) hs hw).widen hCount size
  · refine .bind (.nextId (.bind (.sendMsg ?_)))
    refine ⟨⟨hSame.1, hSame.2⟩, fun hd => ⟨⟨hSame.1, hSame.2⟩, ?_, fun _ arrived stopped h => ?_⟩⟩
    · exact forall_mem_cons.2 ⟨trivial, forall_mem_singleton.2 trivial⟩
    rw [hSame.1]
    exact (h.shorten hQueue rfl (hh hd) hs hCap (Nat.lt_of_le_of_ne hLen hw) _).widen hCount size

variable (start) in
lemma gives_receive : Gives (fun next later trace => conn.Same later ∧
    (Serves remote trace → Advances remote start cap conn d next later trace))
      (receive fd handle size d) now := by
  refine .bind (.getMsg fun msg => ?_)
  refine .bind (.need ?_)
  rintro ⟨⟨type, id⟩, body⟩ hHdr
  refine .bind (.need ?_)
  rintro ⟨before, req, after⟩ hf
  have hQueue := findRequest_eq_some hf
  -- The message was taken while these requests were under way.
  have hp : ∀ later, Serves remote ([⟨.getMsg (.reads d.requests), some msg⟩] ++ later) →
    proper remote d.requests msg = true := fun later hs => hs _ mem_cons_self
  split_ifs with hStat hd
  · refine .bind (.need ?_)
    rintro ⟨status, rest⟩ hc
    refine ⟨hSame, fun hs => ?_⟩
    have hEof := proper_eof (hp _ hs) (hStat ▸ hHdr) hf hc
    exact .of_quiet hSame (forall_mem_singleton.2 trivial) rfl fun _ _ h => h.refused hQueue hEof
  · refine .bind (.need ?_)
    rintro ⟨data, rest⟩ hStr
    dsimp only
    split_ifs with hLong
    · trivial
    · refine (gives_receiveData start hSpace hCount hCap hSame hQueue (Nat.le_of_not_lt hLong)).mono ?_
      rintro next later trace ⟨hl, hn⟩
      refine ⟨hl, fun hs => ?_⟩
      have hAdvances := hn (proper_data (hp _ hs) (hd ▸ hHdr) hf hStr)
      exact ⟨hAdvances.same, forall_mem_cons.2 ⟨trivial, hAdvances.calls⟩, fun _ => hAdvances.kept hs.right⟩
  · trivial

include hStart

lemma gives_downloadRound (h : Serves remote past → LoopInv remote start cap conn d now past) :
    Gives (fun step later trace => Handler.roundPost
      (fun next final calls => Serves remote calls → LoopPost remote start cap conn next final calls)
      (fun next final calls => conn.Same final ∧ (Serves remote calls → LoopInv remote start cap conn next final calls))
      step later (past ++ trace)) (downloadRound fd handle size d) now := by
  unfold downloadRound
  by_cases ho : d.numReq = 0 ∧ d.maxReq = 0
  · rw [if_pos ho]
    intro hs
    rw [append_nil]
    exact ⟨h hs.left, .inl ho.2⟩
  · rw [if_neg ho]
    refine .bind (.interrupted fun stopped => ?_)
    have hSeen : stopped = true → ¬ Uninterrupted (past ++ [⟨.interrupted, stopped⟩]) := by
      rintro rfl hn
      exact hn (by simp)
    by_cases hb : stopped = true ∧ d.numReq = 0
    · rw [if_pos hb]
      intro hs
      exact ⟨(h hs.left).ask stopped, .inr (hSeen hb.1)⟩
    · rw [if_neg hb]
      generalize hNext : (if stopped = true then { d with maxReq := 0 } else d) = next
      have hr : next.maxReq - next.numReq = 0 ∨ next.numReq + (next.maxReq - next.numReq) ≤ next.maxReq := by omega
      refine .bind ((gives_sendReads hStart hSpace hSame hr).mono ?_)
      intro sent later trace hSent
      refine .bind ((gives_receive start hSpace hCount hCap hSent.same).mono ?_)
      rintro last final rest ⟨hFinal, hRecv⟩
      refine ⟨hFinal, fun hs => ?_⟩
      have hf := ((h hs.left).ask stopped).stop stopped hSeen
      rw [hNext] at hf
      have hSnd := hf.advance hSent hs.right.right.left
      have ht := hSnd.advance (hRecv hs.right.right.right.left) hs.right.right.right.left
      simpa using ht

lemma gives_downloadLoop (hb : 0 < conn.transferBuflen ∧ conn.transferBuflen ≤ cap) (rounds : Nat) :
    Gives (fun next later trace => Serves remote trace → LoopPost remote start cap conn next later trace)
      (Handler.iterate (downloadRound fd handle size) rounds
        ⟨start, start, conn.transferBuflen, 0, 1, [], false, false, false⟩) now := by
  have hf : conn.Same now ∧ (Serves remote [] → LoopInv remote start cap conn
    ⟨start, start, conn.transferBuflen, 0, 1, [], false, false, false⟩ now []) :=
    ⟨hSame, fun _ => ⟨hSame, forall_mem_nil _, (downloading_start hb.1 hb.2).weaken False.elim⟩⟩
  exact .iterate (fun d later past => conn.Same later ∧
    (Serves remote past → LoopInv remote start cap conn d later past))
    (fun d later past hInv => gives_downloadRound hStart hSpace hCount hCap hInv.1 hInv.2) rounds hf

end Loop

/-! The whole download. -/

def Leaves : Call → Prop
  | .open .. | .store .. | .ftruncate .. => False
  | _ => True

lemma fileAfter_of_leaves (h : ∀ event ∈ trace, Leaves event.request) (file : Bytes) :
    fileAfter file trace = file ∧ arrivals trace = [] := by
  induction trace generalizing file with
  | nil => exact ⟨rfl, rfl⟩
  | cons event trace ih =>
    have hh := h event mem_cons_self
    have ht := ih (fun later hl => h later (.tail _ hl)) file
    obtain ⟨call, answer⟩ := event
    cases call with
    | store fd offset data => exact hh.elim
    | «open» path flags mode => exact hh.elim
    | ftruncate fd size => exact hh.elim
    | _ => exact ht

@[simp] lemma fileAfter_append (file : Bytes) (trace later : Events) :
    fileAfter file (trace ++ later) = fileAfter (fileAfter file trace) later :=
  foldl_append

lemma leaves_doClose (handle : Bytes) : Within Leaves (doClose handle) :=
  .doClose (fun _ => trivial) fun _ => trivial

/-- The end of a download: the file is cut after an error or an interrupt. -/
structure Closed (d : Download) (status : Int) (trace : Events) (cut : Bool) : Prop where
  file : (∀ fd size, (⟨.ftruncate fd size, false⟩ : Event Call Answer) ∉ trace) → ∀ file,
    fileAfter file trace = if cut then Holes.truncate 0 file d.highwater else file
  arrivals : arrivals trace = []
  error : (d.readError || d.writeError) = true → cut = true ∧ status ≠ 0
  why : cut = true → (d.readError || d.writeError) = true ∨ ¬ Uninterrupted trace

section Close

variable {fd : Nat} {handle localPath : Bytes} {a : Attrib} {mode : Nat} {preserve fsync : Bool} {d : Download}

lemma leaves_preserveAttrib : Within Leaves (preserveAttrib fd localPath a mode) :=
  .bind (.ask trivial) fun _ =>
    .optionally (.bind (.ask trivial) fun _ => .pure ())

lemma gives_downloadStatus (conn : Conn) :
    Gives (fun status _ trace => (∀ event ∈ trace, Leaves event.request) ∧
      ((d.readError || d.writeError) = true → status ≠ 0))
      (downloadStatus fd handle localPath a mode preserve fsync d) conn := by
  have he : ∀ (result : Int), result ≠ 0 → Gives (fun status _ trace => (∀ event ∈ trace, Leaves event.request) ∧
    ((d.readError || d.writeError) = true → status ≠ 0)) (do let _ ← doClose handle; return result) conn := by
    intro result hRes
    refine .bind (((leaves_doClose handle).events conn).mono ?_)
    rintro closed next trace ⟨-, ht⟩
    show (∀ event ∈ trace ++ [], Leaves event.request) ∧ _
    rw [append_nil]
    exact ⟨ht, fun _ => hRes⟩
  unfold downloadStatus
  split_ifs with hr hw
  · exact he _ (by decide)
  · exact he _ (by decide)
  · refine Gives.mono (Within.events (?_ : Within Leaves _) conn) ?_
    · refine .bind (leaves_doClose handle) fun closed => ?_
      refine .bind (.ite (.ask trivial) (.pure true)) fun failed => ?_
      refine .bind (.optionally leaves_preserveAttrib) fun _ => ?_
      refine .bind (.optionally (.bind (.ask trivial) fun _ => .pure ())) fun _ => ?_
      exact .pure _
    · rintro status next trace ⟨-, ht⟩
      exact ⟨ht, fun he => by simp [hr, hw] at he⟩

lemma gives_closeDownload (conn : Conn) : Gives (fun status _ trace => ∃ cut, Closed d status trace cut)
    (closeDownload fd handle localPath a mode preserve fsync d) conn := by
  -- The flag is looked at only when there was no error.
  have hCut : Gives (fun (cut : Bool) _ trace => (∀ event ∈ trace, Leaves event.request) ∧
    ((d.readError || d.writeError) = true → cut = true) ∧
    (cut = true → (d.readError || d.writeError) = true ∨ ¬ Uninterrupted trace))
    (if d.readError || d.writeError then pure true else interrupted) conn := by
    split_ifs with he
    · exact ⟨fun _ hEvent => (nomatch hEvent), fun _ => rfl, fun _ => .inl he⟩
    · refine .interrupted fun stopped =>
        ⟨forall_mem_singleton.2 trivial, fun h => absurd h he, ?_⟩
      rintro rfl
      exact .inr fun hn => hn (by simp)
  refine .bind (hCut.mono ?_)
  rintro cut next asked ⟨hAsked, he, hWhy⟩
  -- What is called for the cut.
  have ht : Gives (fun _ _ trace => arrivals trace = [] ∧
    ((∀ fd size, (⟨.ftruncate fd size, false⟩ : Event Call Answer) ∉ trace) →
      ∀ file, fileAfter file trace = if cut then Holes.truncate 0 file d.highwater else file))
      (optionally cut do let _ ← ask (.ftruncate fd d.highwater); return) next := by
    cases cut with
    | false => exact ⟨rfl, fun _ _ => rfl⟩
    | true =>
      refine .bind (.ask fun answer => ⟨rfl, fun hg file => ?_⟩)
      cases answer with
      | false => exact absurd (by simp) (hg fd d.highwater)
      | true => rfl
  refine .bind (ht.mono ?_)
  rintro - now truncated ⟨hn, hFile⟩
  refine .bind ((gives_downloadStatus now).mono ?_)
  rintro status later finished ⟨hFin, hs⟩
  refine .bind (.closeFd fun closed => ?_)
  have hl : ∀ event ∈ ([⟨.close fd, closed⟩] ++ [] : Events), Leaves event.request :=
    forall_mem_singleton.2 trivial
  refine ⟨cut, ?_, ?_, fun h => ⟨he h, hs h⟩, fun h => (hWhy h).imp_right fun hSeen hNo => hSeen hNo.left⟩
  · intro hg file
    have hg : ∀ fd size, (⟨.ftruncate fd size, false⟩ : Event Call Answer) ∉ truncated := fun fd size hMem =>
      hg fd size (mem_append_right _ (mem_append_left _ hMem))
    rw [fileAfter_append, fileAfter_append, fileAfter_append, (fileAfter_of_leaves hAsked _).1, hFile hg,
      (fileAfter_of_leaves hFin _).1, (fileAfter_of_leaves hl _).1]
  · rw [arrivals_append, arrivals_append, arrivals_append, (fileAfter_of_leaves hAsked []).2, hn,
      (fileAfter_of_leaves hFin []).2, (fileAfter_of_leaves hl []).2]
    rfl

end Close

/-! The theorem. -/

/-- A download is put together right: a success without an interrupt makes the local file the
remote one, and any other end leaves a part of it from the start. -/
structure Reassembled (remote file : Bytes) (status : Int) (trace : Events) : Prop where
  whole : status = 0 → Uninterrupted trace → fileAfter file trace = remote
  part : status ≠ 0 ∨ ¬ Uninterrupted trace → fileAfter file trace <+: remote

lemma reassembled_untouched (hFile : fileAfter file trace <+: remote)
    (hn : arrivals trace = []) (start : Nat) :
    Reassembled remote file (-1) trace ↔ NoneLost start (arrivals trace) := by
  rw [hn]
  exact iff_of_true ⟨fun h => absurd h (by decide), fun _ => hFile⟩ (noneLost_of_all_whole rfl)

/-- What the loop and the end of a download make of the local file. -/
lemma reassembled_iff {cap : Nat} {later : Conn} {d : Download} {status : Int}
    {lead rest : Events} {cut : Bool} (hLoop : LoopPost remote start cap conn d later trace)
    (hc : Closed d status rest cut) (hd : d.requests = []) (hn : arrivals lead = [])
    (hFile : fileAfter file lead <+: remote) (hStart : (fileAfter file lead).length = start)
    (hCut : ∀ fd size, (⟨.ftruncate fd size, false⟩ : Event Call Answer) ∉ lead ++ (trace ++ rest)) :
    Reassembled remote file status (lead ++ (trace ++ rest)) ↔
      NoneLost start (arrivals (lead ++ (trace ++ rest))) := by
  obtain ⟨⟨-, hCalls, hk⟩, ho⟩ := hLoop
  have hArrivals : arrivals (lead ++ (trace ++ rest)) = arrivals trace := by
    rw [arrivals_append, arrivals_append, hn, hc.arrivals, append_nil]
    rfl
  have hAfter : fileAfter file (lead ++ (trace ++ rest)) =
    if cut then Holes.truncate 0 ((arrivals trace).foldl Arrival.put (fileAfter file lead)) d.highwater
    else (arrivals trace).foldl Arrival.put (fileAfter file lead) := by
    rw [fileAfter_append, fileAfter_append, fileAfter_of_loopCall hCalls]
    exact hc.file (fun fd size hMem => hCut fd size (mem_append_right _ (mem_append_right _ hMem))) _
  have hu : Uninterrupted (lead ++ (trace ++ rest)) → Uninterrupted trace ∧ Uninterrupted rest :=
    fun h => ⟨fun hMem => h (mem_append_right _ (mem_append_left _ hMem)),
      fun hMem => h (mem_append_right _ (mem_append_right _ hMem))⟩
  rw [hArrivals]
  cases he : d.readError || d.writeError with
  | true =>
    obtain ⟨rfl, hStat⟩ := hc.error he
    rw [if_pos rfl] at hAfter
    rw [← hk.cut_iff hFile hStart, ← hAfter]
    exact ⟨fun h => h.part (.inl hStat), fun h => ⟨fun hz => absurd hz hStat, fun _ => h⟩⟩
  | false =>
    obtain ⟨hr, hw⟩ := Bool.or_eq_false_iff.1 he
    have hl : NoneLost start (arrivals trace) := noneLost_of_all_whole (hk.failing ▸ hw)
    refine iff_of_true ⟨fun hz hQuiet => ?_, fun _ => ?_⟩ hl
    · obtain ⟨hq, hQuietEnd⟩ := hu hQuiet
      have hWhole : cut = false := by
        by_contra hCut
        rcases hc.why (by simpa using hCut) with hBad | hs
        · rw [he] at hBad
          cases hBad
        · exact hs hQuietEnd
      rw [hAfter, hWhole, if_neg nofun]
      exact hk.whole hFile hStart hd (ho.resolve_right fun hs => hs hq) hr hw
        fun hs => hs hq
    · rw [hAfter]
      cases cut with
      | true => exact (hk.cut_iff hFile hStart).2 hl
      | false => exact (hk.uncut hFile hStart hd hr hw).1

lemma gives_startOffset {fd size : Nat} {resume : Bool} :
    Gives (fun found next trace => next = conn ∧ (∀ event ∈ trace, Leaves event.request) ∧
      ∀ start, found = some start → (resume = false ∧ start = 0) ∨
        (resume = true ∧ ∃ st : Stat, trace = [⟨.fstat fd, some st⟩] ∧ 0 ≤ st.size ∧ start = st.size.toNat))
      (startOffset fd size resume) conn := by
  cases resume with
  | false =>
    refine ⟨rfl, fun _ he => (nomatch he), fun start hStart => .inl ⟨rfl, ?_⟩⟩
    cases hStart
    rfl
  | true =>
    refine .bind (.ask fun answer => ?_)
    have hc : ∀ event ∈ ([⟨.fstat fd, answer⟩] ++ [] : Events), Leaves event.request :=
      forall_mem_singleton.2 trivial
    cases answer with
    | none => exact ⟨rfl, hc, fun _ hStart => (nomatch hStart)⟩
    | some st =>
      dsimp only
      split_ifs with hNeg hLarge
      · exact ⟨rfl, hc, fun _ hStart => (nomatch hStart)⟩
      · exact ⟨rfl, hc, fun _ hStart => (nomatch hStart)⟩
      · refine ⟨rfl, hc, fun start hStart => .inr ⟨rfl, st, rfl, by omega, ?_⟩⟩
        cases hStart
        rfl

section Whole

variable {remote file : Bytes} {conn : Conn} {resume : Bool}

lemma gives_downloadHandle (hFile : file = [] ∨ (resume = true ∧ file <+: remote))
    (hSpace : remote.length + (conn.numRequests + 1) * max conn.transferBuflen minReadSize < 2 ^ 64)
    (hCount : conn.numRequests + 1 < 2 ^ 32) (hb : 0 < conn.transferBuflen) (rounds : Nat)
    (handle localPath : Bytes) (a : Attrib) (preserve fsync : Bool) {now : Conn} (hSame : conn.Same now) {lead : Events}
    (hLead : ∀ event ∈ lead, Leaves event.request) :
    Gives (fun status _ trace => Serves remote (lead ++ trace) → LocalAnswers file (lead ++ trace) →
      (Reassembled remote file status (lead ++ trace) ↔ NoneLost file.length (arrivals (lead ++ trace))))
      (downloadHandle rounds conn.transferBuflen handle localPath a preserve resume fsync) now := by
  obtain ⟨hl, hLeadNone⟩ := fileAfter_of_leaves hLead file
  have hp : file <+: remote := hFile.elim (fun h => h ▸ nil_prefix) And.right
  -- Calls that do not change the file, between the open and the loop or in its place.
  have hk : ∀ first rest : Events, fileAfter file first = file → arrivals first = [] →
    (∀ event ∈ rest, Leaves event.request) →
    (Reassembled remote file (-1) (lead ++ (first ++ rest)) ↔
      NoneLost file.length (arrivals (lead ++ (first ++ rest)))) := by
    intro first rest hf hn hRest
    refine reassembled_untouched ?_ ?_ _
    · rw [fileAfter_append, fileAfter_append, hl, hf, (fileAfter_of_leaves hRest file).1]
      exact hp
    · rw [arrivals_append, arrivals_append, hLeadNone, hn, (fileAfter_of_leaves hRest []).2]
      rfl
  refine .bind (.ask fun answer => ?_)
  cases answer with
  | none =>
    refine .bind (((leaves_doClose handle).events now).mono ?_)
    rintro closed later trace ⟨-, ht⟩ - -
    exact hk _ _ rfl rfl (forall_mem_append.2 ⟨ht, forall_mem_nil _⟩)
  | some fd =>
    have ho : ∀ mode, fileAfter file [⟨.open localPath (oWronly ||| oCreat ||| if resume then 0 else oTrunc) mode,
      some fd⟩] = file := by
      intro mode
      cases resume with
      | false => exact (hFile.resolve_right fun h => Bool.false_ne_true h.1).symm
      | true => rfl
    refine .bind (gives_startOffset.mono ?_)
    rintro found later trace ⟨rfl, ht, hFound⟩
    obtain ⟨hTraceFile, hTraceNone⟩ := fileAfter_of_leaves ht file
    cases found with
    | none =>
      refine .bind (((leaves_doClose handle).events later).mono ?_)
      rintro closed next talk ⟨-, hTalk⟩
      refine .bind (.closeFd fun last => ?_)
      intro _ _
      refine hk _ _ (ho _) rfl (forall_mem_append.2 ⟨ht, forall_mem_append.2 ⟨hTalk, ?_⟩⟩)
      exact forall_mem_singleton.2 trivial
    | some start =>
      by_cases hStart : start = file.length
      · have hShort : start ≤ remote.length := hStart ▸ hp.length_le
        refine .bind ((gives_downloadLoop hShort hSpace hCount (Nat.le_max_right _ _) hSame
          ⟨hb, Nat.le_max_left _ _⟩ rounds).mono ?_)
        intro d next loop hLoop
        by_cases hd : d.requests = []
        · rw [if_neg (not_not.2 hd)]
          refine (gives_closeDownload next).mono ?_
          rintro status final rest ⟨cut, hc⟩
          rw [← append_assoc _ trace, ← append_assoc lead]
          intro hs hLocal
          have hPre : ∀ first : Events, fileAfter file first = file → arrivals first = [] →
            fileAfter file (lead ++ (first ++ trace)) = file ∧ arrivals (lead ++ (first ++ trace)) = [] := by
            intro first hf hn
            rw [fileAfter_append, fileAfter_append, hl, hf, hTraceFile, arrivals_append, arrivals_append,
              hLeadNone, hn, hTraceNone]
            exact ⟨rfl, rfl⟩
          obtain ⟨hLeadAfter, hLeadArrivals⟩ := hPre _ (ho _) rfl
          rw [← hStart]
          exact reassembled_iff (hLoop hs.right.left) hc hd hLeadArrivals (hLeadAfter.symm ▸ hp)
            (hLeadAfter.symm ▸ hStart.symm) hLocal.cut
        · rw [if_pos hd]
          trivial
      · refine .of_forall fun status next rest _ hLocal => absurd ?_ hStart
        rcases hFound start rfl with ⟨hr, rfl⟩ | ⟨-, st, rfl, hPos, rfl⟩
        · have he : file = [] := hFile.resolve_right fun h => by simp [hr] at h
          rw [he]
          rfl
        · have hSize := hLocal.size (lead ++ [_]) rest fd st (append_assoc lead [_] _).symm
          rw [fileAfter_append, hl, ho] at hSize
          omega

lemma gives_doDownload (hFile : file = [] ∨ (resume = true ∧ file <+: remote))
    (hSpace : remote.length + (conn.numRequests + 1) * max conn.transferBuflen minReadSize < 2 ^ 64)
    (hCount : conn.numRequests + 1 < 2 ^ 32) (hb : 0 < conn.transferBuflen) (rounds : Nat)
    (remotePath localPath : Bytes) (a : Option Attrib) (preserve fsync : Bool) :
    Gives (fun status _ trace => Serves remote trace → LocalAnswers file trace →
      (Reassembled remote file status trace ↔ NoneLost file.length (arrivals trace)))
      (doDownload rounds remotePath localPath a preserve resume fsync) conn := by
  have hp : file <+: remote := hFile.elim (fun h => h ▸ nil_prefix) And.right
  have hk : ∀ trace : Events, (∀ event ∈ trace, Leaves event.request) →
    (Reassembled remote file (-1) (trace ++ []) ↔ NoneLost file.length (arrivals (trace ++ []))) := by
    intro trace ht
    obtain ⟨hAfter, hn⟩ := fileAfter_of_leaves ht file
    rw [append_nil]
    exact reassembled_untouched (hAfter.symm ▸ hp) hn _
  have hs : Within Leaves (givenOrStat a remotePath) := .givenOrStat (fun _ _ => trivial) fun _ => trivial
  have hr : Within Leaves (openRemote remotePath fxfRead attribClear) :=
    .openRemote (fun _ => trivial) fun _ => trivial
  refine .bind ((hs.events conn).mono ?_)
  rintro found now asked ⟨hNow, hAsked⟩
  cases found with
  | none => exact fun _ _ => hk asked hAsked
  | some a =>
    dsimp only
    split_ifs with hRegular
    · exact fun _ _ => hk asked hAsked
    · refine .bind (.get (.bind ((hr.events now).mono ?_)))
      rintro ⟨id, handle⟩ next talk ⟨hNext, hTalk⟩
      have hl := forall_mem_append.2 ⟨hAsked, hTalk⟩
      cases handle with
      | none =>
        intro _ _
        have hd := hk _ hl
        rwa [append_assoc] at hd
      | some handle =>
        have hSame := hNow.trans hNext
        rw [hNow.2]
        refine (gives_downloadHandle hFile hSpace hCount hb rounds handle localPath a preserve fsync hSame
          hl).mono ?_
        intro status last trace hd
        rwa [append_assoc] at hd

end Whole

/-- A download is put together right exactly if no write fails in vain. -/
theorem download_reassembled_iff {remote file : Bytes} {conn last : Conn} {resume : Bool} {rounds : Nat}
    {remotePath localPath : Bytes} {a : Option Attrib} {preserve fsync : Bool} {env : Env Call Answer} {status : Int}
    {trace : Events} (hBuflen : 0 < conn.transferBuflen) (hCount : conn.numRequests + 1 < 2 ^ 32)
    (hSpace : remote.length + (conn.numRequests + 1) * max conn.transferBuflen minReadSize < 2 ^ 64)
    (hFile : file = [] ∨ (resume = true ∧ file <+: remote))
    (hRun : Prog.run env (doDownload rounds remotePath localPath a preserve resume fsync conn) =
      (.ok (status, last), trace)) (hServes : Serves remote trace) (hLocal : LocalAnswers file trace) :
    Reassembled remote file status trace ↔ NoneLost file.length (arrivals trace) := by
  have hGives := gives_doDownload hFile hSpace hCount hBuflen rounds remotePath localPath a preserve fsync
  have hResult := Prog.Meets.result hGives env (congrArg Prod.fst hRun)
  rw [hRun] at hResult
  exact hResult hServes hLocal

def sixBytes : Bytes := text "abcdef"

def byTwo : Conn := ⟨2, 16, 3, 1, false⟩

/-- The answers to the first three requests, the third before the second. -/
def overtaking (stores : List Stored) (rest : List Bytes) : Script where
  msgs := [handleMsg 1 [7], dataMsg 2 (text "ab"), dataMsg 4 (text "ef"), dataMsg 3 (text "cd")] ++ rest
  stores := stores

def overtaken (stores : List Stored) (rest : List Bytes) : Except Stop (Int × Conn) × Events :=
  Prog.run (overtaking stores rest).env
    (doDownload 9 (text "/r") (text "l") (some attribClear) false false false byTwo)

def sized : Event Call Answer → Bool
  | ⟨.fstat _, _⟩ => false
  | ⟨.ftruncate _ _, answer⟩ => answer
  | _ => true

lemma localAnswers_of_sized (h : trace.all sized = true) : LocalAnswers file trace where
  size := by
    intro before after fd st ht
    have hMem : (⟨.fstat fd, some st⟩ : Event Call Answer) ∈ trace := ht ▸ mem_append_right _ mem_cons_self
    exact absurd (all_eq_true.1 h _ hMem) Bool.false_ne_true
  cut := by
    intro fd size hMem
    exact absurd (all_eq_true.1 h _ hMem) Bool.false_ne_true

/-- The four requests behind the end of the file are answered before the handle is closed. -/
def fourEnds : List Bytes := [statusMsg 5 1, statusMsg 6 1, statusMsg 7 1, statusMsg 8 1, statusMsg 9 0]

theorem download_reassembled_overtaken : ∃ last, (overtaken [] fourEnds).1 = .ok (0, last) ∧
    Reassembled sixBytes [] 0 (overtaken [] fourEnds).2 := by
  obtain ⟨last, hRun⟩ : ∃ last, (overtaken [] fourEnds).1 = .ok (0, last) := returns_of_status (by decide +kernel)
  refine ⟨last, hRun, ?_⟩
  have hServes : Serves sixBytes (overtaken [] fourEnds).2 := by
    unfold Serves
    decide +kernel
  have hLocal : LocalAnswers [] (overtaken [] fourEnds).2 := localAnswers_of_sized (by decide +kernel)
  have hBuflen : 0 < byTwo.transferBuflen := by decide
  have hCount : byTwo.numRequests + 1 < 2 ^ 32 := by decide
  have hSpace : sixBytes.length + (byTwo.numRequests + 1) * max byTwo.transferBuflen minReadSize < 2 ^ 64 := by
    decide +kernel
  refine (download_reassembled_iff hBuflen hCount hSpace (.inl rfl) (Prod.ext hRun rfl) hServes hLocal).2 ?_
  exact noneLost_of_all_whole (by decide +kernel)

/-- The disk is full when the third piece comes, and still when the second does: the file is
cut behind a hole. -/
theorem download_keeps_hole : ∃ last,
    (overtaken [.whole, .failed 0, .failed 0] [statusMsg 5 0]).1 = .ok (4, last) ∧
    Serves sixBytes (overtaken [.whole, .failed 0, .failed 0] [statusMsg 5 0]).2 ∧
    LocalAnswers [] (overtaken [.whole, .failed 0, .failed 0] [statusMsg 5 0]).2 ∧
    ¬ Reassembled sixBytes [] 4 (overtaken [.whole, .failed 0, .failed 0] [statusMsg 5 0]).2 := by
  obtain ⟨last, hRun⟩ : ∃ last, (overtaken [.whole, .failed 0, .failed 0] [statusMsg 5 0]).1 = .ok (4, last) :=
    returns_of_status (by decide +kernel)
  refine ⟨last, hRun, ?_, localAnswers_of_sized (by decide +kernel), fun h => ?_⟩
  · unfold Serves
    decide +kernel
  · exact absurd (h.part (.inl (by decide))) (by decide +kernel)

end SftpClient
