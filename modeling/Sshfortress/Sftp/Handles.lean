import Sshfortress.Base.FreeList
import Sshfortress.Base.Transition
import Sshfortress.Sftp.Server

/-! The handle table of the SFTP server under any sequence of openings and closings. Its
unused slots are threaded through the table; a client names a slot by four bytes. -/
namespace Sftp
open Base Base.Wire Base.Transition Base.FreeList List

/-- What a handle stands for as long as it is open. -/
structure Entry where
  isDir : Bool
  name : Bytes
  (fd flags dirp : Nat)
  deriving DecidableEq

def Entry.use (entry : Entry) : HandleUse := if entry.isDir then .dir else .file

def Entry.holds (entry : Entry) (h : Handle) : Prop :=
  h.use = entry.use ∧ h.name = entry.name ∧ h.fd = entry.fd ∧ h.flags = entry.flags ∧ h.dirp = entry.dirp

inductive TableCall where
  | new (entry : Entry)
  | close (handle : Nat)
  deriving DecidableEq

inductive TableEvent where
  | opened (handle : Nat) (entry : Entry)
  | refused
  | closed (handle : Nat)
  | notFound
  deriving DecidableEq

namespace Server

def handleClose (s : Server) (handle : Nat) : Option Server :=
  if (s.handleIsOk handle .file).isSome then some (s.handleUnused handle)
  else if (s.handleIsOk handle .dir).isSome then some (s.handleUnused handle)
  else none

/-- The number of a new slot is converted to `int`. From `2 ^ 31` on that is negative, and
the slot is written in front of the table. -/
def growsOutside (s : Server) : Bool :=
  s.firstUnusedHandle.isNone && 2 ^ 31 ≤ s.handles.length && s.handles.length + 1 < 2 ^ 32

end Server

def tableStep (s : Server) : TableCall → Except Stop (Server × List TableEvent)
  | .new entry =>
    if s.growsOutside then .error .crash
    else
      match s.handleNew entry.use entry.name entry.fd entry.flags entry.dirp with
      | (some handle, next) => .ok (next, [.opened handle entry])
      | (none, next) => .ok (next, [.refused])
  | .close handle =>
    match s.handleClose handle with
    | some next => .ok (next, [.closed handle])
    | none => .ok (s, [.notFound])

/-! What is open, said by what has happened. -/

def TableEvent.apply (standing : Nat → Option Entry) : TableEvent → Nat → Option Entry
  | .opened handle entry => Function.update standing handle (some entry)
  | .closed handle => Function.update standing handle none
  | .refused | .notFound => standing

def live (events : List TableEvent) : Nat → Option Entry :=
  events.foldl TableEvent.apply fun _ => none

@[simp] lemma live_nil (handle : Nat) : live [] handle = none := rfl

lemma live_append_singleton (past : List TableEvent) (event : TableEvent) :
    live (past ++ [event]) = event.apply (live past) := by simp [live]

def Handle.Unused (h : Handle) : Prop := h.use = .unused

def Table (s : Server) : Prop :=
  Threaded Handle.nextUnused Handle.Unused s.handles s.firstUnusedHandle

/-- Each slot holds what was opened under its number, and the others are unused. -/
def Agrees (s : Server) (standing : Nat → Option Entry) : Prop :=
  ∀ i, match standing i with
    | some entry => ∃ h, s.handles[i]? = some h ∧ entry.holds h
    | none => ∀ h, s.handles[i]? = some h → h.Unused

lemma Entry.use_ne (entry : Entry) : entry.use ≠ .unused := by
  rw [Entry.use]
  split <;> simp

/-! The operations. -/

variable {s next : Server} {past events : List TableEvent} {i : Nat} {call : TableCall}
  {entry : Entry} {h : Handle} {size : Nat}

lemma handleUnused_eq (hs : s.handles[i]? = some h) : s.handleUnused i = { s with
      handles := s.handles.set i { h with use := .unused, nextUnused := s.firstUnusedHandle }
      firstUnusedHandle := some i } := by
  rw [Server.handleUnused, modify_eq_set_getElem? _ _ _, hs]
  rfl

lemma handleUnused_table (ht : Table s) (hs : s.handles[i]? = some h) (hu : h.use ≠ .unused) :
    Table (s.handleUnused i) := by
  rw [handleUnused_eq hs]
  exact ht.push hs hu rfl rfl

lemma handleGrow_eq (hn : s.firstUnusedHandle = none) (hs : s.handles.length + 1 < 2 ^ 32) :
    s.handleGrow = some { s with
      handles := s.handles ++ [Handle.blank]
      firstUnusedHandle := some s.handles.length } := by
  have hw : ¬ (s.handles.length + 1) % 2 ^ 32 ≤ s.handles.length := by
    omega
  have hNew : ({ s with handles := s.handles ++ [Handle.blank] } : Server).handles[s.handles.length]? =
    some Handle.blank := getElem?_concat_length
  rw [Server.handleGrow, if_neg (by simp [hn]), if_neg hw]
  dsimp only
  rw [handleUnused_eq hNew]
  simp [hn, Handle.blank]

lemma handleGrow_spec (ht : Table s) :
    s.handleGrow = none ∧ s.firstUnusedHandle = none ∧ 2 ^ 32 ≤ s.handles.length + 1 ∨
      ∃ grown i, s.handleGrow = some grown ∧ grown.firstUnusedHandle = some i ∧ Table grown ∧
        (grown.handles = s.handles ∨ s.firstUnusedHandle = none ∧ i = s.handles.length ∧
          ∃ h : Handle, h.Unused ∧ h.nextUnused = none ∧ grown.handles = s.handles ++ [h]) := by
  cases hf : s.firstUnusedHandle with
  | some i => exact .inr ⟨s, i, by simp [Server.handleGrow, hf], hf, ht, .inl rfl⟩
  | none =>
    by_cases hs : s.handles.length + 1 < 2 ^ 32
    · refine .inr ⟨_, s.handles.length, handleGrow_eq hf hs, rfl, ?_,
        .inr ⟨rfl, rfl, Handle.blank, rfl, rfl, rfl⟩⟩
      rw [Table, hf] at ht
      exact ht.grow rfl rfl
    · refine .inl ⟨?_, rfl, by omega⟩
      have hw : (s.handles.length + 1) % 2 ^ 32 ≤ s.handles.length := by
        rcases Nat.lt_or_eq_of_le (Nat.not_lt.1 hs) with hMore | hEq
        · have hMod := Nat.mod_lt (s.handles.length + 1) (show 0 < 2 ^ 32 by decide)
          omega
        · rw [← hEq, Nat.mod_self]
          exact Nat.zero_le _
      rw [Server.handleGrow, if_neg (by simp [hf]), if_pos hw]

lemma handleNew_spec (hTable : Table s) (entry : Entry) :
    s.handleNew entry.use entry.name entry.fd entry.flags entry.dirp = (none, s) ∧
      s.firstUnusedHandle = none ∧ 2 ^ 32 ≤ s.handles.length + 1 ∨
      ∃ i next, s.handleNew entry.use entry.name entry.fd entry.flags entry.dirp = (some i, next) ∧
        Table next ∧ (∀ h, s.handles[i]? = some h → h.Unused) ∧
        (∃ h, next.handles[i]? = some h ∧ entry.holds h) ∧
        (∀ j, j ≠ i → next.handles[j]? = s.handles[j]?) ∧ (next.handles.length = s.handles.length ∨
          s.firstUnusedHandle = none ∧ next.handles.length = s.handles.length + 1) := by
  rcases handleGrow_spec hTable with ⟨hn, hf, hFull⟩ | ⟨grown, i, hGrow, hf, hg, hSlots⟩
  · exact .inl ⟨by simp [Server.handleNew, hn], hf, hFull⟩
  have ht := hg
  rw [Table, hf] at ht
  obtain ⟨slot, hSlot, hu, hTaken⟩ := ht.pop
  have hb := (List.getElem?_eq_some_iff.1 hSlot).1
  refine .inr ⟨i, { grown with
    firstUnusedHandle := slot.nextUnused
    handles := grown.handles.set i { slot with
      use := entry.use
      dirp := entry.dirp
      fd := entry.fd
      flags := entry.flags
      name := entry.name
      bytesRead := 0
      bytesWrite := 0 } }, ?_, hTaken _ entry.use_ne, ?_, ?_, ?_, ?_⟩
  · simp [Server.handleNew, hGrow, hf, hSlot]
  · intro h hOld
    rcases hSlots with hs | ⟨-, rfl, -⟩
    · rw [hs, hOld] at hSlot
      cases hSlot
      exact hu
    · rw [getElem?_eq_none (Nat.le_refl _)] at hOld
      cases hOld
  · exact ⟨_, getElem?_set_self hb, rfl, rfl, rfl, rfl, rfl⟩
  · intro j hNe
    rw [getElem?_set_ne hNe.symm]
    rcases hSlots with hs | ⟨-, rfl, h, -, -, hs⟩
    · rw [hs]
    · rw [hs, getElem?_append]
      split
      · rfl
      · rw [getElem?_eq_none (by simp; omega), getElem?_eq_none (by omega)]
  · rcases hSlots with hs | ⟨hn, -, h, -, -, hs⟩
    · exact .inl (by simp [hs])
    · exact .inr ⟨hn, by simp [hs]⟩

lemma handleClose_spec (s : Server) (handle : Nat) : s.handleClose handle = none ∧
    (∀ h, s.handles[handle]? = some h → handle < 2 ^ 31 → h.Unused) ∨
      ∃ h, s.handles[handle]? = some h ∧ h.use ≠ .unused ∧
        s.handleClose handle = some (s.handleUnused handle) := by
  rw [Server.handleClose]
  split_ifs with hf hDir
  · obtain ⟨h, hOk⟩ := Option.isSome_iff_exists.1 hf
    obtain ⟨-, hs, hUse⟩ := handleIsOk_eq_some.1 hOk
    exact .inr ⟨h, hs, by simp [hUse], rfl⟩
  · obtain ⟨h, hOk⟩ := Option.isSome_iff_exists.1 hDir
    obtain ⟨-, hs, hUse⟩ := handleIsOk_eq_some.1 hOk
    exact .inr ⟨h, hs, by simp [hUse], rfl⟩
  · refine .inl ⟨rfl, fun h hs hSmall => ?_⟩
    have hNot : ∀ use, ¬ (s.handleIsOk handle use).isSome = true → h.use ≠ use := by
      intro use hn hUse
      exact hn (Option.isSome_iff_exists.2 ⟨h, handleIsOk_eq_some.2 ⟨hSmall, hs, hUse⟩⟩)
    cases hUse : h.use with
    | unused => exact hUse
    | dir => exact absurd hUse (hNot _ hDir)
    | file => exact absurd hUse (hNot _ hf)

/-! Whole sequences. -/

/-- A slot is only added below `2 ^ 31`. -/
def GrowsInside (s : Server) : TableCall → Prop
  | .new _ => s.growsOutside = false
  | .close _ => True

instance (s : Server) : (call : TableCall) → Decidable (GrowsInside s call)
  | .new _ => inferInstanceAs (Decidable (_ = _))
  | .close _ => inferInstanceAs (Decidable True)

/-- The table is threaded, holds what is open, and has a number for each slot. -/
structure TableOk (s : Server) (past : List TableEvent) : Prop where
  table : Table s
  agrees : Agrees s (live past)
  small : s.handles.length ≤ 2 ^ 31

lemma Agrees.update {standing : Nat → Option Entry} {entry : Option Entry} (h : Agrees s standing)
    (hs : ∀ j, j ≠ i → next.handles[j]? = s.handles[j]?) (hSlot : match entry with
      | some entry => ∃ h, next.handles[i]? = some h ∧ entry.holds h
      | none => ∀ h, next.handles[i]? = some h → h.Unused) :
    Agrees next (Function.update standing i entry) := by
  intro j
  by_cases hEq : j = i
  · subst hEq
    rw [Function.update_self]
    exact hSlot
  · rw [Function.update_of_ne hEq, hs j hEq]
    exact h j

lemma TableOk.new (h : TableOk s past) (hi : s.growsOutside = false) (entry : Entry) :
    ∃ i next, tableStep s (.new entry) = .ok (next, [.opened i entry]) ∧
      TableOk next (past ++ [.opened i entry]) ∧ live past i = none := by
  have hSmall := h.small
  have hr : s.firstUnusedHandle = none → s.handles.length < 2 ^ 31 := by
    intro hn
    simp only [Server.growsOutside, hn, Option.isNone_none, Bool.true_and, Bool.and_eq_false_iff,
      decide_eq_false_iff_not] at hi
    omega
  rcases handleNew_spec h.table entry with ⟨-, hn, hFull⟩ | ⟨i, next, hNew, ht, hu, hs, hSame, hLen⟩
  · have hl := hr hn
    omega
  refine ⟨i, next, ?_, ⟨ht, ?_, ?_⟩, ?_⟩
  · rw [tableStep, hi, if_neg nofun, hNew]
  · rw [live_append_singleton]
    exact h.agrees.update hSame hs
  · rcases hLen with hSame | ⟨hn, hMore⟩
    · omega
    · have hl := hr hn
      omega
  · have ha := h.agrees i
    cases hLive : live past i with
    | none => rfl
    | some standing =>
      rw [hLive] at ha
      obtain ⟨slot, hs, hh⟩ := ha
      have hUse : slot.use = .unused := hu slot hs
      rw [hh.1] at hUse
      exact absurd hUse standing.use_ne

lemma TableOk.close (h : TableOk s past) (handle : Nat) :
    ∃ event next, tableStep s (.close handle) = .ok (next, [event]) ∧ TableOk next (past ++ [event]) ∧
      ∀ i entry, event ≠ .opened i entry := by
  rw [tableStep]
  rcases handleClose_spec s handle with ⟨hn, -⟩ | ⟨slot, hs, hu, hc⟩
  · refine ⟨.notFound, s, by rw [hn], ⟨h.table, ?_, h.small⟩, fun _ _ => nofun⟩
    rw [live_append_singleton]
    exact h.agrees
  · have hb := (List.getElem?_eq_some_iff.1 hs).1
    refine ⟨.closed handle, s.handleUnused handle, by rw [hc],
      ⟨handleUnused_table h.table hs hu, ?_, ?_⟩, fun _ _ => nofun⟩
    · rw [live_append_singleton, handleUnused_eq hs]
      apply h.agrees.update
      · intro j hNe
        exact getElem?_set_ne hNe.symm
      · intro found hf
        rw [getElem?_set_self hb] at hf
        cases hf
        rfl
    · rw [handleUnused_eq hs, length_set]
      exact h.small

/-- A slot is used again only after it was given back. -/
def Fresh (events : List TableEvent) : Prop :=
  ∀ past i entry rest, events = past ++ .opened i entry :: rest → live past i = none

lemma Fresh.append {event : TableEvent} (h : Fresh past)
    (he : ∀ i entry, event = .opened i entry → live past i = none) : Fresh (past ++ [event]) := by
  intro front i entry rest hs
  rcases append_eq_append_iff.1 hs with ⟨middle, rfl, hr⟩ | ⟨middle, rfl, hr⟩
  · cases middle with
    | nil =>
      simp only [nil_append, List.cons.injEq] at hr
      rw [append_nil]
      exact he i entry hr.1
    | cons first later => simp at hr
  · cases middle with
    | nil =>
      simp only [nil_append, List.cons.injEq] at hr
      have hl := he i entry hr.1.symm
      rwa [append_nil] at hl
    | cons first later =>
      obtain ⟨rfl, -⟩ := hr
      exact h front i entry later rfl

lemma tableStep_ok (h : TableOk s past) (hFresh : Fresh past) (hi : GrowsInside s call) :
    ∃ next events, tableStep s call = .ok (next, events) ∧ TableOk next (past ++ events) ∧ Fresh (past ++ events) := by
  cases call with
  | new entry =>
    obtain ⟨i, next, hs, hOk, hFree⟩ := h.new hi entry
    refine ⟨next, _, hs, hOk, hFresh.append ?_⟩
    rintro j found hf
    cases hf
    exact hFree
  | close handle =>
    obtain ⟨event, next, hs, hOk, ho⟩ := h.close handle
    exact ⟨next, _, hs, hOk, hFresh.append fun i entry hf => absurd hf (ho i entry)⟩

lemma initial_tableOk : TableOk Server.initial [] where
  table := .nil
  agrees := by
    intro i h hs
    cases hs
  small := by simp [Server.initial]

lemma TableOk.found (h : TableOk s past) (hl : live past i = some entry) :
    i < 2 ^ 31 ∧ ∃ h, s.handleIsOk i entry.use = some h ∧ entry.holds h := by
  have ha := h.agrees i
  rw [hl] at ha
  obtain ⟨slot, hs, hh⟩ := ha
  have hBound := (List.getElem?_eq_some_iff.1 hs).1
  have hSmall := h.small
  have hNum : i < 2 ^ 31 := by omega
  exact ⟨hNum, slot, handleIsOk_eq_some.2 ⟨hNum, hs, hh.1⟩, hh⟩

lemma TableOk.missing (h : TableOk s past) {use : HandleUse} (hUse : use ≠ .unused)
    (ho : ∀ entry, live past i = some entry → entry.use ≠ use) : s.handleIsOk i use = none := by
  rw [Option.eq_none_iff_forall_ne_some]
  intro slot hOk
  obtain ⟨-, hs, hSame⟩ := handleIsOk_eq_some.1 hOk
  have ha := h.agrees i
  cases hl : live past i with
  | none =>
    rw [hl] at ha
    exact hUse (hSame.symm.trans (ha slot hs))
  | some entry =>
    rw [hl] at ha
    obtain ⟨found, hf, hh⟩ := ha
    rw [hs] at hf
    cases hf
    exact ho entry hl (hh.1.symm.trans hSame)

lemma TableOk.handleToFd (h : TableOk s past) (i : Nat) : s.handleToFd (some i) =
      (live past i).bind fun entry => if entry.isDir then none else some entry.fd := by
  have hm := @TableOk.missing s past i h .file (by decide)
  cases hl : live past i with
  | none => simp [Server.handleToFd, hm, hl]
  | some entry =>
    obtain ⟨-, slot, hOk, hh⟩ := h.found hl
    cases hDir : entry.isDir with
    | true => simp [Server.handleToFd, hDir, hm (by simp [hl, Entry.use, hDir])]
    | false =>
      rw [Entry.use, hDir] at hOk
      simp [Server.handleToFd, hDir, show s.handleIsOk i .file = some slot from hOk, hh.2.2.1]

lemma TableOk.handleToDir (h : TableOk s past) (i : Nat) : s.handleToDir (some i) =
      (live past i).bind fun entry => if entry.isDir then some entry.dirp else none := by
  have hm := @TableOk.missing s past i h .dir (by decide)
  cases hl : live past i with
  | none => simp [Server.handleToDir, hm, hl]
  | some entry =>
    obtain ⟨-, slot, hOk, hh⟩ := h.found hl
    cases hDir : entry.isDir with
    | true =>
      rw [Entry.use, hDir] at hOk
      simp [Server.handleToDir, hDir, show s.handleIsOk i .dir = some slot from hOk, hh.2.2.2.2]
    | false => simp [Server.handleToDir, hDir, hm (by simp [hl, Entry.use, hDir])]

lemma TableOk.handleFromString (h : TableOk s past) {bytes : Bytes} (hLen : bytes.length = 4) :
    s.handleFromString bytes = (live past (value bytes)).map fun _ => value bytes := by
  rw [Server.handleFromString, if_neg (not_not.2 hLen)]
  cases hl : live past (value bytes) with
  | none => simp [h.missing, hl]
  | some entry =>
    obtain ⟨-, slot, hOk, -⟩ := h.found hl
    rw [Entry.use] at hOk
    split at hOk <;> simp [hOk]

/-- A file is opened, a directory, the file is closed twice, a handle is made up, and the
slot of the file is used again. -/
def reusedSlot : List TableCall :=
  [.new ⟨false, text "a", 3, 0, 0⟩, .new ⟨true, text "d", 0, 0, 4⟩, .close 0, .close 0,
    .close (2 ^ 31), .new ⟨false, text "b", 5, 0, 0⟩]

def Full (s : Server) (size : Nat) : Prop := s.firstUnusedHandle = none ∧ s.handles.length = size

lemma Full.new (h : Full s size) (hSmall : size < 2 ^ 31) (entry : Entry) :
    ∃ next events, tableStep s (.new entry) = .ok (next, events) ∧ Full next (size + 1) := by
  obtain ⟨hn, hLen⟩ := h
  have hi : s.growsOutside = false := by
    simp [Server.growsOutside, hLen]
    omega
  have hg := handleGrow_eq hn (by omega)
  refine ⟨_, _, by rw [tableStep, hi, if_neg nofun, Server.handleNew, hg], ?_⟩
  simp [Full, Handle.blank, hLen]

/-- With `2 ^ 31` handles open, one more is written outside the table. -/
lemma Full.overflows {n : Nat} (h : Full s size) (hSize : size ≤ 2 ^ 31) (hCount : size + n = 2 ^ 31 + 1) :
    ∀ out, run tableStep s (List.replicate n (.new entry)) ≠ .ok out := by
  induction n generalizing s size with
  | zero => omega
  | succ n ih =>
    rintro ⟨last, events⟩ hRun
    obtain ⟨next, first, rest, hs, hr, -⟩ := run_cons_eq_ok.1 hRun
    rcases Nat.lt_or_eq_of_le hSize with hSmall | rfl
    · obtain ⟨after, shown, hNew, hf⟩ := h.new hSmall entry
      rw [hNew] at hs
      cases hs
      exact ih hf (by omega) (by omega) _ hr
    · have ho : s.growsOutside = true := by simp [Server.growsOutside, h.1, h.2]
      rw [tableStep, ho, if_pos rfl] at hs
      cases hs


end Sftp
