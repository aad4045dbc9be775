import Sshfortress.Base.FreeList
import Sshfortress.Base.Interaction

/-! The table of sessions. Its unused slots are threaded by their numbers, and the table
grows by one slot when there is none. -/
namespace SessionTable
open Base Base.FreeList List

structure Session where
  used : Bool
  nextUnused : Option Nat
  deriving DecidableEq

/-- The slots that are allocated, and the first unused one. -/
structure Sessions where
  sessions : List Session
  firstUnused : Option Nat
  deriving DecidableEq

/-- What a call finds: whether the directory of the file transfer is mounted, whether the
database can be reached, and what is in memory that was just allocated. -/
structure Site where
  (mounted connects : Bool)
  memory : Session

/-- The record of the unmounting is written over a connection that was not made. -/
def Site.fails (site : Site) : Bool := site.mounted && !site.connects

def sessionUnused (max : Nat) (site : Site) (id : Nat) (s : Sessions) : Except Stop Sessions :=
  if max ≤ id ∨ s.sessions.length ≤ id then .error .fatal
  else if site.fails then .error .crash
  else .ok ⟨s.sessions.set id ⟨false, s.firstUnused⟩, some id⟩

/-- The end of `session_new`, with its two checks. -/
def takeFirst (s : Sessions) : Except Stop (Option Nat × Sessions) :=
  match s.firstUnused.bind fun i => (s.sessions[i]?).map (i, ·) with
  | none => .error .fatal
  | some (i, slot) =>
    if slot.used then .error .fatal
    else .ok (some i, ⟨s.sessions.set i ⟨true, none⟩, slot.nextUnused⟩)

def sessionNew (max : Nat) (site : Site) (s : Sessions) : Except Stop (Option Nat × Sessions) :=
  if s.firstUnused.isNone then
    if max ≤ s.sessions.length then .ok (none, s)
    else do
      takeFirst (← sessionUnused max site s.sessions.length { s with sessions := s.sessions ++ [site.memory] })
  else takeFirst s

/-- The tables that any calls lead to. Only sessions in use are given back. -/
inductive Reachable (max : Nat) : Sessions → Prop where
  | start : Reachable max ⟨[], none⟩
  | new {s t : Sessions} {site : Site} {result : Option Nat} (before : Reachable max s)
      (last : sessionNew max site s = .ok (result, t)) : Reachable max t
  | unused {s t : Sessions} {site : Site} {id : Nat} {slot : Session} (before : Reachable max s)
      (found : s.sessions[id]? = some slot) (live : slot.used = true)
      (last : sessionUnused max site id s = .ok t) : Reachable max t

def Session.Unused (slot : Session) : Prop := slot.used = false

/-- The list of the unused slots is sound, and the table is not too long. -/
def Listed (max : Nat) (s : Sessions) : Prop :=
  Threaded Session.nextUnused Session.Unused s.sessions s.firstUnused ∧ s.sessions.length ≤ max

variable {max id i : Nat} {site : Site} {s t : Sessions} {slot : Session}

lemma sessionUnused_live (h : Listed max s) (hs : s.sessions[id]? = some slot) :
    sessionUnused max site id s =
      if site.fails then .error .crash else .ok ⟨s.sessions.set id ⟨false, s.firstUnused⟩, some id⟩ := by
  have hBound := (List.getElem?_eq_some_iff.1 hs).1
  have hMax := h.2
  rw [sessionUnused, if_neg (by omega)]

lemma takeFirst_listed (h : Listed max s) (hf : s.firstUnused = some i) :
    ∃ slot, s.sessions[i]? = some slot ∧ slot.used = false ∧
      takeFirst s = .ok (some i, ⟨s.sessions.set i ⟨true, none⟩, slot.nextUnused⟩) ∧
      Listed max ⟨s.sessions.set i ⟨true, none⟩, slot.nextUnused⟩ := by
  have ht := h.1
  rw [hf] at ht
  obtain ⟨slot, hs, hu, hPop⟩ := ht.pop
  refine ⟨slot, hs, hu, ?_, hPop _ nofun, by simpa using h.2⟩
  have hFree : slot.used = false := hu
  simp [takeFirst, hf, hs, hFree]

lemma all_used (h : Threaded Session.nextUnused Session.Unused s.sessions none) :
    s.sessions.countP Session.used = s.sessions.length := by
  obtain ⟨free, hc, -, hf⟩ := h
  cases hc
  rw [countP_eq_length]
  intro slot hs
  obtain ⟨i, hi⟩ := mem_iff_getElem?.1 hs
  by_contra hu
  exact not_mem_nil ((hf i).2 ⟨slot, hi, eq_false_of_ne_true hu⟩)

lemma count_lt (hs : s.sessions[i]? = some slot) (hu : slot.used = false) :
    s.sessions.countP Session.used < s.sessions.length := by
  refine Nat.lt_of_le_of_ne countP_le_length fun hAll => ?_
  have hUsed := countP_eq_length.1 hAll slot (mem_of_getElem? hs)
  rw [hu] at hUsed
  cases hUsed

/-- What becomes of a call for a new session. There is none exactly when the table is full of
sessions in use, and the slot that is taken was not in use. -/
inductive Outcome (max : Nat) (site : Site) (s : Sessions) : Except Stop (Option Nat × Sessions) → Prop where
  | full (all : s.sessions.countP Session.used = max) : Outcome max site s (.ok (none, s))
  | crash (fails : site.fails = true) (room : s.sessions.countP Session.used < max) :
      Outcome max site s (.error .crash)
  | taken {i : Nat} {t : Sessions} (room : s.sessions.countP Session.used < max)
      (free : ∀ slot, s.sessions[i]? = some slot → slot.used = false)
      (used : ∃ slot, t.sessions[i]? = some slot ∧ slot.used = true) (next : Listed max t) :
      Outcome max site s (.ok (some i, t))

lemma sessionNew_outcome (h : Listed max s) (site : Site) :
    Outcome max site s (sessionNew max site s) := by
  have hMax := h.2
  unfold sessionNew
  cases hFirst : s.firstUnused with
  | some i =>
    obtain ⟨slot, hs, hu, hTake, hn⟩ := takeFirst_listed h hFirst
    have hb := (List.getElem?_eq_some_iff.1 hs).1
    simp only [Option.isNone_some, Bool.false_eq_true, if_false, hTake]
    refine .taken (Nat.lt_of_lt_of_le (count_lt hs hu) hMax) ?_ ⟨_, getElem?_set_self hb, rfl⟩ hn
    intro found hf
    rw [hs] at hf
    cases hf
    exact hu
  | none =>
    have ht := h.1
    rw [hFirst] at ht
    have hAll := all_used ht
    simp only [Option.isNone_none, if_true]
    split_ifs with hFull
    · exact .full (by omega)
    · -- The slot that was added is the one that is taken.
      have hg : Listed max ⟨s.sessions ++ [⟨false, none⟩], some s.sessions.length⟩ :=
        ⟨ht.grow rfl rfl, by simp; omega⟩
      obtain ⟨slot, hs, hu, hTake, hn⟩ := takeFirst_listed hg rfl
      have hc : sessionUnused max site s.sessions.length ⟨s.sessions ++ [site.memory], none⟩ =
        if site.fails then .error .crash else .ok ⟨s.sessions ++ [⟨false, none⟩], some s.sessions.length⟩ := by
        rw [sessionUnused, if_neg (by simp; omega)]
        simp
      rw [hc]
      split_ifs with hFails
      · exact .crash hFails (by omega)
      · show Outcome max site s (takeFirst _)
        rw [hTake]
        exact .taken (by omega) (by simp) ⟨⟨true, none⟩, by simp, rfl⟩ hn

lemma Reachable.listed (h : Reachable max s) : Listed max s := by
  induction h with
  | start => exact ⟨.nil, Nat.zero_le _⟩
  | @new s t site result _ last ih =>
    have ho := sessionNew_outcome ih site
    rw [last] at ho
    cases ho with
    | full => exact ih
    | taken _ _ _ next => exact next
  | @unused s t site id slot _ found live last ih =>
    rw [sessionUnused_live ih found] at last
    split_ifs at last
    cases last
    exact ⟨ih.1.push found (by simp [Session.Unused, live]) rfl rfl, by simpa using ih.2⟩

/-- The table under any calls: the list of its unused slots is sound, a call for a new session
ends in one of the outcomes, and a session in use can be given back. -/
theorem session_table (h : Reachable max s) :
    Threaded Session.nextUnused Session.Unused s.sessions s.firstUnused ∧
      (∀ site, Outcome max site s (sessionNew max site s)) ∧
      ∀ site id slot, s.sessions[id]? = some slot → slot.used = true → sessionUnused max site id s =
        if site.fails then .error .crash else .ok ⟨s.sessions.set id ⟨false, s.firstUnused⟩, some id⟩ :=
  ⟨h.listed.1, sessionNew_outcome h.listed, fun _ _ _ found _ => sessionUnused_live h.listed found⟩

/-- Two sessions are made, and the first is given back. -/
theorem session_table_returned :
    Threaded Session.nextUnused Session.Unused [⟨false, none⟩, ⟨true, none⟩] (some 0) := by
  let site : Site := ⟨false, false, ⟨true, some 7⟩⟩
  have hOne : Reachable 2 ⟨[⟨true, none⟩], none⟩ :=
    .new .start (show sessionNew 2 site _ = .ok (some 0, _) from rfl)
  have hTwo : Reachable 2 ⟨[⟨true, none⟩, ⟨true, none⟩], none⟩ :=
    hOne.new (show sessionNew 2 site _ = .ok (some 1, _) from rfl)
  have hb : Reachable 2 ⟨[⟨false, none⟩, ⟨true, none⟩], some 0⟩ :=
    hTwo.unused rfl rfl (show sessionUnused 2 site 0 _ = .ok _ from rfl)
  exact (session_table hb).1

end SessionTable
