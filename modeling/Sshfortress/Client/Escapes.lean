import Sshfortress.Base.Bytes

/-! The escapes that users type into multiplexed sessions. Each session has its escape character and
knows whether it has just seen it, but `last_was_cr` is one flag for all of them. -/
namespace Client
open Base

/-- The escapes of a multiplexed session; some only say that they are not available. -/
inductive Escape where
  | terminate
  | unavailable (ch : UInt8)
  | sendBreak
  | rekey
  | help
  | channels
  deriving DecidableEq

def Escape.of (ch : UInt8) : Option Escape :=
  match ch.toNat with
  | 46 => some .terminate
  | 26 | 86 | 118 | 38 | 67 => some (.unavailable ch)
  | 66 => some .sendBreak
  | 82 => some .rekey
  | 63 => some .help
  | 35 => some .channels
  | _ => none

structure EscapeFilterCtx where
  escapeChar : Nat
  (escapePending abandoned : Bool)

/-- What becomes of the input: it is forwarded or recognised. -/
inductive Seen where
  | byte (ch : UInt8)
  | escape (escape : Escape)
  deriving DecidableEq

/-- One character, with `last_was_cr` before and after it. -/
def processEscape (lastWasCr : Bool) (efc : EscapeFilterCtx) (ch : UInt8) : Bool × EscapeFilterCtx × List Seen :=
  if efc.escapePending then
    let cleared := { efc with escapePending := false }
    match Escape.of ch with
    | some escape => (lastWasCr, { cleared with abandoned := escape = .terminate }, [.escape escape])
    | none =>
      (ch = 13 || ch = 10, cleared,
        (if ch.toNat ≠ efc.escapeChar then [.byte (.ofNat efc.escapeChar)] else []) ++ [.byte ch])
  else if lastWasCr ∧ ch.toNat = efc.escapeChar then (lastWasCr, { efc with escapePending := true }, [])
  else (ch = 13 || ch = 10, efc, [.byte ch])

/-- What follows the end of the session in the buffer is dropped. -/
def processEscapes (lastWasCr : Bool) (efc : EscapeFilterCtx) : Bytes → Bool × EscapeFilterCtx × List Seen
  | [] => (lastWasCr, efc, [])
  | ch :: rest =>
    let (flag, next, first) := processEscape lastWasCr efc ch
    if next.abandoned then (flag, next, first)
    else
      let (flag, last, later) := processEscapes flag next rest
      (flag, last, first ++ later)

/-- The sessions. `own` is what the flag would be for a session that has it for itself. -/
structure Sessions where
  lastWasCr : Bool
  filter : Nat → EscapeFilterCtx
  own : Nat → Bool

def Sessions.start (escapeChar : Nat → Nat) : Sessions :=
  ⟨true, fun id => ⟨escapeChar id, false, false⟩, fun _ => true⟩

/-- The filter is called for a channel that has read something and was not abandoned. -/
def Sessions.read (s : Sessions) (id : Nat) (buf : Bytes) : Sessions × List Seen :=
  if (s.filter id).abandoned then (s, [])
  else
    let (flag, efc, seen) := processEscapes s.lastWasCr (s.filter id) buf
    let own := (processEscapes (s.own id) (s.filter id) buf).1
    (⟨flag, Function.update s.filter id efc, Function.update s.own id own⟩, seen)

def Sessions.run (s : Sessions) : List (Nat × Bytes) → List (Nat × List Seen)
  | [] => []
  | (id, buf) :: rest => (id, (s.read id buf).2) :: (s.read id buf).1.run rest

/-- What one session has seen. -/
def share (id : Nat) (all : List (Nat × List Seen)) : List Seen := (all.filter (·.1 = id)).flatMap (·.2)

/-- The flag is the session's own, or its next character starts no escape and sets it. -/
def Sessions.Undisturbed (s : Sessions) (id : Nat) (buf : Bytes) : Prop :=
  s.lastWasCr = s.own id ∨
    (s.filter id).escapePending = false ∧ ∀ ch ∈ buf.head?, ch.toNat ≠ (s.filter id).escapeChar

def Sessions.Isolated (s : Sessions) : List (Nat × Bytes) → Prop
  | [] => True
  | (id, buf) :: rest => s.Undisturbed id buf ∧ (s.read id buf).1.Isolated rest

variable {s t : Sessions} {id : Nat} {inputs : List (Nat × Bytes)} {buf : Bytes}

lemma processEscapes_undisturbed (h : s.Undisturbed id buf) :
    (processEscapes s.lastWasCr (s.filter id) buf).2 = (processEscapes (s.own id) (s.filter id) buf).2 := by
  obtain hOwn | ⟨hp, hh⟩ := h
  · rw [hOwn]
  · cases buf with
    | nil => rfl
    | cons ch rest => simp [processEscapes, processEscape, hp, hh ch rfl]

/-- The second has only this session, and is where the first is with it. -/
structure Alone (id : Nat) (s t : Sessions) : Prop where
  filter : t.filter id = s.filter id
  flag : t.lastWasCr = s.own id

lemma Alone.read (h : Alone id s t) (hOwn : s.Undisturbed id buf) :
    (s.read id buf).2 = (t.read id buf).2 ∧ Alone id (s.read id buf).1 (t.read id buf).1 := by
  have hs := processEscapes_undisturbed hOwn
  simp only [Sessions.read, h.filter, h.flag]
  split_ifs
  · exact ⟨rfl, h⟩
  · exact ⟨by simp [hs], by simp [hs], by simp⟩

lemma Alone.other {other : Nat} (h : Alone id s t) (ho : other ≠ id) : Alone id (s.read other buf).1 t := by
  unfold Sessions.read
  split_ifs
  · exact h
  · exact ⟨by simpa [ho.symm] using h.filter, by simpa [ho.symm] using h.flag⟩

lemma share_run (h : Alone id s t) (hi : s.Isolated inputs) :
    share id (s.run inputs) = share id (t.run (inputs.filter (·.1 = id))) := by
  induction inputs generalizing s t with
  | nil => rfl
  | cons input rest ih =>
    obtain ⟨other, buf⟩ := input
    by_cases ho : other = id
    · subst ho
      obtain ⟨hs, hn⟩ := h.read hi.1
      have hr := ih hn hi.2
      unfold share at hr
      simp [share, Sessions.run, hs, hr]
    · have hr := ih (h.other ho) hi.2
      unfold share at hr
      simp [share, Sessions.run, ho, hr]

/-- Each session sees what it would see as the only one, where no flag of another is in its way. -/
theorem escapes_isolated {escapeChar : Nat → Nat} (h : (Sessions.start escapeChar).Isolated inputs)
    (id : Nat) :
    share id ((Sessions.start escapeChar).run inputs) =
      share id ((Sessions.start escapeChar).run (inputs.filter (·.1 = id))) :=
  share_run ⟨rfl, rfl⟩ h

/-- `~.` is the first that is typed into its session, but another session is within a line. -/
theorem escape_missed :
    let inputs := [(0, text "a"), (1, text "~.")]
    share 1 ((Sessions.start fun _ => 126).run inputs) ≠
      share 1 ((Sessions.start fun _ => 126).run (inputs.filter (·.1 = 1))) := by
  decide +kernel

theorem escapes_isolated_help :
    share 1 ((Sessions.start fun _ => 126).run [(0, text "a\n"), (1, text "~?")]) = [.escape .help] := by
  have h : (Sessions.start fun _ => 126).Isolated [(0, text "a\n"), (1, text "~?")] :=
    ⟨.inl rfl, .inl rfl, trivial⟩
  exact (escapes_isolated h 1).trans (by decide +kernel)

/-! What is forwarded was typed. -/

def forwarded (seen : List Seen) : Bytes :=
  seen.filterMap fun
    | .byte ch => some ch
    | .escape _ => none

/-- An escape character whose next character is not known yet. -/
def EscapeFilterCtx.held (efc : EscapeFilterCtx) : Bytes :=
  if efc.escapePending then [.ofNat efc.escapeChar] else []

lemma forwarded_append (first rest : List Seen) :
    forwarded (first ++ rest) = forwarded first ++ forwarded rest := List.filterMap_append

lemma processEscape_sublist (flag : Bool) (efc : EscapeFilterCtx) (ch : UInt8) :
    (forwarded (processEscape flag efc ch).2.2 ++ (processEscape flag efc ch).2.1.held).Sublist
      (efc.held ++ [ch]) := by
  unfold processEscape
  by_cases hPending : efc.escapePending = true
  · rw [if_pos hPending]
    cases Escape.of ch with
    | some escape => simp [forwarded, EscapeFilterCtx.held]
    | none =>
      by_cases hTwice : ch.toNat = efc.escapeChar
      · simp [forwarded, EscapeFilterCtx.held, hPending, hTwice]
      · simp [forwarded, EscapeFilterCtx.held, hPending, hTwice]
  · rw [if_neg hPending]
    split_ifs with hEscape
    · simp [forwarded, EscapeFilterCtx.held, ← hEscape.2]
    · simp [forwarded, EscapeFilterCtx.held, hPending]

lemma processEscapes_sublist (flag : Bool) (efc : EscapeFilterCtx) (buf : Bytes) :
    (forwarded (processEscapes flag efc buf).2.2 ++ (processEscapes flag efc buf).2.1.held).Sublist
      (efc.held ++ buf) := by
  induction buf generalizing flag efc with
  | nil => simp [processEscapes, forwarded]
  | cons ch rest ih =>
    have hFirst := processEscape_sublist flag efc ch
    rw [processEscapes]
    generalize processEscape flag efc ch = out at *
    dsimp only
    split_ifs
    · simpa using hFirst.append (List.nil_sublist rest)
    · rw [forwarded_append, List.append_assoc]
      have hRest := (ih out.1 out.2.1).append_left (forwarded out.2.2)
      exact hRest.trans (by simpa using hFirst.append_right rest)

lemma Sessions.read_sublist (s : Sessions) (id : Nat) (buf : Bytes) :
    (forwarded (s.read id buf).2 ++ ((s.read id buf).1.filter id).held).Sublist
      ((s.filter id).held ++ buf) := by
  unfold Sessions.read
  split_ifs
  · exact List.sublist_append_left _ _
  · simpa using processEscapes_sublist s.lastWasCr (s.filter id) buf

/-- Whatever is typed into the other sessions, the bytes sent for a session are some of those typed
into it, in their order: none is made up, sent twice or sent for another session. -/
theorem forwarded_typed (escapeChar : Nat → Nat) (inputs : List (Nat × Bytes)) (id : Nat) :
    (forwarded (share id ((Sessions.start escapeChar).run inputs))).Sublist
      ((inputs.filter (·.1 = id)).flatMap (·.2)) := by
  have hRun : ∀ s : Sessions, (forwarded (share id (s.run inputs))).Sublist
      ((s.filter id).held ++ (inputs.filter (·.1 = id)).flatMap (·.2)) := by
    induction inputs with
    | nil => simp [Sessions.run, share, forwarded]
    | cons input inputs ih =>
      intro s
      obtain ⟨other, buf⟩ := input
      have hRest := ih (s.read other buf).1
      by_cases ho : other = id
      · subst ho
        have hFirst := (s.read_sublist other buf).append_right
          ((inputs.filter (·.1 = other)).flatMap (·.2))
        rw [List.append_assoc] at hFirst
        simpa [Sessions.run, share, forwarded_append] using (hRest.append_left _).trans hFirst
      · have hSame : (s.read other buf).1.filter id = s.filter id := by
          unfold Sessions.read
          split_ifs
          · rfl
          · exact Function.update_of_ne (Ne.symm ho) ..
        rw [hSame] at hRest
        simpa [Sessions.run, share, ho] using hRest
  exact hRun (Sessions.start escapeChar)

end Client
