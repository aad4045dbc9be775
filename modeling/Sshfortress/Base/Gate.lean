import Mathlib

/-! A queue behind a gate. Messages that carry data are submitted to the queue and
sent from its head, and only while the gate is open; the gate is opened and closed
by messages of its own, and other messages pass it at any time. -/
namespace Base.Gate
open List

inductive Kind where
  | data
  | close
  | reopen
  | other
  deriving DecidableEq

inductive Event (α : Type) where
  | submitted (a : α)
  | sent (a : α)

structure State (α : Type) where
  closed : Bool
  queue : List α

section Messages

variable {α : Type} (kind : α → Kind)

def submitted (events : List (Event α)) : List α :=
  events.filterMap fun
    | .submitted a => some a
    | .sent _ => none

def sent (events : List (Event α)) : List α :=
  events.filterMap fun
    | .submitted _ => none
    | .sent a => some a

def data (messages : List α) : List α := messages.filter fun a => kind a = .data

variable {kind}

@[simp]
lemma sent_cons_sent (a : α) (events : List (Event α)) : sent (.sent a :: events) = a :: sent events := rfl

lemma submitted_append (front back : List (Event α)) : submitted (front ++ back) = submitted front ++ submitted back :=
  filterMap_append

lemma sent_append (front back : List (Event α)) : sent (front ++ back) = sent front ++ sent back :=
  filterMap_append

lemma data_append (front back : List α) : data kind (front ++ back) = data kind front ++ data kind back :=
  filter_append ..

variable {events : List (Event α)}

lemma mem_sent {a : α} : a ∈ sent events ↔ Event.sent a ∈ events := by
  induction events with
  | nil => simp [sent]
  | cons event events ih =>
    cases event with
    | submitted b => simpa [sent] using ih
    | sent b => simp [ih]

lemma sent_eq_append_cons {front back : List α} {a : α} (h : sent events = front ++ a :: back) :
    ∃ before after, events = before ++ .sent a :: after ∧ sent before = front ∧ sent after = back := by
  induction events generalizing front with
  | nil => simp [sent] at h
  | cons event events ih =>
    cases event with
    | submitted b =>
      obtain ⟨before, after, rfl, rfl, rfl⟩ := ih h
      exact ⟨.submitted b :: before, after, rfl, rfl, rfl⟩
    | sent b =>
      cases front with
      | nil =>
        obtain ⟨rfl, rfl⟩ := h
        exact ⟨[], events, rfl, rfl, rfl⟩
      | cons c front =>
        rw [sent_cons_sent, cons_append, List.cons.injEq] at h
        obtain ⟨rfl, h⟩ := h
        obtain ⟨before, after, rfl, rfl, rfl⟩ := ih h
        exact ⟨.sent b :: before, after, rfl, rfl, rfl⟩

end Messages

variable {α : Type} [DecidableEq α] (kind : α → Kind)

def step (g : State α) : Event α → Option (State α)
  | .submitted a => if kind a = .data then some { g with queue := g.queue ++ [a] } else some g
  | .sent a =>
    match kind a with
    | .data => if g.closed = false ∧ g.queue.head? = some a then
        some { g with queue := g.queue.tail } else none
    | .close => some { g with closed := true }
    | .reopen => some { g with closed := false }
    | .other => some g

def run (g : State α) : List (Event α) → Option (State α)
  | [] => some g
  | event :: events => (step kind g event).bind fun next => run next events

variable {kind} {g last : State α} {a : α} {events : List (Event α)} {event : Event α} {next : State α}

lemma run_cons_eq_some : run kind g (event :: events) = some last ↔
    ∃ next, step kind g event = some next ∧ run kind next events = some last :=
  Option.bind_eq_some_iff

lemma run_append_eq_some {front back : List (Event α)} : run kind g (front ++ back) = some last ↔
    ∃ middle, run kind g front = some middle ∧ run kind middle back = some last := by
  induction front generalizing g with
  | nil => simp [run]
  | cons event front ih =>
    simp only [cons_append, run_cons_eq_some, ih]
    grind

/-! Small steps. -/

lemma step_submitted (h : kind a = .data) :
    step kind g (.submitted a) = some { g with queue := g.queue ++ [a] } := if_pos h

lemma step_submitted_control (h : kind a ≠ .data) : step kind g (.submitted a) = some g := if_neg h

lemma step_sent_data {queue : List α} (h : kind a = .data) :
    step kind ⟨false, a :: queue⟩ (.sent a) = some ⟨false, queue⟩ := by simp [step, h]

lemma step_sent_close (h : kind a = .close) :
    step kind g (.sent a) = some { g with closed := true } := by simp [step, h]

lemma step_sent_reopen (h : kind a = .reopen) :
    step kind g (.sent a) = some { g with closed := false } := by simp [step, h]

lemma step_sent_other (h : kind a = .other) : step kind g (.sent a) = some g := by simp [step, h]

lemma step_sent_data_eq_some (hd : kind a = .data) (h : step kind g (.sent a) = some next) :
    g.closed = false ∧ g.queue = a :: next.queue := by
  simp only [step, hd] at h
  split_ifs at h with ho
  cases h
  refine ⟨ho.1, ?_⟩
  cases hq : g.queue with
  | nil =>
    rw [hq] at ho
    cases ho.2
  | cons b queue =>
    rw [hq] at ho
    cases ho.2
    rfl

/-! Runs. -/

/-- What is sent comes off the queue and what is submitted is put there, and only a message that opens
the gate opens it. -/
lemma step_eq_some (h : step kind g event = some next) :
    g.queue ++ data kind (submitted [event]) = data kind (sent [event]) ++ next.queue ∧
      (g.closed = true → (∀ a, event = .sent a → kind a ≠ .reopen) → next.closed = true) := by
  cases event with
  | submitted a =>
    by_cases hd : kind a = .data
    · rw [step_submitted hd] at h
      cases h
      exact ⟨by simp [submitted, sent, data, hd], fun hc _ => hc⟩
    · rw [step_submitted_control hd] at h
      cases h
      exact ⟨by simp [submitted, sent, data, hd], fun hc _ => hc⟩
  | sent a =>
    cases hk : kind a with
    | data =>
      obtain ⟨ho, hq⟩ := step_sent_data_eq_some hk h
      exact ⟨by simp [submitted, sent, data, hk, hq], fun hc => by simp [ho] at hc⟩
    | close =>
      rw [step_sent_close hk] at h
      cases h
      exact ⟨by simp [submitted, sent, data, hk], fun _ _ => rfl⟩
    | reopen =>
      rw [step_sent_reopen hk] at h
      cases h
      exact ⟨by simp [submitted, sent, data, hk], fun _ hn => absurd hk (hn a rfl)⟩
    | other =>
      rw [step_sent_other hk] at h
      cases h
      exact ⟨by simp [submitted, sent, data, hk], fun hc _ => hc⟩

/-- Nothing is lost, doubled or reordered: what was sent and what waits is what was
waiting and what was submitted. -/
lemma run_conserves (h : run kind g events = some last) :
    g.queue ++ data kind (submitted events) = data kind (sent events) ++ last.queue := by
  induction events generalizing g with
  | nil =>
    cases h
    simp [submitted, sent, data]
  | cons event events ih =>
    obtain ⟨next, hs, hRun⟩ := run_cons_eq_some.1 h
    rw [← singleton_append, submitted_append, sent_append, data_append, data_append, ← append_assoc,
      (step_eq_some hs).1, append_assoc, ih hRun, append_assoc]

/-- A closed gate stays closed until a message opens it. -/
lemma run_closed (h : run kind g events = some last) (hc : g.closed = true)
    (hn : ∀ a, Event.sent a ∈ events → kind a ≠ .reopen) : last.closed = true := by
  induction events generalizing g with
  | nil =>
    cases h
    exact hc
  | cons event events ih =>
    obtain ⟨next, hs, hRun⟩ := run_cons_eq_some.1 h
    refine ih hRun ((step_eq_some hs).2 hc ?_) fun a ha => hn a (.tail _ ha)
    exact fun a ha => hn a (ha ▸ mem_cons_self ..)

lemma run_not_data {rest : List (Event α)}
    (h : run kind g (events ++ .sent a :: rest) = some last) (hc : g.closed = true)
    (hn : ∀ b, Event.sent b ∈ events → kind b ≠ .reopen) : kind a ≠ .data := by
  intro hd
  obtain ⟨before, hf, hb⟩ := run_append_eq_some.1 h
  have hs := run_closed hf hc hn
  obtain ⟨next, hSent, -⟩ := run_cons_eq_some.1 hb
  obtain ⟨ho, -⟩ := step_sent_data_eq_some hd hSent
  rw [ho] at hs
  cases hs

/-- No data between a message that closes the gate and the next that opens it. -/
lemma run_silent {front middle back : List α} {b : α} (h : run kind g events = some last)
    (hSent : sent events = front ++ a :: (middle ++ b :: back)) (hc : kind a = .close)
    (hd : kind b = .data) : ∃ c ∈ middle, kind c = .reopen := by
  by_contra hn
  obtain ⟨before, after, rfl, -, ha⟩ := sent_eq_append_cons hSent
  obtain ⟨between, rest, rfl, hb, -⟩ := sent_eq_append_cons ha
  obtain ⟨start, -, hr⟩ := run_append_eq_some.1 h
  obtain ⟨next, hs, hr⟩ := run_cons_eq_some.1 hr
  rw [step_sent_close hc] at hs
  cases hs
  have hNone : ∀ c, Event.sent c ∈ between → kind c ≠ .reopen := by
    intro c hMem hReopen
    apply hn
    rw [← hb]
    exact ⟨c, mem_sent.2 hMem, hReopen⟩
  exact run_not_data hr rfl hNone hd

end Base.Gate
