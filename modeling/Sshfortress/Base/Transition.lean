import Sshfortress.Base.Interaction

/-! Deterministic machines that take inputs one by one and emit events. A run is
judged by a rule for its steps: `run_history` carries a property of the state and
of the events so far, `run_simulates` carries a relation to a second machine. -/
namespace Base.Transition
open List

variable {S T L M E F O : Type}

/-- The last state and all events, unless some step stops the machine. -/
def run (step : S → L → Except Stop (S × List E)) : S → List L → Except Stop (S × List E)
  | s, [] => .ok (s, [])
  | s, input :: inputs => do
    let (next, first) ← step s input
    let (last, rest) ← run step next inputs
    return (last, first ++ rest)

/-- Every step of the run starts in a state, and takes an input, that together
meet the condition. -/
def Along (step : S → L → Except Stop (S × List E)) (condition : S → L → Prop) : S → List L → Prop
  | _, [] => True
  | s, input :: inputs =>
    condition s input ∧ ∀ next events, step s input = .ok (next, events) → Along step condition next inputs

instance Along.decidable (step : S → L → Except Stop (S × List E)) (condition : S → L → Prop)
    [∀ s input, Decidable (condition s input)] :
    ∀ s inputs, Decidable (Along step condition s inputs)
  | _, [] => isTrue trivial
  | s, input :: inputs =>
    match hStep : step s input with
    | .error _ => decidable_of_iff (condition s input) (by simp [Along, hStep])
    | .ok (next, _) =>
      have := Along.decidable step condition next inputs
      decidable_of_iff (condition s input ∧ Along step condition next inputs) (by simp [Along, hStep])

variable {step : S → L → Except Stop (S × List E)} {condition : S → L → Prop} {s last : S}
  {inputs : List L} {events : List E}

lemma run_cons_eq_ok {input : L} : run step s (input :: inputs) = .ok (last, events) ↔
    ∃ next first rest, step s input = .ok (next, first) ∧
      run step next inputs = .ok (last, rest) ∧ events = first ++ rest := by
  simp only [run, bind_eq_ok, Prod.exists]
  constructor
  · rintro ⟨next, first, hStep, _, rest, hRun, hd⟩
    cases hd
    exact ⟨next, first, rest, hStep, hRun, rfl⟩
  · rintro ⟨next, first, rest, hStep, hRun, rfl⟩
    exact ⟨next, first, hStep, last, rest, hRun, rfl⟩

variable {middle : S} {front back : List L} {past : List E}

/-- Inputs one after the other: the second half starts where the first ended. -/
lemma run_append {first rest : List E} (hf : run step s front = .ok (middle, first))
    (hb : run step middle back = .ok (last, rest)) :
    run step s (front ++ back) = .ok (last, first ++ rest) := by
  induction front generalizing s first with
  | nil =>
    cases hf
    simpa using hb
  | cons input front ih =>
    obtain ⟨next, head, tail, hStep, hRun, rfl⟩ := run_cons_eq_ok.1 hf
    rw [cons_append, run_cons_eq_ok]
    exact ⟨next, head, tail ++ rest, hStep, ih hRun, append_assoc ..⟩

lemma along_append (h : Along step condition s (front ++ back))
    (hRun : run step s front = .ok (middle, events)) : Along step condition middle back := by
  induction front generalizing s events with
  | nil =>
    cases hRun
    exact h
  | cons input front ih =>
    obtain ⟨next, first, rest, hStep, hr, rfl⟩ := run_cons_eq_ok.1 hRun
    exact ih (h.2 next first hStep) hr

lemma along_of_forall (h : ∀ input ∈ inputs, ∀ state, condition state input) :
    Along step condition s inputs := by
  induction inputs generalizing s with
  | nil => trivial
  | cons input inputs ih =>
    constructor
    · exact h input mem_cons_self s
    · intro next events _
      exact ih fun later hl => h later (.tail _ hl)

lemma along_of_invariant {property : S → L → Prop} (invariant : S → Prop)
    (hStep : ∀ s input, invariant s → condition s input → property s input ∧
      ∀ next events, step s input = .ok (next, events) → invariant next) (hs : invariant s)
    (ha : Along step condition s inputs) : Along step property s inputs := by
  induction inputs generalizing s with
  | nil => trivial
  | cons input inputs ih =>
    obtain ⟨hp, hn⟩ := hStep s input hs ha.1
    exact ⟨hp, fun next events ht =>
      ih (hn next events ht) (ha.2 next events ht)⟩

/-- If no step from the invariant that meets the condition stops the machine, nor does the run,
and the invariant holds at its end. -/
lemma run_total (holds : S → List E → Prop) (hStep : ∀ s past input, holds s past → condition s input →
    ∃ next events, step s input = .ok (next, events) ∧ holds next (past ++ events))
    (hs : holds s past) (ha : Along step condition s inputs) :
    ∃ last events, run step s inputs = .ok (last, events) ∧ holds last (past ++ events) := by
  induction inputs generalizing s past with
  | nil => exact ⟨s, [], rfl, by simpa using hs⟩
  | cons input inputs ih =>
    obtain ⟨next, first, hf, hn⟩ := hStep s past input hs ha.1
    obtain ⟨last, rest, hr, hl⟩ := ih hn (ha.2 next first hf)
    rw [append_assoc] at hl
    exact ⟨last, first ++ rest, run_cons_eq_ok.2 ⟨next, first, rest, hf, hr, rfl⟩, hl⟩

/-- The invariant rule: what holds of the state and of the events so far, and
survives every step under the condition, holds at the end of the run. -/
lemma run_history (holds : S → List E → Prop)
    (hStep : ∀ s past input next events, holds s past → condition s input →
      step s input = .ok (next, events) → holds next (past ++ events)) (hs : holds s past)
    (ha : Along step condition s inputs) (hRun : run step s inputs = .ok (last, events)) :
    holds last (past ++ events) := by
  induction inputs generalizing s past events with
  | nil =>
    cases hRun
    simpa using hs
  | cons input inputs ih =>
    obtain ⟨next, first, rest, hf, hr, rfl⟩ := run_cons_eq_ok.1 hRun
    have hn := hStep s past input next first hs ha.1 hf
    rw [← append_assoc]
    exact ih hn (ha.2 next first hf) hr

/-- The invariant rule for the events of the run alone. -/
lemma run_events (holds : S → List E → Prop)
    (hStep : ∀ s past input next events, holds s past → condition s input →
      step s input = .ok (next, events) → holds next (past ++ events)) (hs : holds s [])
    (ha : Along step condition s inputs) (hRun : run step s inputs = .ok (last, events)) :
    holds last events := by
  have hEnd := run_history holds hStep hs ha hRun
  rwa [nil_append] at hEnd

/-- The simulation rule: if each step is matched by a run of the second machine
that shows the same, then so is each run. -/
lemma run_simulates {other : T → M → Except Stop (T × List F)} (related : S → T → Prop)
    (translate : L → List M) (seen : E → Option O) (otherSeen : F → Option O)
    (hStep : ∀ s t input next events, related s t → condition s input →
      step s input = .ok (next, events) → ∃ otherNext otherEvents,
        run other t (translate input) = .ok (otherNext, otherEvents) ∧
        otherEvents.filterMap otherSeen = events.filterMap seen ∧ related next otherNext) {t : T}
    (hs : related s t) (ha : Along step condition s inputs)
    (hRun : run step s inputs = .ok (last, events)) :
    ∃ otherLast otherEvents, run other t (inputs.flatMap translate) = .ok (otherLast, otherEvents) ∧
      otherEvents.filterMap otherSeen = events.filterMap seen ∧ related last otherLast := by
  induction inputs generalizing s t events with
  | nil =>
    cases hRun
    exact ⟨t, [], rfl, rfl, hs⟩
  | cons input inputs ih =>
    obtain ⟨next, first, rest, hf, hr, rfl⟩ := run_cons_eq_ok.1 hRun
    obtain ⟨middle, shown, hShown, hSame, hn⟩ := hStep s t input next first hs ha.1 hf
    obtain ⟨otherLast, later, hLater, hl, hEnd⟩ :=
      ih hn (ha.2 next first hf) hr
    refine ⟨otherLast, shown ++ later, ?_, ?_, hEnd⟩
    · rw [flatMap_cons]
      exact run_append hShown hLater
    · rw [filterMap_append, filterMap_append, hSame, hl]

end Base.Transition
