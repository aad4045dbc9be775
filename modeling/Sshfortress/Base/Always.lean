import Sshfortress.Base.Transition

/-! What holds in every state of a run, the last one included, and when exactly it does. -/
namespace Base.Transition

variable {S L E : Type}

/-- Every state that the run goes through has the property. -/
def Throughout (step : S → L → Except Stop (S × List E)) (holds : S → Prop) : S → List L → Prop
  | s, [] => holds s
  | s, input :: inputs =>
    holds s ∧ ∀ next events, step s input = .ok (next, events) → Throughout step holds next inputs

variable {step : S → L → Except Stop (S × List E)} {holds : S → Prop} {condition : S → L → Prop}
  {s : S} {inputs : List L}

lemma Throughout.head (h : Throughout step holds s inputs) : holds s := by
  cases inputs with
  | nil => exact h
  | cons input inputs => exact h.1

lemma Throughout.last {last : S} {events : List E} (h : Throughout step holds s inputs)
    (hRun : run step s inputs = .ok (last, events)) : holds last := by
  induction inputs generalizing s events with
  | nil =>
    cases hRun
    exact h
  | cons input inputs ih =>
    obtain ⟨next, first, rest, hStep, hr, rfl⟩ := run_cons_eq_ok.1 hRun
    exact ih (h.2 next first hStep) hr

variable (invariant : S → Prop)

section
variable (hh : ∀ s, invariant s → holds s)
include hh

section
variable (hk : ∀ s input next events, invariant s → condition s input → step s input = .ok (next, events) → invariant next)
include hk

lemma throughout_of_invariant (hs : invariant s)
    (ha : Along step condition s inputs) : Throughout step holds s inputs := by
  induction inputs generalizing s with
  | nil => exact hh s hs
  | cons input inputs ih =>
    refine ⟨hh s hs, fun next events hStep => ?_⟩
    exact ih (hk s input next events hs ha.1 hStep) (ha.2 next events hStep)

/-- If steps that meet the condition keep the invariant, and every other step ends in a state
without the property, then the property holds throughout exactly if all steps meet the
condition. -/
lemma throughout_iff_along (hb : ∀ s input, invariant s → ¬ condition s input →
      ∃ next events, step s input = .ok (next, events) ∧ ¬ holds next) (hs : invariant s) :
    Throughout step holds s inputs ↔ Along step condition s inputs := by
  constructor
  · intro ht
    induction inputs generalizing s with
    | nil => trivial
    | cons input inputs ih =>
      have hc : condition s input := by
        by_contra hNot
        obtain ⟨next, events, hStep, hl⟩ := hb s input hs hNot
        exact hl (ht.2 next events hStep).head
      refine ⟨hc, fun next events hStep => ?_⟩
      exact ih (hk s input next events hs hc hStep) (ht.2 next events hStep)
  · exact throughout_of_invariant invariant hh hk hs

/-- The condition is met at every step that is taken. Nothing is asked of an input at which the
machine stops. -/
def Taken (step : S → L → Except Stop (S × List E)) (condition : S → L → Prop) : S → List L → Prop
  | _, [] => True
  | s, input :: inputs => ∀ next events, step s input = .ok (next, events) →
      condition s input ∧ Taken step condition next inputs

/-- The same for a machine that can stop where the condition is not met. -/
lemma throughout_iff_taken (hb : ∀ s input next events, invariant s → ¬ condition s input →
      step s input = .ok (next, events) → ¬ holds next) (hs : invariant s) :
    Throughout step holds s inputs ↔ Taken step condition s inputs := by
  induction inputs generalizing s with
  | nil => exact iff_of_true (hh s hs) trivial
  | cons input inputs ih =>
    constructor
    · intro ht next events hStep
      have hc : condition s input := by
        by_contra hNot
        exact hb s input next events hs hNot hStep (ht.2 next events hStep).head
      have hn := hk s input next events hs hc hStep
      exact ⟨hc, (ih hn).1 (ht.2 next events hStep)⟩
    · intro hTaken
      refine ⟨hh s hs, fun next events hStep => ?_⟩
      obtain ⟨hc, hr⟩ := hTaken next events hStep
      exact (ih (hk s input next events hs hc hStep)).2 hr

end

end

/-- The machine together with a record of all that it has done. -/
def recording (step : S → L → Except Stop (S × List E)) (s : S × List E) (input : L) :
    Except Stop ((S × List E) × List E) :=
  (step s.1 input).map fun out => ((out.1, s.2 ++ out.2), out.2)

lemma recording_eq_ok {s next : S × List E} {input : L} {events : List E} :
    recording step s input = .ok (next, events) ↔
      ∃ after, step s.1 input = .ok (after, events) ∧ next = (after, s.2 ++ events) := by
  rw [recording, map_eq_ok]
  constructor
  · rintro ⟨⟨after, shown⟩, hStep, hd⟩
    cases hd
    exact ⟨after, hStep, rfl⟩
  · rintro ⟨after, hStep, rfl⟩
    exact ⟨(after, events), hStep, rfl⟩

end Base.Transition
