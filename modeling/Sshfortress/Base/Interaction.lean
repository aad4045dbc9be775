import Mathlib

/-! Programs that talk to their surroundings. A program is a tree of calls; the
surroundings answer each call as they like, with everything answered so far in
view. `Meets` is the rule of pre- and postconditions over all answers, and
`serve` repeats a step program over a list of inputs while it keeps its state. -/
namespace Base
open List

inductive Stop where
  | exit (status : Int)
  | fatal
  | crash
  deriving DecidableEq

variable {ε α β : Type} {x : Except ε α} {f : α → Except ε β} {b : β} {a : α}

/-- A sequence of fallible steps returns exactly when every step does. -/
lemma bind_eq_ok : (x >>= f) = .ok b ↔ ∃ a, x = .ok a ∧ f a = .ok b := by
  constructor
  · intro h
    cases x with
    | error e => cases h
    | ok a => exact ⟨a, rfl, h⟩
  · rintro ⟨a, rfl, h⟩
    exact h

lemma bind_eq_error {e : ε} : (x >>= f) = .error e ↔ x = .error e ∨ ∃ a, x = .ok a ∧ f a = .error e := by
  cases x with
  | error e => simp [Bind.bind, Except.bind]
  | ok a => simp [Bind.bind, Except.bind]

/-- Proved by a tactic, so that `simp` leaves a step for the kernel instead of
one large computation. -/
lemma ok_bind (a : α) (f : α → Except ε β) : (Except.ok a >>= f) = f a := by rfl

lemma toOption_eq_some : x.toOption = some a ↔ x = .ok a := by
  cases x with
  | error e => simp [Except.toOption]
  | ok b => simp [Except.toOption]

lemma map_eq_ok {f : α → β} : x.map f = .ok b ↔ ∃ a, x = .ok a ∧ f a = b := by
  cases x with
  | error e => simp [Except.map]
  | ok a => simp [Except.map]

lemma mapError_eq_ok {δ : Type} {f : ε → δ} : x.mapError f = .ok a ↔ x = .ok a := by
  cases x with
  | error e => simp [Except.mapError]
  | ok b => simp [Except.mapError]

inductive Prog (Req : Type) (Resp : Req → Type) (α : Type) where
  | done (result : α)
  | halt (reason : Stop)
  | call (request : Req) (next : Resp request → Prog Req Resp α)

structure Event (Req : Type) (Resp : Req → Type) where
  request : Req
  response : Resp request

abbrev Trace (Req : Type) (Resp : Req → Type) := List (Event Req Resp)

/-- The surroundings answer a call from the trace of the earlier ones. -/
abbrev Env (Req : Type) (Resp : Req → Type) :=
  Trace Req Resp → (request : Req) → Resp request

namespace Prog

variable {Req : Type} {Resp : Req → Type} {α β σ L : Type}

def bind : Prog Req Resp α → (α → Prog Req Resp β) → Prog Req Resp β
  | .done a, f => f a
  | .halt reason, _ => .halt reason
  | .call request next, f => .call request fun answer => (next answer).bind f

instance : Monad (Prog Req Resp) where
  pure := .done
  bind := bind

def ask (request : Req) : Prog Req Resp (Resp request) := .call request .done

def run (env : Env Req Resp) : Prog Req Resp α → Except Stop α × Trace Req Resp
  | .done a => (.ok a, [])
  | .halt reason => (.error reason, [])
  | .call request next =>
    let event : Event Req Resp := ⟨request, env [] request⟩
    let rest := run (fun trace => env (event :: trace)) (next event.response)
    (rest.1, event :: rest.2)

variable {γ : Type} {allowed' : Trace Req Resp → Req → Prop} {post' : α → Trace Req Resp → Prop}
  {related : α → β → Prop} {q : Prog Req Resp β}

lemma bind_assoc (p : Prog Req Resp α) (f : α → Prog Req Resp β) (g : β → Prog Req Resp γ) :
    p >>= f >>= g = p >>= fun a => f a >>= g := by
  change (p.bind f).bind g = p.bind fun a => (f a).bind g
  induction p with
  | done a => rfl
  | halt reason => rfl
  | call request next ih => simp [bind, ih]

lemma run_bind (p : Prog Req Resp α) (f : α → Prog Req Resp β) (env : Env Req Resp) : run env (p >>= f) =
      match (run env p).1 with
      | .error reason => (.error reason, (run env p).2)
      | .ok a =>
        ((run (fun later => env ((run env p).2 ++ later)) (f a)).1,
          (run env p).2 ++ (run (fun later => env ((run env p).2 ++ later)) (f a)).2) := by
  change run env (p.bind f) = _
  induction p generalizing env with
  | done a => rfl
  | halt reason => rfl
  | call request next ih =>
    simp only [bind, run, ih]
    split <;> rfl

/-- Whatever the answers are, every call is allowed after the calls before it,
and every return satisfies the postcondition. -/
def Meets : (Trace Req Resp → Req → Prop) → (α → Trace Req Resp → Prop) → Prog Req Resp α → Prop
  | _, post, .done a => post a []
  | _, _, .halt _ => True
  | allowed, post, .call request next =>
    allowed [] request ∧ ∀ answer, Meets (fun trace => allowed (⟨request, answer⟩ :: trace))
        (fun a trace => post a (⟨request, answer⟩ :: trace)) (next answer)

variable {allowed : Trace Req Resp → Req → Prop} {post : α → Trace Req Resp → Prop}

@[simp] lemma meets_pure (a : α) : Meets allowed post (pure a : Prog Req Resp α) ↔ post a [] := Iff.rfl

/-- Sequencing: what follows is judged after the calls made so far. -/
@[simp] lemma meets_bind {post : β → Trace Req Resp → Prop} (p : Prog Req Resp α)
    (f : α → Prog Req Resp β) : Meets allowed post (p >>= f) ↔
      Meets allowed (fun a trace => Meets (fun later => allowed (trace ++ later))
        (fun b later => post b (trace ++ later)) (f a)) p := by
  induction p generalizing allowed post with
  | done a => rfl
  | halt reason => rfl
  | call request next ih =>
    refine and_congr_right fun _ => forall_congr' fun answer => ?_
    exact ih answer

@[simp] lemma meets_ask {post : Resp request → Trace Req Resp → Prop} : Meets allowed post (ask request) ↔
      allowed [] request ∧ ∀ answer, post answer [⟨request, answer⟩] := Iff.rfl

variable {p : Prog Req Resp α}

lemma Meets.mono (h : Meets allowed post p)
    (hMay : ∀ trace request, allowed trace request → allowed' trace request)
    (hp : ∀ a trace, post a trace → post' a trace) : Meets allowed' post' p := by
  induction p generalizing allowed post allowed' post' with
  | done a => exact hp a [] h
  | halt reason => trivial
  | call request next ih =>
    exact ⟨hMay _ _ h.1, fun answer => ih answer (h.2 answer)
      (fun trace _ => hMay _ _) (fun a trace => hp a _)⟩

lemma meets_of_forall (hMay : ∀ trace request, allowed trace request)
    (hp : ∀ a trace, post a trace) : Meets allowed post p := by
  induction p generalizing allowed post with
  | done a => exact hp a []
  | halt reason => trivial
  | call request next ih => exact ⟨hMay _ _, fun answer => ih answer (fun _ => hMay _) fun _ _ => hp _ _⟩

lemma Meets.and (h : Meets allowed post p) (h' : Meets allowed' post' p) :
    Meets (fun trace request => allowed trace request ∧ allowed' trace request)
      (fun a trace => post a trace ∧ post' a trace) p := by
  induction p generalizing allowed post allowed' post' with
  | done a => exact ⟨h, h'⟩
  | halt reason => trivial
  | call request next ih => exact ⟨⟨h.1, h'.1⟩, fun answer => ih answer (h.2 answer) (h'.2 answer)⟩

/-- A rule that does not look at the earlier calls is met by every call of the trace, and
gives any rule that follows from it after such calls. -/
lemma Meets.of_only {only : Req → Prop} (h : Meets (fun _ => only) post p)
    (hMay : ∀ trace request, (∀ event ∈ trace, only event.request) → only request → allowed trace request) :
    Meets allowed (fun a trace => post a trace ∧ ∀ event ∈ trace, only event.request) p := by
  induction p generalizing allowed post with
  | done a => exact ⟨h, fun _ he => nomatch he⟩
  | halt reason => trivial
  | call request next ih =>
    refine ⟨hMay [] request (fun _ he => nomatch he) h.1, fun answer => ?_⟩
    have hh : ∀ trace : Trace Req Resp, (∀ event ∈ trace, only event.request) →
      ∀ event ∈ (⟨request, answer⟩ : Event Req Resp) :: trace, only event.request :=
      fun trace ht => forall_mem_cons.2 ⟨h.1, ht⟩
    refine (ih answer (h.2 answer) fun trace call ht => hMay _ call (hh trace ht)).mono
      (fun _ _ hc => hc) ?_
    rintro a trace ⟨hp, ht⟩
    exact ⟨hp, hh trace ht⟩

lemma Meets.calls (h : Meets allowed post p) (env : Env Req Resp) {before after : Trace Req Resp}
    {event : Event Req Resp} (ht : (run env p).2 = before ++ event :: after) :
    allowed before event.request := by
  induction p generalizing allowed post env before with
  | done a => simp [run] at ht
  | halt reason => simp [run] at ht
  | call request next ih =>
    cases before with
    | nil =>
      simp only [run, nil_append, List.cons.injEq] at ht
      rw [← ht.1]
      exact h.1
    | cons first before =>
      simp only [run, cons_append, List.cons.injEq] at ht
      obtain ⟨hf, hr⟩ := ht
      rw [← hf]
      exact ih _ (h.2 _) _ hr

lemma Meets.result (h : Meets allowed post p) (env : Env Req Resp) {a : α}
    (hRes : (run env p).1 = .ok a) : post a (run env p).2 := by
  induction p generalizing allowed post env with
  | done b =>
    cases hRes
    exact h
  | halt reason => cases hRes
  | call request next ih => exact ih _ (h.2 _) _ hRes

/-- Whatever the answers are, the program returns, with the postcondition. -/
def Sure (post : α → Prop) : Prog Req Resp α → Prop
  | .done a => post a
  | .halt _ => False
  | .call _ next => ∀ answer, Sure post (next answer)

@[simp] lemma sure_bind {post : β → Prop} (p : Prog Req Resp α) (f : α → Prog Req Resp β) :
    Sure post (p >>= f) ↔ Sure (fun a => Sure post (f a)) p := by
  induction p with
  | done a => rfl
  | halt reason => rfl
  | call request next ih => exact forall_congr' ih

lemma Sure.mono {post post' : α → Prop} (h : Sure post p) (hp : ∀ a, post a → post' a) : Sure post' p := by
  induction p with
  | done a => exact hp a h
  | halt reason => exact h
  | call request next ih => exact fun answer => ih answer (h answer)

lemma Sure.run {post : α → Prop} (h : Sure post p) (env : Env Req Resp) :
    ∃ a, (run env p).1 = .ok a ∧ post a := by
  induction p generalizing env with
  | done a => exact ⟨a, rfl, h⟩
  | halt reason => exact h.elim
  | call request next ih => exact ih _ (h _) _

/-- Two programs that make the same calls, whatever the answers are, and end in the same
way. -/
inductive Alike (related : α → β → Prop) : Prog Req Resp α → Prog Req Resp β → Prop where
  | done {a : α} {b : β} (h : related a b) : Alike related (.done a) (.done b)
  | halt (reason : Stop) : Alike related (.halt reason) (.halt reason)
  | call {request : Req} {f : Resp request → Prog Req Resp α} {g : Resp request → Prog Req Resp β}
      (h : ∀ answer, Alike related (f answer) (g answer)) : Alike related (.call request f) (.call request g)

lemma Alike.bind {δ : Type} {next : γ → δ → Prop} {f : α → Prog Req Resp γ}
    {g : β → Prog Req Resp δ} (h : Alike related p q)
    (hn : ∀ a b, related a b → Alike next (f a) (g b)) : Alike next (p >>= f) (q >>= g) := by
  induction h with
  | done h => exact hn _ _ h
  | halt reason => exact .halt reason
  | call _ ih => exact .call ih

lemma Alike.run (h : Alike related p q) (env : Env Req Resp) : (run env p).2 = (run env q).2 ∧
    ((∃ a b, (run env p).1 = .ok a ∧ (run env q).1 = .ok b ∧ related a b) ∨
      ∃ reason, (run env p).1 = .error reason ∧ (run env q).1 = .error reason) := by
  induction h generalizing env with
  | done h => exact ⟨rfl, .inl ⟨_, _, rfl, rfl, h⟩⟩
  | halt reason => exact ⟨rfl, .inr ⟨reason, rfl, rfl⟩⟩
  | @call request f g _ ih =>
    obtain ⟨ht, hRes⟩ := ih (env [] request) fun trace => env (⟨request, env [] request⟩ :: trace)
    exact ⟨congrArg (List.cons _) ht, hRes⟩

/-- Repeat a step program over the inputs. Each executed step is recorded with
the state it started in and its own calls. -/
def serve (step : L → σ → Prog Req Resp σ) (env : Env Req Resp) :
    List L → σ → List (L × σ × Trace Req Resp)
  | [], _ => []
  | input :: inputs, state =>
    let outcome := run env (step input state)
    (input, state, outcome.2) :: match outcome.1 with
      | .ok next => serve step (fun trace => env (outcome.2 ++ trace)) inputs next
      | .error _ => []

/-- An invariant kept by every step that meets its rule holds at each executed
step, and each of those steps makes only allowed calls. The condition is asked
only of the steps that are really executed. -/
lemma serve_calls {step : L → σ → Prog Req Resp σ} (invariant : σ → Prop)
    (condition : L → σ → Prop) (rule : L → σ → Trace Req Resp → Req → Prop)
    (hStep : ∀ input state, invariant state → condition input state →
      Meets (rule input state) (fun next _ => invariant next) (step input state))
    (env : Env Req Resp) (inputs : List L) (start : σ) (hs : invariant start)
    (hc : ∀ entry ∈ serve step env inputs start, condition entry.1 entry.2.1) :
    ∀ entry ∈ serve step env inputs start, ∀ before event after,
      entry.2.2 = before ++ event :: after → rule entry.1 entry.2.1 before event.request := by
  induction inputs generalizing env start with
  | nil => simp [serve]
  | cons input inputs ih =>
    have hh := hStep input start hs (hc _ mem_cons_self)
    intro entry he before event after ht
    rcases mem_cons.1 he with rfl | hl
    · exact hh.calls env ht
    · cases hHow : (run env (step input start)).1 with
      | error reason => simp [hHow] at hl
      | ok next =>
        simp only [hHow] at hl
        refine ih _ next (hh.result env hHow) ?_ entry hl before event after ht
        intro later hMem
        apply hc
        simp only [serve, hHow]
        exact .tail _ hMem

end Prog

/-- Handlers with state over a program that talks to its surroundings. -/
abbrev Handler (Req : Type) (Resp : Req → Type) (σ α : Type) := StateT σ (Prog Req Resp) α

namespace Handler

variable {Req : Type} {Resp : Req → Type} {σ α β : Type}

def ask (request : Req) : Handler Req Resp σ (Resp request) :=
  fun state => (Prog.ask request) >>= fun answer => pure (answer, state)

def stop (reason : Stop) : Handler Req Resp σ α := fun _ => .halt reason

def Meets (allowed : Trace Req Resp → Req → Prop) (post : α → σ → Trace Req Resp → Prop)
    (m : Handler Req Resp σ α) (state : σ) : Prop :=
  Prog.Meets allowed (fun out trace => post out.1 out.2 trace) (m state)

variable {allowed : Trace Req Resp → Req → Prop} {post : α → σ → Trace Req Resp → Prop} {state : σ}

@[simp] lemma meets_pure (a : α) : Meets allowed post (pure a) state ↔ post a state [] := Iff.rfl

@[simp] lemma meets_bind {post : β → σ → Trace Req Resp → Prop} (m : Handler Req Resp σ α)
    (f : α → Handler Req Resp σ β) : Meets allowed post (m >>= f) state ↔
      Meets allowed (fun a next trace => Meets (fun later => allowed (trace ++ later))
        (fun b last later => post b last (trace ++ later)) (f a) next) m state :=
  Prog.meets_bind _ _

@[simp] lemma meets_get {post : σ → σ → Trace Req Resp → Prop} :
    Meets allowed post get state ↔ post state state [] := Iff.rfl

@[simp] lemma meets_set {post : PUnit → σ → Trace Req Resp → Prop} (next : σ) :
    Meets allowed post (set next) state ↔ post ⟨⟩ next [] := Iff.rfl

@[simp] lemma meets_modify {post : PUnit → σ → Trace Req Resp → Prop} (f : σ → σ) :
    Meets allowed post (modify f) state ↔ post ⟨⟩ (f state) [] := Iff.rfl

@[simp] lemma meets_stop (reason : Stop) : Meets allowed post (stop reason) state ↔ True := Iff.rfl

variable {m : Handler Req Resp σ α} {request : Req}

@[simp] lemma meets_ask {post : Resp request → σ → Trace Req Resp → Prop} :
    Meets allowed post (ask request) state ↔
      allowed [] request ∧ ∀ answer, post answer state [⟨request, answer⟩] := by
  simp [Meets, ask, Prog.meets_bind, Prog.meets_ask, Prog.meets_pure]

lemma Meets.mono {allowed' : Trace Req Resp → Req → Prop} {post' : α → σ → Trace Req Resp → Prop}
    (h : Meets allowed post m state) (hMay : ∀ trace request, allowed trace request → allowed' trace request)
    (hp : ∀ a next trace, post a next trace → post' a next trace) : Meets allowed' post' m state :=
  Prog.Meets.mono h hMay fun _ _ => hp _ _ _

/-- A loop whose body says whether it goes on. The loop is followed for a number of rounds;
one that is not over by then is given up. -/
def iterate (body : β → Handler Req Resp σ (ForInStep β)) : Nat → β → Handler Req Resp σ β
  | 0, _ => stop .fatal
  | rounds + 1, b => do
    match ← body b with
    | .done b => pure b
    | .yield b => iterate body rounds b

/-- What is asked of a round: the postcondition of the last one, the invariant of the others. -/
def roundPost (post invariant : β → σ → Trace Req Resp → Prop) : ForInStep β → σ → Trace Req Resp → Prop
  | .done b => post b
  | .yield b => invariant b

/-- The rule for loops: what holds of the loop variables, of the state and of all calls so
far is kept by every round that goes on, and gives the postcondition in the last one. -/
lemma meets_iterate (allowed : Trace Req Resp → Req → Prop) {body : β → Handler Req Resp σ (ForInStep β)}
    {post : β → σ → Trace Req Resp → Prop} (invariant : β → σ → Trace Req Resp → Prop)
    (hb : ∀ b state past, invariant b state past → Meets (fun later => allowed (past ++ later))
      (fun step next later => roundPost post invariant step next (past ++ later)) (body b) state)
    (rounds : Nat) {b : β} {state : σ} {past : Trace Req Resp} (h : invariant b state past) :
    Meets (fun later => allowed (past ++ later)) (fun b next later => post b next (past ++ later))
      (iterate body rounds b) state := by
  induction rounds generalizing b state past with
  | zero => trivial
  | succ rounds ih =>
    rw [iterate, meets_bind]
    refine (hb b state past h).mono (fun _ _ hMay => hMay) ?_
    intro step next trace hs
    cases step with
    | done b =>
      show post b next (past ++ (trace ++ []))
      rw [append_nil]
      exact hs
    | yield b =>
      refine (ih hs).mono ?_ ?_
      · intro later request hMay
        rwa [append_assoc] at hMay
      · intro last final later hp
        rwa [append_assoc] at hp

def Sure (post : α → σ → Prop) (m : Handler Req Resp σ α) (state : σ) : Prop :=
  Prog.Sure (fun out => post out.1 out.2) (m state)

@[simp] lemma sure_bind {post : β → σ → Prop} (m : Handler Req Resp σ α) (f : α → Handler Req Resp σ β) :
    Sure post (m >>= f) state ↔ Sure (fun a next => Sure post (f a) next) m state :=
  Prog.sure_bind _ _

@[simp] lemma sure_get {post : σ → σ → Prop} :
    Sure post (get : Handler Req Resp σ σ) state ↔ post state state := Iff.rfl

lemma Sure.mono {post post' : α → σ → Prop} (h : Sure post m state)
    (hp : ∀ a next, post a next → post' a next) : Sure post' m state :=
  Prog.Sure.mono h fun _ => hp _ _

/-- Whatever the state and the answers are, only allowed calls are made. -/
def Only (allowed : Req → Prop) (m : Handler Req Resp σ α) : Prop :=
  ∀ state, Meets (fun _ => allowed) (fun _ _ _ => True) m state

variable {only : Req → Prop}

lemma Only.bind {f : α → Handler Req Resp σ β} (hm : Only only m) (hf : ∀ a, Only only (f a)) :
    Only only (m >>= f) := by
  intro state
  rw [meets_bind]
  exact (hm state).mono (fun _ _ h => h) fun a next _ _ => hf a next

lemma Only.pure (a : α) : Only only (pure a : Handler Req Resp σ α) := fun _ => trivial

lemma Only.get : Only only (get : Handler Req Resp σ σ) := fun _ => trivial

lemma Only.set (next : σ) : Only only (set next : Handler Req Resp σ PUnit) := fun _ => trivial

lemma Only.modify (f : σ → σ) : Only only (modify f : Handler Req Resp σ PUnit) :=
  fun _ => trivial

lemma Only.stop (reason : Stop) : Only only (stop reason : Handler Req Resp σ α) :=
  fun _ => trivial

lemma Only.ask (h : only request) : Only only (ask request : Handler Req Resp σ (Resp request)) :=
  fun _ => meets_ask.2 ⟨h, fun _ => trivial⟩

lemma Only.ite {c : Prop} [Decidable c] {n : Handler Req Resp σ α} (hm : Only only m)
    (hn : Only only n) : Only only (if c then m else n) := by
  split
  · exact hm
  · exact hn

lemma Only.meets (hm : Only only m) (h : ∀ trace request, only request → allowed trace request) :
    Meets allowed (fun _ _ _ => True) m state :=
  (hm state).mono h fun _ _ _ _ => trivial

lemma Only.mono {weaker : Req → Prop} (hm : Only only m)
    (h : ∀ request, only request → weaker request) : Only weaker m :=
  fun state => (hm state).mono (fun _ => h) fun _ _ _ _ => trivial

end Handler

end Base
