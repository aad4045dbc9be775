import Sshfortress.Base.Bytes
import Sshfortress.Base.Transition

/-! Several required authentications. Each configured list of methods is kept as
text, and a success removes the method from the front of the lists that start
with it. The lists are compared with a reading that knows nothing of text. -/
namespace Auth.Methods

open Base List

/-- The table of methods, built without GSSAPI. -/
inductive Authmethod where
  | none
  | pubkey
  | passwd
  | kbdint
  | hostbased
  deriving DecidableEq

namespace Authmethod

def name : Authmethod → Bytes
  | .none => text "none"
  | .pubkey => text "publickey"
  | .passwd => text "password"
  | .kbdint => text "keyboard-interactive"
  | .hostbased => text "hostbased"

def all : List Authmethod := [.none, .pubkey, .passwd, .kbdint, .hostbased]

lemma name_ne_nil (m : Authmethod) : m.name ≠ [] := by cases m <;> decide

end Authmethod

/-- Every comma-separated name, up to its colon, must be that of an enabled method. -/
def auth2MethodsValid (enabled : Authmethod → Bool) (methods : Bytes) : Bool :=
  methods ≠ [] && (methods.splitOn 44).all fun method =>
    Authmethod.all.any fun known => known.name = method.takeWhile (· ≠ 58) && enabled known

def auth2SetupMethodsLists (enabled : Authmethod → Bool) (configured : List Bytes) : Option (List Bytes) :=
  let kept := configured.filter (auth2MethodsValid enabled)
  if configured ≠ [] ∧ kept = [] then none else some kept

inductive Match where
  | none
  | method
  | both
  | unchecked
  deriving DecidableEq

def endsHere (p : Bytes) : Bool := p.head?.all (· = 44)

def listStartsWith (methods method : Bytes) (submethod : Option Bytes) : Match :=
  if method.isPrefixOf methods then
    match methods.drop method.length with
    | 58 :: p =>
      match submethod with
      | none => .unchecked
      | some submethod =>
        if submethod.isPrefixOf p && endsHere (p.drop submethod.length) then .both else .none
    | p => if endsHere p then .method else .none
  else .none

/-- What is left of a list that starts with the method. -/
def removeMethod (methods method : Bytes) (submethod : Option Bytes) : Option Bytes :=
  let found := listStartsWith methods method submethod
  if found = .method ∨ found = .both then
    let p := methods.drop method.length
    let p := match submethod with
      | some submethod => if found = .both then p.drop (1 + submethod.length) else p
      | none => p
    some (if p.head? = some 44 then p.drop 1 else p)
  else none

/-- The loop over the lists: the lists afterwards, whether the method was found, and
whether a list is complete. It stops at the first list that it completes. -/
def updateLists (method : Bytes) (submethod : Option Bytes) : List Bytes → List Bytes × Bool × Bool
  | [] => ([], false, false)
  | methods :: rest =>
    match removeMethod methods method submethod with
    | none =>
      let (rest, found, complete) := updateLists method submethod rest
      (methods :: rest, found, complete)
    | some [] => ([] :: rest, true, true)
    | some remaining =>
      let (rest, _, complete) := updateLists method submethod rest
      (remaining :: rest, true, complete)

def auth2UpdateMethodsLists (method : Bytes) (submethod : Option Bytes) (lists : List Bytes) :
    Except Stop (List Bytes × Bool) :=
  let (lists, found, complete) := updateLists method submethod lists
  if found then .ok (lists, complete) else .error .fatal

/-! What the lists mean. -/

/-- A name, as it stands in a list and as a success is reported. -/
structure Entry where
  method : Bytes
  submethod : Option Bytes
  method_plain : ∀ c ∈ method, (c == 44 || c == 58) = false
  submethod_plain : ∀ name ∈ submethod, ∀ c ∈ name, (c == 44) = false
  deriving DecidableEq

namespace Entry

def submethodText (e : Entry) : Bytes :=
  match e.submethod with
  | none => []
  | some submethod => 58 :: submethod

def text (e : Entry) : Bytes := e.method ++ e.submethodText

/-- An element without submethod accepts any, one with a submethod only that. -/
def accepts (e success : Entry) : Bool :=
  e.method = success.method && (e.submethod = none || e.submethod = success.submethod)

end Entry

def render (entries : List Entry) : Bytes := [44].intercalate (entries.map Entry.text)

/-- The successes that were each, when they happened, the next element of the list. -/
def matched : List Entry → List Entry → List Entry
  | [], _ => []
  | _, [] => []
  | e :: es, success :: successes =>
    if e.accepts success then success :: matched es successes
    else matched (e :: es) successes

def Complete (entries successes : List Entry) : Prop :=
  (matched entries successes).length = entries.length
  deriving Decidable

def remaining (entries successes : List Entry) : List Entry :=
  entries.drop (matched entries successes).length

/-- What one success does to the elements that are still to come. -/
def advance : List Entry → Entry → List Entry
  | [], _ => []
  | e :: es, success => if e.accepts success then es else e :: es

lemma remaining_nil (entries : List Entry) : remaining entries [] = entries := by
  cases entries with
  | nil => rfl
  | cons e es => rfl

lemma remaining_cons (entries : List Entry) (success : Entry) (successes : List Entry) :
    remaining entries (success :: successes) = remaining (advance entries success) successes := by
  cases entries with
  | nil => simp [remaining, advance]
  | cons e es =>
    unfold remaining
    rw [matched, advance]
    split_ifs with hAccepts
    · rfl
    · rfl

variable (entries successes : List Entry)

lemma remaining_append (success : Entry) :
    remaining entries (successes ++ [success]) = advance (remaining entries successes) success := by
  induction successes generalizing entries with
  | nil => rw [nil_append, remaining_cons, remaining_nil, remaining_nil]
  | cons first successes ih => rw [cons_append, remaining_cons, ih, remaining_cons]

lemma matched_length_le :
    (matched entries successes).length ≤ entries.length := by
  fun_induction matched entries successes with
  | case1 => exact Nat.le_refl _
  | case2 => exact Nat.zero_le _
  | case3 e es success successes ha ih => exact Nat.succ_le_succ ih
  | case4 e es success successes ha ih => exact ih

variable {entries successes : List Entry} {success e : Entry}

lemma complete_iff_remaining : Complete entries successes ↔ remaining entries successes = [] := by
  unfold Complete remaining
  rw [drop_eq_nil_iff]
  have hLe := matched_length_le entries successes
  omega

/-! Names in text. -/

lemma front_name_iff {stops : UInt8 → Bool} {name word tail : Bytes}
    (hn : ∀ c ∈ name, stops c = false) (hw : ∀ c ∈ word, stops c = false)
    (ht : ∀ c ∈ tail.head?, stops c = true) :
    (name <+: word ++ tail ∧ ∀ c ∈ ((word ++ tail).drop name.length).head?, stops c = true) ↔
      name = word := by
  induction name generalizing word with
  | nil =>
    cases word with
    | nil => simpa using ht
    | cons w ws =>
      have hs := hw w mem_cons_self
      simp [hs]
  | cons n ns ih =>
    cases word with
    | nil =>
      have hs := hn n mem_cons_self
      simp only [nil_append, reduceCtorEq, iff_false, not_and]
      rintro ⟨rest, rfl⟩
      have hf := ht n (by simp)
      rw [hs] at hf
      cases hf
    | cons w ws =>
      have hr := ih (fun c hc => hn c (.tail _ hc)) (fun c hc => hw c (.tail _ hc))
      rw [cons_append, cons_prefix_cons, length_cons, drop_succ_cons, List.cons.injEq, ← hr, and_assoc]

lemma endsHere_iff {p : Bytes} : endsHere p = true ↔ ∀ c ∈ p.head?, (c == 44) = true := by
  unfold endsHere
  cases p.head? <;> simp

def tailText : List Entry → Bytes
  | [] => []
  | e :: es => 44 :: render (e :: es)

lemma render_cons (e : Entry) (es : List Entry) : render (e :: es) = e.text ++ tailText es := by
  cases es with
  | nil => simp [render, tailText]
  | cons next es => simp [render, tailText]

variable (es : List Entry)

lemma tailText_head : ∀ c ∈ (tailText es).head?, (c == 44) = true := by
  cases es with
  | nil => simp [tailText]
  | cons next es => simp [tailText]

lemma afterMethod_head (e : Entry) (es : List Entry) :
    ∀ c ∈ (e.submethodText ++ tailText es).head?, (c == 44 || c == 58) = true := by
  intro c hc
  unfold Entry.submethodText at hc
  cases hSub : e.submethod with
  | none =>
    rw [hSub, nil_append] at hc
    rw [tailText_head es c hc, Bool.true_or]
  | some submethod =>
    rw [hSub] at hc
    simp only [cons_append, head?_cons, Option.mem_some_iff] at hc
    rw [← hc]
    rfl

lemma render_cons_method (e : Entry) (es : List Entry) :
    render (e :: es) = e.method ++ (e.submethodText ++ tailText es) := by
  rw [render_cons, Entry.text, append_assoc]

lemma listStartsWith_other (h : success.method ≠ e.method) :
    listStartsWith (render (e :: es)) success.method success.submethod = .none := by
  have hf := (front_name_iff success.method_plain e.method_plain (afterMethod_head e es)).not.2 h
  rw [← render_cons_method] at hf
  unfold listStartsWith
  split_ifs with hp
  · have hs := not_and.1 hf ( isPrefixOf_iff_prefix.1 hp)
    cases hd : (render (e :: es)).drop success.method.length with
    | nil =>
      rw [hd] at hs
      exact absurd (by simp) hs
    | cons c rest =>
      rw [hd] at hs
      simp only [head?_cons, Option.mem_some_iff, forall_eq', Bool.or_eq_true, beq_iff_eq, not_or] at hs
      simp [hs, endsHere]
  · rfl

lemma listStartsWith_same (h : success.method = e.method) :
    listStartsWith (render (e :: es)) success.method success.submethod =
      match e.submethod, success.submethod with
      | none, _ => .method
      | some _, none => .unchecked
      | some own, some submethod => if submethod = own then .both else .none := by
  unfold listStartsWith
  rw [render_cons_method, h]
  rw [if_pos ( isPrefixOf_iff_prefix.2 (prefix_append ..)), drop_left]
  unfold Entry.submethodText
  cases hOwn : e.submethod with
  | none =>
    cases es with
    | nil => rfl
    | cons next es => rfl
  | some own =>
    cases hSub : success.submethod with
    | none => rfl
    | some submethod =>
      have hf := front_name_iff (success.submethod_plain submethod hSub)
        (e.submethod_plain own hOwn) (tailText_head es)
      rw [← isPrefixOf_iff_prefix, ← endsHere_iff, ← Bool.and_eq_true] at hf
      dsimp only [cons_append]
      simp [hf]

lemma removeMethod_render (e success : Entry) (es : List Entry) :
    removeMethod (render (e :: es)) success.method success.submethod =
      if e.accepts success then some (render es) else none := by
  unfold removeMethod Entry.accepts
  by_cases hm : success.method = e.method
  · rw [listStartsWith_same es hm, render_cons_method, hm, drop_left]
    unfold Entry.submethodText
    cases hOwn : e.submethod with
    | none =>
      cases es with
      | nil => cases success.submethod <;> simp [tailText, render]
      | cons next es => cases success.submethod <;> simp [tailText]
    | some own =>
      cases hSub : success.submethod with
      | none => simp
      | some submethod =>
        by_cases hs : submethod = own
        · cases es with
          | nil => simp [hs, tailText, render, Nat.add_comm 1]
          | cons next es => simp [hs, tailText, Nat.add_comm 1]
        · simp [hs, Ne.symm hs]
  · simp [listStartsWith_other es hm, Ne.symm hm]

/-! One call on lists that are not yet complete. -/

/-- Every element names a method, so that only the empty list has no text. -/
def Named (entries : List Entry) : Prop := ∀ e ∈ entries, e.method ≠ []

def startsWith (entries : List Entry) (success : Entry) : Bool :=
  entries.head?.any fun e => e.accepts success

lemma Named.advance (h : Named entries) (success : Entry) : Named (advance entries success) := by
  cases entries with
  | nil => exact h
  | cons e es =>
    rw [Methods.advance]
    split_ifs with hAccepts
    · exact fun later hl => h later (.tail _ hl)
    · exact h

lemma advance_of_not_startsWith (h : startsWith entries success = false) :
    advance entries success = entries := by
  cases entries with
  | nil => rfl
  | cons e es =>
    have hr : e.accepts success = false := h
    rw [advance, hr]
    rfl

lemma text_ne_nil (h : e.method ≠ []) : e.text ≠ [] :=
  append_ne_nil_of_left_ne_nil h _

lemma render_eq_nil_iff (h : Named entries) : render entries = [] ↔ entries = [] := by
  cases entries with
  | nil => simp [render]
  | cons e es =>
    have ht := text_ne_nil (h e mem_cons_self)
    simp [render_cons, ht]

lemma render_advance_eq_iff (h : Named entries) (success : Entry) :
    render entries = render (advance entries success) ↔ startsWith entries success = false := by
  constructor
  · intro hSame
    by_contra hs
    cases entries with
    | nil => exact hs rfl
    | cons e es =>
      have ha : e.accepts success = true := by simpa [startsWith] using hs
      have hText : 0 < e.text.length :=
        length_pos_iff.2 (text_ne_nil (h e mem_cons_self))
      have hLen := congrArg List.length hSame
      rw [advance, if_pos ha, render_cons, length_append] at hLen
      have hTail : (render es).length ≤ (tailText es).length := by
        cases es with
        | nil => exact Nat.le_refl _
        | cons next es => exact Nat.le_succ _
      omega
  · intro hs
    rw [advance_of_not_startsWith hs]

lemma removeMethod_eq (success : Entry) (hOpen : entries ≠ []) :
    removeMethod (render entries) success.method success.submethod =
      if startsWith entries success then some (render (advance entries success)) else none := by
  cases entries with
  | nil => exact absurd rfl hOpen
  | cons e es =>
    rw [removeMethod_render]
    have hs : startsWith (e :: es) success = e.accepts success := rfl
    rw [hs, advance]
    split_ifs with hAccepts
    · rfl
    · rfl

section Call

variable {lists : List (List Entry)} (success : Entry) (hOpen : ∀ l ∈ lists, l ≠ [])
  (hNamed : ∀ l ∈ lists, Named l)

/-- No list starts with the success that stands behind one which the success completes. -/
def Steady (lists : List (List Entry)) : Prop :=
  lists.Pairwise fun earlier later =>
    advance earlier success = [] → startsWith later success = false

omit hOpen hNamed in
lemma updateLists_cons (texts : List Bytes) (hOpen : entries ≠ []) (hNamed : Named entries) :
    updateLists success.method success.submethod (render entries :: texts) =
      let rest := updateLists success.method success.submethod texts
      if startsWith entries success = false then (render entries :: rest.1, rest.2.1, rest.2.2)
      else if advance entries success = [] then ([] :: texts, true, true)
      else (render (advance entries success) :: rest.1, true, rest.2.2) := by
  have ht := render_eq_nil_iff (hNamed.advance success)
  rw [updateLists, removeMethod_eq success hOpen]
  cases startsWith entries success with
  | false => rfl
  | true =>
    cases hl : render (advance entries success) with
    | nil => simp [ht.1 hl]
    | cons c rest =>
      have hm : advance entries success ≠ [] := by
        intro hn
        rw [ht.2 hn] at hl
        cases hl
      simp [hm]

include hOpen hNamed

lemma updateLists_flags : ((updateLists success.method success.submethod (lists.map render)).2.1 = true ↔
    ∃ l ∈ lists, startsWith l success = true) ∧
      ((updateLists success.method success.submethod (lists.map render)).2.2 = true ↔
        ∃ l ∈ lists, advance l success = []) := by
  induction lists with
  | nil => simp [updateLists]
  | cons l lists ih =>
    rw [forall_mem_cons] at hOpen hNamed
    obtain ⟨hf, hc⟩ := ih hOpen.2 hNamed.2
    rw [map_cons, updateLists_cons success _ hOpen.1 hNamed.1]
    split_ifs with ho hd
    · simp [hf, hc, ho, advance_of_not_startsWith ho, hOpen.1]
    · simp [ho, hd]
    · simp [hc, ho, hd]

lemma updateLists_texts : (updateLists success.method success.submethod (lists.map render)).1 =
    lists.map (fun l => render (advance l success)) ↔ Steady success lists := by
  induction lists with
  | nil => simp [updateLists, Steady]
  | cons l lists ih =>
    rw [forall_mem_cons] at hOpen hNamed
    have hr := ih hOpen.2 hNamed.2
    rw [Steady, pairwise_cons, map_cons, map_cons, updateLists_cons success _ hOpen.1 hNamed.1]
    split_ifs with ho hd
    · simp [advance_of_not_startsWith ho, hr, hOpen.1, Steady]
    · -- The loop stops here, so the lists behind must have nothing to lose.
      have hk : lists.map render = lists.map (fun later => render (advance later success)) ↔
        ∀ later ∈ lists, startsWith later success = false := by
        rw [map_inj_left]
        exact forall₂_congr fun later hl => render_advance_eq_iff (hNamed.2 later hl) success
      simp only [hd, show render [] = [] from rfl, List.cons.injEq, true_and, hk, forall_const]
      constructor
      · intro hn
        refine ⟨hn, pairwise_of_forall_mem_list ?_⟩
        intro earlier hEarlier later hl _
        exact hn later hl
      · intro h
        exact h.1
    · simp [hr, hd, Steady]

end Call

/-! Whole sequences of successes. -/

def report (lists : List Bytes) (success : Entry) : Except Stop (List Bytes × List Bool) := do
  let (lists, complete) ← auth2UpdateMethodsLists success.method success.submethod lists
  return (lists, [complete])

variable {lists next : List Bytes} {enabled : Authmethod → Bool}

lemma auth2UpdateMethodsLists_eq_ok {method : Bytes} {submethod : Option Bytes} {complete : Bool} :
    auth2UpdateMethodsLists method submethod lists = .ok (next, complete) ↔
      (updateLists method submethod lists).2.1 = true ∧ (updateLists method submethod lists).1 = next ∧
        (updateLists method submethod lists).2.2 = complete := by
  unfold auth2UpdateMethodsLists
  dsimp only
  split_ifs with hf
  · simp [hf]
  · simp [hf]

lemma report_eq_ok {events : List Bool} (h : report lists success = .ok (next, events)) :
    ∃ complete, auth2UpdateMethodsLists success.method success.submethod lists = .ok (next, complete) ∧
      events = [complete] := by
  obtain ⟨⟨after, complete⟩, hc, hd⟩ := bind_eq_ok.1 h
  cases hd
  exact ⟨complete, hc, rfl⟩

lemma remaining_ne_nil_iff : remaining entries successes ≠ [] ↔ ¬ Complete entries successes :=
  complete_iff_remaining.not.symm

lemma ne_nil_of_remaining (h : remaining entries successes ≠ []) : entries ≠ [] := by
  rintro rfl
  exact h (drop_nil ..)

/-- As long as no list is complete every call returns 0, and the texts are those of
the elements that are still to come. -/
lemma run_report {lists : List (List Entry)} {texts : List Bytes} {returned : List Bool}
    (hNamed : ∀ l ∈ lists, Named l) (hOpen : ∀ l ∈ lists, ¬ Complete l successes)
    (hRun : Transition.run report (lists.map render) successes = .ok (texts, returned)) :
    texts = lists.map (fun l => render (remaining l successes)) ∧ true ∉ returned := by
  induction successes generalizing lists returned with
  | nil =>
    cases hRun
    simp [remaining_nil]
  | cons success successes ih =>
    obtain ⟨next, first, rest, hStep, hr, rfl⟩ := Transition.run_cons_eq_ok.1 hRun
    obtain ⟨complete, hCall, rfl⟩ := report_eq_ok hStep
    obtain ⟨-, ht, hc⟩ := auth2UpdateMethodsLists_eq_ok.1 hCall
    have hLeft : ∀ l ∈ lists, remaining (advance l success) successes ≠ [] := by
      intro l hl
      rw [← remaining_cons]
      exact remaining_ne_nil_iff.2 (hOpen l hl)
    have hm : ∀ l ∈ lists, advance l success ≠ [] := fun l hl => ne_nil_of_remaining (hLeft l hl)
    have hf : ∀ l ∈ lists, l ≠ [] := by
      intro l hl hn
      rw [hn] at hl
      exact hm [] hl rfl
    have hs : Steady success lists :=
      pairwise_of_forall_mem_list fun earlier he later _ hd =>
        absurd hd (hm earlier he)
    have hNext : next = (lists.map (advance · success)).map render := by
      rw [← ht, (updateLists_texts success hf hNamed).2 hs, map_map]
      rfl
    have hz : complete = false := by
      rw [← hc, ← Bool.not_eq_true, (updateLists_flags success hf hNamed).2]
      rintro ⟨l, hl, hd⟩
      exact hm l hl hd
    rw [hNext] at hr
    obtain ⟨hEnd, hReturned⟩ := ih (by
        rintro _ hMem
        obtain ⟨l, hl, rfl⟩ := mem_map.1 hMem
        exact (hNamed l hl).advance success)
      (by
        rintro _ hMem
        obtain ⟨l, hl, rfl⟩ := mem_map.1 hMem
        exact remaining_ne_nil_iff.1 (hLeft l hl))
      hr
    refine ⟨?_, by simp [hz, hReturned]⟩
    rw [hEnd, map_map]
    exact map_congr_left fun l _ => by rw [remaining_cons]; rfl

lemma text_plain (e : Entry) : 44 ∉ e.text := by
  intro hMem
  rcases mem_append.1 hMem with hm | hSub
  · have hp := e.method_plain 44 hm
    simp at hp
  · unfold Entry.submethodText at hSub
    cases hOwn : e.submethod with
    | none => simp [hOwn] at hSub
    | some submethod =>
      rw [hOwn] at hSub
      rcases mem_cons.1 hSub with hc | hn
      · cases hc
      · have hp := e.submethod_plain submethod hOwn 44 hn
        simp at hp

lemma takeWhile_text (e : Entry) : e.text.takeWhile (· ≠ 58) = e.method := by
  have hm : ∀ c ∈ e.method, decide (c ≠ 58) = true := by
    intro c hc
    have hp := e.method_plain c hc
    simp only [Bool.or_eq_false_iff, beq_eq_false_iff_ne] at hp
    simpa using hp.2
  unfold Entry.text Entry.submethodText
  rw [takeWhile_append_of_pos hm]
  cases e.submethod with
  | none => simp
  | some submethod => simp

lemma named_of_valid (h : auth2MethodsValid enabled (render entries) = true) : Named entries := by
  obtain ⟨ht, hAll⟩ := Bool.and_eq_true_iff.1 h
  have hSome : entries ≠ [] := by
    rintro rfl
    simp [render] at ht
  have hs : (render entries).splitOn 44 = entries.map Entry.text := by
    apply splitOn_intercalate
    · simp only [mem_map, forall_exists_index, and_imp, forall_apply_eq_imp_iff₂]
      exact fun e _ => text_plain e
    · simpa using hSome
  rw [hs] at hAll
  intro e he hEmpty
  have hk := all_eq_true.1 hAll e.text (mem_map_of_mem he)
  obtain ⟨known, -, hn⟩ := any_eq_true.1 hk
  rw [takeWhile_text, hEmpty, Bool.and_eq_true, decide_eq_true_eq] at hn
  exact known.name_ne_nil hn.1

lemma valid_of_setup {configured kept : List Bytes}
    (h : auth2SetupMethodsLists enabled configured = some kept) :
    ∀ methods ∈ kept, auth2MethodsValid enabled methods = true := by
  unfold auth2SetupMethodsLists at h
  dsimp only at h
  split_ifs at h
  cases h
  intro methods hk
  exact (mem_filter.1 hk).2

/-- Up to the success that completes a list: the texts are the elements still to come,
the call returns 1 exactly if some list is now complete, and its texts are right
exactly if no list behind a completed one had the same method to lose. -/
theorem successes_track_lists (enabled : Authmethod → Bool) (configured : List Bytes)
    (lists : List (List Entry)) (hSetup : auth2SetupMethodsLists enabled configured = some (lists.map render))
    (successes : List Entry) (success : Entry) (hOpen : ∀ l ∈ lists, ¬ Complete l successes)
    {texts : List Bytes} {returned : List Bool}
    (hRun : Transition.run report (lists.map render) successes = .ok (texts, returned)) :
    texts = lists.map (fun l => render (remaining l successes)) ∧ true ∉ returned ∧
    ((∃ next, auth2UpdateMethodsLists success.method success.submethod texts = .ok (next, true)) ↔
      ∃ l ∈ lists, Complete l (successes ++ [success])) ∧ ∀ next complete,
      auth2UpdateMethodsLists success.method success.submethod texts = .ok (next, complete) →
        (next = lists.map (fun l => render (remaining l (successes ++ [success]))) ↔
          Steady success (lists.map (remaining · successes))) := by
  have hNamed : ∀ l ∈ lists, Named l := fun l hl =>
    named_of_valid (valid_of_setup hSetup _ (mem_map_of_mem hl))
  obtain ⟨hTexts, hReturned⟩ := run_report hNamed hOpen hRun
  have hShape : texts = (lists.map (remaining · successes)).map render := by
    rw [hTexts, map_map]
    rfl
  have hLeft : ∀ l ∈ lists.map (remaining · successes), l ≠ [] := by
    intro l hl
    obtain ⟨entries, hEntries, rfl⟩ := mem_map.1 hl
    exact remaining_ne_nil_iff.2 (hOpen entries hEntries)
  have hLeftNamed : ∀ l ∈ lists.map (remaining · successes), Named l := by
    intro l hl
    obtain ⟨entries, hEntries, rfl⟩ := mem_map.1 hl
    exact fun e he => hNamed entries hEntries e (mem_of_mem_drop he)
  obtain ⟨hFound, hComplete⟩ := updateLists_flags success hLeft hLeftNamed
  have hAfter := updateLists_texts success hLeft hLeftNamed
  simp only [map_map, Function.comp_def, ← remaining_append] at hAfter
  rw [hShape]
  refine ⟨by rw [← hShape, hTexts], hReturned, ?_, ?_⟩
  · rw [← hShape]
    constructor
    · rintro ⟨next, hCall⟩
      rw [hShape] at hCall
      obtain ⟨-, -, hDone⟩ := auth2UpdateMethodsLists_eq_ok.1 hCall
      obtain ⟨l, hl, hNone⟩ := hComplete.1 hDone
      obtain ⟨entries, hEntries, rfl⟩ := mem_map.1 hl
      rw [← remaining_append] at hNone
      exact ⟨entries, hEntries, complete_iff_remaining.2 hNone⟩
    · rintro ⟨entries, hEntries, hDone⟩
      have hNone := complete_iff_remaining.1 hDone
      rw [remaining_append] at hNone
      have hMem := mem_map_of_mem (f := (remaining · successes)) hEntries
      have hStarts : startsWith (remaining entries successes) success = true := by
        by_contra hNot
        rw [advance_of_not_startsWith (Bool.eq_false_iff.2 hNot)] at hNone
        exact hLeft _ hMem hNone
      rw [hShape]
      exact ⟨_, auth2UpdateMethodsLists_eq_ok.2
        ⟨hFound.2 ⟨_, hMem, hStarts⟩, rfl, hComplete.2 ⟨_, hMem, hNone⟩⟩⟩
  · intro next complete hCall
    obtain ⟨-, hNext, -⟩ := auth2UpdateMethodsLists_eq_ok.1 hCall
    rw [← hNext, map_map]
    exact hAfter

def publickey : Entry := ⟨text "publickey", none, by decide +kernel, by simp⟩
def password : Entry := ⟨text "password", none, by decide +kernel, by simp⟩
def pamDialogue : Entry :=
  ⟨text "keyboard-interactive", some (text "pam"), by decide +kernel, by decide +kernel⟩

def twoWays : List (List Entry) := [[publickey, password], [publickey, pamDialogue]]

theorem successes_track_twoWays :
    ∃ next, auth2UpdateMethodsLists (text "keyboard-interactive") (some (text "pam"))
      [text "password", text "keyboard-interactive:pam"] = .ok (next, true) := by
  have hRun : Transition.run report (twoWays.map render) [publickey] =
    .ok ([text "password", text "keyboard-interactive:pam"], [false]) := by rfl
  have hTrack := successes_track_lists (fun _ => true) (twoWays.map render) twoWays (by decide)
    [publickey] pamDialogue (by decide) hRun
  exact hTrack.2.2.1.2 ⟨[publickey, pamDialogue], by decide, by decide⟩

def shortAndLong : List (List Entry) := [[password], [password, publickey]]

/-- The first success completes the short list, and the long one keeps a method that
has been used; the success that would complete it too ends the process. -/
theorem early_return_keeps_method : auth2SetupMethodsLists (fun _ => true) (shortAndLong.map render) =
    some (shortAndLong.map render) ∧ Transition.run report (shortAndLong.map render) [password] =
    .ok ([[], text "password,publickey"], [true]) ∧
    shortAndLong.map (fun l => render (remaining l [password])) = [[], text "publickey"] ∧
    (∀ l ∈ shortAndLong, Complete l [password, publickey]) ∧
    report [[], text "password,publickey"] publickey = .error .fatal :=
  ⟨by decide, by rfl, by decide, by decide, by rfl⟩

end Auth.Methods
