import Sshfortress.Monitor.Preauth

/-! Names of the form `N--I`: which account and which target the login statement asks
for. The name is cut at its first dash, not at the dashes that were found, and both
parts are put into the statement as they are. -/
namespace Monitor
open Base Base.Wire Base.Mysql Auth List

/-- The two places that build the login statement. -/
inductive Lookup where
  | pwnamallow
  | userblob
  deriving DecidableEq

def Lookup.indent : Lookup → String
  | .pwnamallow => ""
  | .userblob => "\t"

/-- The statement for a user string as it was received. The first place has copied the
string to `audituser` before. -/
def Lookup.query (lookup : Lookup) (user : Bytes) : Option Bytes :=
  match lookup with
  | .pwnamallow => (strcpy 256 (some user)).toOption.bind (loginQuery "")
  | .userblob => loginQuery "\t" (cstr user)

variable {user query rest needle : Bytes} {db : Answers} {process next : Process}
  {fields : Bytes × Bytes} {c : UInt8}

lemma mmAnswerPwnamallow_query {cfg : Config} {w : World} {s next : State} {m username : Bytes}
    {handled : Handled} (hn : getString m = some (username, rest))
    (hq : Lookup.query .pwnamallow username = some query)
    (h : mmAnswerPwnamallow cfg w s m = .ok (next, handled)) : next.process.getQuery = query := by
  obtain ⟨audituser, ha, hl⟩ := Option.bind_eq_some_iff.1 hq
  rw [toOption_eq_some] at ha
  unfold mmAnswerPwnamallow at h
  simp only [hn, need, ok_bind, ha, hl] at h
  split at h
  · cases h
  · cases h
    rfl

lemma copyTarget_query (h : copyTarget db process = .ok next) : next.getQuery = process.getQuery := by
  unfold copyTarget at h
  split at h
  · split at h
    · cases h
    · obtain ⟨columns, -, hd⟩ := bind_eq_ok.1 h
      cases hd
      rfl
  · cases h
    rfl

lemma monitorValidUserblob_query {s : Session} {data : Bytes} {valid : Bool}
    (hu : blobUser s data = some user) (hq : loginQuery "\t" user = some query)
    (h : monitorValidUserblob s db process data = .ok (valid, next)) : next.getQuery = query := by
  obtain ⟨fail, rest, hh⟩ := blobUser_eq_some.1 hu
  unfold monitorValidUserblob at h
  simp only [hh, ok_bind, hq] at h
  split at h
  · cases h
    rfl
  · obtain ⟨copied, hc, hr⟩ := bind_eq_ok.1 h
    obtain ⟨fail', -, hd⟩ := bind_eq_ok.1 hr
    cases hd
    exact copyTarget_query hc

/-! The two parts of a name. -/

/-- What the statement asks for: the account and the target. -/
def loginFields (user : Bytes) : Option (Bytes × Bytes) :=
  (strstr (text "--") user).map fun dstuid =>
    ((strtok 45 user).getD (text "(null)"),
      cstr ((strtokCut 45 user).drop (user.length - dstuid.length + 2)))

lemma loginQuery_eq (indent : String) (user : Bytes) : loginQuery indent user =
    (loginFields user).map fun fields => snprintf 2048 (loginSelect indent fields.1 fields.2) := by
  simp only [loginQuery, loginFields, Option.map_map, Function.comp_def]

lemma dashes : text "--" = [45, 45] := by decide

lemma strtok_eq_some {token : Bytes} (h : strtok 45 user = some token) : token ≠ [] ∧ 45 ∉ token := by
  unfold strtok at h
  split at h
  · cases h
  · next c rest hr =>
    cases h
    have hf : c ≠ 45 := by
      have hh := head?_dropWhile_not (· = 45) user
      rw [hr] at hh
      simpa using hh
    refine ⟨by simp [hf], fun hMem => ?_⟩
    simpa using mem_takeWhile_imp hMem

lemma name_spelled (h : loginFields user = some fields) : fields.1 ≠ [] ∧ 45 ∉ fields.1 := by
  obtain ⟨dstuid, -, rfl⟩ := Option.map_eq_some_iff.1 h
  cases ht : strtok 45 user with
  | none =>
    have hn : text "(null)" ≠ [] ∧ 45 ∉ text "(null)" := by decide
    exact hn
  | some token => exact strtok_eq_some ht

lemma strstr_skip {front : Bytes} (hf : c ∉ front) (hFound : strstr (c :: needle) rest = some rest) :
    strstr (c :: needle) (front ++ rest) = some rest := by
  induction front with
  | nil => exact hFound
  | cons d front ih =>
    rw [mem_cons, not_or] at hf
    have ho : ((c :: needle).isPrefixOf (d :: (front ++ rest))) = false := by
      simp [List.isPrefixOf, hf.1]
    rw [cons_append, strstr, ho]
    exact ih hf.2

lemma strstr_absent {s : Bytes} (h : c ∉ s) : strstr (c :: needle) s = none := by
  induction s with
  | nil => rfl
  | cons d rest ih =>
    rw [mem_cons, not_or] at h
    have ho : ((c :: needle).isPrefixOf (d :: rest)) = false := by simp [List.isPrefixOf, h.1]
    rw [strstr, ho]
    exact ih h.2

lemma loginFields_plain {name id : Bytes} (hName : name ≠ []) (hd : 45 ∉ name) (hNul : 0 ∉ id) :
    loginFields (name ++ text "--" ++ id) = some (name, id) := by
  have hn : ∀ c ∈ name, decide (c ≠ 45) = true := by
    intro c hc
    have ho : c ≠ 45 := fun hEq => hd (hEq ▸ hc)
    simpa using ho
  have hs : (name ++ 45 :: 45 :: id).dropWhile (· = 45) = name ++ 45 :: 45 :: id := by
    cases name with
    | nil => exact absurd rfl hName
    | cons c rest =>
      have hf : ¬ c = 45 := by simpa using hn c mem_cons_self
      simp [hf]
  have hl : (name ++ 45 :: 45 :: id).takeWhile (· = 45) = [] := by
    cases name with
    | nil => exact absurd rfl hName
    | cons c rest =>
      have hf : ¬ c = 45 := by simpa using hn c mem_cons_self
      simp [hf]
  have ht : (name ++ 45 :: 45 :: id).takeWhile (· ≠ 45) = name := by
    rw [takeWhile_append_of_pos hn]
    simp
  have hDrop : (name ++ 45 :: 45 :: id).dropWhile (· ≠ 45) = 45 :: 45 :: id := by
    rw [dropWhile_append_of_pos hn]
    simp
  have hFound : strstr [45, 45] (name ++ 45 :: 45 :: id) = some (45 :: 45 :: id) :=
    strstr_skip hd (by simp [strstr, List.isPrefixOf])
  have hToken : strtok 45 (name ++ 45 :: 45 :: id) = some name := by
    rw [strtok, hs]
    cases hu : name ++ 45 :: 45 :: id with
    | nil => simp at hu
    | cons c rest =>
      dsimp only
      rw [← hu, ht]
  have hCut : strtokCut 45 (name ++ 45 :: 45 :: id) = name ++ 0 :: 45 :: id := by
    rw [strtokCut, hs, hl, ht, hDrop]
    rfl
  have hw : name ++ text "--" ++ id = name ++ 45 :: 45 :: id := by
    rw [dashes, append_assoc]
    rfl
  have hb : (name ++ 45 :: 45 :: id).length - (45 :: 45 :: id).length + 2 = name.length + 2 := by
    rw [length_append]
    omega
  have hStr : cstr id = id := cstr_eq_self hNul
  rw [hw, loginFields, dashes, hFound, Option.map_some, hToken, hCut, hb, drop_length_add_append]
  simp [hStr]

/-! When the statement asks for what the name says. -/

/-- The statement is whole, and its literals are `name`, `name` and `id` as the database
reads them. -/
def Resolved (lookup : Lookup) (name id : Bytes) : Prop :=
  ∃ fields, loginFields (cstr (name ++ text "--" ++ id)) = some fields ∧
    lookup.query (name ++ text "--" ++ id) = some (loginSelect lookup.indent fields.1 fields.2) ∧
    Spells 39 fields.1 name ∧ Spells 39 fields.2 id

/-- A name that comes through unharmed: it has no dash, neither part has a quote or an
escape, and everything fits its buffer. -/
structure Unharmed (lookup : Lookup) (name id : Bytes) : Prop where
  some : name ≠ []
  dash : 45 ∉ name
  nul : 0 ∉ name ∧ 0 ∉ id
  plainName : plain 39 name = true
  plainId : plain 39 id = true
  fits : (loginSelect lookup.indent name id).length < 2048
  copied : lookup = .pwnamallow → (name ++ text "--" ++ id).length < 256

lemma query_whole {lookup : Lookup} (hf : loginFields (cstr user) = some fields) :
    lookup.query user = some query ↔ query = snprintf 2048 (loginSelect lookup.indent fields.1 fields.2) ∧
      (lookup = .pwnamallow → (cstr user).length < 256) := by
  cases lookup with
  | userblob => simp [Lookup.query, loginQuery_eq, hf, Lookup.indent, eq_comm]
  | pwnamallow =>
    by_cases hFits : (cstr user).length < 256
    · simp [Lookup.query, strcpy, hFits, Except.toOption, loginQuery_eq, hf, Lookup.indent, eq_comm]
    · simp [Lookup.query, strcpy, hFits, Except.toOption]

/-- The statement asks for the account and the target of the name exactly when the name
comes through unharmed. -/
theorem login_resolved (lookup : Lookup) (name id : Bytes) :
    Resolved lookup name id ↔ Unharmed lookup name id := by
  constructor
  · rintro ⟨fields, hFields, hQuery, hName, hId⟩
    obtain ⟨hSome, hDash⟩ := name_spelled hFields
    have hNameSome := hName.ne_nil (by decide) hSome
    have hNameDash : 45 ∉ name := by
      intro hMem
      rcases hName.mem (by decide) hMem with hSource | hQuote | hControl
      · exact hDash hSource
      · revert hQuote
        decide
      · revert hControl
        decide
    have hNameNul : 0 ∉ name := by
      intro hMem
      have hCut : 45 ∉ cstr name := fun h => hNameDash (List.IsPrefix.subset ( cstr_prefix name) h)
      rw [append_assoc, cstr_append_of_mem hMem, loginFields, dashes, strstr_absent hCut] at hFields
      cases hFields
    have hUser : cstr (name ++ text "--" ++ id) = name ++ text "--" ++ cstr id := by
      rw [append_assoc, cstr_append hNameNul, cstr_append (by decide), append_assoc]
    have hRead := loginFields_plain hNameSome hNameDash (zero_notMem_cstr id)
    rw [← hUser, hFields] at hRead
    cases hRead
    -- Nothing longer than the text between the quotes is read from it.
    have hLength : (cstr id).length ≤ id.length := List.IsPrefix.length_le ( cstr_prefix id)
    obtain ⟨hShort, hSame⟩ := hId.length (by decide)
    obtain ⟨hString, hPlainId⟩ := hSame (Nat.le_antisymm hShort hLength)
    have hIdNul : 0 ∉ id := by
      rw [hString]
      exact zero_notMem_cstr id
    rw [cstr_eq_self hIdNul] at hPlainId hQuery hFields hUser
    obtain ⟨hFits, hCopied⟩ := (query_whole hFields).1 hQuery
    refine ⟨hNameSome, hNameDash, ⟨hNameNul, hIdNul⟩, ((hName.length (by decide)).2 rfl).2, hPlainId, ?_, ?_⟩
    · have hTaken := congrArg List.length hFits
      rw [snprintf, length_take] at hTaken
      dsimp only at hTaken
      omega
    · rwa [hUser] at hCopied
  · intro h
    have hNul : 0 ∉ name ++ text "--" ++ id := by simp [h.nul.1, h.nul.2, dashes]
    have hFields := loginFields_plain h.some h.dash h.nul.2
    rw [← cstr_eq_self hNul] at hFields
    refine ⟨(name, id), hFields, ?_, (Spells.self_iff (by decide) (by decide)).2 h.plainName,
      (Spells.self_iff (by decide) (by decide)).2 h.plainId⟩
    rw [query_whole hFields, snprintf_eq_self h.fits, cstr_eq_self hNul]
    exact ⟨rfl, h.copied⟩

/-- A dash inside the name cuts it: the login is resolved for another account. -/
theorem login_cut : ¬ Resolved .pwnamallow (text "db-admin") (text "3") := by
  rintro ⟨fields, hFields, -, hName, -⟩
  have hCut : loginFields (cstr (text "db-admin" ++ text "--" ++ text "3")) = some (text "db", text "3") := by
    decide
  rw [hCut] at hFields
  cases hFields
  have hRead := hName 32 [] (by decide)
  revert hRead
  decide

end Monitor
