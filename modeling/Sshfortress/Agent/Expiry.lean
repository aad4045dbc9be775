import Sshfortress.Base.Bytes

/-! When the identities of `ssh-agent` expire. They are removed before and after the agent waits,
not when they are used: a request that is handled after the clock has gone on, or after a key was
added for no time at all, still finds them. -/
namespace Agent
open Base List

inductive Version where
  | one
  | two
  deriving DecidableEq

/-- An identity. A `death` of 0 is never. -/
structure Identity (K : Type) where
  key : K
  comment : Bytes
  death : Nat
  confirm : Bool

structure Idtab (K : Type) where
  nentries : Nat
  idlist : List (Identity K)

/-- The tables, and the salt and hash of the password that locks them. -/
structure Store (K : Type) where
  idtable : Version → Idtab K
  locked : Option (Bytes × Bytes)

variable {K : Type} {now : Nat} {store : Store K}

def Identity.expired (now : Nat) (id : Identity K) : Bool := id.death ≠ 0 && id.death ≤ now

def reaper (now : Nat) (store : Store K) : Store K :=
  { store with idtable := fun version =>
      let tab := store.idtable version
      ⟨tab.nentries - tab.idlist.countP (·.expired now), tab.idlist.filter (!·.expired now)⟩ }

inductive Constraint where
  | lifetime (seconds : Nat)
  | confirm
  | unknown
  deriving DecidableEq

/-- A request behind its type. The user is asked about a use, and may allow it. -/
inductive Request (K : Type) where
  | sign (version : Version) (key : K) (allowed : Bool)
  | list (version : Version)
  | add (version : Version) (key : K) (comment : Bytes) (constraints : List Constraint)
  | remove (version : Version) (key : K)
  | removeAll (version : Version)
  | lock (passwd salt : Bytes)
  | unlock (passwd : Bytes)

/-- What is seen of the identities: the one that signs, or an answer with its count. -/
inductive Use (K : Type) where
  | signed (now : Nat) (id : Identity K)
  | listed (now count : Nat) (ids : List (Identity K))

/-- The death and the confirmation that the constraints ask for. -/
def constrain (now : Nat) : List Constraint → Nat × Bool → Option (Nat × Bool)
  | [], found => some found
  | .lifetime seconds :: rest, found => constrain now rest (now + seconds, found.2)
  | .confirm :: rest, found => constrain now rest (found.1, true)
  | .unknown :: _, _ => none

def Store.set (store : Store K) (version : Version) (tab : Idtab K) : Store K :=
  { store with idtable := Function.update store.idtable version tab }

def Store.Counted (store : Store K) : Prop :=
  ∀ version, (store.idtable version).nentries = (store.idtable version).idlist.length

/-- What holds of the tables from a sweep on. -/
structure Store.Sound (store : Store K) (now : Nat) : Prop where
  counted : store.Counted
  live : ∀ version, ∀ id ∈ (store.idtable version).idlist, id.expired now = false

lemma sound_reaper (now : Nat) (h : store.Counted) : (reaper now store).Sound now where
  counted version := by
    have hSum := (store.idtable version).idlist.length_eq_countP_add_countP (·.expired now)
    simp only [Bool.not_eq_true, Bool.decide_eq_false, countP_eq_length_filter] at hSum
    simp only [reaper, h version, countP_eq_length_filter]
    omega
  live version id hMem := by simpa using (mem_filter.1 hMem).2

lemma Store.Sound.set (h : store.Sound now) (version : Version) {tab : Idtab K}
    (hc : tab.nentries = tab.idlist.length) (hl : ∀ id ∈ tab.idlist, id.expired now = false) :
    (store.set version tab).Sound now where
  counted other := by
    by_cases ho : other = version
    · subst ho
      simpa [Store.set] using hc
    · simpa [Store.set, ho] using h.counted other
  live other := by
    by_cases ho : other = version
    · subst ho
      simpa [Store.set] using hl
    · simpa [Store.set, ho] using h.live other

variable [DecidableEq K] (pbkdf : Bytes → Bytes → Bytes) (lifetime : Nat)

/-- A key that is there gets the new comment, death and confirmation. -/
def insert (id : Identity K) : List (Identity K) → List (Identity K)
  | [] => [id]
  | old :: rest => if old.key = id.key then id :: rest else old :: insert id rest

/-- What `process_message` does about the request, and what is seen of it. -/
def handle (now : Nat) (store : Store K) (request : Request K) : Store K × List (Use K) :=
  match store.locked, request with
  | some (salt, hash), .unlock passwd =>
    (if passwd ≠ [] ∧ pbkdf passwd salt = hash then { store with locked := none } else store, [])
  | some _, .list _ => (store, [.listed now 0 []])
  | some _, _ => (store, [])
  | none, .lock passwd salt =>
    (if passwd ≠ [] then { store with locked := some (salt, pbkdf passwd salt) } else store, [])
  | none, .unlock _ => (store, [])
  | none, .sign version key allowed =>
    match (store.idtable version).idlist.find? (·.key = key) with
    | none => (store, [])
    | some id => (store, if id.confirm && !allowed then [] else [.signed now id])
  | none, .list version =>
    (store, [.listed now (store.idtable version).nentries (store.idtable version).idlist])
  | none, .add version key comment constraints =>
    let tab := store.idtable version
    match constrain now constraints (0, false) with
    | none => (store, [])
    | some (death, confirm) =>
      let death := if lifetime ≠ 0 ∧ death = 0 then now + lifetime else death
      let entries := tab.nentries + if tab.idlist.any (·.key = key) then 0 else 1
      (store.set version ⟨entries, insert ⟨key, comment, death, confirm⟩ tab.idlist⟩, [])
  | none, .remove version key =>
    let tab := store.idtable version
    if tab.idlist.any (·.key = key) then
      (store.set version ⟨tab.nentries - 1, tab.idlist.eraseP (·.key = key)⟩, [])
    else (store, [])
  | none, .removeAll version => (store.set version ⟨0, []⟩, [])

/-- The requests of one turn, each with the clock when it is answered. -/
def handleAll (store : Store K) : List (Nat × Request K) → Store K × List (Use K)
  | [] => (store, [])
  | (now, request) :: rest =>
    let (next, uses) := handle pbkdf lifetime now store request
    let (last, later) := handleAll next rest
    (last, uses ++ later)

/-- A turn of the main loop: the clock before it waits, after it has waited, and at each request. -/
structure Wake (K : Type) where
  (before woken : Nat)
  requests : List (Nat × Request K)

def serve (store : Store K) : List (Wake K) → List (Use K)
  | [] => []
  | turn :: rest =>
    let (next, uses) :=
      handleAll pbkdf lifetime (reaper turn.woken (reaper turn.before store)) turn.requests
    uses ++ serve next rest

def clock (turns : List (Wake K)) : List Nat :=
  turns.flatMap fun turn => turn.before :: turn.woken :: turn.requests.map (·.1)

/-- No expired identity is used, and an answer counts its entries. -/
def Use.Live : Use K → Prop
  | .signed now id => id.expired now = false
  | .listed now count ids => count = ids.length ∧ ∀ id ∈ ids, id.expired now = false

instance : DecidablePred (Use.Live : Use K → Prop)
  | .signed .. => inferInstanceAs (Decidable (_ = _))
  | .listed .. => inferInstanceAs (Decidable (_ ∧ _))

def Request.lasting : Request K → Bool
  | .add _ _ _ constraints => .lifetime 0 ∉ constraints
  | _ => true

/-- The requests are answered at the reading of the last sweep, and no key comes for no time. -/
def Wake.Steady (turn : Wake K) : Prop :=
  ∀ r ∈ turn.requests, r.1 = turn.woken ∧ r.2.lasting

lemma mem_insert {id x : Identity K} {ids : List (Identity K)} (h : x ∈ insert id ids) :
    x = id ∨ x ∈ ids := by
  induction ids with
  | nil => simpa [insert] using h
  | cons old rest ih => grind [insert]

lemma length_insert (id : Identity K) (ids : List (Identity K)) :
    (insert id ids).length = ids.length + if ids.any (·.key = id.key) then 0 else 1 := by
  induction ids with
  | nil => rfl
  | cons old rest ih => grind [insert]

lemma constrain_live {constraints : List Constraint} {found : Nat × Bool} {death : Nat}
    {confirm : Bool} (h : constrain now constraints found = some (death, confirm))
    (hz : .lifetime 0 ∉ constraints) (hf : found.1 = 0 ∨ now < found.1) :
    death = 0 ∨ now < death := by
  induction constraints generalizing found with
  | nil => grind [constrain]
  | cons c rest ih =>
    obtain ⟨hh, hr⟩ := not_or.1 (mt mem_cons.2 hz)
    cases c with
    | lifetime seconds =>
      exact ih h hr (.inr (by grind))
    | confirm => exact ih h hr hf
    | unknown => simp [constrain] at h

lemma handle_sound {request : Request K} (h : store.Sound now) (hl : request.lasting) :
    (handle pbkdf lifetime now store request).1.Sound now ∧
      ∀ use ∈ (handle pbkdf lifetime now store request).2, use.Live := by
  unfold handle
  split
  · exact ⟨by split <;> exact ⟨h.counted, h.live⟩, by simp⟩
  · exact ⟨h, by simp [Use.Live]⟩
  · exact ⟨h, by simp⟩
  · exact ⟨by split <;> exact ⟨h.counted, h.live⟩, by simp⟩
  · exact ⟨h, by simp⟩
  · split
    · exact ⟨h, by simp⟩
    · rename_i hf
      have hLive := h.live _ _ (mem_of_find?_eq_some hf)
      exact ⟨h, by split <;> simp [Use.Live, hLive]⟩
  · exact ⟨h, by simpa [Use.Live] using ⟨h.counted _, h.live _⟩⟩
  · dsimp only
    split
    · exact ⟨h, by simp⟩
    · rename_i hc
      have hDeath := constrain_live hc (by simpa [Request.lasting] using hl) (.inl rfl)
      refine ⟨h.set _ ?_ fun id hMem => ?_, by simp⟩
      · rw [length_insert, h.counted]
      · obtain rfl | hMem := mem_insert hMem
        · grind [Identity.expired]
        · exact h.live _ id hMem
  · dsimp only
    split
    · rename_i hAny
      refine ⟨h.set _ ?_ fun id hMem => h.live _ id (mem_of_mem_eraseP hMem), by simp⟩
      obtain ⟨id, hMem, hKey⟩ := any_eq_true.1 hAny
      rw [length_eraseP_of_mem hMem hKey, h.counted]
    · exact ⟨h, by simp⟩
  · exact ⟨h.set _ rfl (by simp), by simp⟩

lemma handleAll_sound {requests : List (Nat × Request K)} (h : store.Sound now)
    (hs : Wake.Steady ⟨now, now, requests⟩) :
    (handleAll pbkdf lifetime store requests).1.Sound now ∧
      ∀ use ∈ (handleAll pbkdf lifetime store requests).2, use.Live := by
  induction requests generalizing store with
  | nil => exact ⟨h, by simp [handleAll]⟩
  | cons r rest ih =>
    obtain ⟨hNow, hl⟩ := hs r (mem_cons_self ..)
    obtain ⟨time, request⟩ := r
    obtain rfl : time = now := hNow
    have hOne := handle_sound pbkdf lifetime h hl
    have hr := ih hOne.1 fun r hMem => hs r (mem_cons_of_mem _ hMem)
    exact ⟨hr.1, fun use hUse => (mem_append.1 hUse).elim (hOne.2 use) (hr.2 use)⟩

/-- Where every turn is steady, an agent uses no expired identity and counts its entries. -/
theorem agent_uses_live {turns : List (Wake K)} (hs : ∀ turn ∈ turns, turn.Steady) (hCounted : store.Counted) :
    ∀ use ∈ serve pbkdf lifetime store turns, use.Live := by
  induction turns generalizing store with
  | nil => simp [serve]
  | cons turn rest ih =>
    have hSwept := sound_reaper turn.woken (sound_reaper turn.before hCounted).counted
    have hTurn := handleAll_sound pbkdf lifetime hSwept (hs turn (mem_cons_self ..))
    intro use hUse
    obtain hUse | hUse := mem_append.1 hUse
    · exact hTurn.2 use hUse
    · exact ih (fun turn hMem => hs turn (mem_cons_of_mem _ hMem)) hTurn.1.counted use hUse

/-- The user confirms a use two seconds after the agent woke, when the key is a second too old. -/
theorem agent_signs_expired :
    let turns : List (Wake Nat) :=
      [⟨10, 10, [(10, .add .two 7 [] [.lifetime 1, .confirm])]⟩, ⟨10, 10, [(12, .sign .two 7 true)]⟩]
    (clock turns).Pairwise (· ≤ ·) ∧
      ¬ ∀ use ∈ serve (fun _ _ => []) 0 ⟨fun _ => ⟨0, []⟩, none⟩ turns, use.Live := by decide

theorem agent_uses_live_listed :
    let turn : Wake Nat := ⟨10, 10, [(10, .add .two 7 [] [.lifetime 1]), (10, .list .two)]⟩
    turn.Steady ∧ ∀ use ∈ serve (fun _ _ => []) 0 ⟨fun _ => ⟨0, []⟩, none⟩ [turn], use.Live :=
  ⟨by simp [Wake.Steady, Request.lasting],
    agent_uses_live _ _ (forall_mem_singleton.2 (by simp [Wake.Steady, Request.lasting])) fun _ => rfl⟩

end Agent
