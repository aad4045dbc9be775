import Sshfortress.Base.Always
import Sshfortress.Base.Wire

/-! How `ssh-agent` takes requests off its connections. A connection is looked at when its
descriptor is readable, and one request is taken off its buffer then: a second one that came in
the same read is left there. -/
namespace Agent
open Base Base.Wire Base.Transition List

/-- The answer of `read` or `write`. -/
inductive Io (α : Type) where
  | again
  | failed
  | done (a : α)

/-- A connection, with the bytes it has received and sent and the requests that were served,
each with its reply. -/
structure Connection where
  (input output received sent : Bytes)
  served : List (Bytes × Bytes)

def Connection.fresh : Connection := ⟨[], [], [], [], []⟩

def Connection.receive (c : Connection) (bytes : Bytes) : Connection :=
  { c with input := c.input ++ bytes, received := c.received ++ bytes }

/-- The agent, apart from its listening socket. -/
structure State (A : Type) where
  agent : A
  sockets : Nat → Option Connection

variable {A : Type} (serve : A → UInt8 → Bytes → Except Stop (A × Bytes))

/-- The request is handed to the handler for its type. No connection is left if the length is
too large. -/
def processMessage (a : A) (c : Connection) : Except Stop (A × Option Connection) :=
  let msgLen := value (c.input.take 4)
  if c.input.length < 5 then .ok (a, some c)
  else if 256 * 1024 < msgLen then .ok (a, none)
  else if c.input.length < msgLen + 4 then .ok (a, some c)
  else
    match (c.input.drop 4).take msgLen with
    | [] => .error .fatal
    | type :: request => do
      let (a, reply) ← serve a type request
      return (a, some { c with
        input := c.input.drop (4 + msgLen), output := c.output ++ putString reply,
        served := c.served ++ [(type :: request, reply)] })

/-- One socket in the loop of `after_select`, with the answers for a descriptor that is ready. -/
inductive Turn where
  | accept (i : Nat)
  | ready (i : Nat) (write : Option (Io Nat)) (read : Option (Io Bytes))

def writeOutput (c : Connection) : Option (Io Nat) → Io Connection
  | none => .done c
  | some answer =>
    if c.output = [] then .done c
    else
      match answer with
      | .again => .again
      | .failed => .failed
      | .done n => .done { c with output := c.output.drop n, sent := c.sent ++ c.output.take n }

def State.set (s : State A) (agent : A) (i : Nat) (c : Option Connection) : State A :=
  ⟨agent, Function.update s.sockets i c⟩

def step (s : State A) : Turn → Except Stop (State A × List Unit)
  | .accept i => if (s.sockets i).isSome then .error .crash else .ok (s.set s.agent i (some .fresh), [])
  | .ready i write read =>
    match s.sockets i with
    | none => .ok (s, [])
    | some c =>
      match writeOutput c write, read with
      | .again, _ => .ok (s, [])
      | .failed, _ => .ok (s.set s.agent i none, [])
      | .done c, none => .ok (s.set s.agent i (some c), [])
      | .done c, some .again => .ok (s.set s.agent i (some c), [])
      | .done _, some .failed => .ok (s.set s.agent i none, [])
      | .done c, some (.done bytes) => do
        let (agent, c) ← processMessage serve s.agent (c.receive bytes)
        return (s.set agent i c, [])

/-- What is behind the first request of a buffer, if that request is complete. -/
def behindRequest (queue : Bytes) : Option Bytes :=
  let msgLen := value (queue.take 4)
  if queue.length < 5 ∨ 256 * 1024 < msgLen ∨ queue.length < msgLen + 4 then none
  else some (queue.drop (4 + msgLen))

/-- The requests were taken off the received bytes in their order, and there is one reply for
each, in the same order. -/
def Connection.Ordered (c : Connection) : Prop :=
  c.received = c.served.flatMap (fun r => putString r.1) ++ c.input ∧
    c.sent ++ c.output = c.served.flatMap fun r => putString r.2

/-- No complete request is left on a connection, and each has been served in order. -/
def Served (s : State A) : Prop :=
  ∀ i c, s.sockets i = some c → behindRequest c.input = none ∧ c.Ordered

/-- What is read completes at most one request. -/
def OneRequest (s : State A) : Turn → Prop
  | .ready i write (some (.done bytes)) =>
    match (s.sockets i).map (writeOutput · write) with
    | some (.done c) => ∀ rest, behindRequest (c.input ++ bytes) = some rest → behindRequest rest = none
    | _ => True
  | _ => True

variable {serve} {s next : State A} {c after : Connection} {a : A} {found : Option Connection} {i : Nat}

lemma processMessage_eq_ok {a' : A} (h : processMessage serve a c = .ok (a', found)) :
    behindRequest c.input = none ∧ (found = none ∨ found = some c) ∨
      ∃ body reply rest, behindRequest c.input = some rest ∧ c.input = putString body ++ rest ∧
        found = some { c with
          input := rest, output := c.output ++ putString reply, served := c.served ++ [(body, reply)] } := by
  unfold processMessage at h
  unfold behindRequest
  dsimp only at h ⊢
  split_ifs at h with hs hl hp
  · cases h
    exact .inl ⟨if_pos (.inl hs), .inr rfl⟩
  · cases h
    exact .inl ⟨if_pos (.inr (.inl hl)), .inl rfl⟩
  · cases h
    exact .inl ⟨if_pos (.inr (.inr hp)), .inr rfl⟩
  · have hw := @putString_append_drop c.input (by omega)
    right
    rw [if_neg (by omega)]
    split at h
    · cases h
    · next type request hb =>
      obtain ⟨⟨a'', reply⟩, -, hd⟩ := bind_eq_ok.1 h
      cases hd
      exact ⟨type :: request, reply, _, rfl, hb ▸ hw.symm, rfl⟩

lemma Connection.Ordered.receive (h : c.Ordered) (bytes : Bytes) : (c.receive bytes).Ordered := by
  refine ⟨?_, h.2⟩
  show c.received ++ bytes = c.served.flatMap _ ++ (c.input ++ bytes)
  rw [h.1, append_assoc]

lemma Connection.Ordered.answer {body rest : Bytes} (h : c.Ordered) (hb : c.input = putString body ++ rest)
    (reply : Bytes) : Connection.Ordered { c with
      input := rest, output := c.output ++ putString reply, served := c.served ++ [(body, reply)] } := by
  constructor
  · show c.received = (c.served ++ [(body, reply)]).flatMap _ ++ rest
    simp [h.1, hb]
  · show c.sent ++ (c.output ++ putString reply) = (c.served ++ [(body, reply)]).flatMap _
    simp [← append_assoc, h.2]

lemma writeOutput_ordered {answer : Option (Io Nat)} (h : writeOutput c answer = .done after) (hc : c.Ordered) :
    after.Ordered ∧ after.input = c.input := by
  unfold writeOutput at h
  split at h
  · cases h
    exact ⟨hc, rfl⟩
  · split_ifs at h
    · cases h
      exact ⟨hc, rfl⟩
    · split at h
      · cases h
      · cases h
      · next n =>
        cases h
        refine ⟨⟨hc.1, ?_⟩, rfl⟩
        rw [append_assoc, take_append_drop]
        exact hc.2

lemma served_set (h : Served s) :
    Served (s.set a i found) ↔ ∀ c, found = some c → behindRequest c.input = none ∧ c.Ordered := by
  constructor
  · intro hAll c hc
    exact hAll i c ((Function.update_self ..).trans hc)
  · intro hNew j c hj
    have hj : Function.update s.sockets i found j = some c := hj
    by_cases hs : j = i
    · rw [hs, Function.update_self] at hj
      exact hNew c hj
    · rw [Function.update_of_ne hs] at hj
      exact h j c hj

lemma oneRequest_of_not_done {write : Option (Io Nat)} (read : Option (Io Bytes))
    (h : ∀ c, (s.sockets i).map (writeOutput · write) ≠ some (.done c)) : OneRequest s (.ready i write read) := by
  rcases read with _ | _ | _ | bytes
  iterate 3 trivial
  rw [OneRequest]
  split
  · next hd => exact absurd hd (h _)
  · trivial

lemma step_served {turn : Turn} {events : List Unit} (h : Served s) (hs : step serve s turn = .ok (next, events)) :
    Served next ↔ OneRequest s turn := by
  cases turn with
  | accept i =>
    rw [step] at hs
    split_ifs at hs
    cases hs
    refine iff_of_true ((served_set h).2 fun c hc => ?_) trivial
    cases hc
    exact ⟨rfl, rfl, rfl⟩
  | ready i write read =>
    rw [step] at hs
    cases hSlot : s.sockets i with
    | none =>
      rw [hSlot] at hs
      cases hs
      exact iff_of_true h (oneRequest_of_not_done _ (by simp [hSlot]))
    | some c =>
      obtain ⟨hn, hc⟩ := h i c hSlot
      simp only [hSlot] at hs
      cases hw : writeOutput c write with
      | again =>
        rw [hw] at hs
        cases hs
        exact iff_of_true h (oneRequest_of_not_done _ (by simp [hSlot, hw]))
      | failed =>
        rw [hw] at hs
        cases hs
        exact iff_of_true ((served_set h).2 nofun) (oneRequest_of_not_done _ (by simp [hSlot, hw]))
      | done after =>
        obtain ⟨ha, hi⟩ := writeOutput_ordered hw hc
        have hk : Served (s.set s.agent i (some after)) := (served_set h).2 fun c hc => by
          cases hc
          exact ⟨hi ▸ hn, ha⟩
        rw [hw] at hs
        rcases read with _ | _ | _ | bytes
        · cases hs
          exact iff_of_true hk trivial
        · cases hs
          exact iff_of_true hk trivial
        · cases hs
          exact iff_of_true ((served_set h).2 nofun) trivial
        · obtain ⟨⟨agent, found⟩, hd, hNext⟩ := bind_eq_ok.1 hs
          cases hNext
          rw [served_set h]
          simp only [OneRequest, hSlot, Option.map_some, hw]
          have hRead := ha.receive bytes
          rcases processMessage_eq_ok hd with ⟨hWaits, rfl | rfl⟩ | ⟨body, reply, rest, hb, hBody, rfl⟩
          · exact iff_of_true nofun fun rest hr => absurd (hWaits.symm.trans hr) nofun
          · refine iff_of_true (fun c hc => ?_) fun rest hr => absurd (hWaits.symm.trans hr) nofun
            cases hc
            exact ⟨hWaits, hRead⟩
          · constructor
            · intro hAll last hl
              cases hb.symm.trans hl
              exact (hAll _ rfl).1
            · intro hOne c hc
              cases hc
              exact ⟨hOne rest hb, hRead.answer hBody reply⟩

/-- No complete request stays behind, and all are served in order, exactly if no read completes
more than one. -/
theorem agent_serves_iff (serve : A → UInt8 → Bytes → Except Stop (A × Bytes)) (a : A) (turns : List Turn) :
    Throughout (step serve) Served ⟨a, fun _ => none⟩ turns ↔ Taken (step serve) OneRequest ⟨a, fun _ => none⟩ turns :=
  throughout_iff_taken Served (fun _ h => h) (fun _ _ _ _ h hOne hStep => (step_served h hStep).2 hOne)
    (fun _ _ _ _ h hMore hStep hAll => hMore ((step_served h hStep).1 hAll)) fun _ _ hNone => nomatch hNone

/-- An agent that is locked: it has no identities and fails all other requests. -/
def lockedServe (a : Unit) (type : UInt8) (_ : Bytes) : Except Stop (Unit × Bytes) :=
  .ok (a, if type = 11 then [12, 0, 0, 0, 0] else if type = 1 then [2, 0, 0, 0, 0] else [5])

/-- Two requests for the identities come in one read. -/
theorem agent_leaves_request : ¬ Throughout (step lockedServe) Served ⟨(), fun _ => none⟩
    [.accept 0, .ready 0 none (some (.done (putString [11] ++ putString [11])))] := by
  intro h
  have hLast := (h.2 _ _ rfl).2 _ _ rfl 0 _ rfl
  exact absurd hLast.1 (by decide)

end Agent
