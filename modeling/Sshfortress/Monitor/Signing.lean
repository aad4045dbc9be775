import Sshfortress.Base.Transition
import Sshfortress.Monitor.Protocol

/-! The signatures that the monitor makes with host keys, in its two loops. The
loop after authentication has a table of its own, in which no request is
disabled. -/
namespace Monitor

open Base Base.Wire Base.Transition Auth List

/-- A message after authentication. `status` is how the child ends; failures of
the terminals are not modelled. -/
def monitorReadPostauth (noPtyFlag : Bool) (status : Int) (w : World) (s : State) (message : Bytes) :
    Except Stop State := do
  let (code, m) ← need (getU8 message)
  if code = ReqType.moduli.code then
    let (next, _) ← mmAnswerModuli s m
    return next
  else if code = ReqType.sign.code then
    -- The table has no row for names, so none is permitted again.
    let (next, _) ← mmAnswerSign w s m
    return { s with sessionId2 := next.sessionId2 }
  else if code = 28 ∧ noPtyFlag = false then return s
  else if code = 30 ∧ noPtyFlag = false then
    let (_, _) ← need (getString m)
    return s
  else if code = 50 then .error (.exit status)
  else .error .fatal

structure Signature where
  authenticated : Bool
  /-- The public key of the requested index. -/
  hostkey : Option Bytes
  data : Bytes
  deriving DecidableEq

def requested (authenticated : Bool) (w : World) (message : Bytes) : List Signature :=
  match getU8 message with
  | some (6, m) => ((signRequest m).map fun (keyid, p) => ⟨authenticated, w.hostkeyPublic keyid, p⟩).toList
  | _ => []

structure Life where
  authenticated : Bool
  state : State

/-- A message in the loop that the monitor is in, with the signature made for it. -/
def Life.step (cfg : Config) (noPtyFlag : Bool) (status : Int) (l : Life) (input : Bytes × World) :
    Except Stop (Life × List Signature) := do
  let signed := requested l.authenticated input.2 input.1
  if l.authenticated then
    let next ← monitorReadPostauth noPtyFlag status input.2 l.state input.1
    return (⟨true, next⟩, signed)
  else
    let (next, _, authenticated) ← preauthTurn cfg input.2 l.state input.1
    if authenticated = true ∧ (next.authctxt.valid = false ∨ next.authMethod = .unknown) then
      .error .fatal
    else return (⟨authenticated, next⟩, signed)

section Step

variable {cfg : Config} {noPtyFlag : Bool} {status : Int} {l next : Life} {input : Bytes × World}
  {signed : List Signature}

/-- A step signs what may be signed, if it is permitted, and then records the
session, or it signs nothing and keeps the session. -/
inductive Steps (l next : Life) : List Signature → Prop where
  | signs (hostkey : Option Bytes) (p : Bytes) (allowed : Signable l.state.sessionId2 hostkey p)
      (recorded : next.state.sessionId2 = some (l.state.sessionId2.getD p))
      (permitted : l.authenticated = false → l.state.permit .sign = true)
      (disabled : next.authenticated = false → next.state.permit .sign = false) :
      Steps l next [⟨l.authenticated, hostkey, p⟩]
  | quiet (same : next.state.sessionId2 = l.state.sessionId2)
      (permitted : next.authenticated = false → next.state.permit .sign = true →
        l.authenticated = false ∧ l.state.permit .sign = true) : Steps l next []

variable {w : World} {message m : Bytes} {authenticated : Bool} {s : State} {handled : Handled}

lemma requested_sign {p : Bytes} {keyid : Nat} (hc : getU8 message = some (6, m))
    (hReq : signRequest m = some (keyid, p)) :
    requested authenticated w message = [⟨authenticated, w.hostkeyPublic keyid, p⟩] := by
  simp [requested, hc, hReq]

lemma requested_of_code {code : UInt8} (hc : getU8 message = some (code, m))
    (ho : code ≠ ReqType.sign.code) : requested authenticated w message = [] := by
  unfold requested
  rw [hc]
  split
  · next hs =>
    cases hs
    exact absurd rfl ho
  · rfl

lemma code_eq_sign {type : ReqType} : type.code = ReqType.sign.code ↔ type = .sign := by
  cases type <;> decide

lemma monitorReadPostauth_steps {next : State}
    (h : monitorReadPostauth noPtyFlag status w s message = .ok next) :
    Steps ⟨true, s⟩ ⟨true, next⟩ (requested true w message) := by
  unfold monitorReadPostauth at h
  simp only [bind_eq_ok, Prod.exists] at h
  obtain ⟨code, m, hc, h⟩ := h
  have hc := need_eq_ok.1 hc
  by_cases hs : code = 6
  · subst hs
    obtain ⟨⟨_, _⟩, hAns, hd⟩ := bind_eq_ok.1 h
    obtain ⟨-, keyid, p, hReq, hMay, rfl⟩ := sign_refines hAns
    cases hd
    rw [requested_sign hc hReq]
    exact .signs _ p hMay rfl nofun nofun
  · rw [requested_of_code hc hs]
    suffices hSame : next = s from .quiet (by rw [hSame]) nofun
    split_ifs at h with hModuli hPty hCleanup
    · obtain ⟨⟨_, _⟩, hAns, hd⟩ := bind_eq_ok.1 h
      obtain ⟨-, rfl⟩ := moduli_refines hAns
      exact (Except.ok.inj hd).symm
    · exact absurd ‹_› hs
    · exact (Except.ok.inj h).symm
    · obtain ⟨_, -, hd⟩ := bind_eq_ok.1 h
      exact (Except.ok.inj hd).symm

lemma after_permit_sign {v next : View} (hn : next = v.after handled)
    (h : next.permit .sign = true) : handled.type ≠ .sign ∧ v.permit .sign = true := by
  cases handled <;> simp_all [Handled.type, View.effect, ReqType.once, monitorPermitAuthentications,
    ReqType.isauth, ReqType.authdecide]

lemma preauthTurn_steps {next : State}
    (h : preauthTurn cfg w s message = .ok (next, handled, authenticated)) :
    Steps ⟨false, s⟩ ⟨authenticated, next⟩ (requested false w message) := by
  obtain ⟨hp, -, hv, -⟩ := preauthTurn_refines h
  obtain ⟨after, failures, hr, rfl, -⟩ := preauthTurn_eq_ok h
  obtain ⟨m, answered, hc, -, hAns, rfl⟩ := monitorRead_eq_ok hr
  have ha := after_permit_sign hv
  by_cases hs : handled.type = .sign
  · rw [hs] at hc hAns hp
    obtain ⟨-, keyid, p, hReq, hMay, rfl⟩ := sign_refines hAns
    rw [requested_sign hc hReq]
    exact .signs _ p hMay rfl (fun _ => hp)
      fun _ => Bool.eq_false_iff.2 fun hNew => (ha hNew).1 hs
  · rw [requested_of_code hc (mt code_eq_sign.1 hs)]
    exact .quiet ((answer_refines hAns).2.2.2 hs) fun _ hNew => ⟨rfl, (ha hNew).2⟩

lemma Life.step_steps (h : l.step cfg noPtyFlag status input = .ok (next, signed)) :
    Steps l next signed := by
  obtain ⟨authenticated, s⟩ := l
  unfold Life.step at h
  cases authenticated with
  | true =>
    obtain ⟨_, hr, h⟩ := bind_eq_ok.1 h
    cases h
    exact monitorReadPostauth_steps hr
  | false =>
    rw [if_neg nofun] at h
    simp only [bind_eq_ok, Prod.exists] at h
    obtain ⟨_, _, _, ht, h⟩ := h
    split at h
    · cases h
    · cases h
      exact preauthTurn_steps ht

end Step

/-- What the monitor has signed, and the session that it has recorded. -/
structure Signed (l : Life) (signatures : List Signature) : Prop where
  allowed : ∀ signature ∈ signatures,
    Signable l.state.sessionId2 signature.hostkey signature.data
  /-- The session is what was signed first. -/
  session : l.state.sessionId2 = signatures.head?.map Signature.data
  hash : ∀ sid ∈ l.state.sessionId2, [20, 32, 48, 64].contains sid.length = true
  once : signatures.countP (fun signature => !signature.authenticated) ≤ 1

/-- Before authentication a signature is permitted only as the first. -/
def Unsigned (l : Life) (signatures : List Signature) : Prop :=
  l.authenticated = false → l.state.permit .sign = true → signatures = []

lemma Steps.signed {l next : Life} {past signed : List Signature} (h : Steps l next signed)
    (hPast : Signed l past ∧ Unsigned l past) :
    Signed next (past ++ signed) ∧ Unsigned next (past ++ signed) := by
  obtain ⟨hs, hf⟩ := hPast
  cases h with
  | quiet same permitted =>
    rw [append_nil]
    refine ⟨⟨same ▸ hs.allowed, same ▸ hs.session, same ▸ hs.hash, hs.once⟩, ?_⟩
    intro hPre hp
    obtain ⟨hWas, hp⟩ := permitted hPre hp
    exact hf hWas hp
  | signs hostkey p allowed recorded permitted disabled =>
    refine ⟨?_, fun hPre hp => by simp [disabled hPre] at hp⟩
    have ho : List.countP (fun signature => !signature.authenticated)
      (past ++ [Signature.mk l.authenticated hostkey p]) ≤ 1 := by
      cases hl : l.authenticated with
      | true => simpa using hs.once
      | false => simp [hf hl (permitted hl)]
    cases past with
    | nil =>
      -- Without a session only a hash may be signed.
      have hn : l.state.sessionId2 = none := hs.session
      rw [hn] at allowed recorded
      obtain hh | ⟨_, _, hProof, _⟩ := allowed
      · refine ⟨?_, recorded, ?_, ho⟩
        · simpa using .inl hh
        · simpa [recorded] using hh
      · cases hProof
    | cons first rest =>
      have hSession := hs.session
      rw [hSession] at recorded
      have hSame : next.state.sessionId2 = l.state.sessionId2 := recorded.trans hSession.symm
      refine ⟨?_, recorded, hSame ▸ hs.hash, ho⟩
      intro signature hMem
      rw [hSame]
      rcases mem_append.1 hMem with hOld | hNew
      · exact hs.allowed signature hOld
      · rw [mem_singleton.1 hNew]
        exact allowed

/-- Whatever the child asks for in the two loops, host keys sign only hashes and
proofs for the recorded session and the key that was asked for; the session is
the hash that was signed first, and one signature at most precedes
authentication. -/
theorem run_signed (cfg : Config) (noPtyFlag : Bool) (status : Int) (process : Process)
    (inputs : List (Bytes × World)) (last : Life) (signatures : List Signature)
    (h : run (Life.step cfg noPtyFlag status) ⟨false, .initial process⟩ inputs =
      .ok (last, signatures)) : Signed last signatures := by
  have hAlways : Along (Life.step cfg noPtyFlag status) (fun _ _ => True) ⟨false, .initial process⟩ inputs :=
    along_of_forall fun _ _ _ => trivial
  have hStart : Signed ⟨false, .initial process⟩ [] :=
    ⟨forall_mem_nil _, rfl, by simp [State.initial], Nat.zero_le 1⟩
  have hEnd := run_events (fun l past => Signed l past ∧ Unsigned l past)
    (fun _ _ _ _ _ hPast _ hStep => (Life.step_steps hStep).signed hPast) ⟨hStart, fun _ _ => rfl⟩ hAlways h
  exact hEnd.1

/-- A key exchange before authentication, and another one after it. -/
theorem run_signed_twice : ∃ last signatures,
    run (Life.step plainConfig false 0) ⟨false, .initial aliceProcess⟩ (keyMessages ++ keyMessages.take 1) =
      .ok (last, signatures) ∧
      signatures.map Signature.authenticated = [false, true] ∧ Signed last signatures := by
  have hRun : (run (Life.step plainConfig false 0) ⟨false, .initial aliceProcess⟩
    (keyMessages ++ keyMessages.take 1)).toOption.map (fun out => out.2.map Signature.authenticated) =
      some [false, true] := by decide +kernel
  obtain ⟨⟨last, signatures⟩, hSome, hBoth⟩ := Option.map_eq_some_iff.1 hRun
  have hOk := toOption_eq_some.1 hSome
  exact ⟨last, signatures, hOk, hBoth, run_signed _ _ _ _ _ _ _ hOk⟩

end Monitor
