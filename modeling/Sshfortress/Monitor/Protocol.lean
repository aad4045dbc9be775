import Sshfortress.Monitor.Preauth

/-! The order of requests before authentication. Of the state of the monitor
only the permissions, the validity of the user and the allowed key decide what
the child may do next; on that view every handled request has one fixed effect.
The monitor refines this small machine, and the protocol is an invariant of the
machine's runs. -/
namespace Monitor

open Base Base.Wire Base.Mysql Auth List

@[ext]
structure View where
  permit : ReqType → Bool
  valid : Bool
  key : Option (Nat × Bytes)

def State.view (s : State) : View where
  permit := s.permit
  valid := s.authctxt.valid
  key := s.key.map fun key => (key.blobtype, key.blob)

namespace View

/-- What must hold for a request to be handled with this result. -/
def Enabled (v : View) : Handled → Prop
  | .authpassword authenticated => authenticated = true → v.valid = true
  | .keyallowed type _ allowed =>
    allowed = true → v.valid = true ∧ (type = mmUserkey ∨ type = mmHostkey)
  | .keyverify blob check _ => ∃ type, v.key = some (type, blob) ∧
      (check = .user ∧ type = mmUserkey ∨ check = .host ∧ type = mmHostkey)
  | _ => True

def effect (v : View) : Handled → View
  | .sign => { v with permit := monitorPermit v.permit .pwnam }
  | .pwnam valid =>
    { v with
      permit := monitorPermit (monitorPermit v.permit .authserv) .auth2ReadBanner
      valid := v.valid || valid }
  | .authserv => { v with permit := monitorPermitAuthentications v.permit }
  | .keyallowed type blob allowed => { v with key := if allowed then some (type, blob) else none }
  | .keyverify .. => { v with key := none }
  | .moduli | .auth2ReadBanner | .authpassword _ => v

def after (v : View) (handled : Handled) : View :=
  let next := v.effect handled
  { next with
    permit := if handled.type.once then Function.update next.permit handled.type false
      else next.permit }

end View

/-! The monitor refines the machine. -/

section Refinement

variable {cfg : Config} {w : World} {s next : State} {handled : Handled} {m : Bytes}
  {process : Process} {message : Bytes}

lemma authPassword_valid {sys : System} {options : Options} {db : Answers} {process' : Process}
    {authctxt authctxt' : Authctxt} {password : Bytes} {authenticated : Bool}
    (h : authPassword sys options db process authctxt password = .ok (authenticated, authctxt', process')) :
    authctxt'.valid = authctxt.valid ∧ (authenticated = true → authctxt.valid = true) := by
  constructor
  · unfold authPassword at h
    split at h
    · cases h
      rfl
    split at h
    · cases h
    split at h
    · cases h
      rfl
    obtain ⟨⟨result, after⟩, _, hRes⟩ := bind_eq_ok.1 h
    cases hRes
    rfl
  · rintro rfl
    obtain ⟨pw, _, hg, _⟩ := (authPassword_true_iff sys options db).1 ⟨authctxt', process', h⟩
    simp only [gate, Bool.and_eq_true] at hg
    exact hg.1.1.2

lemma moduli_refines (h : mmAnswerModuli s m = .ok (next, handled)) : handled = .moduli ∧ next = s := by
  unfold mmAnswerModuli at h
  simp only [bind_eq_ok, Prod.exists] at h
  obtain ⟨_, _, _, _, _, _, _, _, _, h⟩ := h
  split at h
  · cases h
  · cases h
    exact ⟨rfl, rfl⟩

/-- What a request asks a signature of: the index of the key, and the data. -/
def signRequest (m : Bytes) : Option (Nat × Bytes) := do
  let (keyid, m) ← getU32 m
  let (p, _) ← getString m
  return (keyid, p)

/-- The data is a hash, or the proof for this session and this key. -/
def Signable (sessionId2 hostkey : Option Bytes) (p : Bytes) : Prop :=
  [20, 32, 48, 64].contains p.length = true ∨
    ∃ sid key, sessionId2 = some sid ∧ hostkey = some key ∧ p = hostkeyProof sid key

lemma sign_refines (h : mmAnswerSign w s m = .ok (next, handled)) :
    handled = .sign ∧ ∃ keyid p, signRequest m = some (keyid, p) ∧
      Signable s.sessionId2 (w.hostkeyPublic keyid) p ∧
      next = { s with sessionId2 := some (s.sessionId2.getD p), permit := monitorPermit s.permit .pwnam } := by
  unfold mmAnswerSign at h
  simp only [bind_eq_ok, Prod.exists] at h
  obtain ⟨keyid, _, hk, p, _, hd, _, _, _, h⟩ := h
  split at h
  · cases h
  split at h
  · cases h
  rename_i hMay
  split at h
  · cases h
    refine ⟨rfl, keyid, p, ?_, ?_, rfl⟩
    · simp [signRequest, need_eq_ok.1 hk, need_eq_ok.1 hd]
    · by_cases hh : [20, 32, 48, 64].contains p.length = true
      · exact .inl hh
      · have hp := not_not.1 (not_and.1 hMay hh)
        obtain ⟨sid, hSid, hp⟩ := Option.bind_eq_some_iff.1 hp
        obtain ⟨key, hKey, rfl⟩ := Option.map_eq_some_iff.1 hp
        exact .inr ⟨sid, key, hSid, hKey, rfl⟩
  · cases h

lemma pwnamallow_refines (h : mmAnswerPwnamallow cfg w s m = .ok (next, handled)) :
    ∃ valid, handled = .pwnam valid ∧ next.view = s.view.effect (.pwnam valid) ∧ next.sessionId2 = s.sessionId2 := by
  unfold mmAnswerPwnamallow at h
  simp only [bind_eq_ok, Prod.exists] at h
  obtain ⟨username, _, _, audituser, _, h⟩ := h
  split at h
  · obtain ⟨_, _, h⟩ := bind_eq_ok.1 h
    cases h
    refine ⟨false, rfl, ?_, rfl⟩
    ext
    · rfl
    · simp [State.view, View.effect]
    · rfl
  · split at h
    · cases h
    · cases h
      exact ⟨_, rfl, rfl, rfl⟩

lemma authserv_refines (h : mmAnswerAuthserv s m = .ok (next, handled)) :
    handled = .authserv ∧ next.view = s.view.effect .authserv ∧ next.sessionId2 = s.sessionId2 := by
  unfold mmAnswerAuthserv at h
  simp only [bind_eq_ok, Prod.exists] at h
  obtain ⟨service, _, _, style, _, _, h⟩ := h
  cases h
  exact ⟨rfl, rfl, rfl⟩

lemma authpassword_refines (h : mmAnswerAuthpassword cfg w s m = .ok (next, handled)) :
    ∃ authenticated, handled = .authpassword authenticated ∧
      (authenticated = true → s.authctxt.valid = true) ∧ next.view = s.view ∧ next.sessionId2 = s.sessionId2 := by
  unfold mmAnswerAuthpassword at h
  simp only [bind_eq_ok, Prod.exists] at h
  obtain ⟨passwd, _, _, authenticated, authctxt, process, ha, h⟩ := h
  cases h
  have hv : authctxt.valid = s.authctxt.valid ∧ (authenticated = true → s.authctxt.valid = true) := by
    unfold Auth.mmAnswerAuthpassword at ha
    split at ha
    · exact authPassword_valid ha
    · cases ha
      exact ⟨rfl, nofun⟩
  refine ⟨authenticated, rfl, hv.2, ?_, rfl⟩
  ext
  · rfl
  · simp [State.view, hv.1]
  · rfl

lemma keyAllowed_valid {type attempt : Nat} {cuser chost blob : Bytes} {authMethod : AuthMethod}
    (h : keyAllowed cfg w s type cuser chost blob attempt = .ok (true, authMethod)) :
    s.authctxt.valid = true ∧ (type = mmUserkey ∨ type = mmHostkey) := by
  unfold keyAllowed at h
  split at h
  case isFalse => cases h
  rename_i hv
  simp only [Bool.and_eq_true] at hv
  refine ⟨hv.2, ?_⟩
  split at h
  · cases h
  split at h
  · rename_i hu
    exact .inl hu
  split at h
  · rename_i hh
    exact .inr hh
  · cases h

lemma keyallowed_refines (h : mmAnswerKeyallowed cfg w s m = .ok (next, handled)) :
    ∃ type blob allowed, handled = .keyallowed type blob allowed ∧
      s.view.Enabled (.keyallowed type blob allowed) ∧
      next.view = s.view.effect (.keyallowed type blob allowed) ∧ next.sessionId2 = s.sessionId2 := by
  unfold mmAnswerKeyallowed at h
  simp only [bind_eq_ok, Prod.exists] at h
  obtain ⟨type, _, _, cuser, _, _, chost, _, _, blob, _, _, attempt, _, _, h⟩ := h
  split at h
  · cases h
  simp only [bind_eq_ok, Prod.exists] at h
  obtain ⟨allowed, authMethod, hMay, h⟩ := h
  cases h
  refine ⟨type, blob, allowed, rfl, ?_, ?_, rfl⟩
  · rintro rfl
    exact keyAllowed_valid hMay
  · cases allowed <;> rfl

lemma validData_check {key : KeyState} {data : Bytes} {valid : Bool} {check : BlobCheck}
    (h : validData cfg w s key data = .ok (valid, process, check)) :
    check = .user ∧ key.blobtype = mmUserkey ∨ check = .host ∧ key.blobtype = mmHostkey := by
  unfold validData at h
  split at h
  · rename_i hu
    obtain ⟨_, _, h⟩ := bind_eq_ok.1 h
    cases h
    exact .inl ⟨rfl, hu⟩
  split at h
  · rename_i hh
    obtain ⟨_, _, h⟩ := bind_eq_ok.1 h
    cases h
    exact .inr ⟨rfl, hh⟩
  · cases h

lemma keyverify_refines (h : mmAnswerKeyverify cfg w s m = .ok (next, handled)) :
    ∃ blob check verified, handled = .keyverify blob check verified ∧
      s.view.Enabled (.keyverify blob check verified) ∧
      next.view = s.view.effect (.keyverify blob check verified) ∧ next.sessionId2 = s.sessionId2 := by
  unfold mmAnswerKeyverify at h
  simp only [bind_eq_ok, Prod.exists] at h
  obtain ⟨blob, _, _, _, _, _, data, _, _, h⟩ := h
  split at h
  · cases h
  rename_i key hKey
  split at h
  · cases h
  rename_i hs
  simp only [bind_eq_ok, Prod.exists] at h
  obtain ⟨valid, process, check, hd, h⟩ := h
  split at h
  · cases h
    refine ⟨blob, check, _, rfl, ⟨key.blobtype, ?_, validData_check hd⟩, rfl, rfl⟩
    have hb : key.blob = blob := by
      by_contra ho
      exact hs (.inl ho)
    simp [State.view, hKey, hb]
  · cases h

/-- Each handler has the effect of its request, and is enabled for it. -/
lemma answer_refines {type : ReqType} (h : answer cfg w s type m = .ok (next, handled)) :
    handled.type = type ∧ s.view.Enabled handled ∧ next.view = s.view.effect handled ∧
      (type ≠ .sign → next.sessionId2 = s.sessionId2) := by
  cases type with
  | moduli =>
    obtain ⟨rfl, rfl⟩ := moduli_refines h
    exact ⟨rfl, trivial, rfl, fun _ => rfl⟩
  | sign =>
    obtain ⟨rfl, keyid, p, -, -, rfl⟩ := sign_refines h
    exact ⟨rfl, trivial, rfl, nofun⟩
  | pwnam =>
    obtain ⟨valid, rfl, hv, hs⟩ := pwnamallow_refines h
    exact ⟨rfl, trivial, hv, fun _ => hs⟩
  | authserv =>
    obtain ⟨rfl, hv, hs⟩ := authserv_refines h
    exact ⟨rfl, trivial, hv, fun _ => hs⟩
  | auth2ReadBanner =>
    cases h
    exact ⟨rfl, trivial, rfl, fun _ => rfl⟩
  | authpassword =>
    obtain ⟨authenticated, rfl, he, hv, hs⟩ := authpassword_refines h
    exact ⟨rfl, he, hv, fun _ => hs⟩
  | keyallowed =>
    obtain ⟨type, blob, allowed, rfl, he, hv, hs⟩ := keyallowed_refines h
    exact ⟨rfl, he, hv, fun _ => hs⟩
  | keyverify =>
    obtain ⟨blob, check, verified, rfl, he, hv, hs⟩ := keyverify_refines h
    exact ⟨rfl, he, hv, fun _ => hs⟩

section
variable (h : monitorRead cfg w s message = .ok (next, handled))
include h

lemma monitorRead_eq_ok :
    ∃ m answered, getU8 message = some (handled.type.code, m) ∧ s.permit handled.type = true ∧
      answer cfg w s handled.type m = .ok (answered, handled) ∧
      next = { answered with
        permit := if handled.type.once then Function.update answered.permit handled.type false
          else answered.permit } := by
  unfold monitorRead at h
  simp only [bind_eq_ok, Prod.exists] at h
  obtain ⟨code, m, hc, h⟩ := h
  split at h
  · cases h
  rename_i ht
  split at h
  case isFalse => cases h
  rename_i hp
  simp only [bind_eq_ok, Prod.exists] at h
  obtain ⟨answered, _, hAns, h⟩ := h
  cases h
  obtain ⟨rfl, -⟩ := answer_refines hAns
  have hs := find?_some ht
  obtain rfl := of_decide_eq_true hs
  exact ⟨m, answered, need_eq_ok.1 hc, hp, hAns, rfl⟩

/-- Reading a message takes one step of the machine. -/
lemma monitorRead_refines :
    s.view.permit handled.type = true ∧ s.view.Enabled handled ∧ next.view = s.view.after handled := by
  obtain ⟨m, answered, -, hp, hAns, rfl⟩ := monitorRead_eq_ok h
  obtain ⟨-, he, hv, -⟩ := answer_refines hAns
  refine ⟨hp, he, ?_⟩
  unfold View.after
  rw [← hv]
  rfl

end

end Refinement

/-! The invariant of the machine. -/

/-- The requests that open the way to authentication, each usable once. -/
def Handled.isMilestone : Handled → Bool
  | .sign | .pwnam _ | .authserv => true
  | _ => false

/-- The requests that set or use the allowed key. -/
def Handled.isKey : Handled → Bool
  | .keyallowed .. | .keyverify .. => true
  | _ => false

inductive Phase where
  | start
  | signed
  | named (valid : Bool)
  | served (valid : Bool)

namespace Phase

def milestones : Phase → List Handled
  | .start => []
  | .signed => [.sign]
  | .named valid => [.sign, .pwnam valid]
  | .served valid => [.sign, .pwnam valid, .authserv]

def valid : Phase → Bool
  | .start | .signed => false
  | .named valid | .served valid => valid

/-- The permissions of a phase, but for the two requests that do not matter. -/
def Permits (phase : Phase) (permit : ReqType → Bool) : Prop :=
  (permit .sign = true ↔ phase = .start) ∧ (permit .pwnam = true ↔ phase = .signed) ∧
    (permit .authserv = true ↔ ∃ valid, phase = .named valid) ∧
    ∀ type, type.isauth = true → (permit type = true ↔ ∃ valid, phase = .served valid)

end Phase

/-- What has been handled fits the view: the milestones are those of a phase
whose permissions are in force, and an allowed key was allowed by the last key
request, for a valid user. -/
structure Invariant (handled : List Handled) (v : View) : Prop where
  phase : ∃ phase : Phase, handled.filter Handled.isMilestone = phase.milestones ∧
    v.valid = phase.valid ∧ phase.Permits v.permit
  key : ∀ type blob, v.key = some (type, blob) → v.valid = true ∧
    (handled.filter Handled.isKey).getLast? = some (.keyallowed type blob true)

lemma Invariant.initial (process : Process) : Invariant [] (State.initial process).view where
  phase := by
    refine ⟨.start, rfl, rfl, ?_, ?_, ?_, ?_⟩
    · simp [State.initial, State.view]
    · simp [State.initial, State.view]
    · simp [State.initial, State.view]
    · intro type hAuth
      cases type <;> simp_all [ReqType.isauth, State.initial, State.view]
  key := nofun

def Phase.next (phase : Phase) : Handled → Phase
  | .sign => .signed
  | .pwnam valid => .named valid
  | .authserv => .served phase.valid
  | _ => phase

@[simp] lemma View.after_permit (v : View) (handled : Handled) (type : ReqType) :
    (v.after handled).permit type =
      if handled.type.once = true ∧ type = handled.type then false
      else (v.effect handled).permit type := by
  unfold View.after
  cases handled.type.once with
  | false => simp
  | true => by_cases hs : type = handled.type <;> simp [hs]

@[simp] lemma monitorPermit_apply (permit : ReqType → Bool) (type other : ReqType) :
    monitorPermit permit type other = if other = type then true else permit other := by
  simp [monitorPermit, Function.update_apply]

variable {v : View} {before : List Handled} {phase : Phase} {last : Handled}

/-- A permitted milestone is the next one, and its handler permits the one
after it. Other requests change no permission that matters. -/
lemma Phase.permits_after {handled : Handled} (hPhase : phase.Permits v.permit)
    (hPerm : v.permit handled.type = true) : (phase.next handled).milestones =
      phase.milestones ++ [handled].filter Handled.isMilestone ∧
      (phase.next handled).Permits (v.after handled).permit := by
  obtain ⟨hs, hp, ha, hAuth⟩ := hPhase
  cases handled with
  | sign =>
    obtain rfl : phase = .start := hs.1 hPerm
    refine ⟨rfl, ?_, ?_, ?_, ?_⟩
    · simp [Phase.next, Handled.type, ReqType.once]
    · simp [Phase.next, Handled.type, View.effect]
    · simpa [Phase.next, Handled.type, View.effect] using ha
    · intro type ht
      cases type <;> simp_all [Phase.next, Handled.type, View.effect, ReqType.isauth]
  | pwnam valid =>
    obtain rfl : phase = .signed := hp.1 hPerm
    refine ⟨rfl, ?_, ?_, ?_, ?_⟩
    · simpa [Phase.next, Handled.type, View.effect] using hs
    · simp [Phase.next, Handled.type, ReqType.once]
    · simp [Phase.next, Handled.type, View.effect]
    · intro type ht
      cases type <;> simp_all [Phase.next, Handled.type, View.effect, ReqType.isauth]
  | authserv =>
    obtain ⟨valid, rfl⟩ := ha.1 hPerm
    refine ⟨rfl, ?_, ?_, ?_, ?_⟩
    · simpa [Phase.next, Handled.type, View.effect, monitorPermitAuthentications,
        ReqType.isauth, ReqType.authdecide] using hs
    · simpa [Phase.next, Handled.type, View.effect, monitorPermitAuthentications,
        ReqType.isauth, ReqType.authdecide] using hp
    · simp [Phase.next, Handled.type, ReqType.once]
    · intro type ht
      cases type <;> simp_all [Phase.next, Handled.type, View.effect, ReqType.isauth,
        monitorPermitAuthentications]
  | moduli | auth2ReadBanner | authpassword _ | keyallowed _ _ _ | keyverify _ _ _ =>
    refine ⟨(append_nil _).symm, ?_, ?_, ?_, ?_⟩
    · simpa [Phase.next, Handled.type, View.effect] using hs
    · simpa [Phase.next, Handled.type, View.effect] using hp
    · simpa [Phase.next, Handled.type, View.effect] using ha
    · intro type ht
      cases type <;> simp_all [Phase.next, Handled.type, View.effect, ReqType.isauth, ReqType.once]

lemma Phase.valid_after {handled : Handled} (hp : phase.Permits v.permit)
    (hv : v.valid = phase.valid) (hPerm : v.permit handled.type = true) :
    (v.after handled).valid = (phase.next handled).valid := by
  cases handled with
  | pwnam valid =>
    -- The user is looked up while nobody is valid yet.
    obtain rfl : phase = .signed := hp.2.1.1 hPerm
    simp [View.after, View.effect, Phase.next, hv, Phase.valid]
  | sign =>
    obtain rfl : phase = .start := hp.1.1 hPerm
    exact hv
  | authserv => exact hv
  | moduli | auth2ReadBanner | authpassword _ | keyallowed _ _ _ | keyverify _ _ _ => exact hv

lemma Invariant.after {handled : Handled} (hInv : Invariant before v)
    (hPerm : v.permit handled.type = true) (he : v.Enabled handled) :
    Invariant (before ++ [handled]) (v.after handled) where
  phase := by
    obtain ⟨phase, hm, hv, hp⟩ := hInv.phase
    obtain ⟨hn, hPermits⟩ := phase.permits_after hp hPerm
    refine ⟨phase.next handled, ?_, phase.valid_after hp hv hPerm, hPermits⟩
    rw [filter_append, hm, hn]
  key := by
    intro type blob hKey
    rw [filter_append]
    cases handled with
    | keyallowed type' blob' allowed =>
      cases allowed with
      | false => cases hKey
      | true =>
        cases hKey
        exact ⟨(he rfl).1, getLast?_concat ..⟩
    | keyverify blob' check verified => cases hKey
    | pwnam valid =>
      obtain ⟨hv, hl⟩ := hInv.key type blob hKey
      refine ⟨?_, by simpa [Handled.isKey] using hl⟩
      simp [View.after, View.effect, hv]
    | moduli | sign | authserv | auth2ReadBanner | authpassword _ =>
      obtain ⟨hv, hl⟩ := hInv.key type blob hKey
      exact ⟨hv, by simpa [Handled.isKey] using hl⟩

/-! The loop. -/

section Turn

variable {cfg : Config} {w : World} {s next : State} {message : Bytes} {handled : Handled} {authenticated : Bool}

section
variable (h : preauthTurn cfg w s message = .ok (next, handled, authenticated))
include h

lemma preauthTurn_eq_ok :
    ∃ after failures, monitorRead cfg w { s with authMethod := .unknown } message = .ok (after, handled) ∧
      next = { after with failures } ∧
      (authenticated = true → handled.type.authdecide = true ∧ handled.ret = 1) := by
  unfold preauthTurn at h
  simp only [bind_eq_ok, Prod.exists] at h
  obtain ⟨after, _, hRead, h⟩ := h
  split at h
  · rename_i hr
    simp only [Bool.and_eq_true, beq_iff_eq] at hr
    split at h
    · cases h
    rename_i hd
    split at h
    · cases h
    cases h
    exact ⟨after, _, hRead, rfl, fun _ => ⟨by simpa using hd, hr.1⟩⟩
  · cases h
    exact ⟨after, _, hRead, rfl, nofun⟩

/-- A turn handles one request; it authenticates only if that request decides
and its handler returned 1. -/
lemma preauthTurn_refines :
    s.view.permit handled.type = true ∧ s.view.Enabled handled ∧ next.view = s.view.after handled ∧
      (authenticated = true → handled.type.authdecide = true ∧ handled.ret = 1) := by
  obtain ⟨after, failures, hr, rfl, hd⟩ := preauthTurn_eq_ok h
  obtain ⟨hp, he, hv⟩ := monitorRead_refines hr
  exact ⟨hp, he, hv, hd⟩

end

end Turn

lemma exists_lastKey (h : (before.filter Handled.isKey).getLast? = some last) :
    ∃ earlier later, before = earlier ++ last :: later ∧ ∀ other ∈ later, other.isKey = false := by
  induction before using List.reverseRecOn with
  | nil => cases h
  | append_singleton before newest ih =>
    rw [filter_append] at h
    by_cases hKey : newest.isKey = true
    · rw [filter_cons_of_pos hKey, filter_nil, getLast?_concat, Option.some.injEq] at h
      exact ⟨before, [], by rw [h], nofun⟩
    · rw [filter_cons_of_neg hKey, filter_nil, append_nil] at h
      obtain ⟨earlier, later, hPre, hl⟩ := ih h
      refine ⟨earlier, later ++ [newest], by rw [hPre]; simp, ?_⟩
      intro other ho
      rcases mem_append.1 ho with hOld | hNew
      · exact hl other hOld
      · rw [mem_singleton.1 hNew]
        simpa using hKey

/-- The conditions under which the loop may be left after `last`. -/
structure Accepted (before : List Handled) (last : Handled) : Prop where
  /-- The last request decides authentication, and its handler returned 1. -/
  decides : last.type.authdecide = true ∧ last.ret = 1
  /-- One signature, then one lookup of a valid user, then one service request,
  and none of them again. -/
  milestones : (before ++ [last]).filter Handled.isMilestone = [.sign, .pwnam true, .authserv]
  /-- A verified key was allowed by the last key request before, for the same
  blob, and the blob check is the one for its type. -/
  key : ∀ blob check verified, last = .keyverify blob check verified →
    ∃ earlier later type, before = earlier ++ .keyallowed type blob true :: later ∧
      (∀ other ∈ later, other.isKey = false) ∧
      (check = .user ∧ type = mmUserkey ∨ check = .host ∧ type = mmHostkey)

/-- A request that decides, handled within the invariant, is acceptable. -/
lemma Invariant.accepted (hInv : Invariant before v) (hp : v.permit last.type = true)
    (he : v.Enabled last) (hd : last.type.authdecide = true ∧ last.ret = 1) : Accepted before last := by
  obtain ⟨phase, hm, hv, _, _, _, ha⟩ := hInv.phase
  have hi : last.type.isauth = true := by
    cases last <;> simp_all [Handled.type, ReqType.authdecide, ReqType.isauth]
  obtain ⟨valid, rfl⟩ := (ha last.type hi).1 hp
  have ho : [last].filter Handled.isMilestone = [] := by
    cases last <;> simp_all [Handled.type, ReqType.authdecide, Handled.isMilestone]
  have hu : v.valid = true := by
    cases last with
    | authpassword authenticated =>
      apply he
      simpa [Handled.ret] using hd.2
    | keyverify blob check verified =>
      obtain ⟨type, hKey, _⟩ := he
      exact (hInv.key type blob hKey).1
    | _ => cases hd.1
  refine ⟨hd, ?_, ?_⟩
  · rw [filter_append, ho, hm, append_nil]
    rw [hv] at hu
    obtain rfl : valid = true := hu
    rfl
  · rintro blob check verified rfl
    obtain ⟨type, hKey, hc⟩ := he
    obtain ⟨earlier, later, hPre, hl⟩ := exists_lastKey (hInv.key type blob hKey).2
    exact ⟨earlier, later, type, hPre, hl, hc⟩

lemma monitorChildPreauth_accepted {cfg : Config} {inputs : List (Bytes × World)} {s left : State}
    {handled : List Handled} (hInv : Invariant before s.view)
    (h : monitorChildPreauth cfg inputs s before = .left left handled) :
    ∃ earlier last, handled = earlier ++ [last] ∧ Accepted earlier last := by
  induction inputs generalizing s before with
  | nil => cases h
  | cons input rest ih =>
    obtain ⟨message, w⟩ := input
    unfold monitorChildPreauth at h
    cases ht : preauthTurn cfg w s message with
    | error reason =>
      rw [ht] at h
      cases h
    | ok out =>
      obtain ⟨next, last, authenticated⟩ := out
      obtain ⟨hp, he, hv, hd⟩ := preauthTurn_refines ht
      rw [ht] at h
      cases authenticated with
      | false =>
        apply ih ?_ h
        rw [hv]
        exact hInv.after hp he
      | true =>
        dsimp only at h
        rw [if_pos rfl] at h
        split at h
        · cases h
        · cases h
          exact ⟨before, last, rfl, hInv.accepted hp he (hd rfl)⟩

/-- The protocol before authentication: whatever the child sends and the
system answers, the loop is left only after a request that decides, with the
milestones behind it in their order and each but once, and with a verified key
that the last key request allowed. -/
theorem monitorChildPreauth_left (cfg : Config) (process : Process)
    (inputs : List (Bytes × World)) (left : State) (handled : List Handled)
    (h : monitorChildPreauth cfg inputs (State.initial process) [] = .left left handled) :
    ∃ before last, handled = before ++ [last] ∧ Accepted before last :=
  monitorChildPreauth_accepted (Invariant.initial process) h

/-! A child that authenticates with a user key. -/

def plainConfig : Config := ⟨⟨false, false⟩, defaultOptions, 0, false, text "192.0.2.1"⟩

def willingWorld : World where
  hostkeyPublic := fun _ => none
  hostkeyPrivate := fun _ => true
  agent := false
  signs := true
  pwent := some ⟨1000, text "x"⟩
  fakepw := ⟨65534, text "*"⟩
  system := lockedSystem
  database := liveDatabase
  stale := []
  keyFromBlob := fun _ => true
  keyIsRsa := fun _ => false
  userKeyAllowed := fun _ _ => true
  hostbasedKeyAllowed := fun _ _ _ => false
  keyVerify := 1
  updateMethodsLists := true
  rootAllowed := fun _ => true

def hashOfExchange : Bytes := List.replicate 20 7

def keyMessages : List (Bytes × World) :=
  [[6] ++ putU32 0 ++ putString hashOfExchange ++ putString (text "ssh-rsa"),
   [8] ++ putString (text "alice--3"),
   [4] ++ putString (text "ssh-connection") ++ putString [],
   [22] ++ putU32 2 ++ putString [] ++ putString [] ++ putString (text "key") ++ putU32 1,
   [24] ++ putString (text "key") ++ putString (text "sig") ++
     putString (userBlob hashOfExchange (text "alice--3"))].map fun message => (message, willingWorld)

def Outcome.handled : Outcome → Option (List Handled)
  | .left _ handled => some handled
  | _ => none

/-- The loop can be left, and then the conditions hold. -/
theorem monitorChildPreauth_left_key :
    ∃ left handled, monitorChildPreauth plainConfig keyMessages (State.initial aliceProcess) [] =
      .left left handled ∧ ∃ before last, handled = before ++ [last] ∧ Accepted before last := by
  have hHandled : (monitorChildPreauth plainConfig keyMessages (State.initial aliceProcess)
    []).handled = some [.sign, .pwnam true, .authserv, .keyallowed 2 (text "key") true,
      .keyverify (text "key") .user true] := by decide +kernel
  cases hOutcome : monitorChildPreauth plainConfig keyMessages (State.initial aliceProcess) [] with
  | left left handled =>
    exact ⟨left, handled, rfl, monitorChildPreauth_left _ _ _ left handled hOutcome⟩
  | stopped reason =>
    rw [hOutcome] at hHandled
    cases hHandled
  | waiting =>
    rw [hOutcome] at hHandled
    cases hHandled

end Monitor
