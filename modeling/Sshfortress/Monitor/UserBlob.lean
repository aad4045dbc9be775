import Sshfortress.Auth.Password
import Sshfortress.Base.Wire

/-! The user name of a login and the blob that a user key signs. The name
`N--I` asks for the target `I` in the name of `N`; it is looked up when the
monitor learns the name, and once more when it checks the signed blob. -/
namespace Monitor

open Base Base.Wire Base.Mysql Auth
open Option (bind_eq_bind bind_eq_some_iff pure_def)

/-- The login statement. The second copy of the source is indented by one more
tab, and the continued literal keeps the indentation. -/
def loginSelect (indent : String) (name id : Bytes) : Bytes :=
  text "SELECT\tAES_DECRYPT( sl.`password`, 'greatfortress' ) sshPassword, " ++
  text indent ++ text "\tal.dst_ip,\tal.ssh_port,\tad.dst_name," ++
  text "\tAES_DECRYPT( ad.dst_password, 'greatfortress' ) dstPassword " ++
  text indent ++ text "FROM\t(SELECT\tb.asset_dst_id groupnumber," ++
  text "\t( SELECT h.dst_name FROM asset_dst h WHERE h.id = b.asset_dst_id ) " ++
  text indent ++ text "\tdst_name,\ta.PASSWORD FROM\tssh_list a,\tssh_asset b WHERE\ta.NAME = '" ++
  name ++ text "' \tAND a.id = b.ssh_id " ++
  text indent ++ text "\tAND a.is_delete = 0 \tAND b.is_enable = 10 \t) d," ++
  text "\tssh_list sl\tINNER JOIN ssh_asset sa ON sl.id = sa.ssh_id " ++
  text indent ++ text "\tINNER JOIN asset_list_relation ar ON sa.asset_group = ar.asset_group " ++
  text indent ++ text "\tINNER JOIN asset_list al ON ar.asset_id = al.id" ++
  text "\tINNER JOIN asset_dst ad ON al.id = ad.asset_id " ++
  text indent ++ text "WHERE\tsl.`name` = '" ++ name ++ text "' \tAND al.id = '" ++ id ++
  text "'\tAND d.dst_name = ad.dst_name"

/-- The statement for a user string. The part before the first dash is cut off
in place by `strtok`, and what stands behind the first `--` is read from the
same memory. Without `--` there is nothing to read it from. -/
def loginQuery (indent : String) (user : Bytes) : Option Bytes :=
  (strstr (text "--") user).map fun dstuid =>
    let name := (strtok 45 user).getD (text "(null)")
    let id := cstr ((strtokCut 45 user).drop (user.length - dstuid.length + 2))
    snprintf 2048 (loginSelect indent name id)

structure Compat where
  (oldSessionid bugPkauth : Bool)

structure Session where
  compat : Compat
  sessionId2 : Option Bytes

def need {α : Type} (field : Option α) : Except Stop α :=
  match field with
  | some v => .ok v
  | none => .error .fatal

/-- The session id at the front: of fixed length for old peers, else a string. -/
def getSessionId (s : Session) : Getter Bytes := fun b =>
  if s.compat.oldSessionid then
    let len := (s.sessionId2.map List.length).getD 0
    if b.length < len then none else some (b.take len, b.drop len)
  else getString b

/-- The front of the blob up to the user name: how many checks failed, the
name, and the rest. -/
def blobHead (s : Session) (data : Bytes) : Except Stop (Nat × Bytes × Bytes) := do
  let (p, b) ← need (getSessionId s data)
  let fail := if s.sessionId2 = some p then 0 else 1
  let (type, b) ← need (getU8 b)
  let fail := if type = 50 then fail else fail + 1
  let (cp, b) ← need (getCstring b)
  return (fail, cp, b)

/-- Copy the first row into the target; a result without a row is read
through a null pointer. -/
def copyTarget (db : Answers) (process : Process) : Except Stop Process :=
  if db.connect && db.store then
    match db.row with
    | none => .error .crash
    | some row => do
      let (_, target) ← copyRow row
      return { process with target }
  else .ok process

/-- The rest of the blob: how many of its checks fail. -/
def blobTail (s : Session) (b : Bytes) : Except Stop Nat := do
  let (_, b) ← need (skipString b)
  if s.compat.bugPkauth then
    let (flag, b) ← need (getU8 b)
    let fail := if flag = 0 then 1 else 0
    let (_, b) ← need (skipString b)
    return if b = [] then fail else fail + 1
  else
    let (cp, b) ← need (getCstring b)
    let fail := if cp = text "publickey" then 0 else 1
    let (flag, b) ← need (getU8 b)
    let fail := if flag = 0 then fail + 1 else fail
    let (_, b) ← need (skipString b)
    let (_, b) ← need (skipString b)
    return if b = [] then fail else fail + 1

/-- The check of the blob that a user key signed. Two failures of the lookup
in its middle return `EXIT_FAILURE`, which the caller takes for acceptance, and
the user name is not compared with anything. -/
def monitorValidUserblob (s : Session) (db : Answers) (process : Process) (data : Bytes) :
    Except Stop (Bool × Process) := do
  let (fail, cp, b) ← blobHead s data
  match loginQuery "\t" cp with
  | none => .error .crash
  | some query =>
    let process := { process with getQuery := query }
    if !db.init || db.connect && !db.query query then return (true, process)
    else
      let process ← copyTarget db process
      let fail' ← blobTail s b
      return (fail + fail' == 0, process)

/-! What a blob is meant to be: the fields of a public key request. -/

structure RequestTail where
  (service method : Bytes)
  flag : UInt8
  algorithm : Option Bytes
  (key trailing : Bytes)
  deriving DecidableEq

structure UserRequest where
  sessionId : Bytes
  type : UInt8
  user : Bytes
  tail : RequestTail
  deriving DecidableEq

/-- Peers with the old layout leave out the method and the algorithm. -/
def getRequestTail (s : Session) (b : Bytes) : Option RequestTail := do
  let (service, b) ← getString b
  if s.compat.bugPkauth then
    let (flag, b) ← getU8 b
    let (key, trailing) ← getString b
    return ⟨service, text "publickey", flag, none, key, trailing⟩
  else
    let (method, b) ← getCstring b
    let (flag, b) ← getU8 b
    let (algorithm, b) ← getString b
    let (key, trailing) ← getString b
    return ⟨service, method, flag, some algorithm, key, trailing⟩

def getUserRequest (s : Session) (data : Bytes) : Option UserRequest := do
  let (sessionId, b) ← getSessionId s data
  let (type, b) ← getU8 b
  let (user, b) ← getCstring b
  let tail ← getRequestTail s b
  return ⟨sessionId, type, user, tail⟩

/-- A public key request, with a signature, and nothing behind it. -/
def RequestTail.Complete (t : RequestTail) : Prop :=
  t.method = text "publickey" ∧ t.flag ≠ 0 ∧ t.trailing = []

/-- The request is complete, of the right kind, and made for this session. -/
def UserRequest.Framed (s : Session) (r : UserRequest) : Prop :=
  s.sessionId2 = some r.sessionId ∧ r.type = 50 ∧ r.tail.Complete

/-- The name a request must carry: the one the login was announced with, and
the style if there is one. -/
def expectedUser (name : Bytes) (style : Option Bytes) : Bytes :=
  match style with
  | some style => name ++ text ":" ++ style
  | none => name

/-- The blob is a complete request for this session in this user name. -/
def Bound (s : Session) (name : Bytes) (style : Option Bytes) (data : Bytes) : Prop :=
  ∃ r, getUserRequest s data = some r ∧ r.Framed s ∧ r.user = expectedUser name style

def blobUser (s : Session) (data : Bytes) : Option Bytes := do
  let (_, b) ← getSessionId s data
  let (_, b) ← getU8 b
  let (user, _) ← getCstring b
  return user

def lookupFails (db : Answers) (query : Bytes) : Bool :=
  !db.init || db.connect && !db.query query

/-- A stored result has a first row, and its columns fit where they go. -/
def RowFits (db : Answers) : Prop :=
  (db.connect && db.store) = true → ∃ row columns, db.row = some row ∧ copyRow row = .ok columns

lemma need_eq_ok {α : Type} {field : Option α} {v : α} : need field = .ok v ↔ field = some v := by
  cases field with
  | none => simp [need]
  | some w => simp [need]

variable {b rest : Bytes} {db : Answers} {process : Process}

lemma skipString_eq_some {u : Unit} :
    skipString b = some (u, rest) ↔ ∃ field, getString b = some (field, rest) := by
  simp only [skipString, Option.map_eq_some_iff, Prod.exists, Prod.mk.injEq, true_and]
  constructor
  · rintro ⟨field, tail, h, rfl⟩
    exact ⟨field, h⟩
  · rintro ⟨field, h⟩
    exact ⟨field, rest, h, rfl⟩

variable {s : Session} {data user : Bytes}

lemma blobHead_eq_ok {fail : Nat} : blobHead s data = .ok (fail, user, rest) ↔
      ∃ sessionId b type b', getSessionId s data = some (sessionId, b) ∧
        getU8 b = some (type, b') ∧ getCstring b' = some (user, rest) ∧
        fail = (if s.sessionId2 = some sessionId then 0 else 1) + (if type = 50 then 0 else 1) := by
  unfold blobHead
  simp only [bind_eq_ok, need_eq_ok, Prod.exists]
  constructor
  · rintro ⟨sessionId, b, hId, type, b', ht, cp, tail, hu, hRes⟩
    obtain ⟨rfl, rfl, rfl⟩ := hRes
    refine ⟨sessionId, b, type, b', hId, ht, hu, ?_⟩
    split <;> rfl
  · rintro ⟨sessionId, b, type, b', hId, ht, hu, rfl⟩
    refine ⟨sessionId, b, hId, type, b', ht, user, rest, hu, ?_⟩
    split <;> rfl

lemma blobTail_eq_zero : blobTail s b = .ok 0 ↔ ∃ t, getRequestTail s b = some t ∧ t.Complete := by
  unfold blobTail getRequestTail
  cases s.compat.bugPkauth with
  | true =>
    simp only [if_true, bind_eq_ok, need_eq_ok, Prod.exists, skipString_eq_some,
      exists_const, bind_eq_bind, bind_eq_some_iff, pure_def,
      Option.some.injEq]
    constructor
    · rintro ⟨b₁, ⟨service, hs⟩, flag, b₂, hf, trailing, ⟨key, hKey⟩, hRes⟩
      refine ⟨_, ⟨service, b₁, hs, flag, b₂, hf, key, trailing, hKey, rfl⟩, rfl, ?_⟩
      simp only [pure, Except.pure, Except.ok.injEq] at hRes
      grind
    · rintro ⟨_, ⟨service, b₁, hs, flag, b₂, hf, key, trailing, hKey, rfl⟩, _, hSet, hNil⟩
      refine ⟨b₁, ⟨service, hs⟩, flag, b₂, hf, trailing, ⟨key, hKey⟩, ?_⟩
      simp_all [pure, Except.pure]
  | false =>
    simp only [Bool.false_eq_true, if_false, bind_eq_ok, need_eq_ok, Prod.exists,
      skipString_eq_some, exists_const, bind_eq_bind, bind_eq_some_iff,
      pure_def, Option.some.injEq]
    constructor
    · rintro ⟨b₁, ⟨service, hs⟩, method, b₂, hm, flag, b₃, hf, b₄,
        ⟨algorithm, ha⟩, trailing, ⟨key, hKey⟩, hRes⟩
      refine ⟨_, ⟨service, b₁, hs, method, b₂, hm, flag, b₃, hf, algorithm, b₄,
        ha, key, trailing, hKey, rfl⟩, ?_⟩
      simp only [pure, Except.pure, Except.ok.injEq] at hRes
      simp only [RequestTail.Complete]
      grind
    · rintro ⟨_, ⟨service, b₁, hs, method, b₂, hm, flag, b₃, hf, algorithm, b₄,
        ha, key, trailing, hKey, rfl⟩, hIs, hSet, hNil⟩
      refine ⟨b₁, ⟨service, hs⟩, method, b₂, hm, flag, b₃, hf, b₄,
        ⟨algorithm, ha⟩, trailing, ⟨key, hKey⟩, ?_⟩
      simp_all [pure, Except.pure]

lemma framed_iff : (∃ r, getUserRequest s data = some r ∧ r.Framed s ∧ r.user = user) ↔
    ∃ rest, blobHead s data = .ok (0, user, rest) ∧ blobTail s rest = .ok 0 := by
  simp only [blobHead_eq_ok, blobTail_eq_zero, getUserRequest, UserRequest.Framed,
    bind_eq_bind, bind_eq_some_iff, Prod.exists, pure_def, Option.some.injEq]
  constructor
  · rintro ⟨_, ⟨sessionId, b, hId, type, b', ht, cp, rest, hu, tail, hTail, rfl⟩, ⟨hs, hk, hc⟩, rfl⟩
    refine ⟨rest, ⟨sessionId, b, type, b', hId, ht, hu, ?_⟩, tail, hTail, hc⟩
    rw [if_pos hs, if_pos hk]
  · rintro ⟨rest, ⟨sessionId, b, type, b', hId, ht, hu, hNone⟩, tail, hTail, hc⟩
    have hp : s.sessionId2 = some sessionId ∧ type = 50 := by grind
    exact ⟨_, ⟨sessionId, b, hId, type, b', ht, user, rest, hu, tail, hTail, rfl⟩, ⟨hp.1, hp.2, hc⟩, rfl⟩

lemma blobUser_eq_some :
    blobUser s data = some user ↔ ∃ fail rest, blobHead s data = .ok (fail, user, rest) := by
  simp only [blobHead_eq_ok, blobUser, bind_eq_bind, bind_eq_some_iff, Prod.exists,
    pure_def, Option.some.injEq]
  constructor
  · rintro ⟨sessionId, b, hId, type, b', ht, cp, rest, hu, rfl⟩
    exact ⟨_, rest, sessionId, b, type, b', hId, ht, hu, rfl⟩
  · rintro ⟨_, rest, sessionId, b, type, b', hId, ht, hu, rfl⟩
    exact ⟨sessionId, b, hId, type, b', ht, user, rest, hu, rfl⟩

lemma copyTarget_eq_ok : (∃ process', copyTarget db process = .ok process') ↔ RowFits db := by
  unfold copyTarget RowFits
  cases (db.connect && db.store) with
  | false => simp
  | true =>
    cases db.row with
    | none => simp
    | some row =>
      simp only [if_true, bind_eq_ok, Prod.exists, pure, Except.pure, Except.ok.injEq,
        Option.some.injEq, forall_const]
      constructor
      · rintro ⟨_, srcpasword, target, hc, rfl⟩
        exact ⟨row, srcpasword, target, rfl, hc⟩
      · rintro ⟨_, srcpasword, target, rfl, hc⟩
        exact ⟨_, srcpasword, target, hc, rfl⟩

/-- What acceptance comes from: an early return, or no failed check after a
copied row. The user name plays no part but for its dashes. -/
lemma monitorValidUserblob_true_iff :
    (∃ process', monitorValidUserblob s db process data = .ok (true, process')) ↔
      ∃ user query, blobUser s data = some user ∧ loginQuery "\t" user = some query ∧
        (lookupFails db query = true ∨ lookupFails db query = false ∧ RowFits db ∧
          ∃ rest, blobHead s data = .ok (0, user, rest) ∧ blobTail s rest = .ok 0) := by
  constructor
  · rintro ⟨process', h⟩
    obtain ⟨⟨fail, user, rest⟩, hh, h⟩ := bind_eq_ok.1 h
    have hu : blobUser s data = some user := blobUser_eq_some.2 ⟨fail, rest, hh⟩
    dsimp only at h
    cases hq : loginQuery "\t" user with
    | none =>
      rw [hq] at h
      cases h
    | some query =>
      refine ⟨user, query, hu, hq, ?_⟩
      rw [hq] at h
      dsimp only at h
      split at h
      · rename_i hf
        exact .inl hf
      · rename_i hFound
        obtain ⟨copied, hc, h⟩ := bind_eq_ok.1 h
        obtain ⟨fail', ht, h⟩ := bind_eq_ok.1 h
        simp only [pure, Except.pure, Except.ok.injEq, Prod.mk.injEq, beq_iff_eq] at h
        have hn : fail = 0 ∧ fail' = 0 := by omega
        rw [hn.1] at hh
        rw [hn.2] at ht
        exact .inr ⟨Bool.not_eq_true _ ▸ hFound, copyTarget_eq_ok.1 ⟨copied, hc⟩, rest, hh, ht⟩
  · rintro ⟨user, query, hu, hq, hCase⟩
    rcases hCase with hf | ⟨hFound, hFits, rest, hh, ht⟩
    · obtain ⟨fail, rest, hh⟩ := blobUser_eq_some.1 hu
      refine ⟨{ process with getQuery := query }, bind_eq_ok.2 ⟨_, hh, ?_⟩⟩
      dsimp only
      rw [hq]
      exact if_pos hf
    · obtain ⟨copied, hc⟩ := copyTarget_eq_ok.2 hFits
      refine ⟨copied, bind_eq_ok.2 ⟨_, hh, ?_⟩⟩
      dsimp only
      rw [hq]
      refine (if_neg (by simpa [lookupFails] using hFound)).trans ?_
      exact bind_eq_ok.2 ⟨copied, hc, bind_eq_ok.2 ⟨0, ht, rfl⟩⟩

/-- An accepted blob is bound to this session and this user. -/
def AcceptsOnlyBound (s : Session) (db : Answers) (process : Process) (style : Option Bytes)
    (data : Bytes) : Prop :=
  ∀ process', monitorValidUserblob s db process data = .ok (true, process') →
    Bound s process.audituser style data

/-- The check accepts only bound blobs exactly when, for a blob whose user
name can be looked up, a lookup that returns early meets a bound blob, and
otherwise a blob with every other field right carries the expected name. -/
theorem monitorValidUserblob_bound_iff (s : Session) (db : Answers) (process : Process)
    (style : Option Bytes) (data : Bytes) : AcceptsOnlyBound s db process style data ↔
      ∀ user query, blobUser s data = some user → loginQuery "\t" user = some query →
        (lookupFails db query = true → Bound s process.audituser style data) ∧
        (lookupFails db query = false → RowFits db → ∀ r, getUserRequest s data = some r → r.Framed s →
          r.user = expectedUser process.audituser style) := by
  constructor
  · intro hOnly user query hUser hQuery
    constructor
    · intro hFails
      obtain ⟨process', hAccepted⟩ := monitorValidUserblob_true_iff.2
        ⟨user, query, hUser, hQuery, .inl hFails⟩
      exact hOnly process' hAccepted
    · intro hFound hFits r hRequest hFramed
      obtain ⟨rest, hHead, hTail⟩ := framed_iff.1 ⟨r, hRequest, hFramed, rfl⟩
      have hSame : r.user = user := by
        have hName := blobUser_eq_some.2 ⟨0, rest, hHead⟩
        rw [hUser, Option.some.injEq] at hName
        exact hName.symm
      rw [hSame] at hHead
      obtain ⟨process', hAccepted⟩ := monitorValidUserblob_true_iff.2
        ⟨user, query, hUser, hQuery, .inr ⟨hFound, hFits, rest, hHead, hTail⟩⟩
      obtain ⟨r', hRequest', _, hName⟩ := hOnly process' hAccepted
      rw [hRequest, Option.some.injEq] at hRequest'
      rw [hRequest']
      exact hName
  · intro hWhen process' hAccepted
    obtain ⟨user, query, hUser, hQuery, hCase⟩ :=
      monitorValidUserblob_true_iff.1 ⟨process', hAccepted⟩
    obtain ⟨hEarly, hLate⟩ := hWhen user query hUser hQuery
    rcases hCase with hFails | ⟨hFound, hFits, hPass⟩
    · exact hEarly hFails
    · obtain ⟨r, hRequest, hFramed, _⟩ := framed_iff.2 hPass
      exact ⟨r, hRequest, hFramed, hLate hFound hFits r hRequest hFramed⟩

/-! A request in somebody else's name, and a database that answers. -/

def plainSession : Session := ⟨⟨false, false⟩, some (text "session-1")⟩

def userBlob (sessionId user : Bytes) : Bytes :=
  putString sessionId ++ [50] ++ putString user ++ putString (text "ssh-connection") ++
    putString (text "publickey") ++ [1] ++ putString (text "ssh-rsa") ++ putString (text "key")

def targetRow : Row := fun _ => some (text "x")

def liveDatabase : Answers := ⟨true, true, fun _ => true, true, some targetRow⟩

/-- A login announced as `alice--3` accepts a request made for `bob--3`. -/
theorem monitorValidUserblob_other_user : ¬ AcceptsOnlyBound plainSession liveDatabase aliceProcess none
      (userBlob (text "session-1") (text "bob--3")) := by
  intro hOnly
  have hAccepted : (monitorValidUserblob plainSession liveDatabase aliceProcess
    (userBlob (text "session-1") (text "bob--3"))).toOption.map Prod.fst = some true := by
    decide +kernel
  have hUser : (getUserRequest plainSession
    (userBlob (text "session-1") (text "bob--3"))).map UserRequest.user = some (text "bob--3") := by
    decide +kernel
  obtain ⟨⟨_, process'⟩, hRun, rfl⟩ := Option.map_eq_some_iff.1 hAccepted
  obtain ⟨r, hRequest, -, hName⟩ := hOnly process' (toOption_eq_some.1 hRun)
  rw [hRequest, Option.map_some, hName] at hUser
  exact absurd hUser (by decide)

end Monitor
