import Sshfortress.Base.Bytes

/-! The verdict on a host key. One loop looks for the key, for the CA of a certificate or for a
key type, and keeps a provisional result; a second one looks for a revocation. -/
namespace Hostfile
open Base

/-- The key types of protocol 2, without those of certificates. -/
inductive SshType where
  | rsa
  | dsa
  | ecdsa
  | ed25519
  deriving DecidableEq

/-- A key with its public part. Only keys of protocol 2 are certified, and only by such keys. -/
inductive SshKey where
  | rsa1 (pub : Bytes)
  | plain (type : SshType) (pub : Bytes)
  | cert (type : SshType) (pub : Bytes) (certblob : Bytes) (caType : SshType) (ca : Bytes)
  deriving DecidableEq

inductive Marker where
  | none
  | revoke
  | ca
  deriving DecidableEq

structure HostkeyEntry where
  key : SshKey
  marker : Marker
  deriving DecidableEq

inductive HostStatus where
  | ok
  | new
  | changed
  | revoked
  | found
  deriving DecidableEq

namespace SshKey

def pub : SshKey → Bytes
  | .rsa1 pub | .plain _ pub | .cert _ pub .. => pub

/-- `sshkey_type_plain`, without a type for `KEY_RSA1`. -/
def typePlain : SshKey → Option SshType
  | .rsa1 _ => none
  | .plain type _ | .cert type .. => some type

def isCert : SshKey → Bool
  | .cert .. => true
  | _ => false

def isRsa1 (k : SshKey) : Bool := k.typePlain.isNone

def signatureKey : SshKey → Option SshKey
  | .cert _ _ _ caType ca => some (.plain caType ca)
  | _ => none

def sameType (a b : SshKey) : Bool := a.isCert = b.isCert ∧ a.typePlain = b.typePlain

def certCompare : SshKey → SshKey → Bool
  | .cert _ _ a .., .cert _ _ b .. => a = b
  | _, _ => false

def equalPublic (a b : SshKey) : Bool := a.typePlain = b.typePlain ∧ a.pub = b.pub

def equal (a b : SshKey) : Bool := a.sameType b && (!a.isCert || certCompare a b) && equalPublic a b

end SshKey

/-- A key that may be `NULL` is equal to none then. -/
def equalPublic (a : Option SshKey) (b : SshKey) : Bool := a.any (SshKey.equalPublic · b)

def checkKeyNotRevoked (k : Option SshKey) : List HostkeyEntry → Int
  | [] => 0
  | e :: rest =>
    if e.marker ≠ .revoke then checkKeyNotRevoked k rest
    else if equalPublic k e.key then -1
    else if equalPublic (k.bind SshKey.signatureKey) e.key then -1
    else checkKeyNotRevoked k rest

/-- What is looked for: a key, or a key type. -/
inductive Wanted where
  | key (k : SshKey)
  | type (isCert : Bool) (plain : Option SshType)

def Wanted.key? : Wanted → Option SshKey
  | .key k => some k
  | .type .. => none

def Wanted.isRsa1 : Wanted → Bool
  | .key k => k.isRsa1
  | .type _ plain => plain.isNone

/-- The loop, with the result so far, the entry found and the key that is checked afterwards. -/
def lookHostkeys (w : Wanted) : List HostkeyEntry → HostStatus → Option HostkeyEntry →
    HostStatus × Option HostkeyEntry × Option SshKey
  | [], endReturn, found => (endReturn, found, w.key?)
  | e :: rest, endReturn, found =>
    if w.isRsa1 ≠ e.key.isRsa1 then lookHostkeys w rest endReturn found
    else if e.marker ≠ if w.key?.any SshKey.isCert then .ca else .none then
      lookHostkeys w rest endReturn found
    else
      match w with
      | .type isCert plain =>
        if e.key.isCert ≠ isCert ∨ e.key.typePlain ≠ plain then lookHostkeys w rest endReturn found
        else (.found, some e, some e.key)
      | .key k =>
        if k.isCert then
          if equalPublic k.signatureKey e.key then (.ok, some e, some k)
          else lookHostkeys w rest endReturn found
        else if k.equal e.key then (.ok, some e, some k)
        else lookHostkeys w rest .changed (some e)

def checkHostkeysByKeyOrType (hostkeys : List HostkeyEntry) (w : Wanted) :
    HostStatus × Option HostkeyEntry :=
  let (endReturn, found, k) := lookHostkeys w hostkeys .new none
  if checkKeyNotRevoked k hostkeys ≠ 0 then (.revoked, none) else (endReturn, found)

def checkKeyInHostkeys (hostkeys : List HostkeyEntry) (k : SshKey) : HostStatus × Option HostkeyEntry :=
  checkHostkeysByKeyOrType hostkeys (.key k)

/-! The rule. -/

/-- The entry revokes the key or the CA that certified it. -/
def revokes (k : SshKey) (e : HostkeyEntry) : Bool :=
  e.marker = .revoke && (k.equalPublic e.key || equalPublic k.signatureKey e.key)

/-- The entry vouches for the key: it has the CA of the certificate, or the plain key. -/
def vouches (k : SshKey) (e : HostkeyEntry) : Bool :=
  if k.isCert then e.marker = .ca && equalPublic k.signatureKey e.key else e.marker = .none && k.equal e.key

/-- The host has shown a plain key of the same protocol version. -/
def rivals (k : SshKey) (e : HostkeyEntry) : Bool :=
  !k.isCert && e.marker = .none && k.isRsa1 = e.key.isRsa1

/-- The verdict: what the first of the conditions says that some entry meets. -/
def verdict (hostkeys : List HostkeyEntry) (k : SshKey) : HostStatus :=
  if hostkeys.any (revokes k) then .revoked
  else if hostkeys.any (vouches k) then .ok
  else if hostkeys.any (rivals k) then .changed
  else .new

variable {k : SshKey} {hostkeys : List HostkeyEntry} {e : HostkeyEntry}

lemma SshKey.isRsa1_of_equalPublic {a b : SshKey} (h : a.equalPublic b = true) : a.isRsa1 = b.isRsa1 := by
  rw [equalPublic, decide_eq_true_eq] at h
  rw [isRsa1, isRsa1, h.1]

lemma isRsa1_of_vouches (h : vouches k e = true) : k.isRsa1 = e.key.isRsa1 := by
  cases k with
  | cert type pub certblob caType ca =>
    exact SshKey.isRsa1_of_equalPublic (a := .plain caType ca) (Bool.and_eq_true_iff.1 h).2
  | _ => exact SshKey.isRsa1_of_equalPublic (Bool.and_eq_true_iff.1 (Bool.and_eq_true_iff.1 h).2).2

lemma checkKeyNotRevoked_eq_zero : checkKeyNotRevoked (some k) hostkeys = 0 ↔ hostkeys.any (revokes k) = false := by
  induction hostkeys with
  | nil => simp [checkKeyNotRevoked]
  | cons e rest ih =>
    rw [checkKeyNotRevoked, List.any_cons]
    split_ifs with hMarker hKey hCa <;> simp_all [revokes, equalPublic]

lemma lookHostkeys_cons (endReturn : HostStatus) (found : Option HostkeyEntry) :
    lookHostkeys (.key k) (e :: hostkeys) endReturn found =
      if vouches k e then (.ok, some e, some k)
      else if rivals k e then lookHostkeys (.key k) hostkeys .changed (some e)
      else lookHostkeys (.key k) hostkeys endReturn found := by
  simp only [lookHostkeys, Wanted.isRsa1, Wanted.key?, Option.any_some]
  by_cases hp : k.isRsa1 = e.key.isRsa1
  · by_cases hc : k.isCert = true
    · by_cases hm : e.marker = .ca <;> simp [vouches, rivals, hc, hm, hp]
    · by_cases hm : e.marker = .none <;> simp [vouches, rivals, hc, hm, hp]
  · have ho : vouches k e = false := Bool.eq_false_iff.2 fun h => hp (isRsa1_of_vouches h)
    simp [hp, ho, rivals]

lemma lookHostkeys_key (endReturn : HostStatus) (found : Option HostkeyEntry) :
    ∃ last, lookHostkeys (.key k) hostkeys endReturn found =
      (if hostkeys.any (vouches k) then .ok else if hostkeys.any (rivals k) then .changed else endReturn,
        last, some k) := by
  induction hostkeys generalizing endReturn found with
  | nil => exact ⟨found, rfl⟩
  | cons e rest ih =>
    rw [lookHostkeys_cons, List.any_cons, List.any_cons]
    cases hVouches : vouches k e
    · cases hRivals : rivals k e
      · exact ih endReturn found
      · simpa using ih .changed (some e)
    · exact ⟨some e, rfl⟩

lemma checkKeyInHostkeys_fst : (checkKeyInHostkeys hostkeys k).1 = verdict hostkeys k := by
  obtain ⟨last, hl⟩ := @lookHostkeys_key k hostkeys .new none
  simp only [checkKeyInHostkeys, checkHostkeysByKeyOrType, hl, verdict, ne_eq, checkKeyNotRevoked_eq_zero]
  cases hostkeys.any (revokes k) <;> rfl

/-- The verdict is the one of the rule, whatever the order of the entries. -/
theorem host_key_verdict (hostkeys : List HostkeyEntry) (k : SshKey) :
    (checkKeyInHostkeys hostkeys k).1 = verdict hostkeys k ∧
      ∀ other, hostkeys.Perm other → (checkKeyInHostkeys other k).1 = (checkKeyInHostkeys hostkeys k).1 := by
  refine ⟨checkKeyInHostkeys_fst, fun other hPerm => ?_⟩
  simp [checkKeyInHostkeys_fst, verdict, hPerm.any_eq]

/-- A certificate of a CA that is trusted in one line and revoked in another. -/
theorem host_key_verdict_revoked :
    (checkKeyInHostkeys [⟨.plain .rsa [1], .revoke⟩, ⟨.plain .rsa [1], .ca⟩] (.cert .dsa [2] [3] .rsa [1])).1 =
      .revoked :=
  ((host_key_verdict [⟨.plain .rsa [1], .ca⟩, ⟨.plain .rsa [1], .revoke⟩] _).2 _ (.swap ..)).trans (by decide)

end Hostfile
