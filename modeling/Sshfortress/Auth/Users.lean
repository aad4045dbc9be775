import Sshfortress.Auth.Addresses
import Sshfortress.Base.Interaction

/-! Who may log in: `allowed_user` with its lists of denied and allowed users, and when
those lists mean what they say. -/
namespace Auth
open Base List

/-- What is known of an account: the password field is that of the shadow file where there
is one, and `groups` are the names `ga_init` finds. -/
structure Account where
  name : Bytes
  passwd : Option Bytes
  expired : Bool
  shell : Bytes
  groups : List Bytes

structure LoginOptions where
  usePam : Bool
  chrootDirectory : Option Bytes
  (denyUsers allowUsers denyGroups allowGroups : List Bytes)

inductive Refusal where
  | accountExpired
  | accountLocked
  | shellMissing (shell : Bytes)
  | shellNotExecutable (shell : Bytes)
  | listedInDenyUsers
  | notListedInAllowUsers
  | notInAnyGroup
  | listedInDenyGroups
  | notListedInAllowGroups
  deriving DecidableEq

def Refusal.message (name hostname : Bytes) : Refusal → Bytes
  | .accountExpired => []
  | .accountLocked => text "User " ++ name.take 100 ++ text " not allowed because account is locked"
  | .shellMissing shell => text "User " ++ name.take 100 ++ text " not allowed because shell " ++
      shell.take 100 ++ text " does not exist"
  | .shellNotExecutable shell => text "User " ++ name.take 100 ++ text " not allowed because shell " ++
      shell.take 100 ++ text " is not executable"
  | .listedInDenyUsers => userFrom ++ text " not allowed because listed in DenyUsers"
  | .notListedInAllowUsers => userFrom ++ text " not allowed because not listed in AllowUsers"
  | .notInAnyGroup => userFrom ++ text " not allowed because not in any group"
  | .listedInDenyGroups => userFrom ++ text " not allowed because a group is listed in DenyGroups"
  | .notListedInAllowGroups =>
    userFrom ++ text " not allowed because none of user's groups are listed in AllowGroups"
where
  userFrom := text "User " ++ name.take 100 ++ text " from " ++ hostname.take 100

section

variable (o : LoginOptions) (a : Account)

/-- A locked account has a password field that starts with `!` (33). -/
def accountTest : Except Refusal Unit :=
  if o.usePam = false ∧ a.expired = true then .error .accountExpired
  else if o.usePam = false ∧ a.passwd.any (fun passwd => passwd.head? = some 33) = true then
    .error .accountLocked
  else .ok ()

/-- `stat` gives the mode of a file that exists. -/
def shellTest (stat : Bytes → Option Nat) : Except Refusal Unit :=
  if o.chrootDirectory.all (fun dir => dir.map toLower = text "none") then
    let shell := if a.shell = [] then text "/bin/sh" else a.shell
    match stat shell with
    | none => .error (.shellMissing shell)
    | some mode =>
      if mode &&& 0o170000 ≠ 0o100000 ∨ mode &&& 0o111 = 0 then .error (.shellNotExecutable shell)
      else .ok ()
  else .ok ()

def listed (addrPton : Bytes → Option Xaddr) (hostname ipaddr : Bytes) (patterns : List Bytes) : Bool :=
  patterns.any fun pattern => matchUser addrPton a.name hostname ipaddr pattern ≠ 0

def denyUsersTest (addrPton : Bytes → Option Xaddr) (hostname ipaddr : Bytes) : Except Refusal Unit :=
  if 0 < o.denyUsers.length ∧ listed a addrPton hostname ipaddr o.denyUsers = true then
    .error .listedInDenyUsers
  else .ok ()

def allowUsersTest (addrPton : Bytes → Option Xaddr) (hostname ipaddr : Bytes) : Except Refusal Unit :=
  if 0 < o.allowUsers.length ∧ listed a addrPton hostname ipaddr o.allowUsers = false then
    .error .notListedInAllowUsers
  else .ok ()

def gaMatch (patterns : List Bytes) : Bool :=
  a.groups.any fun group => patterns.any fun pattern => matchPattern group pattern

def groupsTest : Except Refusal Unit :=
  if 0 < o.denyGroups.length ∨ 0 < o.allowGroups.length then
    if a.groups.length = 0 then .error .notInAnyGroup
    else if 0 < o.denyGroups.length ∧ gaMatch a o.denyGroups = true then .error .listedInDenyGroups
    else if 0 < o.allowGroups.length ∧ gaMatch a o.allowGroups = false then
      .error .notListedInAllowGroups
    else .ok ()
  else .ok ()

def allowedUser (stat : Bytes → Option Nat) (addrPton : Bytes → Option Xaddr) (hostname ipaddr : Bytes) :
    Except Refusal Unit := do
  accountTest o a
  shellTest o a stat
  denyUsersTest o a addrPton hostname ipaddr
  allowUsersTest o a addrPton hostname ipaddr
  groupsTest o a

end

/-! What a pattern means. -/

section

variable (addrPton : Bytes → Option Xaddr) (user host ipaddr : Bytes)

def userPart (pattern : Bytes) : Bytes := pattern.takeWhile (· ≠ 64)

def hostPart (pattern : Bytes) : Option Bytes :=
  match pattern.dropWhile (· ≠ 64) with
  | [] => none
  | _ :: list => some list

def hostElements (list : Bytes) : List Element := (list.splitOn 44).map readElement

/-- The address matches the element; text that is no address matches none. -/
def Hit (e : Element) : Prop :=
  ∃ tryAddr, addrPton ipaddr = some tryAddr ∧ AddrMatches addrPton ipaddr tryAddr e

/-- The name or the address matches, and neither matches what the list excludes. -/
structure HostMatches (list : Bytes) : Prop where
  name : matchHostname host list ≠ -1
  addr : ∀ e ∈ hostElements list, ¬ (e.negated = true ∧ Hit addrPton ipaddr e)
  hit : matchHostname host list = 1 ∨ ∃ e ∈ hostElements list, Hit addrPton ipaddr e

def TrulyMatches (pattern : Bytes) : Prop :=
  matchPattern user (userPart pattern) = true ∧
    ∀ list ∈ hostPart pattern, HostMatches addrPton host ipaddr list

def WellFormed (pattern : Bytes) : Prop :=
  ∀ list ∈ hostPart pattern, ∀ e ∈ hostElements list, ¬ Malformed addrPton e

/-- The user part matches, and `addr_match_list` comes to a malformed element of the host
part, or the address is none and the name is what lets the user in. -/
def Misread (pattern : Bytes) : Prop :=
  matchPattern user (userPart pattern) = true ∧ ¬ WellFormed addrPton pattern ∧
    ∃ list ∈ hostPart pattern, (∃ tryAddr, addrPton ipaddr = some tryAddr ∧
        MalformedReached addrPton ipaddr tryAddr (hostElements list)) ∨
      addrPton ipaddr = none ∧ matchHostname host list = 1

variable {addrPton user host ipaddr} {list pattern : Bytes}

lemma matchUser_ne_zero : matchUser addrPton user host ipaddr pattern ≠ 0 ↔
    matchPattern user (userPart pattern) = true ∧
      ∀ list ∈ hostPart pattern, matchHostAndIp addrPton host ipaddr list ≠ 0 := by
  rw [matchUser, hostPart, userPart]
  cases hr : pattern.dropWhile (· ≠ 64) with
  | nil =>
    have hw : pattern.takeWhile (· ≠ 64) = pattern := by
      have hp := takeWhile_append_dropWhile (p := (· ≠ 64)) (l := pattern)
      rwa [hr, append_nil] at hp
    rw [hw]
    cases matchPattern user pattern <;> simp
  | cons c list => cases matchPattern user (pattern.takeWhile (· ≠ 64)) <;> simp

lemma matchHostname_ne (hNeg : matchHostname host list ≠ -1)
    (hz : matchHostname host list ≠ 0) : matchHostname host list = 1 := by
  rcases matchElements_range host true (listElements list) false with h | h | h
  · exact absurd h hNeg
  · exact absurd h hz
  · exact h

lemma matchHostAndIp_ne_zero : matchHostAndIp addrPton host ipaddr list ≠ 0 ↔
    addrMatchList addrPton ipaddr list = -2 ∨
      addrMatchList addrPton ipaddr list ≠ -1 ∧ matchHostname host list ≠ -1 ∧
        ¬ (matchHostname host list = 0 ∧ addrMatchList addrPton ipaddr list = 0) := by
  rw [matchHostAndIp]
  split_ifs with hError hExcluded <;> simp_all

lemma not_hit_of_none (h : addrPton ipaddr = none) (e : Element) : ¬ Hit addrPton ipaddr e := by
  rintro ⟨tryAddr, hTry, -⟩
  cases h.symm.trans hTry

lemma matchHostAndIp_iff : matchHostAndIp addrPton host ipaddr list ≠ 0 ↔
    (∃ tryAddr, addrPton ipaddr = some tryAddr ∧
      MalformedReached addrPton ipaddr tryAddr (hostElements list)) ∨ HostMatches addrPton host ipaddr list := by
  generalize hMet : (∃ tryAddr, addrPton ipaddr = some tryAddr ∧
    MalformedReached addrPton ipaddr tryAddr (hostElements list)) = met
  have hs : (addrMatchList addrPton ipaddr list = -2 ↔ met) ∧ (addrMatchList addrPton ipaddr list = -1 ↔
      ¬ met ∧ ∃ e ∈ hostElements list, e.negated = true ∧ Hit addrPton ipaddr e) ∧
    (addrMatchList addrPton ipaddr list = 0 ↔ ¬ met ∧ ∀ e ∈ hostElements list, ¬ Hit addrPton ipaddr e) := by
    rw [addrMatchList, ← hMet]
    cases ha : addrPton ipaddr with
    | none => simp [not_hit_of_none ha]
    | some tryAddr => simpa [Hit, ha, hostElements] using addrMatchElements_spec addrPton (list.splitOn 44) (.inl rfl)
  rw [matchHostAndIp_ne_zero, Ne, hs.1, hs.2.1, hs.2.2]
  by_cases he : met
  · simp [he]
  simp only [he, false_or, not_false_eq_true, true_and]
  constructor
  · rintro ⟨ha, hn, ho⟩
    refine ⟨hn, fun e hMem h => ha ⟨e, hMem, h⟩, ?_⟩
    by_cases hz : matchHostname host list = 0
    · exact .inr (by simpa using fun hNone => ho ⟨hz, hNone⟩)
    · exact .inl (matchHostname_ne hn hz)
  · rintro ⟨hn, ha, hHit⟩
    refine ⟨fun ⟨e, hMem, h⟩ => ha e hMem h, hn, fun ⟨hz, hNone⟩ => ?_⟩
    rcases hHit with hOne | ⟨e, hMem, h⟩
    · cases hz.symm.trans hOne
    · exact hNone e hMem h

lemma matchUser_iff : matchUser addrPton user host ipaddr pattern ≠ 0 ↔
    WellFormed addrPton pattern ∧ TrulyMatches addrPton user host ipaddr pattern ∨
      Misread addrPton user host ipaddr pattern := by
  rw [matchUser_ne_zero, WellFormed, TrulyMatches, Misread, WellFormed]
  cases hostPart pattern with
  | none => simp
  | some list =>
    simp only [Option.mem_some_iff, forall_eq', exists_eq_left']
    rw [matchHostAndIp_iff]
    by_cases hf : ∀ e ∈ hostElements list, ¬ Malformed addrPton e
    · have hNot : ¬ ∃ tryAddr, addrPton ipaddr = some tryAddr ∧
        MalformedReached addrPton ipaddr tryAddr (hostElements list) := by
        rintro ⟨tryAddr, -, hr⟩
        obtain ⟨e, hMem, hBad⟩ := hr.exists
        exact hf e hMem hBad
      simp only [eq_true hf, hNot, true_and, false_or, not_true_eq_false, false_and, and_false, or_false]
    · have hBad : ∃ e ∈ hostElements list, Malformed addrPton e := by
        simpa only [not_forall, not_not, exists_prop] using hf
      simp only [hf, false_and, false_or, not_false_eq_true, true_and]
      refine and_congr_right fun _ => ?_
      cases ha : addrPton ipaddr with
      | none =>
        simp only [reduceCtorEq, false_and, exists_false, false_or, true_and]
        constructor
        · exact fun h => h.hit.resolve_right fun ⟨e, _, hHit⟩ => not_hit_of_none ha e hHit
        · exact fun hOne => ⟨by rw [hOne]; decide, fun e _ h => not_hit_of_none ha e h.2, .inl hOne⟩
      | some tryAddr =>
        simp only [Option.some.injEq, exists_eq_left', reduceCtorEq, false_and, or_false, or_iff_left_iff_imp]
        refine fun h => malformedReached_of_exists addrPton (fun e hMem hNeg => ?_) hBad
        exact h.addr e hMem ⟨hNeg.1, tryAddr, ha, hNeg.2⟩

/-- A pattern that truly matches is taken for a match, even if something else is wrong
with it. -/
lemma TrulyMatches.matchUser (h : TrulyMatches addrPton user host ipaddr pattern) :
    matchUser addrPton user host ipaddr pattern ≠ 0 :=
  matchUser_ne_zero.2 ⟨h.1, fun list hl => matchHostAndIp_iff.2 (.inr (h.2 list hl))⟩

end

/-! The lists. -/

section

variable (o : LoginOptions) (a : Account) (stat : Bytes → Option Nat) (addrPton : Bytes → Option Xaddr)
  (hostname ipaddr : Bytes)

/-- The lists let nobody in by mistake: a user passes the list of allowed users only by a
well-formed pattern that matches, and is refused by any pattern of the other list that
matches. -/
structure ListsFailClosed : Prop where
  allow : o.allowUsers ≠ [] → allowUsersTest o a addrPton hostname ipaddr = .ok () →
    ∃ pattern ∈ o.allowUsers, WellFormed addrPton pattern ∧
      TrulyMatches addrPton a.name hostname ipaddr pattern
  deny : (∃ pattern ∈ o.denyUsers, TrulyMatches addrPton a.name hostname ipaddr pattern) →
    ∃ refusal, allowedUser o a stat addrPton hostname ipaddr = .error refusal

lemma listed_iff {patterns : List Bytes} : listed a addrPton hostname ipaddr patterns = true ↔
    ∃ pattern ∈ patterns, matchUser addrPton a.name hostname ipaddr pattern ≠ 0 := by
  simp [listed]

lemma denied {pattern : Bytes} (hp : pattern ∈ o.denyUsers)
    (h : TrulyMatches addrPton a.name hostname ipaddr pattern) :
    ∃ refusal, allowedUser o a stat addrPton hostname ipaddr = .error refusal := by
  have hl : listed a addrPton hostname ipaddr o.denyUsers = true :=
    (listed_iff a addrPton hostname ipaddr).2 ⟨pattern, hp, h.matchUser⟩
  have hd : denyUsersTest o a addrPton hostname ipaddr = .error .listedInDenyUsers :=
    if_pos ⟨length_pos_of_mem hp, hl⟩
  cases hRes : allowedUser o a stat addrPton hostname ipaddr with
  | error refusal => exact ⟨refusal, rfl⟩
  | ok done =>
    obtain ⟨_, -, hr⟩ := bind_eq_ok.1 hRes
    obtain ⟨_, -, hr⟩ := bind_eq_ok.1 hr
    obtain ⟨_, hPassed, -⟩ := bind_eq_ok.1 hr
    rw [hd] at hPassed
    cases hPassed

end

def dotted (a b c d : Nat) : Xaddr :=
  ⟨.inet, [BitVec.ofNat 32 (a * 2 ^ 24 + b * 2 ^ 16 + c * 2 ^ 8 + d)], 0, rfl⟩

def twoAddresses (p : Bytes) : Option Xaddr :=
  if p = text "10.0.0.1" then some (dotted 10 0 0 1)
  else if p = text "192.0.2.7" then some (dotted 192 0 2 7)
  else none

def onlyBob : LoginOptions := ⟨true, none, [], [text "bob@10.0.0.1/8"], [], []⟩

end Auth
