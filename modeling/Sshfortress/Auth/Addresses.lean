import Sshfortress.Auth.Match
import Sshfortress.Base.Cidr

/-! Matching of address patterns. Addresses are read by the resolver of the system, which is
given as a function of their text. -/
namespace Auth
open Base Base.Cidr List

inductive Family where
  | inet
  | inet6
  deriving DecidableEq

def Family.words : Family → Nat
  | .inet => 1
  | .inet6 => 4

/-- The words of the address from the first, each as a number. -/
structure Xaddr where
  af : Family
  addr : List Word
  scopeId : Word
  length_addr : addr.length = af.words
  deriving DecidableEq

def addrUnicastMasklen : Family → Nat
  | .inet => 32
  | .inet6 => 128

def masklenValid (af : Family) (masklen : Nat) : Bool := masklen ≤ addrUnicastMasklen af

def addrNetmask (af : Family) (l : Nat) : Option Xaddr :=
  if masklenValid af l then some ⟨af, netmask af.words l, 0, length_netmask _ _⟩ else none

/-- The scope is that of the first address. -/
def addrAnd (a b : Xaddr) : Option Xaddr :=
  if hSame : a.af = b.af then
    some ⟨a.af, masked a.addr b.addr, a.scopeId, by simp [masked, a.length_addr, b.length_addr, hSame]⟩
  else none

def addrValue (a : Xaddr) : Nat := a.addr.foldl (fun n w => n * 2 ^ 32 + w.toNat) 0

/-- Scopes are compared for addresses of the newer family only. -/
def addrCmp (a b : Xaddr) : Int :=
  if a.af ≠ b.af then if a.af = .inet6 then 1 else -1
  else if a.addr ≠ b.addr then if addrValue b < addrValue a then 1 else -1
  else if a.af = .inet ∨ a.scopeId = b.scopeId then 0
  else if b.scopeId < a.scopeId then 1 else -1

def addrInvert (n : Xaddr) : Xaddr := { n with
  addr := invert n.addr
  length_addr := by simp [invert, n.length_addr] }

def addrHostmask (af : Family) (l : Nat) : Option Xaddr := (addrNetmask af l).map addrInvert

def addrIsAll0s (a : Xaddr) : Bool := a.addr.all (· = 0)

def addrHostIsAll0s (a : Xaddr) (masklen : Nat) : Bool :=
  match addrHostmask a.af masklen with
  | none => false
  | some mask =>
    match addrAnd a mask with
    | none => false
    | some result => addrIsAll0s result

def addrNetmatch (host net : Xaddr) (masklen : Nat) : Int :=
  if host.af ≠ net.af then -1
  else match addrNetmask host.af masklen with
    | none => -1
    | some mask =>
      match addrAnd host mask with
      | none => -1
      | some result => addrCmp result net

def isSpace (c : UInt8) : Bool := c = 32 ∨ 9 ≤ c ∧ c ≤ 13

def isDigit (c : UInt8) : Bool := 48 ≤ c ∧ c ≤ 57

/-- `strtoul` with base ten: the number and the text behind it. -/
def strtoul (s : Bytes) : Nat × Bytes :=
  let body := s.dropWhile isSpace
  let unsigned := if body.head? = some 45 ∨ body.head? = some 43 then body.tail else body
  let digits := unsigned.takeWhile isDigit
  let number := digits.foldl (fun n d => n * 10 + (d.toNat - 48)) 0
  if digits = [] then (0, s)
  else if 2 ^ 64 ≤ number then (2 ^ 64 - 1, unsigned.drop digits.length)
  else if body.head? = some 45 then ((2 ^ 64 - number) % 2 ^ 64, unsigned.drop digits.length)
  else (number, unsigned.drop digits.length)

inductive Cidr where
  | ok (addr : Xaddr) (masklen : Nat)
  | parseError
  | inconsistent
  deriving DecidableEq

variable (addrPton : Bytes → Option Xaddr)

def cidrOf (tmp : Xaddr) (masklen : Nat) : Cidr :=
  if masklenValid tmp.af masklen = false then .inconsistent
  else if addrHostIsAll0s tmp masklen = false then .inconsistent
  else .ok tmp masklen

/-- The text before the first `/` (47) is the address, the text behind it the length of
the mask. -/
def addrPtonCidr (p : Bytes) : Cidr :=
  if 64 ≤ p.length then .parseError
  else
    match p.dropWhile (· ≠ 47) with
    | [] =>
      match addrPton p with
      | none => .parseError
      | some tmp => cidrOf tmp (addrUnicastMasklen tmp.af)
    | _ :: mp =>
      let (masklen, cp) := strtoul mp
      if mp = [] ∨ cp ≠ [] ∨ 128 < masklen then .parseError
      else
        match addrPton (p.takeWhile (· ≠ 47)) with
        | none => .parseError
        | some tmp => cidrOf tmp masklen

/-- The loop of `addr_match_list`. A list is given up at an element that is empty or whose
mask does not fit its address. -/
def addrMatchElements (addr : Bytes) (tryAddr : Xaddr) : List Bytes → Int → Int
  | [], ret => ret
  | element :: rest, ret =>
    let found := if (readElement element).negated then -1 else addrMatchElements addr tryAddr rest 1
    if (readElement element).body = [] then -2
    else match addrPtonCidr addrPton (readElement element).body with
      | .inconsistent => -2
      | .ok matchAddr masklen =>
        if addrNetmatch tryAddr matchAddr masklen = 0 then found
        else addrMatchElements addr tryAddr rest ret
      | .parseError =>
        if matchPattern addr (readElement element).body then found
        else addrMatchElements addr tryAddr rest ret

def addrMatchList (addr list : Bytes) : Int :=
  match addrPton addr with
  | none => 0
  | some tryAddr => addrMatchElements addrPton addr tryAddr (list.splitOn 44) 0

def matchHostAndIp (host ipaddr patterns : Bytes) : Int :=
  let mip := addrMatchList addrPton ipaddr patterns
  if mip = -2 then -1
  else if mip = -1 then 0
  else
    let mhost := matchHostname host patterns
    if mhost = -1 then 0
    else if mhost = 0 ∧ mip = 0 then 0
    else 1

/-- The first `@` (64) of the pattern ends its user part. -/
def matchUser (user host ipaddr pattern : Bytes) : Int :=
  match pattern.dropWhile (· ≠ 64) with
  | [] => if matchPattern user pattern then 1 else 0
  | _ :: p =>
    if matchPattern user (pattern.takeWhile (· ≠ 64)) then matchHostAndIp addrPton host ipaddr p else 0

/-! What the address part of a list comes to. -/

variable {addr : Bytes} {tryAddr : Xaddr} {ret : Int}

structure Contains (net : Xaddr) (masklen : Nat) (host : Xaddr) : Prop where
  af : host.af = net.af
  scope : host.af = .inet6 → host.scopeId = net.scopeId
  bits : ∀ i < masklen, bit host.addr i = bit net.addr i

variable {masklen : Nat} {net a : Xaddr} {elements : List Element}

lemma addrCmp_eq_zero {b : Xaddr} (hSame : a.af = b.af) :
    addrCmp a b = 0 ↔ a.addr = b.addr ∧ (a.af = .inet6 → a.scopeId = b.scopeId) := by
  rw [addrCmp, if_neg (not_not.2 hSame)]
  by_cases ha : a.addr = b.addr
  · rw [if_neg (not_not.2 ha)]
    cases hFamily : a.af with
    | inet => simp [ha]
    | inet6 => grind
  · rw [if_pos ha]
    grind

lemma addrPtonCidr_ok {p : Bytes} (h : addrPtonCidr addrPton p = .ok net masklen) :
    masklenValid net.af masklen = true ∧ addrHostIsAll0s net masklen = true := by
  have hOf : ∀ {tmp : Xaddr} {l : Nat}, cidrOf tmp l = .ok net masklen →
    masklenValid net.af masklen = true ∧ addrHostIsAll0s net masklen = true := by
    intro tmp l hOk
    rw [cidrOf] at hOk
    split_ifs at hOk with hv hc
    cases hOk
    exact ⟨by simpa using hv, by simpa using hc⟩
  rw [addrPtonCidr] at h
  split_ifs at h
  split at h
  · split at h
    · cases h
    · exact hOf h
  · dsimp only at h
    split_ifs at h
    split at h
    · cases h
    · exact hOf h

lemma addrNetmatch_iff (host : Xaddr) (hv : masklenValid net.af masklen = true)
    (hc : addrHostIsAll0s net masklen = true) :
    addrNetmatch host net masklen = 0 ↔ Contains net masklen host := by
  by_cases hSame : host.af = net.af
  · have hMask : masklen ≤ 32 * net.af.words := by
      rw [masklenValid, decide_eq_true_iff] at hv
      cases hf : net.af with
      | inet => simpa [hf, addrUnicastMasklen, Family.words] using hv
      | inet6 => simpa [hf, addrUnicastMasklen, Family.words] using hv
    have hb : ∀ w ∈ masked net.addr (invert (netmask net.af.words masklen)), w = 0 := by
      simpa [addrHostIsAll0s, addrHostmask, addrNetmask, hv, addrAnd, addrInvert, addrIsAll0s] using hc
    have hBits := masked_eq_iff (host.length_addr.trans (congrArg _ hSame)) net.length_addr hb hMask
    have hm : addrNetmatch host net masklen = 0 ↔
      masked host.addr (netmask net.af.words masklen) = net.addr ∧
        (host.af = .inet6 → host.scopeId = net.scopeId) := by
      simp only [addrNetmatch, hSame, ne_eq, not_true_eq_false, if_false, addrNetmask, hv, if_true, addrAnd,
        dite_true]
      exact addrCmp_eq_zero rfl
    rw [hm, hBits]
    constructor
    · rintro ⟨ha, hs⟩
      exact ⟨hSame, hs, ha⟩
    · rintro ⟨-, hs, ha⟩
      exact ⟨ha, hs⟩
  · rw [addrNetmatch, if_pos hSame]
    constructor
    · intro h
      cases h
    · exact fun h => absurd h.af hSame

lemma addrHostIsAll0s_iff (hv : masklenValid a.af masklen = true) :
    addrHostIsAll0s a masklen = true ↔ ∀ i < addrUnicastMasklen a.af, masklen ≤ i → bit a.addr i = false := by
  have hw : addrUnicastMasklen a.af = 32 * a.af.words := by cases a.af <;> rfl
  rw [hw, ← clear_iff a.length_addr]
  simp [addrHostIsAll0s, addrHostmask, addrNetmask, hv, addrAnd, addrInvert, addrIsAll0s]

lemma cidrOf_eq_ok {tmp : Xaddr} {l : Nat} :
    cidrOf tmp l = .ok net masklen ↔ (net = tmp ∧ masklen = l) ∧ l ≤ addrUnicastMasklen tmp.af ∧
      ∀ i < addrUnicastMasklen tmp.af, l ≤ i → bit tmp.addr i = false := by
  rw [cidrOf]
  by_cases hv : masklenValid tmp.af l = true
  · rw [if_neg (by simp [hv])]
    have hf : l ≤ addrUnicastMasklen tmp.af := by simpa [masklenValid] using hv
    rw [← addrHostIsAll0s_iff hv]
    by_cases hc : addrHostIsAll0s tmp l = true
    · simp [hc, hf, eq_comm]
    · simp [hc]
  · rw [if_pos (by simpa using hv)]
    have hl : ¬ l ≤ addrUnicastMasklen tmp.af := by simpa [masklenValid] using hv
    simp [hl]

def decimalValue (digits : Bytes) : Nat := digits.foldl (fun n d => n * 10 + (d.toNat - 48)) 0

lemma strtoul_digits {len : Bytes} (hSome : len ≠ []) (hd : ∀ d ∈ len, isDigit d = true) :
    strtoul len = (min (decimalValue len) (2 ^ 64 - 1), []) := by
  have ht : len.takeWhile isDigit = len := takeWhile_eq_self_iff.2 hd
  obtain ⟨d, rest, rfl⟩ := exists_cons_of_ne_nil hSome
  have hDigit : 48 ≤ d ∧ d ≤ 57 := by simpa [isDigit] using hd d (by simp)
  have hs : isSpace d = false := by
    simp only [isSpace, decide_eq_false_iff_not]
    grind
  have hm : d ≠ 45 := by grind
  have hp : d ≠ 43 := by grind
  simp only [strtoul, dropWhile_cons, hs, Bool.false_eq_true, if_false, head?_cons, Option.some.injEq, hm,
    hp, or_self, ht, drop_length, reduceCtorEq]
  change (if 2 ^ 64 ≤ decimalValue (d :: rest) then _ else _) = _
  split_ifs with hLarge
  · rw [Nat.min_eq_right (by omega)]
  · rw [Nat.min_eq_left (by omega)]
    rfl

/-- Networks are matched by their first bits, and by the scope of a newer address; a text
with a mask is accepted when the mask fits the address and the rest of it is clear. -/
theorem cidr_prefix :
    (∀ host text net masklen, host.scopeId = 0 → addrPtonCidr addrPton text = .ok net masklen →
      (addrNetmatch host net masklen = 0 ↔ host.af = net.af ∧
        (∀ i < masklen, bit host.addr i = bit net.addr i) ∧ (net.af = .inet6 → net.scopeId = 0))) ∧
    ∀ addr len tmp, 47 ∉ addr → len ≠ [] → (∀ d ∈ len, isDigit d = true) →
      (addr ++ 47 :: len).length < 64 → addrPton addr = some tmp →
      ((∃ net masklen, addrPtonCidr addrPton (addr ++ 47 :: len) = .ok net masklen) ↔
        decimalValue len ≤ addrUnicastMasklen tmp.af ∧
          ∀ i < addrUnicastMasklen tmp.af, decimalValue len ≤ i → bit tmp.addr i = false) := by
  constructor
  · intro host text net masklen hScope hOk
    obtain ⟨hValid, hClear⟩ := addrPtonCidr_ok addrPton hOk
    rw [addrNetmatch_iff host hValid hClear]
    constructor
    · rintro ⟨hFamily, hSame, hBits⟩
      exact ⟨hFamily, hBits, fun hNew => (hSame (hFamily.trans hNew)).symm.trans hScope⟩
    · rintro ⟨hFamily, hBits, hZero⟩
      exact ⟨hFamily, fun hNew => hScope.trans (hZero (hFamily.symm.trans hNew)).symm, hBits⟩
  · intro addr len tmp hSlash hSome hDigits hLength hAddr
    have hFront : ∀ c ∈ addr, decide (c ≠ 47) = true := fun c hc => by
      simp only [decide_eq_true_eq]
      rintro rfl
      exact hSlash hc
    have hDrop : (addr ++ 47 :: len).dropWhile (· ≠ 47) = 47 :: len := by
      rw [dropWhile_append_of_pos hFront]
      rfl
    have hTake : (addr ++ 47 :: len).takeWhile (· ≠ 47) = addr := by
      rw [takeWhile_append_of_pos hFront]
      simp
    have hWidth : addrUnicastMasklen tmp.af ≤ 128 := by cases tmp.af <;> decide
    rw [addrPtonCidr, if_neg (Nat.not_le.2 hLength), hDrop]
    dsimp only
    rw [strtoul_digits hSome hDigits, hTake, hAddr]
    by_cases hLong : 128 < decimalValue len
    · rw [if_pos (by omega)]
      simp only [reduceCtorEq, exists_false, false_iff, not_and]
      omega
    · rw [if_neg (by simp [hSome]; omega), Nat.min_eq_left (by omega)]
      simp only [cidrOf_eq_ok]
      simp

/-- A resolver that knows the networks 10.0.0.0 and fe80:: on the second interface. -/
def twoNetworks (p : Bytes) : Option Xaddr :=
  if p = text "10.0.0.0" then some ⟨.inet, [0x0a000000], 0, rfl⟩
  else if p = text "fe80::%2" then some ⟨.inet6, [0xfe800000, 0, 0, 0], 2, rfl⟩
  else none

theorem cidr_prefix_ten : addrNetmatch ⟨.inet, [0x0a010203], 0, rfl⟩ ⟨.inet, [0x0a000000], 0, rfl⟩ 8 = 0 ∧
    (∃ net masklen, addrPtonCidr twoNetworks (text "10.0.0.0/8") = .ok net masklen) ∧
    ¬ ∃ net masklen, addrPtonCidr twoNetworks (text "10.0.0.0/33") = .ok net masklen := by
  obtain ⟨hMatch, hAccept⟩ := cidr_prefix twoNetworks
  refine ⟨?_, ?_, ?_⟩
  · exact (hMatch ⟨.inet, [0x0a010203], 0, rfl⟩ (text "10.0.0.0/8") _ _ rfl rfl).2 (by decide)
  · exact (hAccept (text "10.0.0.0") (text "8") _ (by decide) (by decide) (by decide +kernel)
      (by decide) rfl).2 (by decide)
  · rw [show text "10.0.0.0/33" = text "10.0.0.0" ++ 47 :: text "33" by rfl,
      hAccept (text "10.0.0.0") (text "33") _ (by decide) (by decide) (by decide +kernel) (by decide) rfl]
    decide

/-- An address on no interface is not in a network on the second one. -/
theorem cidr_scope :
    ¬ ∀ addrPton host text net masklen, host.scopeId = 0 → addrPtonCidr addrPton text = .ok net masklen →
      (addrNetmatch host net masklen = 0 ↔ host.af = net.af ∧ ∀ i < masklen, bit host.addr i = bit net.addr i) := by
  intro hClaim
  have hMatch := (hClaim twoNetworks ⟨.inet6, [0xfe800000, 0, 0, 1], 0, rfl⟩ (text "fe80::%2/10")
    ⟨.inet6, [0xfe800000, 0, 0, 0], 2, rfl⟩ 10 rfl rfl).2 (by decide)
  revert hMatch
  decide

/-- An element for which there is no reading: nothing at all, or an address with bits
behind its own mask. -/
def Malformed (e : Element) : Prop := e.body = [] ∨ addrPtonCidr addrPton e.body = .inconsistent

/-- A network is matched by the addresses in it, and any other element by its pattern. -/
def AddrMatches (addr : Bytes) (tryAddr : Xaddr) (e : Element) : Prop :=
  match addrPtonCidr addrPton e.body with
  | .ok net masklen => Contains net masklen tryAddr
  | .parseError => matchPattern addr e.body = true
  | .inconsistent => False

/-- Some element is malformed, and no negated element before it matches. -/
def MalformedReached (addr : Bytes) (tryAddr : Xaddr) : List Element → Prop
  | [] => False
  | e :: rest => Malformed addrPton e ∨
      ¬ (e.negated = true ∧ AddrMatches addrPton addr tryAddr e) ∧ MalformedReached addr tryAddr rest

open Classical in
lemma addrMatchElements_cons (element : Bytes) (rest : List Bytes) :
    addrMatchElements addrPton addr tryAddr (element :: rest) ret =
      if Malformed addrPton (readElement element) then -2
      else if AddrMatches addrPton addr tryAddr (readElement element) then
        if (readElement element).negated then -1 else addrMatchElements addrPton addr tryAddr rest 1
      else addrMatchElements addrPton addr tryAddr rest ret := by
  rw [Malformed, AddrMatches, addrMatchElements]
  by_cases he : (readElement element).body = []
  · rw [if_pos he, if_pos (.inl he)]
  rw [if_neg he]
  cases hCidr : addrPtonCidr addrPton (readElement element).body with
  | inconsistent => rw [if_pos (Or.inr rfl)]
  | parseError => simp [he]
  | ok net masklen =>
    obtain ⟨hv, hc⟩ := addrPtonCidr_ok addrPton hCidr
    simp [he, addrNetmatch_iff tryAddr hv hc]

/-- The loop of `addr_match_list` ends with an error exactly at a malformed element, before
which nothing was refused. Otherwise a negated match rules, and any other match counts. -/
lemma addrMatchElements_spec (elements : List Bytes) (hRet : ret = 0 ∨ ret = 1) :
    (addrMatchElements addrPton addr tryAddr elements ret = -2 ↔
      MalformedReached addrPton addr tryAddr (elements.map readElement)) ∧
    (addrMatchElements addrPton addr tryAddr elements ret = -1 ↔
      ¬ MalformedReached addrPton addr tryAddr (elements.map readElement) ∧
        ∃ e ∈ elements.map readElement, e.negated = true ∧ AddrMatches addrPton addr tryAddr e) ∧
    (addrMatchElements addrPton addr tryAddr elements ret = 0 ↔
      ¬ MalformedReached addrPton addr tryAddr (elements.map readElement) ∧ ret = 0 ∧
        ∀ e ∈ elements.map readElement, ¬ AddrMatches addrPton addr tryAddr e) := by
  induction elements generalizing ret with
  | nil => rcases hRet with rfl | rfl <;> simp [addrMatchElements, MalformedReached]
  | cons element rest ih =>
    rw [map_cons, MalformedReached, addrMatchElements_cons]
    simp only [exists_mem_cons_iff, forall_mem_cons]
    by_cases hBad : Malformed addrPton (readElement element)
    · simp [hBad]
    by_cases hm : AddrMatches addrPton addr tryAddr (readElement element)
    · cases hNegated : (readElement element).negated with
      | true => simp [hBad, hm]
      | false => simp [hBad, hm, ih (.inr rfl)]
    · simp [hBad, hm, ih hRet]

lemma MalformedReached.exists (h : MalformedReached addrPton addr tryAddr elements) :
    ∃ e ∈ elements, Malformed addrPton e := by
  induction elements with
  | nil => exact h.elim
  | cons e rest ih => exact (exists_mem_cons_iff ..).2 (h.imp_right fun hr => ih hr.2)

lemma malformedReached_of_exists
    (ha : ∀ e ∈ elements, ¬ (e.negated = true ∧ AddrMatches addrPton addr tryAddr e))
    (hBad : ∃ e ∈ elements, Malformed addrPton e) : MalformedReached addrPton addr tryAddr elements := by
  induction elements with
  | nil => simp at hBad
  | cons e rest ih =>
    rw [forall_mem_cons] at ha
    rw [exists_mem_cons_iff] at hBad
    exact hBad.imp_right fun hl => ⟨ha.1, ih ha.2 hl⟩

/-! Lists of networks in certificates. -/

def inet6Addrstrlen : Nat := 46

def validCidrChars : Bytes := text "0123456789abcdefABCDEF.:/"

def spansCidrChars (cp : Bytes) : Bool := cp.all (validCidrChars.contains ·)

/-- The loop of `addr_match_cidr_list`. A character that does not belong is noted, but does
not end it. -/
def addrMatchCidrEntries (tryAddr : Xaddr) : List Bytes → Int → Int
  | [], ret => ret
  | cp :: rest, ret =>
    if cp = [] then -1
    else if inet6Addrstrlen + 3 < cp.length then -1
    else
      let ret := if spansCidrChars cp then ret else -1
      match addrPtonCidr addrPton cp with
      | .parseError | .inconsistent => -1
      | .ok matchAddr masklen =>
        addrMatchCidrEntries tryAddr rest (if addrNetmatch tryAddr matchAddr masklen = 0 then 1 else ret)

def addrMatchCidrList (addr list : Bytes) : Int :=
  match addrPton addr with
  | none => 0
  | some tryAddr => addrMatchCidrEntries addrPton tryAddr (list.splitOn 44) 0

/-- No network can be read from the entry. -/
def Unreadable (entry : Bytes) : Prop :=
  entry = [] ∨ inet6Addrstrlen + 3 < entry.length ∨ ∀ net masklen, addrPtonCidr addrPton entry ≠ .ok net masklen

/-- The entry has a character that does not belong into a network. -/
def Foreign (entry : Bytes) : Prop := spansCidrChars entry = false

def Covers (tryAddr : Xaddr) (entry : Bytes) : Prop :=
  ∃ net masklen, addrPtonCidr addrPton entry = .ok net masklen ∧ Contains net masklen tryAddr

/-- A foreign entry does not contain the address, and neither does any entry behind it. -/
def ForeignLast (tryAddr : Xaddr) (entries : List Bytes) : Prop :=
  ∃ before entry after, entries = before ++ entry :: after ∧ Foreign entry ∧
    ∀ e ∈ entry :: after, ¬ Covers addrPton tryAddr e

open Classical in
lemma addrMatchCidrEntries_cons (entry : Bytes) (rest : List Bytes) :
    addrMatchCidrEntries addrPton tryAddr (entry :: rest) ret =
      if Unreadable addrPton entry then -1
      else addrMatchCidrEntries addrPton tryAddr rest
        (if Covers addrPton tryAddr entry then 1 else if Foreign entry then -1 else ret) := by
  rw [Unreadable, Covers, Foreign, addrMatchCidrEntries]
  by_cases he : entry = []
  · rw [if_pos he, if_pos (.inl he)]
  by_cases hl : inet6Addrstrlen + 3 < entry.length
  · rw [if_neg he, if_pos hl, if_pos (.inr (.inl hl))]
  cases hCidr : addrPtonCidr addrPton entry with
  | parseError => simp
  | inconsistent => simp
  | ok net masklen =>
    obtain ⟨hv, hc⟩ := addrPtonCidr_ok addrPton hCidr
    cases spansCidrChars entry <;> simp [he, hl, addrNetmatch_iff tryAddr hv hc]

lemma foreignLast_cons {entry : Bytes} {rest : List Bytes} :
    ForeignLast addrPton tryAddr (entry :: rest) ↔ ForeignLast addrPton tryAddr rest ∨
      Foreign entry ∧ ∀ e ∈ entry :: rest, ¬ Covers addrPton tryAddr e := by
  constructor
  · rintro ⟨before, other, after, hs, hf, hn⟩
    rcases cons_eq_append_iff.1 hs with ⟨rfl, hh⟩ | ⟨before, rfl, rfl⟩
    · cases hh
      exact .inr ⟨hf, hn⟩
    · exact .inl ⟨before, other, after, rfl, hf, hn⟩
  · rintro (⟨before, other, after, rfl, hf, hn⟩ | ⟨hf, hn⟩)
    · exact ⟨entry :: before, other, after, rfl, hf, hn⟩
    · exact ⟨[], entry, rest, rfl, hf, hn⟩

open Classical in
lemma addrMatchCidrEntries_eq (entries : List Bytes) : addrMatchCidrEntries addrPton tryAddr entries ret =
      if (∃ entry ∈ entries, Unreadable addrPton entry) ∨ ForeignLast addrPton tryAddr entries then -1
      else if ∃ entry ∈ entries, Covers addrPton tryAddr entry then 1 else ret := by
  induction entries generalizing ret with
  | nil => simp [ForeignLast, addrMatchCidrEntries]
  | cons entry rest ih =>
    simp only [addrMatchCidrEntries_cons, ih, foreignLast_cons, exists_mem_cons_iff, forall_mem_cons]
    by_cases hu : Unreadable addrPton entry
    · simp [hu]
    by_cases hc : Covers addrPton tryAddr entry
    · simp [hu, hc]
    by_cases hf : Foreign entry
    · by_cases hl : ∃ other ∈ rest, Covers addrPton tryAddr other
      · have hs : ¬ ∀ other ∈ rest, ¬ Covers addrPton tryAddr other := by simpa using hl
        simp [hu, hc, hf, hl, hs]
      · have hn : ∀ other ∈ rest, ¬ Covers addrPton tryAddr other := by simpa using hl
        simp [hu, hc, hf, hl, eq_true hn]
    · simp [hu, hc, hf]

/-- The result is the error for a list with a wrong entry, and otherwise says whether some
network contains the address. -/
def CidrVerdict (tryAddr : Xaddr) (entries : List Bytes) (ret : Int) : Prop :=
  ((∃ entry ∈ entries, Unreadable addrPton entry ∨ Foreign entry) → ret = -1) ∧
    ((∀ entry ∈ entries, ¬ (Unreadable addrPton entry ∨ Foreign entry)) →
      (ret = 1 ↔ ∃ entry ∈ entries, Covers addrPton tryAddr entry) ∧
      (ret = 0 ↔ ∀ entry ∈ entries, ¬ Covers addrPton tryAddr entry))

/-- `addr_match_cidr_list` finds a wrong entry unless all that is wrong is characters, and an
entry with such characters, or one behind it, contains the address. -/
theorem addrMatchCidrList_verdict {addr : Bytes} {tryAddr : Xaddr} (list : Bytes)
    (hAddr : addrPton addr = some tryAddr) :
    CidrVerdict addrPton tryAddr (list.splitOn 44) (addrMatchCidrList addrPton addr list) ↔
      (∃ entry ∈ list.splitOn 44, Unreadable addrPton entry) ∨ (∀ entry ∈ list.splitOn 44, ¬ Foreign entry) ∨
        ForeignLast addrPton tryAddr (list.splitOn 44) := by
  rw [addrMatchCidrList, hAddr]
  generalize list.splitOn 44 = entries
  dsimp only
  rw [addrMatchCidrEntries_eq]
  by_cases hError : (∃ entry ∈ entries, Unreadable addrPton entry) ∨ ForeignLast addrPton tryAddr entries
  · rw [if_pos hError]
    refine iff_of_true ⟨fun _ => rfl, fun hNone => ?_⟩ (hError.imp_right .inr)
    rcases hError with ⟨entry, hEntry, hWrong⟩ | ⟨before, entry, after, rfl, hForeign, -⟩
    · exact absurd (.inl hWrong) (hNone entry hEntry)
    · exact absurd (.inr hForeign) (hNone entry (by simp))
  rw [if_neg hError]
  rw [not_or] at hError
  constructor
  · rintro ⟨hWrong, -⟩
    refine .inr (.inl fun entry hEntry hForeign => absurd (hWrong ⟨entry, hEntry, .inr hForeign⟩) ?_)
    split_ifs <;> decide
  · intro hRight
    have hClean := (hRight.resolve_left hError.1).resolve_right hError.2
    refine ⟨fun ⟨entry, hEntry, hWrong⟩ => ?_, fun _ => ?_⟩
    · exact absurd (hWrong.resolve_left fun h => hError.1 ⟨entry, hEntry, h⟩) (hClean entry hEntry)
    · split_ifs with hCovers
      · exact ⟨iff_of_true rfl hCovers, iff_of_false (by decide) (by simpa using hCovers)⟩
      · exact ⟨iff_of_false (by decide) hCovers, iff_of_true rfl (by simpa using hCovers)⟩

def loopback (p : Bytes) : Option Xaddr :=
  if p = text "127.0.0.1" ∨ p = text "0x7f.0.0.1" then some ⟨.inet, [0x7f000001], 0, rfl⟩ else none

theorem addrMatchCidrList_verdict_loopback :
    CidrVerdict loopback ⟨.inet, [0x7f000001], 0, rfl⟩ ((text "127.0.0.1,").splitOn 44)
      (addrMatchCidrList loopback (text "127.0.0.1") (text "127.0.0.1,")) :=
  (addrMatchCidrList_verdict loopback (text "127.0.0.1,") rfl).2 (.inl ⟨[], by decide, .inl rfl⟩)

/-- A list with a character that does not belong is accepted. -/
theorem addrMatchCidrList_foreign : ¬ ∀ addrPton addr tryAddr list, addrPton addr = some tryAddr →
    CidrVerdict addrPton tryAddr (list.splitOn 44) (addrMatchCidrList addrPton addr list) := by
  intro hClaim
  have hError := (hClaim loopback (text "127.0.0.1") _ (text "0x7f.0.0.1") rfl).1
    ⟨text "0x7f.0.0.1", by decide, .inr (by rw [Foreign]; decide)⟩
  revert hError
  decide

end Auth
