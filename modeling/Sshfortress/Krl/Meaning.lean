import Sshfortress.Krl.Basic

/-! What a revocation list says, as a set of facts. The check of a key depends on nothing
else, and every way to add to a list adds facts. -/
namespace Krl
open Base List

inductive Fact (K : Type) where
  | serial (caKey : Option K) (serial : Nat)
  | keyId (caKey : Option K) (keyId : Bytes)
  | key (blob : Bytes)
  | sha1 (hash : Bytes)

variable {K : Type} (ops : KeyOps K)

namespace KeyOps

def Revokes (krl : SshKrl K) : Fact K → Prop
  | .serial caKey serial => ∃ rc, ops.revokedCertsForCaKey krl caKey = some rc ∧ rc.revokedSerials.Covers serial
  | .keyId caKey keyId => ∃ rc, ops.revokedCertsForCaKey krl caKey = some rc ∧ keyId ∈ rc.revokedKeyIds
  | .key blob => blob ∈ krl.revokedKeys
  | .sha1 hash => hash ∈ krl.revokedSha1s

lemma isCertRevoked_iff (krl : SshKrl K) (caKey : Option K) (cert : Cert K) :
    (ops.revokedCertsForCaKey krl caKey).any (isCertRevoked cert) = true ↔
      ops.Revokes krl (.keyId caKey cert.keyId) ∨
        (cert.serial ≠ 0 ∧ ops.Revokes krl (.serial caKey cert.serial)) := by
  simp only [Revokes]
  cases ops.revokedCertsForCaKey krl caKey with
  | none => simp
  | some rc => simp [isCertRevoked]

lemma sshKrlCheckKey_congr {krl other : SshKrl K} (h : ∀ fact, ops.Revokes krl fact ↔ ops.Revokes other fact)
    (key : K) : ops.sshKrlCheckKey krl key = ops.sshKrlCheckKey other key := by
  have hc : ∀ caKey cert, (ops.revokedCertsForCaKey krl caKey).any (isCertRevoked cert) =
    (ops.revokedCertsForCaKey other caKey).any (isCertRevoked cert) := by
    intro caKey cert
    rw [Bool.eq_iff_iff, isCertRevoked_iff, isCertRevoked_iff, h, h]
  have hs : ∀ hash, hash ∈ krl.revokedSha1s ↔ hash ∈ other.revokedSha1s := fun hash => h (.sha1 hash)
  have hKey : ∀ blob, blob ∈ krl.revokedKeys ↔ blob ∈ other.revokedKeys := fun blob => h (.key blob)
  have hOne : ∀ key, ops.isKeyRevoked krl key = ops.isKeyRevoked other key := by
    intro key
    unfold isKeyRevoked
    simp [hs, hKey, hc]
  unfold sshKrlCheckKey
  simp [hOne]

/-- What the lists need of the key operations: equality is an equivalence, a key that is
read from the blob of another is equal to it, a fingerprint has the length of SHA1, and
the serial and the ID of a certificate are a 64-bit number and a C string. -/
structure Lawful : Prop where
  refl : ∀ a, ops.equal a a = true
  symm : ∀ {a b}, ops.equal a b = true → ops.equal b a = true
  trans : ∀ {a b c}, ops.equal a b = true → ops.equal b c = true → ops.equal a c = true
  blob : ∀ {a blob}, ops.toBlob a = some blob → blob ≠ []
  blobInverse : ∀ {a b blob}, ops.toBlob a = some blob → ops.fromBlob blob = some b → ops.equal b a = true
  sha1 : ∀ {a hash}, ops.sha1 a = some hash → hash.length = 20
  cert : ∀ {a cert}, ops.cert a = some cert → cert.serial < 2 ^ 64 ∧ 0 ∉ cert.keyId

section SameCa

variable {ops} (hLaw : ops.Lawful)

include hLaw

variable {a b : Option K}

lemma sameCa_symm (h : ops.sameCa a b = true) : ops.sameCa b a = true := by
  cases a with
  | none =>
    cases b with
    | none => rfl
    | some key => cases h
  | some key =>
    cases b with
    | none => cases h
    | some other => exact hLaw.symm h

lemma sameCa_trans {c : Option K} (hf : ops.sameCa a b = true) (hSnd : ops.sameCa b c = true) :
    ops.sameCa a c = true := by
  cases a with
  | none =>
    cases b with
    | none => exact hSnd
    | some other => cases hf
  | some key =>
    cases b with
    | none => cases hf
    | some other =>
      cases c with
      | none => cases hSnd
      | some third => exact hLaw.trans hf hSnd

/-- Where an entry is found after a change: the CA that was changed has the new one, and no
other CA notices. -/
lemma find?_updateCa (caKey caKey' : Option K) {change : RevokedCerts K → RevokedCerts K}
    (hc : ∀ rc, (change rc).caKey = rc.caKey) (l : List (RevokedCerts K)) :
    (ops.updateCa caKey change l).find? (fun rc => ops.sameCa rc.caKey caKey') =
      if ops.sameCa caKey caKey' then
        some (change ((l.find? fun rc => ops.sameCa rc.caKey caKey).getD ⟨caKey, .empty, []⟩))
      else l.find? fun rc => ops.sameCa rc.caKey caKey' := by
  induction l with
  | nil =>
    rw [updateCa]
    by_cases hs : ops.sameCa caKey caKey' = true
    · simp [hs, hc]
    · simp [hs, hc]
  | cons rc rest ih =>
    rw [updateCa]
    by_cases hh : ops.sameCa rc.caKey caKey = true
    · rw [if_pos hh, find?_cons, find?_cons, find?_cons, hc, hh]
      by_cases hs : ops.sameCa caKey caKey' = true
      · rw [if_pos hs, sameCa_trans hLaw hh hs]
        rfl
      · have ho : ops.sameCa rc.caKey caKey' = false := by
          rw [Bool.eq_false_iff]
          exact fun h => hs (sameCa_trans hLaw (sameCa_symm hLaw hh) h)
        rw [if_neg hs, ho]
    · rw [if_neg hh, find?_cons, find?_cons, find?_cons, ih, Bool.eq_false_iff.2 hh]
      by_cases hs : ops.sameCa caKey caKey' = true
      · have ho : ops.sameCa rc.caKey caKey' = false := by
          rw [Bool.eq_false_iff]
          exact fun h => hh (sameCa_trans hLaw h (sameCa_symm hLaw hs))
        rw [ho, if_pos hs]
      · rw [if_neg hs, if_neg hs]

end SameCa

/-! Adding to a list. -/

/-- The new list says what the old one says, and these facts. -/
def Adds (krl : SshKrl K) (facts : Fact K → Prop) (next : SshKrl K) : Prop :=
  ∀ fact, ops.Revokes next fact ↔ facts fact ∨ ops.Revokes krl fact

/-- An operation that succeeds on every list and adds these facts. -/
def Loads (use : SshKrl K → Option (SshKrl K)) (facts : Fact K → Prop) : Prop :=
  ∀ krl, ∃ next, use krl = some next ∧ ops.Adds krl facts next

def serialFacts (caKey : Option K) (serials : Nat → Prop) : Fact K → Prop
  | .serial caKey' serial => ops.sameCa caKey caKey' = true ∧ serials serial
  | _ => False

def keyIdFacts (caKey : Option K) (keyIds : Bytes → Prop) : Fact K → Prop
  | .keyId caKey' keyId => ops.sameCa caKey caKey' = true ∧ keyIds keyId
  | _ => False

section Adding

variable {ops} {caKey : Option K} {use : SshKrl K → Option (SshKrl K)} {facts : Fact K → Prop}
  {α : Type} {l : List α}

lemma Loads.congr {other : Fact K → Prop} (h : ops.Loads use facts)
    (hs : ∀ fact, facts fact ↔ other fact) : ops.Loads use other := by
  intro krl
  obtain ⟨next, hUse, ha⟩ := h krl
  exact ⟨next, hUse, fun fact => (ha fact).trans (or_congr_left (hs fact))⟩

lemma Loads.andThen {first second : SshKrl K → Option (SshKrl K)} {later : Fact K → Prop}
    (hf : ops.Loads first facts) (hSnd : ops.Loads second later) :
    ops.Loads (fun krl => (first krl).bind second) fun fact => facts fact ∨ later fact := by
  intro krl
  obtain ⟨middle, hUse, hAdded⟩ := hf krl
  obtain ⟨next, hu, ha⟩ := hSnd middle
  refine ⟨next, ?_, fun fact => ?_⟩
  · show (first krl).bind second = some next
    rw [hUse]
    exact hu
  · rw [ha, hAdded, or_left_comm, or_assoc]

lemma Loads.foldlM {use : SshKrl K → α → Option (SshKrl K)} {facts : α → Fact K → Prop}
    (h : ∀ a ∈ l, ops.Loads (use · a) (facts a)) :
    ops.Loads (fun krl => l.foldlM use krl) fun fact => ∃ a ∈ l, facts a fact := by
  induction l with
  | nil => exact fun krl => ⟨krl, rfl, fun fact => by simp⟩
  | cons a rest ih =>
    have hBoth := (h a mem_cons_self).andThen (ih fun b hb => h b (.tail _ hb))
    simp only [exists_mem_cons_iff]
    exact hBoth

lemma Loads.congrSerials {serials other : Nat → Prop}
    (h : ops.Loads use (ops.serialFacts caKey serials)) (hs : ∀ n, serials n ↔ other n) :
    ops.Loads use (ops.serialFacts caKey other) := by
  rw [← funext fun n => propext (hs n)]
  exact h

lemma Loads.serials {use : SshKrl K → α → Option (SshKrl K)} {serials : α → Nat → Prop}
    (h : ∀ a ∈ l, ops.Loads (use · a) (ops.serialFacts caKey (serials a))) :
    ops.Loads (fun krl => l.foldlM use krl) (ops.serialFacts caKey fun n => ∃ a ∈ l, serials a n) := by
  refine (Loads.foldlM h).congr fun fact => ?_
  cases fact with
  | serial caKey' serial =>
    constructor
    · rintro ⟨a, ha, hCa, hs⟩
      exact ⟨hCa, a, ha, hs⟩
    · rintro ⟨hCa, a, ha, hs⟩
      exact ⟨a, ha, hCa, hs⟩
  | _ => simp [serialFacts]

variable (hLaw : ops.Lawful)

include hLaw

lemma revokedCertsForCaKey_congr (krl : SshKrl K) {other : Option K} (h : ops.sameCa caKey other = true) :
    ops.revokedCertsForCaKey krl caKey = ops.revokedCertsForCaKey krl other := by
  unfold revokedCertsForCaKey
  congr 1
  funext rc
  rw [Bool.eq_iff_iff]
  exact ⟨fun hf => sameCa_trans hLaw hf h, fun hf => sameCa_trans hLaw hf (sameCa_symm hLaw h)⟩

lemma adds_updateCa (krl : SshKrl K) (caKey : Option K) {change : RevokedCerts K → RevokedCerts K}
    {serials : Nat → Prop} {keyIds : Bytes → Prop} (hc : ∀ rc, (change rc).caKey = rc.caKey)
    (hSerials : ∀ rc n, (change rc).revokedSerials.Covers n ↔ serials n ∨ rc.revokedSerials.Covers n)
    (hk : ∀ rc keyId, keyId ∈ (change rc).revokedKeyIds ↔ keyIds keyId ∨ keyId ∈ rc.revokedKeyIds) :
    ops.Adds krl (fun fact => ops.serialFacts caKey serials fact ∨ ops.keyIdFacts caKey keyIds fact)
      { krl with revokedCerts := ops.updateCa caKey change krl.revokedCerts } := by
  have hf : ∀ caKey', ops.revokedCertsForCaKey { krl with revokedCerts := ops.updateCa caKey change krl.revokedCerts }
    caKey' = if ops.sameCa caKey caKey' then
      some (change ((ops.revokedCertsForCaKey krl caKey').getD ⟨caKey, .empty, []⟩))
    else ops.revokedCertsForCaKey krl caKey' := by
    intro caKey'
    have hFind := find?_updateCa hLaw caKey caKey' hc krl.revokedCerts
    split_ifs at hFind ⊢ with hs
    · rw [← revokedCertsForCaKey_congr hLaw krl hs]
      exact hFind
    · exact hFind
  intro fact
  cases fact with
  | serial caKey' serial =>
    simp only [Revokes, hf, serialFacts, keyIdFacts, or_false]
    split_ifs with hs
    · simp only [Option.some.injEq, exists_eq_left', hSerials, hs, true_and]
      cases ops.revokedCertsForCaKey krl caKey' with
      | none => simp
      | some rc => simp
    · simp [hs]
  | keyId caKey' keyId =>
    simp only [Revokes, hf, serialFacts, keyIdFacts, false_or]
    split_ifs with hs
    · simp only [Option.some.injEq, exists_eq_left', hk, hs, true_and]
      cases ops.revokedCertsForCaKey krl caKey' with
      | none => simp
      | some rc => simp
    · simp [hs]
  | key blob => simp [Revokes, serialFacts, keyIdFacts]
  | sha1 hash => simp [Revokes, serialFacts, keyIdFacts]

lemma loads_revokeCertBySerialRange (caKey : Option K) {lo hi : Nat} (ho : lo ≤ hi) (hz : lo ≠ 0) :
    ops.Loads (fun krl => ops.revokeCertBySerialRange krl caKey lo hi)
      (ops.serialFacts caKey fun n => lo ≤ n ∧ n ≤ hi) := by
  intro krl
  let change (rc : RevokedCerts K) : RevokedCerts K :=
    { rc with revokedSerials := rc.revokedSerials.insert ⟨lo, hi, ho⟩ }
  refine ⟨{ krl with revokedCerts := ops.updateCa caKey change krl.revokedCerts }, ?_, fun fact => ?_⟩
  · show ops.revokeCertBySerialRange krl caKey lo hi = _
    unfold revokeCertBySerialRange
    rw [dif_pos ho, if_neg hz]
  · have ha : ops.Adds krl (fun fact => ops.serialFacts caKey (fun n => lo ≤ n ∧ n ≤ hi) fact ∨
      ops.keyIdFacts caKey (fun _ => False) fact) { krl with revokedCerts := ops.updateCa caKey change krl.revokedCerts } :=
      adds_updateCa hLaw krl caKey (fun _ => rfl) (fun rc n => RangeSet.covers_insert _ _ n) fun rc keyId => by simp [change]
    rw [ha fact]
    refine or_congr_left ?_
    cases fact <;> simp [serialFacts, keyIdFacts]

lemma loads_revokeCertByKeyId (caKey : Option K) (keyId : Bytes) :
    ops.Loads (fun krl => some (ops.revokeCertByKeyId krl caKey keyId)) (ops.keyIdFacts caKey (· = keyId)) := by
  intro krl
  refine ⟨ops.revokeCertByKeyId krl caKey keyId, rfl, fun fact => ?_⟩
  have ha : ops.Adds krl (fun fact => ops.serialFacts caKey (fun _ => False) fact ∨
    ops.keyIdFacts caKey (· = keyId) fact) (ops.revokeCertByKeyId krl caKey keyId) :=
    adds_updateCa hLaw krl caKey (fun _ => rfl) (fun rc n => by simp) fun rc id => mem_treeInsert
  rw [ha fact]
  refine or_congr_left ?_
  cases fact <;> simp [serialFacts, keyIdFacts]

end Adding

end KeyOps
end Krl
