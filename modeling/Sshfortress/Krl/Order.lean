import Sshfortress.Krl.Lossless

/-! The order in which a list was built. -/
namespace Krl.KeyOps
open List
variable {K : Type} {ops : KeyOps K} {use : SshKrl K → Option (SshKrl K)}

/-- A call that adds the same facts to every list, or none if it fails. -/
def Uniform (ops : KeyOps K) (use : SshKrl K → Option (SshKrl K)) : Prop :=
  ∃ facts, ∀ krl, ops.Adds krl facts ((use krl).getD krl)

lemma Loads.uniform {facts : Fact K → Prop} (h : ops.Loads use facts) : ops.Uniform use := by
  refine ⟨facts, fun krl => ?_⟩
  obtain ⟨next, hNext, hAdds⟩ := h krl
  rwa [hNext]

lemma uniform_none : ops.Uniform fun _ => none := ⟨fun _ => False, fun _ _ => by simp⟩

lemma uniform_revokeKeySha1 (key : K) : ops.Uniform (ops.revokeKeySha1 · key) := by
  unfold revokeKeySha1
  cases ops.sha1 key with
  | none => exact uniform_none
  | some hash =>
    refine ⟨(· = .sha1 hash), fun krl fact => ?_⟩
    cases fact <;> simp [Revokes, mem_treeInsert, revokedCertsForCaKey]

lemma uniform_revokeKeyExplicit (key : K) : ops.Uniform (ops.revokeKeyExplicit · key) := by
  unfold revokeKeyExplicit
  cases ops.plainKeyBlob key with
  | none => exact uniform_none
  | some blob =>
    refine ⟨(· = .key blob), fun krl fact => ?_⟩
    cases fact <;> simp [Revokes, mem_treeInsert, revokedCertsForCaKey]

variable (hLaw : ops.Lawful)
include hLaw

lemma uniform_revokeCertBySerialRange (caKey : Option K) (lo hi : Nat) :
    ops.Uniform (ops.revokeCertBySerialRange · caKey lo hi) := by
  by_cases hLe : lo ≤ hi
  · by_cases hZero : lo = 0
    · simpa only [revokeCertBySerialRange, dif_pos hLe, if_pos hZero] using uniform_none
    · exact (loads_revokeCertBySerialRange hLaw caKey hLe hZero).uniform
  · simpa only [revokeCertBySerialRange, dif_neg hLe] using uniform_none

lemma uniform_revoke (call : Revocation K) : ops.Uniform (ops.revoke · call) := by
  cases call with
  | serial caKey serial => exact uniform_revokeCertBySerialRange hLaw caKey _ _
  | serialRange caKey lo hi => exact uniform_revokeCertBySerialRange hLaw caKey _ _
  | keyId caKey keyId => exact (loads_revokeCertByKeyId hLaw caKey _).uniform
  | key key =>
    change ops.Uniform (ops.revokeKey · key)
    unfold revokeKey
    cases ops.cert key with
    | none => exact uniform_revokeKeySha1 key
    | some cert =>
      dsimp only
      split_ifs
      · exact (loads_revokeCertByKeyId hLaw _ _).uniform
      · exact uniform_revokeCertBySerialRange hLaw _ _ _
  | keyExplicit key => exact uniform_revokeKeyExplicit key
  | keySha1 key => exact uniform_revokeKeySha1 key

/-- A list judges keys by the calls that built it, whatever their order and however often each was
made. -/
theorem verdict_order_independent {calls others : List (Revocation K)} (hSame : ∀ call, call ∈ calls ↔ call ∈ others)
    (key : K) : ops.sshKrlCheckKey (ops.build calls) key = ops.sshKrlCheckKey (ops.build others) key := by
  choose facts hFacts using uniform_revoke hLaw
  have hBuild : ∀ (calls : List (Revocation K)) krl fact,
      ops.Revokes (calls.foldl (fun krl call => (ops.revoke krl call).getD krl) krl) fact ↔
        (∃ call ∈ calls, facts call fact) ∨ ops.Revokes krl fact := by
    intro calls
    induction calls with
    | nil => simp
    | cons call calls ih =>
      intro krl fact
      rw [foldl_cons, ih, hFacts call krl fact, exists_mem_cons_iff, or_left_comm, or_assoc]
  exact ops.sshKrlCheckKey_congr (fun fact => by simp only [build, hBuild, hSame]) key

omit hLaw in
theorem verdict_order_independent_two :
    sampleKeys.sshKrlCheckKey (sampleKeys.build [.serial none 5, .keySha1 ()]) () =
      sampleKeys.sshKrlCheckKey (sampleKeys.build [.keySha1 (), .serial none 5]) () :=
  verdict_order_independent sampleKeys_lawful (fun call => by simp [or_comm]) ()

end Krl.KeyOps
