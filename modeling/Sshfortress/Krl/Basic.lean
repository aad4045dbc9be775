import Sshfortress.Base.Bytes
import Sshfortress.Base.RangeSet

/-! Key revocation lists: what they hold, how entries get in and how a key is checked. Keys
are seen only through the functions of `sshkey.c` that the lists use. -/
namespace Krl
open Base

structure Cert (K : Type) where
  signatureKey : K
  serial : Nat
  keyId : Bytes

structure KeyOps (K : Type) where
  /-- `sshkey_equal` -/
  equal : K → K → Bool
  /-- `sshkey_from_blob` -/
  fromBlob : Bytes → Option K
  /-- `sshkey_to_blob`, certificate included -/
  toBlob : K → Option Bytes
  /-- `plain_key_blob` -/
  plainKeyBlob : K → Option Bytes
  /-- `sshkey_fingerprint_raw` with SHA1 -/
  sha1 : K → Option Bytes
  /-- The certificate, if `sshkey_is_cert`. -/
  cert : K → Option (Cert K)
  /-- `sshkey_verify`: key, signature, signed bytes -/
  verify : K → Bytes → Bytes → Bool

structure RevokedCerts (K : Type) where
  caKey : Option K
  revokedSerials : RangeSet
  revokedKeyIds : List Bytes
  deriving DecidableEq

structure SshKrl (K : Type) where
  (krlVersion generatedDate flags : Nat)
  comment : Bytes
  (revokedKeys revokedSha1s : List Bytes)
  revokedCerts : List (RevokedCerts K)
  deriving DecidableEq

variable {K : Type}

def sshKrlInit : SshKrl K where
  krlVersion := 0
  generatedDate := 0
  flags := 0
  comment := []
  revokedKeys := []
  revokedSha1s := []
  revokedCerts := []

/-- `RB_INSERT` of a blob or a key ID. Both trees are ordered byte by byte, shorter first,
and keep one of two equal entries. -/
def treeInsert (blob : Bytes) (t : List Bytes) : List Bytes :=
  if blob ∈ t then t else t.orderedInsert (· ≤ ·) blob

lemma mem_treeInsert {x blob : Bytes} {t : List Bytes} : x ∈ treeInsert blob t ↔ x = blob ∨ x ∈ t := by
  unfold treeInsert
  split_ifs with ht
  · constructor
    · exact .inr
    · rintro (rfl | hMem)
      · exact ht
      · exact hMem
  · exact List.mem_orderedInsert ..

namespace KeyOps

variable (ops : KeyOps K)

/-- Two scopes are the same CA, or both are the wildcard. -/
def sameCa : Option K → Option K → Bool
  | none, none => true
  | some a, some b => ops.equal a b
  | _, _ => false

/-- `revoked_certs_for_ca_key` without `allow_create`. -/
def revokedCertsForCaKey (krl : SshKrl K) (caKey : Option K) : Option (RevokedCerts K) :=
  krl.revokedCerts.find? fun rc => ops.sameCa rc.caKey caKey

/-- Change the entry of a CA; one that is not there is added at the end. -/
def updateCa (caKey : Option K) (change : RevokedCerts K → RevokedCerts K) :
    List (RevokedCerts K) → List (RevokedCerts K)
  | [] => [change ⟨caKey, .empty, []⟩]
  | rc :: rest => if ops.sameCa rc.caKey caKey then change rc :: rest else rc :: updateCa caKey change rest

def revokeCertBySerialRange (krl : SshKrl K) (caKey : Option K) (lo hi : Nat) : Option (SshKrl K) :=
  if h : lo ≤ hi then
    if lo = 0 then none
    else some { krl with
      revokedCerts := ops.updateCa caKey
        (fun rc => { rc with revokedSerials := rc.revokedSerials.insert ⟨lo, hi, h⟩ }) krl.revokedCerts }
  else none

def revokeCertBySerial (krl : SshKrl K) (caKey : Option K) (serial : Nat) : Option (SshKrl K) :=
  ops.revokeCertBySerialRange krl caKey serial serial

def revokeCertByKeyId (krl : SshKrl K) (caKey : Option K) (keyId : Bytes) : SshKrl K :=
  { krl with
    revokedCerts := ops.updateCa caKey
      (fun rc => { rc with revokedKeyIds := treeInsert keyId rc.revokedKeyIds }) krl.revokedCerts }

def revokeKeyExplicit (krl : SshKrl K) (key : K) : Option (SshKrl K) :=
  (ops.plainKeyBlob key).map fun blob => { krl with revokedKeys := treeInsert blob krl.revokedKeys }

def revokeKeySha1 (krl : SshKrl K) (key : K) : Option (SshKrl K) :=
  (ops.sha1 key).map fun blob => { krl with revokedSha1s := treeInsert blob krl.revokedSha1s }

def revokeKey (krl : SshKrl K) (key : K) : Option (SshKrl K) :=
  match ops.cert key with
  | none => ops.revokeKeySha1 krl key
  | some cert =>
    if cert.serial = 0 then some (ops.revokeCertByKeyId krl cert.signatureKey cert.keyId)
    else ops.revokeCertBySerial krl cert.signatureKey cert.serial

/-- What the check of a key returns: 0, `SSH_ERR_KEY_REVOKED` or another error. -/
inductive Verdict where
  | okay
  | revoked
  | failed
  deriving DecidableEq

/-- A serial of zero is never looked up. -/
def isCertRevoked (cert : Cert K) (rc : RevokedCerts K) : Bool :=
  cert.keyId ∈ rc.revokedKeyIds || (cert.serial ≠ 0 && rc.revokedSerials.Covers cert.serial)

def isKeyRevoked (krl : SshKrl K) (key : K) : Verdict :=
  match ops.sha1 key with
  | none => .failed
  | some hash =>
    if hash ∈ krl.revokedSha1s then .revoked
    else
      match ops.plainKeyBlob key with
      | none => .failed
      | some blob =>
        if blob ∈ krl.revokedKeys then .revoked
        else
          match ops.cert key with
          | none => .okay
          | some cert =>
            let revokedFor (caKey : Option K) : Bool :=
              (ops.revokedCertsForCaKey krl caKey).any (isCertRevoked cert)
            if revokedFor cert.signatureKey || revokedFor none then .revoked else .okay

def sshKrlCheckKey (krl : SshKrl K) (key : K) : Verdict :=
  match ops.isKeyRevoked krl key with
  | .okay =>
    match ops.cert key with
    | none => .okay
    | some cert => ops.isKeyRevoked krl cert.signatureKey
  | verdict => verdict

end KeyOps
end Krl
