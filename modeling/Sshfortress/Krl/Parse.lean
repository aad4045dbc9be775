import Sshfortress.Base.Wire
import Sshfortress.Krl.Basic

/-! `ssh_krl_from_blob`. The sections of a list are read twice: the first pass checks the
signatures, the second one loads what is revoked. -/
namespace Krl
open Base Base.Wire

def krlMagic : Bytes := text "SSHKRL\n\x00"

def krlFormatVersion : Nat := 1

def sectionCertificates : UInt8 := 1

def sectionExplicitKey : UInt8 := 2

def sectionFingerprintSha1 : UInt8 := 3

def sectionSignature : UInt8 := 4

def sectionCertSerialList : UInt8 := 0x20

def sectionCertSerialRange : UInt8 := 0x21

def sectionCertSerialBitmap : UInt8 := 0x22

def sectionCertKeyId : UInt8 := 0x23

/-! A bitmap is a number. -/

def bitmapMax : Nat := 2 ^ 24

def bitmapFromString (s : Bytes) : Option Nat := if bitmapMax / 8 < s.length then none else some (value s)

def bitmapNbits (bitmap : Nat) : Nat := if bitmap = 0 then 0 else bitmap.log2 + 1

variable {K : Type} (ops : KeyOps K)

namespace KeyOps

/-- One bit of a bitmap section. The serials are 64 bits wide. -/
def loadBit (caKey : Option K) (serialLo bitmap : Nat) (krl : SshKrl K) (serial : Nat) : Option (SshKrl K) :=
  if 0 < serial && (serialLo + serial) % 2 ^ 64 = 0 then none
  else if !bitmap.testBit serial then some krl
  else ops.revokeCertBySerial krl caKey ((serialLo + serial) % 2 ^ 64)

def loadSerial (caKey : Option K) (krl : SshKrl K) : Getter (SshKrl K) := fun subsect => do
  let (serial, subsect) ← getU64 subsect
  let krl ← ops.revokeCertBySerial krl caKey serial
  return (krl, subsect)

def loadKeyId (caKey : Option K) (krl : SshKrl K) : Getter (SshKrl K) := fun subsect => do
  let (keyId, subsect) ← getCstring subsect
  return (ops.revokeCertByKeyId krl caKey keyId, subsect)

def loadCertSection (caKey : Option K) (type : UInt8) (subsect : Bytes) (krl : SshKrl K) : Option (SshKrl K) :=
  if type = sectionCertSerialList then drain (ops.loadSerial caKey) krl subsect
  else if type = sectionCertSerialRange then do
    let (serialLo, subsect) ← getU64 subsect
    let (serialHi, subsect) ← getU64 subsect
    let krl ← ops.revokeCertBySerialRange krl caKey serialLo serialHi
    if subsect = [] then some krl else none
  else if type = sectionCertSerialBitmap then do
    let (serialLo, subsect) ← getU64 subsect
    let (blob, subsect) ← getBignum2Bytes subsect
    let bitmap ← bitmapFromString blob
    let krl ← (List.range (bitmapNbits bitmap)).foldlM (ops.loadBit caKey serialLo bitmap) krl
    if subsect = [] then some krl else none
  else if type = sectionCertKeyId then drain (ops.loadKeyId caKey) krl subsect
  else none

def certSection (caKey : Option K) (krl : SshKrl K) : Getter (SshKrl K) := fun buf => do
  let (type, buf) ← getU8 buf
  let (subsect, buf) ← getString buf
  let krl ← ops.loadCertSection caKey type subsect krl
  return (krl, buf)

def caOfBlob (blob : Bytes) : Option (Option K) := if blob = [] then some none else (ops.fromBlob blob).map some

def parseRevokedCerts (buf : Bytes) (krl : SshKrl K) : Option (SshKrl K) := do
  let (blob, buf) ← getString buf
  let (_, buf) ← skipString buf
  let caKey ← ops.caOfBlob blob
  drain (ops.certSection caKey) krl buf

end KeyOps

def loadExplicitKey (krl : SshKrl K) : Getter (SshKrl K) := fun sect => do
  let (rdata, sect) ← getString sect
  return ({ krl with revokedKeys := treeInsert rdata krl.revokedKeys }, sect)

def loadSha1 (krl : SshKrl K) : Getter (SshKrl K) := fun sect => do
  let (rdata, sect) ← getString sect
  if rdata.length ≠ 20 then none
  else return ({ krl with revokedSha1s := treeInsert rdata krl.revokedSha1s }, sect)

namespace KeyOps

def loadSection (type : UInt8) (sect : Bytes) (krl : SshKrl K) : Option (SshKrl K) :=
  if type = sectionCertificates then ops.parseRevokedCerts sect krl
  else if type = sectionExplicitKey then drain loadExplicitKey krl sect
  else if type = sectionFingerprintSha1 then drain loadSha1 krl sect
  else none

/-- A section in the second pass. A signature has a second string. -/
def secondPass (krl : SshKrl K) : Getter (SshKrl K) := fun copy => do
  let (type, copy) ← getU8 copy
  let (sect, copy) ← getString copy
  if type = sectionSignature then do
    let (_, copy) ← skipString copy
    return (krl, copy)
  else do
    let krl ← ops.loadSection type sect krl
    return (krl, copy)

/-- A section in the first pass, which carries `sig_seen` and `ca_used`. A signature covers
everything in front of it. -/
def firstPass (buf : Bytes) (seen : Bool × List K) : Getter (Bool × List K) := fun copy => do
  let (type, copy) ← getU8 copy
  let (blob, copy) ← getString copy
  if type ≠ sectionSignature then
    if seen.1 then none else return (seen, copy)
  else do
    let key ← ops.fromBlob blob
    let sigOff := buf.length - copy.length
    let (signature, copy) ← getString copy
    if !ops.verify key signature (buf.take sigOff) then none
    else if seen.2.any fun used => ops.equal used key then none
    else return ((true, seen.2 ++ [key]), copy)

end KeyOps

def readHeader : Getter (SshKrl K) := fun buf => do
  let (magic, copy) ← getFixed krlMagic.length buf
  if magic ≠ krlMagic then none
  else do
    let (formatVersion, copy) ← getU32 copy
    if formatVersion ≠ krlFormatVersion then none
    else do
      let (krlVersion, copy) ← getU64 copy
      let (generatedDate, copy) ← getU64 copy
      let (flags, copy) ← getU64 copy
      let (_, copy) ← skipString copy
      let (comment, copy) ← getCstring copy
      return ({ (sshKrlInit : SshKrl K) with krlVersion, generatedDate, flags, comment }, copy)

namespace KeyOps

/-- The keys that signed the list are only looked at if there are any. -/
def sshKrlFromBlob (buf : Bytes) (signCaKeys : List K) : Option (SshKrl K) := do
  let (krl, sections) ← readHeader buf
  let (_, caUsed) ← drain (ops.firstPass buf) (false, []) sections
  let krl ← drain ops.secondPass krl sections
  let unrevoked := caUsed.filter fun key => ops.sshKrlCheckKey krl key = .okay
  if caUsed ≠ [] && unrevoked = [] then none
  else if unrevoked ≠ [] && signCaKeys ≠ [] &&
      !(signCaKeys.any fun trusted => unrevoked.any fun used => ops.equal used trusted) then none
  else some krl

end KeyOps
end Krl
