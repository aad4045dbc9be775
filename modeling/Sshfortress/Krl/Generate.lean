import Sshfortress.Krl.Parse

/-! `ssh_krl_to_blob` without signing keys. The serials of a CA are written as a sequence of
sections, each a list, a single range or a bitmap, whichever seems the cheapest. -/
namespace Krl
open Base Base.Wire

inductive SerialSection where
  | list
  | range
  | bitmap
  deriving DecidableEq

def SerialSection.type : SerialSection → UInt8
  | .list => sectionCertSerialList
  | .range => sectionCertSerialRange
  | .bitmap => sectionCertSerialBitmap

/-- The choice for the given costs, and whether a new section is forced. -/
def cheapest (costBitmap costRange costList costBitmapRestart : Nat) : SerialSection × Bool :=
  let (newState, cost) := (SerialSection.bitmap, costBitmap)
  let (newState, cost) := if costRange < cost then (.range, costRange) else (newState, cost)
  let (newState, cost) := if costList < cost then (.list, costList) else (newState, cost)
  if costBitmapRestart < cost then (.bitmap, true) else (newState, false)

/-- The next section. `none` is the state 0 of the source. -/
def chooseNextState (currentState : Option SerialSection) (contig : Nat) (final : Bool) (lastGap nextGap : Nat) :
    SerialSection × Bool :=
  let contig := min contig (2 ^ 31)
  let lastGap := min lastGap (2 ^ 31)
  let nextGap := min nextGap (2 ^ 31)
  -- the cost to switch, in bits
  let costList := if currentState = some .list then 0 else 8
  let costBitmap := if currentState = some .bitmap then 0 else 8 + 64
  let costBitmapRestart := 8 + 64
  let costRange := 8
  -- the base cost of each section type
  let costList := costList + 64 * contig + if final then 0 else 8 + 64
  let costRange := costRange + 2 * 64 + if final then 0 else 8 + 64
  let costBitmap := costBitmap + lastGap + contig + if final then 0 else min nextGap (8 + 64)
  let costBitmapRestart := costBitmapRestart + contig + if final then 0 else min nextGap (8 + 64)
  -- bytes are compared
  cheapest ((costBitmap + 7) / 8) ((costRange + 7) / 8) ((costList + 7) / 8) ((costBitmapRestart + 7) / 8)

/-- Why the generation ends early: an error, or a `goto out` with `r` still 0, which leaves
the buffer as it is. -/
inductive Exit where
  | failed
  | out (buf : Bytes)

def put (s buf : Bytes) : Except Exit Bytes :=
  if sizeMax < buf.length + s.length then .error .failed else .ok (buf ++ s)

/-- The index is an `unsigned int`. -/
def bitmapSetBit (bitmap n : Nat) : Except Exit Nat :=
  if bitmapMax < n % 2 ^ 32 then .error .failed else .ok (bitmap ||| 1 <<< (n % 2 ^ 32))

def bitmapToString (bitmap : Nat) : Bytes := digits ((bitmapNbits bitmap + 7) / 8) bitmap

/-- The local variables of `revoked_certs_generate`. The limit of `sect` is the one of the
buffer it is copied to, and checked there. -/
structure Generator where
  (buf sect : Bytes)
  (bitmap bitmapStart last : Nat)
  state : Option SerialSection

namespace Generator

def finish (g : Generator) (state : SerialSection) : Except Exit Generator := do
  let sect := if state = .bitmap then g.sect ++ putBignum2Bytes (bitmapToString g.bitmap) else g.sect
  let buf ← put [state.type] g.buf
  let buf ← put (putString sect) buf
  return { g with buf, sect := [] }

def finishBefore (g : Generator) (nextState : SerialSection) (forceNewSect : Bool) : Except Exit Generator :=
  match g.state with
  | none => .ok g
  | some state =>
    if forceNewSect || nextState ≠ state || state = .range then g.finish state else .ok g

def start (g : Generator) (nextState : SerialSection) (forceNewSect : Bool) (lo : Nat) : Generator :=
  if g.state ≠ some nextState || forceNewSect then
    if nextState = .bitmap then
      { g with state := some nextState, sect := putU64 lo, bitmap := 0, bitmapStart := lo }
    else { g with state := some nextState, sect := [] }
  else g

def contig (r : Range) : Nat := 1 + (r.hi - r.lo)

def process (g : Generator) (r : Range) : Except Exit Generator :=
  match g.state with
  | some .list => .ok { g with sect := g.sect ++ (List.range (contig r)).flatMap fun i => putU64 (r.lo + i) }
  | some .range => .ok { g with sect := g.sect ++ putU64 r.lo ++ putU64 r.hi }
  | some .bitmap =>
    if 2 ^ 31 - 1 < r.lo - g.bitmapStart then .error (.out g.buf)
    else do
      let bitmap ← (List.range (contig r)).foldlM (fun bitmap i => bitmapSetBit bitmap (r.lo + i - g.bitmapStart)) g.bitmap
      return { g with bitmap }
  | none => .ok g

def gap (r : Range) : Option Range → Nat
  | none => 0
  | some next => next.lo - r.hi

/-- One turn of the loop over the serials. -/
def serial (g : Generator) (r : Range) (next : Option Range) : Except Exit Generator := do
  let lastGap := if g.state = none then 0 else r.lo - g.last
  let (nextState, forceNewSect) := chooseNextState g.state (contig r) next.isNone lastGap (gap r next)
  let g ← g.finishBefore nextState forceNewSect
  let g ← (g.start nextState forceNewSect r.lo).process r
  return { g with last := r.hi }

def serials (g : Generator) : List Range → Except Exit Generator
  | [] => .ok g
  | r :: rest => do
    let g ← g.serial r rest.head?
    g.serials rest

def flush (g : Generator) : Except Exit Generator :=
  match g.state with
  | none => .ok g
  | some state => g.finish state

end Generator

variable {K : Type} (ops : KeyOps K)

def putSerials (serials : List Range) (buf : Bytes) : Except Exit Bytes := do
  let g ← Generator.serials ⟨buf, [], 0, 0, 0, none⟩ serials
  let g ← g.flush
  return g.buf

/-- A section is written only if it has content. -/
def putSection (type : UInt8) (sect buf : Bytes) : Except Exit Bytes :=
  if sect = [] then .ok buf
  else do
    let buf ← put [type] buf
    put (putString sect) buf

namespace KeyOps

/-- The scope of a certificate section, as it is written. -/
def caBlob (caKey : Option K) : Option Bytes :=
  match caKey with
  | none => some []
  | some key => ops.toBlob key

def revokedCertsSections (rc : RevokedCerts K) : Except Exit Bytes :=
  match ops.caBlob rc.caKey with
  | none => .error .failed
  | some blob => do
    let buf ← put (putString blob) []
    let buf ← put (putString []) buf
    let buf ← putSerials rc.revokedSerials.ranges buf
    putSection sectionCertKeyId (rc.revokedKeyIds.flatMap putString) buf

/-- What the caller gets: a `goto out` without an error returns 0. -/
def revokedCertsGenerate (rc : RevokedCerts K) : Except Exit Bytes :=
  match ops.revokedCertsSections rc with
  | .error (.out buf) => .ok buf
  | result => result

/-- A date of 0 is replaced by the clock. -/
def sshKrlToBlob (now : UInt64) (krl : SshKrl K) : Except Exit Bytes := do
  let generatedDate := if krl.generatedDate = 0 then now.toNat else krl.generatedDate
  let buf ← put krlMagic []
  let buf ← put (putU32 krlFormatVersion) buf
  let buf ← put (putU64 krl.krlVersion) buf
  let buf ← put (putU64 generatedDate) buf
  let buf ← put (putU64 krl.flags) buf
  let buf ← put (putString []) buf
  let buf ← put (putString krl.comment) buf
  let buf ← krl.revokedCerts.foldlM (fun buf rc => do
    let sect ← ops.revokedCertsGenerate rc
    let buf ← put [sectionCertificates] buf
    put (putString sect) buf) buf
  let buf ← putSection sectionExplicitKey (krl.revokedKeys.flatMap putString) buf
  putSection sectionFingerprintSha1 (krl.revokedSha1s.flatMap putString) buf

end KeyOps
end Krl
