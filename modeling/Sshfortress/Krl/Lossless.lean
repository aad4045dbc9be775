import Sshfortress.Krl.Reading

/-! A list that is written and read back. -/
namespace Krl
open Base Base.Wire List

variable {K : Type}

inductive Revocation (K : Type) where
  | serial (caKey : Option K) (serial : UInt64)
  | serialRange (caKey : Option K) (lo hi : UInt64)
  | keyId (caKey : Option K) (keyId : Bytes)
  | key (key : K)
  | keyExplicit (key : K)
  | keySha1 (key : K)
  deriving DecidableEq

namespace KeyOps

variable (ops : KeyOps K)

def revoke (krl : SshKrl K) : Revocation K → Option (SshKrl K)
  | .serial caKey serial => ops.revokeCertBySerial krl caKey serial.toNat
  | .serialRange caKey lo hi => ops.revokeCertBySerialRange krl caKey lo.toNat hi.toNat
  | .keyId caKey keyId => some (ops.revokeCertByKeyId krl caKey (cstr keyId))
  | .key key => ops.revokeKey krl key
  | .keyExplicit key => ops.revokeKeyExplicit krl key
  | .keySha1 key => ops.revokeKeySha1 krl key

/-- A new list and some calls. One that fails changes nothing. -/
def build (calls : List (Revocation K)) : SshKrl K :=
  calls.foldl (fun krl call => (ops.revoke krl call).getD krl) sshKrlInit

/-- The list is written, read back, and judges every key as before. -/
def Lossless (now : UInt64) (krl : SshKrl K) : Prop :=
  ∃ blob other, ops.sshKrlToBlob now krl = .ok blob ∧ ops.sshKrlFromBlob blob [] = some other ∧
    ∀ key, ops.sshKrlCheckKey other key = ops.sshKrlCheckKey krl key

/-! What a list needs for that. -/

def Storable (key : K) : Prop := ∃ blob, ops.toBlob key = some blob ∧ (ops.fromBlob blob).isSome = true

def stringsSize (l : List Bytes) : Nat := if l = [] then 0 else 5 + (l.map fun s => 4 + s.length).sum

def certsSize (rc : RevokedCerts K) : Nat :=
  13 + ((ops.caBlob rc.caKey).getD []).length + ((groups rc.revokedSerials.ranges).map Group.size).sum +
    stringsSize rc.revokedKeyIds

def blobSize (krl : SshKrl K) : Nat :=
  44 + krl.comment.length + (krl.revokedCerts.map ops.certsSize).sum + stringsSize krl.revokedKeys +
    stringsSize krl.revokedSha1s

/-- The CA keys can be stored, no bitmap has more than 16384 bits and the whole is not too
large for a buffer. -/
structure Fits (krl : SshKrl K) : Prop where
  keys : ∀ rc ∈ krl.revokedCerts, ∀ key, rc.caKey = some key → ops.Storable key
  bitmaps : ∀ rc ∈ krl.revokedCerts, ∀ g ∈ groups rc.revokedSerials.ranges, g.InBlob
  size : ops.blobSize krl ≤ sizeMax

lemma length_flatMap_framed (l : List (UInt8 × Bytes)) :
    (l.flatMap framed).length = (l.map fun s => 5 + s.2.length).sum := by
  rw [length_flatMap]
  congr 2
  funext s
  rw [framed, length_cons, length_putString]
  omega

lemma length_stringsSection (type : UInt8) (l : List Bytes) :
    ((stringsSection type l).flatMap framed).length = stringsSize l := by
  unfold stringsSection stringsSize
  split_ifs with hNone
  · rfl
  · rw [flatMap_singleton, framed, length_cons, length_putString, length_flatMap]
    simp only [length_putString]
    omega

lemma length_certsContent (rc : RevokedCerts K) : 5 + (ops.certsContent rc).length = ops.certsSize rc := by
  have hGroups : ((groups rc.revokedSerials.ranges).flatMap Group.frame).length =
    ((groups rc.revokedSerials.ranges).map Group.size).sum := by
    rw [length_flatMap]
    congr 1
    exact map_congr_left fun g hg => Group.length_frame (ordered_of_mem_groups rc.revokedSerials.apart hg)
  have hf : (((groups rc.revokedSerials.ranges).map fun g => (g.kind.type, g.content)).flatMap framed) =
    (groups rc.revokedSerials.ranges).flatMap Group.frame := by
    rw [flatMap_map]
    rfl
  rw [certsContent, certsSize, RevokedCerts.subsections, flatMap_append, hf, length_append,
    length_append, length_append, hGroups, length_stringsSection, length_putString, length_putString]
  simp only [length_nil]
  omega

lemma length_encoding (now : UInt64) (krl : SshKrl K) : (ops.encoding now krl).length = ops.blobSize krl := by
  have hHdr : (header now krl).length = 44 + krl.comment.length := by
    have hm : krlMagic.length = 8 := by decide
    simp only [header, length_append, hm, putU32, putU64, digits_length, length_putString, length_nil]
    omega
  have hc : ((krl.revokedCerts.map fun rc => (sectionCertificates, ops.certsContent rc)).flatMap framed).length =
    (krl.revokedCerts.map ops.certsSize).sum := by
    rw [length_flatMap_framed, map_map]
    congr 2
    funext rc
    exact ops.length_certsContent rc
  rw [encoding, length_append, hHdr, sections, flatMap_append, flatMap_append, length_append,
    length_append, hc, length_stringsSection, length_stringsSection, blobSize]
  omega

/-! What every list that is built has. -/

structure Valid (krl : SshKrl K) : Prop where
  header : krl.HeaderValid
  apart : krl.revokedCerts.Pairwise fun a b => ops.sameCa a.caKey b.caKey = false
  certs : ∀ rc ∈ krl.revokedCerts, rc.Valid
  sha1s : ∀ hash ∈ krl.revokedSha1s, hash.length = 20

variable {krl next : SshKrl K} {caKey : Option K} {change : RevokedCerts K → RevokedCerts K}
  {l : List (RevokedCerts K)}

lemma forall_updateCa {p : RevokedCerts K → Prop} (h : ∀ rc ∈ l, p rc)
    (hc : ∀ rc, p rc → p (change rc)) (hNew : p ⟨caKey, .empty, []⟩) :
    ∀ rc ∈ ops.updateCa caKey change l, p rc := by
  induction l with
  | nil => simpa [updateCa] using hc _ hNew
  | cons rc rest ih =>
    obtain ⟨hh, hr⟩ := forall_mem_cons.1 h
    rw [updateCa]
    split_ifs
    · exact forall_mem_cons.2 ⟨hc rc hh, hr⟩
    · exact forall_mem_cons.2 ⟨hh, ih hr⟩

lemma apart_updateCa (hc : ∀ rc, (change rc).caKey = rc.caKey)
    (h : l.Pairwise fun a b => ops.sameCa a.caKey b.caKey = false) :
    (ops.updateCa caKey change l).Pairwise fun a b => ops.sameCa a.caKey b.caKey = false := by
  induction l with
  | nil => exact pairwise_singleton ..
  | cons rc rest ih =>
    obtain ⟨hf, hr⟩ := pairwise_cons.1 h
    rw [updateCa]
    split_ifs with hs
    · refine pairwise_cons.2 ⟨fun other ho => ?_, hr⟩
      rw [hc]
      exact hf other ho
    · refine pairwise_cons.2 ⟨?_, ih hr⟩
      refine ops.forall_updateCa hf (fun other ho => ?_) (Bool.eq_false_iff.2 hs)
      rwa [hc]

variable {ops}

lemma Valid.revokeCertBySerialRange (h : ops.Valid krl) {lo hi : Nat} (hHi : hi < 2 ^ 64)
    (hNext : ops.revokeCertBySerialRange krl caKey lo hi = some next) : ops.Valid next := by
  unfold KeyOps.revokeCertBySerialRange at hNext
  split_ifs at hNext with hOrder hZero
  cases hNext
  refine ⟨h.header, ops.apart_updateCa ?_ h.apart, ?_, h.sha1s⟩
  · exact fun _ => rfl
  refine ops.forall_updateCa h.certs (fun rc hv => ⟨fun n hn => ?_, hv.keyIds⟩) ⟨fun n hn => ?_, by simp⟩
  · rcases (RangeSet.covers_insert ..).1 hn with hNew | hOld
    · obtain ⟨hLow, hh⟩ := hNew
      dsimp only at hLow hh
      omega
    · exact hv.serials n hOld
  · exact absurd ((RangeSet.covers_empty n).1 hn) id

lemma Valid.revokeCertByKeyId (h : ops.Valid krl) (caKey : Option K) {keyId : Bytes}
    (ht : 0 ∉ keyId) : ops.Valid (ops.revokeCertByKeyId krl caKey keyId) := by
  refine ⟨h.header, ops.apart_updateCa ?_ h.apart, ?_, h.sha1s⟩
  · exact fun _ => rfl
  refine ops.forall_updateCa h.certs (fun rc hv => ⟨hv.serials, fun id hId => ?_⟩) ⟨fun n hn => ?_, by simp⟩
  · rcases mem_treeInsert.1 hId with rfl | hOld
    · exact ht
    · exact hv.keyIds id hOld
  · exact absurd ((RangeSet.covers_empty n).1 hn) id

variable (hLaw : ops.Lawful)

include hLaw

lemma Valid.revokeKeySha1 (h : ops.Valid krl) {key : K}
    (hn : ops.revokeKeySha1 krl key = some next) : ops.Valid next := by
  obtain ⟨hash, hh, rfl⟩ := Option.map_eq_some_iff.1 hn
  refine ⟨h.header, h.apart, h.certs, fun other ho => ?_⟩
  rcases mem_treeInsert.1 ho with rfl | hOld
  · exact hLaw.sha1 hh
  · exact h.sha1s other hOld

lemma Valid.revoke (h : ops.Valid krl) {call : Revocation K}
    (hn : ops.revoke krl call = some next) : ops.Valid next := by
  cases call with
  | serial caKey serial => exact h.revokeCertBySerialRange serial.toNat_lt hn
  | serialRange caKey lo hi => exact h.revokeCertBySerialRange hi.toNat_lt hn
  | keyId caKey keyId =>
    cases hn
    exact h.revokeCertByKeyId caKey (zero_notMem_cstr keyId)
  | key key =>
    change ops.revokeKey krl key = some next at hn
    unfold KeyOps.revokeKey at hn
    cases hc : ops.cert key with
    | none =>
      rw [hc] at hn
      exact h.revokeKeySha1 hLaw hn
    | some cert =>
      rw [hc] at hn
      dsimp only at hn
      split_ifs at hn with hZero
      · cases hn
        exact h.revokeCertByKeyId _ (hLaw.cert hc).2
      · exact h.revokeCertBySerialRange (hLaw.cert hc).1 hn
  | keyExplicit key =>
    obtain ⟨blob, -, rfl⟩ := Option.map_eq_some_iff.1 hn
    exact ⟨h.header, h.apart, h.certs, h.sha1s⟩
  | keySha1 key => exact h.revokeKeySha1 hLaw hn

lemma valid_build (calls : List (Revocation K)) : ops.Valid (ops.build calls) := by
  have hi : ops.Valid sshKrlInit := by
    refine ⟨by simp [SshKrl.HeaderValid, sshKrlInit], List.Pairwise.nil, ?_, ?_⟩
    · exact fun rc hrc => absurd hrc not_mem_nil
    · exact fun hash hh => absurd hh not_mem_nil
  refine List.foldlRecOn calls _ hi fun krl hv call _ => ?_
  cases hn : ops.revoke krl call with
  | none => exact hv
  | some next => exact hv.revoke hLaw hn

end KeyOps

/-! What a valid list says, and what is read back. -/

namespace KeyOps

def facts (ops : KeyOps K) (krl : SshKrl K) (fact : Fact K) : Prop :=
  (∃ rc ∈ krl.revokedCerts, ops.certFacts rc fact) ∨
    ((∃ s ∈ krl.revokedKeys, fact = .key s) ∨ ∃ s ∈ krl.revokedSha1s, fact = .sha1 s)

variable {ops : KeyOps K} (hLaw : ops.Lawful)

include hLaw

variable {krl : SshKrl K}

lemma revokedCertsForCaKey_eq_some (h : ops.Valid krl) {caKey : Option K} {rc : RevokedCerts K} :
    ops.revokedCertsForCaKey krl caKey = some rc ↔ rc ∈ krl.revokedCerts ∧ ops.sameCa rc.caKey caKey = true := by
  unfold revokedCertsForCaKey
  have ha := h.apart
  generalize krl.revokedCerts = l at ha ⊢
  induction l with
  | nil => simp
  | cons first rest ih =>
    obtain ⟨hFirst, hr⟩ := pairwise_cons.1 ha
    rw [find?_cons, mem_cons]
    cases hs : ops.sameCa first.caKey caKey with
    | true =>
      constructor
      · intro hf
        cases hf
        exact ⟨.inl rfl, hs⟩
      · rintro ⟨rfl | hl, ho⟩
        · rfl
        · have hb := sameCa_trans hLaw hs (sameCa_symm hLaw ho)
          rw [hFirst rc hl] at hb
          cases hb
    | false =>
      refine (ih hr).trans ?_
      constructor
      · exact fun hf => ⟨.inr hf.1, hf.2⟩
      · rintro ⟨rfl | hl, ho⟩
        · rw [hs] at ho
          cases ho
        · exact ⟨hl, ho⟩

lemma revokes_iff (h : ops.Valid krl) (fact : Fact K) : ops.Revokes krl fact ↔ ops.facts krl fact := by
  cases fact <;> simp [Revokes, facts, certFacts, serialFacts, keyIdFacts,
    revokedCertsForCaKey_eq_some hLaw h, and_assoc]

omit hLaw in
lemma length_of_mem_sections (hs : ops.blobSize krl ≤ sizeMax) {s : UInt8 × Bytes}
    (h : s ∈ ops.sections krl) : s.2.length + 5 ≤ sizeMax := by
  have hf : (framed s).length ≤ _ := length_le_flatMap h
  rw [← ops.length_encoding 0 krl, encoding, length_append] at hs
  rw [framed, length_cons, length_putString] at hf
  omega

omit hLaw in
lemma length_of_mem_strings (hSize : ops.blobSize krl ≤ sizeMax) {s : Bytes}
    (h : s ∈ krl.revokedKeys) : s.length ≤ sizeMax - 4 := by
  have hs := length_stringsSection_of_mem sectionExplicitKey h
  rw [length_stringsSection] at hs
  unfold blobSize at hSize
  omega

lemma loads_sections (hv : ops.Valid krl) (hf : ops.Fits krl) :
    ops.Loads (fun other => (ops.sections krl).foldlM (fun other s => ops.loadSection s.1 s.2 other) other)
      (ops.facts krl) := by
  have hc : ops.Loads (fun other => krl.revokedCerts.foldlM
    (fun other rc => ops.loadSection sectionCertificates (ops.certsContent rc) other) other)
    fun fact => ∃ rc ∈ krl.revokedCerts, ops.certFacts rc fact := by
    refine Loads.foldlM fun rc hrc => ?_
    have hMem : (sectionCertificates, ops.certsContent rc) ∈ ops.sections krl :=
      mem_append_left _ (mem_map_of_mem hrc)
    have hLen : (ops.certsContent rc).length + 5 ≤ sizeMax := length_of_mem_sections hf.size hMem
    exact loads_certsContent hLaw (hv.certs rc hrc) (hf.keys rc hrc) (hf.bitmaps rc hrc) (by omega)
  have hk := loads_stringsSection ops.loadSection (fun hn fact => by simp [hn])
    (loads_explicitKeys fun s hs => length_of_mem_strings hf.size hs)
  have hSha1s := loads_stringsSection ops.loadSection (fun hn fact => by simp [hn]) (loads_sha1s hv.sha1s)
  have hUse : (fun other => (ops.sections krl).foldlM (fun other s => ops.loadSection s.1 s.2 other) other) = fun other =>
    (krl.revokedCerts.foldlM (fun other rc => ops.loadSection sectionCertificates (ops.certsContent rc) other) other).bind
      fun other => ((stringsSection sectionExplicitKey krl.revokedKeys).foldlM
        (fun other s => ops.loadSection s.1 s.2 other) other).bind fun other =>
          (stringsSection sectionFingerprintSha1 krl.revokedSha1s).foldlM
            (fun other s => ops.loadSection s.1 s.2 other) other := by
    funext other
    rw [sections, foldlM_append, foldlM_map]
    congr 1
    funext other
    rw [foldlM_append]
    rfl
  rw [hUse]
  exact hc.andThen (hk.andThen hSha1s)

lemma lossless_of_fits (hv : ops.Valid krl) (hf : ops.Fits krl) (now : UInt64) : ops.Lossless now krl := by
  have hs : (ops.encoding now krl).length ≤ sizeMax := by
    rw [length_encoding]
    exact hf.size
  have hw : ops.Writable krl := by
    intro rc hrc
    refine ⟨?_, fun g hg hk => ?_⟩
    · cases hScope : rc.caKey with
      | none => rfl
      | some key =>
        obtain ⟨blob, hb, -⟩ := hf.keys rc hrc key hScope
        rw [caBlob, hb]
        rfl
    · have hSpan := hf.bitmaps rc hrc g hg hk
      unfold bitmapMax
      omega
  have hTo : ops.sshKrlToBlob now krl = .ok (ops.encoding now krl) := by
    rw [(ops.sshKrlToBlob_eq now krl).1 hw, put, length_nil, Nat.zero_add, if_neg (Nat.not_lt.2 hs)]
    rfl
  obtain ⟨other, ho, ha⟩ := loads_sections hLaw hv hf (krl.cleared now)
  refine ⟨ops.encoding now krl, other, hTo, ?_, fun key => sshKrlCheckKey_congr ops (fun fact => ?_) key⟩
  · rw [sshKrlFromBlob_encoding ops now hv.header hs]
    exact ho
  · have he : ¬ops.Revokes (krl.cleared now) fact := by
      cases fact <;> simp [Revokes, SshKrl.cleared, sshKrlInit, revokedCertsForCaKey]
    rw [ha fact, revokes_iff hLaw hv]
    exact or_iff_left he

lemma fits_of_lossless (hv : ops.Valid krl) {now : UInt64} (h : ops.Lossless now krl) : ops.Fits krl := by
  obtain ⟨blob, other, hTo, hFrom, -⟩ := h
  have hw : ops.Writable krl := by
    by_contra hNot
    rw [(ops.sshKrlToBlob_eq now krl).2 hNot] at hTo
    cases hTo
  rw [(ops.sshKrlToBlob_eq now krl).1 hw] at hTo
  obtain ⟨hb, hSize⟩ := put_eq_ok hTo
  rw [nil_append] at hb
  subst hb
  rw [sshKrlFromBlob_encoding ops now hv.header hSize] at hFrom
  rw [length_encoding] at hSize
  -- Every entry has been read.
  have hr : ∀ rc ∈ krl.revokedCerts, ∃ caKey middle last,
    ops.caOfBlob ((ops.caBlob rc.caKey).getD []) = some caKey ∧
    rc.subsections.foldlM (fun krl s => ops.loadCertSection caKey s.1 s.2 krl) middle = some last := by
    intro rc hrc
    have hMem : (sectionCertificates, ops.certsContent rc) ∈ ops.sections krl :=
      mem_append_left _ (mem_map_of_mem hrc)
    have hLen : (ops.certsContent rc).length + 5 ≤ sizeMax := length_of_mem_sections hSize hMem
    obtain ⟨middle, hSome⟩ := foldlM_eq_some_of_mem hFrom hMem
    obtain ⟨last, hl⟩ := Option.isSome_iff_exists.1 hSome
    change ops.parseRevokedCerts (ops.certsContent rc) middle = some last at hl
    rw [parseRevokedCerts_certsContent middle (by omega)] at hl
    obtain ⟨caKey, hCa, hs⟩ := Option.bind_eq_some_iff.1 hl
    exact ⟨caKey, middle, last, hCa, hs⟩
  refine ⟨fun rc hrc key hScope => ?_, fun rc hrc g hg => ?_, hSize⟩
  · obtain ⟨caKey, -, -, hCa, -⟩ := hr rc hrc
    obtain ⟨blob, hb⟩ := Option.isSome_iff_exists.1 (hw rc hrc).1
    rw [hb, Option.getD_some, caOfBlob] at hCa
    rw [hScope, caBlob] at hb
    refine ⟨blob, hb, ?_⟩
    split_ifs at hCa with he
    · exact absurd he (hLaw.blob hb)
    · obtain ⟨other, ho, -⟩ := Option.map_eq_some_iff.1 hCa
      rw [ho]
      rfl
  · obtain ⟨caKey, middle, last, -, hs⟩ := hr rc hrc
    have hMem : (g.kind.type, g.content) ∈ rc.subsections := mem_append_left _ (mem_map_of_mem hg)
    obtain ⟨start, hLoad⟩ := foldlM_eq_some_of_mem hs hMem
    have hf : (framed (g.kind.type, g.content)).length ≤ _ := length_le_flatMap hMem
    have hc := length_of_mem_sections hSize (mem_append_left _ (mem_map_of_mem hrc))
    rw [certsContent, length_append, length_append] at hc
    rw [framed, length_cons, length_putString] at hf
    dsimp only at hf
    exact inBlob_of_loadCertSection (ordered_of_mem_groups rc.revokedSerials.apart hg)
      ((hv.certs rc hrc).bounds hg mem_cons_self).2 (by omega) hLoad

theorem serialisation_lossless_iff (now : UInt64) (calls : List (Revocation K)) :
    ops.Lossless now (ops.build calls) ↔ ops.Fits (ops.build calls) :=
  ⟨fits_of_lossless hLaw (valid_build hLaw calls), fun h => lossless_of_fits hLaw (valid_build hLaw calls) h now⟩

end KeyOps

namespace KeyOps

lemma sampleKeys_lawful : sampleKeys.Lawful where
  refl _ := rfl
  symm _ := rfl
  trans _ _ := rfl
  blob h := by
    cases h
    decide
  blobInverse _ _ := rfl
  sha1 h := by
    cases h
    rfl
  cert h := by cases h

theorem serialisation_lossless_few :
    sampleKeys.Lossless 1 (sampleKeys.build [.serial none 5, .serialRange (some ()) 7 900, .keyId none [97], .keySha1 ()]) :=
  (serialisation_lossless_iff sampleKeys_lawful 1 _).2
    ⟨fun _ _ _ _ => ⟨[7], rfl, rfl⟩, by decide +kernel, by decide +kernel⟩

/-- Serials in blocks of 100 with 3 between them, as a CA that revokes most of what it issued
would list them. All go into one bitmap of 16992 bits, which is written and cannot be read. -/
theorem long_bitmap_lost : ¬sampleKeys.Lossless 1 (sampleKeys.build ((List.range 165).map fun i =>
      .serialRange none (UInt64.ofNat (103 * i + 1)) (UInt64.ofNat (103 * i + 100)))) := by
  intro h
  have hFits := fits_of_lossless sampleKeys_lawful (valid_build sampleKeys_lawful _) h
  exact absurd hFits.bitmaps (by decide +kernel)

end KeyOps
end Krl
