import Sshfortress.Krl.Encoding
import Sshfortress.Krl.Meaning
import Sshfortress.Krl.Signed

/-! What `ssh_krl_from_blob` makes of the sections that `ssh_krl_to_blob` writes. -/
namespace Krl
open Base Base.Wire List
open Option (bind_eq_bind bind_some map_eq_bind)

variable {K α : Type} {s rest : Bytes} {l : List α} {a : α}

lemma length_le_flatMap {β : Type} {f : α → List β} (h : a ∈ l) : (f a).length ≤ (l.flatMap f).length :=
  (sublist_flatten_of_mem (mem_map_of_mem h)).length_le

lemma length_stringsSection_of_mem (type : UInt8) {l : List Bytes} (h : s ∈ l) :
    s.length + 9 ≤ ((stringsSection type l).flatMap framed).length := by
  have hStr : (putString s).length ≤ (l.flatMap putString).length := length_le_flatMap h
  rw [length_putString] at hStr
  rw [stringsSection, if_neg (ne_nil_of_mem h), flatMap_singleton, framed, length_cons, length_putString]
  dsimp only
  omega

/-! Items of a section. -/

lemma consumes_getU64 : Consumes getU64 := by
  intro queue n rest h
  obtain ⟨front, rfl, hWidth, -⟩ := getInt_eq_some h
  rw [length_append]
  omega

lemma getU64_putU64 {n : Nat} (h : n < 2 ^ 64) (rest : Bytes) : getU64 (putU64 n ++ rest) = some (n, rest) :=
  getInt_digits h rest

lemma consumes_getString : Consumes getString := by
  intro queue s rest h
  have hLen := getString_length h
  omega

lemma consumes_getCstring : Consumes getCstring := by
  intro queue s rest h
  unfold getCstring at h
  split at h
  · cases h
  · next whole tail hStr =>
    split_ifs at h
    cases h
    exact consumes_getString hStr

lemma getCstring_putString (ht : 0 ∉ s) (hLen : s.length ≤ sizeMax - 4) (rest : Bytes) :
    getCstring (putString s ++ rest) = some (s, rest) := by
  rw [getCstring, getString_putString hLen]
  have hNot : 0 ∉ s.dropLast := fun h => ht (mem_of_mem_dropLast h)
  simp [hNot, cstr_eq_self ht]

def readFramed : Getter (UInt8 × Bytes) := fun buf => do
  let (type, buf) ← getU8 buf
  let (subsect, buf) ← getString buf
  return ((type, subsect), buf)

lemma consumes_readFramed : Consumes readFramed := by
  intro queue s rest h
  obtain ⟨⟨type, afterType⟩, ht, h⟩ := Option.bind_eq_some_iff.1 h
  obtain ⟨⟨data, afterData⟩, hd, h⟩ := Option.bind_eq_some_iff.1 h
  cases h
  rw [getU8_eq_some ht, length_cons]
  exact (consumes_getString hd).trans (Nat.lt_succ_self _)

lemma readFramed_cons (type : UInt8) (buf : Bytes) :
    readFramed (type :: buf) = (getString buf).map fun (subsect, rest) => ((type, subsect), rest) := by
  rw [map_eq_bind]
  rfl

lemma readFramed_framed {s : UInt8 × Bytes} (h : s.2.length ≤ sizeMax - 4) (rest : Bytes) :
    readFramed (framed s ++ rest) = some (s, rest) := by
  rw [framed, cons_append, readFramed_cons, getString_putString h]
  rfl

lemma foldlM_eq_some_of_mem {σ : Type} {use : σ → α → Option σ} {s last : σ}
    (h : l.foldlM use s = some last) (hMem : a ∈ l) : ∃ t, (use t a).isSome = true := by
  induction l generalizing s with
  | nil => cases hMem
  | cons b l ih =>
    obtain ⟨middle, hh, hr⟩ := Option.bind_eq_some_iff.1 h
    rcases mem_cons.1 hMem with rfl | hl
    · exact ⟨s, by rw [hh]; rfl⟩
    · exact ih hr hl

namespace KeyOps

variable (ops : KeyOps K)

/-! The loops as items that are used in order. -/

variable (caKey : Option K) (krl : SshKrl K)

lemma loadSerial_run (subsect : Bytes) : drain (ops.loadSerial caKey) krl subsect =
      (items getU64 subsect).bind fun all => all.foldlM (fun krl serial => ops.revokeCertBySerial krl caKey serial) krl := by
  refine drain_eq_items consumes_getU64 (fun krl queue => ?_) krl subsect
  simp only [map_eq_bind]
  rfl

lemma loadKeyId_run (subsect : Bytes) : drain (ops.loadKeyId caKey) krl subsect =
      (items getCstring subsect).bind fun all => all.foldlM (fun krl keyId => some (ops.revokeCertByKeyId krl caKey keyId)) krl := by
  refine drain_eq_items consumes_getCstring (fun krl queue => ?_) krl subsect
  rfl

lemma certSection_run (buf : Bytes) : drain (ops.certSection caKey) krl buf =
      (items readFramed buf).bind fun all => all.foldlM (fun krl s => ops.loadCertSection caKey s.1 s.2 krl) krl := by
  refine drain_eq_items consumes_readFramed (fun krl queue => ?_) krl buf
  simp only [readFramed, bind_eq_bind, Option.bind_assoc, map_eq_bind]
  rfl

end KeyOps

lemma loadExplicitKey_run (krl : SshKrl K) (sect : Bytes) :
    drain loadExplicitKey krl sect = (items getString sect).bind fun all =>
      all.foldlM (fun krl rdata => some { krl with revokedKeys := treeInsert rdata krl.revokedKeys }) krl := by
  refine drain_eq_items consumes_getString (fun krl queue => ?_) krl sect
  rfl

lemma loadSha1_run (krl : SshKrl K) (sect : Bytes) :
    drain loadSha1 krl sect = (items getString sect).bind fun all =>
      all.foldlM (fun krl rdata => if rdata.length ≠ 20 then none
        else some { krl with revokedSha1s := treeInsert rdata krl.revokedSha1s }) krl := by
  refine drain_eq_items consumes_getString (fun krl queue => ?_) krl sect
  simp only [apply_ite (Option.map _)]
  rfl

namespace KeyOps

/-! What the sections add. -/

variable {ops : KeyOps K}

lemma loads_nothing : ops.Loads some fun _ => False :=
  fun krl => ⟨krl, rfl, fun _ => ⟨.inr, fun h => h.resolve_left id⟩⟩

lemma loads_stringsSection (load : UInt8 → Bytes → SshKrl K → Option (SshKrl K)) {facts : Fact K → Prop} {type : UInt8}
    {l : List Bytes} (hn : l = [] → ∀ fact, ¬facts fact) (hl : ops.Loads (load type (l.flatMap putString)) facts) :
    ops.Loads (fun krl => (stringsSection type l).foldlM (fun krl s => load s.1 s.2 krl) krl) facts := by
  unfold stringsSection
  split_ifs with he
  · exact loads_nothing.congr fun fact => (iff_false_intro (hn he fact)).symm
  · have hEach : ∀ s ∈ [(type, l.flatMap putString)], ops.Loads (load s.1 s.2 ·) facts := by
      intro s hs
      rw [mem_singleton.1 hs]
      exact hl
    exact (Loads.foldlM hEach).congr fun fact => by simp

variable {serials : List Nat} {subsect rest : Bytes} {bitmap : Nat} {keyIds : List Bytes} {g : Group}

lemma loadCertSection_list (caKey : Option K) (krl : SshKrl K) (h : ∀ n ∈ serials, n < 2 ^ 64) :
    ops.loadCertSection caKey sectionCertSerialList (serials.flatMap putU64) krl =
      serials.foldlM (fun krl serial => ops.revokeCertBySerial krl caKey serial) krl := by
  have hi : items getU64 (serials.flatMap putU64) = some serials :=
    items_flatMap consumes_getU64 fun n hn rest => getU64_putU64 (h n hn) rest
  rw [loadCertSection, if_pos rfl, loadSerial_run, hi]
  rfl

variable {lo : Nat} (caKey : Option K) (krl : SshKrl K)

lemma loadCertSection_range {hi : Nat}
    (hLo : getU64 subsect = some (lo, rest)) (hHi : getU64 rest = some (hi, [])) :
    ops.loadCertSection caKey sectionCertSerialRange subsect krl = ops.revokeCertBySerialRange krl caKey lo hi := by
  rw [loadCertSection, if_neg (by decide), if_pos rfl, hLo]
  simp [hHi]

lemma loadCertSection_bitmap (hLo : getU64 subsect = some (lo, rest)) :
    ops.loadCertSection caKey sectionCertSerialBitmap subsect krl =
      (getBignum2Bytes rest).bind fun (blob, rest) => (bitmapFromString blob).bind fun bitmap =>
        ((List.range (bitmapNbits bitmap)).foldlM (ops.loadBit caKey lo bitmap) krl).bind fun krl =>
          if rest = [] then some krl else none := by
  rw [loadCertSection, if_neg (by decide), if_neg (by decide), if_pos rfl, hLo]
  rfl

lemma loadCertSection_bitmapToString (hLo : lo < 2 ^ 64)
    (hSome : bitmap ≠ 0) (hSize : (bitmapNbits bitmap + 7) / 8 + 1 ≤ sizeMax - 4) :
    ops.loadCertSection caKey sectionCertSerialBitmap (putU64 lo ++ putBignum2Bytes (bitmapToString bitmap)) krl =
      if bitmapNbits bitmap ≤ 16384 then (List.range (bitmapNbits bitmap)).foldlM (ops.loadBit caKey lo bitmap) krl
      else none := by
  obtain ⟨byte, hh, hb, -⟩ := head_bitmapToString hSome
  have hLen := length_bitmapToString bitmap
  have hNum := getBignum2Bytes_putBignum2Bytes (s := bitmapToString bitmap) (by rw [hh]; simpa using hb)
    (by rw [hLen]; exact hSize) []
  rw [append_nil, hLen] at hNum
  rw [loadCertSection_bitmap caKey krl (getU64_putU64 hLo _), hNum]
  by_cases hs : bitmapNbits bitmap ≤ 16384
  · have hr : bitmapFromString (bitmapToString bitmap) = some bitmap := by
      rw [bitmapFromString, value_bitmapToString, hLen]
      exact if_neg (by unfold bitmapMax; omega)
    rw [if_pos (by omega), if_pos hs]
    simp [hr]
  · rw [if_neg (by omega), if_neg hs]
    rfl

lemma loadCertSection_keyIds (h : ∀ keyId ∈ keyIds, 0 ∉ keyId ∧ keyId.length ≤ sizeMax - 4) :
    ops.loadCertSection caKey sectionCertKeyId (keyIds.flatMap putString) krl =
      keyIds.foldlM (fun krl keyId => some (ops.revokeCertByKeyId krl caKey keyId)) krl := by
  have hi : items getCstring (keyIds.flatMap putString) = some keyIds :=
    items_flatMap consumes_getCstring fun keyId hMem rest => getCstring_putString (h keyId hMem).1 (h keyId hMem).2 rest
  rw [loadCertSection, if_neg (by decide), if_neg (by decide), if_neg (by decide), if_pos rfl, loadKeyId_run, hi]
  rfl

lemma parseRevokedCerts_certsContent {rc : RevokedCerts K}
    (hSize : (ops.certsContent rc).length ≤ sizeMax) :
    ops.parseRevokedCerts (ops.certsContent rc) krl =
      (ops.caOfBlob ((ops.caBlob rc.caKey).getD [])).bind fun caKey =>
        rc.subsections.foldlM (fun krl s => ops.loadCertSection caKey s.1 s.2 krl) krl := by
  rw [certsContent, length_append, length_append, length_putString, length_putString] at hSize
  have hb := getString_putString (s := (ops.caBlob rc.caKey).getD []) (by omega)
    (putString [] ++ rc.subsections.flatMap framed)
  have hr : skipString (putString [] ++ rc.subsections.flatMap framed) = some ((), rc.subsections.flatMap framed) := by
    rw [skipString, getString_putString (Nat.zero_le _)]
    rfl
  have hi : items readFramed (rc.subsections.flatMap framed) = some rc.subsections := by
    refine items_flatMap consumes_readFramed fun s hs rest => readFramed_framed ?_ rest
    have hLen : (framed s).length ≤ _ := length_le_flatMap hs
    rw [framed, length_cons, length_putString] at hLen
    omega
  rw [parseRevokedCerts, certsContent, hb]
  simp [hr, certSection_run, hi]

lemma inBlob_of_loadCertSection {caKey : Option K} {krl : SshKrl K} (ho : g.Ordered)
    (hWide : g.first.hi < 2 ^ 64) (hs : g.content.length ≤ sizeMax - 4)
    (h : (ops.loadCertSection caKey g.kind.type g.content krl).isSome = true) : g.InBlob := by
  intro hk
  have hb := Group.bitmapNbits_bitmap ho
  have hLe := g.first.le
  have hSome : g.bitmap ≠ 0 := by
    intro hz
    rw [hz] at hb
    cases hb
  rw [Group.content, hk] at h hs
  rw [length_append, length_putBignum2Bytes_bitmap hSome, putU64, digits_length] at hs
  rw [SerialSection.type, loadCertSection_bitmapToString caKey krl (by omega) hSome (by omega)] at h
  by_contra hl
  rw [if_neg (hb ▸ hl)] at h
  cases h

variable (hLaw : ops.Lawful)

include hLaw

variable (caKey : Option K)

lemma loads_serials (h : ∀ n ∈ serials, 0 < n) :
    ops.Loads (fun krl => serials.foldlM (fun krl serial => ops.revokeCertBySerial krl caKey serial) krl)
      (ops.serialFacts caKey (· ∈ serials)) := by
  refine (Loads.serials fun n hn => loads_revokeCertBySerialRange hLaw caKey (Nat.le_refl n)
    (Nat.ne_of_gt (h n hn))).congrSerials fun serial => ?_
  constructor
  · rintro ⟨n, hn, hLow, hh⟩
    exact Nat.le_antisymm hh hLow ▸ hn
  · exact fun hMem => ⟨serial, hMem, Nat.le_refl _, Nat.le_refl _⟩

lemma loads_bits {width : Nat} (hLo : 0 < lo) (hEnd : lo + width ≤ 2 ^ 64) :
    ops.Loads (fun krl => (List.range width).foldlM (ops.loadBit caKey lo bitmap) krl)
      (ops.serialFacts caKey fun n => ∃ k < width, bitmap.testBit k = true ∧ n = lo + k) := by
  have hOne : ∀ k ∈ List.range width, ops.Loads (ops.loadBit caKey lo bitmap · k)
    (ops.serialFacts caKey fun n => bitmap.testBit k = true ∧ n = lo + k) := by
    intro k hk
    have hBound := mem_range.1 hk
    have hw : (lo + k) % 2 ^ 64 = lo + k := Nat.mod_eq_of_lt (by omega)
    have hl : (ops.loadBit caKey lo bitmap · k) = fun krl =>
      if !bitmap.testBit k then some krl else ops.revokeCertBySerial krl caKey (lo + k) := by
      funext krl
      have hNot : ¬(0 < k && lo + k = 0) = true := by simp; omega
      rw [loadBit, hw, if_neg hNot]
    rw [hl]
    cases hBit : bitmap.testBit k with
    | false =>
      refine loads_nothing.congr fun fact => ?_
      cases fact <;> simp [serialFacts]
    | true =>
      refine (loads_revokeCertBySerialRange hLaw caKey (Nat.le_refl (lo + k)) (by omega)).congrSerials fun serial => ?_
      rw [eq_self, true_and]
      omega
  exact (Loads.serials hOne).congrSerials fun serial => by simp

lemma loads_group (ho : g.Ordered)
    (hSingle : g.kind = .range → g.later = []) (hw : ∀ r ∈ g.ranges, 0 < r.lo ∧ r.hi < 2 ^ 64)
    (hBlob : g.InBlob) : ops.Loads (ops.loadCertSection caKey g.kind.type g.content)
      (ops.serialFacts caKey fun n => ∃ r ∈ g.ranges, r.Covers n) := by
  have hs : ∀ n ∈ g.serials, 0 < n ∧ n < 2 ^ 64 := by
    intro n hn
    obtain ⟨r, hr, hLow, hh⟩ := Group.mem_serials.1 hn
    have hBounds := hw r hr
    omega
  obtain ⟨hf, hFirstHi⟩ := hw g.first mem_cons_self
  have hLe := g.first.le
  rw [Group.content]
  cases hk : g.kind with
  | list =>
    have hl : ops.loadCertSection caKey SerialSection.list.type (g.serials.flatMap putU64) = fun krl =>
      g.serials.foldlM (fun krl serial => ops.revokeCertBySerial krl caKey serial) krl :=
      funext fun krl => loadCertSection_list caKey krl fun n hn => (hs n hn).2
    rw [hl]
    simpa [Group.mem_serials] using loads_serials hLaw caKey fun n hn => (hs n hn).1
  | range =>
    have hRanges : g.ranges = [g.first] := congrArg (g.first :: ·) (hSingle hk)
    have hHi := getU64_putU64 hFirstHi []
    have hl : ops.loadCertSection caKey SerialSection.range.type (putU64 g.first.lo ++ putU64 g.first.hi) = fun krl =>
      ops.revokeCertBySerialRange krl caKey g.first.lo g.first.hi :=
      funext fun krl => loadCertSection_range caKey krl (getU64_putU64 (by omega) _) hHi
    rw [hRanges, flatMap_singleton, hl]
    simpa [Range.Covers] using loads_revokeCertBySerialRange hLaw caKey hLe (Nat.ne_of_gt hf)
  | bitmap =>
    have hb := Group.bitmapNbits_bitmap ho
    have hSpan : g.last.hi - g.first.lo + 1 ≤ 16384 := hBlob hk
    have hLast := hw g.last g.last_mem
    have hSome : g.bitmap ≠ 0 := by
      intro hz
      rw [hz] at hb
      cases hb
    have hl : ops.loadCertSection caKey SerialSection.bitmap.type
      (putU64 g.first.lo ++ putBignum2Bytes (bitmapToString g.bitmap)) = fun krl =>
        (List.range g.span).foldlM (ops.loadBit caKey g.first.lo g.bitmap) krl := by
      funext krl
      rw [← hb]
      refine (loadCertSection_bitmapToString caKey krl (by omega) hSome ?_).trans (if_pos (hb ▸ hSpan))
      rw [hb]
      unfold Group.span sizeMax
      omega
    rw [hl]
    refine (loads_bits hLaw caKey hf ?_).congrSerials fun serial => ?_
    · unfold Group.span
      omega
    · constructor
      · rintro ⟨k, -, hBit, rfl⟩
        exact (Group.testBit_bitmap ho k).1 hBit
      · rintro ⟨r, hr, hc⟩
        have hLow := (ho.first_le hr).trans hc.1
        have hh := hc.2.trans (ho.le_last hr)
        refine ⟨serial - g.first.lo, ?_, (Group.testBit_bitmap ho _).2 ⟨r, hr, ?_⟩, by omega⟩
        · unfold Group.span
          omega
        · rwa [Nat.add_sub_cancel' hLow]

lemma loads_keyIds (h : ∀ keyId ∈ keyIds, 0 ∉ keyId ∧ keyId.length ≤ sizeMax - 4) :
    ops.Loads (ops.loadCertSection caKey sectionCertKeyId (keyIds.flatMap putString))
      (ops.keyIdFacts caKey (· ∈ keyIds)) := by
  have hl : ops.loadCertSection caKey sectionCertKeyId (keyIds.flatMap putString) = fun krl =>
    keyIds.foldlM (fun krl keyId => some (ops.revokeCertByKeyId krl caKey keyId)) krl :=
    funext fun krl => loadCertSection_keyIds caKey krl h
  rw [hl]
  refine (Loads.foldlM fun keyId _ => loads_revokeCertByKeyId hLaw caKey keyId).congr fun fact => ?_
  cases fact with
  | serial caKey' serial => simp [keyIdFacts]
  | keyId caKey' keyId =>
    constructor
    · rintro ⟨_, hMem, hs, rfl⟩
      exact ⟨hs, hMem⟩
    · exact fun h => ⟨keyId, h.2, h.1, rfl⟩
  | key blob => simp [keyIdFacts]
  | sha1 hash => simp [keyIdFacts]

end KeyOps

/-- What can stand in an entry for a CA: serials of 64 bits other than 0, and C strings. -/
structure RevokedCerts.Valid (rc : RevokedCerts K) : Prop where
  serials : ∀ n, rc.revokedSerials.Covers n → 0 < n ∧ n < 2 ^ 64
  keyIds : ∀ keyId ∈ rc.revokedKeyIds, 0 ∉ keyId

lemma RevokedCerts.Valid.bounds {rc : RevokedCerts K} (h : rc.Valid) {g : Group}
    (hg : g ∈ groups rc.revokedSerials.ranges) {r : Range} (hr : r ∈ g.ranges) : 0 < r.lo ∧ r.hi < 2 ^ 64 := by
  have hIn : r ∈ rc.revokedSerials.ranges := by
    rw [← flatMap_ranges_groups rc.revokedSerials.ranges]
    exact mem_flatMap.2 ⟨g, hg, hr⟩
  exact ⟨(h.serials r.lo ⟨r, hIn, Nat.le_refl _, r.le⟩).1, (h.serials r.hi ⟨r, hIn, r.le, Nat.le_refl _⟩).2⟩

namespace KeyOps

def certFacts (ops : KeyOps K) (rc : RevokedCerts K) (fact : Fact K) : Prop :=
  ops.serialFacts rc.caKey rc.revokedSerials.Covers fact ∨ ops.keyIdFacts rc.caKey (· ∈ rc.revokedKeyIds) fact

variable {ops : KeyOps K} (hLaw : ops.Lawful)

include hLaw

variable {rc : RevokedCerts K}

lemma certFacts_congr {caKey : Option K} (h : ops.sameCa caKey rc.caKey = true) (fact : Fact K) :
    ops.serialFacts caKey rc.revokedSerials.Covers fact ∨ ops.keyIdFacts caKey (· ∈ rc.revokedKeyIds) fact ↔
      ops.certFacts rc fact := by
  have hs : ∀ other, ops.sameCa caKey other = true ↔ ops.sameCa rc.caKey other = true := fun other =>
    ⟨fun ho => sameCa_trans hLaw (sameCa_symm hLaw h) ho, fun ho => sameCa_trans hLaw h ho⟩
  cases fact <;> simp [certFacts, serialFacts, keyIdFacts, hs]

lemma loads_subsections (caKey : Option K) (hv : rc.Valid)
    (hb : ∀ g ∈ groups rc.revokedSerials.ranges, g.InBlob)
    (hSize : (rc.subsections.flatMap framed).length ≤ sizeMax) :
    ops.Loads (fun krl => rc.subsections.foldlM (fun krl s => ops.loadCertSection caKey s.1 s.2 krl) krl)
      fun fact => ops.serialFacts caKey rc.revokedSerials.Covers fact ∨ ops.keyIdFacts caKey (· ∈ rc.revokedKeyIds) fact := by
  have hs : ops.Loads (fun krl => (groups rc.revokedSerials.ranges).foldlM
    (fun krl g => ops.loadCertSection caKey g.kind.type g.content krl) krl)
    (ops.serialFacts caKey rc.revokedSerials.Covers) := by
    refine (Loads.serials fun g hg => loads_group hLaw caKey (ordered_of_mem_groups rc.revokedSerials.apart hg)
      (single_of_mem_groups hg) (fun r hr => hv.bounds hg hr) (hb g hg)).congrSerials fun serial => ?_
    exact covers_groups rc.revokedSerials.ranges serial
  have hLen : (rc.subsections.flatMap framed).length = _ := congrArg List.length (flatMap_append ..)
  rw [hLen, length_append] at hSize
  have hk : ops.Loads (fun krl => (stringsSection sectionCertKeyId rc.revokedKeyIds).foldlM
    (fun krl s => ops.loadCertSection caKey s.1 s.2 krl) krl) (ops.keyIdFacts caKey (· ∈ rc.revokedKeyIds)) := by
    refine loads_stringsSection (ops.loadCertSection caKey) (fun hn fact => ?_) (loads_keyIds hLaw caKey fun keyId hMem => ⟨hv.keyIds keyId hMem, ?_⟩)
    · cases fact <;> simp [keyIdFacts, hn]
    · have hStr := length_stringsSection_of_mem sectionCertKeyId hMem
      omega
  have hUse : (fun krl => rc.subsections.foldlM (fun krl s => ops.loadCertSection caKey s.1 s.2 krl) krl) = fun krl =>
    ((groups rc.revokedSerials.ranges).foldlM (fun krl g => ops.loadCertSection caKey g.kind.type g.content krl) krl).bind
      fun krl => (stringsSection sectionCertKeyId rc.revokedKeyIds).foldlM
        (fun krl s => ops.loadCertSection caKey s.1 s.2 krl) krl := by
    funext krl
    rw [RevokedCerts.subsections, foldlM_append, foldlM_map]
    rfl
  rw [hUse]
  exact hs.andThen hk

lemma loads_certsContent (hv : rc.Valid)
    (hKey : ∀ key, rc.caKey = some key → ∃ blob, ops.toBlob key = some blob ∧ (ops.fromBlob blob).isSome = true)
    (hb : ∀ g ∈ groups rc.revokedSerials.ranges, g.InBlob)
    (hs : (ops.certsContent rc).length ≤ sizeMax) :
    ops.Loads (ops.parseRevokedCerts (ops.certsContent rc)) (ops.certFacts rc) := by
  obtain ⟨caKey, hCa, hSame⟩ : ∃ caKey, ops.caOfBlob ((ops.caBlob rc.caKey).getD []) = some caKey ∧
    ops.sameCa caKey rc.caKey = true := by
    cases hScope : rc.caKey with
    | none => exact ⟨none, rfl, rfl⟩
    | some key =>
      obtain ⟨blob, hTo, hf⟩ := hKey key hScope
      obtain ⟨other, ho⟩ := Option.isSome_iff_exists.1 hf
      refine ⟨some other, ?_, hLaw.blobInverse hTo ho⟩
      rw [caBlob, hTo, Option.getD_some, caOfBlob, if_neg (hLaw.blob hTo), ho]
      rfl
  have hp : ops.parseRevokedCerts (ops.certsContent rc) = fun krl =>
    rc.subsections.foldlM (fun krl s => ops.loadCertSection caKey s.1 s.2 krl) krl := by
    funext krl
    rw [parseRevokedCerts_certsContent krl hs, hCa]
    rfl
  rw [certsContent, length_append, length_append] at hs
  rw [hp]
  exact (loads_subsections hLaw caKey hv hb (by omega)).congr (certFacts_congr hLaw hSame)

end KeyOps

/-! Keys and fingerprints. -/

namespace KeyOps

variable {ops : KeyOps K} {l : List Bytes}

lemma loads_explicitKeys (h : ∀ s ∈ l, s.length ≤ sizeMax - 4) :
    ops.Loads (ops.loadSection sectionExplicitKey (l.flatMap putString)) fun fact => ∃ s ∈ l, fact = .key s := by
  have hi : items getString (l.flatMap putString) = some l :=
    items_flatMap consumes_getString fun s hs rest => getString_putString (h s hs) rest
  have hl : ops.loadSection sectionExplicitKey (l.flatMap putString) = fun krl =>
    l.foldlM (fun krl rdata => some { krl with revokedKeys := treeInsert rdata krl.revokedKeys }) krl := by
    funext krl
    rw [loadSection, if_neg (by decide), if_pos rfl, loadExplicitKey_run, hi]
    rfl
  rw [hl]
  refine Loads.foldlM fun s _ krl => ⟨_, rfl, fun fact => ?_⟩
  cases fact with
  | serial caKey serial => simp [Revokes, revokedCertsForCaKey]
  | keyId caKey keyId => simp [Revokes, revokedCertsForCaKey]
  | key blob => simp [Revokes, mem_treeInsert]
  | sha1 hash => simp [Revokes]

lemma loads_sha1s (hLen : ∀ s ∈ l, s.length = 20) :
    ops.Loads (ops.loadSection sectionFingerprintSha1 (l.flatMap putString)) fun fact => ∃ s ∈ l, fact = .sha1 s := by
  have hi : items getString (l.flatMap putString) = some l := by
    refine items_flatMap consumes_getString fun s hs rest => getString_putString ?_ rest
    rw [hLen s hs]
    decide
  have hl : ops.loadSection sectionFingerprintSha1 (l.flatMap putString) = fun krl =>
    l.foldlM (fun krl rdata => if rdata.length ≠ 20 then none
      else some { krl with revokedSha1s := treeInsert rdata krl.revokedSha1s }) krl := by
    funext krl
    rw [loadSection, if_neg (by decide), if_neg (by decide), if_pos rfl, loadSha1_run, hi]
    rfl
  rw [hl]
  refine Loads.foldlM fun s hs krl => ⟨_, if_neg (not_not.2 (hLen s hs)), fun fact => ?_⟩
  cases fact with
  | serial caKey serial => simp [Revokes, revokedCertsForCaKey]
  | keyId caKey keyId => simp [Revokes, revokedCertsForCaKey]
  | key blob => simp [Revokes]
  | sha1 hash => simp [Revokes, mem_treeInsert]

/-! The whole blob. -/

lemma firstPass_content (buf : Bytes) {type : UInt8} {copy sect rest : Bytes} (ht : type ≠ sectionSignature)
    (hs : getString copy = some (sect, rest)) :
    ops.firstPass buf (false, []) (type :: copy) = some ((false, []), rest) := by
  show (getString copy).bind _ = _
  rw [hs]
  exact if_pos ht

lemma firstPass_contents (buf : Bytes) {l : List (UInt8 × Bytes)}
    (h : ∀ s ∈ l, s.1 ≠ sectionSignature ∧ s.2.length ≤ sizeMax - 4) :
    drain (ops.firstPass buf) (false, []) (l.flatMap framed) = some (false, []) := by
  induction l with
  | nil => rfl
  | cons s l ih =>
    obtain ⟨ht, hLen⟩ := h s mem_cons_self
    have hSome : framed s ++ l.flatMap framed ≠ [] := cons_ne_nil _ _
    rw [flatMap_cons, drain_of_ne_nil (ops.shortens_firstPass buf) hSome, framed, cons_append,
      firstPass_content buf ht (getString_putString hLen _)]
    exact ih fun s hs => h s (.tail _ hs)

end KeyOps

lemma readSection_content {type : UInt8} {copy data : Bytes} (ht : type ≠ sectionSignature)
    (hd : getString copy = some (data, rest)) :
    readSection (type :: copy) = some (.content type data, rest) := by
  show (getString copy).bind _ = _
  rw [hd]
  exact if_neg ht

lemma items_contents {l : List (UInt8 × Bytes)} (h : ∀ s ∈ l, s.1 ≠ sectionSignature ∧ s.2.length ≤ sizeMax - 4) :
    items readSection (l.flatMap framed) = some (l.map fun s => .content s.1 s.2) := by
  have hf : l.flatMap framed = (l.map fun s => Section.content s.1 s.2).flatMap Section.frame := by
    rw [flatMap_map]
    rfl
  rw [hf]
  refine items_flatMap consumes_readSection fun sect hSect rest => ?_
  obtain ⟨s, hs, rfl⟩ := mem_map.1 hSect
  exact readSection_content (h s hs).1 (getString_putString (h s hs).2 rest)

lemma readHeader_of
    {buf afterMagic afterFormat afterVersion afterDate afterFlags afterReserved comment : Bytes}
    {krlVersion generatedDate flags : Nat}
    (hm : getFixed krlMagic.length buf = some (krlMagic, afterMagic))
    (hf : getU32 afterMagic = some (krlFormatVersion, afterFormat))
    (hv : getU64 afterFormat = some (krlVersion, afterVersion))
    (hd : getU64 afterVersion = some (generatedDate, afterDate))
    (hFlags : getU64 afterDate = some (flags, afterFlags))
    (hr : skipString afterFlags = some ((), afterReserved))
    (hc : getCstring afterReserved = some (comment, rest)) :
    readHeader buf = some ({ (sshKrlInit : SshKrl K) with krlVersion, generatedDate, flags, comment }, rest) := by
  simp [readHeader, hm, hf, hv, hd, hFlags, hr, hc]

/-- The fields of the header that a blob can hold. -/
def SshKrl.HeaderValid (krl : SshKrl K) : Prop :=
  krl.krlVersion < 2 ^ 64 ∧ krl.generatedDate < 2 ^ 64 ∧ krl.flags < 2 ^ 64 ∧ 0 ∉ krl.comment

def SshKrl.cleared (now : UInt64) (krl : SshKrl K) : SshKrl K :=
  { (sshKrlInit : SshKrl K) with
    krlVersion := krl.krlVersion
    generatedDate := if krl.generatedDate = 0 then now.toNat else krl.generatedDate
    flags := krl.flags
    comment := krl.comment }

lemma readHeader_header (now : UInt64) {krl : SshKrl K} (h : krl.HeaderValid) (hLen : krl.comment.length ≤ sizeMax - 4)
    (rest : Bytes) : readHeader (KeyOps.header now krl ++ rest) = some (krl.cleared now, rest) := by
  obtain ⟨hv, hg, hf, ht⟩ := h
  have hd : (if krl.generatedDate = 0 then now.toNat else krl.generatedDate) < 2 ^ 64 := by
    split_ifs
    · exact now.toNat_lt
    · exact hg
  unfold KeyOps.header
  simp only [append_assoc]
  refine readHeader_of (getFixed_append rfl) (getInt_digits (by decide) _) (getU64_putU64 hv _)
    (getU64_putU64 hd _) (getU64_putU64 hf _) ?_ (getCstring_putString ht hLen rest)
  rw [skipString, getString_putString (Nat.zero_le _)]
  rfl

namespace KeyOps

variable (ops : KeyOps K) {s : UInt8 × Bytes} {krl : SshKrl K}

lemma type_of_mem_stringsSection {type : UInt8} {l : List Bytes} (h : s ∈ stringsSection type l) :
    s.1 = type := by
  unfold stringsSection at h
  split_ifs at h
  · cases h
  · rw [mem_singleton.1 h]

lemma type_of_mem_sections (h : s ∈ ops.sections krl) : s.1 ≠ sectionSignature := by
  rcases mem_append.1 h with hc | ho
  · obtain ⟨rc, -, rfl⟩ := mem_map.1 hc
    show sectionCertificates ≠ sectionSignature
    decide
  · rcases mem_append.1 ho with hk | hs
    · rw [type_of_mem_stringsSection hk]
      decide
    · rw [type_of_mem_stringsSection hs]
      decide

/-- What is read from the blob of a list: its sections, one after the other. -/
lemma sshKrlFromBlob_encoding (now : UInt64) (hHdr : krl.HeaderValid)
    (hSize : (ops.encoding now krl).length ≤ sizeMax) : ops.sshKrlFromBlob (ops.encoding now krl) [] =
      (ops.sections krl).foldlM (fun krl s => ops.loadSection s.1 s.2 krl) (krl.cleared now) := by
  have hTotal : (header now krl).length + ((ops.sections krl).flatMap framed).length ≤ sizeMax := by
    rwa [encoding, length_append] at hSize
  have hc : krl.comment.length ≤ sizeMax - 4 := by
    have hPart : 4 + krl.comment.length ≤ (header now krl).length := by
      rw [← length_putString, header]
      simp only [length_append]
      omega
    omega
  have hSections : ∀ s ∈ ops.sections krl, s.1 ≠ sectionSignature ∧ s.2.length ≤ sizeMax - 4 := by
    intro s hs
    refine ⟨ops.type_of_mem_sections hs, ?_⟩
    have hLen : (framed s).length ≤ _ := length_le_flatMap hs
    rw [framed, length_cons, length_putString] at hLen
    omega
  rw [sshKrlFromBlob]
  generalize hBuf : ops.encoding now krl = buf
  have hr : readHeader buf = some (krl.cleared now, (ops.sections krl).flatMap framed) := by
    rw [← hBuf, encoding, readHeader_header now hHdr hc]
  rw [hr]
  simp only [bind_eq_bind, bind_some, firstPass_contents buf hSections, secondPass_run,
    items_contents hSections, foldlM_map]
  have hl : (fun krl s => ops.load krl (.content s.1 s.2)) = fun krl (s : UInt8 × Bytes) => ops.loadSection s.1 s.2 krl :=
    rfl
  rw [hl]
  -- Nobody signed, so nothing is checked about the signers.
  cases (ops.sections krl).foldlM (fun krl s => ops.loadSection s.1 s.2 krl) (krl.cleared now) with
  | none => rfl
  | some other => rfl

end KeyOps
end Krl
