import Sshfortress.Krl.Parse

/-! What an accepted list owes to its signatures. -/
namespace Krl
open Base Base.Wire List
open Option (bind_eq_some_iff)

inductive Section where
  | content (type : UInt8) (data : Bytes)
  | signature (keyBlob sig : Bytes)
  deriving DecidableEq

def readSection : Getter Section := fun copy => do
  let (type, copy) ← getU8 copy
  let (data, copy) ← getString copy
  if type = sectionSignature then do
    let (sig, copy) ← getString copy
    return (.signature data sig, copy)
  else return (.content type data, copy)

def Section.frame : Section → Bytes
  | .content type data => type :: putString data
  | .signature keyBlob sig => sectionSignature :: (putString keyBlob ++ putString sig)

variable {rest queue sections : Bytes}

lemma getString_eq_putString {s : Bytes} (h : getString queue = some (s, rest)) :
    queue = putString s ++ rest := by
  obtain ⟨len, hq, hw, hv, -⟩ := getString_eq_some h
  rw [hq, putString, putU32, ← hv, ← hw, digits_value]

lemma getU8_eq_some {byte : UInt8} (h : getU8 queue = some (byte, rest)) : queue = byte :: rest := by
  cases queue with
  | nil => cases h
  | cons first tail =>
    cases h
    rfl

lemma readSection_eq_some {copy : Bytes} {s : Section} (h : readSection copy = some (s, rest)) :
    copy = s.frame ++ rest ∧ ∀ type data, s = .content type data → type ≠ sectionSignature := by
  obtain ⟨⟨type, afterType⟩, ht, h⟩ := bind_eq_some_iff.1 h
  obtain ⟨⟨data, afterData⟩, hd, h⟩ := bind_eq_some_iff.1 h
  have hf : copy = type :: (putString data ++ afterData) := by
    rw [getU8_eq_some ht, getString_eq_putString hd]
  split_ifs at h with hSig
  · obtain ⟨⟨sig, tail⟩, hr, hDone⟩ := bind_eq_some_iff.1 h
    cases hDone
    refine ⟨?_, fun _ _ hc => by cases hc⟩
    rw [hf, getString_eq_putString hr, Section.frame, hSig]
    simp
  · cases h
    refine ⟨?_, ?_⟩
    · rw [hf]
      rfl
    · intro _ _ hc
      cases hc
      exact hSig

lemma frame_ne_nil (s : Section) : s.frame ≠ [] := by
  cases s with
  | content type data => exact cons_ne_nil _ _
  | signature keyBlob sig => exact cons_ne_nil _ _

lemma consumes_readSection : Consumes readSection := by
  intro copy s rest h
  obtain ⟨hc, -⟩ := readSection_eq_some h
  have hPos := length_pos_of_ne_nil (frame_ne_nil s)
  rw [hc, length_append]
  omega

lemma items_readSection {all : List Section} (h : items readSection sections = some all) :
    sections = all.flatMap Section.frame := by
  induction all generalizing sections with
  | nil => exact (items_eq_nil consumes_readSection).1 h
  | cons s all ih =>
    obtain ⟨rest, hr, hRest⟩ := (items_eq_cons consumes_readSection).1 h
    rw [(readSection_eq_some hr).1, ih hRest, flatMap_cons]

variable {K : Type} (ops : KeyOps K)

namespace KeyOps

def load (krl : SshKrl K) : Section → Option (SshKrl K)
  | .content type data => ops.loadSection type data krl
  | .signature _ _ => some krl

lemma secondPass_eq (krl : SshKrl K) (copy : Bytes) :
    ops.secondPass krl copy = (readSection copy).bind fun (s, rest) => (ops.load krl s).map (·, rest) := by
  simp only [readSection, secondPass, skipString, Option.bind_eq_bind, Option.bind_assoc, Option.map_eq_bind]
  congr! 4
  split_ifs
  · simp only [Option.bind_assoc]
    rfl
  · rfl

lemma secondPass_run (krl : SshKrl K) (sections : Bytes) : drain ops.secondPass krl sections =
    (items readSection sections).bind fun all => all.foldlM ops.load krl :=
  drain_eq_items consumes_readSection ops.secondPass_eq krl sections

/-- The signatures that follow `front`, and the keys they verify with. -/
def Verified : Bytes → List Section → List K → Prop
  | _, [], [] => True
  | front, .signature keyBlob sig :: rest, key :: keys =>
    ops.fromBlob keyBlob = some key ∧
      ops.verify key sig (front ++ sectionSignature :: putString keyBlob) = true ∧
      Verified (front ++ (Section.signature keyBlob sig).frame) rest keys
  | _, _, _ => False

variable {front buf : Bytes} {signatures : List Section} {keys : List K} {copy : Bytes}
  {seen next last : Bool × List K}

/-- A step of the first pass: a section before the first signature, or a signature that
verifies. -/
lemma firstPass_eq_some {rest : Bytes} (h : ops.firstPass buf seen copy = some (next, rest)) :
    ∃ s, readSection copy = some (s, rest) ∧
      match s with
      | .content _ _ => seen.1 = false ∧ next = seen
      | .signature keyBlob sig => ∃ key, ops.fromBlob keyBlob = some key ∧
        ops.verify key sig (buf.take (buf.length - (putString sig ++ rest).length)) = true ∧
        next = (true, seen.2 ++ [key]) := by
  obtain ⟨⟨type, afterType⟩, ht, h⟩ := bind_eq_some_iff.1 h
  obtain ⟨⟨data, afterData⟩, hd, h⟩ := bind_eq_some_iff.1 h
  dsimp only at h hd
  by_cases hs : type = sectionSignature
  · rw [if_neg (not_not.2 hs)] at h
    obtain ⟨key, hKey, h⟩ := bind_eq_some_iff.1 h
    obtain ⟨⟨sig, tail⟩, hSig, h⟩ := bind_eq_some_iff.1 h
    split_ifs at h with hv hTwice
    cases h
    refine ⟨.signature data sig, ?_, key, hKey, ?_, rfl⟩
    · simp [readSection, ht, hd, hs, hSig]
    · rw [← getString_eq_putString hSig]
      simpa using hv
  · rw [if_pos hs] at h
    split_ifs at h with hSeen
    cases h
    refine ⟨.content type data, ?_, by simpa using hSeen, rfl⟩
    simp [readSection, ht, hd, hs]

lemma shortens_firstPass (buf : Bytes) : Shortens (ops.firstPass buf) := by
  intro seen copy next rest h
  obtain ⟨s, hr, -⟩ := ops.firstPass_eq_some h
  exact consumes_readSection hr

/-- What the first pass has found when it reaches the end: sections, then signatures, each
over everything in front of it. -/
def Judged (buf : Bytes) (seen : Bool × List K) (copy : Bytes) (last : Bool × List K) : Prop :=
  ∀ front, buf = front ++ copy → ∃ body signatures keys,
    items readSection copy = some (body ++ signatures) ∧ (∀ s ∈ body, ∃ type data, s = .content type data) ∧
      (seen.1 = true → body = []) ∧ ops.Verified (front ++ body.flatMap Section.frame) signatures keys ∧
      last.2 = seen.2 ++ keys

lemma judged_step {rest : Bytes} (hStep : ops.firstPass buf seen copy = some (next, rest))
    (hRest : ops.Judged buf next rest last) : ops.Judged buf seen copy last := by
  obtain ⟨s, hr, hCase⟩ := ops.firstPass_eq_some hStep
  obtain ⟨hc, -⟩ := readSection_eq_some hr
  have hSome : copy ≠ [] := by
    rw [hc]
    exact append_ne_nil_of_left_ne_nil (frame_ne_nil s) rest
  intro front hBuf
  obtain ⟨body, signatures, keys, hi, hb, hSeen, hVer, hk⟩ :=
    hRest (front ++ s.frame) (by rw [hBuf, hc, append_assoc])
  have hAll : items readSection copy = some (s :: (body ++ signatures)) := by
    rw [items_of_ne_nil consumes_readSection hSome, hr]
    simp [hi]
  cases s with
  | content type data =>
    obtain ⟨hn, rfl⟩ := hCase
    refine ⟨.content type data :: body, signatures, keys, hAll, ?_, ?_, ?_, hk⟩
    · intro s hs
      rcases mem_cons.1 hs with rfl | hl
      · exact ⟨type, data, rfl⟩
      · exact hb s hl
    · intro hPre
      rw [hn] at hPre
      cases hPre
    · rw [flatMap_cons, ← append_assoc]
      exact hVer
  | signature keyBlob sig =>
    obtain ⟨key, hKey, hv, rfl⟩ := hCase
    obtain rfl := hSeen rfl
    refine ⟨[], .signature keyBlob sig :: signatures, key :: keys, hAll, ?_, fun _ => rfl, ⟨hKey, ?_, ?_⟩, ?_⟩
    · exact fun _ hs => absurd hs not_mem_nil
    · have hCovered : buf = (front ++ sectionSignature :: putString keyBlob) ++ (putString sig ++ rest) := by
        rw [hBuf, hc, Section.frame]
        simp
      rw [hCovered, length_append, Nat.add_sub_cancel, take_left' rfl] at hv
      simpa using hv
    · simpa using hVer
    · rw [hk, append_assoc]
      rfl

lemma firstPass_run {sections : Bytes} (hBuf : buf = front ++ sections)
    (h : drain (ops.firstPass buf) (false, []) sections = some last) :
    ∃ body signatures, items readSection sections = some (body ++ signatures) ∧
      (∀ s ∈ body, ∃ type data, s = .content type data) ∧
      ops.Verified (front ++ body.flatMap Section.frame) signatures last.2 := by
  have hj : ops.Judged buf (false, []) sections last := by
    refine drain_induction (ops.shortens_firstPass buf) (motive := ops.Judged buf) ?_ ?_ h
    · intro seen front hFront
      exact ⟨[], [], [], rfl, fun _ hs => absurd hs not_mem_nil, fun _ => rfl, trivial, by simp⟩
    · intro seen copy next rest last hStep hr
      exact ops.judged_step hStep hr
  obtain ⟨body, signatures, keys, hi, hb, -, hVer, hk⟩ := hj front hBuf
  refine ⟨body, signatures, hi, hb, ?_⟩
  rw [hk]
  exact hVer

section
variable (h : ops.Verified front signatures keys)
include h

lemma Verified.signature : ∀ s ∈ signatures, ∃ keyBlob sig, s = .signature keyBlob sig := by
  fun_induction Verified ops front signatures keys with
  | case1 => exact fun _ hs => absurd hs not_mem_nil
  | case2 front keyBlob sig rest key keys ih =>
    intro s hs
    rcases mem_cons.1 hs with rfl | hl
    · exact ⟨keyBlob, sig, rfl⟩
    · exact ih h.2.2 s hl
  | case3 => exact h.elim

lemma Verified.ne_nil (hs : signatures ≠ []) : keys ≠ [] := by
  rintro rfl
  cases signatures with
  | nil => exact hs rfl
  | cons s rest =>
    cases s with
    | content type data => exact h.elim
    | signature keyBlob sig => exact h.elim

lemma Verified.covered {key : K} (hKey : key ∈ keys) :
    ∃ earlier keyBlob sig later covered, signatures = earlier ++ .signature keyBlob sig :: later ∧
      front ++ signatures.flatMap Section.frame = covered ++ putString sig ++ later.flatMap Section.frame ∧
      ops.fromBlob keyBlob = some key ∧ ops.verify key sig covered = true := by
  fun_induction Verified ops front signatures keys with
  | case1 => cases hKey
  | case2 front keyBlob sig rest first keys ih =>
    rcases mem_cons.1 hKey with rfl | hl
    · refine ⟨[], keyBlob, sig, rest, front ++ sectionSignature :: putString keyBlob, rfl, ?_, h.1, h.2.1⟩
      simp [Section.frame]
    · obtain ⟨earlier, blob, mark, later, covered, hr, hs, hf, hv⟩ := ih h.2.2 hl
      refine ⟨.signature keyBlob sig :: earlier, blob, mark, later, covered, ?_, ?_, hf, hv⟩
      · rw [hr]
        rfl
      · rw [← hs, flatMap_cons, append_assoc]
  | case3 => exact h.elim

end

/-- One of the signatures covers everything in front of it, and is by a trusted key that
the list does not revoke. -/
def TrustedSignature (buf : Bytes) (trusted : List K) (krl : SshKrl K) (signatures : List Section) : Prop :=
  ∃ earlier keyBlob sig later covered key, signatures = earlier ++ .signature keyBlob sig :: later ∧
    buf = covered ++ putString sig ++ later.flatMap Section.frame ∧
    ops.fromBlob keyBlob = some key ∧ ops.verify key sig covered = true ∧
    (∃ ca ∈ trusted, ops.equal key ca = true) ∧ ops.sshKrlCheckKey krl key = .okay

/-- The list is what the sections before the first signature say, only signatures follow,
and one of them is trusted. -/
def ProperlySigned (buf : Bytes) (trusted : List K) (krl : SshKrl K) : Prop :=
  ∃ header sections body signatures, readHeader buf = some (header, sections) ∧
    items readSection sections = some (body ++ signatures) ∧
    (∀ s ∈ body, ∃ type data, s = .content type data) ∧
    (∀ s ∈ signatures, ∃ keyBlob sig, s = .signature keyBlob sig) ∧
    body.foldlM ops.load header = some krl ∧ ops.TrustedSignature buf trusted krl signatures

end KeyOps

/-- The blob has a signature section at all. -/
def HasSignature (K : Type) (buf : Bytes) : Prop :=
  ∃ (header : SshKrl K) (sections : Bytes) (all : List Section), readHeader buf = some (header, sections) ∧
    items readSection sections = some all ∧ ∃ keyBlob sig, .signature keyBlob sig ∈ all

lemma local_skipString : Local skipString := by
  have hs : skipString = (fun queue => do
    let (_, queue) ← getString queue
    some ((), queue)) := by
    funext queue
    rw [skipString, Option.map_eq_bind]
    rfl
  rw [hs]
  exact .bind local_getString fun _ => .pure ()

lemma readHeader_suffix {buf : Bytes} {header : SshKrl K}
    (h : readHeader buf = some (header, sections)) : sections <:+ buf := by
  obtain ⟨⟨magic, afterMagic⟩, hm, h⟩ := bind_eq_some_iff.1 h
  dsimp only at h
  split_ifs at h
  obtain ⟨⟨_, afterFormat⟩, hf, h⟩ := bind_eq_some_iff.1 h
  split_ifs at h
  obtain ⟨⟨_, afterVersion⟩, hv, h⟩ := bind_eq_some_iff.1 h
  obtain ⟨⟨_, afterDate⟩, hd, h⟩ := bind_eq_some_iff.1 h
  obtain ⟨⟨_, afterFlags⟩, hFlags, h⟩ := bind_eq_some_iff.1 h
  obtain ⟨⟨_, afterReserved⟩, hr, h⟩ := bind_eq_some_iff.1 h
  obtain ⟨⟨_, afterComment⟩, hc, h⟩ := bind_eq_some_iff.1 h
  cases h
  calc afterComment <:+ afterReserved := local_getCstring.suffix hc
    _ <:+ afterFlags := local_skipString.suffix hr
    _ <:+ afterDate := (local_getInt 8).suffix hFlags
    _ <:+ afterVersion := (local_getInt 8).suffix hd
    _ <:+ afterFormat := (local_getInt 8).suffix hv
    _ <:+ afterMagic := (local_getInt 4).suffix hf
    _ <:+ buf := (local_getFixed _).suffix hm

namespace KeyOps

lemma foldlM_load_signatures (krl : SshKrl K) {signatures : List Section}
    (h : ∀ s ∈ signatures, ∃ keyBlob sig, s = .signature keyBlob sig) :
    signatures.foldlM ops.load krl = some krl := by
  induction signatures with
  | nil => rfl
  | cons s rest ih =>
    obtain ⟨keyBlob, sig, rfl⟩ := h s mem_cons_self
    exact ih fun s hs => h s (.tail _ hs)

/-- What an accepted blob is: sections, then signatures, and the checks on the signers. -/
lemma sshKrlFromBlob_eq_some {buf : Bytes} {trusted : List K} {krl : SshKrl K}
    (h : ops.sshKrlFromBlob buf trusted = some krl) :
    ∃ header sections front body signatures keys, readHeader buf = some (header, sections) ∧
      buf = front ++ sections ∧ items readSection sections = some (body ++ signatures) ∧
      (∀ s ∈ body, ∃ type data, s = .content type data) ∧
      ops.Verified (front ++ body.flatMap Section.frame) signatures keys ∧
      body.foldlM ops.load header = some krl ∧
      (keys ≠ [] → trusted ≠ [] → ∃ key ∈ keys, ops.sshKrlCheckKey krl key = .okay ∧
        ∃ ca ∈ trusted, ops.equal key ca = true) := by
  obtain ⟨⟨header, sections⟩, hHdr, h⟩ := bind_eq_some_iff.1 h
  obtain ⟨⟨seen, keys⟩, hFirst, h⟩ := bind_eq_some_iff.1 h
  obtain ⟨loaded, hSnd, h⟩ := bind_eq_some_iff.1 h
  obtain ⟨front, hf⟩ := readHeader_suffix hHdr
  obtain ⟨body, signatures, hi, hb, hVer⟩ := ops.firstPass_run hf.symm hFirst
  dsimp only at h
  split_ifs at h with hr hu
  cases h
  refine ⟨header, sections, front, body, signatures, keys, hHdr, hf.symm, hi, hb, hVer, ?_, ?_⟩
  · rw [secondPass_run, hi, Option.bind_some, foldlM_append] at hSnd
    obtain ⟨middle, hm, hl⟩ := bind_eq_some_iff.1 hSnd
    rw [ops.foldlM_load_signatures middle (Verified.signature ops hVer)] at hl
    rw [hm, hl]
  · intro hk ht
    have ha : keys.filter (fun key => ops.sshKrlCheckKey krl key = .okay) ≠ [] := by
      intro hn
      exact hr (by simp [hk, hn])
    have hAny : (trusted.any fun ca => (keys.filter fun key => ops.sshKrlCheckKey krl key = .okay).any
      fun used => ops.equal used ca) = true := by simpa [ha, ht] using hu
    obtain ⟨ca, hCa, hUsed⟩ := any_eq_true.1 hAny
    obtain ⟨key, hKey, he⟩ := any_eq_true.1 hUsed
    obtain ⟨hMem, ho⟩ := mem_filter.1 hKey
    exact ⟨key, hMem, by simpa using ho, ca, hCa, he⟩

theorem properly_signed_iff {buf : Bytes} {trusted : List K} {krl : SshKrl K} (hTrusted : trusted ≠ [])
    (hAccepted : ops.sshKrlFromBlob buf trusted = some krl) :
    ops.ProperlySigned buf trusted krl ↔ HasSignature K buf := by
  constructor
  · rintro ⟨header, sections, body, signatures, hHeader, hItems, -, -, -, earlier, keyBlob, sig, later, -, -, rfl, -⟩
    exact ⟨header, sections, _, hHeader, hItems, keyBlob, sig, by simp⟩
  · rintro ⟨header', sections', all, hHeader', hItems', keyBlob, sig, hThere⟩
    obtain ⟨header, sections, front, body, signatures, keys, hHeader, hFront, hItems, hBody, hVerified, hLoaded, hSigner⟩ :=
      ops.sshKrlFromBlob_eq_some hAccepted
    -- Both readings of the blob are the same.
    obtain ⟨rfl, rfl⟩ := Prod.mk.inj (Option.some.inj (hHeader'.symm.trans hHeader))
    obtain rfl := Option.some.inj (hItems'.symm.trans hItems)
    have hSome : signatures ≠ [] := by
      rintro rfl
      rw [append_nil] at hThere
      obtain ⟨type, data, hContent⟩ := hBody _ hThere
      cases hContent
    obtain ⟨key, hKey, hOkay, hTrust⟩ := hSigner (Verified.ne_nil ops hVerified hSome) hTrusted
    obtain ⟨earlier, blob, mark, later, covered, hSplit, hCovered, hFrom, hVerify⟩ := Verified.covered ops hVerified hKey
    refine ⟨header', sections', body, signatures, hHeader, hItems, hBody, Verified.signature ops hVerified, hLoaded,
      earlier, blob, mark, later, covered, key, hSplit, ?_, hFrom, hVerify, hTrust, hOkay⟩
    rw [hFront, ← hCovered, append_assoc, ← flatMap_append, ← items_readSection hItems]

def sampleKeys : KeyOps Unit where
  equal _ _ := true
  fromBlob blob := if blob = [7] then some () else none
  toBlob _ := some [7]
  plainKeyBlob _ := some [7]
  sha1 _ := some (List.replicate 20 0)
  cert _ := none
  verify _ sig _ := sig = [9]

def sampleHeader : Bytes := krlMagic ++ putU32 1 ++ putU64 0 ++ putU64 0 ++ putU64 0 ++ putString [] ++ putString []

theorem properly_signed_sample :
    sampleKeys.ProperlySigned (sampleHeader ++ (Section.signature [7] [9]).frame) [()] sshKrlInit :=
  (sampleKeys.properly_signed_iff (by decide) (by decide +kernel)).2
    ⟨sshKrlInit, (Section.signature [7] [9]).frame, [.signature [7] [9]], by decide +kernel, by decide +kernel, [7], [9],
      mem_cons_self ..⟩

/-- A list without any signature, accepted although a signing key is given. -/
theorem unsigned_accepted : sampleKeys.sshKrlFromBlob sampleHeader [()] = some sshKrlInit ∧
    ¬sampleKeys.ProperlySigned sampleHeader [()] sshKrlInit := by
  refine ⟨by decide +kernel, ?_⟩
  rintro ⟨header, sections, body, signatures, hHeader, hItems, -, -, -, earlier, _, _, later, _, _, rfl, -⟩
  have hNone : readHeader sampleHeader = some ((sshKrlInit : SshKrl Unit), []) := by decide +kernel
  cases Option.some.inj (hNone.symm.trans hHeader)
  have hLength := congrArg (Option.map List.length) hItems
  simp at hLength

end KeyOps
end Krl
