import Sshfortress.Base.Wire

/-! Readers that take back what was written. Where a writer and a reader are two lists of
fields, they agree if each field is read where it was written and nothing more is taken. -/
namespace Base.Wire

variable {α β : Type}

/-- The getter takes exactly these bytes, whatever follows them, and gives this value. -/
def Reads (getter : Getter α) (bytes : Bytes) (a : α) : Prop :=
  ∀ rest, getter (bytes ++ rest) = some (a, rest)

lemma reads_give (a : α) : Reads (give a) [] a := fun _ => rfl

variable {a : α} {bytes : Bytes} {first getter : Getter α} {second : α → Getter β}

lemma andThen_of_eq_some {queue rest : Bytes} (h : first queue = some (a, rest)) :
    andThen first second queue = second a rest := by rw [andThen, h]

lemma Reads.andThen {more : Bytes} {b : β} (hf : Reads first bytes a)
    (hSnd : Reads (second a) more b) : Reads (Wire.andThen first second) (bytes ++ more) b := by
  intro rest
  rw [List.append_assoc, andThen_of_eq_some (hf _)]
  exact hSnd rest

lemma Reads.last {b : β} (hf : Reads first bytes a) (hSnd : Reads (second a) [] b) :
    Reads (Wire.andThen first second) bytes b := by
  have h := hf.andThen hSnd
  rwa [List.append_nil] at h

lemma Reads.end_eq (h : Reads getter bytes a) : getter bytes = some (a, []) := by
  rw [← List.append_nil bytes]
  exact h []

/-! Words. -/

def putWord32 (n : UInt32) : Bytes := putU32 n.toNat

def putWord64 (n : UInt64) : Bytes := putU64 n.toNat

def getWord32 : Getter UInt32 := andThen getU32 fun n => give (UInt32.ofNat n)

def getWord64 : Getter UInt64 := andThen getU64 fun n => give (UInt64.ofNat n)

@[simp] lemma length_putWord32 (n : UInt32) : (putWord32 n).length = 4 := digits_length 4 _

lemma reads_word32 (n : UInt32) : Reads getWord32 (putWord32 n) n := by
  have hr : Reads getU32 (putU32 n.toNat) n.toNat := fun rest =>
    getInt_digits (UInt32.toNat_lt n) rest
  apply hr.last
  rw [UInt32.ofNat_toNat]
  exact reads_give n

lemma reads_word64 (n : UInt64) : Reads getWord64 (putWord64 n) n := by
  have hr : Reads getU64 (putU64 n.toNat) n.toNat := fun rest =>
    getInt_digits (UInt64.toNat_lt n) rest
  apply hr.last
  rw [UInt64.ofNat_toNat]
  exact reads_give n

/-! Strings. -/

lemma reads_string {s : Bytes} (h : s.length ≤ sizeMax - 4) : Reads getString (putString s) s :=
  fun rest => getString_putString h rest

abbrev Cstring := { s : Bytes // (0 : UInt8) ∉ s }

def getCstr : Getter Cstring :=
  andThen getCstring fun s => if h : (0 : UInt8) ∉ s then give ⟨s, h⟩ else reject

lemma reads_cstr (s : Cstring) (h : s.val.length ≤ sizeMax - 4) : Reads getCstr (putString s.val) s := by
  have hr : Reads getCstring (putString s.val) s.val := by
    intro rest
    have hi : (0 : UInt8) ∉ s.val.dropLast := fun hMem => s.property (List.mem_of_mem_dropLast hMem)
    rw [getCstring, getString_putString h rest]
    dsimp only
    rw [if_neg hi, cstr_eq_self s.property]
  intro rest
  rw [getCstr, andThen_of_eq_some (hr rest), dif_pos s.property]
  rfl

/-- A record in a string of its own, whatever else the string holds. -/
def inside (getter : Getter α) : Getter α :=
  andThen getString fun inner =>
    match getter inner with
    | some (a, _) => give a
    | none => reject

/-- A record in a string of its own, which must hold nothing else. -/
def within (getter : Getter α) : Getter α :=
  andThen getString fun inner =>
    match getter inner with
    | some (a, []) => give a
    | _ => reject

lemma Reads.inside (h : Reads getter bytes a) (hf : bytes.length ≤ sizeMax - 4) :
    Reads (inside getter) (putString bytes) a := by
  intro rest
  rw [Wire.inside, andThen_of_eq_some (reads_string hf rest), h.end_eq]
  rfl

lemma Reads.within (h : Reads getter bytes a) (hf : bytes.length ≤ sizeMax - 4) :
    Reads (within getter) (putString bytes) a := by
  intro rest
  rw [Wire.within, andThen_of_eq_some (reads_string hf rest), h.end_eq]
  rfl

end Base.Wire
