import Sshfortress.Sftp.Basic

/-! File attributes on the wire. The flags say which fields follow; the reader knows one more
section than the writer, the vendor extensions, and keeps their flag when it drops them. -/
namespace Sftp

open Base Base.Wire

/-- A field that can be written and read back: one that is not sent is zero. -/
def Fits (present : Bool) (width v : Nat) : Prop := v < 256 ^ width ∧ (present = false → v = 0)

variable {queue rest : Bytes} {present : Bool} {width v : Nat} {a : Attrib}

lemma getWhen_append (h : Fits present width v) (rest : Bytes) :
    getWhen present (getInt width) ((if present then digits width v else []) ++ rest) = some (v, rest) := by
  cases present with
  | false =>
    rw [h.2 rfl]
    rfl
  | true => exact getInt_digits h.1 rest

lemma fits_of_getWhen (h : getWhen present (getInt width) queue = some (v, rest)) :
    Fits present width v := by
  cases present with
  | false =>
    cases h
    exact ⟨Nat.pow_pos (by decide), fun _ => rfl⟩
  | true =>
    obtain ⟨front, -, hLen, rfl⟩ := getInt_eq_some h
    refine ⟨?_, fun ha => nomatch ha⟩
    rw [← hLen]
    exact value_lt front

/-- The attributes that a reader can return. -/
structure Attrib.Sent (a : Attrib) : Prop where
  flags : a.flags < 256 ^ 4
  size : Fits (hasFlag a.flags attrSize) 8 a.size
  uid : Fits (hasFlag a.flags attrUidgid) 4 a.uid
  gid : Fits (hasFlag a.flags attrUidgid) 4 a.gid
  perm : Fits (hasFlag a.flags attrPermissions) 4 a.perm
  atime : Fits (hasFlag a.flags attrAcmodtime) 4 a.atime
  mtime : Fits (hasFlag a.flags attrAcmodtime) 4 a.mtime

lemma sent_of_decodeAttrib {left : Bytes} (h : decodeAttrib queue = some (a, left)) : a.Sent := by
  simp only [decodeAttrib, Option.bind_eq_bind, Option.bind_eq_some_iff, Prod.exists, Option.pure_def,
    Option.some.injEq] at h
  obtain ⟨flags, _, hf, size, _, hs, uid, _, hUid, gid, _, hGid, perm, _, hp, atime, _, ha, mtime, _,
    hm, count, _, -, _, _, -, h⟩ := h
  cases h
  obtain ⟨front, -, hLen, rfl⟩ := getInt_eq_some hf
  exact ⟨hLen ▸ value_lt front, fits_of_getWhen hs, fits_of_getWhen hUid, fits_of_getWhen hGid,
    fits_of_getWhen hp, fits_of_getWhen ha, fits_of_getWhen hm⟩

lemma if_append (present : Bool) (first second : Bytes) :
    (if present then first ++ second else []) = (if present then first else []) ++ if present then second else [] := by
  cases present with
  | false => rfl
  | true => rfl

lemma decodeAttrib_encodeAttrib (h : a.Sent) (rest : Bytes) : decodeAttrib (encodeAttrib a ++ rest) = do
      let (count, queue) ← getWhen (hasFlag a.flags attrExtended) getU32 rest
      let (_, queue) ← skipExtended count queue
      return (a, queue) := by
  unfold encodeAttrib putU32 putU64 decodeAttrib getU32 getU64
  rw [if_append, if_append]
  simp [getInt_digits h.flags, getWhen_append h.size, getWhen_append h.uid, getWhen_append h.gid, getWhen_append h.perm, getWhen_append h.atime, getWhen_append h.mtime]

lemma length_skipExtended {count : Nat} (h : skipExtended count queue = some ((), rest)) :
    rest.length ≤ queue.length := by
  induction count generalizing queue with
  | zero =>
    cases h
    exact Nat.le_refl _
  | succ count ih =>
    rw [skipExtended] at h
    split at h
    · cases h
    · rename_i type first ht
      split at h
      · cases h
      · rename_i data second hd
        have hFirst : first.length ≤ queue.length := by
          rw [getCstring] at ht
          split at ht
          · cases ht
          · rename_i s tail hStr
            split_ifs at ht
            cases ht
            have hLen := getString_length hStr
            omega
        have hSnd := getString_length hd
        have hRest := ih h
        omega

/-- Attributes that were read come back from what is written for them exactly if they were
sent without vendor extensions. -/
theorem attrib_roundtrip_iff {queue left : Bytes} {a : Attrib} (h : decodeAttrib queue = some (a, left)) (rest : Bytes) :
    decodeAttrib (encodeAttrib a ++ rest) = some (a, rest) ↔ hasFlag a.flags attrExtended = false := by
  rw [decodeAttrib_encodeAttrib (sent_of_decodeAttrib h)]
  cases hasFlag a.flags attrExtended with
  | false => exact iff_of_true rfl rfl
  | true =>
    refine iff_of_false (fun hSame => ?_) Bool.noConfusion
    -- The number of extensions is taken from what follows, so some of it is gone.
    simp only [getWhen, if_true, Option.bind_eq_bind, Option.bind_eq_some_iff, Prod.exists, Option.pure_def,
      Option.some.injEq, Prod.mk.injEq, true_and] at hSame
    obtain ⟨count, behind, hCount, _, skipped, hSkip, rfl⟩ := hSame
    obtain ⟨front, rfl, hLength, -⟩ := getInt_eq_some hCount
    have hShort := length_skipExtended hSkip
    rw [List.length_append] at hShort
    omega

theorem attrib_roundtrip_mode : decodeAttrib (encodeAttrib { attribClear with flags := attrPermissions, perm := 0o644 } ++ [7]) =
  some ({ attribClear with flags := attrPermissions, perm := 0o644 }, [7]) :=
  have hRead : decodeAttrib [0, 0, 0, 4, 0, 0, 1, 164] =
    some ({ attribClear with flags := attrPermissions, perm := 0o644 }, []) := by decide
  (attrib_roundtrip_iff hRead [7]).2 (by decide)

/-- The flag for vendor extensions and none of them: the attributes cannot be read back. -/
theorem attrib_extended_lost : ∃ a, decodeAttrib [128, 0, 0, 0, 0, 0, 0, 0] = some (a, []) ∧
    decodeAttrib (encodeAttrib a ++ []) ≠ some (a, []) :=
  ⟨{ attribClear with flags := attrExtended }, by decide, by decide⟩

end Sftp
