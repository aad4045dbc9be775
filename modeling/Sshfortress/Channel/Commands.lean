import Sshfortress.Base.Interaction
import Sshfortress.Channel.Emulator

/-! How `channel_handle_rfd` gets from terminal output to rows of `commands`. What
the target sends is collected until the keys queued for the target are a carriage
return; then the collected text is rendered and each line becomes a row. Which of
these happens is decided by comparing the queued keys with fixed literals. -/
namespace Channel
open Base

/-- The memory at `buf_w`, and the length `dlen` that goes with it. -/
structure Keys where
  memory : Bytes
  dlen : Nat
  deriving DecidableEq

def upper (c : UInt8) : UInt8 := if 97 ≤ c && c ≤ 122 then c - 32 else c

/-- Compares from the last byte to the first, ignoring case, whatever the lengths of
the two strings are. -/
def sshRstrncasecmp (s1 s2 : Bytes) : Nat → Int
  | 0 => 0
  | n + 1 =>
    let c1 := upper (s1.getD n 0)
    let c2 := upper (s2.getD n 0)
    if c1 ≠ c2 then c1.toNat - c2.toNat else sshRstrncasecmp s1 s2 n

lemma sshRstrncasecmp_eq_zero {s1 s2 : Bytes} {n : Nat} :
    sshRstrncasecmp s1 s2 n = 0 ↔ ∀ i < n, upper (s1.getD i 0) = upper (s2.getD i 0) := by
  induction n with
  | zero => simp [sshRstrncasecmp]
  | succ n ih =>
    unfold sshRstrncasecmp
    dsimp only
    split_ifs with hd
    · have hv : ((upper (s1.getD n 0)).toNat : Int) - (upper (s2.getD n 0)).toNat ≠ 0 := by
        intro hz
        apply hd
        apply UInt8.toNat_inj.1
        omega
      constructor
      · intro hz
        exact absurd hz hv
      · intro hAll
        exact absurd (hAll n (Nat.lt_succ_self n)) hd
    · rw [ih]
      constructor
      · intro hAll i hi
        rcases Nat.lt_succ_iff_lt_or_eq.1 hi with hl | rfl
        · exact hAll i hl
        · exact not_not.1 hd
      · intro hAll i hi
        exact hAll i (Nat.lt_succ_of_lt hi)

/-- The queued keys equal a literal, as far as `dlen` says. A longer `dlen` compares
with the memory after the literal, which `rodata` gives. -/
def Keys.is (rodata : Bytes → Bytes) (k : Keys) (key : Bytes) : Bool :=
  sshRstrncasecmp k.memory (key ++ 0 :: rodata key) k.dlen = 0

/-- Up, down, ctrl+P, ctrl+N, ctrl+U, ctrl+W, backspace, ctrl+K and del. -/
def editingKeys : List Bytes :=
  [text "\x1b[A", text "\x1b[B", text "\x10", text "\x0e", text "\x15", text "\x17", text "\x08",
    text "\x0b", text "\x1b[3~"]

inductive Branch where
  | extract
  | truncate
  | replace
  | ignore
  | append
  deriving DecidableEq

/-- The chain of conditions on the queued keys and on the output just read. -/
def classify (rodata : Bytes → Bytes) (k : Keys) (buffR : Bytes) (len : Nat) : Branch :=
  let has (needle : String) : Bool := contains buffR (text needle)
  let is (key : String) : Bool := k.is rodata (text key)
  let editing := editingKeys.any (k.is rodata)
  let startsReturn := sshRstrncasecmp k.memory (text "\r") 1 = 0
  if is "\r" then .extract
  else if has "\r\n" && 2 < len && !is "\t" && !editing && !startsReturn then
    if !has "\\\r\n" && !has "\r\n>" && !has "\r\n\r" then .truncate else .ignore
  else if has "\r\n" && !editing && !has "\\\r\n>" && !is "\t" && !startsReturn && !is "" then
    .truncate
  else if has "\r\x1b[" && 2 < len && !has " \r\x1b[K" && !has "\x1b[C" && !has "\x1b[D" then
    .replace
  else if has "\x1b[" && 2 < len && has ";" && !has "t\x1b" && !has "\x1b[C" && !is "\x08" &&
      !has "\x1b[D" && !has " \x1b[K" && !has "n\x1b" && !has "a\x1b" then .truncate
  else if has "\x1b]0;" && 2 < len then .truncate
  else if is "" then .truncate
  else if has "\r\n" && is "\t" then .ignore
  else if has "\r\n" && 2 ≤ len then .ignore
  else if contains k.memory (text "\x7f") && k.dlen = 1 then .ignore
  else .append

lemma ite_ne_extract {c : Prop} [Decidable c] {first second : Branch}
    (hf : first ≠ .extract) (hSnd : second ≠ .extract) :
    (if c then first else second) ≠ .extract := by
  split
  · exact hf
  · exact hSnd

variable {rodata : Bytes → Bytes}

lemma classify_eq_extract {k : Keys} {buffR : Bytes} {len : Nat} :
    classify rodata k buffR len = .extract ↔ k.is rodata (text "\r") = true := by
  unfold classify
  constructor
  · intro h
    by_contra ho
    rw [if_neg ho] at h
    -- No later branch of the chain extracts.
    refine absurd h ?_
    repeat' apply ite_ne_extract
    all_goals decide
  · intro h
    rw [if_pos h]

lemma is_return_single (rodata : Bytes → Bytes) (after : Bytes) :
    Keys.is rodata ⟨13 :: after, 1⟩ (text "\r") = true := by
  unfold Keys.is
  rw [decide_eq_true_iff, sshRstrncasecmp_eq_zero]
  intro i hi
  obtain rfl : i = 0 := Nat.lt_one_iff.1 hi
  rfl

lemma upper_eq_return {c : UInt8} (h : upper c = 13) : c = 13 := by
  unfold upper at h
  split_ifs at h with hl
  · simp only [Bool.and_eq_true, decide_eq_true_eq, UInt8.le_iff_toNat_le] at hl
    have hv := congrArg UInt8.toNat h
    rw [UInt8.toNat_sub_of_le] at hv
    · simp at hl hv
      omega
    · rw [UInt8.le_iff_toNat_le]
      simp at hl ⊢
      omega
  · exact h

lemma is_return_of_notMem {pending after : Bytes} (hp : pending ≠ []) (h : (13 : UInt8) ∉ pending) :
    Keys.is rodata ⟨pending ++ after, pending.length⟩ (text "\r") = false := by
  obtain ⟨c, rest, rfl⟩ := List.exists_cons_of_ne_nil hp
  unfold Keys.is
  rw [decide_eq_false_iff_not, sshRstrncasecmp_eq_zero]
  intro hAll
  have hf : upper c = 13 := hAll 0 (by simp)
  rw [upper_eq_return hf] at h
  exact h List.mem_cons_self

def strLTrim (s : Bytes) : Bytes := s.dropWhile (· = 32)

/-- On the empty string the C function also looks at the byte before it. -/
def strRTrim (s : Bytes) : Bytes := s.rdropWhile (· = 32)

/-- Every double quote gets a backslash. The C function builds the result in an
array of the length of the old string. -/
def strrpc (s : Bytes) : Bytes := s.flatMap fun c => if c = 34 then [92, 34] else [c]

/-- The lines the `fgets` loop sees. A last line without its newline sets the
end-of-file flag and is dropped. -/
def fgetsLines (size : Nat) : Bytes → Bytes → List Bytes
  | _, [] => []
  | line, c :: rest =>
    if c = 10 || line.length + 2 = size then (line ++ [c]) :: fgetsLines size [] rest
    else fgetsLines size (line ++ [c]) rest

def commandOf (line : Bytes) : Bytes :=
  let s := cstr line
  let s := if 1 < s.length then s.dropLast else s
  let s := strRTrim (strLTrim s)
  if s = text "vim" || s = text "vi" then s else strrpc s

def insertCommand (audituser command : Bytes) : Bytes :=
  snprintf 17408 (text "INSERT INTO `commands` VALUES (null, '" ++ audituser ++
    text "', NOW(), \"" ++ command ++ text "\", '0', '0')")

/-- The second attempt has a blank on both sides of the command. -/
def insertCommandAgain (audituser command : Bytes) : Bytes :=
  snprintf 17408 (text "INSERT INTO `commands` VALUES (null, '" ++ audituser ++
    text "', NOW(), \" " ++ command ++ text " \", '0', '0')")

/-- The database as the extraction sees it: a handle, and which statements work. -/
structure Database where
  init : Bool
  accepts : Bytes → Bool

def statements (db : Database) (audituser command : Bytes) : List Bytes :=
  let first := insertCommand audituser command
  if db.accepts first then [first] else [first, insertCommandAgain audituser command]

/-- The screen at the start of a call: fresh arrays, all cells blank. -/
def Terminal.fresh (e : Emulator) (src : Bytes) : Terminal :=
  { e with
    out := fun _ => 32, outMode := fun _ => 0, outCol := fun _ => 0, outSize := fun _ => 0
    src := src, eof := false, dst := [], fault := false }

def render (e : Emulator) (recorded : Bytes) : Terminal :=
  let t := Terminal.ansiCopy (Terminal.fresh e recorded)
  t.printLines (t.maxcY + 1).toNat

/-- The extraction branch: the statements sent, and the emulator afterwards. An
emulator fault and a missing database handle are undefined behaviour. -/
def extractCommands (db : Database) (audituser : Bytes) (e : Emulator) (recorded : Bytes) :
    Except Stop (Emulator × List Bytes) :=
  let t := render e recorded
  let commands := ((fgetsLines 16384 [] t.dst).map commandOf).filter (· ≠ [])
  if t.fault || (!db.init && commands ≠ []) then .error .crash
  else .ok (ansiInit t.toEmulator, commands.flatMap (statements db audituser))

end Channel
