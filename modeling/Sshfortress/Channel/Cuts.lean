import Sshfortress.Channel.Socks

/-! How the request of a local client is cut into reads does not matter. What the decoders find in
the bytes that have come they find as well when more bytes follow, and as long as they find nothing
they change nothing. -/
namespace Channel
open Base Base.Transition List
open Except (ok)

def Proxied.feed (more : Bytes) (c : Proxied) : Proxied := { c with input := c.input ++ more }

inductive ClientTurn where
  | reads (bytes : Bytes)
  | preDynamic

/-- Something is read from the client, or its request is looked at. -/
def clientStep (inet : Inet) (c : Proxied) : ClientTurn → Except Stop (Proxied × List Note)
  | .reads bytes => .ok (c.feed bytes, [])
  | .preDynamic =>
    if c.type = .other && !c.opening then channelPreDynamic inet c else .ok (c, [])

def received : List ClientTurn → Bytes
  | [] => []
  | .reads bytes :: turns => bytes ++ received turns
  | .preDynamic :: turns => received turns

/-! What is found stays found. -/

/-- What the function does is decided by the bytes that have come. -/
def Decided {α : Type} (f : Proxied → Except Stop (Proxied × α)) (c : Proxied) : Prop :=
  ∃ out : Proxied × α, ∀ more, f (c.feed more) = .ok (out.1.feed more, out.2)

variable {inet : Inet} {c next last : Proxied} {notes : List Note} {p bytes : Bytes} {need found i : Nat}

lemma scanStrings_append (h : scanStrings need found i bytes ≠ .more) (more : Bytes) :
    scanStrings need found i (bytes ++ more) = scanStrings need found i bytes := by
  induction bytes generalizing found i with
  | nil => exact absurd rfl h
  | cons byte rest ih =>
    rw [scanStrings] at h
    rw [cons_append, scanStrings, scanStrings]
    generalize (if byte = 0 then found + 1 else found) = now at h ⊢
    split_ifs at h ⊢
    · rfl
    · rfl
    · exact ih h

lemma scan_found (h : scanStrings need found i bytes = .found) :
    ∃ string rest, bytes = string ++ 0 :: rest ∧ 0 ∉ string ∧
      (found + 1 = need ∨ ∃ j, scanStrings need (found + 1) j rest = .found) := by
  induction bytes generalizing i with
  | nil => cases h
  | cons byte rest ih =>
    rw [scanStrings] at h
    by_cases hz : byte = 0
    · subst hz
      refine ⟨[], rest, rfl, by simp, ?_⟩
      simp only [if_true, decide_true, Bool.true_and, decide_eq_true_eq] at h
      split_ifs at h with hl
      · exact .inl hl
      · exact .inr ⟨_, h⟩
    · simp only [hz, if_false, decide_false, Bool.false_and, Bool.false_eq_true] at h
      split_ifs at h
      obtain ⟨string, behind, rfl, hStr, hm⟩ := ih h
      exact ⟨byte :: string, behind, rfl, by simpa using ⟨Ne.symm hz, hStr⟩, hm⟩

lemma cstr_string (h : 0 ∉ bytes) (rest : Bytes) : cstr (bytes ++ 0 :: rest) = bytes := by
  rw [cstr_append h]
  exact append_nil bytes

lemma drop_string (bytes rest : Bytes) : (bytes ++ 0 :: rest).drop (bytes.length + 1) = rest := by
  rw [← drop_drop, drop_left]
  rfl

lemma answerSocks4_feed (command : UInt8) (c : Proxied) (more : Bytes) :
    answerSocks4 command (c.feed more) =
      ((answerSocks4 command c).1.feed more, (answerSocks4 command c).2) := by
  rw [answerSocks4, answerSocks4]
  split <;> rfl

lemma getD_feed (h : i < p.length) (more : Bytes) : (p ++ more).getD i 0 = p.getD i 0 :=
  getD_append _ _ _ _ h

lemma word16_feed (h : i + 1 < p.length) (more : Bytes) : word16 (p ++ more) i = word16 p i := by
  rw [word16, word16, getD_feed (by omega), getD_feed h]

lemma take_drop_feed {start len : Nat} (h : start + len ≤ p.length) (more : Bytes) :
    ((p ++ more).drop start).take len = (p.drop start).take len := by
  rw [drop_append_of_le_length (by omega), take_append_of_le_length]
  rw [length_drop]
  omega

lemma not_lt_feed {len : Nat} (h : len ≤ p.length) (more : Bytes) : ¬ (p ++ more).length < len := by
  rw [length_append]
  omega

lemma stringsNeeded_feed (h : 8 ≤ p.length) (more : Bytes) :
    stringsNeeded (p ++ more) = stringsNeeded p := by
  simp (disch := omega) only [stringsNeeded, getD_feed]

variable (inet)

lemma channelDecodeSocks4_decided (c : Proxied) :
    channelDecodeSocks4 inet c = .ok (c, [], .more) ∨ Decided (channelDecodeSocks4 inet) c := by
  by_cases hShort : c.input.length < 8
  · exact .inl (if_pos hShort)
  have hb (more : Bytes) : (c.input ++ more).drop 8 = c.input.drop 8 ++ more :=
    drop_append_of_le_length (by omega)
  have hScan := @scanStrings_append (c.input.drop 8) (stringsNeeded c.input) 0 8
  cases hf : scanStrings (stringsNeeded c.input) 0 8 (c.input.drop 8) with
  | more => exact .inl (by simp [channelDecodeSocks4, hShort, hf])
  | tooLong =>
    refine .inr ⟨(c, [], .bad), fun more => ?_⟩
    simp (disch := omega) only [channelDecodeSocks4, Proxied.feed, not_lt_feed, stringsNeeded_feed,
      hb, hScan (by simp [hf]), hf, if_false]
  | found =>
    obtain ⟨user, rest, hBytes, hu, hl⟩ := scan_found hf
    have hs (more : Bytes) := (hScan (by simp [hf]) more).trans hf
    simp only [hBytes, append_assoc, cons_append] at hb hs
    right
    by_cases hOne : stringsNeeded c.input = 1
    · refine ⟨answerSocks4 (c.input.getD 1 0) { c with
        input := rest
        path := some (inet.ntoa ((c.input.drop 4).take 4))
        hostPort := word16 c.input 2 }, fun more => ?_⟩
      rw [← answerSocks4_feed]
      simp (disch := omega) only [channelDecodeSocks4, Proxied.feed, not_lt_feed, stringsNeeded_feed,
        hb, hs, mem_append, mem_cons_self, or_true, not_true_eq_false,
        cstr_string hu, drop_string, getD_feed, take_drop_feed, word16_feed, if_false, if_pos hOne]
    · obtain ⟨j, hSnd⟩ := hl.resolve_left (Ne.symm hOne)
      obtain ⟨host, behind, rfl, hh, -⟩ := scan_found hSnd
      have hEnd (more : Bytes) : ¬ (host ++ 0 :: (behind ++ more)).length < host.length + 1 := by
        rw [length_append, length_cons]
        omega
      simp only [append_assoc, cons_append] at hb hs
      refine ⟨if niMaxhost < host.length + 1 then
        ({ c with input := host ++ 0 :: behind, path := none }, [], .bad)
        else answerSocks4 (c.input.getD 1 0) { c with
          input := behind
          path := some host
          hostPort := word16 c.input 2 }, fun more => ?_⟩
      simp (disch := omega) only [channelDecodeSocks4, Proxied.feed, not_lt_feed, stringsNeeded_feed,
        hb, hs, mem_append, mem_cons_self, or_true, not_true_eq_false,
        cstr_string hu, cstr_string hh, drop_string, hEnd, getD_feed, word16_feed, if_false, if_neg hOne]
      split_ifs
      · simp
      · rw [answerSocks4, answerSocks4]
        split_ifs <;> rfl

lemma socks5Methods_decided (hSome : 3 ≤ c.input.length) :
    socks5Methods c = (c, [], .more) ∨ Decided (fun c => .ok (socks5Methods c)) c := by
  by_cases hs : c.input.length < (c.input.getD 1 0).toNat + 2
  · exact .inl (by simp only [socks5Methods, hs, if_true, ite_self])
  · have hb (more : Bytes) := @List.drop_append_of_le_length _ _ more _ (Nat.le_of_not_lt hs)
    have hTwo : ¬ c.input.length < 2 := by omega
    refine .inr ⟨socks5Methods c, fun more => congrArg ok ?_⟩
    simp (disch := omega) only [socks5Methods, Proxied.feed, getD_feed, not_lt_feed, take_drop_feed, hb,
      hTwo, hs, if_false]
    split_ifs <;> rfl

lemma channelDecodeSocks5_decided (hSome : 3 ≤ c.input.length) :
    channelDecodeSocks5 inet c = (c, [], .more) ∨ Decided (fun c => .ok (channelDecodeSocks5 inet c)) c := by
  refine or_iff_not_imp_left.2 fun hNot => ?_
  by_cases ho : c.input.getD 0 0 ≠ 5
  · refine ⟨(c, [], .bad), fun more => ?_⟩
    simp (disch := omega) only [channelDecodeSocks5, Proxied.feed, getD_feed, if_pos ho]
  cases ha : c.authDone with
  | false =>
    have hm : channelDecodeSocks5 inet c = socks5Methods c := by
      simp only [channelDecodeSocks5, if_neg ho, ha, Bool.not_false, if_true]
    obtain ⟨out, hOut⟩ := (socks5Methods_decided hSome).resolve_left (hm ▸ hNot)
    refine ⟨out, fun more => (congrArg ok ?_).trans (hOut more)⟩
    simp (disch := omega) only [channelDecodeSocks5, Proxied.feed, getD_feed, if_neg ho, ha,
      Bool.not_false, if_true]
  | true =>
    have hd : ¬ (!c.authDone) = true := by simp [ha]
    simp only [channelDecodeSocks5, if_neg ho, if_neg hd] at hNot
    have hLong : 5 ≤ c.input.length := by
      by_contra hs
      exact hNot (if_pos (by omega))
    have hs : ¬ c.input.length < 5 := by omega
    rw [if_neg hs] at hNot
    refine ⟨channelDecodeSocks5 inet c, fun more => congrArg ok ?_⟩
    have hSame : addrlen (c.input ++ more) = addrlen c.input ∧
      addrstart (c.input ++ more) = addrstart c.input ∧
      ∀ address, destination inet (c.input ++ more) address = destination inet c.input address := by
      simp (disch := omega) only [addrlen, addrstart, destination, getD_feed, and_self, implies_true]
    simp (disch := omega) only [channelDecodeSocks5, Proxied.feed, getD_feed, if_neg ho, if_neg hd,
      not_lt_feed, if_false, hs, hSame]
    split_ifs with hBad
    · rfl
    rw [if_neg hBad] at hNot
    cases hLen : addrlen c.input with
    | none => rfl
    | some len =>
      rw [hLen] at hNot
      have hw : addrstart c.input + len + 2 ≤ c.input.length := by
        by_contra hp
        exact hNot (if_pos (by omega))
      have hp : ¬ c.input.length < addrstart c.input + len + 2 := by omega
      simp (disch := omega) only [not_lt_feed, take_drop_feed, word16_feed, if_false, hp,
        drop_append_of_le_length hw]
      cases destination inet c.input ((c.input.drop (addrstart c.input)).take len) <;> rfl

/-! A look at the request. -/

lemma decodeSocks_decided (hs : 3 ≤ c.input.length) :
    decodeSocks inet c = .ok (c, [], .more) ∨ Decided (decodeSocks inet) c := by
  have hf (more : Bytes) := getD_feed (show 0 < c.input.length by omega) more
  unfold Decided
  simp only [decodeSocks, Proxied.feed, hf]
  split
  · exact channelDecodeSocks4_decided inet c
  · exact (channelDecodeSocks5_decided inet hs).imp_left (congrArg ok)
  · exact .inr ⟨(c, [], .bad), fun more => rfl⟩

lemma preDynamic_decided (c : Proxied) :
    clientStep inet c .preDynamic = .ok (c, []) ∨ Decided (clientStep inet · .preDynamic) c := by
  by_cases ht : (c.type = .other && !c.opening) = true
  · have hl (d : Proxied) (hd : (d.type = .other && !d.opening) = true) (hSome : ¬ d.input.length < 3) :
      clientStep inet d .preDynamic = _ := (if_pos hd).trans (if_neg hSome)
    by_cases hFew : c.input.length < 3
    · exact .inl ((if_pos ht).trans (if_pos hFew))
    rcases decodeSocks_decided inet (Nat.le_of_not_lt hFew) with hm | ⟨⟨out, shown, decoded⟩, hOut⟩
    · left
      rw [hl c ht hFew, hm]
      rfl
    · right
      have hs (more : Bytes) := hl (c.feed more) ht (not_lt_feed (Nat.le_of_not_lt hFew) more)
      simp only [hOut] at hs
      cases decoded with
      | bad => exact ⟨({ out with type := .zombie }, shown), hs⟩
      | more => exact ⟨(out, shown), hs⟩
      | done => exact ⟨({ out with opening := true }, shown ++ [Note.asked out.path out.hostPort]), hs⟩
  · exact .inl (if_neg ht)

lemma feed_nil (c : Proxied) : c.feed [] = c := by simp [Proxied.feed]

lemma preDynamic_ok (c : Proxied) : ∃ next notes, clientStep inet c .preDynamic = .ok (next, notes) := by
  rcases preDynamic_decided inet c with hs | ⟨out, hOut⟩
  · exact ⟨c, [], hs⟩
  · have hNow := hOut []
    rw [feed_nil, feed_nil] at hNow
    exact ⟨out.1, out.2, hNow⟩

variable {inet}

/-- How often a look can still change something. -/
def stage (c : Proxied) : Nat :=
  if c.type = .other && !c.opening then if c.authDone then 1 else 2 else 0

lemma stage_le (c : Proxied) : stage c ≤ 2 := by
  rw [stage]
  split_ifs <;> decide

lemma preDynamic_stage (h : clientStep inet c .preDynamic = .ok (next, notes)) :
    next = c ∧ notes = [] ∨ stage next < stage c := by
  rw [clientStep] at h
  split at h
  · next ht =>
    have hPre : stage c = if c.authDone then 1 else 2 := if_pos ht
    cases channelPreDynamic_cases h with
    | waits => exact .inl ⟨rfl, rfl⟩
    | dies input path port =>
      right
      rw [hPre]
      cases c.authDone <;> simp [stage]
    | greets input hf =>
      right
      rw [hPre, hf]
      simp [stage, ht]
    | asks input path port reply =>
      right
      rw [hPre]
      cases c.authDone <;> simp [stage]
  · cases h
    exact .inl ⟨rfl, rfl⟩

lemma preDynamic_rests (hStage : stage c ≤ 1) (h : clientStep inet c .preDynamic = .ok (next, notes)) :
    clientStep inet next .preDynamic = .ok (next, []) := by
  rcases preDynamic_stage h with ⟨rfl, rfl⟩ | hl
  · exact h
  · rw [clientStep, if_neg]
    intro ht
    rw [stage, if_pos ht] at hl
    split at hl <;> omega

lemma two_looks (inet : Inet) (c : Proxied) :
    ∃ last notes, run (clientStep inet) c [.preDynamic, .preDynamic] = .ok (last, notes) ∧
      clientStep inet last .preDynamic = .ok (last, []) := by
  obtain ⟨middle, first, hf⟩ := preDynamic_ok inet c
  obtain ⟨last, second, hSnd⟩ := preDynamic_ok inet middle
  refine ⟨last, first ++ (second ++ []), ?_, ?_⟩
  · simp only [run, hf, hSnd, ok_bind]
    rfl
  · have hBound := stage_le c
    rcases preDynamic_stage hf with ⟨rfl, rfl⟩ | hLess
    · cases hf.symm.trans hSnd
      exact hf
    · exact preDynamic_rests (by omega) hSnd

/-- A look before a read makes no difference to the looks after it. -/
lemma look_feed {first : List Note} {more : Bytes} (h : clientStep inet c .preDynamic = .ok (next, first))
    (hRun : run (clientStep inet) (next.feed more) [.preDynamic, .preDynamic] = .ok (last, notes)) :
    run (clientStep inet) (c.feed more) [.preDynamic, .preDynamic] = .ok (last, first ++ notes) := by
  rcases preDynamic_decided inet c with hs | ⟨⟨middle, shown⟩, hOut⟩
  · cases hs.symm.trans h
    exact hRun
  · have hNow := hOut []
    rw [feed_nil, feed_nil] at hNow
    cases h.symm.trans hNow
    rcases preDynamic_stage (hOut more) with ⟨hs, rfl⟩ | hl
    · rw [← hs]
      exact hRun
    · obtain ⟨final, second, hSnd⟩ := preDynamic_ok inet (middle.feed more)
      have hr := preDynamic_rests (Nat.le_of_lt_succ (hl.trans_le (stage_le _))) hSnd
      simp only [run, hSnd, hr, ok_bind] at hRun
      cases hRun
      simp only [run, hOut, hSnd, ok_bind]
      rfl

lemma run_looks (inet : Inet) (turns : List ClientTurn) (c : Proxied) :
    run (clientStep inet) c (turns ++ [.preDynamic, .preDynamic]) =
      run (clientStep inet) (c.feed (received turns)) [.preDynamic, .preDynamic] := by
  induction turns generalizing c with
  | nil => rw [received, feed_nil, nil_append]
  | cons turn turns ih =>
    cases turn with
    | reads bytes =>
      have hAll : (c.feed bytes).feed (received turns) = c.feed (bytes ++ received turns) := by
        simp [Proxied.feed]
      rw [received, ← hAll, ← ih]
      exact bind_pure (run (clientStep inet) (c.feed bytes) (turns ++ [.preDynamic, .preDynamic]))
    | preDynamic =>
      obtain ⟨next, first, hf⟩ := preDynamic_ok inet c
      obtain ⟨last, rest, hr, -⟩ := two_looks inet (next.feed (received turns))
      rw [received, look_feed hf hr]
      exact run_cons_eq_ok.2 ⟨next, first, rest, hf, (ih next).trans hr, rfl⟩

/-- After any reads from the client, with any number of looks at its request in between, two more
looks come to rest, and then the channel and all that it has shown is what one read of the whole
stream and two looks give. -/
theorem socks_cuts (inet : Inet) (turns : List ClientTurn) : ∃ last notes,
    run (clientStep inet) freshDynamic (turns ++ [.preDynamic, .preDynamic]) = .ok (last, notes) ∧
    clientStep inet last .preDynamic = .ok (last, []) ∧
    run (clientStep inet) freshDynamic [.reads (received turns), .preDynamic, .preDynamic] = .ok (last, notes) := by
  obtain ⟨last, notes, hLooks, hRests⟩ := two_looks inet (freshDynamic.feed (received turns))
  refine ⟨last, notes, (run_looks inet turns freshDynamic).trans hLooks, hRests, ?_⟩
  exact run_cons_eq_ok.2 ⟨_, [], notes, rfl, hLooks, rfl⟩

end Channel
