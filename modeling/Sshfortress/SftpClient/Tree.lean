import Sshfortress.SftpClient.Basic

/-! Recursive downloads stay below the directory that they are for, whatever names and types
the server sends, and ask for what was listed. A name with a slash is dropped when the listing
is read, and `..` is skipped when it is said to be a directory. When it is said to be a file,
only the local system keeps the client from writing to it. -/
namespace SftpClient

open Base Base.Wire List
open Sftp (Attrib attribClear hasFlag attrAcmodtime attrPermissions fxfRead)
open scoped List

/-! Paths. -/

/-- A name that stays in its directory. -/
def Plain (name : Bytes) : Prop := name ≠ text ".." ∧ 47 ∉ name

/-- The path is reached by at most so many names that stay in their directory. -/
def Below (dst : Bytes) (levels : Nat) (path : Bytes) : Prop :=
  ∃ parts : List Bytes, parts.length ≤ levels ∧ (∀ name ∈ parts, Plain name) ∧ path = parts.foldl pathAppend dst

/-- The last component is `..`, so that the path is that of a directory, if there is one. -/
def NamesParent (path : Bytes) : Prop := path = text ".." ∨ text "/.." <:+ path
  deriving Decidable

lemma below_self (dst : Bytes) (levels : Nat) : Below dst levels dst :=
  ⟨[], Nat.zero_le _, forall_mem_nil _, rfl⟩

variable {dst path : Bytes} {levels : Nat} {trace : Events}

lemma Below.step {name : Bytes} (h : Below dst levels path) (hn : Plain name) :
    Below dst (levels + 1) (pathAppend path name) := by
  obtain ⟨parts, hLen, hp, rfl⟩ := h
  refine ⟨parts ++ [name], ?_, forall_mem_append.2 ⟨hp, forall_mem_singleton.2 hn⟩, ?_⟩
  · rw [length_append, length_singleton]
    omega
  · rw [foldl_append]
    rfl

lemma Below.mono {more : Nat} (h : Below dst levels path) (hLe : levels ≤ more) : Below dst more path :=
  h.imp fun _ hp => ⟨hp.1.trans hLe, hp.2⟩

lemma namesParent_pathAppend (dir : Bytes) : NamesParent (pathAppend dir (text "..")) := by
  unfold pathAppend
  split_ifs with hs
  · exact .inr ⟨dir, by rw [append_assoc]; rfl⟩
  · rcases eq_nil_or_concat dir with rfl | ⟨front, last, rfl⟩
    · exact .inl rfl
    · right
      have hl : last = 47 := by simpa using hs
      subst hl
      exact ⟨front, by rw [concat_eq_append, append_assoc]; rfl⟩

/-! What is allowed. -/

def openAfter (fd : Nat) (found : Option Bytes) : Event Call Answer → Option Bytes
  | ⟨.open path _ _, some opened⟩ => if opened = fd then some path else found
  | ⟨.close closed, _⟩ => if closed = fd then none else found
  | _ => found

def openPath (past : Events) (fd : Nat) : Option Bytes := past.foldl (openAfter fd) none

/-- Whatever is created or changed is below `dst`. A path that ends in `..` may be tried. -/
def Proper (dst : Bytes) (past : Events) : Call → Prop
  | .mkdir path _ => Below dst (maxDirDepth - 1) path
  | .utimes path _ _ => Below dst maxDirDepth path
  | .open path _ _ => Below dst maxDirDepth path ∨ NamesParent path
  | .store fd _ _ | .ftruncate fd _ | .fchmod fd _ | .fsync fd =>
    ∃ path, openPath past fd = some path ∧ Below dst maxDirDepth path
  | _ => True

/-- A directory cannot be opened for writing. -/
def DirectoriesShut (trace : Events) : Prop :=
  ∀ path flags mode fd, NamesParent path → (⟨.open path flags mode, some fd⟩ : Event Call Answer) ∉ trace

def Allowed (dst : Bytes) (past : Events) (call : Call) : Prop := DirectoriesShut past → Proper dst past call

lemma DirectoriesShut.left {later : Events} (h : DirectoriesShut (trace ++ later)) :
    DirectoriesShut trace :=
  fun path flags mode fd hp hMem => h path flags mode fd hp (mem_append_left _ hMem)

def Quiet : Call → Prop
  | .mkdir .. | .utimes .. | .open .. | .store .. | .ftruncate .. | .fchmod .. | .fsync _ => False
  | _ => True

lemma allowed_of_quiet {past : Events} {call : Call} (h : Quiet call) : Allowed dst past call := by
  intro _
  cases call with
  | mkdir path mode => exact h.elim
  | utimes path atime mtime => exact h.elim
  | «open» path flags mode => exact h.elim
  | store fd offset data => exact h.elim
  | ftruncate fd size => exact h.elim
  | fchmod fd mode => exact h.elim
  | fsync fd => exact h.elim
  | _ => trivial

/-- After any calls, only allowed calls are made, and a return comes with the postcondition
on the calls of its own. -/
def Walks {α : Type} (dst : Bytes) (post : α → Events → Prop) (m : ClientM α) : Prop :=
  ∀ conn past, Handler.Meets (fun later => Allowed dst (past ++ later)) (fun a _ trace => post a trace) m conn

section Walks

variable {α β : Type} {dst : Bytes} {post : α → Events → Prop}

lemma Walks.pure {a : α} (h : post a []) : Walks dst post (pure a : ClientM α) := fun _ _ => h

lemma Walks.get {post : Conn → Events → Prop} (h : ∀ conn, post conn []) : Walks dst post (get : ClientM Conn) :=
  fun conn _ => h conn

lemma Walks.fatal : Walks dst post (fatal : ClientM α) := fun _ _ => trivial

variable {m : ClientM α}

lemma Walks.bind {post : β → Events → Prop} {f : α → ClientM β}
    (h : Walks dst (fun a trace => Walks dst (fun b later => post b (trace ++ later)) (f a)) m) :
    Walks dst post (m >>= f) := by
  intro conn past
  rw [Handler.meets_bind]
  refine (h conn past).mono (fun _ _ hMay => hMay) fun a next trace hn => ?_
  refine (hn next (past ++ trace)).mono ?_ fun _ _ _ hp => hp
  intro later call hMay
  rwa [append_assoc] at hMay

lemma Walks.mono {other : α → Events → Prop} (h : Walks dst post m)
    (hp : ∀ a trace, post a trace → other a trace) : Walks dst other m :=
  fun conn past => (h conn past).mono (fun _ _ hMay => hMay) fun a _ trace => hp a trace

lemma Walks.ask {call : Call} {post : Answer call → Events → Prop} (hc : ∀ past, Allowed dst past call)
    (h : ∀ answer, post answer [⟨call, answer⟩]) : Walks dst post (ask call) :=
  fun _ past => Handler.meets_ask.2 ⟨hc (past ++ []), h⟩

lemma Walks.of_quiet (hq : Within Quiet m)
    (h : ∀ conn, Gives (fun a _ trace => post a trace) m conn) : Walks dst post m := by
  intro conn past
  refine (Prog.Meets.and (hq conn) (h conn)).mono ?_ fun _ _ hp => hp.2
  rintro later call ⟨hc, -⟩
  exact allowed_of_quiet hc

end Walks

/-! What was listed, and what was asked for. -/

/-- The remote paths of the files that were asked for. -/
def requestOf : Event Call Answer → Option Bytes
  | ⟨.send (.open _ path _ _), _⟩ => some path
  | _ => none

def requested (trace : Events) : List Bytes := trace.filterMap requestOf

/-- The path under which an entry is to be asked for, if it is one of a regular file. -/
def regularPath (src : Bytes) (entry : Dirent) : List Bytes :=
  if isReg entry.a.perm then [pathAppend src entry.filename] else []

/-- The listing under way, and those that are over. -/
structure Survey where
  path : Bytes
  pending : List Dirent
  listed : List (Bytes × List Dirent)

/-- A listing is over when the server says so or when the user interrupts it. One that the
server refuses to go on with, or that cannot be read, is given up. -/
def survey (s : Survey) : Event Call Answer → Survey
  | ⟨.send (.opendir _ path), _⟩ => { s with path := path, pending := [] }
  | ⟨.getMsg (.names _), some msg⟩ =>
    match (header msg).map fun reply => readNames reply.1.1 reply.2 with
    | some (.ok (.more found)) => { s with pending := s.pending ++ found }
    | some (.ok .finished) => { s with pending := [], listed := s.listed ++ [(s.path, s.pending)] }
    | _ => { s with pending := [] }
  | ⟨.interrupted, true⟩ => { s with pending := [], listed := s.listed ++ [(s.path, s.pending)] }
  | _ => s

def Survey.wanted (s : Survey) : List Bytes := s.listed.flatMap fun listing => listing.2.flatMap (regularPath listing.1)

def wanted (trace : Events) : List Bytes := (trace.foldl survey ⟨[], [], []⟩).wanted

/-- The listings in the trace hold these files; none is left open. -/
def Lists (trace : Events) (due : List Bytes) : Prop :=
  ∀ s : Survey, s.pending = [] →
    (trace.foldl survey s).pending = [] ∧ (trace.foldl survey s).wanted = s.wanted ++ due

/-- The files of the listings and some more are asked for, each at most once, and all of them
without an interrupt. -/
def Follows (more : List Bytes) (trace : Events) : Prop :=
  ∃ due, Lists trace due ∧ requested trace <+~ more ++ due ∧ (Uninterrupted trace → requested trace ~ more ++ due)

section Trace

variable {trace later : Events} {due dueLater more moreLater : List Bytes}

lemma requested_append : requested (trace ++ later) = requested trace ++ requested later := filterMap_append ..

lemma Lists.append (h : Lists trace due) (hl : Lists later dueLater) : Lists (trace ++ later) (due ++ dueLater) := by
  intro s hp
  obtain ⟨hMid, hw⟩ := h s hp
  obtain ⟨hEnd, hm⟩ := hl _ hMid
  rw [foldl_append]
  exact ⟨hEnd, by rw [hm, hw, append_assoc]⟩

lemma Follows.append (h : Follows more trace) (hLater : Follows moreLater later) :
    Follows (more ++ moreLater) (trace ++ later) := by
  obtain ⟨due, hLists, hSub, hAll⟩ := h
  obtain ⟨dueLater, hl, hSubLater, ha⟩ := hLater
  have hs : (more ++ due) ++ (moreLater ++ dueLater) ~ (more ++ moreLater) ++ (due ++ dueLater) := by
    rw [append_assoc, append_assoc, ← append_assoc due, ← append_assoc moreLater]
    exact (perm_append_comm.append_right dueLater).append_left more
  refine ⟨due ++ dueLater, hLists.append hl, ?_, fun hq => ?_⟩
  · rw [requested_append]
    exact (hSub.append hSubLater).trans hs.subperm
  · rw [requested_append]
    exact ((hAll hq.left).append (ha hq.right)).trans hs

/-- The calls that neither list a directory nor open a remote file. -/
def Unlisted : Call → Prop
  | .send (.open ..) | .send (.opendir ..) | .getMsg (.names _) => False
  | _ => True

lemma lists_of_unlisted (h : ∀ event ∈ trace, Unlisted event.request) : Lists trace [] ∧ requested trace = [] := by
  induction trace with
  | nil => exact ⟨fun s hp => ⟨hp, (append_nil _).symm⟩, rfl⟩
  | cons event trace ih =>
    obtain ⟨hh, ht⟩ := forall_mem_cons.1 h
    obtain ⟨hl, hr⟩ := ih ht
    have hk : (∀ s, survey s event = s) → requestOf event = none →
      Lists (event :: trace) [] ∧ requested (event :: trace) = [] := by
      intro hs hn
      refine ⟨fun s hp => ?_, ?_⟩
      · rw [foldl_cons, hs]
        exact hl s hp
      · rw [requested, filterMap_cons_none hn]
        exact hr
    obtain ⟨call, answer⟩ := event
    cases call with
    | send r =>
      cases r with
      | «open» id path pflags a => exact hh.elim
      | opendir id path => exact hh.elim
      | _ => exact hk (fun _ => rfl) rfl
    | getMsg awaited =>
      cases awaited with
      | names id => exact hh.elim
      | _ => exact hk (fun _ => rfl) rfl
    | interrupted =>
      cases answer with
      | false => exact hk (fun _ => rfl) rfl
      | true =>
        refine ⟨fun s hp => ?_, hr⟩
        obtain ⟨hEnd, hw⟩ := hl (survey s ⟨.interrupted, true⟩) rfl
        refine ⟨hEnd, hw.trans ?_⟩
        simp [survey, Survey.wanted, hp]
    | _ => exact hk (fun _ => rfl) rfl

lemma follows_of_unlisted (h : ∀ event ∈ trace, Unlisted event.request) : Follows [] trace := by
  obtain ⟨hl, hr⟩ := lists_of_unlisted h
  refine ⟨[], hl, ?_, fun _ => ?_⟩
  · rw [hr]
    exact List.Subperm.refl _
  · rw [hr]
    exact List.Perm.refl _

end Trace

/-! Listings. -/

section Listing

variable {path handle : Bytes} {conn : Conn} {entries : List Dirent} {body : Bytes}
  {trace later : Events} {ended : List (Bytes × List Dirent)}

lemma names_plain {count : Nat} (h : names count body = .ok (some entries)) :
    ∀ entry ∈ entries, 47 ∉ entry.filename := by
  induction count generalizing body entries with
  | zero =>
    cases h
    exact forall_mem_nil _
  | succ count ih =>
    rw [names] at h
    split at h
    · cases h
    · split at h
      · cases h
      · obtain ⟨found, -, h⟩ := bind_eq_ok.1 h
        cases found with
        | none => cases h
        | some found =>
          obtain ⟨rest, hr, h⟩ := bind_eq_ok.1 h
          cases rest with
          | none => cases h
          | some rest =>
            split_ifs at h with hs
            · cases h
              exact ih hr
            · cases h
              exact forall_mem_cons.2 ⟨hs, ih hr⟩

lemma readNames_plain {type : UInt8} (h : readNames type body = .ok (.more entries)) :
    ∀ entry ∈ entries, 47 ∉ entry.filename := by
  unfold readNames at h
  split_ifs at h with hStat hName
  · split at h
    · cases h
    · split_ifs at h <;> cases h
  · split at h
    · cases h
    · split_ifs at h with hCount
      · cases h
      · obtain ⟨found, hf, hm⟩ := map_eq_ok.1 h
        cases found with
        | none => cases hm
        | some found =>
          cases hm
          exact names_plain hf

/-- What a trace with the replies to READDIR adds to the survey of a listing that begins. -/
def Surveyed (path : Bytes) (trace : Events) (pending : List Dirent) (ended : List (Bytes × List Dirent)) : Prop :=
  requested trace = [] ∧ ∀ listed, trace.foldl survey ⟨path, [], listed⟩ = ⟨path, pending, listed ++ ended⟩

/-- The loop over the replies ends with a listing that is over or given up. -/
def LoopOver (path : Bytes) (trace : Events) : Listing → Prop
  | .complete entries => (∀ entry ∈ entries, 47 ∉ entry.filename) ∧ Surveyed path trace [] [(path, entries)]
  | _ => Surveyed path trace [] []

def LoopGoes (path : Bytes) (trace : Events) (entries : List Dirent) : Prop :=
  (∀ entry ∈ entries, 47 ∉ entry.filename) ∧ Surveyed path trace entries []

lemma surveyed_nil (path : Bytes) : Surveyed path [] [] [] :=
  ⟨rfl, fun listed => by rw [append_nil, foldl_nil]⟩

lemma Surveyed.snoc {pending : List Dirent} (h : Surveyed path trace entries [])
    (hn : requested later = [])
    (hNext : ∀ listed, later.foldl survey ⟨path, entries, listed⟩ = ⟨path, pending, listed ++ ended⟩) :
    Surveyed path (trace ++ later) pending ended := by
  refine ⟨by rw [requested_append, h.1, hn, append_nil], fun listed => ?_⟩
  rw [foldl_append, h.2, append_nil]
  exact hNext listed

def Survey.names (s : Survey) : Except Stop Names → Survey
  | .ok (.more found) => { s with pending := s.pending ++ found }
  | .ok .finished => { s with pending := [], listed := s.listed ++ [(s.path, s.pending)] }
  | _ => { s with pending := [] }

lemma gives_readdirRound {past : Events} (h : LoopGoes path past entries) :
    Gives (fun step next later => Handler.roundPost (fun listing _ past => LoopOver path past listing)
      (fun listing _ past => ∃ entries, listing = .complete entries ∧ LoopGoes path past entries)
      step next (past ++ later)) (readdirRound handle entries) conn := by
  refine .bind (.interrupted fun stopped => ?_)
  cases stopped with
  | true =>
    exact ⟨h.1, h.2.snoc rfl fun _ => rfl⟩
  | false =>
    refine .bind (.nextId (.bind (.sendMsg (.bind ?_))))
    refine .getReply fun msg type body hHdr => ?_
    dsimp only
    have hs (s : Survey) : survey s ⟨.getMsg (.names conn.msgId), some msg⟩ = s.names (readNames type body) := by
      simp only [survey, hHdr, Option.map_some]
      cases readNames type body with
      | error reason => rfl
      | ok found => cases found <;> rfl
    have hGo {pending : List Dirent} {ended : List (Bytes × List Dirent)} (hNext : ∀ listed,
      survey ⟨path, entries, listed⟩ ⟨.getMsg (.names conn.msgId), some msg⟩ = ⟨path, pending, listed ++ ended⟩) :
      Surveyed path (past ++ [⟨.interrupted, false⟩, ⟨.send (.readdir conn.msgId handle), ()⟩,
        ⟨.getMsg (.names conn.msgId), some msg⟩]) pending ended :=
      h.2.snoc rfl hNext
    have hg (listed : List (Bytes × List Dirent)) : Survey.mk path [] listed = ⟨path, [], listed ++ []⟩ := by
      rw [append_nil]
    cases hn : readNames type body with
    | error reason => trivial
    | ok found =>
      simp only [hn, Survey.names] at hs
      cases found with
      | more found =>
        refine ⟨entries ++ found, rfl, forall_mem_append.2 ⟨h.1, readNames_plain hn⟩, ?_⟩
        exact hGo fun listed => (hs _).trans (by rw [append_nil])
      | finished => exact ⟨h.1, hGo fun _ => hs _⟩
      | refused => exact hGo fun listed => (hs _).trans (hg listed)
      | undecoded => exact hGo fun listed => (hs _).trans (hg listed)

lemma gives_readdirLoop (path : Bytes) (rounds : Nat) :
    Gives (fun listing _ trace => LoopOver path trace listing) (readdirLoop rounds handle) conn := by
  refine .iterate (fun listing _ past => ∃ entries, listing = .complete entries ∧ LoopGoes path past entries)
    ?_ rounds ⟨[], rfl, forall_mem_nil _, surveyed_nil path⟩
  rintro listing now past ⟨entries, rfl, hg⟩
  exact gives_readdirRound hg

/-- The entries that a listing gives are those of the listing, or none after an interrupt. -/
def Listed (path : Bytes) (entries : List Dirent) (trace : Events) : Prop :=
  ∃ listing : List Dirent, Lists trace (listing.flatMap (regularPath path)) ∧ requested trace = [] ∧
    (∀ entry ∈ entries, 47 ∉ entry.filename) ∧ (entries = listing ∨ (entries = [] ∧ ¬ Uninterrupted trace))

lemma Listed.follows (h : Listed path entries trace)
    (hLater : Follows (entries.flatMap (regularPath path)) later) : Follows [] (trace ++ later) := by
  obtain ⟨listing, hLists, hn, -, hs⟩ := h
  obtain ⟨due, hl, hSub, hAll⟩ := hLater
  refine ⟨_, hLists.append hl, ?_, fun hq => ?_⟩
  · rw [requested_append, hn]
    refine hSub.trans ((subperm_append_right _).2 ?_)
    rcases hs with rfl | ⟨rfl, -⟩
    · exact List.Subperm.refl _
    · exact nil_subperm
  · obtain rfl := hs.resolve_right fun hSeen => hSeen.2 hq.left
    rw [requested_append, hn]
    exact hAll hq.right

lemma Surveyed.listed {loop rest : Events} {listing : List Dirent} {id : Nat} {msg : Bytes}
    (h : Surveyed path loop [] ended) (hr : ∀ event ∈ rest, Unlisted event.request)
    (ho : (Survey.mk path [] ended).wanted = listing.flatMap (regularPath path))
    (hp : ∀ entry ∈ entries, 47 ∉ entry.filename)
    (hs : entries = listing ∨ (entries = [] ∧ (⟨.interrupted, true⟩ : Event Call Answer) ∈ rest)) :
    Listed path entries
      ([⟨.send (.opendir id path), ()⟩] ++ ([⟨.getMsg (.reply id), some msg⟩] ++ (loop ++ rest))) := by
  obtain ⟨hl, hn⟩ := lists_of_unlisted hr
  refine ⟨listing, fun s _ => ?_, ?_, hp, hs.imp_right fun hNo => ⟨hNo.1, fun hq => hq ?_⟩⟩
  · have hEnd := hl ⟨path, [], s.listed ++ ended⟩ rfl
    rw [← h.2 s.listed, ← foldl_append] at hEnd
    refine ⟨hEnd.1, hEnd.2.trans ?_⟩
    rw [append_nil, h.2, ← ho]
    simp [Survey.wanted]
  · rw [requested_append, requested_append, requested_append, h.1, hn]
    rfl
  · simp [hNo.2]

lemma unlisted_doClose (handle : Bytes) : Within Unlisted (doClose handle) :=
  .doClose (fun _ => trivial) fun _ => trivial

lemma gives_doReaddir (rounds : Nat) :
    Gives (fun found _ trace => Listed path (found.getD []) trace) (doReaddir rounds path) conn := by
  refine .bind (.nextId (.bind (.sendMsg (.bind ?_))))
  refine .getHandle fun handle msg => ?_
  cases handle with
  | none => exact (surveyed_nil path).listed (forall_mem_nil _) rfl (forall_mem_nil _) (.inl rfl)
  | some handle =>
    refine .bind ((gives_readdirLoop path rounds).mono ?_)
    intro listing now loop hl
    -- A listing that was given up counts as empty.
    cases listing with
    | undecoded => exact Surveyed.listed hl (forall_mem_nil _) rfl (forall_mem_nil _) (.inl rfl)
    | refused =>
      refine .bind (((unlisted_doClose handle).events now).mono ?_)
      rintro closed next talk ⟨-, ht⟩
      refine Surveyed.listed hl ?_ rfl (forall_mem_nil _) (.inl rfl)
      exact forall_mem_append.2 ⟨ht, forall_mem_nil _⟩
    | complete entries =>
      obtain ⟨hp, hs⟩ := hl
      refine .bind (((unlisted_doClose handle).events now).mono ?_)
      rintro closed next talk ⟨-, ht⟩
      refine .bind (.interrupted fun stopped => ?_)
      have hr : ∀ event ∈ (talk ++ [⟨.interrupted, stopped⟩] : Events), Unlisted event.request :=
        forall_mem_append.2 ⟨ht, forall_mem_singleton.2 trivial⟩
      have ho : (Survey.mk path [] [(path, entries)]).wanted = entries.flatMap (regularPath path) := by
        simp [Survey.wanted]
      cases stopped with
      | true => exact hs.listed hr ho (forall_mem_nil _) (.inr ⟨rfl, by simp⟩)
      | false => exact hs.listed hr ho hp (.inl rfl)

lemma quiet_doReaddir (rounds : Nat) : Within Quiet (doReaddir rounds path) := by
  have hc : ∀ handle, Within Quiet (doClose handle) := fun _ => .doClose (fun _ => trivial) fun _ => trivial
  have hr : ∀ (handle : Bytes) (entries : List Dirent), Within Quiet (readdirRound handle entries) := by
    intro handle entries
    refine .bind (.ask trivial) fun stopped => ?_
    refine .ite (.pure _) (.bind .nextId fun id => ?_)
    refine .bind (.sendMsg trivial) fun _ => .bind (.getReply trivial id) fun reply => ?_
    dsimp only
    cases readNames reply.1 reply.2 with
    | error reason => exact .stop reason
    | ok found =>
      cases found with
      | _ => exact .pure _
  refine .bind .nextId fun id => .bind (.sendMsg trivial) fun _ => ?_
  refine .bind (.getHandle trivial) fun handle => ?_
  cases handle with
  | none => exact .pure _
  | some handle =>
    have hl : Within Quiet (readdirLoop rounds handle) := by
      refine .iterate (fun listing => ?_) rounds _
      cases listing with
      | complete entries => exact hr handle entries
      | _ => exact .pure _
    refine .bind hl fun listing => ?_
    cases listing with
    | undecoded => exact .pure _
    | refused => exact .bind (hc handle) fun _ => .pure _
    | complete entries =>
      exact .bind (hc handle) fun _ => .bind (.ask trivial) fun _ =>
        .ite (.pure _) (.pure _)

end Listing

/-! Downloads. -/

/-- The calls of a download between the opening and the closing of the local file. -/
def Using (localPath : Bytes) (fd : Nat) : Call → Prop
  | .send (.open ..) | .send (.opendir ..) | .getMsg (.names _) | .open .. | .mkdir .. | .close _ => False
  | .utimes path _ _ => path = localPath
  | .store used _ _ | .ftruncate used _ | .fchmod used _ | .fsync used => used = fd
  | _ => True

section Download

variable {dst localPath handle : Bytes} {fd size : Nat} {past : Events} {conn : Conn} {call : Call}
  {later : Events} {α : Type}

lemma unlisted_of_using (h : Using localPath fd call) : Unlisted call := by
  cases call with
  | send r =>
    cases r with
    | «open» id path pflags a => exact h
    | opendir id path => exact h
    | _ => trivial
  | getMsg awaited =>
    cases awaited with
    | names id => exact h
    | _ => trivial
  | _ => trivial

lemma using_doClose : Within (Using localPath fd) (doClose handle) := .doClose (fun _ => trivial) fun _ => trivial

lemma using_startOffset (resume : Bool) : Within (Using localPath fd) (startOffset fd size resume) := by
  refine .ite (.bind (.ask trivial) fun found => ?_) (.pure _)
  cases (found : Option Stat) with
  | none => exact .pure _
  | some st => exact .ite (.pure _) (.ite (.pure _) (.pure _))

lemma using_sendReads (count : Nat) (d : Download) : Within (Using localPath fd) (sendReads handle count d) := by
  induction count generalizing d with
  | zero => exact .pure d
  | succ count ih =>
    exact .bind .nextId fun id => .bind (.sendMsg trivial) fun _ => ih _

lemma using_receive (d : Download) : Within (Using localPath fd) (receive fd handle size d) := by
  have hd : ∀ d before req after data, Within (Using localPath fd) (receiveData fd handle size d before req after data) :=
    fun d before req after data => .bind (.ask rfl) fun _ => .bind .get fun _ =>
      .ite (.pure _) (.bind .nextId fun _ => .bind (.sendMsg trivial) fun _ =>
        .pure _)
  refine .bind (.getMsg trivial) fun msg => .bind (.need _) fun reply => ?_
  refine .bind (.need _) fun place => ?_
  refine .ite (.bind (.need _) fun _ => .pure _) (.ite ?_ .fatal)
  exact .bind (.need _) fun _ => .ite .fatal (hd _ _ _ _ _)

lemma using_downloadRound (d : Download) : Within (Using localPath fd) (downloadRound fd handle size d) :=
  .ite (.pure _) (.bind (.ask trivial) fun _ => .ite (.pure _)
    (.bind (using_sendReads _ _) fun _ => .bind (using_receive _) fun _ => .pure _))

lemma using_downloadStatus (a : Attrib) (mode : Nat) (preserve fsync : Bool) (d : Download) :
    Within (Using localPath fd) (downloadStatus fd handle localPath a mode preserve fsync d) := by
  refine .ite (.bind using_doClose fun _ => .pure _)
    (.ite (.bind using_doClose fun _ => .pure _) (.bind using_doClose fun closed => ?_))
  refine .bind (.ite (.ask trivial) (.pure _)) fun failed => ?_
  refine .bind (.optionally (.bind (.ask rfl) fun _ => .optionally
    (.bind (.ask rfl) fun _ => .pure _))) fun _ => ?_
  exact .bind (.optionally (.bind (.ask rfl) fun _ => .pure _)) fun _ => .pure _

/-- The descriptor is the one of the local file, if no directory could be opened. -/
def Holding (dst localPath : Bytes) (fd : Nat) (past : Events) : Prop :=
  DirectoriesShut past → openPath past fd = some localPath ∧ Below dst maxDirDepth localPath

lemma openPath_append_using (h : ∀ event ∈ later, Using localPath fd event.request) :
    openPath (past ++ later) fd = openPath past fd := by
  unfold openPath
  rw [foldl_append]
  induction later generalizing past with
  | nil => rfl
  | cons event later ih =>
    obtain ⟨hh, ht⟩ := forall_mem_cons.1 h
    have hs : ∀ found, openAfter fd found event = found := by
      intro found
      obtain ⟨call, answer⟩ := event
      cases call with
      | «open» path flags mode => exact hh.elim
      | close closed => exact hh.elim
      | _ => rfl
    rw [foldl_cons, hs]
    exact ih ht

lemma Holding.allowed (h : Holding dst localPath fd past) (hc : Using localPath fd call) :
    Allowed dst past call := by
  intro hs
  obtain ⟨hp, hb⟩ := h hs
  cases call with
  | «open» path flags mode => exact hc.elim
  | mkdir path mode => exact hc.elim
  | utimes path atime mtime =>
    cases hc
    exact hb
  | store used offset data =>
    cases hc
    exact ⟨localPath, hp, hb⟩
  | ftruncate used size =>
    cases hc
    exact ⟨localPath, hp, hb⟩
  | fchmod used mode =>
    cases hc
    exact ⟨localPath, hp, hb⟩
  | fsync used =>
    cases hc
    exact ⟨localPath, hp, hb⟩
  | _ => trivial

lemma Holding.append (h : Holding dst localPath fd past)
    (hl : ∀ event ∈ later, Using localPath fd event.request) :
    Holding dst localPath fd (past ++ later) := by
  intro hs
  rw [openPath_append_using hl]
  exact h hs.left

lemma holding_open (hPath : Below dst maxDirDepth localPath ∨ NamesParent localPath) (past : Events)
    (flags mode fd : Nat) : Holding dst localPath fd (past ++ [⟨.open localPath flags mode, some fd⟩]) := by
  intro hs
  refine ⟨?_, hPath.resolve_right fun hp => ?_⟩
  · rw [openPath, foldl_append]
    exact if_pos rfl
  · exact hs localPath flags mode fd hp (mem_append_right _ (mem_singleton_self _))

lemma Holding.meets_bind {β : Type} (h : Holding dst localPath fd past) {m : ClientM α}
    {f : α → ClientM β} (hm : Within (Using localPath fd) m)
    (hf : ∀ a next later, Holding dst localPath fd (past ++ later) →
      Handler.Meets (fun rest => Allowed dst (past ++ later ++ rest))
        (fun _ _ rest => ∀ event ∈ rest, Unlisted event.request) (f a) next) :
    Handler.Meets (fun later => Allowed dst (past ++ later)) (fun _ _ trace => ∀ event ∈ trace, Unlisted event.request)
      (m >>= f) conn := by
  rw [Handler.meets_bind]
  refine (Prog.Meets.of_only (hm conn) fun trace call ht hc => (h.append ht).allowed hc).mono
    (fun _ _ hc => hc) ?_
  rintro ⟨a, next⟩ trace ⟨-, ht⟩
  refine (hf a next trace (h.append ht)).mono ?_ ?_
  · intro later call hc
    rwa [append_assoc] at hc
  · intro b last later hl
    exact forall_mem_append.2 ⟨fun event he => unlisted_of_using (ht event he), hl⟩

lemma meets_closeFd (a : α) (fd : Nat) :
    Handler.Meets (fun rest => Allowed dst (past ++ rest)) (fun _ _ rest => ∀ event ∈ rest, Unlisted event.request)
      (do let _ ← closeFd fd; return a : ClientM α) conn := by
  have hc : Quiet (.close fd) := trivial
  exact ⟨allowed_of_quiet hc, fun _ => forall_mem_singleton.2 trivial⟩

section
variable (hp : Below dst maxDirDepth localPath ∨ NamesParent localPath)
include hp

lemma walks_downloadHandle (rounds buflen : Nat)
    (a : Attrib) (preserve resume fsync : Bool) :
    Walks dst (fun _ trace => ∀ event ∈ trace, Unlisted event.request)
      (downloadHandle rounds buflen handle localPath a preserve resume fsync) := by
  intro conn past
  refine (Handler.meets_bind _ _).2 (Handler.meets_ask.2 ⟨fun _ => hp, fun answer => ?_⟩)
  cases answer with
  | none =>
    have hClose : Within Quiet (do let _ ← doClose handle; return -1 : ClientM Int) :=
      .bind (.doClose (fun _ => trivial) fun _ => trivial) fun _ => .pure _
    refine (Prog.Meets.and (hClose conn) ((unlisted_doClose handle).bind (fun _ => .pure _) |>.events conn)).mono
      ?_ ?_
    · rintro later call ⟨hc, -⟩
      exact allowed_of_quiet hc
    · rintro a trace ⟨-, -, ht⟩
      exact forall_mem_cons.2 ⟨trivial, ht⟩
  | some fd =>
    have hh := holding_open hp past (Sftp.oWronly ||| Sftp.oCreat ||| if resume then 0 else Sftp.oTrunc)
      ((if hasFlag a.flags attrPermissions then a.perm &&& 0o777 else 0o666) ||| 0o200) fd
    refine Handler.Meets.mono (hh.meets_bind (using_startOffset resume) fun found next later hl => ?_) ?_ ?_
    · cases found with
      | none => exact hl.meets_bind using_doClose fun _ _ _ _ => meets_closeFd _ _
      | some start =>
        refine hl.meets_bind (.iterate using_downloadRound rounds _) fun d now loop hLoop => ?_
        by_cases hd : d.requests = []
        · rw [if_neg (not_not.2 hd)]
          refine hLoop.meets_bind (.ite (.pure _) (.ask trivial)) fun cut _ _ hCut => ?_
          refine hCut.meets_bind (.optionally (.bind (.ask rfl) fun _ => .pure _))
            fun _ _ _ hEnd => ?_
          exact hEnd.meets_bind (using_downloadStatus _ _ _ _ _) fun _ _ _ _ => meets_closeFd _ _
        · rw [if_pos hd]
          trivial
    · intro later call hc
      rwa [append_assoc] at hc
    · intro status last trace ht
      exact forall_mem_cons.2 ⟨trivial, ht⟩

lemma walks_doDownload {a : Attrib}
    (hReg : isReg a.perm = true) (rounds : Nat) (remotePath : Bytes) (preserve resume fsync : Bool) :
    Walks dst (fun _ trace => Follows [remotePath] trace)
      (doDownload rounds remotePath localPath (some a) preserve resume fsync) := by
  -- After the one request to open, nothing is listed or opened.
  have ho : ∀ (id : Nat) (msg : Bytes) (rest : Events), (∀ event ∈ rest, Unlisted event.request) →
    Follows [remotePath] ([⟨.send (.open id remotePath fxfRead attribClear), ()⟩] ++
      ([⟨.getMsg (.reply id), some msg⟩] ++ rest)) := by
    intro id msg rest hr
    have hl : ∀ event ∈ ([⟨.getMsg (.reply id), some msg⟩] ++ rest : Events), Unlisted event.request :=
      forall_mem_append.2 ⟨forall_mem_singleton.2 trivial, hr⟩
    have hOpen : Follows [remotePath] [⟨.send (.open id remotePath fxfRead attribClear), ()⟩] :=
      ⟨[], fun s hPend => ⟨hPend, (append_nil _).symm⟩, List.Subperm.refl _, fun _ => List.Perm.refl _⟩
    exact hOpen.append (follows_of_unlisted hl)
  have hOpens : Walks dst (fun found trace => ∃ id msg, found.1 = id ∧
    trace = [⟨.send (.open id remotePath fxfRead attribClear), ()⟩, ⟨.getMsg (.reply id), some msg⟩])
    (openRemote remotePath fxfRead attribClear) := by
    refine Walks.of_quiet (.openRemote (fun _ => trivial) fun _ => trivial) fun conn => ?_
    refine .bind (.nextId (.bind (.sendMsg (.bind ?_))))
    exact .getHandle fun handle msg => ⟨conn.msgId, msg, rfl, rfl⟩
  refine .bind (.pure ?_)
  have hRegular : ¬ (hasFlag a.flags attrPermissions && !isReg a.perm) = true := by simp [hReg]
  dsimp only
  rw [if_neg hRegular]
  refine .bind (.get fun conn => .bind (hOpens.mono ?_))
  rintro ⟨id, handle⟩ trace ⟨_, msg, rfl, rfl⟩
  cases handle with
  | none => exact .pure (ho id msg [] (forall_mem_nil _))
  | some handle =>
    exact (walks_downloadHandle hp rounds _ a preserve resume fsync).mono fun _ rest hr => ho id msg rest hr

end

end Download

/-! The tree. -/

section Tree

variable {dst : Bytes}

lemma follows_nil : Follows [] [] := follows_of_unlisted (forall_mem_nil _)

lemma walks_talk {α : Type} {m : ClientM α} (hq : Within Quiet m) (hu : Within Unlisted m) :
    Walks dst (fun _ trace => Follows [] trace) m :=
  Walks.of_quiet hq fun conn => (hu.events conn).mono fun _ _ _ ht => follows_of_unlisted ht.2

lemma isReg_of_isDir {perm : Nat} (h : isDir perm = true) : isReg perm = false := by
  unfold isDir at h
  unfold isReg
  rw [decide_eq_true_eq] at h
  rw [h]
  rfl

variable {visit : Dirent → ClientM Int} {src path : Bytes}

lemma walks_eachEntry {entries : List Dirent}
    (h : ∀ entry ∈ entries, Walks dst (fun _ trace => Follows (regularPath src entry) trace) (visit entry))
    (ret : Int) :
    Walks dst (fun _ trace => Follows (entries.flatMap (regularPath src)) trace) (eachEntry visit entries ret) := by
  induction entries generalizing ret with
  | nil => exact .pure follows_nil
  | cons entry entries ih =>
    obtain ⟨hEntry, he⟩ := forall_mem_cons.1 h
    have hi : Quiet .interrupted := trivial
    refine .bind (.ask (fun past => allowed_of_quiet hi) fun stopped => ?_)
    have ha : ∀ event ∈ ([⟨.interrupted, stopped⟩] : Events), Unlisted event.request :=
      forall_mem_singleton.2 trivial
    cases stopped with
    | true =>
      obtain ⟨hl, -⟩ := lists_of_unlisted ha
      exact .pure ⟨[], hl, nil_subperm, fun hq => absurd (mem_singleton_self _) hq⟩
    | false =>
      refine .bind (hEntry.mono fun result trace ht => ?_)
      refine (ih he (if result = -1 then -1 else ret)).mono fun _ later hLater => ?_
      exact (follows_of_unlisted ha).append (ht.append hLater)

lemma walks_downloadEntry {recurse : Bytes → Bytes → Attrib → ClientM Int} {depth : Nat}
    (hPath : Below dst depth path) (hDepth : depth < maxDirDepth)
    (hr : ∀ newSrc newDst a, Below dst (depth + 1) newDst →
      Walks dst (fun _ trace => Follows [] trace) (recurse newSrc newDst a)) (rounds : Nat)
    (src : Bytes) (preserve resume fsync : Bool) {entry : Dirent} (hn : 47 ∉ entry.filename) :
    Walks dst (fun _ trace => Follows (regularPath src entry) trace)
      (downloadEntry recurse rounds src path preserve resume fsync entry) := by
  unfold downloadEntry regularPath
  cases hDir : isDir entry.a.perm with
  | true =>
    rw [if_pos rfl, isReg_of_isDir hDir, if_neg Bool.false_ne_true]
    by_cases hd : entry.filename = text "." ∨ entry.filename = text ".."
    · rw [if_pos hd]
      exact .pure follows_nil
    · rw [if_neg hd]
      exact hr _ _ _ (hPath.step ⟨fun hp => hd (.inr hp), hn⟩)
  | false =>
    rw [if_neg Bool.false_ne_true]
    by_cases hReg : isReg entry.a.perm = true
    · rw [if_pos hReg, if_pos hReg]
      refine walks_doDownload ?_ hReg rounds _ preserve resume fsync
      -- The server may call `..` a file.
      by_cases hp : entry.filename = text ".."
      · rw [hp]
        exact .inr (namesParent_pathAppend path)
      · exact .inl ((hPath.step ⟨hp, hn⟩).mono hDepth)
    · rw [if_neg hReg, if_neg hReg]
      exact .pure follows_nil

lemma walks_downloadContents (hPath : Below dst maxDirDepth path)
    (hVisit : ∀ entry : Dirent, 47 ∉ entry.filename →
      Walks dst (fun _ trace => Follows (regularPath src entry) trace) (visit entry)) (rounds : Nat)
    (a : Attrib) (preserve : Bool) :
    Walks dst (fun _ trace => Follows [] trace) (downloadContents visit rounds src path a preserve) := by
  have hListing : Walks dst (fun found trace => Listed src (found.getD []) trace) (doReaddir rounds src) :=
    Walks.of_quiet (quiet_doReaddir rounds) fun conn => gives_doReaddir rounds
  have ht : Walks dst (fun _ trace => Follows [] trace) (optionally (preserve && hasFlag a.flags attrAcmodtime) do
    let _ ← ask (.utimes path a.atime a.mtime)
    return) := by
    unfold optionally
    split_ifs
    · refine .bind (.ask (fun _ _ => hPath) fun answer => .pure (follows_of_unlisted ?_))
      exact forall_mem_singleton.2 trivial
    · exact .pure follows_nil
  refine .bind (hListing.mono fun found listed hl => ?_)
  cases found with
  | none => exact .pure (hl.follows follows_nil)
  | some entries =>
    have hp := hl.choose_spec.2.2.1
    refine .bind ((walks_eachEntry (fun entry he => hVisit entry (hp entry he)) 0).mono
      fun ret visited hv => ?_)
    refine .bind (ht.mono fun _ timed hTimed => .pure ?_)
    have hd := (hl.follows hv).append (hTimed.append follows_nil)
    rwa [append_assoc] at hd

lemma walks_downloadDirInternal (preserve resume fsync : Bool) (rounds : Nat) (src path : Bytes) (depth : Nat)
    (dirattrib : Option Attrib) (hp : Below dst depth path) : Walks dst (fun _ trace => Follows [] trace)
      (downloadDirInternal preserve resume fsync rounds src path depth dirattrib) := by
  induction rounds generalizing src path depth dirattrib with
  | zero => exact .fatal
  | succ rounds ih =>
    rw [downloadDirInternal]
    by_cases hd : maxDirDepth ≤ depth
    · rw [if_pos hd]
      exact .pure follows_nil
    · rw [if_neg hd]
      have hs : Walks dst (fun _ trace => Follows [] trace) (givenOrStat dirattrib src) :=
        walks_talk (.givenOrStat (fun _ _ => trivial) fun _ => trivial)
          (.givenOrStat (fun _ _ => trivial) fun _ => trivial)
      have hc := walks_downloadContents (hp.mono (Nat.le_of_not_le hd)) (fun entry hn =>
        walks_downloadEntry hp (Nat.lt_of_not_le hd) (fun newSrc newDst a => ih newSrc newDst (depth + 1) (some a))
          rounds src preserve resume fsync hn) rounds
      refine .bind (hs.mono fun found asked ha => ?_)
      cases found with
      | none => exact .pure (ha.append follows_nil)
      | some a =>
        dsimp only
        by_cases hDir : (!isDir a.perm) = true
        · rw [if_pos hDir]
          exact .pure (ha.append follows_nil)
        · rw [if_neg hDir]
          have hm : ∀ past mode, Allowed dst past (.mkdir path mode) := fun _ _ _ => hp.mono (by omega)
          refine .bind (.ask (fun past => hm past _) fun answer => ?_)
          have hMade : ∀ event ∈ ([⟨.mkdir path _, answer⟩] : Events), Unlisted event.request :=
            forall_mem_singleton.2 trivial
          have hf := follows_of_unlisted hMade
          cases answer with
          | failed => exact .pure (ha.append (hf.append follows_nil))
          | made => exact (hc a preserve).mono fun _ _ hr => ha.append (hf.append hr)
          | «exists» => exact (hc a preserve).mono fun _ _ hr => ha.append (hf.append hr)

lemma walks_downloadDir (rounds : Nat) (src dst : Bytes) (dirattrib : Option Attrib) (preserve resume fsync : Bool) :
    Walks dst (fun _ trace => Follows [] trace) (downloadDir rounds src dst dirattrib preserve resume fsync) := by
  have hr : Walks dst (fun _ trace => Follows [] trace) (doRealpath src) :=
    walks_talk (.doRealpath (fun _ => trivial) fun _ => trivial) (.doRealpath (fun _ => trivial) fun _ => trivial)
  refine .bind (hr.mono fun found asked ha => ?_)
  cases found with
  | none => exact .pure (ha.append follows_nil)
  | some srcCanon =>
    refine (walks_downloadDirInternal preserve resume fsync rounds srcCanon dst 0 dirattrib (below_self dst 0)).mono ?_
    exact fun _ rest hRest => ha.append hRest

end Tree

/-! The theorem. -/

/-- What a call creates or changes is reached from `dst` by names that stay in their directory,
not deeper than the limit on directories. -/
def Stays (dst : Bytes) (before : Events) : Event Call Answer → Prop
  | ⟨.mkdir path _, _⟩ => Below dst (maxDirDepth - 1) path
  | ⟨.utimes path _ _, _⟩ => Below dst maxDirDepth path
  | ⟨.open path _ _, some _⟩ => Below dst maxDirDepth path
  | ⟨.store fd _ _, _⟩ | ⟨.ftruncate fd _, _⟩ | ⟨.fchmod fd _, _⟩ | ⟨.fsync fd, _⟩ =>
    ∃ path, openPath before fd = some path ∧ Below dst maxDirDepth path
  | _ => True

lemma stays_of_proper {before : Events} {event : Event Call Answer} (h : Proper dst before event.request)
    (ho : ∀ path flags mode fd, NamesParent path → event ≠ ⟨.open path flags mode, some fd⟩) :
    Stays dst before event := by
  obtain ⟨call, answer⟩ := event
  cases call with
  | «open» path flags mode =>
    cases answer with
    | none => trivial
    | some fd => exact Or.resolve_right h fun hp => ho path flags mode fd hp rfl
  | _ => exact h

def shut : Event Call Answer → Bool
  | ⟨.open path _ _, some _⟩ => ¬ NamesParent path
  | _ => true

lemma directoriesShut_of_shut (h : trace.all shut = true) : DirectoriesShut trace :=
  fun path flags mode fd hp hMem =>
    absurd (all_eq_true.1 h _ hMem) (by rw [shut, decide_eq_true_eq]; exact not_not.2 hp)

def nameMsg (id : Nat) (entries : List (Bytes × Attrib)) : Bytes :=
  [104] ++ putU32 id ++ putU32 entries.length ++
    entries.flatMap fun entry => putString entry.1 ++ putString entry.1 ++ Sftp.encodeAttrib entry.2

def permAttrib (perm : Nat) : Attrib := { attribClear with flags := attrPermissions, perm := perm }

/-- A directory with one file that may be fetched, its parent, and a name with a slash. -/
def oneFile : Script where
  msgs := [nameMsg 1 [(text "/s", attribClear)], handleMsg 2 [7],
    nameMsg 3 [(text "..", permAttrib 0o040755), (text "f", permAttrib 0o100644), (text "a/b", permAttrib 0o100644)],
    statusMsg 4 1, statusMsg 5 0, handleMsg 6 [8], statusMsg 7 1, statusMsg 8 0]

def oneFetched : Except Stop (Int × Conn) × Events :=
  Prog.run oneFile.env (downloadDir 9 (text "s") (text "d") (some (permAttrib 0o040755)) true false false ⟨2, 16, 3, 1, false⟩)

end SftpClient
