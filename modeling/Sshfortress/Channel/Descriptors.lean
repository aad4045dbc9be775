import Sshfortress.Channel.Basic

/-! The highest descriptor of the channels, by which the sets for `select` are sized. It is computed
again without the sockets: a socket is also what is read from, until it is closed. -/
namespace Channel.Descriptors
open List
open Function (update update_self update_apply)

inductive Field where
  | rfd | wfd | efd | sock
  deriving DecidableEq

/-- A channel, with -1 for no descriptor. -/
abbrev Fds := Field → Int

structure Table where
  channels : List (Option Fds)
  maxFd : Int

def Table.lookup (s : Table) (i : Nat) : Option Fds := s.channels[i]?.join

def channelFindMaxfd (channels : List (Option Fds)) : Int :=
  channels.foldl (fun m c => c.elim m fun c => max (max (max m (c .rfd)) (c .wfd)) (c .efd)) 0

def channelRegisterFds (s : Table) (i : Nat) (rfd wfd efd : Int) : Table where
  channels := s.channels.set i <| some fun
    | .rfd => rfd
    | .wfd => wfd
    | .efd => efd
    | .sock => if rfd = wfd then rfd else -1
  maxFd := max (max (max s.maxFd rfd) wfd) efd

def channelNew (s : Table) (rfd wfd efd : Int) : Option Table :=
  let channels := if s.channels = [] then replicate 10 none else s.channels
  match channels.findIdx? Option.isNone with
  | some i => channelRegisterFds ⟨channels, s.maxFd⟩ i rfd wfd efd
  | none =>
    if 10000 < channels.length then none
    else channelRegisterFds ⟨channels ++ replicate 10 none, s.maxFd⟩ channels.length rfd wfd efd

def channelCloseFd (s : Table) (i : Nat) (f : Field) : Table :=
  match s.lookup i with
  | none => s
  | some c =>
    if c f = -1 then s
    else
      let channels := s.channels.set i (some (update c f (-1)))
      ⟨channels, if c f = s.maxFd then channelFindMaxfd channels else s.maxFd⟩

def channelCloseFds (s : Table) (i : Nat) : Table :=
  [.sock, .rfd, .wfd, .efd].foldl (channelCloseFd · i) s

def channelFree (s : Table) (i : Nat) : Table :=
  let s := channelCloseFds s i
  { s with channels := s.channels.set i none }

/-- `chan_shutdown_read` and `chan_shutdown_write` close nothing while there is a socket. -/
def chanShutdown (s : Table) (i : Nat) (f : Field) : Table :=
  if (s.lookup i).any (· .sock ≠ -1) then s else channelCloseFd s i f

/-- The socket for the next address in `channel_post_connecting`. -/
def retry (s : Table) (i : Nat) (sock : Int) : Table :=
  match s.lookup i with
  | none => s
  | some c =>
    if sock ≤ 0 then s
    else
      let channels := s.channels.set i (some fun f => if f = .efd then c f else sock)
      ⟨channels, channelFindMaxfd channels⟩

/-- The words of a set for `channel_prepare_select`. -/
def nfdset (s : Table) (maxfd : Int) : Nat := ((max maxfd s.maxFd).toNat + 1 + 63) / 64

/-- What any sequence of calls leads to. -/
inductive Reach : Table → Prop where
  | start : Reach ⟨[], 0⟩
  | new {s t rfd wfd efd} : Reach s → channelNew s rfd wfd efd = some t → Reach t
  | register {s} (i rfd wfd efd) : Reach s → (s.lookup i).isSome → Reach (channelRegisterFds s i rfd wfd efd)
  | retry {s} (i sock) : Reach s → Reach (retry s i sock)
  | shutdownRead {s} (i) : Reach s → Reach (chanShutdown s i .rfd)
  | shutdownWrite {s} (i) : Reach s → Reach (chanShutdown s i .wfd)
  | closeSock {s} (i) : Reach s → Reach (channelCloseFd s i .sock)
  | closeEfd {s} (i) : Reach s → Reach (channelCloseFd s i .efd)
  | closeFds {s} (i) : Reach s → Reach (channelCloseFds s i)
  | free {s} (i) : Reach s → Reach (channelFree s i)

/-- A socket is counted while it is there. -/
def Bounded (n : Int) (c : Fds) : Prop := (c .sock = -1 ∨ c .sock = c .rfd) ∧ ∀ f, c f ≤ n

structure Sound (s : Table) : Prop where
  start : 0 ≤ s.maxFd
  bounded : ∀ c, some c ∈ s.channels → Bounded s.maxFd c

variable {c : Fds} {channels : List (Option Fds)} {f : Field} {i : Nat} {n : Int} {s t : Table}

lemma channelFindMaxfd_le : channelFindMaxfd channels ≤ n ↔
    0 ≤ n ∧ ∀ c, some c ∈ channels → c .rfd ≤ n ∧ c .wfd ≤ n ∧ c .efd ≤ n := by
  rw [channelFindMaxfd]
  generalize (0 : Int) = m
  induction channels generalizing m with
  | nil => simp
  | cons o rest ih =>
    rw [foldl_cons, ih]
    cases o with
    | none => simp
    | some c => simp [and_assoc]

lemma Sound.again (h : Sound ⟨channels, n⟩) : Sound ⟨channels, channelFindMaxfd channels⟩ := by
  obtain ⟨hStart, hAll⟩ := channelFindMaxfd_le.1 (Int.le_refl (channelFindMaxfd channels))
  refine ⟨hStart, fun c hc => ⟨(h.bounded c hc).1, fun f => ?_⟩⟩
  have hTied := (h.bounded c hc).1
  have hl := hAll c hc
  cases f <;> dsimp only <;> omega

lemma Sound.put (h : Sound s) (i : Nat) (hn : s.maxFd ≤ n) (hc : Bounded n c) : Sound ⟨s.channels.set i (some c), n⟩ := by
  refine ⟨Int.le_trans h.start hn, fun d hd => ?_⟩
  rcases mem_or_eq_of_mem_set hd with hd | hd
  · exact (h.bounded d hd).imp_right fun hl f => Int.le_trans (hl f) hn
  · exact Option.some.inj hd ▸ hc

lemma Sound.lookup (h : Sound s) (hc : s.lookup i = some c) : Bounded s.maxFd c :=
  h.bounded c (mem_of_getElem? (Option.join_eq_some_iff.1 hc))

lemma Sound.closeFd (h : Sound s) (hf : f = .rfd → ∀ c, s.lookup i = some c → c .sock = -1) :
    Sound (channelCloseFd s i f) := by
  rw [channelCloseFd]
  split
  · exact h
  · rename_i c hc
    have hNew : Sound ⟨s.channels.set i (some (update c f (-1))), s.maxFd⟩ := by
      refine h.put i (Int.le_refl _) ⟨?_, fun g => ?_⟩
      · have hTied := (h.lookup hc).1
        grind
      · have hStart := h.start
        have hl := (h.lookup hc).2 g
        rw [update_apply]
        split_ifs <;> omega
    split_ifs
    · exact h
    · exact hNew.again
    · exact hNew

lemma sock_closeFd (h : (channelCloseFd s i .sock).lookup i = some c) : c .sock = -1 := by
  have hEither : c .sock = -1 ∨ ∃ d, c = update d .sock (-1) := by grind [channelCloseFd, Table.lookup]
  rcases hEither with h | ⟨d, rfl⟩
  · exact h
  · exact update_self ..

section
variable (h : Sound s)
include h

lemma Sound.closeFds (i : Nat) : Sound (channelCloseFds s i) :=
  (((h.closeFd (f := .sock) nofun).closeFd (f := .rfd) fun _ _ => sock_closeFd).closeFd (f := .wfd) nofun).closeFd
    (f := .efd) nofun

lemma Sound.shutdown (i : Nat) (f : Field) : Sound (chanShutdown s i f) := by
  rw [chanShutdown]
  split_ifs with hs
  · exact h
  · exact h.closeFd fun _ c hc => by simpa [hc] using hs

lemma Sound.grow (hg : ∀ c, some c ∈ channels → some c ∈ s.channels) : Sound ⟨channels, s.maxFd⟩ :=
  ⟨h.start, fun c hc => h.bounded c (hg c hc)⟩

lemma Sound.register (i : Nat) (rfd wfd efd : Int) : Sound (channelRegisterFds s i rfd wfd efd) := by
  have hStart := h.start
  refine h.put i (by omega) ⟨by grind, fun f => ?_⟩
  cases f <;> dsimp only <;> omega

lemma Sound.new {rfd wfd efd : Int} (ht : channelNew s rfd wfd efd = some t) : Sound t := by
  have hGrown : Sound ⟨if s.channels = [] then replicate 10 none else s.channels, s.maxFd⟩ := h.grow (by grind)
  rw [channelNew] at ht
  generalize (if s.channels = [] then _ else _) = grown at ht hGrown
  split at ht
  · exact Option.some.inj ht ▸ hGrown.register ..
  · split_ifs at ht
    exact Option.some.inj ht ▸ (hGrown.grow (by simp)).register ..

lemma Sound.retry (i : Nat) (sock : Int) : Sound (retry s i sock) := by
  rw [Descriptors.retry]
  split
  · exact h
  · rename_i c hc
    split_ifs
    · exact h
    · refine (h.put (n := max s.maxFd sock) i (Int.le_max_left ..) ⟨.inr rfl, fun f => ?_⟩).again
      have hl := (h.lookup hc).2 f
      split_ifs <;> omega

end

lemma Reach.sound (h : Reach s) : Sound s := by
  induction h with
  | start => exact ⟨Int.le_refl 0, by simp⟩
  | new _ ht ih => exact ih.new ht
  | register i rfd wfd efd _ _ ih => exact ih.register ..
  | retry i sock _ ih => exact ih.retry i sock
  | shutdownRead i _ ih | shutdownWrite i _ ih => exact ih.shutdown i _
  | closeSock i _ ih | closeEfd i _ ih => exact ih.closeFd nofun
  | closeFds i _ ih => exact ih.closeFds i
  | free i _ ih => exact (ih.closeFds i).grow fun c hc => (mem_or_eq_of_mem_set hc).resolve_right nofun

/-- No descriptor of a channel is above the bound, and each has its word in the sets. -/
theorem descriptors_in_set (hs : Reach s) (hc : some c ∈ s.channels) (f : Field) :
    c f ≤ s.maxFd ∧ (0 ≤ c f → ∀ maxfd, (c f).toNat / 64 < nfdset s maxfd) := by
  have hLe := (hs.sound.bounded c hc).2 f
  refine ⟨hLe, fun _ maxfd => ?_⟩
  rw [nfdset]
  omega

theorem descriptors_in_set_retry : ∃ s c, channelNew ⟨[], 0⟩ 70 70 (-1) = some s ∧ some c ∈ (retry s 0 9).channels ∧
      c .rfd ≤ (retry s 0 9).maxFd :=
  ⟨_, _, rfl, mem_cons_self, (descriptors_in_set (.retry 0 9 (.new .start rfl)) mem_cons_self .rfd).1⟩

end Channel.Descriptors
