import Sshfortress.Base.Interaction
import Sshfortress.Base.Bytes

/-! Permitted opens: which targets a client may have the server connect to. A Unix
socket is looked up in the lists of host names, under a port of its own. -/
namespace Channel
open Base List

def fwdPermitAnyPort : Int := 0

def fwdPermitAnyHost : Bytes := text "*"

def portStreamlocal : Int := -2

/-- A cleared entry has no host. -/
structure ForwardPermission where
  hostToConnect : Option Bytes
  portToConnect : Int
  deriving DecidableEq

structure Opens where
  (permittedOpens permittedAdmOpens : List ForwardPermission)
  allOpensPermitted : Bool

def Opens.initial : Opens := ⟨[], [], false⟩

def openMatch (allowedOpen : ForwardPermission) (requestedHost : Bytes) (requestedPort : Int) : Bool :=
  match allowedOpen.hostToConnect with
  | none => false
  | some host =>
    if allowedOpen.portToConnect ≠ fwdPermitAnyPort ∧ allowedOpen.portToConnect ≠ requestedPort then
      false
    else if host ≠ fwdPermitAnyHost ∧ host ≠ requestedHost then false
    else true

namespace Opens

def channelPermitAllOpens (s : Opens) : Opens :=
  if s.permittedOpens.length = 0 then { s with allOpensPermitted := true } else s

def channelAddPermittedOpens (s : Opens) (host : Bytes) (port : Int) : Opens :=
  { s with permittedOpens := s.permittedOpens ++ [⟨some host, port⟩], allOpensPermitted := false }

def channelAddAdmPermittedOpens (s : Opens) (host : Bytes) (port : Int) : Opens :=
  { s with permittedAdmOpens := s.permittedAdmOpens ++ [⟨some host, port⟩] }

/-- The test that `channel_connect_to_port` and `channel_connect_to_path` share. -/
def permits (s : Opens) (host : Bytes) (port : Int) : Bool :=
  let permit := s.allOpensPermitted || s.permittedOpens.any fun entry => openMatch entry host port
  let permitAdm := if 0 < s.permittedAdmOpens.length then
    s.permittedAdmOpens.any fun entry => openMatch entry host port else true
  permit && permitAdm

/-- What `connect_to` is called with, or what is logged when the request is denied. -/
def channelConnectToPort (s : Opens) (host : Bytes) (port : UInt16) : Except Bytes (Bytes × Int) :=
  if s.permits host port.toNat then .ok (host, port.toNat)
  else .error (text "Received request to connect to host " ++ host.take 100 ++ text " port " ++
    decimal port.toNat ++ text ", but the request was denied.")

def channelConnectToPath (s : Opens) (path : Bytes) : Except Bytes (Bytes × Int) :=
  if s.permits path portStreamlocal then .ok (path, portStreamlocal)
  else .error (text "Received request to connect to path " ++ path.take 100 ++
    text ", but the request was denied.")

end Opens

/-! How the lists come about. -/

inductive OpenCall where
  | permitAllOpens
  | addPermittedOpens (host : Bytes) (port : Int)
  | addAdmPermittedOpens (host : Bytes) (port : Int)

def TcpPort (port : Int) : Prop := 0 ≤ port ∧ port < 65536
  deriving Decidable

def OpenCall.Tcp : OpenCall → Prop
  | .permitAllOpens => True
  | .addPermittedOpens _ port => TcpPort port
  | .addAdmPermittedOpens _ port => TcpPort port

def Opens.call (s : Opens) : OpenCall → Opens
  | .permitAllOpens => s.channelPermitAllOpens
  | .addPermittedOpens host port => s.channelAddPermittedOpens host port
  | .addAdmPermittedOpens host port => s.channelAddAdmPermittedOpens host port

def opensAfter (calls : List OpenCall) : Opens := calls.foldl Opens.call .initial

structure TcpOnly (s : Opens) : Prop where
  user : ∀ entry ∈ s.permittedOpens, TcpPort entry.portToConnect
  adm : ∀ entry ∈ s.permittedAdmOpens, TcpPort entry.portToConnect

variable {s : Opens} {host : Bytes} {port : Int}

lemma call_tcpOnly {call : OpenCall} (h : TcpOnly s) (hc : call.Tcp) : TcpOnly (s.call call) := by
  have ha : ∀ {list : List ForwardPermission} {host : Bytes} {port : Int}, TcpPort port →
    (∀ entry ∈ list, TcpPort entry.portToConnect) →
    ∀ entry ∈ list ++ [⟨some host, port⟩], TcpPort entry.portToConnect := by
    intro list host port hp hl entry he
    rcases mem_append.1 he with hOld | hNew
    · exact hl entry hOld
    · rw [mem_singleton.1 hNew]
      exact hp
  cases call with
  | permitAllOpens =>
    simp only [Opens.call, Opens.channelPermitAllOpens]
    split
    · exact ⟨h.user, h.adm⟩
    · exact h
  | addPermittedOpens host port => exact ⟨ha hc h.user, h.adm⟩
  | addAdmPermittedOpens host port => exact ⟨h.user, ha hc h.adm⟩

lemma opensAfter_tcpOnly {calls : List OpenCall} (hc : ∀ call ∈ calls, call.Tcp) :
    TcpOnly (opensAfter calls) := by
  suffices hRun : ∀ s, TcpOnly s → TcpOnly (calls.foldl Opens.call s) from
    hRun .initial ⟨by simp [Opens.initial], by simp [Opens.initial]⟩
  induction calls with
  | nil => exact fun s h => h
  | cons call calls ih =>
    intro s h
    apply ih fun later hl => hc later (.tail _ hl)
    exact call_tcpOnly h (hc call mem_cons_self)

/-! What the test comes to. -/

lemma openMatch_iff {entry : ForwardPermission} : openMatch entry host port = true ↔
    (entry.hostToConnect = some host ∨ entry.hostToConnect = some fwdPermitAnyHost) ∧
      (entry.portToConnect = port ∨ entry.portToConnect = fwdPermitAnyPort) := by
  rw [openMatch]
  cases entry.hostToConnect with
  | none => simp
  | some allowed => grind

lemma permits_iff : s.permits host port = true ↔
    (s.allOpensPermitted = false → ∃ entry ∈ s.permittedOpens, openMatch entry host port = true) ∧
      (s.permittedAdmOpens ≠ [] → ∃ entry ∈ s.permittedAdmOpens, openMatch entry host port = true) := by
  rw [Opens.permits, Bool.and_eq_true]
  apply and_congr
  · rw [Bool.or_eq_true, any_eq_true]
    cases s.allOpensPermitted <;> simp
  · split
    · next hs => simp [length_pos_iff.1 hs]
    · next hNone => simp_all

/-! TCP and Unix targets. -/

/-- An entry for this host and port. -/
def ForwardPermission.Names (entry : ForwardPermission) (host : Bytes) (port : UInt16) : Prop :=
  (entry.hostToConnect = some host ∨ entry.hostToConnect = some fwdPermitAnyHost) ∧
    (entry.portToConnect = port.toNat ∨ entry.portToConnect = fwdPermitAnyPort)

/-- Entries for TCP open no Unix socket, and open TCP targets as they say. -/
structure KeepsApart (s : Opens) (path : Bytes) : Prop where
  path : s.allOpensPermitted = false ∨ s.permittedAdmOpens ≠ [] →
    (s.channelConnectToPath path).isOk = false
  port : ∀ host port, (s.channelConnectToPort host port).isOk = true ↔
    (s.allOpensPermitted = false → ∃ entry ∈ s.permittedOpens, entry.Names host port) ∧
      (s.permittedAdmOpens ≠ [] → ∃ entry ∈ s.permittedAdmOpens, entry.Names host port)

/-- An entry with the wildcard port, for any host or for a host whose name is the text of
the path. -/
def WildcardFor (path : Bytes) (list : List ForwardPermission) : Prop :=
  ∃ entry ∈ list, entry.portToConnect = fwdPermitAnyPort ∧
    (entry.hostToConnect = some path ∨ entry.hostToConnect = some fwdPermitAnyHost)
  deriving Decidable

/-- Some list restricts, and every list that does has such an entry. -/
def PathNamed (s : Opens) (path : Bytes) : Prop :=
  (s.allOpensPermitted = false ∨ s.permittedAdmOpens ≠ []) ∧
    (s.allOpensPermitted = false → WildcardFor path s.permittedOpens) ∧
    (s.permittedAdmOpens ≠ [] → WildcardFor path s.permittedAdmOpens)
  deriving Decidable

lemma isOk_ite {ε α : Type} {c : Bool} {a : α} {e : ε} :
    (if c then Except.ok a else .error e).isOk = c := by cases c <;> rfl

/-- No entry for TCP has the port of a Unix socket: such a target can only be let in by
the wildcard. -/
lemma wildcardFor_iff {path : Bytes} {list : List ForwardPermission}
    (hTcp : ∀ entry ∈ list, TcpPort entry.portToConnect) :
    (∃ entry ∈ list, openMatch entry path portStreamlocal = true) ↔ WildcardFor path list := by
  apply exists_congr
  intro entry
  apply and_congr_right
  intro he
  have hp : entry.portToConnect ≠ portStreamlocal := by
    have hNatural := (hTcp entry he).1
    rw [portStreamlocal]
    omega
  rw [openMatch_iff]
  simp [hp, and_comm]

/-- The two kinds are kept apart but for the wildcard port, which takes in the port that
stands for a Unix socket. -/
theorem opens_apart {calls : List OpenCall} (hCalls : ∀ call ∈ calls, call.Tcp) (path : Bytes) :
    KeepsApart (opensAfter calls) path ↔ ¬ PathNamed (opensAfter calls) path := by
  have hTcp := opensAfter_tcpOnly hCalls
  generalize opensAfter calls = s at hTcp ⊢
  have hPath : (s.channelConnectToPath path).isOk = true ↔
    (s.allOpensPermitted = false → WildcardFor path s.permittedOpens) ∧
      (s.permittedAdmOpens ≠ [] → WildcardFor path s.permittedAdmOpens) := by
    rw [Opens.channelConnectToPath, isOk_ite, permits_iff, wildcardFor_iff hTcp.user,
      wildcardFor_iff hTcp.adm]
  constructor
  · rintro ⟨hRefused, -⟩ ⟨hRestricted, hNamed⟩
    rw [hRefused hRestricted] at hPath
    exact absurd (hPath.2 hNamed) (by simp)
  · intro hNot
    refine ⟨fun hRestricted => ?_, fun host port => ?_⟩
    · rw [← Bool.not_eq_true, hPath]
      exact fun hNamed => hNot ⟨hRestricted, hNamed⟩
    · rw [Opens.channelConnectToPort, isOk_ite, permits_iff]
      simp [openMatch_iff, ForwardPermission.Names]

theorem opens_apart_ports : KeepsApart (opensAfter [.permitAllOpens, .addPermittedOpens (text "localhost") 80,
    .addAdmPermittedOpens (text "*") 0]) (text "/var/run/docker.sock") :=
  (opens_apart (by simp [OpenCall.Tcp, TcpPort]) _).2 (by decide)

/-- One entry for all TCP targets opens every Unix socket. -/
theorem opens_socket :
    ¬ KeepsApart (opensAfter [.addPermittedOpens (text "*") 0]) (text "/var/run/docker.sock") := by
  intro h
  exact absurd (h.path (.inl rfl)) (by decide)

end Channel
