import OverSip.Sip.Rfc3263
import Mathlib.Data.List.Perm.Basic

/-!
# The listeners of a configuration

`post_process` and `post_check` of `config.rb`, and `run_servers` of `launcher.rb`: what becomes of the sections `sip`
and `websocket` of `oversip.conf`, the sockets that are tried before the start, and the servers that are started.

The sections hold addresses alike for IPv4 and IPv6, so that an entry with a name for each is a function here. An
entry that is a condition only is true or not, nil being false. The address that the machine finds for itself is a
parameter (`discover_local_ip`), and what a bind gives is not modelled.
-/

namespace OverSip

namespace Listeners

open Rfc3263

/-- The entries of a section that say where to listen, as they are read: a port is never nil. -/
structure ReadAddresses where
  enable : IpType → Bool
  listen : IpType → Option String
  advertised : IpType → Option String
  listenPort : ℕ
  listenPortTls : ℕ
  useTlsTunnel : Bool
  listenPortTlsTunnel : ℕ

/-- `oversip.conf` after the validations. -/
structure ReadConfiguration where
  sipUdp : Bool
  sipTcp : Bool
  sipTls : Bool
  sip : ReadAddresses
  recordRouteHostnameTls : IpType → Option String
  sipWs : Bool
  sipWss : Bool
  websocket : ReadAddresses
  publicCert : Option String
  privateCert : Option String

/-- The entries of a section that say where to listen. -/
structure Addresses where
  enable : IpType → Bool
  listen : IpType → Option String
  advertised : IpType → Option String
  listenPort : Option ℕ
  listenPortTls : Option ℕ
  useTlsTunnel : Bool
  listenPortTlsTunnel : Option ℕ

structure Configuration where
  sipUdp : Bool
  sipTcp : Bool
  sipTls : Bool
  sip : Addresses
  recordRouteHostnameTls : IpType → Option String
  sipWs : Bool
  sipWss : Bool
  websocket : Addresses

/-! ## `post_process` -/

/-- Clear what a section does not use: `plain` and `tls` say which of its transports are on. -/
def ReadAddresses.reduce (a : ReadAddresses) (plain tls : Bool) : Addresses :=
  let enable (v : IpType) : Bool := (plain || tls) && a.enable v
  { enable
    listen := fun v => if enable v then a.listen v else none
    advertised := fun v => if enable v then a.advertised v else none
    listenPort := if plain then some a.listenPort else none
    listenPortTls := if tls then some a.listenPortTls else none
    useTlsTunnel := a.useTlsTunnel
    listenPortTlsTunnel := some a.listenPortTlsTunnel }

/-- Look for an address where none is given; an IP version without one is disabled. -/
def Addresses.discover (a : Addresses) (discoverLocalIp : IpType → Option String) : Addresses :=
  { a with
    listen := fun v => if a.enable v && (a.listen v).isNone then discoverLocalIp v else a.listen v
    enable := fun v => if a.enable v && (a.listen v).isNone then (discoverLocalIp v).isSome else a.enable v }

/-- `post_process`; a version is enabled there only in a section that is used. -/
def postProcess (discoverLocalIp : IpType → Option String) (c : ReadConfiguration) : Configuration :=
  let useTls := c.publicCert.isSome && c.privateCert.isSome
  let sip := c.sip.reduce (c.sipUdp || c.sipTcp) (c.sipTls && useTls)
  let websocket := c.websocket.reduce c.sipWs (c.sipWss && useTls)
  { sipUdp := c.sipUdp
    sipTcp := c.sipTcp
    sipTls := c.sipTls && useTls
    sip := sip.discover discoverLocalIp
    recordRouteHostnameTls := fun v => if sip.enable v then c.recordRouteHostnameTls v else none
    sipWs := c.sipWs
    sipWss := c.sipWss && useTls
    websocket := websocket.discover discoverLocalIp }

/-! ## `post_check` -/

/-- An address and a port, either of which may be nil. -/
abbrev Bind := Option String × Option ℕ

def loopback : IpType → String
  | .ipv4 => "127.0.0.1"
  | .ipv6 => "::1"

/-- What stands behind `if enabled`, for each IP version. -/
def forEach {α : Type} (enabled : IpType → Bool) (l : IpType → List α) : List α :=
  (if enabled .ipv4 then l .ipv4 else []) ++ if enabled .ipv6 then l .ipv6 else []

/-- `binds[:udp]` -/
def udpBinds (c : Configuration) : List Bind :=
  forEach c.sip.enable fun v => if c.sipUdp then [(c.sip.listen v, c.sip.listenPort)] else []

/-- The socket of the TLS server of a section, or the one behind its tunnel. -/
def tlsBind (a : Addresses) (useTlsTunnel : Bool) (v : IpType) : Bind :=
  if useTlsTunnel then (some (loopback v), a.listenPortTlsTunnel) else (a.listen v, a.listenPortTls)

/-- `binds[:tcp]`. Both sections ask for the tunnel of the section `sip`. -/
def tcpBinds (c : Configuration) : List Bind :=
  (forEach c.sip.enable fun v =>
    (if c.sipTcp then [(c.sip.listen v, c.sip.listenPort)] else []) ++
      if c.sipTls then [tlsBind c.sip c.sip.useTlsTunnel v] else []) ++
  forEach c.websocket.enable fun v =>
    (if c.sipWs then [(c.websocket.listen v, c.websocket.listenPort)] else []) ++
      if c.sipWss then [tlsBind c.websocket c.sip.useTlsTunnel v] else []

def Addresses.clearTunnel (a : Addresses) : Addresses :=
  { a with listenPortTlsTunnel := if a.useTlsTunnel then a.listenPortTlsTunnel else none }

/-- The configuration that `post_check` leaves. -/
def postCheck (c : Configuration) : Configuration :=
  { c with sip := c.sip.clearTunnel, websocket := c.websocket.clearTunnel }

/-! ## `run_servers` -/

inductive Launcher
  | sip | websocket
deriving DecidableEq, Repr

inductive ListenerTransport
  | udp | tcp | tls | tlsTunnel | ws | wss | wssTunnel
deriving DecidableEq, Repr

inductive Action
  /-- `Launcher.run`; it opens a socket when it is enabled. -/
  | run (launcher : Launcher) (enabled : Bool) (ipType : IpType) (bind : Bind) (transport : ListenerTransport)
    (virtual : Option Bind)
  | spawnStudProcess (listen background : Bind) (ssl : Bool)
deriving DecidableEq, Repr

/-- The servers of a transport. -/
def servers (launcher : Launcher) (transport : ListenerTransport) (on : Bool) (a : Addresses) (port : Option ℕ) :
    List Action :=
  forEach a.enable fun v => if on then [.run launcher true v (a.listen v, port) transport none] else []

/-- The servers behind Stud, each with the server class of the outer socket. -/
def tunnelServers (launcher : Launcher) (transport outer : ListenerTransport) (on : Bool) (enable : IpType → Bool)
    (a : Addresses) (ssl : Bool) : List Action :=
  forEach enable fun v =>
    if on then
      [.run launcher true v (some (loopback v), a.listenPortTlsTunnel) transport (some (a.listen v, a.listenPortTls)),
        .run launcher false v (a.listen v, a.listenPortTls) outer none,
        .spawnStudProcess (a.listen v, a.listenPortTls) (some (loopback v), a.listenPortTlsTunnel) ssl]
    else []

/-- What the servers behind the tunnel of the section `websocket` are enabled by. -/
def wssTunnelEnable (c : Configuration) : IpType → Bool
  | .ipv4 => c.websocket.enable .ipv4
  -- the branch for IPv6 asks for the section `sip`
  | .ipv6 => c.sip.enable .ipv6

def runServers (c : Configuration) : List Action :=
  servers .sip .udp c.sipUdp c.sip c.sip.listenPort ++
  servers .sip .tcp c.sipTcp c.sip c.sip.listenPort ++
  (if c.sip.useTlsTunnel then tunnelServers .sip .tlsTunnel .tls c.sipTls c.sip.enable c.sip false
    else servers .sip .tls c.sipTls c.sip c.sip.listenPortTls) ++
  servers .websocket .ws c.sipWs c.websocket c.websocket.listenPort ++
  if c.websocket.useTlsTunnel then
    tunnelServers .websocket .wssTunnel .wss c.sipWss (wssTunnelEnable c) c.websocket true
  else servers .websocket .wss c.sipWss c.websocket c.websocket.listenPortTls

/-! ## What is opened and what is asked for -/

/-- The socket that an action opens in this process. -/
def Action.opened (udp : Bool) : Action → Option Bind
  | .run _ true _ bind transport _ => if (transport == .udp) == udp then some bind else none
  | _ => none

def opened (udp : Bool) (l : List Action) : List Bind := l.filterMap (Action.opened udp)

/-- A server is started for an IP version and a transport. -/
def Started (l : List Action) (v : IpType) (transport : ListenerTransport) : Prop :=
  ∃ launcher bind virtual, .run launcher true v bind transport virtual ∈ l

/-- The configuration asks for a server, by the entries of its own section. -/
def Asked (c : Configuration) (v : IpType) : ListenerTransport → Prop
  | .udp => c.sipUdp = true ∧ c.sip.enable v = true
  | .tcp => c.sipTcp = true ∧ c.sip.enable v = true
  | .tls => c.sipTls = true ∧ c.sip.useTlsTunnel = false ∧ c.sip.enable v = true
  | .tlsTunnel => c.sipTls = true ∧ c.sip.useTlsTunnel = true ∧ c.sip.enable v = true
  | .ws => c.sipWs = true ∧ c.websocket.enable v = true
  | .wss => c.sipWss = true ∧ c.websocket.useTlsTunnel = false ∧ c.websocket.enable v = true
  | .wssTunnel => c.sipWss = true ∧ c.websocket.useTlsTunnel = true ∧ c.websocket.enable v = true

/-! ## Addresses and ports -/

/-- A version is enabled in the end exactly where there is an address for it. -/
theorem enable_eq_isSome (a : ReadAddresses) (plain tls : Bool) (discoverLocalIp : IpType → Option String)
    (v : IpType) :
    ((a.reduce plain tls).discover discoverLocalIp).enable v =
      (((a.reduce plain tls).discover discoverLocalIp).listen v).isSome := by
  simp only [Addresses.discover]
  by_cases henable : (a.reduce plain tls).enable v = true
  · cases hlisten : (a.reduce plain tls).listen v with
    | none => simp only [henable, Option.isNone_none, Bool.and_self, if_true]
    | some ip => simp [henable]
  · have hlisten : (a.reduce plain tls).listen v = none := if_neg henable
    rw [Bool.not_eq_true] at henable
    simp [henable, hlisten]

section actions

variable {α : Type} {enable : IpType → Bool}

theorem mem_forEach {l : IpType → List α} {x : α} : x ∈ forEach enable l ↔ ∃ v, enable v = true ∧ x ∈ l v := by
  rw [forEach, List.mem_append]
  constructor
  · intro h
    rcases h with h | h
    · split_ifs at h with hv
      · exact ⟨.ipv4, hv, h⟩
      · cases h
    · split_ifs at h with hv
      · exact ⟨.ipv6, hv, h⟩
      · cases h
  · rintro ⟨v, hv, h⟩
    cases v with
    | ipv4 => exact .inl (by rwa [if_pos hv])
    | ipv6 => exact .inr (by rwa [if_pos hv])

theorem forEach_append_perm (f g : IpType → List α) :
    (forEach enable f ++ forEach enable g).Perm (forEach enable fun v => f v ++ g v) := by
  have hswap (a b c d : List α) : ((a ++ b) ++ (c ++ d)).Perm ((a ++ c) ++ (b ++ d)) := by
    rw [List.append_assoc, List.append_assoc]
    apply List.Perm.append_left
    rw [← List.append_assoc, ← List.append_assoc]
    exact List.perm_append_comm.append_right d
  unfold forEach
  refine (hswap _ _ _ _).trans (List.Perm.of_eq ?_)
  cases enable .ipv4 <;> cases enable .ipv6 <;> rfl

variable {launcher : Launcher} {transport outer : ListenerTransport} {on ssl : Bool} {a : Addresses} {port : Option ℕ}

theorem mem_servers {x : Action} :
    x ∈ servers launcher transport on a port ↔
      ∃ v, a.enable v = true ∧ on = true ∧ x = .run launcher true v (a.listen v, port) transport none := by
  rw [servers, mem_forEach]
  refine exists_congr fun v => and_congr_right fun _ => ?_
  cases on with
  | true => exact List.mem_singleton.trans (and_iff_right rfl).symm
  | false => exact iff_of_false List.not_mem_nil fun h => Bool.false_ne_true h.1

theorem mem_tunnelServers {x : Action} :
    x ∈ tunnelServers launcher transport outer on enable a ssl ↔
      ∃ v, enable v = true ∧ on = true ∧
        (x = .run launcher true v (some (loopback v), a.listenPortTlsTunnel) transport
            (some (a.listen v, a.listenPortTls)) ∨
          x = .run launcher false v (a.listen v, a.listenPortTls) outer none ∨
          x = .spawnStudProcess (a.listen v, a.listenPortTls) (some (loopback v), a.listenPortTlsTunnel) ssl) := by
  rw [tunnelServers, mem_forEach]
  refine exists_congr fun v => and_congr_right fun _ => ?_
  cases on with
  | true => simp
  | false => exact iff_of_false List.not_mem_nil fun h => Bool.false_ne_true h.1

theorem opened_forEach (udp : Bool) (l : IpType → List Action) :
    opened udp (forEach enable l) = forEach enable fun v => opened udp (l v) := by
  unfold forEach opened
  rw [List.filterMap_append]
  cases enable .ipv4 <;> cases enable .ipv6 <;> rfl

theorem opened_servers {udp : Bool} (h : ((transport == .udp) == udp) = true) :
    opened udp (servers launcher transport on a port) =
      forEach a.enable fun v => if on then [(a.listen v, port)] else [] := by
  rw [servers, opened_forEach]
  congr 1
  funext v
  cases on with
  | true => exact List.filterMap_cons_some (if_pos h)
  | false => rfl

theorem opened_servers_of_other {udp : Bool} (h : ((transport == .udp) == udp) = false) :
    opened udp (servers launcher transport on a port) = [] := by
  apply List.filterMap_eq_nil_iff.mpr
  intro x hx
  obtain ⟨v, -, -, rfl⟩ := mem_servers.mp hx
  exact if_neg (by rw [h]; exact Bool.false_ne_true)

theorem opened_tunnelServers (h : (transport == .udp) = false) :
    opened false (tunnelServers launcher transport outer on enable a ssl) =
      forEach enable fun v => if on then [(some (loopback v), a.listenPortTlsTunnel)] else [] := by
  rw [tunnelServers, opened_forEach]
  congr 1
  funext v
  cases on with
  | true =>
    have hrun : ((transport == .udp) == false) = true := by rw [h]; rfl
    exact List.filterMap_cons_some (if_pos hrun)
  | false => rfl

theorem opened_tunnelServers_udp (h : (transport == .udp) = false) :
    opened true (tunnelServers launcher transport outer on enable a ssl) = [] := by
  apply List.filterMap_eq_nil_iff.mpr
  intro x hx
  obtain ⟨v, -, -, rfl | rfl | rfl⟩ := mem_tunnelServers.mp hx
  · exact if_neg (by rw [h]; exact Bool.false_ne_true)
  · rfl
  · rfl

/-! ## The servers that are started -/

/-- Every socket that is opened has an address and a port. -/
def Addressed (l : List Action) : Prop :=
  ∀ launcher v bind transport virtual, .run launcher true v bind transport virtual ∈ l →
    bind.1.isSome = true ∧ bind.2.isSome = true

theorem Addressed.append {l l' : List Action} (h : Addressed l) (h' : Addressed l') : Addressed (l ++ l') := by
  intro launcher v bind transport virtual hmem
  rcases List.mem_append.mp hmem with hmem | hmem
  · exact h launcher v bind transport virtual hmem
  · exact h' launcher v bind transport virtual hmem

theorem addressed_servers (hlisten : ∀ v, a.enable v = true → (a.listen v).isSome = true)
    (hport : on = true → port.isSome = true) : Addressed (servers launcher transport on a port) := by
  intro launcher' v bind transport' virtual hmem
  obtain ⟨w, hw, hon, hrun⟩ := mem_servers.mp hmem
  obtain ⟨-, -, -, rfl, -, -⟩ := Action.run.inj hrun
  exact ⟨hlisten w hw, hport hon⟩

theorem addressed_tunnelServers (hport : a.listenPortTlsTunnel.isSome = true) :
    Addressed (tunnelServers launcher transport outer on enable a ssl) := by
  intro launcher' v bind transport' virtual hmem
  obtain ⟨w, -, -, hrun | hrun | hrun⟩ := mem_tunnelServers.mp hmem
  · obtain ⟨-, -, -, rfl, -, -⟩ := Action.run.inj hrun
    exact ⟨rfl, hport⟩
  · exact absurd (Action.run.inj hrun).2.1 (Bool.false_ne_true ∘ Eq.symm)
  · cases hrun

theorem started_append {l l' : List Action} {v : IpType} {t : ListenerTransport} :
    Started (l ++ l') v t ↔ Started l v t ∨ Started l' v t := by
  constructor
  · rintro ⟨launcher, bind, virtual, hmem⟩
    rcases List.mem_append.mp hmem with hmem | hmem
    · exact .inl ⟨launcher, bind, virtual, hmem⟩
    · exact .inr ⟨launcher, bind, virtual, hmem⟩
  · rintro (⟨launcher, bind, virtual, hmem⟩ | ⟨launcher, bind, virtual, hmem⟩)
    · exact ⟨launcher, bind, virtual, List.mem_append_left _ hmem⟩
    · exact ⟨launcher, bind, virtual, List.mem_append_right _ hmem⟩

theorem started_servers {v : IpType} {t : ListenerTransport} :
    Started (servers launcher transport on a port) v t ↔ t = transport ∧ on = true ∧ a.enable v = true := by
  constructor
  · rintro ⟨launcher', bind, virtual, hmem⟩
    obtain ⟨w, hw, hon, hrun⟩ := mem_servers.mp hmem
    obtain ⟨-, -, rfl, -, rfl, -⟩ := Action.run.inj hrun
    exact ⟨rfl, hon, hw⟩
  · rintro ⟨rfl, hon, hv⟩
    exact ⟨_, _, _, mem_servers.mpr ⟨v, hv, hon, rfl⟩⟩

theorem started_tunnelServers {v : IpType} {t : ListenerTransport} :
    Started (tunnelServers launcher transport outer on enable a ssl) v t ↔
      t = transport ∧ on = true ∧ enable v = true := by
  constructor
  · rintro ⟨launcher', bind, virtual, hmem⟩
    obtain ⟨w, hw, hon, hrun | hrun | hrun⟩ := mem_tunnelServers.mp hmem
    · obtain ⟨-, -, rfl, -, rfl, -⟩ := Action.run.inj hrun
      exact ⟨rfl, hon, hw⟩
    · exact absurd (Action.run.inj hrun).2.1 (Bool.false_ne_true ∘ Eq.symm)
    · cases hrun
  · rintro ⟨rfl, hon, hv⟩
    exact ⟨_, _, _, mem_tunnelServers.mpr ⟨v, hv, hon, .inl rfl⟩⟩

theorem started_iff (c : Configuration) (v : IpType) (t : ListenerTransport) :
    Started (runServers c) v t ↔
      if t = .wssTunnel then c.sipWss = true ∧ c.websocket.useTlsTunnel = true ∧ wssTunnelEnable c v = true
      else Asked c v t := by
  unfold runServers
  simp only [started_append]
  cases hsip : c.sip.useTlsTunnel <;> cases hws : c.websocket.useTlsTunnel <;> cases t <;>
    simp [started_servers, started_tunnelServers, Asked, hsip, hws]

theorem mem_spawned_iff (c : Configuration) {listen background : Bind} {ssl : Bool} :
    .spawnStudProcess listen background ssl ∈ runServers c ↔
      (∃ v, c.sip.useTlsTunnel = true ∧ c.sip.enable v = true ∧ c.sipTls = true ∧
        listen = (c.sip.listen v, c.sip.listenPortTls) ∧
        background = (some (loopback v), c.sip.listenPortTlsTunnel) ∧ ssl = false) ∨
      ∃ v, c.websocket.useTlsTunnel = true ∧ wssTunnelEnable c v = true ∧ c.sipWss = true ∧
        listen = (c.websocket.listen v, c.websocket.listenPortTls) ∧
        background = (some (loopback v), c.websocket.listenPortTlsTunnel) ∧ ssl = true := by
  unfold runServers
  cases hsip : c.sip.useTlsTunnel <;> cases hws : c.websocket.useTlsTunnel <;>
    simp [mem_servers, mem_tunnelServers]

end actions

/-! ## From the file to the sockets -/

/-- What `post_process` gives: an address for every version that is enabled, and a port for every transport that is on. -/
structure Processed (c : Configuration) : Prop where
  sip : ∀ v, c.sip.enable v = (c.sip.listen v).isSome
  sipPort : c.sipUdp = true ∨ c.sipTcp = true → c.sip.listenPort.isSome = true
  sipPortTls : c.sipTls = true → c.sip.listenPortTls.isSome = true
  sipTunnel : c.sip.listenPortTlsTunnel.isSome = true
  websocket : ∀ v, c.websocket.enable v = (c.websocket.listen v).isSome
  websocketPort : c.sipWs = true → c.websocket.listenPort.isSome = true
  websocketPortTls : c.sipWss = true → c.websocket.listenPortTls.isSome = true
  websocketTunnel : c.websocket.listenPortTlsTunnel.isSome = true

theorem processed_postProcess (discoverLocalIp : IpType → Option String) (c : ReadConfiguration) :
    Processed (postProcess discoverLocalIp c) := by
  have hport {on : Bool} (n : ℕ) (h : on = true) : (if on then some n else none).isSome = true := by
    rw [if_pos h]
    rfl
  exact
    { sip := enable_eq_isSome c.sip _ _ discoverLocalIp
      sipPort := fun h => hport _ (Bool.or_eq_true_iff.mpr h)
      sipPortTls := hport _
      sipTunnel := rfl
      websocket := enable_eq_isSome c.websocket _ _ discoverLocalIp
      websocketPort := hport _
      websocketPortTls := hport _
      websocketTunnel := rfl }

/-- The sections ask for the same sockets of WSS. -/
def TunnelsAgree (c : Configuration) : Prop :=
  (c.websocket.useTlsTunnel = true → c.sip.enable .ipv6 = c.websocket.enable .ipv6) ∧
    (c.websocket.useTlsTunnel = c.sip.useTlsTunnel ∨ ∀ v, c.websocket.enable v = false)

/-- What the servers of a configuration are like. -/
structure Listens (c : Configuration) (l : List Action) : Prop where
  addressed : Addressed l
  asked : (∀ v t, Started l v t ↔ Asked c v t) ↔
    (c.sipWss = true → c.websocket.useTlsTunnel = true → c.sip.enable .ipv6 = c.websocket.enable .ipv6)
  spawned : (∀ listen background ssl, .spawnStudProcess listen background ssl ∈ l → listen.1.isSome = true) ↔
    (c.sipWss = true → c.websocket.useTlsTunnel = true → c.sip.enable .ipv6 = true →
      c.websocket.enable .ipv6 = true)
  udp : opened true l = udpBinds c
  tcp : (c.sipWss = true → TunnelsAgree c) → (opened false l).Perm (tcpBinds c)
  tunnelsAgree : c.websocket.listenPortTls ≠ c.websocket.listenPortTlsTunnel →
    (opened false l).Perm (tcpBinds c) → c.sipWss = true → TunnelsAgree c

section servers

variable {c : Configuration}

theorem Processed.addressed (h : Processed c) : Addressed (runServers (postCheck c)) := by
  have hsip (v : IpType) (hv : c.sip.enable v = true) : (c.sip.listen v).isSome = true := h.sip v ▸ hv
  have hwebsocket (v : IpType) (hv : c.websocket.enable v = true) : (c.websocket.listen v).isSome = true :=
    h.websocket v ▸ hv
  have htunnel (a : Addresses) (hport : a.listenPortTlsTunnel.isSome = true) (ha : a.useTlsTunnel = true) :
      a.clearTunnel.listenPortTlsTunnel.isSome = true := by
    rwa [Addresses.clearTunnel, if_pos ha]
  unfold runServers
  refine ((((addressed_servers hsip ?_).append (addressed_servers hsip ?_)).append ?_).append
    (addressed_servers hwebsocket h.websocketPort)).append ?_
  · exact fun hudp => h.sipPort (.inl hudp)
  · exact fun htcp => h.sipPort (.inr htcp)
  · split
    · next hsipTunnel => exact addressed_tunnelServers (htunnel c.sip h.sipTunnel hsipTunnel)
    · exact addressed_servers hsip h.sipPortTls
  · split
    · next hwebsocketTunnel => exact addressed_tunnelServers (htunnel c.websocket h.websocketTunnel hwebsocketTunnel)
    · exact addressed_servers hwebsocket h.websocketPortTls

theorem asked_iff : (∀ v t, Started (runServers (postCheck c)) v t ↔ Asked c v t) ↔
    (c.sipWss = true → c.websocket.useTlsTunnel = true → c.sip.enable .ipv6 = c.websocket.enable .ipv6) := by
  constructor
  · intro h hwss htunnel
    have hv6 := (started_iff (postCheck c) .ipv6 .wssTunnel).symm.trans (h .ipv6 .wssTunnel)
    rw [if_pos rfl] at hv6
    apply Bool.eq_iff_iff.mpr
    constructor
    · intro hsip
      exact (hv6.mp ⟨hwss, htunnel, hsip⟩).2.2
    · intro hwebsocket
      exact (hv6.mpr ⟨hwss, htunnel, hwebsocket⟩).2.2
  · intro h v t
    rw [started_iff]
    split
    · next ht =>
      subst ht
      refine and_congr_right fun hwss => and_congr_right fun htunnel => ?_
      cases v with
      | ipv4 => exact Iff.rfl
      | ipv6 => exact Bool.eq_iff_iff.mp (h hwss htunnel)
    · cases t <;> exact Iff.rfl

theorem Processed.spawned_iff (h : Processed c) :
    (∀ listen background ssl, .spawnStudProcess listen background ssl ∈ runServers (postCheck c) →
        listen.1.isSome = true) ↔
      (c.sipWss = true → c.websocket.useTlsTunnel = true → c.sip.enable .ipv6 = true →
        c.websocket.enable .ipv6 = true) := by
  constructor
  · intro hspawned hwss htunnel hsip
    have hmem := (mem_spawned_iff (postCheck c)).mpr (.inr ⟨.ipv6, htunnel, hsip, hwss, rfl, rfl, rfl⟩)
    exact (h.websocket .ipv6).trans (hspawned _ _ _ hmem)
  · intro hcond listen background ssl hmem
    rcases (mem_spawned_iff (postCheck c)).mp hmem with ⟨v, -, hv, -, rfl, -⟩ | ⟨v, htunnel, hv, hwss, rfl, -⟩
    · exact (h.sip v).symm.trans hv
    · refine (h.websocket v).symm.trans ?_
      cases v with
      | ipv4 => exact hv
      | ipv6 => exact hcond hwss htunnel hv

theorem opened_append (udp : Bool) (l l' : List Action) : opened udp (l ++ l') = opened udp l ++ opened udp l' :=
  List.filterMap_append

theorem opened_udp (c : Configuration) : opened true (runServers (postCheck c)) = udpBinds c := by
  have htls : opened true (if (postCheck c).sip.useTlsTunnel then
      tunnelServers .sip .tlsTunnel .tls c.sipTls c.sip.enable (postCheck c).sip false
      else servers .sip .tls c.sipTls (postCheck c).sip c.sip.listenPortTls) = [] := by
    split
    · exact opened_tunnelServers_udp rfl
    · exact opened_servers_of_other rfl
  have hwss : opened true (if (postCheck c).websocket.useTlsTunnel then
      tunnelServers .websocket .wssTunnel .wss c.sipWss (wssTunnelEnable (postCheck c)) (postCheck c).websocket true
      else servers .websocket .wss c.sipWss (postCheck c).websocket c.websocket.listenPortTls) = [] := by
    split
    · exact opened_tunnelServers_udp rfl
    · exact opened_servers_of_other rfl
  have hudp : opened true (servers .sip .udp c.sipUdp (postCheck c).sip c.sip.listenPort) = udpBinds c :=
    opened_servers rfl
  have htcp : opened true (servers .sip .tcp c.sipTcp (postCheck c).sip c.sip.listenPort) = [] :=
    opened_servers_of_other rfl
  have hws : opened true (servers .websocket .ws c.sipWs (postCheck c).websocket c.websocket.listenPort) = [] :=
    opened_servers_of_other rfl
  calc opened true (runServers (postCheck c))
      = udpBinds c ++ [] ++ [] ++ [] ++ [] := by
        unfold runServers
        simp only [opened_append]
        exact congrArg₂ _ (congrArg₂ _ (congrArg₂ _ (congrArg₂ _ hudp htcp) htls) hws) hwss
    _ = udpBinds c := by simp only [List.append_nil]

/-- The servers for TLS of a section, whose enabled versions are those of the section. -/
theorem opened_tls {launcher : Launcher} {native tunnel outer : ListenerTransport} {on ssl : Bool} {a : Addresses}
    (hnative : (native == .udp) = false) (htunnel : (tunnel == .udp) = false) :
    opened false (if a.useTlsTunnel then tunnelServers launcher tunnel outer on a.enable a.clearTunnel ssl
        else servers launcher native on a.clearTunnel a.listenPortTls) =
      forEach a.enable fun v => if on then [tlsBind a a.useTlsTunnel v] else [] := by
  split
  · next h =>
    rw [opened_tunnelServers htunnel]
    simp only [tlsBind, Addresses.clearTunnel, h, if_true]
  · next h =>
    rw [opened_servers (by rw [hnative]; rfl)]
    simp only [tlsBind, h]
    rfl

/-- The versions that `run_servers` starts WSS for. -/
def wssServed (c : Configuration) (v : IpType) : Bool :=
  if c.websocket.useTlsTunnel then wssTunnelEnable c v else c.websocket.enable v

/-- The sockets for WSS. -/
def wssBinds (c : Configuration) (enable : IpType → Bool) (useTlsTunnel : Bool) : List Bind :=
  forEach enable fun v => if c.sipWss then [tlsBind c.websocket useTlsTunnel v] else []

theorem opened_wss (c : Configuration) :
    opened false (if c.websocket.useTlsTunnel then
        tunnelServers .websocket .wssTunnel .wss c.sipWss (wssTunnelEnable c) c.websocket.clearTunnel true
      else servers .websocket .wss c.sipWss c.websocket.clearTunnel c.websocket.listenPortTls) =
      wssBinds c (wssServed c) c.websocket.useTlsTunnel := by
  unfold wssBinds
  split
  · next h =>
    have hserved : wssServed c = wssTunnelEnable c := funext fun _ => if_pos h
    rw [opened_tunnelServers rfl, hserved]
    simp only [tlsBind, Addresses.clearTunnel, h, if_true]
  · next h =>
    have hserved : wssServed c = c.websocket.enable := funext fun _ => if_neg h
    rw [opened_servers rfl, hserved]
    simp only [tlsBind, h]
    rfl

/-- The TCP sockets but those for WSS. -/
def otherBinds (c : Configuration) : List Bind :=
  (forEach c.sip.enable fun v => if c.sipTcp then [(c.sip.listen v, c.sip.listenPort)] else []) ++
  (forEach c.sip.enable fun v => if c.sipTls then [tlsBind c.sip c.sip.useTlsTunnel v] else []) ++
  forEach c.websocket.enable fun v => if c.sipWs then [(c.websocket.listen v, c.websocket.listenPort)] else []

theorem opened_tcp (c : Configuration) : opened false (runServers (postCheck c)) =
    otherBinds c ++ wssBinds c (wssServed c) c.websocket.useTlsTunnel := by
  have hudp : opened false (servers .sip .udp c.sipUdp (postCheck c).sip c.sip.listenPort) = [] :=
    opened_servers_of_other rfl
  have htcp : opened false (servers .sip .tcp c.sipTcp (postCheck c).sip c.sip.listenPort) =
      forEach c.sip.enable fun v => if c.sipTcp then [(c.sip.listen v, c.sip.listenPort)] else [] :=
    opened_servers rfl
  have htls : opened false (if (postCheck c).sip.useTlsTunnel then
      tunnelServers .sip .tlsTunnel .tls c.sipTls c.sip.enable (postCheck c).sip false
      else servers .sip .tls c.sipTls (postCheck c).sip c.sip.listenPortTls) =
      forEach c.sip.enable fun v => if c.sipTls then [tlsBind c.sip c.sip.useTlsTunnel v] else [] :=
    opened_tls (a := c.sip) rfl rfl
  have hws : opened false (servers .websocket .ws c.sipWs (postCheck c).websocket c.websocket.listenPort) =
      forEach c.websocket.enable fun v =>
        if c.sipWs then [(c.websocket.listen v, c.websocket.listenPort)] else [] :=
    opened_servers rfl
  unfold runServers
  simp only [opened_append]
  refine (congrArg₂ _ (congrArg₂ _ (congrArg₂ _ (congrArg₂ _ hudp htcp) htls) hws) (opened_wss c)).trans ?_
  rw [List.nil_append]
  rfl

theorem tried_tcp (c : Configuration) :
    (otherBinds c ++ wssBinds c c.websocket.enable c.sip.useTlsTunnel).Perm (tcpBinds c) := by
  unfold otherBinds
  rw [List.append_assoc]
  exact (forEach_append_perm _ _).append (forEach_append_perm _ _)

/-- All other sockets are tried and opened alike. -/
theorem perm_tcpBinds_iff (c : Configuration) :
    (opened false (runServers (postCheck c))).Perm (tcpBinds c) ↔
      (wssBinds c (wssServed c) c.websocket.useTlsTunnel).Perm
        (wssBinds c c.websocket.enable c.sip.useTlsTunnel) := by
  rw [opened_tcp]
  constructor
  · intro h
    exact (List.perm_append_left_iff _).mp (h.trans (tried_tcp c).symm)
  · intro h
    exact (h.append_left _).trans (tried_tcp c)

theorem wssServed_ipv4 (c : Configuration) : wssServed c .ipv4 = c.websocket.enable .ipv4 := by
  unfold wssServed
  split <;> rfl

theorem perm_wssBinds (h : c.sipWss = true → TunnelsAgree c) :
    (wssBinds c (wssServed c) c.websocket.useTlsTunnel).Perm
      (wssBinds c c.websocket.enable c.sip.useTlsTunnel) := by
  unfold wssBinds
  by_cases hw : c.sipWss = true
  · obtain ⟨hv6, htunnel⟩ := h hw
    have hserved : wssServed c = c.websocket.enable := by
      funext v
      cases v with
      | ipv4 => exact wssServed_ipv4 c
      | ipv6 =>
        unfold wssServed
        split
        · next hwebsocket => exact hv6 hwebsocket
        · rfl
    rw [hserved]
    rcases htunnel with htunnel | hnone
    · rw [htunnel]
    · have hempty (l : IpType → List Bind) : forEach c.websocket.enable l = [] := by
        rw [forEach, hnone, hnone]
        rfl
      rw [hempty, hempty]
  · have hempty (enable : IpType → Bool) (f : IpType → Bind) :
        (forEach enable fun v => if c.sipWss then [f v] else []) = [] := by
      rw [Bool.not_eq_true] at hw
      unfold forEach
      simp only [hw, Bool.false_eq_true, if_false, ite_self, List.append_nil]
    rw [hempty, hempty]

theorem mem_wssBinds {enable : IpType → Bool} {useTlsTunnel : Bool} {bind : Bind} (hw : c.sipWss = true) :
    bind ∈ wssBinds c enable useTlsTunnel ↔ ∃ v, enable v = true ∧ bind = tlsBind c.websocket useTlsTunnel v := by
  rw [wssBinds, mem_forEach]
  refine exists_congr fun v => and_congr_right fun _ => ?_
  rw [if_pos hw, List.mem_singleton]

theorem length_wssBinds (enable : IpType → Bool) (useTlsTunnel : Bool) (hw : c.sipWss = true) :
    (wssBinds c enable useTlsTunnel).length = (enable .ipv4).toNat + (enable .ipv6).toNat := by
  rw [wssBinds, forEach, List.length_append, hw]
  cases enable .ipv4 <;> cases enable .ipv6 <;> rfl

theorem port_tlsBind (a : Addresses) (useTlsTunnel : Bool) (v : IpType) :
    (tlsBind a useTlsTunnel v).2 = if useTlsTunnel then a.listenPortTlsTunnel else a.listenPortTls := by
  rw [tlsBind]
  split <;> rfl

/-- Sockets of different numbers, or of different ports, are not the same. -/
theorem tunnelsAgree_of_perm (hports : c.websocket.listenPortTls ≠ c.websocket.listenPortTlsTunnel)
    (hw : c.sipWss = true)
    (h : (wssBinds c (wssServed c) c.websocket.useTlsTunnel).Perm
      (wssBinds c c.websocket.enable c.sip.useTlsTunnel)) : TunnelsAgree c := by
  constructor
  · intro htunnel
    -- each side has a socket for each of its versions, and IPv4 is the same
    have hlength := h.length_eq
    rw [length_wssBinds _ _ hw, length_wssBinds _ _ hw, wssServed_ipv4, Nat.add_left_cancel_iff] at hlength
    have hserved : wssServed c .ipv6 = c.sip.enable .ipv6 := by
      rw [wssServed, if_pos htunnel]
      rfl
    rw [hserved] at hlength
    revert hlength
    cases c.sip.enable .ipv6 <;> cases c.websocket.enable .ipv6 <;> decide
  · by_cases htunnel : c.websocket.useTlsTunnel = c.sip.useTlsTunnel
    · exact .inl htunnel
    · refine .inr fun v => ?_
      by_contra hv
      rw [Bool.not_eq_false] at hv
      -- a socket of both sides has the port of the tunnel on one and the port of TLS on the other
      obtain ⟨v', -, hbind⟩ := (mem_wssBinds hw).mp (h.mem_iff.mpr ((mem_wssBinds hw).mpr ⟨v, hv, rfl⟩))
      have hport := congrArg Prod.snd hbind
      rw [port_tlsBind, port_tlsBind] at hport
      cases hsip : c.sip.useTlsTunnel <;> cases hwebsocket : c.websocket.useTlsTunnel <;> rw [hsip, hwebsocket] at hport
      · exact htunnel (hwebsocket.trans hsip.symm)
      · exact hports hport
      · exact hports hport.symm
      · exact htunnel (hwebsocket.trans hsip.symm)

end servers

/-- **The sockets that are tried and the servers that are started.** For every configuration file and whatever addresses
the machine finds: a server that is started has an address and a port; the servers are those that the configuration asks
for exactly when the sections `sip` and `websocket` agree on IPv6 behind the tunnel of WSS; and the sockets that
`post_check` tries are the ones that are opened where the sections agree on the tunnel as well, and only there when the
two ports differ. -/
theorem listens_of_postProcess (discoverLocalIp : IpType → Option String) (c : ReadConfiguration) :
    Listens (postProcess discoverLocalIp c) (runServers (postCheck (postProcess discoverLocalIp c))) := by
  have hprocessed := processed_postProcess discoverLocalIp c
  exact
    { addressed := hprocessed.addressed
      asked := asked_iff
      spawned := hprocessed.spawned_iff
      udp := opened_udp _
      tcp := fun h => (perm_tcpBinds_iff _).mpr (perm_wssBinds h)
      tunnelsAgree := fun hports h hw => tunnelsAgree_of_perm hports hw ((perm_tcpBinds_iff _).mp h) }

end Listeners

end OverSip
