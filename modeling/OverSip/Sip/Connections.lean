import OverSip.Lib.Machine
import OverSip.Sip.Message
import Mathlib.Logic.Function.Basic

/-!
# The connections and the tables they are found in

The connection classes of `sip/listeners` and `websocket/listeners` with their `connections` tables, and
the module `TransportManager` (`transport_manager.rb`). A client class shares the tables of its server
class. A connection registers under its remote address when it is accepted or made; one of the TLS tunnel
does when the PROXY line announces the client's address, in the table of the TLS server class of that
address.

`normalize_ipv6` is a parameter: nothing depends on how an IPv6 address is spelled.
-/

namespace OverSip

inductive IpType
  | ipv4 | ipv6
deriving DecidableEq, Repr

/-- The connection classes, without the IP type. -/
inductive ConnKind
  | udpServer | tcpServer | tlsServer | tcpClient | tlsClient | tlsTunnelServer
  | wsServer | wssServer | wssTunnelServer
deriving DecidableEq, Repr

/-- A connection class, such as `IPv4TcpServer`. -/
structure ConnClass where
  kind : ConnKind
  ipType : IpType
deriving DecidableEq, Repr

namespace ConnClass

/-- The class whose `connections` and transaction tables a class uses: `@server_class` for a client
class, and itself for another one. -/
def serverClass (k : ConnClass) : ConnClass :=
  match k.kind with
  | .tcpClient => { k with kind := .tcpServer }
  | .tlsClient => { k with kind := .tlsServer }
  | _ => k

/-- The class of the connections that `get_connection` makes for a server class. -/
def clientClass (k : ConnClass) : Option ConnClass :=
  match k.kind with
  | .tcpServer => some { k with kind := .tcpClient }
  | .tlsServer => some { k with kind := .tlsClient }
  | _ => none

end ConnClass

/-- A connection object. -/
structure Connection where
  klass : ConnClass
  /-- `unbind` has not been called. -/
  bound : Bool
  connectionId : Option String
  /-- The IP type that a PROXY line announced. -/
  remoteIpType : Option IpType
  outboundFlowToken : Option String
deriving DecidableEq, Repr

/-- A connection of which nothing is known yet. -/
def Connection.fresh (klass : ConnClass) : Connection :=
  { klass, bound := true, connectionId := none, remoteIpType := none, outboundFlowToken := none }

/-- All connections made so far, the `connections` of the classes and `@outbound_connections`. The place
of a connection is its identity. -/
structure TransportManager where
  connections : List Connection
  tables : ConnClass → String → Option Nat
  outbound : String → Option Nat

namespace TransportManager

/-- The start, with a UDP server for each enabled IP type. -/
def start (udp : List IpType) : TransportManager :=
  { connections := udp.map fun t => .fresh ⟨.udpServer, t⟩
    tables := fun _ _ => none, outbound := fun _ => none }

section
variable (normalizeIpv6 : String → String)

/-- The key of a remote address. -/
def connectionKey (t : IpType) (ip : String) (port : Nat) : String :=
  match t with
  | .ipv4 => s!"{ip}_{port}"
  | .ipv6 => s!"{normalizeIpv6 ip}_{port}"

/-- `klass.connections[id]`. -/
def lookup (m : TransportManager) (k : ConnClass) (id : String) : Option Nat :=
  m.tables k.serverClass id

/-- `klass.connections[id] = entry`, or `delete` when there is none. -/
def store (m : TransportManager) (k : ConnClass) (id : String) (entry : Option Nat) :
    TransportManager :=
  { m with tables :=
      Function.update m.tables k.serverClass (Function.update (m.tables k.serverClass) id entry) }

def storeOutbound (m : TransportManager) (token : String) (entry : Option Nat) : TransportManager :=
  { m with outbound := Function.update m.outbound token entry }

/-- `add_connection`, for the new connection `c`. -/
def register (m : TransportManager) (c : Connection) (t : IpType) (ip : String) (port : Nat) :
    TransportManager :=
  let id := connectionKey normalizeIpv6 t ip port
  { m with connections := m.connections ++ [{ c with connectionId := some id }] }.store c.klass id
    (some m.connections.length)

/-- `post_connection` of an accepted connection. Without a peer address the connection is closed at
once. -/
def accept (m : TransportManager) (klass : ConnClass) (peer : Option (String × Nat))
    (token : String) : Option TransportManager :=
  let c : Connection := .fresh klass
  let opened := { c with outboundFlowToken := some token }
  match klass.kind, peer with
  | .udpServer, _ | .tcpClient, _ | .tlsClient, _ => none
  | _, none => some { m with connections := m.connections ++ [c] }
  | .tcpServer, some (ip, port) | .tlsServer, some (ip, port)
  | .wsServer, some (ip, port) | .wssServer, some (ip, port) =>
    some ((m.register normalizeIpv6 opened klass.ipType ip port).storeOutbound token
      (some m.connections.length))
  -- the tunnel registers when the PROXY line comes
  | .tlsTunnelServer, some _ | .wssTunnelServer, some _ =>
    some ({ m with connections := m.connections ++ [opened] }.storeOutbound token
      (some m.connections.length))

/-- `get_connection`: the table of the class it is called with, or a new client connection. -/
def getConnection (m : TransportManager) (klass : ConnClass) (ip : String) (port : Nat) :
    Option (TransportManager × Nat) :=
  match klass.clientClass with
  | some client =>
    match m.lookup klass (connectionKey normalizeIpv6 klass.ipType ip port) with
    | some i => some (m, i)
    | none =>
      some (m.register normalizeIpv6 (.fresh client) klass.ipType ip port, m.connections.length)
  | none =>
    if klass.kind = .udpServer then
      (m.connections.findIdx? fun c => c.klass == klass).map fun i => (m, i)
    else none

/-- A flow token: one of a UDP flow carries the address, another one is a key of
`@outbound_connections`. -/
inductive Flow
  | udp (t : IpType)
  | token (s : String)
deriving DecidableEq, Repr

/-- `get_outbound_connection`. -/
def getOutboundConnection (m : TransportManager) : Flow → Option Nat
  | .udp t => m.connections.findIdx? fun c => c.klass == ⟨.udpServer, t⟩
  | .token s => m.outbound s

/-- `parse_haproxy_protocol` of a tunnel connection, for a line that announces this address. The TLS
tunnel passes a `TlsServer` as class; the one of secure WebSocket does not register. -/
def proxyLine (m : TransportManager) (i : Nat) (c : Connection) (t : IpType) (ip : String)
    (port : Nat) : Option TransportManager :=
  if c.bound = false ∨ c.outboundFlowToken = none ∨ c.remoteIpType ≠ none then none
  else
    let id := connectionKey normalizeIpv6 t ip port
    match c.klass.kind with
    | .tlsTunnelServer =>
      let c := { c with remoteIpType := some t, connectionId := some id }
      some ({ m with connections := m.connections.set i c }.store ⟨.tlsServer, t⟩ id (some i))
    | .wssTunnelServer =>
      some { m with connections := m.connections.set i { c with remoteIpType := some t } }
    | _ => none

/-- `self.class.connections.delete @connection_id`; deleting `nil` deletes nothing. -/
def deleteConnection (m : TransportManager) (c : Connection) : TransportManager :=
  match c.connectionId with
  | some id => m.store c.klass id none
  | none => m

/-- `delete_outbound_connection @outbound_flow_token`. -/
def deleteOutboundConnection (m : TransportManager) (c : Connection) : TransportManager :=
  match c.outboundFlowToken with
  | some token => m.storeOutbound token none
  | none => m

/-- `unbind`. -/
def unbind (m : TransportManager) (i : Nat) (c : Connection) : Option TransportManager :=
  if c.bound ∧ c.klass.kind ≠ .udpServer then
    let m := { m with connections := m.connections.set i { c with bound := false } }
    some ((m.deleteConnection c).deleteOutboundConnection c)
  else none

/-- What can happen to the connections. -/
inductive Event
  | accept (klass : ConnClass) (peer : Option (String × Nat)) (token : String)
  | getConnection (klass : ConnClass) (ip : String) (port : Nat)
  | proxyLine (i : Nat) (t : IpType) (ip : String) (port : Nat)
  | unbind (i : Nat)
deriving DecidableEq, Repr

/-- One event; what is put out is the connection that `get_connection` returns. -/
def step (m : TransportManager) : Event → Option (TransportManager × List Nat)
  | .accept klass peer token => (m.accept normalizeIpv6 klass peer token).map fun m => (m, [])
  | .getConnection klass ip port =>
    (m.getConnection normalizeIpv6 klass ip port).map fun (m, i) => (m, [i])
  | .proxyLine i t ip port =>
    match m.connections[i]? with
    | some c => (m.proxyLine normalizeIpv6 i c t ip port).map fun m => (m, [])
    | none => none
  | .unbind i =>
    match m.connections[i]? with
    | some c => (m.unbind i c).map fun m => (m, [])
    | none => none

end

end TransportManager

end OverSip
