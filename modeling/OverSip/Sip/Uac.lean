import OverSip.Sip.Client
import OverSip.Sip.InviteClientTransaction
import OverSip.Sip.NonInviteClientTransaction
import OverSip.Sip.UacRequest
import OverSip.Utils.HaproxyProtocol

/-!
# A UAC with its client transactions

`Uac` (`uac.rb`) with what it takes over from `Client` (`client.rb`), and the client transactions that it makes
(`client_transaction.rb`): which class a request gets, what each `send_request` calls, and how the responses and the
timers of a transaction come back to the core.

The answers of the DNS, the contents of the blacklist and the calls of `abort_routing` are the environment's. An
exception ends the handling of an event; it is the last output.
-/

namespace OverSip

/-! ## Destinations -/

/-- `dst_scheme`, `dst_host`, `dst_host_type`, `dst_port` and `dst_transport` -/
structure UacDestination where
  scheme : UriScheme
  host : Option Bytes
  hostType : Option HostType
  port : Option ℕ
  transport : Option RubyName
deriving DecidableEq, Repr

/-- The arguments of `route` behind the request. -/
structure UacRouteArgs where
  dstHost : Option Bytes
  dstPort : Option ℕ
  dstTransport : Option RubyName
deriving DecidableEq, Repr

/-- The destination that is forced, or that of the request URI; `normalizeIpv6` is the method with `true`. -/
def UacRequest.destination (normalizeIpv6 : Bytes → Bytes) (r : UacRequest) (args : UacRouteArgs) : UacDestination :=
  let f := r.ruri.fields
  let d : UacDestination :=
    match args.dstHost with
    | some host => ⟨.sip, some host, some (hostTypeOf host), args.dstPort, args.dstTransport⟩
    | none => ⟨f.scheme, f.host, f.hostType, f.port, f.transportParam⟩
  if d.hostType = some .ipv6Reference then { d with host := d.host.map normalizeIpv6, hostType := some .ipv6 } else d

/-- What comes of a destination: the targets, an error, or a wait for the DNS. -/
inductive UacRouting
  | resolved (targets : List Rfc3263.Target)
  | failed (e : Rfc3263.Rfc3263Error)
  | wait
deriving DecidableEq, Repr

/-- There is a server class for the target. -/
def usableTarget (t : Rfc3263.Target) : Bool :=
  t.transport == some .udp || t.transport == some .tcp || t.transport == some .tls

/-- The key of a target in the blacklist. -/
def blacklistKey (t : Rfc3263.Target) : String :=
  let ip :=
    match t.ipType with
    | .ipv4 => t.ip
    | .ipv6 => "[" ++ t.ip ++ "]"
  (t.transport.elim "" Transport.name) ++ ":" ++ ip ++ ":" ++ t.port.elim "" toString

/-! ## Client transactions -/

/-- The classes of client transactions. -/
inductive TransactionClass
  | invite | ack | nonInvite
deriving DecidableEq, Repr

/-- `ClientTransaction.get_class`, which compares with Symbols. -/
def getClass (sipMethod : RubyName) : TransactionClass :=
  if sipMethod = .symbol (ascii "INVITE") then .invite
  else if sipMethod = .symbol (ascii "ACK") then .ack
  else .nonInvite

/-- The methods of the request that `route`, `initialize` and `send_request` call up to the sending. A `Uac` is no
`Proxy`, so the class for other methods does not come to `in_rr`. -/
def sendingCalls : TransactionClass → List RequestMethod
  | .invite => [.ruri, .viaBranchId, .sipMethod, .antiloopId, .insertHeader, .inRr, .toS, .deleteHeaderTop]
  | .ack => [.ruri, .viaBranchId, .sipMethod, .antiloopId, .insertHeader, .toS]
  | .nonInvite => [.ruri, .viaBranchId, .sipMethod, .antiloopId, .insertHeader, .toS, .deleteHeaderTop]

/-- A client transaction of a `Uac`. -/
inductive UacTransaction
  | invite (s : IctSystem)
  | ack
  | nonInvite (s : NictSystem)

/-- What an `InviteClientTransaction` is given; a `UacRequest` has no more to give. -/
def UacRequest.toRequest (r : UacRequest) : Request :=
  { uac := true, ruri := rubyString (r.ruri.uri.getD []), hdrRoute := none, hdrFrom := "", hdrTo := "", toTag := none
    callId := rubyString r.callId, cseq := r.cseq }

/-! ## The object -/

structure UacConf where
  transactionConf : TransactionConf
  dnsFailoverOn503 : Bool
  normalizeIpv6 : Bytes → Bytes
  /-- `via_core` of the server class -/
  viaCore : Transport → IpType → Bytes

/-- What the environment decides while an event is handled; a target is named by its number. -/
structure UacEnv where
  blacklist : ℕ → String → Option Cause
  /-- `@aborted`, behind the callbacks of the target -/
  abortRouting : ℕ → Bool
  /-- `::SecureRandom.hex(4)` -/
  transactionHex : Bytes
  /-- The connection to the target is not there yet. -/
  newConnection : Bool

structure Uac where
  node : UacNode
  conf : UacConf
  request : UacRequest
  /-- The targets that have not been tried. -/
  left : List Rfc3263.Target
  numTarget : ℕ
  transactions : List UacTransaction
  /-- The calls of `route`, and those that wait for the DNS. -/
  calls : ℕ
  waiting : List ℕ
  now : ℕ

/-- What is seen of a `Uac`. -/
inductive UacOutput
  | onTarget (n : ℕ) (t : Rfc3263.Target)
  | blacklisted (n : ℕ)
  | aborted (n : ℕ)
  /-- A client transaction for the target is made. -/
  | using (n : ℕ) (t : Rfc3263.Target)
  /-- `send_sip_msg` with the request -/
  | sent (n : ℕ) (text : Bytes)
  /-- A later `send_sip_msg` of a client transaction. -/
  | sentLater (i : ℕ) (m : WireMsg)
  | onProvisionalResponse (r : Response)
  | onSuccessResponse (r : Response)
  | onFailureResponse (r : Response)
  | onInviteTimeout
  | onError (cause : Cause)
  | onDnsError (e : Rfc3263.Rfc3263Error)
  | raised (e : RubyError)
deriving DecidableEq, Repr

namespace Uac

/-- A `Uac` for the request. -/
def new (node : UacNode) (conf : UacConf) (request : UacRequest) : Uac :=
  { node, conf, request, left := [], numTarget := 0, transactions := [], calls := 0, waiting := [], now := 0 }

/-! ## Targets -/

/-- `"#{@server_klass.via_core};branch=z9hG4bK#{@transaction_id};rport"`; an ACK has no `rport`. -/
def topVia (env : UacEnv) (u : Uac) (transport : Transport) (ipType : IpType) (rport : Bytes) : Bytes :=
  u.conf.viaCore transport ipType ++ ascii ";branch=z9hG4bK" ++ env.transactionHex ++ u.request.antiloopId ++ rport

/-- The transaction of a class, before `send_request` has come to the sending. -/
def unsentTransaction (u : Uac) (transport : Transport) (via : String) : TransactionClass → UacTransaction
  | .invite => .invite
      { ict := ((InviteClientTransaction.new u.request.toRequest u.conf.transactionConf transport via u.now).sendRequest).1
        pending := false }
  | .ack => .ack
  | .nonInvite => .nonInvite
      { nict := { NonInviteClientTransaction.new u.conf.transactionConf transport via u.now with stored := true }
        pending := false }

/-- The transaction that has sent. -/
def sentTransaction (env : UacEnv) (u : Uac) (transport : Transport) (via : String) :
    TransactionClass → UacTransaction
  | .invite => .invite (IctSystem.start u.request.toRequest u.conf.transactionConf transport via env.newConnection u.now)
  | .ack => .ack
  | .nonInvite => .nonInvite (NictSystem.start u.conf.transactionConf transport via env.newConnection u.now)

/-- `new` and `send_request` of the class for the request, with a server class. -/
def sendRequest (env : UacEnv) (u : Uac) (transport : Transport) (ipType : IpType) : Uac × List UacOutput :=
  let klass := getClass u.request.sipMethod
  let via := u.topVia env transport ipType (if klass = .ack then [] else ascii ";rport")
  let inserted := u.request.insertHeader (ascii "Via") via
  let unsent := u.unsentTransaction transport (rubyString via) klass
  match UacRequest.call (sendingCalls klass) with
  | .error e => ({ u with request := inserted, transactions := u.transactions ++ [unsent] }, [.raised e])
  | .ok () =>
    match inserted.toS u.node with
    | (request, .error e) => ({ u with request, transactions := u.transactions ++ [unsent] }, [.raised e])
    | (request, .ok text) =>
      let request := if klass = .ack then request else request.deleteHeaderTop (ascii "Via")
      let sent := u.sentTransaction env transport (rubyString via) klass
      ({ u with request, transactions := u.transactions ++ [sent] }, [.sent u.numTarget text])

/-- A client transaction for a target; without a server class `get_connection` raises. -/
def startTransaction (env : UacEnv) (u : Uac) (t : Rfc3263.Target) : Uac × List UacOutput :=
  match t.transport with
  | none | some .ws | some .wss => (u, [.using u.numTarget t, .raised .noMethodError])
  | some transport =>
    let p := u.sendRequest env transport t.ipType
    (p.1, .using u.numTarget t :: p.2)

/-- `no_more_targets` -/
def noMoreTargets (cause : Cause) : UacOutput :=
  match cause.fullResponse with
  | some r => .onFailureResponse r
  | none => .onError cause

/-- `try_next_target` and `use_target`, with the targets that are left. -/
def tryTargets (env : UacEnv) (u : Uac) (cause : Cause) : List Rfc3263.Target → Uac × List UacOutput
  | [] => ({ u with left := [] }, [noMoreTargets cause])
  | t :: rest =>
    let u := { u with left := rest, numTarget := u.numTarget + 1 }
    let n := u.numTarget
    match env.blacklist n (blacklistKey t) with
    | some entry =>
      let p := tryTargets env u entry rest
      (p.1, .blacklisted n :: p.2)
    | none =>
      if env.abortRouting n then
        ({ u with left := [] },
          [.onTarget n t, .aborted n, noMoreTargets (.error 403 "Destination Aborted" .destinationAborted)])
      else
        let p := u.startTransaction env t
        (p.1, .onTarget n t :: p.2)

def tryNextTarget (env : UacEnv) (u : Uac) (cause : Cause) : Uac × List UacOutput := u.tryTargets env cause u.left

/-- `rfc3263_succeeded` -/
def rfc3263Succeeded (env : UacEnv) (u : Uac) (targets : List Rfc3263.Target) : Uac × List UacOutput :=
  { u with numTarget := 0, left := targets }.tryNextTarget env .none

/-! ## Calls of the client transactions -/

/-- `receive_response` -/
def receiveResponse (env : UacEnv) (u : Uac) (r : Response) : Uac × List UacOutput :=
  if r.statusCode < 200 then (u, [.onProvisionalResponse r])
  else if r.statusCode ≤ 299 then (u, [.onSuccessResponse r])
  else if r.statusCode = 503 ∧ u.conf.dnsFailoverOn503 = true then
    u.tryNextTarget env { Cause.none with fullResponse := some r }
  else (u, [.onFailureResponse r])

/-- The methods that a client transaction calls. -/
def coreCall (env : UacEnv) (u : Uac) : CoreCall → Uac × List UacOutput
  | .receiveResponse r => u.receiveResponse env r
  | .clientTimeout => u.tryNextTarget env (.error 408 "Client Timeout" .clientTimeout)
  | .connectionFailed => u.tryNextTarget env (.error 500 "Connection Error" .connectionError)
  | .tlsValidationFailed => u.tryNextTarget env (.error 500 "TLS Validation Failed" .tlsValidationFailed)
  | .inviteTimeout => (u, [.onInviteTimeout])

/-- What the transaction `i` puts out, one after the other. -/
def handOver (env : UacEnv) (i : ℕ) (u : Uac) : List Out → Uac × List UacOutput
  | [] => (u, [])
  | .send m :: rest =>
    let p := handOver env i u rest
    (p.1, .sentLater i m :: p.2)
  | .core c :: rest =>
    let p := u.coreCall env c
    let q := handOver env i p.1 rest
    (q.1, p.2 ++ q.2)
  | .raise e :: _ => (u, [.raised e])

/-! ## Events -/

/-- An event of a client transaction. A response, and `tvars` of its request, is read by both classes. -/
inductive TransactionEvent
  | invite (ev : InviteClientTransaction.Event)
  | nonInvite (ev : NonInviteClientTransaction.Event)
deriving DecidableEq, Repr

inductive Event
  | route (args : UacRouteArgs) (resolve : UacDestination → UacRouting)
  | dnsSucceeded (call : ℕ) (targets : List Rfc3263.Target)
  | dnsFailed (call : ℕ) (e : Rfc3263.Rfc3263Error)
  | transaction (i : ℕ) (ev : TransactionEvent)

/-- The targets that an event brings. -/
def Event.targets (u : Uac) : Event → Option (List Rfc3263.Target)
  | .route args resolve =>
    match resolve (u.request.destination u.conf.normalizeIpv6 args) with
    | .resolved targets => some targets
    | _ => none
  | .dnsSucceeded _ targets => some targets
  | _ => none

/-- An event with its time and what the environment decides. -/
structure EnvEvent where
  env : UacEnv
  time : ℕ
  ev : Event

/-- `route` -/
def route (env : UacEnv) (u : Uac) (args : UacRouteArgs) (resolve : UacDestination → UacRouting) :
    Uac × List UacOutput :=
  let u := { u with calls := u.calls + 1 }
  match resolve (u.request.destination u.conf.normalizeIpv6 args) with
  | .resolved targets => u.rfc3263Succeeded env targets
  | .failed e => (u, [.onDnsError e])
  | .wait => ({ u with waiting := u.waiting ++ [u.calls] }, [])

/-- An event of the transaction `i`, if it can happen. -/
def transactionStep (time : ℕ) (ev : TransactionEvent) : UacTransaction → Option (UacTransaction × List Out)
  | .invite s =>
    match ev with
    | .invite ev => (s.step ⟨time, ev⟩).map fun p => (.invite p.1, p.2)
    | .nonInvite _ => none
  | .ack => none
  | .nonInvite s =>
    match ev with
    | .invite _ => none
    | .nonInvite ev => (s.step ⟨time, ev⟩).map fun p => (.nonInvite p.1, p.2)

/-- One event, at a clock that never goes back. -/
def step (u : Uac) (e : EnvEvent) : Option (Uac × List UacOutput) :=
  if u.now ≤ e.time then
    let u := { u with now := e.time }
    match e.ev with
    | .route args resolve => some (u.route e.env args resolve)
    | .dnsSucceeded call targets =>
      if call ∈ u.waiting then some ({ u with waiting := u.waiting.erase call }.rfc3263Succeeded e.env targets) else none
    | .dnsFailed call err =>
      if call ∈ u.waiting then some ({ u with waiting := u.waiting.erase call }, [.onDnsError err]) else none
    | .transaction i ev =>
      (u.transactions[i]?).bind fun transaction =>
        (transactionStep e.time ev transaction).map fun p =>
          { u with transactions := u.transactions.set i p.1 }.handOver e.env i p.2
  else none

end Uac

end OverSip
