import OverSip.Lib.Machine
import OverSip.Sip.Rfc3263
import OverSip.Sip.RoutingHeaders

/-!
# The targets of a client

The classes `Client` and `Proxy` (`client.rb`, `proxy.rb`) as far as they route: which target is tried,
when a client transaction is made and with what request, and what `no_more_targets` is given.

The contents of the blacklist and the calls of `abort_routing` are the environment's, at each moment a
target is reached; such a moment is named by the `@num_target` of the time. A callback that calls `route`
again is run at the end of what a proxy does for an event, so the call is an event of its own. Of a client
transaction is kept where it sends to, and whether it can still fail.
-/

namespace OverSip

/-- The codes that `on_error` callbacks get. -/
inductive ErrorCode
  | destinationBlacklisted | destinationAborted | clientTimeout | connectionError
  | tlsValidationFailed | flowFailed
  | noDnsResolution | unsupportedUriScheme | unsupportedTransport | noIpv4 | noIpv6 | noDns
deriving DecidableEq, Repr

/-- The arguments of `try_next_target` and `no_more_targets`; an entry of the blacklist is one too. -/
structure Cause where
  status : Option Nat
  reason : Option String
  fullResponse : Option Response
  code : Option ErrorCode
deriving DecidableEq, Repr

/-- An error that the proxy names itself. -/
def Cause.error (status : Nat) (reason : String) (code : ErrorCode) : Cause :=
  ⟨some status, some reason, none, some code⟩

/-- The default arguments. -/
def Cause.none : Cause := ⟨.none, .none, .none, .none⟩

/-- The name of a transport symbol. -/
def Transport.name : Transport → String
  | .udp => "udp"
  | .tcp => "tcp"
  | .tls => "tls"
  | .ws => "ws"
  | .wss => "wss"

/-- The entries of a proxy configuration and the server classes. -/
structure ClientConf where
  recordRouting : RecordRouting
  dnsFailoverOn503 : Bool
  serverClass : Transport → IpType → ServerClass
  /-- The connection of the request is of the server class. -/
  sameClass : Transport → IpType → Bool

/-- The defaults of `proxies.conf`, on one server class. -/
def sampleClientConf : ClientConf :=
  { recordRouting := { doRecordRouting := true, recordRouteAll := false }
    dnsFailoverOn503 := true
    serverClass := fun _ _ => sampleServerClass
    sameClass := fun _ _ => true }

namespace Client

/-- A target that has a transport. -/
structure Target where
  transport : Transport
  ip : String
  ipType : IpType
  port : Nat
deriving DecidableEq, Repr

/-- Two hosts behind a domain. -/
def sampleTarget : Target := { transport := .udp, ip := "192.0.2.10", ipType := .ipv4, port := 5060 }

def otherTarget : Target := { sampleTarget with ip := "192.0.2.11" }

/-- `Target#to_s`, the key in the blacklist. -/
def Target.toS (t : Target) : String :=
  match t.ipType with
  | .ipv4 => t.transport.name ++ ":" ++ t.ip ++ ":" ++ toString t.port
  | .ipv6 => t.transport.name ++ ":[" ++ t.ip ++ "]:" ++ toString t.port

/-- What `rfc3263_succeeded` is given, with the weights drawn. -/
inductive Resolution
  | single (t : Target)
  /-- `SrvTargets` after `randomize`, or `MultiTargets` after `flatten`. -/
  | multiple (ts : List Target)
  /-- An object of another class. -/
  | other
deriving DecidableEq, Repr

/-- Where a client transaction sends to. -/
inductive Destination
  | target (t : Target)
  /-- The connection of the Outbound flow of the request. -/
  | flow
deriving DecidableEq, Repr

/-- A client transaction. -/
structure Attempt where
  destination : Destination
  /-- It can still fail or be answered. -/
  running : Bool
deriving DecidableEq, Repr

/-- What the environment decides while an event is handled. -/
structure Env where
  /-- The entry of the blacklist when a target is reached. -/
  blacklist : ℕ → String → Option Cause
  /-- An `on_target` callback calls `abort_routing`. -/
  abortRouting : ℕ → Bool
  /-- The Via of the client transaction that is made. -/
  topVia : String

/-- What is seen of a client, with the `@num_target` of the moment. -/
inductive Output
  | trying (n : ℕ) (t : Target)
  | blacklisted (n : ℕ) (entry : Cause)
  | onTarget (n : ℕ) (t : Target)
  | aborted (n : ℕ)
  /-- A client transaction is made and sends a copy of the request. -/
  | send (n : ℕ) (d : Destination) (copy : Headers)
  | noMoreTargets (cause : Cause)
  /-- `on_error` and the reply after a failed resolution or a lost flow. -/
  | failed (cause : Cause)
  /-- The callbacks and the reply for a response. -/
  | answered (r : Response)

end Client

open Client

/-- A `Client` with its request. -/
structure Client where
  conf : ClientConf
  request : RoutedRequest
  target : Option Client.Target
  targets : Option (List Client.Target)
  numTarget : Option ℕ
  currentTarget : Option Client.Target
  aborted : Bool
  /-- The client transactions made so far. -/
  attempts : List Attempt
  /-- The calls of `route` so far. -/
  calls : ℕ
  /-- The calls of `route` that wait for DNS. -/
  waiting : List ℕ

namespace Client

/-- A `Proxy` that has routed nothing yet. -/
def new (conf : ClientConf) (request : RoutedRequest) : Client :=
  { conf, request, target := none, targets := none, numTarget := none, currentTarget := none
    aborted := false, attempts := [], calls := 0, waiting := [] }

/-! ## Targets -/

/-- `ClientTransaction.new`, `add_routing_headers` and `send_request`. -/
def startTransaction (env : Env) (c : Client) (d : Destination) (klass : ServerClass) (same : Bool) :
    Client × List Output :=
  let r := c.request.setContentLength.addRoutingHeaders c.conf.recordRouting c.numTarget
  let sent := r.sendRequest klass same env.topVia
  ({ c with request := sent.2, attempts := c.attempts ++ [⟨d, true⟩] },
    [.send (c.numTarget.getD 0) d sent.1])

/-- The targets that are left. -/
def left (c : Client) : List Target :=
  match c.numTarget, c.target with
  | none, _ => []
  | some 0, some t => t :: (c.targets.getD []).drop 1
  | some n, _ => (c.targets.getD []).drop n

/-- A bound on the targets that can still be tried. -/
def bound (c : Client) : ℕ :=
  c.target.toList.length + (c.targets.getD []).length - c.numTarget.getD 0

mutual

/-- `try_next_target`. -/
def tryNextTarget (env : Env) (c : Client) (cause : Cause) : Client × List Output :=
  match _htarget : c.target, _hnum : c.numTarget with
  | some t, some 0 =>
    let p := useTarget env { c with currentTarget := some t, numTarget := some 1 } t
    (p.1, .trying 1 t :: p.2)
  | _, some n =>
    match hget : (c.targets.getD [])[n]? with
    | some t =>
      let p := useTarget env { c with currentTarget := some t, numTarget := some (n + 1) } t
      (p.1, .trying (n + 1) t :: p.2)
    | none => (c, [.noMoreTargets cause])
  | _, none => (c, [.noMoreTargets cause])
termination_by (c.bound, 0)
decreasing_by
  · refine Prod.Lex.left _ _ ?_
    simp only [bound, _htarget, _hnum, Option.getD_some, Option.toList_some, List.length_singleton]
    omega
  · refine Prod.Lex.left _ _ ?_
    have hlt := (List.getElem?_eq_some_iff.mp hget).1
    simp only [bound, _hnum, Option.getD_some]
    omega

/-- `use_target`. -/
def useTarget (env : Env) (c : Client) (t : Target) : Client × List Output :=
  let n := c.numTarget.getD 0
  match env.blacklist n t.toS with
  | some entry =>
    let p := tryNextTarget env c entry
    (p.1, .blacklisted n entry :: p.2)
  | none =>
    if c.aborted || env.abortRouting n then
      let p := tryNextTarget env { c with aborted := false, target := none, targets := none }
        (.error 403 "Destination Aborted" .destinationAborted)
      (p.1, .onTarget n t :: .aborted n :: p.2)
    else
      let p := c.startTransaction env (.target t) (c.conf.serverClass t.transport t.ipType)
        (c.conf.sameClass t.transport t.ipType)
      (p.1, .onTarget n t :: p.2)
termination_by (c.bound, 1)
decreasing_by
  · exact Prod.Lex.right _ Nat.zero_lt_one
  · rcases Nat.eq_zero_or_pos c.bound with hzero | hpos
    · have hnone : bound { c with aborted := false, target := none, targets := none } = 0 := by
        simp [bound]
      rw [hzero, hnone]
      exact Prod.Lex.right _ Nat.zero_lt_one
    · refine Prod.Lex.left _ _ ?_
      simpa [bound] using hpos

end

/-- `rfc3263_succeeded`. -/
def rfc3263Succeeded (env : Env) (c : Client) (result : Resolution) : Client × List Output :=
  let c := { c with numTarget := some 0, target := none, targets := none }
  match result with
  | .single t => tryNextTarget env { c with target := some t } .none
  | .multiple ts => tryNextTarget env { c with targets := some ts } .none
  | .other => tryNextTarget env c .none

/-- `rfc3263_failed`, with the `do_dns_fail` it calls. -/
def rfc3263Failed (c : Client) (e : Rfc3263.Rfc3263Error) : Client × List Output :=
  match e with
  | .domainNotFound => (c, [.failed (.error 404 "No DNS Resolution" .noDnsResolution)])
  | .unsupportedScheme => (c, [.failed (.error 416 "Unsupported URI scheme" .unsupportedUriScheme)])
  | .unsupportedTransport => (c, [.failed (.error 478 "Unsupported Transport" .unsupportedTransport)])
  | .noIpv4 => (c, [.failed (.error 478 "Destination Requires Unsupported IPv4" .noIpv4)])
  | .noIpv6 => (c, [.failed (.error 478 "Destination Requires Unsupported IPv6" .noIpv6)])
  | .noDns => (c, [.failed (.error 478 "Destination Requires Unsupported DNS Query" .noDns)])

/-! ## Calls of the client transactions -/

/-- What a client transaction can tell its client. -/
inductive Outcome
  | clientTimeout
  | connectionFailed
  | tlsValidationFailed
  /-- A response, while the server transaction has no final one and there is no CANCEL. -/
  | response (r : Response)
deriving DecidableEq, Repr

/-- After it the client transaction cannot fail. -/
def Outcome.final : Outcome → Bool
  | .response r => 200 ≤ r.statusCode
  | _ => true

/-- `receive_response`. -/
def receiveResponse (env : Env) (c : Client) (r : Response) : Client × List Output :=
  if r.statusCode = 503 ∧ c.conf.dnsFailoverOn503 = true then
    tryNextTarget env c { Cause.none with fullResponse := some r }
  else (c, [.answered r])

/-- The methods that a client transaction calls. -/
def coreCall (env : Env) (c : Client) : Outcome → Client × List Output
  | .clientTimeout => tryNextTarget env c (.error 408 "Client Timeout" .clientTimeout)
  | .connectionFailed => tryNextTarget env c (.error 500 "Connection Error" .connectionError)
  | .tlsValidationFailed =>
    tryNextTarget env c (.error 500 "TLS Validation Failed" .tlsValidationFailed)
  | .response r => receiveResponse env c r

/-! ## Routing -/

/-- How `route` goes on: on the connection of the Outbound flow of the request if it is still there, with
a result that needs no DNS, with an error, or with a wait for DNS. -/
inductive Routing
  | flow (connection : Option (ServerClass × Bool))
  | resolved (result : Resolution)
  | failed (e : Rfc3263.Rfc3263Error)
  | wait
deriving DecidableEq, Repr

/-- `route`. -/
def route (env : Env) (c : Client) (how : Routing) : Client × List Output :=
  let c := { c with calls := c.calls + 1 }
  match how with
  | .flow (some (klass, same)) => c.startTransaction env .flow klass same
  | .flow none =>
    ({ c with request := c.request.setContentLength },
      if c.request.method = .ack then [] else [.failed (.error 430 "Flow Failed" .flowFailed)])
  | .resolved result => rfc3263Succeeded env c result
  | .failed e => rfc3263Failed c e
  | .wait => ({ c with waiting := c.waiting ++ [c.calls] }, [])

/-- What can happen to a client. -/
inductive Event
  | route (how : Routing)
  | dnsSucceeded (call : ℕ) (result : Resolution)
  | dnsFailed (call : ℕ) (e : Rfc3263.Rfc3263Error)
  | outcome (i : ℕ) (o : Outcome)
deriving DecidableEq, Repr

/-- An event with what the environment decides while it is handled. -/
structure EnvEvent where
  env : Env
  ev : Event

/-- One event. An ACK has no transaction that could fail. -/
def step (c : Client) (e : EnvEvent) : Option (Client × List Output) :=
  match e.ev with
  | .route how => some (route e.env c how)
  | .dnsSucceeded call result =>
    if call ∈ c.waiting then
      some (rfc3263Succeeded e.env { c with waiting := c.waiting.erase call } result)
    else none
  | .dnsFailed call err =>
    if call ∈ c.waiting then
      some (rfc3263Failed { c with waiting := c.waiting.erase call } err)
    else none
  | .outcome i o =>
    match c.attempts[i]? with
    | some a =>
      if a.running = true ∧ c.request.method ≠ .ack then
        some (coreCall e.env { c with attempts := c.attempts.set i { a with running := !o.final } } o)
      else none
    | none => none

end Client

end OverSip
