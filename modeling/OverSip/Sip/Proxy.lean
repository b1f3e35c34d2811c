import OverSip.Lib.Machine
import OverSip.Sip.InviteClientTransaction
import OverSip.Sip.ServerTransaction

/-!
# A proxy that routes an INVITE

The class `Proxy` (`proxy.rb`, `client.rb`) for a received INVITE, with the INVITE server transaction it
answers through and the INVITE client transactions it makes one after the other. DNS is a wait that the
environment ends with a result.

The contents of the blacklist are the environment's, since all proxies of a profile share it. A user
callback may call `abort_routing` and `drop_response`.
-/

namespace OverSip

/-- A target of RFC 3263. -/
structure Target where
  transport : Transport
  ip : String
  port : Nat
deriving DecidableEq, Repr

/-- Why there is no more target: what `try_next_target` is given for `no_more_targets`. -/
structure NoTarget where
  status : Nat
  reason : String
  fullResponse : Option Response
deriving DecidableEq, Repr

/-- The places where user callbacks run. -/
inductive Callback
  | provisional | success | failure | canceled | inviteTimeout | error
  | target (t : Target)
deriving DecidableEq, Repr

/-- What the callbacks of one place call: `abort_routing`, `drop_response`. -/
structure Effects where
  abort : Bool
  drop : Bool
deriving DecidableEq, Repr

/-- What the environment decides while an event is handled. -/
structure Env where
  /-- The entry of `@conf[:blacklist]` for a target. -/
  blacklist : Target → Option NoTarget
  callbacks : Callback → Effects
  /-- The Via that a client transaction for the target gets. -/
  topVia : Target → String
  /-- The TCP or TLS client connection to the target is not completed yet. -/
  newConnection : Target → Bool

/-- What `@client_transaction` holds. `unconnected` is a transaction whose Outbound flow is gone: it is
never started, and `do_cancel` only builds a string in it. -/
inductive Current
  | none | unconnected | started (i : Nat)
deriving DecidableEq, Repr

/-- What a proxy puts out: what its client and server transactions put out, and exceptions. -/
inductive ProxyOut
  | client (i : Nat) (o : Out)
  | server (o : ServerOut)
  | raise (e : RubyError)
deriving DecidableEq, Repr

/-- A `Proxy` with the transactions of its request. -/
structure Proxy where
  request : Request
  conf : TransactionConf
  dnsFailoverOn503 : Bool
  /-- `route` has been called, so the server transaction has its core. -/
  routed : Bool
  /-- The proxy waits for DNS. -/
  resolving : Bool
  /-- The targets from `@num_target` on; `@target` is a list of one. -/
  targets : List Target
  current : Current
  canceled : Bool
  aborted : Bool
  dropResponse : Bool
  /-- The client transactions made so far. -/
  clients : List IctSystem
  server : InviteServerTransaction
  now : Nat
deriving DecidableEq, Repr

namespace Proxy

/-! ## Callbacks and replies -/

def runCallbacks (p : Proxy) (env : Env) (c : Callback) : Proxy :=
  { p with aborted := p.aborted || (env.callbacks c).abort
           dropResponse := p.dropResponse || (env.callbacks c).drop }

/-- `@request.reply` and `@request.reply_full`. -/
def reply (p : Proxy) (r : Reply) : Proxy × List ProxyOut :=
  let (server, o) := p.server.reply r
  ({ p with server }, o.map .server)

/-- `@request.reply… unless @drop_response`, which is cleared. -/
def replyUnlessDropped (p : Proxy) (r : Reply) : Proxy × List ProxyOut :=
  if p.dropResponse then ({ p with dropResponse := false }, []) else p.reply r

/-- The 503 that is sent on as a 500. -/
def convert503 (r : Response) : Response :=
  if r.statusCode = 503 then { r with statusCode := 500 } else r

/-! ## Targets -/

/-- `no_more_targets`. Without a status, `reply` raises when it compares it. -/
def noMoreTargets (p : Proxy) (env : Env) : Option NoTarget → Proxy × List ProxyOut
  | some why =>
    match why.fullResponse with
    | some r => (p.runCallbacks env .failure).replyUnlessDropped (.forwarded (convert503 r))
    | none => (p.runCallbacks env .error).replyUnlessDropped (.built why.status why.reason)
  | none =>
    let p := p.runCallbacks env .error
    if p.dropResponse then ({ p with dropResponse := false }, []) else (p, [.raise .noMethodError])

/-- `ClientTransaction.new` and `send_request` for a target. -/
def startClient (p : Proxy) (env : Env) (t : Target) : Proxy × List ProxyOut :=
  let c := IctSystem.start p.request p.conf t.transport (env.topVia t) (env.newConnection t) p.now
  ({ p with clients := p.clients ++ [c], current := .started p.clients.length },
    [.client p.clients.length (.send (.request (env.topVia t)))])

/-- `try_next_target` and `use_target`, on the targets that are left. -/
def tryNextTarget (env : Env) : List Target → Proxy → Option NoTarget → Proxy × List ProxyOut
  | [], p, why => { p with targets := [] }.noMoreTargets env why
  | t :: ts, p, _ =>
    let p := { p with targets := ts }
    match env.blacklist t with
    | some entry => tryNextTarget env ts p (some entry)
    | none =>
      let p := p.runCallbacks env (.target t)
      if p.aborted then
        { p with aborted := false, targets := [] }.noMoreTargets env
          (some ⟨403, "Destination Aborted", none⟩)
      else
        p.startClient env t

/-- `rfc3263_succeeded`. -/
def rfc3263Succeeded (p : Proxy) (env : Env) (t : Target) (ts : List Target) :
    Proxy × List ProxyOut :=
  tryNextTarget env (t :: ts) { p with resolving := false } none

/-- `do_dns_fail`, which `rfc3263_failed` calls. -/
def doDnsFail (p : Proxy) (env : Env) (status : Nat) (reason : String) : Proxy × List ProxyOut :=
  ({ p with resolving := false }.runCallbacks env .error).replyUnlessDropped (.built status reason)

/-! ## Calls of the client transactions -/

/-- `receive_response`. -/
def receiveResponse (p : Proxy) (env : Env) (r : Response) : Proxy × List ProxyOut :=
  if p.server.validResponse r.statusCode then
    if r.statusCode < 200 ∧ p.canceled = false then
      (p.runCallbacks env .provisional).replyUnlessDropped (.forwarded r)
    else if 200 ≤ r.statusCode ∧ r.statusCode ≤ 299 then
      (p.runCallbacks env .success).replyUnlessDropped (.forwarded r)
    else if 300 ≤ r.statusCode ∧ p.canceled = false then
      if r.statusCode = 503 ∧ p.dnsFailoverOn503 = true then
        tryNextTarget env p.targets p (some ⟨0, "", some r⟩)
      else
        (p.runCallbacks env .failure).replyUnlessDropped (.forwarded (convert503 r))
    else
      p.replyUnlessDropped (.forwarded r)
  else
    p.replyUnlessDropped (.forwarded r)

/-- `invite_timeout`. -/
def inviteTimeout (p : Proxy) (env : Env) : Proxy × List ProxyOut :=
  let p := p.runCallbacks env .inviteTimeout
  let (p, o) := if p.dropResponse then (p, []) else p.reply (.built 408 "INVITE Timeout")
  ({ p with dropResponse := true }, o)

/-- The calls a client transaction makes to its core. -/
def coreCall (p : Proxy) (env : Env) : CoreCall → Proxy × List ProxyOut
  | .receiveResponse r => p.receiveResponse env r
  | .clientTimeout => tryNextTarget env p.targets p (some ⟨408, "Client Timeout", none⟩)
  | .connectionFailed => tryNextTarget env p.targets p (some ⟨500, "Connection Error", none⟩)
  | .tlsValidationFailed =>
    tryNextTarget env p.targets p (some ⟨500, "TLS Validation Failed", none⟩)
  | .inviteTimeout => p.inviteTimeout env

/-- What the client transaction `i` puts out, with its core calls made. -/
def dispatch (p : Proxy) (env : Env) (i : Nat) : List Out → Proxy × List ProxyOut
  | [] => (p, [])
  | .core c :: os =>
    let (p, o₁) := p.coreCall env c
    let (p, o₂) := p.dispatch env i os
    (p, o₁ ++ o₂)
  | o :: os =>
    let (p, o₂) := p.dispatch env i os
    (p, .client i o :: o₂)

/-! ## Routing and CANCEL -/

/-- How `route` goes on: on the connection of an Outbound flow if it is still there, with a destination
that needs no DNS, with a failure, or with a wait for DNS. -/
inductive Routing
  | flow (connection : Option Target)
  | resolved (t : Target) (ts : List Target)
  | failed (status : Nat) (reason : String)
  | wait
deriving DecidableEq, Repr

/-- `route`, for a received INVITE. -/
def route (p : Proxy) (env : Env) (how : Routing) : Proxy × List ProxyOut :=
  let p := { p with routed := true }
  match how with
  | .flow (some t) => p.startClient env t
  | .flow none =>
    ({ p with current := .unconnected }.runCallbacks env .error).replyUnlessDropped
      (.built 430 "Flow Failed")
  | .resolved t ts => p.rfc3263Succeeded env t ts
  | .failed status reason => p.doDnsFail env status reason
  | .wait => ({ p with resolving := true }, [])

/-- `receive_cancel`. -/
def receiveCancel (p : Proxy) (env : Env) (reasons : List String) : Proxy × List ProxyOut :=
  let p := { p with canceled := true }.runCallbacks env .canceled
  match p.current with
  | .none => (p, [.raise .noMethodError])
  | .unconnected => (p, [])
  | .started i =>
    match p.clients[i]? with
    | none => (p, [])
    | some c =>
      let (ict, o) := { c.ict with now := p.now }.doCancel reasons
      ({ p with clients := p.clients.set i { c with ict } }, o.map (.client i))

/-! ## The proxy in its environment -/

/-- What can happen to a proxy and its transactions. -/
inductive Event
  | route (how : Routing)
  | dnsSucceeded (t : Target) (ts : List Target)
  | dnsFailed (status : Nat) (reason : String)
  | client (i : Nat) (ev : InviteClientTransaction.Event)
  | cancel (reasons : List String)
  | ack
  | serverTimer
deriving DecidableEq, Repr

/-- An event with what the environment decides while it is handled. -/
structure EnvEvent where
  env : Env
  ev : Event

/-- The proxy with a new server transaction for the request. -/
def start (request : Request) (conf : TransactionConf) (dnsFailoverOn503 : Bool)
    (server : Transport) (transactionId : String) (now : Nat) : Proxy :=
  { request, conf, dnsFailoverOn503, now, routed := false, resolving := false, targets := []
    current := .none, canceled := false, aborted := false, dropResponse := false, clients := []
    server := (InviteServerTransaction.new transactionId server now).1 }

/-- The handler that an event runs. A CANCEL reaches the proxy while its server transaction is
`:proceeding` and has its core; in other states it is answered only. -/
def handle (p : Proxy) (env : Env) : Event → Option (Proxy × List ProxyOut)
  | .route how =>
    if p.routed = false ∧ p.request.uac = false then some (p.route env how) else none
  | .dnsSucceeded t ts => if p.resolving then some (p.rfc3263Succeeded env t ts) else none
  | .dnsFailed status reason => if p.resolving then some (p.doDnsFail env status reason) else none
  -- `do_cancel` is called by the proxy and by timer C only
  | .client _ (.doCancel _) => none
  | .client i ev =>
    match p.clients[i]? with
    | none => none
    | some c =>
      match c.step ⟨p.now, ev⟩ with
      | none => none
      | some (c, o) => some ({ p with clients := p.clients.set i c }.dispatch env i o)
  | .cancel reasons =>
    if p.server.state = .proceeding ∧ p.routed = true then some (p.receiveCancel env reasons)
    else some (p, [])
  | .ack =>
    let (server, o) := p.server.receiveAck
    some ({ p with server }, o.map .server)
  | .serverTimer =>
    match p.server.timers.pop with
    | some (x, rest) =>
      if x.due ≤ p.now then
        let (server, o) := { p.server with timers := rest }.expire x.key
        some ({ p with server }, o.map .server)
      else none
    | none => none

/-- One event, at a clock that never goes back. -/
def step (p : Proxy) (e : TimedEvent EnvEvent) : Option (Proxy × List ProxyOut) :=
  if p.now ≤ e.time then
    { p with now := e.time, server := { p.server with now := e.time } }.handle e.ev.env e.ev.ev
  else none

end Proxy

end OverSip
