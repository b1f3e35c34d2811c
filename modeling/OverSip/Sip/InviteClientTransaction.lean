import OverSip.Lib.Machine
import OverSip.Lib.TimerQueue
import OverSip.Sip.Message
import OverSip.Sip.Timers

/-!
# INVITE client transactions

The class `InviteClientTransaction` of `client_transaction.rb` with the environment it runs in: the
event loop that runs its timers, the network, the core that cancels it, and the TCP or TLS client
connection whose `pending_client_transactions` list it may be in.

A handler takes the transaction and gives it back with what it put out. A Ruby exception is the
last output of the handler it leaves; the state is the one at that point.
-/

namespace OverSip

/-- `@state` of an `InviteClientTransaction`. -/
inductive IctState
  | calling | proceeding | completed | accepted | terminated
deriving DecidableEq, Repr

/-- The timer blocks of an `InviteClientTransaction`. `afterCancel` is the anonymous timer of
`receive_response_to_cancel`. -/
inductive IctTimer
  | A | B | C | D | M | eCancel | fCancel | afterCancel
deriving DecidableEq, Repr

/-- An `InviteClientTransaction` and its armed timers. -/
structure InviteClientTransaction where
  request : Request
  conf : TransactionConf
  transport : Transport
  topVia : String
  state : IctState
  /-- `@client_transactions` holds the transaction. -/
  stored : Bool
  /-- `send_request` has run to its end, so the INVITE is sent and `@timer_B`, `@timer_C` are set. -/
  sent : Bool
  ack : Option Ack
  cancel : Option Cancel
  /-- `send_cancel` has run, so `@timer_F_cancel` is set. -/
  cancelSent : Bool
  intervalA : Nat
  intervalE : Nat
  timers : TimerQueue IctTimer
  now : Nat
deriving DecidableEq, Repr

namespace InviteClientTransaction

/-! ## Timers -/

def arm (t : InviteClientTransaction) (k : IctTimer) (after : Nat) : InviteClientTransaction :=
  { t with timers := t.timers.arm k (t.now + after) }

def cancelTimer (t : InviteClientTransaction) (k : IctTimer) : InviteClientTransaction :=
  { t with timers := t.timers.cancel k }

/-- The three `cancel` calls that end the timers of `send_request`. -/
def cancelABC (t : InviteClientTransaction) : InviteClientTransaction :=
  ((t.cancelTimer .A).cancelTimer .B).cancelTimer .C

def startTimerA (t : InviteClientTransaction) : InviteClientTransaction :=
  { t with intervalA := TIMER_A }.arm .A TIMER_A

def startTimerB (t : InviteClientTransaction) : InviteClientTransaction :=
  t.arm .B t.conf.timerBms

def startTimerC (t : InviteClientTransaction) : InviteClientTransaction :=
  t.arm .C t.conf.timerCms

def startTimerD (t : InviteClientTransaction) : InviteClientTransaction := t.arm .D TIMER_D_UDP

def startTimerM (t : InviteClientTransaction) : InviteClientTransaction := t.arm .M TIMER_M

def startTimerECancel (t : InviteClientTransaction) : InviteClientTransaction :=
  { t with intervalE := TIMER_E }.arm .eCancel TIMER_E

def startTimerFCancel (t : InviteClientTransaction) : InviteClientTransaction :=
  { t with cancelSent := true }.arm .fCancel t.conf.timerFms

/-! ## Sending -/

def terminateTransaction (t : InviteClientTransaction) : InviteClientTransaction :=
  { t with state := .terminated, stored := false }

/-- The transaction that `new` makes. -/
def new (request : Request) (conf : TransactionConf) (transport : Transport)
    (topVia : String) (now : Nat) : InviteClientTransaction :=
  { request, conf, transport, topVia, now, state := .calling, stored := false, sent := false
    ack := none, cancel := none, cancelSent := false, intervalA := 0, intervalE := 0
    timers := [] }

/-- `send_request`. The table entry comes first; `@request.in_rr` raises for a `UacRequest`. -/
def sendRequest (t : InviteClientTransaction) : InviteClientTransaction × List Out :=
  let t := { t with stored := true }
  if t.request.uac then
    (t, [.raise .noMethodError])
  else
    let t := if t.transport = .udp then t.startTimerA else t
    ({ t.startTimerB.startTimerC with sent := true }, [.send (.request t.topVia)])

def sendAck (t : InviteClientTransaction) (response : Response) :
    InviteClientTransaction × List Out :=
  let ack := t.ack.getD
    { ruri := t.request.ruri, topVia := t.topVia, routes := t.request.hdrRoute.getD []
      hdrFrom := t.request.hdrFrom, hdrTo := t.request.hdrTo
      addedTag := if t.request.toTag.isSome then none else response.toTag
      callId := t.request.callId, cseq := t.request.cseq }
  ({ t with ack := some ack }, [.send (.ack ack)])

def sendCancel (t : InviteClientTransaction) (c : Cancel) : InviteClientTransaction × List Out :=
  let retransmitting := if t.transport = .udp then t.startTimerECancel else t
  (retransmitting.startTimerFCancel, [.send (.cancel c)])

/-- `do_cancel`. `reasons` are the Reason values of the received CANCEL, `[]` when timer C calls. -/
def doCancel (t : InviteClientTransaction) (reasons : List String) :
    InviteClientTransaction × List Out :=
  if t.cancel.isSome then
    (t, [])
  else
    let c : Cancel :=
      { ruri := t.request.ruri, topVia := t.topVia, routes := t.request.hdrRoute.getD [], reasons
        hdrFrom := t.request.hdrFrom, hdrTo := t.request.hdrTo
        callId := t.request.callId, cseq := t.request.cseq }
    let t := { t with cancel := some c }
    if t.state = .proceeding then t.sendCancel c else (t, [])

/-! ## Timer blocks -/

/-- The block of an expired timer. The periodic ones run their code and are armed again with the
interval it has left. -/
def expire (t : InviteClientTransaction) : IctTimer → InviteClientTransaction × List Out
  | .A =>
    ({ t with intervalA := 2 * t.intervalA }.arm .A (2 * t.intervalA),
      [.send (.request t.topVia)])
  | .B =>
    (((t.cancelTimer .A).cancelTimer .C).terminateTransaction, [.core .clientTimeout])
  | .C =>
    let (t, o) := ((t.cancelTimer .A).cancelTimer .B).doCancel []
    (t, o ++ [.core .inviteTimeout])
  | .D => (t.terminateTransaction, [])
  | .M => (t.terminateTransaction, [])
  | .eCancel =>
    let interval := min (2 * t.intervalE) T2
    ({ t with intervalE := interval }.arm .eCancel interval,
      t.cancel.toList.map fun c => .send (.cancel c))
  | .fCancel =>
    if t.state = .terminated then (t, [])
    else ((t.cancelTimer .eCancel).terminateTransaction, [])
  | .afterCancel => (t.terminateTransaction, [])

/-! ## Responses -/

/-- `@core.receive_response(response) unless response.status_code == 100`. -/
def deliverProvisional (response : Response) : List Out :=
  if response.statusCode = 100 then [] else [.core (.receiveResponse response)]

/-- The first [3456]XX final response. -/
def receiveFailure (t : InviteClientTransaction) (response : Response) :
    InviteClientTransaction × List Out :=
  let completed := { t with state := .completed }.cancelABC
  let t := if t.transport = .udp then completed.startTimerD else completed.terminateTransaction
  let (t, o) := t.sendAck response
  (t, o ++ [.core (.receiveResponse response)])

def receiveResponse (t : InviteClientTransaction) (response : Response) :
    InviteClientTransaction × List Out :=
  if response.statusCode < 200 then
    match t.state with
    | .calling =>
      let t := { t with state := .proceeding }.cancelTimer .A |>.cancelTimer .B
      match t.cancel with
      | some c =>
        let (t, o) := t.sendCancel c
        (t, deliverProvisional response ++ o)
      | none => (t, deliverProvisional response)
    | .proceeding => (t, deliverProvisional response)
    | _ => (t, [])
  else if 300 ≤ response.statusCode then
    match t.state with
    | .calling | .proceeding => t.receiveFailure response
    | .completed => t.sendAck response
    | .accepted | .terminated => (t, [])
  else
    match t.state with
    | .calling | .proceeding =>
      ({ t with state := .accepted }.cancelABC.startTimerM, [.core (.receiveResponse response)])
    | .accepted => (t, [.core (.receiveResponse response)])
    | .completed | .terminated => (t, [])

/-- `receive_response_to_cancel`. `@timer_F_cancel.cancel` raises while no CANCEL has been sent. -/
def receiveResponseToCancel (t : InviteClientTransaction) : InviteClientTransaction × List Out :=
  if t.state = .terminated then
    (t, [])
  else
    let t := t.cancelTimer .eCancel
    if t.cancelSent then ((t.cancelTimer .fCancel).arm .afterCancel 4000, [])
    else (t, [.raise .noMethodError])

/-! ## Connection failures -/

/-- `connection_failed` and `tls_validation_failed`, which differ in the call to the core only.
`@timer_B.cancel` raises when `send_request` has not come to its end. -/
def fail (t : InviteClientTransaction) (call : CoreCall) : InviteClientTransaction × List Out :=
  if t.state = .calling ∨ t.cancel = none then
    if t.sent then (t.cancelABC.terminateTransaction, [.core call])
    else (t.cancelTimer .A, [.raise .noMethodError])
  else
    (t, [])

def connectionFailed (t : InviteClientTransaction) : InviteClientTransaction × List Out :=
  t.fail .connectionFailed

def tlsValidationFailed (t : InviteClientTransaction) : InviteClientTransaction × List Out :=
  t.fail .tlsValidationFailed

/-! ## The transaction in its environment -/

/-- What can happen to a started transaction. `connected` is the end of a successful connection or
handshake, after which the client connection holds the transaction no more. -/
inductive Event
  | expire
  | response (r : Response)
  | responseToCancel
  | doCancel (reasons : List String)
  | connectionFailed
  | tlsValidationFailed
  | connected
deriving DecidableEq, Repr

end InviteClientTransaction

/-- A started INVITE client transaction. `pending` tells that the `pending_client_transactions` list
of a TCP or TLS client connection contains it. -/
structure IctSystem where
  ict : InviteClientTransaction
  pending : Bool
deriving DecidableEq, Repr

namespace IctSystem

open InviteClientTransaction

/-- The transaction after `new` and `send_request`, made at `now`. `newConnection` tells that
`get_connection` has to wait for a TCP or TLS client connection. -/
def start (request : Request) (conf : TransactionConf) (transport : Transport) (topVia : String)
    (newConnection : Bool) (now : Nat) : IctSystem :=
  { ict := (new request conf transport topVia now).sendRequest.1
    pending := newConnection && (transport == .tcp || transport == .tls) }

/-- The handler that `ev` runs. Timers run in the order of their deadlines and never early; a
response finds the transaction through the table, and none can match before the INVITE is sent. -/
def handle (s : IctSystem) : Event → Option (IctSystem × List Out)
  | .expire =>
    match s.ict.timers.pop with
    | some (x, rest) =>
      if x.due ≤ s.ict.now then
        let (t, o) := { s.ict with timers := rest }.expire x.key
        some ({ s with ict := t }, o)
      else none
    | none => none
  | .response r =>
    if s.ict.stored ∧ s.ict.sent then
      let (t, o) := s.ict.receiveResponse r
      some ({ s with ict := t }, o)
    else none
  | .responseToCancel =>
    if s.ict.stored ∧ s.ict.sent then
      let (t, o) := s.ict.receiveResponseToCancel
      some ({ s with ict := t }, o)
    else none
  | .doCancel reasons =>
    if s.ict.sent then
      let (t, o) := s.ict.doCancel reasons
      some ({ s with ict := t }, o)
    else none
  | .connectionFailed =>
    if s.pending then
      let (t, o) := s.ict.connectionFailed
      some ({ ict := t, pending := false }, o)
    else none
  | .tlsValidationFailed =>
    if s.pending ∧ s.ict.transport = .tls then
      let (t, o) := s.ict.tlsValidationFailed
      some ({ ict := t, pending := false }, o)
    else none
  | .connected => if s.pending then some ({ s with pending := false }, []) else none

/-- One event, at a clock that never goes back. -/
def step (s : IctSystem) (e : TimedEvent Event) : Option (IctSystem × List Out) :=
  if s.ict.now ≤ e.time then { s with ict := { s.ict with now := e.time } }.handle e.ev else none

end IctSystem

end OverSip
