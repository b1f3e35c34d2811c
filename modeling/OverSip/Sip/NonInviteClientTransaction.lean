import OverSip.Lib.Machine
import OverSip.Lib.TimerQueue
import OverSip.Sip.Message
import OverSip.Sip.Timers

/-!
# Non-INVITE client transactions

The class `NonInviteClientTransaction` of `client_transaction.rb` with the environment it runs in:
the event loop, the network and the TCP or TLS client connection whose
`pending_client_transactions` list it may be in. `send_request` reads `@request.in_rr` only for a
`Proxy`, so it comes to its end for every request.
-/

namespace OverSip

/-- `@state` of a `NonInviteClientTransaction`. -/
inductive NictState
  | trying | proceeding | completed | terminated
deriving DecidableEq, Repr

/-- The timer blocks of a `NonInviteClientTransaction`. -/
inductive NictTimer
  | E | F | K
deriving DecidableEq, Repr

/-- A `NonInviteClientTransaction` and its armed timers. -/
structure NonInviteClientTransaction where
  conf : TransactionConf
  transport : Transport
  topVia : String
  state : NictState
  /-- `@client_transactions` holds the transaction. -/
  stored : Bool
  intervalE : Nat
  timers : TimerQueue NictTimer
  now : Nat
deriving DecidableEq, Repr

namespace NonInviteClientTransaction

/-! ## Timers -/

def arm (t : NonInviteClientTransaction) (k : NictTimer) (after : Nat) :
    NonInviteClientTransaction :=
  { t with timers := t.timers.arm k (t.now + after) }

def cancelTimer (t : NonInviteClientTransaction) (k : NictTimer) : NonInviteClientTransaction :=
  { t with timers := t.timers.cancel k }

def startTimerE (t : NonInviteClientTransaction) : NonInviteClientTransaction :=
  { t with intervalE := TIMER_E }.arm .E TIMER_E

def startTimerF (t : NonInviteClientTransaction) : NonInviteClientTransaction :=
  t.arm .F t.conf.timerFms

def startTimerK (t : NonInviteClientTransaction) : NonInviteClientTransaction :=
  t.arm .K TIMER_K_UDP

def terminateTransaction (t : NonInviteClientTransaction) : NonInviteClientTransaction :=
  { t with state := .terminated, stored := false }

/-! ## Sending -/

/-- The transaction that `new` makes. -/
def new (conf : TransactionConf) (transport : Transport) (topVia : String) (now : Nat) :
    NonInviteClientTransaction :=
  { conf, transport, topVia, now, state := .trying, stored := false, intervalE := 0, timers := [] }

def sendRequest (t : NonInviteClientTransaction) : NonInviteClientTransaction × List Out :=
  let t := { t with stored := true }
  let t := if t.transport = .udp then t.startTimerE else t
  (t.startTimerF, [.send (.request t.topVia)])

/-! ## Timer blocks -/

/-- The block of an expired timer. Timer E is periodic: it is armed again with the interval that its
code leaves. -/
def expire (t : NonInviteClientTransaction) : NictTimer → NonInviteClientTransaction × List Out
  | .E =>
    let interval := if t.state = .trying then min (2 * t.intervalE) T2 else T2
    ({ t with intervalE := interval }.arm .E interval, [.send (.request t.topVia)])
  | .F => ((t.cancelTimer .E).terminateTransaction, [.core .clientTimeout])
  | .K => (t.terminateTransaction, [])

/-! ## Responses and connection failures -/

def receiveResponse (t : NonInviteClientTransaction) (response : Response) :
    NonInviteClientTransaction × List Out :=
  if response.statusCode < 200 then
    let delivered : List Out :=
      if response.statusCode = 100 then [] else [.core (.receiveResponse response)]
    match t.state with
    | .trying => ({ t with state := .proceeding }, delivered)
    | .proceeding => (t, delivered)
    | .completed | .terminated => (t, [])
  else
    match t.state with
    | .trying | .proceeding =>
      let t := { t with state := .completed }.cancelTimer .F |>.cancelTimer .E
      (if t.transport = .udp then t.startTimerK else t.terminateTransaction,
        [.core (.receiveResponse response)])
    | .completed | .terminated => (t, [])

/-- `connection_failed` and `tls_validation_failed`, which differ in the call to the core only. No
state keeps them from running. -/
def fail (t : NonInviteClientTransaction) (call : CoreCall) :
    NonInviteClientTransaction × List Out :=
  (((t.cancelTimer .F).cancelTimer .E).terminateTransaction, [.core call])

def connectionFailed (t : NonInviteClientTransaction) : NonInviteClientTransaction × List Out :=
  t.fail .connectionFailed

def tlsValidationFailed (t : NonInviteClientTransaction) : NonInviteClientTransaction × List Out :=
  t.fail .tlsValidationFailed

/-- What can happen to a started transaction. -/
inductive Event
  | expire
  | response (r : Response)
  | connectionFailed
  | tlsValidationFailed
  | connected
deriving DecidableEq, Repr

end NonInviteClientTransaction

/-- A started non-INVITE client transaction. `pending` tells that the `pending_client_transactions`
list of a TCP or TLS client connection contains it. -/
structure NictSystem where
  nict : NonInviteClientTransaction
  pending : Bool
deriving DecidableEq, Repr

namespace NictSystem

open NonInviteClientTransaction

/-- The transaction after `new` and `send_request`, made at `now`. -/
def start (conf : TransactionConf) (transport : Transport) (topVia : String)
    (newConnection : Bool) (now : Nat) : NictSystem :=
  { nict := (new conf transport topVia now).sendRequest.1
    pending := newConnection && (transport == .tcp || transport == .tls) }

/-- The handler that `ev` runs. Timers run in the order of their deadlines and never early; a
response finds the transaction through the table. -/
def handle (s : NictSystem) : Event → Option (NictSystem × List Out)
  | .expire =>
    match s.nict.timers.pop with
    | some (x, rest) =>
      if x.due ≤ s.nict.now then
        let (t, o) := { s.nict with timers := rest }.expire x.key
        some ({ s with nict := t }, o)
      else none
    | none => none
  | .response r =>
    if s.nict.stored then
      let (t, o) := s.nict.receiveResponse r
      some ({ s with nict := t }, o)
    else none
  | .connectionFailed =>
    if s.pending then
      let (t, o) := s.nict.connectionFailed
      some ({ nict := t, pending := false }, o)
    else none
  | .tlsValidationFailed =>
    if s.pending ∧ s.nict.transport = .tls then
      let (t, o) := s.nict.tlsValidationFailed
      some ({ nict := t, pending := false }, o)
    else none
  | .connected => if s.pending then some ({ s with pending := false }, []) else none

/-- One event, at a clock that never goes back. -/
def step (s : NictSystem) (e : TimedEvent Event) : Option (NictSystem × List Out) :=
  if s.nict.now ≤ e.time then
    { s with nict := { s.nict with now := e.time } }.handle e.ev
  else none

end NictSystem

end OverSip
