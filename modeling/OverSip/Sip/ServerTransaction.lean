import OverSip.Lib.TimerQueue
import OverSip.Sip.Message
import OverSip.Sip.Timers

/-!
# Server transactions

The classes `InviteServerTransaction` and `NonInviteServerTransaction` of `server_transaction.rb`, with
the two methods of a request that reach them, `reply` and `reply_full` (`request.rb`). A handler puts
out what it sends upstream and the removals of its key from the table of its class.
-/

namespace OverSip

/-- A response string: one that `reply` builds, or a received response that `reply_full` sends on. `toTag`
is the tag that is appended to the To value; who does not follow the tags of a request leaves it out. -/
inductive Reply
  | built (statusCode : Nat) (reason : String) (toTag : Option String := none)
      (extraHeaders : List String := []) (body : Option String := none)
  | forwarded (r : Response)
deriving DecidableEq, Repr

/-- The status of a response string. -/
def Reply.statusCode : Reply → Nat
  | .built statusCode .. => statusCode
  | .forwarded r => r.statusCode

/-- What a server transaction puts out: a response that is sent, and the `delete` of
`terminate_transaction`, which names a key and not a transaction. -/
inductive ServerOut
  | send (r : Reply)
  | remove
deriving DecidableEq, Repr

/-! ## INVITE -/

/-- `@state` of an `InviteServerTransaction`. -/
inductive IstState
  | proceeding | completed | confirmed | accepted | terminated
deriving DecidableEq, Repr

/-- The timer blocks of an `InviteServerTransaction`. -/
inductive IstTimer
  | C2 | G | H | I | L
deriving DecidableEq, Repr

/-- An `InviteServerTransaction` and its armed timers. -/
structure InviteServerTransaction where
  transactionId : String
  transport : Transport
  state : IstState
  lastResponse : Option Reply
  intervalG : Nat
  timers : TimerQueue IstTimer
  now : Nat
deriving DecidableEq, Repr

namespace InviteServerTransaction

def arm (t : InviteServerTransaction) (k : IstTimer) (after : Nat) : InviteServerTransaction :=
  { t with timers := t.timers.arm k (t.now + after) }

def cancelTimer (t : InviteServerTransaction) (k : IstTimer) : InviteServerTransaction :=
  { t with timers := t.timers.cancel k }

def startTimerG (t : InviteServerTransaction) : InviteServerTransaction :=
  { t with intervalG := TIMER_G }.arm .G TIMER_G

def terminateTransaction (t : InviteServerTransaction) : InviteServerTransaction × List ServerOut :=
  ({ t with state := .terminated }, [.remove])

/-- `receive_response`: whether a response with this status may be sent, and what it starts. -/
def receiveResponse (t : InviteServerTransaction) (statusCode : Nat) :
    InviteServerTransaction × Bool :=
  if statusCode < 200 then
    match t.state with
    | .proceeding => (t, true)
    | _ => (t, false)
  else if 200 ≤ statusCode ∧ statusCode < 300 then
    match t.state with
    | .proceeding => (({ t with state := .accepted }.cancelTimer .C2).arm .L TIMER_L, true)
    | .accepted => (t, true)
    | _ => (t, false)
  else
    match t.state with
    | .proceeding =>
      let t := { t with state := .completed }.cancelTimer .C2
      ((if t.transport = .udp then t.startTimerG else t).arm .H TIMER_H, true)
    | _ => (t, false)

/-- `valid_response?`. -/
def validResponse (t : InviteServerTransaction) (statusCode : Nat) : Bool :=
  if statusCode < 200 then t.state == .proceeding
  else if 200 ≤ statusCode ∧ statusCode < 300 then t.state == .proceeding || t.state == .accepted
  else t.state == .proceeding

/-- `reply` and `reply_full`, once the response string is built. -/
def reply (t : InviteServerTransaction) (r : Reply) : InviteServerTransaction × List ServerOut :=
  match t.receiveResponse r.statusCode with
  | (t, true) => ({ t with lastResponse := some r }, [.send r])
  | (t, false) => (t, [])

/-- The transaction that `new` makes and its 100. -/
def new (transactionId : String) (transport : Transport) (now : Nat) :
    InviteServerTransaction × List ServerOut :=
  { transactionId, transport, now, state := .proceeding, lastResponse := none, intervalG := 0
    timers := [] : InviteServerTransaction }.arm .C2 TIMER_C2 |>.reply (.built 100 "Trying")

def receiveAck (t : InviteServerTransaction) : InviteServerTransaction × List ServerOut :=
  match t.state with
  | .completed =>
    let t := { t with state := .confirmed }.cancelTimer .G |>.cancelTimer .H
    if t.transport = .udp then (t.arm .I TIMER_I_UDP, []) else t.terminateTransaction
  | _ => (t, [])

def retransmitLastResponse (t : InviteServerTransaction) : List ServerOut :=
  t.lastResponse.toList.map .send

/-- The block of an expired timer. -/
def expire (t : InviteServerTransaction) : IstTimer → InviteServerTransaction × List ServerOut
  | .G =>
    let interval := min (2 * t.intervalG) T2
    ({ t with intervalG := interval }.arm .G interval, t.retransmitLastResponse)
  | .H =>
    let (t, o) := t.terminateTransaction
    (t.cancelTimer .G, o)
  | .C2 | .I | .L => t.terminateTransaction

end InviteServerTransaction

/-! ## Non-INVITE -/

/-- `@state` of a `NonInviteServerTransaction`. -/
inductive NistState
  | trying | proceeding | completed | terminated
deriving DecidableEq, Repr

/-- The timer blocks of a `NonInviteServerTransaction`. -/
inductive NistTimer
  | INT1 | INT2 | J
deriving DecidableEq, Repr

/-- A `NonInviteServerTransaction` and its armed timers. -/
structure NonInviteServerTransaction where
  transactionId : String
  transport : Transport
  state : NistState
  lastResponse : Option Reply
  timers : TimerQueue NistTimer
  now : Nat
deriving DecidableEq, Repr

namespace NonInviteServerTransaction

def arm (t : NonInviteServerTransaction) (k : NistTimer) (after : Nat) :
    NonInviteServerTransaction :=
  { t with timers := t.timers.arm k (t.now + after) }

def cancelTimer (t : NonInviteServerTransaction) (k : NistTimer) : NonInviteServerTransaction :=
  { t with timers := t.timers.cancel k }

def terminateTransaction (t : NonInviteServerTransaction) :
    NonInviteServerTransaction × List ServerOut :=
  ({ t with state := .terminated }, [.remove])

/-- `receive_response`: whether a response with this status may be sent, and what it starts and ends. -/
def receiveResponse (t : NonInviteServerTransaction) (statusCode : Nat) :
    (NonInviteServerTransaction × List ServerOut) × Bool :=
  if statusCode < 200 then
    match t.state with
    | .trying => (({ t with state := .proceeding }, []), true)
    | .proceeding => ((t, []), true)
    | .completed | .terminated => ((t, []), false)
  else
    match t.state with
    | .trying | .proceeding =>
      let t := { (t.cancelTimer .INT1).cancelTimer .INT2 with state := .completed }
      (if t.transport = .udp then (t.arm .J TIMER_J_UDP, []) else t.terminateTransaction, true)
    | .completed | .terminated => ((t, []), false)

/-- `reply` and `reply_full`, once the response string is built. -/
def reply (t : NonInviteServerTransaction) (r : Reply) :
    NonInviteServerTransaction × List ServerOut :=
  match t.receiveResponse r.statusCode with
  | ((t, o), true) => ({ t with lastResponse := some r }, o ++ [.send r])
  | ((t, o), false) => (t, o)

/-- The transaction that `new` makes. -/
def new (transactionId : String) (transport : Transport) (now : Nat) : NonInviteServerTransaction :=
  { transactionId, transport, now, state := .trying, lastResponse := none, timers := []
    : NonInviteServerTransaction }.arm .INT1 INT1

def retransmitLastResponse (t : NonInviteServerTransaction) : List ServerOut :=
  t.lastResponse.toList.map .send

/-- The block of an expired timer. -/
def expire (t : NonInviteServerTransaction) :
    NistTimer → NonInviteServerTransaction × List ServerOut
  | .INT1 =>
    let (t, o) := if t.lastResponse = none then t.reply (.built 100 "I'm alive") else (t, [])
    (t.arm .INT2 INT2, o)
  | .INT2 | .J => t.terminateTransaction

end NonInviteServerTransaction

end OverSip
