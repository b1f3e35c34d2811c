import OverSip.Lib.Machine
import OverSip.Sip.ServerTransaction
import Mathlib.Logic.Function.Basic

/-!
# Requests and the server transaction tables of a connection class

The requests that the connections of one class receive, the server transactions that are made for them
and the two tables of the class (`message_processor.rb`, `server_transaction.rb`). The tables are keyed
by the branch id alone: one holds the INVITE transactions, the other those of every other method.

A request that is not absorbed is handed to the application in a fiber. The fiber makes the server
transaction (`create_transaction`, `Proxy#route`) at a later event, or ends without one.
-/

namespace OverSip

/-- `sip_method` of a request. -/
inductive Method
  | invite | ack | cancel
  | other (name : String)
deriving DecidableEq, Repr

/-- The two tables of a class. -/
inductive Table
  | invite | nonInvite
deriving DecidableEq, Repr

/-- The table that a request's own server transaction goes to; there is none for ACK and CANCEL. -/
def Method.table : Method → Option Table
  | .invite => some .invite
  | .ack | .cancel => none
  | .other _ => some .nonInvite

/-- A received request that has passed `check_via_branch`. -/
structure IncomingRequest where
  method : Method
  /-- The top Via branch without "z9hG4bK". -/
  viaBranchId : String
  /-- The Via sent-by, host and port. -/
  viaSentBy : String
  /-- `check_totag_for_sl_reply` of the To tag. -/
  slReplyToTag : Bool
  /-- `create_antiloop_id` of the request. -/
  antiloopId : String
  connection : Nat
  transport : Transport
deriving DecidableEq, Repr

/-- An object of one of the two server transaction classes. -/
inductive Transaction
  | invite (t : InviteServerTransaction)
  | nonInvite (t : NonInviteServerTransaction)
deriving DecidableEq, Repr

namespace Transaction

/-- `@state` is `:terminated`. -/
def terminated : Transaction → Bool
  | .invite t => t.state == .terminated
  | .nonInvite t => t.state == .terminated

def lastResponse : Transaction → Option Reply
  | .invite t => t.lastResponse
  | .nonInvite t => t.lastResponse

/-- `retransmit_last_response`. -/
def retransmitLastResponse : Transaction → List ServerOut
  | .invite t => t.retransmitLastResponse
  | .nonInvite t => t.retransmitLastResponse

def setNow (now : Nat) : Transaction → Transaction
  | .invite t => .invite { t with now }
  | .nonInvite t => .nonInvite { t with now }

def reply (r : Reply) : Transaction → Transaction × List ServerOut
  | .invite t => let (t, o) := t.reply r; (.invite t, o)
  | .nonInvite t => let (t, o) := t.reply r; (.nonInvite t, o)

/-- `receive_ack`, which only the INVITE class has. -/
def receiveAck : Transaction → Transaction × List ServerOut
  | .invite t => let (t, o) := t.receiveAck; (.invite t, o)
  | .nonInvite t => (.nonInvite t, [])

/-- The expiry of the next timer, when it is due. -/
def expire : Transaction → Option (Transaction × List ServerOut)
  | .invite t =>
    match t.timers.pop with
    | some (x, rest) =>
      if x.due ≤ t.now then
        let (t, o) := { t with timers := rest }.expire x.key
        some (.invite t, o)
      else none
    | none => none
  | .nonInvite t =>
    match t.timers.pop with
    | some (x, rest) =>
      if x.due ≤ t.now then
        let (t, o) := { t with timers := rest }.expire x.key
        some (.nonInvite t, o)
      else none
    | none => none

end Transaction

/-- A server transaction and its request, as it was received; `connection` is what the request's
connection is now. -/
structure ServerTransaction where
  request : IncomingRequest
  connection : Nat
  transaction : Transaction
deriving DecidableEq, Repr

/-- `OverSIP.status`. -/
inductive Status
  | loading | running | terminating
deriving DecidableEq, Repr

/-- What a request or a timer makes the class put out: what transaction `i` puts out over a connection,
a reply to a request without a transaction, `receive_cancel` of the core of transaction `i`, and the
call of `on_request`. -/
inductive ProcessorOut
  | server (i : Nat) (connection : Nat) (o : ServerOut)
  | stateless (statusCode : Nat)
  | receiveCancel (i : Nat)
  | onRequest (r : IncomingRequest)
deriving DecidableEq, Repr

/-- The server side of a connection class. -/
structure MessageProcessor where
  /-- All server transactions made so far; the place of one is its identity. -/
  transactions : List ServerTransaction
  /-- `invite_server_transactions` and `non_invite_server_transactions`. -/
  tables : Table → String → Option Nat
  /-- The requests whose fiber has neither made the transaction nor ended. -/
  pending : List IncomingRequest
  now : Nat

namespace MessageProcessor

/-- The class when OverSIP starts. -/
def start (now : Nat) : MessageProcessor :=
  { transactions := [], tables := fun _ _ => none, pending := [], now }

def lookup (p : MessageProcessor) (k : Table) (id : String) : Option Nat := p.tables k id

def store (p : MessageProcessor) (k : Table) (id : String) (entry : Option Nat) : MessageProcessor :=
  { p with tables := Function.update p.tables k (Function.update (p.tables k) id entry) }

/-- The transaction `i` has gone on to `t` and has put out `o`. -/
def update (p : MessageProcessor) (i : Nat) (tx : ServerTransaction) (t : Transaction)
    (o : List ServerOut) : MessageProcessor × List ProcessorOut :=
  let p := { p with transactions := p.transactions.set i { tx with transaction := t } }
  let p :=
    if .remove ∈ o then
      match tx.request.method.table with
      | some k => p.store k tx.request.viaBranchId none
      | none => p
    else p
  (p, o.map (.server i tx.connection))

/-! ## Requests -/

/-- The live entry that an INVITE or a request of another method is taken for a retransmission of. -/
def retransmissionOf (p : MessageProcessor) (r : IncomingRequest) : Option Nat :=
  match r.method.table with
  | some k => p.lookup k r.viaBranchId
  | none => none

/-- A retransmission: the transaction takes the connection it came over and sends its last response
again. -/
def absorb (p : MessageProcessor) (r : IncomingRequest) (i : Nat) :
    MessageProcessor × List ProcessorOut :=
  match p.transactions[i]? with
  | none => (p, [])
  | some tx =>
    let tx := { tx with connection := r.connection }
    ({ p with transactions := p.transactions.set i tx },
      tx.transaction.retransmitLastResponse.map (.server i tx.connection))

/-- `check_transaction`: `none` when it returns false. -/
def checkTransaction (p : MessageProcessor) (r : IncomingRequest) :
    Option (MessageProcessor × List ProcessorOut) :=
  match r.method with
  | .invite | .other _ => (p.retransmissionOf r).map (p.absorb r)
  | .ack =>
    match p.lookup .invite r.viaBranchId with
    | some i =>
      match p.transactions[i]? with
      | none => some (p, [])
      | some tx =>
        let (t, o) := (tx.transaction.setNow p.now).receiveAck
        some (p.update i tx t o)
    | none => if r.slReplyToTag then some (p, []) else none
  | .cancel =>
    match p.lookup .invite r.viaBranchId with
    | some i =>
      match p.transactions[i]? with
      | some ⟨_, _, .invite t⟩ =>
        if t.state = .proceeding then some (p, [.stateless 200, .receiveCancel i])
        else some (p, [.stateless 200])
      | _ => some (p, [.stateless 200])
    | none => some (p, [.stateless 481])

/-- `@msg.antiloop_id == @msg.via_branch_id[-32..-1]`. -/
def isLoop (r : IncomingRequest) : Bool :=
  let branch := r.viaBranchId.toList
  32 ≤ branch.length && r.antiloopId.toList == branch.drop (branch.length - 32)

/-- `reply` of a request without a transaction, which refuses for an ACK. -/
def replyStateless (r : IncomingRequest) (statusCode : Nat) : List ProcessorOut :=
  if r.method = .ack then [] else [.stateless statusCode]

/-- `process_request`. -/
def processRequest (p : MessageProcessor) (status : Status) (r : IncomingRequest) :
    MessageProcessor × List ProcessorOut :=
  match p.checkTransaction r with
  | some result => result
  | none =>
    if status ≠ .running then (p, replyStateless r 500)
    else if isLoop r then (p, replyStateless r 482)
    else ({ p with pending := p.pending ++ [r] }, [.onRequest r])

/-! ## The application and the timers -/

/-- `create_transaction`, or the first lines of `Proxy#route`, in the fiber of the pending request `j`. -/
def createTransaction (p : MessageProcessor) (j : Nat) :
    Option (MessageProcessor × List ProcessorOut) :=
  match p.pending[j]? with
  | none => none
  | some r =>
    let i := p.transactions.length
    let made : Option (Table × Transaction × List ServerOut) :=
      match r.method with
      | .invite =>
        let (t, o) := InviteServerTransaction.new r.viaBranchId r.transport p.now
        some (.invite, .invite t, o)
      | .other _ =>
        some (.nonInvite, .nonInvite (.new r.viaBranchId r.transport p.now), [])
      | .ack | .cancel => none
    made.map fun (k, t, o) =>
      let tx : ServerTransaction := { request := r, connection := r.connection, transaction := t }
      let p := { p with transactions := p.transactions ++ [tx], pending := p.pending.eraseIdx j }
      (p.store k r.viaBranchId (some i), o.map (.server i r.connection))

/-- What can happen to the class. `finish` is the end of the fiber of a pending request. -/
inductive Event
  | arrive (status : Status) (r : IncomingRequest)
  | create (j : Nat)
  | finish (j : Nat)
  | reply (i : Nat) (r : Reply)
  | expire (i : Nat)
deriving DecidableEq, Repr

def handle (p : MessageProcessor) : Event → Option (MessageProcessor × List ProcessorOut)
  | .arrive status r => some (p.processRequest status r)
  | .create j => p.createTransaction j
  | .finish j =>
    if j < p.pending.length then some ({ p with pending := p.pending.eraseIdx j }, []) else none
  | .reply i r =>
    match p.transactions[i]? with
    | none => none
    | some tx =>
      let (t, o) := (tx.transaction.setNow p.now).reply r
      some (p.update i tx t o)
  | .expire i =>
    match p.transactions[i]? with
    | none => none
    | some tx =>
      match (tx.transaction.setNow p.now).expire with
      | none => none
      | some (t, o) => some (p.update i tx t o)

/-- One event, at a clock that never goes back. -/
def step (p : MessageProcessor) (e : TimedEvent Event) :
    Option (MessageProcessor × List ProcessorOut) :=
  if p.now ≤ e.time then { p with now := e.time }.handle e.ev else none

end MessageProcessor

end OverSip
