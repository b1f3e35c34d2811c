import OverSip.Sip.InviteClientTransactionTheorems
import OverSip.Sip.NonInviteClientTransaction
import OverSip.Sip.Proxy
import OverSip.Sip.ReceivedMessage

/-!
# Processing of a received message

`process_request` and `process_response` (`message_processor.rb`) for a message that has passed the
checks of its connection, with the transactions and the cores that they reach.

`process_request` is the one of the server side (`MessageProcessor`) when the message has a branch id.
When it has none, the tables have no entry for it, and the search for a loop raises.
-/

namespace OverSip

/-- What a connection shares with the rest of its class while it processes a message. `inviteCore` is the
`Proxy` that an INVITE client transaction answers to; the others answer to a `Uac`. -/
structure World where
  status : Status
  processor : MessageProcessor
  /-- `@core` of a server transaction. -/
  serverCore : Nat → Option Proxy
  /-- `invite_client_transactions` -/
  inviteClients : String → Option InviteClientTransaction
  inviteCore : String → Option Proxy
  /-- `non_invite_client_transactions` -/
  nonInviteClients : String → Option NonInviteClientTransaction
  /-- What the user callbacks of the cores do. -/
  env : Env
  /-- Nobody has seen the branch of an INVITE that was not sent. -/
  sent_of_client : ∀ id t, inviteClients id = some t → t.sent = true

/-- What the processing of a message puts out: on the server side, by the client transaction with a
branch id, by the proxy that is its core. -/
inductive DispatchOut
  | processor (o : ProcessorOut)
  | client (branchId : String) (o : Out)
  | proxy (o : ProxyOut)
  | raise (e : RubyError)
deriving DecidableEq, Repr

/-! ## Exceptions that leave a handler -/

def Out.isRaise : Out → Bool
  | .raise _ => true
  | _ => false

def ProxyOut.isRaise : ProxyOut → Bool
  | .client _ o => o.isRaise
  | .raise _ => true
  | .server _ => false

def DispatchOut.isRaise : DispatchOut → Bool
  | .client _ o => o.isRaise
  | .proxy o => o.isRaise
  | .raise _ => true
  | .processor _ => false

namespace World

/-! ## Requests -/

/-- `receive_cancel` of the core of server transaction `i`, if it has one. -/
def receiveCancel (w : World) (m : SipMessage) (i : Nat) : World × List DispatchOut :=
  match w.serverCore i with
  | none => (w, [])
  | some core =>
    let (core, o) := core.receiveCancel w.env m.reasons
    ({ w with serverCore := Function.update w.serverCore i (some core) }, o.map .proxy)

/-- The server transaction that a matched CANCEL goes to. -/
def canceledTransaction (o : List ProcessorOut) : Option Nat :=
  o.findSome? fun | .receiveCancel i => some i | _ => none

/-- `process_request` of a message whose `@via_branch_id` is nil. -/
def processRequestWithoutId (w : World) (m : SipMessage) : List DispatchOut :=
  if m.method = .cancel then [.processor (.stateless 481)]
  else if m.method = .ack ∧ m.slReplyToTag = true then []
  else if w.status ≠ .running then
    if m.method = .ack then [] else [.processor (.stateless 500)]
  else [.raise .noMethodError]

def processRequest (w : World) (m : SipMessage) (connection : Nat) (transport : Transport) :
    World × List DispatchOut :=
  match m.viaBranchId with
  | none => (w, w.processRequestWithoutId m)
  | some id =>
    let (processor, o) :=
      w.processor.processRequest w.status (m.toIncomingRequest id connection transport)
    let w := { w with processor }
    match canceledTransaction o with
    | none => (w, o.map .processor)
    | some i =>
      let (w, o') := w.receiveCancel m i
      (w, o.map .processor ++ o')

/-! ## Responses -/

/-- What a client transaction puts out, with the calls to its core made when it is a proxy. -/
def callCore (env : Env) (id : String) : Option Proxy → List Out → Option Proxy × List DispatchOut
  | core, [] => (core, [])
  | some p, .core c :: os =>
    let (p, o₁) := p.coreCall env c
    let (core, o₂) := callCore env id (some p) os
    (core, o₁.map .proxy ++ o₂)
  | core, o :: os =>
    let (core, o₂) := callCore env id core os
    (core, .client id o :: o₂)

theorem receiveResponse_sent (t : InviteClientTransaction) (r : Response) :
    (t.receiveResponse r).1.sent = t.sent := by
  have h := InviteClientTransaction.receiveResponse_trans t r
  generalize (t.receiveResponse r).1 = t' at h
  generalize (t.receiveResponse r).2 = o at h
  cases h <;> simp

theorem receiveResponseToCancel_sent (t : InviteClientTransaction) :
    t.receiveResponseToCancel.1.sent = t.sent := by
  unfold InviteClientTransaction.receiveResponseToCancel
  split
  · rfl
  · dsimp only
    split <;> rfl

/-- The table after the INVITE client transaction has gone on to `t`. -/
def putInviteClient (w : World) (id : String) (t : InviteClientTransaction) (h : t.sent = true) :
    World :=
  { w with
    inviteClients := Function.update w.inviteClients id (if t.stored then some t else none)
    sent_of_client := by
      intro id' t' ht'
      by_cases hid : id' = id
      · rw [hid, Function.update_self] at ht'
        split at ht'
        · exact Option.some.inj ht' ▸ h
        · cases ht'
      · rw [Function.update_of_ne hid] at ht'
        exact w.sent_of_client id' t' ht' }

def putNonInviteClient (w : World) (id : String) (t : NonInviteClientTransaction) : World :=
  { w with nonInviteClients :=
      Function.update w.nonInviteClients id (if t.stored then some t else none) }

/-- `process_response` -/
def processResponse (w : World) (m : SipMessage) (statusCode : Nat) : World × List DispatchOut :=
  let r : Response := { statusCode, toTag := m.toTag }
  match m.viaBranchId, m.method with
  | none, _ => (w, [])
  | some _, .ack => (w, [])
  | some id, .invite =>
    match h : w.inviteClients id with
    | none => (w, [])
    | some found =>
      let t : InviteClientTransaction := { found with now := w.processor.now }
      let next := t.receiveResponse r
      have hsent : next.1.sent = true :=
        (receiveResponse_sent t r).trans (w.sent_of_client id found h)
      let (core, o) := callCore w.env id (w.inviteCore id) next.2
      ({ w.putInviteClient id next.1 hsent with
          inviteCore := Function.update w.inviteCore id core }, o)
  | some id, .cancel =>
    match h : w.inviteClients id with
    | none => (w, [])
    | some found =>
      let t : InviteClientTransaction := { found with now := w.processor.now }
      let next := t.receiveResponseToCancel
      have hsent : next.1.sent = true :=
        (receiveResponseToCancel_sent t).trans (w.sent_of_client id found h)
      (w.putInviteClient id next.1 hsent, next.2.map (.client id))
  | some id, .other _ =>
    match w.nonInviteClients id with
    | none => (w, [])
    | some t =>
      let t : NonInviteClientTransaction := { t with now := w.processor.now }
      let next := t.receiveResponse r
      (w.putNonInviteClient id next.1, next.2.map (.client id))

/-- `process_request` or `process_response`. -/
def process (w : World) (m : SipMessage) (connection : Nat) (transport : Transport) :
    World × List DispatchOut :=
  match m.kind with
  | .request => w.processRequest m connection transport
  | .response statusCode => w.processResponse m statusCode

/-- OverSIP is running, and nothing has happened yet. -/
def empty : World :=
  { status := .running, processor := .start 0, serverCore := fun _ => none
    inviteClients := fun _ => none, inviteCore := fun _ => none, nonInviteClients := fun _ => none
    env :=
      { blacklist := fun _ => none, callbacks := fun _ => ⟨false, false⟩, topVia := fun t => t.ip
        newConnection := fun _ => false }
    sent_of_client := by simp }

end World

end OverSip
