/-!
# The parts of SIP messages that transactions read and write

`Request` and `Response` hold the attributes of the parsed messages (`message.rb`, `request.rb`,
`response.rb`) that the transaction layer reads. `Ack` and `Cancel` hold, field by field, what
`send_ack` and `do_cancel` concatenate into a message.
-/

namespace OverSip

/-- Transports of a connection class. -/
inductive Transport
  | udp | tcp | tls | ws | wss
deriving DecidableEq, Repr

/-- The request a client transaction sends. `uac` tells a `UacRequest`, which has no `in_rr`,
`hdr_route`, `hdr_from`, `hdr_to` and `to_tag` methods, from a received `Request`. -/
structure Request where
  uac : Bool
  /-- `"#{@request.ruri}"` -/
  ruri : String
  hdrRoute : Option (List String)
  hdrFrom : String
  hdrTo : String
  toTag : Option String
  callId : String
  cseq : Int
deriving DecidableEq, Repr

/-- An INVITE received from a peer, without Route headers and without a To tag. -/
def sampleRequest : Request :=
  { uac := false, ruri := "sip:bob@example.net", hdrRoute := none
    hdrFrom := "<sip:alice@example.com>;tag=1", hdrTo := "<sip:bob@example.net>", toTag := none
    callId := "c1", cseq := 1 }

/-- A received response. -/
structure Response where
  statusCode : Nat
  toTag : Option String
deriving DecidableEq, Repr

/-- The ACK for a [3456]XX response. `addedTag` is the tag appended to the To value. -/
structure Ack where
  ruri : String
  topVia : String
  routes : List String
  hdrFrom : String
  hdrTo : String
  addedTag : Option String
  callId : String
  cseq : Int
deriving DecidableEq, Repr

/-- The CANCEL of a sent INVITE. `reasons` are the Reason values of the received CANCEL. -/
structure Cancel where
  ruri : String
  topVia : String
  routes : List String
  reasons : List String
  hdrFrom : String
  hdrTo : String
  callId : String
  cseq : Int
deriving DecidableEq, Repr

/-- What a client transaction hands to `@connection.send_sip_msg`. -/
inductive WireMsg
  | request (topVia : String)
  | ack (a : Ack)
  | cancel (c : Cancel)
deriving DecidableEq, Repr

/-- Calls a client transaction makes to its core. -/
inductive CoreCall
  | receiveResponse (r : Response)
  | clientTimeout
  | connectionFailed
  | tlsValidationFailed
  | inviteTimeout
deriving DecidableEq, Repr

/-- Ruby exceptions that leave a method. -/
inductive RubyError
  | noMethodError | typeError | messageParserError
deriving DecidableEq, Repr

/-- What a client transaction puts out while it handles an event. -/
inductive Out
  | send (m : WireMsg)
  | core (c : CoreCall)
  | raise (e : RubyError)
deriving DecidableEq, Repr

namespace Out

/-- A call that makes the Client try its next target. -/
def isFailure : Out → Bool
  | core .clientTimeout | core .connectionFailed | core .tlsValidationFailed => true
  | _ => false

/-- The delivery of a final response to the core. -/
def isFinal : Out → Bool
  | core (.receiveResponse r) => 200 ≤ r.statusCode
  | _ => false

/-- The sending of a CANCEL. -/
def isCancel : Out → Bool
  | send (.cancel _) => true
  | _ => false

/-- A call that lets the core answer the upstream INVITE. -/
def isNotification : Out → Bool
  | core .inviteTimeout => true
  | o => o.isFailure || o.isFinal

end Out

end OverSip
