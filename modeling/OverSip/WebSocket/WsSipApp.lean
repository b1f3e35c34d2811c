import OverSip.Sip.ReceivedMessage

/-!
# SIP messages over WebSocket

`WsSipApp#process_sip_message` (`ws_sip_app.rb`). It is given the payload of a whole WebSocket message and
resets the parser first, so what it does depends on that payload alone.

`add_via_received_rport` is commented out in the source and is not called.
-/

namespace OverSip

/-- What `process_sip_message` puts out. -/
inductive WsSipOut
  | sendTextFrame (data : Bytes)
  /-- `@connection.close` -/
  | close (status : Nat) (reason : String)
  /-- A reply without a transaction. -/
  | reply (statusCode : Nat) (reason : String)
  /-- `process_request` or `process_response` is called for the message. -/
  | process (m : SipMessage)
  | raise (e : RubyError)
deriving DecidableEq, Repr

/-- The message that `process_sip_message` processes. -/
def WsSipOut.processed : WsSipOut → Option SipMessage
  | .process m => some m
  | _ => none

namespace WsSipApp

/-- "Get the body": `rest` is what follows the headers in the WebSocket message. -/
def getBody (m : SipMessage) (rest : Bytes) : List WsSipOut :=
  if rest = [] then [.process m]
  else
    match m.contentLength with
    | some cl =>
      if cl ≠ rest.length then
        [.close 4002 "SIP message body size does not match Content-Length"]
      else [.process { m with body := some rest }]
    | none => [.process { m with body := some rest }]

/-- `process_sip_message`, from `valid_message?` on. -/
def checkMessage (m : SipMessage) (rest : Bytes) : List WsSipOut :=
  if m.valid = false then []
  else if m.via.branchRfc3261 = false then
    if m.isRequest ∧ m.method ≠ .ack then [.reply 400 "Via branch non RFC 3261 compliant"] else []
  else getBody m rest

variable {σ : Type} (parser : SipParser σ)

/-- `process_sip_message`: what it assigns to `@msg`, if it gets there, and what it puts out. -/
def processSipMessage (message : Bytes) : Option Parsed × List WsSipOut :=
  match parser.execute parser.reset message (some 0) with
  | .error e => (none, [.raise e])
  | .ok (_, none) => (none, [.close 4000 "SIP message parsing error"])
  | .ok (o, some nbytes) =>
    if parser.finished o = false then (none, [.close 4001 "SIP message incomplete"])
    else
      match parser.parsed o.cs with
      | .message m => (some (.message m), checkMessage m (message.drop nbytes))
      | .outboundKeepalive => (some .outboundKeepalive, [.sendTextFrame CRLF])
      -- a finished parser has parsed something
      | .nothing => (some .nothing, [.raise .noMethodError])

end WsSipApp

end OverSip
