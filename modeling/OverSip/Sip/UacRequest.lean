import OverSip.Sip.UriObject

/-!
# Requests of a UAC

`UacRequest` (`uac_request.rb`): what its constructor accepts, the methods that it has, and the text that it sends.
The objects that are given for the URIs keep their cached texts, so that printing the request changes them.

The MD5 digest, the parser of URIs and the random values are given.
-/

namespace OverSip

/-! ## What the constructor is given -/

/-- `data[:ruri]` -/
inductive UacRuri
  | object (o : UriObject)
  | string (text : Bytes)
  /-- an object of another class -/
  | other

/-- `data[:from]` and `data[:to]`: a text, or an object that prints itself. -/
inductive UacAddress
  | string (text : Bytes)
  | object (o : UriObject)

/-- `data`; what is nil is not given. -/
structure UacData where
  sipMethod : Option RubyName
  ruri : Option UacRuri
  fromAddr : Option UacAddress := none
  fromTag : Option Bytes := none
  toAddr : Option UacAddress := none
  callId : Option Bytes := none
  cseq : Option ℕ := none
  maxForwards : Option Bytes := none

/-- What the constructor and the printing use of other modules. -/
structure UacNode where
  /-- `::OverSIP::VERSION` -/
  version : Bytes
  /-- `HDR_USER_AGENT` -/
  hdrUserAgent : Bytes
  /-- `ANTILOOP_CONST` -/
  antiloopConst : Bytes
  md5 : Bytes → Bytes
  escapeUri : Bytes → Bytes
  /-- `MessageParser.parse_uri value, false`; `none` when it gives no `Uri`. -/
  parseUri : Bytes → Option UriObject

/-- The random values that are drawn by the constructor. -/
structure UacRandom where
  fromTag : Bytes
  callId : Bytes
  cseq : ℕ
  viaBranchId : Bytes

inductive UacRequestError
  | runtimeError (message : String)
  /-- `"invalid URI #{ruri.inspect}"` -/
  | invalidUri
  | parsingError (value : Bytes)
  | raised (e : RubyError)
deriving DecidableEq, Repr

/-! ## The object -/

structure UacRequest where
  sipMethod : RubyName
  ruri : UriObject
  fromAddr : UacAddress
  fromTag : Bytes
  /-- `none` is the object of `@ruri`. -/
  toAddr : Option UacAddress
  callId : Bytes
  cseq : ℕ
  maxForwards : Bytes
  headers : OrderedMap Bytes Bytes
  extraHeaders : List Bytes
  body : Option Bytes
  antiloopId : Bytes
  viaBranchId : Bytes

/-- `DEFAULT_FROM` -/
def defaultFrom (node : UacNode) : Bytes :=
  ascii "\"OverSIP " ++ node.version ++ ascii "\" <sip:uac@oversip.net>"

/-- `DEFAULT_MAX_FORWARDS` -/
def defaultMaxForwards : Bytes := ascii "20"

/-- The object for `data[:ruri]`. -/
def UacRuri.toObject (node : UacNode) : UacRuri → Except UacRequestError UriObject
  | object o => .ok o
  | string text => (node.parseUri text).elim (.error (.parsingError text)) .ok
  | other => .error .invalidUri

namespace UacRequest

variable (node : UacNode)

/-- `initialize`; `@routes` is nil in `create_antiloop_id`. -/
def new (random : UacRandom) (data : UacData) (extraHeaders : List Bytes) (body : Option Bytes) :
    Except UacRequestError UacRequest :=
  match data.sipMethod, data.ruri with
  | none, _ => .error (.runtimeError "no data[:sip_method] given")
  | some _, none => .error (.runtimeError "no data[:ruri] given")
  | some sipMethod, some ruri =>
    (ruri.toObject node).bind fun object =>
      let callId := data.callId.getD random.callId
      match object.readToS node.escapeUri with
      | (_, .error e) => .error (.raised e)
      | (object, .ok text) =>
        .ok
          { sipMethod, callId, extraHeaders, body
            ruri := object
            fromAddr := data.fromAddr.getD (.string (defaultFrom node))
            fromTag := data.fromTag.getD random.fromTag
            toAddr := data.toAddr
            cseq := data.cseq.getD random.cseq
            maxForwards := data.maxForwards.getD defaultMaxForwards
            headers := .empty
            antiloopId := node.md5 (node.antiloopConst ++ text.getD [] ++ callId)
            viaBranchId := random.viaBranchId }

variable (r : UacRequest)

/-- `insert_header` -/
def insertHeader (name value : Bytes) : UacRequest := { r with headers := r.headers.set name value }

/-- `delete_header_top` -/
def deleteHeaderTop (name : Bytes) : UacRequest := { r with headers := r.headers.erase name }

end UacRequest

/-- `to_s` of an address; a String is itself. -/
def UacAddress.readToS (escapeUri : Bytes → Bytes) : UacAddress → UacAddress × Except RubyError (Option Bytes)
  | string text => (.string text, .ok (some text))
  | object o => (.object (o.readToS escapeUri).1, (o.readToS escapeUri).2)

namespace UacRequest

variable (node : UacNode) (r : UacRequest)

/-- `@to.to_s` -/
def readTo : UacRequest × Except RubyError (Option Bytes) :=
  match r.toAddr with
  | some address =>
    ({ r with toAddr := some (address.readToS node.escapeUri).1 }, (address.readToS node.escapeUri).2)
  | none => ({ r with ruri := (r.ruri.readToS node.escapeUri).1 }, (r.ruri.readToS node.escapeUri).2)

/-- The text, of the texts of the request URI, of From and of To. -/
def textOf (uri fromText toText : Option Bytes) : Bytes :=
  let method := r.sipMethod.text
  method ++ ascii " " ++ uri.getD [] ++ ascii " SIP/2.0" ++ CRLF ++
    (r.headers.entries.flatMap fun e => e.1 ++ ascii ": " ++ e.2 ++ CRLF) ++
    ascii "From: " ++ fromText.getD [] ++ ascii ";tag=" ++ r.fromTag ++ CRLF ++
    ascii "To: " ++ toText.getD [] ++ CRLF ++
    ascii "Call-ID: " ++ r.callId ++ CRLF ++
    ascii "CSeq: " ++ Numerals.decimal r.cseq ++ ascii " " ++ method ++ CRLF ++
    ascii "Content-Length: " ++ Numerals.decimal (r.body.elim 0 List.length) ++ CRLF ++
    ascii "Max-Forwards: " ++ r.maxForwards ++ CRLF ++
    node.hdrUserAgent ++ CRLF ++
    (r.extraHeaders.flatMap fun header => header ++ CRLF) ++
    CRLF ++ r.body.getD []

/-- `to_s`. What raises leaves the objects as they are at that point. -/
def toS : UacRequest × Except RubyError Bytes :=
  match r.ruri.readUri node.escapeUri with
  | (ruri, .error e) => ({ r with ruri }, .error e)
  | (ruri, .ok uri) =>
    match r.fromAddr.readToS node.escapeUri with
    | (fromAddr, .error e) => ({ r with ruri, fromAddr }, .error e)
    | (fromAddr, .ok fromText) =>
      match readTo node { r with ruri, fromAddr } with
      | (r, .error e) => (r, .error e)
      | (r, .ok toText) => (r, .ok (textOf node r uri fromText toText))

end UacRequest

/-! ## The methods -/

/-- The methods of a request that the routing and the client transactions call. -/
inductive RequestMethod
  | sipMethod | ruri | viaBranchId | antiloopId | tvars | callId | cseq
  | insertHeader | deleteHeaderTop | toS
  | inRr | connection | routeOutboundFlowToken | hdrRoute | hdrFrom | hdrTo | toTag
deriving DecidableEq, Repr

/-- The methods of a `UacRequest` among them. -/
def UacRequest.methods : List RequestMethod :=
  [.sipMethod, .ruri, .callId, .cseq, .antiloopId, .viaBranchId, .tvars, .insertHeader, .deleteHeaderTop, .toS]

/-- Calls of methods of a `UacRequest`, which may have no such method. -/
def UacRequest.call (calls : List RequestMethod) : Except RubyError Unit :=
  if calls.all (· ∈ UacRequest.methods) then .ok () else .error .noMethodError

end OverSip
