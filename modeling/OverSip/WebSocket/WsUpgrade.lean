import OverSip.Sip.TlsHandshake
import OverSip.WebSocket.WsFraming

/-!
# The HTTP request of a WebSocket connection

The class `WsServer` (`ws_server.rb`) from the start: it reads an HTTP request, checks it, runs the callback
`on_connection` in a fiber, and when the callback has returned it accepts the request and hands the buffer
to the framing (`OverSip.WebSocket.WsFraming`). Until the callback returns, what arrives is stored in the
buffer.

The states that lead on to the next one in the same loop, `:check_http_request`, `:on_connection_callback`
and `:accept_ws_handshake`, are functions here. The HTTP parser and the digest are parameters (`WsCode`).
-/

namespace OverSip

/-- Max size (bytes) of the buffered data when receiving HTTP headers. -/
def HTTP_HEADERS_MAX_SIZE : Nat := 2048

def WS_MAGIC_GUID_04 : String := "258EAFA5-E914-47DA-95CA-C5AB0DC85B11"

/-- The keys of the hash. -/
def WS_VERSIONS : List Int := [7, 8, 13]

def HDR_SUPPORTED_WEBSOCKET_VERSIONS : List String :=
  ["X-Supported-WebSocket-Versions: " ++ ", ".intercalate (WS_VERSIONS.map toString)]

def WS_SIP_PROTOCOL : String := "sip"

inductive HttpMethod
  | get
  | post
  | options
  | other (name : String)
deriving DecidableEq, Repr

/-- An `HttpRequest`: what the connection reads of it. -/
structure HttpRequest where
  httpMethod : HttpMethod
  httpVersion : String
  hdrConnection : Option (List String)
  hdrUpgrade : Option String
  hdrSecWebsocketVersion : Option Int
  hdrSecWebsocketKey : Option String
  hdrSecWebsocketProtocol : Option (List String)
deriving DecidableEq, Repr

/-- The arguments of `@http_request.reply`, with `@http_version`. -/
structure HttpReply where
  httpVersion : String
  statusCode : Nat
  reasonPhrase : Option String
  extraHeaders : List String
deriving DecidableEq, Repr

/-- The automaton of the parser with the request that it has stored. -/
structure HttpParser (η : Type) where
  automaton : Automaton η
  request : η → HttpRequest

namespace HttpParser

variable {η : Type} (p : HttpParser η)

def reset : MessageParser η := { cs := p.automaton.start, nread := 0 }

/-- `execute`: false after a failure, else the number of bytes read since `reset`. -/
def execute (o : MessageParser η) (buffer : Bytes) (start : Option Nat) :
    Except RubyError (MessageParser η × Option Nat) :=
  match start with
  | none => .error .typeError
  | some start =>
    if buffer.length ≤ start then .error .messageParserError
    else
      let (cs, n) := p.automaton.read o.cs (buffer.drop start)
      let o : MessageParser η := { cs, nread := o.nread + n }
      .ok (o, if p.automaton.failed cs then none else some o.nread)

/-- `finished?` -/
def finished (o : MessageParser η) : Bool := p.automaton.done o.cs

end HttpParser

/-- What a `WsServer` calls. -/
structure WsCode (η : Type) where
  parser : HttpParser η
  /-- `Digest::SHA1::base64digest` -/
  base64digest : String → String

/-- Why `check_http_request` rejects a request: the arguments of `http_reject`. -/
structure HttpRejection where
  statusCode : Nat
  reasonPhrase : Option String := none
  extraHeaders : List String := []
deriving DecidableEq, Repr

/-- The checks of `check_http_request`. -/
def HttpRequest.rejection (r : HttpRequest) (status : Status) : Option HttpRejection :=
  match status with
  | .loading => some ⟨500, "Server Still Loading", ["Retry-After: 5"]⟩
  | .terminating => some ⟨500, "Server is Being Stopped", []⟩
  | .running =>
    if r.httpMethod ≠ .get then some ⟨405, none, []⟩
    else if ∀ v ∈ r.hdrSecWebsocketVersion, v ∉ WS_VERSIONS then
      some ⟨426, none, HDR_SUPPORTED_WEBSOCKET_VERSIONS⟩
    else if "upgrade" ∉ r.hdrConnection.getD [] then
      some ⟨400, "Connection header must include \"upgrade\"", []⟩
    else if r.hdrUpgrade ≠ some "websocket" then
      some ⟨400, "Upgrade header must be \"websocket\"", []⟩
    else if r.hdrSecWebsocketKey = none then some ⟨400, "Sec-WebSocket-Key header not present", []⟩
    else if ∃ protocols ∈ r.hdrSecWebsocketProtocol, WS_SIP_PROTOCOL ∉ protocols then
      some ⟨501, "No Suitable WebSocket Protocol", []⟩
    else none

/-- `@state` of a `WsServer`; from `:websocket` on it is that of the framing. -/
inductive UpgradeState
  | waitingForOnClientTlsHandshake
  | init
  | httpHeaders
  | waitingForOnConnection
  | established
  | ignore
deriving DecidableEq, Repr

/-- How the program closes a WebSocket connection. -/
inductive WsClosing
  | close (args : WsClose)
  | closeConnection
deriving DecidableEq, Repr

/-- What the environment decides while an HTTP request is processed: `OverSIP.status`, and what
`on_connection` does. -/
structure WsEnv where
  status : Status
  onConnection : GateCallback WsClosing
deriving DecidableEq, Repr

/-- A `WsServer`. -/
structure WsUpgrade (η α : Type) where
  state : UpgradeState
  /-- `@http_parser`, which holds `@http_request`. -/
  parser : MessageParser η
  parserNbytes : Option Nat
  websocketProtocolNegotiated : Bool
  /-- The fiber of `on_connection` is suspended. -/
  suspended : Bool
  localClosed : Bool
  unbound : Bool
  /-- The buffer, and what `accept_ws_handshake` makes. -/
  conn : WsConnection α
deriving DecidableEq, Repr

/-- What a `WsServer` puts out. -/
inductive WsUpgradeOut
  /-- `@http_request.reply`, which sends nothing over a connection that is closed. -/
  | reply (r : HttpReply)
  /-- `on_connection` is called for the request, and these bytes stand behind it in the buffer. -/
  | onConnection (request : HttpRequest) (buffer : Bytes)
  /-- What the framing puts out. -/
  | framing (o : WsOut)
  /-- `send_close_frame` of `close` -/
  | sendCloseFrame (frame : Bytes)
  | closeConnectionAfterWriting
  | closeConnection
  | raise (e : RubyError)
deriving DecidableEq, Repr

def WsUpgradeOut.isRaise : WsUpgradeOut → Bool
  | .raise _ => true
  | _ => false

namespace WsUpgrade

variable {η α : Type} (code : WsCode η) (cfg : WsConfig) (app : SipApp α) (s : WsUpgrade η α)

/-- An accepted connection. -/
def new (a : α) : WsUpgrade η α :=
  { state := .init, parser := code.parser.reset, parserNbytes := none
    websocketProtocolNegotiated := false, suspended := false, localClosed := false, unbound := false
    conn := .new a }

/-- `@buffer << data` -/
def push (data : Bytes) : WsUpgrade η α := { s with conn := s.conn.push data }

/-- `@http_request` -/
def request : HttpRequest := code.parser.request s.parser.cs

/-- `@state = :ignore` -/
def setIgnore : WsUpgrade η α :=
  if s.state = .established then { s with conn := { s.conn with state := .ignore } }
  else { s with state := .ignore }

/-- What `send_close_frame` and `close_connection_after_writing` put out. -/
def closingOut : WsOut → WsUpgradeOut
  | .sendData frame => .sendCloseFrame frame
  | _ => .closeConnectionAfterWriting

/-- `close` sends a close frame in WebSocket protocol. -/
def close : WsClosing → WsUpgrade η α × List WsUpgradeOut
  | .closeConnection => ({ s with localClosed := true }, [.closeConnection])
  | .close args =>
    if s.state = .established then
      ({ s with conn := (s.conn.close args).1, localClosed := true },
        (s.conn.close args).2.map closingOut)
    else ({ s with state := .ignore, localClosed := true }, [.closeConnectionAfterWriting])

def reply (r : HttpRejection) : WsUpgradeOut :=
  .reply ⟨(s.request code).httpVersion, r.statusCode, r.reasonPhrase, r.extraHeaders⟩

/-- `http_reject` -/
def httpReject (r : HttpRejection) : WsUpgrade η α × List WsUpgradeOut :=
  ({ s.setIgnore with localClosed := true }, [s.reply code r, .closeConnectionAfterWriting])

/-- The framing has done this. -/
def framed (r : WsConnection α × List WsOut) : WsUpgrade η α × List WsUpgradeOut :=
  ({ s with conn := r.1, localClosed := s.localClosed || r.2.contains .closeConnectionAfterWriting },
    r.2.map .framing)

/-- `accept_ws_handshake`, and then the state `:websocket`. Without a key it raises an error, which the fiber
rescues. -/
def acceptWsHandshake : WsUpgrade η α × List WsUpgradeOut :=
  match (s.request code).hdrSecWebsocketKey with
  | none => s.httpReject code ⟨500, none, []⟩
  | some key =>
    let secWebsocketAccept := code.base64digest (key ++ WS_MAGIC_GUID_04)
    let extraHeaders := ["Upgrade: websocket", "Connection: Upgrade",
      "Sec-WebSocket-Accept: " ++ secWebsocketAccept] ++
      if s.websocketProtocolNegotiated then ["Sec-WebSocket-Protocol: " ++ WS_SIP_PROTOCOL] else []
    let conn := { WsConnection.new s.conn.app with buffer := s.conn.buffer }
    let r := { s with state := .established, conn }.framed (conn.receiveData cfg app [])
    (r.1, s.reply code ⟨101, none, extraHeaders⟩ :: r.2)

/-- The rest of the fiber, from where the callback goes on. -/
def runCallback (callback : GateCallback WsClosing) : WsUpgrade η α × List WsUpgradeOut :=
  let (s, o) := closeAll (fun g s => s.close g) s callback.closes
  match callback.ends with
  | .suspends => ({ s with suspended := true }, o)
  | .raises => let r := s.httpReject code ⟨500, none, []⟩; (r.1, o ++ r.2)
  | .returns =>
    if s.localClosed || s.unbound then (s, o)
    else let r := s.acceptWsHandshake code cfg app; (r.1, o ++ r.2)

/-- `do_on_connection_callback` -/
def doOnConnectionCallback (callback : GateCallback WsClosing) : WsUpgrade η α × List WsUpgradeOut :=
  let r := { s with state := .waitingForOnConnection }.runCallback code cfg app callback
  (r.1, .onConnection (s.request code) s.conn.buffer :: r.2)

/-- `check_http_request` -/
def checkHttpRequest (env : WsEnv) : WsUpgrade η α × List WsUpgradeOut :=
  match (s.request code).rejection env.status with
  | some r => s.httpReject code r
  | none =>
    { s with websocketProtocolNegotiated := (s.request code).hdrSecWebsocketProtocol.isSome }
      |>.doOnConnectionCallback code cfg app env.onConnection

/-- `parse_http_headers` -/
def parseHttpHeaders (env : WsEnv) : WsUpgrade η α × List WsUpgradeOut :=
  if s.conn.buffer = [] then (s, [])
  else
    match code.parser.execute s.parser s.conn.buffer s.parserNbytes with
    | .error e => (s, [.raise e])
    | .ok (parser, none) =>
      ({ s with parser, parserNbytes := none, state := .ignore, localClosed := true },
        [.closeConnectionAfterWriting])
    | .ok (parser, some nbytes) =>
      let s := { s with parser, parserNbytes := some nbytes }
      if HTTP_HEADERS_MAX_SIZE < nbytes then
        ({ s with state := .ignore, localClosed := true }, [.closeConnection])
      else if code.parser.finished parser = false then (s, [])
      else
        { s with conn := { s.conn with buffer := s.conn.buffer.drop nbytes } }
          |>.checkHttpRequest code cfg app env

/-- `process_received_data` -/
def processReceivedData (env : WsEnv) : WsUpgrade η α × List WsUpgradeOut :=
  match s.state with
  | .init =>
    { s with state := .httpHeaders, parser := code.parser.reset, parserNbytes := some 0 }
      |>.parseHttpHeaders code cfg app env
  | .httpHeaders => s.parseHttpHeaders code cfg app env
  | .established => s.framed (s.conn.receiveData cfg app [])
  | .waitingForOnClientTlsHandshake | .waitingForOnConnection | .ignore => (s, [])

/-- `receive_data` -/
def receiveData (env : WsEnv) (data : Bytes) : WsUpgrade η α × List WsUpgradeOut :=
  match s.state with
  | .ignore => (s, [])
  | .waitingForOnClientTlsHandshake | .waitingForOnConnection => (s.push data, [])
  | .established => s.framed (s.conn.receiveData cfg app data)
  | .init | .httpHeaders => (s.push data).processReceivedData code cfg app env

/-- The suspended callback goes on. -/
def resume (callback : GateCallback WsClosing) : WsUpgrade η α × List WsUpgradeOut :=
  if s.suspended then { s with suspended := false }.runCallback code cfg app callback else (s, [])

/-- The class. -/
def listenerClass :
    ListenerClass (WsUpgrade η α) WsEnv (GateCallback WsClosing) WsClosing α WsUpgradeOut where
  wait := fun s => { s with state := .waitingForOnClientTlsHandshake }
  restart := fun s => { s with state := .init }
  processReceivedData := fun env s => s.processReceivedData code cfg app env
  receiveData := fun env s data => s.receiveData code cfg app env data
  isRaise := WsUpgradeOut.isRaise
  goOn := fun callback s => s.resume code cfg app callback
  close := fun g s => s.close g
  closeConnection := .closeConnection
  unbind := fun s => { s.setIgnore with unbound := true }
  localClosed := localClosed
  unbound := unbound
  elsewhere := fun a s => { s with conn := { s.conn with app := a } }

end WsUpgrade

end OverSip
