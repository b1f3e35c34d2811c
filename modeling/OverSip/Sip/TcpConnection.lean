import OverSip.Lib.Machine
import OverSip.Sip.Dispatch

/-!
# TCP connections

The class `TcpConnection` (`tcp_connection.rb`), of which there is one object for each peer. What arrives
is appended to its buffer; `process_received_data` goes through `:init`, `:headers`, `:body` and
`:finished` for one message after the other, until the buffer holds too little for the next step.

The parser and the comparison of IP addresses are parameters (`TcpCode`). When a Ruby exception leaves a
handler, the object stays as it is at that point.
-/

namespace OverSip

/-- Max size (bytes) of the buffered data when receiving message headers. -/
def HEADERS_MAX_SIZE : Nat := 16384

/-- The native code that a TCP connection calls. -/
structure TcpCode (σ : Type) where
  parser : SipParser σ
  compareIps : String → String → Bool

/-- `@state` of a `TcpConnection`, with `@msg` and `@body_length` where they are read. -/
inductive TcpState
  | init
  | headers
  | body (msg : SipMessage) (bodyLength : Nat)
  | finished (msg : SipMessage)
  | ignore
  | waitingForOnClientTlsHandshake
deriving DecidableEq, Repr

/-- A `TcpConnection`. -/
structure TcpConnection (σ : Type) where
  /-- Tells the connection from the others. -/
  id : Nat
  transport : Transport
  remoteIp : String
  remotePort : Nat
  state : TcpState
  buffer : Bytes
  parser : MessageParser σ
  /-- `@parser_nbytes`, false after a parsing error. -/
  parserNbytes : Option Nat
deriving DecidableEq, Repr

/-- What `receive_data` puts out. -/
inductive TcpOut
  | sendData (data : Bytes)
  /-- A reply without a transaction. -/
  | reply (statusCode : Nat) (reason : String)
  | closeConnectionAfterWriting
  | closeConnection
  /-- `process_request` or `process_response` is called for the message. -/
  | process (m : SipMessage)
  /-- What the processing of the message puts out. -/
  | dispatch (o : DispatchOut)
  | raise (e : RubyError)
deriving DecidableEq, Repr

/-- A Ruby exception that leaves `receive_data`. -/
def TcpOut.isRaise : TcpOut → Bool
  | .dispatch o => o.isRaise
  | .raise _ => true
  | _ => false

/-- How a branch of the `case` ends: with its value, or with an exception. -/
structure TcpResult (σ : Type) where
  conn : TcpConnection σ
  out : List TcpOut
  /-- The `while` loop goes on. -/
  again : Bool

/-- The same with what the branch does outside the connection. -/
structure TcpTurn (σ : Type) extends TcpResult σ where
  world : World

namespace TcpConnection

variable {σ : Type} (code : TcpCode σ) (c : TcpConnection σ)

/-- The object that `new` makes for an accepted connection. -/
def new (id : Nat) (transport : Transport) (remoteIp : String) (remotePort : Nat) :
    TcpConnection σ :=
  { id, transport, remoteIp, remotePort
    state := .init, buffer := [], parser := code.parser.reset, parserNbytes := none }

/-- `@buffer << data` -/
def push (data : Bytes) : TcpConnection σ := { c with buffer := c.buffer ++ data }

/-- The loop ends without an effect. -/
def stop : TcpResult σ := { conn := c, out := [], again := false }

/-- `close_connection_after_writing`, `@state = :ignore`, `return false`. -/
def giveUp (o : List TcpOut) : TcpResult σ :=
  { conn := { c with state := .ignore }, out := o ++ [.closeConnectionAfterWriting], again := false }

def raised (e : RubyError) : TcpResult σ := { conn := c, out := [.raise e], again := false }

/-- The loop goes on in another state. -/
def goOn (state : TcpState) (o : List TcpOut) : TcpResult σ :=
  { conn := { c with state }, out := o, again := true }

/-- `@msg.reply`, which is not called for an ACK or a response. -/
def reply (m : SipMessage) (statusCode : Nat) (reason : String) : List TcpOut :=
  if m.isRequest ∧ m.method ≠ .ack then [.reply statusCode reason] else []

/-- The end of `parse_headers`, from the look at Content-Length on. -/
def checkContentLength (m : SipMessage) : TcpResult σ :=
  match m.contentLength with
  | some bodyLength =>
    if 0 < bodyLength then c.goOn (.body m bodyLength.toNat) []
    else c.goOn (.finished m) []
  | none => c.giveUp (reply m 400 "Body size doesn't match Content-Length")

/-- `parse_headers`, from `valid_message?` on. -/
def checkMessage (m : SipMessage) : TcpResult σ :=
  if m.valid = false then c.giveUp []
  else
    let rewritten :=
      if m.isRequest then m.addViaReceivedRport code.compareIps c.remoteIp c.remotePort else .ok m
    match rewritten with
    | .error e => c.raised e
    | .ok m =>
      if m.via.branchRfc3261 = false then
        c.giveUp (reply m 400 "Via branch non RFC 3261 compliant")
      else c.checkContentLength m

/-- `parse_headers`, once the parser has read `nbytes` bytes without a failure. -/
def checkParser (nbytes : Nat) : TcpResult σ :=
  if HEADERS_MAX_SIZE < nbytes then
    { conn := { c with state := .ignore }, out := [.closeConnection], again := false }
  else if code.parser.finished c.parser = false then c.stop
  else
    let read := { c with buffer := c.buffer.drop nbytes }
    match code.parser.parsed c.parser.cs with
    | .message m => read.checkMessage code m
    | .outboundKeepalive => read.goOn .init [.sendData CRLF]
    -- a finished parser has parsed something
    | .nothing => read.raised .noMethodError

def parseHeaders : TcpResult σ :=
  if c.buffer = [] then c.stop
  else
    match code.parser.execute c.parser c.buffer c.parserNbytes with
    | .error e => c.raised e
    | .ok (parser, none) => { c with parser, parserNbytes := none }.giveUp []
    | .ok (parser, some nbytes) =>
      { c with parser, parserNbytes := some nbytes }.checkParser code nbytes

def getBody (m : SipMessage) (bodyLength : Nat) : TcpResult σ :=
  if c.buffer.length < bodyLength then c.stop
  else
    { c with buffer := c.buffer.drop bodyLength }.goOn
      (.finished { m with body := some (c.buffer.take bodyLength) }) []

/-- The `:finished` branch. An exception leaves `@state` alone. -/
def finish (w : World) (m : SipMessage) : TcpTurn σ :=
  let (world, o) := w.process m c.id c.transport
  let out := .process m :: o.map .dispatch
  if o.any DispatchOut.isRaise then { conn := c, out, again := false, world }
  else { c.goOn .init out with world }

/-- One turn of the `while` loop. -/
def turn (w : World) : TcpTurn σ :=
  match c.state with
  | .init =>
    { { c with parser := code.parser.reset, parserNbytes := some 0 }.goOn .headers [] with world := w }
  | .headers => { c.parseHeaders code with world := w }
  | .body m bodyLength => { c.getBody m bodyLength with world := w }
  | .finished m => c.finish w m
  | .ignore | .waitingForOnClientTlsHandshake => { c.stop with world := w }

/-- At most `fuel` turns. -/
def loop : Nat → World → TcpConnection σ → TcpConnection σ × World × List TcpOut
  | 0, w, c => (c, w, [])
  | fuel + 1, w, c =>
    let t := c.turn code w
    if t.again then
      let (c, w, o) := loop fuel t.world t.conn
      (c, w, t.out ++ o)
    else (t.conn, t.world, t.out)

/-- More than the number of turns that the loop takes: every message takes four at most, and a byte. -/
def weight : Nat :=
  4 * c.buffer.length +
    match c.state with
    | .body _ _ => 3
    | .finished _ => 2
    | .init => 1
    | .headers | .ignore | .waitingForOnClientTlsHandshake => 0

def processReceivedData (w : World) : TcpConnection σ × World × List TcpOut :=
  if c.state = .ignore then (c, w, []) else loop code (c.weight + 1) w c

/-- `receive_data` -/
def receiveData (w : World) (data : Bytes) : TcpConnection σ × World × List TcpOut :=
  if c.state = .ignore then (c, w, [])
  else if c.state = .waitingForOnClientTlsHandshake then (c.push data, w, [])
  else (c.push data).processReceivedData code w

end TcpConnection

/-! ## A connection among the rest -/

/-- The connection and what it shares with its class. -/
structure TcpListener (σ : Type) where
  conn : TcpConnection σ
  world : World

/-- A chunk of the stream, or anything else that happens to the tables and the transactions. -/
inductive TcpEvent
  | chunk (data : Bytes)
  | elsewhere (w : World)

/-- The chunk that arrives by the event. -/
def TcpEvent.data? : TcpEvent → Option Bytes
  | .chunk data => some data
  | .elsewhere _ => none

namespace TcpListener

variable {σ : Type} (code : TcpCode σ)

def step (l : TcpListener σ) : TcpEvent → Option (TcpListener σ × List TcpOut)
  | .chunk data =>
    let (conn, world, o) := l.conn.receiveData code l.world data
    some ({ conn, world }, o)
  | .elsewhere world => some ({ l with world }, [])

end TcpListener

end OverSip
