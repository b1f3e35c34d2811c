import OverSip.Lib.Machine
import OverSip.Sip.Dispatch

/-!
# The UDP listener

The class `UdpConnection` (`udp_connection.rb`). There is one object of it for all peers. A datagram is
appended to its buffer; `receive_data` runs from `:init` through `:message` to `:finished`.

The parser, the STUN module and the comparison of IP addresses are parameters (`UdpCode`). When a Ruby
exception leaves a handler, the object stays as it is at that point.
-/

namespace OverSip

/-- `Stun.parse_request` -/
inductive StunResult
  | notStun
  | invalid
  | response (r : Bytes)
deriving DecidableEq, Repr

/-- The native code that a UDP connection calls. -/
structure UdpCode (σ : Type) where
  parser : SipParser σ
  parseStun : Bytes → String → Nat → StunResult
  compareIps : String → String → Bool

/-- `@state` of a `UdpConnection`. -/
inductive UdpState
  | init | message | finished
deriving DecidableEq, Repr

/-- A `UdpConnection`. -/
structure UdpConnection (σ : Type) where
  state : UdpState
  buffer : Bytes
  parser : MessageParser σ
  /-- `@parser_nbytes`, false after a parsing error. -/
  parserNbytes : Option Nat
  msg : Option SipMessage
deriving DecidableEq, Repr

/-- What `receive_data` puts out: data for the peer, a reply without a transaction, what the processing
of the message puts out, and an exception of its own. -/
inductive UdpOut
  | sendData (data : Bytes)
  | reply (statusCode : Nat) (reason : String)
  | dispatch (o : DispatchOut)
  | raise (e : RubyError)
deriving DecidableEq, Repr

/-- A Ruby exception that leaves `receive_data`. -/
def UdpOut.isRaise : UdpOut → Bool
  | .dispatch o => o.isRaise
  | .raise _ => true
  | _ => false

/-- The address of the peer, or `none` when `get_peername` fails. -/
abbrev Peer := Option (String × Nat)

/-- How a part of `receive_data` ends: with the value of the `case`, or with an exception. -/
structure UdpResult (σ : Type) where
  conn : UdpConnection σ
  out : List UdpOut
  /-- The `while` loop goes on. -/
  again : Bool

namespace UdpConnection

variable {σ : Type} (code : UdpCode σ) (c : UdpConnection σ)

/-- The object that `new` makes. -/
def new : UdpConnection σ :=
  { state := .init, buffer := [], parser := code.parser.reset, parserNbytes := none, msg := none }

/-- `@buffer.clear`, `@state = :init`, `return false`. -/
def giveUp (o : List UdpOut) : UdpResult σ :=
  { conn := { c with buffer := [], state := .init }, out := o, again := false }

def raised (e : RubyError) : UdpResult σ := { conn := c, out := [.raise e], again := false }

/-- `@msg.reply`, which refuses for an ACK. -/
def reply (m : SipMessage) (statusCode : Nat) (reason : String) : List UdpOut :=
  if m.isRequest ∧ m.method ≠ .ack then [.reply statusCode reason] else []

/-- No Content-Length header or 0. -/
def checkNoBody (m : SipMessage) : UdpResult σ :=
  if c.buffer.length = 0 then
    { conn := { c with msg := some m, state := .finished }, out := [], again := true }
  else c.giveUp (reply m 400 "request contains body but Content-Length is zero or not present")

/-- The end of `parse_message`, from the look at Content-Length on. -/
def checkBody (m : SipMessage) : UdpResult σ :=
  match m.contentLength with
  | some cl =>
    if 0 < cl then
      if cl = c.buffer.length then
        { conn := { c with
            msg := some { m with body := some c.buffer }, buffer := [], state := .finished }
          out := [], again := true }
      else if m.method = .ack then c.giveUp []
      else c.giveUp (reply m 400 "Body size doesn't match Content-Length")
    else c.checkNoBody m
  | none => c.checkNoBody m

/-- `parse_message`, from `valid_message?` on. -/
def checkMessage (m : SipMessage) (ip : String) (port : Nat) : UdpResult σ :=
  if m.valid = false then c.giveUp []
  else
    let rewritten :=
      if m.isRequest then m.addViaReceivedRport code.compareIps ip port else .ok m
    match rewritten with
    | .error e => c.raised e
    | .ok m =>
      if m.via.branchRfc3261 = false then
        { c with msg := some m }.giveUp (reply m 400 "Via branch non RFC 3261 compliant")
      else { c with msg := some m }.checkBody m

/-- `parse_message`, once the message is not a STUN request. -/
def parseSip (ip : String) (port : Nat) : UdpResult σ :=
  match code.parser.execute c.parser c.buffer c.parserNbytes with
  | .error e => c.raised e
  | .ok (parser, none) => { c with parser, parserNbytes := none }.giveUp []
  | .ok (parser, some nbytes) =>
    let c := { c with parser, parserNbytes := some nbytes }
    if code.parser.finished parser = false then c.giveUp []
    else
      match code.parser.parsed parser.cs with
      | .message m =>
        { c with msg := some m, buffer := c.buffer.drop nbytes }.checkMessage code m ip port
      | .outboundKeepalive => c.giveUp [.sendData CRLF]
      -- a finished parser has parsed something
      | .nothing => c.raised .noMethodError

def parseMessage (peer : Peer) : UdpResult σ :=
  if c.buffer = [] then { conn := c, out := [], again := false }
  else if c.buffer = CRLF then c.giveUp []
  else
    match peer with
    | none => c.giveUp []
    | some (ip, port) =>
      match code.parseStun c.buffer ip port with
      | .invalid => c.giveUp []
      | .response r => c.giveUp [.sendData r]
      | .notStun => c.parseSip code ip port

/-- The `:finished` branch. An exception leaves `@state` alone. -/
def finish (w : World) : UdpConnection σ × World × List UdpOut :=
  match c.msg with
  | none => (c, w, [.raise .noMethodError])
  | some m =>
    let (w, o) := w.process m 0 .udp
    (if o.any DispatchOut.isRaise then c else { c with state := .init }, w, o.map .dispatch)

/-- The `:message` branch and what the loop does after it. -/
def run (w : World) (peer : Peer) : UdpConnection σ × World × List UdpOut :=
  let r := c.parseMessage code peer
  if r.again then
    let (c, w, o) := r.conn.finish w
    (c, w, r.out ++ o)
  else (r.conn, w, r.out)

/-- `receive_data` -/
def receiveData (w : World) (peer : Peer) (data : Bytes) :
    UdpConnection σ × World × List UdpOut :=
  let c := { c with buffer := c.buffer ++ data }
  match c.state with
  | .init =>
    { c with parser := code.parser.reset, parserNbytes := some 0, state := .message }.run code w peer
  | .message => c.run code w peer
  | .finished => c.finish w

end UdpConnection

/-! ## The listener among the rest -/

/-- The connection and what it shares with its class. -/
structure UdpListener (σ : Type) where
  conn : UdpConnection σ
  world : World

/-- A datagram, or anything else that happens to the tables and the transactions. -/
inductive UdpEvent
  | datagram (peer : Peer) (data : Bytes)
  | elsewhere (w : World)

namespace UdpListener

variable {σ : Type} (code : UdpCode σ)

def step (l : UdpListener σ) : UdpEvent → Option (UdpListener σ × List UdpOut)
  | .datagram peer data =>
    let (conn, world, o) := l.conn.receiveData code l.world peer data
    some ({ conn, world }, o)
  | .elsewhere world => some ({ l with world }, [])

end UdpListener

end OverSip
