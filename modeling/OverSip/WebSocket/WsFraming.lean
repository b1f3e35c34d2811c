import OverSip.Lib.Machine
import OverSip.Sip.ReceivedMessage
import OverSip.WebSocket.Utf8Validator

/-!
# WebSocket framing

`WsFraming#receive_data` (`ws_framing.rb`) goes through the buffer of its connection, one state after the
other for each frame, and hands the payloads to `WsSipApp` (`ws_sip_app.rb`), which collects a message
until `message_done`. `Connection#close` sends a close frame and puts the connection into `:ignore`, where
nothing that arrives is looked at.

What `process_sip_message` does with a message is a parameter (`SipApp`): for the framing it matters only
whether it closes the connection. The log, the keepalive timer and the frames that are sent for SIP
messages are left out.
-/

namespace OverSip

/-- The values of `OPCODE`. -/
inductive SymOpcode
  | continuation
  | text
  | binary
  | close
  | ping
  | pong
deriving DecidableEq, Repr

def OPCODE : Nat → Option SymOpcode
  | 0 => some .continuation
  | 1 => some .text
  | 2 => some .binary
  | 8 => some .close
  | 9 => some .ping
  | 10 => some .pong
  | _ => none

/-- The section `websocket` of the configuration, with the bounds that are checked when it is loaded. -/
structure WsConfig where
  maxWsFrameSize : Nat
  maxWsMessageSize : Nat
  frame_minor_than : maxWsFrameSize < 1048576
  message_minor_than : maxWsMessageSize < 1048576

/-- The arguments of `close`. -/
structure WsClose where
  status : Option Nat
  reason : Option String
deriving DecidableEq, Repr

/-- `process_sip_message`: what it makes of everything outside, and how it closes the connection. -/
structure SipApp (α : Type) where
  processSipMessage : α → Bytes → α × Option WsClose

/-- `@state` of a `WsFraming`. -/
inductive WsState
  | init
  | payloadLength2Bytes
  | payloadLength8Bytes
  | maskingKey
  | checkFrame
  | payloadData
  | processFrame
deriving DecidableEq, Repr

/-- A `WsFraming`, with the state of its `@utf8_validator`. -/
structure WsFraming where
  state : WsState
  fin : Bool
  opcode : Nat
  symOpcode : SymOpcode
  payloadLength : Nat
  maskingKey : Bytes
  payload : Option Bytes
  msgSymOpcode : Option SymOpcode
  utf8Validator : Nat
deriving DecidableEq, Repr

/-- `@state` of a connection, from `:websocket` on. -/
inductive WsConnState
  | websocket
  | ignore
deriving DecidableEq, Repr

/-- A WebSocket connection with its `WsFraming`, `@ws_message` of its `WsSipApp`, and the rest of the
program. -/
structure WsConnection (α : Type) where
  state : WsConnState
  buffer : Bytes
  framing : WsFraming
  wsMessage : Bytes
  app : α
deriving DecidableEq, Repr

/-- What `receive_data` puts out. -/
inductive WsOut
  | messageDone (type : Option SymOpcode) (message : Bytes)
  | sendData (frame : Bytes)
  | closeConnectionAfterWriting
deriving DecidableEq, Repr

/-- How a branch of the `case` ends. -/
structure WsTurn (α : Type) where
  conn : WsConnection α
  out : List WsOut
  /-- The `while` loop goes on. -/
  again : Bool

/-- The number that `unpack('n')` or `unpack('N')` reads. -/
def unpackNumber (bytes : Bytes) : Nat := bytes.foldl (fun n b => 256 * n + b.toNat) 0

/-- `WsFramingUtils_unmask` -/
def unmask (payload mask : Bytes) : Bytes :=
  payload.zipIdx.map fun b => b.1 ^^^ mask.getD (b.2 % 4) 0

/-- The frame of `send_pong_frame`. -/
def pongFrame (data : Option Bytes) : Bytes :=
  match data with
  | some data => 138 :: UInt8.ofNat data.length :: data
  | none => [138, 0]

/-- The frame of `send_close_frame`. -/
def closeFrame (close : WsClose) : Bytes :=
  match close.status with
  | none => [136, 0]
  | some status =>
    let packed : Bytes := [UInt8.ofNat (status / 256), UInt8.ofNat status]
    match close.reason with
    | none => 136 :: 2 :: packed
    | some reason =>
      136 :: UInt8.ofNat (2 + (ascii reason).length) :: (packed ++ ascii reason)

namespace WsConnection

variable {α : Type} (cfg : WsConfig) (app : SipApp α) (c : WsConnection α)

/-- The connection when `accept_ws_handshake` is through. -/
def new (a : α) : WsConnection α :=
  { state := .websocket, buffer := [], wsMessage := [], app := a
    framing := { state := .init, fin := false, opcode := 0, symOpcode := .continuation
                 payloadLength := 0, maskingKey := [], payload := none, msgSymOpcode := none
                 utf8Validator := UTF8_ACCEPT } }

/-- `@buffer << data` -/
def push (data : Bytes) : WsConnection α := { c with buffer := c.buffer ++ data }

/-- `return false` -/
def stop : WsTurn α := { conn := c, out := [], again := false }

/-- The value `true` of a branch, in another state. -/
def goOn (state : WsState) : WsTurn α :=
  { conn := { c with framing := { c.framing with state } }, out := [], again := true }

/-- `Connection#close`. `send_close_frame` clears the buffer. -/
def close (args : WsClose) : WsConnection α × List WsOut :=
  match c.state with
  | .websocket => ({ c with state := .ignore, buffer := [] },
      [.sendData (closeFrame args), .closeConnectionAfterWriting])
  | .ignore => (c, [.closeConnectionAfterWriting])

/-- `@connection.close` and `return false`. -/
def fail (status : Nat) (reason : Option String) : WsTurn α :=
  let (conn, out) := c.close ⟨some status, reason⟩
  { conn, out, again := false }

/-- `return false if @buffer.size < n`, and otherwise what is done with the next `n` bytes. -/
def read (n : Nat) (f : WsConnection α → Bytes → WsTurn α) : WsTurn α :=
  if c.buffer.length < n then c.stop
  else f { c with buffer := c.buffer.drop n } (c.buffer.take n)

/-! ## The header of a frame -/

/-- The state `:init`, with the first two bytes. -/
def readHeader (bytes : Bytes) : WsTurn α :=
  let byte1 := bytes.getD 0 0
  let byte2 := bytes.getD 1 0
  let fin : Bool := byte1 &&& 0b10000000 == 0b10000000
  let rsv1 : Bool := byte1 &&& 0b01000000 == 0b01000000
  let rsv2 : Bool := byte1 &&& 0b00100000 == 0b00100000
  let rsv3 : Bool := byte1 &&& 0b00010000 == 0b00010000
  if rsv1 || rsv2 || rsv3 then c.fail 1002 "RSV bit set not supported"
  else
    let opcode := (byte1 &&& 0b00001111).toNat
    match OPCODE opcode with
    | none => c.fail 1002 ("unknown opcode=" ++ toString opcode)
    | some symOpcode =>
      if byte2 &&& 0b10000000 ≠ 0b10000000 then c.fail 1002 "MASK bit not set"
      else
        let length := (byte2 &&& 0b01111111).toNat
        let framing := { c.framing with fin, opcode, symOpcode, payload := none }
        if length = 127 then { c with framing }.goOn .payloadLength8Bytes
        else if length = 126 then { c with framing }.goOn .payloadLength2Bytes
        else { c with framing := { framing with payloadLength := length } }.goOn .maskingKey

def readPayloadLength2Bytes (bytes : Bytes) : WsTurn α :=
  { c with framing := { c.framing with payloadLength := unpackNumber bytes } }.goOn .maskingKey

/-- A frame of 4 GB or more is rejected. -/
def readPayloadLength8Bytes (bytes : Bytes) : WsTurn α :=
  if unpackNumber (bytes.take 4) ≠ 0 then c.fail 1008 none
  else { c with framing := { c.framing with payloadLength := unpackNumber (bytes.drop 4) } }.goOn
    .maskingKey

def readMaskingKey (bytes : Bytes) : WsTurn α :=
  { c with framing := { c.framing with maskingKey := bytes } }.goOn .checkFrame

end WsConnection

namespace WsFraming

variable (f : WsFraming)

/-- `control_frame?` -/
def isControlFrame : Bool := decide (2 < f.opcode)

/-- `text_or_binary_frame?` -/
def isTextOrBinaryFrame : Bool := f.opcode == 1 || f.opcode == 2

/-- `continuation_frame?` -/
def isContinuationFrame : Bool := f.opcode == 0

end WsFraming

namespace WsConnection

variable {α : Type} (cfg : WsConfig) (app : SipApp α) (c : WsConnection α)

def checkFrame : WsTurn α :=
  if c.framing.isControlFrame && decide (125 < c.framing.payloadLength) then c.fail 1002 none
  else if c.framing.isControlFrame && !c.framing.fin then
    c.fail 1002 "forbidden FIN=0 in control frame"
  else if c.framing.isContinuationFrame && c.framing.msgSymOpcode.isNone then
    c.fail 1002 "invalid continuation frame received"
  else if c.framing.msgSymOpcode.isSome && c.framing.isTextOrBinaryFrame then
    c.fail 1002 "expected a continuation frame"
  else if cfg.maxWsFrameSize < c.framing.payloadLength then c.fail 1009 "frame too big"
  else c.goOn .payloadData

def readPayloadData (bytes : Bytes) : WsTurn α :=
  let payload :=
    if c.framing.payloadLength = 0 then c.framing.payload
    else some (unmask bytes c.framing.maskingKey)
  { c with framing := { c.framing with payload } }.goOn .processFrame

/-! ## The payload of a frame -/

/-- `WsSipApp#receive_payload_data` -/
def receivePayloadData (payload : Bytes) : WsConnection α × Bool :=
  let c := { c with wsMessage := c.wsMessage ++ payload }
  (c, !decide (cfg.maxWsMessageSize < c.wsMessage.length))

/-- `WsSipApp#message_done` -/
def messageDone (type : Option SymOpcode) : WsConnection α × List WsOut :=
  let (a, closing) := app.processSipMessage c.app c.wsMessage
  let c' := { c with app := a }
  let (c', out) :=
    match closing with
    | some args => c'.close args
    | none => (c', [])
  ({ c' with wsMessage := [] }, .messageDone type c.wsMessage :: out)

/-- The end of the branches for data frames: `message_done` is called if the message is finished. -/
def finishFrame : WsTurn α :=
  if c.framing.fin then
    let (c, out) := c.messageDone app c.framing.msgSymOpcode
    { conn := { c with framing := { c.framing with msgSymOpcode := none } }, out, again := true }
  else { conn := c, out := [], again := true }

/-- `@utf8_validator.validate` -/
def validateUtf8 (payload : Bytes) : WsConnection α × Utf8Verdict :=
  let (utf8Validator, verdict) := Utf8Validator.validate c.framing.utf8Validator payload
  ({ c with framing := { c.framing with utf8Validator } }, verdict)

/-- The UTF-8 checks of a text payload, with the reasons they close the connection for. -/
def checkUtf8 (payload : Bytes) (invalid incomplete : String) (k : WsConnection α → WsTurn α) :
    WsTurn α :=
  let (c, verdict) := c.validateUtf8 payload
  if verdict = .invalid then c.fail 1007 invalid
  else if c.framing.fin && decide (verdict ≠ .valid) then c.fail 1007 incomplete
  else k c

/-- The payload of a first frame: a message that is too big closes the connection. -/
def receiveFirst (payload : Bytes) : WsTurn α :=
  let (c, ok) := c.receivePayloadData cfg payload
  if ok then c.finishFrame app else c.fail 1009 "message too big"

def processText : WsTurn α :=
  let c := { c with framing := { c.framing with
    msgSymOpcode := some .text, utf8Validator := UTF8_ACCEPT } }
  match c.framing.payload with
  | none => c.finishFrame app
  | some payload =>
    c.checkUtf8 payload "single text frame contains invalid UTF-8"
      "single text frame contains incomplete UTF-8" fun c => c.receiveFirst cfg app payload

def processBinary : WsTurn α :=
  let c := { c with framing := { c.framing with msgSymOpcode := some .binary } }
  match c.framing.payload with
  | none => c.finishFrame app
  | some payload => c.receiveFirst cfg app payload

/-- The payload of a continuation frame. When the message is too big the loop ends, and that is all. -/
def receiveMore (payload : Bytes) : WsTurn α :=
  let (c, ok) := c.receivePayloadData cfg payload
  if ok then c.finishFrame app else c.stop

def processContinuation : WsTurn α :=
  match c.framing.payload with
  | none => c.finishFrame app
  | some payload =>
    if c.framing.msgSymOpcode = some .text then
      c.checkUtf8 payload "continuation text frame contains invalid UTF-8"
        "continuation final text frame contains incomplete UTF-8" fun c =>
          c.receiveMore cfg app payload
    else c.receiveMore cfg app payload

/-- A close frame, whose reason has to be UTF-8, is answered with one. -/
def processClose : WsTurn α :=
  let answer := fun (c : WsConnection α) =>
    let (conn, out) := c.close ⟨none, none⟩
    ({ conn, out, again := false } : WsTurn α)
  if 2 ≤ c.framing.payloadLength then
    let (c, verdict) := { c with framing := { c.framing with
      utf8Validator := UTF8_ACCEPT } }.validateUtf8 ((c.framing.payload.getD []).drop 2)
    if verdict = .valid then answer c
    else c.fail 1007 "close frame reason contains incomplete UTF-8"
  else answer c

def processFrame : WsTurn α :=
  let c := { c with framing := { c.framing with state := .init } }
  match c.framing.symOpcode with
  | .text => c.processText cfg app
  | .binary => c.processBinary cfg app
  | .continuation => c.processContinuation cfg app
  | .close => c.processClose
  | .ping => { conn := c, out := [.sendData (pongFrame c.framing.payload)], again := true }
  | .pong => { conn := c, out := [], again := true }

/-! ## The loop -/

/-- One turn of the `while` loop. -/
def turn : WsTurn α :=
  match c.framing.state with
  | .init => c.read 2 readHeader
  | .payloadLength2Bytes => c.read 2 readPayloadLength2Bytes
  | .payloadLength8Bytes => c.read 8 readPayloadLength8Bytes
  | .maskingKey => c.read 4 readMaskingKey
  | .checkFrame => c.checkFrame cfg
  | .payloadData => c.read c.framing.payloadLength readPayloadData
  | .processFrame => c.processFrame cfg app

/-- At most `fuel` turns. -/
def loop : Nat → WsConnection α → WsConnection α × List WsOut
  | 0, c => (c, [])
  | fuel + 1, c =>
    let t := c.turn cfg app
    if t.again then
      let (c, out) := loop fuel t.conn
      (c, t.out ++ out)
    else (t.conn, t.out)

/-- More than the number of turns that the loop takes: a frame takes six at most, and two bytes. -/
def weight : Nat :=
  3 * c.buffer.length +
    match c.framing.state with
    | .init => 0
    | .payloadLength2Bytes | .payloadLength8Bytes => 5
    | .maskingKey => 4
    | .checkFrame => 3
    | .payloadData => 2
    | .processFrame => 1

/-- `receive_data` of the connection. -/
def receiveData (data : Bytes) : WsConnection α × List WsOut :=
  match c.state with
  | .ignore => (c, [])
  | .websocket => loop cfg app ((c.push data).weight + 1) (c.push data)

/-- The connection after some chunks, and what it has put out. -/
def receiveAll (c : WsConnection α) : List Bytes → WsConnection α × List WsOut
  | [] => (c, [])
  | data :: more =>
    let (c, out) := c.receiveData cfg app data
    let (c, out') := receiveAll c more
    (c, out ++ out')

end WsConnection

/-! ## A connection among the rest -/

/-- A connection, and whether its loop is running. -/
structure WsServer (α : Type) where
  conn : WsConnection α
  running : Bool

/-- What can happen to a connection: a chunk arrives, the loop takes a turn, the rest of the program
closes the connection or changes in another way. -/
inductive WsEvent (α : Type)
  | receiveData (data : Bytes)
  | turn
  | close (args : WsClose)
  | elsewhere (a : α)

namespace WsServer

variable {α : Type} (cfg : WsConfig) (app : SipApp α)

/-- The connection when `accept_ws_handshake` is through. -/
def start (a : α) : WsServer α := { conn := .new a, running := false }

/-- The loop is not interrupted. -/
def step (s : WsServer α) : WsEvent α → Option (WsServer α × List WsOut)
  | .receiveData data =>
    if s.running then none
    else
      match s.conn.state with
      | .ignore => some (s, [])
      | .websocket => some ({ conn := s.conn.push data, running := true }, [])
  | .turn =>
    if s.running then
      let t := s.conn.turn cfg app
      some ({ conn := t.conn, running := t.again }, t.out)
    else none
  | .close args =>
    if s.running then none
    else
      let (conn, out) := s.conn.close args
      some ({ s with conn }, out)
  | .elsewhere a =>
    if s.running then none else some ({ s with conn := { s.conn with app := a } }, [])

end WsServer

end OverSip
