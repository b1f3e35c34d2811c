import OverSip.Lib.LittleEndian
import OverSip.Sip.ReceivedMessage

/-!
# STUN Binding requests

`Stun.parse_request` (`stun_ruby.c`) answers a Binding request with the address that it came from, in an
XOR-MAPPED-ADDRESS when the request has the magic cookie and otherwise, for a client of RFC 3489, in a
MAPPED-ADDRESS. `decodeResponse` is what such a client reads of the answer.

The port is XORed with the first two bytes of the cookie as the machine loads them, which on a little-endian
host are in the wrong order, and the IPv4 address goes through `htons`, which has room for half of it.
-/

namespace OverSip

open LittleEndian

namespace Stun

/-! ## The response -/

/-- What `inet_pton` returns for an address of `n` bytes: 1, -1 or 0. -/
inductive Pton (n : ℕ)
  | valid (addr : List UInt8) (length_addr : addr.length = n)
  | unsupported
  | invalid

/-- `inet_pton` for both families. -/
structure Inet where
  pton4 : Bytes → Pton 4
  pton6 : Bytes → Pton 16

inductive Address
  | ipv4 (addr : List UInt8) (length_addr : addr.length = 4)
  | ipv6 (addr : List UInt8) (length_addr : addr.length = 16)

/-- The address that a text is found to be. -/
def Inet.address (inet : Inet) (sourceIp : Bytes) : Option Address :=
  match inet.pton4 sourceIp with
  | .valid addr h => some (.ipv4 addr h)
  | .unsupported => none
  | .invalid =>
    match inet.pton6 sourceIp with
    | .valid addr h => some (.ipv6 addr h)
    | .unsupported => none
    | .invalid => none

namespace Address

def bytes : Address → List UInt8
  | ipv4 addr _ => addr
  | ipv6 addr _ => addr

/-- The IP family (0x01: IPv4, 0x02: IPv6). -/
def family : Address → UInt8
  | ipv4 _ _ => 0x01
  | ipv6 _ _ => 0x02

/-- The size of the attribute: the family, the port and the address. -/
def attributeLength (a : Address) : ℕ := 4 + a.bytes.length

end Address

inductive Result
  /-- `nil`: it could be a SIP message. -/
  | notStun
  /-- `false` -/
  | invalid
  | response (bs : Bytes)
deriving DecidableEq, Repr

/-- The bytes of a request at a place. -/
def field (request : Bytes) (i len : ℕ) : Bytes := (request.drop i).take len

/-- `magic_cookie` -/
def magicCookie (request : Bytes) : Bytes := field request 4 4

/-- `transaction_id` -/
def transactionId (request : Bytes) : Bytes := field request 8 12

/-- The cookie is the one of RFC 5389; a `char` is signed. -/
def hasMagicCookie (request : Bytes) : Bool :=
  (magicCookie request).map (fun b => b.toInt8) == [33, 18, -92, 66]

def htons (n : ℕ) : ℕ := toNetwork 2 n

/-- The bytes of the port in the attribute. -/
def mappedPort (request : Bytes) (sourcePort : ℕ) : Bytes :=
  if hasMagicCookie request then
    store 2 (htons (sourcePort % 2 ^ 16 ^^^ load ((magicCookie request).take 2)))
  else store 2 (htons (sourcePort % 2 ^ 16))

/-- The bytes of the address in the attribute. -/
def mappedAddress (request : Bytes) : Address → Bytes
  | .ipv4 addr _ =>
    if hasMagicCookie request then store 4 (htons (load addr ^^^ load (magicCookie request)))
    else addr
  | .ipv6 addr _ =>
    -- `magic_cookie[i]` runs on into the transaction id
    if hasMagicCookie request then addr.zipWith (· ^^^ ·) (magicCookie request ++ transactionId request)
    else addr

/-- The response, from its first byte on. -/
def bindingResponse (request : Bytes) (a : Address) (sourcePort : ℕ) : Bytes :=
  [1, 1, 0, UInt8.ofNat (4 + a.attributeLength)] ++ magicCookie request ++ transactionId request ++
    [0x00, if hasMagicCookie request then 0x20 else 0x01, 0, UInt8.ofNat a.attributeLength, 0x00, a.family] ++
    mappedPort request sourcePort ++ mappedAddress request a

/-- `Stun.parse_request`. The string has a zero byte behind its end. -/
def parseRequest (inet : Inet) (request sourceIp : Bytes) (sourcePort : ℕ) : Result :=
  if request.getD 0 0 ≠ 0 then .notStun
  else if request.length < 20 then .invalid
  else if request.getD 1 0 ≠ 0x1 then .invalid
  else
    match inet.address sourceIp with
    | some a => .response (bindingResponse request a sourcePort)
    | none => .invalid

/-! ## What a client reads -/

/-- The two kinds of clients. -/
inductive Rfc
  | rfc5389 | rfc3489
deriving DecidableEq, Repr

/-- The magic cookie in network byte order. -/
def cookie5389 : Bytes := [0x21, 0x12, 0xA4, 0x42]

/-- A Binding success response. -/
structure BindingSuccess where
  cookie : Bytes
  transactionId : Bytes
  family : UInt8
  port : ℕ
  address : Bytes
deriving DecidableEq, Repr

/-- The type of the attribute that a client looks for: XOR-MAPPED-ADDRESS or MAPPED-ADDRESS. -/
def Rfc.attributeType : Rfc → ℕ
  | rfc5389 => 0x0020
  | rfc3489 => 0x0001

/-- X-Port is the port XORed with the most significant 16 bits of the magic cookie. -/
def Rfc.port : Rfc → ℕ → ℕ
  | rfc5389, port => port ^^^ 0x2112
  | rfc3489, port => port

/-- X-Address is the address XORed with the magic cookie and the transaction id. -/
def Rfc.address : Rfc → Bytes → Bytes → Bytes
  | rfc5389, transactionId, address => address.zipWith (· ^^^ ·) (cookie5389 ++ transactionId)
  | rfc3489, _, address => address

/-- The reading of a Binding success response with one attribute; the length fields have to be right. -/
def decodeResponse (rfc : Rfc) (bs : Bytes) : Option BindingSuccess :=
  if loadNetwork (field bs 0 2) = 0x0101 ∧ loadNetwork (field bs 2 2) + 20 = bs.length ∧
      loadNetwork (field bs 20 2) = rfc.attributeType ∧ loadNetwork (field bs 22 2) + 24 = bs.length ∧
      bs.getD 24 0 = 0 ∧
      (bs.getD 25 0 = 0x01 ∧ bs.length = 32 ∨ bs.getD 25 0 = 0x02 ∧ bs.length = 44) then
    some
      { cookie := field bs 4 4
        transactionId := field bs 8 12
        family := bs.getD 25 0
        port := rfc.port (loadNetwork (field bs 26 2))
        address := rfc.address (field bs 8 12) (bs.drop 28) }
  else none

end Stun

end OverSip
