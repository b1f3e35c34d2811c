import OverSip.Lib.Numerals
import OverSip.Sip.TcpConnection

/-!
# The numbers of a message

The callbacks by which the parser stores the numbers of a message (`sip_parser_ruby.c`), with the two
conversions they use: `str_to_int` (`c_util.h`) on the digits, and `strtol` on what the buffer holds from
the first digit on. The grammar (`grammar_sip_headers.rl`, `grammar_sip_message.rl`, `grammar_sip_core.rl`)
says which digit strings they are given and what may stand behind one.
-/

namespace OverSip

open Numerals

/-- `str_to_int`, with the `int` of 32 bits. -/
def strToInt (str : Bytes) (len : Nat) : Int :=
  (str.take len).foldl
    (fun number s =>
      -- zeroes at the beginning are ignored
      if number ≠ 0 ∨ s ≠ 48 then (number * 10 + s.toNat - 48).bmod (2 ^ 32) else number) 0

/-! ## The callbacks -/

/-- `enum uri_owner`; a Route entry is told from the others by its place. -/
inductive UriOwner
  | ruri | «from» | to | route (i : Nat) | contact
deriving DecidableEq, Repr

/-- The numbers of a parsed message. -/
structure ParsedNumbers where
  statusCode : Option Int := none
  viaSentByPort : Option Int := none
  cseq : Option Int := none
  maxForwards : Option Int := none
  contentLength : Option Int := none
  uriPort : UriOwner → Option Int := fun _ => none

namespace ParsedNumbers

variable (parsed : ParsedNumbers) (text : Bytes) (length : Nat)

def msgStatusCode : ParsedNumbers := { parsed with statusCode := some (strToInt text length) }

def msgViaSentByPort : ParsedNumbers := { parsed with viaSentByPort := some (strToInt text length) }

/-- The length is not looked at. -/
def msgCseqNumber (_length : Nat) : ParsedNumbers := { parsed with cseq := some (strtol text) }

def msgMaxForwards : ParsedNumbers := { parsed with maxForwards := some (strToInt text length) }

/-- The length is not looked at. -/
def msgContentLength (_length : Nat) : ParsedNumbers :=
  { parsed with contentLength := some (strtol text) }

/-- `uri_port` -/
def uriPortOf (owner : UriOwner) : ParsedNumbers :=
  { parsed with uriPort := Function.update parsed.uriPort owner (some (strToInt text length)) }

end ParsedNumbers

/-! ## The grammar -/

/-- Where a number may stand in a message. -/
inductive NumericField
  | statusCode | viaSentByPort | cseq | maxForwards | contentLength | uriPort (owner : UriOwner)
deriving DecidableEq, Repr

/-- `port`: one to four digits other than zeroes, or 10000 to 65535. -/
def IsPort (digits : List Nat) : Prop :=
  (1 ≤ digits.length ∧ digits.length ≤ 4 ∧ value 10 digits ≠ 0) ∨
    digits.length = 5 ∧ 10000 ≤ value 10 digits ∧ value 10 digits ≤ 65535

namespace NumericField

/-- The digit strings of the field. -/
def Grammar : NumericField → List Nat → Prop
  | .statusCode, digits => digits.length = 3 ∧ ∃ d ∈ digits.head?, 1 ≤ d ∧ d ≤ 6
  | .viaSentByPort, digits => IsPort digits
  | .cseq, digits => 1 ≤ digits.length ∧ digits.length ≤ 10
  | .maxForwards, digits => 1 ≤ digits.length ∧ digits.length ≤ 4
  | .contentLength, digits => 1 ≤ digits.length ∧ digits.length ≤ 9
  | .uriPort _, digits => IsPort digits

/-- The characters that end the digits: CR for Content-Length, white space for CSeq. -/
def Delimiter : NumericField → UInt8 → Prop
  | .contentLength, s => s = 13
  | .cseq, s => s = 32 ∨ s = 9 ∨ s = 13
  | _, s => s < 48 ∨ 57 < s

/-- The callback of the field. -/
def store : NumericField → ParsedNumbers → Bytes → Nat → ParsedNumbers
  | .statusCode => ParsedNumbers.msgStatusCode
  | .viaSentByPort => ParsedNumbers.msgViaSentByPort
  | .cseq => ParsedNumbers.msgCseqNumber
  | .maxForwards => ParsedNumbers.msgMaxForwards
  | .contentLength => ParsedNumbers.msgContentLength
  | .uriPort owner => fun parsed text length => parsed.uriPortOf text length owner

end NumericField

/-- The number that is stored for a field. -/
def ParsedNumbers.get (parsed : ParsedNumbers) : NumericField → Option Int
  | .statusCode => parsed.statusCode
  | .viaSentByPort => parsed.viaSentByPort
  | .cseq => parsed.cseq
  | .maxForwards => parsed.maxForwards
  | .contentLength => parsed.contentLength
  | .uriPort owner => parsed.uriPort owner

/-- A number in an accepted message, with what the buffer holds behind it. -/
structure WrittenNumber where
  field : NumericField
  digits : List Nat
  digits_lt : ∀ d ∈ digits, d < 10
  grammar : field.Grammar digits
  delimiter : UInt8
  delimited : field.Delimiter delimiter
  rest : Bytes

namespace WrittenNumber

/-- The buffer from the first digit on. -/
def text (w : WrittenNumber) : Bytes := digitText w.digits ++ w.delimiter :: w.rest

/-- The base-10 value of the digits. -/
def decimal (w : WrittenNumber) : Nat := value 10 w.digits

end WrittenNumber

/-- The numbers that are stored of a message in which the numbers `ws` stand, in this order. -/
def parseNumbers (ws : List WrittenNumber) : ParsedNumbers :=
  ws.foldl (fun parsed w => w.field.store parsed w.text w.digits.length) {}

/-- The last number written for a field, which is the one that stays. -/
def lastWritten (ws : List WrittenNumber) (f : NumericField) : Option WrittenNumber :=
  ws.reverse.find? (·.field = f)

/-! ## The use of the numbers -/

/-- The CSeq header of a reply (`request.rb`). -/
def replyCSeq (cseq : Int) (sipMethod : String) : String :=
  "CSeq: " ++ toString cseq ++ " " ++ sipMethod

/-- The CSeq header of `send_ack` (`client_transaction.rb`). -/
def ackCSeq (cseq : Int) : String := "CSeq: " ++ toString cseq ++ " ACK"

/-- The CSeq header of `do_cancel`. -/
def cancelCSeq (cseq : Int) : String := "CSeq: " ++ toString cseq ++ " CANCEL"

/-- The bytes that a TCP connection takes off its buffer for the body of `m`, once `data` has arrived
behind the headers; `none` while it waits for more, or when it gives up. -/
def TcpConnection.bodyTaken {σ : Type} (c : TcpConnection σ) (m : SipMessage) (data : Bytes) :
    Option Nat :=
  let read := (c.checkContentLength m).conn.push data
  match read.state with
  | .body m bodyLength =>
    let r := read.getBody m bodyLength
    if r.again then some (read.buffer.length - r.conn.buffer.length) else none
  | .finished _ => some 0
  | _ => none

end OverSip
