import OverSip.Lib.Automaton
import OverSip.Sip.MessageProcessor

/-!
# The parser and the first checks of a received message

What a connection does with the headers of a message before the message is processed: the parser, an
automaton that is resumed at an offset of the buffer (`sip_parser_ruby.c`), and `valid_message?`,
`add_via_received_rport` and `check_via_branch` (`message_processor.rb`), which are the same for every
transport.

The tables of the automaton are not written out: `SipParser` takes it as a parameter.
-/

namespace OverSip

abbrev Bytes := List UInt8

def CRLF : Bytes := [13, 10]

/-- The class of a message. -/
inductive MessageKind
  | request
  | response (statusCode : Nat)
deriving DecidableEq, Repr

/-- The top Via of a message, as the parser stores it. -/
structure TopVia where
  /-- `@via_core_value`: the protocol and the sent-by. -/
  coreValue : String
  sentByHost : String
  sentByPort : Option Nat
  branch : Option String
  /-- `@via_branch_rfc3261`: a branch value of the Via starts with "z9hG4bK". -/
  branchRfc3261 : Bool
  hasRport : Bool
  hasAlias : Bool
  params : Option (List (String × Option String))
  /-- Only the last of several branch parameters is stored; the flag stays. -/
  branch_of_rfc3261 : branchRfc3261 = true → branch ≠ none
deriving DecidableEq, Repr

/-- A parsed message: what a connection and the transactions read of it. -/
structure SipMessage where
  kind : MessageKind
  /-- The method of a request, the CSeq method of a response. -/
  method : Method
  /-- `missing_core_header?` -/
  missingCoreHeader : Option String
  /-- `duplicated_core_header?` -/
  duplicatedCoreHeader : Option String
  via : TopVia
  hdrVia : List String
  contentLength : Option Int
  toTag : Option String
  /-- `check_totag_for_sl_reply` of the To tag. -/
  slReplyToTag : Bool
  /-- The Reason values. -/
  reasons : List String
  /-- `create_antiloop_id` of a request. -/
  antiloopId : String
  viaRport : Option Nat := none
  body : Option Bytes := none
deriving DecidableEq, Repr

/-- `@msg.request?` -/
def SipMessage.isRequest (m : SipMessage) : Bool := m.kind == .request

/-! ## The parser -/

/-- `@parser.parsed` -/
inductive Parsed
  | nothing
  | outboundKeepalive
  | message (m : SipMessage)
deriving DecidableEq, Repr

/-- The automaton of the parser with what it has stored. -/
structure SipParser (σ : Type) where
  automaton : Automaton σ
  parsed : σ → Parsed
  /-- "At this point we've got a SIP::Request, SIP::Response or :outbound_keepalive symbol." -/
  parsed_of_done : ∀ s, automaton.done s = true → parsed s ≠ .nothing

/-- A `MessageParser` object. -/
structure MessageParser (σ : Type) where
  cs : σ
  nread : Nat
deriving DecidableEq, Repr

namespace SipParser

variable {σ : Type} (p : SipParser σ)

/-- `reset` -/
def reset : MessageParser σ := { cs := p.automaton.start, nread := 0 }

/-- `execute`: false after a failure, else the number of bytes read since `reset`. -/
def execute (o : MessageParser σ) (buffer : Bytes) (start : Option Nat) :
    Except RubyError (MessageParser σ × Option Nat) :=
  match start with
  | none => .error .typeError
  | some start =>
    if buffer.length ≤ start then .error .messageParserError
    else
      let (cs, n) := p.automaton.read o.cs (buffer.drop start)
      let o : MessageParser σ := { cs, nread := o.nread + n }
      .ok (o, if p.automaton.failed cs then none else some o.nread)

/-- `finished?` -/
def finished (o : MessageParser σ) : Bool := p.automaton.done o.cs

/-- The same parser, on the states that an invariant allows. -/
def restrict (I : σ → Prop) (hstart : I p.automaton.start)
    (hstep : ∀ s b, I s → I (p.automaton.step s b)) : SipParser { s // I s } where
  automaton :=
    { start := ⟨p.automaton.start, hstart⟩
      step := fun s b => ⟨p.automaton.step s.1 b, hstep s.1 b s.2⟩
      done := fun s => p.automaton.done s.1
      failed := fun s => p.automaton.failed s.1 }
  parsed := fun s => p.parsed s.1
  parsed_of_done := fun s hs => p.parsed_of_done s.1 hs

end SipParser

/-! ## Given texts -/

/-- The bytes of an ASCII text. -/
def ascii (text : String) : Bytes := text.toList.map fun c => UInt8.ofNat c.toNat

/-- What may still come of some given texts, and what they parse to. -/
abbrev TextState := { rest : List (Bytes × Parsed) // ∀ t ∈ rest, t.2 ≠ .nothing }

/-- The parser on some given texts, of which none begins another. -/
def textParser (texts : List (Bytes × Parsed)) (h : ∀ t ∈ texts, t.2 ≠ .nothing) :
    SipParser TextState where
  automaton :=
    { start := ⟨texts, h⟩
      step := fun s b =>
        ⟨s.1.filterMap fun t => if t.1.head? = some b then some (t.1.tail, t.2) else none, by
          intro t ht
          obtain ⟨t', ht', heq⟩ := List.mem_filterMap.mp ht
          split at heq
          · obtain rfl := Option.some.inj heq
            exact s.2 t' ht'
          · cases heq⟩
      done := fun s => s.1.any (·.1 == [])
      failed := fun s => s.1 == [] }
  parsed := fun s => ((s.1.find? (·.1 == [])).map (·.2)).getD .nothing
  parsed_of_done := by
    intro s hs
    obtain ⟨t, ht, hnil⟩ := List.any_eq_true.mp hs
    cases hf : s.1.find? (·.1 == []) with
    | none =>
      rw [List.find?_eq_none] at hf
      exact absurd hnil (hf t ht)
    | some t' => exact s.2 t' (List.mem_of_find?_eq_some hf)

namespace SipMessage

/-! ## The checks -/

/-- `valid_message?` -/
def valid (m : SipMessage) : Bool := m.missingCoreHeader.isNone && m.duplicatedCoreHeader.isNone

/-- `via_received`, the source address when the Via has an `rport` or another host. -/
def viaReceived (m : SipMessage) (compareIps : String → String → Bool) (sourceIp : String) :
    Option String :=
  if m.via.hasRport then some sourceIp
  else if compareIps m.via.sentByHost sourceIp then none
  else some sourceIp

/-- The parameters that `add_via_received_rport` gives the top Via. -/
def viaParams (m : SipMessage) (branch received : String) (rport : Option Nat) : String :=
  ";branch=" ++ branch ++ ";received=" ++ received ++ (rport.elim "" fun n => ";rport=" ++ toString n)
    ++ (if m.via.hasAlias then ";alias" else "")
    ++ String.join ((m.via.params.getD []).map fun kv =>
      ";" ++ kv.1 ++ kv.2.elim "" fun v => "=" ++ v)

/-- `add_via_received_rport`. Without a branch, `via_params` is nil when it is appended to. -/
def addViaReceivedRport (m : SipMessage) (compareIps : String → String → Bool) (sourceIp : String)
    (sourcePort : Nat) : Except RubyError SipMessage :=
  let m := if m.via.hasRport then { m with viaRport := some sourcePort } else m
  match m.viaReceived compareIps sourceIp with
  | none => .ok m
  | some received =>
    match m.via.branch with
    | none => .error .noMethodError
    | some branch =>
      .ok { m with hdrVia :=
        m.hdrVia.set 0 (m.via.coreValue ++ m.viaParams branch received m.viaRport) }

/-- `@msg.via_branch[7..-1]`, which is nil for a shorter branch. -/
def viaBranchId (m : SipMessage) : Option String :=
  match m.via.branch with
  | none => none
  | some branch =>
    if 7 ≤ branch.length then some (String.ofList (branch.toList.drop 7)) else none

/-- The request as `check_transaction` reads it. -/
def toIncomingRequest (m : SipMessage) (viaBranchId : String) (connection : Nat)
    (transport : Transport) : IncomingRequest :=
  { method := m.method, viaBranchId, slReplyToTag := m.slReplyToTag, antiloopId := m.antiloopId
    viaSentBy := m.via.sentByHost ++ (m.via.sentByPort.elim "" fun n => ":" ++ toString n)
    connection, transport }

end SipMessage

end OverSip
