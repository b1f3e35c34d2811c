import OverSip.Lib.Base64
import OverSip.Sip.Connections
import OverSip.Utils.IpUtils
import OverSip.Utils.Ports

/-!
# Flow tokens of UDP

`connection_outbound_flow_token` (`core.rb`) writes the source of a request received over UDP into the flow
token, and `get_outbound_connection` (`transport_manager.rb`) reads it back, with
`outbound_udp_flow_token_parser_execute` (`outbound_utils.rl`). An address has no `_` in it and a port stays
one while it is read, so the machine is written as a reader of the two fields.
-/

namespace OverSip

open Numerals Regex

/-! ## The source of a request -/

def IpType.grammar : IpType → Regex UInt8
  | .ipv4 => GrammarIp.ipv4address
  | .ipv6 => GrammarIp.ipv6address

/-- Where a request over UDP came from. -/
structure UdpSource where
  ipType : IpType
  ip : Bytes
  port : ℕ
  ip_mem : ip ∈ lang ipType.grammar
  port_pos : 1 ≤ port
  port_le : port ≤ 65535

/-! ## Writing and reading a token -/

/-- `gsub`, of a single character. -/
def gsubChar (c c' : UInt8) (str : Bytes) : Bytes := str.map fun b => if b = c then c' else b

/-- `"#{@source_ip}_#{@source_port}"` -/
def UdpSource.text (s : UdpSource) : Bytes := s.ip ++ 95 :: decimal s.port

/-- `connection_outbound_flow_token`, of a request received over UDP. -/
def UdpSource.connectionOutboundFlowToken (s : UdpSource) : Bytes :=
  95 :: gsubChar 61 45 (Base64.encode s.text)

/-- `IPv4address %is_ipv4 | IPv6address %is_ipv6` -/
def pureIpType (ip : Bytes) : Option IpType :=
  if ip ∈ lang IpType.ipv4.grammar then some .ipv4
  else if ip ∈ lang IpType.ipv6.grammar then some .ipv6
  else none

/-- `Utils.parse_outbound_udp_flow_token`; `none` is `false`. -/
def parseOutboundUdpFlowToken (str : Bytes) : Option (IpType × Bytes × Int) :=
  (readField 95 str).bind fun r =>
  (pureIpType r.1).bind fun t =>
    if isPort r.2 then some (t, r.1, strToInt r.2 r.2.length) else none

/-- What `get_outbound_connection` returns. -/
inductive OutboundConnection (κ : Type)
  /-- the UDP server of this IP type, with an address and a port -/
  | udp (ipType : IpType) (ip : Bytes) (port : Int)
  /-- `false` -/
  | tampered
  | connection (c : κ)
  /-- `nil` -/
  | gone
deriving DecidableEq, Repr

/-- `TransportManager.get_outbound_connection`, with `@outbound_connections`. -/
def getOutboundConnectionOf {κ : Type} (outboundConnections : Bytes → Option κ) (flowToken : Bytes) :
    OutboundConnection κ :=
  if flowToken.head? = some 95 then
    match parseOutboundUdpFlowToken (Base64.decode (gsubChar 45 61 flowToken)) with
    | some (t, ip, port) => .udp t ip port
    | none => .tampered
  else
    match outboundConnections flowToken with
    | some c => .connection c
    | none => .gone

/-! ## The way back -/

theorem gsubChar_gsubChar {c c' : UInt8} {str : Bytes} (h : c' ∉ str) :
    gsubChar c' c (gsubChar c c' str) = str := by
  unfold gsubChar
  rw [List.map_map]
  calc str.map ((fun b => if b = c' then c else b) ∘ fun b => if b = c then c' else b) = str.map id := by
        apply List.map_congr_left
        intro b hb
        show (if (if b = c then c' else b) = c' then c else if b = c then c' else b) = b
        by_cases hc : b = c
        · rw [if_pos hc, if_pos rfl, hc]
        · rw [if_neg hc, if_neg]
          rintro rfl
          exact h hb
    _ = str := List.map_id str

theorem underscore_notMem (t : IpType) {ip : Bytes} (h : ip ∈ lang t.grammar) : 95 ∉ ip := by
  cases t
  · exact notMem_of_avoids (by decide) h
  · exact notMem_of_avoids (by decide) h

theorem pureIpType_eq_some {t : IpType} {ip : Bytes} (h : ip ∈ lang t.grammar) : pureIpType ip = some t := by
  unfold pureIpType
  cases t with
  | ipv4 => rw [if_pos h]
  | ipv6 =>
    have hnot : ip ∉ lang IpType.ipv4.grammar := fun h4 => colon_notMem_of_ipv4 h4 (colon_mem_of_ipv6 h)
    rw [if_neg hnot, if_pos h]

namespace UdpSource

variable (s : UdpSource)

theorem parse_text : parseOutboundUdpFlowToken s.text = some (s.ipType, s.ip, (s.port : Int)) := by
  unfold parseOutboundUdpFlowToken text
  have hread : readField 95 (s.ip ++ 95 :: decimal s.port) = some (s.ip, decimal s.port) :=
    (readField_eq_some_iff _ _ _ _).mpr ⟨rfl, underscore_notMem s.ipType s.ip_mem⟩
  rw [hread]
  show (pureIpType s.ip).bind _ = _
  rw [pureIpType_eq_some s.ip_mem]
  show (if isPort (decimal s.port) = true then _ else none) = _
  rw [if_pos (isPort_decimal s.port_pos s.port_le), strToInt_decimal s.port_pos s.port_le]

/-- Behind the `_` the token is the encoded text again. -/
theorem decode_token : Base64.decode (gsubChar 45 61 s.connectionOutboundFlowToken) = s.text := by
  have htoken : gsubChar 45 61 s.connectionOutboundFlowToken = [95] ++ Base64.encode s.text := by
    show 95 :: gsubChar 45 61 (gsubChar 61 45 (Base64.encode s.text)) = _
    rw [gsubChar_gsubChar (Base64.dash_notMem_encode s.text)]
    rfl
  have hjunk : ∀ c ∈ [(95 : UInt8)], Base64.value? c = none := List.forall_mem_singleton.mpr rfl
  rw [htoken, Base64.decode_append_encode hjunk]

theorem getOutboundConnectionOf_token {κ : Type} (outboundConnections : Bytes → Option κ) :
    getOutboundConnectionOf outboundConnections s.connectionOutboundFlowToken = .udp s.ipType s.ip s.port := by
  unfold getOutboundConnectionOf
  have hhead : s.connectionOutboundFlowToken.head? = some 95 := rfl
  rw [if_pos hhead, decode_token, parse_text]

end UdpSource

/-- A token leads back to its source, and no two sources have the same. -/
theorem udpFlowToken_roundtrip :
    (∀ (κ : Type) (outboundConnections : Bytes → Option κ) (s : UdpSource),
      getOutboundConnectionOf outboundConnections s.connectionOutboundFlowToken = .udp s.ipType s.ip s.port) ∧
    ∀ s s' : UdpSource, s.connectionOutboundFlowToken = s'.connectionOutboundFlowToken → s = s' := by
  refine ⟨fun κ conns s => s.getOutboundConnectionOf_token conns, ?_⟩
  intro s s' htoken
  have hs := s.getOutboundConnectionOf_token (fun _ => (none : Option Unit))
  have hs' := s'.getOutboundConnectionOf_token (fun _ => (none : Option Unit))
  rw [htoken, hs'] at hs
  obtain ⟨htype, hip, hport⟩ := OutboundConnection.udp.inj hs
  cases s
  cases s'
  obtain rfl := htype
  obtain rfl := hip
  obtain rfl := Int.ofNat.inj hport
  rfl

/-- 192.0.2.7:5060 -/
def sampleUdpSource : UdpSource where
  ipType := .ipv4
  ip := ascii "192.0.2.7"
  port := 5060
  ip_mem := by decide
  port_pos := by decide
  port_le := by decide

example : sampleUdpSource.connectionOutboundFlowToken = ascii "_MTkyLjAuMi43XzUwNjA-" := by decide

end OverSip
