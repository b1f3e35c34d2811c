import OverSip.Sip.TlsTunnel
import OverSip.WebSocket.WssAcceptGate
import OverSip.WebSocket.WssTunnel

/-!
# Streams of the TLS tunnel in chunks

Both classes that a TLS tunnel connects to, `TlsTunnelServer` and `WssTunnelServer`, look for the line of the
HAProxy Protocol in the first data and close the connection where they do not find it.
-/

namespace OverSip

/-- The line of a client with an IPv4 address. -/
def sampleLine : ProxyLine where
  version := 52
  source := ascii "192.168.0.1"
  destination := ascii "192.168.0.11"
  sourcePort := ascii "56324"
  destinationPort := ascii "443"
  version_tcp := .inl rfl
  isIpAddress_source := by decide
  isIpAddress_destination := by decide
  isPort_source := by decide
  isPort_destination := by decide

/-- The line, an HTTP request and a text frame, cut behind the line and in the request. -/
def sampleCutting : List Bytes :=
  [sampleLine.text ++ sampleHttpText.take 20, sampleHttpText.drop 20 ++ sampleFrame]

/-- The line in two chunks. -/
def sampleCutLine : List Bytes := [sampleLine.text.take 9, sampleLine.text.drop 9 ++ CRLF]

/-- A program whose callback accepts the connection. -/
def sampleAcceptingEnv : WsEnv := ⟨.running, ⟨[], .returns⟩⟩

end OverSip
