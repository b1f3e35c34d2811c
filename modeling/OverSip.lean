import OverSip.FiberPool
import OverSip.Lib.Arrays
import OverSip.Lib.Automaton
import OverSip.Lib.Base64
import OverSip.Lib.Buckets
import OverSip.Lib.Cutting
import OverSip.Lib.Decimal
import OverSip.Lib.ExpiringMap
import OverSip.Lib.FirstError
import OverSip.Lib.Framing
import OverSip.Lib.Gate
import OverSip.Lib.History
import OverSip.Lib.IdleRun
import OverSip.Lib.Latch
import OverSip.Lib.LineMachine
import OverSip.Lib.LittleEndian
import OverSip.Lib.Machine
import OverSip.Lib.Numerals
import OverSip.Lib.OrderedMap
import OverSip.Lib.QuotedParts
import OverSip.Lib.Regex
import OverSip.Lib.Removal
import OverSip.Lib.TimerQueue
import OverSip.Lib.Utf8
import OverSip.Sip.AckMatching
import OverSip.Sip.Blacklist
import OverSip.Sip.BodyLength
import OverSip.Sip.CertificateIdentities
import OverSip.Sip.Client
import OverSip.Sip.ConnectionRegistry
import OverSip.Sip.DecimalNumbers
import OverSip.Sip.Dispatch
import OverSip.Sip.DispatchTheorems
import OverSip.Sip.DnsCache
import OverSip.Sip.EditedRequest
import OverSip.Sip.ErrorIsolation
import OverSip.Sip.FailureCalls
import OverSip.Sip.FlowRouting
import OverSip.Sip.FlowTokens
import OverSip.Sip.ForwardedStatus
import OverSip.Sip.FromToRewriting
import OverSip.Sip.HeaderFaithfulness
import OverSip.Sip.HeaderMarks
import OverSip.Sip.HeaderNames
import OverSip.Sip.HeaderPrinting
import OverSip.Sip.HexUnescape
import OverSip.Sip.InviteClientTransaction
import OverSip.Sip.InviteClientTransactionTheorems
import OverSip.Sip.InviteResponses
import OverSip.Sip.Leaks
import OverSip.Sip.LooseRoute
import OverSip.Sip.LostCancel
import OverSip.Sip.Message
import OverSip.Sip.MessageProcessor
import OverSip.Sip.MessageProcessorTheorems
import OverSip.Sip.NameAddr
import OverSip.Sip.NaptrOrder
import OverSip.Sip.NonInviteClientTransaction
import OverSip.Sip.NonInviteClientTransactionTheorems
import OverSip.Sip.Numbers
import OverSip.Sip.OneTransactionPerKey
import OverSip.Sip.OutboundMangling
import OverSip.Sip.Proxy
import OverSip.Sip.Randomize
import OverSip.Sip.ReceivedMessage
import OverSip.Sip.RequestFibers
import OverSip.Sip.ResponseDelivery
import OverSip.Sip.Retransmissions
import OverSip.Sip.Rfc3263
import OverSip.Sip.Rfc3263Lookups
import OverSip.Sip.Rfc3263Outcomes
import OverSip.Sip.Rfc3263Results
import OverSip.Sip.Rfc3263Targets
import OverSip.Sip.Rfc3263Transports
import OverSip.Sip.RouteEntries
import OverSip.Sip.RouteHeaders
import OverSip.Sip.RouteRemoval
import OverSip.Sip.RoutedCopies
import OverSip.Sip.RoutingHeaders
import OverSip.Sip.RoutingHeadersTheorems
import OverSip.Sip.SelfLoop
import OverSip.Sip.SentRequests
import OverSip.Sip.SerialForking
import OverSip.Sip.ServerResponses
import OverSip.Sip.ServerTimers
import OverSip.Sip.ServerTransactionTheorems
import OverSip.Sip.SilentEnd
import OverSip.Sip.SipUriHosts
import OverSip.Sip.SipUriParams
import OverSip.Sip.SipUriParser
import OverSip.Sip.SipUriPrinting
import OverSip.Sip.SipUriRoundTrip
import OverSip.Sip.TargetTraversal
import OverSip.Sip.TargetWalk
import OverSip.Sip.TcpConnection
import OverSip.Sip.TcpSegmentation
import OverSip.Sip.Timers
import OverSip.Sip.TlsClient
import OverSip.Sip.TlsHandshake
import OverSip.Sip.TlsServer
import OverSip.Sip.TlsTunnel
import OverSip.Sip.ToTags
import OverSip.Sip.TransactionMatching
import OverSip.Sip.Uac
import OverSip.Sip.UacRuns
import OverSip.Sip.UdpConnection
import OverSip.Sip.UdpIsolation
import OverSip.Sip.UriAccessors
import OverSip.Sip.UriCaches
import OverSip.Sip.UriEscaping
import OverSip.Sip.UriObject
import OverSip.Sip.UserAssertion
import OverSip.Sip.ViaRewriting
import OverSip.Sip.ViaValues
import OverSip.Stun.BindingResponse
import OverSip.Stun.ParseRequest
import OverSip.Utils.HaproxyMachine
import OverSip.Utils.HaproxyProtocol
import OverSip.Utils.IpUtils
import OverSip.Utils.Ports
import OverSip.WebSocket.MessageErrors
import OverSip.WebSocket.SentFrames
import OverSip.WebSocket.TunnelFraming
import OverSip.WebSocket.Utf8Validator
import OverSip.WebSocket.WsAcceptGate
import OverSip.WebSocket.WsFrames
import OverSip.WebSocket.WsFraming
import OverSip.WebSocket.WsFramingTheorems
import OverSip.WebSocket.WsLaterBytes
import OverSip.WebSocket.WsMessageSize
import OverSip.WebSocket.WsMessages
import OverSip.WebSocket.WsReassembly
import OverSip.WebSocket.WsSegmentation
import OverSip.WebSocket.WsSipApp
import OverSip.WebSocket.WsStalls
import OverSip.WebSocket.WsTextMessages
import OverSip.WebSocket.WsUpgrade
import OverSip.WebSocket.WsUpgradeSegmentation
import OverSip.WebSocket.WssAcceptGate
import OverSip.WebSocket.WssTunnel
import OverSip.Config.ProxiesConfig
import OverSip.Config.Validations
import OverSip.Config.SystemReload
import OverSip.Config.Listeners
