import OverSip.Sip.Connections
import OverSip.Sip.MessageProcessor

/-!
# The headers a proxy adds to a request

`Proxy#add_routing_headers` (`proxy.rb`) sets Max-Forwards and adds the Record-Route or Path entry of the
proxy. `send_request` (`client_transaction.rb`) puts the Via of the client transaction, and a second entry
when the request changes the class of its connection, into the copy that is sent, and takes both off the
request again.

Headers are a function from a name to its values: a header that is absent has none. The names are those
that `headerize` gives.
-/

namespace OverSip

/-! ## Headers -/

/-- The values of each header. -/
abbrev Headers := String → List String

namespace Headers

/-- `insert_header`. -/
def insertHeader (h : Headers) (name value : String) : Headers :=
  Function.update h name (value :: h name)

/-- `delete_header_top`. -/
def deleteHeaderTop (h : Headers) (name : String) : Headers :=
  Function.update h name (h name).tail

@[simp] theorem insertHeader_self (h : Headers) (name value : String) :
    h.insertHeader name value name = value :: h name :=
  Function.update_self ..

@[simp] theorem insertHeader_of_ne (h : Headers) {name other : String} (value : String)
    (hne : other ≠ name) : h.insertHeader name value other = h other :=
  Function.update_of_ne hne ..

@[simp] theorem deleteHeaderTop_self (h : Headers) (name : String) :
    h.deleteHeaderTop name name = (h name).tail :=
  Function.update_self ..

@[simp] theorem deleteHeaderTop_of_ne (h : Headers) {name other : String} (hne : other ≠ name) :
    h.deleteHeaderTop name other = h other :=
  Function.update_of_ne hne ..

/-- What was inserted is what is deleted. -/
theorem deleteHeaderTop_insertHeader (h : Headers) (name value : String) :
    (h.insertHeader name value).deleteHeaderTop name = h := by
  unfold deleteHeaderTop insertHeader
  rw [Function.update_self, List.tail_cons, Function.update_idem, Function.update_eq_self]

end Headers

/-! ## Requests -/

/-- `@request.in_rr`: how the request was record-routed. -/
inductive InRr
  | rr | outgoingOutboundRr | incomingOutboundRr | bothOutboundRr
  | path | outgoingOutboundPath | incomingOutboundPath | bothOutboundPath
deriving DecidableEq, Repr

/-- The attributes of a server class that go into headers. -/
structure ServerClass where
  viaCore : String
  recordRoute : String
  outboundRecordRouteFragment : String
  outboundPathFragment : String
deriving DecidableEq, Repr

/-- The connection a request was received on. -/
structure RequestConnection where
  klass : ServerClass
  /-- `connection.class.outbound_listener?` -/
  outboundListener : Bool
  /-- `connection.record_route`, of a connection made by the proxy. -/
  recordRoute : String
deriving DecidableEq, Repr

/-- A request on its way through a proxy. -/
structure RoutedRequest where
  method : Method
  /-- The request has no To tag. -/
  initial : Bool
  maxForwards : Option ℕ
  newMaxForwards : Option Int
  proxied : Bool
  inRr : Option InRr
  /-- `outgoing_outbound_requested?` -/
  outgoingOutbound : Bool
  /-- `incoming_outbound_requested?` -/
  incomingOutbound : Bool
  connectionOutboundFlowToken : String
  routeOutboundFlowToken : String
  connection : RequestConnection
  bodySize : ℕ
  headers : Headers
  /-- `check_max_forwards` lowers Max-Forwards. -/
  newMaxForwards_lt : ∀ n ∈ newMaxForwards, ∀ m ∈ maxForwards, n < m

/-- The attributes of an IPv4 server class that listens on UDP. -/
def sampleServerClass : ServerClass :=
  { viaCore := "SIP/2.0/UDP 192.0.2.1:5060"
    recordRoute := "<sip:192.0.2.1:5060;transport=udp;lr>"
    outboundRecordRouteFragment := "@192.0.2.1:5060;transport=udp;lr>"
    outboundPathFragment := "@192.0.2.1:5060;transport=udp;lr;ob>" }

/-- An initial INVITE with a Max-Forwards of 70, as it is received. -/
def sampleRouted : RoutedRequest :=
  { method := .invite, initial := true, maxForwards := some 70, newMaxForwards := none
    proxied := false, inRr := none, outgoingOutbound := false, incomingOutbound := false
    connectionOutboundFlowToken := "_MTk4", routeOutboundFlowToken := ""
    connection :=
      { klass := sampleServerClass, outboundListener := true, recordRoute := "" }
    bodySize := 0
    headers := fun name => if name = "Max-Forwards" then ["70"] else []
    newMaxForwards_lt := by simp }

namespace RoutedRequest

/-- `check_max_forwards`: the result, and the request after it. A Max-Forwards of 0 is answered with 483. -/
def checkMaxForwards (r : RoutedRequest) (maxForwards : Int) : Bool × RoutedRequest :=
  match hm : r.maxForwards with
  | some m =>
    if m ≠ 0 then
      (true, { r with
        newMaxForwards := some (if (m : Int) > maxForwards then maxForwards else m - 1)
        newMaxForwards_lt := by
          intro n hn m' hm'
          rw [hm] at hm'
          obtain rfl := Option.some.inj hm'
          obtain rfl := Option.some.inj hn
          split <;> omega })
    else (false, r)
  | none =>
    (true, { r with
      newMaxForwards := some maxForwards
      newMaxForwards_lt := by
        intro n _ m hm'
        rw [hm] at hm'
        cases hm' })

def recordRoutingAware (r : RoutedRequest) : Bool :=
  r.method == .invite || r.method == .other "REGISTER" || r.method == .other "SUBSCRIBE" ||
    r.method == .other "REFER"

/-- The header that record-routes a request. -/
def rrName (r : RoutedRequest) : String :=
  if r.method = .other "REGISTER" then "Path" else "Record-Route"

/-- The entry of the proxy and what `in_rr` becomes with it. -/
def rrEntry (r : RoutedRequest) : InRr × String :=
  let klass := r.connection.klass
  if r.method = .other "REGISTER" then
    if r.outgoingOutbound then
      (if r.incomingOutbound then .bothOutboundPath else .outgoingOutboundPath,
        "<sip:" ++ r.connectionOutboundFlowToken ++ klass.outboundPathFragment)
    else if r.incomingOutbound then
      (.incomingOutboundPath, klass.recordRoute)
    else
      (.path, if r.connection.outboundListener then klass.recordRoute else r.connection.recordRoute)
  else
    if r.outgoingOutbound then
      (if r.incomingOutbound then .bothOutboundRr else .outgoingOutboundRr,
        "<sip:" ++ r.connectionOutboundFlowToken ++ klass.outboundRecordRouteFragment)
    else if r.incomingOutbound then
      (.incomingOutboundRr,
        if r.connection.outboundListener then klass.recordRoute else r.connection.recordRoute)
    else
      (.rr,
        if r.connection.outboundListener then
          "<sip:" ++ r.connectionOutboundFlowToken ++ klass.outboundRecordRouteFragment
        else r.connection.recordRoute)

end RoutedRequest

/-! ## `add_routing_headers` -/

/-- The entries of a proxy configuration that `add_routing_headers` reads. -/
structure RecordRouting where
  doRecordRouting : Bool
  recordRouteAll : Bool
deriving DecidableEq, Repr

/-- The header that an entry of a kind stands in. -/
def InRr.header : InRr → String
  | .rr | .outgoingOutboundRr | .incomingOutboundRr | .bothOutboundRr => "Record-Route"
  | .path | .outgoingOutboundPath | .incomingOutboundPath | .bothOutboundPath => "Path"

namespace RoutedRequest

/-- The request is one that proxies record-route. -/
def recordRouted (conf : RecordRouting) (r : RoutedRequest) : Bool :=
  (r.initial && r.recordRoutingAware) || r.method == .other "NOTIFY" || conf.recordRouteAll

/-- Remove the entry of another proxy instance when this one does not record-route. -/
def removeRrPath (conf : RecordRouting) (r : RoutedRequest) : RoutedRequest :=
  match r.inRr with
  | some k =>
    if r.recordRouted conf ∧ conf.doRecordRouting = false then
      { r with headers := r.headers.deleteHeaderTop k.header, inRr := none }
    else r
  | none => r

/-- Mark the request as proxied, and set Max-Forwards the first time. -/
def setMaxForwards (r : RoutedRequest) : RoutedRequest :=
  if r.proxied then r
  else
    match r.newMaxForwards with
    | some n => { r with proxied := true, headers := Function.update r.headers "Max-Forwards" [toString n] }
    | none => { r with proxied := true }

/-- Add Record-Route or Path. -/
def addRrPath (r : RoutedRequest) : RoutedRequest :=
  { r with headers := r.headers.insertHeader r.rrName r.rrEntry.2, inRr := some r.rrEntry.1 }

/-- The body of `add_routing_headers` after its guard. -/
def setRoutingHeaders (conf : RecordRouting) (r : RoutedRequest) : RoutedRequest :=
  if r.recordRouted conf ∧ r.inRr = none ∧ conf.doRecordRouting = true then
    (r.removeRrPath conf).setMaxForwards.addRrPath
  else
    (r.removeRrPath conf).setMaxForwards

/-- `add_routing_headers`. -/
def addRoutingHeaders (conf : RecordRouting) (numTarget : Option ℕ) (r : RoutedRequest) :
    RoutedRequest :=
  if numTarget.any (1 < ·) then r else r.setRoutingHeaders conf

/-! ## `send_request` -/

/-- `ClientTransaction#initialize` as far as the request goes. -/
def setContentLength (r : RoutedRequest) : RoutedRequest :=
  { r with headers := Function.update r.headers "Content-Length" [toString r.bodySize] }

/-- The second entry, which the client transaction adds for the class of its own connection. `same` is
`@request.connection.is_a?(@server_klass)`. -/
def outRr (r : RoutedRequest) (klass : ServerClass) (same : Bool) : Option (String × String) :=
  match r.method, r.inRr with
  | .ack, _ => none
  | _, none => none
  | _, some .rr => if same then none else some ("Record-Route", klass.recordRoute)
  | _, some .outgoingOutboundRr => some ("Record-Route", klass.recordRoute)
  | _, some .incomingOutboundRr | _, some .bothOutboundRr =>
    some ("Record-Route", "<sip:" ++ r.routeOutboundFlowToken ++ klass.outboundRecordRouteFragment)
  -- an INVITE client transaction knows Record-Route only
  | .invite, _ => none
  | _, some .path => if same then none else some ("Path", klass.recordRoute)
  | _, some .outgoingOutboundPath => some ("Path", klass.recordRoute)
  | _, some .incomingOutboundPath | _, some .bothOutboundPath =>
    some ("Path", "<sip:" ++ r.routeOutboundFlowToken ++ klass.outboundPathFragment)

/-- The header whose top value is deleted once the copy is made, when a second entry was added. In the case
`:both_outbound_path` the source sets `@out_rr` to `:rr`. -/
def outRrHeader (k : InRr) : String :=
  if k = .bothOutboundPath then "Record-Route" else k.header

/-- `send_request`: the headers of the copy that is sent, and the request after it. An ACK keeps its Via. -/
def sendRequest (r : RoutedRequest) (klass : ServerClass) (same : Bool) (topVia : String) :
    Headers × RoutedRequest :=
  let h := r.headers.insertHeader "Via" topVia
  match r.outRr klass same, r.inRr with
  | some (name, value), some k =>
    let copy := h.insertHeader name value
    (copy, { r with headers := (copy.deleteHeaderTop "Via").deleteHeaderTop (outRrHeader k) })
  | _, _ => (h, { r with headers := if r.method = .ack then h else h.deleteHeaderTop "Via" })

end RoutedRequest

end OverSip
