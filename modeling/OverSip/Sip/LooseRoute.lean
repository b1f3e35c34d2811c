import OverSip.Sip.MessageProcessor
import OverSip.Sip.Rfc3263
import Mathlib.Data.List.TakeWhile

/-!
# Loose routing

`Core#loose_route` (`core.rb`) takes the Route values that point to the proxy off a request, and decides
whether the request asks for the Outbound mechanism, outgoing or incoming. A request is incoming when the
last Route carries the flow token of another connection than its own. The own token is computed when
`connection_outbound_flow_token` is first called; `loose_route` reads the variable that keeps it.
-/

namespace OverSip

open Rfc3263 (UriScheme)

/-! ## Routes -/

/-- A value of a Route header. -/
structure RouteValue where
  scheme : UriScheme
  user : Option String
  host : String
  port : Option Nat
  ovidParam : Option String
  obParam : Bool
deriving DecidableEq, Repr

/-- What the proxy knows of itself, and the library functions that are used with it. -/
structure ProxyNode where
  hash : String → Int
  routeOvidValue : String
  localAliases : String → Bool
  strictEncode64 : String → String

/-- The connection that a request comes from. -/
inductive RequestFlow
  | udp (sourceIp : String) (sourcePort : Nat)
  /-- Any other one, with its `outbound_flow_token`. One that the proxy has opened has none. -/
  | connection (token : Option String)
deriving DecidableEq, Repr

namespace ProxyNode

variable (node : ProxyNode)

/-- `check_value_for_route_ovid` -/
def checkValueForRouteOvid (value : Option String) : Bool :=
  value.any fun v => node.hash v == node.hash node.routeOvidValue

/-- `local_uri?` -/
def localUri (uri : RouteValue) : Bool :=
  (uri.scheme == .sip || uri.scheme == .sips) &&
    match uri.port with
    | some port => node.localAliases s!"{uri.host}:{port}"
    | none => node.localAliases uri.host

/-- The Route points to the proxy. -/
def pointsToUs (route : RouteValue) : Bool :=
  node.checkValueForRouteOvid route.ovidParam || node.localUri route

/-- The first loop of `loose_route`: `num_removes` and `has_preloaded_route_with_ob_param`. -/
def scanRoutes : List RouteValue → Nat × Bool
  | [] => (0, false)
  | route :: routes =>
    let (numRemoves, ob) := scanRoutes routes
    if node.checkValueForRouteOvid route.ovidParam then (numRemoves + 1, ob)
    else if node.localUri route then (numRemoves + 1, route.obParam || ob)
    else (0, false)

/-- The flow token of a connection. -/
def flowToken : RequestFlow → Option String
  | .udp sourceIp sourcePort =>
    some ("_" ++ (node.strictEncode64 s!"{sourceIp}_{sourcePort}").map fun c => if c = '=' then '-' else c)
  | .connection token => token

theorem scanRoutes_fst (routes : List RouteValue) :
    (node.scanRoutes routes).1 = (routes.takeWhile node.pointsToUs).length := by
  induction routes with
  | nil => rfl
  | cons route routes ih =>
    have hpoints : node.pointsToUs route =
        (node.checkValueForRouteOvid route.ovidParam || node.localUri route) := rfl
    rw [scanRoutes, List.takeWhile_cons, hpoints]
    cases node.checkValueForRouteOvid route.ovidParam with
    | true => exact congrArg (· + 1) ih
    | false =>
      cases node.localUri route with
      | true => exact congrArg (· + 1) ih
      | false => rfl

/-- All Routes point to the proxy when as many are removed as there are. -/
theorem scanRoutes_eq_length_iff {routes : List RouteValue} :
    (node.scanRoutes routes).1 = routes.length ↔ ∀ route ∈ routes, node.pointsToUs route := by
  rw [scanRoutes_fst]
  constructor
  · intro h route hroute
    rw [← (List.takeWhile_prefix node.pointsToUs).eq_of_length h] at hroute
    exact List.mem_takeWhile_imp hroute
  · intro h
    rw [List.takeWhile_eq_self_iff.mpr h]

end ProxyNode

/-! ## Requests -/

/-- A request as far as the module `Core` goes. -/
structure CoreRequest (node : ProxyNode) where
  method : Method
  toTag : Option String
  numVias : Nat
  /-- `@contact.ob_param?`, when there is one Contact with a URI. -/
  contactOb : Option Bool
  contactRegId : Bool
  flow : RequestFlow
  /-- `@connection.class.outbound_listener?` -/
  outboundListener : Bool
  routes : Option (List RouteValue)
  /-- `@headers["Route"]` -/
  routeHeader : Option (List String)
  forceOutgoingOutbound : Bool
  outgoingOutboundRequested : Option Bool
  incomingOutboundRequested : Bool
  routeOutboundFlowToken : Option String
  /-- `@connection_outbound_flow_token`, which is `nil` until it is computed. -/
  flowTokenVariable : Option String
  flowTokenVariable_eq : ∀ t ∈ flowTokenVariable, node.flowToken flow = some t

namespace CoreRequest

variable {node : ProxyNode} (r : CoreRequest node)

def initial : Bool := r.toTag.isNone

def outboundAware : Bool :=
  r.method == .invite || r.method == .other "REGISTER" || r.method == .other "SUBSCRIBE" ||
    r.method == .other "REFER"

/-- `connection_outbound_flow_token`: the token, and the request with the variable set. -/
def connectionOutboundFlowToken : Option String × CoreRequest node :=
  match r.flowTokenVariable with
  | some token => (some token, r)
  | none =>
    (node.flowToken r.flow, { r with
      flowTokenVariable := node.flowToken r.flow
      flowTokenVariable_eq := fun _ h => h })

/-- The condition for outgoing Outbound. -/
def wantsOutgoingOutbound (preloaded : Bool) : Bool :=
  r.initial && r.outboundListener &&
    (r.forceOutgoingOutbound || r.numVias == 1 && r.outboundAware &&
      ((preloaded || r.contactOb == some true) || r.method == .other "REGISTER" && r.contactRegId))

/-- `fix_nat`, without the `rport` of the responses. -/
def fixNat : CoreRequest node :=
  if r.initial && r.numVias == 1 && r.outboundAware then { r with forceOutgoingOutbound := true } else r

/-- `outgoing_outbound_requested?` -/
def outgoingOutboundRequested? : Bool × CoreRequest node :=
  match r.outgoingOutboundRequested with
  | some requested => (requested, r)
  | none =>
    (r.wantsOutgoingOutbound false,
      { r with outgoingOutboundRequested := some (r.wantsOutgoingOutbound false) })

/-- The decision on outgoing Outbound in `loose_route`. -/
def decideOutgoing (preloaded : Bool) : CoreRequest node :=
  { r with outgoingOutboundRequested := some (r.wantsOutgoingOutbound preloaded) }

/-- The decision on incoming Outbound in `loose_route`. -/
def decideIncoming (numRemoves : Nat) : CoreRequest node :=
  match r.routes.bind List.getLast? with
  | some route =>
    if (numRemoves = 1 ∨ numRemoves = 2) ∧ (r.routes.getD []).length = numRemoves ∧
        route.ovidParam.isSome then
      { r with
        routeOutboundFlowToken := route.user
        incomingOutboundRequested :=
          r.incomingOutboundRequested || route.user.isSome && route.user != r.flowTokenVariable }
    else r
  | none => r

/-- The Routes to the proxy are removed. Without a Route header an error is raised. -/
def removeRoutes (numRemoves : Nat) : Option (CoreRequest node) :=
  if numRemoves = 0 then some r
  else
    r.routeHeader.map fun values =>
      let routes := (r.routes.getD []).drop numRemoves
      { r with
        routeHeader := some (values.drop numRemoves)
        routes := if routes.isEmpty then none else some routes }

/-- `loose_route`: the result, and the request after it. There is no result when an error is raised. -/
def looseRoute : Option Bool × CoreRequest node :=
  let (numRemoves, preloaded) := node.scanRoutes (r.routes.getD [])
  let decided := (r.decideOutgoing preloaded).decideIncoming numRemoves
  if decided.routes.isNone then (some false, decided)
  else
    match decided.removeRoutes numRemoves with
    | none => (none, decided)
    | some routed =>
      (some (if r.initial then routed.routes.isSome else 0 < numRemoves), routed)

/-! ## Incoming Outbound -/

/-- One or two Routes, all to the proxy, the last with an `;ovid` and a user part for which `P` holds. -/
def RoutedOnFlow (P : String → Prop) : Prop :=
  ∃ routes route, r.routes = some routes ∧ (routes.length = 1 ∨ routes.length = 2) ∧
    (∀ route ∈ routes, node.pointsToUs route) ∧ routes.getLast? = some route ∧
      route.ovidParam.isSome ∧ ∃ user, route.user = some user ∧ P user

/-- The Routes lead to the flow of another connection. -/
def RoutedOnOtherFlow : Prop := r.RoutedOnFlow fun user => node.flowToken r.flow ≠ some user

/-- The Routes lead back to the connection of the request. -/
def RoutedOnOwnFlow : Prop := r.RoutedOnFlow fun user => node.flowToken r.flow = some user

/-- A flow that the Routes lead to is not the one of the request. -/
theorem RoutedOnOtherFlow.ne {r : CoreRequest node} (h : r.RoutedOnOtherFlow) {flow : RequestFlow}
    (hflow : r.RoutedOnFlow fun user => node.flowToken flow = some user) : flow ≠ r.flow := by
  obtain ⟨routes, route, hroutes, _, _, hlast, _, user, huser, hne⟩ := h
  obtain ⟨routes', route', hroutes', _, _, hlast', _, user', huser', heq⟩ := hflow
  rw [hroutes] at hroutes'
  obtain rfl := Option.some.inj hroutes'
  rw [hlast] at hlast'
  obtain rfl := Option.some.inj hlast'
  rw [huser] at huser'
  obtain rfl := Option.some.inj huser'
  rintro rfl
  exact hne heq

/-- What `decideIncoming` marks. It compares the token with the variable. -/
theorem incoming_decideIncoming_iff (numRemoves : Nat) (h : r.incomingOutboundRequested = false) :
    (r.decideIncoming numRemoves).incomingOutboundRequested = true ↔
      ∃ routes route, r.routes = some routes ∧ routes.getLast? = some route ∧
        (numRemoves = 1 ∨ numRemoves = 2) ∧ routes.length = numRemoves ∧ route.ovidParam.isSome ∧
          ∃ user, route.user = some user ∧ r.flowTokenVariable ≠ some user := by
  unfold decideIncoming
  split
  · next route hlast =>
    obtain ⟨routes, hroutes, hlast⟩ := Option.bind_eq_some_iff.mp hlast
    rw [hroutes, Option.getD_some]
    split
    · next hcond =>
      obtain ⟨hnum, hlength, hovid⟩ := hcond
      show (r.incomingOutboundRequested || route.user.isSome && route.user != r.flowTokenVariable) = true ↔ _
      rw [h, Bool.false_or, Bool.and_eq_true, bne_iff_ne, Option.isSome_iff_exists]
      constructor
      · rintro ⟨⟨user, huser⟩, hne⟩
        rw [huser] at hne
        exact ⟨routes, route, rfl, hlast, hnum, hlength, hovid, user, huser, hne.symm⟩
      · rintro ⟨routes', route', heq, hlast', _, _, _, user, huser, hne⟩
        obtain rfl := Option.some.inj heq
        obtain rfl := Option.some.inj (hlast.symm.trans hlast')
        rw [huser]
        exact ⟨⟨user, rfl⟩, hne.symm⟩
    · next hcond =>
      apply iff_of_false
      · rw [h]
        exact Bool.false_ne_true
      · rintro ⟨routes', route', heq, hlast', hnum, hlength, hovid, _⟩
        obtain rfl := Option.some.inj heq
        obtain rfl := Option.some.inj (hlast.symm.trans hlast')
        exact hcond ⟨hnum, hlength, hovid⟩
  · next hnone =>
    apply iff_of_false
    · rw [h]
      exact Bool.false_ne_true
    · rintro ⟨routes, route, hroutes, hlast, _⟩
      rw [hroutes, Option.bind_some, hlast] at hnone
      cases hnone

theorem incoming_looseRoute : r.looseRoute.2.incomingOutboundRequested =
    ((r.decideOutgoing (node.scanRoutes (r.routes.getD [])).2).decideIncoming
      (node.scanRoutes (r.routes.getD [])).1).incomingOutboundRequested := by
  unfold looseRoute removeRoutes
  dsimp only
  split
  · rfl
  · split
    · rfl
    · next routed hrouted =>
      split at hrouted
      · obtain rfl := Option.some.inj hrouted
        rfl
      · obtain ⟨values, _, rfl⟩ := Option.map_eq_some_iff.mp hrouted
        rfl

theorem incoming_looseRoute_iff (h : r.incomingOutboundRequested = false) :
    r.looseRoute.2.incomingOutboundRequested = true ↔
      r.RoutedOnFlow fun user => r.flowTokenVariable ≠ some user := by
  rw [incoming_looseRoute, incoming_decideIncoming_iff (r.decideOutgoing _) _ h]
  constructor
  · rintro ⟨routes, route, hroutes, hlast, hnum, hlength, huser⟩
    have hroutes' : r.routes = some routes := hroutes
    rw [hroutes', Option.getD_some] at hnum hlength
    refine ⟨routes, route, hroutes, ?_, ?_, hlast, huser⟩
    · rw [hlength]
      exact hnum
    · exact node.scanRoutes_eq_length_iff.mp hlength.symm
  · rintro ⟨routes, route, hroutes, hlength, hus, hlast, huser⟩
    refine ⟨routes, route, hroutes, hlast, ?_, ?_, huser⟩
    · rw [hroutes, Option.getD_some, node.scanRoutes_eq_length_iff.mpr hus]
      exact hlength
    · rw [hroutes, Option.getD_some, node.scanRoutes_eq_length_iff.mpr hus]

/-- `loose_route` marks the request only when the Routes lead to the flow of another connection. -/
def NotRoutedBack : Prop :=
  r.looseRoute.2.incomingOutboundRequested = true →
    r.RoutedOnOtherFlow ∧
      ∀ flow, r.RoutedOnFlow (fun user => node.flowToken flow = some user) → flow ≠ r.flow

/-- The Routes may carry the token of the request's own connection when the token has been computed. -/
theorem notRoutedBack_iff (h : r.incomingOutboundRequested = false) :
    r.NotRoutedBack ↔ (r.RoutedOnOwnFlow → r.flowTokenVariable = node.flowToken r.flow) := by
  unfold NotRoutedBack
  rw [incoming_looseRoute_iff r h]
  constructor
  · rintro hother ⟨routes, route, hroutes, hlength, hus, hlast, hovid, user, huser, htoken⟩
    by_contra hne
    have hvariable : r.flowTokenVariable ≠ some user := fun heq => hne (heq.trans htoken.symm)
    obtain ⟨⟨routes', route', hroutes', _, _, hlast', _, user', huser', hne'⟩, _⟩ :=
      hother ⟨routes, route, hroutes, hlength, hus, hlast, hovid, user, huser, hvariable⟩
    obtain rfl := Option.some.inj (hroutes.symm.trans hroutes')
    obtain rfl := Option.some.inj (hlast.symm.trans hlast')
    exact hne' (htoken.trans (huser.symm.trans huser'))
  · rintro hown ⟨routes, route, hroutes, hlength, hus, hlast, hovid, user, huser, hne⟩
    have hother : r.RoutedOnOtherFlow := by
      refine ⟨routes, route, hroutes, hlength, hus, hlast, hovid, user, huser, ?_⟩
      intro htoken
      have heq := hown ⟨routes, route, hroutes, hlength, hus, hlast, hovid, user, huser, htoken⟩
      exact hne (heq.trans htoken)
    exact ⟨hother, fun flow => hother.ne⟩

/-! ## A request within a dialog -/

/-- A proxy that listens on one address. -/
def sampleNode : ProxyNode where
  hash s := s.length
  routeOvidValue := "bcd890a1"
  localAliases := fun host => host == "192.0.2.1:5060"
  strictEncode64 := id

/-- A BYE over a connection, with the Route that the proxy has put into its Record-Route for it. -/
def routedBye : CoreRequest sampleNode where
  method := .other "BYE"
  toTag := some "76341"
  numVias := 1
  contactOb := none
  contactRegId := false
  flow := .connection (some "0a1b2c3d4e")
  outboundListener := true
  routes := some [{ scheme := .sip, user := some "0a1b2c3d4e", host := "192.0.2.1", port := some 5060
                    ovidParam := some "bcd890a1", obParam := false }]
  routeHeader := some ["<sip:0a1b2c3d4e@192.0.2.1:5060;transport=tcp;lr;ovid=bcd890a1>"]
  forceOutgoingOutbound := false
  outgoingOutboundRequested := none
  incomingOutboundRequested := false
  routeOutboundFlowToken := none
  flowTokenVariable := none
  flowTokenVariable_eq := nofun

/-- When the token has been computed, the request is not routed back. -/
theorem notRoutedBack_computed : routedBye.connectionOutboundFlowToken.2.NotRoutedBack :=
  (notRoutedBack_iff routedBye.connectionOutboundFlowToken.2 rfl).mpr fun _ => rfl

theorem routedBye_routedBack : ¬routedBye.NotRoutedBack := by
  intro h
  obtain ⟨⟨routes, route, hroutes, _, _, hlast, _, user, huser, hne⟩, _⟩ := h rfl
  obtain rfl := Option.some.inj hroutes
  obtain rfl := Option.some.inj hlast
  obtain rfl := Option.some.inj huser
  exact hne rfl

end CoreRequest

end OverSip
