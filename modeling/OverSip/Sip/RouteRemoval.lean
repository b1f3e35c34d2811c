import OverSip.Sip.LooseRoute
import OverSip.Sip.RouteHeaders

/-!
# The Routes that are removed

What `loose_route` leaves of the Routes that the parser has stored: the two lists are cut at the same place, behind
the last one of the Routes in front that point to the proxy.
-/

namespace OverSip

/-! ## Routes to the proxy -/

/-- The attributes of a stored Route that `loose_route` reads. -/
def RouteValue.ofFields (f : UriFields) : RouteValue where
  scheme :=
    match f.scheme with
    | .sip => .sip
    | .sips => .sips
    | _ => .other
  user := f.user.map rubyString
  host := (f.host.map rubyString).getD ""
  port := f.port
  ovidParam := f.ovidParam.map rubyString
  obParam := f.obParam

def RouteText.routeValue (inet : Inet) (value : RouteText) : RouteValue := .ofFields (value.parts.fields inet)

/-- The attributes of a `NameAddr`; one without a URI has none. -/
def ParsedRoute.routeValue (route : ParsedRoute) : RouteValue :=
  match route.fields with
  | some f => .ofFields f
  | none =>
    { scheme := .other, user := none, host := "", port := none, ovidParam := none, obParam := false }

namespace ProxyNode

variable (node : ProxyNode)

/-- The text under which a URI is looked up in `local_aliases`. -/
def aliasOf (uri : RouteValue) : String := uri.port.elim uri.host fun port => s!"{uri.host}:{port}"

/-- **A Route points to the proxy**: it has the proxy's `;ovid` value, or it is a SIP or SIPS URI of which the host and
the port are a local alias. -/
def IsRouteToUs (route : RouteValue) : Prop :=
  route.ovidParam = some node.routeOvidValue ∨
    (route.scheme = .sip ∨ route.scheme = .sips) ∧ node.localAliases (aliasOf route) = true

instance (route : RouteValue) : Decidable (node.IsRouteToUs route) := inferInstanceAs (Decidable (_ ∨ _))

/-- No other String has the hash of the proxy's `;ovid` value. -/
def HashOfOvid : Prop := ∀ value, node.hash value = node.hash node.routeOvidValue → value = node.routeOvidValue

variable {node}

theorem pointsToUs_iff (hhash : node.HashOfOvid) (route : RouteValue) :
    node.pointsToUs route = true ↔ node.IsRouteToUs route := by
  have hovid : node.checkValueForRouteOvid route.ovidParam = true ↔ route.ovidParam = some node.routeOvidValue := by
    unfold checkValueForRouteOvid
    cases route.ovidParam with
    | none => exact iff_of_false Bool.false_ne_true fun h => Option.some_ne_none _ h.symm
    | some value =>
      rw [Option.any_some, beq_iff_eq, Option.some.injEq]
      exact ⟨hhash value, congrArg node.hash⟩
  have halias : node.localUri route = true ↔
      (route.scheme = .sip ∨ route.scheme = .sips) ∧ node.localAliases (aliasOf route) = true := by
    unfold localUri aliasOf
    rw [Bool.and_eq_true, Bool.or_eq_true, beq_iff_eq, beq_iff_eq]
    cases route.port with
    | none => exact Iff.rfl
    | some port => exact Iff.rfl
  unfold pointsToUs IsRouteToUs
  rw [Bool.or_eq_true, hovid, halias]

end ProxyNode

/-! ## The two lists -/

namespace CoreRequest

variable {node : ProxyNode}

/-- The Routes of the request are stored as objects and as strings: `@routes` has the attributes of each value in its
place, or is nil, and `@headers["Route"]` has its text. -/
structure Stores (inet : Inet) (r : CoreRequest node) (values : List RouteText) : Prop where
  routes : r.routes = if values = [] then none else some (values.map (RouteText.routeValue inet))
  routeHeader : r.routeHeader.getD [] = values.map fun value => rubyString value.text

/-- The request that the parser has made of the text. -/
structure ParsedFrom (inet : Inet) (entersEmpty : Bool) (r : CoreRequest node) (text : RequestText) : Prop where
  routes : r.routes = (text.parsed inet entersEmpty).route.routes.map (List.map ParsedRoute.routeValue)
  routeHeader : r.routeHeader =
    ((text.parsed inet entersEmpty).marks.headers.find? routeKey).map (List.map rubyString)

variable {inet : Inet} {entersEmpty : Bool} {r : CoreRequest node} {text : RequestText}

theorem ParsedFrom.stores (h : r.ParsedFrom inet entersEmpty text) : r.Stores inet text.routeValues := by
  constructor
  · rw [h.routes, text.parsedRoutes_eq]
    by_cases hvalues : text.routeValues = []
    · rw [if_pos hvalues, if_pos hvalues]
      rfl
    · rw [if_neg hvalues, if_neg hvalues, Option.map_some, List.map_map]
      rfl
  · rw [h.routeHeader, text.routeHeader_eq]
    by_cases hvalues : text.routeValues = []
    · rw [if_pos hvalues, hvalues]
      rfl
    · rw [if_neg hvalues, Option.map_some, Option.getD_some, List.map_map]
      rfl

/-! ## What loose_route leaves -/

/-- The first part of `loose_route`, up to where the Routes are removed. -/
def decided (r : CoreRequest node) : CoreRequest node :=
  (r.decideOutgoing (node.scanRoutes (r.routes.getD [])).2).decideIncoming (node.scanRoutes (r.routes.getD [])).1

theorem decideIncoming_keeps (r : CoreRequest node) (numRemoves : ℕ) :
    (r.decideIncoming numRemoves).routes = r.routes ∧ (r.decideIncoming numRemoves).routeHeader = r.routeHeader ∧
      (r.decideIncoming numRemoves).toTag = r.toTag := by
  unfold decideIncoming
  split
  · split
    · exact ⟨rfl, rfl, rfl⟩
    · exact ⟨rfl, rfl, rfl⟩
  · exact ⟨rfl, rfl, rfl⟩

theorem decided_keeps (r : CoreRequest node) :
    r.decided.routes = r.routes ∧ r.decided.routeHeader = r.routeHeader ∧ r.decided.toTag = r.toTag :=
  decideIncoming_keeps (r.decideOutgoing _) _

theorem looseRoute_of_routes_none (h : r.routes = none) : r.looseRoute = (some false, r.decided) := by
  have hroutes : r.decided.routes.isNone = true := by
    rw [r.decided_keeps.1, h]
    rfl
  unfold looseRoute
  exact if_pos hroutes

/-- Removing Routes cuts both lists. -/
theorem removeRoutes_eq_some {routes : List RouteValue} (hroutes : r.routes = some routes) (hne : routes ≠ []) {n : ℕ}
    (hheader : n ≠ 0 → r.routeHeader.isSome = true) :
    ∃ routed, r.removeRoutes n = some routed ∧
      routed.routes = (if routes.drop n = [] then none else some (routes.drop n)) ∧
      routed.routeHeader.getD [] = (r.routeHeader.getD []).drop n := by
  unfold removeRoutes
  by_cases hn : n = 0
  · subst hn
    refine ⟨r, if_pos rfl, ?_, rfl⟩
    rw [List.drop_zero, if_neg hne, hroutes]
  · obtain ⟨strings, hstrings⟩ := Option.isSome_iff_exists.mp (hheader hn)
    rw [if_neg hn, hstrings, hroutes, Option.getD_some, Option.map_some]
    refine ⟨_, rfl, ?_, rfl⟩
    show (if (routes.drop n).isEmpty then none else some (routes.drop n)) = _
    by_cases hdrop : routes.drop n = []
    · rw [if_pos hdrop, if_pos (List.isEmpty_iff.mpr hdrop)]
    · rw [if_neg hdrop, if_neg fun h => hdrop (List.isEmpty_iff.mp h)]

theorem looseRoute_of_removeRoutes {routes : List RouteValue} (hroutes : r.routes = some routes) {routed : CoreRequest node}
    (hrouted : r.decided.removeRoutes (node.scanRoutes routes).1 = some routed) :
    r.looseRoute =
      (some (if r.initial then routed.routes.isSome else decide (0 < (node.scanRoutes routes).1)), routed) := by
  have hsome : ¬r.decided.routes.isNone = true := by
    rw [r.decided_keeps.1, hroutes]
    exact Bool.false_ne_true
  have hscan : node.scanRoutes (r.routes.getD []) = node.scanRoutes routes := by rw [hroutes, Option.getD_some]
  have hdecided : (r.decideOutgoing (node.scanRoutes (r.routes.getD [])).2).decideIncoming
      (node.scanRoutes (r.routes.getD [])).1 = r.decided := rfl
  unfold CoreRequest.looseRoute
  dsimp only
  rw [hdecided, if_neg hsome, hscan, hrouted]

/-- The values from the first one on that does not point to the proxy. -/
def remainingRoutes (inet : Inet) (node : ProxyNode) (values : List RouteText) : List RouteText :=
  values.dropWhile fun value => node.pointsToUs (value.routeValue inet)

def removedRoutes (inet : Inet) (node : ProxyNode) (values : List RouteText) : List RouteText :=
  values.takeWhile fun value => node.pointsToUs (value.routeValue inet)

theorem removedRoutes_append (inet : Inet) (node : ProxyNode) (values : List RouteText) :
    removedRoutes inet node values ++ remainingRoutes inet node values = values := List.takeWhile_append_dropWhile

theorem drop_removedRoutes (inet : Inet) (node : ProxyNode) (values : List RouteText) :
    values.drop (removedRoutes inet node values).length = remainingRoutes inet node values := by
  have hdrop : (removedRoutes inet node values ++ remainingRoutes inet node values).drop
      (removedRoutes inet node values).length = remainingRoutes inet node values := List.drop_left
  rw [removedRoutes_append] at hdrop
  exact hdrop

/-- As many Routes are removed as the values in front that point to the proxy. -/
theorem scanRoutes_values (inet : Inet) (node : ProxyNode) (values : List RouteText) :
    (node.scanRoutes (values.map (RouteText.routeValue inet))).1 = (removedRoutes inet node values).length := by
  rw [node.scanRoutes_fst, List.takeWhile_map, List.length_map]
  rfl

/-- **The Routes are taken off.** The removed values are the longest part in front in which each points to the proxy;
the two lists go on with the values behind. -/
structure TakesOff (inet : Inet) (r : CoreRequest node) (values removed remaining : List RouteText) : Prop where
  values_eq : values = removed ++ remaining
  ours : ∀ value ∈ removed, node.IsRouteToUs (value.routeValue inet)
  notOurs : ∀ value ∈ remaining.head?, ¬node.IsRouteToUs (value.routeValue inet)
  stores : r.looseRoute.2.Stores inet remaining
  result : r.looseRoute.1 =
    some (decide (r.toTag.isSome = true ∧ removed ≠ [] ∨ r.toTag = none ∧ remaining ≠ []))

/-- The result, from the number of removed Routes and whether Routes remain. -/
theorem decide_result (toTag : Option String) (removed remaining : List RouteText) :
    decide (toTag.isSome = true ∧ removed ≠ [] ∨ toTag = none ∧ remaining ≠ []) =
      if toTag.isNone then decide (remaining ≠ []) else decide (0 < removed.length) := by
  cases toTag with
  | none => simp
  | some tag => simp [List.length_pos_iff]

theorem looseRoute_stores {values : List RouteText} (h : r.Stores inet values) :
    r.looseRoute.2.Stores inet (remainingRoutes inet node values) ∧
      r.looseRoute.1 = some (decide (r.toTag.isSome = true ∧ removedRoutes inet node values ≠ [] ∨
        r.toTag = none ∧ remainingRoutes inet node values ≠ [])) := by
  obtain ⟨hroutes, hheader⟩ := h
  by_cases hvalues : values = []
  · subst hvalues
    rw [if_pos rfl] at hroutes
    rw [looseRoute_of_routes_none hroutes]
    refine ⟨⟨r.decided_keeps.1.trans hroutes, ?_⟩, ?_⟩
    · show r.decided.routeHeader.getD [] = []
      rw [r.decided_keeps.2.1, hheader]
      rfl
    · rw [decide_result]
      cases r.toTag with
      | none => rfl
      | some tag => rfl
  · rw [if_neg hvalues] at hroutes
    have hne : values.map (RouteText.routeValue inet) ≠ [] := fun h => hvalues (List.map_eq_nil_iff.mp h)
    have hsome : r.decided.routeHeader.isSome = true := by
      rw [r.decided_keeps.2.1]
      cases hstrings : r.routeHeader with
      | none =>
        rw [hstrings] at hheader
        exact absurd (List.map_eq_nil_iff.mp hheader.symm) hvalues
      | some strings => rfl
    obtain ⟨routed, hrouted, hroutedRoutes, hroutedHeader⟩ :=
      removeRoutes_eq_some (r.decided_keeps.1.trans hroutes) hne fun _ : (node.scanRoutes _).1 ≠ 0 => hsome
    rw [looseRoute_of_removeRoutes hroutes hrouted]
    rw [scanRoutes_values, ← List.map_drop, drop_removedRoutes] at hroutedRoutes
    rw [scanRoutes_values, r.decided_keeps.2.1, hheader, ← List.map_drop, drop_removedRoutes] at hroutedHeader
    have hremaining : routed.routes = if remainingRoutes inet node values = [] then none
        else some ((remainingRoutes inet node values).map (RouteText.routeValue inet)) := by
      simp only [hroutedRoutes, List.map_eq_nil_iff]
    refine ⟨⟨hremaining, hroutedHeader⟩, ?_⟩
    have hisSome : routed.routes.isSome = decide (remainingRoutes inet node values ≠ []) := by
      rw [hremaining]
      by_cases hnil : remainingRoutes inet node values = []
      · rw [if_pos hnil, hnil]
        rfl
      · rw [if_neg hnil]
        exact (decide_eq_true hnil).symm
    rw [decide_result, hisSome, scanRoutes_values]
    rfl

/-- **Taking the Routes off.** The parser stores an object and a string for each Route value of a request, and
`loose_route` takes off those in front that point to the proxy. -/
theorem looseRoute_takesOff (hhash : node.HashOfOvid) (h : r.ParsedFrom inet entersEmpty text) :
    r.Stores inet text.routeValues ∧ ∃ removed remaining, r.TakesOff inet text.routeValues removed remaining := by
  obtain ⟨hstores, hresult⟩ := looseRoute_stores h.stores
  refine ⟨h.stores, removedRoutes inet node text.routeValues, remainingRoutes inet node text.routeValues,
    (removedRoutes_append inet node text.routeValues).symm, ?_, ?_, hstores, hresult⟩
  · intro value hvalue
    have hpoints : node.pointsToUs (value.routeValue inet) = true :=
      List.mem_takeWhile_imp (p := fun value : RouteText => node.pointsToUs (value.routeValue inet)) hvalue
    exact (ProxyNode.pointsToUs_iff hhash _).mp hpoints
  · intro value hvalue hours
    have hnot := List.head?_dropWhile_not (fun value : RouteText => node.pointsToUs (value.routeValue inet)) text.routeValues
    have hhead : (text.routeValues.dropWhile fun value => node.pointsToUs (value.routeValue inet)).head? = some value :=
      hvalue
    rw [hhead] at hnot
    have hpoints : node.pointsToUs (value.routeValue inet) = false := hnot
    rw [(ProxyNode.pointsToUs_iff hhash _).mpr hours] at hpoints
    cases hpoints

end CoreRequest

/-! ## A request with two Routes -/

/-- A proxy whose `;ovid` value is "bcd890a1". -/
def sampleRouteNode : ProxyNode where
  hash s := if s = "bcd890a1" then 1 else 0
  routeOvidValue := "bcd890a1"
  localAliases := fun _ => false
  strictEncode64 := id

theorem hashOfOvid_sample : sampleRouteNode.HashOfOvid := by
  intro value h
  by_contra hne
  have hhash : sampleRouteNode.hash value = 0 := if_neg hne
  rw [hhash] at h
  cases h

theorem readSipUri_sample : readSipUri (ascii "sip:a;lr;ovid=bcd890a1") =
    some
      { scheme := .sip
        userinfo := none
        hostPart :=
          { host := ascii "a", hostType := .domain, port := none, params := [ascii "lr", ascii "ovid=bcd890a1"]
            headers := none } } := by
  decide

theorem readSipUri_sampleNext : readSipUri (ascii "sip:b;lr") =
    some
      { scheme := .sip
        userinfo := none
        hostPart := { host := ascii "b", hostType := .domain, port := none, params := [ascii "lr"], headers := none } } := by
  decide

/-- The Route that the proxy has put into its Record-Route. -/
def sampleRouteText : RouteText where
  displayName := none
  white := []
  uri := ascii "sip:a;lr;ovid=bcd890a1"
  parts := _
  params := []
  readSipUri_uri := readSipUri_sample

def sampleNextRouteText : RouteText where
  displayName := none
  white := []
  uri := ascii "sip:b;lr"
  parts := _
  params := []
  readSipUri_uri := readSipUri_sampleNext

/-- A request with both in one line. -/
def sampleRouteRequestText : RequestText where
  startLine := ascii "BYE sip:c@c SIP/2.0" ++ CRLF
  lines :=
    [.route
      { name := ascii "Route"
        colon := ascii ": "
        parts := [(sampleRouteText, ⟨[], [32], by decide⟩)]
        last := sampleNextRouteText
        downcase_name := by decide }]
  body := []
  startLine_ne_nil := List.append_ne_nil_of_right_ne_nil _ (List.cons_ne_nil _ _)

/-- The request that the parser makes of the text. -/
def sampleRouteRequest : CoreRequest sampleRouteNode where
  method := .other "BYE"
  toTag := some "76341"
  numVias := 1
  contactOb := none
  contactRegId := false
  flow := .connection (some "0a1b2c3d4e")
  outboundListener := true
  routes := (sampleRouteRequestText.parsed Inet.ofTexts true).route.routes.map (List.map ParsedRoute.routeValue)
  routeHeader :=
    ((sampleRouteRequestText.parsed Inet.ofTexts true).marks.headers.find? routeKey).map (List.map rubyString)
  forceOutgoingOutbound := false
  outgoingOutboundRequested := none
  incomingOutboundRequested := false
  routeOutboundFlowToken := none
  flowTokenVariable := none
  flowTokenVariable_eq := fun _ h => absurd h.symm (Option.some_ne_none _)

theorem looseRoute_takesOff_sample :
    sampleRouteRequest.Stores Inet.ofTexts [sampleRouteText, sampleNextRouteText] ∧ ∃ removed remaining,
      sampleRouteRequest.TakesOff Inet.ofTexts [sampleRouteText, sampleNextRouteText] removed remaining :=
  CoreRequest.looseRoute_takesOff hashOfOvid_sample
    (show sampleRouteRequest.ParsedFrom Inet.ofTexts true sampleRouteRequestText from ⟨rfl, rfl⟩)

end OverSip
