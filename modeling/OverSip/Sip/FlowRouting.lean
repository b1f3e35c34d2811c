import OverSip.Sip.HexUnescape
import OverSip.Sip.OutboundMangling
import OverSip.Sip.RouteEntries
import OverSip.Sip.RouteRemoval

/-!
# Requests that follow a flow

A flow token leaves the proxy in a Record-Route or a Path value. An endpoint copies the value into the Route header of a
later request, the parser reads the token as the user of the Route, `loose_route` takes the Route off and marks the
request, and `get_outbound_connection` looks the token up.

The callee of a dialog sends the recorded values in their order, and the caller in the reverse order (RFC 3261 12.1), so
that the last Route is the one of the far side. `leads_of_recorded` says where requests from both of them go.
-/

namespace OverSip

open GrammarSipUri Numerals

/-! ## Texts as bytes -/

theorem ascii_append (s t : String) : ascii (s ++ t) = ascii s ++ ascii t := by
  unfold ascii
  rw [String.toList_append, List.map_append]

theorem ascii_rubyString (bs : Bytes) : ascii (rubyString bs) = bs := by
  unfold ascii rubyString
  rw [String.toList_ofList, List.map_map]
  refine List.map_id'' (fun b => ?_) bs
  have hvalid : b.toNat.isValidChar := .inl (by have := b.toNat_lt; omega)
  show UInt8.ofNat (Char.ofNat b.toNat).toNat = b
  rw [Char.toNat_ofNat, if_pos hvalid]
  exact UInt8.ofNat_toNat

/-- A text of one byte for each character. -/
def IsAscii (s : String) : Prop := (s.toList.all fun c => c.toNat < 128) = true

instance (s : String) : Decidable (IsAscii s) := inferInstanceAs (Decidable (_ = true))

theorem rubyString_ascii {s : String} (h : IsAscii s) : rubyString (ascii s) = s := by
  have hchars : (ascii s).map (fun b => Char.ofNat b.toNat) = s.toList := by
    unfold ascii
    rw [List.map_map]
    refine (List.map_congr_left fun c hc => ?_).trans (List.map_id' _)
    have hlt := of_decide_eq_true (List.all_eq_true.mp h c hc)
    show Char.ofNat (UInt8.ofNat c.toNat).toNat = c
    rw [UInt8.toNat_ofNat', Nat.mod_eq_of_lt (by omega)]
    exact Char.ofNat_toNat c
  unfold rubyString
  rw [hchars, String.ofList_toList]

theorem ascii_toString (n : ℕ) : ascii (toString n) = decimal n := by
  show ascii n.repr = decimal n
  unfold ascii Nat.repr
  rw [String.toList_ofList]
  exact map_toDigits n

/-! ## Published addresses -/

/-- An address as a launcher publishes it: the host is one of the grammar, and the other texts are tokens. -/
structure ProxyUri.Published (u : ProxyUri) (ovid : String) (hostType : HostType) : Prop where
  host : findHost (ascii u.host) = some hostType
  port_pos : 1 ≤ u.port
  port_le : u.port ≤ 65535
  transport : isToken (ascii u.transport) = true
  ovid_eq : u.ovid = ovid
  ovid_token : isToken (ascii ovid) = true
  ovid_ascii : IsAscii ovid

namespace ProxyUri

variable (u : ProxyUri) (hostType : HostType) (ob : Bool)

/-- What the parser finds behind the userinfo. -/
def hostPart : HostPart where
  host := ascii u.host
  hostType
  port := some (decimal u.port)
  params := [ascii "transport" ++ 61 :: ascii u.transport, ascii "lr", ascii "ovid" ++ 61 :: ascii u.ovid] ++
    if ob then [ascii "ob"] else []
  headers := none

/-- The URI of a name-addr. -/
def uriText (user : Option Bytes) : Bytes :=
  UriScheme.text .sip ++ (user.elim [] (· ++ [64]) ++ (u.hostPart hostType ob).text)

theorem ascii_core : ascii u.core ++ (if ob then ascii ";ob" else []) = (u.hostPart hostType ob).text := by
  have hcore : u.core = u.host ++ (":" ++ (toString u.port ++ (";transport=" ++ (u.transport ++ (";lr;ovid=" ++ u.ovid))))) := by
    unfold core
    simp only [String.append_assoc]
    rfl
  have hport : ascii ":" = [58] := rfl
  have htransport : ascii ";transport=" = 59 :: (ascii "transport" ++ [61]) := rfl
  have hovid : ascii ";lr;ovid=" = 59 :: (ascii "lr" ++ 59 :: (ascii "ovid" ++ [61])) := rfl
  have hob : ascii ";ob" = 59 :: ascii "ob" := rfl
  rw [hcore]
  simp only [ascii_append, ascii_toString, hport, htransport, hovid, hob]
  unfold hostPart HostPart.text
  cases ob <;> simp

theorem ascii_nameAddr (user : Option Bytes) :
    ascii (u.nameAddr (user.map rubyString) ob) = 60 :: (u.uriText hostType ob user ++ [62]) := by
  have hscheme : ascii "<sip:" = 60 :: UriScheme.text .sip := rfl
  have hclose : ascii ">" = [62] := rfl
  have hat : ascii "@" = [64] := rfl
  have huser : ascii ((user.map rubyString).elim "" (· ++ "@")) = user.elim [] (· ++ [64]) := by
    cases user with
    | none => rfl
    | some user =>
      show ascii (rubyString user ++ "@") = user ++ [64]
      rw [ascii_append, ascii_rubyString, hat]
  have hob : ascii (if ob then ";ob" else "") = if ob then ascii ";ob" else [] := by
    cases ob <;> rfl
  unfold nameAddr uriText
  rw [← ascii_core]
  simp only [ascii_append, hscheme, hclose, huser, hob, List.cons_append, List.append_assoc]

variable {u hostType ob} {ovid : String}

theorem Published.hostPart_valid (h : u.Published ovid hostType) : (u.hostPart hostType ob).Valid := by
  refine ⟨h.host, ?_, ?_, rfl⟩
  · intro digits hdigits
    obtain rfl := Option.some.inj hdigits
    exact isPort_decimal h.port_pos h.port_le
  · have htoken : ∀ (name : String) (value : Bytes), downcase (ascii name) = ascii name → isToken value = true →
        (tokenBehind name (ascii name ++ 61 :: value)).isSome = true := by
      intro name value hname hvalue
      unfold tokenBehind
      rw [valueBehind_eq_some_iff.mpr ⟨ascii name, hname, rfl⟩, Option.filter_some_pos hvalue]
      rfl
    have htransport : isSipUriParam (ascii "transport" ++ 61 :: ascii u.transport) = true := by
      unfold isSipUriParam
      rw [htoken "transport" _ (by decide) h.transport]
      simp
    have hovid : isSipUriParam (ascii "ovid" ++ 61 :: ascii u.ovid) = true := by
      unfold isSipUriParam isFlag
      rw [htoken "ovid" _ (by decide) (h.ovid_eq ▸ h.ovid_token)]
      simp
    have hlr : isSipUriParam (ascii "lr") = true := by decide
    have hob : isSipUriParam (ascii "ob") = true := by decide
    unfold hostPart
    cases ob <;> simp [htransport, hovid, hlr, hob]

end ProxyUri

/-! ## Tokens as users -/

/-- A text of the characters of a token. -/
structure IsFlowToken (token : Bytes) : Prop where
  ne_nil : token ≠ []
  chars : ∀ c ∈ token, isFlowTokenChar c = true

namespace IsFlowToken

variable {token : Bytes} (h : IsFlowToken token)

include h

theorem notMem {c : UInt8} (hc : isFlowTokenChar c = false) : c ∉ token := by
  intro hmem
  rw [h.chars c hmem] at hc
  cases hc

theorem isUserinfo : isUserinfo token = true := by
  have hchar : ∀ c : UInt8, isFlowTokenChar c = false ∨ (isUserChar c = true ∧ c ≠ 37) := by
    apply byte_forall (p := fun c => isFlowTokenChar c = false ∨ (isUserChar c = true ∧ c ≠ 37))
    decide +kernel
  have huser : isEscapedText isUserChar token = true := by
    obtain ⟨-, hchars⟩ := h
    induction token with
    | nil => rfl
    | cons c token ih =>
      obtain ⟨hc, hrest⟩ := List.forall_mem_cons.mp hchars
      obtain ⟨huserChar, hpercent⟩ := (hchar c).resolve_left (ne_false_of_eq_true hc)
      rw [isEscapedText_cons hpercent, huserChar, ih hrest]
      rfl
  have hpassword : isEscapedText isPasswordChar (token.drop (token.length + 1)) = true := by
    rw [List.drop_eq_nil_of_le (Nat.le_succ _)]
    rfl
  unfold GrammarSipUri.isUserinfo
  rw [takeWhile_ne_of_notMem (h.notMem (c := 58) rfl)]
  dsimp only
  rw [huser, hpassword, Bool.and_true, Bool.and_true]
  exact bne_iff_ne.mpr h.ne_nil

/-- The machine, which takes the userinfo for a host at first, finds nothing in a token. -/
theorem scanUserinfo : scanUserinfo token = { reads := [], mark := none } := by
  have hquestion := h.notMem (c := 63) rfl
  have hsplit : token.splitOn 59 = [token] := List.splitOn_eq_singleton (h.notMem (c := 59) rfl)
  unfold OverSip.scanUserinfo
  rw [takeWhile_ne_of_notMem hquestion, hsplit]
  dsimp only
  rw [if_neg (h.notMem (c := 58) rfl)]
  split
  · unfold headersOf
    rw [if_neg hquestion]
    rfl
  · rfl

end IsFlowToken

theorem OutboundFlow.isFlowToken {κ : Type} (flow : OutboundFlow κ) : IsFlowToken flow.token where
  ne_nil := flow.token_ne_nil
  chars _ := flow.isFlowTokenChar_of_mem

/-! ## Reading a published address -/

namespace ProxyUri

variable (u : ProxyUri) (hostType : HostType) (ob : Bool) (user : Option Bytes)

def parts : SipUriParts where
  scheme := .sip
  userinfo := user
  hostPart := u.hostPart hostType ob

variable {u hostType ob user} {ovid : String}

theorem Published.readSipUri (h : u.Published ovid hostType) (huser : ∀ t ∈ user, IsFlowToken t) :
    readSipUri (u.uriText hostType ob user) = some (u.parts hostType ob user) := by
  unfold uriText parts
  cases user with
  | none => exact readSipUri_hostPart (.inl rfl) h.hostPart_valid
  | some token =>
    rw [Option.elim_some, List.append_assoc, List.singleton_append, readSipUri_userinfo (.inl rfl) h.hostPart_valid,
      if_pos (huser token rfl).isUserinfo]

theorem scan_parts (huser : ∀ t ∈ user, IsFlowToken t) :
    (u.parts hostType ob user).scan = { reads := [], mark := none } := by
  unfold SipUriParts.scan parts
  cases user with
  | none => rfl
  | some token => exact (huser token rfl).scanUserinfo

theorem user_parts (inet : Inet) (huser : ∀ t ∈ user, IsFlowToken t) :
    ((u.parts hostType ob user).fields inet).user = user := by
  rw [SipUriParts.fields_eq]
  show (u.parts hostType ob user).user = user
  unfold SipUriParts.user
  rw [scan_parts huser]
  show user.map (fun userinfo => hexUnescape userinfo) = user
  cases user with
  | none => rfl
  | some token => exact congrArg some (hexUnescape_of_notMem ((huser token rfl).notMem rfl))

theorem Published.ovidParam (h : u.Published ovid hostType) (inet : Inet) (huser : ∀ t ∈ user, IsFlowToken t) :
    ((u.parts hostType ob user).fields inet).ovidParam = some (ascii ovid) := by
  have hovid : tokenBehind "ovid" (ascii "ovid" ++ 61 :: ascii u.ovid) = some (ascii ovid) := by
    unfold tokenBehind
    rw [h.ovid_eq, valueBehind_eq_some_iff.mpr ⟨ascii "ovid", by decide, rfl⟩, Option.filter_some_pos h.ovid_token]
  have hob : tokenBehind "ovid" (ascii "ob") = none := by decide
  unfold SipUriParts.fields SipUriParts.reads
  rw [scan_parts huser]
  unfold parts hostPart
  cases ob with
  | false =>
    show ((tokenBehind "ovid" (ascii "ovid" ++ 61 :: ascii u.ovid)).or _) = _
    rw [hovid, Option.some_or]
  | true =>
    show ((tokenBehind "ovid" (ascii "ob")).or ((tokenBehind "ovid" (ascii "ovid" ++ 61 :: ascii u.ovid)).or _)) = _
    rw [hob, hovid, Option.none_or, Option.some_or]

end ProxyUri

/-! ## Copied values -/

/-- The value of a Route header has the URI of an inserted value. -/
def RouteText.Copies (value : RouteText) (entry : String) : Prop := ascii entry = 60 :: (value.uri ++ [62])

/-- The Route of a copied value has the user of it, and points to the proxy. -/
structure RouteValue.IsOurs (route : RouteValue) (ovid : String) (user : Option Bytes) : Prop where
  user : route.user = user.map rubyString
  ovidParam : route.ovidParam = some ovid

theorem RouteText.Copies.isOurs {value : RouteText} {u : ProxyUri} {hostType : HostType} {ob : Bool} {user : Option Bytes}
    {ovid : String} (h : value.Copies (u.nameAddr (user.map rubyString) ob)) (hu : u.Published ovid hostType)
    (huser : ∀ t ∈ user, IsFlowToken t) (inet : Inet) : (value.routeValue inet).IsOurs ovid user := by
  unfold RouteText.Copies at h
  rw [u.ascii_nameAddr hostType] at h
  have huri : value.uri = u.uriText hostType ob user := List.append_cancel_right (List.cons.inj h).2.symm
  have hparts := value.readSipUri_uri
  rw [huri, hu.readSipUri huser] at hparts
  unfold RouteText.routeValue
  rw [← Option.some.inj hparts]
  constructor
  · show Option.map rubyString _ = _
    rw [ProxyUri.user_parts inet huser]
  · show Option.map rubyString _ = _
    rw [hu.ovidParam inet huser, Option.map_some, rubyString_ascii hu.ovid_ascii]

theorem RouteValue.IsOurs.pointsToUs {node : ProxyNode} {route : RouteValue} {user : Option Bytes}
    (h : route.IsOurs node.routeOvidValue user) : node.pointsToUs route = true := by
  have hovid : node.checkValueForRouteOvid route.ovidParam = true := by
    unfold ProxyNode.checkValueForRouteOvid
    rw [h.ovidParam, Option.any_some]
    exact beq_self_eq_true _
  unfold ProxyNode.pointsToUs
  rw [hovid, Bool.true_or]

/-! ## What loose_route makes of copied values -/

namespace CoreRequest

variable {node : ProxyNode} {inet : Inet} {r : CoreRequest node} {values : List RouteText}

/-- Removing Routes changes neither of the two. -/
theorem looseRoute_decided (r : CoreRequest node) :
    r.looseRoute.2.routeOutboundFlowToken = r.decided.routeOutboundFlowToken ∧
      r.looseRoute.2.incomingOutboundRequested = r.decided.incomingOutboundRequested := by
  unfold looseRoute removeRoutes
  dsimp only
  split
  · exact ⟨rfl, rfl⟩
  · split
    · exact ⟨rfl, rfl⟩
    · next routed hrouted =>
      split at hrouted
      · obtain rfl := Option.some.inj hrouted
        exact ⟨rfl, rfl⟩
      · obtain ⟨strings, _, rfl⟩ := Option.map_eq_some_iff.mp hrouted
        exact ⟨rfl, rfl⟩

/-- One or two Routes, all to be removed: the last one decides. -/
theorem decideIncoming_of_last {n : ℕ} {routes : List RouteValue} {route : RouteValue} {ovid : String}
    {user : Option Bytes} (hroutes : r.routes = some routes) (hn : n = 1 ∨ n = 2) (hlength : routes.length = n)
    (hlast : routes.getLast? = some route) (hroute : route.IsOurs ovid user)
    (hincoming : r.incomingOutboundRequested = false) :
    (r.decideIncoming n).routeOutboundFlowToken = user.map rubyString ∧
      ((r.decideIncoming n).incomingOutboundRequested = true ↔
        ∃ t ∈ user, r.flowTokenVariable ≠ some (rubyString t)) := by
  have hbind : r.routes.bind List.getLast? = some route := by
    rw [hroutes, Option.bind_some, hlast]
  have hcond : (n = 1 ∨ n = 2) ∧ (r.routes.getD []).length = n ∧ route.ovidParam.isSome = true := by
    rw [hroutes, hroute.ovidParam]
    exact ⟨hn, hlength, rfl⟩
  unfold decideIncoming
  rw [hbind]
  dsimp only
  rw [if_pos hcond, hroute.user]
  refine ⟨rfl, ?_⟩
  show (r.incomingOutboundRequested || (user.map rubyString).isSome && user.map rubyString != r.flowTokenVariable) = true ↔ _
  rw [hincoming, Bool.false_or]
  cases user with
  | none => exact iff_of_false Bool.false_ne_true fun ⟨t, ht, _⟩ => Option.some_ne_none t ht.symm
  | some t =>
    show (true && some (rubyString t) != r.flowTokenVariable) = true ↔ _
    rw [Bool.true_and, bne_iff_ne]
    constructor
    · intro hne
      exact ⟨t, rfl, hne.symm⟩
    · rintro ⟨t', ht', hne⟩
      obtain rfl := Option.some.inj ht'
      exact hne.symm

theorem decided_of_last {routes : List RouteValue} {route : RouteValue} {ovid : String} {user : Option Bytes}
    (hroutes : r.routes = some routes) (hlength : routes.length = 1 ∨ routes.length = 2)
    (hours : ∀ route ∈ routes, node.pointsToUs route = true) (hlast : routes.getLast? = some route)
    (hroute : route.IsOurs ovid user) (hincoming : r.incomingOutboundRequested = false) :
    r.decided.routeOutboundFlowToken = user.map rubyString ∧
      (r.decided.incomingOutboundRequested = true ↔ ∃ t ∈ user, r.flowTokenVariable ≠ some (rubyString t)) := by
  have hscan : (node.scanRoutes (r.routes.getD [])).1 = routes.length := by
    rw [hroutes, Option.getD_some]
    exact node.scanRoutes_eq_length_iff.mpr hours
  unfold decided
  exact decideIncoming_of_last (r := r.decideOutgoing _) hroutes (hscan ▸ hlength) hscan.symm hlast hroute hincoming

/-- **Where a request is led.** Nothing is left of its Routes; the flow of the last one is asked for, unless the variable
already holds its token, and the token is found to lead there. -/
structure Leads {κ : Type} (inet : Inet) (outboundConnections : Bytes → Option κ) (r : CoreRequest node)
    (flow : Option (OutboundFlow κ)) : Prop where
  stores : r.looseRoute.2.Stores inet []
  result : r.looseRoute.1 = some r.toTag.isSome
  incoming : r.looseRoute.2.incomingOutboundRequested = true ↔
    ∃ f ∈ flow, r.flowTokenVariable ≠ some (rubyString f.token)
  connection : ∀ f ∈ flow, ∃ token, r.looseRoute.2.routeOutboundFlowToken = some token ∧
    getOutboundConnectionOf outboundConnections (ascii token) = f.toConnection

theorem remainingRoutes_of_ours (hours : ∀ value ∈ values, node.pointsToUs (value.routeValue inet) = true) :
    remainingRoutes inet node values = [] ∧ removedRoutes inet node values = values :=
  ⟨List.dropWhile_eq_nil_iff.mpr hours, List.takeWhile_eq_self_iff.mpr hours⟩

/-- One or two Routes with the proxy's `;ovid` value, the last one with the token of a flow or without a user. -/
theorem leads_of_isOurs {κ : Type} {outboundConnections : Bytes → Option κ} {last : RouteText}
    {flow : Option (OutboundFlow κ)} (hstores : r.Stores inet values) (hlength : values.length = 1 ∨ values.length = 2)
    (hours : ∀ value ∈ values, ∃ user, (value.routeValue inet).IsOurs node.routeOvidValue user)
    (hlast : values.getLast? = some last)
    (hflow : (last.routeValue inet).IsOurs node.routeOvidValue (flow.map OutboundFlow.token))
    (hopen : ∀ f ∈ flow, f.Open outboundConnections) (hincoming : r.incomingOutboundRequested = false) :
    Leads inet outboundConnections r flow := by
  have hpoints : ∀ value ∈ values, node.pointsToUs (value.routeValue inet) = true := by
    intro value hvalue
    obtain ⟨user, huser⟩ := hours value hvalue
    exact huser.pointsToUs
  obtain ⟨hremaining, hremoved⟩ := remainingRoutes_of_ours hpoints
  have hne : values ≠ [] := by
    rintro rfl
    cases hlast
  have hroutes : r.routes = some (values.map (RouteText.routeValue inet)) := hstores.routes.trans (if_neg hne)
  obtain ⟨htoken, hasked⟩ := decided_of_last hroutes (by rwa [List.length_map])
    (List.forall_mem_map.mpr hpoints) (by rw [List.getLast?_map, hlast]; rfl) hflow hincoming
  obtain ⟨hrest, hresult⟩ : r.looseRoute.2.Stores inet (remainingRoutes inet node values) ∧ _ :=
    looseRoute_stores hstores
  obtain ⟨htoken', hasked'⟩ := r.looseRoute_decided
  rw [hremaining] at hrest hresult
  refine ⟨hrest, ?_, ?_, ?_⟩
  · rw [hresult, hremoved]
    cases r.toTag <;> simp [hne]
  · rw [hasked', hasked]
    cases flow with
    | none => simp
    | some f => simp
  · rintro f hf
    obtain rfl : flow = some f := hf
    refine ⟨rubyString f.token, htoken'.trans htoken, ?_⟩
    rw [ascii_rubyString]
    exact OutboundFlow.getOutboundConnectionOf_token (hopen f rfl)

end CoreRequest

/-! ## What is recorded -/

/-- The side that a request comes from: a connection of a listener class with its flow, or one that OverSIP has opened. -/
inductive CallingSide (κ : Type)
  | accepted (uri : ProxyUri) (flow : OutboundFlow κ)
  | opened (uri : ProxyUri)

namespace CallingSide

variable {κ : Type}

def connection : CallingSide κ → EntryConnection
  | accepted uri flow => .accepted uri (rubyString flow.token)
  | opened uri => .opened uri

def flow : CallingSide κ → Option (OutboundFlow κ)
  | accepted _ flow => some flow
  | opened _ => none

end CallingSide

/-- The kinds of entries whose first one has the token of a listener's connection. -/
def InRr.tokenFirst : InRr → Bool
  | .rr | .outgoingOutboundRr | .bothOutboundRr | .outgoingOutboundPath | .bothOutboundPath => true
  | .incomingOutboundRr | .path | .incomingOutboundPath => false

/-- The values that the proxy puts into a request, the upper one first: the one of `send_request` stands above the one of
`add_routing_headers`. There are none when an error is raised. -/
def recordedEntries (method : Method) (outgoing incoming : Bool) (c : EntryConnection) (klass : ProxyUri) (same : Bool)
    (routeToken : Option String) : Option (List String) :=
  (firstEntry method outgoing incoming c).2.bind fun first =>
    match secondEntry method (some (firstEntry method outgoing incoming c).1) klass same routeToken with
    | none => some [first]
    | some second => second.map fun second => [second, first]

section

variable {κ : Type} {method : Method} {outgoing incoming same : Bool} {side : CallingSide κ} {klass : ProxyUri}

/-- The flow of the first entry. -/
def callerFlow (method : Method) (outgoing incoming : Bool) (side : CallingSide κ) : Option (OutboundFlow κ) :=
  if (firstEntry method outgoing incoming side.connection).1.tokenFirst then side.flow else none

/-- The flow of the second entry, if there is one. -/
def calleeFlow (method : Method) (outgoing incoming : Bool) (side : CallingSide κ) (klass : ProxyUri) (same : Bool)
    (flow : OutboundFlow κ) : Option (OutboundFlow κ) :=
  let k := (firstEntry method outgoing incoming side.connection).1
  if (secondEntry method (some k) klass same (some (rubyString flow.token))).isSome then
    if k.incoming then some flow else none
  else callerFlow method outgoing incoming side

/-- The text of a flow's token. -/
def flowUser (flow : Option (OutboundFlow κ)) : Option Bytes := flow.map OutboundFlow.token

/-- The first entry is a name-addr with the caller's token, or without a user; it is empty for a REGISTER over a connection
that OverSIP has opened. -/
theorem firstEntry_eq {v : String} (h : (firstEntry method outgoing incoming side.connection).2 = some v) :
    v = "" ∨ ∃ ob, v = side.connection.uri.nameAddr ((flowUser (callerFlow method outgoing incoming side)).map rubyString) ob := by
  unfold callerFlow
  unfold firstEntry at h ⊢
  by_cases hmethod : method = .other "REGISTER"
  · simp only [if_pos hmethod] at h ⊢
    cases side with
    | accepted u flow =>
      cases outgoing with
      | true =>
        refine .inr ⟨true, ?_⟩
        cases incoming <;> exact (Option.some.inj ((tokenEntry_path u (rubyString flow.token)).symm.trans h)).symm
      | false =>
        refine .inr ⟨false, ?_⟩
        cases incoming <;> exact (Option.some.inj h).symm.trans u.recordRoute_eq
    | opened u =>
      cases outgoing with
      | true => cases h
      | false =>
        cases incoming with
        | true => exact .inl (Option.some.inj h).symm
        | false => exact .inr ⟨false, (Option.some.inj h).symm.trans u.recordRoute_eq⟩
  · simp only [if_neg hmethod] at h ⊢
    cases side with
    | accepted u flow =>
      refine .inr ⟨false, ?_⟩
      cases outgoing with
      | true => cases incoming <;> exact (Option.some.inj ((tokenEntry_recordRoute u (rubyString flow.token)).symm.trans h)).symm
      | false =>
        cases incoming with
        | true => exact (Option.some.inj h).symm.trans u.recordRoute_eq
        | false => exact (Option.some.inj ((tokenEntry_recordRoute u (rubyString flow.token)).symm.trans h)).symm
    | opened u =>
      cases outgoing with
      | true => cases h
      | false => cases incoming <;> exact .inr ⟨false, (Option.some.inj h).symm.trans u.recordRoute_eq⟩

/-- The second entry is a name-addr with the callee's token, or without a user. -/
theorem secondEntry_eq {k : InRr} {token : String} {entry : Option String}
    (h : secondEntry method (some k) klass same (some token) = some entry) :
    ∃ ob, entry = some (klass.nameAddr (if k.incoming then some token else none) ob) := by
  have hrecord : some klass.recordRoute = some (klass.nameAddr none false) := congrArg some klass.recordRoute_eq
  have htoken := tokenEntry_recordRoute klass token
  have hpath := tokenEntry_path klass token
  unfold secondEntry at h
  cases k with
  | rr => cases method <;> cases same <;> cases h <;> exact ⟨false, hrecord⟩
  | outgoingOutboundRr => cases method <;> cases h <;> exact ⟨false, hrecord⟩
  | incomingOutboundRr => cases method <;> cases h <;> exact ⟨false, htoken⟩
  | bothOutboundRr => cases method <;> cases h <;> exact ⟨false, htoken⟩
  | path => cases method <;> cases same <;> cases h <;> exact ⟨false, hrecord⟩
  | outgoingOutboundPath => cases method <;> cases h <;> exact ⟨false, hrecord⟩
  | incomingOutboundPath => cases method <;> cases h <;> exact ⟨true, hpath⟩
  | bothOutboundPath => cases method <;> cases h <;> exact ⟨true, hpath⟩

end

/-! ## Requests of the dialog -/

/-- An inserted value with the user, for an address of the proxy. -/
def IsEntryWith (node : ProxyNode) (entry : String) (user : Option Bytes) : Prop :=
  ∃ (u : ProxyUri) (hostType : HostType) (ob : Bool), u.Published node.routeOvidValue hostType ∧
    (∀ t ∈ user, IsFlowToken t) ∧ entry = u.nameAddr (user.map rubyString) ob

/-- Every request whose Routes are these values is led to the flow, if that is open when it comes. -/
def Follows {κ : Type} (node : ProxyNode) (inet : Inet) (entries : List String) (flow : Option (OutboundFlow κ)) : Prop :=
  ∀ (r : CoreRequest node) (entersEmpty : Bool) (text : RequestText) (outboundConnections : Bytes → Option κ),
    r.ParsedFrom inet entersEmpty text → r.incomingOutboundRequested = false →
      List.Forall₂ RouteText.Copies text.routeValues entries → (∀ f ∈ flow, f.Open outboundConnections) →
        CoreRequest.Leads inet outboundConnections r flow

section

variable {κ : Type} {node : ProxyNode} {inet : Inet} {entries : List String} {entry entry' : String}
  {flow : Option (OutboundFlow κ)}

theorem isFlowToken_flowUser (flow : Option (OutboundFlow κ)) : ∀ t ∈ flowUser flow, IsFlowToken t := by
  intro t ht
  obtain ⟨f, _, rfl⟩ := Option.map_eq_some_iff.mp ht
  exact f.isFlowToken

theorem RouteText.Copies.isOurs_of_isEntryWith {value : RouteText} {user : Option Bytes} (h : value.Copies entry)
    (hentry : IsEntryWith node entry user) (inet : Inet) : (value.routeValue inet).IsOurs node.routeOvidValue user := by
  obtain ⟨u, hostType, ob, hu, huser, rfl⟩ := hentry
  exact h.isOurs hu huser inet

theorem follows_one (hentry : IsEntryWith node entry (flowUser flow)) : Follows node inet [entry] flow := by
  intro r entersEmpty text outboundConnections hparsed hincoming hcopies hopen
  have hstores := hparsed.stores
  generalize text.routeValues = values at hstores hcopies
  obtain ⟨value, rest, hvalue, hrest, rfl⟩ := List.forall₂_cons_right_iff.mp hcopies
  obtain rfl := List.forall₂_nil_right_iff.mp hrest
  have hours := hvalue.isOurs_of_isEntryWith hentry inet
  refine CoreRequest.leads_of_isOurs hstores (.inl rfl) (fun value hmem => ?_) rfl hours hopen hincoming
  obtain rfl := List.mem_singleton.mp hmem
  exact ⟨_, hours⟩

theorem follows_two {user : Option Bytes} (hentry : IsEntryWith node entry user)
    (hentry' : IsEntryWith node entry' (flowUser flow)) : Follows node inet [entry, entry'] flow := by
  intro r entersEmpty text outboundConnections hparsed hincoming hcopies hopen
  have hstores := hparsed.stores
  generalize text.routeValues = values at hstores hcopies
  obtain ⟨value, rest, hvalue, hrest, rfl⟩ := List.forall₂_cons_right_iff.mp hcopies
  obtain ⟨value', rest', hvalue', hrest', rfl⟩ := List.forall₂_cons_right_iff.mp hrest
  obtain rfl := List.forall₂_nil_right_iff.mp hrest'
  have hours := hvalue.isOurs_of_isEntryWith hentry inet
  have hours' := hvalue'.isOurs_of_isEntryWith hentry' inet
  refine CoreRequest.leads_of_isOurs hstores (.inr rfl) (fun value hmem => ?_) rfl hours' hopen hincoming
  rcases List.mem_cons.mp hmem with rfl | hmem
  · exact ⟨_, hours⟩
  · obtain rfl := List.mem_singleton.mp hmem
    exact ⟨_, hours'⟩

/-- An empty value is no Route value, so that no request has it. -/
theorem follows_of_empty (h : "" ∈ entries) : Follows node inet entries flow := by
  intro r entersEmpty text outboundConnections hparsed hincoming hcopies hopen
  exfalso
  clear hparsed hopen
  generalize text.routeValues = values at hcopies
  induction hcopies with
  | nil => cases h
  | cons hvalue _ ih =>
    rcases List.mem_cons.mp h with rfl | hmem
    · cases hvalue
    · exact ih hmem

variable {method : Method} {outgoing incoming same : Bool} {side : CallingSide κ} {klass : ProxyUri}
  {hostType hostType' : HostType} {callee : OutboundFlow κ}

/-- **Requests of a dialog follow the flows of its sides.** For every request that is routed with these entries: a later
request with the values in their order is led to the flow that the request came over, and one with the values in the
reverse order to the flow that it was sent on, as far as the entries have the tokens of the flows. -/
theorem follows_recorded (inet : Inet) (hside : side.connection.uri.Published node.routeOvidValue hostType)
    (hklass : klass.Published node.routeOvidValue hostType')
    (hentries : recordedEntries method outgoing incoming side.connection klass same (some (rubyString callee.token)) =
      some entries) :
    Follows node inet entries (callerFlow method outgoing incoming side) ∧
      Follows node inet entries.reverse (calleeFlow method outgoing incoming side klass same callee) := by
  unfold recordedEntries at hentries
  obtain ⟨first, hfirst, hentries⟩ := Option.bind_eq_some_iff.mp hentries
  unfold calleeFlow
  dsimp only
  rcases firstEntry_eq hfirst with rfl | ⟨ob, hvalue⟩
  · have hempty : "" ∈ entries := by
      split at hentries
      · obtain rfl := Option.some.inj hentries
        exact List.mem_singleton_self ""
      · obtain ⟨second, _, rfl⟩ := Option.map_eq_some_iff.mp hentries
        exact List.mem_cons_of_mem second (List.mem_singleton_self "")
    exact ⟨follows_of_empty hempty, follows_of_empty (List.mem_reverse.mpr hempty)⟩
  · have hcaller : IsEntryWith node first (flowUser (callerFlow method outgoing incoming side)) :=
      ⟨_, _, ob, hside, isFlowToken_flowUser _, hvalue⟩
    split at hentries
    · next hsecond =>
      obtain rfl := Option.some.inj hentries
      rw [hsecond, if_neg (show ¬(none : Option (Option String)).isSome = true from Bool.false_ne_true)]
      exact ⟨follows_one hcaller, follows_one hcaller⟩
    · next second hsecond =>
      obtain ⟨ob', rfl⟩ := secondEntry_eq hsecond
      obtain rfl := Option.some.inj hentries
      rw [hsecond, if_pos Option.isSome_some]
      have hcallee : IsEntryWith node (klass.nameAddr (if (firstEntry method outgoing incoming side.connection).1.incoming
          then some (rubyString callee.token) else none) ob')
          (flowUser (if (firstEntry method outgoing incoming side.connection).1.incoming then some callee else none)) := by
        refine ⟨klass, hostType', ob', hklass, isFlowToken_flowUser _, ?_⟩
        cases (firstEntry method outgoing incoming side.connection).1.incoming <;> rfl
      exact ⟨follows_two hcallee hcaller, follows_two hcaller hcallee⟩

end

/-! ## A dialog between two clients -/

def sampleProxyUri : ProxyUri where
  host := "192.0.2.1"
  port := 5060
  transport := "tcp"
  ovid := "bcd890a1"

theorem published_sample : sampleProxyUri.Published sampleRouteNode.routeOvidValue .ipv4 where
  host := show findHost (ascii "192.0.2.1") = some .ipv4 by decide
  port_pos := show 1 ≤ 5060 by decide
  port_le := show 5060 ≤ 65535 by decide
  transport := by decide
  ovid_eq := rfl
  ovid_token := by decide
  ovid_ascii := by decide

def sampleCallerFlow : OutboundFlow ℕ := .connection ⟨ascii "0a1b2c3d4e", rfl, by decide⟩ 1

def sampleCalleeFlow : OutboundFlow ℕ := .connection ⟨ascii "5f6a7b8c9d", rfl, by decide⟩ 2

/-- A Route value that is a copy of an inserted value. -/
def copiedRoute (flow : OutboundFlow ℕ) : RouteText where
  displayName := none
  white := []
  uri := sampleProxyUri.uriText .ipv4 false (some flow.token)
  parts := sampleProxyUri.parts .ipv4 false (some flow.token)
  params := []
  readSipUri_uri := published_sample.readSipUri fun _ ht => Option.some.inj ht ▸ flow.isFlowToken

theorem copiedRoute_copies (flow : OutboundFlow ℕ) :
    (copiedRoute flow).Copies (sampleProxyUri.nameAddr (some (rubyString flow.token)) false) :=
  sampleProxyUri.ascii_nameAddr .ipv4 false (some flow.token)

theorem isWhite_sampleComma : (([] : Bytes) ++ [32]).all isWhite = true := by
  decide

theorem downcase_sampleName : downcase (ascii "Route") = ascii "route" := by
  decide

/-- A BYE of the callee, with both Routes in one line. -/
def calleeByeText : RequestText where
  startLine := sampleRouteRequestText.startLine
  lines :=
    [.route
      { name := ascii "Route"
        colon := ascii ": "
        parts := [(copiedRoute sampleCalleeFlow, ⟨[], [32], isWhite_sampleComma⟩)]
        last := copiedRoute sampleCallerFlow
        downcase_name := downcase_sampleName }]
  body := []
  startLine_ne_nil := sampleRouteRequestText.startLine_ne_nil

def calleeBye : CoreRequest sampleRouteNode where
  method := .other "BYE"
  toTag := some "76341"
  numVias := 1
  contactOb := none
  contactRegId := false
  flow := .connection (some "5f6a7b8c9d")
  outboundListener := true
  routes := (calleeByeText.parsed Inet.ofTexts true).route.routes.map (List.map ParsedRoute.routeValue)
  routeHeader := ((calleeByeText.parsed Inet.ofTexts true).marks.headers.find? routeKey).map (List.map rubyString)
  forceOutgoingOutbound := false
  outgoingOutboundRequested := none
  incomingOutboundRequested := false
  routeOutboundFlowToken := none
  flowTokenVariable := none
  flowTokenVariable_eq := fun _ h => absurd h.symm (Option.some_ne_none _)

/-- The BYE of the callee goes to the connection of the caller. -/
theorem follows_recorded_sample : CoreRequest.Leads Inet.ofTexts
    (fun token => if token = ascii "0a1b2c3d4e" then some 1 else none) calleeBye (some sampleCallerFlow) := by
  have hentries : recordedEntries .invite true true (CallingSide.accepted sampleProxyUri sampleCallerFlow).connection
      sampleProxyUri false (some (rubyString sampleCalleeFlow.token)) =
        some [sampleProxyUri.nameAddr (some (rubyString sampleCalleeFlow.token)) false,
          sampleProxyUri.nameAddr (some (rubyString sampleCallerFlow.token)) false] := by
    unfold recordedEntries firstEntry
    simp only [CallingSide.connection, EntryConnection.flowToken, EntryConnection.classOutboundRecordRouteFragment,
      tokenEntry_recordRoute]
    rfl
  have hside : (CallingSide.accepted sampleProxyUri sampleCallerFlow).connection.uri.Published
      sampleRouteNode.routeOvidValue .ipv4 := published_sample
  refine (follows_recorded Inet.ofTexts hside published_sample hentries).1 calleeBye true calleeByeText _ ⟨rfl, rfl⟩
    rfl ?_ ?_
  · exact .cons (copiedRoute_copies _) (.cons (copiedRoute_copies _) .nil)
  · intro f hf
    obtain rfl := Option.some.inj hf
    rfl

end OverSip
