import OverSip.Sip.RoutingHeaders

/-!
# Record-Route and Path entries

The values that `add_routing_headers` and `send_request` insert. They are built from attributes of the
connection classes, which `Launcher.run` sets for the listener classes, from `record_route` of a connection
that OverSIP has opened, and from flow tokens. The attributes of a client class are `nil`: `insert_header`
makes an empty value of it, and `<<` raises an error.
-/

namespace OverSip

/-- The address of the proxy on one side of a request. -/
structure ProxyUri where
  host : String
  port : Nat
  transport : String
  ovid : String
deriving DecidableEq, Repr

namespace ProxyUri

variable (u : ProxyUri)

/-- `host:port;transport=t;lr;ovid=v` -/
def core : String := s!"{u.host}:{u.port};transport={u.transport};lr;ovid={u.ovid}"

def recordRoute : String := "<sip:" ++ u.core ++ ">"

def outboundRecordRouteFragment : String := "@" ++ u.core ++ ">"

def outboundPathFragment : String := "@" ++ u.core ++ ";ob>"

/-- A name-addr with the address, with a user part or without. -/
def nameAddr (user : Option String) (ob : Bool) : String :=
  "<sip:" ++ user.elim "" (· ++ "@") ++ u.core ++ (if ob then ";ob" else "") ++ ">"

end ProxyUri

/-- The connection that a request comes from. -/
inductive EntryConnection
  /-- One of a listener class, with its flow token. UDP counts as one. -/
  | accepted (uri : ProxyUri) (flowToken : String)
  /-- A `TcpClient` or `TlsClient`, with its local address. -/
  | opened (uri : ProxyUri)
deriving DecidableEq, Repr

namespace EntryConnection

/-- The address of the class, or the local address. -/
def uri : EntryConnection → ProxyUri
  | accepted u _ => u
  | opened u => u

/-- `connection.class.outbound_listener?` -/
def outboundListener : EntryConnection → Bool
  | accepted _ _ => true
  | opened _ => false

/-- `connection_outbound_flow_token` -/
def flowToken : EntryConnection → Option String
  | accepted _ token => some token
  | opened _ => none

/-- `connection.class.record_route` -/
def classRecordRoute : EntryConnection → Option String
  | accepted u _ => some u.recordRoute
  | opened _ => none

/-- `connection.class.outbound_record_route_fragment` -/
def classOutboundRecordRouteFragment : EntryConnection → Option String
  | accepted u _ => some u.outboundRecordRouteFragment
  | opened _ => none

/-- `connection.class.outbound_path_fragment` -/
def classOutboundPathFragment : EntryConnection → Option String
  | accepted u _ => some u.outboundPathFragment
  | opened _ => none

/-- `connection.record_route`, a method of the client connections. -/
def recordRoute : EntryConnection → Option String
  | accepted _ _ => none
  | opened u => some u.recordRoute

end EntryConnection

/-! ## The entries -/

/-- `"<sip:" << token << fragment`. There is no value when an error is raised. -/
def tokenEntry (token fragment : Option String) : Option String :=
  token.bind fun t => fragment.map fun f => "<sip:" ++ t ++ f

/-- What `insert_header` makes of a class attribute. -/
def attributeEntry (value : Option String) : Option String := some (value.getD "")

/-- The entry of `add_routing_headers`, and `in_rr` with it. -/
def firstEntry (method : Method) (outgoing incoming : Bool) (c : EntryConnection) : InRr × Option String :=
  if method = .other "REGISTER" then
    if outgoing then
      (if incoming then .bothOutboundPath else .outgoingOutboundPath,
        tokenEntry c.flowToken c.classOutboundPathFragment)
    else if incoming then (.incomingOutboundPath, attributeEntry c.classRecordRoute)
    else (.path, if c.outboundListener then attributeEntry c.classRecordRoute else c.recordRoute)
  else
    if outgoing then
      (if incoming then .bothOutboundRr else .outgoingOutboundRr,
        tokenEntry c.flowToken c.classOutboundRecordRouteFragment)
    else if incoming then
      (.incomingOutboundRr, if c.outboundListener then attributeEntry c.classRecordRoute else c.recordRoute)
    else
      (.rr, if c.outboundListener then tokenEntry c.flowToken c.classOutboundRecordRouteFragment
        else c.recordRoute)

/-- The entry of `send_request` for the class of its connection, which is a listener class. `same` is
`@request.connection.is_a?(@server_klass)`. There may be no second entry. -/
def secondEntry (method : Method) (inRr : Option InRr) (klass : ProxyUri) (same : Bool)
    (routeToken : Option String) : Option (Option String) :=
  match method, inRr with
  | .ack, _ => none
  | _, none => none
  | _, some .rr => if same then none else some (some klass.recordRoute)
  | _, some .outgoingOutboundRr => some (some klass.recordRoute)
  | _, some .incomingOutboundRr | _, some .bothOutboundRr =>
    some (tokenEntry routeToken (some klass.outboundRecordRouteFragment))
  | .invite, _ => none
  | _, some .path => if same then none else some (some klass.recordRoute)
  | _, some .outgoingOutboundPath => some (some klass.recordRoute)
  | _, some .incomingOutboundPath | _, some .bothOutboundPath =>
    some (tokenEntry routeToken (some klass.outboundPathFragment))

/-! ## The headers that they go into -/

/-- The class attributes as they are inserted. -/
def EntryConnection.serverClass (c : EntryConnection) (viaCore : String) : ServerClass where
  viaCore := viaCore
  recordRoute := c.classRecordRoute.getD ""
  outboundRecordRouteFragment := c.classOutboundRecordRouteFragment.getD ""
  outboundPathFragment := c.classOutboundPathFragment.getD ""

/-- A request that came from the connection. -/
structure RoutedRequest.ComesFrom (r : RoutedRequest) (c : EntryConnection) : Prop where
  klass : ∃ viaCore, r.connection.klass = c.serverClass viaCore
  outboundListener : r.connection.outboundListener = c.outboundListener
  recordRoute : ∀ v ∈ c.recordRoute, r.connection.recordRoute = v
  flowToken : ∀ t ∈ c.flowToken, r.connectionOutboundFlowToken = t

/-- What `add_routing_headers` inserts is the first entry. -/
theorem RoutedRequest.rrEntry_eq {r : RoutedRequest} {c : EntryConnection} (h : r.ComesFrom c) {v : String}
    (hv : (firstEntry r.method r.outgoingOutbound r.incomingOutbound c).2 = some v) :
    r.rrEntry = ((firstEntry r.method r.outgoingOutbound r.incomingOutbound c).1, v) := by
  obtain ⟨⟨viaCore, hklass⟩, hlistener, hrecord, htoken⟩ := h
  unfold RoutedRequest.rrEntry
  unfold firstEntry at hv ⊢
  rw [hklass, hlistener]
  cases c with
  | accepted u t =>
    rw [htoken t rfl]
    split_ifs at hv ⊢ <;> cases hv <;> rfl
  | opened u =>
    rw [hrecord u.recordRoute rfl]
    split_ifs at hv ⊢ <;> cases hv <;> rfl

/-- What `send_request` inserts is the second entry. -/
theorem RoutedRequest.outRr_eq (r : RoutedRequest) (klass : ProxyUri) (viaCore flowToken : String)
    (same : Bool) : (r.outRr ((EntryConnection.accepted klass flowToken).serverClass viaCore) same).map
        (fun entry => some entry.2) =
      secondEntry r.method r.inRr klass same (some r.routeOutboundFlowToken) := by
  unfold RoutedRequest.outRr secondEntry
  cases r.method <;> cases r.inRr with
  | none => rfl
  | some k => cases k <;> cases same <;> rfl

/-! ## Well-formed entries -/

theorem ProxyUri.recordRoute_eq (u : ProxyUri) : u.recordRoute = u.nameAddr none false := by
  unfold ProxyUri.recordRoute ProxyUri.nameAddr
  simp

theorem tokenEntry_recordRoute (u : ProxyUri) (t : String) :
    tokenEntry (some t) (some u.outboundRecordRouteFragment) = some (u.nameAddr (some t) false) := by
  unfold tokenEntry ProxyUri.outboundRecordRouteFragment ProxyUri.nameAddr
  simp [String.append_assoc]

theorem tokenEntry_path (u : ProxyUri) (t : String) :
    tokenEntry (some t) (some u.outboundPathFragment) = some (u.nameAddr (some t) true) := by
  unfold tokenEntry ProxyUri.outboundPathFragment ProxyUri.nameAddr
  simp [String.append_assoc]

theorem ProxyUri.nameAddr_ne_empty (u : ProxyUri) (user : Option String) (ob : Bool) :
    u.nameAddr user ob ≠ "" := by
  intro h
  have hlist := congrArg String.toList h
  unfold ProxyUri.nameAddr at hlist
  simp at hlist

/-- The kinds of entries whose first one carries the flow token of the incoming side. -/
def InRr.outgoing : InRr → Bool
  | .outgoingOutboundRr | .bothOutboundRr | .outgoingOutboundPath | .bothOutboundPath => true
  | _ => false

/-- The kinds of entries whose second one carries the flow token of the outgoing side. -/
def InRr.incoming : InRr → Bool
  | .incomingOutboundRr | .bothOutboundRr | .incomingOutboundPath | .bothOutboundPath => true
  | _ => false

/-- A value that is inserted is a name-addr with the address of its side, and with a flow token where the
flow is to be used again. -/
def EntryOf (u : ProxyUri) (needsToken : Bool) (token entry : Option String) : Prop :=
  ∀ v ∈ entry, v ≠ "" ∧ ∃ user ob, v = u.nameAddr user ob ∧
    (needsToken = true → user = token ∧ token.isSome)

/-- The entries for a request are well-formed, the second one for every kind of the first. -/
structure EntriesWellFormed (method : Method) (outgoing incoming : Bool) (c : EntryConnection) : Prop where
  first : EntryOf c.uri (firstEntry method outgoing incoming c).1.outgoing c.flowToken
    (firstEntry method outgoing incoming c).2
  second : ∀ k klass same routeToken, ∀ entry ∈ secondEntry method (some k) klass same routeToken,
    EntryOf klass k.incoming routeToken entry

theorem entryOf_recordRoute (u : ProxyUri) (token : Option String) :
    EntryOf u false token (some u.recordRoute) := by
  intro v hv
  obtain rfl := Option.some.inj hv
  rw [u.recordRoute_eq]
  exact ⟨u.nameAddr_ne_empty _ _, none, false, rfl, nofun⟩

/-- An entry with a token, and with either fragment. -/
theorem entryOf_tokenEntry (u : ProxyUri) (needsToken : Bool) (token : Option String) :
    EntryOf u needsToken token (tokenEntry token (some u.outboundRecordRouteFragment)) ∧
      EntryOf u needsToken token (tokenEntry token (some u.outboundPathFragment)) := by
  cases token with
  | none => exact ⟨nofun, nofun⟩
  | some t =>
    rw [tokenEntry_recordRoute, tokenEntry_path]
    constructor
    · intro v hv
      obtain rfl := Option.some.inj hv
      exact ⟨u.nameAddr_ne_empty _ _, some t, false, rfl, fun _ => ⟨rfl, rfl⟩⟩
    · intro v hv
      obtain rfl := Option.some.inj hv
      exact ⟨u.nameAddr_ne_empty _ _, some t, true, rfl, fun _ => ⟨rfl, rfl⟩⟩

/-- The second entry is built for a listener class, and is always well-formed. -/
theorem entryOf_secondEntry {method : Method} {k : InRr} {klass : ProxyUri} {same : Bool}
    {routeToken entry : Option String} (h : secondEntry method (some k) klass same routeToken = some entry) :
    EntryOf klass k.incoming routeToken entry := by
  obtain ⟨hrecord, hpath⟩ := entryOf_tokenEntry klass k.incoming routeToken
  unfold secondEntry at h
  split at h
  · cases h
  · cases h
  · next _ hk =>
    obtain rfl := Option.some.inj hk
    split at h
    · cases h
    · obtain rfl := Option.some.inj h
      exact entryOf_recordRoute klass routeToken
  · next _ hk =>
    obtain rfl := Option.some.inj hk
    obtain rfl := Option.some.inj h
    exact entryOf_recordRoute klass routeToken
  · obtain rfl := Option.some.inj h
    exact hrecord
  · obtain rfl := Option.some.inj h
    exact hrecord
  · cases h
  · next _ hk =>
    obtain rfl := Option.some.inj hk
    split at h
    · cases h
    · obtain rfl := Option.some.inj h
      exact entryOf_recordRoute klass routeToken
  · next _ hk =>
    obtain rfl := Option.some.inj hk
    obtain rfl := Option.some.inj h
    exact entryOf_recordRoute klass routeToken
  · obtain rfl := Option.some.inj h
    exact hpath
  · obtain rfl := Option.some.inj h
    exact hpath

theorem entryOf_firstEntry_accepted (method : Method) (outgoing incoming : Bool) (u : ProxyUri) (t : String) :
    EntryOf u (firstEntry method outgoing incoming (.accepted u t)).1.outgoing (some t)
      (firstEntry method outgoing incoming (.accepted u t)).2 := by
  have htoken := fun b => entryOf_tokenEntry u b (some t)
  have hrecord := entryOf_recordRoute u (some t)
  unfold firstEntry
  by_cases hmethod : method = .other "REGISTER"
  · rw [if_pos hmethod]
    cases outgoing <;> cases incoming
    · exact hrecord
    · exact hrecord
    · exact (htoken true).2
    · exact (htoken true).2
  · rw [if_neg hmethod]
    cases outgoing <;> cases incoming
    · exact (htoken false).1
    · exact hrecord
    · exact (htoken true).1
    · exact (htoken true).1

/-- A connection that OverSIP has opened has no flow token, so that there is no entry for outgoing
Outbound. -/
theorem entryOf_firstEntry_opened {method : Method} {outgoing incoming : Bool} {u : ProxyUri}
    (h : ¬(method = .other "REGISTER" ∧ outgoing = false ∧ incoming = true)) :
    EntryOf u (firstEntry method outgoing incoming (.opened u)).1.outgoing none
      (firstEntry method outgoing incoming (.opened u)).2 := by
  have hrecord := entryOf_recordRoute u none
  unfold firstEntry
  by_cases hmethod : method = .other "REGISTER"
  · rw [if_pos hmethod]
    cases outgoing <;> cases incoming
    · exact hrecord
    · exact absurd ⟨hmethod, rfl, rfl⟩ h
    · exact nofun
    · exact nofun
  · rw [if_neg hmethod]
    cases outgoing <;> cases incoming
    · exact hrecord
    · exact hrecord
    · exact nofun
    · exact nofun

/-- For a REGISTER with incoming Outbound alone, the class attribute is inserted whatever the class is. -/
theorem entriesWellFormed_iff (method : Method) (outgoing incoming : Bool) (c : EntryConnection) :
    EntriesWellFormed method outgoing incoming c ↔
      ¬(c.outboundListener = false ∧ method = .other "REGISTER" ∧ outgoing = false ∧ incoming = true) := by
  constructor
  · rintro h ⟨hlistener, hmethod, houtgoing, hincoming⟩
    cases c with
    | accepted u t => cases hlistener
    | opened u =>
      have hfirst := h.first
      rw [hmethod, houtgoing, hincoming] at hfirst
      exact (hfirst "" rfl).1 rfl
  · intro h
    constructor
    · cases c with
      | accepted u t => exact entryOf_firstEntry_accepted method outgoing incoming u t
      | opened u => exact entryOf_firstEntry_opened fun hcond => h ⟨rfl, hcond⟩
    · intro k klass same routeToken entry hentry
      exact entryOf_secondEntry hentry

/-- A REGISTER with incoming Outbound, from a connection that OverSIP has opened. -/
theorem entriesWellFormed_register : ¬EntriesWellFormed (.other "REGISTER") false true
    (.opened { host := "192.0.2.1", port := 40001, transport := "tcp", ovid := "bcd890a1" }) := by
  intro h
  exact (h.first "" rfl).1 rfl

end OverSip
