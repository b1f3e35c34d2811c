import OverSip.Sip.ConnectionRegistry
import OverSip.Sip.MessageProcessor

/-!
# A response finds its client transaction

A client transaction is stored in the table of `@server_klass`, which is the class of the connection when
it is made for a flow token, and otherwise one that goes by transport and IP type
(`client_transaction.rb`). A response is looked up in the table of the class of the connection that it
comes over (`process_response`). The two are one table for every connection but those of the TLS tunnel,
which `get_connection` finds in the `connections` of the TLS server class.
-/

namespace OverSip

/-- Where a client transaction sends its request: over an Outbound flow, or to an address. -/
inductive Destination
  | flow (f : TransportManager.Flow)
  | address (transport : Transport) (ipType : IpType) (ip : String) (port : Nat)
deriving DecidableEq, Repr

/-- The `@server_klass` for an address. -/
def serverKlass (transport : Transport) (ipType : IpType) : Option ConnClass :=
  match transport with
  | .udp => some ⟨.udpServer, ipType⟩
  | .tcp => some ⟨.tcpServer, ipType⟩
  | .tls => some ⟨.tlsServer, ipType⟩
  | .ws | .wss => none

/-- What `ClientTransaction#initialize` sets, and whether the transaction has been terminated. -/
structure ClientTransaction where
  transactionId : String
  method : Method
  destination : Destination
  serverKlass : ConnClass
  connection : Nat
  terminated : Bool
deriving DecidableEq, Repr

/-- What is put out: the request of transaction `i` over a connection, and the calls of
`process_response`. -/
inductive DeliveryOut
  | request (i connection : Nat)
  | receiveResponse (i : Nat)
  | receiveResponseToCancel (i : Nat)
deriving DecidableEq, Repr

/-- The connections and the client transactions, with the `invite_client_transactions` and
`non_invite_client_transactions` of the classes. -/
structure Delivery where
  manager : TransportManager
  transactions : List ClientTransaction
  tables : Table → ConnClass → String → Option Nat

namespace Delivery

section
variable (normalizeIpv6 : String → String)

def start (udp : List IpType) : Delivery :=
  { manager := .start udp, transactions := [], tables := fun _ _ _ => none }

/-- The client transactions of a class. -/
def lookup (d : Delivery) (k : Table) (klass : ConnClass) (id : String) : Option Nat :=
  d.tables k klass.serverClass id

def store (d : Delivery) (k : Table) (klass : ConnClass) (id : String) (entry : Option Nat) :
    Delivery :=
  { d with tables := Function.update d.tables k (Function.update (d.tables k) klass.serverClass
      (Function.update (d.tables k klass.serverClass) id entry)) }

/-- `send_request`, which stores the new transaction. -/
def sendRequest (d : Delivery) (k : Table) (t : ClientTransaction) : Delivery × List DeliveryOut :=
  let i := d.transactions.length
  ({ d with transactions := d.transactions ++ [t] }.store k t.serverKlass t.transactionId (some i),
    [.request i t.connection])

/-- `initialize` and `send_request`. Without a connection for a flow nothing is sent. -/
def new (d : Delivery) (id : String) (method : Method) (destination : Destination) :
    Option (Delivery × List DeliveryOut) :=
  match method.table with
  | none => none
  | some k =>
    match destination with
    | .flow f =>
      match d.manager.getOutboundConnection f with
      | none => none
      | some i => (d.manager.connections[i]?).map fun c => d.sendRequest k
          { transactionId := id, method, destination, serverKlass := c.klass, connection := i
            terminated := false }
    | .address transport ipType ip port =>
      match serverKlass transport ipType with
      | none => none
      | some klass =>
        (d.manager.getConnection normalizeIpv6 klass ip port).map fun (manager, i) =>
          { d with manager }.sendRequest k
            { transactionId := id, method, destination, serverKlass := klass, connection := i
              terminated := false }

/-- `terminate_transaction`, which may be called again. -/
def terminateTransaction (d : Delivery) (i : Nat) (t : ClientTransaction) : Delivery :=
  let d := { d with transactions := d.transactions.set i { t with terminated := true } }
  match t.method.table with
  | some k => d.store k t.serverKlass t.transactionId none
  | none => d

/-- `process_response`, for a response over a connection of the class. -/
def processResponse (d : Delivery) (klass : ConnClass) (method : Method) (branchId : String) :
    List DeliveryOut :=
  match method with
  | .invite => (d.lookup .invite klass branchId).toList.map .receiveResponse
  | .ack => []
  | .cancel => (d.lookup .invite klass branchId).toList.map .receiveResponseToCancel
  | .other _ => (d.lookup .nonInvite klass branchId).toList.map .receiveResponse

/-- What can happen to the connections and the client transactions. -/
inductive Event
  | network (ev : TransportManager.Event)
  | new (id : String) (method : Method) (destination : Destination)
  | terminate (i : Nat)
  | response (connection : Nat) (method : Method) (branchId : String)
deriving DecidableEq, Repr

def step (d : Delivery) : Event → Option (Delivery × List DeliveryOut)
  | .network ev =>
    (d.manager.step normalizeIpv6 ev).map fun (manager, _) => ({ d with manager }, [])
  | .new id method destination => d.new normalizeIpv6 id method destination
  | .terminate i => (d.transactions[i]?).map fun t => (d.terminateTransaction i t, [])
  | .response connection method branchId =>
    (d.manager.connections[connection]?).map fun c => (d, d.processResponse c.klass method branchId)

end

variable {d d' : Delivery} {normalizeIpv6 : String → String}

/-- The id of a new transaction is not that of another one; `SecureRandom` draws it. -/
def Fresh (d : Delivery) (ev : Event) : Prop :=
  ∀ id method destination, ev = .new id method destination →
    ∀ t ∈ d.transactions, t.transactionId ≠ id

/-- A transaction that is not terminated, and the response that is meant for it. -/
structure Awaits (t : ClientTransaction) (connection : Nat) (method : Method) (branchId : String) :
    Prop where
  live : t.terminated = false
  connection : t.connection = connection
  method : t.method = method
  branchId : t.transactionId = branchId

/-- The transaction was sent to an address, over a connection of the TLS tunnel. -/
def ThroughTunnel (d : Delivery) (t : ClientTransaction) : Prop :=
  ∃ transport ipType ip port c, t.destination = .address transport ipType ip port ∧
    d.manager.connections[t.connection]? = some c ∧ c.klass.kind = .tlsTunnelServer

end Delivery

/-! ## What the registry returns -/

namespace TransportManager

variable {m m' : TransportManager} {normalizeIpv6 : String → String}

theorem klass_of_set {cs : List Connection} {i j : Nat} {c c' c₁ : Connection}
    (hc : cs[i]? = some c) (hklass : c'.klass = c.klass) (hj : cs[j]? = some c₁) :
    ∃ c₂, (cs.set i c')[j]? = some c₂ ∧ c₂.klass = c₁.klass := by
  by_cases hij : i = j
  · subst hij
    rw [hc] at hj
    obtain rfl := Option.some.inj hj
    exact ⟨c', List.getElem?_set_self (List.getElem?_eq_some_iff.mp hc).1, hklass⟩
  · exact ⟨c₁, by rw [List.getElem?_set_ne hij, hj], rfl⟩

theorem klass_of_append {cs : List Connection} {j : Nat} {c c₁ : Connection}
    (hj : cs[j]? = some c₁) : ∃ c₂, (cs ++ [c])[j]? = some c₂ ∧ c₂.klass = c₁.klass :=
  ⟨c₁, by rw [List.getElem?_append_left (List.getElem?_eq_some_iff.mp hj).1, hj], rfl⟩

/-- A connection keeps its place and its class. -/
theorem klass_of_step {ev : Event} {o : List Nat} (hs : m.step normalizeIpv6 ev = some (m', o))
    {j : Nat} {c₁ : Connection} (hj : m.connections[j]? = some c₁) :
    ∃ c₂, m'.connections[j]? = some c₂ ∧ c₂.klass = c₁.klass := by
  cases ev with
  | accept klass peer token =>
    obtain ⟨m₁, haccept, heq⟩ := Option.map_eq_some_iff.mp hs
    obtain ⟨rfl, _⟩ := Prod.mk.inj heq
    unfold accept at haccept
    cases hkind : klass.kind with
    | udpServer | tcpClient | tlsClient => simp [hkind] at haccept
    | _ =>
      cases peer with
      | none =>
        simp only [hkind] at haccept
        obtain rfl := Option.some.inj haccept
        exact klass_of_append hj
      | some a =>
        simp only [hkind] at haccept
        obtain rfl := Option.some.inj haccept
        exact klass_of_append hj
  | getConnection klass ip port =>
    obtain ⟨⟨m₁, i⟩, hget, heq⟩ := Option.map_eq_some_iff.mp hs
    obtain ⟨rfl, _⟩ := Prod.mk.inj heq
    unfold getConnection at hget
    split at hget
    · split at hget
      · obtain ⟨rfl, _⟩ := Prod.mk.inj (Option.some.inj hget)
        exact ⟨c₁, hj, rfl⟩
      · obtain ⟨rfl, _⟩ := Prod.mk.inj (Option.some.inj hget)
        exact klass_of_append hj
    · split_ifs at hget with hudp
      obtain ⟨_, _, hi⟩ := Option.map_eq_some_iff.mp hget
      obtain ⟨rfl, _⟩ := Prod.mk.inj hi
      exact ⟨c₁, hj, rfl⟩
  | proxyLine i t ip port =>
    unfold step at hs
    dsimp only at hs
    cases hc : m.connections[i]? with
    | none => simp [hc] at hs
    | some c =>
      simp only [hc] at hs
      obtain ⟨m₁, hproxy, heq⟩ := Option.map_eq_some_iff.mp hs
      obtain ⟨rfl, _⟩ := Prod.mk.inj heq
      unfold proxyLine at hproxy
      split_ifs at hproxy with hguard
      dsimp only at hproxy
      split at hproxy
      · obtain rfl := Option.some.inj hproxy
        exact klass_of_set hc rfl hj
      · obtain rfl := Option.some.inj hproxy
        exact klass_of_set hc rfl hj
      · cases hproxy
  | unbind i =>
    obtain ⟨c, hc, hu⟩ := unbound_of_step hs
    rw [hu.connections]
    exact klass_of_set hc rfl hj

theorem serverClass_of_clientClass {klass client : ConnClass}
    (h : klass.clientClass = some client) : client.serverClass = klass.serverClass := by
  obtain ⟨kind, t⟩ := klass
  unfold ConnClass.clientClass at h
  cases kind with
  | tcpServer | tlsServer =>
    obtain rfl := Option.some.inj h
    rfl
  | _ => cases h

/-- `get_connection` returns a connection of the class, or one that the TLS tunnel has put into its
table. -/
theorem klass_of_getConnection (h : m.Inv fun _ => True) {klass : ConnClass} {ip : String}
    {port i : Nat} (hs : m.getConnection normalizeIpv6 klass ip port = some (m', i)) :
    ∃ c, m'.connections[i]? = some c ∧
      (c.klass.kind ≠ .tlsTunnelServer → c.klass.serverClass = klass.serverClass) := by
  unfold getConnection at hs
  cases hclient : klass.clientClass with
  | some client =>
    simp only [hclient] at hs
    cases hlookup : m.lookup klass (connectionKey normalizeIpv6 klass.ipType ip port) with
    | some j =>
      simp only [hlookup] at hs
      obtain ⟨rfl, rfl⟩ := Prod.mk.inj (Option.some.inj hs)
      obtain ⟨c, hc, _, _, hhome⟩ := h.tables _ _ _ hlookup
      refine ⟨c, hc, fun hkind => ?_⟩
      unfold Home at hhome
      rw [if_neg hkind] at hhome
      exact hhome.symm
    | none =>
      simp only [hlookup] at hs
      obtain ⟨rfl, rfl⟩ := Prod.mk.inj (Option.some.inj hs)
      refine ⟨{ Connection.fresh client with
        connectionId := some (connectionKey normalizeIpv6 klass.ipType ip port) }, ?_, fun _ => ?_⟩
      · simp [register]
      · exact serverClass_of_clientClass hclient
  | none =>
    simp only [hclient] at hs
    split_ifs at hs with hudp
    obtain ⟨j, hj, hi⟩ := Option.map_eq_some_iff.mp hs
    obtain ⟨rfl, rfl⟩ := Prod.mk.inj hi
    obtain ⟨hlt, hklass, _⟩ := List.findIdx?_eq_some_iff_getElem.mp hj
    refine ⟨_, List.getElem?_eq_getElem hlt, fun _ => ?_⟩
    rw [eq_of_beq hklass]

end TransportManager

/-! ## The invariant -/

namespace Delivery

variable {d d' : Delivery} {normalizeIpv6 : String → String}

theorem tables_store {k k' : Table} {klass klass' : ConnClass} {id id' : String}
    {entry : Option Nat} :
    (d.store k klass id entry).tables k' klass' id' =
      if k' = k ∧ klass' = klass.serverClass ∧ id' = id then entry else d.tables k' klass' id' := by
  unfold store
  dsimp only
  by_cases hk : k' = k
  · by_cases hklass : klass' = klass.serverClass
    · by_cases hid : id' = id
      · simp [hk, hklass, hid]
      · simp [hk, hklass, hid]
    · simp [hk, hklass]
  · simp [hk]

@[simp] theorem transactions_store {k : Table} {klass : ConnClass} {id : String}
    {entry : Option Nat} : (d.store k klass id entry).transactions = d.transactions := rfl

@[simp] theorem manager_store {k : Table} {klass : ConnClass} {id : String} {entry : Option Nat} :
    (d.store k klass id entry).manager = d.manager := rfl

/-- The class of a transaction and the class of its connection. -/
def Related (t : ClientTransaction) (c : Connection) : Prop :=
  match t.destination with
  | .flow _ => c.klass = t.serverKlass
  | .address transport ipType _ _ => OverSip.serverKlass transport ipType = some t.serverKlass ∧
      (c.klass.kind ≠ .tlsTunnelServer → c.klass.serverClass = t.serverKlass.serverClass)

/-- The transactions that are not terminated are the entries of their ids. -/
structure Inv (d : Delivery) : Prop where
  manager : d.manager.Inv fun _ => True
  found : ∀ i t k, d.transactions[i]? = some t → t.terminated = false → t.method.table = some k →
    d.lookup k t.serverKlass t.transactionId = some i
  entry : ∀ k klass id i, d.tables k klass id = some i →
    ∃ t, d.transactions[i]? = some t ∧ t.transactionId = id ∧ t.serverKlass.serverClass = klass
  ids : ∀ (i j : Nat) (t u : ClientTransaction), d.transactions[i]? = some t → d.transactions[j]? = some u →
    t.transactionId = u.transactionId → i = j
  method : ∀ t ∈ d.transactions, t.method.table ≠ none
  connection : ∀ t ∈ d.transactions,
    ∃ c, d.manager.connections[t.connection]? = some c ∧ Related t c

theorem inv_start (udp : List IpType) : (start udp).Inv := by
  refine ⟨TransportManager.inv_start udp, ?_, ?_, ?_, ?_, ?_⟩
  · intro i t k ht
    cases ht
  · intro k klass id i h
    cases h
  · intro i j t u ht
    cases ht
  · intro t ht
    cases ht
  · intro t ht
    cases ht

/-- The connections go on. -/
theorem Inv.withManager (h : d.Inv) {m : TransportManager} (hm : m.Inv fun _ => True)
    (hklass : ∀ (j : Nat) (c : Connection), d.manager.connections[j]? = some c →
      ∃ c', m.connections[j]? = some c' ∧ c'.klass = c.klass) : { d with manager := m }.Inv := by
  refine ⟨hm, h.found, h.entry, h.ids, h.method, fun t ht => ?_⟩
  obtain ⟨c, hc, hrel⟩ := h.connection t ht
  obtain ⟨c', hc', hk⟩ := hklass _ c hc
  refine ⟨c', hc', ?_⟩
  unfold Related at hrel ⊢
  rw [hk]
  exact hrel

theorem Inv.sendRequest (h : d.Inv) {k : Table} {t : ClientTransaction} {c : Connection}
    (hk : t.method.table = some k) (hfresh : ∀ u ∈ d.transactions, u.transactionId ≠ t.transactionId)
    (hc : d.manager.connections[t.connection]? = some c) (hrel : Related t c) :
    (d.sendRequest k t).1.Inv := by
  unfold Delivery.sendRequest
  dsimp only
  -- a transaction of the longer list is an old one or the new one
  have hsplit : ∀ (i : Nat) (u : ClientTransaction), (d.transactions ++ [t])[i]? = some u →
      (d.transactions[i]? = some u ∧ u.transactionId ≠ t.transactionId) ∨
        (i = d.transactions.length ∧ u = t) := by
    intro i u hu
    by_cases hlt : i < d.transactions.length
    · rw [List.getElem?_append_left hlt] at hu
      exact .inl ⟨hu, hfresh u (List.mem_of_getElem? hu)⟩
    · rw [List.getElem?_append_right (Nat.le_of_not_lt hlt), List.getElem?_singleton] at hu
      split_ifs at hu with hi
      exact .inr ⟨by omega, (Option.some.inj hu).symm⟩
  refine ⟨h.manager, ?_, ?_, ?_, ?_, ?_⟩
  · intro i u k' hu hlive hk'
    unfold Delivery.lookup
    rw [tables_store]
    rcases hsplit i u hu with ⟨hold, hne⟩ | ⟨rfl, rfl⟩
    · rw [if_neg fun hkey => hne hkey.2.2]
      exact h.found i u k' hold hlive hk'
    · rw [hk] at hk'
      rw [if_pos ⟨(Option.some.inj hk').symm, rfl, rfl⟩]
  · intro k' klass id i hi
    rw [tables_store] at hi
    by_cases hkey : k' = k ∧ klass = t.serverKlass.serverClass ∧ id = t.transactionId
    · rw [if_pos hkey] at hi
      obtain rfl := Option.some.inj hi
      exact ⟨t, by simp, hkey.2.2.symm, hkey.2.1.symm⟩
    · rw [if_neg hkey] at hi
      obtain ⟨u, hu, hid, hclass⟩ := h.entry k' klass id i hi
      refine ⟨u, ?_, hid, hclass⟩
      rw [transactions_store, List.getElem?_append_left (List.getElem?_eq_some_iff.mp hu).1, hu]
  · intro i j u v hu hv hid
    rcases hsplit i u hu with ⟨hold, hne⟩ | ⟨rfl, rfl⟩
    · rcases hsplit j v hv with ⟨hold', _⟩ | ⟨rfl, rfl⟩
      · exact h.ids i j u v hold hold' hid
      · exact absurd hid hne
    · rcases hsplit j v hv with ⟨_, hne'⟩ | ⟨rfl, rfl⟩
      · exact absurd hid.symm hne'
      · rfl
  · intro u hu
    rcases List.mem_append.mp hu with hu | hu
    · exact h.method u hu
    · rw [List.mem_singleton.mp hu, hk]
      exact Option.some_ne_none k
  · intro u hu
    rcases List.mem_append.mp hu with hu | hu
    · exact h.connection u hu
    · rw [List.mem_singleton.mp hu]
      exact ⟨c, hc, hrel⟩

theorem Inv.new (h : d.Inv) {id : String} {method : Method} {destination : Destination}
    {o : List DeliveryOut} (hfresh : d.Fresh (.new id method destination))
    (hs : d.new normalizeIpv6 id method destination = some (d', o)) : d'.Inv := by
  have hid := hfresh id method destination rfl
  unfold Delivery.new at hs
  cases hk : method.table with
  | none => simp [hk] at hs
  | some k =>
    simp only [hk] at hs
    cases destination with
    | flow f =>
      dsimp only at hs
      cases hf : d.manager.getOutboundConnection f with
      | none => simp [hf] at hs
      | some i =>
        simp only [hf] at hs
        obtain ⟨c, hc, heq⟩ := Option.map_eq_some_iff.mp hs
        obtain ⟨rfl, _⟩ := Prod.mk.inj heq
        exact h.sendRequest hk hid hc rfl
    | address transport ipType ip port =>
      dsimp only at hs
      cases hklass : OverSip.serverKlass transport ipType with
      | none => simp [hklass] at hs
      | some klass =>
        simp only [hklass] at hs
        obtain ⟨⟨m, i⟩, hget, heq⟩ := Option.map_eq_some_iff.mp hs
        obtain ⟨rfl, _⟩ := Prod.mk.inj heq
        have hstep : d.manager.step normalizeIpv6 (.getConnection klass ip port) = some (m, [i]) := by
          simp only [TransportManager.step, hget, Option.map_some]
        obtain ⟨c, hc, hclass⟩ := TransportManager.klass_of_getConnection h.manager hget
        have hm := h.withManager (h.manager.step_any hstep) fun j c₁ hj =>
          TransportManager.klass_of_step hstep hj
        exact hm.sendRequest hk hid hc ⟨hklass, hclass⟩

theorem Inv.terminateTransaction (h : d.Inv) {i : Nat} {t : ClientTransaction}
    (ht : d.transactions[i]? = some t) : (d.terminateTransaction i t).Inv := by
  have hlt := (List.getElem?_eq_some_iff.mp ht).1
  obtain ⟨k, hk⟩ := Option.ne_none_iff_exists'.mp (h.method t (List.mem_of_getElem? ht))
  unfold Delivery.terminateTransaction
  rw [hk]
  dsimp only
  -- a transaction of the new list is an old one, terminated if it is `i`
  have hsplit : ∀ (j : Nat) (u : ClientTransaction),
      (d.transactions.set i { t with terminated := true })[j]? = some u →
      (i = j ∧ u = { t with terminated := true }) ∨ (i ≠ j ∧ d.transactions[j]? = some u) := by
    intro j u hu
    by_cases hij : i = j
    · subst hij
      rw [List.getElem?_set_self hlt] at hu
      exact .inl ⟨rfl, (Option.some.inj hu).symm⟩
    · rw [List.getElem?_set_ne hij] at hu
      exact .inr ⟨hij, hu⟩
  have hsame : ∀ (j : Nat) (u : ClientTransaction),
      (d.transactions.set i { t with terminated := true })[j]? = some u →
      ∃ u', d.transactions[j]? = some u' ∧ u.transactionId = u'.transactionId ∧ u.method = u'.method ∧
        u.connection = u'.connection ∧ ∀ c, Related u' c → Related u c := by
    intro j u hu
    rcases hsplit j u hu with ⟨rfl, rfl⟩ | ⟨_, hold⟩
    · exact ⟨t, ht, rfl, rfl, rfl, fun c hc => hc⟩
    · exact ⟨u, hold, rfl, rfl, rfl, fun c hc => hc⟩
  refine ⟨h.manager, ?_, ?_, ?_, ?_, ?_⟩
  · intro j u k' hu hlive hk'
    rcases hsplit j u hu with ⟨rfl, rfl⟩ | ⟨hij, hold⟩
    · cases hlive
    · unfold Delivery.lookup
      rw [tables_store, if_neg]
      · exact h.found j u k' hold hlive hk'
      · rintro ⟨_, _, hid⟩
        exact hij (h.ids i j t u ht hold hid.symm)
  · intro k' klass id j hj
    rw [tables_store] at hj
    split_ifs at hj with hkey
    obtain ⟨u, hu, hid, hclass⟩ := h.entry k' klass id j hj
    by_cases hij : i = j
    · subst hij
      rw [ht] at hu
      obtain rfl := Option.some.inj hu
      exact ⟨{ t with terminated := true }, List.getElem?_set_self hlt, hid, hclass⟩
    · exact ⟨u, by rw [transactions_store, List.getElem?_set_ne hij, hu], hid, hclass⟩
  · intro j j' u v hu hv hid
    obtain ⟨u', hu', hidu, _⟩ := hsame j u hu
    obtain ⟨v', hv', hidv, _⟩ := hsame j' v hv
    exact h.ids j j' u' v' hu' hv' (by rw [← hidu, ← hidv, hid])
  · intro u hu
    obtain ⟨j, hj⟩ := List.mem_iff_getElem?.mp hu
    obtain ⟨u', hu', _, hmethod, _⟩ := hsame j u hj
    rw [hmethod]
    exact h.method u' (List.mem_of_getElem? hu')
  · intro u hu
    obtain ⟨j, hj⟩ := List.mem_iff_getElem?.mp hu
    obtain ⟨u', hu', _, _, hconn, hrel⟩ := hsame j u hj
    obtain ⟨c, hc, hrelated⟩ := h.connection u' (List.mem_of_getElem? hu')
    exact ⟨c, by rw [hconn]; exact hc, hrel c hrelated⟩

theorem Inv.step (h : d.Inv) {ev : Event} {o : List DeliveryOut} (hfresh : d.Fresh ev)
    (hs : d.step normalizeIpv6 ev = some (d', o)) : d'.Inv := by
  cases ev with
  | network ev =>
    obtain ⟨⟨m, o'⟩, hstep, heq⟩ := Option.map_eq_some_iff.mp hs
    obtain ⟨rfl, _⟩ := Prod.mk.inj heq
    exact h.withManager (h.manager.step_any hstep) fun j c hj =>
      TransportManager.klass_of_step hstep hj
  | new id method destination => exact h.new hfresh hs
  | terminate i =>
    obtain ⟨t, ht, heq⟩ := Option.map_eq_some_iff.mp hs
    obtain ⟨rfl, _⟩ := Prod.mk.inj heq
    exact h.terminateTransaction ht
  | response connection method branchId =>
    obtain ⟨c, hc, heq⟩ := Option.map_eq_some_iff.mp hs
    obtain ⟨rfl, _⟩ := Prod.mk.inj heq
    exact h

/-! ## The law -/

/-- The response of a transaction's own method is looked up in the transaction's table. -/
theorem processResponse_eq {klass : ConnClass} {method : Method} {k : Table}
    (hk : method.table = some k) (branchId : String) :
    d.processResponse klass method branchId =
      (d.lookup k klass branchId).toList.map .receiveResponse := by
  unfold processResponse
  cases method with
  | invite | other _ =>
    obtain rfl := Option.some.inj hk
    rfl
  | ack | cancel => cases hk

/-- A transaction gets its response exactly if its class and the class of its connection share their
tables. -/
theorem Inv.delivered_iff (h : d.Inv) {i : Nat} {t : ClientTransaction} {c : Connection} {k : Table}
    (ht : d.transactions[i]? = some t) (hlive : t.terminated = false)
    (hk : t.method.table = some k) :
    .receiveResponse i ∈ d.processResponse c.klass t.method t.transactionId ↔
      c.klass.serverClass = t.serverKlass.serverClass := by
  rw [processResponse_eq hk]
  have hfound := h.found i t k ht hlive hk
  constructor
  · intro hmem
    obtain ⟨j, hj, heq⟩ := List.mem_map.mp hmem
    cases heq
    obtain ⟨u, hu, _, hclass⟩ := h.entry k _ _ i (Option.mem_toList.mp hj)
    rw [ht] at hu
    rw [Option.some.inj hu, hclass]
  · intro hclass
    have hlookup : d.lookup k c.klass t.transactionId = some i := by
      unfold Delivery.lookup at hfound ⊢
      rw [hclass]
      exact hfound
    rw [hlookup]
    exact List.mem_singleton.mpr rfl

theorem serverKlass_kind {transport : Transport} {ipType : IpType} {klass : ConnClass}
    (h : OverSip.serverKlass transport ipType = some klass) :
    klass.kind ≠ .tlsTunnelServer := by
  unfold OverSip.serverKlass at h
  cases transport with
  | udp | tcp | tls =>
    obtain rfl := Option.some.inj h
    exact nofun
  | ws | wss => cases h

/-- The classes differ for a transaction that was sent to an address through the TLS tunnel only. -/
theorem Inv.throughTunnel_iff (h : d.Inv) {t : ClientTransaction} {c : Connection}
    (ht : t ∈ d.transactions) (hc : d.manager.connections[t.connection]? = some c) :
    c.klass.serverClass = t.serverKlass.serverClass ↔ ¬ d.ThroughTunnel t := by
  obtain ⟨c', hc', hrel⟩ := h.connection t ht
  rw [hc] at hc'
  obtain rfl := Option.some.inj hc'
  unfold Related at hrel
  constructor
  · rintro hclass ⟨transport, ipType, ip, port, c', hdest, hc', hkind⟩
    rw [hc] at hc'
    obtain rfl := Option.some.inj hc'
    rw [hdest] at hrel
    have hserver := TransportManager.serverClass_kind (serverKlass_kind hrel.1)
    rw [← hclass] at hserver
    exact hserver (by simp [ConnClass.serverClass, hkind])
  · intro hnot
    cases hdest : t.destination with
    | flow f =>
      rw [hdest] at hrel
      rw [hrel]
    | address transport ipType ip port =>
      rw [hdest] at hrel
      exact hrel.2 fun hkind => hnot ⟨transport, ipType, ip, port, c, hdest, hc, hkind⟩

/-- **Response delivery.** In every run in which no transaction id comes twice, a response that comes
over the connection of a live transaction, with the transaction's Via branch and method, is delivered to
it exactly if the transaction was not sent to an address over a connection of the TLS tunnel. -/
theorem responseDelivered_iff {udp : List IpType} {tr : List (StepRec Delivery Event DeliveryOut)}
    (h : Run (step normalizeIpv6) (start udp) tr d) (hfresh : ∀ r ∈ tr, r.pre.Fresh r.ev) :
    ∀ r ∈ tr, ∀ connection method branchId i t, r.ev = .response connection method branchId →
      r.pre.transactions[i]? = some t → Awaits t connection method branchId →
      (.receiveResponse i ∈ r.out ↔ ¬ r.pre.ThroughTunnel t) := by
  rintro r hr connection method branchId i t hev ht ⟨hlive, rfl, rfl, rfl⟩
  obtain ⟨tr₁, tr₂, rfl⟩ := List.append_of_mem hr
  obtain ⟨hrun, hs, _⟩ := h.of_middle
  have hinv : r.pre.Inv := by
    refine Run.invariant (G := Fresh) (I := fun _ d => d.Inv) (inv_start udp) ?_ hrun ?_
    · exact fun _ d ev d' o hd hG hs => hd.step hG hs
    · exact fun r' hr' => hfresh r' (List.mem_append_left _ hr')
  rw [hev] at hs
  obtain ⟨c, hc, heq⟩ := Option.map_eq_some_iff.mp hs
  obtain ⟨_, hout⟩ := Prod.mk.inj heq
  obtain ⟨k, hk⟩ := Option.ne_none_iff_exists'.mp (hinv.method t (List.mem_of_getElem? ht))
  rw [← hout, hinv.delivered_iff ht hlive hk]
  exact hinv.throughTunnel_iff (List.mem_of_getElem? ht) hc

/-- A request goes back to a client that is connected through the TLS tunnel, and is answered. -/
def throughTunnel : List Event :=
  [.network (.accept ⟨.tlsTunnelServer, .ipv4⟩ (some ("127.0.0.1", 40000)) "a1"),
    .network (.proxyLine 0 .ipv4 "192.0.2.7" 5061),
    .new "7d5e" .invite (.address .tls .ipv4 "192.0.2.7" 5061), .response 0 .invite "7d5e"]

theorem responseDelivered_broken_by_tunnel : ∃ tr d, Run (step id) (start []) tr d ∧
    tr.map (·.ev) = throughTunnel ∧ ∃ r ∈ tr, ∃ t, r.ev = .response 0 .invite "7d5e" ∧
      r.pre.transactions[0]? = some t ∧ Awaits t 0 .invite "7d5e" ∧ r.out = [] := by
  have hrun := run_of_exec
    (show exec (step id) (start []) throughTunnel = some (_, _) from rfl)
  exact ⟨_, _, hrun, rfl, _, List.mem_of_getLast? rfl, _, rfl, rfl, ⟨rfl, rfl, rfl, rfl⟩, rfl⟩

/-- A request over a TCP connection that the peer has opened, and its response. -/
def overTcp : List Event :=
  [.network (.accept ⟨.tcpServer, .ipv4⟩ (some ("192.0.2.7", 5062)) "a1"),
    .new "7d5e" .invite (.address .tcp .ipv4 "192.0.2.7" 5062), .response 0 .invite "7d5e"]

theorem responseDelivered_overTcp : ∃ tr d, Run (step id) (start []) tr d ∧
    tr.map (·.ev) = overTcp ∧ ∃ r ∈ tr, .receiveResponse 0 ∈ r.out := by
  have hrun := run_of_exec (show exec (step id) (start []) overTcp = some (_, _) from rfl)
  refine ⟨_, _, hrun, rfl, _, List.mem_of_getLast? rfl, ?_⟩
  refine (responseDelivered_iff hrun ?_ _ (List.mem_of_getLast? rfl) 0 .invite "7d5e" 0 _ rfl rfl
    ⟨rfl, rfl, rfl, rfl⟩).mpr ?_
  · -- there is no transaction when the only one is made
    intro r hr id method destination hev t ht
    rcases List.mem_cons.mp hr with rfl | hr
    · cases hev
    · rcases List.mem_cons.mp hr with rfl | hr
      · exact absurd ht List.not_mem_nil
      · obtain rfl := List.mem_singleton.mp hr
        cases hev
  · rintro ⟨_, _, _, _, c, _, hc, hkind⟩
    obtain rfl := Option.some.inj hc
    cases hkind

end Delivery

end OverSip
