import OverSip.Sip.Connections

/-!
# What the connection tables hold

A connection registers and deregisters by key. `Matched` is the condition under which that goes well
at an `unbind`: the entry of the key is the connection's own, or gone. A connection of the TLS tunnel
deletes from the table of its own class what it has put into that of a TLS server class, so for it the
entry must not be there any more.

`registry_iff` says that a run keeps the law exactly if every `unbind` in it is `Matched`.
-/

namespace OverSip

namespace TransportManager

variable {m m' : TransportManager} {normalizeIpv6 : String → String}

/-- A connection that has not been unbound. -/
def Live (m : TransportManager) (i : Nat) : Prop := ∃ c, m.connections[i]? = some c ∧ c.bound = true

/-- Every entry of a table refers to a connection that has not been unbound. -/
structure EntriesLive (m : TransportManager) : Prop where
  tables : ∀ k id i, m.tables k id = some i → m.Live i
  outbound : ∀ token i, m.outbound token = some i → m.Live i

/-- Entries are live before and after the step, and an `unbind` leaves those of other live connections. -/
structure Lawful (r : StepRec TransportManager Event Nat) : Prop where
  pre : r.pre.EntriesLive
  post : r.post.EntriesLive
  tables : ∀ i, r.ev = .unbind i → ∀ k id j, r.pre.tables k id = some j → j ≠ i → r.pre.Live j →
    r.post.tables k id = some j
  outbound : ∀ i, r.ev = .unbind i → ∀ token j, r.pre.outbound token = some j → j ≠ i →
    r.pre.Live j → r.post.outbound token = some j

/-- The connection `i` is unbound while no other one has its key or its flow token; one of the TLS
tunnel, while it is not registered. -/
def Matched (m : TransportManager) (ev : Event) : Prop :=
  ∀ i c, ev = .unbind i → m.connections[i]? = some c →
    (∀ token j, c.outboundFlowToken = some token → m.outbound token = some j → j = i) ∧
    match c.klass.kind with
    | .tlsTunnelServer => ∀ t id, c.remoteIpType = some t → c.connectionId = some id →
        m.lookup ⟨.tlsServer, t⟩ id ≠ some i
    | _ => ∀ id j, c.connectionId = some id → m.lookup c.klass id = some j → j = i

/-! ## The tables after an operation -/

theorem tables_store {k k' : ConnClass} {id id' : String} {entry : Option Nat} :
    (m.store k id entry).tables k' id' =
      if k' = k.serverClass ∧ id' = id then entry else m.tables k' id' := by
  unfold store
  dsimp only
  by_cases hk : k' = k.serverClass
  · rw [hk, Function.update_self]
    by_cases hid : id' = id
    · rw [hid, Function.update_self, if_pos ⟨rfl, rfl⟩]
    · rw [Function.update_of_ne hid, if_neg fun h => hid h.2]
  · rw [Function.update_of_ne hk, if_neg fun h => hk h.1]

theorem outbound_storeOutbound {token token' : String} {entry : Option Nat} :
    (m.storeOutbound token entry).outbound token' =
      if token' = token then entry else m.outbound token' := by
  unfold storeOutbound
  dsimp only
  by_cases h : token' = token
  · rw [h, Function.update_self, if_pos rfl]
  · rw [Function.update_of_ne h, if_neg h]

@[simp] theorem connections_store {k : ConnClass} {id : String} {entry : Option Nat} :
    (m.store k id entry).connections = m.connections := rfl

@[simp] theorem outbound_store {k : ConnClass} {id : String} {entry : Option Nat} :
    (m.store k id entry).outbound = m.outbound := rfl

@[simp] theorem connections_storeOutbound {token : String} {entry : Option Nat} :
    (m.storeOutbound token entry).connections = m.connections := rfl

@[simp] theorem tables_storeOutbound {token : String} {entry : Option Nat} :
    (m.storeOutbound token entry).tables = m.tables := rfl

/-- What `unbind` leaves. -/
structure Unbound (m : TransportManager) (i : Nat) (c : Connection) (m' : TransportManager) :
    Prop where
  connections : m'.connections = m.connections.set i { c with bound := false }
  tables : ∀ k id, m'.tables k id =
    if k = c.klass.serverClass ∧ c.connectionId = some id then none else m.tables k id
  outbound : ∀ token, m'.outbound token =
    if c.outboundFlowToken = some token then none else m.outbound token

theorem unbound_of_unbind {i : Nat} {c : Connection} (h : m.unbind i c = some m') :
    Unbound m i c m' := by
  unfold unbind at h
  split_ifs at h with hguard
  obtain rfl := Option.some.inj h
  unfold deleteOutboundConnection deleteConnection
  constructor
  · cases c.outboundFlowToken <;> cases c.connectionId <;> rfl
  · intro k id
    cases hid : c.connectionId with
    | none => cases c.outboundFlowToken <;> simp
    | some id' =>
      have hcomm : (k = c.klass.serverClass ∧ id = id') ↔
          (k = c.klass.serverClass ∧ (some id' : Option String) = some id) := by
        rw [Option.some.injEq, eq_comm (a := id)]
      cases c.outboundFlowToken <;> simp only [tables_storeOutbound, tables_store, hcomm]
  · intro token
    cases htoken : c.outboundFlowToken with
    | none => cases c.connectionId <;> simp
    | some token' =>
      have hcomm : token = token' ↔ (some token' : Option String) = some token := by
        rw [Option.some.injEq, eq_comm]
      cases c.connectionId <;> simp only [outbound_storeOutbound, outbound_store, hcomm]

/-! ## The invariant -/

/-- The class in whose table a connection registers: its server class, or for the TLS tunnel the TLS
server class of the announced address. -/
def Home (c : Connection) (k : ConnClass) : Prop :=
  if c.klass.kind = .tlsTunnelServer then ∃ t, c.remoteIpType = some t ∧ k = ⟨.tlsServer, t⟩
  else k = c.klass.serverClass

/-- An entry is a connection that satisfies `P` and knows its key. -/
structure Inv (P : Connection → Prop) (m : TransportManager) : Prop where
  tables : ∀ k id i, m.tables k id = some i →
    ∃ c, m.connections[i]? = some c ∧ P c ∧ c.connectionId = some id ∧ Home c k
  outbound : ∀ token i, m.outbound token = some i →
    ∃ c, m.connections[i]? = some c ∧ P c ∧ c.outboundFlowToken = some token

/-- A property that new connections have, and that the announcement of an address does not end. -/
structure Kept (P : Connection → Prop) : Prop where
  fresh : ∀ c, c.bound = true → P c
  proxy : ∀ c t id, P c → P { c with remoteIpType := t, connectionId := id }

theorem kept_bound : Kept fun c => c.bound = true := ⟨fun _ h => h, fun _ _ _ h => h⟩

theorem kept_true : Kept fun _ => True := ⟨fun _ _ => trivial, fun _ _ _ _ => trivial⟩

theorem Inv.entriesLive (h : m.Inv fun c => c.bound = true) : m.EntriesLive where
  tables k id i hi := by
    obtain ⟨c, hc, hbound, _⟩ := h.tables k id i hi
    exact ⟨c, hc, hbound⟩
  outbound token i hi := by
    obtain ⟨c, hc, hbound, _⟩ := h.outbound token i hi
    exact ⟨c, hc, hbound⟩

variable {P : Connection → Prop}

theorem inv_start (udp : List IpType) : (start udp).Inv P := by
  constructor
  · intro k id i h
    cases h
  · intro token i h
    cases h

theorem Inv.append (h : m.Inv P) (c : Connection) :
    { m with connections := m.connections ++ [c] }.Inv P := by
  have hold : ∀ (i : Nat) (c' : Connection), m.connections[i]? = some c' →
      (m.connections ++ [c])[i]? = some c' := by
    intro i c' hc
    rw [List.getElem?_append_left (List.getElem?_eq_some_iff.mp hc).1, hc]
  constructor
  · intro k id i hi
    obtain ⟨c', hc, hrest⟩ := h.tables k id i hi
    exact ⟨c', hold i c' hc, hrest⟩
  · intro token i hi
    obtain ⟨c', hc, hrest⟩ := h.outbound token i hi
    exact ⟨c', hold i c' hc, hrest⟩

/-- A connection changes and stays what its entries say. -/
theorem Inv.set (h : m.Inv P) {i : Nat} {c : Connection} (c' : Connection)
    (hc : m.connections[i]? = some c)
    (hP : P c → P c') (htoken : c'.outboundFlowToken = c.outboundFlowToken)
    (hhome : ∀ k id, m.tables k id = some i → c'.connectionId = some id ∧ Home c' k) :
    { m with connections := m.connections.set i c' }.Inv P := by
  have hlt := (List.getElem?_eq_some_iff.mp hc).1
  constructor
  · intro k id j hj
    obtain ⟨c₁, hc₁, hb₁, hid₁, hh₁⟩ := h.tables k id j hj
    by_cases hij : i = j
    · subst hij
      rw [hc] at hc₁
      obtain rfl := Option.some.inj hc₁
      obtain ⟨hid, hh⟩ := hhome k id hj
      exact ⟨c', List.getElem?_set_self hlt, hP hb₁, hid, hh⟩
    · exact ⟨c₁, by rw [List.getElem?_set_ne hij, hc₁], hb₁, hid₁, hh₁⟩
  · intro token j hj
    obtain ⟨c₁, hc₁, hb₁, ht₁⟩ := h.outbound token j hj
    by_cases hij : i = j
    · subst hij
      rw [hc] at hc₁
      obtain rfl := Option.some.inj hc₁
      exact ⟨c', List.getElem?_set_self hlt, hP hb₁, by rw [htoken, ht₁]⟩
    · exact ⟨c₁, by rw [List.getElem?_set_ne hij, hc₁], hb₁, ht₁⟩

theorem Inv.store (h : m.Inv P) {k : ConnClass} {id : String} {i : Nat} {c : Connection}
    (hc : m.connections[i]? = some c) (hP : P c) (hid : c.connectionId = some id)
    (hhome : Home c k.serverClass) : (m.store k id (some i)).Inv P := by
  constructor
  · intro k' id' j hj
    rw [tables_store] at hj
    by_cases hkey : k' = k.serverClass ∧ id' = id
    · rw [if_pos hkey] at hj
      obtain rfl := Option.some.inj hj
      exact ⟨c, hc, hP, by rw [hid, hkey.2], hkey.1 ▸ hhome⟩
    · rw [if_neg hkey] at hj
      exact h.tables k' id' j hj
  · exact h.outbound

theorem Inv.storeOutbound (h : m.Inv P) {token : String} {i : Nat} {c : Connection}
    (hc : m.connections[i]? = some c) (hP : P c)
    (htoken : c.outboundFlowToken = some token) : (m.storeOutbound token (some i)).Inv P := by
  constructor
  · exact h.tables
  · intro token' j hj
    rw [outbound_storeOutbound] at hj
    by_cases hkey : token' = token
    · rw [if_pos hkey] at hj
      obtain rfl := Option.some.inj hj
      exact ⟨c, hc, hP, by rw [htoken, hkey]⟩
    · rw [if_neg hkey] at hj
      exact h.outbound token' j hj

/-- A new connection that is not of the TLS tunnel registers. -/
theorem Inv.register (h : m.Inv P) (hP : Kept P) {c : Connection} (hbound : c.bound = true)
    (hkind : c.klass.kind ≠ .tlsTunnelServer) (t : IpType) (ip : String) (port : Nat) :
    (m.register normalizeIpv6 c t ip port).Inv P := by
  unfold TransportManager.register
  refine (h.append _).store
    (c := { c with connectionId := some (connectionKey normalizeIpv6 t ip port) }) ?_
    (hP.fresh _ hbound) rfl ?_
  · simp
  · unfold Home
    rw [if_neg hkind]

theorem Inv.accept (h : m.Inv P) (hP : Kept P) {klass : ConnClass} {peer : Option (String × Nat)} {token : String}
    (hs : m.accept normalizeIpv6 klass peer token = some m') : m'.Inv P := by
  have hregister : ∀ ip port, klass.kind ≠ .tlsTunnelServer →
      ((m.register normalizeIpv6 { Connection.fresh klass with outboundFlowToken := some token }
        klass.ipType ip port).storeOutbound token (some m.connections.length)).Inv P := by
    intro ip port hkind
    refine (h.register hP rfl hkind _ _ _).storeOutbound
      (c := { Connection.fresh klass with
        outboundFlowToken := some token
        connectionId := some (connectionKey normalizeIpv6 klass.ipType ip port) }) ?_
      (hP.fresh _ rfl) rfl
    simp [TransportManager.register]
  have htunnel : ({ m with connections := m.connections ++
      [{ Connection.fresh klass with outboundFlowToken := some token }] }.storeOutbound token
      (some m.connections.length)).Inv P := by
    refine (h.append _).storeOutbound
      (c := { Connection.fresh klass with outboundFlowToken := some token }) ?_ (hP.fresh _ rfl) rfl
    simp
  unfold TransportManager.accept at hs
  cases hkind : klass.kind with
  | udpServer | tcpClient | tlsClient => simp [hkind] at hs
  | tcpServer | tlsServer | wsServer | wssServer =>
    cases peer with
    | none =>
      simp only [hkind] at hs
      obtain rfl := Option.some.inj hs
      exact h.append _
    | some a =>
      simp only [hkind] at hs
      obtain rfl := Option.some.inj hs
      exact hregister a.1 a.2 (by simp [hkind])
  | tlsTunnelServer | wssTunnelServer =>
    cases peer with
    | none =>
      simp only [hkind] at hs
      obtain rfl := Option.some.inj hs
      exact h.append _
    | some a =>
      simp only [hkind] at hs
      obtain rfl := Option.some.inj hs
      exact htunnel

theorem clientClass_kind {klass client : ConnClass} (h : klass.clientClass = some client) :
    client.kind ≠ .tlsTunnelServer := by
  unfold ConnClass.clientClass at h
  cases hk : klass.kind <;> simp [hk] at h <;> simp [← h]

theorem Inv.getConnection (h : m.Inv P) (hP : Kept P) {klass : ConnClass} {ip : String}
    {port i : Nat} (hs : m.getConnection normalizeIpv6 klass ip port = some (m', i)) : m'.Inv P := by
  unfold TransportManager.getConnection at hs
  cases hclient : klass.clientClass with
  | some client =>
    simp only [hclient] at hs
    cases hlookup : m.lookup klass (connectionKey normalizeIpv6 klass.ipType ip port) with
    | some j =>
      simp only [hlookup, Option.some.injEq] at hs
      obtain ⟨rfl, _⟩ := Prod.mk.inj hs
      exact h
    | none =>
      simp only [hlookup, Option.some.injEq] at hs
      obtain ⟨rfl, _⟩ := Prod.mk.inj hs
      exact h.register hP rfl (clientClass_kind hclient) _ _ _
  | none =>
    simp only [hclient] at hs
    split_ifs at hs with hudp
    obtain ⟨j, _, hj⟩ := Option.map_eq_some_iff.mp hs
    obtain ⟨rfl, _⟩ := Prod.mk.inj hj
    exact h

/-- A tunnel connection that has announced nothing has no entry. -/
theorem Inv.proxyLine (h : m.Inv P) (hP : Kept P) {i : Nat} {c : Connection} {t : IpType} {ip : String} {port : Nat}
    (hc : m.connections[i]? = some c)
    (hs : m.proxyLine normalizeIpv6 i c t ip port = some m') : m'.Inv P := by
  unfold TransportManager.proxyLine at hs
  split_ifs at hs with hguard
  rw [not_or, not_or, not_not] at hguard
  obtain ⟨hbound, _, hnone⟩ := hguard
  have hlt := (List.getElem?_eq_some_iff.mp hc).1
  have hentry : ∀ k id, m.tables k id = some i → c.connectionId = some id ∧ Home c k := by
    intro k id hi
    obtain ⟨c', hc', _, hid, hhome⟩ := h.tables k id i hi
    rw [hc] at hc'
    rw [Option.some.inj hc']
    exact ⟨hid, hhome⟩
  cases hkind : c.klass.kind with
  | tlsTunnelServer =>
    simp only [hkind] at hs
    obtain rfl := Option.some.inj hs
    have hfree : ∀ k id, m.tables k id ≠ some i := by
      intro k id hi
      obtain ⟨_, hhome⟩ := hentry k id hi
      unfold Home at hhome
      rw [if_pos hkind] at hhome
      obtain ⟨t, ht, _⟩ := hhome
      rw [hnone] at ht
      cases ht
    have hset := h.set { c with
      remoteIpType := some t, connectionId := some (connectionKey normalizeIpv6 t ip port) } hc
      (hP.proxy c _ _) rfl fun k id hi => absurd hi (hfree k id)
    refine hset.store (List.getElem?_set_self hlt) (hP.fresh _ (by simpa using hbound)) rfl ?_
    unfold Home
    rw [if_pos hkind]
    exact ⟨t, rfl, rfl⟩
  | wssTunnelServer =>
    simp only [hkind] at hs
    obtain rfl := Option.some.inj hs
    refine h.set { c with remoteIpType := some t } hc (hP.proxy c _ _) rfl fun k id hi => ?_
    obtain ⟨hid, hhome⟩ := hentry k id hi
    unfold Home at hhome ⊢
    rw [if_neg (by simp [hkind])] at hhome ⊢
    exact ⟨hid, hhome⟩
  | _ => simp [hkind] at hs

/-! ## Unbinding -/

theorem serverClass_kind {k : ConnClass} (h : k.kind ≠ .tlsTunnelServer) :
    k.serverClass.kind ≠ .tlsTunnelServer := by
  unfold ConnClass.serverClass
  cases hk : k.kind <;> simp_all

/-- The table of the TLS tunnel class is empty. -/
theorem Inv.tunnelTable (h : m.Inv P) {k : ConnClass} (hk : k.kind = .tlsTunnelServer) (id : String) :
    m.tables k id = none := by
  cases hi : m.tables k id with
  | none => rfl
  | some i =>
    obtain ⟨c, _, _, _, hhome⟩ := h.tables k id i hi
    unfold Home at hhome
    by_cases hc : c.klass.kind = .tlsTunnelServer
    · rw [if_pos hc] at hhome
      obtain ⟨t, _, rfl⟩ := hhome
      cases hk
    · rw [if_neg hc] at hhome
      exact absurd (hhome ▸ hk) (serverClass_kind hc)

/-- A matched `unbind` deletes the entries of its connection and no other one. -/
theorem Inv.entry_of_matched (h : m.Inv P) {i : Nat} {c : Connection}
    (hc : m.connections[i]? = some c) (hmatched : m.Matched (.unbind i)) :
    (∀ k id j, m.tables k id = some j →
      (k = c.klass.serverClass ∧ c.connectionId = some id ↔ j = i)) ∧
    ∀ token j, m.outbound token = some j → (c.outboundFlowToken = some token ↔ j = i) := by
  obtain ⟨htoken, hkey⟩ := hmatched i c rfl hc
  constructor
  · intro k id j hj
    obtain ⟨c', hc', _, hid, hhome⟩ := h.tables k id j hj
    by_cases hkind : c.klass.kind = .tlsTunnelServer
    · simp only [hkind] at hkey
      have hown : k ≠ c.klass.serverClass := by
        rintro rfl
        have htunnel : c.klass.serverClass.kind = .tlsTunnelServer := by
          simp [ConnClass.serverClass, hkind]
        rw [h.tunnelTable htunnel] at hj
        cases hj
      have hother : j ≠ i := by
        rintro rfl
        rw [hc] at hc'
        obtain rfl := Option.some.inj hc'
        unfold Home at hhome
        rw [if_pos hkind] at hhome
        obtain ⟨t, ht, rfl⟩ := hhome
        exact hkey t id ht hid hj
      exact ⟨fun hk => absurd hk.1 hown, fun hi => absurd hi hother⟩
    · have hkey' : ∀ id j, c.connectionId = some id → m.lookup c.klass id = some j → j = i := by
        cases hk : c.klass.kind <;> simp_all
      constructor
      · rintro ⟨rfl, hcid⟩
        exact hkey' id j hcid hj
      · rintro rfl
        rw [hc] at hc'
        obtain rfl := Option.some.inj hc'
        unfold Home at hhome
        rw [if_neg hkind] at hhome
        exact ⟨hhome, hid⟩
  · intro token j hj
    constructor
    · exact fun ht => htoken token j ht hj
    · rintro rfl
      obtain ⟨c', hc', _, ht⟩ := h.outbound token j hj
      rw [hc] at hc'
      obtain rfl := Option.some.inj hc'
      exact ht

theorem Inv.unbind (h : m.Inv P) {i : Nat} {c : Connection} (hc : m.connections[i]? = some c)
    (hu : Unbound m i c m') (hmatched : m.Matched (.unbind i)) : m'.Inv P := by
  obtain ⟨htables, houtbound⟩ := h.entry_of_matched hc hmatched
  constructor
  · intro k id j hj
    rw [hu.tables] at hj
    split_ifs at hj with hkey
    obtain ⟨c', hc', hrest⟩ := h.tables k id j hj
    have hij : i ≠ j := fun hij => hkey ((htables k id j hj).mpr hij.symm)
    exact ⟨c', by rw [hu.connections, List.getElem?_set_ne hij, hc'], hrest⟩
  · intro token j hj
    rw [hu.outbound] at hj
    split_ifs at hj with hkey
    obtain ⟨c', hc', hrest⟩ := h.outbound token j hj
    have hij : i ≠ j := fun hij => hkey ((houtbound token j hj).mpr hij.symm)
    exact ⟨c', by rw [hu.connections, List.getElem?_set_ne hij, hc'], hrest⟩

/-! ## Every run -/

theorem unbound_of_step {i : Nat} {o : List Nat}
    (hs : m.step normalizeIpv6 (.unbind i) = some (m', o)) :
    ∃ c, m.connections[i]? = some c ∧ Unbound m i c m' := by
  unfold step at hs
  dsimp only at hs
  cases hc : m.connections[i]? with
  | none => simp [hc] at hs
  | some c =>
    simp only [hc] at hs
    obtain ⟨m₁, hunbind, heq⟩ := Option.map_eq_some_iff.mp hs
    obtain ⟨rfl, _⟩ := Prod.mk.inj heq
    exact ⟨c, rfl, unbound_of_unbind hunbind⟩

/-- Everything but an `unbind` keeps the invariant for any `P`. -/
theorem Inv.of_step (h : m.Inv P) (hP : Kept P) {ev : Event} {o : List Nat}
    (hev : ∀ i, ev ≠ .unbind i) (hs : m.step normalizeIpv6 ev = some (m', o)) : m'.Inv P := by
  cases ev with
  | accept klass peer token =>
    obtain ⟨m₁, haccept, heq⟩ := Option.map_eq_some_iff.mp hs
    obtain ⟨rfl, _⟩ := Prod.mk.inj heq
    exact h.accept hP haccept
  | getConnection klass ip port =>
    obtain ⟨⟨m₁, i⟩, hget, heq⟩ := Option.map_eq_some_iff.mp hs
    obtain ⟨rfl, _⟩ := Prod.mk.inj heq
    exact h.getConnection hP hget
  | proxyLine i t ip port =>
    unfold TransportManager.step at hs
    dsimp only at hs
    cases hc : m.connections[i]? with
    | none => simp [hc] at hs
    | some c =>
      simp only [hc] at hs
      obtain ⟨m₁, hproxy, heq⟩ := Option.map_eq_some_iff.mp hs
      obtain ⟨rfl, _⟩ := Prod.mk.inj heq
      exact h.proxyLine hP hc hproxy
  | unbind i => exact absurd rfl (hev i)

/-- Whether they are bound or not, the entries are connections of their class. -/
theorem Inv.step_any (h : m.Inv fun _ => True) {ev : Event} {o : List Nat}
    (hs : m.step normalizeIpv6 ev = some (m', o)) : m'.Inv fun _ => True := by
  by_cases hev : ∃ i, ev = .unbind i
  · obtain ⟨i, rfl⟩ := hev
    obtain ⟨c, hc, hu⟩ := unbound_of_step hs
    have hset := h.set { c with bound := false } hc id rfl fun k id hi => by
      obtain ⟨c', hc', _, hid, hhome⟩ := h.tables k id i hi
      rw [hc] at hc'
      obtain rfl := Option.some.inj hc'
      exact ⟨hid, hhome⟩
    constructor
    · intro k id j hj
      rw [hu.tables] at hj
      split_ifs at hj with hkey
      rw [hu.connections]
      exact hset.tables k id j hj
    · intro token j hj
      rw [hu.outbound] at hj
      split_ifs at hj with hkey
      rw [hu.connections]
      exact hset.outbound token j hj
  · exact h.of_step kept_true (fun i hi => hev ⟨i, hi⟩) hs

theorem Inv.step (h : m.Inv fun c => c.bound = true) {ev : Event} {o : List Nat}
    (hmatched : m.Matched ev) (hs : m.step normalizeIpv6 ev = some (m', o)) :
    m'.Inv fun c => c.bound = true := by
  by_cases hev : ∃ i, ev = .unbind i
  · obtain ⟨i, rfl⟩ := hev
    obtain ⟨c, hc, hu⟩ := unbound_of_step hs
    exact h.unbind hc hu hmatched
  · exact h.of_step kept_bound (fun i hi => hev ⟨i, hi⟩) hs

theorem lawful_of_matched {ev : Event} {o : List Nat} (h : m.Inv fun c => c.bound = true)
    (hmatched : m.Matched ev)
    (hs : m.step normalizeIpv6 ev = some (m', o)) : Lawful ⟨m, ev, o, m'⟩ := by
  refine ⟨h.entriesLive, (h.step hmatched hs).entriesLive, ?_, ?_⟩
  · rintro i rfl k id j hj hne _
    obtain ⟨c, hc, hu⟩ := unbound_of_step hs
    have hown := (h.entry_of_matched hc hmatched).1 k id j hj
    rw [hu.tables, if_neg fun hkey => hne (hown.mp hkey)]
    exact hj
  · rintro i rfl token j hj hne _
    obtain ⟨c, hc, hu⟩ := unbound_of_step hs
    have hown := (h.entry_of_matched hc hmatched).2 token j hj
    rw [hu.outbound, if_neg fun hkey => hne (hown.mp hkey)]
    exact hj

/-- The entry of a TLS tunnel connection stays when it is unbound; another key that is held by another
connection goes. -/
theorem matched_of_lawful {ev : Event} {o : List Nat} (hlaw : Lawful ⟨m, ev, o, m'⟩)
    (hs : m.step normalizeIpv6 ev = some (m', o)) : m.Matched ev := by
  rintro i c rfl hc
  obtain ⟨c', hc', hu⟩ := unbound_of_step hs
  rw [hc] at hc'
  obtain rfl := Option.some.inj hc'
  have hdead : ¬ m'.Live i := by
    rintro ⟨c', hc', hbound⟩
    rw [hu.connections, List.getElem?_set_self (List.getElem?_eq_some_iff.mp hc).1] at hc'
    rw [← Option.some.inj hc'] at hbound
    cases hbound
  have hkey : ∀ id j, c.connectionId = some id → m.lookup c.klass id = some j → j = i := by
    intro id j hid hj
    by_contra hne
    have hkeep : m'.tables c.klass.serverClass id = some j :=
      hlaw.tables i rfl _ id j hj hne (hlaw.pre.tables _ _ _ hj)
    rw [hu.tables, if_pos ⟨rfl, hid⟩] at hkeep
    cases hkeep
  constructor
  · intro token j htoken hj
    by_contra hne
    have hkeep : m'.outbound token = some j :=
      hlaw.outbound i rfl token j hj hne (hlaw.pre.outbound _ _ hj)
    rw [hu.outbound, if_pos htoken] at hkeep
    cases hkeep
  · cases hkind : c.klass.kind with
    | tlsTunnelServer =>
      intro t id ht hid hentry
      have hother : ¬ (⟨.tlsServer, t⟩ = c.klass.serverClass ∧ c.connectionId = some id) := by
        rintro ⟨hk, _⟩
        simp [ConnClass.serverClass, hkind] at hk
        rw [← hk] at hkind
        cases hkind
      have hkeep : m'.tables ⟨.tlsServer, t⟩ id = some i := by
        rw [hu.tables, if_neg hother]
        exact hentry
      exact hdead (hlaw.post.tables _ id i hkeep)
    | _ => exact hkey

/-- **The connection registry.** In every run, all entries of the tables and of the outbound flows are
of connections that have not been unbound, and no `unbind` removes the entry of another live connection,
exactly if every connection is unbound while its key and its flow token are its own, and none of the TLS
tunnel while it is registered. -/
theorem registry_iff {udp : List IpType} {tr : List (StepRec TransportManager Event Nat)}
    (h : Run (step normalizeIpv6) (start udp) tr m) :
    (∀ r ∈ tr, Lawful r) ↔ ∀ r ∈ tr, r.pre.Matched r.ev := by
  constructor
  · intro hlaw r hr
    obtain ⟨tr₁, tr₂, rfl⟩ := List.append_of_mem hr
    exact matched_of_lawful (hlaw r hr) h.of_middle.2.1
  · intro hmatched r hr
    obtain ⟨tr₁, tr₂, rfl⟩ := List.append_of_mem hr
    obtain ⟨hrun, hs, _⟩ := h.of_middle
    have hinv : r.pre.Inv fun c => c.bound = true := by
      refine Run.invariant (G := Matched) (I := fun _ m => m.Inv fun c => c.bound = true)
        (inv_start udp) ?_ hrun ?_
      · exact fun _ m ev m' o hm hG hs => hm.step hG hs
      · exact fun r' hr' => hmatched r' (List.mem_append_left _ hr')
    exact lawful_of_matched hinv (hmatched r hr) hs

/-- A client behind the TLS tunnel comes and goes; its entry stays in the table of the TLS server. -/
theorem registry_broken_by_tunnel : ∃ tr m, Run (step id) (start []) tr m ∧
    tr.map (·.ev) = [.accept ⟨.tlsTunnelServer, .ipv4⟩ (some ("127.0.0.1", 40000)) "a1",
      .proxyLine 0 .ipv4 "192.0.2.7" 5061, .unbind 0] ∧
    m.lookup ⟨.tlsServer, .ipv4⟩ "192.0.2.7_5061" = some 0 ∧ ¬ ∀ r ∈ tr, Lawful r := by
  have hrun := run_of_exec (show exec (step id) (start [])
    [.accept ⟨.tlsTunnelServer, .ipv4⟩ (some ("127.0.0.1", 40000)) "a1",
      .proxyLine 0 .ipv4 "192.0.2.7" 5061, .unbind 0] = some (_, _) from rfl)
  refine ⟨_, _, hrun, rfl, rfl, fun hlaw => ?_⟩
  obtain ⟨c, hc, hbound⟩ := (hlaw _ (List.mem_of_getLast? rfl)).post.tables ⟨.tlsServer, .ipv4⟩
    "192.0.2.7_5061" 0 rfl
  obtain rfl := Option.some.inj hc
  cases hbound

/-- Without the tunnel: a TCP connection comes and goes. -/
theorem registry_iff_tcp : ∃ tr m, Run (step id) (start []) tr m ∧
    tr.map (·.ev) = [.accept ⟨.tcpServer, .ipv4⟩ (some ("192.0.2.7", 5062)) "a1", .unbind 0] ∧
    ∀ r ∈ tr, Lawful r := by
  have hrun := run_of_exec (show exec (step id) (start [])
    [.accept ⟨.tcpServer, .ipv4⟩ (some ("192.0.2.7", 5062)) "a1", .unbind 0] = some (_, _) from rfl)
  refine ⟨_, _, hrun, rfl, (registry_iff hrun).mpr ?_⟩
  intro r hr i c hev hc
  rcases List.mem_cons.mp hr with rfl | hr
  · cases hev
  · obtain rfl := List.mem_singleton.mp hr
    cases hev
    obtain rfl := Option.some.inj hc
    refine ⟨fun token j ht hj => ?_, fun id j hid hj => ?_⟩
    · cases ht
      exact (Option.some.inj hj).symm
    · cases hid
      exact (Option.some.inj hj).symm

end TransportManager

end OverSip
