import OverSip.Sip.Rfc3263Lookups

/-!
# What is handed over

`Resolves` is what a resolution owes to its client: results that lead to a target, with all the addresses
of the records that have been selected, or else an error. `resolves_iff` says for which queries,
configurations and answers it does. It does not where a single priority with several records is unwrapped,
where the NAPTR records lead to no address, where all records to try have the weight zero, and where the
error callback is called before it is set.
-/

namespace OverSip

namespace Rfc3263

section

variable (conf : ProxyConf) (dns : Dns) (q : Query) (late : Bool)

/-- The records that have been selected are followed to their addresses. -/
structure Complete (queries : List DnsQuery) : Prop where
  srv : ∀ query ∈ queries, ∀ srvs ∈ dns.srvs query, ∀ srv ∈ srvs, ∀ i ∈ conf.ipTypePreference,
    .address i srv.domain ∈ queries
  naptr : ∀ domain, .naptr domain ∈ queries → ∀ naptrs ∈ dns.naptr domain, ∀ naptr ∈ naptrs,
    isSipNaptr conf q naptr = true → .srv naptr.replacement none none ∈ queries

/-- What a resolution with these queries owes to its client, which is given these calls. -/
structure Resolves (queries : List DnsQuery) (calls : List Handed) : Prop where
  complete : Complete conf dns q queries
  shape : ∀ r, .success r ∈ calls → r.WellShaped
  tries : ∀ r, .success r ∈ calls → ∀ ts, Rfc3263Succeeded r ts → ∃ t, .target t ∈ ts
  addresses : ∀ r, .success r ∈ calls → r.addresses.Perm (resolvedBy dns queries)
  success : resolvedBy dns queries ≠ [] → ∃ r, .success r ∈ calls
  error : resolvedBy dns queries = [] → (∃ e, .error e ∈ calls) ∧ ∀ r, .success r ∉ calls

/-- What the fiber of a query owes. `late` says that the callbacks are set when it begins. -/
abbrev Delivers (events : List QueryEvent) : Prop :=
  Resolves conf dns q (queriesOf events) (handed late events)

/-- The transport that the parameter `;transport` of a URI stands for. -/
def Query.dnsTransport (q : Query) : Option Transport :=
  match q.uriTransport with
  | some .udp => if q.uriScheme = .sip then some .udp else none
  | some .tcp => some (if q.uriScheme = .sips then .tls else .tcp)
  | some .tls => some .tls
  | some .other | none => none

/-- The URIs for which DNS queries are made. -/
structure Supported : Prop where
  dns : conf.useDns = true
  scheme : q.uriScheme = .sip ∨ q.uriScheme = .sips ∧ conf.hasSipTls = true
  transport : q.uriTransport.isSome → ∃ t ∈ q.dnsTransport, conf.transportPreference.contains t = true
  port : q.uriTransport = none → q.uriPort.isSome → q.uriScheme = .sip →
    conf.hasSipUdp = true ∨ conf.hasSipTcp = true

/-- The NAPTR records that are followed. -/
def sipNaptrs : List NaptrRecord :=
  if conf.useNaptr then ((dns.naptr q.uriHost).getD []).filter (isSipNaptr conf q) else []

/-- When the fiber of a query does what it owes. -/
def Answerable : Prop :=
  if q.uriPort.isSome ∨ conf.useSrv = false then late = true ∨ conf.ipTypePreference ≠ []
  else if q.uriTransport.isSome then
    ∀ srvs ∈ dns.srvs (srvQuery q.uriHost (some q.uriScheme) q.dnsTransport),
      found conf dns srvs = [] ∨
        Tryable conf dns srvs ∧ ((found conf dns srvs).length = 1 ∨ ¬ OnePriority conf dns srvs)
  else if sipNaptrs conf dns q ≠ [] then
    ∃ naptr ∈ sipNaptrs conf dns q, ∃ srvs ∈ dns.srvs (srvQuery naptr.replacement none none),
      Tryable conf dns srvs
  else
    (∃ t ∈ srvTransports conf q, ∃ srvs ∈ dns.srvs (srvQuery q.uriHost (some q.uriScheme) (some t)),
      Tryable conf dns srvs) ∨
    (∀ t ∈ srvTransports conf q, ∀ srvs ∈ dns.srvs (srvQuery q.uriHost (some q.uriScheme) (some t)),
      found conf dns srvs = []) ∧
      (late = true ∨ conf.useNaptr = true ∨ srvTransports conf q ≠ [])

instance : Decidable (Answerable conf dns q late) := by
  unfold Answerable
  infer_instance

end

variable {conf : ProxyConf} {dns : Dns} {q : Query} {late : Bool} {queries earlier : List DnsQuery}
  {events : List QueryEvent} {r : Result} {e : Rfc3263Error}

/-! ## Calls behind some queries -/

theorem queriesOf_asks (queries : List DnsQuery) (events : List QueryEvent) :
    queriesOf (queries.map .asks ++ events) = queries ++ queriesOf events := by
  induction queries with
  | nil => rfl
  | cons query queries ih => exact congrArg (query :: ·) ih

theorem queriesOf_calls (queries : List DnsQuery) (h : Handed) :
    queriesOf (queries.map .asks ++ [.calls h]) = queries := by
  rw [queriesOf_asks]
  exact List.append_nil queries

/-- A call reaches the client when there has been a query, or the callbacks have been set before. -/
theorem handed_asks (late : Bool) (queries : List DnsQuery) (events : List QueryEvent) :
    handed late (queries.map .asks ++ events) = handed (late || !queries.isEmpty) events := by
  induction queries generalizing late with
  | nil =>
    show handed late events = handed (late || false) events
    rw [Bool.or_false]
  | cons query queries ih =>
    show handed true (queries.map .asks ++ events) = handed (late || true) events
    rw [ih, Bool.true_or, Bool.or_true]

theorem handed_calls (late : Bool) (queries : List DnsQuery) (h : Handed) :
    handed late (queries.map .asks ++ [.calls h]) =
      if late = true ∨ queries ≠ [] then [h] else [] := by
  rw [handed_asks]
  cases late with
  | true => rfl
  | false =>
    cases queries with
    | nil => rfl
    | cons query queries => rfl

theorem addresses_ne_nil {s : SrvTargets} (hs : s.Proper) (h : s.HasTarget) : srvAddresses s ≠ [] := by
  obtain ⟨g, hg, _⟩ := h
  obtain ⟨hne, htargets⟩ := hs g hg
  obtain ⟨e, he⟩ := List.exists_mem_of_ne_nil _ hne
  obtain ⟨t, ht⟩ := List.exists_mem_of_ne_nil _ (htargets e he)
  exact List.ne_nil_of_mem (List.mem_flatMap.mpr
    ⟨e, List.mem_flatten.mpr ⟨g, hg, he⟩, List.mem_map_of_mem ht⟩)

/-- A target to try has an address. -/
theorem Result.addresses_ne_nil (hr : r.Proper) (h : r.HasTarget) : r.addresses ≠ [] := by
  cases r with
  | target t => exact List.cons_ne_nil _ _
  | srvTargets s => exact Rfc3263.addresses_ne_nil hr h
  | multiTargets m =>
    obtain ⟨entry, hentry, htarget⟩ := h
    have hne : entry.addresses ≠ [] := by
      cases entry with
      | target t => exact List.cons_ne_nil _ _
      | srvTargets s => exact Rfc3263.addresses_ne_nil (hr s hentry).1 htarget
    obtain ⟨a, ha⟩ := List.exists_mem_of_ne_nil _ hne
    exact List.ne_nil_of_mem (List.mem_flatMap.mpr ⟨entry, hentry, ha⟩)
  | array es => exact h.elim

/-- A result with the addresses that the queries have found is what is owed if it leads to a target. -/
theorem delivers_success (hcomplete : Complete conf dns q queries) (hne : queries ≠ [])
    (hproper : r.Proper) (hperm : r.addresses.Perm (resolvedBy dns queries)) :
    Delivers conf dns q late (queries.map .asks ++ [.calls (.success r)]) ↔
      r.WellShaped ∧ r.HasTarget := by
  have hhanded : handed late (queries.map .asks ++ [.calls (.success r)]) = [.success r] := by
    rw [handed_calls, if_pos (.inr hne)]
  have hmem : ∀ r', .success r' ∈ handed late (queries.map .asks ++ [.calls (.success r)]) ↔ r' = r := by
    intro r'
    rw [hhanded, List.mem_singleton, Handed.success.injEq]
  constructor
  · intro h
    exact ⟨h.shape r ((hmem r).mpr rfl), (Result.hasTarget_iff hproper).mp (h.tries r ((hmem r).mpr rfl))⟩
  · rintro ⟨hshape, htarget⟩
    have haddresses : resolvedBy dns queries ≠ [] := fun hnil =>
      Result.addresses_ne_nil hproper htarget (by rw [hnil, List.perm_nil] at hperm; exact hperm)
    constructor
    · rw [queriesOf_calls]
      exact hcomplete
    · intro r' hr'
      rw [(hmem r').mp hr']
      exact hshape
    · intro r' hr'
      rw [(hmem r').mp hr']
      exact (Result.hasTarget_iff hproper).mpr htarget
    · intro r' hr'
      rw [(hmem r').mp hr', queriesOf_calls]
      exact hperm
    · exact fun _ => ⟨r, (hmem r).mpr rfl⟩
    · intro hnil
      rw [queriesOf_calls] at hnil
      exact absurd hnil haddresses

/-- An error is what is owed if no query has found an address, and if it reaches the client. -/
theorem delivers_error (hcomplete : Complete conf dns q queries) (hnil : resolvedBy dns queries = []) :
    Delivers conf dns q late (queries.map .asks ++ [.calls (.error e)]) ↔
      late = true ∨ queries ≠ [] := by
  have hnone : ∀ r, .success r ∉ handed late (queries.map .asks ++ [.calls (.error e)]) := by
    intro r hr
    rw [handed_calls] at hr
    split_ifs at hr
    · cases List.mem_singleton.mp hr
    · cases hr
  have hqueries : resolvedBy dns (queriesOf (queries.map .asks ++ [.calls (.error e)])) = [] := by
    rw [queriesOf_calls]
    exact hnil
  constructor
  · intro h
    obtain ⟨⟨e', he'⟩, _⟩ := h.error hqueries
    by_contra hnot
    rw [handed_calls, if_neg hnot] at he'
    cases he'
  · intro hready
    constructor
    · rw [queriesOf_calls]
      exact hcomplete
    · exact fun r hr => absurd hr (hnone r)
    · exact fun r hr => absurd hr (hnone r)
    · exact fun r hr => absurd hr (hnone r)
    · exact fun hne => absurd hqueries hne
    · refine fun _ => ⟨⟨e, ?_⟩, hnone⟩
      rw [handed_calls, if_pos hready]
      exact List.mem_singleton.mpr rfl

/-- An error before the rest changes nothing for the rest. -/
theorem delivers_cons_error {p : Prop}
    (h : ∀ late, Delivers conf dns q late events ↔ late = true ∨ p) :
    Delivers conf dns q late (.calls (.error e) :: events) ↔ late = true ∨ p := by
  cases late with
  | false =>
    rw [← h]
    exact ⟨fun h => ⟨h.complete, h.shape, h.tries, h.addresses, h.success, h.error⟩,
      fun h => ⟨h.complete, h.shape, h.tries, h.addresses, h.success, h.error⟩⟩
  | true =>
    obtain ⟨hcomplete, hshape, htries, haddresses, hsuccess, herror⟩ := (h true).mpr (.inl rfl)
    have hmem : ∀ r, .success r ∈ handed true (.calls (.error e) :: events) →
        .success r ∈ handed true events := by
      intro r hr
      rcases List.mem_cons.mp hr with heq | hr
      · cases heq
      · exact hr
    apply iff_of_true _ (.inl rfl)
    constructor
    · exact hcomplete
    · exact fun r hr => hshape r (hmem r hr)
    · exact fun r hr => htries r (hmem r hr)
    · exact fun r hr => haddresses r (hmem r hr)
    · intro hne
      obtain ⟨r, hr⟩ := hsuccess hne
      exact ⟨r, List.mem_cons_of_mem _ hr⟩
    · intro hnil
      exact ⟨⟨e, List.mem_cons_self⟩, fun r hr => (herror hnil).2 r (hmem r hr)⟩

/-! ## Queries that are complete -/

theorem complete_nil : Complete conf dns q [] :=
  ⟨fun _ hquery => absurd hquery List.not_mem_nil, fun _ hdomain => absurd hdomain List.not_mem_nil⟩

theorem Complete.append (h₁ : Complete conf dns q earlier) (h₂ : Complete conf dns q queries) :
    Complete conf dns q (earlier ++ queries) := by
  constructor
  · intro query hquery srvs hsrvs srv hsrv i hi
    rcases List.mem_append.mp hquery with hquery | hquery
    · exact List.mem_append_left _ (h₁.srv query hquery srvs hsrvs srv hsrv i hi)
    · exact List.mem_append_right _ (h₂.srv query hquery srvs hsrvs srv hsrv i hi)
  · intro domain hdomain naptrs hnaptrs naptr hnaptr hsip
    rcases List.mem_append.mp hdomain with hdomain | hdomain
    · exact List.mem_append_left _ (h₁.naptr domain hdomain naptrs hnaptrs naptr hnaptr hsip)
    · exact List.mem_append_right _ (h₂.naptr domain hdomain naptrs hnaptrs naptr hnaptr hsip)

theorem complete_flatMap {ι : Type} {l : List ι} {f : ι → List DnsQuery}
    (h : ∀ x ∈ l, Complete conf dns q (f x)) : Complete conf dns q (l.flatMap f) := by
  induction l with
  | nil => exact complete_nil
  | cons x l ih =>
    rw [List.forall_mem_cons] at h
    rw [List.flatMap_cons]
    exact h.1.append (ih h.2)

theorem mem_addressQueries {query : DnsQuery} {transport : Option Transport} {domain : String}
    {port : Option Nat} : query ∈ (resolveAAaaa conf dns transport domain port).2 ↔
      ∃ i ∈ conf.ipTypePreference, .address i domain = query := by
  rw [resolveAAaaa_eq, List.mem_map]
  simp only [(perm_queryTypes conf).mem_iff]

/-- Queries for addresses ask for nothing more. -/
theorem complete_of_addresses (h : ∀ query ∈ queries, ∃ i domain, .address i domain = query) :
    Complete conf dns q queries := by
  constructor
  · intro query hquery srvs hsrvs
    obtain ⟨i, domain, rfl⟩ := h query hquery
    cases hsrvs
  · intro domain hdomain
    obtain ⟨i, domain', heq⟩ := h _ hdomain
    cases heq

theorem complete_resolveAAaaa (transport : Option Transport) (domain : String) (port : Option Nat) :
    Complete conf dns q (resolveAAaaa conf dns transport domain port).2 := by
  apply complete_of_addresses
  intro query hquery
  obtain ⟨i, _, rfl⟩ := mem_addressQueries.mp hquery
  exact ⟨i, domain, rfl⟩

/-- `resolve_SRV` asks for the addresses of each record. -/
theorem complete_resolveSrv (domain : String) (scheme : Option UriScheme)
    (transport naptrTransport : Option Transport) :
    Complete conf dns q (resolveSrv conf dns domain scheme transport naptrTransport).2 := by
  unfold resolveSrv
  dsimp only
  cases hsrvs : dns.srvs (srvQuery domain scheme transport) with
  | none =>
    have hquery : Complete conf dns q [srvQuery domain scheme transport] := by
      constructor
      · intro query hquery srvs hanswer
        rw [List.mem_singleton.mp hquery, hsrvs] at hanswer
        cases hanswer
      · intro domain' hdomain
        cases List.mem_singleton.mp hdomain
    dsimp only
    split_ifs
    · exact hquery
    · exact hquery.append (complete_resolveAAaaa transport domain (defaultPort transport scheme))
  | some srvs =>
    have hrest : Complete conf dns q (srvs.flatMap fun srv =>
        (resolveAAaaa conf dns (naptrTransport.or transport) srv.domain srv.port).2) :=
      complete_flatMap fun srv _ => complete_resolveAAaaa _ _ _
    constructor
    · intro query hquery srvs' hanswer srv hsrv i hi
      rcases List.mem_cons.mp hquery with rfl | hquery
      · rw [hsrvs] at hanswer
        cases hanswer
        exact List.mem_cons_of_mem _ (List.mem_flatMap.mpr
          ⟨srv, hsrv, mem_addressQueries.mpr ⟨i, hi, rfl⟩⟩)
      · exact List.mem_cons_of_mem _ (hrest.srv query hquery srvs' hanswer srv hsrv i hi)
    · intro domain' hdomain naptrs hanswer naptr hnaptr hsip
      rcases List.mem_cons.mp hdomain with heq | hdomain
      · cases heq
      · exact List.mem_cons_of_mem _ (hrest.naptr domain' hdomain naptrs hanswer naptr hnaptr hsip)

/-- The query for SRV records is made first. -/
theorem resolveSrv_queries (conf : ProxyConf) (dns : Dns) (domain : String) (scheme : Option UriScheme)
    (transport naptrTransport : Option Transport) :
    ∃ rest, (resolveSrv conf dns domain scheme transport naptrTransport).2 =
      srvQuery domain scheme transport :: rest := by
  unfold resolveSrv
  dsimp only
  cases dns.srvs (srvQuery domain scheme transport) with
  | none =>
    dsimp only
    split_ifs
    · exact ⟨_, rfl⟩
    · exact ⟨_, rfl⟩
  | some srvs => exact ⟨_, rfl⟩

/-! ## The host -/

theorem asks_append (events : List QueryEvent) : earlier.map .asks ++ (queries.map .asks ++ events) =
    (earlier ++ queries).map .asks ++ events := by
  rw [List.map_append, List.append_assoc]

/-- The addresses of the host, behind queries that have found none. -/
theorem delivers_askHost (hcomplete : Complete conf dns q earlier) (hearlier : resolvedBy dns earlier = [])
    (transport : Option Transport) (host : String) (port : Option Nat) :
    Delivers conf dns q late (earlier.map .asks ++ askHost conf dns transport host port) ↔
      late = true ∨ earlier ≠ [] ∨ conf.ipTypePreference ≠ [] := by
  have hall : Complete conf dns q (earlier ++ (resolveAAaaa conf dns transport host port).2) :=
    hcomplete.append (complete_resolveAAaaa transport host port)
  have hne : earlier ++ (resolveAAaaa conf dns transport host port).2 ≠ [] ↔
      earlier ≠ [] ∨ conf.ipTypePreference ≠ [] := by
    rw [ne_eq, List.append_eq_nil_iff, not_and_or, ← ne_eq, ← ne_eq, hostQueries_ne_nil_iff]
  have hperm : (addresses conf dns host).Perm
      (resolvedBy dns (earlier ++ (resolveAAaaa conf dns transport host port).2)) := by
    rw [resolvedBy_append, hearlier, List.nil_append, resolveAAaaa_eq]
    exact (perm_resolvedBy_domain conf dns host).symm
  unfold askHost
  dsimp only
  rw [asks_append]
  by_cases hnil : addresses conf dns host = []
  · have htargets : (resolveAAaaa conf dns transport host port).1 = none := by
      rw [resolveAAaaa_eq]
      exact if_pos hnil
    rw [htargets]
    rw [hnil, List.nil_perm] at hperm
    rw [delivers_error hall hperm, hne]
  · have htargets : (resolveAAaaa conf dns transport host port).1 =
        some ((addresses conf dns host).map (targetAt transport port)) := by
      rw [resolveAAaaa_eq]
      exact if_neg hnil
    have hmap : (addresses conf dns host).map (targetAt transport port) ≠ [] :=
      fun h => hnil (List.map_eq_nil_iff.mp h)
    obtain ⟨hshape, hproper, htarget, haddresses⟩ := handOver_ofTargets hmap
    have hips : conf.ipTypePreference ≠ [] := by
      intro hips
      unfold addresses at hnil
      rw [hips] at hnil
      exact hnil rfl
    rw [htargets]
    apply iff_of_true _ (.inr (.inr hips))
    refine (delivers_success hall (hne.mpr (.inr hips)) hproper ?_).mpr ⟨hshape, htarget⟩
    rw [haddresses, map_address_targetAt]
    exact hperm

/-! ## SRV records for the transport of the URI -/

/-- The result for the records that are found, as it is handed over. -/
theorem result_handOver {transport : Option Transport} {srvs : List SrvRecord} {x : SrvResult}
    (hx : (srvTargets conf dns transport srvs).result = some x) :
    x.handOver.WellShaped ∧ x.handOver.HasTarget ↔
      Tryable conf dns srvs ∧ ((found conf dns srvs).length = 1 ∨ ¬ OnePriority conf dns srvs) := by
  have hs := proper_srvTargets conf dns transport srvs
  obtain ⟨hproper, _, _, htarget⟩ := SrvTargets.result_spec hs
  have hshape : x.handOver.WellShaped ↔
      (found conf dns srvs).length = 1 ∨ ¬ OnePriority conf dns srvs := by
    have hlength := (perm_flatten_srvTargets conf dns transport srvs).length_eq
    rw [List.length_map] at hlength
    rw [SrvTargets.wellShaped_result hs hx, hlength, ne_eq, length_srvTargets_eq_one_iff]
  have hx' : x.HasTarget ↔ Tryable conf dns srvs := by
    have htryable : SrvTargets.HasTarget (srvTargets conf dns transport srvs) ↔ Tryable conf dns srvs :=
      hasTarget_srvTargets
    rw [← htryable, ← htarget]
    constructor
    · exact fun h => ⟨x, hx, h⟩
    · rintro ⟨y, hy, h⟩
      rw [hx] at hy
      cases hy
      exact h
  obtain ⟨_, _, hhandOver⟩ := SrvResult.handOver_spec (hproper x hx)
  constructor
  · rintro ⟨hw, ht⟩
    exact ⟨hx'.mp ((hhandOver hw).mp ht), hshape.mp hw⟩
  · rintro ⟨ht, hw⟩
    exact ⟨hshape.mpr hw, (hhandOver (hshape.mpr hw)).mpr (hx'.mpr ht)⟩

theorem delivers_transport (host : String) (scheme : Option UriScheme) (transport : Option Transport) :
    Delivers conf dns q late
      ((resolveSrv conf dns host scheme transport none).2.map .asks ++
        [.calls (match (resolveSrv conf dns host scheme transport none).1 with
          | some result => .success result.handOver
          | none => .error .domainNotFound)]) ↔
      ∀ srvs ∈ dns.srvs (srvQuery host scheme transport), found conf dns srvs = [] ∨
        Tryable conf dns srvs ∧ ((found conf dns srvs).length = 1 ∨ ¬ OnePriority conf dns srvs) := by
  have hcomplete : Complete conf dns q (resolveSrv conf dns host scheme transport none).2 :=
    complete_resolveSrv host scheme transport none
  obtain ⟨hproper, hperm⟩ := resolveSrv_spec conf dns host scheme transport none
  have hne : (resolveSrv conf dns host scheme transport none).2 ≠ [] := by
    obtain ⟨rest, hrest⟩ := resolveSrv_queries conf dns host scheme transport none
    rw [hrest]
    exact List.cons_ne_nil _ _
  have herror : (resolveSrv conf dns host scheme transport none).1 = none →
      Delivers conf dns q late ((resolveSrv conf dns host scheme transport none).2.map .asks ++
        [.calls (.error .domainNotFound)]) := by
    intro hnone
    rw [hnone] at hperm
    exact (delivers_error hcomplete (List.nil_perm.mp hperm)).mpr (.inr hne)
  have hsuccess : ∀ x, (resolveSrv conf dns host scheme transport none).1 = some x →
      (Delivers conf dns q late ((resolveSrv conf dns host scheme transport none).2.map .asks ++
        [.calls (.success x.handOver)]) ↔ x.handOver.WellShaped ∧ x.handOver.HasTarget) := by
    intro x hx
    obtain ⟨hx', haddresses, _⟩ := SrvResult.handOver_spec (hproper x hx)
    rw [hx] at hperm
    refine delivers_success hcomplete hne hx' ?_
    rw [haddresses]
    exact hperm
  cases hsrvs : dns.srvs (srvQuery host scheme transport) with
  | none =>
    have hresult : (resolveSrv conf dns host scheme transport none).1 =
        (resolveAAaaa conf dns transport host (defaultPort transport scheme)).1.map .multiTargets := by
      unfold resolveSrv
      dsimp only
      rw [hsrvs]
      rfl
    apply iff_of_true _ nofun
    cases htargets : (resolveAAaaa conf dns transport host (defaultPort transport scheme)).1 with
    | none =>
      rw [htargets] at hresult
      rw [hresult]
      exact herror hresult
    | some ts =>
      rw [htargets] at hresult
      have hts : ts ≠ [] := hproper _ hresult
      obtain ⟨hshape, _, htarget, _⟩ := handOver_ofTargets hts
      have hgood := (hsuccess _ hresult).mpr ⟨hshape, htarget⟩
      rw [hresult]
      exact hgood
  | some srvs =>
    have hresult : (resolveSrv conf dns host scheme transport none).1 =
        (srvTargets conf dns transport srvs).result := resolveSrv_of_some hsrvs
    have hforall : (∀ srvs' ∈ some srvs, found conf dns srvs' = [] ∨ Tryable conf dns srvs' ∧
        ((found conf dns srvs').length = 1 ∨ ¬ OnePriority conf dns srvs')) ↔
        found conf dns srvs = [] ∨ Tryable conf dns srvs ∧
          ((found conf dns srvs).length = 1 ∨ ¬ OnePriority conf dns srvs) := by
      simp only [Option.mem_def, Option.some.injEq, forall_eq']
    rw [hforall]
    cases hx : (srvTargets conf dns transport srvs).result with
    | none =>
      have hnone := hresult.trans hx
      obtain ⟨_, _, hiff, _⟩ := SrvTargets.result_spec (proper_srvTargets conf dns transport srvs)
      rw [hnone]
      exact iff_of_true (herror hnone) (.inl (srvTargets_eq_nil_iff.mp (hiff.mp hx)))
    | some x =>
      have hsome := hresult.trans hx
      have hfound : found conf dns srvs ≠ [] := by
        obtain ⟨_, _, hiff, _⟩ := SrvTargets.result_spec (proper_srvTargets conf dns transport srvs)
        intro hnil
        rw [hiff.mpr (srvTargets_eq_nil_iff.mpr hnil)] at hx
        cases hx
      rw [or_iff_right hfound, ← result_handOver hx, ← hsuccess x hsome, hsome]

/-! ## Lookups whose results are collected -/

/-- The results of some lookups together. -/
theorem collect_lookups (dns : Dns) (lookups : List (Option SrvResult × List DnsQuery))
    (h : ∀ x ∈ lookups, (∀ r, x.1 = some r → r.Proper) ∧
      (x.1.elim [] SrvResult.addresses).Perm (resolvedBy dns x.2)) :
    (MultiTargets.collect (lookups.map (·.1))).handOver.Proper ∧
      ((MultiTargets.collect (lookups.map (·.1))).handOver.HasTarget ↔
        ∃ x ∈ lookups, ∃ r, x.1 = some r ∧ r.HasTarget) ∧
      (MultiTargets.collect (lookups.map (·.1))).handOver.addresses.Perm
        (resolvedBy dns (lookups.flatMap (·.2))) ∧
      ((MultiTargets.collect (lookups.map (·.1))).entries ≠ [] ↔ ∃ x ∈ lookups, x.1 ≠ none) ∧
      ((MultiTargets.collect (lookups.map (·.1))).entries ≠ [] →
        (MultiTargets.collect (lookups.map (·.1))).handOver.WellShaped) := by
  have hproper : ∀ r, some r ∈ lookups.map (·.1) → r.Proper := by
    intro r hr
    obtain ⟨x, hx, hfst⟩ := List.mem_map.mp hr
    exact (h x hx).1 r hfst
  obtain ⟨hp, htarget, haddresses, hne, hshape⟩ := collect_handOver hproper
  refine ⟨hp, ?_, ?_, ?_, hshape⟩
  · rw [htarget]
    simp only [List.mem_map]
    constructor
    · rintro ⟨r, ⟨x, hx, hfst⟩, hr⟩
      exact ⟨x, hx, r, hfst, hr⟩
    · rintro ⟨x, hx, r, hfst, hr⟩
      exact ⟨r, ⟨x, hx, hfst⟩, hr⟩
  · rw [haddresses, List.flatMap_map]
    unfold resolvedBy
    rw [List.flatMap_assoc]
    exact List.Perm.flatMap_left _ fun x hx => (h x hx).2
  · rw [hne]
    simp only [List.mem_map]
    constructor
    · rintro ⟨r, x, hx, hfst⟩
      refine ⟨x, hx, ?_⟩
      rw [hfst]
      exact nofun
    · rintro ⟨x, hx, hfst⟩
      obtain ⟨r, hr⟩ := Option.ne_none_iff_exists'.mp hfst
      exact ⟨r, x, hx, hr⟩

/-- A lookup for a transport or a NAPTR record leads to a target if its records are worth a try. -/
theorem exists_result_iff {domain : String} {scheme : Option UriScheme} {transport : Option Transport}
    {t : Transport} : (∃ r, (resolveSrv conf dns domain scheme transport (some t)).1 = some r ∧
        r.HasTarget) ↔
      ∃ srvs ∈ dns.srvs (srvQuery domain scheme transport), Tryable conf dns srvs := by
  cases hsrvs : dns.srvs (srvQuery domain scheme transport) with
  | none =>
    rw [resolveSrv_of_none hsrvs]
    apply iff_of_false
    · rintro ⟨r, hr, _⟩
      cases hr
    · rintro ⟨srvs, hanswer, _⟩
      cases hanswer
  | some srvs =>
    have htryable : SrvTargets.HasTarget (srvTargets conf dns (some t) srvs) ↔ Tryable conf dns srvs :=
      hasTarget_srvTargets
    obtain ⟨_, _, _, htarget⟩ := SrvTargets.result_spec (proper_srvTargets conf dns (some t) srvs)
    rw [resolveSrv_of_some hsrvs, Option.some_or, htarget, htryable]
    simp only [Option.mem_def, Option.some.injEq, exists_eq_left']

theorem result_ne_none_iff {domain : String} {scheme : Option UriScheme} {transport : Option Transport}
    {t : Transport} : (resolveSrv conf dns domain scheme transport (some t)).1 ≠ none ↔
      ∃ srvs ∈ dns.srvs (srvQuery domain scheme transport), found conf dns srvs ≠ [] := by
  cases hsrvs : dns.srvs (srvQuery domain scheme transport) with
  | none =>
    rw [resolveSrv_of_none hsrvs]
    apply iff_of_false
    · exact fun h => h rfl
    · rintro ⟨srvs, hanswer, _⟩
      cases hanswer
  | some srvs =>
    obtain ⟨_, _, hnone, _⟩ := SrvTargets.result_spec (proper_srvTargets conf dns (some t) srvs)
    rw [resolveSrv_of_some hsrvs, Option.some_or, ne_eq, hnone, srvTargets_eq_nil_iff]
    simp only [Option.mem_def, Option.some.injEq, exists_eq_left', ne_eq]

/-! ## NAPTR records -/

/-- A record that is kept names a transport of the proxy. -/
theorem transport_of_isSipNaptr {naptr : NaptrRecord} (h : isSipNaptr conf q naptr = true) :
    ∃ t ∈ conf.transportPreference, transportToService t = some naptr.service.toUpper ∧
      naptrTransport naptr = some t := by
  unfold isSipNaptr at h
  simp only [Bool.and_eq_true, Bool.or_eq_true, beq_iff_eq] at h
  unfold naptrTransport
  rcases h.2 with (⟨htls, hservice⟩ | ⟨⟨_, htcp⟩, hservice⟩) | ⟨⟨_, hudp⟩, hservice⟩
  · exact ⟨.tls, List.contains_iff_mem.mp htls, by rw [hservice]; rfl, by rw [hservice]; rfl⟩
  · exact ⟨.tcp, List.contains_iff_mem.mp htcp, by rw [hservice]; rfl, by rw [hservice]; rfl⟩
  · exact ⟨.udp, List.contains_iff_mem.mp hudp, by rw [hservice]; rfl, by rw [hservice]; rfl⟩

theorem mem_orderedNaptrs {order : NaptrSort} {naptrs : List NaptrRecord} {naptr : NaptrRecord}
    (h : ∀ naptr ∈ naptrs, isSipNaptr conf q naptr = true) :
    naptr ∈ orderedNaptrs conf order naptrs ↔ naptr ∈ naptrs := by
  unfold orderedNaptrs
  split_ifs
  · simp only [List.mem_flatMap, List.mem_filter, beq_iff_eq]
    constructor
    · rintro ⟨t, _, hnaptr, _⟩
      exact hnaptr
    · intro hnaptr
      obtain ⟨t, ht, hservice, _⟩ := transport_of_isSipNaptr (h naptr hnaptr)
      exact ⟨t, ht, hnaptr, hservice.symm⟩
  · exact (order.perm naptrs).mem_iff

/-- What holds of each lookup for a NAPTR record. -/
theorem naptrLookup_spec {order : NaptrSort} {naptrs : List NaptrRecord}
    {x : Option SrvResult × List DnsQuery} (hx : x ∈ naptrLookups conf dns order naptrs) :
    (∀ r, x.1 = some r → r.Proper) ∧ (x.1.elim [] SrvResult.addresses).Perm (resolvedBy dns x.2) ∧
      Complete conf dns q x.2 := by
  obtain ⟨naptr, _, rfl⟩ := List.mem_map.mp hx
  obtain ⟨hproper, hperm⟩ := resolveSrv_spec conf dns naptr.replacement none none (naptrTransport naptr)
  exact ⟨hproper, hperm, complete_resolveSrv _ _ _ _⟩

/-- The queries for NAPTR records, and for what they name. -/
theorem complete_naptrLookups (conf : ProxyConf) (order : NaptrSort) {naptrs : List NaptrRecord}
    (hanswer : dns.naptr q.uriHost = some naptrs) : Complete conf dns q (.naptr q.uriHost ::
      (naptrLookups conf dns order (naptrs.filter (isSipNaptr conf q))).flatMap (·.2)) := by
  have hlookups : Complete conf dns q
      ((naptrLookups conf dns order (naptrs.filter (isSipNaptr conf q))).flatMap (·.2)) :=
    complete_flatMap fun x hx => (naptrLookup_spec hx).2.2
  constructor
  · intro query hquery srvs hsrvs srv hsrv i hi
    rcases List.mem_cons.mp hquery with rfl | hquery
    · cases hsrvs
    · exact List.mem_cons_of_mem _ (hlookups.srv query hquery srvs hsrvs srv hsrv i hi)
  · intro domain hdomain naptrs' hnaptrs' naptr hnaptr hkept
    apply List.mem_cons_of_mem
    rcases List.mem_cons.mp hdomain with heq | hdomain
    · -- the lookup for the record
      cases heq
      obtain rfl : naptrs = naptrs' := Option.some.inj (hanswer.symm.trans hnaptrs')
      have hordered : naptr ∈ orderedNaptrs conf order (naptrs.filter (isSipNaptr conf q)) :=
        (mem_orderedNaptrs fun _ h => (List.mem_filter.mp h).2).mpr (List.mem_filter.mpr ⟨hnaptr, hkept⟩)
      obtain ⟨rest, hrest⟩ := resolveSrv_queries conf dns naptr.replacement none none (naptrTransport naptr)
      refine List.mem_flatMap.mpr ⟨_, List.mem_map_of_mem hordered, ?_⟩
      rw [hrest]
      exact List.mem_cons_self
    · exact hlookups.naptr domain hdomain naptrs' hnaptrs' naptr hnaptr hkept

theorem delivers_followNaptrs (order : NaptrSort) {naptrs : List NaptrRecord}
    (hanswer : dns.naptr q.uriHost = some naptrs) :
    Delivers conf dns q late (.asks (.naptr q.uriHost) ::
        followNaptrs conf dns order (naptrs.filter (isSipNaptr conf q))) ↔
      ∃ naptr ∈ naptrs.filter (isSipNaptr conf q),
        ∃ srvs ∈ dns.srvs (srvQuery naptr.replacement none none), Tryable conf dns srvs := by
  have hsip : ∀ naptr ∈ naptrs.filter (isSipNaptr conf q), isSipNaptr conf q naptr = true :=
    fun naptr hnaptr => (List.mem_filter.mp hnaptr).2
  obtain ⟨hproper, htarget, hperm, hne, hshape⟩ := collect_lookups dns
    (naptrLookups conf dns order (naptrs.filter (isSipNaptr conf q)))
    fun x hx => ⟨(naptrLookup_spec (q := q) hx).1, (naptrLookup_spec (q := q) hx).2.1⟩
  have hgood : (∃ x ∈ naptrLookups conf dns order (naptrs.filter (isSipNaptr conf q)),
      ∃ r, x.1 = some r ∧ r.HasTarget) ↔ ∃ naptr ∈ naptrs.filter (isSipNaptr conf q),
        ∃ srvs ∈ dns.srvs (srvQuery naptr.replacement none none), Tryable conf dns srvs := by
    unfold naptrLookups
    simp only [List.mem_map, exists_exists_and_eq_and, mem_orderedNaptrs hsip]
    apply exists_congr
    intro naptr
    apply and_congr_right
    intro hnaptr
    obtain ⟨t, _, _, htransport⟩ := transport_of_isSipNaptr (hsip naptr hnaptr)
    rw [htransport]
    exact exists_result_iff
  have hcomplete := complete_naptrLookups conf order hanswer
  refine (delivers_success hcomplete (List.cons_ne_nil _ _) hproper hperm).trans ?_
  rw [← hgood, ← htarget]
  constructor
  · exact fun h => h.2
  · intro h
    obtain ⟨x, hx, r, hr, _⟩ := htarget.mp h
    refine ⟨hshape (hne.mpr ⟨x, hx, ?_⟩), h⟩
    rw [hr]
    exact nofun

/-! ## SRV records in the order of the transports -/

theorem srvLookup_spec {x : Option SrvResult × List DnsQuery} (hx : x ∈ srvLookups conf dns q) :
    (∀ r, x.1 = some r → r.Proper) ∧ (x.1.elim [] SrvResult.addresses).Perm (resolvedBy dns x.2) ∧
      Complete conf dns q x.2 := by
  obtain ⟨t, _, rfl⟩ := List.mem_map.mp hx
  obtain ⟨hproper, hperm⟩ :=
    resolveSrv_spec conf dns q.uriHost (some q.uriScheme) (some t) (some t)
  exact ⟨hproper, hperm, complete_resolveSrv _ _ _ _⟩

theorem srvQueries_ne_nil_iff :
    (srvLookups conf dns q).flatMap (·.2) ≠ [] ↔ srvTransports conf q ≠ [] := by
  unfold srvLookups
  constructor
  · intro h hnil
    rw [hnil] at h
    exact h rfl
  · intro h
    obtain ⟨t, ht⟩ := List.exists_mem_of_ne_nil _ h
    obtain ⟨rest, hrest⟩ := resolveSrv_queries conf dns q.uriHost (some q.uriScheme) (some t) (some t)
    have hmem : srvQuery q.uriHost (some q.uriScheme) (some t) ∈
        (resolveSrv conf dns q.uriHost (some q.uriScheme) (some t) (some t)).2 := by
      rw [hrest]
      exact List.mem_cons_self
    exact List.ne_nil_of_mem (List.mem_flatMap.mpr ⟨_, List.mem_map_of_mem ht, hmem⟩)

/-- The transport of the host is one of those that have been looked up. -/
theorem mem_srvTransports {t : Transport} (ht : t ∈ conf.transportPreference)
    (h : q.uriScheme = .sip ∨ t = .tls) : t ∈ srvTransports conf q := by
  unfold srvTransports
  rw [List.mem_filter]
  refine ⟨ht, ?_⟩
  rcases h with h | h
  · rw [h]
    rfl
  · rw [h]
    simp

/-- When no record is found, the host is asked for, or there is no transport for it. -/
theorem delivers_continueWithoutSrv (hcomplete : Complete conf dns q queries)
    (hnil : resolvedBy dns queries = [])
    (hscheme : q.uriScheme = .sip ∨ q.uriScheme = .sips ∧ conf.hasSipTls = true)
    (hqueries : srvTransports conf q ≠ [] → queries ≠ []) :
    Delivers conf dns q late (queries.map .asks ++ continueWithoutSrv conf dns q) ↔
      late = true ∨ queries ≠ [] := by
  have hhost : ∀ t ∈ srvTransports conf q, ∀ port,
      Delivers conf dns q late (queries.map .asks ++ askHost conf dns (some t) q.uriHost port) ↔
        late = true ∨ queries ≠ [] := by
    intro t ht port
    have hne := hqueries (List.ne_nil_of_mem ht)
    rw [delivers_askHost hcomplete hnil]
    exact iff_of_true (.inr (.inl hne)) (.inr hne)
  rcases hscheme with hsip | ⟨hsips, htls⟩
  · have hmem : ∀ t, conf.transportPreference.contains t = true → t ∈ srvTransports conf q :=
      fun t ht => mem_srvTransports (List.contains_iff_mem.mp ht) (.inl hsip)
    unfold continueWithoutSrv
    simp only [hsip]
    split_ifs with hudp htcp
    · exact hhost .udp (hmem _ hudp) _
    · exact hhost .tcp (hmem _ htcp) _
    · exact delivers_error hcomplete hnil
  · unfold continueWithoutSrv
    simp only [hsips]
    exact hhost .tls (mem_srvTransports (List.contains_iff_mem.mp htls) (.inr rfl)) _

theorem delivers_continueWithSrv (hcomplete : Complete conf dns q earlier)
    (hearlier : resolvedBy dns earlier = [])
    (hscheme : q.uriScheme = .sip ∨ q.uriScheme = .sips ∧ conf.hasSipTls = true) :
    Delivers conf dns q late (earlier.map .asks ++ continueWithSrv conf dns q) ↔
      (∃ t ∈ srvTransports conf q, ∃ srvs ∈ dns.srvs (srvQuery q.uriHost (some q.uriScheme) (some t)),
        Tryable conf dns srvs) ∨
      (∀ t ∈ srvTransports conf q, ∀ srvs ∈ dns.srvs (srvQuery q.uriHost (some q.uriScheme) (some t)),
        found conf dns srvs = []) ∧ (late = true ∨ earlier ≠ [] ∨ srvTransports conf q ≠ []) := by
  obtain ⟨hproper, htarget, hperm, hne, hshape⟩ := collect_lookups dns
    (srvLookups conf dns q) fun x hx => ⟨(srvLookup_spec hx).1, (srvLookup_spec hx).2.1⟩
  have hall : Complete conf dns q (earlier ++ (srvLookups conf dns q).flatMap (·.2)) :=
    hcomplete.append (complete_flatMap fun x hx => (srvLookup_spec hx).2.2)
  have hqueries : earlier ++ (srvLookups conf dns q).flatMap (·.2) ≠ [] ↔
      earlier ≠ [] ∨ srvTransports conf q ≠ [] := by
    rw [ne_eq, List.append_eq_nil_iff, not_and_or, ← ne_eq, ← ne_eq, srvQueries_ne_nil_iff]
  have hgood : (∃ x ∈ srvLookups conf dns q, ∃ r, x.1 = some r ∧ r.HasTarget) ↔
      ∃ t ∈ srvTransports conf q, ∃ srvs ∈ dns.srvs (srvQuery q.uriHost (some q.uriScheme) (some t)),
        Tryable conf dns srvs := by
    unfold srvLookups
    simp only [List.mem_map, exists_exists_and_eq_and, exists_result_iff]
  have hsome : (∃ x ∈ srvLookups conf dns q, x.1 ≠ none) ↔
      ∃ t ∈ srvTransports conf q, ∃ srvs ∈ dns.srvs (srvQuery q.uriHost (some q.uriScheme) (some t)),
        found conf dns srvs ≠ [] := by
    unfold srvLookups
    simp only [List.mem_map, exists_exists_and_eq_and, result_ne_none_iff]
  rw [hgood] at htarget
  rw [hsome] at hne
  unfold continueWithSrv
  dsimp only
  rw [asks_append]
  by_cases hentries : (MultiTargets.collect ((srvLookups conf dns q).map (·.1))).entries = []
  · rw [if_neg (not_not.mpr hentries)]
    have hnone : ∀ t ∈ srvTransports conf q,
        ∀ srvs ∈ dns.srvs (srvQuery q.uriHost (some q.uriScheme) (some t)), found conf dns srvs = [] := by
      intro t ht srvs hsrvs
      by_contra hfound
      exact hne.mpr ⟨t, ht, srvs, hsrvs, hfound⟩ hentries
    have hresolved : resolvedBy dns (earlier ++ (srvLookups conf dns q).flatMap (·.2)) = [] := by
      rw [MultiTargets.addresses_handOver, hentries] at hperm
      rw [resolvedBy_append, hearlier, List.nil_append]
      exact List.nil_perm.mp hperm
    have hnot : ¬ ∃ t ∈ srvTransports conf q,
        ∃ srvs ∈ dns.srvs (srvQuery q.uriHost (some q.uriScheme) (some t)), Tryable conf dns srvs := by
      rintro ⟨t, ht, srvs, hsrvs, htry⟩
      exact htry.found_ne_nil (hnone t ht srvs hsrvs)
    rw [delivers_continueWithoutSrv hall hresolved hscheme fun h => hqueries.mpr (.inr h), hqueries,
      and_iff_right hnone]
    exact (or_iff_right hnot).symm
  · rw [if_pos hentries]
    obtain ⟨t, ht, srvs, hsrvs, hfound⟩ := hne.mp hentries
    refine (delivers_success hall (hqueries.mpr (.inr (List.ne_nil_of_mem ht))) hproper ?_).trans ?_
    · rw [resolvedBy_append, hearlier, List.nil_append]
      exact hperm
    · rw [and_iff_right (hshape hentries), htarget, or_iff_left]
      rintro ⟨hnone, _⟩
      exact hfound (hnone t ht srvs hsrvs)

/-! ## The resolution of a URI -/

/-- A parameter `;transport` selects its transport, if the proxy has it. -/
theorem selectTransport_of_some (ht : q.uriTransport.isSome) :
    (∃ t ∈ q.dnsTransport, conf.transportPreference.contains t = true) ∧
        selectTransport conf q = .ok q.dnsTransport ∨
      (¬ ∃ t ∈ q.dnsTransport, conf.transportPreference.contains t = true) ∧
        ∃ e, selectTransport conf q = .error e := by
  obtain ⟨param, hparam⟩ := Option.isSome_iff_exists.mp ht
  have hsome : ∀ t, q.dnsTransport = some t → selectTransport conf q =
      (if conf.transportPreference.contains t then .ok (some t) else .error .unsupportedTransport) →
      (∃ t ∈ q.dnsTransport, conf.transportPreference.contains t = true) ∧
        selectTransport conf q = .ok q.dnsTransport ∨
      (¬ ∃ t ∈ q.dnsTransport, conf.transportPreference.contains t = true) ∧
        ∃ e, selectTransport conf q = .error e := by
    intro t htransport hselect
    rw [htransport, hselect]
    split_ifs with h
    · exact .inl ⟨⟨t, rfl, h⟩, rfl⟩
    · refine .inr ⟨?_, _, rfl⟩
      rintro ⟨t', ht', h'⟩
      rw [← Option.mem_some_iff.mp ht'] at h'
      exact h h'
  have hnone : q.dnsTransport = none → selectTransport conf q = .error .unsupportedTransport →
      (∃ t ∈ q.dnsTransport, conf.transportPreference.contains t = true) ∧
        selectTransport conf q = .ok q.dnsTransport ∨
      (¬ ∃ t ∈ q.dnsTransport, conf.transportPreference.contains t = true) ∧
        ∃ e, selectTransport conf q = .error e := by
    intro htransport hselect
    rw [htransport, hselect]
    exact .inr ⟨nofun, _, rfl⟩
  unfold selectTransport Query.dnsTransport at hsome hnone ⊢
  rw [hparam] at hsome hnone ⊢
  cases param with
  | udp =>
    by_cases hsip : q.uriScheme = .sip
    · apply hsome .udp (if_pos hsip)
      simp only [hsip, decide_true, Bool.and_true]
      rfl
    · apply hnone (if_neg hsip)
      simp only [hsip, decide_false, Bool.and_false]
      rfl
  | tcp =>
    by_cases hsips : q.uriScheme = .sips
    · exact hsome .tls (congrArg some (if_pos hsips)) (if_pos hsips)
    · exact hsome .tcp (congrArg some (if_neg hsips)) (if_neg hsips)
  | tls => exact hsome .tls rfl rfl
  | other => exact hnone rfl rfl

/-- Without the parameter, a port needs a transport for the scheme. -/
theorem selectTransport_of_none (ht : q.uriTransport = none) (hq : q.uriHostType = .domain) :
    (q.uriPort.isSome → q.uriScheme = .sip → conf.hasSipUdp = true ∨ conf.hasSipTcp = true) ∧
        (∃ transport, selectTransport conf q = .ok transport) ∨
      (¬ (q.uriPort.isSome → q.uriScheme = .sip → conf.hasSipUdp = true ∨ conf.hasSipTcp = true)) ∧
        ∃ e, selectTransport conf q = .error e := by
  unfold selectTransport
  rw [ht, hq]
  dsimp only
  by_cases hport : q.uriPort.isSome
  · rw [if_pos (.inr hport)]
    cases hscheme : q.uriScheme with
    | sip =>
      dsimp only
      split_ifs with hudp htcp
      · exact .inl ⟨fun _ _ => .inl hudp, _, rfl⟩
      · exact .inl ⟨fun _ _ => .inr htcp, _, rfl⟩
      · exact .inr ⟨fun h => (h hport rfl).elim hudp htcp, _, rfl⟩
    | sips => exact .inl ⟨nofun, _, rfl⟩
    | other => exact .inl ⟨nofun, _, rfl⟩
  · rw [if_neg (not_or.mpr ⟨fun h => h rfl, hport⟩)]
    exact .inl ⟨fun h => absurd h hport, _, rfl⟩

/-- What `resolve` returns: an error, or for a domain what the fiber does, or else a target. -/
theorem resolve_spec (conf : ProxyConf) (dns : Dns) (q : Query) (order : NaptrSort) :
    (∃ e, resolve conf dns q order = .error e) ∨
      (q.uriScheme = .sip ∨ q.uriScheme = .sips ∧ conf.hasSipTls = true) ∧
        ∃ transport, selectTransport conf q = .ok transport ∧
          (q.uriHostType = .domain ∧
              resolve conf dns q order = .started (resolveDomain conf dns q order transport) ∨
            q.uriHostType ≠ .domain ∧ ∃ i ∈ conf.ipTypePreference,
              resolve conf dns q order = .target
                { transport, ip := q.uriHost, ipType := i
                  port := q.uriPort.or (defaultPort transport (some q.uriScheme)) }) := by
  unfold resolve
  by_cases hdns : (!conf.useDns && decide (q.uriHostType = .domain)) = true
  · rw [if_pos hdns]
    exact .inl ⟨_, rfl⟩
  rw [if_neg hdns]
  by_cases hscheme : q.uriScheme = .other ∨ q.uriScheme = .sips ∧ (!conf.hasSipTls) = true
  · rw [if_pos hscheme]
    exact .inl ⟨_, rfl⟩
  rw [if_neg hscheme]
  have hscheme' : q.uriScheme = .sip ∨ q.uriScheme = .sips ∧ conf.hasSipTls = true := by
    rw [not_or, not_and, Bool.not_eq_true', Bool.not_eq_false] at hscheme
    cases hs : q.uriScheme with
    | sip => exact .inl rfl
    | sips => exact .inr ⟨rfl, hscheme.2 hs⟩
    | other => exact absurd hs hscheme.1
  cases hselect : selectTransport conf q with
  | error e => exact .inl ⟨e, rfl⟩
  | ok transport =>
    dsimp only
    cases htype : q.uriHostType with
    | ipv4 =>
      dsimp only
      split_ifs with hip
      · exact .inr ⟨hscheme', transport, rfl, .inr ⟨nofun, .ipv4, List.contains_iff_mem.mp hip, rfl⟩⟩
      · exact .inl ⟨_, rfl⟩
    | ipv6 =>
      dsimp only
      split_ifs with hip
      · exact .inr ⟨hscheme', transport, rfl, .inr ⟨nofun, .ipv6, List.contains_iff_mem.mp hip, rfl⟩⟩
      · exact .inl ⟨_, rfl⟩
    | domain => exact .inr ⟨hscheme', transport, rfl, .inl ⟨rfl, rfl⟩⟩

/-- `resolve` starts the fiber for the URIs that are supported, and returns an error for the others. -/
theorem resolve_cases (order : NaptrSort) (hq : q.uriHostType = .domain) :
    (Supported conf q ∧ ∃ transport, (q.uriTransport.isSome → transport = q.dnsTransport) ∧
        resolve conf dns q order = .started (resolveDomain conf dns q order transport)) ∨
      (¬ Supported conf q ∧ ∃ e, resolve conf dns q order = .error e) := by
  unfold resolve
  rw [hq]
  cases hdns : conf.useDns with
  | false => exact .inr ⟨fun h => Bool.false_ne_true (hdns.symm.trans h.dns), _, rfl⟩
  | true =>
    rw [if_neg (by simp)]
    by_cases hscheme : q.uriScheme = .other ∨ q.uriScheme = .sips ∧ (!conf.hasSipTls) = true
    · rw [if_pos hscheme]
      refine .inr ⟨fun h => ?_, _, rfl⟩
      rcases hscheme with hother | ⟨hsips, htls⟩
      · rcases h.scheme with hsip | ⟨hsips, _⟩
        · exact absurd (hsip.symm.trans hother) nofun
        · exact absurd (hsips.symm.trans hother) nofun
      · rcases h.scheme with hsip | ⟨_, htls'⟩
        · exact absurd (hsip.symm.trans hsips) nofun
        · rw [htls'] at htls
          exact absurd htls nofun
    · rw [if_neg hscheme]
      have hscheme' : q.uriScheme = .sip ∨ q.uriScheme = .sips ∧ conf.hasSipTls = true := by
        rw [not_or, not_and, Bool.not_eq_true', Bool.not_eq_false] at hscheme
        cases hs : q.uriScheme with
        | sip => exact .inl rfl
        | sips => exact .inr ⟨rfl, hscheme.2 hs⟩
        | other => exact absurd hs hscheme.1
      cases ht : q.uriTransport with
      | none =>
        rcases selectTransport_of_none ht hq with ⟨hport, transport, hselect⟩ | ⟨hport, e, hselect⟩
        · rw [hselect]
          exact .inl ⟨⟨hdns, hscheme', by rw [ht]; exact nofun, fun _ => hport⟩, transport, nofun, rfl⟩
        · rw [hselect]
          exact .inr ⟨fun h => hport (h.port ht), e, rfl⟩
      | some param =>
        have hsome : q.uriTransport.isSome := by
          rw [ht]
          rfl
        rcases selectTransport_of_some hsome with ⟨htransport, hselect⟩ | ⟨htransport, e, hselect⟩
        · rw [hselect]
          refine .inl ⟨⟨hdns, hscheme', fun _ => htransport, ?_⟩, _, fun _ => rfl, rfl⟩
          rw [ht]
          exact nofun
        · rw [hselect]
          exact .inr ⟨fun h => htransport (h.transport hsome), e, rfl⟩

/-- The addresses of the host alone. -/
theorem delivers_host (transport : Option Transport) (host : String) (port : Option Nat) :
    Delivers conf dns q late (askHost conf dns transport host port) ↔
      late = true ∨ conf.ipTypePreference ≠ [] := by
  have h : Delivers conf dns q late (([] : List DnsQuery).map .asks ++ askHost conf dns transport host port) ↔
      late = true ∨ ([] : List DnsQuery) ≠ [] ∨ conf.ipTypePreference ≠ [] :=
    delivers_askHost complete_nil rfl transport host port
  have hnil : ([] : List DnsQuery) ≠ [] ∨ conf.ipTypePreference ≠ [] ↔ conf.ipTypePreference ≠ [] :=
    or_iff_right fun h => h rfl
  rw [hnil] at h
  exact h

theorem sipNaptrs_eq {naptrs : List NaptrRecord} (hnaptr : conf.useNaptr = true)
    (hanswer : dns.naptr q.uriHost = some naptrs) :
    sipNaptrs conf dns q = naptrs.filter (isSipNaptr conf q) := by
  unfold sipNaptrs
  rw [if_pos hnaptr, hanswer]
  rfl

/-- The answer to the NAPTR query leads to no records for SIP. -/
theorem delivers_naptr_continueWithSrv (hnaptr : conf.useNaptr = true) (hnil : sipNaptrs conf dns q = [])
    (hscheme : q.uriScheme = .sip ∨ q.uriScheme = .sips ∧ conf.hasSipTls = true) :
    Delivers conf dns q late (.asks (.naptr q.uriHost) :: continueWithSrv conf dns q) ↔
      (∃ t ∈ srvTransports conf q, ∃ srvs ∈ dns.srvs (srvQuery q.uriHost (some q.uriScheme) (some t)),
        Tryable conf dns srvs) ∨
      (∀ t ∈ srvTransports conf q, ∀ srvs ∈ dns.srvs (srvQuery q.uriHost (some q.uriScheme) (some t)),
        found conf dns srvs = []) := by
  have hcomplete : Complete conf dns q [.naptr q.uriHost] := by
    constructor
    · intro query hquery srvs hsrvs
      rw [List.mem_singleton.mp hquery] at hsrvs
      cases hsrvs
    · intro domain hdomain naptrs hanswer naptr hmem hsip
      rw [DnsQuery.naptr.inj (List.mem_singleton.mp hdomain)] at hanswer
      rw [sipNaptrs_eq hnaptr hanswer] at hnil
      exact absurd hsip (List.filter_eq_nil_iff.mp hnil naptr hmem)
  have h : Delivers conf dns q late
      ([DnsQuery.naptr q.uriHost].map .asks ++ continueWithSrv conf dns q) ↔ _ :=
    delivers_continueWithSrv hcomplete rfl hscheme
  refine h.trans (or_congr_right ?_)
  exact and_iff_left (.inr (.inl (List.cons_ne_nil _ _)))

/-- Without SRV records, the host is asked for. -/
theorem delivers_withoutSrv (hscheme : q.uriScheme = .sip ∨ q.uriScheme = .sips ∧ conf.hasSipTls = true) :
    Delivers conf dns q late
      (match q.uriScheme with
      | .sip =>
        if conf.hasSipUdp then askHost conf dns (some .udp) q.uriHost (some 5060)
        else if conf.hasSipTcp then askHost conf dns (some .tcp) q.uriHost (some 5060)
        else .calls (.error .unsupportedTransport) :: askHost conf dns none q.uriHost none
      | .sips | .other => askHost conf dns (some .tls) q.uriHost (some 5061)) ↔
      late = true ∨ conf.ipTypePreference ≠ [] := by
  rcases hscheme with hsip | ⟨hsips, _⟩
  · rw [hsip]
    dsimp only
    split_ifs
    · exact delivers_host _ _ _
    · exact delivers_host _ _ _
    · exact delivers_cons_error fun late => delivers_host _ _ _
  · rw [hsips]
    exact delivers_host _ _ _

/-- What the fiber of a supported URI owes. -/
theorem delivers_resolveDomain (order : NaptrSort) (h : Supported conf q) {transport : Option Transport}
    (htransport : q.uriTransport.isSome → transport = q.dnsTransport) :
    Delivers conf dns q late (resolveDomain conf dns q order transport) ↔ Answerable conf dns q late := by
  unfold resolveDomain Answerable
  by_cases hport : q.uriPort.isSome
  · rw [if_pos hport, if_pos (.inl hport)]
    exact delivers_host _ _ _
  rw [if_neg hport]
  cases hsrv : conf.useSrv with
  | false =>
    have hnaptr : conf.useNaptr = false := by
      by_contra hnaptr
      rw [conf.naptr_of_srv ((Bool.not_eq_false _).mp hnaptr)] at hsrv
      cases hsrv
    have hdisabled : q.uriPort.isSome ∨ false = false := .inr rfl
    rw [if_pos hdisabled, hnaptr]
    by_cases hparam : q.uriTransport.isSome
    · rw [if_pos hparam]
      exact delivers_host _ _ _
    · rw [if_neg hparam]
      exact delivers_withoutSrv h.scheme
  | true =>
    have henabled : ¬ (q.uriPort.isSome ∨ true = false) := not_or.mpr ⟨hport, nofun⟩
    rw [if_neg henabled]
    by_cases hparam : q.uriTransport.isSome
    · rw [if_pos hparam, if_pos hparam, htransport hparam]
      exact delivers_transport _ _ _
    rw [if_neg hparam, if_neg hparam]
    cases hnaptr : conf.useNaptr with
    | false =>
      have hnil : sipNaptrs conf dns q = [] := by
        unfold sipNaptrs
        rw [hnaptr]
        rfl
      rw [if_neg (not_not.mpr hnil)]
      have hall : Delivers conf dns q late
          (([] : List DnsQuery).map .asks ++ continueWithSrv conf dns q) ↔ _ :=
        delivers_continueWithSrv complete_nil rfl h.scheme
      refine hall.trans (or_congr_right (and_congr_right fun _ => or_congr_right ?_))
      exact or_congr_left (iff_of_false (fun h => h rfl) nofun)
    | true =>
      cases hanswer : dns.naptr q.uriHost with
      | none =>
        have hnil : sipNaptrs conf dns q = [] := by
          unfold sipNaptrs
          rw [hanswer]
          exact ite_self _
        rw [if_neg (not_not.mpr hnil)]
        refine (delivers_naptr_continueWithSrv hnaptr hnil h.scheme).trans (or_congr_right ?_)
        exact (and_iff_left (.inr (.inl rfl))).symm
      | some naptrs =>
        have hsip := sipNaptrs_eq hnaptr hanswer
        by_cases hnil : naptrs.filter (isSipNaptr conf q) = []
        · have hempty : (naptrs.filter (isSipNaptr conf q)).isEmpty = true := List.isEmpty_iff.mpr hnil
          rw [if_neg (not_not.mpr (hsip.trans hnil))]
          dsimp only
          rw [if_pos hempty]
          refine (delivers_naptr_continueWithSrv hnaptr (hsip.trans hnil) h.scheme).trans (or_congr_right ?_)
          exact (and_iff_left (.inr (.inl rfl))).symm
        · have hempty : ¬ (naptrs.filter (isSipNaptr conf q)).isEmpty = true :=
            fun h => hnil (List.isEmpty_iff.mp h)
          rw [hsip, if_pos hnil]
          dsimp only
          rw [if_neg hempty]
          exact delivers_followNaptrs order hanswer

/-- For a URI with a domain, the client is given what is owed to it exactly when the URI is not supported, or
the fiber of the query does what it owes. -/
theorem resolves_iff (conf : ProxyConf) (dns : Dns) (q : Query) (order : NaptrSort) (late : Bool)
    (hq : q.uriHostType = .domain) :
    Resolves conf dns q (doDns late (resolve conf dns q order)).1
        (doDns late (resolve conf dns q order)).2 ↔
      (Supported conf q → Answerable conf dns q late) := by
  rcases resolve_cases order hq with ⟨h, transport, htransport, hresolve⟩ | ⟨h, e, hresolve⟩
  · rw [hresolve]
    have hdelivers : Delivers conf dns q late (resolveDomain conf dns q order transport) ↔
        Answerable conf dns q late := delivers_resolveDomain order h htransport
    exact hdelivers.trans ⟨fun hanswerable _ => hanswerable, fun hanswerable => hanswerable h⟩
  · rw [hresolve]
    have herror : Delivers conf dns q true (([] : List DnsQuery).map .asks ++ [.calls (.error e)]) :=
      (delivers_error complete_nil rfl).mpr (.inl rfl)
    exact iff_of_true herror fun hsupported => absurd hsupported h

/-! ## A zone with two servers -/

/-- `naptrs.sort`, keeping the order of the records that compare as equal. -/
def stableSort : NaptrSort where
  sort l := l.mergeSort fun x y =>
    decide (x.order < y.order ∨ x.order = y.order ∧ y.preference ≤ x.preference)
  perm l := List.mergeSort_perm l _
  sorted l := by
    have hsorted : (l.mergeSort fun x y : NaptrRecord =>
        decide (x.order < y.order ∨ x.order = y.order ∧ y.preference ≤ x.preference)).Pairwise fun x y =>
          decide (x.order < y.order ∨ x.order = y.order ∧ y.preference ≤ x.preference) = true := by
      apply List.pairwise_mergeSort
      · intro x y z hxy hyz
        simp only [decide_eq_true_eq] at hxy hyz ⊢
        omega
      · intro x y
        simp only [Bool.or_eq_true, decide_eq_true_eq]
        omega
    exact hsorted.imp of_decide_eq_true

/-- The default configuration of a proxy, with all the listeners. -/
def defaultConf : ProxyConf :=
  ProxyParams.postProcess
    { useDns := true, useNaptr := true, useSrv := true, forceTransportPreference := false
      transportPreference := [.tls, .tcp, .udp], ipTypePreference := [.ipv6, .ipv4]
      choices := by decide }
    { sipTls := true, sipTcp := true, sipUdp := true, listenIpv4 := true, listenIpv6 := true }

/-- Two servers for SIP over UDP, of the same priority. -/
def twoServers : Dns where
  address ipType domain :=
    match ipType, domain with
    | .ipv4, "a.example" => some ["192.0.2.1"]
    | .ipv4, "b.example" => some ["192.0.2.2"]
    | _, _ => none
  srv domain service protocol :=
    if (domain, service, protocol) = ("example", some "sip", some "udp") then
      some [{ priority := 1, weight := 0, port := 5060, domain := "a.example" },
        { priority := 1, weight := 5, port := 5060, domain := "b.example" }]
    else none
  naptr _ := none

/-- `sip:example`, with a `;transport` or without. -/
def exampleQuery (uriTransport : Option UriTransport) : Query where
  uriScheme := .sip
  uriHost := "example"
  uriHostType := .domain
  uriPort := none
  uriTransport := uriTransport

/-- `sip:example` is resolved. -/
theorem resolves_twoServers :
    Resolves defaultConf twoServers (exampleQuery none)
      (doDns false (resolve defaultConf twoServers (exampleQuery none) stableSort)).1
      (doDns false (resolve defaultConf twoServers (exampleQuery none) stableSort)).2 :=
  (resolves_iff defaultConf twoServers (exampleQuery none) stableSort false rfl).mpr fun _ => by decide

/-- For `sip:example;transport=udp`, the client is given the array of the servers, which it does not try. -/
theorem resolves_broken_by_transport :
    (∃ es, (doDns false (resolve defaultConf twoServers (exampleQuery (some .udp)) stableSort)).2 =
        [.success (.array es)] ∧ ∀ ts, Rfc3263Succeeded (.array es) ts → ts = []) ∧
      ¬ Resolves defaultConf twoServers (exampleQuery (some .udp))
        (doDns false (resolve defaultConf twoServers (exampleQuery (some .udp)) stableSort)).1
        (doDns false (resolve defaultConf twoServers (exampleQuery (some .udp)) stableSort)).2 := by
  have hgiven : (doDns false (resolve defaultConf twoServers (exampleQuery (some .udp)) stableSort)).2 =
      [.success (.array
        [⟨0, [⟨some .udp, "192.0.2.1", .ipv4, some 5060⟩]⟩, ⟨5, [⟨some .udp, "192.0.2.2", .ipv4, some 5060⟩]⟩])] := by
    decide
  constructor
  · refine ⟨_, hgiven, ?_⟩
    rintro ts ⟨⟩
    rfl
  · intro h
    have hshape := h.shape _ (by rw [hgiven]; exact List.mem_singleton.mpr rfl)
    exact hshape

end Rfc3263

end OverSip
