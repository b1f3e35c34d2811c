import OverSip.Sip.Rfc3263Targets

/-!
# What the resolution of names finds

One lemma for each of the functions that ask the DNS: what they return is made of exactly the addresses that
their queries find. An SRV record is found when its domain has an address; `Tryable` says when the records
of an answer lead to a target, whatever `randomize` draws.
-/

namespace OverSip

namespace Rfc3263

section

variable (conf : ProxyConf) (dns : Dns)

/-! ## Addresses -/

/-- The addresses of a domain, of the IP types of the proxy. -/
def addresses (domain : String) : List (IpType × String) :=
  conf.ipTypePreference.flatMap fun i => ((dns.address i domain).getD []).map fun ip => (i, ip)

/-- The addresses that some queries find. -/
def resolvedBy (queries : List DnsQuery) : List (IpType × String) :=
  queries.flatMap fun q =>
    match q with
    | .address i domain => ((dns.address i domain).getD []).map fun ip => (i, ip)
    | _ => []

def targetAt (transport : Option Transport) (port : Option Nat) (a : IpType × String) : Target :=
  { transport, ip := a.2, ipType := a.1, port }

/-- The IP types in the order of the queries. -/
def queryTypes : List IpType :=
  (if conf.hasSipIpv4 then [.ipv4] else []) ++ (if conf.hasSipIpv6 then [.ipv6] else [])

end

variable {conf : ProxyConf} {dns : Dns} {transport : Option Transport} {domain : String}
  {port : Option Nat} {srvs : List SrvRecord} {queries queries' : List DnsQuery}

theorem map_address_targetAt (as : List (IpType × String)) :
    (as.map (targetAt transport port)).map Target.address = as := by
  rw [List.map_map]
  exact List.map_id as

theorem resolvedBy_append :
    resolvedBy dns (queries ++ queries') = resolvedBy dns queries ++ resolvedBy dns queries' :=
  List.flatMap_append

/-- The queries are made for the IP types of the proxy. -/
theorem perm_queryTypes (conf : ProxyConf) : (queryTypes conf).Perm conf.ipTypePreference := by
  have hmem : ∀ i, i ∈ queryTypes conf ↔ i ∈ conf.ipTypePreference := by
    intro i
    unfold queryTypes ProxyConf.hasSipIpv4 ProxyConf.hasSipIpv6
    cases i <;> simp
  have hnodup : (queryTypes conf).Nodup := by
    unfold queryTypes
    split_ifs <;> decide
  exact (List.perm_ext_iff_of_nodup hnodup conf.nodup).mpr hmem

theorem resolveAAaaa_eq (conf : ProxyConf) (dns : Dns) (transport : Option Transport) (domain : String)
    (port : Option Nat) : resolveAAaaa conf dns transport domain port =
      (if addresses conf dns domain = [] then none
        else some ((addresses conf dns domain).map (targetAt transport port)),
        (queryTypes conf).map fun i => .address i domain) := by
  have hips : ∀ i ∈ conf.ipTypePreference, ips conf dns domain i = dns.address i domain := by
    intro i hi
    cases i with
    | ipv4 => exact if_pos (List.contains_iff_mem.mpr hi)
    | ipv6 => exact if_pos (List.contains_iff_mem.mpr hi)
  have htargets : (conf.ipTypePreference.flatMap fun i =>
      ((ips conf dns domain i).getD []).map fun ip => ({ transport, ip, ipType := i, port } : Target)) =
      (addresses conf dns domain).map (targetAt transport port) := by
    unfold addresses
    rw [List.map_flatMap]
    apply List.flatMap_congr
    intro i hi
    rw [hips i hi, List.map_map]
    rfl
  unfold resolveAAaaa
  dsimp only
  rw [htargets]
  refine Prod.ext ?_ ?_
  · simp only [List.isEmpty_iff, List.map_eq_nil_iff]
  · unfold queryTypes
    rw [List.map_append]
    cases conf.hasSipIpv4 <;> cases conf.hasSipIpv6 <;> rfl

/-- A host is asked for when some IP type is enabled. -/
theorem hostQueries_ne_nil_iff (conf : ProxyConf) (dns : Dns) (transport : Option Transport)
    (domain : String) (port : Option Nat) :
    (resolveAAaaa conf dns transport domain port).2 ≠ [] ↔ conf.ipTypePreference ≠ [] := by
  have hperm := perm_queryTypes conf
  rw [resolveAAaaa_eq, ne_eq, List.map_eq_nil_iff]
  constructor
  · exact fun h hnil => h (by rw [hnil, List.perm_nil] at hperm; exact hperm)
  · exact fun h hnil => h (by rw [hnil, List.nil_perm] at hperm; exact hperm)

/-- The queries for a domain find its addresses. -/
theorem perm_resolvedBy_domain (conf : ProxyConf) (dns : Dns) (domain : String) :
    (resolvedBy dns ((queryTypes conf).map fun i => .address i domain)).Perm (addresses conf dns domain) := by
  unfold resolvedBy addresses
  rw [List.flatMap_map]
  exact (perm_queryTypes conf).flatMap_right _

/-! ## SRV records -/

section

variable (conf : ProxyConf) (dns : Dns)

/-- The records whose domains have an address. -/
def found (srvs : List SrvRecord) : List SrvRecord :=
  srvs.filter fun srv => addresses conf dns srv.domain ≠ []

/-- The entry of a record that is found. -/
def entryOf (transport : Option Transport) (srv : SrvRecord) : SrvWeightTarget :=
  { weight := srv.weight
    targets := (addresses conf dns srv.domain).map (targetAt transport srv.port) }

/-- A record with a weight is found, or one that is alone with its priority. -/
def Tryable (srvs : List SrvRecord) : Prop :=
  ∃ srv ∈ found conf dns srvs, 0 < srv.weight ∨
    ((found conf dns srvs).filter fun other => other.priority = srv.priority).length = 1

/-- All records that are found have one priority. -/
def OnePriority (srvs : List SrvRecord) : Prop :=
  ∃ srv ∈ found conf dns srvs, ∀ other ∈ found conf dns srvs, other.priority = srv.priority

instance : Decidable (Tryable conf dns srvs) :=
  inferInstanceAs (Decidable (∃ srv ∈ found conf dns srvs, 0 < srv.weight ∨
    ((found conf dns srvs).filter fun other => other.priority = srv.priority).length = 1))

instance : Decidable (OnePriority conf dns srvs) :=
  inferInstanceAs (Decidable (∃ srv ∈ found conf dns srvs,
    ∀ other ∈ found conf dns srvs, other.priority = srv.priority))

end

theorem mem_found {srv : SrvRecord} :
    srv ∈ found conf dns srvs ↔ srv ∈ srvs ∧ addresses conf dns srv.domain ≠ [] := by
  unfold found
  rw [List.mem_filter, decide_eq_true_eq]

theorem Tryable.found_ne_nil (h : Tryable conf dns srvs) : found conf dns srvs ≠ [] := by
  obtain ⟨srv, hsrv, _⟩ := h
  exact List.ne_nil_of_mem hsrv

/-- The items that the loop of `resolve_SRV` adds. -/
theorem items_eq (conf : ProxyConf) (dns : Dns) (transport : Option Transport) (srv : SrvRecord) :
    ((resolveAAaaa conf dns transport srv.domain srv.port).1.map (SrvWeightTarget.mk srv.weight)).toList =
      if addresses conf dns srv.domain = [] then [] else [entryOf conf dns transport srv] := by
  rw [resolveAAaaa_eq]
  dsimp only
  split_ifs <;> rfl

/-- The entries of some records. -/
theorem flatMap_items (l : List SrvRecord) :
    (l.flatMap fun srv => if addresses conf dns srv.domain = [] then []
      else [entryOf conf dns transport srv]) = (found conf dns l).map (entryOf conf dns transport) := by
  induction l with
  | nil => rfl
  | cons srv l ih =>
    have hfound : found conf dns (srv :: l) =
        (if addresses conf dns srv.domain = [] then [] else [srv]) ++ found conf dns l := by
      unfold found
      rw [List.filter_cons]
      split_ifs with h₁ h₂ h₂
      · exact absurd h₂ (of_decide_eq_true h₁)
      · rfl
      · rfl
      · exact absurd (decide_eq_true h₂) h₁
    rw [List.flatMap_cons, hfound, List.map_append, ih]
    split_ifs <;> rfl

theorem found_filter (p : SrvRecord → Bool) :
    found conf dns (srvs.filter p) = (found conf dns srvs).filter p :=
  List.filter_comm _ _ _

theorem srvTargets_eq (conf : ProxyConf) (dns : Dns) (transport : Option Transport)
    (srvs : List SrvRecord) : srvTargets conf dns transport srvs =
      (Buckets.fill (srvs.map fun srv => (srv.priority,
        if addresses conf dns srv.domain = [] then [] else [entryOf conf dns transport srv]))).compact := by
  unfold srvTargets
  simp only [items_eq]

/-- The entries of a priority. -/
def entriesAt (conf : ProxyConf) (dns : Dns) (transport : Option Transport) (srvs : List SrvRecord)
    (priority : Nat) : List SrvWeightTarget :=
  ((found conf dns srvs).filter fun srv => srv.priority = priority).map (entryOf conf dns transport)

theorem bucket_srvs (priority : Nat) :
    (Buckets.fill (srvs.map fun srv => (srv.priority,
      if addresses conf dns srv.domain = [] then [] else [entryOf conf dns transport srv]))).bucket priority =
      entriesAt conf dns transport srvs priority := by
  unfold entriesAt
  rw [Buckets.bucket_fill, List.filter_map, List.flatMap_map, ← found_filter, ← flatMap_items]
  rfl

theorem mem_srvTargets {g : List SrvWeightTarget} : g ∈ srvTargets conf dns transport srvs ↔
    ∃ srv ∈ found conf dns srvs, entriesAt conf dns transport srvs srv.priority = g := by
  rw [srvTargets_eq, Buckets.mem_compact]
  simp only [bucket_srvs]
  constructor
  · rintro ⟨hne, priority, rfl⟩
    obtain ⟨e, he⟩ := List.exists_mem_of_ne_nil _ hne
    obtain ⟨srv, hsrv, _⟩ := List.mem_map.mp he
    rw [List.mem_filter, decide_eq_true_eq] at hsrv
    exact ⟨srv, hsrv.1, by rw [hsrv.2]⟩
  · rintro ⟨srv, hsrv, rfl⟩
    refine ⟨List.ne_nil_of_mem (List.mem_map_of_mem (List.mem_filter.mpr ⟨hsrv, ?_⟩)), srv.priority, rfl⟩
    exact decide_eq_true rfl

/-- Every record that is found has its entry. -/
theorem perm_flatten_srvTargets (conf : ProxyConf) (dns : Dns) (transport : Option Transport)
    (srvs : List SrvRecord) : (srvTargets conf dns transport srvs).flatten.Perm
    ((found conf dns srvs).map (entryOf conf dns transport)) := by
  rw [srvTargets_eq, ← flatMap_items]
  have hperm := Buckets.perm_flatten_compact (srvs.map fun srv => (srv.priority,
    if addresses conf dns srv.domain = [] then [] else [entryOf conf dns transport srv]))
  rw [List.flatMap_map] at hperm
  exact hperm

theorem length_srvTargets_eq_one_iff :
    (srvTargets conf dns transport srvs).length = 1 ↔ OnePriority conf dns srvs := by
  have hne : ∀ p, entriesAt conf dns transport srvs p ≠ [] ↔
      ∃ srv ∈ found conf dns srvs, srv.priority = p := by
    intro p
    unfold entriesAt
    rw [ne_eq, List.map_eq_nil_iff, List.filter_eq_nil_iff]
    push Not
    simp only [decide_eq_true_eq]
  rw [srvTargets_eq, Buckets.length_compact_eq_one_iff]
  simp only [bucket_srvs, hne]
  constructor
  · rintro ⟨p, ⟨srv, hsrv, rfl⟩, hall⟩
    exact ⟨srv, hsrv, fun other hother => hall _ ⟨other, hother, rfl⟩⟩
  · rintro ⟨srv, hsrv, hall⟩
    refine ⟨srv.priority, ⟨srv, hsrv, rfl⟩, ?_⟩
    rintro p ⟨other, hother, rfl⟩
    exact hall other hother

theorem proper_srvTargets (conf : ProxyConf) (dns : Dns) (transport : Option Transport)
    (srvs : List SrvRecord) : SrvTargets.Proper (srvTargets conf dns transport srvs) := by
  intro g hg
  have hg' := hg
  rw [srvTargets_eq, Buckets.mem_compact] at hg'
  refine ⟨hg'.1, fun e he => ?_⟩
  obtain ⟨srv, _, rfl⟩ := mem_srvTargets.mp hg
  obtain ⟨other, hother, rfl⟩ := List.mem_map.mp he
  have haddresses := (mem_found.mp (List.mem_of_mem_filter hother)).2
  exact fun hnil => haddresses (List.map_eq_nil_iff.mp hnil)

theorem hasTarget_srvTargets :
    SrvTargets.HasTarget (srvTargets conf dns transport srvs) ↔ Tryable conf dns srvs := by
  constructor
  · rintro ⟨g, hg, hlength | ⟨e, he, hweight⟩⟩
    · obtain ⟨srv, hsrv, rfl⟩ := mem_srvTargets.mp hg
      refine ⟨srv, hsrv, .inr ?_⟩
      unfold entriesAt at hlength
      rw [List.length_map] at hlength
      exact hlength
    · obtain ⟨srv, hsrv, rfl⟩ := mem_srvTargets.mp hg
      obtain ⟨other, hother, rfl⟩ := List.mem_map.mp he
      exact ⟨other, List.mem_of_mem_filter hother, .inl hweight⟩
  · rintro ⟨srv, hsrv, hweight | hlength⟩
    · have hmem : entryOf conf dns transport srv ∈ entriesAt conf dns transport srvs srv.priority :=
        List.mem_map_of_mem (List.mem_filter.mpr ⟨hsrv, decide_eq_true rfl⟩)
      exact ⟨_, mem_srvTargets.mpr ⟨srv, hsrv, rfl⟩, .inr ⟨_, hmem, hweight⟩⟩
    · refine ⟨_, mem_srvTargets.mpr ⟨srv, hsrv, rfl⟩, .inl ?_⟩
      unfold entriesAt
      rw [List.length_map]
      exact hlength

/-! ## `resolve_SRV` -/

/-- The addresses of the entries are those of the records that are found. -/
theorem perm_srvAddresses (conf : ProxyConf) (dns : Dns) (transport : Option Transport)
    (srvs : List SrvRecord) : (srvAddresses (srvTargets conf dns transport srvs)).Perm
      (resolvedBy dns (srvs.flatMap fun srv => (resolveAAaaa conf dns transport srv.domain srv.port).2)) := by
  have hrecords : (srvAddresses (srvTargets conf dns transport srvs)).Perm
      (srvs.flatMap fun srv => addresses conf dns srv.domain) := by
    refine ((perm_flatten_srvTargets conf dns transport srvs).flatMap_right _).trans ?_
    rw [← flatMap_items, List.flatMap_assoc]
    apply List.Perm.flatMap_left
    intro srv _
    split_ifs with hnil
    · rw [hnil]
      exact List.Perm.refl _
    · rw [List.flatMap_singleton]
      unfold entryOf
      rw [map_address_targetAt]
  refine hrecords.trans ?_
  unfold resolvedBy
  rw [List.flatMap_assoc]
  apply List.Perm.flatMap_left
  intro srv _
  rw [resolveAAaaa_eq]
  exact (perm_resolvedBy_domain conf dns srv.domain).symm

theorem resolvedBy_srvQuery (scheme : Option UriScheme) :
    resolvedBy dns (srvQuery domain scheme transport :: queries) = resolvedBy dns queries := rfl

/-- What `resolve_SRV` returns is made of what its queries find. -/
theorem resolveSrv_spec (conf : ProxyConf) (dns : Dns) (domain : String) (scheme : Option UriScheme)
    (transport naptrTransport : Option Transport) :
    (∀ r, (resolveSrv conf dns domain scheme transport naptrTransport).1 = some r → r.Proper) ∧
      ((resolveSrv conf dns domain scheme transport naptrTransport).1.elim [] SrvResult.addresses).Perm
        (resolvedBy dns (resolveSrv conf dns domain scheme transport naptrTransport).2) := by
  unfold resolveSrv
  dsimp only
  cases hsrvs : dns.srvs (srvQuery domain scheme transport) with
  | none =>
    dsimp only
    split_ifs with hnaptr
    · exact ⟨nofun, List.Perm.refl _⟩
    · rw [resolveAAaaa_eq]
      dsimp only
      rw [resolvedBy_srvQuery]
      split_ifs with hnil
      · refine ⟨nofun, ?_⟩
        rw [← hnil]
        exact (perm_resolvedBy_domain conf dns domain).symm
      · refine ⟨?_, ?_⟩
        · intro r hr
          cases hr
          exact fun hmap => hnil (List.map_eq_nil_iff.mp hmap)
        · show (((addresses conf dns domain).map _).map Target.address).Perm _
          rw [map_address_targetAt]
          exact (perm_resolvedBy_domain conf dns domain).symm
  | some srvs =>
    obtain ⟨hproper, haddresses, _⟩ := SrvTargets.result_spec
      (proper_srvTargets conf dns (naptrTransport.or transport) srvs)
    refine ⟨hproper, ?_⟩
    rw [resolvedBy_srvQuery, haddresses]
    exact perm_srvAddresses conf dns _ srvs

/-- The result for the records of an answer. -/
theorem resolveSrv_of_some {scheme : Option UriScheme} {naptrTransport : Option Transport}
    (h : dns.srvs (srvQuery domain scheme transport) = some srvs) :
    (resolveSrv conf dns domain scheme transport naptrTransport).1 =
      (srvTargets conf dns (naptrTransport.or transport) srvs).result := by
  unfold resolveSrv
  dsimp only
  rw [h]

/-- Without an answer, a lookup for a transport or a NAPTR record finds nothing. -/
theorem resolveSrv_of_none {scheme : Option UriScheme} {t : Transport}
    (h : dns.srvs (srvQuery domain scheme transport) = none) :
    (resolveSrv conf dns domain scheme transport (some t)).1 = none := by
  unfold resolveSrv
  dsimp only
  rw [h]
  rfl

theorem srvTargets_eq_nil_iff : srvTargets conf dns transport srvs = [] ↔ found conf dns srvs = [] := by
  have hperm := perm_flatten_srvTargets conf dns transport srvs
  constructor
  · intro hnil
    rw [hnil, List.flatten_nil, List.nil_perm, List.map_eq_nil_iff] at hperm
    exact hperm
  · intro hnil
    by_contra hne
    obtain ⟨g, hg⟩ := List.exists_mem_of_ne_nil _ hne
    obtain ⟨srv, hsrv, _⟩ := mem_srvTargets.mp hg
    rw [hnil] at hsrv
    cases hsrv

end Rfc3263

end OverSip
