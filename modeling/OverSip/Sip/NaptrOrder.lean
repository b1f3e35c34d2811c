import OverSip.Sip.Rfc3263Results

/-!
# The order of NAPTR records

The targets that the enabled NAPTR records lead to are handed over record by record. With
`force_transport_preference` the records are grouped by transport. Without it they are sorted by order, but
the comparison of the preferences is `y.preference <=> x.preference`: among records of one order the
greatest preference comes first.
-/

namespace OverSip

namespace Rfc3263

section

variable (conf : ProxyConf) (dns : Dns) (q : Query)

/-- The record has the flag `s`, and its service is enabled for the scheme of the URI. -/
def EnabledNaptr (naptr : NaptrRecord) : Prop :=
  naptr.flags.toLower = "s" ∧ ∃ t ∈ conf.transportPreference,
    transportToService t = some naptr.service.toUpper ∧ (q.uriScheme = .sip ∨ t = .tls)

theorem isSipNaptr_iff (naptr : NaptrRecord) :
    isSipNaptr conf q naptr = true ↔ EnabledNaptr conf q naptr := by
  unfold isSipNaptr EnabledNaptr
  simp only [Bool.and_eq_true, Bool.or_eq_true, beq_iff_eq, decide_eq_true_eq]
  apply and_congr_right
  intro _
  constructor
  · rintro ((⟨htls, hservice⟩ | ⟨⟨hsip, htcp⟩, hservice⟩) | ⟨⟨hsip, hudp⟩, hservice⟩)
    · exact ⟨.tls, List.contains_iff_mem.mp htls, by rw [hservice]; rfl, .inr rfl⟩
    · exact ⟨.tcp, List.contains_iff_mem.mp htcp, by rw [hservice]; rfl, .inl hsip⟩
    · exact ⟨.udp, List.contains_iff_mem.mp hudp, by rw [hservice]; rfl, .inl hsip⟩
  · rintro ⟨t, ht, hservice, hscheme⟩
    have hcontains := List.contains_iff_mem.mpr ht
    rcases conf.choices t ht with rfl | rfl | rfl
    · exact .inl (.inl ⟨hcontains, (Option.some.inj hservice).symm⟩)
    · exact .inl (.inr ⟨⟨hscheme.resolve_right nofun, hcontains⟩, (Option.some.inj hservice).symm⟩)
    · exact .inr ⟨⟨hscheme.resolve_right nofun, hcontains⟩, (Option.some.inj hservice).symm⟩

instance : DecidablePred (EnabledNaptr conf q) := fun naptr =>
  decidable_of_iff _ (isSipNaptr_iff conf q naptr)

/-- What a record leads to. -/
def naptrResult (naptr : NaptrRecord) : Option SrvResult :=
  (resolveSrv conf dns naptr.replacement none none (naptrTransport naptr)).1

/-- The records that lead to targets, with what they lead to. -/
def contributions (naptrs : List NaptrRecord) : List (NaptrRecord × SrvResult) :=
  naptrs.filterMap fun naptr => (naptrResult conf dns naptr).map (naptr, ·)

/-- The place of the transport of a record in the preferences. -/
def transportPlace (naptr : NaptrRecord) : Nat :=
  (conf.transportPreference.map transportToService).idxOf (some naptr.service.toUpper)

/-- The targets are handed over record by record in the order `followed`, which has the enabled records and
is the order that is asked for. -/
structure InNaptrOrder (naptrs followed : List NaptrRecord) (events : List QueryEvent) : Prop where
  perm : followed.Perm (naptrs.filter (EnabledNaptr conf q))
  handed : followed ≠ [] → ∃ queries : List DnsQuery, events = queries.map .asks ++ [.calls (.success
    (MultiTargets.collect ((contributions conf dns followed).map fun c => some c.2)).handOver)]
  sorted : conf.forceTransportPreference = false →
    (contributions conf dns followed).Pairwise fun x y =>
      x.1.order < y.1.order ∨ x.1.order = y.1.order ∧ x.1.preference ≤ y.1.preference
  grouped : conf.forceTransportPreference = true →
    (contributions conf dns followed).Pairwise fun x y => transportPlace conf x.1 ≤ transportPlace conf y.1

variable {conf dns q}

theorem filter_isSipNaptr (naptrs : List NaptrRecord) :
    naptrs.filter (isSipNaptr conf q) = naptrs.filter (EnabledNaptr conf q) := by
  apply List.filter_congr
  intro naptr _
  rw [Bool.eq_iff_iff, isSipNaptr_iff, decide_eq_true_iff]

/-- A lookup without a result adds nothing. -/
theorem collect_contributions (naptrs : List NaptrRecord) :
    MultiTargets.collect ((contributions conf dns naptrs).map fun c => some c.2) =
      MultiTargets.collect (naptrs.map (naptrResult conf dns)) := by
  unfold MultiTargets.collect contributions
  rw [List.foldl_map, List.foldl_filterMap, List.foldl_map]
  congr 1
  funext m naptr
  cases naptrResult conf dns naptr <;> rfl

theorem nodup_services (h : conf.transportPreference.Nodup) :
    (conf.transportPreference.map transportToService).Nodup := by
  apply List.Nodup.map_on _ h
  intro t ht t' ht' heq
  rcases conf.choices t ht with rfl | rfl | rfl <;> rcases conf.choices t' ht' with rfl | rfl | rfl <;>
    first
      | rfl
      | exact absurd heq (by decide)

theorem orderedNaptrs_of_force (hforce : conf.forceTransportPreference = true) (order : NaptrSort)
    (naptrs : List NaptrRecord) : orderedNaptrs conf order naptrs =
      groupByKeys (fun naptr => some naptr.service.toUpper)
        (conf.transportPreference.map transportToService) naptrs := by
  unfold orderedNaptrs groupByKeys
  rw [if_pos hforce, List.flatMap_map]

/-- The enabled records are followed, each once. -/
theorem orderedNaptrs_perm (hnodup : conf.transportPreference.Nodup) (order : NaptrSort)
    {naptrs : List NaptrRecord} (h : ∀ naptr ∈ naptrs, EnabledNaptr conf q naptr) :
    (orderedNaptrs conf order naptrs).Perm naptrs := by
  by_cases hforce : conf.forceTransportPreference = true
  · rw [orderedNaptrs_of_force hforce]
    refine (groupByKeys_perm (nodup_services hnodup) naptrs).trans (List.Perm.of_eq ?_)
    rw [List.filter_eq_self]
    intro naptr hnaptr
    obtain ⟨_, t, ht, hservice, _⟩ := h naptr hnaptr
    rw [List.contains_iff_mem, ← hservice]
    exact List.mem_map_of_mem ht
  · unfold orderedNaptrs
    rw [if_neg hforce]
    exact order.perm naptrs

theorem mem_contributions {naptrs : List NaptrRecord} {c : NaptrRecord × SrvResult} :
    c ∈ contributions conf dns naptrs ↔ c.1 ∈ naptrs ∧ naptrResult conf dns c.1 = some c.2 := by
  unfold contributions
  rw [List.mem_filterMap]
  constructor
  · rintro ⟨naptr, hnaptr, hc⟩
    obtain ⟨r, hr, rfl⟩ := Option.map_eq_some_iff.mp hc
    exact ⟨hnaptr, hr⟩
  · rintro ⟨hnaptr, hr⟩
    refine ⟨c.1, hnaptr, ?_⟩
    rw [hr]
    rfl

/-- A relation of records that are followed holds of those that lead to targets. -/
theorem pairwise_contributions (R : NaptrRecord → NaptrRecord → Prop) {naptrs : List NaptrRecord}
    (h : naptrs.Pairwise R) : (contributions conf dns naptrs).Pairwise fun x y => R x.1 y.1 := by
  unfold contributions
  rw [List.pairwise_filterMap]
  apply h.imp
  intro x y hxy c hc c' hc'
  obtain ⟨_, _, rfl⟩ := Option.map_eq_some_iff.mp hc
  obtain ⟨_, _, rfl⟩ := Option.map_eq_some_iff.mp hc'
  exact hxy

variable (conf dns q)

/-- Enabled records of one order that lead to targets have one preference. -/
def OnePreference (naptrs : List NaptrRecord) : Prop :=
  ∀ x ∈ naptrs, ∀ y ∈ naptrs, EnabledNaptr conf q x → EnabledNaptr conf q y →
    (naptrResult conf dns x).isSome → (naptrResult conf dns y).isSome →
      x.order = y.order → x.preference = y.preference

variable {conf dns q}

/-- What is sorted by descending preference is sorted by ascending preference when it has one preference. -/
theorem sorted_iff {cs : List (NaptrRecord × SrvResult)} (h : cs.Pairwise fun x y =>
      x.1.order < y.1.order ∨ x.1.order = y.1.order ∧ y.1.preference ≤ x.1.preference) :
    (cs.Pairwise fun x y => x.1.order < y.1.order ∨ x.1.order = y.1.order ∧ x.1.preference ≤ y.1.preference) ↔
      ∀ x ∈ cs, ∀ y ∈ cs, x.1.order = y.1.order → x.1.preference = y.1.preference := by
  constructor
  · intro hsorted
    have hboth : cs.Pairwise fun x y => x.1.order = y.1.order → x.1.preference = y.1.preference := by
      apply (h.and hsorted).imp
      intro x y hxy heq
      omega
    intro x hx y hy
    apply hboth.forall_of_forall_of_flip (fun _ _ _ => rfl) _ hx hy
    exact hboth.imp fun hxy heq => (hxy heq.symm).symm
  · intro hone
    apply h.imp_of_mem
    intro x y hx hy hxy
    have heq := hone x hx y hy
    omega

/-- The answer to the NAPTR query is followed. -/
theorem resolveDomain_of_naptrs {naptrs : List NaptrRecord} (hport : q.uriPort = none)
    (htransport : q.uriTransport = none) (hnaptr : conf.useNaptr = true)
    (hanswer : dns.naptr q.uriHost = some naptrs) (order : NaptrSort) (transport : Option Transport)
    (hne : naptrs.filter (EnabledNaptr conf q) ≠ []) :
    resolveDomain conf dns q order transport =
      .asks (.naptr q.uriHost) :: followNaptrs conf dns order (naptrs.filter (EnabledNaptr conf q)) := by
  have hempty : (naptrs.filter (isSipNaptr conf q)).isEmpty = false := by
    rw [filter_isSipNaptr, List.isEmpty_eq_false_iff]
    exact hne
  unfold resolveDomain
  rw [hport, htransport, hnaptr, hanswer]
  dsimp only [Option.isSome_none, Bool.not_true]
  rw [hempty, filter_isSipNaptr]
  rfl

/-- The records are handed over in the order in which they are followed, which is sorted up to the
preferences. -/
theorem inNaptrOrder_iff_onePreference {naptrs : List NaptrRecord}
    (hnodup : conf.transportPreference.Nodup) (hport : q.uriPort = none)
    (htransport : q.uriTransport = none) (hnaptr : conf.useNaptr = true)
    (hanswer : dns.naptr q.uriHost = some naptrs) (order : NaptrSort) (transport : Option Transport) :
    InNaptrOrder conf dns q naptrs (orderedNaptrs conf order (naptrs.filter (isSipNaptr conf q)))
        (resolveDomain conf dns q order transport) ↔
      conf.forceTransportPreference = true ∨ OnePreference conf dns q naptrs := by
  rw [filter_isSipNaptr]
  have henabled : ∀ naptr ∈ naptrs.filter (EnabledNaptr conf q), EnabledNaptr conf q naptr :=
    fun _ h => of_decide_eq_true (List.mem_filter.mp h).2
  have hperm := orderedNaptrs_perm hnodup order henabled
  obtain ⟨followed, hfollowed⟩ : ∃ followed, followed =
    orderedNaptrs conf order (naptrs.filter (EnabledNaptr conf q)) := ⟨_, rfl⟩
  rw [← hfollowed] at hperm ⊢
  -- a contribution is one of an enabled record
  have hmem : ∀ c, c ∈ contributions conf dns followed ↔
      c.1 ∈ naptrs ∧ EnabledNaptr conf q c.1 ∧ naptrResult conf dns c.1 = some c.2 := by
    intro c
    rw [mem_contributions, hperm.mem_iff, List.mem_filter, decide_eq_true_iff, and_assoc]
  have hone : OnePreference conf dns q naptrs ↔ ∀ x ∈ contributions conf dns followed,
      ∀ y ∈ contributions conf dns followed, x.1.order = y.1.order → x.1.preference = y.1.preference := by
    constructor
    · intro h x hx y hy
      obtain ⟨hx, hxe, hxr⟩ := (hmem x).mp hx
      obtain ⟨hy, hye, hyr⟩ := (hmem y).mp hy
      exact h x.1 hx y.1 hy hxe hye (Option.isSome_of_eq_some hxr) (Option.isSome_of_eq_some hyr)
    · intro h x hx y hy hxe hye hxr hyr
      obtain ⟨r, hr⟩ := Option.isSome_iff_exists.mp hxr
      obtain ⟨r', hr'⟩ := Option.isSome_iff_exists.mp hyr
      exact h (x, r) ((hmem _).mpr ⟨hx, hxe, hr⟩) (y, r') ((hmem _).mpr ⟨hy, hye, hr'⟩)
  have hdescending : conf.forceTransportPreference = false →
      (contributions conf dns followed).Pairwise fun x y =>
        x.1.order < y.1.order ∨ x.1.order = y.1.order ∧ y.1.preference ≤ x.1.preference := by
    intro hforce
    apply pairwise_contributions fun x y =>
      x.order < y.order ∨ x.order = y.order ∧ y.preference ≤ x.preference
    rw [hfollowed]
    unfold orderedNaptrs
    rw [if_neg (by rw [hforce]; exact Bool.false_ne_true)]
    exact order.sorted _
  constructor
  · intro h
    by_cases hforce : conf.forceTransportPreference = true
    · exact .inl hforce
    · have hfalse := Bool.eq_false_iff.mpr hforce
      exact .inr (hone.mpr ((sorted_iff (hdescending hfalse)).mp (h.sorted hfalse)))
  · intro h
    constructor
    · exact hperm
    · intro hne
      have hne' : naptrs.filter (EnabledNaptr conf q) ≠ [] := by
        rintro hnil
        rw [hnil] at hperm
        exact hne hperm.eq_nil
      rw [resolveDomain_of_naptrs hport htransport hnaptr hanswer order transport hne',
        collect_contributions, hfollowed]
      refine ⟨.naptr q.uriHost ::
        (naptrLookups conf dns order (naptrs.filter (EnabledNaptr conf q))).flatMap (·.2), ?_⟩
      unfold followNaptrs
      rw [List.map_cons, List.cons_append]
      congr 6
      unfold naptrLookups
      rw [List.map_map]
      rfl
    · intro hforce
      apply (sorted_iff (hdescending hforce)).mpr
      apply hone.mp
      exact h.resolve_left (by rw [hforce]; exact Bool.false_ne_true)
    · intro hforce
      apply pairwise_contributions fun x y => transportPlace conf x ≤ transportPlace conf y
      rw [hfollowed, orderedNaptrs_of_force hforce]
      exact pairwise_groupByKeys (nodup_services hnodup) _

end

theorem nodup_postProcess (p : ProxyParams) (sip : SipConf) :
    (p.postProcess sip).transportPreference.Nodup :=
  (nodup_eraseDups _).filter _

theorem naptr_order_iff (p : ProxyParams) (sip : SipConf) (dns : Dns) (q : Query) (order : NaptrSort)
    (transport : Option Transport) {naptrs : List NaptrRecord} (hport : q.uriPort = none)
    (htransport : q.uriTransport = none) (hnaptr : (p.postProcess sip).useNaptr = true)
    (hanswer : dns.naptr q.uriHost = some naptrs) :
    InNaptrOrder (p.postProcess sip) dns q naptrs
        (orderedNaptrs (p.postProcess sip) order (naptrs.filter (isSipNaptr (p.postProcess sip) q)))
        (resolveDomain (p.postProcess sip) dns q order transport) ↔
      p.forceTransportPreference = true ∨ OnePreference (p.postProcess sip) dns q naptrs :=
  inNaptrOrder_iff_onePreference (nodup_postProcess p sip) hport htransport hnaptr hanswer order transport

/-! ## A zone with two NAPTR records -/

/-- Two records of one order, each for a server of its own. -/
def naptrRecords : List NaptrRecord :=
  [{ order := 1, preference := 1, flags := "s", service := "SIP+D2U", replacement := "_sip._udp.a.example" },
    { order := 1, preference := 2, flags := "s", service := "SIP+D2U", replacement := "_sip._udp.b.example" }]

def naptrZone : Dns where
  address ipType domain :=
    match ipType, domain with
    | .ipv4, "a.example" => some ["192.0.2.1"]
    | .ipv4, "b.example" => some ["192.0.2.2"]
    | _, _ => none
  srv domain _ _ :=
    match domain with
    | "_sip._udp.a.example" => some [{ priority := 1, weight := 0, port := 5060, domain := "a.example" }]
    | "_sip._udp.b.example" => some [{ priority := 1, weight := 0, port := 5060, domain := "b.example" }]
    | _ => none
  naptr _ := some naptrRecords

theorem naptrParams_choices :
    ∀ t ∈ ([.tls, .tcp, .udp] : List Transport), t = .tls ∨ t = .tcp ∨ t = .udp := by
  decide

/-- The default configuration of a proxy, as it is read, apart from `force_transport_preference`. -/
def naptrParams (force : Bool) : ProxyParams where
  useDns := true
  useNaptr := true
  useSrv := true
  forceTransportPreference := force
  transportPreference := [.tls, .tcp, .udp]
  ipTypePreference := [.ipv6, .ipv4]
  choices := naptrParams_choices

def allListeners : SipConf where
  sipTls := true
  sipTcp := true
  sipUdp := true
  listenIpv4 := true
  listenIpv6 := true

/-- The records are grouped. -/
theorem naptr_order_forced :
    InNaptrOrder ((naptrParams true).postProcess allListeners) naptrZone (exampleQuery none) naptrRecords
      (orderedNaptrs ((naptrParams true).postProcess allListeners) stableSort
        (naptrRecords.filter (isSipNaptr ((naptrParams true).postProcess allListeners) (exampleQuery none))))
      (resolveDomain ((naptrParams true).postProcess allListeners) naptrZone (exampleQuery none) stableSort
        none) :=
  (naptr_order_iff (naptrParams true) allListeners naptrZone (exampleQuery none) stableSort none rfl rfl rfl
    rfl).mpr (.inl rfl)

/-- The record with the greater preference is followed first. -/
theorem naptr_order_reversed :
    ¬InNaptrOrder ((naptrParams false).postProcess allListeners) naptrZone (exampleQuery none) naptrRecords
      (orderedNaptrs ((naptrParams false).postProcess allListeners) stableSort
        (naptrRecords.filter (isSipNaptr ((naptrParams false).postProcess allListeners) (exampleQuery none))))
      (resolveDomain ((naptrParams false).postProcess allListeners) naptrZone (exampleQuery none) stableSort
        none) := by
  intro h
  have hone := (inNaptrOrder_iff_onePreference (nodup_postProcess _ _) rfl rfl rfl rfl stableSort none).mp h
  have hpreference := hone.resolve_left Bool.false_ne_true _ List.mem_cons_self _
    (List.mem_cons_of_mem _ List.mem_cons_self) (by decide +kernel) (by decide +kernel) (by decide +kernel)
    (by decide) rfl
  exact absurd hpreference (by decide)

end Rfc3263

end OverSip
