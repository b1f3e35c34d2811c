import OverSip.Sip.Rfc3263Outcomes

/-!
# The transports of the targets

A target is sound if the proxy may use its transport and its IP type, its port is known, and it is reached
over TLS when the URI says so. `targets_sound_iff`: the targets that `resolve` finds are sound at any depth
of the result, unless it goes on without a transport.
-/

namespace OverSip

namespace Rfc3263

/-! ## The targets in a result -/

def SrvTargets.targets (s : SrvTargets) : List Target := s.flatten.flatMap (·.targets)

def MultiEntry.targets : MultiEntry → List Target
  | target t => [t]
  | srvTargets s => SrvTargets.targets s

def SrvResult.targets : SrvResult → List Target
  | multiTargets ts => ts
  | srvTargets s => SrvTargets.targets s

def Result.targets : Result → List Target
  | target t => [t]
  | srvTargets s => SrvTargets.targets s
  | multiTargets m => m.entries.flatMap MultiEntry.targets
  | array es => es.flatMap (·.targets)

/-- What is returned, or passed to the success callback. -/
def Resolved.results : Resolved → List Result
  | target t => [.target t]
  | error _ => []
  | started events =>
    events.filterMap fun event =>
      match event with
      | .calls (.success r) => some r
      | .calls (.error _) | .asks _ => none

section

variable (conf : ProxyConf) (q : Query)

/-- The transport may be used for the URI. -/
structure Enabled (t : Transport) : Prop where
  kind : t = .udp ∨ t = .tcp ∨ t = .tls
  enabled : t ∈ conf.transportPreference
  secure : q.uriScheme = .sips → t = .tls

structure Target.Sound (t : Target) : Prop where
  transport : ∃ tr ∈ t.transport, Enabled conf q tr
  ipType : t.ipType ∈ conf.ipTypePreference
  port : t.port ≠ none

end

variable {conf : ProxyConf} {dns : Dns} {q : Query} {transport : Option Transport} {port : Option Nat}
  {domain : String} {r : SrvResult} {t : Target} {tr : Transport}

theorem MultiTargets.targets_handOver (m : MultiTargets) :
    m.handOver.targets = m.entries.flatMap MultiEntry.targets := by
  unfold MultiTargets.handOver
  split
  · next e he =>
    rw [he, List.flatMap_singleton]
    cases e with
    | target t => rfl
    | srvTargets s => rfl
  · rfl

theorem targets_handOver_ofTargets (ts : List Target) : (MultiTargets.ofTargets ts).handOver.targets = ts := by
  rw [MultiTargets.targets_handOver]
  show (ts.map MultiEntry.target).flatMap MultiEntry.targets = ts
  rw [List.flatMap_map]
  exact List.flatMap_singleton' ts

theorem SrvResult.targets_handOver (r : SrvResult) : r.handOver.targets = r.targets := by
  cases r with
  | multiTargets ts => exact targets_handOver_ofTargets ts
  | srvTargets s =>
    show (SrvTargets.handOver s).targets = SrvTargets.targets s
    unfold SrvTargets.handOver SrvTargets.targets
    split
    · rw [List.flatten_singleton]
      rfl
    · rfl

theorem SrvResult.flatMap_entries_targets (r : SrvResult) :
    r.entries.flatMap MultiEntry.targets = r.targets := by
  cases r with
  | multiTargets ts =>
    show (ts.map MultiEntry.target).flatMap MultiEntry.targets = ts
    rw [List.flatMap_map]
    exact List.flatMap_singleton' ts
  | srvTargets s => exact List.flatMap_singleton _ _

/-- The targets of some lookups together. -/
theorem mem_targets_collect {results : List (Option SrvResult)} :
    t ∈ (MultiTargets.collect results).handOver.targets ↔ ∃ r, some r ∈ results ∧ t ∈ r.targets := by
  rw [MultiTargets.targets_handOver, (collect_spec results).1, List.flatMap_assoc, List.mem_flatMap]
  constructor
  · rintro ⟨_ | r, hr, ht⟩
    · cases ht
    · rw [Option.elim_some, r.flatMap_entries_targets] at ht
      exact ⟨r, hr, ht⟩
  · rintro ⟨r, hr, ht⟩
    refine ⟨some r, hr, ?_⟩
    rw [Option.elim_some, r.flatMap_entries_targets]
    exact ht

/-! ## The targets of a lookup -/

theorem sound_of_address {a : IpType × String} (ha : a ∈ addresses conf dns domain)
    (htr : Enabled conf q tr) (hport : port ≠ none) : (targetAt (some tr) port a).Sound conf q := by
  obtain ⟨i, hi, ha⟩ := List.mem_flatMap.mp ha
  obtain ⟨ip, _, rfl⟩ := List.mem_map.mp ha
  exact ⟨⟨tr, rfl, htr⟩, hi, hport⟩

theorem sound_resolveAAaaa {ts : List Target} (htr : Enabled conf q tr) (hport : port ≠ none)
    (h : (resolveAAaaa conf dns (some tr) domain port).1 = some ts) : ∀ t ∈ ts, t.Sound conf q := by
  rw [resolveAAaaa_eq] at h
  dsimp only at h
  split_ifs at h
  cases h
  intro t ht
  obtain ⟨a, ha, rfl⟩ := List.mem_map.mp ht
  exact sound_of_address ha htr hport

/-- The targets of an entry are those of a record. -/
theorem sound_srvTargets {srvs : List SrvRecord} (htr : Enabled conf q tr) :
    ∀ t ∈ SrvTargets.targets (srvTargets conf dns (some tr) srvs), t.Sound conf q := by
  intro t ht
  obtain ⟨e, he, ht⟩ := List.mem_flatMap.mp ht
  have he' := (perm_flatten_srvTargets conf dns (some tr) srvs).mem_iff.mp he
  obtain ⟨srv, _, rfl⟩ := List.mem_map.mp he'
  obtain ⟨a, ha, rfl⟩ := List.mem_map.mp ht
  exact sound_of_address ha htr (Option.some_ne_none _)

theorem SrvTargets.targets_result {s : SrvTargets} (h : s.result = some r) :
    r.targets = s.targets := by
  unfold SrvTargets.result at h
  split at h
  · cases h
  · next e =>
    cases h
    show e.targets = [[e]].flatten.flatMap (·.targets)
    rw [List.flatten_singleton, List.flatMap_singleton]
  · cases h
    rfl

/-- A lookup that ends with a transport for which the URI may be reached. -/
theorem sound_resolveSrv {scheme : Option UriScheme} {naptrTransport : Option Transport}
    (htr : naptrTransport.or transport = some tr) (henabled : Enabled conf q tr)
    (hport : naptrTransport = none → defaultPort transport scheme ≠ none)
    (h : (resolveSrv conf dns domain scheme transport naptrTransport).1 = some r) :
    ∀ t ∈ r.targets, t.Sound conf q := by
  unfold resolveSrv at h
  dsimp only at h
  cases hsrvs : dns.srvs (srvQuery domain scheme transport) with
  | none =>
    rw [hsrvs] at h
    dsimp only at h
    split_ifs at h with hnaptr
    have hnone : naptrTransport = none := Option.not_isSome_iff_eq_none.mp hnaptr
    rw [hnone, Option.none_or] at htr
    obtain ⟨ts, hts, rfl⟩ := Option.map_eq_some_iff.mp h
    rw [htr] at hts hport
    exact sound_resolveAAaaa henabled (hport hnone) hts
  | some srvs =>
    rw [hsrvs, htr] at h
    rw [SrvTargets.targets_result h]
    exact sound_srvTargets henabled

/-! ## The transport of the URI -/

theorem defaultPort_ne_none (transport : Option Transport)
    (hscheme : q.uriScheme = .sip ∨ q.uriScheme = .sips ∧ conf.hasSipTls = true) :
    defaultPort transport (some q.uriScheme) ≠ none := by
  unfold defaultPort
  split_ifs
  · exact Option.some_ne_none _
  · rcases hscheme with hsip | ⟨hsips, _⟩
    · rw [hsip]
      exact Option.some_ne_none _
    · rw [hsips]
      exact Option.some_ne_none _

/-- A transport other than TLS, for a URI that does not ask for TLS. -/
theorem enabled_of_sip (hsip : q.uriScheme = .sip) (hkind : tr = .udp ∨ tr = .tcp ∨ tr = .tls)
    (h : conf.transportPreference.contains tr = true) : Enabled conf q tr :=
  ⟨hkind, List.contains_iff_mem.mp h, fun hsips => nomatch hsip.symm.trans hsips⟩

theorem enabled_tls (h : conf.hasSipTls = true) : Enabled conf q .tls :=
  ⟨.inr (.inr rfl), List.contains_iff_mem.mp h, fun _ => rfl⟩

/-- When the URI determines the transport, it is one that may be used. -/
theorem enabled_selectTransport (hscheme : q.uriScheme = .sip ∨ q.uriScheme = .sips ∧ conf.hasSipTls = true)
    (h : selectTransport conf q = .ok transport)
    (hgiven : q.uriTransport.isSome ∨ q.uriHostType ≠ .domain ∨ q.uriPort.isSome) :
    ∃ tr, transport = some tr ∧ Enabled conf q tr := by
  unfold selectTransport at h
  cases hparam : q.uriTransport with
  | none =>
    rw [hparam] at h hgiven
    dsimp only at h
    rw [if_pos (hgiven.resolve_left nofun)] at h
    rcases hscheme with hsip | ⟨hsips, htls⟩
    · rw [hsip] at h
      dsimp only at h
      split_ifs at h with hudp htcp
      · cases h
        exact ⟨.udp, rfl, enabled_of_sip hsip (.inl rfl) hudp⟩
      · cases h
        exact ⟨.tcp, rfl, enabled_of_sip hsip (.inr (.inl rfl)) htcp⟩
    · rw [hsips] at h
      cases h
      exact ⟨.tls, rfl, enabled_tls htls⟩
  | some param =>
    rw [hparam] at h
    cases param with
    | udp =>
      dsimp only at h
      split_ifs at h with hudp
      cases h
      rw [Bool.and_eq_true, decide_eq_true_eq] at hudp
      exact ⟨.udp, rfl, enabled_of_sip hudp.2 (.inl rfl) hudp.1⟩
    | tcp =>
      dsimp only at h
      split_ifs at h with hsips htls htcp
      · cases h
        exact ⟨.tls, rfl, enabled_tls htls⟩
      · cases h
        have hsip : q.uriScheme = .sip := hscheme.resolve_right fun hand => hsips hand.1
        exact ⟨.tcp, rfl, enabled_of_sip hsip (.inr (.inl rfl)) htcp⟩
    | tls =>
      dsimp only at h
      split_ifs at h with htls
      cases h
      exact ⟨.tls, rfl, enabled_tls htls⟩
    | other => cases h

/-! ## What the fiber passes on -/

section

variable (conf : ProxyConf) (q : Query)

/-- All targets that are passed to the success callback are sound. -/
def AllSound (events : List QueryEvent) : Prop :=
  ∀ r ∈ (Resolved.started events).results, ∀ t ∈ r.targets, t.Sound conf q

end

variable {queries : List DnsQuery} {events : List QueryEvent} {result : Result} {e : Rfc3263Error}

theorem allSound_asks (h : AllSound conf q events) : AllSound conf q (queries.map .asks ++ events) := by
  induction queries with
  | nil => exact h
  | cons query queries ih => exact ih

theorem allSound_error : AllSound conf q [.calls (.error e)] := nofun

theorem allSound_success (h : ∀ t ∈ result.targets, t.Sound conf q) :
    AllSound conf q [.calls (.success result)] := by
  intro r hr
  obtain rfl := List.mem_singleton.mp hr
  exact h

theorem allSound_askHost (htr : Enabled conf q tr) (hport : port ≠ none) :
    AllSound conf q (askHost conf dns (some tr) domain port) := by
  unfold askHost
  dsimp only
  apply allSound_asks
  cases hts : (resolveAAaaa conf dns (some tr) domain port).1 with
  | none => exact allSound_error
  | some ts =>
    apply allSound_success
    rw [targets_handOver_ofTargets]
    exact sound_resolveAAaaa htr hport hts

/-- `continue_with_SRV` looks up the transports that may be used, and asks for the host with one of them. -/
theorem allSound_continueWithSrv
    (hscheme : q.uriScheme = .sip ∨ q.uriScheme = .sips ∧ conf.hasSipTls = true) :
    AllSound conf q (continueWithSrv conf dns q) := by
  unfold continueWithSrv
  dsimp only
  apply allSound_asks
  split_ifs
  · apply allSound_success
    intro t ht
    obtain ⟨r, hr, ht⟩ := mem_targets_collect.mp ht
    obtain ⟨x, hx, hxr⟩ := List.mem_map.mp hr
    obtain ⟨tr, htr, rfl⟩ := List.mem_map.mp hx
    obtain ⟨hmem, hsecure⟩ := List.mem_filter.mp htr
    have hkind : tr = .udp ∨ tr = .tcp ∨ tr = .tls := by
      rcases conf.choices tr hmem with htls | htcp | hudp
      · exact .inr (.inr htls)
      · exact .inr (.inl htcp)
      · exact .inl hudp
    refine sound_resolveSrv (Option.some_or) ⟨hkind, hmem, fun hsips => ?_⟩ nofun hxr t ht
    rcases hkind with rfl | rfl | rfl
    · rw [hsips] at hsecure
      cases hsecure
    · rw [hsips] at hsecure
      cases hsecure
    · rfl
  · unfold continueWithoutSrv
    rcases hscheme with hsip | ⟨hsips, htls⟩
    · simp only [hsip]
      split_ifs with hudp htcp
      · exact allSound_askHost (enabled_of_sip hsip (.inl rfl) hudp) (Option.some_ne_none _)
      · exact allSound_askHost (enabled_of_sip hsip (.inr (.inl rfl)) htcp) (Option.some_ne_none _)
      · exact allSound_error
    · simp only [hsips]
      exact allSound_askHost (enabled_tls htls) (Option.some_ne_none _)

/-- A NAPTR record that is kept is for a transport that may be used. -/
theorem enabled_of_isSipNaptr {naptr : NaptrRecord} (h : isSipNaptr conf q naptr = true) :
    ∃ tr, naptrTransport naptr = some tr ∧ Enabled conf q tr := by
  unfold isSipNaptr at h
  simp only [Bool.and_eq_true, Bool.or_eq_true, beq_iff_eq, decide_eq_true_eq] at h
  unfold naptrTransport
  rcases h.2 with (⟨htls, hservice⟩ | ⟨⟨hsip, htcp⟩, hservice⟩) | ⟨⟨hsip, hudp⟩, hservice⟩
  · exact ⟨.tls, by rw [hservice]; rfl, enabled_tls htls⟩
  · exact ⟨.tcp, by rw [hservice]; rfl, enabled_of_sip hsip (.inr (.inl rfl)) htcp⟩
  · exact ⟨.udp, by rw [hservice]; rfl, enabled_of_sip hsip (.inl rfl) hudp⟩

theorem allSound_followNaptrs (order : NaptrSort) {naptrs : List NaptrRecord}
    (h : ∀ naptr ∈ naptrs, isSipNaptr conf q naptr = true) :
    AllSound conf q (followNaptrs conf dns order naptrs) := by
  unfold followNaptrs
  apply allSound_asks
  apply allSound_success
  intro t ht
  obtain ⟨r, hr, ht⟩ := mem_targets_collect.mp ht
  obtain ⟨x, hx, hxr⟩ := List.mem_map.mp hr
  obtain ⟨naptr, hnaptr, rfl⟩ := List.mem_map.mp hx
  obtain ⟨tr, htr, henabled⟩ := enabled_of_isSipNaptr (h naptr ((mem_orderedNaptrs h).mp hnaptr))
  refine sound_resolveSrv ?_ henabled ?_ hxr t ht
  · rw [htr]
    exact Option.some_or
  · rw [htr]
    exact nofun

/-- The fiber passes on sound targets, unless it goes on without a transport. -/
theorem allSound_resolveDomain (order : NaptrSort)
    (hscheme : q.uriScheme = .sip ∨ q.uriScheme = .sips ∧ conf.hasSipTls = true)
    (hselect : selectTransport conf q = .ok transport) (hgoes : ¬ GoesOn conf q) :
    AllSound conf q (resolveDomain conf dns q order transport) := by
  unfold resolveDomain
  by_cases hport : q.uriPort.isSome
  · rw [if_pos hport]
    obtain ⟨tr, rfl, henabled⟩ := enabled_selectTransport hscheme hselect (.inr (.inr hport))
    exact allSound_askHost henabled (Option.isSome_iff_ne_none.mp hport)
  rw [if_neg hport]
  by_cases hparam : q.uriTransport.isSome
  · rw [if_pos hparam]
    obtain ⟨tr, rfl, henabled⟩ := enabled_selectTransport hscheme hselect (.inl hparam)
    have hdefault := defaultPort_ne_none (some tr) hscheme
    split_ifs
    · dsimp only
      apply allSound_asks
      cases hr : (resolveSrv conf dns q.uriHost (some q.uriScheme) (some tr) none).1 with
      | none => exact allSound_error
      | some r =>
        apply allSound_success
        rw [r.targets_handOver]
        exact sound_resolveSrv Option.none_or henabled (fun _ => hdefault) hr
    · exact allSound_askHost henabled hdefault
  rw [if_neg hparam]
  cases hnaptr : conf.useNaptr with
  | false =>
    rw [if_pos (show (!false) = true from rfl)]
    cases hsrv : conf.useSrv with
    | true => exact allSound_continueWithSrv hscheme
    | false =>
      rw [if_neg Bool.false_ne_true]
      rcases hscheme with hsip | ⟨hsips, htls⟩
      · rw [hsip]
        dsimp only
        split_ifs with hudp htcp
        · exact allSound_askHost (enabled_of_sip hsip (.inl rfl) hudp) (Option.some_ne_none _)
        · exact allSound_askHost (enabled_of_sip hsip (.inr (.inl rfl)) htcp) (Option.some_ne_none _)
        · refine absurd ⟨?_, ?_, hsip, hsrv, ?_, ?_⟩ hgoes
          · exact Option.not_isSome_iff_eq_none.mp hport
          · exact Option.not_isSome_iff_eq_none.mp hparam
          · exact Bool.eq_false_iff.mpr hudp
          · exact Bool.eq_false_iff.mpr htcp
      · rw [hsips]
        exact allSound_askHost (enabled_tls htls) (Option.some_ne_none _)
  | true =>
    rw [if_neg (show ¬ (!true) = true from nofun)]
    have hasks : ∀ events, AllSound conf q events →
        AllSound conf q (.asks (.naptr q.uriHost) :: events) := fun _ h => h
    apply hasks
    cases dns.naptr q.uriHost with
    | none => exact allSound_continueWithSrv hscheme
    | some naptrs =>
      dsimp only
      split_ifs
      · exact allSound_continueWithSrv hscheme
      · exact allSound_followNaptrs order fun naptr hmem => (List.mem_filter.mp hmem).2

/-- A target without a transport is passed on, if the host has an address. -/
theorem allSound_goesOn_iff :
    AllSound conf q (.calls (.error e) :: askHost conf dns none domain none) ↔
      addresses conf dns domain = [] := by
  have hcons : AllSound conf q (.calls (.error e) :: askHost conf dns none domain none) ↔
      AllSound conf q (askHost conf dns none domain none) := Iff.rfl
  rw [hcons]
  unfold askHost
  rw [resolveAAaaa_eq]
  dsimp only
  by_cases hnil : addresses conf dns domain = []
  · rw [if_pos hnil]
    exact iff_of_true (allSound_asks allSound_error) hnil
  · rw [if_neg hnil]
    apply iff_of_false _ hnil
    intro hsound
    obtain ⟨a, ha⟩ := List.exists_mem_of_ne_nil _ hnil
    have hresult : (MultiTargets.ofTargets
        ((addresses conf dns domain).map (targetAt none none))).handOver ∈
          (Resolved.started (((queryTypes conf).map fun i => .address i domain).map .asks ++
            [.calls (.success (MultiTargets.ofTargets
              ((addresses conf dns domain).map (targetAt none none))).handOver)])).results :=
      List.mem_filterMap.mpr ⟨_, List.mem_append_right _ (List.mem_singleton.mpr rfl), rfl⟩
    refine (hsound _ hresult (targetAt none none a) ?_).port rfl
    rw [targets_handOver_ofTargets]
    exact List.mem_map_of_mem ha

/-- **The transports of the targets.** All targets that are returned or passed on have a transport and an
IP type of the proxy and a port, and use TLS for a `sips` URI, unless for a `sip` domain without a port
and a transport the proxy has neither SRV nor UDP nor TCP, and the host has an address. -/
theorem targets_sound_iff (conf : ProxyConf) (dns : Dns) (q : Query) (order : NaptrSort) :
    (∀ r ∈ (resolve conf dns q order).results, ∀ t ∈ r.targets, t.Sound conf q) ↔
      ¬ (q.uriHostType = .domain ∧ conf.useDns = true ∧ GoesOn conf q ∧
        addresses conf dns q.uriHost ≠ []) := by
  by_cases hgoes : q.uriHostType = .domain ∧ conf.useDns = true ∧ GoesOn conf q
  · obtain ⟨hdomain, hdns, hgo⟩ := hgoes
    have hsupported : Supported conf q := by
      refine ⟨hdns, .inl hgo.2.2.1, ?_, ?_⟩
      · rw [hgo.2.1]
        exact nofun
      · rw [hgo.1]
        exact nofun
    rcases resolve_cases order hdomain with ⟨_, transport, _, hresolve⟩ | ⟨hnot, _⟩
    · rw [hresolve, resolveDomain_of_goesOn order transport hgo]
      refine allSound_goesOn_iff.trans ?_
      rw [and_iff_right hdomain, and_iff_right hdns, and_iff_right hgo, not_not]
    · exact absurd hsupported hnot
  · have hright : ¬ (q.uriHostType = .domain ∧ conf.useDns = true ∧ GoesOn conf q ∧
        addresses conf dns q.uriHost ≠ []) :=
      fun hall => hgoes ⟨hall.1, hall.2.1, hall.2.2.1⟩
    apply iff_of_true _ hright
    rcases resolve_spec conf dns q order with ⟨e, herror⟩ | ⟨hscheme, transport, hselect, hcases⟩
    · rw [herror]
      exact nofun
    · rcases hcases with ⟨hdomain, hstarted⟩ | ⟨hip, i, hi, htarget⟩
      · rw [hstarted]
        refine allSound_resolveDomain order hscheme hselect fun hgo => hgoes ⟨hdomain, ?_, hgo⟩
        by_contra hdns
        have herror : resolve conf dns q order = .error .noDns := by
          unfold resolve
          rw [if_pos]
          rw [Bool.eq_false_iff.mpr hdns, hdomain]
          rfl
        rw [herror] at hstarted
        cases hstarted
      · obtain ⟨tr, rfl, henabled⟩ := enabled_selectTransport hscheme hselect (.inr (.inl hip))
        rw [htarget]
        intro r hr t ht
        obtain rfl := List.mem_singleton.mp hr
        obtain rfl := List.mem_singleton.mp ht
        refine ⟨⟨tr, rfl, henabled⟩, hi, ?_⟩
        show q.uriPort.or (defaultPort (some tr) (some q.uriScheme)) ≠ none
        cases q.uriPort with
        | none => exact defaultPort_ne_none (some tr) hscheme
        | some port => exact Option.some_ne_none _

/-- The address of the domain `example`. -/
def oneAddress : Dns where
  address ipType domain := if ipType = .ipv4 ∧ domain = "example" then some ["192.0.2.1"] else none
  srv _ _ _ := none
  naptr _ := none

/-- The target for `sip:example` of a proxy that has TLS only, without SRV. -/
theorem targets_broken_by_noTransport :
    (resolve (tlsOnlyConf false true) oneAddress (exampleQuery none) stableSort).results =
        [.target { transport := none, ip := "192.0.2.1", ipType := .ipv4, port := none }] ∧
      ¬ ∀ r ∈ (resolve (tlsOnlyConf false true) oneAddress (exampleQuery none) stableSort).results,
        ∀ t ∈ r.targets, t.Sound (tlsOnlyConf false true) (exampleQuery none) := by
  have hresults : (resolve (tlsOnlyConf false true) oneAddress (exampleQuery none) stableSort).results =
      [.target { transport := none, ip := "192.0.2.1", ipType := .ipv4, port := none }] := by
    decide
  refine ⟨hresults, fun hsound => ?_⟩
  rw [hresults] at hsound
  exact (hsound _ (List.mem_singleton.mpr rfl) _ (List.mem_singleton.mpr rfl)).port rfl

end Rfc3263

end OverSip
