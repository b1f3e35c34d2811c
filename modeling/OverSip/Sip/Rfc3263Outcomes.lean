import OverSip.Sip.Rfc3263Results

/-!
# The outcome of a routing

`do_dns` has an outcome for its client when `rfc3263_succeeded` or `rfc3263_failed` is called. A query
comes to one call at the end of its DNS queries, which reaches the client if there has been a DNS query, or
if the fiber had to wait for the pool. One branch of `resolve` calls the error block and goes on.
`oneOutcome_iff` says for which URIs, configurations and waits there is exactly one outcome.
-/

namespace OverSip

namespace Rfc3263

section

variable (conf : ProxyConf) (q : Query) (late : Bool)

/-- `resolve` calls the error block, and goes on without a transport. -/
def GoesOn : Prop :=
  q.uriPort = none ∧ q.uriTransport = none ∧ q.uriScheme = .sip ∧ conf.useSrv = false ∧
    conf.hasSipUdp = false ∧ conf.hasSipTcp = false

instance : Decidable (GoesOn conf q) := by
  unfold GoesOn
  infer_instance

/-- A DNS query is made before the client is called. -/
def Queries : Prop :=
  if q.uriPort.isSome ∨ conf.useSrv = false then conf.ipTypePreference ≠ []
  else q.uriTransport.isSome ∨ conf.useNaptr = true ∨ srvTransports conf q ≠ []

/-- When the fiber of a query has one outcome: its only call reaches the client, or the first of its two
calls does not. -/
def OneCall : Prop :=
  if GoesOn conf q then late = false ∧ Queries conf q else late = true ∨ Queries conf q

instance : Decidable (Queries conf q) := by
  unfold Queries
  infer_instance

instance : Decidable (OneCall conf q late) := by
  unfold OneCall
  infer_instance

end

variable {conf : ProxyConf} {dns : Dns} {q : Query} {late : Bool} {queries : List DnsQuery}
  {events : List QueryEvent}

/-! ## Events that end with a call -/

/-- Some queries and one call behind them. `p` says that there are queries. -/
def EndsWithCall (events : List QueryEvent) (p : Prop) : Prop :=
  ∃ (queries : List DnsQuery) (h : Handed),
    events = queries.map .asks ++ [.calls h] ∧ (queries ≠ [] ↔ p)

theorem EndsWithCall.length_handed {p : Prop} (h : EndsWithCall events p) :
    (handed late events).length = 1 ↔ late = true ∨ p := by
  obtain ⟨queries, h, rfl, hqueries⟩ := h
  rw [handed_calls, ← hqueries]
  split_ifs with hready
  · exact iff_of_true rfl hready
  · exact iff_of_false nofun hready

/-- Behind a query, the call always reaches the client. -/
theorem EndsWithCall.asks {p : Prop} (h : EndsWithCall events p) (query : DnsQuery) :
    EndsWithCall (.asks query :: events) True := by
  obtain ⟨queries, h, rfl, _⟩ := h
  exact ⟨query :: queries, h, rfl, iff_of_true (List.cons_ne_nil _ _) trivial⟩

theorem EndsWithCall.congr {p p' : Prop} (h : EndsWithCall events p) (hp : p ↔ p') :
    EndsWithCall events p' := by
  obtain ⟨queries, h, heq, hqueries⟩ := h
  exact ⟨queries, h, heq, hqueries.trans hp⟩

theorem endsWithCall_askHost (conf : ProxyConf) (dns : Dns) (transport : Option Transport) (host : String)
    (port : Option Nat) :
    EndsWithCall (askHost conf dns transport host port) (conf.ipTypePreference ≠ []) := by
  exact ⟨_, _, rfl, hostQueries_ne_nil_iff conf dns transport host port⟩

theorem endsWithCall_continueWithoutSrv (dns : Dns)
    (hscheme : q.uriScheme = .sip ∨ q.uriScheme = .sips ∧ conf.hasSipTls = true) :
    ∃ p, EndsWithCall (continueWithoutSrv conf dns q) p ∧ (p → srvTransports conf q ≠ []) := by
  have hhost : ∀ t ∈ srvTransports conf q, ∀ port,
      ∃ p, EndsWithCall (askHost conf dns (some t) q.uriHost port) p ∧
        (p → srvTransports conf q ≠ []) :=
    fun t ht port => ⟨_, endsWithCall_askHost _ _ _ _ _, fun _ => List.ne_nil_of_mem ht⟩
  unfold continueWithoutSrv
  rcases hscheme with hsip | ⟨hsips, htls⟩
  · have hmem : ∀ t, conf.transportPreference.contains t = true → t ∈ srvTransports conf q :=
      fun t ht => mem_srvTransports (List.contains_iff_mem.mp ht) (.inl hsip)
    simp only [hsip]
    split_ifs with hudp htcp
    · exact hhost .udp (hmem _ hudp) _
    · exact hhost .tcp (hmem _ htcp) _
    · exact ⟨False, ⟨[], _, rfl, iff_of_false (fun h => h rfl) id⟩, False.elim⟩
  · simp only [hsips]
    exact hhost .tls (mem_srvTransports (List.contains_iff_mem.mp htls) (.inr rfl)) _

/-- `continue_with_SRV` makes a query unless there is no transport to look up. -/
theorem endsWithCall_continueWithSrv (dns : Dns)
    (hscheme : q.uriScheme = .sip ∨ q.uriScheme = .sips ∧ conf.hasSipTls = true) :
    EndsWithCall (continueWithSrv conf dns q) (srvTransports conf q ≠ []) := by
  have hlookups : (srvLookups conf dns q).flatMap (·.2) ≠ [] ↔ srvTransports conf q ≠ [] :=
    srvQueries_ne_nil_iff
  unfold continueWithSrv
  dsimp only
  split_ifs
  · exact ⟨_, _, rfl, hlookups⟩
  · obtain ⟨p, ⟨queries, h, heq, hqueries⟩, hp⟩ := endsWithCall_continueWithoutSrv dns hscheme
    refine ⟨_, h, by rw [heq, asks_append], ?_⟩
    rw [ne_eq, List.append_eq_nil_iff, not_and_or, ← ne_eq, ← ne_eq, hlookups, hqueries]
    exact or_iff_left_of_imp hp

theorem endsWithCall_followNaptrs (conf : ProxyConf) (dns : Dns) (order : NaptrSort)
    (naptrs : List NaptrRecord) :
    ∃ p, EndsWithCall (followNaptrs conf dns order naptrs) p :=
  ⟨_, _, _, rfl, Iff.rfl⟩

/-! ## The fiber -/

theorem useNaptr_of_not_useSrv (h : conf.useSrv = false) : conf.useNaptr = false := by
  by_contra hnaptr
  rw [conf.naptr_of_srv ((Bool.not_eq_false _).mp hnaptr)] at h
  cases h

/-- The fiber makes its queries and one call. -/
theorem endsWithCall_resolveDomain (order : NaptrSort) (transport : Option Transport)
    (h : Supported conf q) (hgoes : ¬ GoesOn conf q) :
    EndsWithCall (resolveDomain conf dns q order transport) (Queries conf q) := by
  unfold resolveDomain Queries
  by_cases hport : q.uriPort.isSome
  · rw [if_pos hport, if_pos (.inl hport)]
    exact endsWithCall_askHost _ _ _ _ _
  rw [if_neg hport]
  cases hsrv : conf.useSrv with
  | false =>
    have hdisabled : q.uriPort.isSome ∨ false = false := .inr rfl
    rw [if_pos hdisabled, useNaptr_of_not_useSrv hsrv]
    by_cases hparam : q.uriTransport.isSome
    · rw [if_pos hparam]
      exact endsWithCall_askHost _ _ _ _ _
    rw [if_neg hparam]
    rw [if_pos (show (!false) = true from rfl), if_neg Bool.false_ne_true]
    rcases h.scheme with hsip | ⟨hsips, _⟩
    · rw [hsip]
      dsimp only
      split_ifs with hudp htcp
      · exact endsWithCall_askHost _ _ _ _ _
      · exact endsWithCall_askHost _ _ _ _ _
      · refine absurd ⟨?_, ?_, hsip, hsrv, ?_, ?_⟩ hgoes
        · exact Option.not_isSome_iff_eq_none.mp hport
        · exact Option.not_isSome_iff_eq_none.mp hparam
        · exact Bool.eq_false_iff.mpr hudp
        · exact Bool.eq_false_iff.mpr htcp
    · rw [hsips]
      exact endsWithCall_askHost _ _ _ _ _
  | true =>
    have henabled : ¬ (q.uriPort.isSome ∨ true = false) := not_or.mpr ⟨hport, nofun⟩
    rw [if_neg henabled]
    by_cases hparam : q.uriTransport.isSome
    · rw [if_pos hparam]
      obtain ⟨rest, hrest⟩ := resolveSrv_queries conf dns q.uriHost (some q.uriScheme) transport none
      refine ⟨(resolveSrv conf dns q.uriHost (some q.uriScheme) transport none).2, _, rfl,
        iff_of_true ?_ (.inl hparam)⟩
      rw [hrest]
      exact List.cons_ne_nil _ _
    rw [if_neg hparam]
    have hcontinue := endsWithCall_continueWithSrv dns h.scheme
    cases hnaptr : conf.useNaptr with
    | false =>
      exact hcontinue.congr ⟨fun h => .inr (.inr h), fun h => (h.resolve_left hparam).resolve_left nofun⟩
    | true =>
      have htrue : True ↔ q.uriTransport.isSome ∨ true = true ∨ srvTransports conf q ≠ [] :=
        iff_of_true trivial (.inr (.inl rfl))
      cases hanswer : dns.naptr q.uriHost with
      | none => exact (hcontinue.asks _).congr htrue
      | some naptrs =>
        dsimp only
        by_cases hempty : (naptrs.filter (isSipNaptr conf q)).isEmpty
        · rw [if_pos hempty]
          exact (hcontinue.asks _).congr htrue
        · rw [if_neg hempty]
          obtain ⟨p, hfollow⟩ := endsWithCall_followNaptrs conf dns order
            (naptrs.filter (isSipNaptr conf q))
          exact (hfollow.asks _).congr htrue

/-- Without a port, a transport parameter, SRV, UDP and TCP, the fiber calls twice. -/
theorem resolveDomain_of_goesOn (order : NaptrSort) (transport : Option Transport) (h : GoesOn conf q) :
    resolveDomain conf dns q order transport =
      .calls (.error .unsupportedTransport) :: askHost conf dns none q.uriHost none := by
  obtain ⟨hport, hparam, hsip, hsrv, hudp, htcp⟩ := h
  unfold resolveDomain
  rw [hport, hparam, hsip, hsrv, hudp, htcp, useNaptr_of_not_useSrv hsrv]
  rfl

theorem length_handed_resolveDomain (order : NaptrSort) (transport : Option Transport)
    (h : Supported conf q) :
    (handed late (resolveDomain conf dns q order transport)).length = 1 ↔ OneCall conf q late := by
  unfold OneCall
  by_cases hgoes : GoesOn conf q
  · rw [if_pos hgoes, resolveDomain_of_goesOn order transport hgoes]
    have hhost := endsWithCall_askHost conf dns none q.uriHost none
    have hqueries : Queries conf q ↔ conf.ipTypePreference ≠ [] := by
      unfold Queries
      rw [if_pos (.inr hgoes.2.2.2.1)]
    rw [hqueries]
    cases late with
    | false =>
      rw [and_iff_right rfl]
      exact hhost.length_handed.trans (or_iff_right nofun)
    | true =>
      -- both calls reach the client
      have hone : (handed true (askHost conf dns none q.uriHost none)).length = 1 :=
        hhost.length_handed.mpr (.inl rfl)
      apply iff_of_false _ (fun hfalse => nomatch hfalse.1)
      intro htwo
      have hlength : (handed true (askHost conf dns none q.uriHost none)).length + 1 = 1 := htwo
      omega
  · rw [if_neg hgoes]
    exact (endsWithCall_resolveDomain order transport h hgoes).length_handed

/-- A URI with an IP address has its outcome at once. -/
theorem resolve_of_ip (conf : ProxyConf) (dns : Dns) (order : NaptrSort) (hq : q.uriHostType ≠ .domain) :
    (∃ t, resolve conf dns q order = .target t) ∨ ∃ e, resolve conf dns q order = .error e := by
  rcases resolve_spec conf dns q order with herror | ⟨_, _, _, ⟨hdomain, _⟩ | ⟨_, _, _, htarget⟩⟩
  · exact .inr herror
  · exact absurd hdomain hq
  · exact .inl ⟨_, htarget⟩

/-- **The outcome of a routing.** `rfc3263_succeeded` and `rfc3263_failed` are called exactly once in total
unless the query of a supported URI makes no DNS query before its only call and did not have to wait, or
makes two calls that both reach the client. -/
theorem oneOutcome_iff (conf : ProxyConf) (dns : Dns) (q : Query) (order : NaptrSort) (late : Bool) :
    (doDns late (resolve conf dns q order)).2.length = 1 ↔
      (q.uriHostType = .domain → Supported conf q → OneCall conf q late) := by
  by_cases hq : q.uriHostType = .domain
  · rcases resolve_cases order hq with ⟨h, transport, _, hresolve⟩ | ⟨h, e, hresolve⟩
    · have hone : (handed late (resolveDomain conf dns q order transport)).length = 1 ↔
          OneCall conf q late := length_handed_resolveDomain order transport h
      rw [hresolve]
      exact hone.trans ⟨fun hcall _ _ => hcall, fun hcall => hcall hq h⟩
    · rw [hresolve]
      exact iff_of_true rfl fun _ hsupported => absurd hsupported h
  · have hlength : (doDns late (resolve conf dns q order)).2.length = 1 := by
      rcases resolve_of_ip conf dns order hq with ⟨t, hresolve⟩ | ⟨e, hresolve⟩
      · rw [hresolve]
        rfl
      · rw [hresolve]
        rfl
    exact iff_of_true hlength fun hdomain => absurd hdomain hq

/-- A proxy that may use TLS only, without NAPTR and with SRV or without. -/
def tlsOnlyConf (useSrv sipTls : Bool) : ProxyConf :=
  ProxyParams.postProcess
    { useDns := true, useNaptr := false, useSrv, forceTransportPreference := false
      transportPreference := [.tls], ipTypePreference := [.ipv4], choices := by decide }
    { sipTls, sipTcp := false, sipUdp := false, listenIpv4 := true, listenIpv6 := false }

/-- For `sip:example`, the error is lost when no transport is left, and comes twice when SRV is off and the
fiber has to wait. -/
theorem oneOutcome_broken_by_noTransport :
    (doDns false (resolve (tlsOnlyConf true false) twoServers (exampleQuery none) stableSort)).2 = [] ∧
      (doDns true (resolve (tlsOnlyConf false true) twoServers (exampleQuery none) stableSort)).2 =
        [.error .unsupportedTransport, .error .domainNotFound] := by
  decide

end Rfc3263

end OverSip
