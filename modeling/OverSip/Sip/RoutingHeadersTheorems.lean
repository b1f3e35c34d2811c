import OverSip.Sip.RoutingHeaders

/-!
# What `add_routing_headers` and `send_request` do to a request

`setRoutingHeaders` gives a request that is not proxied yet the new Max-Forwards, and one that is
record-routed the entry of the proxy on top. A copy that is sent has the headers of the request below the
second entry of its client transaction, and the request keeps its headers, but for `:both_outbound_path`.
-/

namespace OverSip

namespace RoutedRequest

variable {conf : RecordRouting} {r : RoutedRequest} {klass : ServerClass} {same : Bool}

/-- The headers that `add_routing_headers` is about. -/
def routingNames : List String := ["Max-Forwards", "Record-Route", "Path"]

theorem rrName_mem (r : RoutedRequest) : r.rrName ∈ routingNames := by
  unfold rrName
  split <;> decide

theorem header_mem (k : InRr) : k.header ∈ routingNames := by
  cases k <;> decide

/-! ## The headers that are set -/

/-- Only a request that is record-routed already loses an entry. -/
theorem removeRrPath_of_none (h : r.inRr = none) : r.removeRrPath conf = r := by
  unfold removeRrPath
  rw [h]

theorem removeRrPath_eq (conf : RecordRouting) (r : RoutedRequest) :
    ∃ h k, r.removeRrPath conf = { r with headers := h, inRr := k } := by
  unfold removeRrPath
  split
  · split
    · exact ⟨_, _, rfl⟩
    · exact ⟨r.headers, r.inRr, rfl⟩
  · exact ⟨r.headers, r.inRr, rfl⟩

/-- Max-Forwards is the only header that `setMaxForwards` touches. -/
theorem setMaxForwards_eq (r : RoutedRequest) :
    ∃ h : Headers, r.setMaxForwards = { r with proxied := true, headers := h } ∧
      ∀ name, name ≠ "Max-Forwards" → h name = r.headers name := by
  unfold setMaxForwards
  split
  · rename_i hp
    exact ⟨r.headers, by rw [← hp], fun _ _ => rfl⟩
  · split
    · rename_i n _
      refine ⟨Function.update r.headers "Max-Forwards" [toString n], rfl, ?_⟩
      intro name hne
      rw [Function.update_of_ne hne]
    · exact ⟨r.headers, rfl, fun _ _ => rfl⟩

/-- A request that is not proxied yet gets the new Max-Forwards. -/
theorem setMaxForwards_header (hp : r.proxied = false) {n : Int} (hn : r.newMaxForwards = some n) :
    r.setMaxForwards.headers "Max-Forwards" = [toString n] := by
  unfold setMaxForwards
  rw [if_neg (by rw [hp]; decide)]
  split
  · rename_i m hm
    obtain rfl : n = m := Option.some.inj (hn.symm.trans hm)
    exact Function.update_self "Max-Forwards" [toString n] r.headers
  · rename_i hm
    rw [hn] at hm
    cases hm

theorem setRoutingHeaders_maxForwards (hp : r.proxied = false) {n : Int}
    (hn : r.newMaxForwards = some n) :
    (r.setRoutingHeaders conf).headers "Max-Forwards" = [toString n] := by
  obtain ⟨h, k, hremove⟩ := removeRrPath_eq conf r
  have hset : (r.removeRrPath conf).setMaxForwards.headers "Max-Forwards" = [toString n] := by
    have hp' : (r.removeRrPath conf).proxied = false := by
      rw [hremove]
      exact hp
    have hn' : (r.removeRrPath conf).newMaxForwards = some n := by
      rw [hremove]
      exact hn
    exact setMaxForwards_header hp' hn'
  unfold setRoutingHeaders
  split
  · have hne : "Max-Forwards" ≠ (r.removeRrPath conf).setMaxForwards.rrName := by
      unfold rrName
      split <;> decide
    exact (Headers.insertHeader_of_ne _ _ hne).trans hset
  · exact hset

/-- A request that is to be record-routed gets the entry of the proxy, once and on top. -/
theorem setRoutingHeaders_recordRoute (h : r.recordRouted conf = true) (hin : r.inRr = none)
    (hdo : conf.doRecordRouting = true) :
    (r.setRoutingHeaders conf).headers r.rrName = r.rrEntry.2 :: r.headers r.rrName := by
  obtain ⟨hs, heq, hkeep⟩ := setMaxForwards_eq r
  have hne : r.rrName ≠ "Max-Forwards" := by
    unfold rrName
    split <;> decide
  rw [setRoutingHeaders, if_pos ⟨h, hin, hdo⟩, removeRrPath_of_none hin, heq]
  have hadd : (addRrPath { r with proxied := true, headers := hs }).headers r.rrName =
      r.rrEntry.2 :: hs r.rrName := Headers.insertHeader_self ..
  rw [hadd, hkeep _ hne]

/-- What `setRoutingHeaders` leaves as it was. -/
theorem setRoutingHeaders_eq (conf : RecordRouting) (r : RoutedRequest) :
    ∃ h k, r.setRoutingHeaders conf = { r with proxied := true, headers := h, inRr := k } := by
  obtain ⟨h, k, hremove⟩ := removeRrPath_eq conf r
  obtain ⟨hs, hset, _⟩ := setMaxForwards_eq (r.removeRrPath conf)
  unfold setRoutingHeaders
  rw [hset, hremove]
  split
  · exact ⟨_, _, rfl⟩
  · exact ⟨_, _, rfl⟩

/-- The request needs no routing header of the proxy, or has them already. -/
structure NothingToSet (conf : RecordRouting) (r : RoutedRequest) : Prop where
  maxForwards : r.proxied = true ∨ r.newMaxForwards = none
  recordRoute : r.recordRouted conf = true → (r.inRr = none ↔ conf.doRecordRouting = false)

/-- Then `add_routing_headers` changes no header. -/
theorem setRoutingHeaders_of_nothing (h : NothingToSet conf r) :
    r.setRoutingHeaders conf = { r with proxied := true } := by
  have hremove : r.removeRrPath conf = r := by
    cases hin : r.inRr with
    | none => exact removeRrPath_of_none hin
    | some k =>
      unfold removeRrPath
      rw [hin]
      refine if_neg ?_
      rintro ⟨hrr, hdo⟩
      have hnone := (h.recordRoute hrr).mpr hdo
      rw [hin] at hnone
      cases hnone
  have hset : r.setMaxForwards = { r with proxied := true } := by
    unfold setMaxForwards
    split
    · rename_i hp
      rw [← hp]
    · rename_i hp
      split
      · rename_i n hn
        rcases h.maxForwards with hyes | hnone
        · exact absurd hyes hp
        · rw [hn] at hnone
          cases hnone
      · rfl
  unfold setRoutingHeaders
  rw [hremove, hset, if_neg]
  rintro ⟨hrr, hin, hdo⟩
  rw [(h.recordRoute hrr).mp hin] at hdo
  cases hdo

/-! ## The copy that is sent -/

/-- The values of the client transaction's own entry. -/
def second (r : RoutedRequest) (klass : ServerClass) (same : Bool) (name : String) : List String :=
  ((r.outRr klass same).filter (·.1 = name)).toList.map (·.2)

/-- The client transaction takes the wrong entry off the request. -/
def KeepsPath (r : RoutedRequest) : Prop :=
  r.inRr = some .bothOutboundPath ∧ r.method ≠ .invite ∧ r.method ≠ .ack

/-- The second entry goes into the header of the first one. -/
theorem outRr_header {p : String × String} (h : r.outRr klass same = some p) :
    ∃ k, r.inRr = some k ∧ p.1 = k.header ∧ r.method ≠ .ack := by
  obtain ⟨name, value⟩ := p
  cases hk : r.inRr with
  | none =>
    unfold outRr at h
    rw [hk] at h
    cases hm : r.method <;> simp [hm] at h
  | some k =>
    refine ⟨k, rfl, ?_⟩
    unfold outRr at h
    rw [hk] at h
    cases hm : r.method <;> cases k <;> simp_all [InRr.header]

/-- The two ways of `send_request`. -/
theorem sendRequest_cases (r : RoutedRequest) (klass : ServerClass) (same : Bool) (topVia : String) :
    (r.outRr klass same = none ∧ r.sendRequest klass same topVia =
        (r.headers.insertHeader "Via" topVia,
          { r with headers := if r.method = .ack then r.headers.insertHeader "Via" topVia
              else (r.headers.insertHeader "Via" topVia).deleteHeaderTop "Via" })) ∨
      ∃ k value, r.inRr = some k ∧ r.method ≠ .ack ∧ r.outRr klass same = some (k.header, value) ∧
        r.sendRequest klass same topVia =
          ((r.headers.insertHeader "Via" topVia).insertHeader k.header value,
            { r with headers :=
                (((r.headers.insertHeader "Via" topVia).insertHeader k.header value).deleteHeaderTop
                  "Via").deleteHeaderTop (outRrHeader k) }) := by
  cases hout : r.outRr klass same with
  | none =>
    left
    refine ⟨rfl, ?_⟩
    unfold sendRequest
    rw [hout]
  | some p =>
    right
    obtain ⟨name, value⟩ := p
    obtain ⟨k, hk, hname, hack⟩ := outRr_header hout
    obtain rfl : name = k.header := hname
    refine ⟨k, value, hk, hack, rfl, ?_⟩
    unfold sendRequest
    rw [hout, hk]

theorem header_ne_via (k : InRr) : k.header ≠ "Via" := by
  cases k <;> decide

/-- The copy has the headers of the request below the second entry. -/
theorem sendRequest_copy (r : RoutedRequest) (klass : ServerClass) (same : Bool) (topVia : String)
    {name : String} (hname : name ≠ "Via") :
    (r.sendRequest klass same topVia).1 name = r.second klass same name ++ r.headers name := by
  unfold second
  rcases sendRequest_cases r klass same topVia with ⟨hout, hsend⟩ | ⟨k, value, _, _, hout, hsend⟩
  · rw [hsend, hout]
    exact Headers.insertHeader_of_ne _ _ hname
  · have hcopy : (r.sendRequest klass same topVia).1 =
        (r.headers.insertHeader "Via" topVia).insertHeader k.header value := by
      rw [hsend]
    rw [hcopy, hout]
    by_cases heq : name = k.header
    · rw [heq, Headers.insertHeader_self, Headers.insertHeader_of_ne _ _ (header_ne_via k)]
      have hfilter : (some (k.header, value)).filter (·.1 = k.header) = some (k.header, value) := by
        rw [Option.filter_some, if_pos (by simp)]
      rw [hfilter]
      rfl
    · rw [Headers.insertHeader_of_ne _ _ heq, Headers.insertHeader_of_ne _ _ hname]
      simp [Ne.symm heq]

/-- What a copy depends on. -/
theorem sendRequest_congr {q : RoutedRequest} (hheaders : q.headers = r.headers)
    (hinRr : q.inRr = r.inRr) (hout : q.outRr klass same = r.outRr klass same) (topVia : String) :
    (q.sendRequest klass same topVia).1 = (r.sendRequest klass same topVia).1 := by
  unfold sendRequest
  rw [hheaders, hinRr, hout]
  split <;> rfl

/-- Headers are taken off in any order. -/
theorem deleteHeaderTop_comm (h : Headers) {name other : String} (hne : name ≠ other) :
    (h.deleteHeaderTop name).deleteHeaderTop other = (h.deleteHeaderTop other).deleteHeaderTop name := by
  unfold Headers.deleteHeaderTop
  rw [Function.update_of_ne hne.symm, Function.update_of_ne hne, Function.update_comm hne]

/-- The request is as it was before it was sent. -/
theorem sendRequest_keeps (klass : ServerClass) (same : Bool) (topVia : String)
    (hk : ¬ r.KeepsPath) (hack : r.method ≠ .ack) : (r.sendRequest klass same topVia).2 = r := by
  rcases sendRequest_cases r klass same topVia with ⟨_, hsend⟩ | ⟨k, value, hin, _, hout, hsend⟩
  · rw [hsend]
    have hheaders : (if r.method = .ack then r.headers.insertHeader "Via" topVia
        else (r.headers.insertHeader "Via" topVia).deleteHeaderTop "Via") = r.headers := by
      rw [if_neg hack, Headers.deleteHeaderTop_insertHeader]
    rw [hheaders]
  · have hkind : outRrHeader k = k.header := by
      by_cases hpath : k = .bothOutboundPath
      · -- the request is an INVITE, whose client transaction adds no Path
        have hinvite : r.method = .invite := by
          by_contra hm
          exact hk ⟨hpath ▸ hin, hm, hack⟩
        unfold outRr at hout
        rw [hinvite, hin, hpath] at hout
        cases hout
      · exact if_neg hpath
    rw [hsend, hkind, deleteHeaderTop_comm _ (header_ne_via k).symm,
      Headers.deleteHeaderTop_insertHeader, Headers.deleteHeaderTop_insertHeader]

/-- Each copy of a request that keeps its Path leaves one more entry in it. -/
theorem sendRequest_keepsPath (klass : ServerClass) (same : Bool) (topVia : String) (h : r.KeepsPath) :
    (r.sendRequest klass same topVia).2.headers "Path" =
      ("<sip:" ++ r.routeOutboundFlowToken ++ klass.outboundPathFragment) :: r.headers "Path" := by
  obtain ⟨hin, hinvite, hack⟩ := h
  have hout : r.outRr klass same =
      some ("Path", "<sip:" ++ r.routeOutboundFlowToken ++ klass.outboundPathFragment) := by
    unfold outRr
    rw [hin]
    cases hm : r.method with
    | invite => exact absurd hm hinvite
    | ack => exact absurd hm hack
    | cancel => rfl
    | other name => rfl
  unfold sendRequest
  simp [hout, hin, outRrHeader, Headers.deleteHeaderTop_of_ne, Headers.insertHeader_of_ne]

/-- `send_request` changes nothing but the headers. -/
theorem sendRequest_eq (r : RoutedRequest) (klass : ServerClass) (same : Bool) (topVia : String) :
    ∃ h, (r.sendRequest klass same topVia).2 = { r with headers := h } := by
  rcases sendRequest_cases r klass same topVia with ⟨_, hsend⟩ | ⟨k, value, _, _, _, hsend⟩
  · exact ⟨_, by rw [hsend]⟩
  · exact ⟨_, by rw [hsend]⟩

end RoutedRequest

end OverSip
