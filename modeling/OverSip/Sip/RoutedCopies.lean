import OverSip.Sip.RoutingHeadersTheorems
import OverSip.Sip.TargetTraversal

/-!
# The copies of a request that are sent

A client sends a copy of its request for each client transaction. `Carries` says what routing headers a
copy should have, whichever target it goes to. `add_routing_headers` returns at once when `@num_target` is
above 1, which it also is when the first targets were skipped, and `send_request` takes the wrong entry off
a request whose `in_rr` is `:both_outbound_path`. In runs without these two every copy carries the headers.
-/

namespace OverSip

namespace Client

open RoutedRequest

variable {env : Env} {c : Client}

/-! ## What a copy should carry -/

/-- The request as the first client transaction of a proxy sends it. -/
def readied (conf : ClientConf) (r : RoutedRequest) : RoutedRequest :=
  r.setContentLength.setRoutingHeaders conf.recordRouting

/-- The second entry for a target. -/
def secondFor (conf : ClientConf) (r : RoutedRequest) (t : Target) (name : String) : List String :=
  r.second (conf.serverClass t.transport t.ipType) (conf.sameClass t.transport t.ipType) name

/-- The copy of `r` for the target `t` has the routing headers. -/
structure Carries (conf : ClientConf) (r : RoutedRequest) (t : Target) (copy : Headers) : Prop where
  /-- Below the entry of its own client transaction, those that `add_routing_headers` sets. -/
  asSet : ∀ name ∈ routingNames,
    copy name = secondFor conf (readied conf r) t name ++ (readied conf r).headers name
  /-- Max-Forwards is the one of `check_max_forwards`, and lower than the one received. -/
  maxForwards : r.proxied = false → ∀ n, r.newMaxForwards = some n →
    copy "Max-Forwards" = [toString n] ∧ ∀ m, r.maxForwards = some m → n < m
  /-- The entry of the proxy stands on top of those received. -/
  recordRoute : r.recordRouted conf.recordRouting = true → conf.recordRouting.doRecordRouting = true →
    r.inRr = none →
    copy r.rrName =
      secondFor conf (readied conf r) t r.rrName ++ r.rrEntry.2 :: r.headers r.rrName

/-- The two requests are the same for what is sent of the routing headers. -/
structure Agree (q r : RoutedRequest) : Prop where
  method : q.method = r.method
  inRr : q.inRr = r.inRr
  token : q.routeOutboundFlowToken = r.routeOutboundFlowToken
  headers : ∀ name ∈ routingNames, q.headers name = r.headers name

theorem Agree.refl (r : RoutedRequest) : Agree r r := ⟨rfl, rfl, rfl, fun _ _ => rfl⟩

theorem Agree.secondFor {conf : ClientConf} {q r : RoutedRequest} (h : Agree q r) (t : Target)
    (name : String) : secondFor conf q t name = secondFor conf r t name := by
  unfold Client.secondFor second outRr
  rw [h.method, h.inRr, h.token]

theorem setContentLength_header (r : RoutedRequest) {name : String} (h : name ∈ routingNames) :
    r.setContentLength.headers name = r.headers name := by
  have hne : name ≠ "Content-Length" := by
    rintro rfl
    exact absurd h (by decide)
  exact Function.update_of_ne hne ..

theorem agree_setContentLength (r : RoutedRequest) : Agree r.setContentLength r :=
  ⟨rfl, rfl, rfl, fun _ h => setContentLength_header r h⟩

/-- A request without headers to add agrees with the one that should be sent. -/
theorem agree_of_nothing {conf : ClientConf} {r : RoutedRequest}
    (h : NothingToSet conf.recordRouting r) : Agree r.setContentLength (readied conf r) := by
  have h' : NothingToSet conf.recordRouting r.setContentLength := ⟨h.maxForwards, h.recordRoute⟩
  unfold readied
  rw [setRoutingHeaders_of_nothing h']
  exact ⟨rfl, rfl, rfl, fun _ _ => rfl⟩

theorem Agree.trans {p q r : RoutedRequest} (h : Agree p q) (h' : Agree q r) : Agree p r :=
  ⟨h.method.trans h'.method, h.inRr.trans h'.inRr, h.token.trans h'.token,
    fun name hn => (h.headers name hn).trans (h'.headers name hn)⟩

/-- A copy of a request that agrees with the one that should be sent carries the headers. -/
theorem carries_of_agree {conf : ClientConf} {q r : RoutedRequest} (h : Agree q (readied conf r))
    (t : Target) (topVia : String) :
    Carries conf r t (q.sendRequest (conf.serverClass t.transport t.ipType)
      (conf.sameClass t.transport t.ipType) topVia).1 := by
  have hsame : ∀ name ∈ routingNames,
      (q.sendRequest (conf.serverClass t.transport t.ipType)
        (conf.sameClass t.transport t.ipType) topVia).1 name =
        secondFor conf (readied conf r) t name ++ (readied conf r).headers name := by
    intro name hname
    have hvia : name ≠ "Via" := by
      rintro rfl
      exact absurd hname (by decide)
    rw [sendRequest_copy _ _ _ _ hvia, ← h.secondFor, ← h.headers name hname]
    rfl
  refine ⟨hsame, ?_, ?_⟩
  · intro hp n hn
    refine ⟨?_, fun m hm => r.newMaxForwards_lt n hn m hm⟩
    have hp' : r.setContentLength.proxied = false := hp
    have hset : (readied conf r).headers "Max-Forwards" = [toString n] :=
      setRoutingHeaders_maxForwards hp' hn
    -- the second entry is one of Record-Route or Path
    have hnone : secondFor conf (readied conf r) t "Max-Forwards" = [] := by
      unfold secondFor second
      cases hout : (readied conf r).outRr (conf.serverClass t.transport t.ipType)
          (conf.sameClass t.transport t.ipType) with
      | none => rfl
      | some p =>
        obtain ⟨k, _, hk, _⟩ := outRr_header hout
        have hne : p.1 ≠ "Max-Forwards" := by
          rw [hk]
          cases k <;> decide
        rw [Option.filter_some, if_neg (by simpa using hne)]
        rfl
    rw [hsame "Max-Forwards" (by decide), hset, hnone]
    rfl
  · intro hrr hdo hin
    have hset : (readied conf r).headers r.rrName = r.rrEntry.2 :: r.setContentLength.headers r.rrName :=
      setRoutingHeaders_recordRoute hrr hin hdo
    rw [hsame r.rrName (rrName_mem r), hset, setContentLength_header r (rrName_mem r)]

/-! ## Which target gets a client transaction -/

/-- When `n` targets are taken, the one at `i` of those left is the first that is not blacklisted, and it
does not stop the routing. -/
def Serves (env : Env) (n : ℕ) (ts : List Target) (i : ℕ) : Prop :=
  (∀ j u, j < i → ts[j]? = some u → env.blacklist (n + j + 1) u.toS ≠ none) ∧
    ∃ t, ts[i]? = some t ∧ env.blacklist (n + i + 1) t.toS = none ∧
      env.abortRouting (n + i + 1) = false

theorem serves_of_stop {n : ℕ} {ts : List Target} {cause : Cause} {stop : Stop}
    (h : (walk env n ts cause).2 = some stop) : ∃ i, Serves env n ts i ∧ stop.num = n + i + 1 := by
  refine walk_rule (P := fun n ts _ p => p.2 = some stop →
    ∃ i, Serves env n ts i ∧ stop.num = n + i + 1) ?_ ?_ ?_ ?_ n ts cause h
  · intro n cause h
    cases h
  · intro n t ts cause entry p hb hp h
    obtain ⟨i, ⟨hbefore, u, hu, hfree, hgo⟩, hnum⟩ := hp h
    have hshift : ∀ j, n + 1 + j + 1 = n + (j + 1) + 1 := by
      intro j
      omega
    rw [hshift] at hfree hgo hnum
    refine ⟨i + 1, ⟨?_, u, hu, hfree, hgo⟩, hnum⟩
    intro j v hj hv
    cases j with
    | zero =>
      obtain rfl := Option.some.inj hv
      rw [Nat.add_zero, hb]
      exact Option.some_ne_none _
    | succ j =>
      rw [← hshift]
      exact hbefore j v (Nat.lt_of_succ_lt_succ hj) hv
  · intro n t ts cause _ _ h
    cases h
  · intro n t ts cause hb habort h
    obtain rfl := Option.some.inj h
    refine ⟨0, ⟨?_, t, rfl, hb, habort⟩, rfl⟩
    intro j v hj
    exact absurd hj (Nat.not_lt_zero j)

/-! ## The condition -/

/-- The step does not send a copy past `add_routing_headers`, nor one of a request whose entries
`send_request` has mixed up. -/
structure HeadersKept (c : Client) (e : EnvEvent) : Prop where
  /-- The first target that is not blacklisted is the first of the list, or there is no header to add. -/
  first : ∀ result, e.ev.result? = some result → ∀ i, Serves e.env 0 result.targets i →
    i = 0 ∨ NothingToSet c.conf.recordRouting c.request
  /-- After a failure, no target is tried for a request with such entries. -/
  next : ∀ i o, e.ev = .outcome i o → o.cause c.conf ≠ none →
    ∀ j, Serves e.env c.taken c.left j → ¬ c.request.KeepsPath

/-! ## Steps -/

/-- Every copy that is seen carries the headers of `r`. -/
def AllCarry (conf : ClientConf) (r : RoutedRequest) (os : List Output) : Prop :=
  ∀ n t copy, .send n (.target t) copy ∈ os → Carries conf r t copy

/-- The request of a client that has sent a copy of `r`. -/
structure Sent (conf : ClientConf) (r : RoutedRequest) (c : Client) : Prop where
  sameConf : c.conf = conf
  aborted : c.aborted = false
  oneRuns : OneRuns c
  request : ¬ Idle c → 0 < c.taken ∧
    (c.request.method ≠ .ack → ¬ c.request.KeepsPath → Agree c.request (readied conf r))

/-- A walk sends nothing. -/
theorem allCarry_walk (conf : ClientConf) (r : RoutedRequest) (env : Env) (n : ℕ) (ts : List Target)
    (cause : Cause) : AllCarry conf r (walk env n ts cause).1 := by
  intro m t copy hmem
  have hsent : (.target t, m) ∈ sent (walk env n ts cause).1 :=
    List.mem_filterMap.mpr ⟨_, hmem, rfl⟩
  rw [walk_sent] at hsent
  cases hsent

/-- The request as the next client transaction sends it. -/
def prepared (c : Client) : RoutedRequest :=
  c.request.setContentLength.addRoutingHeaders c.conf.recordRouting c.numTarget

/-- A copy of a request that is prepared as it should be carries the headers, and leaves the request so,
unless it is one whose entries are mixed up. -/
theorem sent_startFor {conf : ClientConf} {r : RoutedRequest} (hconf : c.conf = conf)
    (haborted : c.aborted = false) (hidle : Idle c) (hnum : 0 < c.taken)
    (h : Agree c.prepared (readied conf r)) (env : Env) (t : Target) :
    AllCarry conf r (c.startFor env t).2 ∧ Sent conf r (c.startFor env t).1 := by
  subst hconf
  have hout : (c.startFor env t).2 = [.send c.taken (.target t)
      (c.prepared.sendRequest (c.conf.serverClass t.transport t.ipType)
        (c.conf.sameClass t.transport t.ipType) env.topVia).1] := rfl
  have hrequest : (c.startFor env t).1.request =
      (c.prepared.sendRequest (c.conf.serverClass t.transport t.ipType)
        (c.conf.sameClass t.transport t.ipType) env.topVia).2 := rfl
  refine ⟨?_, rfl, haborted, oneRuns_startFor hidle t, ?_⟩
  · intro n u copy hmem
    rw [hout, List.mem_singleton] at hmem
    obtain ⟨_, hd, rfl⟩ := Output.send.inj hmem
    obtain rfl := Destination.target.inj hd
    exact carries_of_agree h u env.topVia
  · intro _
    refine ⟨hnum, ?_⟩
    obtain ⟨hs, heq⟩ := sendRequest_eq c.prepared (c.conf.serverClass t.transport t.ipType)
      (c.conf.sameClass t.transport t.ipType) env.topVia
    have hmethod : (c.startFor env t).1.request.method = c.prepared.method := by
      rw [hrequest, heq]
    have hinRr : (c.startFor env t).1.request.inRr = c.prepared.inRr := by
      rw [hrequest, heq]
    intro hack hkeeps
    unfold KeepsPath at hkeeps
    rw [hmethod] at hack hkeeps
    rw [hinRr] at hkeeps
    rw [hrequest, sendRequest_keeps _ _ _ hkeeps hack]
    exact h

/-- A call of `try_next_target` that sends a copy with the right headers only. -/
theorem sent_tryNextTarget {conf : ClientConf} {r : RoutedRequest} (hconf : c.conf = conf)
    (haborted : c.aborted = false) (hidle : Idle c) (env : Env) (cause : Cause)
    (hready : ∀ i, Serves env c.taken c.left i →
      Agree (c.request.setContentLength.addRoutingHeaders conf.recordRouting (some (c.taken + i + 1)))
        (readied conf r)) :
    AllCarry conf r (tryNextTarget env c cause).2 ∧ Sent conf r (tryNextTarget env c cause).1 := by
  have hwalk : Walked env c (walk env c.taken c.left cause) (tryNextTarget env c cause) :=
    tryNextTarget_walk haborted
  have hnone := allCarry_walk conf r env c.taken c.left cause
  generalize hw : walk env c.taken c.left cause = w at hwalk hnone
  generalize tryNextTarget env c cause = p at hwalk
  cases hwalk with
  | ended c' hend hleft hkept =>
    have hidle' : Idle c' := hidle.of_attempts hkept.attempts
    exact ⟨hnone, hkept.conf.trans hconf, hkept.aborted.trans haborted, hidle'.oneRuns,
      fun h => absurd hidle' h⟩
  | stopped c' stop hstop hleft hnum hkept =>
    obtain ⟨i, hserves, hi⟩ := serves_of_stop (hw ▸ hstop)
    have hconf' : c'.conf = conf := hkept.conf.trans hconf
    have htaken : 0 < c'.taken := by
      rw [taken, hnum, Option.getD_some, hi]
      exact Nat.succ_pos _
    have hagree : Agree c'.prepared (readied conf r) := by
      unfold prepared
      rw [hkept.request, hconf', hnum, hi]
      exact hready i hserves
    obtain ⟨hcarry, hsent⟩ := sent_startFor hconf' (hkept.aborted.trans haborted)
      (hidle.of_attempts hkept.attempts) htaken hagree env stop.target
    refine ⟨?_, hsent⟩
    intro n t copy hmem
    rcases List.mem_append.mp hmem with hmem | hmem
    · exact hnone n t copy hmem
    · exact hcarry n t copy hmem

/-- A result that is handed to a client. -/
theorem sent_result {e : EnvEvent} {result : Resolution} {p : Client × List Output}
    (haborted : c.aborted = false) (hidle : Idle c) (he : e.ev.result? = some result)
    (hs : step c e = some p) (hcond : HeadersKept c e) :
    AllCarry c.conf c.request p.2 ∧ Sent c.conf c.request p.1 := by
  obtain ⟨c₁, rfl, haborted₁, hattempts, hrequest, hconf⟩ := step_result he hs
  obtain ⟨c', heq, hnum, hleft, hkept⟩ := rfc3263Succeeded_eq e.env c₁ result
  have htaken : c'.taken = 0 := by
    rw [taken, hnum, Option.getD_some]
  rw [heq]
  refine sent_tryNextTarget (hkept.conf.trans hconf) ((hkept.aborted.trans haborted₁).trans haborted)
    (hidle.of_attempts (hkept.attempts.trans hattempts)) e.env _ ?_
  intro i hserves
  rw [htaken, hleft] at hserves
  rw [hkept.request, hrequest, htaken, Nat.zero_add]
  rcases hcond.first result he i hserves with rfl | hset
  · -- the first target: the headers are added
    exact Agree.refl _
  · cases i with
    | zero => exact Agree.refl _
    | succ i =>
      have hskip : c.request.setContentLength.addRoutingHeaders c.conf.recordRouting (some (i + 1 + 1)) =
          c.request.setContentLength := by
        unfold addRoutingHeaders
        rw [if_pos]
        simp
      rw [hskip]
      exact agree_of_nothing hset

/-- What becomes of a client transaction. -/
theorem Sent.outcome {conf : ClientConf} {r : RoutedRequest} {e : EnvEvent} {i : ℕ} {o : Outcome}
    {p : Client × List Output} (h : Sent conf r c) (he : e.ev = .outcome i o) (hs : step c e = some p)
    (hcond : HeadersKept c e) : AllCarry conf r p.2 ∧ Sent conf r p.1 := by
  obtain ⟨a, ha, hrun, hack, rfl⟩ := step_outcome he hs
  have hbusy : ¬ Idle c := by
    intro hidle
    rw [hidle a (List.mem_of_getElem? ha)] at hrun
    cases hrun
  obtain ⟨hpos, hrequest⟩ := h.request hbusy
  cases hcause : o.cause c.conf with
  | some cause =>
    have hcause' : o.cause (c.settle i a o).conf = some cause := hcause
    obtain ⟨hfinal, hcall⟩ := coreCall_of_some e.env (c.settle i a o) hcause'
    rw [hcall]
    have hconf : (c.settle i a o).conf = conf := h.sameConf
    refine sent_tryNextTarget hconf h.aborted (idle_settle h.oneRuns ha hrun hfinal) e.env cause ?_
    intro j hserves
    have hkeeps : ¬ c.request.KeepsPath :=
      hcond.next i o he (by rw [hcause]; exact Option.some_ne_none _) j hserves
    have hskip : (c.settle i a o).request.setContentLength.addRoutingHeaders conf.recordRouting
        (some ((c.settle i a o).taken + j + 1)) = c.request.setContentLength := by
      have hgt : 1 < (c.settle i a o).taken + j + 1 := by
        have : (c.settle i a o).taken = c.taken := rfl
        omega
      unfold addRoutingHeaders
      rw [if_pos (by simpa using hgt)]
      rfl
    rw [hskip]
    exact (agree_setContentLength _).trans (hrequest hack hkeeps)
  | none =>
    have hcause' : o.cause (c.settle i a o).conf = none := hcause
    obtain ⟨r', hcall⟩ := coreCall_of_none e.env (c.settle i a o) hcause'
    rw [hcall]
    refine ⟨?_, h.sameConf, h.aborted, oneRuns_settle h.oneRuns ha hrun, fun _ => ⟨hpos, hrequest⟩⟩
    intro n t copy hmem
    simp at hmem

/-! ## Runs -/

/-- The first target is in the blacklist. -/
def skipEnv : Env :=
  { blacklist := fun n _ => if n = 1 then some (.error 500 "Connection Error" .connectionError) else none
    abortRouting := fun _ => false
    topVia := "SIP/2.0/UDP 192.0.2.1:5060;branch=z9hG4bK2;rport" }

/-- An INVITE for which the application has called `check_max_forwards 20`. -/
def checkedRequest : RoutedRequest := (sampleRouted.checkMaxForwards 20).2

/-- Its client, both targets taken. -/
def skipTaken : Client :=
  { new sampleClientConf checkedRequest with
    targets := some [sampleTarget, otherTarget], numTarget := some 2
    currentTarget := some otherTarget, calls := 1 }

/-- The request is routed, past the first target. -/
def skipFirst : StepRec Client EnvEvent Output :=
  { pre := new sampleClientConf checkedRequest
    ev := ⟨skipEnv, .route (.resolved (.multiple [sampleTarget, otherTarget]))⟩
    out := .trying 1 sampleTarget ::
      .blacklisted 1 (.error 500 "Connection Error" .connectionError) ::
      .trying 2 otherTarget :: .onTarget 2 otherTarget :: (skipTaken.startFor skipEnv otherTarget).2
    post := (skipTaken.startFor skipEnv otherTarget).1 }

theorem skipFirst_step : step skipFirst.pre skipFirst.ev = some (skipFirst.post, skipFirst.out) := by
  have htry : tryNextTarget skipEnv
      { new sampleClientConf checkedRequest with
        targets := some [sampleTarget, otherTarget], numTarget := some 0, calls := 1 } .none =
      (skipFirst.post, skipFirst.out) := by
    rw [tryNextTarget_cons rfl, useTarget_blacklisted _ rfl, tryNextTarget_cons rfl,
      useTarget_starts _ rfl rfl rfl]
    rfl
  exact congrArg some htry

end Client

end OverSip
