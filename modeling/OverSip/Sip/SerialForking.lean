import OverSip.Sip.RoutedCopies

/-!
# Calls of `route` on the same proxy

A proxy whose request is answered with a failure may be told to route it again. `Isolated` says that what a
step sends and tries belongs to the last call of `route`, and that the call sends what a new proxy would
send. A call to the Outbound flow of the request leaves `@targets` and `@num_target` of an earlier call as
they are, and nothing tells whose answer DNS gives: `Separate` is what keeps them from showing.
-/

namespace OverSip

namespace Client

open RoutedRequest

variable {env : Env} {c : Client}

/-! ## The last call -/

/-- The destinations the last call of `route` may send to, after one more event. -/
def resolvedBy (ds : List Destination) (c : Client) : Event → List Destination
  | .route (.flow _) => [.flow]
  | .route (.resolved result) => result.targets.map .target
  | .route (.failed _) | .route .wait => []
  | .dnsSucceeded call result => if call = c.calls then result.targets.map .target else ds
  | .dnsFailed _ _ | .outcome _ _ => ds

/-- The destinations resolved for the last call of `route`. -/
def resolved (tr : List (StepRec Client EnvEvent Output)) : List Destination :=
  tr.foldl (fun ds r => resolvedBy ds r.pre r.ev.ev) []

/-- The last call of `route` has a list of targets, after one more event. -/
def listedBy (b : Bool) (c : Client) : Event → Bool
  | .route (.resolved _) => true
  | .route _ => false
  | .dnsSucceeded call _ => b || call == c.calls
  | .dnsFailed _ _ | .outcome _ _ => b

/-- The last call of `route` has a list of targets. -/
def listed (tr : List (StepRec Client EnvEvent Output)) : Bool :=
  tr.foldl (fun b r => listedBy b r.pre r.ev.ev) false

/-- The copies that are sent, and where to. -/
def copies (os : List Output) : List (Destination × Headers) :=
  os.filterMap fun
    | .send _ d copy => some (d, copy)
    | _ => none

/-- What a step does belongs to the last call of `route`, whose destinations are `ds`. -/
structure Isolated (ds : List Destination) (r : StepRec Client EnvEvent Output) : Prop where
  /-- A request is sent to a destination of the last call. -/
  sends : ∀ d copy, (d, copy) ∈ copies r.out → d ∈ ds
  /-- A target that is tried is one of the last call. -/
  tries : ∀ n t, .trying n t ∈ r.out → .target t ∈ ds
  /-- A call sends what a new proxy would send. -/
  asNew : ∀ how, r.ev.ev = .route how →
    copies r.out = copies (route r.ev.env (new r.pre.conf r.pre.request) how).2
  /-- So does a call that has waited for DNS. -/
  asNewDns : ∀ call result, r.ev.ev = .dnsSucceeded call result → call = r.pre.calls →
    copies r.out = copies (rfc3263Succeeded r.ev.env (new r.pre.conf r.pre.request) result).2

/-! ## The condition -/

/-- The step does not meet with an earlier call, in the history `tr`. -/
structure Separate (tr : List (StepRec Client EnvEvent Output)) (c : Client) (e : EnvEvent) : Prop where
  /-- No client transaction fails while the last call has no list and an earlier one has targets left. -/
  outcome : ∀ i o, e.ev = .outcome i o → o.cause c.conf ≠ none → listed tr = true ∨ c.left = []
  /-- DNS answers the last call. -/
  dns : ∀ call result, e.ev = .dnsSucceeded call result → call = c.calls ∨ result.targets = []
  /-- A call to the Outbound flow comes before a second target was taken, or has no header to add. -/
  flow : ∀ connection, e.ev = .route (.flow connection) →
    c.taken ≤ 1 ∨ NothingToSet c.conf.recordRouting c.request

/-! ## What a walk tries -/

/-- A walk is over the targets of its list. -/
theorem walk_mem (env : Env) (n : ℕ) (ts : List Target) (cause : Cause) :
    (∀ q t, .trying q t ∈ (walk env n ts cause).1 → t ∈ ts) ∧
      ∀ stop, (walk env n ts cause).2 = some stop →
        stop.target ∈ ts ∧ ∀ u ∈ stop.rest, u ∈ ts := by
  refine walk_rule (P := fun _ ts _ p => (∀ q t, .trying q t ∈ p.1 → t ∈ ts) ∧
    ∀ stop, p.2 = some stop → stop.target ∈ ts ∧ ∀ u ∈ stop.rest, u ∈ ts) ?_ ?_ ?_ ?_ n ts cause
  · intro n cause
    refine ⟨fun q t h => ?_, fun stop h => by cases h⟩
    simp at h
  · intro n t ts cause entry p _ ⟨htry, hstop⟩
    refine ⟨?_, ?_⟩
    · intro q u h
      simp only [List.mem_cons, Output.trying.injEq, reduceCtorEq, false_or] at h
      rcases h with ⟨_, rfl⟩ | h
      · exact List.mem_cons_self
      · exact List.mem_cons_of_mem _ (htry q u h)
    · intro stop h
      obtain ⟨ht, hrest⟩ := hstop stop h
      exact ⟨List.mem_cons_of_mem _ ht, fun u hu => List.mem_cons_of_mem _ (hrest u hu)⟩
  · intro n t ts cause _ _
    refine ⟨?_, fun stop h => by cases h⟩
    intro q u h
    simp only [List.mem_cons, Output.trying.injEq, reduceCtorEq, List.not_mem_nil, or_false] at h
    exact h.2 ▸ List.mem_cons_self
  · intro n t ts cause _ _
    refine ⟨?_, ?_⟩
    · intro q u h
      simp only [List.mem_cons, Output.trying.injEq, reduceCtorEq, List.not_mem_nil, or_false] at h
      exact h.2 ▸ List.mem_cons_self
    · intro stop h
      obtain rfl := Option.some.inj h
      exact ⟨List.mem_cons_self, fun u hu => List.mem_cons_of_mem _ hu⟩

/-- The copy for the target that a walk stops at. -/
def stopCopy (env : Env) (conf : ClientConf) (r : RoutedRequest) (stop : Stop) : Output :=
  .send stop.num (.target stop.target)
    ((r.setContentLength.addRoutingHeaders conf.recordRouting (some stop.num)).sendRequest
      (conf.serverClass stop.target.transport stop.target.ipType)
      (conf.sameClass stop.target.transport stop.target.ipType) env.topVia).1

/-- What is seen of `tryNextTarget` depends on the configuration, the request and the targets left. -/
theorem tryNextTarget_out (env : Env) (cause : Cause) (haborted : c.aborted = false) :
    (tryNextTarget env c cause).2 =
      (walk env c.taken c.left cause).1 ++
        ((walk env c.taken c.left cause).2.map (stopCopy env c.conf c.request)).toList := by
  have hwalk : Walked env c (walk env c.taken c.left cause) (tryNextTarget env c cause) :=
    tryNextTarget_walk haborted
  generalize walk env c.taken c.left cause = w at hwalk
  generalize tryNextTarget env c cause = p at hwalk
  cases hwalk with
  | ended c' hend hleft hkept =>
    rw [hend]
    exact (List.append_nil _).symm
  | stopped c' stop hstop hleft hnum hkept =>
    rw [hstop]
    have hout : (c'.startFor env stop.target).2 = [stopCopy env c.conf c.request stop] := by
      unfold startFor startTransaction stopCopy
      rw [hkept.conf, hkept.request, hnum]
      rfl
    rw [hout]
    rfl

theorem rfc3263Succeeded_out (env : Env) (result : Resolution) (haborted : c.aborted = false) :
    (rfc3263Succeeded env c result).2 =
      (walk env 0 result.targets .none).1 ++
        ((walk env 0 result.targets .none).2.map (stopCopy env c.conf c.request)).toList := by
  obtain ⟨c', heq, hnum, hleft, hkept⟩ := rfc3263Succeeded_eq env c result
  have htaken : c'.taken = 0 := by
    rw [taken, hnum, Option.getD_some]
  rw [heq, tryNextTarget_out env .none (hkept.aborted.trans haborted), htaken, hleft, hkept.conf,
    hkept.request]

theorem mem_copies {os : List Output} {d : Destination} {copy : Headers} :
    (d, copy) ∈ copies os ↔ ∃ n, .send n d copy ∈ os := by
  unfold copies
  rw [List.mem_filterMap]
  constructor
  · rintro ⟨o, ho, heq⟩
    cases o with
    | send n d' copy' =>
      obtain ⟨rfl, rfl⟩ := Prod.mk.inj (Option.some.inj heq)
      exact ⟨n, ho⟩
    | _ => cases heq
  · rintro ⟨n, hn⟩
    exact ⟨_, hn, rfl⟩

/-- A call of `try_next_target` keeps to the targets that are left. -/
theorem tryNextTarget_mem {ds : List Destination} (env : Env) (cause : Cause)
    (haborted : c.aborted = false) (hleft : ∀ t ∈ c.left, .target t ∈ ds) :
    (∀ d copy, (d, copy) ∈ copies (tryNextTarget env c cause).2 → d ∈ ds) ∧
      (∀ n t, .trying n t ∈ (tryNextTarget env c cause).2 → .target t ∈ ds) ∧
      (tryNextTarget env c cause).1.aborted = false ∧
      ∀ t ∈ (tryNextTarget env c cause).1.left, .target t ∈ ds := by
  have hsent := walk_sent env c.taken c.left cause
  obtain ⟨htry, hstops⟩ := walk_mem env c.taken c.left cause
  refine ⟨?_, ?_, ?_⟩
  · intro d copy hmem
    obtain ⟨n, hn⟩ := mem_copies.mp hmem
    rw [tryNextTarget_out env cause haborted] at hn
    rcases List.mem_append.mp hn with hn | hn
    · have hnone : (d, n) ∈ sent (walk env c.taken c.left cause).1 :=
        List.mem_filterMap.mpr ⟨_, hn, rfl⟩
      rw [hsent] at hnone
      cases hnone
    · obtain ⟨stop, hstop, heq⟩ := Option.map_eq_some_iff.mp (Option.mem_toList.mp hn)
      obtain ⟨_, rfl, _⟩ := Output.send.inj heq
      exact hleft _ (hstops stop hstop).1
  · intro n t hmem
    rw [tryNextTarget_out env cause haborted] at hmem
    rcases List.mem_append.mp hmem with hmem | hmem
    · exact hleft t (htry n t hmem)
    · obtain ⟨stop, _, heq⟩ := Option.map_eq_some_iff.mp (Option.mem_toList.mp hmem)
      cases heq
  · have hwalk : Walked env c (walk env c.taken c.left cause) (tryNextTarget env c cause) :=
      tryNextTarget_walk haborted
    generalize walk env c.taken c.left cause = w at hwalk hstops
    generalize tryNextTarget env c cause = p at hwalk
    cases hwalk with
    | ended c' hend hnil hkept =>
      refine ⟨hkept.aborted.trans haborted, ?_⟩
      intro t ht
      rw [hnil] at ht
      cases ht
    | stopped c' stop hstop hrest hnum hkept =>
      refine ⟨hkept.aborted.trans haborted, ?_⟩
      have hsame : (c'.startFor env stop.target).1.left = stop.rest := hrest
      intro t ht
      rw [hsame] at ht
      exact hleft t ((hstops stop hstop).2 t ht)

/-! ## Steps -/

theorem resolved_snoc (tr : List (StepRec Client EnvEvent Output)) (r : StepRec Client EnvEvent Output) :
    resolved (tr ++ [r]) = resolvedBy (resolved tr) r.pre r.ev.ev := by
  simp [resolved]

theorem listed_snoc (tr : List (StepRec Client EnvEvent Output)) (r : StepRec Client EnvEvent Output) :
    listed (tr ++ [r]) = listedBy (listed tr) r.pre r.ev.ev := by
  simp [listed]

/-- The targets left are those of the last call, when it has a list. -/
structure Current (ds : List Destination) (b : Bool) (c : Client) : Prop where
  aborted : c.aborted = false
  left : b = true → ∀ t ∈ c.left, .target t ∈ ds

/-- The steps that send nothing and try nothing. -/
theorem isolated_of_quiet {ds : List Destination} {e : EnvEvent} {out : List Output} {c' : Client}
    (hcopies : copies out = []) (htry : ∀ n t, .trying n t ∉ out)
    (hnew : ∀ how, e.ev = .route how → copies (route e.env (new c.conf c.request) how).2 = [])
    (hdns : ∀ call result, e.ev = .dnsSucceeded call result → call ≠ c.calls) :
    Isolated ds ⟨c, e, out, c'⟩ := by
  refine ⟨?_, ?_, ?_, ?_⟩
  · intro d copy hmem
    rw [hcopies] at hmem
    cases hmem
  · intro n t hmem
    exact absurd hmem (htry n t)
  · intro how hev
    rw [hcopies, hnew how hev]
  · intro call result hev hcall
    exact absurd hcall (hdns call result hev)

/-- A result that is handed to the proxy. -/
theorem isolated_result {e : EnvEvent} {result : Resolution} {c₁ : Client}
    (haborted : c₁.aborted = false) (hconf : c₁.conf = c.conf) (hrequest : c₁.request = c.request)
    (hev : e.ev = .route (.resolved result) ∨ ∃ call, e.ev = .dnsSucceeded call result) :
    Isolated (result.targets.map .target)
        ⟨c, e, (rfc3263Succeeded e.env c₁ result).2, (rfc3263Succeeded e.env c₁ result).1⟩ ∧
      Current (result.targets.map .target) true (rfc3263Succeeded e.env c₁ result).1 := by
  obtain ⟨c', heq, _, hleft, hkept⟩ := rfc3263Succeeded_eq e.env c₁ result
  have hmem : ∀ t ∈ c'.left, .target t ∈ result.targets.map Destination.target := by
    intro t ht
    rw [hleft] at ht
    exact List.mem_map.mpr ⟨t, ht, rfl⟩
  obtain ⟨hsends, htries, haborted', hleft'⟩ :=
    tryNextTarget_mem e.env .none (hkept.aborted.trans haborted) hmem
  rw [← heq] at hsends htries haborted' hleft'
  -- a new proxy sends the same
  have hsame : ∀ c₂ : Client, c₂.aborted = false → c₂.conf = c.conf → c₂.request = c.request →
      (rfc3263Succeeded e.env c₁ result).2 = (rfc3263Succeeded e.env c₂ result).2 := by
    intro c₂ haborted₂ hconf₂ hrequest₂
    rw [rfc3263Succeeded_out e.env result haborted, rfc3263Succeeded_out e.env result haborted₂, hconf,
      hrequest, hconf₂, hrequest₂]
  refine ⟨⟨hsends, htries, ?_, ?_⟩, haborted', fun _ => hleft'⟩
  · intro how hev'
    rcases hev with hev | ⟨call, hev⟩
    · obtain rfl := Event.route.inj (hev'.symm.trans hev)
      exact congrArg copies (hsame { new c.conf c.request with calls := 1 } rfl rfl rfl)
    · cases hev'.symm.trans hev
  · intro call result' hev' _
    rcases hev with hev | ⟨call', hev⟩
    · cases hev'.symm.trans hev
    · obtain ⟨_, rfl⟩ := Event.dnsSucceeded.inj (hev'.symm.trans hev)
      exact congrArg copies (hsame (new c.conf c.request) rfl rfl rfl)

/-- A call to the Outbound flow sends what a new proxy would send, when it adds the same headers. -/
theorem flow_asNew (env : Env) (klass : ServerClass) (same : Bool)
    (h : c.taken ≤ 1 ∨ NothingToSet c.conf.recordRouting c.request) :
    copies (c.startTransaction env .flow klass same).2 =
      copies ((new c.conf c.request).startTransaction env .flow klass same).2 := by
  have hnew : (new c.conf c.request).startTransaction env .flow klass same =
      ({ new c.conf c.request with
        request := ((readied c.conf c.request).sendRequest klass same env.topVia).2
        attempts := [⟨.flow, true⟩] },
        [.send 0 .flow ((readied c.conf c.request).sendRequest klass same env.topVia).1]) := rfl
  have hcopy : ((c.request.setContentLength.addRoutingHeaders c.conf.recordRouting c.numTarget).sendRequest
        klass same env.topVia).1 = ((readied c.conf c.request).sendRequest klass same env.topVia).1 := by
    unfold addRoutingHeaders
    split
    · rename_i hgt
      rcases h with hle | hnothing
      · exfalso
        unfold taken at hle
        cases hnum : c.numTarget with
        | none =>
          rw [hnum] at hgt
          cases hgt
        | some n =>
          rw [hnum] at hgt hle
          simp only [Option.any_some, decide_eq_true_eq, Option.getD_some] at hgt hle
          omega
      · have hnothing' : NothingToSet c.conf.recordRouting c.request.setContentLength :=
          ⟨hnothing.maxForwards, hnothing.recordRoute⟩
        unfold readied
        rw [setRoutingHeaders_of_nothing hnothing']
        refine sendRequest_congr ?_ ?_ ?_ _
        · rfl
        · rfl
        · rfl
    · rfl
  rw [hnew]
  exact congrArg (fun copy => [(Destination.flow, copy)]) hcopy

theorem rfc3263Failed_eq (err : Rfc3263.Rfc3263Error) :
    ∃ cause, ∀ c : Client, rfc3263Failed c err = (c, [.failed cause]) := by
  cases err <;> exact ⟨_, fun _ => rfl⟩

/-- A call of `route` keeps to the destinations it has resolved. -/
theorem isolated_route {ds : List Destination} {e : EnvEvent} {how : Routing} (h : c.aborted = false)
    (hev : e.ev = .route how)
    (hflow : ∀ connection, how = .flow connection →
      c.taken ≤ 1 ∨ NothingToSet c.conf.recordRouting c.request) :
    Isolated (resolvedBy ds c (.route how)) ⟨c, e, (route e.env c how).2, (route e.env c how).1⟩ ∧
      Current (resolvedBy ds c (.route how)) (listedBy false c (.route how)) (route e.env c how).1 := by
  have hroute : ∀ how', e.ev = .route how' → how' = how := by
    intro how' hev'
    exact Event.route.inj (hev'.symm.trans hev)
  have hdns : ∀ call result, e.ev ≠ .dnsSucceeded call result := by
    intro call result hev'
    cases hev.symm.trans hev'
  cases how with
  | resolved result => exact isolated_result h rfl rfl (.inl hev)
  | wait =>
    refine ⟨isolated_of_quiet rfl (fun n t hmem => by cases hmem) ?_ ?_, h, Bool.noConfusion⟩
    · intro how' hev'
      rw [hroute how' hev']
      rfl
    · intro call result hev'
      exact absurd hev' (hdns call result)
  | failed err =>
    obtain ⟨cause, hcause⟩ := rfc3263Failed_eq err
    have hout : (route e.env c (.failed err)).2 = [.failed cause] := congrArg Prod.snd (hcause _)
    have haborted : (route e.env c (.failed err)).1.aborted = false := by
      have : (route e.env c (.failed err)).1 = { c with calls := c.calls + 1 } :=
        congrArg Prod.fst (hcause _)
      rw [this]
      exact h
    refine ⟨isolated_of_quiet (by rw [hout]; rfl) ?_ ?_ ?_, haborted, Bool.noConfusion⟩
    · intro n t hmem
      rw [hout] at hmem
      simp at hmem
    · intro how' hev'
      rw [hroute how' hev']
      have hnew : (route e.env (new c.conf c.request) (.failed err)).2 = [.failed cause] :=
        congrArg Prod.snd (hcause _)
      rw [hnew]
      rfl
    · intro call result hev'
      exact absurd hev' (hdns call result)
  | flow connection =>
    cases connection with
    | none =>
      have hquiet : ∀ c₂ : Client, copies (route e.env c₂ (.flow none)).2 = [] ∧
          ∀ n t, .trying n t ∉ (route e.env c₂ (.flow none)).2 := by
        intro c₂
        simp only [route]
        split <;> simp [copies]
      refine ⟨isolated_of_quiet (hquiet c).1 (hquiet c).2 ?_ ?_, h, Bool.noConfusion⟩
      · intro how' hev'
        rw [hroute how' hev']
        exact (hquiet _).1
      · intro call result hev'
        exact absurd hev' (hdns call result)
    | some k =>
      have hout : ∃ copy, (route e.env c (.flow (some k))).2 = [.send c.taken .flow copy] := ⟨_, rfl⟩
      obtain ⟨copy, hout⟩ := hout
      refine ⟨⟨?_, ?_, ?_, ?_⟩, h, Bool.noConfusion⟩
      · intro d copy' hmem
        rw [hout] at hmem
        obtain ⟨n, hn⟩ := mem_copies.mp hmem
        obtain ⟨_, rfl, _⟩ := Output.send.inj (List.mem_singleton.mp hn)
        exact List.mem_singleton.mpr rfl
      · intro n t hmem
        rw [hout] at hmem
        simp at hmem
      · intro how' hev'
        rw [hroute how' hev']
        exact flow_asNew e.env k.1 k.2 (hflow _ rfl)
      · intro call result hev'
        exact absurd hev' (hdns call result)

/-- What becomes of a client transaction keeps to the destinations of the last call. -/
theorem isolated_outcome {ds : List Destination} {b : Bool} {e : EnvEvent} {i : ℕ} {o : Outcome}
    {p : Client × List Output} (h : Current ds b c) (hev : e.ev = .outcome i o)
    (hs : step c e = some p) (hsep : o.cause c.conf ≠ none → b = true ∨ c.left = []) :
    Isolated ds ⟨c, e, p.2, p.1⟩ ∧ Current ds b p.1 := by
  obtain ⟨a, _, _, _, rfl⟩ := step_outcome hev hs
  have hroute : ∀ how, e.ev ≠ .route how := by
    intro how hev'
    cases hev.symm.trans hev'
  have hdns : ∀ call result, e.ev ≠ .dnsSucceeded call result := by
    intro call result hev'
    cases hev.symm.trans hev'
  cases hcause : o.cause c.conf with
  | some cause =>
    have hcause' : o.cause (c.settle i a o).conf = some cause := hcause
    obtain ⟨_, hcall⟩ := coreCall_of_some e.env (c.settle i a o) hcause'
    rw [hcall]
    have hleft : ∀ t ∈ (c.settle i a o).left, .target t ∈ ds := by
      have hsame : (c.settle i a o).left = c.left := rfl
      rw [hsame]
      rcases hsep (by rw [hcause]; exact Option.some_ne_none _) with hb | hnil
      · exact h.left hb
      · rw [hnil]
        intro t ht
        cases ht
    have haborted : (c.settle i a o).aborted = false := h.aborted
    obtain ⟨hsends, htries, haborted', hleft'⟩ := tryNextTarget_mem e.env cause haborted hleft
    exact ⟨⟨hsends, htries, fun how hev' => absurd hev' (hroute how),
      fun call result hev' => absurd hev' (hdns call result)⟩, haborted', fun _ => hleft'⟩
  | none =>
    have hcause' : o.cause (c.settle i a o).conf = none := hcause
    obtain ⟨r, hcall⟩ := coreCall_of_none e.env (c.settle i a o) hcause'
    rw [hcall]
    refine ⟨isolated_of_quiet rfl ?_ ?_ ?_, h.aborted, h.left⟩
    · intro n t hmem
      simp at hmem
    · intro how hev'
      exact absurd hev' (hroute how)
    · intro call result hev'
      exact absurd hev' (hdns call result)

/-- **One step of a proxy that does not meet with an earlier call.** -/
theorem isolated_step {tr : List (StepRec Client EnvEvent Output)} {e : EnvEvent} {c' : Client}
    {out : List Output} (h : Current (resolved tr) (listed tr) c) (hsep : Separate tr c e)
    (hs : step c e = some (c', out)) :
    Isolated (resolvedBy (resolved tr) c e.ev) ⟨c, e, out, c'⟩ ∧
      Current (resolvedBy (resolved tr) c e.ev) (listedBy (listed tr) c e.ev) c' := by
  cases hev : e.ev with
  | route how =>
    have hs' : some (route e.env c how) = some (c', out) := by
      rw [← hs, step, hev]
    obtain ⟨rfl, rfl⟩ := Prod.mk.inj (Option.some.inj hs').symm
    have hlisted : listedBy (listed tr) c (.route how) = listedBy false c (.route how) := by
      cases how <;> rfl
    rw [hlisted]
    refine isolated_route h.aborted hev ?_
    intro connection hhow
    exact hsep.flow connection (hev.trans (congrArg Event.route hhow))
  | dnsSucceeded call result =>
    have hs' : (if call ∈ c.waiting then
        some (rfc3263Succeeded e.env { c with waiting := c.waiting.erase call } result)
        else none) = some (c', out) := by
      rw [← hs, step, hev]
    by_cases hmem : call ∈ c.waiting
    · rw [if_pos hmem] at hs'
      by_cases hcall : call = c.calls
      · obtain ⟨rfl, rfl⟩ := Prod.mk.inj (Option.some.inj hs').symm
        have hds : resolvedBy (resolved tr) c (.dnsSucceeded call result) =
            result.targets.map .target := if_pos hcall
        have hlisted : listedBy (listed tr) c (.dnsSucceeded call result) = true := by
          simp [listedBy, hcall]
        rw [hds, hlisted]
        exact isolated_result h.aborted rfl rfl (.inr ⟨call, hev⟩)
      · -- a late answer without a target leaves nothing to try
        have hnone : result.targets = [] := (hsep.dns call result hev).resolve_left hcall
        obtain ⟨c₁, heq, _, hleft, hkept⟩ :=
          rfc3263Succeeded_eq e.env { c with waiting := c.waiting.erase call } result
        have htry : rfc3263Succeeded e.env { c with waiting := c.waiting.erase call } result =
            (c₁, [.noMoreTargets .none]) :=
          heq.trans (tryNextTarget_nil (hleft.trans hnone))
        rw [htry] at hs'
        obtain ⟨rfl, rfl⟩ := Prod.mk.inj (Option.some.inj hs').symm
        have hds : resolvedBy (resolved tr) c (.dnsSucceeded call result) = resolved tr := if_neg hcall
        rw [hds]
        refine ⟨isolated_of_quiet rfl ?_ ?_ ?_, hkept.aborted.trans h.aborted, ?_⟩
        · intro n t hmem
          simp at hmem
        · intro how hev'
          cases hev.symm.trans hev'
        · intro call' result' hev'
          obtain ⟨rfl, _⟩ := Event.dnsSucceeded.inj (hev.symm.trans hev')
          exact hcall
        · intro _ t ht
          rw [hleft.trans hnone] at ht
          cases ht
    · rw [if_neg hmem] at hs'
      cases hs'
  | dnsFailed call err =>
    have hs' : (if call ∈ c.waiting then
        some (rfc3263Failed { c with waiting := c.waiting.erase call } err)
        else none) = some (c', out) := by
      rw [← hs, step, hev]
    obtain ⟨cause, hcause⟩ := rfc3263Failed_eq err
    by_cases hmem : call ∈ c.waiting
    · rw [if_pos hmem, hcause] at hs'
      obtain ⟨rfl, rfl⟩ := Prod.mk.inj (Option.some.inj hs').symm
      refine ⟨isolated_of_quiet rfl ?_ ?_ ?_, h.aborted, h.left⟩
      · intro n t hmem
        simp at hmem
      · intro how hev'
        cases hev.symm.trans hev'
      · intro call result hev'
        cases hev.symm.trans hev'
    · rw [if_neg hmem] at hs'
      cases hs'
  | outcome i o => exact isolated_outcome h hev hs (hsep.outcome i o hev)

/-! ## Runs -/

/-- **Calls of `route` do not meet** in a run whose steps are all separate: each sends to its own
destinations, and what a new proxy would send. -/
theorem calls_isolated {conf : ClientConf} {request : RoutedRequest}
    {tr : List (StepRec Client EnvEvent Output)} (h : Run step (new conf request) tr c)
    (hsep : ∀ tr₁ r tr₂, tr = tr₁ ++ r :: tr₂ → Separate tr₁ r.pre r.ev) :
    ∀ tr₁ r tr₂, tr = tr₁ ++ r :: tr₂ → Isolated (resolved (tr₁ ++ [r])) r := by
  suffices hinv : Current (resolved tr) (listed tr) c ∧
      ∀ tr₁ r tr₂, tr = tr₁ ++ r :: tr₂ → Isolated (resolved (tr₁ ++ [r])) r from hinv.2
  induction h with
  | nil =>
    refine ⟨⟨rfl, Bool.noConfusion⟩, ?_⟩
    intro tr₁ r tr₂ htr
    simp at htr
  | @snoc tr s s' e o _ hs ih =>
    obtain ⟨hcurrent, hall⟩ := ih (by
      intro tr₁ r tr₂ htr
      exact hsep tr₁ r (tr₂ ++ [⟨s, e, o, s'⟩]) (by rw [htr, List.append_assoc, List.cons_append]))
    obtain ⟨hisolated, hcurrent'⟩ := isolated_step hcurrent (hsep tr _ [] rfl) hs
    refine ⟨?_, ?_⟩
    · rw [resolved_snoc, listed_snoc]
      exact hcurrent'
    · intro tr₁ r tr₂ htr
      rcases snoc_eq_append_cons htr with ⟨rfl, rfl⟩ | ⟨tr₃, htr₃⟩
      · rw [resolved_snoc]
        exact hisolated
      · exact hall tr₁ r tr₃ htr₃

/-! ## A call to the Outbound flow after one to a domain -/

def forkEnv : Env :=
  { blacklist := fun _ _ => none
    abortRouting := fun _ => false
    topVia := "SIP/2.0/UDP 192.0.2.1:5060;branch=z9hG4bK3;rport" }

/-- A request that has come with the token of an Outbound flow. -/
def flowRequest : RoutedRequest :=
  { sampleRouted with incomingOutbound := true, routeOutboundFlowToken := "3f0a5c" }

/-- Its client, with the first of two targets taken. -/
def forkTaken : Client :=
  { new sampleClientConf flowRequest with
    targets := some [sampleTarget, otherTarget], numTarget := some 1
    currentTarget := some sampleTarget, calls := 1 }

/-- The request is routed to two targets. -/
def forkFirst : StepRec Client EnvEvent Output :=
  { pre := new sampleClientConf flowRequest
    ev := ⟨forkEnv, .route (.resolved (.multiple [sampleTarget, otherTarget]))⟩
    out := .trying 1 sampleTarget :: .onTarget 1 sampleTarget ::
      (forkTaken.startFor forkEnv sampleTarget).2
    post := (forkTaken.startFor forkEnv sampleTarget).1 }

/-- The first target is busy. -/
def forkSecond : StepRec Client EnvEvent Output :=
  { pre := forkFirst.post
    ev := ⟨forkEnv, .outcome 0 (.response ⟨486, none⟩)⟩
    out := [.answered ⟨486, none⟩]
    post := { forkFirst.post with attempts := [⟨.target sampleTarget, false⟩] } }

/-- The callback routes the request to its Outbound flow. -/
def forkThird : StepRec Client EnvEvent Output :=
  { pre := forkSecond.post
    ev := ⟨forkEnv, .route (.flow (some (sampleServerClass, true)))⟩
    out := (route forkEnv forkSecond.post (.flow (some (sampleServerClass, true)))).2
    post := (route forkEnv forkSecond.post (.flow (some (sampleServerClass, true)))).1 }

/-- The client, with the second target of the first call taken. -/
def forkRetaken : Client :=
  { forkThird.post with
    attempts := [⟨.target sampleTarget, false⟩, ⟨.flow, false⟩], numTarget := some 2
    currentTarget := some otherTarget }

/-- The connection of the flow fails. -/
def forkFourth : StepRec Client EnvEvent Output :=
  { pre := forkThird.post
    ev := ⟨forkEnv, .outcome 1 .connectionFailed⟩
    out := .trying 2 otherTarget :: .onTarget 2 otherTarget ::
      (forkRetaken.startFor forkEnv otherTarget).2
    post := (forkRetaken.startFor forkEnv otherTarget).1 }

theorem forkFirst_step : step forkFirst.pre forkFirst.ev = some (forkFirst.post, forkFirst.out) := by
  have htry : tryNextTarget forkEnv
      { new sampleClientConf flowRequest with
        targets := some [sampleTarget, otherTarget], numTarget := some 0, calls := 1 } .none =
      (forkFirst.post, forkFirst.out) := by
    rw [tryNextTarget_cons rfl, useTarget_starts _ rfl rfl rfl]
    rfl
  exact congrArg some htry

theorem forkThree_run :
    Run step (new sampleClientConf flowRequest) [forkFirst, forkSecond, forkThird] forkThird.post :=
  ((Run.of_singleton forkFirst_step).snoc (o := forkSecond.out) rfl).snoc (o := forkThird.out) rfl

/-- The answer of the first target is no failure, and the flow is routed to with one target taken. -/
theorem forkThree_separate (tr₁ tr₂ : List (StepRec Client EnvEvent Output))
    (r : StepRec Client EnvEvent Output)
    (htr : [forkFirst, forkSecond, forkThird] = tr₁ ++ r :: tr₂) : Separate tr₁ r.pre r.ev := by
  rcases tr₁ with _ | ⟨r₁, _ | ⟨r₂, _ | ⟨r₃, tr₁⟩⟩⟩
  · obtain ⟨rfl, _⟩ := List.cons.inj htr
    refine ⟨?_, ?_, ?_⟩
    · intro i o he
      cases he
    · intro call result he
      cases he
    · intro connection he
      cases he
  · obtain ⟨_, htr⟩ := List.cons.inj htr
    obtain ⟨rfl, _⟩ := List.cons.inj htr
    refine ⟨?_, ?_, ?_⟩
    · intro i o he
      obtain ⟨_, rfl⟩ := Event.outcome.inj he
      intro hcause
      exact absurd rfl hcause
    · intro call result he
      cases he
    · intro connection he
      cases he
  · obtain ⟨_, htr⟩ := List.cons.inj htr
    obtain ⟨_, htr⟩ := List.cons.inj htr
    obtain ⟨rfl, _⟩ := List.cons.inj htr
    refine ⟨?_, ?_, ?_⟩
    · intro i o he
      cases he
    · intro call result he
      cases he
    · intro connection _
      exact .inl (Nat.le_refl 1)
  · have hlen := congrArg List.length htr
    simp only [List.cons_append, List.length_cons, List.length_append, List.length_nil] at hlen
    omega

/-- The run of the first three steps. -/
theorem calls_isolated_sample : Isolated (resolved [forkFirst, forkSecond, forkThird]) forkThird :=
  calls_isolated forkThree_run (fun tr₁ r tr₂ => forkThree_separate tr₁ tr₂ r)
    [forkFirst, forkSecond] forkThird [] rfl

theorem forkFourth_step : step forkFourth.pre forkFourth.ev = some (forkFourth.post, forkFourth.out) := by
  have htry : tryNextTarget forkEnv
      { forkThird.post with attempts := [⟨.target sampleTarget, false⟩, ⟨.flow, false⟩] }
      (.error 500 "Connection Error" .connectionError) = (forkFourth.post, forkFourth.out) := by
    rw [tryNextTarget_cons rfl, useTarget_starts _ rfl rfl rfl]
    rfl
  exact congrArg some htry

/-- The failure of the Outbound flow sends the request to the second target of the first call. -/
theorem calls_meet :
    ∃ tr c, Run step (new sampleClientConf flowRequest) tr c ∧
      ∃ tr₁ r tr₂, tr = tr₁ ++ r :: tr₂ ∧ ¬ Isolated (resolved (tr₁ ++ [r])) r := by
  refine ⟨[forkFirst, forkSecond, forkThird] ++ [forkFourth], forkFourth.post,
    forkThree_run.snoc forkFourth_step, [forkFirst, forkSecond, forkThird], forkFourth, [], rfl, ?_⟩
  intro hisolated
  have htried := hisolated.tries 2 otherTarget List.mem_cons_self
  have hflow : resolved ([forkFirst, forkSecond, forkThird] ++ [forkFourth]) = [.flow] := rfl
  rw [hflow] at htried
  cases List.mem_singleton.mp htried

end Client

end OverSip
