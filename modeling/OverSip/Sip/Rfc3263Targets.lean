import OverSip.Sip.Rfc3263

/-!
# The targets in a result

What a result is made of: its shape, its addresses, and whether `rfc3263_succeeded` has a target to try,
whatever `randomize` draws (`Result.hasTarget_iff`). A result that is unwrapped or collected keeps the
addresses; the array of a single priority is no result that `rfc3263_succeeded` knows.
-/

namespace OverSip

namespace Rfc3263

/-! ## The targets that are tried -/

namespace SrvTargets

/-- There are no empty arrays in it. -/
def Proper (s : SrvTargets) : Prop := ∀ g ∈ s, g ≠ [] ∧ ∀ e ∈ g, e.targets ≠ []

/-- `randomize` yields a target: it does for an entry that is alone, or has a weight. -/
def HasTarget (s : SrvTargets) : Prop := ∃ g ∈ s, g.length = 1 ∨ ∃ e ∈ g, 0 < e.weight

end SrvTargets

theorem pickEntry_perm {rnd : Nat} {es rest : List SrvWeightTarget} {e : SrvWeightTarget}
    (h : pickEntry rnd es = some (e, rest)) : es.Perm (e :: rest) := by
  induction es generalizing rnd rest with
  | nil => cases h
  | cons x es ih =>
    unfold pickEntry at h
    split_ifs at h with hrnd
    · cases h
      exact List.Perm.refl _
    · obtain ⟨⟨e', rest'⟩, hpick, heq⟩ := Option.map_eq_some_iff.mp h
      obtain ⟨rfl, rfl⟩ := Prod.mk.inj heq
      exact ((ih hpick).cons x).trans (List.Perm.swap e' x rest')

theorem RandomizesEntries.perm {es : List SrvWeightTarget} {ts : List Target}
    (h : RandomizesEntries es ts) : ts.Perm (es.flatMap (·.targets)) := by
  induction h with
  | nil => exact List.Perm.refl _
  | pick _ hpick _ ih =>
    refine (ih.append_left _).trans ?_
    rw [← List.flatMap_cons]
    exact (pickEntry_perm hpick).symm.flatMap_right _

/-- Entries with weights are drawn to the last. -/
theorem exists_randomizesEntries {es : List SrvWeightTarget} (h : ∀ e ∈ es, 0 < e.weight) :
    ∃ ts, RandomizesEntries es ts := by
  induction es with
  | nil => exact ⟨[], .nil⟩
  | cons e es ih =>
    rw [List.forall_mem_cons] at h
    obtain ⟨ts, hts⟩ := ih h.2
    have hlt : 0 < ((e :: es).map (·.weight)).sum := by
      rw [List.map_cons, List.sum_cons]
      exact Nat.add_pos_left h.1 _
    have hpick : pickEntry 0 (e :: es) = some (e, es) := if_pos h.1
    exact ⟨_, .pick hlt hpick hts⟩

theorem exists_randomizes (s : SrvTargets) : ∃ ts, Randomizes s ts := by
  induction s with
  | nil => exact ⟨[], .nil⟩
  | cons g s ih =>
    obtain ⟨ts, hts⟩ := ih
    by_cases hlength : g.length = 1
    · obtain ⟨e, rfl⟩ := List.length_eq_one_iff.mp hlength
      exact ⟨_, .single hts⟩
    · have hweights : ∀ e ∈ g.filter fun e => 0 < e.weight, 0 < e.weight :=
        fun e he => of_decide_eq_true (List.mem_filter.mp he).2
      obtain ⟨picked, hpicked⟩ := exists_randomizesEntries hweights
      exact ⟨_, .several hlength hpicked (List.Perm.refl _) hts⟩

theorem Randomizes.exists_target_iff {s : SrvTargets} {ts : List Tried} (h : Randomizes s ts)
    (hs : s.Proper) : (∃ t, .target t ∈ ts) ↔ s.HasTarget := by
  induction h with
  | nil =>
    constructor
    · rintro ⟨t, ht⟩
      cases ht
    · rintro ⟨g, hg, _⟩
      cases hg
  | @single e s ts _ ih =>
    obtain ⟨⟨_, htargets⟩, _⟩ := List.forall_mem_cons.mp hs
    obtain ⟨t, ht⟩ := List.exists_mem_of_ne_nil _ (htargets e (List.mem_singleton.mpr rfl))
    apply iff_of_true
    · exact ⟨t, List.mem_append_left _ (List.mem_map_of_mem ht)⟩
    · exact ⟨[e], List.mem_cons_self, .inl rfl⟩
  | @several g shuffled s picked ts hlength hpicked hshuffled _ ih =>
    obtain ⟨⟨_, htargets⟩, hs'⟩ := List.forall_mem_cons.mp hs
    have hmem : ∀ t, .target t ∈ picked.map Tried.target ++
        (shuffled.map fun e => Tried.targets e.targets) ++ ts ↔ t ∈ picked ∨ .target t ∈ ts := by
      intro t
      simp
    have hpicked' : (∃ t, t ∈ picked) ↔ ∃ e ∈ g, 0 < e.weight := by
      constructor
      · rintro ⟨t, ht⟩
        obtain ⟨e, he, _⟩ := List.mem_flatMap.mp (hpicked.perm.mem_iff.mp ht)
        exact ⟨e, List.mem_of_mem_filter he, of_decide_eq_true (List.mem_filter.mp he).2⟩
      · rintro ⟨e, he, hweight⟩
        obtain ⟨t, ht⟩ := List.exists_mem_of_ne_nil _ (htargets e he)
        exact ⟨t, hpicked.perm.mem_iff.mpr (List.mem_flatMap.mpr
          ⟨e, List.mem_filter.mpr ⟨he, decide_eq_true hweight⟩, ht⟩)⟩
    simp only [hmem, exists_or, hpicked', ih hs']
    unfold SrvTargets.HasTarget
    rw [List.exists_mem_cons_iff, or_iff_right hlength]

/-! ## Results -/

def Target.address (t : Target) : IpType × String := (t.ipType, t.ip)

/-- The addresses in an array of arrays of entries. -/
def srvAddresses (s : SrvTargets) : List (IpType × String) :=
  s.flatten.flatMap fun e => e.targets.map Target.address

namespace SrvResult

def addresses : SrvResult → List (IpType × String)
  | multiTargets ts => ts.map Target.address
  | srvTargets s => srvAddresses s

/-- There is nothing empty in it. -/
def Proper : SrvResult → Prop
  | multiTargets ts => ts ≠ []
  | srvTargets s => s ≠ [] ∧ s.Proper

def HasTarget : SrvResult → Prop
  | multiTargets _ => True
  | srvTargets s => s.HasTarget

/-- The entries that it adds to a `MultiTargets`. -/
def entries : SrvResult → List MultiEntry
  | multiTargets ts => ts.map .target
  | srvTargets s => [.srvTargets s]

end SrvResult

namespace MultiEntry

def addresses : MultiEntry → List (IpType × String)
  | target t => [t.address]
  | srvTargets s => srvAddresses s

def HasTarget : MultiEntry → Prop
  | target _ => True
  | srvTargets s => s.HasTarget

end MultiEntry

namespace Result

def addresses : Result → List (IpType × String)
  | target t => [t.address]
  | srvTargets s => srvAddresses s
  | multiTargets m => m.entries.flatMap MultiEntry.addresses
  | array es => es.flatMap fun e => e.targets.map Target.address

/-- A `Target`, a `SrvTargets` or a `MultiTargets` that is not empty. There are `SrvTargets` in a
`MultiTargets` only when it says so. -/
def WellShaped : Result → Prop
  | target _ => True
  | srvTargets s => s ≠ []
  | multiTargets m => m.entries ≠ [] ∧
    ∀ s, .srvTargets s ∈ m.entries → s ≠ [] ∧ m.hasSrvWeightTargets = true
  | array _ => False

/-- There are no empty arrays in the `SrvTargets` of the result. -/
def Proper : Result → Prop
  | target _ => True
  | srvTargets s => s.Proper
  | multiTargets m => ∀ s, .srvTargets s ∈ m.entries → s.Proper ∧ m.hasSrvWeightTargets = true
  | array _ => True

/-- There is a target to try, whatever is drawn. -/
def HasTarget : Result → Prop
  | target _ => True
  | srvTargets s => s.HasTarget
  | multiTargets m => ∃ e ∈ m.entries, e.HasTarget
  | array _ => False

end Result

theorem exists_flattens (es : List MultiEntry) : ∃ ts, Flattens es ts := by
  induction es with
  | nil => exact ⟨[], .nil⟩
  | cons e es ih =>
    obtain ⟨ts, hts⟩ := ih
    cases e with
    | target t => exact ⟨_, .target hts⟩
    | srvTargets s =>
      obtain ⟨us, hus⟩ := exists_randomizes s
      exact ⟨_, .srvTargets hus hts⟩

theorem Flattens.exists_target_iff {es : List MultiEntry} {ts : List Tried} (h : Flattens es ts)
    (hes : ∀ s, .srvTargets s ∈ es → s.Proper) : (∃ t, .target t ∈ ts) ↔ ∃ e ∈ es, e.HasTarget := by
  induction h with
  | nil =>
    constructor
    · rintro ⟨t, ht⟩
      cases ht
    · rintro ⟨e, he, _⟩
      cases he
  | @target t es ts _ _ =>
    apply iff_of_true
    · exact ⟨t, List.mem_cons_self⟩
    · exact ⟨.target t, List.mem_cons_self, trivial⟩
  | @srvTargets s es us ts hus _ ih =>
    have hs := hes s List.mem_cons_self
    have hrest := ih fun s hs => hes s (List.mem_cons_of_mem _ hs)
    simp only [List.mem_append, exists_or, hus.exists_target_iff hs, hrest, List.exists_mem_cons_iff]
    rfl

theorem exists_succeeded (r : Result) : ∃ ts, Rfc3263Succeeded r ts := by
  cases r with
  | target t => exact ⟨_, .target⟩
  | srvTargets s =>
    obtain ⟨ts, hts⟩ := exists_randomizes s
    exact ⟨ts, .srvTargets hts⟩
  | multiTargets m =>
    cases hflag : m.hasSrvWeightTargets with
    | true =>
      obtain ⟨ts, hts⟩ := exists_flattens m.entries
      exact ⟨ts, .flatten hflag hts⟩
    | false => exact ⟨_, .flat hflag⟩
  | array es => exact ⟨_, .array⟩

theorem Rfc3263Succeeded.exists_target_iff {r : Result} {ts : List Tried} (h : Rfc3263Succeeded r ts)
    (hr : r.Proper) : (∃ t, .target t ∈ ts) ↔ r.HasTarget := by
  cases h with
  | @target t =>
    apply iff_of_true
    · exact ⟨t, List.mem_singleton.mpr rfl⟩
    · exact trivial
  | srvTargets hts => exact hts.exists_target_iff hr
  | flatten _ hts => exact hts.exists_target_iff fun s hs => (hr s hs).1
  | @flat m hflag =>
    constructor
    · rintro ⟨t, ht⟩
      obtain ⟨e, he, heq⟩ := List.mem_map.mp ht
      cases e with
      | target t' => exact ⟨_, he, trivial⟩
      | srvTargets s => cases heq
    · rintro ⟨e, he, _⟩
      cases e with
      | target t => exact ⟨t, List.mem_map.mpr ⟨_, he, rfl⟩⟩
      | srvTargets s =>
        have hnot := (hr s he).2
        rw [hflag] at hnot
        cases hnot
  | array =>
    apply iff_of_false
    · rintro ⟨t, ht⟩
      cases ht
    · exact fun h => h

/-- `rfc3263_succeeded` has a target to try, whatever is drawn. -/
theorem Result.hasTarget_iff {r : Result} (hr : r.Proper) :
    (∀ ts, Rfc3263Succeeded r ts → ∃ t, .target t ∈ ts) ↔ r.HasTarget := by
  constructor
  · intro hall
    obtain ⟨ts, hts⟩ := exists_succeeded r
    exact (hts.exists_target_iff hr).mp (hall ts hts)
  · exact fun h ts hts => (hts.exists_target_iff hr).mpr h

/-! ## Handing over -/

theorem MultiTargets.proper_handOver {m : MultiTargets}
    (h : ∀ s, .srvTargets s ∈ m.entries → s.Proper ∧ m.hasSrvWeightTargets = true) :
    m.handOver.Proper := by
  unfold MultiTargets.handOver
  split
  · next e he =>
    cases e with
    | target t => exact trivial
    | srvTargets s => exact (h s (by rw [he]; exact List.mem_singleton.mpr rfl)).1
  · exact h

theorem MultiTargets.addresses_handOver (m : MultiTargets) :
    m.handOver.addresses = m.entries.flatMap MultiEntry.addresses := by
  unfold MultiTargets.handOver
  split
  · next e he =>
    rw [he, List.flatMap_singleton]
    cases e <;> rfl
  · rfl

theorem MultiTargets.hasTarget_handOver (m : MultiTargets) :
    m.handOver.HasTarget ↔ ∃ e ∈ m.entries, e.HasTarget := by
  unfold MultiTargets.handOver
  split
  · next e he =>
    rw [he]
    simp only [List.mem_singleton, exists_eq_left]
    cases e <;> exact Iff.rfl
  · exact Iff.rfl

theorem MultiTargets.wellShaped_handOver {m : MultiTargets} (hne : m.entries ≠ [])
    (h : ∀ s, .srvTargets s ∈ m.entries → s ≠ [] ∧ m.hasSrvWeightTargets = true) :
    m.handOver.WellShaped := by
  unfold MultiTargets.handOver
  split
  · next e he =>
    cases e with
    | target t => exact trivial
    | srvTargets s => exact (h s (by rw [he]; exact List.mem_singleton.mpr rfl)).1
  · exact ⟨hne, h⟩

/-- Targets that are found for a host. -/
theorem handOver_ofTargets {ts : List Target} (hne : ts ≠ []) :
    (MultiTargets.ofTargets ts).handOver.WellShaped ∧ (MultiTargets.ofTargets ts).handOver.Proper ∧
      (MultiTargets.ofTargets ts).handOver.HasTarget ∧
      (MultiTargets.ofTargets ts).handOver.addresses = ts.map Target.address := by
  have hnone : ∀ s, .srvTargets s ∉ (MultiTargets.ofTargets ts).entries := by
    intro s hs
    obtain ⟨t, _, ht⟩ := List.mem_map.mp hs
    cases ht
  refine ⟨?_, ?_, ?_, ?_⟩
  · apply MultiTargets.wellShaped_handOver
    · exact fun hnil => hne (List.map_eq_nil_iff.mp hnil)
    · exact fun s hs => absurd hs (hnone s)
  · exact MultiTargets.proper_handOver fun s hs => absurd hs (hnone s)
  · obtain ⟨t, ht⟩ := List.exists_mem_of_ne_nil _ hne
    rw [MultiTargets.hasTarget_handOver]
    exact ⟨.target t, List.mem_map_of_mem ht, trivial⟩
  · rw [MultiTargets.addresses_handOver]
    show (ts.map MultiEntry.target).flatMap MultiEntry.addresses = _
    rw [List.flatMap_map, List.map_eq_flatMap]
    rfl

/-! ## Results that are collected -/

theorem collect_spec (results : List (Option SrvResult)) :
    (MultiTargets.collect results).entries = results.flatMap (fun r => r.elim [] SrvResult.entries) ∧
      ((MultiTargets.collect results).hasSrvWeightTargets = true ↔
        ∃ s, some (.srvTargets s) ∈ results) := by
  have hfold : ∀ m : MultiTargets, (results.foldl MultiTargets.add m).entries =
        m.entries ++ results.flatMap (fun r => r.elim [] SrvResult.entries) ∧
      ((results.foldl MultiTargets.add m).hasSrvWeightTargets = true ↔
        m.hasSrvWeightTargets = true ∨ ∃ s, some (.srvTargets s) ∈ results) := by
    induction results with
    | nil =>
      intro m
      simp
    | cons r results ih =>
      intro m
      obtain ⟨hentries, hflag⟩ := ih (m.add r)
      rw [List.foldl_cons, hentries, hflag, List.flatMap_cons, ← List.append_assoc]
      rcases r with _ | ts | s
      · refine ⟨?_, ?_⟩
        · show m.entries ++ _ = m.entries ++ [] ++ _
          rw [List.append_nil]
        · show m.hasSrvWeightTargets = true ∨ _ ↔ _
          simp
      · refine ⟨rfl, ?_⟩
        show m.hasSrvWeightTargets = true ∨ _ ↔ _
        simp
      · refine ⟨rfl, iff_of_true (.inl rfl) (.inr ⟨s, List.mem_cons_self⟩)⟩
  obtain ⟨hentries, hflag⟩ := hfold { entries := [], hasSrvWeightTargets := false }
  refine ⟨hentries, hflag.trans ?_⟩
  simp

theorem SrvResult.flatMap_entries (r : SrvResult) :
    r.entries.flatMap MultiEntry.addresses = r.addresses := by
  cases r with
  | multiTargets ts =>
    show (ts.map MultiEntry.target).flatMap MultiEntry.addresses = ts.map Target.address
    rw [List.flatMap_map, List.map_eq_flatMap]
    rfl
  | srvTargets s => exact List.flatMap_singleton _ _

/-- What the results of some SRV lookups are together. -/
theorem collect_handOver {results : List (Option SrvResult)} (h : ∀ r, some r ∈ results → r.Proper) :
    (MultiTargets.collect results).handOver.Proper ∧
      ((MultiTargets.collect results).handOver.HasTarget ↔ ∃ r, some r ∈ results ∧ r.HasTarget) ∧
      (MultiTargets.collect results).handOver.addresses =
        results.flatMap (fun r => r.elim [] SrvResult.addresses) ∧
      ((MultiTargets.collect results).entries ≠ [] ↔ ∃ r, some r ∈ results) ∧
      ((MultiTargets.collect results).entries ≠ [] →
        (MultiTargets.collect results).handOver.WellShaped) := by
  obtain ⟨hentries, hflag⟩ := collect_spec results
  have hmem : ∀ e, e ∈ (MultiTargets.collect results).entries ↔
      ∃ r, some r ∈ results ∧ e ∈ r.entries := by
    intro e
    rw [hentries, List.mem_flatMap]
    constructor
    · rintro ⟨_ | r, hr, he⟩
      · cases he
      · exact ⟨r, hr, he⟩
    · rintro ⟨r, hr, he⟩
      exact ⟨some r, hr, he⟩
  have hsrv : ∀ s, .srvTargets s ∈ (MultiTargets.collect results).entries →
      some (.srvTargets s) ∈ results := by
    intro s hs
    obtain ⟨r, hr, he⟩ := (hmem _).mp hs
    cases r with
    | multiTargets ts =>
      obtain ⟨t, _, ht⟩ := List.mem_map.mp he
      cases ht
    | srvTargets s' =>
      cases List.mem_singleton.mp he
      exact hr
  refine ⟨?_, ?_, ?_, ?_, ?_⟩
  · exact MultiTargets.proper_handOver fun s hs =>
      ⟨(h _ (hsrv s hs)).2, hflag.mpr ⟨s, hsrv s hs⟩⟩
  · rw [MultiTargets.hasTarget_handOver]
    simp only [hmem]
    constructor
    · rintro ⟨e, ⟨r, hr, he⟩, htarget⟩
      refine ⟨r, hr, ?_⟩
      cases r with
      | multiTargets ts => exact trivial
      | srvTargets s =>
        rw [List.mem_singleton.mp he] at htarget
        exact htarget
    · rintro ⟨r, hr, htarget⟩
      cases r with
      | multiTargets ts =>
        obtain ⟨t, ht⟩ := List.exists_mem_of_ne_nil _ (h _ hr)
        exact ⟨.target t, ⟨_, hr, List.mem_map_of_mem ht⟩, trivial⟩
      | srvTargets s => exact ⟨.srvTargets s, ⟨_, hr, List.mem_singleton.mpr rfl⟩, htarget⟩
  · rw [MultiTargets.addresses_handOver, hentries, List.flatMap_assoc]
    apply List.flatMap_congr
    rintro (_ | r) _
    · rfl
    · exact r.flatMap_entries
  · constructor
    · intro hne
      obtain ⟨e, he⟩ := List.exists_mem_of_ne_nil _ hne
      obtain ⟨r, hr, _⟩ := (hmem e).mp he
      exact ⟨r, hr⟩
    · rintro ⟨r, hr⟩
      cases r with
      | multiTargets ts =>
        obtain ⟨t, ht⟩ := List.exists_mem_of_ne_nil _ (h _ hr)
        exact List.ne_nil_of_mem ((hmem (.target t)).mpr ⟨_, hr, List.mem_map_of_mem ht⟩)
      | srvTargets s =>
        exact List.ne_nil_of_mem ((hmem (.srvTargets s)).mpr ⟨_, hr, List.mem_singleton.mpr rfl⟩)
  · intro hne
    exact MultiTargets.wellShaped_handOver hne fun s hs =>
      ⟨(h _ (hsrv s hs)).1, hflag.mpr ⟨s, hsrv s hs⟩⟩

/-! ## The end of `resolve_SRV` -/

theorem SrvTargets.result_spec {s : SrvTargets} (h : s.Proper) :
    (∀ r, s.result = some r → r.Proper) ∧ (s.result.elim [] SrvResult.addresses = srvAddresses s) ∧
      (s.result = none ↔ s = []) ∧ ((∃ r, s.result = some r ∧ r.HasTarget) ↔ s.HasTarget) := by
  unfold SrvTargets.result
  split
  · refine ⟨nofun, rfl, iff_of_true rfl rfl, iff_of_false nofun ?_⟩
    rintro ⟨g, hg, _⟩
    cases hg
  · next e =>
    refine ⟨?_, ?_, iff_of_false nofun nofun, ?_⟩
    · intro r hr
      cases hr
      exact (h [e] (List.mem_singleton.mpr rfl)).2 e (List.mem_singleton.mpr rfl)
    · show e.targets.map Target.address = [e].flatMap _
      rw [List.flatMap_singleton]
    · exact iff_of_true ⟨_, rfl, trivial⟩ ⟨[e], List.mem_singleton.mpr rfl, .inl rfl⟩
  · next hnil _ =>
    refine ⟨?_, rfl, iff_of_false nofun hnil, ?_⟩
    · intro r hr
      cases hr
      exact ⟨hnil, h⟩
    · constructor
      · rintro ⟨r, hr, htarget⟩
        cases hr
        exact htarget
      · exact fun htarget => ⟨_, rfl, htarget⟩

/-- A single array of several entries is handed over as it is. -/
theorem SrvTargets.wellShaped_result {s : SrvTargets} {r : SrvResult} (h : s.Proper)
    (hr : s.result = some r) : r.handOver.WellShaped ↔ s.flatten.length = 1 ∨ s.length ≠ 1 := by
  unfold SrvTargets.result at hr
  split at hr
  · cases hr
  · next e =>
    cases hr
    have hne := (h [e] (List.mem_singleton.mpr rfl)).2 e (List.mem_singleton.mpr rfl)
    exact iff_of_true (handOver_ofTargets hne).1 (.inl rfl)
  · next hnil hsingle =>
    cases hr
    show (SrvTargets.handOver s).WellShaped ↔ _
    unfold SrvTargets.handOver
    split
    · next g =>
      apply iff_of_false
      · exact fun h => h
      · rintro (hlength | hlength)
        · rw [List.flatten_singleton] at hlength
          obtain ⟨e, rfl⟩ := List.length_eq_one_iff.mp hlength
          exact hsingle e rfl
        · exact hlength rfl
    · next hmany =>
      apply iff_of_true
      · exact hnil
      · right
        intro hlength
        obtain ⟨g, rfl⟩ := List.length_eq_one_iff.mp hlength
        exact hmany g rfl

theorem SrvResult.handOver_spec {r : SrvResult} (h : r.Proper) :
    r.handOver.Proper ∧ r.handOver.addresses = r.addresses ∧
      (r.handOver.WellShaped → (r.handOver.HasTarget ↔ r.HasTarget)) := by
  cases r with
  | multiTargets ts =>
    obtain ⟨_, hproper, htarget, haddresses⟩ := handOver_ofTargets h
    exact ⟨hproper, haddresses, fun _ => iff_of_true htarget trivial⟩
  | srvTargets s =>
    show (SrvTargets.handOver s).Proper ∧ (SrvTargets.handOver s).addresses = srvAddresses s ∧
      ((SrvTargets.handOver s).WellShaped → ((SrvTargets.handOver s).HasTarget ↔ s.HasTarget))
    unfold SrvTargets.handOver
    split
    · next g =>
      refine ⟨trivial, ?_, False.elim⟩
      show _ = [g].flatten.flatMap _
      rw [List.flatten_singleton]
      rfl
    · exact ⟨h.2, rfl, fun _ => Iff.rfl⟩

end Rfc3263

end OverSip
