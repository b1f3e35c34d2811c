import OverSip.Lib.Arrays
import OverSip.Sip.Rfc3263Targets

/-!
# The random order of the targets

`SrvTargets#randomize` (`rfc3263.rb`) puts the targets of SRV records in a random order. The arrays of the
receiver may be those of the DNS cache, so they are modelled as arrays that are shared: `randomize` is given
references, and `randomize_entries` takes entries out of an array that `select` has made.

What it returns is in order (`SrvTargets.Arranged`) unless a group of several entries has one of weight
zero: such an entry is added as its array of targets (`e[1]`) and not target by target.
-/

namespace OverSip

namespace Rfc3263

/-- What the calls of `rand` and `shuffle` return. The first argument is the number of the call. -/
structure Choices where
  rand : Nat → Nat → Nat
  rand_lt : ∀ k n, 0 < n → rand k n < n
  shuffle : Nat → List SrvWeightTarget → List SrvWeightTarget
  shuffle_perm : ∀ k es, (shuffle k es).Perm es

/-- A `SrvTargets` by the references to its groups. -/
structure SrvTargetsRef where
  arrays : Arrays SrvWeightTarget
  groups : List Nat
  allocated : ∀ g ∈ groups, arrays.Allocated g

/-- The groups as they stand in some arrays. -/
def readGroups (m : Arrays SrvWeightTarget) (groups : List Nat) : SrvTargets := groups.map m.read

def SrvTargetsRef.value (s : SrvTargetsRef) : SrvTargets := readGroups s.arrays s.groups

/-! ## `randomize` -/

section

variable (c : Choices)

/-- `randomize_entries`, called with the number of choices made so far. It calls itself until there are no
entries; `fuel` bounds the calls. -/
def randomizeEntries : Nat → Nat → Nat → Arrays SrvWeightTarget →
    Option (List Target × Nat × Arrays SrvWeightTarget)
  | 0, _, _, _ => none
  | fuel + 1, k, entries, m =>
    let totalWeight := ((m.read entries).map (·.weight)).sum
    let rnd := c.rand k totalWeight
    match pickEntry rnd (m.read entries) with
    | some (entry, others) =>
      let m := m.write entries others
      if (m.read entries).isEmpty then some (entry.targets, k + 1, m)
      else
        (randomizeEntries fuel (k + 1) entries m).map fun p => (entry.targets ++ p.1, p.2)
    | none =>
      if (m.read entries).isEmpty then some ([], k + 1, m) else randomizeEntries fuel (k + 1) entries m

/-- The body of the loop of `randomize`. -/
def randomizeGroup (fuel k entries : Nat) (m : Arrays SrvWeightTarget) :
    Option (List Tried × Nat × Arrays SrvWeightTarget) :=
  match m.read entries with
  | [e] => some (e.targets.map .target, k, m)
  | _ =>
    let (selected, m) := m.alloc ((m.read entries).filter fun e => 0 < e.weight)
    (randomizeEntries c fuel k selected m).map fun (picked, k, m) =>
      let shuffled := c.shuffle k ((m.read entries).filter fun e => e.weight = 0)
      (picked.map .target ++ shuffled.map fun e => .targets e.targets, k + 1, m)

/-- The loop of `randomize`. -/
def randomizeGroups (fuel : Nat) : Nat → List Nat → Arrays SrvWeightTarget →
    Option (List Tried × Arrays SrvWeightTarget)
  | _, [], m => some ([], m)
  | k, entries :: groups, m =>
    (randomizeGroup c fuel k entries m).bind fun (ordered, k, m) =>
      (randomizeGroups fuel k groups m).map fun p => (ordered ++ p.1, p.2)

/-- `SrvTargets#randomize`: the targets in order, and the arrays afterwards. -/
def SrvTargetsRef.randomize (fuel : Nat) (s : SrvTargetsRef) :
    Option (List Tried × Arrays SrvWeightTarget) :=
  randomizeGroups c fuel 0 s.groups s.arrays

/-! ## It ends, and leaves the receiver as it is -/

/-- A random number below the sum of the weights picks an entry. -/
theorem exists_pickEntry {rnd : Nat} {es : List SrvWeightTarget} (h : rnd < (es.map (·.weight)).sum) :
    ∃ e others, pickEntry rnd es = some (e, others) := by
  induction es generalizing rnd with
  | nil => exact absurd h (Nat.not_lt_zero rnd)
  | cons e es ih =>
    by_cases hrnd : rnd < e.weight
    · exact ⟨e, es, if_pos hrnd⟩
    · rw [List.map_cons, List.sum_cons] at h
      have hrest : rnd - e.weight < (es.map (·.weight)).sum := by omega
      obtain ⟨e', others, hpick⟩ := ih hrest
      refine ⟨e', e :: others, ?_⟩
      unfold pickEntry
      rw [if_neg hrnd, hpick]
      rfl

/-- `randomize_entries` on an array of its own, newer than the arrays `m₀`. -/
theorem randomizeEntries_spec {m₀ : Arrays SrvWeightTarget} {entries : Nat} (hnew : ¬m₀.Allocated entries)
    {fuel : Nat} : ∀ {k : Nat} {m : Arrays SrvWeightTarget}, m₀.Extends m → m.Allocated entries →
      (∀ e ∈ m.read entries, 0 < e.weight) → (m.read entries).length < fuel →
      ∃ picked k' m', randomizeEntries c fuel k entries m = some (picked, k', m') ∧ m₀.Extends m' ∧
        RandomizesEntries (m.read entries) picked := by
  induction fuel with
  | zero =>
    intro k m _ _ _ hfuel
    exact absurd hfuel (Nat.not_lt_zero _)
  | succ fuel ih =>
    intro k m hext halloc hweights hfuel
    unfold randomizeEntries
    dsimp only
    cases hread : m.read entries with
    | nil => exact ⟨[], k + 1, m, rfl, hext, .nil⟩
    | cons e es =>
      rw [← hread]
      -- the weights are positive, so that there is a number to draw
      have htotal : 0 < ((m.read entries).map (·.weight)).sum := by
        have hweight := hweights e (by rw [hread]; exact List.mem_cons_self)
        rw [hread, List.map_cons, List.sum_cons]
        exact Nat.add_pos_left hweight _
      have hlt := c.rand_lt k _ htotal
      obtain ⟨entry, others, hpick⟩ := exists_pickEntry hlt
      have hperm := pickEntry_perm hpick
      have hread' := Arrays.read_write halloc others
      have hext' := hext.write hnew others
      rw [hpick]
      dsimp only
      cases others with
      | nil =>
        have hempty : ((m.write entries []).read entries).isEmpty = true := by
          rw [hread']
          rfl
        rw [if_pos hempty]
        refine ⟨_, _, _, rfl, hext', ?_⟩
        rw [← List.append_nil entry.targets]
        exact .pick hlt hpick .nil
      | cons other others =>
        have hempty : ¬((m.write entries (other :: others)).read entries).isEmpty = true := by
          rw [hread']
          exact Bool.false_ne_true
        rw [if_neg hempty]
        have hlength := hperm.length_eq
        rw [List.length_cons] at hlength
        have halloc' : (m.write entries (other :: others)).Allocated entries := by
          show entries < (m.arrays.set entries (other :: others)).length
          rw [List.length_set]
          exact halloc
        have hweights' : ∀ e ∈ (m.write entries (other :: others)).read entries, 0 < e.weight := by
          intro e' he'
          rw [hread'] at he'
          exact hweights e' (hperm.mem_iff.mpr (List.mem_cons_of_mem _ he'))
        have hfuel' : ((m.write entries (other :: others)).read entries).length < fuel := by
          rw [hread']
          omega
        obtain ⟨picked, k', m', hrec, hm', hpicked⟩ := ih (k := k + 1) hext' halloc' hweights' hfuel'
        rw [hrec]
        rw [hread'] at hpicked
        exact ⟨_, _, _, rfl, hm', .pick hlt hpick hpicked⟩

theorem randomizeGroup_spec {fuel entries : Nat} {m : Arrays SrvWeightTarget} (k : Nat)
    (halloc : m.Allocated entries) (hfuel : (m.read entries).length < fuel) :
    ∃ ordered k' m', randomizeGroup c fuel k entries m = some (ordered, k', m') ∧ m.Extends m' ∧
      ∀ s ts, Randomizes s ts → Randomizes (m.read entries :: s) (ordered ++ ts) := by
  unfold randomizeGroup
  split
  · next e heq =>
    refine ⟨_, _, _, rfl, .refl m, ?_⟩
    intro s ts hts
    rw [heq]
    exact .single hts
  · next hmany =>
    have hlength : (m.read entries).length ≠ 1 := by
      intro hone
      obtain ⟨e, he⟩ := List.length_eq_one_iff.mp hone
      exact hmany e he
    -- `select` makes the array that the entries are taken out of
    obtain ⟨selected, hselected⟩ : ∃ es, es = (m.read entries).filter fun e => 0 < e.weight := ⟨_, rfl⟩
    have hread := m.read_alloc selected
    have hnew : ¬m.Allocated (m.alloc selected).1 := Nat.lt_irrefl _
    have hweights : ∀ e ∈ (m.alloc selected).2.read (m.alloc selected).1, 0 < e.weight := by
      intro e he
      rw [hread, hselected] at he
      exact of_decide_eq_true (List.mem_filter.mp he).2
    have hfuel' : ((m.alloc selected).2.read (m.alloc selected).1).length < fuel := by
      rw [hread, hselected]
      exact Nat.lt_of_le_of_lt (List.length_filter_le _ _) hfuel
    obtain ⟨picked, k', m', hpick, hext, hpicked⟩ := randomizeEntries_spec c hnew (k := k)
      (m.extends_alloc selected) (m.allocated_alloc selected) hweights hfuel'
    rw [hread, hselected] at hpicked
    dsimp only
    rw [← hselected, hpick]
    refine ⟨_, _, _, rfl, hext, ?_⟩
    intro s ts hts
    rw [hext.read_eq entries halloc]
    exact .several hlength hpicked (c.shuffle_perm _ _) hts

theorem readGroups_eq {m m' : Arrays SrvWeightTarget} (h : m.Extends m') {groups : List Nat}
    (halloc : ∀ g ∈ groups, m.Allocated g) : readGroups m' groups = readGroups m groups :=
  List.map_congr_left fun g hg => h.read_eq g (halloc g hg)

theorem randomizeGroups_spec {fuel : Nat} {groups : List Nat} : ∀ {m : Arrays SrvWeightTarget} (k : Nat),
    (∀ g ∈ groups, m.Allocated g) → (∀ g ∈ groups, (m.read g).length < fuel) →
      ∃ ts m', randomizeGroups c fuel k groups m = some (ts, m') ∧ m.Extends m' ∧
        Randomizes (readGroups m groups) ts := by
  induction groups with
  | nil =>
    intro m k _ _
    exact ⟨[], m, rfl, .refl m, .nil⟩
  | cons g groups ih =>
    intro m k halloc hfuel
    rw [List.forall_mem_cons] at halloc hfuel
    obtain ⟨ordered, k', m₁, hgroup, hext, hordered⟩ := randomizeGroup_spec c k halloc.1 hfuel.1
    have halloc' : ∀ g ∈ groups, m₁.Allocated g := fun g hg => hext.allocated (halloc.2 g hg)
    have hfuel' : ∀ g ∈ groups, (m₁.read g).length < fuel := by
      intro g hg
      rw [hext.read_eq g (halloc.2 g hg)]
      exact hfuel.2 g hg
    obtain ⟨ts, m₂, hgroups, hext', hts⟩ := ih k' halloc' hfuel'
    rw [readGroups_eq hext halloc.2] at hts
    refine ⟨ordered ++ ts, m₂, ?_, hext.trans hext', hordered _ _ hts⟩
    unfold randomizeGroups
    rw [hgroup]
    dsimp only [Option.bind_some]
    rw [hgroups]
    rfl

/-- The calls that `randomize_entries` needs for a `SrvTargets`. -/
def SrvTargetsRef.depth (s : SrvTargetsRef) : Nat := (s.value.map List.length).max?.getD 0 + 1

/-- `randomize` returns what `Randomizes` allows, and the receiver is what it was. -/
theorem SrvTargetsRef.randomize_spec (s : SrvTargetsRef) {fuel : Nat} (hfuel : s.depth ≤ fuel) :
    ∃ ts m, s.randomize c fuel = some (ts, m) ∧ readGroups m s.groups = s.value ∧
      Randomizes s.value ts := by
  have hlength : ∀ g ∈ s.groups, (s.arrays.read g).length < fuel := by
    intro g hg
    have hmem : (s.arrays.read g).length ∈ s.value.map List.length :=
      List.mem_map_of_mem (List.mem_map_of_mem hg)
    have hle : (s.arrays.read g).length ≤ (s.value.map List.length).max?.getD 0 :=
      List.le_max?_getD_of_mem hmem
    exact Nat.lt_of_lt_of_le (Nat.lt_succ_of_le hle) hfuel
  obtain ⟨ts, m, hrandomize, hext, hts⟩ := randomizeGroups_spec c 0 s.allocated hlength
  exact ⟨ts, m, hrandomize, readGroups_eq hext s.allocated, hts⟩

end

/-! ## The order -/

/-- The targets of the groups, one group after the other, and in a group the targets of one entry after the
other. -/
def SrvTargets.Arranged (s : SrvTargets) (ts : List Tried) : Prop :=
  ∃ order : SrvTargets, List.Forall₂ List.Perm order s ∧
    ts = (order.flatten.flatMap (·.targets)).map .target

/-- All targets, and nothing else. -/
theorem SrvTargets.Arranged.perm {s : SrvTargets} {ts : List Tried} (h : s.Arranged ts) :
    ts.Perm ((s.flatten.flatMap (·.targets)).map .target) := by
  obtain ⟨order, horder, rfl⟩ := h
  exact ((List.Perm.flatten_congr horder).flatMap_right _).map _

theorem RandomizesEntries.exists_order {es : List SrvWeightTarget} {ts : List Target}
    (h : RandomizesEntries es ts) : ∃ order : List SrvWeightTarget, order.Perm es ∧
      ts = order.flatMap (·.targets) := by
  induction h with
  | nil => exact ⟨[], .refl _, rfl⟩
  | @pick es rest e rnd ts _ hpick _ ih =>
    obtain ⟨order, hperm, rfl⟩ := ih
    exact ⟨e :: order, (hperm.cons e).trans (pickEntry_perm hpick).symm, List.flatMap_cons.symm⟩

/-- A group with several entries has none of weight zero. -/
def SrvTargets.Weighted (s : SrvTargets) : Prop :=
  ∀ g ∈ s, g.length ≠ 1 → ∀ e ∈ g, 0 < e.weight

/-- An entry of weight zero is added as an array. -/
theorem Randomizes.exists_targets {s : SrvTargets} {ts : List Tried} (h : Randomizes s ts)
    {g : List SrvWeightTarget} (hg : g ∈ s) (hlength : g.length ≠ 1) {e : SrvWeightTarget} (he : e ∈ g)
    (hweight : e.weight = 0) : .targets e.targets ∈ ts := by
  induction h with
  | nil => cases hg
  | single _ ih =>
    apply List.mem_append_right
    apply ih
    cases hg with
    | head => exact absurd rfl hlength
    | tail _ hg => exact hg
  | several _ _ hshuffled _ ih =>
    cases hg with
    | head =>
      apply List.mem_append_left
      apply List.mem_append_right
      refine List.mem_map.mpr ⟨e, ?_, rfl⟩
      rw [hshuffled.mem_iff, List.mem_filter]
      exact ⟨he, decide_eq_true hweight⟩
    | tail _ hg => exact List.mem_append_right _ (ih hg)

theorem Randomizes.arranged {s : SrvTargets} {ts : List Tried} (h : Randomizes s ts) (hs : s.Weighted) :
    s.Arranged ts := by
  induction h with
  | nil => exact ⟨[], .nil, rfl⟩
  | @single e s ts _ ih =>
    rw [SrvTargets.Weighted, List.forall_mem_cons] at hs
    obtain ⟨order, horder, rfl⟩ := ih hs.2
    refine ⟨[e] :: order, .cons (.refl _) horder, ?_⟩
    rw [List.flatten_cons, List.flatMap_append, List.flatMap_singleton, List.map_append]
  | @several g shuffled s picked ts hlength hpicked hshuffled _ ih =>
    rw [SrvTargets.Weighted, List.forall_mem_cons] at hs
    obtain ⟨order, horder, rfl⟩ := ih hs.2
    have hpositive : g.filter (fun e => 0 < e.weight) = g :=
      List.filter_eq_self.mpr fun e he => decide_eq_true (hs.1 hlength e he)
    have hzero : g.filter (fun e => e.weight = 0) = [] := by
      rw [List.filter_eq_nil_iff]
      intro e he
      have hweight := hs.1 hlength e he
      rw [decide_eq_true_eq]
      omega
    rw [hzero] at hshuffled
    rw [hpositive] at hpicked
    obtain ⟨group, hgroup, rfl⟩ := hpicked.exists_order
    refine ⟨group :: order, .cons hgroup horder, ?_⟩
    rw [hshuffled.eq_nil, List.map_nil, List.append_nil, List.flatten_cons, List.flatMap_append,
      List.map_append]

theorem Randomizes.weighted {s : SrvTargets} {ts : List Tried} (h : Randomizes s ts)
    (harranged : s.Arranged ts) : s.Weighted := by
  obtain ⟨order, _, rfl⟩ := harranged
  intro g hg hlength e he
  apply Nat.pos_of_ne_zero
  intro hweight
  obtain ⟨t, _, ht⟩ := List.mem_map.mp (h.exists_targets hg hlength he hweight)
  cases ht

/-- `randomize` ends and returns the targets in order, and the receiver is unchanged. -/
def SrvTargetsRef.RandomizesWell (c : Choices) (s : SrvTargetsRef) : Prop :=
  ∃ depth, ∀ fuel, depth ≤ fuel → ∃ ts m, s.randomize c fuel = some (ts, m) ∧ s.value.Arranged ts ∧
    readGroups m s.groups = s.value

theorem SrvTargetsRef.RandomizesWell.weighted {c : Choices} {s : SrvTargetsRef}
    (h : s.RandomizesWell c) : s.value.Weighted := by
  obtain ⟨depth, hdepth⟩ := h
  obtain ⟨ts, m, hrandomize, harranged, _⟩ := hdepth (max depth s.depth) (Nat.le_max_left _ _)
  obtain ⟨ts', m', hrandomize', _, hts⟩ := s.randomize_spec c (Nat.le_max_right depth s.depth)
  obtain ⟨rfl, rfl⟩ := Prod.mk.inj (Option.some.inj (hrandomize.symm.trans hrandomize'))
  exact hts.weighted harranged

theorem randomizesWell_iff (c : Choices) (s : SrvTargetsRef) : s.RandomizesWell c ↔ s.value.Weighted := by
  constructor
  · exact fun h => h.weighted
  · intro hweighted
    refine ⟨s.depth, ?_⟩
    intro fuel hfuel
    obtain ⟨ts, m, hrandomize, hvalue, hts⟩ := s.randomize_spec c hfuel
    exact ⟨ts, m, hrandomize, hts.arranged hweighted, hvalue⟩

/-- The first entry is picked, and nothing is shuffled. -/
def firstChoices : Choices where
  rand _ _ := 0
  rand_lt _ _ h := h
  shuffle _ es := es
  shuffle_perm _ es := .refl es

/-- A group of two entries. The second has no weight. -/
def zeroWeightTargets : SrvTargetsRef where
  arrays :=
    ⟨[[⟨10, [⟨some .udp, "192.0.2.1", .ipv4, some 5060⟩]⟩, ⟨0, [⟨some .udp, "192.0.2.2", .ipv4, some 5060⟩]⟩]]⟩
  groups := [0]
  allocated := by
    intro g hg
    rw [List.mem_singleton.mp hg]
    exact Nat.zero_lt_one

theorem zeroWeightTargets_not_arranged : ¬zeroWeightTargets.RandomizesWell firstChoices := by
  intro h
  have hweight := h.weighted _ (List.mem_singleton.mpr rfl) (by decide)
    ⟨0, [⟨some .udp, "192.0.2.2", .ipv4, some 5060⟩]⟩ (List.mem_cons_of_mem _ List.mem_cons_self)
  exact Nat.lt_irrefl 0 hweight

end Rfc3263

end OverSip
