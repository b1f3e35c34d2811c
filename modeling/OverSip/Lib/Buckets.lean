import Mathlib.Data.List.Perm.Basic
import Mathlib.Data.List.GetD
import Mathlib.Data.List.Nodup
import Mathlib.Tactic.Common

/-!
# Buckets in an array with holes

An array whose entry at a key is the list of what has been added under the key. Writing behind the end
leaves holes, which `compact` removes with the empty entries. `bucket_fill` says what is in a bucket,
`perm_flatten_compact` that nothing is lost, and `length_compact_eq_one_iff` when all is under one key.
-/

namespace OverSip

/-- An array of buckets, with holes. -/
abbrev Buckets (ε : Type*) := List (Option (List ε))

namespace Buckets

variable {ε : Type*} {b : Buckets ε} {i j p : ℕ} {xs : List ε} {items : List (ℕ × List ε)}

/-- The bucket at an index, which may be a hole. -/
def bucket (b : Buckets ε) (i : ℕ) : List ε := (b.getD i none).getD []

/-- Some elements are appended to the bucket at an index. -/
def add (b : Buckets ε) (p : ℕ) (xs : List ε) : Buckets ε :=
  (b ++ List.replicate (p + 1 - b.length) none).modify p fun g => some (g.getD [] ++ xs)

/-- The buckets that are not empty. -/
def compact (b : Buckets ε) : List (List ε) := (b.filterMap id).filter fun g => !g.isEmpty

/-- All items are added, each under its key. -/
def fill (items : List (ℕ × List ε)) : Buckets ε := items.foldl (fun b x => b.add x.1 x.2) []

/-! ## What is in a bucket -/

theorem bucket_nil : bucket ([] : Buckets ε) j = [] := rfl

theorem bucket_cons_succ (g : Option (List ε)) : bucket (g :: b) (j + 1) = bucket b j := rfl

theorem bucket_of_length_le (h : b.length ≤ j) : bucket b j = [] := by
  unfold bucket
  rw [List.getD_eq_default _ _ h]
  rfl

/-- Holes behind the end are empty buckets. -/
theorem bucket_append_replicate (n : ℕ) : bucket (b ++ List.replicate n none) j = bucket b j := by
  unfold bucket
  by_cases hj : j < b.length
  · rw [List.getD_append _ _ _ _ hj]
  · rw [List.getD_eq_default b _ (Nat.le_of_not_lt hj), List.getD_append_right _ _ _ _ (Nat.le_of_not_lt hj),
      List.getD_eq_getElem?_getD, List.getElem?_replicate]
    split_ifs <;> rfl

theorem bucket_modify {f : Option (List ε) → Option (List ε)} (hp : p < b.length) :
    bucket (b.modify p f) j = if j = p then (f (b.getD p none)).getD [] else bucket b j := by
  induction b generalizing p j with
  | nil => exact absurd hp (Nat.not_lt_zero p)
  | cons g b ih =>
    cases p with
    | zero =>
      rw [List.modify_zero_cons]
      cases j with
      | zero => rfl
      | succ j => rfl
    | succ p =>
      rw [List.modify_succ_cons]
      cases j with
      | zero => rfl
      | succ j =>
        rw [bucket_cons_succ, ih (Nat.lt_of_succ_lt_succ hp)]
        simp only [Nat.succ_inj]
        rfl

theorem bucket_add : bucket (b.add p xs) j = if j = p then bucket b j ++ xs else bucket b j := by
  have hlt : p < (b ++ List.replicate (p + 1 - b.length) none).length := by
    rw [List.length_append, List.length_replicate]
    omega
  unfold add
  rw [bucket_modify hlt, bucket_append_replicate]
  split_ifs with hj
  · rw [hj, ← bucket_append_replicate (b := b) (p + 1 - b.length)]
    rfl
  · rfl

/-- A bucket holds what has been added under its key, in order. -/
theorem bucket_fill : bucket (fill items) j = (items.filter fun x => x.1 = j).flatMap (·.2) := by
  have hfold : ∀ b : Buckets ε, bucket (items.foldl (fun b x => b.add x.1 x.2) b) j =
      bucket b j ++ (items.filter fun x => x.1 = j).flatMap (·.2) := by
    induction items with
    | nil => exact fun b => (List.append_nil _).symm
    | cons x items ih =>
      intro b
      rw [List.foldl_cons, ih, bucket_add, List.filter_cons]
      by_cases hx : x.1 = j
      · rw [if_pos hx.symm, if_pos (decide_eq_true hx), List.flatMap_cons, List.append_assoc]
      · rw [if_neg (Ne.symm hx), if_neg (by rw [decide_eq_true_eq]; exact hx)]
  unfold fill
  rw [hfold, bucket_nil, List.nil_append]

/-! ## Without holes -/

/-- The indices of the buckets that are not empty. -/
def used (b : Buckets ε) : List ℕ := (List.range b.length).filter fun i => !(bucket b i).isEmpty

theorem mem_used : i ∈ b.used ↔ bucket b i ≠ [] := by
  unfold used
  rw [List.mem_filter, List.mem_range, Bool.not_eq_true', List.isEmpty_eq_false_iff]
  constructor
  · exact fun h => h.2
  · intro hne
    refine ⟨?_, hne⟩
    by_contra hle
    exact hne (bucket_of_length_le (Nat.le_of_not_lt hle))

theorem compact_eq : b.compact = b.used.map b.bucket := by
  induction b with
  | nil => rfl
  | cons g b ih =>
    have hused : used (g :: b) = (if (g.getD []).isEmpty then [] else [0]) ++ (used b).map Nat.succ := by
      unfold used
      rw [List.length_cons, List.range_succ_eq_map, List.filter_cons, List.filter_map]
      show (if !(g.getD []).isEmpty then _ else _) = _
      cases (g.getD []).isEmpty <;> rfl
    have hcompact : compact (g :: b) = (if (g.getD []).isEmpty then [] else [g.getD []]) ++ compact b := by
      unfold compact
      cases g with
      | none => rfl
      | some g =>
        show (g :: b.filterMap id).filter _ = (if g.isEmpty then _ else _) ++ _
        rw [List.filter_cons]
        cases g.isEmpty <;> rfl
    rw [hcompact, hused, ih, List.map_append, List.map_map]
    cases (g.getD []).isEmpty <;> rfl

theorem mem_compact {g : List ε} : g ∈ b.compact ↔ g ≠ [] ∧ ∃ i, bucket b i = g := by
  rw [compact_eq, List.mem_map]
  constructor
  · rintro ⟨i, hi, rfl⟩
    exact ⟨mem_used.mp hi, i, rfl⟩
  · rintro ⟨hne, i, rfl⟩
    exact ⟨i, mem_used.mpr hne, rfl⟩

/-- All elements are in one bucket. -/
theorem length_compact_eq_one_iff :
    b.compact.length = 1 ↔ ∃ i, bucket b i ≠ [] ∧ ∀ j, bucket b j ≠ [] → j = i := by
  have hnodup : b.used.Nodup := List.nodup_range.filter _
  rw [compact_eq, List.length_map, List.length_eq_one_iff]
  constructor
  · rintro ⟨i, hi⟩
    refine ⟨i, mem_used.mp (by rw [hi]; exact List.mem_singleton.mpr rfl), fun j hj => ?_⟩
    have hmem := mem_used.mpr hj
    rw [hi] at hmem
    exact List.mem_singleton.mp hmem
  · rintro ⟨i, hi, hall⟩
    refine ⟨i, ?_⟩
    rw [← List.perm_singleton, List.perm_ext_iff_of_nodup hnodup (List.nodup_singleton i)]
    intro j
    rw [mem_used, List.mem_singleton]
    exact ⟨hall j, fun hj => hj ▸ hi⟩

/-! ## Nothing is lost -/

theorem flatten_compact : b.compact.flatten = b.flatMap (·.getD []) := by
  induction b with
  | nil => rfl
  | cons g b ih =>
    rw [List.flatMap_cons, ← ih]
    unfold compact
    cases g with
    | none => rfl
    | some g =>
      show ((g :: b.filterMap id).filter _).flatten = g ++ _
      rw [List.filter_cons]
      cases g with
      | nil => rfl
      | cons x g => rfl

theorem perm_modify (xs : List ε) (hp : p < b.length) :
    ((b.modify p fun g => some (g.getD [] ++ xs)).flatMap (·.getD [])).Perm
      (b.flatMap (·.getD []) ++ xs) := by
  induction b generalizing p with
  | nil => exact absurd hp (Nat.not_lt_zero p)
  | cons g b ih =>
    cases p with
    | zero =>
      rw [List.modify_zero_cons, List.flatMap_cons, List.flatMap_cons, List.append_assoc]
      show (g.getD [] ++ xs ++ b.flatMap (·.getD [])).Perm _
      rw [List.append_assoc]
      exact List.perm_append_comm.append_left _
    | succ p =>
      rw [List.modify_succ_cons, List.flatMap_cons, List.flatMap_cons, List.append_assoc]
      exact (ih (Nat.lt_of_succ_lt_succ hp)).append_left _

theorem perm_add : ((b.add p xs).flatMap (·.getD [])).Perm (b.flatMap (·.getD []) ++ xs) := by
  have hlt : p < (b ++ List.replicate (p + 1 - b.length) none).length := by
    rw [List.length_append, List.length_replicate]
    omega
  have hholes : ∀ n, (List.replicate n (none : Option (List ε))).flatMap (·.getD []) = [] := by
    intro n
    rw [List.flatMap_eq_nil_iff]
    intro g hg
    rw [List.eq_of_mem_replicate hg]
    rfl
  have hwide := perm_modify xs hlt
  rw [List.flatMap_append, hholes, List.append_nil] at hwide
  exact hwide

/-- The buckets together hold what has been added. -/
theorem perm_flatten_compact (items : List (ℕ × List ε)) : (fill items).compact.flatten.Perm (items.flatMap (·.2)) := by
  have hfold : ∀ b : Buckets ε, ((items.foldl (fun b x => b.add x.1 x.2) b).flatMap (·.getD [])).Perm
      (b.flatMap (·.getD []) ++ items.flatMap (·.2)) := by
    induction items with
    | nil =>
      intro b
      rw [List.flatMap_nil, List.append_nil]
      exact List.Perm.refl _
    | cons x items ih =>
      intro b
      rw [List.foldl_cons, List.flatMap_cons, ← List.append_assoc]
      exact (ih (b.add x.1 x.2)).trans (perm_add.append_right _)
  rw [flatten_compact]
  exact hfold []

end Buckets

/-! ## Grouping by key -/

section

variable {α κ : Type*} [BEq κ]

/-- The elements with a key of the list, grouped in the order of the keys. -/
def groupByKeys (key : α → κ) (keys : List κ) (l : List α) : List α :=
  keys.flatMap fun k => l.filter fun a => key a == k

variable [LawfulBEq κ] {key : α → κ} {keys : List κ}

/-- Grouping moves the elements, and keeps each as often as it is there. -/
theorem groupByKeys_perm (h : keys.Nodup) (l : List α) :
    (groupByKeys key keys l).Perm (l.filter fun a => keys.contains (key a)) := by
  unfold groupByKeys
  induction keys with
  | nil =>
    rw [List.flatMap_nil, List.filter_eq_nil_iff.mpr]
    intro a _ hmem
    exact List.not_mem_nil (List.contains_iff_mem.mp hmem)
  | cons k keys ih =>
    rw [List.nodup_cons] at h
    rw [List.flatMap_cons]
    have hperm := List.filter_append_perm (fun a => key a == k)
      (l.filter fun a => (k :: keys).contains (key a))
    rw [List.filter_filter, List.filter_filter] at hperm
    have hhead : (l.filter fun a => key a == k && (k :: keys).contains (key a)) =
        l.filter fun a => key a == k := by
      apply List.filter_congr
      intro a _
      rw [List.contains_cons]
      cases key a == k <;> rfl
    have htail : (l.filter fun a => !(key a == k) && (k :: keys).contains (key a)) =
        l.filter fun a => keys.contains (key a) := by
      apply List.filter_congr
      intro a _
      rw [List.contains_cons]
      cases hk : key a == k with
      | false => rfl
      | true =>
        rw [eq_of_beq hk]
        exact (Bool.eq_false_iff.mpr fun hmem => h.1 (List.contains_iff_mem.mp hmem)).symm
    rw [hhead, htail] at hperm
    exact ((ih h.2).append_left _).trans hperm

theorem pairwise_groupByKeys (h : keys.Nodup) (l : List α) :
    (groupByKeys key keys l).Pairwise fun a b => keys.idxOf (key a) ≤ keys.idxOf (key b) := by
  unfold groupByKeys
  rw [List.pairwise_flatMap]
  constructor
  · -- the elements of one group
    intro k _
    apply List.pairwise_of_forall_mem_list
    intro a ha b hb
    have hab : key a = key b :=
      (eq_of_beq (List.mem_filter.mp ha).2).trans (eq_of_beq (List.mem_filter.mp hb).2).symm
    exact Nat.le_of_eq (congrArg keys.idxOf hab)
  · rw [List.pairwise_iff_getElem]
    intro i j hi hj hij a ha b hb
    rw [eq_of_beq (List.mem_filter.mp ha).2, eq_of_beq (List.mem_filter.mp hb).2, h.idxOf_getElem,
      h.idxOf_getElem]
    exact Nat.le_of_lt hij

end

end OverSip
