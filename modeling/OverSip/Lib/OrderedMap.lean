import Mathlib.Data.List.Nodup
import Mathlib.Data.List.Induction
import Mathlib.Data.List.Lookmap

/-!
# Maps that keep the order of their keys

The hash of a language in which a hash is iterated in the order its keys were set: a key that is set again
keeps its place, a new one is the last. `OrderedMap` has the keys once each. `lines` is the iteration over a
map whose values are lists: the values of one key are next to each other in it, and `valuesOf_lines` reads
them off.
-/

namespace OverSip

/-- The keys with their values, in the order in which they are iterated. -/
structure OrderedMap (κ ν : Type) where
  entries : List (κ × ν)
  nodup : (entries.map Prod.fst).Nodup

namespace OrderedMap

variable {κ ν α : Type}

@[ext] theorem ext {m m' : OrderedMap κ ν} (h : m.entries = m'.entries) : m = m' := by
  cases m
  cases m'
  obtain rfl := h
  rfl

def empty : OrderedMap κ ν := ⟨[], List.nodup_nil⟩

variable [DecidableEq κ]

/-- The value of the key. -/
def find? (m : OrderedMap κ ν) (k : κ) : Option ν := m.entries.lookup k

theorem lookup_eq_none_iff_notMem (entries : List (κ × ν)) (k : κ) :
    entries.lookup k = none ↔ k ∉ entries.map Prod.fst := by
  rw [List.lookup_eq_none_iff, List.mem_map]
  constructor
  · rintro h ⟨e, he, rfl⟩
    exact bne_iff_ne.mp (h e he) rfl
  · intro h e he
    exact bne_iff_ne.mpr fun hk => h ⟨e, he, hk.symm⟩

/-! ## Setting and deleting -/

/-- The entries with another value for the key. -/
def replace (entries : List (κ × ν)) (k : κ) (v : ν) : List (κ × ν) :=
  entries.map fun e => if e.1 = k then (k, v) else e

theorem keys_replace (entries : List (κ × ν)) (k : κ) (v : ν) :
    (replace entries k v).map Prod.fst = entries.map Prod.fst := by
  unfold replace
  rw [List.map_map]
  apply List.map_congr_left
  intro e _
  show (if e.1 = k then (k, v) else e).1 = e.1
  split
  · next hk => exact hk.symm
  · rfl

theorem lookup_replace (entries : List (κ × ν)) (k k' : κ) (v : ν) :
    (replace entries k v).lookup k' =
      if k' = k then (entries.lookup k).map fun _ => v else entries.lookup k' := by
  induction entries with
  | nil => exact (ite_self _).symm
  | cons e rest ih =>
    have hcons : replace (e :: rest) k v = (if e.1 = k then (k, v) else e) :: replace rest k v := rfl
    rw [hcons]
    by_cases he : e.1 = k
    · rw [if_pos he]
      by_cases hk : k' = k
      · subst hk he
        rw [if_pos rfl, List.lookup_cons_self, List.lookup_cons_self]
        rfl
      · have hne : (k' == k) = false := beq_false_of_ne hk
        rw [if_neg hk, List.lookup_cons, List.lookup_cons, he, hne, ih, if_neg hk]
    · rw [if_neg he]
      by_cases hk : k' = k
      · have hne : (k' == e.1) = false := beq_false_of_ne fun h => he (h.symm.trans hk)
        have hne' : (k == e.1) = false := beq_false_of_ne fun h => he h.symm
        rw [if_pos hk, List.lookup_cons, List.lookup_cons, hne, hne', ih, if_pos hk]
      · rw [if_neg hk, List.lookup_cons, List.lookup_cons, ih, if_neg hk]

/-- `m[k] = v` -/
def set (m : OrderedMap κ ν) (k : κ) (v : ν) : OrderedMap κ ν :=
  if h : m.find? k = none then
    { entries := m.entries ++ [(k, v)]
      nodup := by
        rw [List.map_append, List.nodup_append_comm]
        exact List.nodup_cons.mpr ⟨(lookup_eq_none_iff_notMem _ _).mp h, m.nodup⟩ }
  else
    { entries := replace m.entries k v
      nodup := by
        rw [keys_replace]
        exact m.nodup }

/-- `m.delete(k)` -/
def erase (m : OrderedMap κ ν) (k : κ) : OrderedMap κ ν where
  entries := m.entries.filter fun e => e.1 ≠ k
  nodup := m.nodup.sublist (List.filter_sublist.map Prod.fst)

/-- `{ k => v }.merge!(m)` -/
def setFirst (m : OrderedMap κ ν) (k : κ) (v : ν) : OrderedMap κ ν :=
  if h : m.find? k = none then
    { entries := (k, v) :: m.entries
      nodup := List.nodup_cons.mpr ⟨(lookup_eq_none_iff_notMem _ _).mp h, m.nodup⟩ }
  else m

@[simp] theorem find?_set_self (m : OrderedMap κ ν) (k : κ) (v : ν) : (m.set k v).find? k = some v := by
  unfold set
  split
  · next h =>
    show (m.entries ++ [(k, v)]).lookup k = some v
    have hnone : m.entries.lookup k = none := h
    rw [List.lookup_append, hnone, Option.none_or, List.lookup_cons_self]
  · next h =>
    show (replace m.entries k v).lookup k = some v
    obtain ⟨v', hv'⟩ := Option.ne_none_iff_exists'.mp h
    have hsome : m.entries.lookup k = some v' := hv'
    rw [lookup_replace, if_pos rfl, hsome]
    rfl

@[simp] theorem find?_set_of_ne (m : OrderedMap κ ν) {k k' : κ} (v : ν) (h : k' ≠ k) :
    (m.set k v).find? k' = m.find? k' := by
  unfold set
  split
  · show (m.entries ++ [(k, v)]).lookup k' = m.entries.lookup k'
    have hne : (k' == k) = false := beq_false_of_ne h
    rw [List.lookup_append, List.lookup_cons, hne, List.lookup_nil, Option.or_none]
  · show (replace m.entries k v).lookup k' = m.entries.lookup k'
    rw [lookup_replace, if_neg h]

@[simp] theorem find?_erase_self (m : OrderedMap κ ν) (k : κ) : (m.erase k).find? k = none := by
  apply (lookup_eq_none_iff_notMem _ _).mpr
  intro hmem
  obtain ⟨e, he, hk⟩ := List.mem_map.mp hmem
  exact of_decide_eq_true (List.mem_filter.mp he).2 hk

@[simp] theorem find?_erase_of_ne (m : OrderedMap κ ν) {k k' : κ} (h : k' ≠ k) :
    (m.erase k).find? k' = m.find? k' := by
  show (m.entries.filter fun e => e.1 ≠ k).lookup k' = m.entries.lookup k'
  induction m.entries with
  | nil => rfl
  | cons e rest ih =>
    by_cases he : e.1 = k
    · have hne : (k' == e.1) = false := beq_false_of_ne fun h' => h (h'.trans he)
      rw [List.filter_cons_of_neg (by simpa using he), ih, List.lookup_cons, hne]
    · rw [List.filter_cons_of_pos (by simpa using he), List.lookup_cons, List.lookup_cons, ih]

@[simp] theorem find?_setFirst_self (m : OrderedMap κ ν) (k : κ) (v : ν) :
    (m.setFirst k v).find? k = some ((m.find? k).getD v) := by
  unfold setFirst
  split
  · next h =>
    rw [h]
    exact List.lookup_cons_self
  · next h =>
    obtain ⟨v', hv'⟩ := Option.ne_none_iff_exists'.mp h
    rw [hv']
    rfl

@[simp] theorem find?_setFirst_of_ne (m : OrderedMap κ ν) {k k' : κ} (v : ν) (h : k' ≠ k) :
    (m.setFirst k v).find? k' = m.find? k' := by
  unfold setFirst
  split
  · have hne : (k' == k) = false := beq_false_of_ne h
    show ((k, v) :: m.entries).lookup k' = m.entries.lookup k'
    rw [List.lookup_cons, hne]
  · rfl

/-! ## Setting one after the other -/

/-- The entries of `m.set k v`. -/
theorem mem_set {m : OrderedMap κ ν} {k : κ} {v : ν} {e : κ × ν} (h : e ∈ (m.set k v).entries) :
    e = (k, v) ∨ e ∈ m.entries := by
  unfold set at h
  split at h
  · rcases List.mem_append.mp h with hmem | hmem
    · exact .inr hmem
    · exact .inl (List.mem_singleton.mp hmem)
  · obtain ⟨e', hmem, rfl⟩ := List.mem_map.mp h
    split
    · exact .inl rfl
    · exact .inr hmem

/-- `writes.each { |k, v| m[k] = v }` -/
def setAll (m : OrderedMap κ ν) (writes : List (κ × ν)) : OrderedMap κ ν :=
  writes.foldl (fun m e => m.set e.1 e.2) m

theorem mem_setAll {m : OrderedMap κ ν} {writes : List (κ × ν)} {e : κ × ν}
    (h : e ∈ (m.setAll writes).entries) : e ∈ writes ∨ e ∈ m.entries := by
  induction writes generalizing m with
  | nil => exact .inr h
  | cons w writes ih =>
    rcases ih h with hmem | hmem
    · exact .inl (List.mem_cons_of_mem _ hmem)
    · rcases mem_set hmem with rfl | hmem
      · exact .inl List.mem_cons_self
      · exact .inr hmem

theorem find?_setAll_eq_none_iff (m : OrderedMap κ ν) (writes : List (κ × ν)) (k : κ) :
    (m.setAll writes).find? k = none ↔ k ∉ writes.map Prod.fst ∧ m.find? k = none := by
  induction writes generalizing m with
  | nil => exact (and_iff_right List.not_mem_nil).symm
  | cons w writes ih =>
    have hstep := ih (m.set w.1 w.2)
    rw [List.map_cons, List.mem_cons, not_or]
    refine hstep.trans ?_
    by_cases hk : k = w.1
    · subst hk
      rw [find?_set_self]
      exact iff_of_false (fun h => Option.some_ne_none _ h.2) fun h => h.1.1 rfl
    · rw [find?_set_of_ne _ _ hk, and_iff_right hk]

/-- Setting each entry of a map. -/
theorem find?_setAll_entries (m m' : OrderedMap κ ν) (k : κ) :
    (m.setAll m'.entries).find? k = (m'.find? k).or (m.find? k) := by
  obtain ⟨entries, hnodup⟩ := m'
  show (m.setAll entries).find? k = (entries.lookup k).or (m.find? k)
  induction entries generalizing m with
  | nil => rfl
  | cons e entries ih =>
    rw [List.map_cons, List.nodup_cons] at hnodup
    have hstep := ih (m.set e.1 e.2) hnodup.2
    refine hstep.trans ?_
    by_cases hk : k = e.1
    · subst hk
      rw [(lookup_eq_none_iff_notMem entries e.1).mpr hnodup.1, find?_set_self, List.lookup_cons_self]
      rfl
    · rw [find?_set_of_ne _ _ hk, List.lookup_cons, beq_false_of_ne hk]

/-! ## Iteration over lists of values -/

/-- Each value with its key; `f` gives the values that are kept for a key. -/
def lines (f : ν → List α) (m : OrderedMap κ ν) : List (κ × α) :=
  m.entries.flatMap fun e => (f e.2).map fun v => (e.1, v)

/-- The values that a list of lines has for a key. -/
def valuesOf (ls : List (κ × α)) (k : κ) : List α := (ls.filter fun l => l.1 = k).map Prod.snd

theorem valuesOf_append (ls ls' : List (κ × α)) (k : κ) :
    valuesOf (ls ++ ls') k = valuesOf ls k ++ valuesOf ls' k := by
  unfold valuesOf
  rw [List.filter_append, List.map_append]

theorem valuesOf_map_self (vs : List α) (k : κ) : valuesOf (vs.map fun v => (k, v)) k = vs := by
  unfold valuesOf
  rw [List.filter_eq_self.mpr, List.map_map]
  · exact List.map_id vs
  · intro l hl
    obtain ⟨v, _, rfl⟩ := List.mem_map.mp hl
    exact decide_eq_true rfl

theorem valuesOf_map_of_ne (vs : List α) {k k' : κ} (h : k' ≠ k) :
    valuesOf (vs.map fun v => (k', v)) k = [] := by
  unfold valuesOf
  rw [List.filter_eq_nil_iff.mpr, List.map_nil]
  intro l hl
  obtain ⟨v, _, rfl⟩ := List.mem_map.mp hl
  simpa using h

/-- The lines of a key are its values. -/
theorem valuesOf_lines (f : ν → List α) (m : OrderedMap κ ν) (k : κ) :
    valuesOf (m.lines f) k = ((m.find? k).map f).getD [] := by
  obtain ⟨entries, nodup⟩ := m
  show valuesOf (entries.flatMap fun e => (f e.2).map fun v => (e.1, v)) k =
    ((entries.lookup k).map f).getD []
  induction entries with
  | nil => rfl
  | cons e rest ih =>
    obtain ⟨hnotMem, hnodup⟩ := List.nodup_cons.mp nodup
    rw [List.flatMap_cons, valuesOf_append, ih hnodup]
    by_cases hk : e.1 = k
    · subst hk
      have hrest : rest.lookup e.1 = none := (lookup_eq_none_iff_notMem _ _).mpr hnotMem
      rw [valuesOf_map_self, hrest, List.lookup_cons_self, Option.map_none, Option.getD_none, List.append_nil]
      rfl
    · have hne : (k == e.1) = false := beq_false_of_ne fun h => hk h.symm
      rw [valuesOf_map_of_ne _ hk, List.lookup_cons, hne]
      rfl

/-! ## Lines beside a key -/

/-- The lines of the other keys. -/
def linesBut (f : ν → List α) (m : OrderedMap κ ν) (k : κ) : List (κ × α) := (m.lines f).filter fun l => l.1 ≠ k

theorem filter_linesOf_of_ne (vs : List α) {k k' : κ} (h : k' ≠ k) :
    ((vs.map fun v => (k', v)).filter fun l => l.1 ≠ k) = vs.map fun v => (k', v) := by
  rw [List.filter_eq_self]
  intro l hl
  obtain ⟨v, _, rfl⟩ := List.mem_map.mp hl
  exact decide_eq_true h

theorem filter_linesOf_self (vs : List α) (k : κ) : ((vs.map fun v => (k, v)).filter fun l => l.1 ≠ k) = [] := by
  rw [List.filter_eq_nil_iff]
  intro l hl
  obtain ⟨v, _, rfl⟩ := List.mem_map.mp hl
  simp

/-- The lines of the other keys come from the other entries. -/
theorem linesBut_eq (f : ν → List α) (m : OrderedMap κ ν) (k : κ) :
    m.linesBut f k = (m.entries.filter fun e => e.1 ≠ k).flatMap fun e => (f e.2).map fun v => (e.1, v) := by
  show ((m.entries.flatMap fun e => (f e.2).map fun v => (e.1, v)).filter fun l => l.1 ≠ k) = _
  induction m.entries with
  | nil => rfl
  | cons e rest ih =>
    rw [List.flatMap_cons, List.filter_append, ih]
    by_cases he : e.1 = k
    · subst he
      rw [filter_linesOf_self, List.nil_append, List.filter_cons_of_neg (by simp)]
    · rw [filter_linesOf_of_ne _ he, List.filter_cons_of_pos (by simpa using he), List.flatMap_cons]

theorem linesBut_erase (f : ν → List α) (m : OrderedMap κ ν) (k : κ) : (m.erase k).linesBut f k = m.linesBut f k := by
  rw [linesBut_eq, linesBut_eq]
  congr 1
  exact List.filter_eq_self.mpr fun e he => (List.mem_filter.mp he).2

theorem linesBut_set (f : ν → List α) (m : OrderedMap κ ν) (k : κ) (v : ν) :
    (m.set k v).linesBut f k = m.linesBut f k := by
  rw [linesBut_eq, linesBut_eq]
  congr 1
  unfold set
  split
  · rw [List.filter_append, List.filter_cons_of_neg (by simp), List.filter_nil, List.append_nil]
  · show (replace m.entries k v).filter _ = _
    induction m.entries with
    | nil => rfl
    | cons e rest ih =>
      have hcons : replace (e :: rest) k v = (if e.1 = k then (k, v) else e) :: replace rest k v := rfl
      rw [hcons]
      by_cases he : e.1 = k
      · rw [if_pos he, List.filter_cons_of_neg (by simp), List.filter_cons_of_neg (by simpa using he), ih]
      · rw [if_neg he, List.filter_cons_of_pos (by simpa using he), List.filter_cons_of_pos (by simpa using he), ih]

/-- The lines of a key and the values of it. -/
theorem filter_eq_map_valuesOf (ls : List (κ × α)) (k : κ) :
    (ls.filter fun l => l.1 = k) = (valuesOf ls k).map fun v => (k, v) := by
  unfold valuesOf
  rw [List.map_map]
  refine Eq.symm ((List.map_congr_left ?_).trans (List.map_id _))
  intro l hl
  have hk : l.1 = k := of_decide_eq_true (List.mem_filter.mp hl).2
  show (k, l.2) = l
  rw [← hk]

/-! ## Lines that are grouped again -/

/-- The value becomes the last one of the key. -/
def push (m : OrderedMap κ (List α)) (k : κ) (v : α) : OrderedMap κ (List α) :=
  match m.find? k with
  | some vs => m.set k (vs ++ [v])
  | none => m.set k [v]

/-- The values of each key, in the order in which the keys come. -/
def group (ls : List (κ × α)) : OrderedMap κ (List α) := ls.foldl (fun m l => m.push l.1 l.2) empty

/-- The entries that have a value. -/
def nonempty (m : OrderedMap κ (List α)) : OrderedMap κ (List α) where
  entries := m.entries.filter fun e => !e.2.isEmpty
  nodup := m.nodup.sublist (List.filter_sublist.map Prod.fst)

theorem lookup_append_self {entries : List (κ × ν)} {k : κ} (hk : k ∉ entries.map Prod.fst) (v : ν) :
    (entries ++ [(k, v)]).lookup k = some v := by
  rw [List.lookup_append, (lookup_eq_none_iff_notMem _ _).mpr hk, Option.none_or, List.lookup_cons_self]

theorem replace_append_self {entries : List (κ × ν)} {k : κ} (hk : k ∉ entries.map Prod.fst) (v v' : ν) :
    replace (entries ++ [(k, v)]) k v' = entries ++ [(k, v')] := by
  unfold replace
  rw [List.map_append, List.map_singleton, if_pos rfl]
  congr 1
  refine (List.map_congr_left fun e he => ?_).trans (List.map_id _)
  exact if_neg fun heq : e.1 = k => hk (heq ▸ List.mem_map_of_mem he)

/-- A value of the key that is last. -/
theorem entries_push_last {m : OrderedMap κ (List α)} {entries : List (κ × List α)} {k : κ} {vs : List α}
    (hm : m.entries = entries ++ [(k, vs)]) (hk : k ∉ entries.map Prod.fst) (v : α) :
    (m.push k v).entries = entries ++ [(k, vs ++ [v])] := by
  have hfind : m.find? k = some vs := by
    unfold find?
    rw [hm, lookup_append_self hk]
  have hne : ¬m.find? k = none := by
    rw [hfind]
    exact Option.some_ne_none vs
  unfold push
  rw [hfind]
  show (m.set k (vs ++ [v])).entries = _
  unfold set
  rw [dif_neg hne]
  show replace m.entries k (vs ++ [v]) = _
  rw [hm, replace_append_self hk]

theorem entries_pushes_last {m : OrderedMap κ (List α)} {entries : List (κ × List α)} {k : κ} {vs : List α}
    (hm : m.entries = entries ++ [(k, vs)]) (hk : k ∉ entries.map Prod.fst) (vs' : List α) :
    ((vs'.map fun v => (k, v)).foldl (fun m l => m.push l.1 l.2) m).entries = entries ++ [(k, vs ++ vs')] := by
  induction vs' generalizing m vs with
  | nil =>
    rw [List.append_nil]
    exact hm
  | cons v vs' ih =>
    have hstep := ih (entries_push_last hm hk v)
    rw [List.append_assoc, List.singleton_append] at hstep
    exact hstep

/-- The lines of a new key. -/
theorem entries_pushes {m : OrderedMap κ (List α)} {k : κ} (hk : k ∉ m.entries.map Prod.fst) (vs : List α) :
    ((vs.map fun v => (k, v)).foldl (fun m l => m.push l.1 l.2) m).entries =
      m.entries ++ if vs.isEmpty then [] else [(k, vs)] := by
  cases vs with
  | nil => exact (List.append_nil _).symm
  | cons v vs =>
    have hnone : m.find? k = none := (lookup_eq_none_iff_notMem _ _).mpr hk
    have hpush : (m.push k v).entries = m.entries ++ [(k, [v])] := by
      unfold push
      rw [hnone]
      show (m.set k [v]).entries = _
      unfold set
      rw [dif_pos hnone]
    exact entries_pushes_last hpush hk vs

/-- The lines of a map are grouped to its entries that have a value. -/
theorem group_lines (m : OrderedMap κ (List α)) : group (m.lines id) = m.nonempty := by
  obtain ⟨entries, hnodup⟩ := m
  apply ext
  show (group (entries.flatMap fun e => e.2.map fun v => (e.1, v))).entries = entries.filter fun e => !e.2.isEmpty
  induction entries using List.reverseRecOn with
  | nil => rfl
  | append_singleton entries e ih =>
    rw [List.map_append, List.map_singleton, List.nodup_append_comm] at hnodup
    obtain ⟨hnotMem, hnodup⟩ := List.nodup_cons.mp hnodup
    have hkeys : e.1 ∉ (group (entries.flatMap fun e => e.2.map fun v => (e.1, v))).entries.map Prod.fst := by
      rw [ih hnodup]
      exact fun hmem => hnotMem ((List.filter_sublist.map Prod.fst).subset hmem)
    have hpushes := entries_pushes hkeys e.2
    rw [ih hnodup] at hpushes
    rw [List.flatMap_append, List.flatMap_singleton, List.filter_append]
    unfold group at hpushes ⊢
    rw [List.foldl_append, hpushes]
    congr 1
    cases hvs : e.2.isEmpty with
    | true => simp [hvs]
    | false => simp [hvs]

end OrderedMap

end OverSip
