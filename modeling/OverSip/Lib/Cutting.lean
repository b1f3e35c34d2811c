import Mathlib.Data.List.TakeWhile
import Mathlib.Tactic.Common

/-!
# Texts that are cut at a character

What stands before the first `c` and what stands from it on, and the parts between all the `c`.
-/

namespace OverSip

variable {α : Type} [DecidableEq α] {c : α} {s : List α}

/-! ## At the first one -/

theorem takeWhile_ne_append (hs : c ∉ s) (rest : List α) : (s ++ c :: rest).takeWhile (· ≠ c) = s := by
  rw [List.takeWhile_append_of_pos]
  · rw [List.takeWhile_cons_of_neg (by simp), List.append_nil]
  · intro a ha
    exact decide_eq_true fun heq => hs (heq ▸ ha)

theorem dropWhile_ne_append (hs : c ∉ s) (rest : List α) : (s ++ c :: rest).dropWhile (· ≠ c) = c :: rest := by
  rw [List.dropWhile_append_of_pos]
  · rw [List.dropWhile_cons_of_neg (by simp)]
  · intro a ha
    exact decide_eq_true fun heq => hs (heq ▸ ha)

theorem takeWhile_ne_of_notMem (hs : c ∉ s) : s.takeWhile (· ≠ c) = s :=
  List.takeWhile_eq_self_iff.mpr fun _ ha => decide_eq_true fun heq => hs (heq ▸ ha)

theorem dropWhile_ne_of_notMem (hs : c ∉ s) : s.dropWhile (· ≠ c) = [] :=
  List.dropWhile_eq_nil_iff.mpr fun _ ha => decide_eq_true fun heq => hs (heq ▸ ha)

theorem drop_takeWhile_ne_append (hs : c ∉ s) (rest : List α) :
    (s ++ c :: rest).drop (((s ++ c :: rest).takeWhile (· ≠ c)).length + 1) = rest := by
  rw [takeWhile_ne_append hs, ← List.singleton_append, ← List.append_assoc]
  exact List.drop_left' (List.length_append ..)

theorem notMem_takeWhile_ne (c : α) (s : List α) : c ∉ s.takeWhile (· ≠ c) := by
  intro h
  have hne := List.mem_takeWhile_imp h
  exact of_decide_eq_true hne rfl

theorem append_cons_inj_of_notMem {s' rest rest' : List α} (hs : c ∉ s) (hs' : c ∉ s')
    (h : s ++ c :: rest = s' ++ c :: rest') : s = s' ∧ rest = rest' := by
  have hfront : s = s' := by
    rw [← takeWhile_ne_append hs rest, h, takeWhile_ne_append hs']
  subst hfront
  exact ⟨rfl, List.tail_eq_of_cons_eq (List.append_cancel_left h)⟩

/-! ## At each of them -/

variable {head : List α} {parts : List (List α)}

theorem splitOn_append_flatMap (hhead : c ∉ head) (hparts : ∀ part ∈ parts, c ∉ part) :
    (head ++ parts.flatMap (c :: ·)).splitOn c = head :: parts := by
  induction parts generalizing head with
  | nil =>
    rw [List.flatMap_nil, List.append_nil]
    exact List.splitOn_eq_singleton hhead
  | cons part parts ih =>
    rw [List.forall_mem_cons] at hparts
    rw [List.flatMap_cons, List.cons_append, List.splitOn_append_cons_self_of_not_mem hhead, ih hparts.1 hparts.2]

/-- The parts with what stands between them are the text. -/
theorem of_splitOn_eq (h : s.splitOn c = head :: parts) :
    s = head ++ parts.flatMap (c :: ·) ∧ c ∉ head ∧ ∀ part ∈ parts, c ∉ part := by
  induction parts generalizing s head with
  | nil =>
    by_cases hc : c ∈ s
    · obtain ⟨front, rest, rfl, hfront⟩ := List.eq_append_cons_of_mem hc
      rw [List.splitOn_append_cons_self_of_not_mem hfront] at h
      exact absurd (List.cons.inj h).2 (List.splitOn_ne_nil c rest)
    · rw [List.splitOn_eq_singleton hc] at h
      obtain rfl := (List.cons.inj h).1
      exact ⟨(List.append_nil s).symm, hc, List.forall_mem_nil _⟩
  | cons part parts ih =>
    by_cases hc : c ∈ s
    · obtain ⟨front, rest, rfl, hfront⟩ := List.eq_append_cons_of_mem hc
      rw [List.splitOn_append_cons_self_of_not_mem hfront] at h
      obtain ⟨rfl, hrest⟩ := List.cons.inj h
      obtain ⟨rfl, hpart, hparts⟩ := ih hrest
      exact ⟨rfl, hfront, List.forall_mem_cons.mpr ⟨hpart, hparts⟩⟩
    · rw [List.splitOn_eq_singleton hc] at h
      cases (List.cons.inj h).2

end OverSip
