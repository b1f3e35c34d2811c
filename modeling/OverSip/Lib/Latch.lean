import Mathlib.Data.List.Induction
import Mathlib.Tactic.Common

/-!
# Latches

A variable that keeps the first value it is given until it is cleared.
-/

namespace OverSip

/-- What is done with a latch. -/
inductive LatchOp (α : Type)
  | set (a : α)
  | clear
deriving DecidableEq, Repr

namespace Latch

variable {α : Type}

def next (v : Option α) : LatchOp α → Option α
  | .set a => v.or (some a)
  | .clear => none

/-- The value after some operations, the oldest first. -/
def after (ops : List (LatchOp α)) : Option α := ops.foldl next none

/-- `a` is the first value that was given since the last clearing. -/
def Holds (ops : List (LatchOp α)) (a : α) : Prop :=
  ∃ before since, ops = before ++ .set a :: since ∧ .clear ∉ since ∧
    ∀ front b rest, before = front ++ .set b :: rest → .clear ∈ rest

@[simp] theorem after_snoc (ops : List (LatchOp α)) (op : LatchOp α) : after (ops ++ [op]) = next (after ops) op := by
  unfold after
  rw [List.foldl_append, List.foldl_cons, List.foldl_nil]

theorem after_eq_none_iff {ops : List (LatchOp α)} :
    after ops = none ↔ ∀ front b rest, ops = front ++ .set b :: rest → .clear ∈ rest := by
  induction ops using List.reverseRecOn with
  | nil =>
    refine iff_of_true rfl ?_
    intro front b rest h
    simp at h
  | append_singleton ops op ih =>
    rw [after_snoc]
    cases op with
    | set a =>
      refine iff_of_false ?_ fun h => absurd (h ops a [] rfl) List.not_mem_nil
      cases after ops <;> simp [next]
    | clear =>
      refine iff_of_true rfl ?_
      intro front b rest h
      -- the last operation is not the `set`
      rcases List.eq_nil_or_concat rest with rfl | ⟨rest, op, rfl⟩
      · have hop := (List.append_inj' h rfl).2
        cases hop
      · rw [List.concat_eq_append, ← List.cons_append, ← List.append_assoc] at h
        obtain rfl := List.singleton_inj.mp (List.append_inj' h rfl).2
        rw [List.concat_eq_append]
        exact List.mem_append_right _ (List.mem_singleton.mpr rfl)

/-- **The value of a latch** is the first one since the last clearing. -/
theorem after_eq_some_iff {ops : List (LatchOp α)} {a : α} : after ops = some a ↔ Holds ops a := by
  induction ops using List.reverseRecOn with
  | nil =>
    refine iff_of_false (Option.some_ne_none a).symm ?_
    rintro ⟨before, since, h, -⟩
    simp at h
  | append_singleton ops op ih =>
    rw [after_snoc]
    cases op with
    | set b =>
      cases hops : after ops with
      | some v =>
        rw [hops] at ih
        show some v = some a ↔ _
        rw [ih]
        constructor
        · rintro ⟨before, since, rfl, hclear, hbefore⟩
          refine ⟨before, since ++ [.set b], ?_, ?_, hbefore⟩
          · rw [List.append_assoc, List.cons_append]
          · simpa using hclear
        · rintro ⟨before, since, h, hclear, hbefore⟩
          rcases List.eq_nil_or_concat since with rfl | ⟨since, op, rfl⟩
          · obtain rfl := (List.append_inj' h rfl).1
            rw [after_eq_none_iff.mpr hbefore] at hops
            cases hops
          · rw [List.concat_eq_append] at h hclear
            rw [← List.cons_append, ← List.append_assoc] at h
            refine ⟨before, since, (List.append_inj' h rfl).1, ?_, hbefore⟩
            exact fun hmem => hclear (List.mem_append_left _ hmem)
      | none =>
        show some b = some a ↔ _
        constructor
        · intro h
          obtain rfl := Option.some.inj h
          exact ⟨ops, [], rfl, List.not_mem_nil, after_eq_none_iff.mp hops⟩
        · rintro ⟨before, since, h, hclear, hbefore⟩
          rcases List.eq_nil_or_concat since with rfl | ⟨since, op, rfl⟩
          · exact congrArg some (LatchOp.set.inj (List.singleton_inj.mp (List.append_inj' h rfl).2))
          · -- an earlier `set` would have been cleared
            rw [List.concat_eq_append, ← List.cons_append, ← List.append_assoc] at h
            obtain rfl := (List.append_inj' h rfl).1
            rw [List.concat_eq_append] at hclear
            exact absurd (after_eq_none_iff.mp hops before a since rfl) fun hmem => hclear (List.mem_append_left _ hmem)
    | clear =>
      refine iff_of_false (Option.some_ne_none a).symm ?_
      rintro ⟨before, since, h, hclear, -⟩
      rcases List.eq_nil_or_concat since with rfl | ⟨since, op, rfl⟩
      · cases (List.append_inj' h rfl).2
      · rw [List.concat_eq_append, ← List.cons_append, ← List.append_assoc] at h
        obtain rfl := List.singleton_inj.mp (List.append_inj' h rfl).2
        rw [List.concat_eq_append] at hclear
        exact hclear (List.mem_append_right _ (List.mem_singleton.mpr rfl))

end Latch

end OverSip
