import Mathlib.Data.List.Forall2
import Mathlib.Logic.Function.Basic
import Mathlib.Tactic.Common

/-!
# Loops that stop at their first error

A loop over a list whose body may fail ends with the error of the first entry that fails, and with a result
only when no entry does. `List.mapM` collects the results of the entries; `settle` writes them into a table
of settings, where an entry that reads nothing leaves its setting alone.
-/

namespace OverSip

namespace FirstError

variable {α β π ε : Type}

/-- The first entry of a list that fails, fails with `e`. -/
def At (f : α → Except ε β) (l : List α) (e : ε) : Prop :=
  ∃ before a after, l = before ++ a :: after ∧ (∀ b ∈ before, ∃ v, f b = .ok v) ∧ f a = .error e

theorem not_at_nil (f : α → Except ε β) (e : ε) : ¬ At f [] e := by
  rintro ⟨before, a, after, hl, -, -⟩
  exact absurd hl.symm (List.append_ne_nil_of_right_ne_nil _ (List.cons_ne_nil _ _))

theorem at_cons_of_error {f : α → Except ε β} {a : α} {e₁ : ε} (ha : f a = .error e₁) (l : List α) (e : ε) :
    At f (a :: l) e ↔ e₁ = e := by
  constructor
  · rintro ⟨before, b, after, hl, hbefore, hb⟩
    cases before with
    | nil =>
      have hab : a = b := (List.cons.inj hl).1
      rw [hab, hb] at ha
      exact (Except.error.inj ha).symm
    | cons c before =>
      have hac : a = c := (List.cons.inj hl).1
      obtain ⟨v, hv⟩ := hbefore c List.mem_cons_self
      rw [hac, hv] at ha
      cases ha
  · intro he
    refine ⟨[], a, l, rfl, ?_, he ▸ ha⟩
    intro b hb
    exact absurd hb List.not_mem_nil

theorem at_cons_of_ok {f : α → Except ε β} {a : α} {v : β} (ha : f a = .ok v) (l : List α) (e : ε) :
    At f (a :: l) e ↔ At f l e := by
  constructor
  · rintro ⟨before, b, after, hl, hbefore, hb⟩
    cases before with
    | nil =>
      have hab : a = b := (List.cons.inj hl).1
      rw [hab, hb] at ha
      cases ha
    | cons c before =>
      refine ⟨before, b, after, (List.cons.inj hl).2, ?_, hb⟩
      intro x hx
      exact hbefore x (List.mem_cons_of_mem _ hx)
  · rintro ⟨before, b, after, hl, hbefore, hb⟩
    refine ⟨a :: before, b, after, by rw [hl, List.cons_append], ?_, hb⟩
    intro x hx
    rcases List.mem_cons.mp hx with rfl | hx
    · exact ⟨v, ha⟩
    · exact hbefore x hx

/-! ## Collected results -/

theorem exists_of_forall₂ {r : α → β → Prop} {l : List α} {l' : List β} (h : List.Forall₂ r l l') {a : α}
    (ha : a ∈ l) : ∃ b, r a b := by
  induction h with
  | nil => exact absurd ha List.not_mem_nil
  | cons hr _ ih =>
    rcases List.mem_cons.mp ha with rfl | hmem
    · exact ⟨_, hr⟩
    · exact ih hmem

theorem mapM_eq_ok_iff (f : α → Except ε β) (l : List α) (l' : List β) :
    l.mapM f = .ok l' ↔ List.Forall₂ (fun a b => f a = .ok b) l l' := by
  induction l generalizing l' with
  | nil =>
    rw [List.mapM_nil, List.forall₂_nil_left_iff]
    constructor
    · intro h
      exact (Except.ok.inj h).symm
    · intro h
      rw [h]
      rfl
  | cons a l ih =>
    rw [List.mapM_cons, List.forall₂_cons_left_iff]
    cases ha : f a with
    | error e =>
      constructor
      · intro h
        cases h
      · rintro ⟨b, l₁, hb, -, -⟩
        cases hb
    | ok b =>
      cases hl : l.mapM f with
      | error e =>
        constructor
        · intro h
          cases h
        · rintro ⟨b₁, l₁, -, hl₁, -⟩
          rw [(ih l₁).mpr hl₁] at hl
          cases hl
      | ok l₁ =>
        constructor
        · intro h
          exact ⟨b, l₁, rfl, (ih l₁).mp hl, (Except.ok.inj h).symm⟩
        · rintro ⟨b₁, l₂, hb, hl₂, rfl⟩
          rw [(ih l₂).mpr hl₂] at hl
          rw [← Except.ok.inj hb, Except.ok.inj hl]
          rfl

theorem mapM_eq_error_iff (f : α → Except ε β) (l : List α) (e : ε) : l.mapM f = .error e ↔ At f l e := by
  induction l with
  | nil =>
    constructor
    · intro h
      cases h
    · intro h
      exact absurd h (not_at_nil f e)
  | cons a l ih =>
    rw [List.mapM_cons]
    cases ha : f a with
    | error e₁ =>
      rw [at_cons_of_error ha]
      exact ⟨Except.error.inj, fun h => congrArg Except.error h⟩
    | ok b =>
      rw [at_cons_of_ok ha, ← ih]
      cases hl : l.mapM f with
      | error e₁ => exact Iff.rfl
      | ok l₁ =>
        constructor
        · intro h
          cases h
        · intro h
          cases h

/-! ## Settings -/

/-- The value of a setting: what is read of it, or what it was. -/
def settled (read : π → Except ε (Option α)) (m : π → α) (p : π) : α :=
  match read p with
  | .ok (some v) => v
  | _ => m p

theorem settled_of_some {read : π → Except ε (Option α)} {p : π} {v : α} (h : read p = .ok (some v))
    (m : π → α) : settled read m p = v := by
  rw [settled, h]

theorem settled_of_none {read : π → Except ε (Option α)} {p : π} (h : read p = .ok none) (m : π → α) :
    settled read m p = m p := by
  rw [settled, h]

theorem settled_of_ok {read : π → Except ε (Option α)} {p : π} {r : Option α} (h : read p = .ok r) (m : π → α) :
    settled read m p = r.getD (m p) := by
  cases r with
  | none => exact settled_of_none h m
  | some v => exact settled_of_some h m

section settle

variable [DecidableEq π]

/-- Write what is read of each entry of a list into a table. -/
def settle (read : π → Except ε (Option α)) : List π → (π → α) → Except ε (π → α)
  | [], m => .ok m
  | p :: ps, m =>
    match read p with
    | .error e => .error e
    | .ok none => settle read ps m
    | .ok (some v) => settle read ps (Function.update m p v)

variable {read : π → Except ε (Option α)}

theorem settle_eq_ok_iff (l : List π) (m m' : π → α) :
    settle read l m = .ok m' ↔
      (∀ p ∈ l, ∃ v, read p = .ok v) ∧ m' = fun p => if p ∈ l then settled read m p else m p := by
  induction l generalizing m with
  | nil =>
    rw [settle]
    constructor
    · intro h
      refine ⟨fun p hp => absurd hp List.not_mem_nil, ?_⟩
      rw [← Except.ok.inj h]
      funext p
      rw [if_neg List.not_mem_nil]
    · rintro ⟨-, rfl⟩
      congr 1
  | cons p ps ih =>
    rw [settle]
    cases hp : read p with
    | error e =>
      constructor
      · intro h
        cases h
      · rintro ⟨hall, -⟩
        obtain ⟨v, hv⟩ := hall p List.mem_cons_self
        rw [hp] at hv
        cases hv
    | ok r =>
      have hall : (∀ q ∈ p :: ps, ∃ v, read q = .ok v) ↔ ∀ q ∈ ps, ∃ v, read q = .ok v := by
        rw [List.forall_mem_cons]
        exact and_iff_right ⟨r, hp⟩
      rw [hall]
      cases r with
      | none =>
        -- the entry itself keeps its setting, whether it is in the rest or not
        have htable : (fun q => if q ∈ p :: ps then settled read m q else m q) =
            fun q => if q ∈ ps then settled read m q else m q := by
          funext q
          by_cases hq : q = p
          · rw [hq, if_pos List.mem_cons_self, settled_of_none hp, ite_self]
          · simp only [List.mem_cons, hq, false_or]
        rw [htable]
        exact ih m
      | some v =>
        have htable : (fun q => if q ∈ p :: ps then settled read m q else m q) =
            fun q => if q ∈ ps then settled read (Function.update m p v) q else Function.update m p v q := by
          funext q
          by_cases hq : q = p
          · rw [hq, if_pos List.mem_cons_self, settled_of_some hp, settled_of_some hp, Function.update_self, ite_self]
          · have hupdate : settled read (Function.update m p v) q = settled read m q := by
              rw [settled, settled, Function.update_of_ne hq]
            simp only [List.mem_cons, hq, false_or, Function.update_of_ne hq, hupdate]
        rw [htable]
        exact ih (Function.update m p v)

theorem settle_eq_error_iff (l : List π) (m : π → α) (e : ε) : settle read l m = .error e ↔ At read l e := by
  induction l generalizing m with
  | nil =>
    constructor
    · intro h
      cases h
    · intro h
      exact absurd h (not_at_nil read e)
  | cons p ps ih =>
    rw [settle]
    cases hp : read p with
    | error e₁ =>
      rw [at_cons_of_error hp]
      exact ⟨Except.error.inj, fun h => congrArg Except.error h⟩
    | ok r =>
      rw [at_cons_of_ok hp]
      cases r with
      | none => exact ih m
      | some v => exact ih (Function.update m p v)

end settle

end FirstError

end OverSip
