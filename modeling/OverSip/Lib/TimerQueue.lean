import Mathlib.Data.List.Perm.Basic
import Mathlib.Tactic.Common

/-!
# A queue of armed timers

An event loop keeps the armed timers of an object as a list of entries, in the order in which they
were armed: what to run (`key`) and when (`due`). `pop` gives the entry to run next, the one with
the least `due`, and among equal ones the one that was armed first; an entry is run at most once.

`pop_spec` says where the popped entry stood: everything armed before it is due later, everything
armed after it is not due earlier. The other facts about `pop` follow from it.
-/

namespace OverSip

/-- An armed timer: the code it runs and the time it is due at. -/
structure Armed (κ : Type) where
  key : κ
  due : ℕ
deriving DecidableEq, Repr

/-- The armed timers, in the order of arming. -/
abbrev TimerQueue (κ : Type) := List (Armed κ)

namespace TimerQueue

variable {κ : Type} {q r : TimerQueue κ} {x y : Armed κ}

/-- Arm a timer. -/
def arm (q : TimerQueue κ) (k : κ) (due : ℕ) : TimerQueue κ := q ++ [⟨k, due⟩]

/-- Cancel the timers that would run `k`. -/
def cancel [DecidableEq κ] (q : TimerQueue κ) (k : κ) : TimerQueue κ := q.filter (·.key ≠ k)

/-- Some armed timer would run `k`. -/
def Has (q : TimerQueue κ) (k : κ) : Prop := ∃ x ∈ q, x.key = k

instance [DecidableEq κ] (q : TimerQueue κ) (k : κ) : Decidable (q.Has k) :=
  inferInstanceAs (Decidable (∃ x ∈ q, x.key = k))

/-- The entry to run next and the queue without it. -/
def pop : TimerQueue κ → Option (Armed κ × TimerQueue κ)
  | [] => none
  | x :: xs =>
    match pop xs with
    | none => some (x, [])
    | some (y, ys) => if y.due < x.due then some (y, x :: ys) else some (x, xs)

/-! ## Arming and cancelling -/

@[simp] theorem mem_arm {k : κ} {due : ℕ} : x ∈ q.arm k due ↔ x ∈ q ∨ x = ⟨k, due⟩ := by
  simp [arm]

@[simp] theorem mem_cancel [DecidableEq κ] {k : κ} : x ∈ q.cancel k ↔ x ∈ q ∧ x.key ≠ k := by
  simp [cancel]

@[simp] theorem not_has_nil {k : κ} : ¬ Has ([] : TimerQueue κ) k := by
  simp [Has]

@[simp] theorem has_arm {k l : κ} {due : ℕ} : (q.arm k due).Has l ↔ q.Has l ∨ k = l := by
  simp only [Has, mem_arm]
  constructor
  · rintro ⟨x, hx | rfl, hk⟩
    · exact .inl ⟨x, hx, hk⟩
    · exact .inr hk
  · rintro (⟨x, hx, hk⟩ | rfl)
    · exact ⟨x, .inl hx, hk⟩
    · exact ⟨_, .inr rfl, rfl⟩

@[simp] theorem has_cancel [DecidableEq κ] {k l : κ} :
    (q.cancel k).Has l ↔ q.Has l ∧ l ≠ k := by
  simp only [Has, mem_cancel]
  constructor
  · rintro ⟨x, ⟨hx, hne⟩, rfl⟩
    exact ⟨⟨x, hx, rfl⟩, hne⟩
  · rintro ⟨⟨x, hx, rfl⟩, hne⟩
    exact ⟨x, ⟨hx, hne⟩, rfl⟩

theorem Has.of_mem (h : x ∈ q) : q.Has x.key := ⟨x, h, rfl⟩

theorem cancel_sublist [DecidableEq κ] (q : TimerQueue κ) (k : κ) : (q.cancel k).Sublist q :=
  List.filter_sublist

/-! ## The next entry -/

theorem pop_eq_none_iff : q.pop = none ↔ q = [] := by
  constructor
  · intro h
    cases q with
    | nil => rfl
    | cons x xs =>
      rw [pop] at h
      split at h
      · cases h
      · split at h <;> cases h
  · rintro rfl
    rfl

/-- Where the popped entry stood in the queue. -/
theorem pop_spec (h : q.pop = some (x, r)) :
    ∃ a b, q = a ++ x :: b ∧ r = a ++ b ∧ (∀ y ∈ a, x.due < y.due) ∧ ∀ y ∈ b, x.due ≤ y.due := by
  induction q generalizing x r with
  | nil => simp [pop] at h
  | cons z zs ih =>
    rw [pop] at h
    split at h
    · rename_i hnone
      obtain ⟨rfl, rfl⟩ := Prod.mk.inj (Option.some.inj h)
      have hzs : zs = [] := pop_eq_none_iff.mp hnone
      exact ⟨[], [], by simp [hzs], by simp, by simp, by simp⟩
    · rename_i y ys hsome
      obtain ⟨a, b, hzs, hys, ha, hb⟩ := ih hsome
      split at h
      · rename_i hlt
        obtain ⟨rfl, rfl⟩ := Prod.mk.inj (Option.some.inj h)
        refine ⟨z :: a, b, by simp [hzs], by simp [hys], ?_, hb⟩
        intro w hw
        rcases List.mem_cons.mp hw with rfl | hw
        · exact hlt
        · exact ha w hw
      · rename_i hge
        obtain ⟨rfl, rfl⟩ := Prod.mk.inj (Option.some.inj h)
        refine ⟨[], zs, rfl, rfl, by simp, ?_⟩
        intro w hw
        rw [hzs, List.mem_append, List.mem_cons] at hw
        rcases hw with hw | rfl | hw
        · have := ha w hw; omega
        · omega
        · have := hb w hw; omega

theorem exists_pop (h : q ≠ []) : ∃ x r, q.pop = some (x, r) := by
  cases hp : q.pop with
  | none => exact absurd (pop_eq_none_iff.mp hp) h
  | some p => exact ⟨p.1, p.2, rfl⟩

theorem pop_mem (h : q.pop = some (x, r)) : x ∈ q := by
  obtain ⟨a, b, rfl, _, _, _⟩ := pop_spec h
  simp

theorem pop_perm (h : q.pop = some (x, r)) : q.Perm (x :: r) := by
  obtain ⟨a, b, rfl, rfl, _, _⟩ := pop_spec h
  exact List.perm_middle

theorem pop_sublist (h : q.pop = some (x, r)) : r.Sublist q := by
  obtain ⟨a, b, rfl, rfl, _, _⟩ := pop_spec h
  exact (List.Sublist.refl a).append (List.sublist_cons_self x b)

theorem mem_pop_iff (h : q.pop = some (x, r)) : y ∈ q ↔ y = x ∨ y ∈ r := by
  rw [(pop_perm h).mem_iff, List.mem_cons]

theorem mem_of_mem_pop (h : q.pop = some (x, r)) (hy : y ∈ r) : y ∈ q :=
  (pop_sublist h).subset hy

theorem Has.of_pop {k : κ} (h : q.pop = some (x, r)) (hk : Has r k) : q.Has k := by
  obtain ⟨y, hy, hyk⟩ := hk
  exact ⟨y, mem_of_mem_pop h hy, hyk⟩

/-- What is armed and is not what the popped entry runs stays armed. -/
theorem Has.pop {k : κ} (hk : q.Has k) (h : q.pop = some (x, r)) (hne : x.key ≠ k) : Has r k := by
  obtain ⟨y, hy, rfl⟩ := hk
  rcases (mem_pop_iff h).mp hy with rfl | hy
  · exact absurd rfl hne
  · exact ⟨y, hy, rfl⟩

theorem pop_due_le (h : q.pop = some (x, r)) (hy : y ∈ q) : x.due ≤ y.due := by
  obtain ⟨a, b, rfl, _, ha, hb⟩ := pop_spec h
  rw [List.mem_append, List.mem_cons] at hy
  rcases hy with hy | rfl | hy
  · exact Nat.le_of_lt (ha y hy)
  · exact Nat.le_refl _
  · exact hb y hy

/-! ## Timers that are armed once -/

/-- At most one armed timer would run `k`. -/
def AtMostOne (k : κ) (q : TimerQueue κ) : Prop := q.Pairwise fun x y => x.key = k → y.key ≠ k

theorem AtMostOne.of_not_has {k : κ} (h : ¬ q.Has k) : AtMostOne k q :=
  List.pairwise_of_forall_mem_list fun x hx _ _ hk => absurd ⟨x, hx, hk⟩ h

theorem AtMostOne.sublist {k : κ} (h : AtMostOne k q) (hr : r.Sublist q) : AtMostOne k r :=
  List.Pairwise.sublist hr h

@[simp] theorem atMostOne_arm {k l : κ} {due : ℕ} :
    AtMostOne k (q.arm l due) ↔ AtMostOne k q ∧ (l = k → ¬ q.Has k) := by
  unfold AtMostOne TimerQueue.arm
  rw [List.pairwise_append]
  constructor
  · intro ⟨h, _, hl⟩
    refine ⟨h, ?_⟩
    rintro rfl ⟨x, hx, hk⟩
    exact hl x hx _ (List.mem_singleton.mpr rfl) hk rfl
  · intro ⟨h, hl⟩
    refine ⟨h, List.pairwise_singleton _ _, ?_⟩
    intro x hx y hy hk
    obtain rfl := List.mem_singleton.mp hy
    exact fun hlk => hl hlk ⟨x, hx, hk⟩

theorem AtMostOne.cancel [DecidableEq κ] {k l : κ} (h : AtMostOne k q) :
    AtMostOne k (q.cancel l) :=
  h.sublist (cancel_sublist q l)

/-- After its only timer is popped, nothing armed would run `k`. -/
theorem AtMostOne.pop (h : AtMostOne x.key q) (hpop : q.pop = some (x, r)) : ¬ Has r x.key := by
  obtain ⟨a, b, rfl, rfl, _, _⟩ := pop_spec hpop
  rintro ⟨y, hy, hk⟩
  obtain ⟨_, hxb, hax⟩ := List.pairwise_append.mp h
  rcases List.mem_append.mp hy with hy | hy
  · exact hax y hy x (List.mem_cons_self ..) hk rfl
  · exact (List.pairwise_cons.mp hxb).1 y hy rfl hk

/-! ## Order of expiry

`Before P R q`: every entry that satisfies `R` and was armed together with one that satisfies `P`
was armed after it and is not due earlier. It is what makes an entry of the first kind run first. -/

/-- Entries of the first kind stand before, and are due no later than, those of the second. -/
def Before (P R : κ → Prop) (q : TimerQueue κ) : Prop :=
  q.Pairwise fun x y => (R x.key → ¬ P y.key) ∧ (P x.key → R y.key → x.due ≤ y.due)

theorem Before.nil (P R : κ → Prop) : Before P R [] := List.Pairwise.nil

theorem Before.sublist {P R : κ → Prop} (h : Before P R q) (hr : r.Sublist q) : Before P R r :=
  List.Pairwise.sublist hr h

theorem Before.arm {P R : κ → Prop} {k : κ} {due : ℕ} (h : Before P R q)
    (hP : P k → ∀ x ∈ q, ¬ R x.key) (hR : R k → ∀ x ∈ q, P x.key → x.due ≤ due) :
    Before P R (q.arm k due) := by
  refine List.pairwise_append.mpr ⟨h, List.pairwise_singleton _ _, ?_⟩
  intro x hx y hy
  obtain rfl := List.mem_singleton.mp hy
  exact ⟨fun hRx hPk => hP hPk x hx hRx, fun hPx hRk => hR hRk x hx hPx⟩

/-- While an entry of the first kind is armed, none of the second kind is popped. -/
theorem Before.pop {P R : κ → Prop} (h : Before P R q) (hpop : q.pop = some (x, r))
    (hP : ∃ y ∈ q, P y.key) (hxP : ¬ P x.key) : ¬ R x.key := by
  intro hRx
  obtain ⟨y, hy, hPy⟩ := hP
  obtain ⟨a, b, rfl, _, ha, hb⟩ := pop_spec hpop
  obtain ⟨_, hxb, hax⟩ := List.pairwise_append.mp h
  rw [List.mem_append, List.mem_cons] at hy
  rcases hy with hy | rfl | hy
  · have := (hax y hy x (List.mem_cons_self ..)).2 hPy hRx
    have := ha y hy
    omega
  · exact hxP hPy
  · exact (List.pairwise_cons.mp hxb).1 y hy |>.1 hRx hPy

end TimerQueue

end OverSip
