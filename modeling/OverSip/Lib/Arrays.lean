import Mathlib.Data.List.GetD

/-!
# Arrays that are shared

A program whose arrays are objects hands around references to them. `Arrays` is what has been allocated so
far: a reference is the place of an array in it. An array that is allocated later, or changed later through
a reference of its own, leaves those that were there before as they are (`Arrays.Extends`).
-/

namespace OverSip

/-- The arrays that have been allocated. -/
structure Arrays (α : Type) where
  arrays : List (List α)
deriving DecidableEq, Repr

namespace Arrays

variable {α : Type}

/-- The reference is to an array that is there. -/
def Allocated (m : Arrays α) (ref : Nat) : Prop := ref < m.arrays.length

def read (m : Arrays α) (ref : Nat) : List α := m.arrays.getD ref []

/-- A new array, and its reference. -/
def alloc (m : Arrays α) (xs : List α) : Nat × Arrays α := (m.arrays.length, ⟨m.arrays ++ [xs]⟩)

def write (m : Arrays α) (ref : Nat) (xs : List α) : Arrays α := ⟨m.arrays.set ref xs⟩

/-- What was there before is there, and as it was. -/
structure Extends (m m' : Arrays α) : Prop where
  length_le : m.arrays.length ≤ m'.arrays.length
  read_eq : ∀ ref, m.Allocated ref → m'.read ref = m.read ref

theorem Extends.refl (m : Arrays α) : m.Extends m := ⟨Nat.le_refl _, fun _ _ => rfl⟩

theorem Extends.allocated {m m' : Arrays α} (h : m.Extends m') {ref : Nat} (href : m.Allocated ref) :
    m'.Allocated ref :=
  Nat.lt_of_lt_of_le href h.length_le

theorem Extends.trans {m₁ m₂ m₃ : Arrays α} (h₁ : m₁.Extends m₂) (h₂ : m₂.Extends m₃) : m₁.Extends m₃ := by
  constructor
  · exact Nat.le_trans h₁.length_le h₂.length_le
  · intro ref href
    rw [h₂.read_eq ref (h₁.allocated href), h₁.read_eq ref href]

theorem allocated_alloc (m : Arrays α) (xs : List α) : (m.alloc xs).2.Allocated (m.alloc xs).1 := by
  show m.arrays.length < (m.arrays ++ [xs]).length
  rw [List.length_append, List.length_singleton]
  exact Nat.lt_succ_self _

theorem read_alloc (m : Arrays α) (xs : List α) : (m.alloc xs).2.read (m.alloc xs).1 = xs := by
  show (m.arrays ++ [xs]).getD m.arrays.length [] = xs
  rw [List.getD_append_right _ _ _ _ (Nat.le_refl _), Nat.sub_self]
  rfl

theorem extends_alloc (m : Arrays α) (xs : List α) : m.Extends (m.alloc xs).2 := by
  constructor
  · show m.arrays.length ≤ (m.arrays ++ [xs]).length
    rw [List.length_append]
    exact Nat.le_add_right _ _
  · intro ref href
    exact List.getD_append _ _ _ _ href

theorem read_write {m : Arrays α} {ref : Nat} (href : m.Allocated ref) (xs : List α) :
    (m.write ref xs).read ref = xs := by
  show (m.arrays.set ref xs).getD ref [] = xs
  rw [List.getD_eq_getElem?_getD, List.getElem?_set_self href]
  rfl

theorem allocated_write {m : Arrays α} {other : Nat} (hother : m.Allocated other) (ref : Nat) (xs : List α) :
    (m.write ref xs).Allocated other := by
  show other < (m.arrays.set ref xs).length
  rw [List.length_set]
  exact hother

theorem read_write_of_ne (m : Arrays α) {ref other : Nat} (hne : ref ≠ other) (xs : List α) :
    (m.write ref xs).read other = m.read other := by
  show (m.arrays.set ref xs).getD other [] = m.arrays.getD other []
  rw [List.getD_eq_getElem?_getD, List.getElem?_set_ne hne, ← List.getD_eq_getElem?_getD]

/-- A change through a reference that is newer than the old arrays. -/
theorem Extends.write {m m' : Arrays α} (h : m.Extends m') {ref : Nat} (hnew : ¬m.Allocated ref)
    (xs : List α) : m.Extends (m'.write ref xs) := by
  constructor
  · show m.arrays.length ≤ (m'.arrays.set ref xs).length
    rw [List.length_set]
    exact h.length_le
  · intro other hother
    have hne : ref ≠ other := by
      rintro rfl
      exact hnew hother
    rw [read_write_of_ne m' hne, h.read_eq other hother]

end Arrays

end OverSip
