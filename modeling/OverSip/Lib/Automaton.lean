import Mathlib.Tactic.Common

/-!
# Automata that read bytes

An automaton reads bytes until it is done or fails. It is resumed where it stopped for want of bytes:
`read_append` says that reading two pieces one after the other is reading them at once, and
`read_append_of_stopped` that bytes behind the end are not looked at.
-/

namespace OverSip

/-- An automaton over bytes. `done` and `failed` end the reading. -/
structure Automaton (σ : Type) where
  start : σ
  step : σ → UInt8 → σ
  done : σ → Bool
  failed : σ → Bool

namespace Automaton

variable {σ : Type} (a : Automaton σ)

/-- The reading has come to an end in `s`. -/
def Stopped (s : σ) : Prop := a.failed s = true ∨ a.done s = true

instance (s : σ) : Decidable (a.Stopped s) :=
  inferInstanceAs (Decidable (a.failed s = true ∨ a.done s = true))

/-- Read until the automaton stops or the bytes are used up: the state, and how many bytes were taken.
The byte at which it fails is not taken. -/
def read : σ → List UInt8 → σ × ℕ
  | s, [] => (s, 0)
  | s, b :: bs =>
    let s' := a.step s b
    if a.failed s' then (s', 0)
    else if a.done s' then (s', 1)
    else
      let (s'', n) := read s' bs
      (s'', n + 1)

variable {a} {s : σ} {b : UInt8} {bs ds : List UInt8}

@[simp] theorem read_nil : a.read s [] = (s, 0) := rfl

theorem read_cons_of_failed (h : a.failed (a.step s b) = true) :
    a.read s (b :: bs) = (a.step s b, 0) := by
  rw [read]
  simp [h]

theorem read_cons_of_done (hf : a.failed (a.step s b) = false) (h : a.done (a.step s b) = true) :
    a.read s (b :: bs) = (a.step s b, 1) := by
  rw [read]
  simp [hf, h]

theorem read_cons_of_running (h : ¬ a.Stopped (a.step s b)) :
    a.read s (b :: bs) = ((a.read (a.step s b) bs).1, (a.read (a.step s b) bs).2 + 1) := by
  unfold Stopped at h
  push Not at h
  rw [read]
  simp [h.1, h.2]

/-- The three ways in which a byte is read. -/
theorem step_cases (a : Automaton σ) (s : σ) (b : UInt8) :
    a.failed (a.step s b) = true ∨
      a.failed (a.step s b) = false ∧ a.done (a.step s b) = true ∨ ¬ a.Stopped (a.step s b) := by
  unfold Stopped
  cases a.failed (a.step s b) with
  | true => exact .inl rfl
  | false =>
    cases a.done (a.step s b) with
    | true => exact .inr (.inl ⟨rfl, rfl⟩)
    | false => simp

theorem read_le_length : (a.read s bs).2 ≤ bs.length := by
  induction bs generalizing s with
  | nil => simp
  | cons b bs ih =>
    rcases step_cases a s b with h | ⟨hf, h⟩ | h
    · rw [read_cons_of_failed h]
      exact Nat.zero_le _
    · rw [read_cons_of_done hf h, List.length_cons]
      omega
    · have := @ih (a.step s b)
      rw [read_cons_of_running h, List.length_cons]
      omega

/-- While it runs, it takes every byte. -/
theorem read_of_running (h : ¬ a.Stopped (a.read s bs).1) : (a.read s bs).2 = bs.length := by
  induction bs generalizing s with
  | nil => rfl
  | cons b bs ih =>
    rcases step_cases a s b with hs | ⟨hf, hs⟩ | hs
    · rw [read_cons_of_failed hs] at h
      exact absurd (Or.inl hs) h
    · rw [read_cons_of_done hf hs] at h
      exact absurd (Or.inr hs) h
    · rw [read_cons_of_running hs] at h ⊢
      rw [List.length_cons, ih h]

/-- Done after at least one byte. -/
theorem read_pos_of_done (hne : bs ≠ []) (hf : a.failed (a.read s bs).1 = false)
    (h : a.done (a.read s bs).1 = true) : 0 < (a.read s bs).2 := by
  cases bs with
  | nil => exact absurd rfl hne
  | cons b bs =>
    rcases step_cases a s b with hs | ⟨hf', hs⟩ | hs
    · rw [read_cons_of_failed hs, hs] at hf
      cases hf
    · rw [read_cons_of_done hf' hs]
      exact Nat.one_pos
    · rw [read_cons_of_running hs]
      exact Nat.succ_pos _

/-- Nothing behind the place where it stopped is read. -/
theorem read_append_of_stopped (hne : bs ≠ []) (h : a.Stopped (a.read s bs).1) :
    a.read s (bs ++ ds) = a.read s bs := by
  induction bs generalizing s with
  | nil => exact absurd rfl hne
  | cons b bs ih =>
    rw [List.cons_append]
    rcases step_cases a s b with hs | ⟨hf, hs⟩ | hs
    · rw [read_cons_of_failed hs, read_cons_of_failed hs]
    · rw [read_cons_of_done hf hs, read_cons_of_done hf hs]
    · rw [read_cons_of_running hs] at h
      have hbs : bs ≠ [] := by
        rintro rfl
        exact hs h
      rw [read_cons_of_running hs, read_cons_of_running hs, ih hbs h]

/-- Reading is resumed where it stopped for want of bytes. -/
theorem read_append_of_running (h : ¬ a.Stopped (a.read s bs).1) :
    a.read s (bs ++ ds) =
      ((a.read (a.read s bs).1 ds).1, bs.length + (a.read (a.read s bs).1 ds).2) := by
  induction bs generalizing s with
  | nil => simp
  | cons b bs ih =>
    rw [List.cons_append]
    rcases step_cases a s b with hs | ⟨hf, hs⟩ | hs
    · rw [read_cons_of_failed hs] at h
      exact absurd (Or.inl hs) h
    · rw [read_cons_of_done hf hs] at h
      exact absurd (Or.inr hs) h
    · rw [read_cons_of_running hs] at h
      rw [read_cons_of_running hs, read_cons_of_running hs, ih h, List.length_cons]
      dsimp only
      congr 1
      omega

end Automaton

end OverSip
