import Mathlib.Data.List.Basic
import Mathlib.Tactic.Common

/-!
# Sequences of status codes

A transaction passes on provisional responses and then final ones. `Form P l` says so of a list of
statuses: provisional ones first, and then a tail of which `P` holds. The classes are those that the
code tells apart: below 200, from 200 to 299, and from 300 on.
-/

namespace OverSip

/-- Provisional statuses, and then a tail that satisfies `P`. -/
def Form (P : List Nat → Prop) (l : List Nat) : Prop :=
  ∃ ps fs, l = ps ++ fs ∧ (∀ c ∈ ps, c < 200) ∧ P fs

/-- Nothing but 2XX. -/
def Successes (fs : List Nat) : Prop := ∀ c ∈ fs, 200 ≤ c ∧ c < 300

/-- One [3456]XX. -/
def Failure (fs : List Nat) : Prop := ∃ c, fs = [c] ∧ 300 ≤ c

/-- The final statuses of an INVITE: none yet, some 2XX, or one [3456]XX. -/
def InviteTail (fs : List Nat) : Prop := Successes fs ∨ Failure fs

/-- One final status of any class. -/
def Final (fs : List Nat) : Prop := ∃ c, fs = [c] ∧ 200 ≤ c

variable {P Q : List Nat → Prop} {l : List Nat} {c : Nat}

theorem Form.imp (h : Form P l) (hPQ : ∀ fs, P fs → Q fs) : Form Q l := by
  obtain ⟨ps, fs, hl, hps, hfs⟩ := h
  exact ⟨ps, fs, hl, hps, hPQ fs hfs⟩

/-- Nothing but provisional statuses. -/
theorem Form.of_provisional (hl : ∀ c ∈ l, c < 200) (hP : P []) : Form P l :=
  ⟨l, [], by rw [List.append_nil], hl, hP⟩

/-- The first final status. -/
theorem Form.of_final (hl : ∀ c ∈ l, c < 200) (hP : P [c]) : Form P (l ++ [c]) :=
  ⟨l, [c], rfl, hl, hP⟩

/-- One more status, which the tail allows. -/
theorem Form.snoc (h : Form P l) (hP : ∀ fs, P fs → Q (fs ++ [c])) : Form Q (l ++ [c]) := by
  obtain ⟨ps, fs, rfl, hps, hfs⟩ := h
  exact ⟨ps, fs ++ [c], by rw [List.append_assoc], hps, hP fs hfs⟩

theorem Successes.snoc {fs : List Nat} (h : Successes fs) (hc : 200 ≤ c ∧ c < 300) :
    Successes (fs ++ [c]) := by
  intro d hd
  rcases List.mem_append.mp hd with hd | hd
  · exact h d hd
  · rw [List.mem_singleton.mp hd]
    exact hc

/-- A list that ends with a [3456]XX. -/
theorem Form.getLast?_of_failure (h : Form Failure l) : ∃ c, l.getLast? = some c ∧ 300 ≤ c := by
  obtain ⟨ps, fs, rfl, _, c, rfl, hc⟩ := h
  exact ⟨c, List.getLast?_concat .., hc⟩

/-- Nothing but provisional statuses of an INVITE so far. -/
theorem Form.inviteTail_of_provisional (hl : ∀ c ∈ l, c < 200) : Form InviteTail l :=
  .of_provisional hl (.inl fun _ hc => absurd hc List.not_mem_nil)

theorem provisional_snoc (hl : ∀ c ∈ l, c < 200) (hc : c < 200) : ∀ d ∈ l ++ [c], d < 200 := by
  intro d hd
  rcases List.mem_append.mp hd with hd | hd
  · exact hl d hd
  · rw [List.mem_singleton.mp hd]
    exact hc

end OverSip
