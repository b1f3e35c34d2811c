import Mathlib.Data.List.Induction
import Mathlib.Tactic.Common

/-!
# Runs of a partial step machine

A machine is a function `step : σ → ε → Option (σ × List ω)`: in a state `s` the event `e` either
cannot happen (`none`) or takes the machine to a next state and puts out a list of outputs. A run
is kept as the list of its steps, each with the state before it, its event, its outputs and the
state after it, so that a law about a whole history is a statement about one list.

The rules below are the ones a proof about every run needs: induction over the last step, the cut
of a run at one of its steps, and the run of an explicit list of events.
-/

namespace OverSip

/-- One step of a run. -/
structure StepRec (σ ε ω : Type) where
  pre : σ
  ev : ε
  out : List ω
  post : σ
deriving DecidableEq, Repr

/-- An event and the clock that is read while it is handled. -/
structure TimedEvent (ε : Type) where
  time : ℕ
  ev : ε
deriving DecidableEq, Repr

/-- `Run step s₀ tr s`: the machine goes from `s₀` to `s` by the steps `tr`, the oldest first. -/
inductive Run {σ ε ω : Type} (step : σ → ε → Option (σ × List ω)) (s₀ : σ) :
    List (StepRec σ ε ω) → σ → Prop
  | nil : Run step s₀ [] s₀
  | snoc {tr : List (StepRec σ ε ω)} {s s' : σ} {e : ε} {o : List ω} :
      Run step s₀ tr s → step s e = some (s', o) → Run step s₀ (tr ++ [⟨s, e, o, s'⟩]) s'

namespace Run

variable {σ ε ω : Type} {step : σ → ε → Option (σ × List ω)} {s₀ s : σ}
  {tr tr₁ tr₂ : List (StepRec σ ε ω)}

/-- **Invariant rule.** What holds of the empty history and survives every step that meets `G`
holds after every run whose steps all meet `G`. -/
theorem invariant {G : σ → ε → Prop} {I : List (StepRec σ ε ω) → σ → Prop}
    (hinit : I [] s₀)
    (hstep : ∀ tr s e s' o, I tr s → G s e → step s e = some (s', o) →
      I (tr ++ [⟨s, e, o, s'⟩]) s')
    (h : Run step s₀ tr s) (hG : ∀ r ∈ tr, G r.pre r.ev) : I tr s := by
  induction h with
  | nil => exact hinit
  | @snoc tr s s' e o _ hs ih =>
    have hlast : G s e := hG ⟨s, e, o, s'⟩ (List.mem_append_right _ (List.mem_singleton.mpr rfl))
    exact hstep _ _ _ _ _ (ih fun r hr => hG r (List.mem_append_left _ hr)) hlast hs

/-- The invariant rule for a property of the state alone, over all runs. -/
theorem stateInvariant {I : σ → Prop} (hinit : I s₀)
    (hstep : ∀ s e s' o, I s → step s e = some (s', o) → I s')
    (h : Run step s₀ tr s) : I s :=
  invariant (G := fun _ _ => True) (I := fun _ s => I s) hinit
    (fun _ s e s' o hI _ hs => hstep s e s' o hI hs) h fun _ _ => trivial

theorem append {s₁ : σ} (h₁ : Run step s₀ tr₁ s₁) (h₂ : Run step s₁ tr₂ s) :
    Run step s₀ (tr₁ ++ tr₂) s := by
  induction h₂ with
  | nil => simpa using h₁
  | snoc _ hs ih =>
    rw [← List.append_assoc]
    exact ih.snoc hs

/-- Every prefix of a run is a run. -/
theorem of_append (h : Run step s₀ (tr₁ ++ tr₂) s) :
    ∃ s₁, Run step s₀ tr₁ s₁ ∧ Run step s₁ tr₂ s := by
  induction tr₂ using List.reverseRecOn generalizing s with
  | nil => exact ⟨s, by simpa using h, .nil⟩
  | append_singleton tr₂ r ih =>
    rw [← List.append_assoc] at h
    generalize htr : tr₁ ++ tr₂ ++ [r] = tr at h
    cases h with
    | nil => simp at htr
    | snoc hrun hs =>
      obtain ⟨rfl, hr⟩ := List.append_inj' htr rfl
      obtain ⟨s₁, h₁, h₂⟩ := ih hrun
      rw [List.singleton_inj.mp hr]
      exact ⟨s₁, h₁, h₂.snoc hs⟩

/-- The step recorded at any place of a run was taken by `step`, from the state that the steps
before it lead to. -/
theorem of_middle {r : StepRec σ ε ω} (h : Run step s₀ (tr₁ ++ r :: tr₂) s) :
    Run step s₀ tr₁ r.pre ∧ step r.pre r.ev = some (r.post, r.out) ∧
      Run step r.post tr₂ s := by
  rw [List.append_cons] at h
  obtain ⟨s₁, h₁, h₂⟩ := of_append h
  generalize htr : tr₁ ++ [r] = tr at h₁
  cases h₁ with
  | nil => simp at htr
  | snoc hrun hs =>
    obtain ⟨rfl, hr⟩ := List.append_inj' htr rfl
    rw [List.singleton_inj.mp hr]
    exact ⟨hrun, hs, h₂⟩

theorem eq_of_nil (h : Run step s₀ [] s) : s = s₀ := by
  generalize htr : ([] : List (StepRec σ ε ω)) = tr at h
  cases h with
  | nil => rfl
  | snoc _ _ => simp at htr

/-- The first step of a run. -/
theorem of_cons {r : StepRec σ ε ω} (h : Run step s₀ (r :: tr) s) :
    r.pre = s₀ ∧ step r.pre r.ev = some (r.post, r.out) ∧ Run step r.post tr s := by
  rw [← List.nil_append (r :: tr)] at h
  obtain ⟨hnil, hs, hrest⟩ := of_middle h
  exact ⟨eq_of_nil hnil, hs, hrest⟩

theorem of_singleton {s' : σ} {e : ε} {o : List ω} (h : step s e = some (s', o)) :
    Run step s [⟨s, e, o, s'⟩] s' :=
  Run.nil.snoc h

end Run

/-- The run of an explicit list of events, when all of them can happen. -/
def exec {σ ε ω : Type} (step : σ → ε → Option (σ × List ω)) (s : σ) :
    List ε → Option (List (StepRec σ ε ω) × σ)
  | [] => some ([], s)
  | e :: es =>
    match step s e with
    | none => none
    | some (s', o) => (exec step s' es).map fun p => (⟨s, e, o, s'⟩ :: p.1, p.2)

theorem run_of_exec {σ ε ω : Type} {step : σ → ε → Option (σ × List ω)} {s s' : σ} {es : List ε}
    {tr : List (StepRec σ ε ω)} (h : exec step s es = some (tr, s')) : Run step s tr s' := by
  induction es generalizing s tr with
  | nil =>
    simp only [exec, Option.some.injEq, Prod.mk.injEq] at h
    obtain ⟨rfl, rfl⟩ := h
    exact .nil
  | cons e es ih =>
    rw [exec] at h
    split at h
    · cases h
    · rename_i s₁ o hs
      obtain ⟨p, hp, hpe⟩ := Option.map_eq_some_iff.mp h
      obtain ⟨rfl, rfl⟩ := Prod.mk.inj hpe
      exact (Run.of_singleton hs).append (ih hp)

end OverSip
