import OverSip.Lib.Machine

/-!
# What a run has put out

A history is the list of steps of a run. `outputs` is everything it has put out, in order, and
`Emitted P` says that something of the kind `P` is among it.

`OneShot P Q closed` is the law of an output of kind `P` that may come at most once, never after an
output of kind `Q` and never in a closed state. `oneShot_of_run` derives it from facts about single
steps: outputs of kind `P` come from live states only and end them, outputs of kind `Q` end live
states too, and no step leads back to a live state.
-/

namespace OverSip

variable {σ ε ω : Type} {step : σ → ε → Option (σ × List ω)} {s₀ s : σ}
  {tr : List (StepRec σ ε ω)} {r : StepRec σ ε ω} {P Q : ω → Bool}

/-- Everything a history has put out. -/
def outputs (tr : List (StepRec σ ε ω)) : List ω := tr.flatMap (·.out)

@[simp] theorem outputs_nil : outputs ([] : List (StepRec σ ε ω)) = [] := rfl

@[simp] theorem outputs_snoc : outputs (tr ++ [r]) = outputs tr ++ r.out := by
  simp [outputs]

/-- Some output of the history is of the kind `P`. -/
def Emitted (P : ω → Bool) (tr : List (StepRec σ ε ω)) : Prop := (outputs tr).any P = true

instance (P : ω → Bool) (tr : List (StepRec σ ε ω)) : Decidable (Emitted P tr) :=
  inferInstanceAs (Decidable ((outputs tr).any P = true))

@[simp] theorem not_emitted_nil : ¬ Emitted P ([] : List (StepRec σ ε ω)) := by
  simp [Emitted]

@[simp] theorem emitted_snoc : Emitted P (tr ++ [r]) ↔ Emitted P tr ∨ r.out.any P = true := by
  unfold Emitted
  rw [outputs_snoc, List.any_append, Bool.or_eq_true]

/-- At most one output of the kind `P`, none in a closed state and none after one of the kind `Q`. -/
structure OneShot (P Q : ω → Bool) (closed : σ → Prop) (tr : List (StepRec σ ε ω)) : Prop where
  once : (outputs tr).countP P ≤ 1
  timely : ∀ tr₁ r tr₂, tr = tr₁ ++ r :: tr₂ → r.out.any P = true →
    ¬ closed r.pre ∧ ¬ Emitted Q tr₁

/-- The last step of a history, or one before it. -/
theorem snoc_eq_append_cons {r' : StepRec σ ε ω} {tr₁ tr₂ : List (StepRec σ ε ω)}
    (h : tr ++ [r] = tr₁ ++ r' :: tr₂) :
    (tr₁ = tr ∧ r' = r) ∨ ∃ tr₃, tr = tr₁ ++ r' :: tr₃ := by
  by_cases hnil : tr₂ = []
  · left
    rw [hnil] at h
    have hinj := List.append_inj' h rfl
    exact ⟨hinj.1.symm, (List.singleton_inj.mp hinj.2).symm⟩
  · right
    have hlast := List.dropLast_concat_getLast hnil
    refine ⟨tr₂.dropLast, ?_⟩
    rw [← hlast, ← List.cons_append, ← List.append_assoc] at h
    exact (List.append_inj' h rfl).1

theorem OneShot.snoc {closed : σ → Prop} (h : OneShot P Q closed tr)
    (hone : r.out.any P = true →
      (outputs tr).countP P = 0 ∧ r.out.countP P ≤ 1 ∧ ¬ closed r.pre ∧ ¬ Emitted Q tr) :
    OneShot P Q closed (tr ++ [r]) := by
  by_cases hr : r.out.any P = true
  · obtain ⟨hzero, hone, hclosed, hQ⟩ := hone hr
    constructor
    · rw [outputs_snoc, List.countP_append]
      omega
    · intro tr₁ r' tr₂ htr hP
      rcases snoc_eq_append_cons htr with ⟨rfl, rfl⟩ | ⟨tr₃, htr₃⟩
      · exact ⟨hclosed, hQ⟩
      · exact h.timely tr₁ r' tr₃ htr₃ hP
  · have hzero : r.out.countP P = 0 := by
      rw [List.countP_eq_zero]
      intro o ho hP
      exact hr (List.any_eq_true.mpr ⟨o, ho, hP⟩)
    constructor
    · rw [outputs_snoc, List.countP_append, hzero]
      exact h.once
    · intro tr₁ r' tr₂ htr hP
      rcases snoc_eq_append_cons htr with ⟨rfl, rfl⟩ | ⟨tr₃, htr₃⟩
      · exact absurd hP hr
      · exact h.timely tr₁ r' tr₃ htr₃ hP

/-- **One-shot rule**, for runs whose steps all meet `G`. The facts about steps are needed in states
that a run reaches. -/
theorem oneShot_of_run {G : σ → ε → Prop} {closed live : σ → Prop}
    (hclosed : ∀ s, closed s → ¬ live s)
    (hback : ∀ tr s e s' o, Run step s₀ tr s → step s e = some (s', o) → ¬ live s → ¬ live s')
    (hQ : ∀ tr s e s' o, Run step s₀ tr s → step s e = some (s', o) → o.any Q = true → ¬ live s')
    (hP : ∀ tr s e s' o, Run step s₀ tr s → step s e = some (s', o) → G s e → o.any P = true →
      live s ∧ ¬ live s' ∧ o.countP P ≤ 1)
    (h : Run step s₀ tr s) (hG : ∀ r ∈ tr, G r.pre r.ev) : OneShot P Q closed tr := by
  -- once something of the kind `P` or `Q` is out, the state is live no more
  suffices hI : Run step s₀ tr s ∧ OneShot P Q closed tr ∧
      ((outputs tr).countP P ≠ 0 ∨ Emitted Q tr → ¬ live s) from hI.2.1
  refine Run.invariant (G := G) (I := fun tr s => Run step s₀ tr s ∧ OneShot P Q closed tr ∧
    ((outputs tr).countP P ≠ 0 ∨ Emitted Q tr → ¬ live s)) ?_ ?_ h hG
  · refine ⟨.nil, ⟨by simp, fun tr₁ r tr₂ htr => ?_⟩, by simp⟩
    simp at htr
  · intro tr s e s' o ⟨hrun, hshot, hlive⟩ hGe hs
    refine ⟨hrun.snoc hs, ?_, ?_⟩
    · refine hshot.snoc fun ho => ?_
      obtain ⟨hls, _, hone⟩ := hP tr s e s' o hrun hs hGe ho
      refine ⟨?_, hone, fun hc => hclosed s hc hls, fun hq => hlive (.inr hq) hls⟩
      by_contra hne
      exact hlive (.inl hne) hls
    · intro hor
      by_cases ho : o.any P = true
      · exact (hP tr s e s' o hrun hs hGe ho).2.1
      · rw [outputs_snoc, List.countP_append, emitted_snoc] at hor
        have hzero : o.countP P = 0 := by
          rw [List.countP_eq_zero]
          intro x hx hPx
          exact ho (List.any_eq_true.mpr ⟨x, hx, hPx⟩)
        rcases hor with hp | hq | hq
        · exact hback tr s e s' o hrun hs (hlive (.inl (by simpa [hzero] using hp)))
        · exact hback tr s e s' o hrun hs (hlive (.inr hq))
        · exact hQ tr s e s' o hrun hs hq

end OverSip
