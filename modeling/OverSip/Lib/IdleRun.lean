import Mathlib
import OverSip.Lib.Machine
import OverSip.Lib.TimerQueue

/-!
# Runs in which only timers happen

A machine with a timer queue and a clock, left alone: nothing happens but the expiry of its timers,
each at the time it is due, or at once when that time has passed. Such a run is determined by the state
it starts in.

`exists_leadsTo` is the rule for "left alone, the machine comes to an end". Its premise is one lemma
about steps: a periodic timer is armed again for a later time and changes nothing else, any other timer
ends the machine or lowers a rank. The proof goes by the rank and, below it, by `lag T`, the time that
is left to the armed timers before `T`.
-/

namespace OverSip

namespace TimerQueue

variable {κ : Type} {q r : TimerQueue κ} {x : Armed κ}

/-- The time left before `T` to the timers due by `T`, summed up. -/
def lag (T : ℕ) (q : TimerQueue κ) : ℕ := (q.map fun x => T + 1 - x.due).sum

theorem lag_arm (T : ℕ) (k : κ) (due : ℕ) : lag T (q.arm k due) = lag T q + (T + 1 - due) := by
  simp [lag, arm]

theorem lag_pop (T : ℕ) (h : q.pop = some (x, r)) : lag T q = (T + 1 - x.due) + lag T r := by
  unfold lag
  rw [((pop_perm h).map _).sum_eq, List.map_cons, List.sum_cons]

/-- Arming a timer again for a later time uses up some of the time before `T`. -/
theorem lag_rearm_lt {T due : ℕ} (h : q.pop = some (x, r)) (hT : x.due ≤ T) (hlt : x.due < due) :
    lag T (r.arm x.key due) < lag T q := by
  rw [lag_arm, lag_pop T h]
  omega

end TimerQueue

open TimerQueue

/-- A machine with a clock, armed timers and an event for the expiry of the next of them. -/
structure TimedMachine (σ ε ω κ : Type) where
  step : σ → TimedEvent ε → Option (σ × List ω)
  timers : σ → TimerQueue κ
  now : σ → ℕ
  expire : ε

namespace TimedMachine

variable {σ ε ω κ : Type} (M : TimedMachine σ ε ω κ)

/-- The step `r` is the expiry of `x`, on time or, when it is overdue, at once. -/
def Fires (x : Armed κ) (r : StepRec σ (TimedEvent ε) ω) : Prop :=
  r.ev = ⟨max (M.now r.pre) x.due, M.expire⟩ ∧ ∃ rest, (M.timers r.pre).pop = some (x, rest)

/-- Nothing happens but expiries. -/
def Idle (tr : List (StepRec σ (TimedEvent ε) ω)) : Prop := ∀ r ∈ tr, ∃ x, M.Fires x r

/-- Left alone in `s`, the machine lets `x` expire and comes to a state that satisfies `done`. -/
def LeadsTo (s : σ) (x : Armed κ) (done : σ → Prop) : Prop :=
  ∃ tr s', Run M.step s tr s' ∧ M.Idle tr ∧ (∃ r ∈ tr, M.Fires x r) ∧ done s'

/-- What the expiry of `x` in `s` does, for the rule below. -/
structure ExpiryStep (periodic : κ → Prop) (good done : σ → Prop) (rank : σ → ℕ) (s : σ) (x : Armed κ)
    (rest : TimerQueue κ) (s' : σ) : Prop where
  again : periodic x.key → good s' ∧ ¬ done s' ∧ rank s' ≤ rank s ∧
    ∃ due, x.due < due ∧ M.timers s' = rest.arm x.key due
  once : ¬ periodic x.key → done s' ∨ good s' ∧ ¬ done s' ∧ rank s' < rank s

variable {M} {periodic : κ → Prop} {good done : σ → Prop} {rank : σ → ℕ}

theorem idle_append {tr₁ tr₂ : List (StepRec σ (TimedEvent ε) ω)} (h₁ : M.Idle tr₁)
    (h₂ : M.Idle tr₂) : M.Idle (tr₁ ++ tr₂) := by
  intro r hr
  rcases List.mem_append.mp hr with hr | hr
  · exact h₁ r hr
  · exact h₂ r hr

/-- The next timer that is not periodic expires, and with it the machine is done or loses rank. -/
theorem exists_once
    (hwait : ∀ s, good s → ¬ done s → ∃ y ∈ M.timers s, ¬ periodic y.key)
    (hstep : ∀ s x rest, good s → ¬ done s → (M.timers s).pop = some (x, rest) →
      ∃ s' o, M.step s ⟨max (M.now s) x.due, M.expire⟩ = some (s', o) ∧
        M.ExpiryStep periodic good done rank s x rest s')
    {s : σ} (hgood : good s) (hdone : ¬ done s) :
    ∃ x ∈ M.timers s, ¬ periodic x.key ∧ ∃ tr s', Run M.step s tr s' ∧ M.Idle tr ∧
      (∃ r ∈ tr, M.Fires x r) ∧ (done s' ∨ good s' ∧ ¬ done s' ∧ rank s' < rank s) := by
  obtain ⟨y, hy, hyp⟩ := hwait s hgood hdone
  -- every periodic expiry before `y` uses up time before `y`
  induction hlag : lag y.due (M.timers s) using Nat.strongRecOn generalizing s with
  | _ n ih =>
    have hne : M.timers s ≠ [] := List.ne_nil_of_mem hy
    obtain ⟨x, rest, hpop⟩ := exists_pop hne
    obtain ⟨s₁, o, hs, hx⟩ := hstep s x rest hgood hdone hpop
    have hfires : M.Fires x ⟨s, ⟨max (M.now s) x.due, M.expire⟩, o, s₁⟩ := ⟨rfl, rest, hpop⟩
    by_cases hp : periodic x.key
    · obtain ⟨hgood₁, hdone₁, hrank, due, hlt, htimers⟩ := hx.again hp
      have hxy : x.due ≤ y.due := pop_due_le hpop hy
      have hy₁ : y ∈ M.timers s₁ := by
        rw [htimers, mem_arm]
        rcases (mem_pop_iff hpop).mp hy with rfl | hy
        · exact absurd hp hyp
        · exact .inl hy
      have hless : lag y.due (M.timers s₁) < n := by
        rw [htimers, ← hlag]
        exact lag_rearm_lt hpop hxy hlt
      obtain ⟨z, hz, hzp, tr, s', hrun, hidle, ⟨r, hr, hrz⟩, hend⟩ :=
        ih _ hless hgood₁ hdone₁ hy₁ rfl
      refine ⟨z, ?_, hzp, ⟨s, _, o, s₁⟩ :: tr, s', (Run.of_singleton hs).append hrun, ?_,
        ⟨r, List.mem_cons_of_mem _ hr, hrz⟩, ?_⟩
      · rw [htimers, mem_arm] at hz
        rcases hz with hz | rfl
        · exact mem_of_mem_pop hpop hz
        · exact absurd hp hzp
      · have hfirst : M.Idle [⟨s, ⟨max (M.now s) x.due, M.expire⟩, o, s₁⟩] := by simpa [Idle] using ⟨x, hfires⟩
        exact idle_append hfirst hidle
      · exact hend.imp id fun ⟨hg, hd, hr⟩ => ⟨hg, hd, Nat.lt_of_lt_of_le hr hrank⟩
    · refine ⟨x, pop_mem hpop, hp, [⟨s, _, o, s₁⟩], s₁, Run.of_singleton hs, ?_,
        ⟨_, List.mem_singleton.mpr rfl, hfires⟩, hx.once hp⟩
      simpa [Idle] using ⟨x, hfires⟩

variable (M periodic good done rank) in
/-- **Left alone, the machine comes to an end**, by the expiry of a timer that is not periodic. -/
theorem exists_leadsTo
    (hwait : ∀ s, good s → ¬ done s → ∃ y ∈ M.timers s, ¬ periodic y.key)
    (hstep : ∀ s x rest, good s → ¬ done s → (M.timers s).pop = some (x, rest) →
      ∃ s' o, M.step s ⟨max (M.now s) x.due, M.expire⟩ = some (s', o) ∧
        M.ExpiryStep periodic good done rank s x rest s')
    {s : σ} (hgood : good s) (hdone : ¬ done s) :
    ∃ x ∈ M.timers s, ¬ periodic x.key ∧ M.LeadsTo s x done := by
  induction hrank : rank s using Nat.strongRecOn generalizing s with
  | _ n ih =>
    obtain ⟨x, hx, hxp, tr, s₁, hrun, hidle, hfires, hend⟩ := exists_once hwait hstep hgood hdone
    refine ⟨x, hx, hxp, ?_⟩
    rcases hend with hdone₁ | ⟨hgood₁, hdone₁, hless⟩
    · exact ⟨tr, s₁, hrun, hidle, hfires, hdone₁⟩
    · obtain ⟨_, _, _, tr₂, s₂, hrun₂, hidle₂, _, hdone₂⟩ :=
        ih (rank s₁) (hrank ▸ hless) hgood₁ hdone₁ rfl
      obtain ⟨r, hr, hrx⟩ := hfires
      exact ⟨tr ++ tr₂, s₂, hrun.append hrun₂, idle_append hidle hidle₂,
        ⟨r, List.mem_append_left _ hr, hrx⟩, hdone₂⟩

end TimedMachine

end OverSip
