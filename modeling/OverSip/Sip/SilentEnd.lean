import OverSip.Sip.FailureCalls

/-!
# The end of an INVITE client transaction and what its core is told

`terminate_transaction` takes the transaction out of its table. In all but two places the core has been
given a final response or one of `client_timeout`, `connection_failed`, `tls_validation_failed` and
`invite_timeout` by then. The two are timer F of the CANCEL and the 4 s timer that a response to the
CANCEL starts: they end a canceled transaction that never got its 487, and tell nobody.
-/

namespace OverSip

namespace InviteClientTransaction

/-- The CANCEL is sent by the step that sets `@timer_F_cancel`. -/
theorem Trans.cancelSent_of {t t' : InviteClientTransaction} {ev : Event} {o : List Out}
    (h : Trans t ev o t') (hc : t'.cancelSent = true) :
    t.cancelSent = true ∨ o.any Out.isCancel = true := by
  cases h with
  | @expire x _ _ _ _ _ hr =>
    generalize x.key = k at hr
    cases hr with
    | timerC hr => cases hr <;> simp_all [Out.isCancel]
    | _ => simp_all
  | response _ _ hr => cases hr <;> simp_all [Out.isCancel]
  | doCancel _ hr => cases hr <;> simp_all [Out.isCancel]
  | _ => simp_all

/-- A transaction is canceled by its core or by timer C, which tells the core. -/
theorem Trans.cancel_of {t t' : InviteClientTransaction} {ev : Event} {o : List Out}
    (h : Trans t ev o t') (hc : t'.cancel ≠ none) :
    t.cancel ≠ none ∨ (∃ reasons, ev = .doCancel reasons) ∨ o.any Out.isNotification = true := by
  cases h with
  | @expire x _ _ _ _ _ hr =>
    generalize x.key = k at hr
    cases hr with
    | timerC hr => simp [Out.isNotification]
    | _ => exact .inl hc
  | response _ _ hr =>
    left
    cases hr with
    | firstProvisionalCanceled _ _ hcancel => simp [hcancel]
    | _ => exact hc
  | @doCancel reasons _ _ _ _ => exact .inr (.inl ⟨reasons, rfl⟩)
  | _ => exact .inl hc

/-- How a transaction leaves its table. -/
theorem Trans.removed {t t' : InviteClientTransaction} {ev : Event} {o : List Out} (hw : t.Wf)
    (h : Trans t ev o t') (hst : t.stored = true) (hst' : t'.stored = false) :
    o.any Out.isNotification = true ∨ t.Answered ∨
      ev = .expire ∧ t.state = .proceeding ∧ t.cancelSent = true ∧
        ∃ x rest, t.timers.pop = some (x, rest) ∧ (x.key = .fCancel ∨ x.key = .afterCancel) := by
  have hlive : t.state ≠ .terminated := hw.stored_iff.mp hst
  -- the timers of the CANCEL are armed after the first response only
  have hcanceling : t.timers.Has .fCancel ∨ t.timers.Has .afterCancel →
      t.cancelSent = true ∧ (t.Answered ∨ t.state = .proceeding) := by
    intro hk
    have hcs : t.cancelSent = true := by
      by_contra hcs
      have hno := hw.cancelTimers (by simpa using hcs)
      exact hk.elim hno.2.1 hno.2.2
    refine ⟨hcs, ?_⟩
    unfold Answered
    cases hs : t.state with
    | calling => rw [hw.calling hs] at hcs; cases hcs
    | terminated => exact absurd hs hlive
    | _ => simp
  cases h with
  | @expire x rest _ _ hpop _ hr =>
    have hx : t.timers.Has x.key := .of_mem (TimerQueue.pop_mem hpop)
    generalize hk : x.key = k at hr hx
    have hend : k = .fCancel ∨ k = .afterCancel →
        t.cancelSent = true ∧ (t.Answered ∨ t.state = .proceeding) := by
      intro hkey
      apply hcanceling
      rcases hkey with rfl | rfl
      · exact .inl hx
      · exact .inr hx
    cases hr with
    | timeout => exact .inl rfl
    | timerC hr => simp [Out.isNotification]
    | finish hkey =>
      rcases hkey with rfl | rfl | rfl
      · exact .inr (.inl (.inl ((hw.hasD hx).resolve_right hlive)))
      · exact .inr (.inl (.inr ((hw.hasM hx).resolve_right hlive)))
      · obtain ⟨hcs, hans | hs⟩ := hend (.inr rfl)
        · exact .inr (.inl hans)
        · exact .inr (.inr ⟨rfl, hs, hcs, x, rest, hpop, .inr hk⟩)
    | giveUpCancel _ =>
      obtain ⟨hcs, hans | hs⟩ := hend (.inl rfl)
      · exact .inr (.inl hans)
      · exact .inr (.inr ⟨rfl, hs, hcs, x, rest, hpop, .inl hk⟩)
    | _ => simp [hst] at hst'
  | response _ _ hr =>
    cases hr with
    | failureReliable h3 _ _ =>
      have h2 : 200 ≤ _ := Nat.le_trans (by decide) h3
      simp [Out.isNotification, Out.isFinal, h2]
    | _ => simp [hst] at hst'
  | doCancel _ hr => simp [hr.stored_eq, hst] at hst'
  | fail hev _ _ => rcases hev with ⟨_, rfl⟩ | ⟨_, rfl⟩ <;> exact .inl rfl
  | _ => simp [hst] at hst'

end InviteClientTransaction

namespace IctSystem

open InviteClientTransaction

variable {request : Request} {conf : TransactionConf} {transport : Transport} {topVia : String}
  {newConnection : Bool} {now : Nat} {tr : List (StepRec IctSystem (TimedEvent Event) Out)}
  {s : IctSystem}

/-- The core has called `do_cancel`. -/
def DidCancel (tr : List (StepRec IctSystem (TimedEvent Event) Out)) : Prop :=
  ∃ r ∈ tr, ∃ reasons, r.ev.ev = .doCancel reasons

/-- The step `r` ends, by timer F of the CANCEL or by the timer that a response to the CANCEL started,
a transaction that its core has canceled, whose CANCEL is sent and that waits for its final response. -/
structure CanceledEnd (tr : List (StepRec IctSystem (TimedEvent Event) Out))
    (r : StepRec IctSystem (TimedEvent Event) Out) : Prop where
  canceled : DidCancel tr
  sent : Emitted Out.isCancel tr
  waiting : r.pre.ict.state = .proceeding
  expired : r.ev.ev = .expire ∧ ∃ x rest, r.pre.ict.timers.pop = some (x, rest) ∧
    (x.key = .fCancel ∨ x.key = .afterCancel)

theorem emitted_cancel_of_run
    (h : Run step (start request conf transport topVia newConnection now) tr s)
    (hs : s.ict.cancelSent = true) : Emitted Out.isCancel tr := by
  refine Run.invariant (G := fun _ _ => True)
    (I := fun tr s => s.ict.cancelSent = true → Emitted Out.isCancel tr) ?_ ?_ h
    (fun _ _ => trivial) hs
  · intro hs
    simp at hs
  · intro tr s e s' o ih _ hstep hs'
    rw [emitted_snoc]
    exact ((step_trans hstep).2.cancelSent_of hs').imp ih id

theorem didCancel_of_run
    (h : Run step (start request conf transport topVia newConnection now) tr s)
    (hs : s.ict.cancel ≠ none) : DidCancel tr ∨ Emitted Out.isNotification tr := by
  refine Run.invariant (G := fun _ _ => True)
    (I := fun tr s => s.ict.cancel ≠ none → DidCancel tr ∨ Emitted Out.isNotification tr) ?_ ?_ h
    (fun _ _ => trivial) hs
  · intro hs
    simp at hs
  · intro tr s e s' o ih _ hstep hs'
    rw [emitted_snoc]
    rcases (step_trans hstep).2.cancel_of hs' with hc | hev | hout
    · rcases ih hc with ⟨r, hr, hd⟩ | hn
      · exact .inl ⟨r, List.mem_append_left _ hr, hd⟩
      · exact .inr (.inl hn)
    · exact .inl ⟨_, List.mem_append_right _ (List.mem_singleton.mpr rfl), hev⟩
    · exact .inr (.inr hout)

/-- A final response is a notification. -/
theorem emitted_notification_of_final (h : Emitted Out.isFinal tr) :
    Emitted Out.isNotification tr := by
  unfold Emitted at *
  rw [List.any_eq_true] at *
  obtain ⟨o, ho, hf⟩ := h
  refine ⟨o, ho, ?_⟩
  unfold Out.isNotification
  split
  · rfl
  · rw [hf, Bool.or_true]

/-- **No silent end**, canceled transactions aside: when the transaction leaves its table, its core has
been told. -/
theorem notified_of_removed {tr₁ tr₂ : List (StepRec IctSystem (TimedEvent Event) Out)}
    {r : StepRec IctSystem (TimedEvent Event) Out}
    (h : Run step (start request conf transport topVia newConnection now) (tr₁ ++ r :: tr₂) s)
    (hst : r.pre.ict.stored = true) (hst' : r.post.ict.stored = false) :
    Emitted Out.isNotification (tr₁ ++ [r]) ∨ CanceledEnd tr₁ r := by
  obtain ⟨hpre, hstep, _⟩ := Run.of_middle h
  have hw := (wf_of_run hpre).withNow r.ev.time
  rw [emitted_snoc]
  rcases (step_trans hstep).2.removed hw hst hst' with hout | hans | ⟨hev, hs, hcs, hpop⟩
  · exact .inl (.inr hout)
  · exact .inl (.inl (emitted_notification_of_final (emitted_final_of_run hpre hans)))
  · have hc : r.pre.ict.cancel ≠ none := by
      intro hnone
      have hnot := (wf_of_run hpre).notCanceled hnone
      rw [show r.pre.ict.cancelSent = true from hcs] at hnot
      cases hnot
    rcases didCancel_of_run hpre hc with hd | hn
    · exact .inr ⟨hd, emitted_cancel_of_run hpre hcs, hs, hev, hpop⟩
    · exact .inl (.inl hn)

/-- Ringing, canceled, and no answer to the CANCEL. -/
def canceledUnanswered : List (TimedEvent Event) :=
  [⟨0, .response ⟨180, none⟩⟩, ⟨0, .doCancel []⟩, ⟨32000, .expire⟩]

/-- Timer F of the CANCEL ends a transaction whose core has been given nothing but the 180. -/
theorem silent_end_of_canceled :
    ∃ tr r s, Run step (start sampleRequest TransactionConf.default .tcp "v" false 0) (tr ++ [r]) s ∧
      (tr ++ [r]).map (·.ev) = canceledUnanswered ∧ r.pre.ict.stored = true ∧
      r.post.ict.stored = false ∧ ¬ Emitted Out.isNotification (tr ++ [r]) := by
  have hrun := run_of_exec
    (show exec step (start sampleRequest TransactionConf.default .tcp "v" false 0) canceledUnanswered = some (_, _) from rfl)
  exact ⟨[_, _], _, _, hrun, rfl, rfl, rfl, by decide⟩

/-- The same end is one of the two that the theorem lets pass. -/
theorem notified_of_removed_canceled :
    ∃ tr r s, Run step (start sampleRequest TransactionConf.default .tcp "v" false 0)
        (tr ++ r :: []) s ∧
      (Emitted Out.isNotification (tr ++ [r]) ∨ CanceledEnd tr r) := by
  have hrun := run_of_exec
    (show exec step (start sampleRequest TransactionConf.default .tcp "v" false 0) canceledUnanswered = some (_, _) from rfl)
  exact ⟨[_, _], _, _, hrun, notified_of_removed hrun rfl rfl⟩

end IctSystem

end OverSip
