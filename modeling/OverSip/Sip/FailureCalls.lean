import OverSip.Lib.History
import OverSip.Sip.InviteClientTransactionTheorems
import OverSip.Sip.NonInviteClientTransactionTheorems

/-!
# Calls that make the Client try its next target

`client_timeout`, `connection_failed` and `tls_validation_failed` each make the Client try its next
target. `FailureLaw` is what the comment in `connection_failed` is after: one such call at most, none
once the transaction has terminated or has delivered a final response.

The guard of `connection_failed` looks at `@cancel` where it should look at `@state`: a failure that
comes after the end of a transaction that was not canceled passes it, and the non-INVITE class has no
guard. `failureLaw_iff` says that the late failures are the only histories that break the law.
-/

namespace OverSip

/-- At most one failure call, none by a terminated transaction, none after a final response. -/
def FailureLaw {σ ε : Type} (terminated : σ → Prop) (tr : List (StepRec σ ε Out)) : Prop :=
  OneShot Out.isFailure Out.isFinal terminated tr

/-! ## INVITE -/

namespace InviteClientTransaction

/-- The transaction can still be answered. -/
def Open (t : InviteClientTransaction) : Prop := t.state = .calling ∨ t.state = .proceeding

theorem not_isFailure_deliverProvisional (r : Response) :
    (deliverProvisional r).any Out.isFailure = false := by
  unfold deliverProvisional
  by_cases h : r.statusCode = 100
  · rw [if_pos h]
    rfl
  · rw [if_neg h]
    rfl

theorem not_isFinal_deliverProvisional {r : Response} (h : r.statusCode < 200) :
    (deliverProvisional r).any Out.isFinal = false := by
  unfold deliverProvisional
  by_cases h100 : r.statusCode = 100
  · rw [if_pos h100]
    rfl
  · rw [if_neg h100]
    have hlt : ¬ 200 ≤ r.statusCode := by omega
    simp [Out.isFinal, hlt]

/-- `do_cancel` only ever sends. -/
theorem CancelTrans.out_send {t t' : InviteClientTransaction} {reasons : List String}
    {o : List Out} (h : CancelTrans t reasons o t') : ∀ x ∈ o, ∃ m, x = .send m := by
  cases h <;> simp

theorem any_eq_false_of_send {P : Out → Bool} {o : List Out} (hP : ∀ m, P (.send m) = false)
    (ho : ∀ x ∈ o, ∃ m, x = .send m) : o.any P = false := by
  rw [List.any_eq_false]
  intro x hx
  obtain ⟨m, rfl⟩ := ho x hx
  simp [hP]

/-- No event opens a transaction again. -/
theorem Trans.open_of {t t' : InviteClientTransaction} {ev : Event} {o : List Out}
    (h : Trans t ev o t') (ho : t'.Open) : t.Open := by
  unfold Open at *
  cases h with
  | @expire x _ _ _ _ _ hr =>
    generalize x.key = k at hr
    cases hr with
    | timerC hr => simpa [hr.state_eq] using ho
    | _ => simp_all
  | response _ _ hr =>
    cases hr with
    | firstProvisional _ hs _ => exact .inl hs
    | firstProvisionalCanceled _ hs _ => exact .inl hs
    | failureUdp _ hs _ => exact hs
    | failureReliable _ hs _ => exact hs
    | success _ _ hs => exact hs
    | _ => simpa using ho
  | doCancel _ hr => rwa [hr.state_eq] at ho
  | _ => simp_all

/-- A final response closes the transaction. -/
theorem Trans.not_open_of_final {t t' : InviteClientTransaction} {ev : Event} {o : List Out}
    (h : Trans t ev o t') (ho : o.any Out.isFinal = true) : ¬ t'.Open := by
  unfold Open
  cases h with
  | @expire x _ _ _ _ _ hr =>
    generalize x.key = k at hr
    cases hr with
    | timerC hr =>
      have := any_eq_false_of_send (P := Out.isFinal) (fun _ => rfl) hr.out_send
      simp [this, Out.isFinal] at ho
    | retransmitCancel => simp [Out.isFinal] at ho
    | _ => simp [Out.isFinal] at ho
  | response _ _ hr =>
    cases hr with
    | firstProvisional h2 _ _ => simp [not_isFinal_deliverProvisional h2] at ho
    | firstProvisionalCanceled h2 _ _ => simp [not_isFinal_deliverProvisional h2, Out.isFinal] at ho
    | provisional h2 _ => simp [not_isFinal_deliverProvisional h2] at ho
    | failureAgain _ hs => simp [hs]
    | successAgain _ _ hs => simp [hs]
    | ignored _ => simp at ho
    | _ => simp
  | doCancel _ hr =>
    have := any_eq_false_of_send (P := Out.isFinal) (fun _ => rfl) hr.out_send
    simp [this] at ho
  | fail hev _ _ => rcases hev with ⟨_, rfl⟩ | ⟨_, rfl⟩ <;> simp [Out.isFinal] at ho
  | _ => simp [Out.isFinal] at ho

/-- Where a failure call comes from: timer B of a calling transaction, or a connection failure that
the guard lets through. -/
theorem Trans.of_failure {t t' : InviteClientTransaction} {ev : Event} {o : List Out} (hw : t.Wf)
    (h : Trans t ev o t') (ho : o.any Out.isFailure = true) :
    (ev = .expire ∧ t.state = .calling ∨
      (ev = .connectionFailed ∨ ev = .tlsValidationFailed) ∧
        (t.state = .calling ∨ t.cancel = none)) ∧
    t'.state = .terminated ∧ o.countP Out.isFailure ≤ 1 := by
  cases h with
  | @expire x rest _ _ hpop _ hr =>
    have hx : t.timers.Has x.key := .of_mem (TimerQueue.pop_mem hpop)
    generalize x.key = k at hr hx
    cases hr with
    | timeout => exact ⟨.inl ⟨rfl, hw.hasB hx⟩, rfl, List.countP_le_length⟩
    | timerC hr =>
      have := any_eq_false_of_send (P := Out.isFailure) (fun _ => rfl) hr.out_send
      simp [this, Out.isFailure] at ho
    | _ => simp [Out.isFailure] at ho
  | response _ _ hr =>
    cases hr <;> simp [not_isFailure_deliverProvisional, Out.isFailure, sendAck] at ho
  | doCancel _ hr =>
    have := any_eq_false_of_send (P := Out.isFailure) (fun _ => rfl) hr.out_send
    simp [this] at ho
  | fail hev hs _ => exact ⟨.inr ⟨hev.imp And.left And.left, hs⟩, rfl, List.countP_le_length⟩
  | _ => simp [Out.isFailure] at ho

/-- A connection failure that finds a transaction neither open nor canceled is passed on. -/
theorem Trans.failure_of_late {t t' : InviteClientTransaction} {ev : Event} {o : List Out}
    (hw : t.Wf) (h : Trans t ev o t') (hev : ev = .connectionFailed ∨ ev = .tlsValidationFailed)
    (ho : ¬ t.Open) (hc : t.cancel = none) : o.any Out.isFailure = true := by
  cases h with
  | fail hcall _ _ => rcases hcall with ⟨_, rfl⟩ | ⟨_, rfl⟩ <;> rfl
  | failUnsent _ hsent => exact absurd (.inl (hw.unsent hsent).2) ho
  | failIgnored _ _ hcancel => exact absurd hc hcancel
  | _ => simp at hev

/-- A final response has been received, and the transaction waits for retransmissions of it. -/
def Answered (t : InviteClientTransaction) : Prop := t.state = .completed ∨ t.state = .accepted

theorem Trans.final_of_answered {t t' : InviteClientTransaction} {ev : Event} {o : List Out}
    (h : Trans t ev o t') (ha : t'.Answered) : t.Answered ∨ o.any Out.isFinal = true := by
  unfold Answered at *
  cases h with
  | @expire x _ _ _ _ _ hr =>
    generalize x.key = k at hr
    cases hr with
    | timerC hr => exact .inl (by simpa [hr.state_eq] using ha)
    | _ => simp_all
  | response _ _ hr =>
    cases hr with
    | failureUdp h3 _ _ =>
      have h2 : 200 ≤ _ := Nat.le_trans (by decide) h3
      simp [Out.isFinal, h2]
    | failureReliable h3 _ _ => simp at ha
    | success h2 _ _ => simp [Out.isFinal, h2]
    | _ => simp_all
  | doCancel _ hr => exact .inl (by simpa [hr.state_eq] using ha)
  | _ => simp_all

end InviteClientTransaction

namespace IctSystem

open InviteClientTransaction

/-- `@state` is `:terminated`. -/
def Terminated (s : IctSystem) : Prop := s.ict.state = .terminated

/-- A connection failure finds the transaction open, or canceled after its first response, which is
the case that the guard of `connection_failed` keeps out. -/
def FailureTimely (s : IctSystem) (e : TimedEvent Event) : Prop :=
  e.ev = .connectionFailed ∨ e.ev = .tlsValidationFailed → s.ict.Open ∨ s.ict.cancel ≠ none

variable {request : Request} {conf : TransactionConf} {transport : Transport} {topVia : String}
  {newConnection : Bool} {now : Nat} {tr : List (StepRec IctSystem (TimedEvent Event) Out)}
  {s : IctSystem}

/-- A completed or accepted transaction has delivered a final response. -/
theorem emitted_final_of_run
    (h : Run step (start request conf transport topVia newConnection now) tr s)
    (hs : s.ict.Answered) : Emitted Out.isFinal tr := by
  refine Run.invariant (G := fun _ _ => True)
    (I := fun tr s => s.ict.Answered → Emitted Out.isFinal tr) ?_ ?_ h (fun _ _ => trivial) hs
  · intro hs
    unfold Answered at hs
    simp at hs
  · intro tr s e s' o ih _ hstep hs'
    rw [emitted_snoc]
    exact ((step_trans hstep).2.final_of_answered hs').imp ih id

/-- The law holds of a run exactly when every connection failure in it comes in time. -/
theorem failureLaw_of_run_iff
    (h : Run step (start request conf transport topVia newConnection now) tr s) :
    FailureLaw Terminated tr ↔ ∀ r ∈ tr, FailureTimely r.pre r.ev := by
  have hwf : ∀ tr s, Run step (start request conf transport topVia newConnection now) tr s →
      ∀ e : TimedEvent Event, { s.ict with now := e.time }.Wf :=
    fun tr s hrun e => (wf_of_run hrun).withNow e.time
  constructor
  · intro hlaw r hr hev
    obtain ⟨tr₁, tr₂, rfl⟩ := List.append_of_mem hr
    obtain ⟨hpre, hstep, _⟩ := Run.of_middle h
    by_contra hlate
    rw [not_or, not_not] at hlate
    have ht := (step_trans hstep).2
    have hfail := ht.failure_of_late (hwf tr₁ r.pre hpre r.ev) hev hlate.1 hlate.2
    obtain ⟨hterm, hfinal⟩ := hlaw.timely tr₁ r tr₂ rfl hfail
    -- what is neither open nor terminated has been answered
    apply hfinal
    apply emitted_final_of_run hpre
    unfold Answered
    unfold Open at hlate
    unfold Terminated at hterm
    cases hs : r.pre.ict.state <;> simp_all
  · intro hG
    refine oneShot_of_run (?_ : ∀ s, Terminated s → ¬ s.ict.Open) ?_ ?_ ?_ h hG
    · intro s hs ho
      unfold Terminated at hs
      simp [Open, hs] at ho
    · intro tr s e s' o _ hstep hno ho
      exact hno ((step_trans hstep).2.open_of ho)
    · intro tr s e s' o _ hstep hfinal
      exact (step_trans hstep).2.not_open_of_final hfinal
    · intro tr s e s' o hrun hstep htimely hfail
      obtain ⟨hsource, hterm, hone⟩ := (step_trans hstep).2.of_failure (hwf tr s hrun e) hfail
      refine ⟨?_, by simp [Open, hterm], hone⟩
      rcases hsource with ⟨_, hs⟩ | ⟨hev, hguard⟩
      · exact .inl hs
      · rcases hguard with hs | hc
        · exact .inl hs
        · exact (htimely hev).resolve_right (fun hne => hne hc)

end IctSystem

/-! ## Non-INVITE -/

namespace NonInviteClientTransaction

/-- The transaction can still be answered. -/
def Open (t : NonInviteClientTransaction) : Prop := t.state = .trying ∨ t.state = .proceeding

theorem Trans.open_of {t t' : NonInviteClientTransaction} {ev : Event} {o : List Out}
    (h : Trans t ev o t') (ho : t'.Open) : t.Open := by
  unfold Open at *
  cases h with
  | @expire x _ _ _ _ _ hr =>
    generalize x.key = k at hr
    cases hr <;> simp_all
  | response _ hr => cases hr <;> simp_all
  | _ => simp_all

theorem Trans.not_open_of_final {t t' : NonInviteClientTransaction} {ev : Event} {o : List Out}
    (h : Trans t ev o t') (ho : o.any Out.isFinal = true) : ¬ t'.Open := by
  unfold Open
  cases h with
  | @expire x _ _ _ _ _ hr =>
    generalize x.key = k at hr
    cases hr <;> simp [Out.isFinal] at ho
  | response _ hr =>
    cases hr with
    | provisional h2 _ hdelivered =>
      have hlt : ¬ 200 ≤ _ := Nat.not_le.mpr h2
      rcases hdelivered with rfl | rfl <;> simp [Out.isFinal, hlt] at ho
    | ignored _ => simp at ho
    | _ => simp
  | fail hev => rcases hev with ⟨_, rfl⟩ | ⟨_, rfl⟩ <;> simp [Out.isFinal] at ho
  | connected => simp at ho

/-- A failure call comes from timer F of an open transaction or from a connection failure. -/
theorem Trans.of_failure {t t' : NonInviteClientTransaction} {ev : Event} {o : List Out}
    (hw : t.Wf) (h : Trans t ev o t') (ho : o.any Out.isFailure = true) :
    (t.Open ∨ ev = .connectionFailed ∨ ev = .tlsValidationFailed) ∧
      t'.state = .terminated ∧ o.countP Out.isFailure ≤ 1 := by
  cases h with
  | @expire x rest _ _ hpop _ hr =>
    have hx : t.timers.Has x.key := .of_mem (TimerQueue.pop_mem hpop)
    generalize x.key = k at hr hx
    cases hr with
    | timeout => exact ⟨.inl (hw.hasF hx), rfl, List.countP_le_length⟩
    | _ => simp [Out.isFailure] at ho
  | response _ hr =>
    cases hr with
    | provisional _ _ hdelivered => rcases hdelivered with rfl | rfl <;> simp [Out.isFailure] at ho
    | _ => simp [Out.isFailure] at ho
  | fail hev => exact ⟨.inr (hev.imp And.left And.left), rfl, List.countP_le_length⟩
  | connected => simp at ho

theorem Trans.failure_of_fail {t t' : NonInviteClientTransaction} {ev : Event} {o : List Out}
    (h : Trans t ev o t') (hev : ev = .connectionFailed ∨ ev = .tlsValidationFailed) :
    o.any Out.isFailure = true := by
  cases h with
  | fail hcall => rcases hcall with ⟨_, rfl⟩ | ⟨_, rfl⟩ <;> rfl
  | _ => simp at hev

theorem Trans.final_of_completed {t t' : NonInviteClientTransaction} {ev : Event} {o : List Out}
    (h : Trans t ev o t') (hc : t'.state = .completed) :
    t.state = .completed ∨ o.any Out.isFinal = true := by
  cases h with
  | @expire x _ _ _ _ _ hr =>
    generalize x.key = k at hr
    cases hr <;> simp_all
  | response _ hr =>
    cases hr with
    | finalUdp h2 _ _ => simp [Out.isFinal, h2]
    | _ => simp_all
  | _ => simp_all

end NonInviteClientTransaction

namespace NictSystem

open NonInviteClientTransaction

/-- `@state` is `:terminated`. -/
def Terminated (s : NictSystem) : Prop := s.nict.state = .terminated

/-- A connection failure finds the transaction open. -/
def FailureTimely (s : NictSystem) (e : TimedEvent Event) : Prop :=
  e.ev = .connectionFailed ∨ e.ev = .tlsValidationFailed → s.nict.Open

variable {conf : TransactionConf} {transport : Transport} {topVia : String} {newConnection : Bool}
  {now : Nat} {tr : List (StepRec NictSystem (TimedEvent Event) Out)} {s : NictSystem}

theorem emitted_final_of_run (h : Run step (start conf transport topVia newConnection now) tr s)
    (hs : s.nict.state = .completed) : Emitted Out.isFinal tr := by
  refine Run.invariant (G := fun _ _ => True)
    (I := fun tr s => s.nict.state = .completed → Emitted Out.isFinal tr) ?_ ?_ h
    (fun _ _ => trivial) hs
  · intro hs
    by_cases hudp : transport = .udp <;> simp [start, new, sendRequest, hudp] at hs
  · intro tr s e s' o ih _ hstep hs'
    rw [emitted_snoc]
    exact ((step_trans hstep).2.final_of_completed hs').imp ih id

/-- The law holds of a run exactly when every connection failure in it comes in time. -/
theorem failureLaw_of_run_iff (h : Run step (start conf transport topVia newConnection now) tr s) :
    FailureLaw Terminated tr ↔ ∀ r ∈ tr, FailureTimely r.pre r.ev := by
  constructor
  · intro hlaw r hr hev
    obtain ⟨tr₁, tr₂, rfl⟩ := List.append_of_mem hr
    obtain ⟨hpre, hstep, _⟩ := Run.of_middle h
    have hfail := (step_trans hstep).2.failure_of_fail hev
    obtain ⟨hterm, hfinal⟩ := hlaw.timely tr₁ r tr₂ rfl hfail
    have hnot : r.pre.nict.state ≠ .completed := fun hs => hfinal (emitted_final_of_run hpre hs)
    unfold Open
    unfold Terminated at hterm
    cases hs : r.pre.nict.state <;> simp_all
  · intro hG
    refine oneShot_of_run (?_ : ∀ s, Terminated s → ¬ s.nict.Open) ?_ ?_ ?_ h hG
    · intro s hs ho
      unfold Terminated at hs
      simp [Open, hs] at ho
    · intro tr s e s' o _ hstep hno ho
      exact hno ((step_trans hstep).2.open_of ho)
    · intro tr s e s' o _ hstep hfinal
      exact (step_trans hstep).2.not_open_of_final hfinal
    · intro tr s e s' o hrun hstep htimely hfail
      obtain ⟨hsource, hterm, hone⟩ :=
        (step_trans hstep).2.of_failure ((wf_of_run hrun).withNow e.time) hfail
      exact ⟨hsource.elim id htimely, by simp [Open, hterm], hone⟩

end NictSystem

/-! ## Both classes -/

/-- An admitted profile whose timers B and F are shorter than the 4 s that a `TlsClient` waits for the
end of the handshake. -/
def impatientConf : TransactionConf := { timerB := some 2, timerC := some 120, timerF := some 2 }

/-- A TLS peer accepts the TCP connection and is silent from then on: timer B expires, and then the
handshake timer closes the connection. -/
def timeoutThenFailure : List (TimedEvent InviteClientTransaction.Event) :=
  [⟨2000, .expire⟩, ⟨4000, .connectionFailed⟩]

/-- **The law of failure calls.** A run of either client transaction keeps it if and only if its
connection failures come in time. -/
theorem failureLaw_iff (request : Request) (conf : TransactionConf) (transport : Transport)
    (topVia : String) (newConnection : Bool) (now : Nat) :
    (∀ tr s, Run IctSystem.step (IctSystem.start request conf transport topVia newConnection now) tr s →
      (FailureLaw IctSystem.Terminated tr ↔ ∀ r ∈ tr, IctSystem.FailureTimely r.pre r.ev)) ∧
    ∀ tr s, Run NictSystem.step (NictSystem.start conf transport topVia newConnection now) tr s →
      (FailureLaw NictSystem.Terminated tr ↔ ∀ r ∈ tr, NictSystem.FailureTimely r.pre r.ev) :=
  ⟨fun _ _ h => IctSystem.failureLaw_of_run_iff h, fun _ _ h => NictSystem.failureLaw_of_run_iff h⟩

/-- Timer B and, after it, the failed connection attempt: two failure calls. -/
theorem failureLaw_broken_by_late_failure :
    impatientConf.Admitted ∧
    ∃ tr s, Run IctSystem.step (IctSystem.start sampleRequest impatientConf .tls "v" true 0) tr s ∧
      tr.map (·.ev) = timeoutThenFailure ∧ ¬ FailureLaw IctSystem.Terminated tr := by
  refine ⟨?_, _, _, run_of_exec (show exec _ _ timeoutThenFailure = some (_, _) from rfl), rfl, ?_⟩
  · constructor <;> intro s hs <;> cases hs <;> decide
  · intro hlaw
    exact absurd hlaw.once (by decide)

/-- A run of each class that ends with a timeout. -/
theorem failureLaw_iff_timeout :
    (∃ tr s, Run IctSystem.step (IctSystem.start sampleRequest impatientConf .tcp "v" true 0) tr s ∧
      tr ≠ [] ∧ (FailureLaw IctSystem.Terminated tr ↔
        ∀ r ∈ tr, IctSystem.FailureTimely r.pre r.ev)) ∧
    ∃ tr s, Run NictSystem.step (NictSystem.start impatientConf .tcp "v" true 0) tr s ∧
      tr ≠ [] ∧ (FailureLaw NictSystem.Terminated tr ↔
        ∀ r ∈ tr, NictSystem.FailureTimely r.pre r.ev) := by
  have hict := run_of_exec
    (show exec IctSystem.step (IctSystem.start sampleRequest impatientConf .tcp "v" true 0) [⟨2000, .expire⟩] = some (_, _) from rfl)
  have hnict := run_of_exec
    (show exec NictSystem.step (NictSystem.start impatientConf .tcp "v" true 0) [⟨2000, .expire⟩] = some (_, _) from rfl)
  exact ⟨⟨_, _, hict, by simp, (failureLaw_iff sampleRequest impatientConf .tcp "v" true 0).1 _ _ hict⟩,
    ⟨_, _, hnict, by simp, (failureLaw_iff sampleRequest impatientConf .tcp "v" true 0).2 _ _ hnict⟩⟩

end OverSip
