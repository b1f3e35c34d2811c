import OverSip.Lib.IdleRun
import OverSip.Sip.InviteClientTransactionTheorems
import OverSip.Sip.NonInviteClientTransactionTheorems

/-!
# Client transactions leave their table

A stored client transaction has an armed timer whose expiry leads to `terminate_transaction` when
nothing else happens. For an INVITE this depends on the configuration: the block of timer C cancels
timers A and B and calls `do_cancel`, and in `:calling` that sends nothing and starts nothing. So a
timer C that is shorter than timer B leaves a transaction that nobody answers in its table for ever.
-/

namespace OverSip

namespace InviteClientTransaction

open TimerQueue

/-- A calling transaction waits for timer B, which comes before timer C; the intervals of the periodic
timers are positive. -/
structure Ticking (t : InviteClientTransaction) : Prop where
  waiting : t.sent = true → t.state = .calling →
    t.timers.Has .B ∧ Before (· = .B) (· = .C) t.timers
  intervalA : t.timers.Has .A → 0 < t.intervalA
  intervalE : t.timers.Has .eCancel → 0 < t.intervalE

theorem CancelTrans.interval {t t' : InviteClientTransaction} {reasons : List String}
    {o : List Out} (h : CancelTrans t reasons o t')
    (hA : t.timers.Has .A → 0 < t.intervalA) (hE : t.timers.Has .eCancel → 0 < t.intervalE) :
    (t'.timers.Has .A → 0 < t'.intervalA) ∧ (t'.timers.Has .eCancel → 0 < t'.intervalE) := by
  cases h with
  | again _ => exact ⟨hA, hE⟩
  | wait _ _ => exact ⟨hA, hE⟩
  | send _ _ =>
    by_cases hu : t.transport = .udp
    · simp [InviteClientTransaction.sendCancel, hu, TIMER_E, T1]
      exact hA
    · simp [InviteClientTransaction.sendCancel, hu]
      exact ⟨hA, hE⟩

theorem Ticking.expire {t t' : InviteClientTransaction} {x : Armed IctTimer}
    {rest : TimerQueue IctTimer} {o : List Out} (h : t.Ticking) (hw : t.Wf)
    (hpop : t.timers.pop = some (x, rest)) (hr : ExpireTrans { t with timers := rest } x.key o t') :
    t'.Ticking := by
  have hsub : rest.Sublist t.timers := pop_sublist hpop
  have hhas : ∀ k, Has rest k → t.timers.Has k := fun k hk => hk.of_pop hpop
  have hx : t.timers.Has x.key := .of_mem (pop_mem hpop)
  have hsent : t.sent = true := hw.sent_of_pop hpop
  have hA : Has rest .A → 0 < t.intervalA := fun hk => h.intervalA (hhas _ hk)
  have hE : Has rest .eCancel → 0 < t.intervalE := fun hk => h.intervalE (hhas _ hk)
  -- in `:calling`, timer B is still armed unless it is what expires, and timer C cannot expire
  have hwait : x.key ≠ .B → t.state = .calling →
      x.key ≠ .C ∧ Has rest .B ∧ Before (· = .B) (· = .C) rest := by
    intro hne hs
    obtain ⟨hB, hord⟩ := h.waiting hsent hs
    obtain ⟨y, hy, hyB⟩ := hB
    exact ⟨hord.pop hpop ⟨y, hy, hyB⟩ hne, Has.pop ⟨y, hy, hyB⟩ hpop hne, hord.sublist hsub⟩
  generalize x.key = k at hr hx hwait
  cases hr with
  | retransmit =>
    refine ⟨fun _ hs => ?_, fun _ => ?_, fun hk => ?_⟩
    · obtain ⟨_, hB, hord⟩ := hwait (by simp) hs
      exact ⟨by simp [hB], hord.arm (by simp) (by simp)⟩
    · have := h.intervalA hx
      show 0 < 2 * t.intervalA
      omega
    · exact hE (by simpa using hk)
  | timeout => exact ⟨by simp, by simp, fun hk => hE (by simpa using hk)⟩
  | timerC hr =>
    obtain ⟨hA', hE'⟩ := hr.interval (by simp) (by simpa using hE)
    refine ⟨fun _ hs => ?_, hA', hE'⟩
    rw [hr.state_eq] at hs
    exact absurd rfl (hwait (by simp) hs).1
  | finish _ => exact ⟨by simp, hA, hE⟩
  | retransmitCancel =>
    refine ⟨fun _ hs => ?_, fun hk => ?_, fun _ => ?_⟩
    · obtain ⟨_, hB, hord⟩ := hwait (by simp) hs
      exact ⟨by simp [hB], hord.arm (by simp) (by simp)⟩
    · exact hA (by simpa using hk)
    · have := h.intervalE hx
      show 0 < min (2 * t.intervalE) T2
      rw [T2]
      omega
  | giveUpCancel _ => exact ⟨by simp, fun hk => hA (by simpa using hk), by simp⟩
  | lateF hs => exact ⟨fun _ hs' => by simp [show t.state = .terminated from hs] at hs', hA, hE⟩

theorem Ticking.response {t t' : InviteClientTransaction} {r : Response} {o : List Out}
    (h : t.Ticking) (hs' : t'.state ≠ .calling) (hr : ResponseTrans t r o t') : t'.Ticking := by
  refine ⟨fun _ hs => absurd hs hs', ?_, ?_⟩
  · have hA := h.intervalA
    cases hr with
    | firstProvisionalCanceled _ _ _ =>
      by_cases hu : t.transport = .udp <;> simp [InviteClientTransaction.sendCancel, hu]
    | provisional _ _ => exact hA
    | failureAgain _ _ => exact hA
    | successAgain _ _ _ => exact hA
    | ignored _ => exact hA
    | _ => simp
  · have hE := h.intervalE
    cases hr with
    | firstProvisionalCanceled _ _ _ =>
      by_cases hu : t.transport = .udp
      · simp [InviteClientTransaction.sendCancel, hu, TIMER_E, T1]
      · simpa [InviteClientTransaction.sendCancel, hu] using hE
    | _ => simpa using hE

theorem Ticking.trans {t t' : InviteClientTransaction} {ev : Event} {o : List Out} (h : t.Ticking)
    (hw : t.Wf) (ht : Trans t ev o t') : t'.Ticking := by
  have hcalling := ht.calling_of
  have hA := h.intervalA
  have hE := h.intervalE
  cases ht with
  | expire hpop _ hr => exact h.expire hw hpop hr
  | @response r _ _ _ _ hr => exact h.response (fun hs => (hcalling hs).2 r rfl) hr
  | cancelRefused _ _ _ =>
    refine ⟨fun hsent hs => ?_, fun hk => hA (by simpa using hk), by simp⟩
    obtain ⟨hB, hord⟩ := h.waiting hsent hs
    exact ⟨by simpa using hB, hord.sublist (cancel_sublist _ _)⟩
  | cancelAnswered _ _ hcs =>
    refine ⟨fun _ hs => ?_, fun hk => hA (by simpa using hk), by simp⟩
    have := hw.calling hs
    rw [hcs] at this
    cases this
  | cancelLate _ => exact h
  | doCancel hsent hr =>
    obtain ⟨hA', hE'⟩ := hr.interval hA hE
    refine ⟨fun _ hs => ?_, hA', hE'⟩
    cases hr with
    | again _ => exact h.waiting hsent hs
    | wait _ _ => exact h.waiting hsent hs
    | send _ hproceeding => simp [hproceeding] at hs
  | fail _ _ _ => exact ⟨by simp, by simp, fun hk => hE (by simpa using hk)⟩
  | failUnsent _ hunsent =>
    refine ⟨fun hsent => ?_, by simp, fun hk => hE (by simpa using hk)⟩
    simp [hunsent] at hsent
  | failIgnored _ _ _ => exact h
  | connected => exact h

/-- Timers B and C, armed at once, with B due no later than C. -/
theorem before_armB_armC {q : TimerQueue IctTimer} {b c : Nat} (hB : ¬ q.Has .B) (hC : ¬ q.Has .C)
    (hbc : b ≤ c) : Before (· = .B) (· = .C) ((q.arm .B b).arm .C c) := by
  have hq : Before (· = .B) (· = .C) q := by
    apply List.pairwise_of_forall_mem_list
    intro x hx y _
    exact ⟨fun hk => absurd ⟨x, hx, hk⟩ hC, fun hk => absurd ⟨x, hx, hk⟩ hB⟩
  have hqB : Before (· = .B) (· = .C) (q.arm .B b) :=
    hq.arm (fun _ x hx hk => hC ⟨x, hx, hk⟩) (fun hk => by cases hk)
  refine hqB.arm (fun hk => by cases hk) fun _ x hx hk => ?_
  rw [mem_arm] at hx
  rcases hx with hx | rfl
  · exact absurd ⟨x, hx, hk⟩ hB
  · exact hbc

theorem Ticking.start (request : Request) (conf : TransactionConf) (transport : Transport)
    (topVia : String) (now : Nat) (hBC : conf.timerBms ≤ conf.timerCms) :
    (new request conf transport topVia now).sendRequest.1.Ticking := by
  by_cases hu : request.uac = true
  · constructor <;> simp [new, sendRequest, hu]
  · have hbc : now + conf.timerBms ≤ now + conf.timerCms := by omega
    by_cases hudp : transport = .udp
    · constructor <;> simp [new, sendRequest, hu, hudp, TIMER_A, T1]
      exact before_armB_armC (by simp) (by simp) hbc
    · constructor <;> simp [new, sendRequest, hu, hudp]
      exact before_armB_armC (by simp) (by simp) hbc

/-- The timers that are armed again by their own code. -/
def Periodic (k : IctTimer) : Prop := k = .A ∨ k = .eCancel

theorem CancelTrans.countC_le {t t' : InviteClientTransaction} {reasons : List String}
    {o : List Out} (h : CancelTrans t reasons o t') :
    t'.timers.countP (·.key = .C) = t.timers.countP (·.key = .C) := by
  cases h with
  | again _ => rfl
  | wait _ _ => rfl
  | send _ _ =>
    rw [sendCancel_timers]
    by_cases hu : t.transport = .udp <;> simp [hu, TimerQueue.arm]

/-- An expiry in a stored transaction: a periodic timer is armed again for later, every other one but
timer C terminates, and timer C is gone for good. -/
theorem ExpireTrans.progress {t t' : InviteClientTransaction} {x : Armed IctTimer}
    {rest : TimerQueue IctTimer} {o : List Out} (h : t.Ticking) (hst : t.stored = true)
    (hpop : t.timers.pop = some (x, rest)) (hdue : x.due ≤ t.now)
    (hlive : t.state ≠ .terminated) (hr : ExpireTrans { t with timers := rest } x.key o t') :
    (Periodic x.key → t'.stored = true ∧
      ∃ due, x.due < due ∧ t'.timers = rest.arm x.key due) ∧
    (¬ Periodic x.key → t'.stored = false ∨ t'.stored = true ∧
      t'.timers.countP (·.key = .C) < t.timers.countP (·.key = .C)) := by
  have hx : t.timers.Has x.key := .of_mem (pop_mem hpop)
  have hcount : x.key = .C → rest.countP (·.key = .C) < t.timers.countP (·.key = .C) := by
    intro hk
    rw [(pop_perm hpop).countP_eq, List.countP_cons_of_pos (by simpa using hk)]
    omega
  generalize x.key = k at hr hx hcount
  cases hr with
  | retransmit =>
    have := h.intervalA hx
    refine ⟨fun _ => ⟨hst, _, ?_, rfl⟩, fun hno => absurd (.inl rfl) hno⟩
    show x.due < t.now + 2 * t.intervalA
    omega
  | retransmitCancel =>
    have := h.intervalE hx
    refine ⟨fun _ => ⟨hst, _, ?_, rfl⟩, fun hno => absurd (.inr rfl) hno⟩
    show x.due < t.now + min (2 * t.intervalE) T2
    rw [T2]
    omega
  | timerC hr =>
    refine ⟨fun hp => by simp [Periodic] at hp, fun _ => .inr ⟨?_, ?_⟩⟩
    · rw [hr.stored_eq]
      exact hst
    · rw [hr.countC_le]
      have hsub : ((rest.cancel .A).cancel .B).countP (·.key = .C) ≤ rest.countP (·.key = .C) :=
        ((cancel_sublist _ _).trans (cancel_sublist _ _)).countP_le
      exact Nat.lt_of_le_of_lt hsub (hcount rfl)
  | lateF hs => exact absurd hs hlive
  | finish hk =>
    refine ⟨fun hp => ?_, fun _ => .inl rfl⟩
    rcases hk with rfl | rfl | rfl <;> simp [Periodic] at hp
  | _ => exact ⟨fun hp => by simp [Periodic] at hp, fun _ => .inl rfl⟩

/-- A stored transaction waits for a timer that is not periodic. -/
theorem exists_waiting {t : InviteClientTransaction} (hw : t.Wf) (h : t.Ticking)
    (hsent : t.sent = true) (hst : t.stored = true) : ∃ y ∈ t.timers, ¬ Periodic y.key := by
  have hsuff : ∀ k, ¬ Periodic k → t.timers.Has k → ∃ y ∈ t.timers, ¬ Periodic y.key := by
    rintro k hk ⟨y, hy, rfl⟩
    exact ⟨y, hy, hk⟩
  cases hs : t.state with
  | calling => exact hsuff .B (by simp [Periodic]) (h.waiting hsent hs).1
  | proceeding =>
    by_cases hc : t.cancel = none
    · exact hsuff .C (by simp [Periodic]) (hw.waiting hsent hc (.inr hs))
    · rcases (hw.canceled hs hc).2 with hk | hk
      · exact hsuff .fCancel (by simp [Periodic]) hk
      · exact hsuff .afterCancel (by simp [Periodic]) hk
  | completed => exact hsuff .D (by simp [Periodic]) (hw.completed hs)
  | accepted => exact hsuff .M (by simp [Periodic]) (hw.accepted hs)
  | terminated => exact absurd hs (hw.stored_iff.mp hst)

end InviteClientTransaction

namespace IctSystem

open InviteClientTransaction TimerQueue

/-- The transaction, its armed timers and its clock. -/
def timed : TimedMachine IctSystem Event Out IctTimer :=
  { step := step, timers := fun s => s.ict.timers, now := fun s => s.ict.now, expire := .expire }

/-- The next timer can expire when it is due. -/
theorem step_expire {s : IctSystem} {x : Armed IctTimer} {rest : TimerQueue IctTimer}
    (hpop : s.ict.timers.pop = some (x, rest)) :
    ∃ s' o, s.step ⟨max s.ict.now x.due, .expire⟩ = some (s', o) ∧
      ExpireTrans { s.ict with now := max s.ict.now x.due, timers := rest } x.key o s'.ict := by
  let t := { s.ict with now := max s.ict.now x.due, timers := rest }
  refine ⟨{ s with ict := (t.expire x.key).1 }, (t.expire x.key).2, ?_, expire_trans t x.key⟩
  rw [step, if_pos (Nat.le_max_left ..), handle]
  simp only [hpop]
  rw [if_pos (Nat.le_max_right ..)]

/-- Left alone, the transaction lets a timer expire that is not periodic, and leaves its table. -/
def LeavesTable (s : IctSystem) : Prop :=
  ∃ x ∈ s.ict.timers, ¬ Periodic x.key ∧ timed.LeadsTo s x fun s' => s'.ict.stored = false

/-- What a stored transaction needs for leaving its table. -/
structure Good (s : IctSystem) : Prop where
  wf : s.ict.Wf
  ticking : s.ict.Ticking
  sent : s.ict.sent = true

theorem Good.step {s s' : IctSystem} {e : TimedEvent Event} {o : List Out} (h : s.Good)
    (hstep : s.step e = some (s', o)) : s'.Good := by
  have ht := (step_trans hstep).2
  have htick : { s.ict with now := e.time }.Ticking :=
    ⟨h.ticking.waiting, h.ticking.intervalA, h.ticking.intervalE⟩
  exact ⟨(h.wf.withNow e.time).trans ht, htick.trans (h.wf.withNow e.time) ht, ht.same.sent.trans h.sent⟩

theorem Good.leavesTable {s : IctSystem} (h : s.Good) (hst : s.ict.stored = true) :
    s.LeavesTable := by
  refine timed.exists_leadsTo Periodic Good (fun s' => s'.ict.stored = false)
    (fun s => s.ict.timers.countP (·.key = .C)) ?_ ?_ h (by simp [hst])
  · intro s h hst
    exact exists_waiting h.wf h.ticking h.sent (by simpa using hst)
  · intro s x rest h hst hpop
    have hpop : s.ict.timers.pop = some (x, rest) := hpop
    have hst : s.ict.stored = true := by simpa using hst
    obtain ⟨s', o, hstep, hr⟩ := step_expire (s := s) hpop
    refine ⟨s', o, hstep, ?_⟩
    have hgood' := h.step hstep
    have htick : { s.ict with now := max s.ict.now x.due }.Ticking :=
      ⟨h.ticking.waiting, h.ticking.intervalA, h.ticking.intervalE⟩
    obtain ⟨hagain, honce⟩ := hr.progress (t := { s.ict with now := max s.ict.now x.due })
      htick hst hpop (Nat.le_max_right ..) (h.wf.stored_iff.mp hst)
    constructor
    · intro hp
      obtain ⟨hst', due, hlt, htimers⟩ := hagain hp
      refine ⟨hgood', by simp [hst'], ?_, due, hlt, htimers⟩
      have hkey : x.key ≠ .C := by rcases hp with hp | hp <;> simp [hp]
      rw [htimers, (pop_perm hpop).countP_eq]
      simp [TimerQueue.arm, hkey]
    · intro hp
      rcases honce hp with hst' | ⟨hst', hless⟩
      · exact .inl hst'
      · exact .inr ⟨hgood', by simp [hst'], hless⟩

variable {request : Request} {conf : TransactionConf} {transport : Transport} {topVia : String}
  {newConnection : Bool} {now : Nat} {tr : List (StepRec IctSystem (TimedEvent Event) Out)}
  {s : IctSystem}

theorem good_of_run (hBC : conf.timerBms ≤ conf.timerCms) (huac : request.uac = false)
    (h : Run step (start request conf transport topVia newConnection now) tr s) : s.Good := by
  refine Run.stateInvariant (I := Good) ?_ ?_ h
  · refine ⟨Wf.start .., Ticking.start _ _ _ _ _ hBC, ?_⟩
    rw [(kept_of_run (.nil : Run step (start request conf transport topVia newConnection now) []
      _)).sent, huac]
    rfl
  · intro s e s' o hg hstep
    exact hg.step hstep

/-- Timer C before timer B: the transaction is left in its table without a timer. -/
theorem leak_of_timerC_first (hadm : conf.Admitted) (hCB : conf.timerCms < conf.timerBms)
    (huac : request.uac = false) :
    ∃ tr s, Run step (start request conf transport topVia newConnection now) tr s ∧
      s.ict.stored = true ∧ s.ict.timers = [] := by
  have hC := TransactionConf.timerCms_ge hadm
  have hA : 500 ≤ conf.timerCms := by omega
  have hA' : ¬ conf.timerCms < 500 := by omega
  have hA'' : ¬ now + conf.timerCms + 1000 < now + conf.timerCms := by omega
  by_cases hudp : transport = .udp
  · suffices h : ∃ p, exec step (start request conf transport topVia newConnection now)
        [⟨now + conf.timerCms, .expire⟩, ⟨now + conf.timerCms, .expire⟩] = some p ∧
        p.2.ict.stored = true ∧ p.2.ict.timers = [] by
      obtain ⟨p, hp, hs⟩ := h
      exact ⟨p.1, p.2, run_of_exec hp, hs⟩
    simp [exec, step, start, new, sendRequest, huac, hudp, handle, TimerQueue.arm,
      TimerQueue.cancel, TimerQueue.pop, InviteClientTransaction.expire,
      InviteClientTransaction.doCancel, TIMER_A, T1, hA, hA', hA'', hCB]
  · suffices h : ∃ p, exec step (start request conf transport topVia newConnection now)
        [⟨now + conf.timerCms, .expire⟩] = some p ∧
        p.2.ict.stored = true ∧ p.2.ict.timers = [] by
      obtain ⟨p, hp, hs⟩ := h
      exact ⟨p.1, p.2, run_of_exec hp, hs⟩
    simp [exec, step, start, new, sendRequest, huac, hudp, handle, TimerQueue.arm,
      TimerQueue.cancel, TimerQueue.pop, InviteClientTransaction.expire,
      InviteClientTransaction.doCancel, hCB]

/-- No INVITE client transaction leaks exactly when its timer B comes no later than its timer C and
`send_request` comes to its end. -/
theorem leavesTable_iff_of_admitted (hadm : conf.Admitted) :
    (∀ tr s, Run step (start request conf transport topVia newConnection now) tr s →
      s.ict.stored = true → s.LeavesTable) ↔
    conf.timerBms ≤ conf.timerCms ∧ request.uac = false := by
  constructor
  · intro hall
    have huac : request.uac = false := by
      by_contra hu
      have hu : request.uac = true := by simpa using hu
      obtain ⟨x, hx, _⟩ := hall _ _ .nil (by simp [start, new, sendRequest, hu])
      simp [start, new, sendRequest, hu] at hx
    refine ⟨?_, huac⟩
    by_contra hCB
    obtain ⟨tr, s, hrun, hst, hnil⟩ :
        ∃ tr s, Run step (start request conf transport topVia newConnection now) tr s ∧
          s.ict.stored = true ∧ s.ict.timers = [] :=
      leak_of_timerC_first hadm (Nat.lt_of_not_le hCB) huac
    obtain ⟨x, hx, _⟩ := hall tr s hrun hst
    rw [hnil] at hx
    cases hx
  · rintro ⟨hBC, huac⟩ tr s hrun hst
    exact (good_of_run hBC huac hrun).leavesTable hst

end IctSystem

namespace NonInviteClientTransaction

open TimerQueue

/-- The interval of timer E is positive while it is armed. -/
def Ticking (t : NonInviteClientTransaction) : Prop := t.timers.Has .E → 0 < t.intervalE

theorem ExpireTrans.progress {t t' : NonInviteClientTransaction} {x : Armed NictTimer}
    {rest : TimerQueue NictTimer} {o : List Out} (h : t.Ticking) (hst : t.stored = true)
    (hx : t.timers.Has x.key) (hdue : x.due ≤ t.now)
    (hr : ExpireTrans { t with timers := rest } x.key o t') :
    (x.key = .E → t'.stored = true ∧ ∃ due, x.due < due ∧ t'.timers = rest.arm x.key due) ∧
      (x.key ≠ .E → t'.stored = false) := by
  generalize x.key = k at hr hx
  cases hr with
  | @retransmit interval hle =>
    have := h hx
    refine ⟨fun _ => ⟨hst, _, ?_, rfl⟩, fun hno => absurd rfl hno⟩
    show x.due < t.now + interval
    rw [TIMER_E, T1, T2] at hle
    simp only at hle
    omega
  | timeout => exact ⟨(by simp), fun _ => rfl⟩
  | finish => exact ⟨(by simp), fun _ => rfl⟩

theorem Ticking.trans {t t' : NonInviteClientTransaction} {ev : Event} {o : List Out}
    (h : t.Ticking) (ht : Trans t ev o t') : t'.Ticking := by
  unfold Ticking at *
  cases ht with
  | @expire x rest _ _ hpop _ hr =>
    have hx : t.timers.Has x.key := .of_mem (pop_mem hpop)
    have hrest : Has rest .E → t.timers.Has .E := fun hk => hk.of_pop hpop
    generalize x.key = k at hr hx
    cases hr with
    | @retransmit interval hle =>
      intro _
      have := h hx
      show 0 < interval
      rw [TIMER_E, T1, T2] at hle
      simp only at hle
      omega
    | timeout => simp
    | finish => exact fun hk => h (hrest hk)
  | response _ hr =>
    cases hr with
    | provisional _ _ _ => exact h
    | ignored _ => exact h
    | _ => simp
  | fail _ => simp
  | connected => exact h

theorem exists_waiting {t : NonInviteClientTransaction} (hw : t.Wf) (hst : t.stored = true) :
    ∃ y ∈ t.timers, y.key ≠ .E := by
  have hlive := hw.stored_iff.mp hst
  have hk : t.timers.Has .F ∨ t.timers.Has .K := by
    cases hs : t.state with
    | trying => exact .inl (hw.waiting (.inl hs))
    | proceeding => exact .inl (hw.waiting (.inr hs))
    | completed => exact .inr (hw.completed hs)
    | terminated => exact absurd hs hlive
  rcases hk with ⟨y, hy, hk⟩ | ⟨y, hy, hk⟩
  · exact ⟨y, hy, by simp [hk]⟩
  · exact ⟨y, hy, by simp [hk]⟩

end NonInviteClientTransaction

namespace NictSystem

open NonInviteClientTransaction TimerQueue

/-- The transaction, its armed timers and its clock. -/
def timed : TimedMachine NictSystem Event Out NictTimer :=
  { step := step, timers := fun s => s.nict.timers, now := fun s => s.nict.now, expire := .expire }

theorem step_expire {s : NictSystem} {x : Armed NictTimer} {rest : TimerQueue NictTimer}
    (hpop : s.nict.timers.pop = some (x, rest)) :
    ∃ s' o, s.step ⟨max s.nict.now x.due, .expire⟩ = some (s', o) ∧
      ExpireTrans { s.nict with now := max s.nict.now x.due, timers := rest } x.key o s'.nict := by
  let t := { s.nict with now := max s.nict.now x.due, timers := rest }
  refine ⟨{ s with nict := (t.expire x.key).1 }, (t.expire x.key).2, ?_, expire_trans t x.key⟩
  rw [step, if_pos (Nat.le_max_left ..), handle]
  simp only [hpop]
  rw [if_pos (Nat.le_max_right ..)]

/-- Left alone, the transaction lets timer F or K expire, and leaves its table. -/
def LeavesTable (s : NictSystem) : Prop :=
  ∃ x ∈ s.nict.timers, x.key ≠ .E ∧ timed.LeadsTo s x fun s' => s'.nict.stored = false

/-- What a stored transaction needs for leaving its table. -/
structure Good (s : NictSystem) : Prop where
  wf : s.nict.Wf
  ticking : s.nict.Ticking

theorem Good.step {s s' : NictSystem} {e : TimedEvent Event} {o : List Out} (h : s.Good)
    (hstep : s.step e = some (s', o)) : s'.Good := by
  have ht := (step_trans hstep).2
  have htick : { s.nict with now := e.time }.Ticking := h.ticking
  exact ⟨(h.wf.withNow e.time).trans ht, htick.trans ht⟩

theorem Good.leavesTable {s : NictSystem} (h : s.Good) (hst : s.nict.stored = true) :
    s.LeavesTable := by
  refine timed.exists_leadsTo (· = .E) Good (fun s' => s'.nict.stored = false) (fun _ => 0) ?_ ?_ h
    (by simp [hst])
  · intro s h hst
    exact exists_waiting h.wf (by simpa using hst)
  · intro s x rest h hst hpop
    have hpop : s.nict.timers.pop = some (x, rest) := hpop
    obtain ⟨s', o, hstep, hr⟩ := step_expire (s := s) hpop
    refine ⟨s', o, hstep, ?_⟩
    obtain ⟨hagain, honce⟩ := hr.progress (t := { s.nict with now := max s.nict.now x.due })
      h.ticking (by simpa using hst) (.of_mem (pop_mem hpop)) (Nat.le_max_right ..)
    constructor
    · intro hp
      obtain ⟨hst', due, hlt, htimers⟩ := hagain hp
      exact ⟨h.step hstep, by simp [hst'], Nat.le_refl _, due, hlt, htimers⟩
    · intro hp
      exact .inl (honce hp)

theorem leavesTable_of_run {conf : TransactionConf} {transport : Transport} {topVia : String}
    {newConnection : Bool} {now : Nat} {tr : List (StepRec NictSystem (TimedEvent Event) Out)}
    {s : NictSystem} (h : Run step (start conf transport topVia newConnection now) tr s)
    (hst : s.nict.stored = true) : s.LeavesTable := by
  refine Good.leavesTable (Run.stateInvariant (I := Good) ⟨Wf.start .., ?_⟩ ?_ h) hst
  · unfold Ticking
    by_cases hudp : transport = .udp <;> simp [start, new, sendRequest, hudp, TIMER_E, T1]
  · intro s e s' o hg hstep
    exact hg.step hstep

end NictSystem

/-! ## Both classes -/

/-- **No client transaction leaks**, for an admitted configuration, if and only if timer B comes no later
than timer C and the request is not one whose `send_request` raises. -/
theorem leavesTable_iff (request : Request) (conf : TransactionConf) (transport : Transport)
    (topVia : String) (newConnection : Bool) (now : Nat) (hadm : conf.Admitted) :
    ((∀ tr s, Run IctSystem.step
        (IctSystem.start request conf transport topVia newConnection now) tr s →
      s.ict.stored = true → s.LeavesTable) ↔
    conf.timerBms ≤ conf.timerCms ∧ request.uac = false) ∧
    ∀ tr s, Run NictSystem.step (NictSystem.start conf transport topVia newConnection now) tr s →
      s.nict.stored = true → s.LeavesTable :=
  ⟨IctSystem.leavesTable_iff_of_admitted hadm,
    fun _ _ hrun hst => NictSystem.leavesTable_of_run hrun hst⟩

/-- An admitted profile whose timer C is shorter than its timer B. -/
def shortCConf : TransactionConf := { timerB := some 32, timerC := some 8, timerF := some 32 }

/-- Nobody answers an INVITE over TCP; timer C cancels timer B, and no timer is left. -/
theorem leak_of_shortC :
    shortCConf.Admitted ∧
    ∃ tr s, Run IctSystem.step (IctSystem.start sampleRequest shortCConf .tcp "v" false 0) tr s ∧
      tr.map (·.ev) = [⟨8000, .expire⟩] ∧ s.ict.stored = true ∧ s.ict.timers = [] ∧
      ¬ s.LeavesTable := by
  refine ⟨?_, _, _, run_of_exec (show exec _ _ [⟨8000, .expire⟩] = some (_, _) from rfl), rfl, rfl, rfl, ?_⟩
  · constructor <;> intro s hs <;> cases hs <;> decide
  · intro ⟨x, hx, _⟩
    cases hx

/-- The default profile has no leak, and a non-INVITE transaction leaves its table under it. -/
theorem leavesTable_default :
    (∀ tr s, Run IctSystem.step
        (IctSystem.start sampleRequest TransactionConf.default .udp "v" false 0) tr s →
      s.ict.stored = true → s.LeavesTable) ∧
    (NictSystem.start TransactionConf.default .udp "v" false 0).LeavesTable :=
  have h := leavesTable_iff sampleRequest .default .udp "v" false 0 TransactionConf.admitted_default
  ⟨h.1.mpr ⟨by decide, rfl⟩, h.2 _ _ .nil rfl⟩

end OverSip
