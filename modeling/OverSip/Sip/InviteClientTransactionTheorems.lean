import OverSip.Sip.InviteClientTransaction

/-!
# What one event can do to an INVITE client transaction

`Trans` lists the transitions of an INVITE client transaction, one constructor for each path through
a handler, and `step_trans` says that every event that can happen is one of them. The invariants
below are read off `Trans`; no proof after this file opens a handler.

`Wf` ties `@state` to the table entry, to `@cancel` and to the timers that are armed. Every
transition keeps it, so it holds in every state of every run.
-/

namespace OverSip

namespace InviteClientTransaction

open TimerQueue

/-! ## The transitions -/

/-- The CANCEL that `do_cancel` builds. -/
def buildCancel (t : InviteClientTransaction) (reasons : List String) : Cancel :=
  { ruri := t.request.ruri, topVia := t.topVia, routes := t.request.hdrRoute.getD [], reasons
    hdrFrom := t.request.hdrFrom, hdrTo := t.request.hdrTo
    callId := t.request.callId, cseq := t.request.cseq }

/-- The paths of `do_cancel`. -/
inductive CancelTrans (t : InviteClientTransaction) (reasons : List String) :
    List Out → InviteClientTransaction → Prop
  | again : t.cancel ≠ none → CancelTrans t reasons [] t
  | wait : t.cancel = none → t.state ≠ .proceeding →
      CancelTrans t reasons [] { t with cancel := some (t.buildCancel reasons) }
  | send : t.cancel = none → t.state = .proceeding →
      CancelTrans t reasons [.send (.cancel (t.buildCancel reasons))]
        ({ t with cancel := some (t.buildCancel reasons) }.sendCancel (t.buildCancel reasons)).1

theorem doCancel_trans (t : InviteClientTransaction) (reasons : List String) :
    CancelTrans t reasons (t.doCancel reasons).2 (t.doCancel reasons).1 := by
  by_cases hc : t.cancel.isSome
  · rw [doCancel, if_pos hc]
    exact .again (Option.isSome_iff_ne_none.mp hc)
  · rw [doCancel, if_neg hc]
    have hc' : t.cancel = none := by simpa using hc
    by_cases hs : t.state = .proceeding
    · dsimp only
      rw [if_pos hs]
      exact .send hc' hs
    · dsimp only
      rw [if_neg hs]
      exact .wait hc' hs

/-- The paths of a timer block; `t` is the transaction without the expired timer. -/
inductive ExpireTrans (t : InviteClientTransaction) :
    IctTimer → List Out → InviteClientTransaction → Prop
  | retransmit :
      ExpireTrans t .A [.send (.request t.topVia)]
        ({ t with intervalA := 2 * t.intervalA }.arm .A (2 * t.intervalA))
  | timeout :
      ExpireTrans t .B [.core .clientTimeout]
        ((t.cancelTimer .A).cancelTimer .C).terminateTransaction
  | timerC {o : List Out} {t' : InviteClientTransaction} :
      CancelTrans ((t.cancelTimer .A).cancelTimer .B) [] o t' →
      ExpireTrans t .C (o ++ [.core .inviteTimeout]) t'
  | finish {k : IctTimer} : k = .D ∨ k = .M ∨ k = .afterCancel →
      ExpireTrans t k [] t.terminateTransaction
  | retransmitCancel :
      ExpireTrans t .eCancel (t.cancel.toList.map fun c => .send (.cancel c))
        ({ t with intervalE := min (2 * t.intervalE) T2 }.arm .eCancel (min (2 * t.intervalE) T2))
  | giveUpCancel : t.state ≠ .terminated →
      ExpireTrans t .fCancel [] (t.cancelTimer .eCancel).terminateTransaction
  | lateF : t.state = .terminated → ExpireTrans t .fCancel [] t

theorem expire_trans (t : InviteClientTransaction) (k : IctTimer) :
    ExpireTrans t k (t.expire k).2 (t.expire k).1 := by
  cases k with
  | A => exact .retransmit
  | B => exact .timeout
  | C => exact .timerC (doCancel_trans _ _)
  | D => exact .finish (.inl rfl)
  | M => exact .finish (.inr (.inl rfl))
  | eCancel => exact .retransmitCancel
  | fCancel =>
    by_cases hs : t.state = .terminated
    · rw [expire, if_pos hs]
      exact .lateF hs
    · rw [expire, if_neg hs]
      exact .giveUpCancel hs
  | afterCancel => exact .finish (.inr (.inr rfl))

/-- The paths of `receive_response`. -/
inductive ResponseTrans (t : InviteClientTransaction) (r : Response) :
    List Out → InviteClientTransaction → Prop
  | firstProvisional : r.statusCode < 200 → t.state = .calling → t.cancel = none →
      ResponseTrans t r (deliverProvisional r)
        (({ t with state := .proceeding }.cancelTimer .A).cancelTimer .B)
  | firstProvisionalCanceled {c : Cancel} :
      r.statusCode < 200 → t.state = .calling → t.cancel = some c →
      ResponseTrans t r (deliverProvisional r ++ [.send (.cancel c)])
        ((({ t with state := .proceeding }.cancelTimer .A).cancelTimer .B).sendCancel c).1
  | provisional : r.statusCode < 200 → t.state = .proceeding →
      ResponseTrans t r (deliverProvisional r) t
  | failureUdp : 300 ≤ r.statusCode → t.state = .calling ∨ t.state = .proceeding →
      t.transport = .udp →
      ResponseTrans t r ((t.sendAck r).2 ++ [.core (.receiveResponse r)])
        (({ t with state := .completed }.cancelABC.startTimerD).sendAck r).1
  | failureReliable : 300 ≤ r.statusCode → t.state = .calling ∨ t.state = .proceeding →
      t.transport ≠ .udp →
      ResponseTrans t r ((t.sendAck r).2 ++ [.core (.receiveResponse r)])
        (({ t with state := .completed }.cancelABC.terminateTransaction).sendAck r).1
  | failureAgain : 300 ≤ r.statusCode → t.state = .completed →
      ResponseTrans t r (t.sendAck r).2 (t.sendAck r).1
  | success : 200 ≤ r.statusCode → r.statusCode < 300 → t.state = .calling ∨ t.state = .proceeding →
      ResponseTrans t r [.core (.receiveResponse r)] { t with state := .accepted }.cancelABC.startTimerM
  | successAgain : 200 ≤ r.statusCode → r.statusCode < 300 → t.state = .accepted →
      ResponseTrans t r [.core (.receiveResponse r)] t
  | ignored : t.state = .completed ∨ t.state = .accepted ∨ t.state = .terminated →
      ResponseTrans t r [] t

theorem receiveFailure_trans {t : InviteClientTransaction} {r : Response}
    (h3 : 300 ≤ r.statusCode) (hs : t.state = .calling ∨ t.state = .proceeding) :
    ResponseTrans t r (t.receiveFailure r).2 (t.receiveFailure r).1 := by
  unfold receiveFailure
  dsimp only
  by_cases hu : t.transport = .udp
  · rw [if_pos hu]
    exact .failureUdp h3 hs hu
  · rw [if_neg hu]
    exact .failureReliable h3 hs hu

theorem receiveResponse_trans (t : InviteClientTransaction) (r : Response) :
    ResponseTrans t r (t.receiveResponse r).2 (t.receiveResponse r).1 := by
  by_cases h1 : r.statusCode < 200
  · rw [receiveResponse, if_pos h1]
    split
    · rename_i hs
      dsimp only [cancelTimer]
      split
      · exact .firstProvisionalCanceled h1 hs ‹_›
      · exact .firstProvisional h1 hs ‹_›
    · exact .provisional h1 ‹_›
    · rename_i hc hp
      exact .ignored (by cases hs : t.state <;> simp_all)
  · rw [receiveResponse, if_neg h1]
    by_cases h3 : 300 ≤ r.statusCode
    · rw [if_pos h3]
      split
      · exact receiveFailure_trans h3 (.inl ‹_›)
      · exact receiveFailure_trans h3 (.inr ‹_›)
      · exact .failureAgain h3 ‹_›
      · exact .ignored (by simp [*])
      · exact .ignored (by simp [*])
    · rw [if_neg h3]
      have h2 : 200 ≤ r.statusCode := by omega
      have h3' : r.statusCode < 300 := by omega
      split
      · exact .success h2 h3' (.inl ‹_›)
      · exact .success h2 h3' (.inr ‹_›)
      · exact .successAgain h2 h3' ‹_›
      · exact .ignored (by simp [*])
      · exact .ignored (by simp [*])

/-- The paths of an event. `t` is the transaction with the clock set. -/
inductive Trans (t : InviteClientTransaction) :
    Event → List Out → InviteClientTransaction → Prop
  | expire {x : Armed IctTimer} {rest : TimerQueue IctTimer} {o : List Out}
      {t' : InviteClientTransaction} :
      t.timers.pop = some (x, rest) → x.due ≤ t.now →
      ExpireTrans { t with timers := rest } x.key o t' → Trans t .expire o t'
  | response {r : Response} {o : List Out} {t' : InviteClientTransaction} :
      t.stored = true → t.sent = true → ResponseTrans t r o t' → Trans t (.response r) o t'
  | cancelRefused : t.stored = true → t.state ≠ .terminated → t.cancelSent = false →
      Trans t .responseToCancel [.raise .noMethodError] (t.cancelTimer .eCancel)
  | cancelAnswered : t.stored = true → t.state ≠ .terminated → t.cancelSent = true →
      Trans t .responseToCancel []
        (((t.cancelTimer .eCancel).cancelTimer .fCancel).arm .afterCancel 4000)
  | cancelLate : t.state = .terminated → Trans t .responseToCancel [] t
  | doCancel {reasons : List String} {o : List Out} {t' : InviteClientTransaction} :
      t.sent = true → CancelTrans t reasons o t' → Trans t (.doCancel reasons) o t'
  | fail {ev : Event} {call : CoreCall} :
      ev = .connectionFailed ∧ call = .connectionFailed ∨
        ev = .tlsValidationFailed ∧ call = .tlsValidationFailed →
      t.state = .calling ∨ t.cancel = none → t.sent = true →
      Trans t ev [.core call] t.cancelABC.terminateTransaction
  | failUnsent {ev : Event} :
      ev = .connectionFailed ∨ ev = .tlsValidationFailed → t.sent = false →
      Trans t ev [.raise .noMethodError] (t.cancelTimer .A)
  | failIgnored {ev : Event} :
      ev = .connectionFailed ∨ ev = .tlsValidationFailed → t.state ≠ .calling → t.cancel ≠ none →
      Trans t ev [] t
  | connected : Trans t .connected [] t

theorem receiveResponseToCancel_trans {t : InviteClientTransaction} (hst : t.stored = true) :
    Trans t .responseToCancel t.receiveResponseToCancel.2 t.receiveResponseToCancel.1 := by
  by_cases hs : t.state = .terminated
  · rw [receiveResponseToCancel, if_pos hs]
    exact .cancelLate hs
  · rw [receiveResponseToCancel, if_neg hs]
    dsimp only
    cases hc : t.cancelSent with
    | true =>
      rw [if_pos (show (t.cancelTimer .eCancel).cancelSent = true from hc)]
      exact .cancelAnswered hst hs hc
    | false =>
      rw [if_neg (show ¬ (t.cancelTimer .eCancel).cancelSent = true by simp [cancelTimer, hc])]
      exact .cancelRefused hst hs hc

theorem fail_trans {t : InviteClientTransaction} {ev : Event} {call : CoreCall}
    (h : ev = .connectionFailed ∧ call = .connectionFailed ∨
      ev = .tlsValidationFailed ∧ call = .tlsValidationFailed) :
    Trans t ev (t.fail call).2 (t.fail call).1 := by
  have hev : ev = .connectionFailed ∨ ev = .tlsValidationFailed := h.imp And.left And.left
  by_cases hs : t.state = .calling ∨ t.cancel = none
  · rw [InviteClientTransaction.fail, if_pos hs]
    cases hsent : t.sent with
    | true => exact .fail h hs hsent
    | false => exact .failUnsent hev hsent
  · rw [InviteClientTransaction.fail, if_neg hs]
    rw [not_or] at hs
    exact .failIgnored hev hs.1 hs.2

/-! ## The invariant -/

attribute [simp] arm cancelTimer cancelABC terminateTransaction startTimerA startTimerB startTimerC
  startTimerD startTimerM startTimerECancel startTimerFCancel sendAck

/-- The timers, the table entry and `@cancel` agree with `@state`. -/
structure Wf (t : InviteClientTransaction) : Prop where
  stored_iff : t.stored = true ↔ t.state ≠ .terminated
  unsent : t.sent = false → t.timers = [] ∧ t.state = .calling
  hasA : t.timers.Has .A → t.state = .calling
  hasB : t.timers.Has .B → t.state = .calling
  hasD : t.timers.Has .D → t.state = .completed ∨ t.state = .terminated
  hasM : t.timers.Has .M → t.state = .accepted ∨ t.state = .terminated
  calling : t.state = .calling → t.cancelSent = false
  waiting : t.sent = true → t.cancel = none → t.state = .calling ∨ t.state = .proceeding →
    t.timers.Has .C
  canceled : t.state = .proceeding → t.cancel ≠ none →
    t.cancelSent = true ∧ (t.timers.Has .fCancel ∨ t.timers.Has .afterCancel)
  completed : t.state = .completed → t.timers.Has .D
  accepted : t.state = .accepted → t.timers.Has .M
  notCanceled : t.cancel = none → t.cancelSent = false
  cancelTimers : t.cancelSent = false →
    ¬ t.timers.Has .eCancel ∧ ¬ t.timers.Has .fCancel ∧ ¬ t.timers.Has .afterCancel
  oneB : AtMostOne .B t.timers

/-- A terminated transaction has few obligations left. -/
theorem Wf.of_terminated {t : InviteClientTransaction} (hs : t.state = .terminated)
    (hst : t.stored = false) (hsent : t.sent = true) (hA : ¬ t.timers.Has .A)
    (hB : ¬ t.timers.Has .B) (hc : t.cancel = none → t.cancelSent = false)
    (hct : t.cancelSent = false →
      ¬ t.timers.Has .eCancel ∧ ¬ t.timers.Has .fCancel ∧ ¬ t.timers.Has .afterCancel) : t.Wf := by
  constructor <;> simp_all [AtMostOne.of_not_has]

theorem Wf.response {t t' : InviteClientTransaction} {r : Response} {o : List Out} (h : t.Wf)
    (hsent : t.sent = true) (hr : ResponseTrans t r o t') : t'.Wf := by
  obtain ⟨h1, h2, h3, h4, h5, h6, h7, h8, h9, h10, h11, h12, h13, h14⟩ := h
  cases hr with
  | firstProvisional _ hs hc => constructor <;> simp_all [AtMostOne.cancel]
  | firstProvisionalCanceled _ hs hc =>
    by_cases hu : t.transport = .udp
    · constructor <;> simp_all [InviteClientTransaction.sendCancel, AtMostOne.cancel]
    · constructor <;> simp_all [InviteClientTransaction.sendCancel, AtMostOne.cancel]
  | provisional _ hs => constructor <;> simp_all
  | failureUdp _ hs _ => rcases hs with hs | hs <;> constructor <;> simp_all [AtMostOne.of_not_has]
  | failureReliable _ hs _ => rcases hs with hs | hs <;> constructor <;> simp_all [AtMostOne.of_not_has]
  | failureAgain _ hs => constructor <;> simp_all
  | success _ _ hs => rcases hs with hs | hs <;> constructor <;> simp_all [AtMostOne.of_not_has]
  | successAgain _ _ hs => constructor <;> simp_all
  | ignored hs => constructor <;> simp_all

theorem Wf.cancelTrans {t t' : InviteClientTransaction} {reasons : List String} {o : List Out}
    (h : t.Wf) (hsent : t.sent = true) (hr : CancelTrans t reasons o t') : t'.Wf := by
  cases hr with
  | again hc => exact h
  | wait hc hs =>
    obtain ⟨h1, h2, h3, h4, h5, h6, h7, h8, h9, h10, h11, h12, h13, h14⟩ := h
    constructor <;> simp_all
  | send hc hs =>
    obtain ⟨h1, h2, h3, h4, h5, h6, h7, h8, h9, h10, h11, h12, h13, h14⟩ := h
    by_cases hu : t.transport = .udp
    · constructor <;> simp_all [InviteClientTransaction.sendCancel]
    · constructor <;> simp_all [InviteClientTransaction.sendCancel]

/-- Timer C cancels the CANCELed transaction, without the other timers of `send_request`. -/
theorem Wf.timerC {t t' : InviteClientTransaction} {rest : TimerQueue IctTimer} {o : List Out}
    (h : t.Wf) (hsent : t.sent = true) (hsub : ∀ k, Has rest k → t.timers.Has k)
    (hkeep : ∀ k, t.timers.Has k → k ≠ .C → Has rest k) (hrest : rest.Sublist t.timers)
    (hr : CancelTrans (({ t with timers := rest }.cancelTimer .A).cancelTimer .B) [] o t') :
    t'.Wf := by
  have hB : AtMostOne .B rest := h.oneB.sublist hrest
  have hsub' := fun k (hk : Has rest k) => hsub k hk
  obtain ⟨h1, h2, h3, h4, h5, h6, h7, h8, h9, h10, h11, h12, h13, h14⟩ := h
  have hct : t.cancelSent = false →
      ¬ Has rest .eCancel ∧ ¬ Has rest .fCancel ∧ ¬ Has rest .afterCancel := fun hs =>
    ⟨fun hk => (h13 hs).1 (hsub _ hk), fun hk => (h13 hs).2.1 (hsub _ hk),
      fun hk => (h13 hs).2.2 (hsub _ hk)⟩
  have hD : Has rest .D → t.state = .completed ∨ t.state = .terminated := fun hk => h5 (hsub _ hk)
  have hM : Has rest .M → t.state = .accepted ∨ t.state = .terminated := fun hk => h6 (hsub _ hk)
  have hcompleted : t.state = .completed → Has rest .D := fun hs => hkeep _ (h10 hs) (by simp)
  have haccepted : t.state = .accepted → Has rest .M := fun hs => hkeep _ (h11 hs) (by simp)
  have hcanceled : t.state = .proceeding → t.cancel ≠ none →
      t.cancelSent = true ∧ (Has rest .fCancel ∨ Has rest .afterCancel) := fun hs hc =>
    ⟨(h9 hs hc).1, (h9 hs hc).2.imp (hkeep _ · (by simp)) (hkeep _ · (by simp))⟩
  clear h2 h3 h4 h5 h6 h8 h9 h10 h11 h13 h14 hsub hkeep hsub'
  cases hr with
  | again hc => constructor <;> simp_all [AtMostOne.cancel]
  | wait hc hs => constructor <;> simp_all [AtMostOne.cancel]
  | send hc hs =>
    by_cases hu : t.transport = .udp
    · constructor <;> simp_all [InviteClientTransaction.sendCancel, AtMostOne.cancel]
    · constructor <;> simp_all [InviteClientTransaction.sendCancel, AtMostOne.cancel]

theorem Wf.sent_of_pop {t : InviteClientTransaction} {x : Armed IctTimer}
    {rest : TimerQueue IctTimer} (h : t.Wf) (hpop : t.timers.pop = some (x, rest)) :
    t.sent = true := by
  by_contra hs
  have hnil := (h.unsent (by simpa using hs)).1
  rw [hnil] at hpop
  cases hpop

theorem Wf.expire {t t' : InviteClientTransaction} {x : Armed IctTimer}
    {rest : TimerQueue IctTimer} {o : List Out} (h : t.Wf) (hpop : t.timers.pop = some (x, rest))
    (hr : ExpireTrans { t with timers := rest } x.key o t') : t'.Wf := by
  have hsub : ∀ k, Has rest k → t.timers.Has k := fun k hk => hk.of_pop hpop
  have hkeep : ∀ k, t.timers.Has k → x.key ≠ k → Has rest k := fun k hk => hk.pop hpop
  have hx : t.timers.Has x.key := .of_mem (pop_mem hpop)
  have hsent : t.sent = true := h.sent_of_pop hpop
  have hrest : rest.Sublist t.timers := pop_sublist hpop
  have hB : AtMostOne .B rest := h.oneB.sublist hrest
  have hB' : x.key = .B → ¬ Has rest .B := fun hk => by
    have := AtMostOne.pop (x := x) (hk ▸ h.oneB) hpop
    rwa [hk] at this
  have hct : t.cancelSent = false →
      ¬ Has rest .eCancel ∧ ¬ Has rest .fCancel ∧ ¬ Has rest .afterCancel := fun hs =>
    ⟨fun hk => (h.cancelTimers hs).1 (hsub _ hk), fun hk => (h.cancelTimers hs).2.1 (hsub _ hk),
      fun hk => (h.cancelTimers hs).2.2 (hsub _ hk)⟩
  have hnotCalling : t.state ≠ .calling → ¬ Has rest .A ∧ ¬ Has rest .B := fun hs =>
    ⟨fun hk => hs (h.hasA (hsub _ hk)), fun hk => hs (h.hasB (hsub _ hk))⟩
  have hcanceling : t.timers.Has .fCancel ∨ t.timers.Has .afterCancel → t.state ≠ .calling := by
    intro hk hs
    have hno := h.cancelTimers (h.calling hs)
    exact hk.elim hno.2.1 hno.2.2
  generalize x.key = k at hr hkeep hx hB'
  cases hr with
  | retransmit =>
    have hs := h.hasA hx
    have hC := h.waiting hsent
    obtain ⟨h1, h2, h3, h4, h5, h6, h7, h8, h9, h10, h11, h12, h13, h14⟩ := h
    have hD : ¬ Has rest .D := fun hk => by simpa [hs] using h5 (hsub _ hk)
    have hM : ¬ Has rest .M := fun hk => by simpa [hs] using h6 (hsub _ hk)
    have hC' : t.cancel = none → Has rest .C := fun hc => hkeep _ (hC hc (.inl hs)) (by simp)
    clear hC h2 h3 h4 h5 h6 h8 h9 h10 h11 h13 h14 hsub hkeep hnotCalling hcanceling
    constructor <;> simp_all
  | timeout =>
    refine .of_terminated rfl rfl hsent (by simp) (by simp [hB' rfl]) h.notCanceled ?_
    intro hs
    simp [hct hs]
  | timerC hr => exact h.timerC hsent hsub (fun k hk hne => hkeep k hk hne.symm) hrest hr
  | finish hk =>
    have hs : t.state ≠ .calling := by
      rcases hk with rfl | rfl | rfl
      · rcases h.hasD hx with hs | hs <;> simp [hs]
      · rcases h.hasM hx with hs | hs <;> simp [hs]
      · exact hcanceling (.inr hx)
    exact .of_terminated rfl rfl hsent (hnotCalling hs).1 (hnotCalling hs).2 h.notCanceled hct
  | retransmitCancel =>
    have hcs : t.cancelSent = true := by
      by_contra hs
      exact (h.cancelTimers (by simpa using hs)).1 hx
    have hs : t.state ≠ .calling := fun hs => by simp [h.calling hs] at hcs
    have hC : t.cancel = none → t.state = .calling ∨ t.state = .proceeding → Has rest .C :=
      fun hc hs => hkeep _ (h.waiting hsent hc hs) (by simp)
    obtain ⟨h1, h2, h3, h4, h5, h6, h7, h8, h9, h10, h11, h12, h13, h14⟩ := h
    have hD : Has rest .D → t.state = .completed ∨ t.state = .terminated := fun hk => h5 (hsub _ hk)
    have hM : Has rest .M → t.state = .accepted ∨ t.state = .terminated := fun hk => h6 (hsub _ hk)
    have hends : t.state = .proceeding → t.cancel ≠ none →
        Has rest .fCancel ∨ Has rest .afterCancel := fun hs hc =>
      (h9 hs hc).2.imp (hkeep _ · (by simp)) (hkeep _ · (by simp))
    have hD' : t.state = .completed → Has rest .D := fun hs => hkeep _ (h10 hs) (by simp)
    have hM' : t.state = .accepted → Has rest .M := fun hs => hkeep _ (h11 hs) (by simp)
    clear h2 h3 h4 h5 h6 h8 h9 h10 h11 h13 h14 hsub hkeep hcanceling
    constructor <;> simp_all
  | giveUpCancel hs =>
    have hs' := hcanceling (.inl hx)
    refine .of_terminated rfl rfl hsent ?_ ?_ h.notCanceled ?_
    · simp [hnotCalling hs']
    · simp [hnotCalling hs']
    · intro hcs
      simp [hct hcs]
  | lateF hs =>
    have hst : t.stored = false := by
      by_contra hst
      exact h.stored_iff.mp (by simpa using hst) hs
    have hs' : t.state ≠ .calling := by simp [show t.state = .terminated from hs]
    exact .of_terminated hs hst hsent (hnotCalling hs').1 (hnotCalling hs').2 h.notCanceled hct

theorem Wf.trans {t t' : InviteClientTransaction} {ev : Event} {o : List Out} (h : t.Wf)
    (ht : Trans t ev o t') : t'.Wf := by
  cases ht with
  | expire hpop _ hr => exact h.expire hpop hr
  | response _ hsent hr => exact h.response hsent hr
  | cancelRefused _ hs hcs =>
    obtain ⟨h1, h2, h3, h4, h5, h6, h7, h8, h9, h10, h11, h12, h13, h14⟩ := h
    constructor <;> simp_all [AtMostOne.cancel]
    simp [TimerQueue.cancel]
  | cancelAnswered _ hs hcs =>
    obtain ⟨h1, h2, h3, h4, h5, h6, h7, h8, h9, h10, h11, h12, h13, h14⟩ := h
    have hsent : t.sent = true := by
      by_contra hsent
      simp_all
    constructor <;> simp_all [AtMostOne.cancel]
  | cancelLate hs => exact h
  | doCancel hsent hr => exact h.cancelTrans hsent hr
  | fail _ _ hsent =>
    refine .of_terminated rfl rfl hsent (by simp) (by simp) h.notCanceled ?_
    intro hcs
    simp [h.cancelTimers hcs]
  | failUnsent _ hsent =>
    obtain ⟨h1, h2, h3, h4, h5, h6, h7, h8, h9, h10, h11, h12, h13, h14⟩ := h
    constructor <;> simp_all [TimerQueue.cancel]
  | failIgnored _ _ _ => exact h
  | connected => exact h

/-! ## What no event changes -/

@[simp] theorem sendCancel_conf (t : InviteClientTransaction) (c : Cancel) :
    (t.sendCancel c).1.conf = t.conf := by
  unfold InviteClientTransaction.sendCancel
  by_cases hu : t.transport = .udp <;> simp [hu]

@[simp] theorem sendCancel_transport (t : InviteClientTransaction) (c : Cancel) :
    (t.sendCancel c).1.transport = t.transport := by
  unfold InviteClientTransaction.sendCancel
  by_cases hu : t.transport = .udp <;> simp [hu]

@[simp] theorem sendCancel_state (t : InviteClientTransaction) (c : Cancel) :
    (t.sendCancel c).1.state = t.state := by
  unfold InviteClientTransaction.sendCancel
  by_cases hu : t.transport = .udp <;> simp [hu]

@[simp] theorem sendCancel_stored (t : InviteClientTransaction) (c : Cancel) :
    (t.sendCancel c).1.stored = t.stored := by
  unfold InviteClientTransaction.sendCancel
  by_cases hu : t.transport = .udp <;> simp [hu]

@[simp] theorem sendCancel_now (t : InviteClientTransaction) (c : Cancel) :
    (t.sendCancel c).1.now = t.now := by
  unfold InviteClientTransaction.sendCancel
  by_cases hu : t.transport = .udp <;> simp [hu]

theorem CancelTrans.state_eq {t t' : InviteClientTransaction} {reasons : List String}
    {o : List Out} (h : CancelTrans t reasons o t') : t'.state = t.state := by
  cases h <;> simp

@[simp] theorem sendCancel_sent (t : InviteClientTransaction) (c : Cancel) :
    (t.sendCancel c).1.sent = t.sent := by
  unfold InviteClientTransaction.sendCancel
  by_cases hu : t.transport = .udp <;> simp [hu]

theorem sendCancel_timers (t : InviteClientTransaction) (c : Cancel) :
    (t.sendCancel c).1.timers =
      (if t.transport = .udp then t.timers.arm .eCancel (t.now + TIMER_E) else t.timers).arm
        .fCancel (t.now + t.conf.timerFms) := by
  unfold InviteClientTransaction.sendCancel
  by_cases hu : t.transport = .udp <;> simp [hu]

theorem CancelTrans.stored_eq {t t' : InviteClientTransaction} {reasons : List String}
    {o : List Out} (h : CancelTrans t reasons o t') : t'.stored = t.stored := by
  cases h <;> simp

/-- `t'` is a later state of the same transaction, at the same clock. -/
structure Same (t t' : InviteClientTransaction) : Prop where
  conf : t'.conf = t.conf
  transport : t'.transport = t.transport
  sent : t'.sent = t.sent
  now : t'.now = t.now

theorem CancelTrans.same {t t' : InviteClientTransaction} {reasons : List String}
    {o : List Out} (h : CancelTrans t reasons o t') : Same t t' := by
  cases h <;> constructor <;> simp

theorem Trans.same {t t' : InviteClientTransaction} {ev : Event} {o : List Out}
    (h : Trans t ev o t') : Same t t' := by
  cases h with
  | @expire x _ _ _ _ _ hr =>
    generalize x.key = k at hr
    cases hr with
    | timerC hr => exact ⟨hr.same.conf, hr.same.transport, hr.same.sent, hr.same.now⟩
    | _ => constructor <;> simp
  | response _ _ hr => cases hr <;> constructor <;> simp
  | doCancel _ hr => exact hr.same
  | _ => constructor <;> simp

/-- Every response to the INVITE ends `:calling`. -/
theorem Trans.calling_of {t t' : InviteClientTransaction} {ev : Event} {o : List Out}
    (h : Trans t ev o t') (hs : t'.state = .calling) :
    t.state = .calling ∧ ∀ r, ev ≠ .response r := by
  cases h with
  | @expire x _ _ _ _ _ hr =>
    generalize x.key = k at hr
    cases hr with
    | timerC hr => exact ⟨by simpa [hr.state_eq] using hs, by simp⟩
    | _ => simp_all
  | response _ _ hr => cases hr <;> simp_all
  | doCancel _ hr => exact ⟨by rwa [hr.state_eq] at hs, by simp⟩
  | fail _ _ _ => simp at hs
  | failUnsent hev _ => exact ⟨hs, by rintro r rfl; simp at hev⟩
  | failIgnored hev _ _ => exact ⟨hs, by rintro r rfl; simp at hev⟩
  | _ => simp_all

theorem Wf.withNow {t : InviteClientTransaction} (h : t.Wf) (now : Nat) :
    { t with now := now }.Wf := by
  obtain ⟨h1, h2, h3, h4, h5, h6, h7, h8, h9, h10, h11, h12, h13, h14⟩ := h
  constructor <;> assumption

theorem Wf.start (request : Request) (conf : TransactionConf) (transport : Transport)
    (topVia : String) (now : Nat) :
    (new request conf transport topVia now).sendRequest.1.Wf := by
  by_cases hu : request.uac = true
  · constructor <;> simp_all [new, sendRequest, AtMostOne.of_not_has]
  · by_cases hudp : transport = .udp
    · constructor <;> simp_all [new, sendRequest, AtMostOne.of_not_has]
    · constructor <;> simp_all [new, sendRequest, AtMostOne.of_not_has]

end InviteClientTransaction

/-! ## Runs -/

namespace IctSystem

open InviteClientTransaction

theorem handle_trans {s s' : IctSystem} {ev : Event} {o : List Out}
    (h : s.handle ev = some (s', o)) : Trans s.ict ev o s'.ict := by
  cases ev with
  | expire =>
    rw [handle] at h
    split at h
    · rename_i x rest hpop
      split_ifs at h with hdue
      obtain ⟨rfl, rfl⟩ := Prod.mk.inj (Option.some.inj h)
      exact .expire hpop hdue (expire_trans _ _)
    · cases h
  | response r =>
    rw [handle] at h
    split_ifs at h with hguard
    obtain ⟨rfl, rfl⟩ := Prod.mk.inj (Option.some.inj h)
    exact .response hguard.1 hguard.2 (receiveResponse_trans _ _)
  | responseToCancel =>
    rw [handle] at h
    split_ifs at h with hguard
    obtain ⟨rfl, rfl⟩ := Prod.mk.inj (Option.some.inj h)
    exact receiveResponseToCancel_trans hguard.1
  | doCancel reasons =>
    rw [handle] at h
    split_ifs at h with hguard
    obtain ⟨rfl, rfl⟩ := Prod.mk.inj (Option.some.inj h)
    exact .doCancel hguard (doCancel_trans _ _)
  | connectionFailed =>
    rw [handle] at h
    split_ifs at h with hguard
    obtain ⟨rfl, rfl⟩ := Prod.mk.inj (Option.some.inj h)
    exact fail_trans (.inl ⟨rfl, rfl⟩)
  | tlsValidationFailed =>
    rw [handle] at h
    split_ifs at h with hguard
    obtain ⟨rfl, rfl⟩ := Prod.mk.inj (Option.some.inj h)
    exact fail_trans (.inr ⟨rfl, rfl⟩)
  | connected =>
    rw [handle] at h
    split_ifs at h with hguard
    obtain ⟨rfl, rfl⟩ := Prod.mk.inj (Option.some.inj h)
    exact .connected

/-- A step sets the clock and then runs a handler. -/
theorem step_trans {s s' : IctSystem} {e : TimedEvent Event} {o : List Out}
    (h : s.step e = some (s', o)) :
    s.ict.now ≤ e.time ∧ Trans { s.ict with now := e.time } e.ev o s'.ict := by
  rw [step] at h
  split_ifs at h with hnow
  exact ⟨hnow, handle_trans h⟩

/-- The invariant holds in every state of every run. -/
theorem wf_of_run {request : Request} {conf : TransactionConf} {transport : Transport}
    {topVia : String} {newConnection : Bool} {now : Nat}
    {tr : List (StepRec IctSystem (TimedEvent Event) Out)} {s : IctSystem}
    (h : Run step (start request conf transport topVia newConnection now) tr s) : s.ict.Wf := by
  refine Run.stateInvariant (I := fun s => s.ict.Wf) (Wf.start ..) ?_ h
  intro s e s' o hs hstep
  exact (hs.withNow e.time).trans (step_trans hstep).2

section
variable (request : Request) (conf : TransactionConf) (transport : Transport) (topVia : String)
  (newConnection : Bool) (now : Nat)

@[simp] theorem start_state :
    (start request conf transport topVia newConnection now).ict.state = .calling := by
  by_cases hu : request.uac = true
  · simp [start, new, sendRequest, hu]
  · by_cases hudp : transport = .udp <;> simp [start, new, sendRequest, hu, hudp]

@[simp] theorem start_cancel :
    (start request conf transport topVia newConnection now).ict.cancel = none := by
  by_cases hu : request.uac = true
  · simp [start, new, sendRequest, hu]
  · by_cases hudp : transport = .udp <;> simp [start, new, sendRequest, hu, hudp]

@[simp] theorem start_cancelSent :
    (start request conf transport topVia newConnection now).ict.cancelSent = false := by
  by_cases hu : request.uac = true
  · simp [start, new, sendRequest, hu]
  · by_cases hudp : transport = .udp <;> simp [start, new, sendRequest, hu, hudp]

end

/-- What a run keeps of its start. -/
structure Kept (request : Request) (conf : TransactionConf) (transport : Transport)
    (s : IctSystem) : Prop where
  conf : s.ict.conf = conf
  transport : s.ict.transport = transport
  sent : s.ict.sent = !request.uac

theorem kept_of_run {request : Request} {conf : TransactionConf} {transport : Transport}
    {topVia : String} {newConnection : Bool} {now : Nat}
    {tr : List (StepRec IctSystem (TimedEvent Event) Out)} {s : IctSystem}
    (h : Run step (start request conf transport topVia newConnection now) tr s) :
    Kept request conf transport s := by
  refine Run.stateInvariant (I := Kept request conf transport) ?_ ?_ h
  · by_cases hu : request.uac = true
    · constructor <;> simp [start, new, sendRequest, hu]
    · by_cases hudp : transport = .udp <;> constructor <;>
        simp [start, new, sendRequest, hu, hudp]
  · intro s e s' o hk hstep
    have hsame := (step_trans hstep).2.same
    exact ⟨hsame.conf.trans hk.conf, hsame.transport.trans hk.transport, hsame.sent.trans hk.sent⟩

end IctSystem

end OverSip
