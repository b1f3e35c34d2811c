import OverSip.Lib.History
import OverSip.Sip.InviteClientTransactionTheorems
import OverSip.Sip.NonInviteClientTransactionTheorems

/-!
# Retransmissions end with their transaction

Timer A and the two E timers are periodic: only a `cancel` ends them. Timer E of a CANCEL is canceled
by the block of timer F, but not when the transaction is `:terminated` by then. Over UDP, timers D and
M terminate 32 s after the final response, so they come before a timer F that is longer than 32 s and
was started earlier, and the CANCEL is sent every 4 s for ever.

`Quiet` is the invariant of the configurations where this cannot happen: while the CANCEL is being
retransmitted its timer F is armed, and it runs before D and M.
-/

namespace OverSip

namespace InviteClientTransaction

open TimerQueue

/-- While timer E of the CANCEL is armed, so is its timer F, and F runs before D and M. -/
structure Quiet (t : InviteClientTransaction) : Prop where
  retransmitting : t.timers.Has .eCancel →
    t.transport = .udp ∧ t.timers.Has .fCancel ∧ t.state ≠ .terminated
  answered : t.timers.Has .afterCancel → ¬ t.timers.Has .eCancel
  due : ∀ x ∈ t.timers, x.key = .fCancel → x.due ≤ t.now + t.conf.timerFms
  order : t.transport = .udp → Before (· = .fCancel) (fun k => k = .D ∨ k = .M) t.timers

/-- Timer F of a CANCEL is not longer than timers D and M, or it does not matter. -/
def ShortF (transport : Transport) (conf : TransactionConf) : Prop :=
  transport = .udp → conf.timerFms ≤ TIMER_D_UDP

/-- Fewer timers are armed, and timer E only with timer F. -/
theorem Quiet.of_sublist {t t' : InviteClientTransaction} (h : t.Quiet)
    (hsub : t'.timers.Sublist t.timers) (hconf : t'.conf = t.conf)
    (htransport : t'.transport = t.transport) (hnow : t'.now = t.now)
    (hE : t'.timers.Has .eCancel → t'.timers.Has .fCancel ∧ t'.state ≠ .terminated) :
    t'.Quiet := by
  have hhas : ∀ k, t'.timers.Has k → t.timers.Has k := by
    intro k ⟨x, hx, hk⟩
    exact ⟨x, hsub.subset hx, hk⟩
  constructor
  · intro he
    exact ⟨htransport ▸ (h.retransmitting (hhas _ he)).1, hE he⟩
  · intro ha he
    exact h.answered (hhas _ ha) (hhas _ he)
  · intro x hx hk
    rw [hconf, hnow]
    exact h.due x (hsub.subset hx) hk
  · intro hu
    exact (h.order (htransport ▸ hu)).sublist hsub

/-- Arming something that is neither of the three. -/
theorem Quiet.arm_other {t t' : InviteClientTransaction} {k : IctTimer} {due : Nat} (h : t.Quiet)
    (htimers : t'.timers = t.timers.arm k due) (hconf : t'.conf = t.conf)
    (htransport : t'.transport = t.transport) (hnow : t'.now = t.now)
    (hstate : t'.state = .terminated → t.state = .terminated)
    (hk : k ≠ .fCancel ∧ k ≠ .D ∧ k ≠ .M)
    (hE : k = .eCancel → t.timers.Has .fCancel ∧ ¬ t.timers.Has .afterCancel ∧
      t.transport = .udp ∧ t.state ≠ .terminated)
    (hafter : k = .afterCancel → ¬ t.timers.Has .eCancel) : t'.Quiet := by
  have hret := h.retransmitting
  have hans := h.answered
  constructor
  · intro he
    rw [htimers, has_arm] at he
    rw [htransport, htimers, has_arm]
    rcases he with he | hke
    · exact ⟨(hret he).1, .inl (hret he).2.1, fun hs => (hret he).2.2 (hstate hs)⟩
    · obtain ⟨hF, _, hu, hs⟩ := hE hke
      exact ⟨hu, .inl hF, fun hs' => hs (hstate hs')⟩
  · intro ha he
    rw [htimers, has_arm] at ha he
    rcases ha with ha | ha <;> rcases he with he | he
    · exact hans ha he
    · exact (hE he).2.1 ha
    · exact hafter ha he
    · rw [ha] at he
      cases he
  · intro x hx hkey
    rw [htimers, mem_arm] at hx
    rw [hconf, hnow]
    rcases hx with hx | rfl
    · exact h.due x hx hkey
    · exact absurd hkey hk.1
  · intro hu
    rw [htimers]
    refine (h.order (htransport ▸ hu)).arm (fun hF => absurd hF hk.1) ?_
    intro hDM
    exact absurd hDM (not_or.mpr hk.2)

/-- Timers D and M take 32 s, so a short timer F that is armed already comes first. -/
theorem Quiet.arm_last {t t' : InviteClientTransaction} {k : IctTimer} (h : t.Quiet)
    (hshort : ShortF t.transport t.conf) (htimers : t'.timers = t.timers.arm k (t.now + TIMER_D_UDP))
    (hconf : t'.conf = t.conf) (htransport : t'.transport = t.transport) (hnow : t'.now = t.now)
    (hstate : t'.state ≠ .terminated) (hk : k = .D ∨ k = .M) : t'.Quiet := by
  have hkF : k ≠ .fCancel := by rcases hk with rfl | rfl <;> simp
  constructor
  · intro he
    rw [htimers, has_arm] at he
    rw [htransport, htimers, has_arm]
    have he' : t.timers.Has .eCancel := by
      rcases he with he | rfl
      · exact he
      · simp at hk
    exact ⟨(h.retransmitting he').1, .inl (h.retransmitting he').2.1, hstate⟩
  · intro ha he
    rw [htimers, has_arm] at ha he
    rcases ha with ha | rfl
    · rcases he with he | rfl
      · exact h.answered ha he
      · simp at hk
    · simp at hk
  · intro x hx hkey
    rw [htimers, mem_arm] at hx
    rw [hconf, hnow]
    rcases hx with hx | rfl
    · exact h.due x hx hkey
    · exact absurd hkey hkF
  · intro hu
    rw [htransport] at hu
    rw [htimers]
    refine (h.order hu).arm (fun hF => absurd hF hkF) ?_
    intro _ x hx hF
    have hdue := h.due x hx hF
    have hle := hshort hu
    omega

/-- `send_cancel` while none of the timers it starts is armed and no final response has come. -/
theorem Quiet.sendCancel {t : InviteClientTransaction} (h : t.Quiet) (c : Cancel)
    (hstate : t.state ≠ .terminated) (hnone : ¬ t.timers.Has .afterCancel)
    (hD : ¬ t.timers.Has .D) (hM : ¬ t.timers.Has .M) : (t.sendCancel c).1.Quiet := by
  have htimers := sendCancel_timers t c
  constructor
  · intro he
    rw [sendCancel_transport, sendCancel_state]
    by_cases hu : t.transport = .udp
    · exact ⟨hu, by rw [htimers, has_arm]; exact .inr rfl, hstate⟩
    · rw [htimers, if_neg hu, has_arm] at he
      rcases he with he | he
      · exact absurd (h.retransmitting he).1 hu
      · cases he
  · intro ha he
    rw [htimers, has_arm] at ha
    by_cases hu : t.transport = .udp <;> simp [hu, hnone] at ha
  · intro x hx hkey
    rw [htimers, mem_arm] at hx
    rw [sendCancel_conf, sendCancel_now]
    rcases hx with hx | rfl
    · by_cases hu : t.transport = .udp
      · rw [if_pos hu, mem_arm] at hx
        rcases hx with hx | rfl
        · exact h.due x hx hkey
        · cases hkey
      · rw [if_neg hu] at hx
        exact h.due x hx hkey
    · exact Nat.le_refl _
  · intro hu
    rw [sendCancel_transport] at hu
    rw [htimers, if_pos hu]
    have hE : Before (· = .fCancel) (fun k => k = .D ∨ k = .M)
        (t.timers.arm .eCancel (t.now + TIMER_E)) := (h.order hu).arm (by simp) (by simp)
    refine hE.arm ?_ (by simp)
    intro _ x hx
    rw [mem_arm] at hx
    rcases hx with hx | rfl
    · rintro (hk | hk)
      · exact hD ⟨x, hx, hk⟩
      · exact hM ⟨x, hx, hk⟩
    · simp

/-- The handlers of CANCEL, for a transaction that keeps `Quiet`. -/
theorem Quiet.cancelTrans {t t' : InviteClientTransaction} {reasons : List String} {o : List Out}
    (h : t.Quiet) (hD : t.timers.Has .D → t.state ≠ .proceeding)
    (hM : t.timers.Has .M → t.state ≠ .proceeding)
    (hafter : t.cancel = none → ¬ t.timers.Has .afterCancel)
    (hr : CancelTrans t reasons o t') : t'.Quiet := by
  cases hr with
  | again _ => exact h
  | wait _ _ =>
    exact h.of_sublist (List.Sublist.refl _) rfl rfl rfl fun he => (h.retransmitting he).2
  | send hc hs =>
    have h' : { t with cancel := some (t.buildCancel reasons) }.Quiet :=
      h.of_sublist (List.Sublist.refl _) rfl rfl rfl fun he => (h.retransmitting he).2
    refine h'.sendCancel _ ?_ (hafter hc) (fun hd => hD hd hs) (fun hm => hM hm hs)
    simp [hs]

theorem Quiet.withNow {t : InviteClientTransaction} (h : t.Quiet) {now : Nat} (hnow : t.now ≤ now) :
    { t with now := now }.Quiet := by
  refine ⟨h.retransmitting, h.answered, ?_, h.order⟩
  intro x hx hkey
  have hdue := h.due x hx hkey
  show x.due ≤ now + t.conf.timerFms
  omega

theorem Quiet.response {t t' : InviteClientTransaction} {r : Response} {o : List Out}
    (h : t.Quiet) (hw : t.Wf) (hshort : ShortF t.transport t.conf) (hr : ResponseTrans t r o t') :
    t'.Quiet := by
  have hABC : ((t.timers.cancel .A).cancel .B).cancel .C |>.Sublist t.timers :=
    ((cancel_sublist _ _).trans (cancel_sublist _ _)).trans (cancel_sublist _ _)
  have hAB : (t.timers.cancel .A).cancel .B |>.Sublist t.timers :=
    (cancel_sublist _ _).trans (cancel_sublist _ _)
  have hfirst : t.state = .calling →
      ((({ t with state := .proceeding }.cancelTimer .A).cancelTimer .B)).Quiet := by
    intro hs
    refine h.of_sublist hAB rfl rfl rfl fun he => ?_
    simp only [cancelTimer, has_cancel] at he ⊢
    exact ⟨by simpa using (h.retransmitting he.1.1).2.1, by simp⟩
  have hfinal : ∀ st : IctState, st ≠ .terminated → ({ t with state := st }.cancelABC).Quiet := by
    intro st hst
    refine h.of_sublist hABC rfl rfl rfl fun he => ?_
    simp only [cancelABC, cancelTimer, has_cancel] at he ⊢
    exact ⟨by simpa using (h.retransmitting he.1.1.1).2.1, hst⟩
  have hack : ∀ {u : InviteClientTransaction}, u.Quiet → (u.sendAck r).1.Quiet := fun hu =>
    hu.of_sublist (List.Sublist.refl _) rfl rfl rfl fun he => (hu.retransmitting he).2
  cases hr with
  | firstProvisional _ hs _ => exact hfirst hs
  | firstProvisionalCanceled _ hs _ =>
    have hno := hw.cancelTimers (hw.calling hs)
    refine (hfirst hs).sendCancel _ (by simp) (by simp [hno]) ?_ ?_
    · intro hd
      have := hw.hasD (by simpa using hd)
      simp [hs] at this
    · intro hm
      have := hw.hasM (by simpa using hm)
      simp [hs] at this
  | provisional _ _ => exact h
  | failureUdp _ _ _ =>
    apply hack
    exact (hfinal .completed (by simp)).arm_last hshort rfl rfl rfl rfl (by simp) (.inl rfl)
  | failureReliable _ _ hu =>
    apply hack
    refine h.of_sublist hABC rfl rfl rfl fun he => ?_
    have he' : t.timers.Has .eCancel := by simpa using he
    exact absurd (h.retransmitting he').1 hu
  | failureAgain _ _ => exact hack h
  | success _ _ _ =>
    exact (hfinal .accepted (by simp)).arm_last hshort rfl rfl rfl rfl (by simp) (.inr rfl)
  | successAgain _ _ _ => exact h
  | ignored _ => exact h

theorem Quiet.expire {t t' : InviteClientTransaction} {x : Armed IctTimer}
    {rest : TimerQueue IctTimer} {o : List Out} (h : t.Quiet) (hw : t.Wf)
    (hpop : t.timers.pop = some (x, rest)) (hr : ExpireTrans { t with timers := rest } x.key o t') :
    t'.Quiet := by
  have hsub : rest.Sublist t.timers := pop_sublist hpop
  have hhas : ∀ k, Has rest k → t.timers.Has k := fun k hk => hk.of_pop hpop
  have hkeep : ∀ k, t.timers.Has k → x.key ≠ k → Has rest k := fun k hk => hk.pop hpop
  have hx : t.timers.Has x.key := .of_mem (pop_mem hpop)
  -- timers D and M do not run before timer F
  have hlast : x.key = .D ∨ x.key = .M → ¬ t.timers.Has .eCancel := by
    intro hk he
    obtain ⟨hu, ⟨y, hy, hyF⟩, _⟩ := h.retransmitting he
    have hxF : x.key ≠ .fCancel := by rcases hk with hk | hk <;> simp [hk]
    exact (h.order hu).pop hpop ⟨y, hy, hyF⟩ hxF hk
  have hrest : x.key ≠ .fCancel → { t with timers := rest }.Quiet := fun hk =>
    h.of_sublist hsub rfl rfl rfl fun he =>
      ⟨hkeep _ (h.retransmitting (hhas _ he)).2.1 hk, (h.retransmitting (hhas _ he)).2.2⟩
  generalize x.key = k at hr hkeep hx hlast hrest
  cases hr with
  | retransmit =>
    refine (hrest (by simp)).arm_other rfl rfl rfl rfl id (by simp) (by simp) (by simp)
  | timeout =>
    have hno := hw.cancelTimers (hw.calling (hw.hasB hx))
    refine h.of_sublist (((cancel_sublist _ _).trans (cancel_sublist _ _)).trans hsub) rfl rfl rfl ?_
    intro he
    have he' : Has rest .eCancel := by simpa using he
    exact absurd (hhas _ he') hno.1
  | timerC hr =>
    have hAB : (({ t with timers := rest }.cancelTimer .A).cancelTimer .B).Quiet := by
      refine (hrest (by simp)).of_sublist ((cancel_sublist _ _).trans (cancel_sublist _ _))
        rfl rfl rfl fun he => ?_
      have he' : Has rest .eCancel := by simpa using he
      exact ⟨by simpa using ((hrest (by simp)).retransmitting he').2.1,
        ((hrest (by simp)).retransmitting he').2.2⟩
    refine hAB.cancelTrans ?_ ?_ ?_ hr
    · intro hd hs
      have := hw.hasD (hhas _ (by simpa using hd))
      simp [show t.state = .proceeding from hs] at this
    · intro hm hs
      have := hw.hasM (hhas _ (by simpa using hm))
      simp [show t.state = .proceeding from hs] at this
    · intro hc ha
      exact (hw.cancelTimers (hw.notCanceled hc)).2.2 (hhas _ (by simpa using ha))
  | finish hk =>
    refine h.of_sublist hsub rfl rfl rfl fun he => ?_
    rcases hk with rfl | rfl | rfl
    · exact absurd (hhas _ he) (hlast (.inl rfl))
    · exact absurd (hhas _ he) (hlast (.inr rfl))
    · exact absurd (hhas _ he) (h.answered hx)
  | retransmitCancel =>
    obtain ⟨hu, hF, hs⟩ := h.retransmitting hx
    refine (hrest (by simp)).arm_other rfl rfl rfl rfl id (by simp) ?_ (by simp)
    intro _
    exact ⟨hkeep _ hF (by simp), fun ha => h.answered (hhas _ ha) hx, hu, hs⟩
  | giveUpCancel hs =>
    refine h.of_sublist ((cancel_sublist _ _).trans hsub) rfl rfl rfl fun he => ?_
    simp at he
  | lateF hs =>
    refine h.of_sublist hsub rfl rfl rfl fun he => ?_
    exact absurd hs (h.retransmitting (hhas _ he)).2.2

/-- Every event keeps `Quiet`; a connection failure comes to a reliable transport only. -/
theorem Quiet.trans {t t' : InviteClientTransaction} {ev : Event} {o : List Out} (h : t.Quiet)
    (hw : t.Wf) (hshort : ShortF t.transport t.conf)
    (hreliable : ev = .connectionFailed ∨ ev = .tlsValidationFailed → t.transport ≠ .udp)
    (ht : Trans t ev o t') : t'.Quiet := by
  cases ht with
  | expire hpop _ hr => exact h.expire hw hpop hr
  | response _ _ hr => exact h.response hw hshort hr
  | cancelRefused _ _ _ =>
    refine h.of_sublist (cancel_sublist _ _) rfl rfl rfl fun he => ?_
    simp at he
  | cancelAnswered _ _ _ =>
    have h' : ((t.cancelTimer .eCancel).cancelTimer .fCancel).Quiet := by
      refine h.of_sublist ((cancel_sublist _ _).trans (cancel_sublist _ _)) rfl rfl rfl fun he => ?_
      simp at he
    exact h'.arm_other rfl rfl rfl rfl id (by simp) (by simp) (by simp)
  | cancelLate _ => exact h
  | doCancel _ hr =>
    refine h.cancelTrans ?_ ?_ ?_ hr
    · intro hd hs
      have := hw.hasD hd
      simp [hs] at this
    · intro hm hs
      have := hw.hasM hm
      simp [hs] at this
    · intro hc
      exact (hw.cancelTimers (hw.notCanceled hc)).2.2
  | fail hev _ _ =>
    refine h.of_sublist (((cancel_sublist _ _).trans (cancel_sublist _ _)).trans
      (cancel_sublist _ _)) rfl rfl rfl fun he => ?_
    have he' : t.timers.Has .eCancel := by simpa using he
    exact absurd (h.retransmitting he').1 (hreliable (hev.imp And.left And.left))
  | failUnsent _ _ =>
    refine h.of_sublist (cancel_sublist _ _) rfl rfl rfl fun he => ?_
    have he' : t.timers.Has .eCancel := by simpa using he
    exact ⟨by simpa using (h.retransmitting he').2.1, (h.retransmitting he').2.2⟩
  | failIgnored _ _ _ => exact h
  | connected => exact h

theorem Quiet.start (request : Request) (conf : TransactionConf) (transport : Transport)
    (topVia : String) (now : Nat) : (new request conf transport topVia now).sendRequest.1.Quiet := by
  have hnil : { new request conf transport topVia now with stored := true }.Quiet := by
    constructor <;> simp [new, Before.nil]
  have hother : ∀ {t : InviteClientTransaction} {k : IctTimer} {after : Nat}, t.Quiet →
      k = .A ∨ k = .B ∨ k = .C → (t.arm k after).Quiet := by
    intro t k after ht hk
    refine ht.arm_other rfl rfl rfl rfl id ?_ ?_ ?_ <;> rcases hk with rfl | rfl | rfl <;> simp
  have hA : { new request conf transport topVia now with stored := true }.startTimerA.Quiet :=
    hother (hnil.of_sublist (List.Sublist.refl _) rfl rfl rfl (by simp [new])) (.inl rfl)
  have hBC : ∀ {t : InviteClientTransaction}, t.Quiet →
      { t.startTimerB.startTimerC with sent := true }.Quiet := by
    intro t ht
    have hC : t.startTimerB.startTimerC.Quiet := hother (hother ht (.inr (.inl rfl))) (.inr (.inr rfl))
    exact hC.of_sublist (List.Sublist.refl _) rfl rfl rfl fun he => (hC.retransmitting he).2
  by_cases hu : request.uac = true
  · rw [sendRequest, if_pos (show (new request conf transport topVia now).request.uac = true from hu)]
    exact hnil
  · rw [sendRequest, if_neg (show ¬ (new request conf transport topVia now).request.uac = true from hu)]
    by_cases hudp : transport = .udp
    · rw [if_pos (show (new request conf transport topVia now).transport = .udp from hudp)]
      exact hBC hA
    · rw [if_neg (show ¬ (new request conf transport topVia now).transport = .udp from hudp)]
      exact hBC hnil

end InviteClientTransaction

/-! ## Runs -/

namespace IctSystem

open InviteClientTransaction TimerQueue

/-- A response to the INVITE has been received. -/
def Responded (tr : List (StepRec IctSystem (TimedEvent Event) Out)) : Prop :=
  ∃ r ∈ tr, ∃ response, r.ev.ev = .response response

/-- A terminated transaction retransmits nothing, and timer A does not outlive the first response. -/
structure RetransmissionLaw (tr : List (StepRec IctSystem (TimedEvent Event) Out)) (s : IctSystem) :
    Prop where
  terminated : s.ict.state = .terminated → ¬ s.ict.timers.Has .A ∧ ¬ s.ict.timers.Has .eCancel
  responded : s.ict.timers.Has .A → ¬ Responded tr

variable {request : Request} {conf : TransactionConf} {transport : Transport} {topVia : String}
  {newConnection : Bool} {now : Nat} {tr : List (StepRec IctSystem (TimedEvent Event) Out)}
  {s : IctSystem}

theorem pending_of_fail {s s' : IctSystem} {e : TimedEvent Event} {o : List Out}
    (h : s.step e = some (s', o)) (hev : e.ev = .connectionFailed ∨ e.ev = .tlsValidationFailed) :
    s.pending = true := by
  rw [step] at h
  split_ifs at h
  rcases hev with hev | hev
  · rw [hev, handle] at h
    split_ifs at h with hp
    exact hp
  · rw [hev, handle] at h
    split_ifs at h with hp
    exact hp.1

/-- Only a TCP or TLS client connection has the transaction in its list. -/
theorem pending_step {s s' : IctSystem} {e : TimedEvent Event} {o : List Out}
    (h : s.step e = some (s', o)) (hp : s'.pending = true) : s.pending = true := by
  rw [step] at h
  split_ifs at h with hnow
  cases hev : e.ev with
  | expire =>
    rw [hev, handle] at h
    split at h
    · split_ifs at h
      obtain ⟨rfl, rfl⟩ := Prod.mk.inj (Option.some.inj h)
      exact hp
    · cases h
  | _ =>
    rw [hev, handle] at h
    split_ifs at h
    obtain ⟨rfl, rfl⟩ := Prod.mk.inj (Option.some.inj h)
    simp_all

theorem reliable_of_pending
    (h : Run step (start request conf transport topVia newConnection now) tr s)
    (hp : s.pending = true) : transport ≠ .udp := by
  refine Run.stateInvariant (I := fun s : IctSystem => s.pending = true → transport ≠ .udp) ?_ ?_ h hp
  · intro hp hudp
    simp [start, hudp] at hp
  · intro s e s' o hI hstep hp
    exact hI (pending_step hstep hp)

theorem quiet_of_run (hshort : ShortF transport conf)
    (h : Run step (start request conf transport topVia newConnection now) tr s) : s.ict.Quiet := by
  suffices hI : Run step (start request conf transport topVia newConnection now) tr s ∧ s.ict.Quiet
    from hI.2
  refine Run.invariant (G := fun _ _ => True) (I := fun tr s =>
    Run step (start request conf transport topVia newConnection now) tr s ∧ s.ict.Quiet) ?_ ?_ h
    (fun _ _ => trivial)
  · exact ⟨.nil, Quiet.start ..⟩
  · intro tr s e s' o ⟨hrun, hq⟩ _ hstep
    obtain ⟨hnow, ht⟩ := step_trans hstep
    have hkept := kept_of_run hrun
    refine ⟨hrun.snoc hstep, (hq.withNow hnow).trans ((wf_of_run hrun).withNow e.time) ?_ ?_ ht⟩
    · show ShortF s.ict.transport s.ict.conf
      rw [hkept.conf, hkept.transport]
      exact hshort
    · intro hev
      show s.ict.transport ≠ .udp
      rw [hkept.transport]
      exact reliable_of_pending hrun (pending_of_fail hstep hev)

/-- A calling transaction has received no response. -/
theorem not_responded_of_calling
    (h : Run step (start request conf transport topVia newConnection now) tr s)
    (hs : s.ict.state = .calling) : ¬ Responded tr := by
  refine Run.invariant (G := fun _ _ => True)
    (I := fun tr s => s.ict.state = .calling → ¬ Responded tr) ?_ ?_ h (fun _ _ => trivial) hs
  · rintro _ ⟨r, hr, _⟩
    cases hr
  · intro tr s e s' o ih _ hstep hs' ⟨r, hr, response, hresponse⟩
    have ht := (step_trans hstep).2
    have hcalling := ht.calling_of hs'
    rcases List.mem_append.mp hr with hr | hr
    · exact ih hcalling.1 ⟨r, hr, response, hresponse⟩
    · obtain rfl := List.mem_singleton.mp hr
      exact hcalling.2 response hresponse

/-- An INVITE is rung, canceled and then refused with 487, and nobody answers the CANCEL. Timer D comes
32 s after the 487, right after a retransmission of the CANCEL. -/
def canceledThenRefused (now : Nat) : List (TimedEvent Event) :=
  [⟨now, .response ⟨180, none⟩⟩, ⟨now, .doCancel []⟩, ⟨now, .response ⟨487, none⟩⟩,
    ⟨now + 32000, .expire⟩, ⟨now + 32000, .expire⟩]

/-- With a timer F of more than 32 s, the CANCEL is still retransmitted when timer D has ended the
transaction. -/
theorem retransmitting_of_longF (hlong : 32000 < conf.timerFms) (huac : request.uac = false) :
    ∃ tr s, Run step (start request conf .udp topVia newConnection now) tr s ∧
      s.ict.state = .terminated ∧ s.ict.timers.Has .eCancel := by
  suffices h : ∃ p, exec step (start request conf .udp topVia newConnection now)
      (canceledThenRefused now) = some p ∧
      p.2.ict.state = .terminated ∧ p.2.ict.timers.Has .eCancel by
    obtain ⟨p, hp, hs⟩ := h
    exact ⟨p.1, p.2, run_of_exec hp, hs⟩
  simp [exec, canceledThenRefused, step, start, new, sendRequest, huac, handle, receiveResponse,
    InviteClientTransaction.doCancel, InviteClientTransaction.sendCancel,
    InviteClientTransaction.receiveFailure, TimerQueue.arm, TimerQueue.cancel, TimerQueue.pop,
    InviteClientTransaction.expire, TIMER_E, TIMER_D_UDP, TIMER_A, T1, T2, hlong, TimerQueue.Has]

/-- The law holds in every run of a transaction exactly when its timer F is short. -/
theorem retransmissionLaw_iff_shortF (request : Request) (conf : TransactionConf)
    (transport : Transport) (topVia : String) (newConnection : Bool) (now : Nat) :
    (∀ tr s, Run step (start request conf transport topVia newConnection now) tr s →
      RetransmissionLaw tr s) ↔ ShortF transport conf ∨ request.uac = true := by
  constructor
  · intro hlaw
    by_contra hno
    rw [not_or, ShortF, Classical.not_imp] at hno
    obtain ⟨⟨rfl, hlong⟩, huac⟩ := hno
    obtain ⟨tr, s, hrun, hs, hE⟩ :
        ∃ tr s, Run step (start request conf .udp topVia newConnection now) tr s ∧
          s.ict.state = .terminated ∧ s.ict.timers.Has .eCancel :=
      retransmitting_of_longF (by simpa [TIMER_D_UDP] using hlong) (by simpa using huac)
    exact ((hlaw tr s hrun).terminated hs).2 hE
  · intro hor tr s hrun
    have hw := wf_of_run hrun
    constructor
    · intro hs
      refine ⟨fun hA => ?_, fun hE => ?_⟩
      · rw [hw.hasA hA] at hs
        cases hs
      · rcases hor with hshort | huac
        · exact ((quiet_of_run hshort hrun).retransmitting hE).2.2 hs
        · have hsent : s.ict.sent = false := by rw [(kept_of_run hrun).sent, huac]; rfl
          rw [(hw.unsent hsent).1] at hE
          exact not_has_nil hE
    · intro hA
      exact not_responded_of_calling hrun (hw.hasA hA)

end IctSystem

namespace NictSystem

open NonInviteClientTransaction

/-- A terminated transaction retransmits nothing. -/
def RetransmissionLaw (s : NictSystem) : Prop :=
  s.nict.state = .terminated → ¬ s.nict.timers.Has .E

theorem retransmissionLaw_of_run {conf : TransactionConf} {transport : Transport} {topVia : String}
    {newConnection : Bool} {now : Nat} {tr : List (StepRec NictSystem (TimedEvent Event) Out)}
    {s : NictSystem} (h : Run step (start conf transport topVia newConnection now) tr s) :
    s.RetransmissionLaw := by
  intro hs hE
  have hopen := (wf_of_run h).hasE hE
  simp [hs] at hopen

end NictSystem

/-! ## Both classes -/

/-- **No retransmission outlives its transaction** if and only if, over UDP, timer F of the CANCEL is at
most 32 s; a transaction that never came to send its request aside. -/
theorem retransmissionLaw_iff (request : Request) (conf : TransactionConf) (transport : Transport)
    (topVia : String) (newConnection : Bool) (now : Nat) :
    ((∀ tr s, Run IctSystem.step
        (IctSystem.start request conf transport topVia newConnection now) tr s →
      IctSystem.RetransmissionLaw tr s) ↔
    InviteClientTransaction.ShortF transport conf ∨ request.uac = true) ∧
    ∀ tr s, Run NictSystem.step (NictSystem.start conf transport topVia newConnection now) tr s →
      s.RetransmissionLaw :=
  ⟨IctSystem.retransmissionLaw_iff_shortF _ _ _ _ _ _, fun _ _ h =>
    NictSystem.retransmissionLaw_of_run h⟩

/-- An admitted profile with the longest timer F. -/
def longFConf : TransactionConf := { timerB := some 32, timerC := some 120, timerF := some 64 }

/-- `canceledThenRefused` with every timer on time: ten retransmissions of the CANCEL and timer D. -/
def canceledThenRefusedOnTime : List (TimedEvent InviteClientTransaction.Event) :=
  [⟨0, .response ⟨180, none⟩⟩, ⟨0, .doCancel []⟩, ⟨0, .response ⟨487, none⟩⟩] ++
    ([500, 1500, 3500, 7500, 11500, 15500, 19500, 23500, 27500, 31500, 32000].map (⟨·, .expire⟩))

/-- Timer D ends the transaction between two retransmissions of the CANCEL. -/
theorem retransmissionLaw_broken_by_longF :
    longFConf.Admitted ∧
    ∃ tr s, Run IctSystem.step (IctSystem.start sampleRequest longFConf .udp "v" false 0) tr s ∧
      tr.map (·.ev) = canceledThenRefusedOnTime ∧ ¬ IctSystem.RetransmissionLaw tr s := by
  refine ⟨?_, _, _, run_of_exec (show exec _ _ canceledThenRefusedOnTime = some (_, _) from rfl), rfl, ?_⟩
  · constructor <;> intro s hs <;> cases hs <;> decide
  · intro hlaw
    exact (hlaw.terminated rfl).2 (by decide)

/-- The default profile keeps the law; so does a non-INVITE transaction that has timed out. -/
theorem retransmissionLaw_default :
    (∀ tr s, Run IctSystem.step
        (IctSystem.start sampleRequest TransactionConf.default .udp "v" false 0) tr s →
      IctSystem.RetransmissionLaw tr s) ∧
    ∃ tr s, Run NictSystem.step (NictSystem.start TransactionConf.default .tcp "v" true 0) tr s ∧
      s.nict.state = .terminated ∧ s.RetransmissionLaw := by
  have hrun := run_of_exec
    (show exec NictSystem.step (NictSystem.start TransactionConf.default .tcp "v" true 0) [⟨32000, .expire⟩] = some (_, _) from rfl)
  exact ⟨(retransmissionLaw_iff sampleRequest .default .udp "v" false 0).1.mpr (.inl fun _ => by decide),
    _, _, hrun, rfl, (retransmissionLaw_iff sampleRequest .default .tcp "v" true 0).2 _ _ hrun⟩

end OverSip
