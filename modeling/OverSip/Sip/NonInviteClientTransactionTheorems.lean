import OverSip.Sip.NonInviteClientTransaction

/-!
# What one event can do to a non-INVITE client transaction

As for INVITE client transactions: `Trans` lists the transitions, `step_trans` says that every event
that can happen is one of them, and every transition keeps `Wf`.
-/

namespace OverSip

namespace NonInviteClientTransaction

open TimerQueue

/-! ## The transitions -/

/-- The paths of a timer block; `t` is the transaction without the expired timer. -/
inductive ExpireTrans (t : NonInviteClientTransaction) :
    NictTimer → List Out → NonInviteClientTransaction → Prop
  | retransmit {interval : Nat} : TIMER_E ≤ interval ∨ min (2 * t.intervalE) T2 ≤ interval →
      ExpireTrans t .E [.send (.request t.topVia)]
        ({ t with intervalE := interval }.arm .E interval)
  | timeout :
      ExpireTrans t .F [.core .clientTimeout] (t.cancelTimer .E).terminateTransaction
  | finish : ExpireTrans t .K [] t.terminateTransaction

theorem expire_trans (t : NonInviteClientTransaction) (k : NictTimer) :
    ExpireTrans t k (t.expire k).2 (t.expire k).1 := by
  cases k with
  | E =>
    refine .retransmit ?_
    by_cases hs : t.state = .trying
    · rw [if_pos hs]
      exact .inr (Nat.le_refl _)
    · rw [if_neg hs]
      exact .inl (by decide)
  | F => exact .timeout
  | K => exact .finish

/-- The paths of `receive_response`. -/
inductive ResponseTrans (t : NonInviteClientTransaction) (r : Response) :
    List Out → NonInviteClientTransaction → Prop
  | provisional {o : List Out} : r.statusCode < 200 →
      t.state = .trying ∨ t.state = .proceeding →
      o = [] ∨ o = [.core (.receiveResponse r)] →
      ResponseTrans t r o { t with state := .proceeding }
  | finalUdp : 200 ≤ r.statusCode → t.state = .trying ∨ t.state = .proceeding →
      t.transport = .udp →
      ResponseTrans t r [.core (.receiveResponse r)]
        (({ t with state := .completed }.cancelTimer .F).cancelTimer .E).startTimerK
  | finalReliable : 200 ≤ r.statusCode → t.state = .trying ∨ t.state = .proceeding →
      t.transport ≠ .udp →
      ResponseTrans t r [.core (.receiveResponse r)]
        (({ t with state := .completed }.cancelTimer .F).cancelTimer .E).terminateTransaction
  | ignored : t.state = .completed ∨ t.state = .terminated → ResponseTrans t r [] t

theorem receiveResponse_trans (t : NonInviteClientTransaction) (r : Response) :
    ResponseTrans t r (t.receiveResponse r).2 (t.receiveResponse r).1 := by
  by_cases h2 : r.statusCode < 200
  · rw [receiveResponse, if_pos h2]
    dsimp only
    have hdelivered : (if r.statusCode = 100 then [] else [Out.core (.receiveResponse r)]) = [] ∨
        (if r.statusCode = 100 then [] else [Out.core (.receiveResponse r)]) =
          [.core (.receiveResponse r)] := by
      by_cases h : r.statusCode = 100
      · rw [if_pos h]
        exact .inl rfl
      · rw [if_neg h]
        exact .inr rfl
    split
    · exact .provisional h2 (.inl ‹_›) hdelivered
    · rename_i hs
      have ht : { t with state := NictState.proceeding } = t := by rw [← hs]
      have hp := ResponseTrans.provisional (t := t) h2 (.inr hs) hdelivered
      rwa [ht] at hp
    · exact .ignored (.inl ‹_›)
    · exact .ignored (.inr ‹_›)
  · rw [receiveResponse, if_neg h2]
    have h2' : 200 ≤ r.statusCode := by omega
    have hfinal : t.state = .trying ∨ t.state = .proceeding →
        ResponseTrans t r [.core (.receiveResponse r)]
          (if t.transport = .udp then
            (({ t with state := .completed }.cancelTimer .F).cancelTimer .E).startTimerK
          else
            (({ t with state := .completed }.cancelTimer .F).cancelTimer .E).terminateTransaction) := by
      intro hs
      by_cases hu : t.transport = .udp
      · rw [if_pos hu]
        exact .finalUdp h2' hs hu
      · rw [if_neg hu]
        exact .finalReliable h2' hs hu
    split
    · exact hfinal (.inl ‹_›)
    · exact hfinal (.inr ‹_›)
    · exact .ignored (.inl ‹_›)
    · exact .ignored (.inr ‹_›)

/-- The paths of an event. `t` is the transaction with the clock set. -/
inductive Trans (t : NonInviteClientTransaction) :
    Event → List Out → NonInviteClientTransaction → Prop
  | expire {x : Armed NictTimer} {rest : TimerQueue NictTimer} {o : List Out}
      {t' : NonInviteClientTransaction} :
      t.timers.pop = some (x, rest) → x.due ≤ t.now →
      ExpireTrans { t with timers := rest } x.key o t' → Trans t .expire o t'
  | response {r : Response} {o : List Out} {t' : NonInviteClientTransaction} :
      t.stored = true → ResponseTrans t r o t' → Trans t (.response r) o t'
  | fail {ev : Event} {call : CoreCall} :
      ev = .connectionFailed ∧ call = .connectionFailed ∨
        ev = .tlsValidationFailed ∧ call = .tlsValidationFailed →
      Trans t ev [.core call] ((t.cancelTimer .F).cancelTimer .E).terminateTransaction
  | connected : Trans t .connected [] t

/-! ## The invariant -/

attribute [simp] arm cancelTimer terminateTransaction startTimerE startTimerF startTimerK

/-- The timers and the table entry agree with `@state`. -/
structure Wf (t : NonInviteClientTransaction) : Prop where
  stored_iff : t.stored = true ↔ t.state ≠ .terminated
  hasE : t.timers.Has .E → t.state = .trying ∨ t.state = .proceeding
  hasF : t.timers.Has .F → t.state = .trying ∨ t.state = .proceeding
  hasK : t.timers.Has .K → t.state = .completed ∨ t.state = .terminated
  waiting : t.state = .trying ∨ t.state = .proceeding → t.timers.Has .F
  completed : t.state = .completed → t.timers.Has .K
  oneF : AtMostOne .F t.timers

theorem Wf.of_terminated {t : NonInviteClientTransaction} (hs : t.state = .terminated)
    (hst : t.stored = false) (hE : ¬ t.timers.Has .E) (hF : ¬ t.timers.Has .F) : t.Wf := by
  constructor <;> simp_all [AtMostOne.of_not_has]

theorem Wf.response {t t' : NonInviteClientTransaction} {r : Response} {o : List Out} (h : t.Wf)
    (hr : ResponseTrans t r o t') : t'.Wf := by
  obtain ⟨h1, h2, h3, h4, h5, h6, h7⟩ := h
  cases hr with
  | provisional _ hs _ => rcases hs with hs | hs <;> constructor <;> simp_all
  | finalUdp _ hs _ => rcases hs with hs | hs <;> constructor <;> simp_all [AtMostOne.of_not_has]
  | finalReliable _ hs _ => constructor <;> simp_all [AtMostOne.of_not_has]
  | ignored hs => constructor <;> assumption

theorem Wf.expire {t t' : NonInviteClientTransaction} {x : Armed NictTimer}
    {rest : TimerQueue NictTimer} {o : List Out} (h : t.Wf) (hpop : t.timers.pop = some (x, rest))
    (hr : ExpireTrans { t with timers := rest } x.key o t') : t'.Wf := by
  have hsub : ∀ k, Has rest k → t.timers.Has k := fun k hk => hk.of_pop hpop
  have hkeep : ∀ k, t.timers.Has k → x.key ≠ k → Has rest k := fun k hk => hk.pop hpop
  have hx : t.timers.Has x.key := .of_mem (pop_mem hpop)
  have hF : AtMostOne .F rest := h.oneF.sublist (pop_sublist hpop)
  have hF' : x.key = .F → ¬ Has rest .F := by
    intro hk
    have := AtMostOne.pop (x := x) (hk ▸ h.oneF) hpop
    rwa [hk] at this
  generalize x.key = k at hr hkeep hx hF'
  cases hr with
  | retransmit _ =>
    have hs := h.hasE hx
    have hfire : Has rest .F := hkeep _ (h.waiting hs) (by simp)
    have hK : ¬ Has rest .K := by
      intro hk
      rcases h.hasK (hsub _ hk) with hs' | hs' <;> simp [hs'] at hs
    obtain ⟨h1, h2, h3, h4, h5, h6, h7⟩ := h
    rcases hs with hs | hs <;> constructor <;> simp_all
  | timeout => exact .of_terminated rfl rfl (by simp) (by simp [hF' rfl])
  | finish =>
    have hs := h.hasK hx
    refine .of_terminated rfl rfl ?_ ?_
    · intro hk
      rcases h.hasE (hsub _ hk) with hs' | hs' <;> simp [hs'] at hs
    · intro hk
      rcases h.hasF (hsub _ hk) with hs' | hs' <;> simp [hs'] at hs

theorem Wf.trans {t t' : NonInviteClientTransaction} {ev : Event} {o : List Out} (h : t.Wf)
    (ht : Trans t ev o t') : t'.Wf := by
  cases ht with
  | expire hpop _ hr => exact h.expire hpop hr
  | response _ hr => exact h.response hr
  | fail _ => exact .of_terminated rfl rfl (by simp) (by simp)
  | connected => exact h

theorem Wf.withNow {t : NonInviteClientTransaction} (h : t.Wf) (now : Nat) :
    { t with now := now }.Wf := by
  obtain ⟨h1, h2, h3, h4, h5, h6, h7⟩ := h
  constructor <;> assumption

theorem Wf.start (conf : TransactionConf) (transport : Transport) (topVia : String) (now : Nat) :
    (new conf transport topVia now).sendRequest.1.Wf := by
  by_cases hudp : transport = .udp
  · constructor <;> simp_all [new, sendRequest, AtMostOne.of_not_has]
  · constructor <;> simp_all [new, sendRequest, AtMostOne.of_not_has]

end NonInviteClientTransaction

/-! ## Runs -/

namespace NictSystem

open NonInviteClientTransaction

theorem handle_trans {s s' : NictSystem} {ev : Event} {o : List Out}
    (h : s.handle ev = some (s', o)) : Trans s.nict ev o s'.nict := by
  cases ev with
  | expire =>
    rw [handle] at h
    split at h
    · rename_i x rest hpop
      split_ifs at h with hdue
      obtain ⟨rfl, rfl⟩ := Prod.mk.inj (Option.some.inj h)
      exact .expire hpop hdue (expire_trans _ _)
    · cases h
  | response r =>
    rw [handle] at h
    split_ifs at h with hguard
    obtain ⟨rfl, rfl⟩ := Prod.mk.inj (Option.some.inj h)
    exact .response hguard (receiveResponse_trans _ _)
  | connectionFailed =>
    rw [handle] at h
    split_ifs at h with hguard
    obtain ⟨rfl, rfl⟩ := Prod.mk.inj (Option.some.inj h)
    exact .fail (.inl ⟨rfl, rfl⟩)
  | tlsValidationFailed =>
    rw [handle] at h
    split_ifs at h with hguard
    obtain ⟨rfl, rfl⟩ := Prod.mk.inj (Option.some.inj h)
    exact .fail (.inr ⟨rfl, rfl⟩)
  | connected =>
    rw [handle] at h
    split_ifs at h with hguard
    obtain ⟨rfl, rfl⟩ := Prod.mk.inj (Option.some.inj h)
    exact .connected

theorem step_trans {s s' : NictSystem} {e : TimedEvent Event} {o : List Out}
    (h : s.step e = some (s', o)) :
    s.nict.now ≤ e.time ∧ Trans { s.nict with now := e.time } e.ev o s'.nict := by
  rw [step] at h
  split_ifs at h with hnow
  exact ⟨hnow, handle_trans h⟩

/-- The invariant holds in every state of every run. -/
theorem wf_of_run {conf : TransactionConf} {transport : Transport} {topVia : String}
    {newConnection : Bool} {now : Nat} {tr : List (StepRec NictSystem (TimedEvent Event) Out)}
    {s : NictSystem} (h : Run step (start conf transport topVia newConnection now) tr s) :
    s.nict.Wf := by
  refine Run.stateInvariant (I := fun s => s.nict.Wf) (Wf.start ..) ?_ h
  intro s e s' o hs hstep
  exact (hs.withNow e.time).trans (step_trans hstep).2

end NictSystem

end OverSip
