import OverSip.Sip.MessageProcessor

/-!
# A server transaction removes its key once

`terminate_transaction` deletes the key of the transaction, whatever the table holds under it. The
timers that call it are armed in one state each and at most once (`Wf`), so it is called by a transaction
that is not terminated yet, and never again (`Ends`).
-/

namespace OverSip

open TimerQueue

/-- What one event does to the end of a transaction: it is terminated and its key removed, both or
neither. -/
def Ends (before after : Bool) (o : List ServerOut) : Prop :=
  .remove ∈ o ∧ before = false ∧ after = true ∨ .remove ∉ o ∧ after = before

/-! ## INVITE -/

namespace InviteServerTransaction

attribute [simp] arm cancelTimer startTimerG terminateTransaction

/-- The timers that terminate are armed in one state each, and at most once. -/
structure Wf (t : InviteServerTransaction) : Prop where
  hasC2 : t.timers.Has .C2 → t.state = .proceeding
  hasH : t.timers.Has .H → t.state = .completed
  hasI : t.timers.Has .I → t.state = .confirmed
  hasL : t.timers.Has .L → t.state = .accepted
  one : ∀ k, k ≠ .G → AtMostOne k t.timers

theorem receiveResponse_spec {t : InviteServerTransaction} (hw : t.Wf) (statusCode : Nat) :
    (t.receiveResponse statusCode).1.Wf ∧
      ((t.receiveResponse statusCode).1.state = .terminated ↔ t.state = .terminated) := by
  have hkeep : t.Wf ∧ (t.state = .terminated ↔ t.state = .terminated) := ⟨hw, Iff.rfl⟩
  obtain ⟨hC2, hH, hI, hL, hone⟩ := hw
  unfold receiveResponse
  by_cases h1 : statusCode < 200
  · rw [if_pos h1]
    split <;> exact hkeep
  · rw [if_neg h1]
    by_cases h2 : 200 ≤ statusCode ∧ statusCode < 300
    · rw [if_pos h2]
      split
      · rename_i hs
        refine ⟨?_, by simp [hs]⟩
        constructor
        · simp
        · simp_all
        · simp_all
        · simp
        · intro k hk
          have := (hone k hk).cancel (l := .C2)
          cases k <;> simp_all
      · exact hkeep
      · exact hkeep
    · rw [if_neg h2]
      split
      · rename_i hs
        by_cases hu : t.transport = .udp
        · refine ⟨?_, by simp [hs, hu]⟩
          constructor
          · simp [hu]
          · simp [hu]
          · simp_all
          · simp_all
          · intro k hk
            have := (hone k hk).cancel (l := .C2)
            cases k <;> simp_all
        · refine ⟨?_, by simp [hs, hu]⟩
          constructor
          · simp [hu]
          · simp [hu]
          · simp_all
          · simp_all
          · intro k hk
            have := (hone k hk).cancel (l := .C2)
            cases k <;> simp_all
      · exact hkeep

theorem reply_spec {t : InviteServerTransaction} (hw : t.Wf) (r : Reply) :
    (t.reply r).1.Wf ∧
      Ends (t.state == .terminated) ((t.reply r).1.state == .terminated) (t.reply r).2 := by
  obtain ⟨hw', hterm⟩ := receiveResponse_spec hw r.statusCode
  have heq : ((t.receiveResponse r.statusCode).1.state == .terminated) = (t.state == .terminated) := by
    rw [Bool.eq_iff_iff]
    simpa using hterm
  unfold reply
  split
  · rename_i t' ht
    rw [ht] at hw' heq
    exact ⟨⟨hw'.hasC2, hw'.hasH, hw'.hasI, hw'.hasL, hw'.one⟩, .inr ⟨by simp, heq⟩⟩
  · rename_i t' ht
    rw [ht] at hw' heq
    exact ⟨hw', .inr ⟨by simp, heq⟩⟩

theorem receiveAck_spec {t : InviteServerTransaction} (hw : t.Wf) :
    t.receiveAck.1.Wf ∧
      Ends (t.state == .terminated) (t.receiveAck.1.state == .terminated) t.receiveAck.2 := by
  unfold receiveAck
  split
  · rename_i hs
    obtain ⟨hC2, hH, hI, hL, hone⟩ := hw
    have hone' : ∀ k, k ≠ .G → AtMostOne k ((t.timers.cancel .G).cancel .H) :=
      fun k hk => (hone k hk).cancel.cancel
    by_cases hu : t.transport = .udp
    · simp only [cancelTimer, hu, if_true]
      refine ⟨?_, .inr ⟨by simp, by simp [hs]⟩⟩
      constructor
      · simp_all
      · simp_all
      · simp_all
      · simp_all
      · intro k hk
        have := hone' k hk
        cases k <;> simp_all
    · simp only [cancelTimer, hu, if_false]
      refine ⟨?_, .inl ⟨by simp, by simp [hs], by simp⟩⟩
      constructor <;> simp_all
  · exact ⟨hw, .inr ⟨by simp, rfl⟩⟩

/-- A terminating timer runs out: no terminating timer is left. -/
theorem wf_terminated {t : InviteServerTransaction} {k : IstTimer}
    (hw : t.Wf) {rest : TimerQueue IstTimer} (hsub : rest.Sublist t.timers) (hk : t.timers.Has k)
    (hG : k ≠ .G) (hgone : ¬ Has rest k) :
    ({ t with timers := rest, state := .terminated } : InviteServerTransaction).Wf := by
  have hhas : ∀ l, Has rest l → t.timers.Has l := by
    intro l ⟨x, hx, hl⟩
    exact ⟨x, hsub.subset hx, hl⟩
  -- a second terminating timer would be armed in another state
  have hnone : ∀ l, l ≠ .G → ¬ Has rest l := by
    intro l hl hr
    have hC2 := hw.hasC2
    have hH := hw.hasH
    have hI := hw.hasI
    have hL := hw.hasL
    have hlt := hhas l hr
    cases k <;> cases l <;> simp_all
  constructor
  · exact fun h => absurd h (hnone _ (by simp))
  · exact fun h => absurd h (hnone _ (by simp))
  · exact fun h => absurd h (hnone _ (by simp))
  · exact fun h => absurd h (hnone _ (by simp))
  · exact fun l hl => (hw.one l hl).sublist hsub

theorem alive_of_has {t : InviteServerTransaction} {k : IstTimer} (hw : t.Wf) (hk : t.timers.Has k)
    (hG : k ≠ .G) : t.state ≠ .terminated := by
  have hC2 := hw.hasC2
  have hH := hw.hasH
  have hI := hw.hasI
  have hL := hw.hasL
  cases k <;> simp_all

theorem expire_spec {t : InviteServerTransaction} {x : Armed IstTimer} {rest : TimerQueue IstTimer}
    (hw : t.Wf) (hpop : t.timers.pop = some (x, rest)) :
    ({ t with timers := rest }.expire x.key).1.Wf ∧
      Ends (t.state == .terminated) (({ t with timers := rest }.expire x.key).1.state == .terminated)
        ({ t with timers := rest }.expire x.key).2 := by
  have hx : t.timers.Has x.key := .of_mem (pop_mem hpop)
  have hsub := pop_sublist hpop
  by_cases hG : x.key = .G
  · rw [hG]
    refine ⟨?_, .inr ⟨by simp [expire, retransmitLastResponse], by simp [expire]⟩⟩
    have hhas : ∀ l, Has rest l → t.timers.Has l := fun l hl => hl.of_pop hpop
    constructor
    · simpa [expire] using fun h => hw.hasC2 (hhas _ h)
    · simpa [expire] using fun h => hw.hasH (hhas _ h)
    · simpa [expire] using fun h => hw.hasI (hhas _ h)
    · simpa [expire] using fun h => hw.hasL (hhas _ h)
    · intro l hl
      have hne : IstTimer.G ≠ l := fun h => hl h.symm
      simpa [expire, hne] using (hw.one l hl).sublist hsub
  · have hgone : ¬ Has rest x.key := (hw.one x.key hG).pop hpop
    have halive := alive_of_has hw hx hG
    have hend := wf_terminated hw hsub hx hG hgone
    have hends : Ends (t.state == .terminated) true [.remove] :=
      .inl ⟨by simp, by simpa using halive, rfl⟩
    cases hk : x.key with
    | C2 => exact ⟨hend, hends⟩
    | G => exact absurd hk hG
    | H =>
      have hcancel : (cancel rest .G).Sublist t.timers := (cancel_sublist rest .G).trans hsub
      have hgone' : ¬ Has (cancel rest .G) x.key := fun h => hgone (has_cancel.mp h).1
      exact ⟨wf_terminated hw hcancel hx hG hgone', hends⟩
    | I => exact ⟨hend, hends⟩
    | L => exact ⟨hend, hends⟩

theorem new_spec (transactionId : String) (transport : Transport) (now : Nat) :
    (new transactionId transport now).1.Wf ∧ (new transactionId transport now).1.state = .proceeding ∧
      .remove ∉ (new transactionId transport now).2 := by
  refine ⟨?_, rfl, by simp [new, reply, receiveResponse, Reply.statusCode]⟩
  constructor
  · simp [new, reply, receiveResponse, Reply.statusCode]
  · simp [new, reply, receiveResponse, Reply.statusCode]
  · simp [new, reply, receiveResponse, Reply.statusCode]
  · simp [new, reply, receiveResponse, Reply.statusCode]
  · intro k _
    simpa [new, reply, receiveResponse, Reply.statusCode] using AtMostOne.of_not_has not_has_nil

end InviteServerTransaction

/-! ## Non-INVITE -/

namespace NonInviteServerTransaction

attribute [simp] arm cancelTimer terminateTransaction

/-- A final response is still awaited. -/
def Awaiting (t : NonInviteServerTransaction) : Prop := t.state = .trying ∨ t.state = .proceeding

/-- The timers that terminate, and the one that arms one of these, are armed in the states before and
after the final response, and at most once. -/
structure Wf (t : NonInviteServerTransaction) : Prop where
  hasINT1 : t.timers.Has .INT1 → t.Awaiting ∧ ¬ t.timers.Has .INT2
  hasINT2 : t.timers.Has .INT2 → t.Awaiting
  hasJ : t.timers.Has .J → t.state = .completed
  one : ∀ k, AtMostOne k t.timers

theorem Awaiting.terminated_eq {t : NonInviteServerTransaction} (h : t.Awaiting) :
    (t.state == .terminated) = false := by
  rcases h with h | h <;> simp [h]

/-- A provisional response to a request that awaits one is sent and touches no timer. -/
theorem reply_provisional {t : NonInviteServerTransaction} (h : t.Awaiting) (r : Reply)
    (hr : r.statusCode < 200) :
    (t.reply r).1.Awaiting ∧ (t.reply r).1.timers = t.timers ∧ (t.reply r).2 = [.send r] := by
  unfold reply receiveResponse
  rw [if_pos hr]
  rcases h with h | h
  · simp [h, Awaiting]
  · rw [h]
    exact ⟨.inr h, rfl, rfl⟩

theorem reply_spec {t : NonInviteServerTransaction} (hw : t.Wf) (r : Reply) :
    (t.reply r).1.Wf ∧
      Ends (t.state == .terminated) ((t.reply r).1.state == .terminated) (t.reply r).2 := by
  have hone : ∀ k, AtMostOne k ((t.timers.cancel .INT1).cancel .INT2) :=
    fun k => (hw.one k).cancel.cancel
  unfold reply receiveResponse
  by_cases h1 : r.statusCode < 200
  · rw [if_pos h1]
    cases hs : t.state with
    | trying =>
      refine ⟨⟨?_, ?_, ?_, hw.one⟩, .inr ⟨by simp, by simp⟩⟩
      · exact fun h => ⟨.inr rfl, (hw.hasINT1 h).2⟩
      · exact fun h => .inr rfl
      · exact fun h => absurd (hw.hasJ h) (by simp [hs])
    | proceeding =>
      refine ⟨⟨?_, ?_, ?_, hw.one⟩, .inr ⟨by simp, by simp [hs]⟩⟩
      · exact fun h => ⟨.inr hs, (hw.hasINT1 h).2⟩
      · exact fun h => .inr hs
      · exact hw.hasJ
    | completed => exact ⟨hw, .inr ⟨by simp, by simp [hs]⟩⟩
    | terminated => exact ⟨hw, .inr ⟨by simp, by simp [hs]⟩⟩
  · rw [if_neg h1]
    have hfinal : t.Awaiting →
        ¬ t.timers.Has .J := by
      intro ha hJ
      have := hw.hasJ hJ
      simp [Awaiting, this] at ha
    cases hs : t.state with
    | trying | proceeding =>
      have ha : t.Awaiting := by simp [Awaiting, hs]
      have hnoJ := hfinal ha
      by_cases hu : t.transport = .udp
      · refine ⟨⟨?_, ?_, ?_, ?_⟩, .inr ⟨by simp [hu], by simp [hu]⟩⟩
        · simp [hu]
        · simp [hu]
        · simp [hu]
        · intro k
          have hk := hone k
          cases k <;> simp_all
      · refine ⟨⟨?_, ?_, ?_, ?_⟩, .inl ⟨by simp [hu], by simp, by simp [hu]⟩⟩
        · simp [hu]
        · simp [hu]
        · simpa [hu] using hnoJ
        · intro k
          simpa [hu] using hone k
    | completed => exact ⟨hw, .inr ⟨by simp, by simp [hs]⟩⟩
    | terminated => exact ⟨hw, .inr ⟨by simp, by simp [hs]⟩⟩

theorem expire_spec {t : NonInviteServerTransaction} {x : Armed NistTimer}
    {rest : TimerQueue NistTimer} (hw : t.Wf) (hpop : t.timers.pop = some (x, rest)) :
    ({ t with timers := rest }.expire x.key).1.Wf ∧
      Ends (t.state == .terminated) (({ t with timers := rest }.expire x.key).1.state == .terminated)
        ({ t with timers := rest }.expire x.key).2 := by
  have hx : t.timers.Has x.key := .of_mem (pop_mem hpop)
  have hhas : ∀ k, Has rest k → t.timers.Has k := fun k hk => hk.of_pop hpop
  have hgone : ¬ Has rest x.key := (hw.one x.key).pop hpop
  have hone : ∀ k, AtMostOne k rest := fun k => (hw.one k).sublist (pop_sublist hpop)
  cases hk : x.key with
  | INT1 =>
    rw [hk] at hx hgone
    obtain ⟨ha, hno2⟩ := hw.hasINT1 hx
    have hnoJ : ¬ Has rest .J := by
      intro h
      have := hw.hasJ (hhas _ h)
      simp [Awaiting, this] at ha
    have hno2' : ¬ Has rest .INT2 := fun h => hno2 (hhas _ h)
    -- whatever the block sends, the response is still awaited after it
    have hafter : ∀ t' : NonInviteServerTransaction, t'.Awaiting → t'.timers = rest →
        (t'.arm .INT2 INT2).Wf := by
      intro t' ha' ht'
      refine ⟨?_, fun _ => ha', ?_, ?_⟩
      · simp [ht', hgone]
      · simp [ht', hnoJ]
      · intro k
        simpa [ht', hone k] using fun hk' => hk' ▸ hno2'
    unfold expire
    by_cases hl : t.lastResponse = none
    · rw [if_pos hl]
      obtain ⟨ha', ht', ho⟩ := reply_provisional (t := { t with timers := rest }) ha
        (.built 100 "I'm alive") (by simp [Reply.statusCode])
      refine ⟨hafter _ ha' ht', .inr ⟨by simp [ho], ?_⟩⟩
      rw [ha.terminated_eq]
      exact ha'.terminated_eq
    · rw [if_neg hl]
      exact ⟨hafter _ ha rfl, .inr ⟨by simp, by simp⟩⟩
  | INT2 =>
    rw [hk] at hx hgone
    have ha := hw.hasINT2 hx
    refine ⟨⟨?_, ?_, ?_, hone⟩, .inl ⟨by simp [expire], ?_, by simp [expire]⟩⟩
    · exact fun h => absurd hx (hw.hasINT1 (hhas _ h)).2
    · exact fun h => absurd h hgone
    · intro h
      have := hw.hasJ (hhas _ h)
      simp [Awaiting, this] at ha
    · rcases ha with ha | ha <;> simp [ha]
  | J =>
    rw [hk] at hx hgone
    have hc := hw.hasJ hx
    have hnot : ¬ t.Awaiting := by simp [Awaiting, hc]
    refine ⟨⟨?_, ?_, ?_, hone⟩, .inl ⟨by simp [expire], by simp [hc], by simp [expire]⟩⟩
    · exact fun h => absurd (hw.hasINT1 (hhas _ h)).1 hnot
    · exact fun h => absurd (hw.hasINT2 (hhas _ h)) hnot
    · exact fun h => absurd h hgone

theorem new_spec (transactionId : String) (transport : Transport) (now : Nat) :
    (new transactionId transport now).Wf ∧ (new transactionId transport now).state = .trying := by
  refine ⟨⟨?_, ?_, ?_, ?_⟩, rfl⟩
  · simp [new, Awaiting]
  · simp [new]
  · simp [new]
  · intro k
    simpa [new] using AtMostOne.of_not_has not_has_nil

end NonInviteServerTransaction

/-! ## Both classes -/

namespace Transaction

/-- What holds of a transaction of either class over its whole life. -/
def Wf : Transaction → Prop
  | .invite t => t.Wf
  | .nonInvite t => t.Wf

theorem wf_setNow {t : Transaction} (hw : t.Wf) (now : Nat) : (t.setNow now).Wf := by
  cases t with
  | invite t => exact ⟨hw.hasC2, hw.hasH, hw.hasI, hw.hasL, hw.one⟩
  | nonInvite t => exact ⟨hw.hasINT1, hw.hasINT2, hw.hasJ, hw.one⟩

@[simp] theorem terminated_setNow (t : Transaction) (now : Nat) :
    (t.setNow now).terminated = t.terminated := by
  cases t <;> rfl

theorem reply_spec {t : Transaction} (hw : t.Wf) (r : Reply) :
    (t.reply r).1.Wf ∧ Ends t.terminated (t.reply r).1.terminated (t.reply r).2 := by
  cases t with
  | invite t => exact InviteServerTransaction.reply_spec hw r
  | nonInvite t => exact NonInviteServerTransaction.reply_spec hw r

theorem receiveAck_spec {t : Transaction} (hw : t.Wf) :
    t.receiveAck.1.Wf ∧ Ends t.terminated t.receiveAck.1.terminated t.receiveAck.2 := by
  cases t with
  | invite t => exact InviteServerTransaction.receiveAck_spec hw
  | nonInvite t => exact ⟨hw, .inr ⟨by simp [receiveAck], rfl⟩⟩

theorem expire_spec {t t' : Transaction} {o : List ServerOut} (hw : t.Wf)
    (h : t.expire = some (t', o)) : t'.Wf ∧ Ends t.terminated t'.terminated o := by
  cases t with
  | invite t =>
    unfold expire at h
    cases hpop : t.timers.pop with
    | none => simp [hpop] at h
    | some p =>
      obtain ⟨x, rest⟩ := p
      simp only [hpop] at h
      by_cases hdue : x.due ≤ t.now
      · rw [if_pos hdue] at h
        obtain ⟨rfl, rfl⟩ := Prod.mk.inj (Option.some.inj h)
        exact InviteServerTransaction.expire_spec hw hpop
      · rw [if_neg hdue] at h
        cases h
  | nonInvite t =>
    unfold expire at h
    cases hpop : t.timers.pop with
    | none => simp [hpop] at h
    | some p =>
      obtain ⟨x, rest⟩ := p
      simp only [hpop] at h
      by_cases hdue : x.due ≤ t.now
      · rw [if_pos hdue] at h
        obtain ⟨rfl, rfl⟩ := Prod.mk.inj (Option.some.inj h)
        exact NonInviteServerTransaction.expire_spec hw hpop
      · rw [if_neg hdue] at h
        cases h

theorem not_remove_retransmit (t : Transaction) : .remove ∉ t.retransmitLastResponse := by
  cases t with
  | invite t => simp [retransmitLastResponse, InviteServerTransaction.retransmitLastResponse]
  | nonInvite t => simp [retransmitLastResponse, NonInviteServerTransaction.retransmitLastResponse]

end Transaction

end OverSip
