import OverSip.Lib.History
import OverSip.Sip.InviteClientTransactionTheorems
import OverSip.Sip.Statuses

/-!
# What an INVITE client transaction makes of its responses

The statuses that it hands to its core and the ACKs that it sends, over every run. `receiveResponse_spec`
says what one response does to both, and `Trans.untouched` that no other event touches them.
-/

namespace OverSip

/-- The statuses handed to the core by `receive_response`. -/
def coreStatuses (o : List Out) : List Nat :=
  o.filterMap fun
    | .core (.receiveResponse r) => some r.statusCode
    | _ => none

/-- The ACKs that are sent. -/
def sentAcks (o : List Out) : List Ack :=
  o.filterMap fun
    | .send (.ack a) => some a
    | _ => none

namespace InviteClientTransaction

variable {t t' : InviteClientTransaction} {o : List Out} {l : List Nat}

/-- A [3456]XX that is acknowledged. -/
def Acknowledges (t : InviteClientTransaction) (r : Response) : Prop :=
  300 ≤ r.statusCode ∧ (t.state = .calling ∨ t.state = .proceeding ∨ t.state = .completed)

instance (t : InviteClientTransaction) (r : Response) : Decidable (t.Acknowledges r) :=
  inferInstanceAs (Decidable (_ ∧ _))

/-- The statuses handed to the core so far fit the state. -/
def Delivered (t : InviteClientTransaction) (l : List Nat) : Prop :=
  match t.state with
  | .calling | .proceeding => ∀ c ∈ l, c < 200
  | .completed => Form Failure l
  | .accepted => Form Successes l
  | .terminated => Form InviteTail l

theorem Delivered.tail (h : t.Delivered l) : Form InviteTail l := by
  unfold Delivered at h
  cases hs : t.state with
  | calling | proceeding =>
    rw [hs] at h
    exact .inviteTail_of_provisional h
  | completed =>
    rw [hs] at h
    exact h.imp fun fs hfs => .inr hfs
  | accepted =>
    rw [hs] at h
    exact h.imp fun fs hfs => .inl hfs
  | terminated =>
    rw [hs] at h
    exact h

theorem Delivered.of_state (h : t.Delivered l) (hs : t'.state = t.state) : t'.Delivered l := by
  unfold Delivered
  rw [hs]
  exact h

theorem Delivered.terminated (h : t.Delivered l) (hs : t'.state = .terminated) :
    t'.Delivered l := by
  have htail := h.tail
  unfold Delivered
  rw [hs]
  exact htail

/-! ## Events other than responses -/

/-- Nothing is handed to the core or acknowledged, and the state stays or is the last one. -/
structure Untouched (t : InviteClientTransaction) (o : List Out) (t' : InviteClientTransaction) :
    Prop where
  statuses : coreStatuses o = []
  acks : sentAcks o = []
  ack : t'.ack = t.ack
  state : t'.state = t.state ∨ t'.state = .terminated

theorem CancelTrans.untouched {reasons : List String} (h : CancelTrans t reasons o t') :
    Untouched t o t' := by
  cases h with
  | again _ => exact ⟨rfl, rfl, rfl, .inl rfl⟩
  | wait _ _ => exact ⟨rfl, rfl, rfl, .inl rfl⟩
  | send _ _ =>
    unfold sendCancel
    by_cases hu : t.transport = .udp
    · simp only [hu, if_true]
      exact ⟨rfl, rfl, rfl, .inl rfl⟩
    · simp only [hu, if_false]
      exact ⟨rfl, rfl, rfl, .inl rfl⟩

theorem ExpireTrans.untouched {k : IctTimer} (h : ExpireTrans t k o t') : Untouched t o t' := by
  cases h with
  | retransmit => exact ⟨rfl, rfl, rfl, .inl rfl⟩
  | timeout => exact ⟨rfl, rfl, rfl, .inr rfl⟩
  | timerC hcancel =>
    obtain ⟨hstatuses, hacks, hack, hstate⟩ := hcancel.untouched
    refine ⟨?_, ?_, hack, hstate⟩
    · unfold coreStatuses at hstatuses ⊢
      rw [List.filterMap_append, hstatuses]
      rfl
    · unfold sentAcks at hacks ⊢
      rw [List.filterMap_append, hacks]
      rfl
  | finish _ => exact ⟨rfl, rfl, rfl, .inr rfl⟩
  | retransmitCancel =>
    refine ⟨?_, ?_, rfl, .inl rfl⟩
    · cases t.cancel <;> rfl
    · cases t.cancel <;> rfl
  | giveUpCancel _ => exact ⟨rfl, rfl, rfl, .inr rfl⟩
  | lateF _ => exact ⟨rfl, rfl, rfl, .inl rfl⟩

theorem Trans.untouched {ev : Event} (h : Trans t ev o t') (hev : ∀ r, ev ≠ .response r) :
    Untouched t o t' := by
  cases h with
  | expire hpop hdue hexp =>
    obtain ⟨hstatuses, hacks, hack, hstate⟩ := hexp.untouched
    exact ⟨hstatuses, hacks, hack, hstate⟩
  | response hst hsent hr => exact absurd rfl (hev _)
  | cancelRefused _ _ _ => exact ⟨rfl, rfl, rfl, .inl rfl⟩
  | cancelAnswered _ _ _ => exact ⟨rfl, rfl, rfl, .inl rfl⟩
  | cancelLate _ => exact ⟨rfl, rfl, rfl, .inl rfl⟩
  | doCancel _ hcancel => exact hcancel.untouched
  | fail hcall _ _ =>
    rcases hcall with ⟨_, rfl⟩ | ⟨_, rfl⟩
    · exact ⟨rfl, rfl, rfl, .inr rfl⟩
    · exact ⟨rfl, rfl, rfl, .inr rfl⟩
  | failUnsent _ _ => exact ⟨rfl, rfl, rfl, .inl rfl⟩
  | failIgnored _ _ _ => exact ⟨rfl, rfl, rfl, .inl rfl⟩
  | connected => exact ⟨rfl, rfl, rfl, .inl rfl⟩

/-! ## Responses -/

theorem coreStatuses_append (o o' : List Out) :
    coreStatuses (o ++ o') = coreStatuses o ++ coreStatuses o' := List.filterMap_append ..

theorem sentAcks_append (o o' : List Out) : sentAcks (o ++ o') = sentAcks o ++ sentAcks o' :=
  List.filterMap_append ..

/-- A 100 is not handed on. -/
theorem coreStatuses_deliverProvisional (r : Response) :
    coreStatuses (deliverProvisional r) = if r.statusCode = 100 then [] else [r.statusCode] := by
  unfold deliverProvisional
  by_cases h : r.statusCode = 100
  · rw [if_pos h, if_pos h]
    rfl
  · rw [if_neg h, if_neg h]
    rfl

theorem sentAcks_deliverProvisional (r : Response) : sentAcks (deliverProvisional r) = [] := by
  unfold deliverProvisional
  by_cases h : r.statusCode = 100
  · rw [if_pos h]
    rfl
  · rw [if_neg h]
    rfl

/-- What a response adds: a status for the core, or none, and one ACK when it is acknowledged. -/
structure Adds (t : InviteClientTransaction) (r : Response) (o : List Out)
    (t' : InviteClientTransaction) : Prop where
  delivered : ∀ l, t.Delivered l → t'.Delivered (l ++ coreStatuses o)
  not100 : 100 ∉ coreStatuses o
  acked : t.Acknowledges r →
    ∃ a, sentAcks o = [a] ∧ t'.ack = some a ∧ ∀ b, t.ack = some b → b = a
  unacked : ¬ t.Acknowledges r → sentAcks o = [] ∧ t'.ack = t.ack

/-- A response that is ignored. -/
theorem adds_nothing {r : Response} (hr : ¬ t.Acknowledges r) : Adds t r [] t where
  delivered l hl := by
    rw [show coreStatuses [] = [] from rfl, List.append_nil]
    exact hl
  not100 := List.not_mem_nil
  acked ha := absurd ha hr
  unacked _ := ⟨rfl, rfl⟩

/-- A provisional response, and the CANCEL that may have waited for it. -/
theorem adds_provisional {r : Response} (h1 : r.statusCode < 200)
    (hs : t.state = .calling ∨ t.state = .proceeding) (hs' : t'.state = .proceeding)
    (hack : t'.ack = t.ack) {cs : List Out} (hstatuses : coreStatuses cs = []) (hacks : sentAcks cs = []) :
    Adds t r (deliverProvisional r ++ cs) t' where
  delivered l hl := by
    have hprov : ∀ c ∈ l, c < 200 := by
      unfold Delivered at hl
      rcases hs with hs | hs
      · rwa [hs] at hl
      · rwa [hs] at hl
    unfold Delivered
    rw [hs', coreStatuses_append, hstatuses, List.append_nil, coreStatuses_deliverProvisional]
    by_cases h100 : r.statusCode = 100
    · rw [if_pos h100, List.append_nil]
      exact hprov
    · rw [if_neg h100]
      exact provisional_snoc hprov h1
  not100 := by
    rw [coreStatuses_append, hstatuses, List.append_nil, coreStatuses_deliverProvisional]
    by_cases h100 : r.statusCode = 100
    · rw [if_pos h100]
      exact List.not_mem_nil
    · rw [if_neg h100, List.mem_singleton]
      exact fun h => h100 h.symm
  acked ha := by
    have := ha.1
    omega
  unacked _ := by
    rw [sentAcks_append, sentAcks_deliverProvisional, hacks]
    exact ⟨rfl, hack⟩

/-- The ACK is built once. -/
theorem sendAck_spec (t : InviteClientTransaction) (r : Response) :
    ∃ a, (t.sendAck r).2 = [.send (.ack a)] ∧ (t.sendAck r).1.ack = some a ∧
      ∀ b, t.ack = some b → b = a := by
  refine ⟨_, rfl, rfl, fun b hb => ?_⟩
  rw [hb]
  rfl

/-- The first [3456]XX. -/
theorem adds_failure {r : Response} (h3 : 300 ≤ r.statusCode)
    (hs : t.state = .calling ∨ t.state = .proceeding) :
    Adds t r (t.receiveFailure r).2 (t.receiveFailure r).1 := by
  have hprov : ∀ l, t.Delivered l → ∀ c ∈ l, c < 200 := by
    intro l hl
    unfold Delivered at hl
    rcases hs with hs | hs
    · rwa [hs] at hl
    · rwa [hs] at hl
  have hfailure : Failure [r.statusCode] := ⟨_, rfl, h3⟩
  unfold receiveFailure
  dsimp only
  -- over a reliable transport the transaction is terminated at once
  generalize hu : (if t.transport = .udp then _ else _ : InviteClientTransaction) = u
  have hstate : u.state = .completed ∨ u.state = .terminated := by
    by_cases hudp : t.transport = .udp
    · rw [if_pos hudp] at hu
      exact .inl (by rw [← hu]; rfl)
    · rw [if_neg hudp] at hu
      exact .inr (by rw [← hu]; rfl)
  have hack : u.ack = t.ack := by
    by_cases hudp : t.transport = .udp
    · rw [if_pos hudp] at hu
      rw [← hu]
      rfl
    · rw [if_neg hudp] at hu
      rw [← hu]
      rfl
  obtain ⟨a, hout, hstored, hsame⟩ := u.sendAck_spec r
  have hstatuses : coreStatuses ((u.sendAck r).2 ++ [.core (.receiveResponse r)]) = [r.statusCode] := by
    rw [hout]
    rfl
  constructor
  · intro l hl
    rw [hstatuses]
    have hkeep : (u.sendAck r).1.state = u.state := rfl
    unfold Delivered
    rw [hkeep]
    rcases hstate with hstate | hstate
    · rw [hstate]
      exact .of_final (hprov l hl) hfailure
    · rw [hstate]
      exact .of_final (hprov l hl) (.inr hfailure)
  · rw [hstatuses, List.mem_singleton]
    omega
  · intro _
    refine ⟨a, by rw [hout]; rfl, hstored, fun b hb => hsame b (by rw [hack, hb])⟩
  · intro hno
    exact absurd ⟨h3, hs.elim .inl fun hs => .inr (.inl hs)⟩ hno

/-- Another [3456]XX while `:completed`. -/
theorem adds_failureAgain {r : Response} (hs : t.state = .completed) (h3 : 300 ≤ r.statusCode) :
    Adds t r (t.sendAck r).2 (t.sendAck r).1 := by
  obtain ⟨a, hout, hstored, hsame⟩ := t.sendAck_spec r
  constructor
  · intro l hl
    rw [hout, show coreStatuses [.send (.ack a)] = [] from rfl, List.append_nil]
    exact hl.of_state rfl
  · rw [hout]
    exact List.not_mem_nil
  · exact fun _ => ⟨a, by rw [hout]; rfl, hstored, hsame⟩
  · exact fun hno => absurd ⟨h3, .inr (.inr hs)⟩ hno

/-- A 2XX that is handed on. -/
theorem adds_success {r : Response} (h2 : 200 ≤ r.statusCode) (h3 : r.statusCode < 300)
    (hs : t.state = .calling ∨ t.state = .proceeding ∨ t.state = .accepted)
    (hs' : t'.state = .accepted) (hack : t'.ack = t.ack) :
    Adds t r [.core (.receiveResponse r)] t' where
  delivered l hl := by
    have hsuccess : Successes [r.statusCode] := by
      intro c hc
      obtain rfl := List.mem_singleton.mp hc
      exact ⟨h2, h3⟩
    unfold Delivered at hl ⊢
    rw [hs', show coreStatuses [.core (.receiveResponse r)] = [r.statusCode] from rfl]
    rcases hs with hs | hs | hs
    · rw [hs] at hl
      exact .of_final hl hsuccess
    · rw [hs] at hl
      exact .of_final hl hsuccess
    · rw [hs] at hl
      exact hl.snoc fun fs hfs => hfs.snoc ⟨h2, h3⟩
  not100 := by
    rw [show coreStatuses [.core (.receiveResponse r)] = [r.statusCode] from rfl,
      List.mem_singleton]
    omega
  acked ha := by
    have := ha.1
    omega
  unacked _ := ⟨rfl, hack⟩

theorem receiveResponse_adds (t : InviteClientTransaction) (r : Response) :
    Adds t r (t.receiveResponse r).2 (t.receiveResponse r).1 := by
  unfold receiveResponse
  by_cases h1 : r.statusCode < 200
  · rw [if_pos h1]
    have hno : ¬ t.Acknowledges r := fun ha => by
      have := ha.1
      omega
    cases hs : t.state with
    | calling =>
      dsimp only [cancelTimer]
      cases hc : t.cancel with
      | none =>
        dsimp only
        rw [← List.append_nil (deliverProvisional r)]
        refine adds_provisional h1 (.inl hs) ?_ ?_ ?_ ?_
        · rfl
        · rfl
        · rfl
        · rfl
      | some c =>
        dsimp only
        refine adds_provisional h1 (.inl hs) ?_ ?_ rfl rfl
        · unfold sendCancel
          by_cases hu : t.transport = .udp <;> simp [hu]
        · unfold sendCancel
          by_cases hu : t.transport = .udp <;> simp [hu]
    | proceeding =>
      rw [← List.append_nil (deliverProvisional r)]
      exact adds_provisional h1 (.inr hs) hs rfl rfl rfl
    | completed | accepted | terminated => exact adds_nothing hno
  · rw [if_neg h1]
    by_cases h3 : 300 ≤ r.statusCode
    · rw [if_pos h3]
      cases hs : t.state with
      | calling => exact adds_failure h3 (.inl hs)
      | proceeding => exact adds_failure h3 (.inr hs)
      | completed => exact adds_failureAgain hs h3
      | accepted | terminated => exact adds_nothing fun ha => by simp [Acknowledges, hs] at ha
    · rw [if_neg h3]
      have h2 : 200 ≤ r.statusCode := by omega
      have h3' : r.statusCode < 300 := by omega
      cases hs : t.state with
      | calling => exact adds_success h2 h3' (.inl hs) rfl rfl
      | proceeding => exact adds_success h2 h3' (.inr (.inl hs)) rfl rfl
      | accepted => exact adds_success h2 h3' (.inr (.inr hs)) hs rfl
      | completed | terminated => exact adds_nothing fun ha => h3 ha.1

end InviteClientTransaction

/-! ## Every run -/

namespace IctSystem

open InviteClientTransaction

/-- A run of an INVITE client transaction. -/
abbrev Trace := List (StepRec IctSystem (TimedEvent Event) Out)

/-- The event of a step is a [3456]XX that comes in `:calling`, `:proceeding` or `:completed`. -/
def failureReceived (r : StepRec IctSystem (TimedEvent Event) Out) : Bool :=
  match r.ev.ev with
  | .response x => decide (r.pre.ict.Acknowledges x)
  | _ => false

/-- What a run has handed to the core and acknowledged. -/
structure Law (tr : Trace) (t : InviteClientTransaction) : Prop where
  delivered : t.Delivered (coreStatuses (outputs tr))
  not100 : 100 ∉ coreStatuses (outputs tr)
  count : (sentAcks (outputs tr)).length = tr.countP failureReceived
  same : ∀ a ∈ sentAcks (outputs tr), t.ack = some a

/-- A step at which a response is received. -/
theorem receiveResponse_of_step {s s' : IctSystem} {e : TimedEvent Event} {o : List Out}
    {r : Response} (h : s.step e = some (s', o)) (hev : e.ev = .response r) :
    (s'.ict, o) = { s.ict with now := e.time }.receiveResponse r := by
  rw [step] at h
  split_ifs at h with hnow
  rw [hev, handle] at h
  split_ifs at h with hstored
  obtain ⟨rfl, rfl⟩ := Prod.mk.inj (Option.some.inj h)
  rfl

theorem Law.step {tr : Trace} {s s' : IctSystem} {e : TimedEvent Event} {o : List Out}
    (h : Law tr s.ict) (hs : s.step e = some (s', o)) :
    Law (tr ++ [⟨s, e, o, s'⟩]) s'.ict := by
  obtain ⟨hdelivered, hnot100, hcount, hsame⟩ := h
  have hclock : ({ s.ict with now := e.time } : InviteClientTransaction).Delivered
      (coreStatuses (outputs tr)) := hdelivered.of_state rfl
  by_cases hr : ∃ r, e.ev = .response r
  · obtain ⟨r, hr⟩ := hr
    have hresp := receiveResponse_of_step hs hr
    have hadds := receiveResponse_adds { s.ict with now := e.time } r
    rw [← hresp] at hadds
    have hreceived : failureReceived ⟨s, e, o, s'⟩ = decide (s.ict.Acknowledges r) := by
      unfold failureReceived
      rw [hr]
    constructor
    · rw [outputs_snoc, coreStatuses_append]
      exact hadds.delivered _ hclock
    · rw [outputs_snoc, coreStatuses_append, List.mem_append]
      exact fun h => h.elim hnot100 hadds.not100
    · rw [outputs_snoc, sentAcks_append, List.length_append, List.countP_append, hcount,
        List.countP_singleton, hreceived]
      by_cases ha : s.ict.Acknowledges r
      · obtain ⟨a, hout, _, _⟩ := hadds.acked ha
        rw [hout, if_pos (decide_eq_true ha)]
        rfl
      · rw [(hadds.unacked ha).1, if_neg (by simpa using ha)]
        rfl
    · rw [outputs_snoc, sentAcks_append]
      intro b hb
      by_cases ha : s.ict.Acknowledges r
      · obtain ⟨a, hout, hack, hold⟩ := hadds.acked ha
        rcases List.mem_append.mp hb with hb | hb
        · rw [hold b (hsame b hb)]
          exact hack
        · rw [hout] at hb
          rw [List.mem_singleton.mp hb]
          exact hack
      · obtain ⟨hout, hack⟩ := hadds.unacked ha
        rw [hout, List.append_nil] at hb
        exact hack.trans (hsame b hb)
  · have hquiet := (step_trans hs).2.untouched fun r hev => hr ⟨r, hev⟩
    obtain ⟨hstatuses, hacks, hack, hstate⟩ := hquiet
    have hreceived : failureReceived ⟨s, e, o, s'⟩ = false := by
      unfold failureReceived
      split
      · rename_i x hx
        exact absurd ⟨x, hx⟩ hr
      · rfl
    constructor
    · rw [outputs_snoc, coreStatuses_append, hstatuses, List.append_nil]
      rcases hstate with hstate | hstate
      · exact hclock.of_state hstate
      · exact hclock.terminated hstate
    · rw [outputs_snoc, coreStatuses_append, hstatuses, List.append_nil]
      exact hnot100
    · rw [outputs_snoc, sentAcks_append, hacks, List.append_nil, List.countP_append, hcount,
        List.countP_singleton, hreceived]
      rfl
    · rw [outputs_snoc, sentAcks_append, hacks, List.append_nil]
      exact fun b hb => hack.trans (hsame b hb)

section
variable {request : Request} {conf : TransactionConf} {transport : Transport} {topVia : String}
  {newConnection : Bool} {now : Nat} {tr : Trace} {s : IctSystem}

theorem law_of_run
    (h : Run step (start request conf transport topVia newConnection now) tr s) : Law tr s.ict := by
  refine h.invariant (G := fun _ _ => True) (I := fun tr s => Law tr s.ict) ?_
    (fun tr s e s' o hlaw _ hs => hlaw.step hs) fun _ _ => trivial
  refine ⟨?_, List.not_mem_nil, rfl, fun a ha => absurd ha List.not_mem_nil⟩
  unfold Delivered
  rw [start_state]
  exact fun c hc => absurd hc List.not_mem_nil

/-- **The responses of an INVITE.** In every run the statuses handed to the core are provisional ones
without 100, and then 2XX only or at most one [3456]XX. There is one ACK for each [3456]XX received in
`:calling`, `:proceeding` or `:completed`, all of them the same, and none for another response. -/
theorem inviteResponses
    (h : Run step (start request conf transport topVia newConnection now) tr s) :
    Form InviteTail (coreStatuses (outputs tr)) ∧ 100 ∉ coreStatuses (outputs tr) ∧
      (sentAcks (outputs tr)).length = tr.countP failureReceived ∧
      (∀ a ∈ sentAcks (outputs tr), ∀ b ∈ sentAcks (outputs tr), a = b) ∧
      ∀ r ∈ tr, ∀ x, r.ev.ev = .response x → x.statusCode < 300 → sentAcks r.out = [] := by
  have hlaw := law_of_run h
  refine ⟨hlaw.delivered.tail, hlaw.not100, hlaw.count, ?_, ?_⟩
  · intro a ha b hb
    exact Option.some.inj ((hlaw.same a ha).symm.trans (hlaw.same b hb))
  · intro r hr x hx hlow
    obtain ⟨tr₁, tr₂, rfl⟩ := List.append_of_mem hr
    have hresp := receiveResponse_of_step h.of_middle.2.1 hx
    have hadds := receiveResponse_adds { r.pre.ict with now := r.ev.time } x
    rw [← hresp] at hadds
    refine (hadds.unacked fun ha => ?_).1
    have := ha.1
    omega

end

/-- A call over UDP that rings and is refused; the 486 is retransmitted, and a 200 comes late. -/
def refusedTwice : List (TimedEvent Event) :=
  [⟨10, .response ⟨100, none⟩⟩, ⟨20, .response ⟨180, some "b"⟩⟩, ⟨30, .response ⟨486, some "b"⟩⟩,
    ⟨530, .response ⟨486, some "c"⟩⟩, ⟨600, .response ⟨200, some "b"⟩⟩]

theorem inviteResponses_refusedTwice : ∃ tr s,
    Run step (start sampleRequest TransactionConf.default .udp "v" false 0) tr s ∧
    coreStatuses (outputs tr) = [180, 486] ∧ tr.countP failureReceived = 2 ∧
    (sentAcks (outputs tr)).length = tr.countP failureReceived ∧
    ∀ a ∈ sentAcks (outputs tr), ∀ b ∈ sentAcks (outputs tr), a = b := by
  have hrun := run_of_exec (show exec step
    (start sampleRequest TransactionConf.default .udp "v" false 0) refusedTwice = some (_, _) from rfl)
  obtain ⟨_, _, hcount, hsame, _⟩ := inviteResponses hrun
  exact ⟨_, _, hrun, rfl, rfl, hcount, hsame⟩

end IctSystem

end OverSip
