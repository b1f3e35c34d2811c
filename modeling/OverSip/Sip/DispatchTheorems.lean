import OverSip.Sip.Dispatch
import OverSip.Sip.MessageProcessorTheorems

/-!
# When the processing of a message raises

`raises_iff` gives the three ways: a request whose branch is too short to be cut, a response to a CANCEL
that was not sent, and a CANCEL for a proxy that has no client transaction yet. Whatever a response makes
a proxy do, with the targets that are left, raises nothing.
-/

namespace OverSip

theorem InviteClientTransaction.CancelTrans.not_raise {t t' : InviteClientTransaction}
    {reasons : List String} {o : List Out} (h : CancelTrans t reasons o t') :
    o.any Out.isRaise = false := by
  cases h <;> rfl

namespace Proxy

theorem not_raise_reply (p : Proxy) (r : Reply) : (p.reply r).2.any ProxyOut.isRaise = false := by
  unfold reply
  simp [ProxyOut.isRaise]

theorem not_raise_replyUnlessDropped (p : Proxy) (r : Reply) :
    (p.replyUnlessDropped r).2.any ProxyOut.isRaise = false := by
  unfold replyUnlessDropped
  by_cases hd : p.dropResponse = true
  · rw [if_pos hd]
    rfl
  · rw [if_neg hd]
    exact p.not_raise_reply r

theorem not_raise_noMoreTargets (p : Proxy) (env : Env) (why : NoTarget) :
    (p.noMoreTargets env (some why)).2.any ProxyOut.isRaise = false := by
  unfold noMoreTargets
  cases hr : why.fullResponse with
  | none =>
    simp only [hr]
    exact not_raise_replyUnlessDropped _ _
  | some r =>
    simp only [hr]
    exact not_raise_replyUnlessDropped _ _

/-- With a status for the case that no target is left. -/
theorem not_raise_tryNextTarget (env : Env) (ts : List Target) (p : Proxy) (why : NoTarget) :
    (tryNextTarget env ts p (some why)).2.any ProxyOut.isRaise = false := by
  induction ts generalizing p why with
  | nil => exact not_raise_noMoreTargets _ env why
  | cons t ts ih =>
    rw [tryNextTarget]
    dsimp only
    cases env.blacklist t with
    | some entry => exact ih _ entry
    | none =>
      dsimp only
      split
      · exact not_raise_noMoreTargets _ env _
      · simp [startClient, ProxyOut.isRaise, Out.isRaise]

theorem not_raise_receiveResponse (p : Proxy) (env : Env) (r : Response) :
    (p.receiveResponse env r).2.any ProxyOut.isRaise = false := by
  unfold receiveResponse
  by_cases hv : p.server.validResponse r.statusCode = true
  · rw [if_pos hv]
    by_cases h1 : r.statusCode < 200 ∧ p.canceled = false
    · rw [if_pos h1]
      exact not_raise_replyUnlessDropped _ _
    · rw [if_neg h1]
      by_cases h2 : 200 ≤ r.statusCode ∧ r.statusCode ≤ 299
      · rw [if_pos h2]
        exact not_raise_replyUnlessDropped _ _
      · rw [if_neg h2]
        by_cases h3 : 300 ≤ r.statusCode ∧ p.canceled = false
        · rw [if_pos h3]
          by_cases h503 : r.statusCode = 503 ∧ p.dnsFailoverOn503 = true
          · rw [if_pos h503]
            exact not_raise_tryNextTarget env _ p _
          · rw [if_neg h503]
            exact not_raise_replyUnlessDropped _ _
        · rw [if_neg h3]
          exact not_raise_replyUnlessDropped _ _
  · rw [if_neg hv]
    exact not_raise_replyUnlessDropped _ _

/-- A CANCEL is passed on to the client transaction, when there is one. -/
theorem raise_receiveCancel_iff (p : Proxy) (env : Env) (reasons : List String) :
    (p.receiveCancel env reasons).2.any ProxyOut.isRaise = true ↔ p.current = .none := by
  have hcurrent : ({ p with canceled := true }.runCallbacks env .canceled).current = p.current := rfl
  unfold receiveCancel
  dsimp only
  generalize { p with canceled := true }.runCallbacks env .canceled = p' at hcurrent ⊢
  rw [← hcurrent]
  cases hc : p'.current with
  | none => simp [ProxyOut.isRaise]
  | unconnected => simp
  | started i =>
    cases hi : p'.clients[i]? with
    | none => simp [hi]
    | some c =>
      have hcancel := InviteClientTransaction.doCancel_trans { c.ict with now := p'.now } reasons
      have hno := hcancel.not_raise
      simp only [hi, List.any_map]
      constructor
      · intro h
        rw [show (ProxyOut.isRaise ∘ ProxyOut.client i) = Out.isRaise from rfl, hno] at h
        cases h
      · intro h
        cases h

end Proxy

/-! ## Client transactions -/

/-- A message that is sent, or a response that is handed to the core. -/
def Out.isDelivery : Out → Bool
  | .send _ | .core (.receiveResponse _) => true
  | _ => false

theorem InviteClientTransaction.ResponseTrans.all_isDelivery {t t' : InviteClientTransaction}
    {r : Response} {o : List Out} (h : ResponseTrans t r o t') : o.all Out.isDelivery = true := by
  have hprovisional : (deliverProvisional r).all Out.isDelivery = true := by
    unfold deliverProvisional
    split <;> rfl
  cases h with
  | firstProvisional _ _ _ => exact hprovisional
  | firstProvisionalCanceled _ _ _ => simp [hprovisional, Out.isDelivery]
  | provisional _ _ => exact hprovisional
  | _ => rfl

theorem NonInviteClientTransaction.all_isDelivery (t : NonInviteClientTransaction) (r : Response) :
    (t.receiveResponse r).2.all Out.isDelivery = true := by
  unfold receiveResponse
  dsimp only
  split
  · split
    · split <;> rfl
    · split <;> rfl
    · rfl
    · rfl
  · split <;> rfl

theorem InviteClientTransaction.raise_receiveResponseToCancel_iff (t : InviteClientTransaction) :
    t.receiveResponseToCancel.2.any Out.isRaise = true ↔
      t.state ≠ .terminated ∧ t.cancelSent = false := by
  unfold receiveResponseToCancel
  by_cases hs : t.state = .terminated
  · simp [hs]
  · rw [if_neg hs]
    dsimp only
    cases hc : t.cancelSent with
    | true => simp [hs, hc]
    | false => simp [hs, hc, Out.isRaise]

namespace World

theorem not_raise_callCore (env : Env) (id : String) (os : List Out) (core : Option Proxy)
    (h : os.all Out.isDelivery = true) :
    (callCore env id core os).2.any DispatchOut.isRaise = false := by
  induction os generalizing core with
  | nil => rfl
  | cons o os ih =>
    rw [List.all_cons, Bool.and_eq_true] at h
    cases o with
    | raise e => simp [Out.isDelivery] at h
    | send m =>
      rw [callCore.eq_def]
      simp [DispatchOut.isRaise, Out.isRaise, ih _ h.2]
    | core c =>
      cases c with
      | receiveResponse r =>
        cases core with
        | none =>
          rw [callCore.eq_def]
          simp [DispatchOut.isRaise, Out.isRaise, ih _ h.2]
        | some p =>
          have hp := p.not_raise_receiveResponse env r
          rw [callCore.eq_def]
          simp only [Proxy.coreCall, List.any_append, List.any_map, ih _ h.2, Bool.or_false]
          exact hp
      | _ => simp [Out.isDelivery] at h

/-! ## Messages -/

/-- The messages whose processing raises. -/
inductive Raises (w : World) (m : SipMessage) : Prop
  /-- A request that is looked at for a loop, with a branch that has no eighth character to cut at. -/
  | shortBranch : m.kind = .request → m.viaBranchId = none → m.method ≠ .cancel →
      ¬ (m.method = .ack ∧ m.slReplyToTag = true) → w.status = .running → Raises w m
  /-- A response to a CANCEL, for an INVITE whose CANCEL has not been sent. -/
  | responseToCancel {statusCode : Nat} {id : String} {t : InviteClientTransaction} :
      m.kind = .response statusCode → m.method = .cancel → m.viaBranchId = some id →
      w.inviteClients id = some t → t.state ≠ .terminated → t.cancelSent = false → Raises w m
  /-- A CANCEL for an INVITE whose proxy has no client transaction. -/
  | cancel {id : String} {i : Nat} {tx : ServerTransaction} {t : InviteServerTransaction}
      {core : Proxy} :
      m.kind = .request → m.method = .cancel → m.viaBranchId = some id →
      w.processor.lookup .invite id = some i → w.processor.transactions[i]? = some tx →
      tx.transaction = .invite t → t.state = .proceeding →
      w.serverCore i = some core → core.current = .none → Raises w m

theorem raise_processRequestWithoutId_iff (w : World) (m : SipMessage) :
    (w.processRequestWithoutId m).any DispatchOut.isRaise = true ↔
      m.method ≠ .cancel ∧ ¬ (m.method = .ack ∧ m.slReplyToTag = true) ∧ w.status = .running := by
  unfold processRequestWithoutId
  by_cases hcancel : m.method = .cancel
  · simp [hcancel, DispatchOut.isRaise]
  · rw [if_neg hcancel]
    by_cases hack : m.method = .ack ∧ m.slReplyToTag = true
    · simp [hack]
    · rw [if_neg hack]
      by_cases hrunning : w.status = .running
      · simp [hrunning, hcancel, hack, DispatchOut.isRaise]
      · rw [if_pos hrunning]
        by_cases hm : m.method = .ack
        · simp [hm, hrunning]
        · simp [hm, hrunning, DispatchOut.isRaise]

theorem not_raise_processor (o : List ProcessorOut) :
    (o.map DispatchOut.processor).any DispatchOut.isRaise = false := by
  simp [DispatchOut.isRaise]

theorem canceledTransaction_eq_none {o : List ProcessorOut} (h : ∀ i, .receiveCancel i ∉ o) :
    canceledTransaction o = none := by
  unfold canceledTransaction
  rw [List.findSome?_eq_none_iff]
  intro x hx
  cases x with
  | receiveCancel i => exact absurd hx (h i)
  | _ => rfl

/-- A request of another method goes on to no core. -/
theorem not_mem_receiveCancel {p : MessageProcessor} {status : Status} {q : IncomingRequest}
    (hm : q.method ≠ .cancel) (i : Nat) : .receiveCancel i ∉ (p.processRequest status q).2 := by
  have habsorb : ∀ j, .receiveCancel i ∉ (p.absorb q j).2 := by
    intro j
    unfold MessageProcessor.absorb
    cases p.transactions[j]? with
    | none => simp
    | some tx => simp
  have hcheck : ∀ result, p.checkTransaction q = some result → .receiveCancel i ∉ result.2 := by
    intro result h
    unfold MessageProcessor.checkTransaction at h
    cases hq : q.method with
    | cancel => exact absurd hq hm
    | invite | other _ =>
      simp only [hq] at h
      obtain ⟨j, _, rfl⟩ := Option.map_eq_some_iff.mp h
      exact habsorb j
    | ack =>
      simp only [hq] at h
      split at h
      · split at h
        · obtain rfl := Option.some.inj h
          simp
        · obtain rfl := Option.some.inj h
          simp [MessageProcessor.update]
      · split at h
        · obtain rfl := Option.some.inj h
          simp
        · cases h
  unfold MessageProcessor.processRequest
  cases hc : p.checkTransaction q with
  | some result => exact hcheck result hc
  | none =>
    dsimp only
    split
    · exact MessageProcessor.not_mem_replyStateless (by simp)
    · split
      · exact MessageProcessor.not_mem_replyStateless (by simp)
      · simp

/-- Only a CANCEL that matches an INVITE in `:proceeding` goes on to the transaction. -/
theorem canceledTransaction_iff {p : MessageProcessor} {status : Status} {q : IncomingRequest}
    {i : Nat} :
    canceledTransaction (p.processRequest status q).2 = some i ↔
      q.method = .cancel ∧ p.lookup .invite q.viaBranchId = some i ∧
        ∃ tx t, p.transactions[i]? = some tx ∧ tx.transaction = .invite t ∧ t.state = .proceeding := by
  by_cases hm : q.method = .cancel
  · unfold MessageProcessor.processRequest MessageProcessor.checkTransaction
    simp only [hm, true_and]
    cases hj : p.lookup .invite q.viaBranchId with
    | none => simp [canceledTransaction]
    | some j =>
      dsimp only
      cases htx : p.transactions[j]? with
      | none =>
        simp only [canceledTransaction, List.findSome?_cons, List.findSome?_nil, Option.some.injEq]
        constructor
        · intro h
          cases h
        · rintro ⟨rfl, tx, t, htx', _⟩
          rw [htx] at htx'
          cases htx'
      | some tx =>
        obtain ⟨request, connection, transaction⟩ := tx
        cases transaction with
        | nonInvite t =>
          simp only [canceledTransaction, List.findSome?_cons, List.findSome?_nil, Option.some.injEq]
          constructor
          · intro h
            cases h
          · rintro ⟨rfl, tx, t', htx', ht', _⟩
            rw [htx] at htx'
            obtain rfl := Option.some.inj htx'
            cases ht'
        | invite t =>
          dsimp only
          by_cases hs : t.state = .proceeding
          · rw [if_pos hs]
            simp only [canceledTransaction, List.findSome?_cons, Option.some.injEq]
            constructor
            · rintro rfl
              exact ⟨rfl, _, t, htx, rfl, hs⟩
            · rintro ⟨rfl, _⟩
              rfl
          · rw [if_neg hs]
            simp only [canceledTransaction, List.findSome?_cons, List.findSome?_nil,
              Option.some.injEq]
            constructor
            · intro h
              cases h
            · rintro ⟨rfl, tx, t', htx', ht', hs'⟩
              rw [htx] at htx'
              obtain rfl := Option.some.inj htx'
              cases ht'
              exact absurd hs' hs
  · rw [canceledTransaction_eq_none (not_mem_receiveCancel hm)]
    simp [hm]

/-- The call of the core raises when the core has no client transaction. -/
theorem raise_receiveCancel_iff (w : World) (m : SipMessage) (i : Nat) :
    (w.receiveCancel m i).2.any DispatchOut.isRaise = true ↔
      ∃ core, w.serverCore i = some core ∧ core.current = .none := by
  unfold receiveCancel
  cases hcore : w.serverCore i with
  | none => simp
  | some core =>
    have h := core.raise_receiveCancel_iff w.env m.reasons
    simp only [List.any_map, Option.some.injEq]
    rw [show (DispatchOut.isRaise ∘ DispatchOut.proxy) = ProxyOut.isRaise from rfl, h]
    constructor
    · intro hnone
      exact ⟨core, rfl, hnone⟩
    · rintro ⟨_, rfl, hnone⟩
      exact hnone

theorem raise_processRequest_iff (w : World) (m : SipMessage) (connection : Nat)
    (transport : Transport) (hm : m.kind = .request) :
    (w.processRequest m connection transport).2.any DispatchOut.isRaise = true ↔ w.Raises m := by
  unfold processRequest
  cases hid : m.viaBranchId with
  | none =>
    dsimp only
    rw [w.raise_processRequestWithoutId_iff m]
    constructor
    · intro ⟨hcancel, hack, hrunning⟩
      exact .shortBranch hm hid hcancel hack hrunning
    · intro h
      cases h with
      | shortBranch _ _ hcancel hack hrunning => exact ⟨hcancel, hack, hrunning⟩
      | responseToCancel hkind => rw [hm] at hkind; cases hkind
      | cancel _ _ hid' => rw [hid] at hid'; cases hid'
  | some id =>
    dsimp only
    cases hi : canceledTransaction (w.processor.processRequest w.status
        (m.toIncomingRequest id connection transport)).2 with
    | none =>
      dsimp only
      rw [not_raise_processor]
      constructor
      · intro h
        cases h
      · intro h
        cases h with
        | shortBranch _ hid' => rw [hid] at hid'; cases hid'
        | responseToCancel hkind => rw [hm] at hkind; cases hkind
        | @cancel id' i tx t core _ hcancel hid' hlookup htx ht hs _ _ =>
          obtain rfl := Option.some.inj (hid.symm.trans hid')
          have hsome : canceledTransaction (w.processor.processRequest w.status
              (m.toIncomingRequest id connection transport)).2 = some i :=
            canceledTransaction_iff.mpr ⟨hcancel, hlookup, tx, t, htx, ht, hs⟩
          rw [hi] at hsome
          cases hsome
    | some i =>
      obtain ⟨hcancel, hlookup, tx, t, htx, ht, hs⟩ := canceledTransaction_iff.mp hi
      dsimp only
      rw [List.any_append, not_raise_processor, Bool.false_or, raise_receiveCancel_iff]
      constructor
      · intro ⟨core, hcore, hnone⟩
        exact .cancel hm hcancel hid hlookup htx ht hs hcore hnone
      · intro h
        cases h with
        | shortBranch _ hid' => rw [hid] at hid'; cases hid'
        | responseToCancel hkind => rw [hm] at hkind; cases hkind
        | @cancel id' i' tx' t' core _ _ hid' hlookup' _ _ _ hcore hnone =>
          obtain rfl := Option.some.inj (hid.symm.trans hid')
          obtain rfl := Option.some.inj (hlookup.symm.trans hlookup')
          exact ⟨core, hcore, hnone⟩

theorem not_raise_of_isDelivery {o : List Out} (h : o.all Out.isDelivery = true) :
    o.any Out.isRaise = false := by
  rw [List.any_eq_false]
  intro x hx
  have hd := List.all_eq_true.mp h x hx
  cases x with
  | raise e => simp [Out.isDelivery] at hd
  | _ => simp [Out.isRaise]

/-- The messages whose processing raises are all no responses, but those to a CANCEL. -/
theorem not_raises_response {w : World} {m : SipMessage} {statusCode : Nat}
    (hm : m.kind = .response statusCode) (hcancel : m.method ≠ .cancel) : ¬ w.Raises m := by
  intro h
  cases h with
  | shortBranch hkind => rw [hm] at hkind; cases hkind
  | responseToCancel _ hc => exact hcancel hc
  | cancel hkind => rw [hm] at hkind; cases hkind

theorem raise_processResponse_iff (w : World) (m : SipMessage) (statusCode : Nat)
    (hm : m.kind = .response statusCode) :
    (w.processResponse m statusCode).2.any DispatchOut.isRaise = true ↔ w.Raises m := by
  have hquiet : m.method ≠ .cancel → ∀ o : List DispatchOut, o.any DispatchOut.isRaise = false →
      (o.any DispatchOut.isRaise = true ↔ w.Raises m) := by
    intro hcancel o ho
    rw [ho]
    exact ⟨fun h => absurd h (by simp), fun h => absurd h (not_raises_response hm hcancel)⟩
  unfold processResponse
  dsimp only
  split
  · rename_i hid
    constructor
    · intro h
      cases h
    · intro h
      cases h with
      | shortBranch hkind => rw [hm] at hkind; cases hkind
      | responseToCancel _ _ hid' => rw [hid] at hid'; cases hid'
      | cancel hkind => rw [hm] at hkind; cases hkind
  · rename_i hmethod
    exact hquiet (by simp [hmethod]) [] rfl
  · rename_i id hid hmethod
    split
    · exact hquiet (by simp [hmethod]) [] rfl
    · refine hquiet (by simp [hmethod]) _ ?_
      exact not_raise_callCore _ _ _ _
        (InviteClientTransaction.receiveResponse_trans _ _).all_isDelivery
  · rename_i id hid hmethod
    split
    · rename_i hnone
      constructor
      · intro h
        cases h
      · intro h
        cases h with
        | shortBranch hkind => rw [hm] at hkind; cases hkind
        | responseToCancel _ _ hid' ht =>
          obtain rfl := Option.some.inj (hid.symm.trans hid')
          rw [hnone] at ht
          cases ht
        | cancel hkind => rw [hm] at hkind; cases hkind
    · rename_i found hfound
      dsimp only
      rw [List.any_map, show (DispatchOut.isRaise ∘ DispatchOut.client id) = Out.isRaise from rfl,
        InviteClientTransaction.raise_receiveResponseToCancel_iff]
      constructor
      · intro ⟨hs, hunsent⟩
        exact .responseToCancel hm hmethod hid hfound hs hunsent
      · intro h
        cases h with
        | shortBranch hkind => rw [hm] at hkind; cases hkind
        | responseToCancel _ _ hid' ht hs hunsent =>
          obtain rfl := Option.some.inj (hid.symm.trans hid')
          obtain rfl := Option.some.inj (hfound.symm.trans ht)
          exact ⟨hs, hunsent⟩
        | cancel hkind => rw [hm] at hkind; cases hkind
  · rename_i id name hid hmethod
    split
    · exact hquiet (by simp [hmethod]) [] rfl
    · refine hquiet (by simp [hmethod]) _ ?_
      rw [List.any_map, show (DispatchOut.isRaise ∘ DispatchOut.client id) = Out.isRaise from rfl]
      exact not_raise_of_isDelivery (NonInviteClientTransaction.all_isDelivery _ _)

theorem raises_iff (w : World) (m : SipMessage) (connection : Nat) (transport : Transport) :
    (w.process m connection transport).2.any DispatchOut.isRaise = true ↔ w.Raises m := by
  unfold process
  cases hm : m.kind with
  | request => exact w.raise_processRequest_iff m connection transport hm
  | response statusCode => exact w.raise_processResponse_iff m statusCode hm

end World

end OverSip
