import OverSip.Sip.FailureCalls
import OverSip.Sip.Proxy

/-!
# A CANCEL reaches every client transaction

A CANCEL is accepted while the server transaction is `:proceeding` and has its core. `CancelLaw` says
what must hold from then on: no exception, no INVITE to a further target, and every client transaction
is over or has its CANCEL.

`receive_cancel` assumes that there is a client transaction, and only the 503 path of
`receive_response` looks at `@canceled` before it tries the next target. The law holds of the runs in
which neither matters (`CancelTimely`): each CANCEL finds a client transaction, and a client transaction
that gives up for a usable target is open and not canceled.
-/

namespace OverSip

namespace InviteClientTransaction

/-- Over, answered, or canceled: the CANCEL is sent, or waits for the first provisional response. -/
def Settled (t : InviteClientTransaction) : Prop :=
  t.state = .terminated ∨ t.Answered ∨
    t.cancel ≠ none ∧ (t.state = .proceeding → t.cancelSent = true)

/-- A canceled transaction stays canceled. -/
theorem Trans.cancel_ne_none {t t' : InviteClientTransaction} {ev : Event} {o : List Out}
    (h : Trans t ev o t') (hc : t.cancel ≠ none) : t'.cancel ≠ none := by
  cases h with
  | @expire x _ _ _ _ _ hr =>
    generalize x.key = k at hr
    cases hr with
    | timerC hr => cases hr <;> simp_all
    | _ => exact hc
  | response _ _ hr =>
    cases hr with
    | firstProvisional _ _ hnone => exact absurd hnone hc
    | firstProvisionalCanceled _ _ hsome =>
      unfold InviteClientTransaction.sendCancel
      by_cases hu : t.transport = .udp <;> simp [hu, hsome]
    | _ => exact hc
  | doCancel _ hr => cases hr <;> simp_all
  | _ => exact hc

theorem CancelTrans.cancel_ne_none {t t' : InviteClientTransaction} {reasons : List String}
    {o : List Out} (h : CancelTrans t reasons o t') : t'.cancel ≠ none := by
  cases h with
  | again hc => exact hc
  | wait _ _ => simp
  | send _ _ =>
    unfold InviteClientTransaction.sendCancel
    by_cases hu : t.transport = .udp <;> simp [hu]

/-- The transaction gives up its target: timer B, or a connection failure that the guard of
`connection_failed` lets through. -/
def GivesUp (t : InviteClientTransaction) (ev : Event) : Prop :=
  ev = .expire ∧ (∃ x rest, t.timers.pop = some (x, rest) ∧ x.key = .B) ∨
    (ev = .connectionFailed ∨ ev = .tlsValidationFailed) ∧ (t.state = .calling ∨ t.cancel = none)

end InviteClientTransaction

namespace Out

/-- The outputs after which a proxy may start a further client transaction. -/
def mayGrow : Out → Bool
  | core (.receiveResponse r) => 300 ≤ r.statusCode
  | o => o.isFailure

/-- A call to the core. -/
def isCore : Out → Bool
  | core _ => true
  | _ => false

end Out

namespace InviteClientTransaction

theorem not_mayGrow_deliverProvisional {r : Response} (h : r.statusCode < 200) :
    (deliverProvisional r).any Out.mayGrow = false := by
  unfold deliverProvisional
  by_cases h100 : r.statusCode = 100
  · rw [if_pos h100]
    rfl
  · rw [if_neg h100]
    have hlt : ¬ 300 ≤ r.statusCode := by omega
    simp [Out.mayGrow, hlt]

/-- A proxy may go on to a further target after a final failure response to an open transaction or
after a transaction that gives up, and the transaction is over then. -/
theorem Trans.of_mayGrow {t t' : InviteClientTransaction} {ev : Event} {o : List Out}
    (h : Trans t ev o t') (ho : o.any Out.mayGrow = true) :
    ((∃ r, ev = .response r) ∧ t.Open ∨ t.GivesUp ev) ∧ ¬ t'.Open := by
  unfold Open
  cases h with
  | @expire x rest _ _ hpop _ hr =>
    generalize hk : x.key = k at hr
    cases hr with
    | timeout =>
      exact ⟨.inr (.inl ⟨rfl, x, rest, hpop, hk⟩), by simp⟩
    | timerC hr =>
      have := any_eq_false_of_send (P := Out.mayGrow) (fun _ => rfl) hr.out_send
      simp [this, Out.mayGrow, Out.isFailure] at ho
    | _ => simp [Out.mayGrow, Out.isFailure] at ho
  | @response r _ _ _ _ hr =>
    cases hr with
    | firstProvisional h2 _ _ => simp [not_mayGrow_deliverProvisional h2] at ho
    | firstProvisionalCanceled h2 _ _ =>
      simp [not_mayGrow_deliverProvisional h2, Out.mayGrow, Out.isFailure] at ho
    | provisional h2 _ => simp [not_mayGrow_deliverProvisional h2] at ho
    | failureUdp _ hs _ => exact ⟨.inl ⟨⟨r, rfl⟩, hs⟩, by simp⟩
    | failureReliable _ hs _ => exact ⟨.inl ⟨⟨r, rfl⟩, hs⟩, by simp⟩
    | failureAgain _ _ => simp [Out.mayGrow, Out.isFailure] at ho
    | success _ h3 _ =>
      have hlt : ¬ 300 ≤ r.statusCode := by omega
      simp [Out.mayGrow, hlt] at ho
    | successAgain _ h3 _ =>
      have hlt : ¬ 300 ≤ r.statusCode := by omega
      simp [Out.mayGrow, hlt] at ho
    | ignored _ => simp at ho
  | doCancel _ hr =>
    have := any_eq_false_of_send (P := Out.mayGrow) (fun _ => rfl) hr.out_send
    simp [this] at ho
  | fail hev hs _ =>
    exact ⟨.inr (.inr ⟨hev.imp And.left And.left, hs⟩), by simp⟩
  | _ => simp [Out.mayGrow, Out.isFailure] at ho

theorem countP_isCore_of_send {o : List Out} (ho : ∀ x ∈ o, ∃ m, x = .send m) :
    o.countP Out.isCore = 0 := by
  rw [List.countP_eq_zero]
  intro x hx
  obtain ⟨m, rfl⟩ := ho x hx
  simp [Out.isCore]

theorem countP_isCore_deliverProvisional (r : Response) :
    (deliverProvisional r).countP Out.isCore ≤ 1 := by
  unfold deliverProvisional
  by_cases h : r.statusCode = 100
  · rw [if_pos h]
    exact Nat.zero_le _
  · rw [if_neg h]
    exact List.countP_le_length

/-- One call to the core at most in a step. -/
theorem Trans.one_core {t t' : InviteClientTransaction} {ev : Event} {o : List Out}
    (h : Trans t ev o t') : o.countP Out.isCore ≤ 1 := by
  cases h with
  | @expire x _ _ _ _ _ hr =>
    generalize x.key = k at hr
    cases hr with
    | timerC hr =>
      rw [List.countP_append, countP_isCore_of_send hr.out_send]
      simp [Out.isCore]
    | retransmitCancel => cases t.cancel <;> simp [Out.isCore]
    | _ => simp [Out.isCore]
  | @response r _ _ _ _ hr =>
    cases hr with
    | firstProvisional _ _ _ => exact countP_isCore_deliverProvisional r
    | firstProvisionalCanceled _ _ _ =>
      simpa [Out.isCore] using countP_isCore_deliverProvisional r
    | provisional _ _ => exact countP_isCore_deliverProvisional r
    | _ => simp [Out.isCore]
  | doCancel _ hr =>
    rw [countP_isCore_of_send hr.out_send]
    exact Nat.zero_le _
  | _ => simp [Out.isCore]

/-- An open transaction that is canceled is settled. -/
theorem settled_of_canceled {t : InviteClientTransaction} (hw : t.Wf)
    (hc : t.Open → t.cancel ≠ none) : t.Settled := by
  unfold Settled Answered
  cases hs : t.state with
  | calling =>
    have := hc (.inl hs)
    simp [this]
  | proceeding =>
    have hne := hc (.inr hs)
    exact .inr (.inr ⟨hne, fun _ => (hw.canceled hs hne).1⟩)
  | completed => simp
  | accepted => simp
  | terminated => simp

end InviteClientTransaction

namespace Proxy

open InviteClientTransaction

/-! ## What the methods of the proxy do to its client transactions -/

/-- The proxy has the client transactions it had. -/
structure Keeps (p p' : Proxy) : Prop where
  clients : p'.clients = p.clients
  current : p'.current = p.current
  canceled : p'.canceled = p.canceled
  resolving : p'.resolving = p.resolving
  routed : p'.routed = p.routed
  request : p'.request = p.request
  conf : p'.conf = p.conf
  now : p'.now = p.now

/-- The proxy has started one more client transaction. -/
structure Grows (p p' : Proxy) : Prop where
  clients : ∃ transport topVia newConnection, p'.clients =
    p.clients ++ [IctSystem.start p.request p.conf transport topVia newConnection p.now]
  current : p'.current = .started p.clients.length
  canceled : p'.canceled = p.canceled
  resolving : p'.resolving = p.resolving
  routed : p'.routed = p.routed
  request : p'.request = p.request
  conf : p'.conf = p.conf
  now : p'.now = p.now

variable {p p' p'' : Proxy} {env : Env}

theorem Keeps.refl (p : Proxy) : Keeps p p := ⟨rfl, rfl, rfl, rfl, rfl, rfl, rfl, rfl⟩

theorem Keeps.trans (h : Keeps p p') (h' : Keeps p' p'') : Keeps p p'' :=
  ⟨h'.clients.trans h.clients, h'.current.trans h.current, h'.canceled.trans h.canceled,
    h'.resolving.trans h.resolving, h'.routed.trans h.routed, h'.request.trans h.request,
    h'.conf.trans h.conf, h'.now.trans h.now⟩

theorem Keeps.grows (h : Keeps p p') (h' : Grows p' p'') : Grows p p'' := by
  obtain ⟨transport, topVia, newConnection, hclients⟩ := h'.clients
  rw [h.clients, h.request, h.conf, h.now] at hclients
  exact ⟨⟨transport, topVia, newConnection, hclients⟩, by rw [h'.current, h.clients],
    h'.canceled.trans h.canceled, h'.resolving.trans h.resolving, h'.routed.trans h.routed,
    h'.request.trans h.request, h'.conf.trans h.conf, h'.now.trans h.now⟩

theorem Grows.keeps (h : Grows p p') (h' : Keeps p' p'') : Grows p p'' := by
  obtain ⟨transport, topVia, newConnection, hclients⟩ := h.clients
  exact ⟨⟨transport, topVia, newConnection, h'.clients.trans hclients⟩,
    h'.current.trans h.current, h'.canceled.trans h.canceled, h'.resolving.trans h.resolving,
    h'.routed.trans h.routed, h'.request.trans h.request, h'.conf.trans h.conf,
    h'.now.trans h.now⟩

theorem runCallbacks_keeps (p : Proxy) (env : Env) (c : Callback) : Keeps p (p.runCallbacks env c) :=
  ⟨rfl, rfl, rfl, rfl, rfl, rfl, rfl, rfl⟩

theorem reply_keeps (p : Proxy) (r : Reply) : Keeps p (p.reply r).1 :=
  ⟨rfl, rfl, rfl, rfl, rfl, rfl, rfl, rfl⟩

theorem replyUnlessDropped_keeps (p : Proxy) (r : Reply) : Keeps p (p.replyUnlessDropped r).1 := by
  unfold replyUnlessDropped
  by_cases hd : p.dropResponse = true
  · rw [if_pos hd]
    exact ⟨rfl, rfl, rfl, rfl, rfl, rfl, rfl, rfl⟩
  · rw [if_neg hd]
    exact p.reply_keeps r

theorem noMoreTargets_keeps (p : Proxy) (env : Env) (why : Option NoTarget) :
    Keeps p (p.noMoreTargets env why).1 := by
  unfold noMoreTargets
  cases why with
  | none =>
    by_cases hd : (p.runCallbacks env .error).dropResponse = true
    · simp only [if_pos hd]
      exact ⟨rfl, rfl, rfl, rfl, rfl, rfl, rfl, rfl⟩
    · simp only [if_neg hd]
      exact p.runCallbacks_keeps env .error
  | some why =>
    cases hr : why.fullResponse with
    | none => simp only [hr]; exact (p.runCallbacks_keeps env .error).trans (replyUnlessDropped_keeps _ _)
    | some r => simp only [hr]; exact (p.runCallbacks_keeps env .failure).trans (replyUnlessDropped_keeps _ _)

/-- The next target that `try_next_target` sends to, if there is one. -/
def nextTarget (env : Env) (aborted : Bool) : List Target → Option Target
  | [] => none
  | t :: ts =>
    if (env.blacklist t).isSome then nextTarget env aborted ts
    else if aborted || (env.callbacks (.target t)).abort then none
    else some t

theorem setTargets_keeps (p : Proxy) (ts : List Target) : Keeps p { p with targets := ts } :=
  ⟨rfl, rfl, rfl, rfl, rfl, rfl, rfl, rfl⟩

theorem tryNextTarget_blacklisted {t : Target} {entry : NoTarget} (hb : env.blacklist t = some entry)
    (ts : List Target) (p : Proxy) (why : Option NoTarget) :
    tryNextTarget env (t :: ts) p why =
      tryNextTarget env ts { p with targets := ts } (some entry) := by
  rw [tryNextTarget, hb]

/-- The proxy that has called `on_target` for `t`. -/
def atTarget (p : Proxy) (env : Env) (t : Target) (ts : List Target) : Proxy :=
  { p with targets := ts }.runCallbacks env (.target t)

theorem atTarget_keeps (p : Proxy) (env : Env) (t : Target) (ts : List Target) :
    Keeps p (p.atTarget env t ts) :=
  (p.setTargets_keeps ts).trans (runCallbacks_keeps _ env (.target t))

theorem tryNextTarget_use {t : Target} (hb : env.blacklist t = none) (ts : List Target) (p : Proxy)
    (why : Option NoTarget) :
    tryNextTarget env (t :: ts) p why =
      if (p.atTarget env t ts).aborted then
        { p.atTarget env t ts with aborted := false, targets := [] }.noMoreTargets env
          (some ⟨403, "Destination Aborted", none⟩)
      else (p.atTarget env t ts).startClient env t := by
  rw [tryNextTarget, hb]
  rfl

/-- Aborted at a target. -/
theorem aborted_keeps (p : Proxy) (env : Env) (t : Target) (ts : List Target) :
    Keeps p ({ p.atTarget env t ts with aborted := false, targets := [] }.noMoreTargets env
      (some ⟨403, "Destination Aborted", none⟩)).1 := by
  have hclear : Keeps (p.atTarget env t ts)
      { p.atTarget env t ts with aborted := false, targets := [] } :=
    ⟨rfl, rfl, rfl, rfl, rfl, rfl, rfl, rfl⟩
  exact ((p.atTarget_keeps env t ts).trans hclear).trans (noMoreTargets_keeps _ env _)

theorem startClient_grows (p : Proxy) (env : Env) (t : Target) : Grows p (p.startClient env t).1 :=
  ⟨⟨_, _, _, rfl⟩, rfl, rfl, rfl, rfl, rfl, rfl, rfl⟩

theorem tryNextTarget_spec (env : Env) (ts : List Target) (p : Proxy) (why : Option NoTarget) :
    Keeps p (tryNextTarget env ts p why).1 ∨
      nextTarget env p.aborted ts ≠ none ∧ Grows p (tryNextTarget env ts p why).1 := by
  induction ts generalizing p why with
  | nil => exact .inl ((p.setTargets_keeps []).trans (noMoreTargets_keeps _ env why))
  | cons t ts ih =>
    cases hb : env.blacklist t with
    | some entry =>
      rw [tryNextTarget_blacklisted hb, nextTarget, if_pos (by simp [hb])]
      have hskip := p.setTargets_keeps ts
      rcases ih { p with targets := ts } (some entry) with h | ⟨hne, h⟩
      · exact .inl (hskip.trans h)
      · exact .inr ⟨hne, hskip.grows h⟩
    | none =>
      have hfree : ¬ (env.blacklist t).isSome = true := by simp [hb]
      rw [tryNextTarget_use hb, nextTarget, if_neg hfree]
      by_cases hab : (p.atTarget env t ts).aborted = true
      · rw [if_pos hab]
        exact .inl (p.aborted_keeps env t ts)
      · rw [if_neg hab, if_neg (show ¬ (p.aborted || (env.callbacks (.target t)).abort) = true from hab)]
        exact .inr ⟨by simp, (p.atTarget_keeps env t ts).grows (startClient_grows _ env t)⟩

/-- A core call starts a client transaction only after a failure, for a target that can be used, and
after a failure response only while no CANCEL has been accepted. -/
theorem coreCall_spec (p : Proxy) (env : Env) (c : CoreCall) :
    Keeps p (p.coreCall env c).1 ∨
      (nextTarget env p.aborted p.targets ≠ none ∧ Grows p (p.coreCall env c).1) ∧
        Out.mayGrow (.core c) = true ∧ (p.canceled = true → Out.isFailure (.core c) = true) := by
  have hfail : ∀ why, Out.mayGrow (.core c) = true → Out.isFailure (.core c) = true →
      Keeps p (tryNextTarget env p.targets p why).1 ∨
        (nextTarget env p.aborted p.targets ≠ none ∧
          Grows p (tryNextTarget env p.targets p why).1) ∧
        Out.mayGrow (.core c) = true ∧ (p.canceled = true → Out.isFailure (.core c) = true) :=
    fun why hgrow hf =>
      (tryNextTarget_spec env p.targets p why).imp id fun h => ⟨h, hgrow, fun _ => hf⟩
  cases c with
  | receiveResponse r =>
    have hreply : ∀ (cb : Callback) (x : Reply),
        Keeps p ((p.runCallbacks env cb).replyUnlessDropped x).1 := fun cb x =>
      (p.runCallbacks_keeps env cb).trans (replyUnlessDropped_keeps _ _)
    rw [coreCall, receiveResponse]
    split_ifs with hv h1 h2 h3 h4
    · exact .inl (hreply _ _)
    · exact .inl (hreply _ _)
    · rcases tryNextTarget_spec env p.targets p (some ⟨0, "", some r⟩) with h | h
      · exact .inl h
      · right
        refine ⟨h, by simpa [Out.mayGrow] using h3.1, fun hc => ?_⟩
        rw [h3.2] at hc
        cases hc
    · exact .inl (hreply _ _)
    · exact .inl (replyUnlessDropped_keeps _ _)
    · exact .inl (replyUnlessDropped_keeps _ _)
  | clientTimeout => exact hfail _ rfl rfl
  | connectionFailed => exact hfail _ rfl rfl
  | tlsValidationFailed => exact hfail _ rfl rfl
  | inviteTimeout =>
    left
    unfold coreCall inviteTimeout
    by_cases hd : (p.runCallbacks env .inviteTimeout).dropResponse = true
    · simp only [if_pos hd]
      exact ⟨rfl, rfl, rfl, rfl, rfl, rfl, rfl, rfl⟩
    · simp only [if_neg hd]
      exact ⟨rfl, rfl, rfl, rfl, rfl, rfl, rfl, rfl⟩

theorem dispatch_no_core (env : Env) (i : Nat) (os : List Out) (p : Proxy)
    (hno : os.countP Out.isCore = 0) : (p.dispatch env i os).1 = p := by
  induction os with
  | nil => rfl
  | cons o os ih =>
    cases o with
    | core c => simp [Out.isCore] at hno
    | send m => exact ih (by simpa [Out.isCore] using hno)
    | raise e => exact ih (by simpa [Out.isCore] using hno)

/-- What the outputs of a client transaction do to the proxy. -/
theorem dispatch_spec (env : Env) (i : Nat) (os : List Out) (p : Proxy)
    (hone : os.countP Out.isCore ≤ 1) :
    Keeps p (p.dispatch env i os).1 ∨
      (nextTarget env p.aborted p.targets ≠ none ∧ Grows p (p.dispatch env i os).1) ∧
        os.any Out.mayGrow = true ∧ (p.canceled = true → os.any Out.isFailure = true) := by
  induction os with
  | nil => exact .inl (Keeps.refl p)
  | cons o os ih =>
    cases o with
    | core c =>
      have hrest : os.countP Out.isCore = 0 := by
        rw [List.countP_cons_of_pos rfl] at hone
        omega
      have heq : (p.dispatch env i (.core c :: os)).1 = (p.coreCall env c).1 :=
        dispatch_no_core env i os _ hrest
      rw [heq]
      rcases coreCall_spec p env c with h | ⟨h, hgrow, hc⟩
      · exact .inl h
      · exact .inr ⟨h, by simp [hgrow], fun hcanceled => by simp [hc hcanceled]⟩
    | send m =>
      rcases ih (by simpa [Out.isCore] using hone) with h | ⟨h, hgrow, hc⟩
      · exact .inl h
      · exact .inr ⟨h, by simp [hgrow], fun hcanceled => by simp [hc hcanceled]⟩
    | raise e =>
      rcases ih (by simpa [Out.isCore] using hone) with h | ⟨h, hgrow, hc⟩
      · exact .inl h
      · exact .inr ⟨h, by simp [hgrow], fun hcanceled => by simp [hc hcanceled]⟩

/-! ## The invariant -/

/-- What holds of a proxy whose steps are `CancelTimely`. -/
structure Inv (p : Proxy) : Prop where
  wf : ∀ c ∈ p.clients, c.ict.Wf ∧ c.ict.sent = true
  /-- Only the last client transaction is open. -/
  last : ∀ i c, p.clients[i]? = some c → c.ict.Open → p.current = .started i
  started : ∀ i, p.current = .started i → i < p.clients.length
  unstarted : (∀ i, p.current ≠ .started i) → p.clients = []
  fresh : p.routed = false → p.current = .none ∧ p.resolving = false ∧ p.canceled = false
  resolving : p.resolving = true → p.current = .none ∧ p.canceled = false
  canceled : p.canceled = true → ∀ c ∈ p.clients, c.ict.Open → c.ict.cancel ≠ none
  received : p.routed = true → p.request.uac = false

theorem Inv.keeps (h : Inv p) (hk : Keeps p p') : Inv p' := by
  obtain ⟨h1, h2, h3, h4, h5, h6, h7, h8⟩ := h
  constructor
  · rw [hk.clients]; exact h1
  · rw [hk.clients, hk.current]; exact h2
  · rw [hk.clients, hk.current]; exact h3
  · rw [hk.clients, hk.current]; exact h4
  · rw [hk.routed, hk.current, hk.resolving, hk.canceled]; exact h5
  · rw [hk.current, hk.resolving, hk.canceled]; exact h6
  · rw [hk.clients, hk.canceled]; exact h7
  · rw [hk.routed, hk.request]; exact h8

/-- A further client transaction, when all others are over and no CANCEL has been accepted. -/
theorem Inv.grows (h : Inv p) (hg : Grows p p') (hover : ∀ c ∈ p.clients, ¬ c.ict.Open)
    (hrouted : p.routed = true) (hres : p.resolving = false) (hcanceled : p.canceled = false) :
    Inv p' := by
  obtain ⟨transport, topVia, newConnection, hclients⟩ := hg.clients
  have huac := h.received hrouted
  constructor
  · intro c hc
    rw [hclients, List.mem_append, List.mem_singleton] at hc
    rcases hc with hc | rfl
    · exact h.wf c hc
    · refine ⟨Wf.start .., ?_⟩
      simp [IctSystem.start, new, sendRequest, huac]
  · intro i c hc hopen
    rw [hg.current]
    rw [hclients] at hc
    by_cases hi : i < p.clients.length
    · rw [List.getElem?_append_left hi] at hc
      exact absurd hopen (hover c (List.mem_of_getElem? hc))
    · have hlen := (List.getElem?_eq_some_iff.mp hc).1
      rw [List.length_append, List.length_singleton] at hlen
      congr 1
      omega
  · intro i hi
    rw [hg.current] at hi
    rw [hclients, List.length_append, List.length_singleton]
    obtain rfl := Current.started.inj hi
    omega
  · intro hno
    exact absurd hg.current (hno _)
  · intro hr
    rw [hg.routed, hrouted] at hr
    cases hr
  · intro hr
    rw [hg.resolving, hres] at hr
    cases hr
  · intro hc
    rw [hg.canceled, hcanceled] at hc
    cases hc
  · intro _
    rw [hg.request]
    exact huac

theorem Inv.start (request : Request) (conf : TransactionConf) (dnsFailoverOn503 : Bool)
    (server : Transport) (transactionId : String) (now : Nat) :
    Inv (start request conf dnsFailoverOn503 server transactionId now) := by
  constructor <;> simp [Proxy.start]

/-- The clock and the server transaction do not matter. -/
theorem Inv.of_server (h : Inv p) (server : InviteServerTransaction) (now : Nat) :
    Inv { p with server := server, now := now } :=
  ⟨h.wf, h.last, h.started, h.unstarted, h.fresh, h.resolving, h.canceled, h.received⟩

/-- The client transaction `i` changes and does not open again. -/
theorem Inv.set {i : Nat} {c c' : IctSystem} (h : Inv p) (hc : p.clients[i]? = some c)
    (hwf : c'.ict.Wf ∧ c'.ict.sent = true) (hopen : c'.ict.Open → c.ict.Open)
    (hcancel : c.ict.cancel ≠ none → c'.ict.cancel ≠ none) :
    Inv { p with clients := p.clients.set i c' } := by
  have hi := (List.getElem?_eq_some_iff.mp hc).1
  have hmem : ∀ x ∈ p.clients.set i c', x = c' ∨ x ∈ p.clients := fun x hx =>
    (List.mem_or_eq_of_mem_set hx).symm
  obtain ⟨h1, h2, h3, h4, h5, h6, h7, h8⟩ := h
  refine ⟨?_, ?_, ?_, ?_, h5, h6, ?_, h8⟩
  · intro x hx
    rcases hmem x hx with rfl | hx
    · exact hwf
    · exact h1 x hx
  · intro j x hx ho
    by_cases hij : i = j
    · subst hij
      rw [List.getElem?_set_self hi] at hx
      obtain rfl := Option.some.inj hx
      exact h2 i c hc (hopen ho)
    · rw [List.getElem?_set_ne hij] at hx
      exact h2 j x hx ho
  · intro j hj
    rw [List.length_set]
    exact h3 j hj
  · intro hno
    have hnil := h4 hno
    rw [hnil] at hi
    cases hi
  · intro hcanceled x hx ho
    rcases hmem x hx with rfl | hx
    · exact hcancel (h7 hcanceled c (List.mem_of_getElem? hc) (hopen ho))
    · exact h7 hcanceled x hx ho

/-! ## Steps -/

/-- The condition on a step: a CANCEL finds a client transaction, and a client transaction that gives
up while a target can be used is open, with no CANCEL accepted. -/
structure CancelTimely (p : Proxy) (e : TimedEvent EnvEvent) : Prop where
  cancel : ∀ reasons, e.ev.ev = .cancel reasons → p.server.state = .proceeding →
    p.routed = true → p.current ≠ .none
  givesUp : ∀ i ev c, e.ev.ev = .client i ev → p.clients[i]? = some c → c.ict.GivesUp ev →
    nextTarget e.ev.env p.aborted p.targets ≠ none → c.ict.Open ∧ p.canceled = false

theorem Inv.client {i : Nat} {c c' : IctSystem} {ev : InviteClientTransaction.Event} {o : List Out}
    (h : Inv p) (hrouted : p.routed = true) (hres : p.resolving = false)
    (hc : p.clients[i]? = some c) (hstep : c.step ⟨p.now, ev⟩ = some (c', o))
    (hG : c.ict.GivesUp ev → nextTarget env p.aborted p.targets ≠ none →
      c.ict.Open ∧ p.canceled = false) :
    Inv ({ p with clients := p.clients.set i c' }.dispatch env i o).1 ∧
      (p.canceled = true →
        Keeps { p with clients := p.clients.set i c' }
          ({ p with clients := p.clients.set i c' }.dispatch env i o).1) := by
  have hmem := List.mem_of_getElem? hc
  have ht := (IctSystem.step_trans hstep).2
  have hwf := (h.wf c hmem).1.withNow p.now
  have hset : Inv { p with clients := p.clients.set i c' } :=
    h.set hc ⟨hwf.trans ht, ht.same.sent.trans (h.wf c hmem).2⟩ ht.open_of ht.cancel_ne_none
  rcases dispatch_spec env i o { p with clients := p.clients.set i c' } ht.one_core with
    hkeep | ⟨⟨hne, hgrow⟩, hmay, hcan⟩
  · exact ⟨hset.keeps hkeep, fun _ => hkeep⟩
  · obtain ⟨hsource, hclosed⟩ := ht.of_mayGrow hmay
    -- the transaction was open, so it was the last one, and it is over now
    have hopen : c.ict.Open ∧ p.canceled = false := by
      rcases hsource with ⟨⟨r, rfl⟩, hopen⟩ | hgives
      · refine ⟨hopen, ?_⟩
        by_contra hcanceled
        have hfail := hcan (by simpa using hcanceled)
        rcases (ht.of_failure hwf hfail).1 with ⟨hev, _⟩ | ⟨hev, _⟩ <;> simp at hev
      · exact hG hgives hne
    have hcurrent := h.last i c hc hopen.1
    refine ⟨hset.grows hgrow ?_ hrouted hres hopen.2, fun hcanceled => ?_⟩
    · intro x hx ho
      obtain ⟨j, hj⟩ := List.getElem?_of_mem hx
      have hlast := hset.last j x hj ho
      rw [show p.current = .started j from hlast] at hcurrent
      obtain rfl := Current.started.inj hcurrent
      rw [List.getElem?_set_self (List.getElem?_eq_some_iff.mp hc).1] at hj
      obtain rfl := Option.some.inj hj
      exact hclosed ho
    · rw [hopen.2] at hcanceled
      cases hcanceled

/-- A CANCEL is accepted by a proxy all of whose open client transactions are canceled. -/
theorem Inv.accept (h : Inv p) (hrouted : p.routed = true) (hcurrent : p.current ≠ .none)
    (hall : ∀ c ∈ p.clients, c.ict.Open → c.ict.cancel ≠ none) (aborted dropResponse : Bool) :
    Inv { p with canceled := true, aborted := aborted, dropResponse := dropResponse } := by
  refine ⟨h.wf, h.last, h.started, h.unstarted, ?_, ?_, fun _ => hall, h.received⟩
  · intro hr
    rw [show p.routed = false from hr] at hrouted
    cases hrouted
  · intro hr
    exact absurd (h.resolving hr).1 hcurrent

theorem Inv.receiveCancel {reasons : List String} (h : Inv p) (hrouted : p.routed = true)
    (hcurrent : p.current ≠ .none) :
    Inv (p.receiveCancel env reasons).1 ∧ (∀ e, .raise e ∉ (p.receiveCancel env reasons).2) ∧
      (p.receiveCancel env reasons).1.canceled = true ∧
      (p.receiveCancel env reasons).1.clients.length = p.clients.length := by
  cases hcur : p.current with
  | none => exact absurd hcur hcurrent
  | unconnected =>
    have hnil : p.clients = [] := h.unstarted (by simp [hcur])
    have heq : p.receiveCancel env reasons =
        ({ p with canceled := true }.runCallbacks env .canceled, []) := by
      unfold Proxy.receiveCancel
      simp only [runCallbacks, hcur]
    rw [heq]
    exact ⟨h.accept hrouted hcurrent (by simp [hnil]) _ _, by simp, rfl, rfl⟩
  | started i =>
    obtain ⟨c, hc⟩ : ∃ c, p.clients[i]? = some c :=
      ⟨_, List.getElem?_eq_getElem (h.started i hcur)⟩
    let t : InviteClientTransaction := { c.ict with now := p.now }
    have heq : p.receiveCancel env reasons =
        ({ { p with canceled := true }.runCallbacks env .canceled with
            clients := p.clients.set i { c with ict := (t.doCancel reasons).1 } },
          (t.doCancel reasons).2.map (.client i)) := by
      unfold Proxy.receiveCancel
      simp only [runCallbacks, hcur, hc]
      rfl
    have hmem := List.mem_of_getElem? hc
    have ht := doCancel_trans t reasons
    have hwf : t.Wf := (h.wf c hmem).1.withNow p.now
    have hsent : t.sent = true := (h.wf c hmem).2
    have hset : Inv { p with clients := p.clients.set i { c with ict := (t.doCancel reasons).1 } } := by
      refine h.set hc ⟨hwf.cancelTrans hsent ht, ht.same.sent.trans hsent⟩ ?_ fun _ => ht.cancel_ne_none
      intro ho
      unfold Open at ho ⊢
      rwa [ht.state_eq] at ho
    rw [heq]
    refine ⟨hset.accept hrouted hcurrent ?_ _ _, ?_, rfl, List.length_set⟩
    · intro x hx ho
      obtain ⟨j, hj⟩ := List.getElem?_of_mem hx
      have hlast : p.current = .started j := hset.last j x hj ho
      rw [hcur] at hlast
      obtain rfl := Current.started.inj hlast
      rw [List.getElem?_set_self (h.started i hcur)] at hj
      obtain rfl := Option.some.inj hj
      exact ht.cancel_ne_none
    · intro e he
      obtain ⟨x, _, hx⟩ := List.mem_map.mp he
      cases hx

/-! ## Runs -/

/-- The step is a CANCEL that reaches the proxy. -/
def Accepts (r : StepRec Proxy (TimedEvent EnvEvent) ProxyOut) : Prop :=
  (∃ reasons, r.ev.ev.ev = .cancel reasons) ∧ r.pre.server.state = .proceeding ∧ r.pre.routed = true

/-- From an accepted CANCEL on: it has raised nothing, every client transaction is settled, and no
INVITE has gone to a further target. -/
def CancelLaw (tr : List (StepRec Proxy (TimedEvent EnvEvent) ProxyOut)) (p : Proxy) : Prop :=
  ∀ r ∈ tr, Accepts r → (∀ e, .raise e ∉ r.out) ∧ (∀ c ∈ p.clients, c.ict.Settled) ∧
    p.clients.length = r.pre.clients.length

/-- The end of the wait for DNS, and of a resolution that takes no time. -/
theorem Inv.resolve (h : Inv p) (hrouted : p.routed = true) (hnil : p.clients = [])
    (hcanceled : p.canceled = false) :
    (∀ t ts, Inv (p.rfc3263Succeeded env t ts).1) ∧
      ∀ status reason, Inv (p.doDnsFail env status reason).1 := by
  have hq : Inv { p with resolving := false } :=
    ⟨h.wf, h.last, h.started, h.unstarted, fun hr => ⟨(h.fresh hr).1, rfl, (h.fresh hr).2.2⟩,
      by simp, h.canceled, h.received⟩
  constructor
  · intro t ts
    rcases tryNextTarget_spec env (t :: ts) { p with resolving := false } none with hk | ⟨_, hg⟩
    · exact hq.keeps hk
    · exact hq.grows hg (by simp [hnil]) hrouted rfl hcanceled
  · intro status reason
    exact hq.keeps ((runCallbacks_keeps _ env .error).trans (replyUnlessDropped_keeps _ _))

theorem Inv.route (h : Inv p) (hfresh : p.routed = false) (huac : p.request.uac = false)
    (how : Routing) : Inv (p.route env how).1 := by
  obtain ⟨hcurrent, hres, hcanceled⟩ := h.fresh hfresh
  have hnil : p.clients = [] := h.unstarted (by simp [hcurrent])
  have hq : Inv { p with routed := true } :=
    ⟨h.wf, h.last, h.started, h.unstarted, by simp, h.resolving, h.canceled, fun _ => huac⟩
  cases how with
  | flow connection =>
    cases connection with
    | none =>
      have hun : Inv { p with routed := true, current := .unconnected } := by
        constructor <;> simp [hnil, hres, huac]
      exact hun.keeps ((runCallbacks_keeps _ env .error).trans (replyUnlessDropped_keeps _ _))
    | some t =>
      exact hq.grows (startClient_grows _ env t) (by simp [hnil]) rfl hres hcanceled
  | resolved t ts => exact (hq.resolve rfl hnil hcanceled).1 t ts
  | failed status reason => exact (hq.resolve rfl hnil hcanceled).2 status reason
  | wait =>
    show Inv { p with routed := true, resolving := true }
    constructor <;> simp [hnil, hcurrent, hcanceled, huac]

theorem Inv.of_resolving (h : Inv p) (hres : p.resolving = true) :
    p.routed = true ∧ p.clients = [] ∧ p.canceled = false := by
  obtain ⟨hcurrent, hcanceled⟩ := h.resolving hres
  refine ⟨?_, h.unstarted (by simp [hcurrent]), hcanceled⟩
  by_contra hr
  have hno := (h.fresh (by simpa using hr)).2.1
  rw [hres] at hno
  cases hno

/-- A proxy with client transactions has been routed and waits for DNS no more. -/
theorem Inv.of_clients {c : IctSystem} (h : Inv p) (hc : c ∈ p.clients) :
    p.routed = true ∧ p.resolving = false := by
  have hstarted : p.current ≠ .none := by
    intro hnone
    rw [h.unstarted (by simp [hnone])] at hc
    cases hc
  constructor
  · by_contra hr
    exact hstarted (h.fresh (by simpa using hr)).1
  · by_contra hr
    exact hstarted (h.resolving (by simpa using hr)).1

/-- A step of a client transaction and what the proxy makes of its outputs. -/
theorem handle_client {i : Nat} {ev : InviteClientTransaction.Event} {o : List ProxyOut} :
    p.handle env (.client i ev) = some (p', o) → ∃ c c' oc, p.clients[i]? = some c ∧
      c.step ⟨p.now, ev⟩ = some (c', oc) ∧
      (p', o) = { p with clients := p.clients.set i c' }.dispatch env i oc := by
  intro h
  cases ev with
  | doCancel reasons => cases h
  | _ =>
    unfold handle at h
    dsimp only at h
    split at h
    · cases h
    · rename_i c hc
      split at h
      · cases h
      · rename_i c' oc hstep
        exact ⟨c, c', oc, hc, hstep, (Option.some.inj h).symm⟩

/-- One timely step. -/
theorem Inv.step {e : TimedEvent EnvEvent} {o : List ProxyOut} (h : Inv p) (hG : CancelTimely p e)
    (hs : p.step e = some (p', o)) :
    Inv p' ∧ (p.canceled = true → p'.canceled = true ∧ p'.clients.length = p.clients.length) ∧
      (Accepts ⟨p, e, o, p'⟩ → (∀ x, .raise x ∉ o) ∧ p'.canceled = true ∧
        p'.clients.length = p.clients.length) := by
  rw [Proxy.step] at hs
  split_ifs at hs with hnow
  have hq := h.of_server { p.server with now := e.time } e.time
  cases hev : e.ev.ev with
  | route how =>
    rw [hev, handle] at hs
    split_ifs at hs with hguard
    obtain ⟨rfl, rfl⟩ := Prod.mk.inj (Option.some.inj hs)
    refine ⟨hq.route hguard.1 hguard.2 how, fun hc => ?_, fun ⟨⟨reasons, hr⟩, _⟩ => ?_⟩
    · rw [show p.canceled = false from (h.fresh hguard.1).2.2] at hc
      cases hc
    · rw [hev] at hr
      cases hr
  | dnsSucceeded t ts =>
    rw [hev, handle] at hs
    split_ifs at hs with hres
    obtain ⟨rfl, rfl⟩ := Prod.mk.inj (Option.some.inj hs)
    obtain ⟨hrouted, hnil, hcanceled⟩ := h.of_resolving hres
    refine ⟨(hq.resolve hrouted hnil hcanceled).1 t ts, fun hc => ?_,
      fun ⟨⟨reasons, hr⟩, _⟩ => ?_⟩
    · rw [hcanceled] at hc
      cases hc
    · rw [hev] at hr
      cases hr
  | dnsFailed status reason =>
    rw [hev, handle] at hs
    split_ifs at hs with hres
    obtain ⟨rfl, rfl⟩ := Prod.mk.inj (Option.some.inj hs)
    obtain ⟨hrouted, hnil, hcanceled⟩ := h.of_resolving hres
    refine ⟨(hq.resolve hrouted hnil hcanceled).2 status reason,
      fun hc => ?_, fun ⟨⟨reasons, hr⟩, _⟩ => ?_⟩
    · rw [hcanceled] at hc
      cases hc
    · rw [hev] at hr
      cases hr
  | client i ev =>
    have hG' := hG.givesUp i ev
    rw [hev] at hs
    obtain ⟨c, c', oc, hc, hstep, hp'⟩ := handle_client hs
    obtain ⟨rfl, rfl⟩ := Prod.mk.inj hp'
    obtain ⟨hrouted, hres⟩ := h.of_clients (List.mem_of_getElem? hc)
    obtain ⟨hinv, hkeep⟩ := hq.client hrouted hres hc hstep (hG' c hev hc)
    refine ⟨hinv, fun hcanceled => ?_, fun ⟨⟨reasons, hr⟩, _⟩ => ?_⟩
    · have hk := hkeep hcanceled
      refine ⟨hk.canceled.trans hcanceled, ?_⟩
      rw [hk.clients]
      exact List.length_set
    · rw [hev] at hr
      cases hr
  | cancel reasons =>
    rw [hev, handle] at hs
    split_ifs at hs with hguard
    · obtain ⟨rfl, rfl⟩ := Prod.mk.inj (Option.some.inj hs)
      have hcurrent := hG.cancel reasons hev hguard.1 hguard.2
      obtain ⟨hinv, hraise, hcanceled, hlen⟩ :=
        hq.receiveCancel hguard.2 hcurrent
      exact ⟨hinv, fun _ => ⟨hcanceled, hlen⟩, fun _ => ⟨hraise, hcanceled, hlen⟩⟩
    · obtain ⟨rfl, rfl⟩ := Prod.mk.inj (Option.some.inj hs)
      exact ⟨hq, fun hc => ⟨hc, rfl⟩, fun ⟨_, hacc⟩ => absurd hacc hguard⟩
  | ack =>
    rw [hev, handle] at hs
    obtain ⟨rfl, rfl⟩ := Prod.mk.inj (Option.some.inj hs)
    refine ⟨h.of_server _ _, fun hc => ⟨hc, rfl⟩, fun ⟨⟨reasons, hr⟩, _⟩ => ?_⟩
    rw [hev] at hr
    cases hr
  | serverTimer =>
    rw [hev, handle] at hs
    split at hs
    · split_ifs at hs with hdue
      obtain ⟨rfl, rfl⟩ := Prod.mk.inj (Option.some.inj hs)
      refine ⟨h.of_server _ _, fun hc => ⟨hc, rfl⟩, fun ⟨⟨reasons, hr⟩, _⟩ => ?_⟩
      rw [hev] at hr
      cases hr
    · cases hs

/-- **No lost CANCEL**, in every run whose steps are timely. -/
theorem cancelLaw_of_run {request : Request} {conf : TransactionConf} {dnsFailoverOn503 : Bool}
    {server : Transport} {transactionId : String} {now : Nat}
    {tr : List (StepRec Proxy (TimedEvent EnvEvent) ProxyOut)} {p : Proxy}
    (h : Run Proxy.step (start request conf dnsFailoverOn503 server transactionId now) tr p)
    (hG : ∀ r ∈ tr, CancelTimely r.pre r.ev) : CancelLaw tr p := by
  suffices hI : Inv p ∧ ∀ r ∈ tr, Accepts r →
      (∀ e, .raise e ∉ r.out) ∧ p.canceled = true ∧ p.clients.length = r.pre.clients.length by
    obtain ⟨hinv, hlaw⟩ := hI
    intro r hr hacc
    obtain ⟨hraise, hcanceled, hlen⟩ := hlaw r hr hacc
    refine ⟨hraise, fun c hc => ?_, hlen⟩
    exact settled_of_canceled (hinv.wf c hc).1 (hinv.canceled hcanceled c hc)
  refine Run.invariant (G := CancelTimely) (I := fun tr p => Inv p ∧ ∀ r ∈ tr, Accepts r →
    (∀ e, .raise e ∉ r.out) ∧ p.canceled = true ∧ p.clients.length = r.pre.clients.length) ?_ ?_ h hG
  · exact ⟨Inv.start .., by simp⟩
  · intro tr p e p' o ⟨hinv, hlaw⟩ hGe hs
    obtain ⟨hinv', hlater, hnow⟩ := hinv.step hGe hs
    refine ⟨hinv', fun r hr hacc => ?_⟩
    rcases List.mem_append.mp hr with hr | hr
    · obtain ⟨hraise, hcanceled, hlen⟩ := hlaw r hr hacc
      obtain ⟨hcanceled', hlen'⟩ := hlater hcanceled
      exact ⟨hraise, hcanceled', hlen'.trans hlen⟩
    · obtain rfl := List.mem_singleton.mp hr
      exact hnow hacc

end Proxy

/-! ## The CANCEL that finds no client transaction -/

/-- Nothing is blacklisted and no callback does anything. -/
def plainEnv : Env :=
  { blacklist := fun _ => none, callbacks := fun _ => ⟨false, false⟩, topVia := fun t => t.ip
    newConnection := fun _ => false }

/-- The only target of the domain. -/
def sampleTarget : Target := { transport := .udp, ip := "192.0.2.1", port := 5060 }

/-- A CANCEL arrives while the proxy waits for DNS. -/
def canceledDuringDns : List (TimedEvent Proxy.EnvEvent) :=
  [⟨0, ⟨plainEnv, .route .wait⟩⟩, ⟨100, ⟨plainEnv, .cancel []⟩⟩,
    ⟨200, ⟨plainEnv, .dnsSucceeded sampleTarget []⟩⟩]

/-- The proxy of `sampleRequest`, received over UDP. -/
def sampleProxy : Proxy := Proxy.start sampleRequest TransactionConf.default true .udp "b" 0

/-- The CANCEL raises, and the INVITE is sent after it. -/
theorem cancelLaw_broken_during_dns :
    ∃ tr p, Run Proxy.step sampleProxy tr p ∧ tr.map (·.ev) = canceledDuringDns ∧
      (∃ r ∈ tr, Proxy.Accepts r ∧ .raise .noMethodError ∈ r.out ∧
        p.clients.length ≠ r.pre.clients.length) ∧ ¬ Proxy.CancelLaw tr p := by
  have hrun := run_of_exec
    (show exec Proxy.step (sampleProxy) canceledDuringDns = some (_, _) from rfl)
  refine ⟨_, _, hrun, rfl, ?_, ?_⟩
  · refine ⟨_, List.mem_cons_of_mem _ (List.mem_cons_self ..), ⟨⟨[], rfl⟩, rfl, rfl⟩, ?_, by decide⟩
    exact List.mem_singleton.mpr rfl
  · intro hlaw
    have hbad := hlaw _ (List.mem_cons_of_mem _ (List.mem_cons_self ..)) ⟨⟨[], rfl⟩, rfl, rfl⟩
    exact hbad.1 _ (List.mem_singleton.mpr rfl)

/-- Ringing at the target, and then the CANCEL. -/
def canceledWhileRinging : List (TimedEvent Proxy.EnvEvent) :=
  [⟨0, ⟨plainEnv, .route (.resolved sampleTarget [])⟩⟩,
    ⟨50, ⟨plainEnv, .client 0 (.response ⟨180, none⟩)⟩⟩, ⟨100, ⟨plainEnv, .cancel []⟩⟩]

/-- The law at work: the CANCEL goes to the ringing target. -/
theorem cancelLaw_while_ringing :
    ∃ tr p, Run Proxy.step sampleProxy tr p ∧ tr.map (·.ev) = canceledWhileRinging ∧
      p.canceled = true ∧ Proxy.CancelLaw tr p := by
  have hrun := run_of_exec
    (show exec Proxy.step (sampleProxy) canceledWhileRinging = some (_, _) from rfl)
  refine ⟨_, _, hrun, rfl, rfl, Proxy.cancelLaw_of_run hrun ?_⟩
  intro r hr
  simp only [List.mem_cons, List.not_mem_nil, or_false] at hr
  rcases hr with rfl | rfl | rfl
  · constructor <;> simp
  · constructor
    · simp
    · intro i ev c hev _ hgives
      cases hev
      simp [InviteClientTransaction.GivesUp] at hgives
  · refine ⟨fun _ _ _ _ hnone => ?_, by simp⟩
    have hsome : Current.started 0 = .none := hnone
    cases hsome

end OverSip
