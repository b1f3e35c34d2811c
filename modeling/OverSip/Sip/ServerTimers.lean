import OverSip.Sip.MessageProcessorTheorems

/-!
# Every stored server transaction has a timer that ends it

A server transaction leaves its table when it is terminated. `Timed` says which timer will do that in
each state, and that timer G runs only while a [3456]XX is repeated over UDP. It holds of every
transaction of a class (`timed_of_run`); those in the tables are not terminated (`stored_of_run`).
-/

namespace OverSip

open TimerQueue

/-! ## INVITE -/

/-- The timer that ends an INVITE transaction. -/
def IstState.terminator : IstState → Option IstTimer
  | .proceeding => some .C2
  | .accepted => some .L
  | .completed => some .H
  | .confirmed => some .I
  | .terminated => none

namespace InviteServerTransaction

variable {t : InviteServerTransaction}

/-- The timer that ends the transaction is armed, and timer G only where it may be. -/
structure Timed (t : InviteServerTransaction) : Prop where
  has : ∀ k, t.state.terminator = some k → t.timers.Has k
  hasG : t.timers.Has .G → t.state = .completed ∧ t.transport = .udp

theorem timed_of_has {k : IstTimer} (hk : t.state.terminator = some k) (h : t.timers.Has k)
    (hG : t.timers.Has .G → t.state = .completed ∧ t.transport = .udp) : t.Timed := by
  refine ⟨fun l hl => ?_, hG⟩
  rw [hk] at hl
  rwa [← Option.some.inj hl]

theorem timed_of_terminated (hs : t.state = .terminated) (hG : ¬ t.timers.Has .G) : t.Timed := by
  refine ⟨fun l hl => ?_, fun h => absurd h hG⟩
  rw [hs] at hl
  cases hl

/-- Outside of `:completed` timer G is not armed. -/
theorem Timed.not_hasG (h : t.Timed) (hs : t.state ≠ .completed) : ¬ t.timers.Has .G :=
  fun hG => hs (h.hasG hG).1

theorem Timed.receiveResponse (h : t.Timed) (statusCode : Nat) :
    (t.receiveResponse statusCode).1.Timed := by
  unfold InviteServerTransaction.receiveResponse
  by_cases h1 : statusCode < 200
  · rw [if_pos h1]
    split <;> exact h
  · rw [if_neg h1]
    by_cases h2 : 200 ≤ statusCode ∧ statusCode < 300
    · rw [if_pos h2]
      cases hs : t.state with
      | proceeding =>
        have hG := h.not_hasG (by simp [hs])
        exact timed_of_has (k := .L) rfl (by simp) (by simp [hG])
      | _ => exact h
    · rw [if_neg h2]
      cases hs : t.state with
      | proceeding =>
        have hG := h.not_hasG (by simp [hs])
        by_cases hu : t.transport = .udp
        · exact timed_of_has (k := .H) (by simp [hu, IstState.terminator]) (by simp) (by simp [hu])
        · exact timed_of_has (k := .H) (by simp [hu, IstState.terminator]) (by simp) (by simp [hu, hG])
      | _ => exact h

theorem Timed.reply (h : t.Timed) (r : Reply) : (t.reply r).1.Timed := by
  have hreceive := h.receiveResponse r.statusCode
  unfold InviteServerTransaction.reply
  split
  · rename_i t' ht
    rw [ht] at hreceive
    exact ⟨hreceive.has, hreceive.hasG⟩
  · rename_i t' ht
    rw [ht] at hreceive
    exact hreceive

theorem Timed.receiveAck (h : t.Timed) : t.receiveAck.1.Timed := by
  unfold InviteServerTransaction.receiveAck
  cases hs : t.state with
  | completed =>
    by_cases hu : t.transport = .udp
    · simp only [cancelTimer, hu, if_true]
      exact timed_of_has (k := .I) rfl (by simp) (by simp)
    · simp only [cancelTimer, hu, if_false]
      exact timed_of_terminated rfl (by simp)
  | _ => exact h

/-- A timer that expires ends the transaction, or is timer G and is armed again. -/
theorem Timed.expire {x : Armed IstTimer} {rest : TimerQueue IstTimer} (h : t.Timed) (hw : t.Wf)
    (hpop : t.timers.pop = some (x, rest)) : ({ t with timers := rest }.expire x.key).1.Timed := by
  have hx : t.timers.Has x.key := .of_mem (pop_mem hpop)
  by_cases hG : x.key = .G
  · rw [hG] at hx ⊢
    obtain ⟨hs, hu⟩ := h.hasG hx
    have hH : Has rest .H := (h.has .H (by rw [hs]; rfl)).pop hpop (by simp [hG])
    refine timed_of_has (k := .H) ?_ ?_ fun _ => ⟨hs, hu⟩
    · simp [InviteServerTransaction.expire, hs, IstState.terminator]
    · simp [InviteServerTransaction.expire, hH]
  · have hends : t.state ≠ .completed →
        ({ t with timers := rest, state := .terminated } : InviteServerTransaction).Timed := by
      intro hs
      exact timed_of_terminated rfl fun hG => h.not_hasG hs (hG.of_pop hpop)
    cases hk : x.key with
    | G => exact absurd hk hG
    | H => exact timed_of_terminated rfl (by simp [InviteServerTransaction.expire])
    | C2 =>
      rw [hk] at hx
      exact hends (by simp [hw.hasC2 hx])
    | I =>
      rw [hk] at hx
      exact hends (by simp [hw.hasI hx])
    | L =>
      rw [hk] at hx
      exact hends (by simp [hw.hasL hx])

theorem timed_new (transactionId : String) (transport : Transport) (now : Nat) :
    (new transactionId transport now).1.Timed := by
  have hstart : ({ transactionId, transport, now, state := .proceeding, lastResponse := none
                   intervalG := 0, timers := [] : InviteServerTransaction }.arm .C2 TIMER_C2).Timed :=
    timed_of_has (k := .C2) rfl (by simp) (by simp)
  exact hstart.reply _

end InviteServerTransaction

/-! ## Non-INVITE -/

/-- The timers that end a non-INVITE transaction; INT1 does it by arming INT2. -/
def NistState.terminators : NistState → List NistTimer
  | .trying | .proceeding => [.INT1, .INT2]
  | .completed => [.J]
  | .terminated => []

namespace NonInviteServerTransaction

variable {t : NonInviteServerTransaction}

/-- The timer that ends the transaction, or the one that arms it, is armed. -/
structure Timed (t : NonInviteServerTransaction) : Prop where
  awaiting : t.Awaiting → t.timers.Has .INT1 ∨ t.timers.Has .INT2
  completed : t.state = .completed → t.timers.Has .J

theorem timed_of_completed (hs : t.state = .completed) (hJ : t.timers.Has .J) : t.Timed :=
  ⟨fun ha => by simp [Awaiting, hs] at ha, fun _ => hJ⟩

theorem timed_of_terminated (hs : t.state = .terminated) : t.Timed :=
  ⟨fun ha => by simp [Awaiting, hs] at ha, fun hc => by simp [hs] at hc⟩

theorem Timed.reply (h : t.Timed) (r : Reply) : (t.reply r).1.Timed := by
  unfold NonInviteServerTransaction.reply NonInviteServerTransaction.receiveResponse
  by_cases h1 : r.statusCode < 200
  · rw [if_pos h1]
    cases hs : t.state with
    | trying => exact ⟨fun _ => h.awaiting (.inl hs), fun hc => by cases hc⟩
    | proceeding => exact ⟨h.awaiting, h.completed⟩
    | completed | terminated => exact h
  · rw [if_neg h1]
    cases hs : t.state with
    | trying | proceeding =>
      by_cases hu : t.transport = .udp
      · simp only [cancelTimer, hu, if_true]
        exact timed_of_completed rfl (by simp)
      · simp only [cancelTimer, hu, if_false]
        exact timed_of_terminated rfl
    | completed | terminated => exact h

theorem Timed.expire {x : Armed NistTimer} {rest : TimerQueue NistTimer} (hw : t.Wf)
    (hpop : t.timers.pop = some (x, rest)) : ({ t with timers := rest }.expire x.key).1.Timed := by
  have hx : t.timers.Has x.key := .of_mem (pop_mem hpop)
  cases hk : x.key with
  | INT1 =>
    rw [hk] at hx
    have ha := (hw.hasINT1 hx).1
    have hafter : ∀ t' : NonInviteServerTransaction, t'.Awaiting → (t'.arm .INT2 INT2).Timed := by
      intro t' ha'
      refine ⟨fun _ => .inr (by simp), fun hc => ?_⟩
      rcases ha' with hs | hs
      · cases hs.symm.trans hc
      · cases hs.symm.trans hc
    unfold NonInviteServerTransaction.expire
    by_cases hl : t.lastResponse = none
    · rw [if_pos hl]
      exact hafter _ (reply_provisional (t := { t with timers := rest }) ha (.built 100 "I'm alive")
        (by simp [Reply.statusCode])).1
    · rw [if_neg hl]
      exact hafter _ ha
  | INT2 | J => exact timed_of_terminated rfl

theorem timed_new (transactionId : String) (transport : Transport) (now : Nat) :
    (new transactionId transport now).Timed :=
  ⟨fun _ => .inl (by simp [new]), fun hc => by cases hc⟩

end NonInviteServerTransaction

/-! ## Both classes -/

namespace Transaction

def Timed : Transaction → Prop
  | .invite t => t.Timed
  | .nonInvite t => t.Timed

/-- What holds of every new transaction and is kept by all that can happen to one. -/
structure Kept (P : Transaction → Prop) : Prop where
  invite : ∀ transactionId transport now,
    P (.invite (InviteServerTransaction.new transactionId transport now).1)
  nonInvite : ∀ transactionId transport now,
    P (.nonInvite (NonInviteServerTransaction.new transactionId transport now))
  setNow : ∀ t now, P t → P (t.setNow now)
  reply : ∀ t r, P t → P (t.reply r).1
  receiveAck : ∀ t, P t → P t.receiveAck.1
  expire : ∀ t t' o, P t → t.expire = some (t', o) → P t'

theorem Timed.setNow {t : Transaction} (h : t.Timed) (now : Nat) : (t.setNow now).Timed := by
  cases t with
  | invite t => exact ⟨h.has, h.hasG⟩
  | nonInvite t => exact ⟨h.awaiting, h.completed⟩

theorem Timed.expire {t t' : Transaction} {o : List ServerOut} (h : t.Timed) (hw : t.Wf)
    (hexp : t.expire = some (t', o)) : t'.Timed := by
  unfold Transaction.expire at hexp
  cases t with
  | invite t =>
    dsimp only at hexp
    cases hpop : t.timers.pop with
    | none => simp [hpop] at hexp
    | some p =>
      obtain ⟨x, rest⟩ := p
      simp only [hpop] at hexp
      by_cases hdue : x.due ≤ t.now
      · rw [if_pos hdue] at hexp
        obtain ⟨rfl, rfl⟩ := Prod.mk.inj (Option.some.inj hexp)
        exact InviteServerTransaction.Timed.expire h hw hpop
      · rw [if_neg hdue] at hexp
        cases hexp
  | nonInvite t =>
    dsimp only at hexp
    cases hpop : t.timers.pop with
    | none => simp [hpop] at hexp
    | some p =>
      obtain ⟨x, rest⟩ := p
      simp only [hpop] at hexp
      by_cases hdue : x.due ≤ t.now
      · rw [if_pos hdue] at hexp
        obtain ⟨rfl, rfl⟩ := Prod.mk.inj (Option.some.inj hexp)
        exact NonInviteServerTransaction.Timed.expire hw hpop
      · rw [if_neg hdue] at hexp
        cases hexp

theorem kept_timed : Kept fun t => t.Wf ∧ t.Timed where
  invite transactionId transport now :=
    ⟨(InviteServerTransaction.new_spec transactionId transport now).1,
      InviteServerTransaction.timed_new transactionId transport now⟩
  nonInvite transactionId transport now :=
    ⟨(NonInviteServerTransaction.new_spec transactionId transport now).1,
      NonInviteServerTransaction.timed_new transactionId transport now⟩
  setNow _ now h := ⟨wf_setNow h.1 now, h.2.setNow now⟩
  reply t r h := by
    refine ⟨(reply_spec h.1 r).1, ?_⟩
    cases t with
    | invite t => exact InviteServerTransaction.Timed.reply h.2 r
    | nonInvite t => exact NonInviteServerTransaction.Timed.reply h.2 r
  receiveAck t h := by
    refine ⟨(receiveAck_spec h.1).1, ?_⟩
    cases t with
    | invite t => exact InviteServerTransaction.Timed.receiveAck h.2
    | nonInvite t => exact h.2
  expire _ _ _ h hexp := ⟨(expire_spec h.1 hexp).1, h.2.expire h.1 hexp⟩

end Transaction

/-! ## The transactions of a class -/

namespace MessageProcessor

variable {P : Transaction → Prop} {p p' : MessageProcessor}

/-- `P` holds of all transactions. -/
def All (P : Transaction → Prop) (p : MessageProcessor) : Prop :=
  ∀ tx ∈ p.transactions, P tx.transaction

theorem All.set {i : Nat} {tx : ServerTransaction} (h : p.All P) (htx : P tx.transaction) :
    ∀ tx' ∈ p.transactions.set i tx, P tx'.transaction := by
  intro tx' htx'
  rcases List.mem_or_eq_of_mem_set htx' with hmem | rfl
  · exact h tx' hmem
  · exact htx

theorem All.update {i : Nat} {tx : ServerTransaction} {t : Transaction} {o : List ServerOut}
    (h : p.All P) (ht : P t) : (p.update i tx t o).1.All P := by
  unfold All
  rw [transactions_update]
  exact h.set ht

theorem All.absorb {q : IncomingRequest} {i : Nat} (h : p.All P) : (p.absorb q i).1.All P := by
  unfold MessageProcessor.absorb
  cases htx : p.transactions[i]? with
  | none => exact h
  | some tx => exact h.set (h tx (List.mem_of_getElem? htx))

theorem All.checkTransaction {q : IncomingRequest} {result : MessageProcessor × List ProcessorOut}
    (hP : Transaction.Kept P) (h : p.All P) (hc : p.checkTransaction q = some result) :
    result.1.All P := by
  unfold MessageProcessor.checkTransaction at hc
  cases hm : q.method with
  | invite | other _ =>
    simp only [hm] at hc
    obtain ⟨i, _, rfl⟩ := Option.map_eq_some_iff.mp hc
    exact h.absorb
  | ack =>
    simp only [hm] at hc
    cases hi : p.lookup .invite q.viaBranchId with
    | none =>
      simp only [hi] at hc
      by_cases hs : q.slReplyToTag = true
      · rw [if_pos hs] at hc
        obtain rfl := Option.some.inj hc
        exact h
      · rw [if_neg hs] at hc
        cases hc
    | some i =>
      simp only [hi] at hc
      cases htx : p.transactions[i]? with
      | none =>
        simp only [htx] at hc
        obtain rfl := Option.some.inj hc
        exact h
      | some tx =>
        simp only [htx] at hc
        obtain rfl := Option.some.inj hc
        exact h.update (hP.receiveAck _ (hP.setNow _ p.now (h tx (List.mem_of_getElem? htx))))
  | cancel =>
    -- a CANCEL is answered and passed to the core
    simp only [hm] at hc
    cases hi : p.lookup .invite q.viaBranchId with
    | none =>
      simp only [hi] at hc
      obtain rfl := Option.some.inj hc
      exact h
    | some i =>
      simp only [hi] at hc
      split at hc
      · split at hc
        · obtain rfl := Option.some.inj hc
          exact h
        · obtain rfl := Option.some.inj hc
          exact h
      · obtain rfl := Option.some.inj hc
        exact h

theorem All.processRequest (hP : Transaction.Kept P) (h : p.All P) (status : Status)
    (q : IncomingRequest) : (p.processRequest status q).1.All P := by
  unfold MessageProcessor.processRequest
  cases hc : p.checkTransaction q with
  | some result => exact h.checkTransaction hP hc
  | none =>
    dsimp only
    by_cases hs : status ≠ .running
    · rw [if_pos hs]
      exact h
    · rw [if_neg hs]
      by_cases hl : isLoop q = true
      · rw [if_pos hl]
        exact h
      · rw [if_neg hl]
        exact h

theorem All.createTransaction {j : Nat} {o : List ProcessorOut} (hP : Transaction.Kept P)
    (h : p.All P) (hc : p.createTransaction j = some (p', o)) : p'.All P := by
  have hsnoc : ∀ (q : IncomingRequest) (k : Table) (t : Transaction), P t →
      (p.created j q k t).All P := by
    intro q k t ht tx htx
    rcases List.mem_append.mp htx with hmem | hmem
    · exact h tx hmem
    · obtain rfl := List.mem_singleton.mp hmem
      exact ht
  unfold MessageProcessor.createTransaction at hc
  cases hq : p.pending[j]? with
  | none => simp [hq] at hc
  | some q =>
    simp only [hq] at hc
    cases hm : q.method with
    | invite =>
      simp only [hm, Option.map_some, Option.some.injEq] at hc
      obtain ⟨rfl, rfl⟩ := Prod.mk.inj hc
      exact hsnoc q .invite _ (hP.invite q.viaBranchId q.transport p.now)
    | other name =>
      simp only [hm, Option.map_some, Option.some.injEq] at hc
      obtain ⟨rfl, rfl⟩ := Prod.mk.inj hc
      exact hsnoc q .nonInvite _ (hP.nonInvite q.viaBranchId q.transport p.now)
    | ack | cancel => simp [hm] at hc

theorem All.handle {ev : Event} {o : List ProcessorOut} (hP : Transaction.Kept P) (h : p.All P)
    (hs : p.handle ev = some (p', o)) : p'.All P := by
  cases ev with
  | arrive status q =>
    obtain ⟨rfl, rfl⟩ := Prod.mk.inj (Option.some.inj hs)
    exact h.processRequest hP status q
  | create j => exact h.createTransaction hP hs
  | finish j =>
    unfold MessageProcessor.handle at hs
    dsimp only at hs
    by_cases hj : j < p.pending.length
    · rw [if_pos hj] at hs
      obtain ⟨rfl, rfl⟩ := Prod.mk.inj (Option.some.inj hs)
      exact h
    · rw [if_neg hj] at hs
      cases hs
  | reply i x =>
    unfold MessageProcessor.handle at hs
    cases htx : p.transactions[i]? with
    | none => simp [htx] at hs
    | some tx =>
      simp only [htx, Option.some.injEq] at hs
      obtain ⟨rfl, rfl⟩ := Prod.mk.inj hs
      exact h.update (hP.reply _ x (hP.setNow _ p.now (h tx (List.mem_of_getElem? htx))))
  | expire i =>
    unfold MessageProcessor.handle at hs
    cases htx : p.transactions[i]? with
    | none => simp [htx] at hs
    | some tx =>
      simp only [htx] at hs
      cases hex : (tx.transaction.setNow p.now).expire with
      | none => simp [hex] at hs
      | some result =>
        obtain ⟨t, o⟩ := result
        simp only [hex, Option.some.injEq] at hs
        obtain ⟨rfl, rfl⟩ := Prod.mk.inj hs
        exact h.update (hP.expire _ _ _ (hP.setNow _ p.now (h tx (List.mem_of_getElem? htx))) hex)

/-- **Rule for transactions.** What is kept by all that can happen to a transaction holds of every
transaction in every run of the class. -/
theorem all_of_run {now : Nat} {tr : List (StepRec MessageProcessor (TimedEvent Event) ProcessorOut)}
    (hP : Transaction.Kept P) (h : Run step (start now) tr p) : p.All P := by
  refine h.stateInvariant (fun tx htx => absurd htx List.not_mem_nil) fun p e p' o hp hs => ?_
  unfold MessageProcessor.step at hs
  by_cases hnow : p.now ≤ e.time
  · rw [if_pos hnow] at hs
    have hp' : ({ p with now := e.time } : MessageProcessor).All P := hp
    exact hp'.handle hP hs
  · rw [if_neg hnow] at hs
    cases hs

end MessageProcessor

/-! ## The timer that ends a stored transaction -/

/-- An armed timer ends the transaction. -/
def InviteServerTransaction.EndsAlone (t : InviteServerTransaction) : Prop :=
  ∃ k, t.state.terminator = some k ∧ t.timers.Has k ∧ (t.expire k).1.state = .terminated

/-- An armed timer ends the transaction, or arms the one that does. -/
def NonInviteServerTransaction.EndsAlone (t : NonInviteServerTransaction) : Prop :=
  ∃ k ∈ t.state.terminators, t.timers.Has k ∧
    ((t.expire k).1.state = .terminated ∨ k = .INT1 ∧ (t.expire k).1.timers.Has .INT2)

def Transaction.EndsAlone : Transaction → Prop
  | .invite t => t.EndsAlone
  | .nonInvite t => t.EndsAlone

theorem InviteServerTransaction.Timed.endsAlone {t : InviteServerTransaction} (h : t.Timed)
    (hs : t.state ≠ .terminated) : t.EndsAlone := by
  cases hstate : t.state with
  | proceeding => exact ⟨.C2, by rw [hstate]; rfl, h.has .C2 (by rw [hstate]; rfl), rfl⟩
  | accepted => exact ⟨.L, by rw [hstate]; rfl, h.has .L (by rw [hstate]; rfl), rfl⟩
  | completed => exact ⟨.H, by rw [hstate]; rfl, h.has .H (by rw [hstate]; rfl), rfl⟩
  | confirmed => exact ⟨.I, by rw [hstate]; rfl, h.has .I (by rw [hstate]; rfl), rfl⟩
  | terminated => exact absurd hstate hs

theorem NonInviteServerTransaction.Timed.endsAlone {t : NonInviteServerTransaction} (h : t.Timed)
    (hs : t.state ≠ .terminated) : t.EndsAlone := by
  have hawaiting : t.Awaiting → t.state.terminators = [.INT1, .INT2] → t.EndsAlone := by
    intro ha hterm
    rcases h.awaiting ha with hINT1 | hINT2
    · refine ⟨.INT1, by rw [hterm]; simp, hINT1, .inr ⟨rfl, ?_⟩⟩
      unfold NonInviteServerTransaction.expire
      simp
    · exact ⟨.INT2, by rw [hterm]; simp, hINT2, .inl rfl⟩
  cases hstate : t.state with
  | trying => exact hawaiting (.inl hstate) (by rw [hstate]; rfl)
  | proceeding => exact hawaiting (.inr hstate) (by rw [hstate]; rfl)
  | completed => exact ⟨.J, by rw [hstate]; simp [NistState.terminators], h.completed hstate, .inl rfl⟩
  | terminated => exact absurd hstate hs

namespace MessageProcessor

variable {p : MessageProcessor} {now : Nat}
  {tr : List (StepRec MessageProcessor (TimedEvent Event) ProcessorOut)}

/-- **Every stored server transaction has a timer that ends it.** In every reachable state, what a
table of the class holds is a transaction with an armed terminating timer of its state, and timer G is
armed in no transaction but a `:completed` one over UDP. -/
theorem storedTransactions_timed (h : Run step (start now) tr p) :
    (∀ k id i, p.lookup k id = some i →
      ∃ tx, p.transactions[i]? = some tx ∧ tx.transaction.EndsAlone) ∧
    ∀ tx ∈ p.transactions, ∀ t, tx.transaction = .invite t → t.timers.Has .G →
      t.state = .completed ∧ t.transport = .udp := by
  have hall := all_of_run Transaction.kept_timed h
  constructor
  · intro k id i hi
    obtain ⟨tx, htx, _, hlive⟩ := (stored_of_run h).live (k, id) i hi
    refine ⟨tx, htx, ?_⟩
    have htimed := (hall tx (List.mem_of_getElem? htx)).2
    cases ht : tx.transaction with
    | invite t =>
      rw [ht] at htimed hlive
      exact InviteServerTransaction.Timed.endsAlone htimed (by simpa [Transaction.terminated] using hlive)
    | nonInvite t =>
      rw [ht] at htimed hlive
      exact NonInviteServerTransaction.Timed.endsAlone htimed
        (by simpa [Transaction.terminated] using hlive)
  · intro tx htx t ht hG
    have htimed := (hall tx htx).2
    rw [ht] at htimed
    exact InviteServerTransaction.Timed.hasG htimed hG

/-- An INVITE over UDP. -/
def inviteOfCarol : IncomingRequest :=
  { method := .invite, viaBranchId := "4f2c", viaSentBy := "192.0.2.20:5060", slReplyToTag := false
    antiloopId := "", connection := 1, transport := .udp }

/-- The INVITE is refused, and its transaction is still stored with timers G and H. -/
theorem storedTransactions_timed_refused : ∃ tr p tx, Run step (start 0) tr p ∧
    p.lookup .invite "4f2c" = some 0 ∧ p.transactions[0]? = some tx ∧ tx.transaction.EndsAlone := by
  have hrun := run_of_exec (show exec step (start 0)
    [⟨0, .arrive .running inviteOfCarol⟩, ⟨0, .create 0⟩, ⟨10, .reply 0 (.built 403 "Forbidden")⟩] =
      some (_, _) from rfl)
  obtain ⟨tx, htx, hends⟩ := (storedTransactions_timed hrun).1 .invite "4f2c" 0 rfl
  exact ⟨_, _, tx, hrun, rfl, htx, hends⟩

end MessageProcessor

end OverSip
