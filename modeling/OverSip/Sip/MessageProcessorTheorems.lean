import OverSip.Sip.ServerTransactionTheorems

/-!
# What one event does to the server transactions of a class

`Effect` lists what an event can do to the transactions, the tables and the pending requests of a
connection class; `effect_of_step` reads it off `step`. The laws about every run are proved from it.

`Sound` is the first of them: an entry of a table is a transaction, made for a request that has the key
of the entry.
-/

namespace OverSip

/-- The table and the branch id of the server transaction that a request would get. -/
def IncomingRequest.key (r : IncomingRequest) : Option (Table × String) :=
  r.method.table.map fun k => (k, r.viaBranchId)

/-- Two requests that share the key of one table. -/
def SameKey (r q : IncomingRequest) : Prop := r.key ≠ none ∧ r.key = q.key

instance (r q : IncomingRequest) : Decidable (SameKey r q) :=
  inferInstanceAs (Decidable (r.key ≠ none ∧ r.key = q.key))

theorem IncomingRequest.key_eq_some {r : IncomingRequest} {k : Table} {id : String} :
    r.key = some (k, id) ↔ r.method.table = some k ∧ r.viaBranchId = id := by
  unfold IncomingRequest.key
  cases r.method.table with
  | none => simp
  | some l => simp

theorem SameKey.symm {r q : IncomingRequest} (h : SameKey r q) : SameKey q r :=
  ⟨h.2 ▸ h.1, h.2.symm⟩

theorem IncomingRequest.key_ne_none {r : IncomingRequest} :
    r.key ≠ none ↔ r.method ≠ .ack ∧ r.method ≠ .cancel := by
  unfold IncomingRequest.key
  cases r.method <;> simp [Method.table]

/-- A transaction goes on to `t'` and puts out `o`. -/
def Transaction.Next (t t' : Transaction) (o : List ServerOut) : Prop :=
  t.Wf → t'.Wf ∧ Ends t.terminated t'.terminated o

namespace MessageProcessor

/-- The entry of a key. -/
def entry (p : MessageProcessor) (κ : Table × String) : Option Nat := p.tables κ.1 κ.2

/-- The class after a request has become the transaction `t`. -/
def created (p : MessageProcessor) (j : Nat) (q : IncomingRequest) (k : Table) (t : Transaction) :
    MessageProcessor :=
  let tx : ServerTransaction := { request := q, connection := q.connection, transaction := t }
  let p' := { p with transactions := p.transactions ++ [tx], pending := p.pending.eraseIdx j }
  p'.store k q.viaBranchId (some p.transactions.length)

/-- What one event does. -/
inductive Effect (p : MessageProcessor) :
    Event → List ProcessorOut → MessageProcessor → Prop
  /-- A reply without a transaction, an absorbed ACK, a CANCEL. -/
  | quiet {ev : Event} {o : List ProcessorOut} (hserver : ∀ i c x, .server i c x ∉ o)
      (hhand : ∀ q, .onRequest q ∉ o) : Effect p ev o p
  /-- A retransmission. -/
  | absorb {status : Status} {q : IncomingRequest} {i : Nat} {tx : ServerTransaction}
      (hq : p.retransmissionOf q = some i) (htx : p.transactions[i]? = some tx) :
      Effect p (.arrive status q)
        (tx.transaction.retransmitLastResponse.map (.server i q.connection))
        { p with transactions := p.transactions.set i { tx with connection := q.connection } }
  /-- A request that is handed to the application. -/
  | hand {q : IncomingRequest} (hq : p.retransmissionOf q = none) (hloop : isLoop q = false) :
      Effect p (.arrive .running q) [.onRequest q] { p with pending := p.pending ++ [q] }
  /-- An ACK that reaches its transaction. -/
  | ack {status : Status} {q : IncomingRequest} {i : Nat} {tx : ServerTransaction} {t : Transaction}
      {o : List ServerOut} (htx : p.transactions[i]? = some tx) (hnext : tx.transaction.Next t o)
      (hsend : ∀ x, .send x ∉ o) :
      Effect p (.arrive status q) (p.update i tx t o).2 (p.update i tx t o).1
  /-- A response of the application. -/
  | reply {i : Nat} {x : Reply} {tx : ServerTransaction} {t : Transaction} {o : List ServerOut}
      (htx : p.transactions[i]? = some tx) (hnext : tx.transaction.Next t o) :
      Effect p (.reply i x) (p.update i tx t o).2 (p.update i tx t o).1
  /-- A timer of a transaction. -/
  | expire {i : Nat} {tx : ServerTransaction} {t : Transaction} {o : List ServerOut}
      (htx : p.transactions[i]? = some tx) (hnext : tx.transaction.Next t o) :
      Effect p (.expire i) (p.update i tx t o).2 (p.update i tx t o).1
  /-- A pending request becomes a transaction. -/
  | create {j : Nat} {q : IncomingRequest} {k : Table} {t : Transaction} {o : List ServerOut}
      (hq : p.pending[j]? = some q) (hk : q.method.table = some k) (hwf : t.Wf)
      (hlive : t.terminated = false) (hremove : .remove ∉ o) :
      Effect p (.create j) (o.map (.server p.transactions.length q.connection))
        (p.created j q k t)
  /-- The fiber of a pending request ends. -/
  | finish {j : Nat} : Effect p (.finish j) [] { p with pending := p.pending.eraseIdx j }

end MessageProcessor

theorem Transaction.receiveAck_not_send (t : Transaction) (x : Reply) :
    .send x ∉ t.receiveAck.2 := by
  cases t with
  | invite t =>
    unfold Transaction.receiveAck InviteServerTransaction.receiveAck
    cases hs : t.state with
    | completed =>
      by_cases hu : t.transport = .udp
      · simp [hs, hu]
      · simp [hs, hu]
    | _ => simp [hs]
  | nonInvite t => simp [Transaction.receiveAck]

namespace MessageProcessor

variable {p p' : MessageProcessor}

/-- A request with a key is checked against its entry alone. -/
theorem checkTransaction_of_key {q : IncomingRequest} (hq : q.key ≠ none) :
    p.checkTransaction q = (p.retransmissionOf q).map (p.absorb q) := by
  obtain ⟨hack, hcancel⟩ := IncomingRequest.key_ne_none.mp hq
  unfold checkTransaction
  cases hm : q.method with
  | ack => exact absurd hm hack
  | cancel => exact absurd hm hcancel
  | invite | other name => rfl

/-- A request with a key and without an entry is refused or handed over. -/
theorem processRequest_of_free {status : Status} {q : IncomingRequest} (hq : q.key ≠ none)
    (hfree : p.retransmissionOf q = none) :
    p.processRequest status q =
      if status ≠ .running then (p, [.stateless 500])
      else if isLoop q then (p, [.stateless 482])
      else ({ p with pending := p.pending ++ [q] }, [.onRequest q]) := by
  have hack := (IncomingRequest.key_ne_none.mp hq).1
  unfold processRequest replyStateless
  rw [checkTransaction_of_key hq, hfree, if_neg hack, if_neg hack]
  rfl

theorem effect_of_absorb {status : Status} {q : IncomingRequest} {i : Nat}
    (hq : p.retransmissionOf q = some i) :
    Effect p (.arrive status q) (p.absorb q i).2 (p.absorb q i).1 := by
  unfold absorb
  cases htx : p.transactions[i]? with
  | none => exact .quiet (by simp) (by simp)
  | some tx => exact @Effect.absorb p status q i tx hq htx

/-- The check of an ACK and of a CANCEL. -/
theorem effect_of_checkTransaction {status : Status} {q : IncomingRequest}
    {result : MessageProcessor × List ProcessorOut} (h : p.checkTransaction q = some result) :
    Effect p (.arrive status q) result.2 result.1 := by
  unfold checkTransaction at h
  cases hm : q.method with
  | invite | other _ =>
    simp only [hm] at h
    obtain ⟨i, hi, rfl⟩ := Option.map_eq_some_iff.mp h
    exact effect_of_absorb hi
  | ack =>
    simp only [hm] at h
    cases hi : p.lookup .invite q.viaBranchId with
    | none =>
      simp only [hi] at h
      by_cases hs : q.slReplyToTag = true
      · rw [if_pos hs] at h
        obtain rfl := Option.some.inj h
        exact .quiet (by simp) (by simp)
      · rw [if_neg hs] at h
        cases h
    | some i =>
      simp only [hi] at h
      cases htx : p.transactions[i]? with
      | none =>
        simp only [htx] at h
        obtain rfl := Option.some.inj h
        exact .quiet (by simp) (by simp)
      | some tx =>
        simp only [htx] at h
        obtain rfl := Option.some.inj h
        refine .ack htx (fun hw => ?_) (Transaction.receiveAck_not_send _)
        have := Transaction.receiveAck_spec (Transaction.wf_setNow hw p.now)
        rwa [Transaction.terminated_setNow] at this
  | cancel =>
    simp only [hm] at h
    cases hi : p.lookup .invite q.viaBranchId with
    | none =>
      simp only [hi] at h
      obtain rfl := Option.some.inj h
      exact .quiet (by simp) (by simp)
    | some i =>
      simp only [hi] at h
      split at h
      · split at h
        · obtain rfl := Option.some.inj h
          exact .quiet (by simp) (by simp)
        · obtain rfl := Option.some.inj h
          exact .quiet (by simp) (by simp)
      · obtain rfl := Option.some.inj h
        exact .quiet (by simp) (by simp)

theorem not_mem_replyStateless {q : IncomingRequest} {statusCode : Nat} {o : ProcessorOut}
    (ho : o ≠ .stateless statusCode) : o ∉ replyStateless q statusCode := by
  unfold replyStateless
  split
  · simp
  · simpa using ho

/-- A request that `check_transaction` lets pass has no entry. -/
theorem retransmissionOf_eq_none {q : IncomingRequest} (h : p.checkTransaction q = none) :
    p.retransmissionOf q = none := by
  unfold checkTransaction at h
  cases hm : q.method with
  | invite | other _ =>
    simp only [hm] at h
    exact Option.map_eq_none_iff.mp h
  | ack | cancel => simp [retransmissionOf, hm, Method.table]

theorem effect_of_processRequest (status : Status) (q : IncomingRequest) :
    Effect p (.arrive status q) (p.processRequest status q).2 (p.processRequest status q).1 := by
  unfold processRequest
  cases hc : p.checkTransaction q with
  | some result => exact effect_of_checkTransaction hc
  | none =>
    dsimp only
    by_cases hs : status ≠ .running
    · rw [if_pos hs]
      exact .quiet (fun i c x => not_mem_replyStateless (by simp))
        (fun q' => not_mem_replyStateless (by simp))
    · rw [if_neg hs]
      by_cases hl : isLoop q = true
      · rw [if_pos hl]
        exact .quiet (fun i c x => not_mem_replyStateless (by simp))
          (fun q' => not_mem_replyStateless (by simp))
      · rw [if_neg hl]
        obtain rfl := not_not.mp hs
        exact .hand (retransmissionOf_eq_none hc) (by simpa using hl)

theorem effect_of_createTransaction {j : Nat} {o : List ProcessorOut}
    (h : p.createTransaction j = some (p', o)) : Effect p (.create j) o p' := by
  unfold createTransaction at h
  cases hq : p.pending[j]? with
  | none => simp [hq] at h
  | some q =>
    simp only [hq] at h
    cases hm : q.method with
    | invite =>
      simp only [hm, Option.map_some, Option.some.injEq] at h
      obtain ⟨rfl, rfl⟩ := Prod.mk.inj h
      obtain ⟨hw, hs, hr⟩ := InviteServerTransaction.new_spec q.viaBranchId q.transport p.now
      exact .create (t := .invite (InviteServerTransaction.new q.viaBranchId q.transport p.now).1)
        hq (by simp [hm, Method.table]) hw (by simp [Transaction.terminated, hs]) hr
    | other name =>
      simp only [hm, Option.map_some, Option.some.injEq] at h
      obtain ⟨rfl, rfl⟩ := Prod.mk.inj h
      obtain ⟨hw, hs⟩ := NonInviteServerTransaction.new_spec q.viaBranchId q.transport p.now
      exact .create
        (t := .nonInvite (NonInviteServerTransaction.new q.viaBranchId q.transport p.now)) (o := [])
        hq (by simp [hm, Method.table]) hw (by simp [Transaction.terminated, hs]) (by simp)
    | ack | cancel => simp [hm] at h

theorem effect_of_handle {ev : Event} {o : List ProcessorOut} (h : p.handle ev = some (p', o)) :
    Effect p ev o p' := by
  cases ev with
  | arrive status q =>
    obtain ⟨rfl, rfl⟩ := Prod.mk.inj (Option.some.inj h)
    exact effect_of_processRequest status q
  | create j => exact effect_of_createTransaction h
  | finish j =>
    unfold handle at h
    dsimp only at h
    by_cases hj : j < p.pending.length
    · rw [if_pos hj] at h
      obtain ⟨rfl, rfl⟩ := Prod.mk.inj (Option.some.inj h)
      exact .finish
    · rw [if_neg hj] at h
      cases h
  | reply i x =>
    unfold handle at h
    cases htx : p.transactions[i]? with
    | none => simp [htx] at h
    | some tx =>
      simp only [htx, Option.some.injEq] at h
      obtain ⟨rfl, rfl⟩ := Prod.mk.inj h
      refine .reply htx fun hw => ?_
      have := Transaction.reply_spec (Transaction.wf_setNow hw p.now) x
      rwa [Transaction.terminated_setNow] at this
  | expire i =>
    unfold handle at h
    cases htx : p.transactions[i]? with
    | none => simp [htx] at h
    | some tx =>
      simp only [htx] at h
      cases hex : (tx.transaction.setNow p.now).expire with
      | none => simp [hex] at h
      | some result =>
        obtain ⟨t, o⟩ := result
        simp only [hex, Option.some.injEq] at h
        obtain ⟨rfl, rfl⟩ := Prod.mk.inj h
        refine .expire htx fun hw => ?_
        have := Transaction.expire_spec (Transaction.wf_setNow hw p.now) hex
        rwa [Transaction.terminated_setNow] at this

/-- A step at which a request arrives. -/
theorem processRequest_of_step {e : TimedEvent Event} {o : List ProcessorOut} {status : Status}
    {q : IncomingRequest} (h : p.step e = some (p', o)) (hev : e.ev = .arrive status q) :
    (p', o) = { p with now := e.time }.processRequest status q := by
  unfold step at h
  by_cases hnow : p.now ≤ e.time
  · rw [if_pos hnow, hev] at h
    exact (Option.some.inj h).symm
  · rw [if_neg hnow] at h
    cases h

theorem effect_of_step {e : TimedEvent Event} {o : List ProcessorOut}
    (h : p.step e = some (p', o)) : Effect { p with now := e.time } e.ev o p' := by
  unfold step at h
  by_cases hnow : p.now ≤ e.time
  · rw [if_pos hnow] at h
    exact effect_of_handle h
  · rw [if_neg hnow] at h
    cases h

/-! ## The tables -/

@[simp] theorem entry_store {k : Table} {id : String} {e : Option Nat} {κ : Table × String} :
    (p.store k id e).entry κ = if κ = (k, id) then e else p.entry κ := by
  obtain ⟨l, id'⟩ := κ
  unfold entry store
  by_cases hk : l = k
  · by_cases hid : id' = id
    · simp [hk, hid]
    · simp [hk, hid]
  · simp [hk]

@[simp] theorem transactions_store {k : Table} {id : String} {e : Option Nat} :
    (p.store k id e).transactions = p.transactions := rfl

@[simp] theorem pending_store {k : Table} {id : String} {e : Option Nat} :
    (p.store k id e).pending = p.pending := rfl

theorem retransmissionOf_eq {q : IncomingRequest} : p.retransmissionOf q = q.key.bind p.entry := by
  unfold retransmissionOf IncomingRequest.key
  cases q.method.table with
  | none => rfl
  | some k => rfl

@[simp] theorem transactions_update {i : Nat} {tx : ServerTransaction} {t : Transaction}
    {o : List ServerOut} :
    (p.update i tx t o).1.transactions = p.transactions.set i { tx with transaction := t } := by
  unfold update
  dsimp only
  split
  · split <;> rfl
  · rfl

@[simp] theorem pending_update {i : Nat} {tx : ServerTransaction} {t : Transaction}
    {o : List ServerOut} : (p.update i tx t o).1.pending = p.pending := by
  unfold update
  dsimp only
  split
  · split <;> rfl
  · rfl

/-- `terminate_transaction` deletes the key of the transaction, whatever its entry is. -/
theorem entry_update {i : Nat} {tx : ServerTransaction} {t : Transaction} {o : List ServerOut}
    {κ : Table × String} :
    (p.update i tx t o).1.entry κ =
      if .remove ∈ o ∧ tx.request.key = some κ then none else p.entry κ := by
  unfold update
  dsimp only
  by_cases hr : ServerOut.remove ∈ o
  · rw [if_pos hr]
    unfold IncomingRequest.key
    cases htable : tx.request.method.table with
    | none => simp [hr, entry]
    | some k =>
      dsimp only
      rw [entry_store]
      simp only [hr, true_and, Option.map_some, Option.some.injEq]
      by_cases hκ : κ = (k, tx.request.viaBranchId)
      · rw [if_pos hκ, if_pos hκ.symm]
      · rw [if_neg hκ, if_neg fun h => hκ h.symm]
        rfl
  · rw [if_neg hr, if_neg fun h => hr h.1]
    rfl

/-- An entry is a transaction whose request has its key. -/
def Sound (p : MessageProcessor) : Prop :=
  ∀ κ i, p.entry κ = some i → ∃ tx, p.transactions[i]? = some tx ∧ tx.request.key = some κ

theorem sound_start (now : Nat) : (start now).Sound := by
  intro κ i h
  cases h

/-- The request of a transaction stays. -/
theorem getElem?_set_request {txs : List ServerTransaction} {i j : Nat}
    {tx tx' tx₁ : ServerTransaction} (htx : txs[i]? = some tx) (hreq : tx'.request = tx.request)
    (hj : txs[j]? = some tx₁) :
    ∃ tx₂, (txs.set i tx')[j]? = some tx₂ ∧ tx₂.request = tx₁.request := by
  by_cases hij : i = j
  · subst hij
    rw [htx] at hj
    obtain rfl := Option.some.inj hj
    have hlt := (List.getElem?_eq_some_iff.mp htx).1
    exact ⟨tx', by rw [List.getElem?_set_self hlt], hreq⟩
  · exact ⟨tx₁, by rw [List.getElem?_set_ne hij, hj], rfl⟩

theorem Sound.update {i : Nat} {tx : ServerTransaction} {t : Transaction} {o : List ServerOut}
    (hp : p.Sound) (htx : p.transactions[i]? = some tx) : (p.update i tx t o).1.Sound := by
  intro κ j hj
  rw [entry_update] at hj
  by_cases hr : .remove ∈ o ∧ tx.request.key = some κ
  · rw [if_pos hr] at hj
    cases hj
  · rw [if_neg hr] at hj
    obtain ⟨tx₁, htx₁, hkey⟩ := hp κ j hj
    have hsame : { tx with transaction := t }.request = tx.request := rfl
    obtain ⟨tx₂, htx₂, hreq⟩ := getElem?_set_request htx hsame htx₁
    exact ⟨tx₂, by rwa [transactions_update], by rw [hreq, hkey]⟩

theorem Sound.effect {ev : Event} {o : List ProcessorOut} (hp : p.Sound) (h : Effect p ev o p') :
    p'.Sound := by
  cases h with
  | quiet _ _ => exact hp
  | @absorb _ q i tx _ htx =>
    intro κ j hj
    obtain ⟨tx₁, htx₁, hkey⟩ := hp κ j hj
    have hsame : { tx with connection := q.connection }.request = tx.request := rfl
    obtain ⟨tx₂, htx₂, hreq⟩ := getElem?_set_request htx hsame htx₁
    exact ⟨tx₂, htx₂, by rw [hreq, hkey]⟩
  | hand _ _ => exact hp
  | ack htx _ _ => exact hp.update htx
  | reply htx _ => exact hp.update htx
  | expire htx _ => exact hp.update htx
  | @create j q k t o hq hk _ _ _ =>
    intro κ i hi
    unfold created at hi ⊢
    rw [entry_store] at hi
    by_cases hκ : κ = (k, q.viaBranchId)
    · rw [if_pos hκ] at hi
      obtain rfl := Option.some.inj hi
      refine ⟨⟨q, q.connection, t⟩, ?_, ?_⟩
      · simp
      · rw [hκ]
        exact IncomingRequest.key_eq_some.mpr ⟨hk, rfl⟩
    · rw [if_neg hκ] at hi
      obtain ⟨tx, htx, hkey⟩ := hp κ i hi
      have hlt := (List.getElem?_eq_some_iff.mp htx).1
      exact ⟨tx, by rw [transactions_store, List.getElem?_append_left hlt, htx], hkey⟩
  | finish => exact hp

theorem sound_of_run {now : Nat} {tr : List (StepRec MessageProcessor (TimedEvent Event) ProcessorOut)}
    (h : Run step (start now) tr p) : p.Sound := by
  refine h.stateInvariant (sound_start now) fun p e p' o hp hs => ?_
  have hp' : ({ p with now := e.time } : MessageProcessor).Sound := hp
  exact hp'.effect (effect_of_step hs)

/-! ## Live entries -/

theorem getElem?_set_of_some {txs : List ServerTransaction} {i : Nat} {tx : ServerTransaction}
    (htx : txs[i]? = some tx) (tx' : ServerTransaction) (j : Nat) :
    (txs.set i tx')[j]? = if i = j then some tx' else txs[j]? := by
  by_cases hij : i = j
  · subst hij
    rw [if_pos rfl, List.getElem?_set_self (List.getElem?_eq_some_iff.mp htx).1]
  · rw [if_neg hij, List.getElem?_set_ne hij]

/-- An entry is a transaction of its key that is not terminated. -/
structure Stored (p : MessageProcessor) : Prop where
  wf : ∀ tx ∈ p.transactions, tx.transaction.Wf
  live : ∀ κ i, p.entry κ = some i →
    ∃ tx, p.transactions[i]? = some tx ∧ tx.request.key = some κ ∧ tx.transaction.terminated = false

theorem stored_start (now : Nat) : (start now).Stored :=
  ⟨fun _ htx => absurd htx List.not_mem_nil, fun _ _ h => by cases h⟩

/-- A transaction goes on: when it is terminated its entry goes with it. -/
theorem Stored.update {i : Nat} {tx : ServerTransaction} {t : Transaction} {o : List ServerOut}
    (hp : p.Stored) (htx : p.transactions[i]? = some tx) (hnext : tx.transaction.Next t o) :
    (p.update i tx t o).1.Stored := by
  obtain ⟨hwf, hends⟩ := hnext (hp.wf tx (List.mem_of_getElem? htx))
  constructor
  · intro tx₁ htx₁
    rw [transactions_update] at htx₁
    rcases List.mem_or_eq_of_mem_set htx₁ with hmem | rfl
    · exact hp.wf tx₁ hmem
    · exact hwf
  · intro κ j hj
    rw [entry_update] at hj
    by_cases hr : .remove ∈ o ∧ tx.request.key = some κ
    · rw [if_pos hr] at hj
      cases hj
    · rw [if_neg hr] at hj
      obtain ⟨tx₁, htx₁, hkey, hlive⟩ := hp.live κ j hj
      rw [transactions_update, getElem?_set_of_some htx]
      by_cases hij : i = j
      · subst hij
        rw [htx] at htx₁
        obtain rfl := Option.some.inj htx₁
        refine ⟨{ tx with transaction := t }, if_pos rfl, hkey, ?_⟩
        rcases hends with ⟨hrem, _, _⟩ | ⟨_, hsame⟩
        · exact absurd ⟨hrem, hkey⟩ hr
        · rw [← hlive]
          exact hsame
      · exact ⟨tx₁, by rw [if_neg hij, htx₁], hkey, hlive⟩

/-- A retransmission changes the connection only. -/
theorem Stored.absorb {q : IncomingRequest} {i : Nat} {tx : ServerTransaction} (hp : p.Stored)
    (htx : p.transactions[i]? = some tx) :
    { p with transactions := p.transactions.set i { tx with connection := q.connection } }.Stored := by
  constructor
  · intro tx₁ htx₁
    rcases List.mem_or_eq_of_mem_set htx₁ with hmem | rfl
    · exact hp.wf tx₁ hmem
    · exact hp.wf tx (List.mem_of_getElem? htx)
  · intro κ j hj
    obtain ⟨tx₁, htx₁, hkey, hlive⟩ := hp.live κ j hj
    dsimp only
    rw [getElem?_set_of_some htx]
    by_cases hij : i = j
    · subst hij
      rw [htx] at htx₁
      obtain rfl := Option.some.inj htx₁
      exact ⟨{ tx with connection := q.connection }, if_pos rfl, hkey, hlive⟩
    · exact ⟨tx₁, by rw [if_neg hij, htx₁], hkey, hlive⟩

/-- A new transaction takes the entry of its key. -/
theorem Stored.created {j : Nat} {q : IncomingRequest} {k : Table} {t : Transaction} (hp : p.Stored)
    (hk : q.method.table = some k) (hwf : t.Wf) (hlive : t.terminated = false) :
    (p.created j q k t).Stored := by
  constructor
  · intro tx htx
    rcases List.mem_append.mp htx with hmem | hmem
    · exact hp.wf tx hmem
    · obtain rfl := List.mem_singleton.mp hmem
      exact hwf
  · intro κ i hi
    unfold MessageProcessor.created at hi ⊢
    rw [entry_store] at hi
    by_cases hκ : κ = (k, q.viaBranchId)
    · rw [if_pos hκ] at hi
      obtain rfl := Option.some.inj hi
      refine ⟨⟨q, q.connection, t⟩, by simp, ?_, hlive⟩
      rw [hκ]
      exact IncomingRequest.key_eq_some.mpr ⟨hk, rfl⟩
    · rw [if_neg hκ] at hi
      obtain ⟨tx, htx, hkey, hlive'⟩ := hp.live κ i hi
      have hlt := (List.getElem?_eq_some_iff.mp htx).1
      exact ⟨tx, by rw [transactions_store, List.getElem?_append_left hlt, htx], hkey, hlive'⟩

theorem Stored.effect {ev : Event} {o : List ProcessorOut} (hp : p.Stored) (h : Effect p ev o p') :
    p'.Stored := by
  cases h with
  | quiet _ _ => exact hp
  | absorb _ htx => exact hp.absorb htx
  | hand _ _ => exact ⟨hp.wf, hp.live⟩
  | ack htx hnext _ => exact hp.update htx hnext
  | reply htx hnext => exact hp.update htx hnext
  | expire htx hnext => exact hp.update htx hnext
  | create _ hk hwf hlive _ => exact hp.created hk hwf hlive
  | finish => exact ⟨hp.wf, hp.live⟩

theorem stored_of_run {now : Nat}
    {tr : List (StepRec MessageProcessor (TimedEvent Event) ProcessorOut)}
    (h : Run step (start now) tr p) : p.Stored := by
  refine h.stateInvariant (stored_start now) fun p e p' o hp hs => ?_
  have hp' : ({ p with now := e.time } : MessageProcessor).Stored := ⟨hp.wf, hp.live⟩
  exact hp'.effect (effect_of_step hs)

end MessageProcessor

end OverSip
