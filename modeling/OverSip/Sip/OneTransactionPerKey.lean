import OverSip.Lib.History
import OverSip.Sip.MessageProcessorTheorems

/-!
# One live transaction for a key

`check_transaction` looks a request up when it arrives; the transaction is stored by the fiber, which
may have been suspended in between. A retransmission that arrives meanwhile finds nothing and is handed
to the application too. Both fibers then make a transaction, the second over the entry of the first, and
the timers of the first delete the entry of the second.

`oneLive_iff` says that this is the only way: a run keeps `OneLive` exactly if no request is handed over
while one with its key is pending (`Timely`).
-/

namespace OverSip

namespace MessageProcessor

variable {p p' : MessageProcessor}

/-- No other live transaction when one is made, no removal of an entry of another, nothing handed over
that is pending or has a live transaction. -/
structure OneLive (r : StepRec MessageProcessor (TimedEvent Event) ProcessorOut) : Prop where
  create : ∀ j q, r.ev.ev = .create j → r.pre.pending[j]? = some q →
    ∀ tx ∈ r.pre.transactions, SameKey tx.request q → tx.transaction.terminated = true
  remove : ∀ i c, .server i c .remove ∈ r.out →
    ∃ tx κ, r.pre.transactions[i]? = some tx ∧ tx.request.key = some κ ∧ r.pre.entry κ = some i
  hand : ∀ q, .onRequest q ∈ r.out →
    (∀ q' ∈ r.pre.pending, ¬ SameKey q' q) ∧
      ∀ tx ∈ r.pre.transactions, SameKey tx.request q → tx.transaction.terminated = true

/-- When a request arrives that is no loop, none with its key is pending. -/
def Timely (p : MessageProcessor) (e : TimedEvent Event) : Prop :=
  ∀ q, e.ev = .arrive .running q → isLoop q = false → ∀ q' ∈ p.pending, ¬ SameKey q' q

/-- The tables are the live transactions, and no pending request has the key of one or of another. -/
structure Unique (p : MessageProcessor) : Prop where
  wf : ∀ tx ∈ p.transactions, tx.transaction.Wf
  live : ∀ κ i, p.entry κ = some i →
    ∃ tx, p.transactions[i]? = some tx ∧ tx.request.key = some κ ∧ tx.transaction.terminated = false
  found : ∀ i tx, p.transactions[i]? = some tx → tx.transaction.terminated = false →
    ∃ κ, tx.request.key = some κ ∧ p.entry κ = some i
  fresh : ∀ q ∈ p.pending, ∀ κ, q.key = some κ → p.entry κ = none
  distinct : p.pending.Pairwise fun q q' => ¬ SameKey q q'

theorem unique_start (now : Nat) : (start now).Unique := by
  constructor
  · simp [start]
  · intro κ i h
    cases h
  · intro i tx h
    simp [start] at h
  · simp [start]
  · exact List.Pairwise.nil

theorem Unique.stored (hp : p.Unique) : p.Stored := ⟨hp.wf, hp.live⟩

/-- A transaction goes on. -/
theorem Unique.update {i : Nat} {tx : ServerTransaction} {t : Transaction} {o : List ServerOut}
    (hp : p.Unique) (htx : p.transactions[i]? = some tx) (hnext : tx.transaction.Next t o) :
    (p.update i tx t o).1.Unique := by
  obtain ⟨hwf, hends⟩ := hnext (hp.wf tx (List.mem_of_getElem? htx))
  -- an entry that is deleted is the one of the transaction itself
  have hself : ∀ κ, .remove ∈ o → tx.request.key = some κ → p.entry κ = some i := by
    intro κ hr hκ
    rcases hends with ⟨_, hlive, _⟩ | ⟨hno, _⟩
    · obtain ⟨κ', hκ', hentry⟩ := hp.found i tx htx hlive
      rw [hκ] at hκ'
      rwa [← Option.some.inj hκ'] at hentry
    · exact absurd hr hno
  have hstored := hp.stored.update htx hnext
  refine ⟨hstored.wf, hstored.live, ?_, ?_, ?_⟩
  · intro j tx₁ htx₁ hlive
    rw [transactions_update, getElem?_set_of_some htx] at htx₁
    by_cases hij : i = j
    · subst hij
      rw [if_pos rfl] at htx₁
      obtain rfl := Option.some.inj htx₁
      rcases hends with ⟨_, _, hterm⟩ | ⟨hno, hsame⟩
      · rw [hterm] at hlive
        cases hlive
      · obtain ⟨κ, hκ, hentry⟩ := hp.found i tx htx (hsame ▸ hlive)
        exact ⟨κ, hκ, by rw [entry_update, if_neg fun h => hno h.1, hentry]⟩
    · rw [if_neg hij] at htx₁
      obtain ⟨κ, hκ, hentry⟩ := hp.found j tx₁ htx₁ hlive
      refine ⟨κ, hκ, ?_⟩
      rw [entry_update, if_neg, hentry]
      intro hr
      have hentry' := hself κ hr.1 hr.2
      rw [hentry] at hentry'
      exact hij (Option.some.inj hentry').symm
  · intro q hq κ hκ
    rw [pending_update] at hq
    rw [entry_update, hp.fresh q hq κ hκ, ite_self]
  · rw [pending_update]
    exact hp.distinct

/-- A retransmission changes the connection only. -/
theorem Unique.absorb {q : IncomingRequest} {i : Nat} {tx : ServerTransaction} (hp : p.Unique)
    (htx : p.transactions[i]? = some tx) :
    { p with transactions := p.transactions.set i { tx with connection := q.connection } }.Unique := by
  have hstored := hp.stored.absorb (q := q) htx
  refine ⟨hstored.wf, hstored.live, ?_, ?_, ?_⟩
  · intro j tx₁ htx₁ hlive
    dsimp only at htx₁
    rw [getElem?_set_of_some htx] at htx₁
    by_cases hij : i = j
    · subst hij
      rw [if_pos rfl] at htx₁
      obtain rfl := Option.some.inj htx₁
      exact hp.found i tx htx hlive
    · rw [if_neg hij] at htx₁
      exact hp.found j tx₁ htx₁ hlive
  · exact hp.fresh
  · exact hp.distinct

/-- The entry of a request that is handed over is free. -/
theorem entry_eq_none_of_hand {q : IncomingRequest} (hq : p.retransmissionOf q = none)
    {κ : Table × String} (hκ : q.key = some κ) : p.entry κ = none := by
  rw [retransmissionOf_eq, hκ] at hq
  exact hq

/-- A pending request becomes a transaction: its entry was free. -/
theorem Unique.created {j : Nat} {q : IncomingRequest} {k : Table} {t : Transaction} (hp : p.Unique)
    (hq : p.pending[j]? = some q) (hk : q.method.table = some k) (hwf : t.Wf)
    (hlive : t.terminated = false) : (p.created j q k t).Unique := by
  have hkey : q.key = some (k, q.viaBranchId) := IncomingRequest.key_eq_some.mpr ⟨hk, rfl⟩
  have hfree := hp.fresh q (List.mem_of_getElem? hq) _ hkey
  have hrest : ∀ q' ∈ p.pending.eraseIdx j, ¬ SameKey q q' := by
    obtain ⟨hlt, rfl⟩ := List.getElem?_eq_some_iff.mp hq
    have hperm := List.getElem_cons_eraseIdx_perm hlt
    have hdistinct := (hperm.pairwise_iff fun h h' => h (SameKey.symm h')).mpr hp.distinct
    exact (List.pairwise_cons.mp hdistinct).1
  have hstored := hp.stored.created (j := j) hk hwf hlive
  refine ⟨hstored.wf, hstored.live, ?_, ?_, ?_⟩
  · intro i tx htx hlive'
    unfold MessageProcessor.created at htx ⊢
    rw [transactions_store] at htx
    by_cases hlt : i < p.transactions.length
    · rw [List.getElem?_append_left hlt] at htx
      obtain ⟨κ, hκ, hentry⟩ := hp.found i tx htx hlive'
      refine ⟨κ, hκ, ?_⟩
      rw [entry_store, if_neg]
      · exact hentry
      · intro hκ'
        have hentry' : p.entry κ = some i := hentry
        rw [hκ', hfree] at hentry'
        cases hentry'
    · rw [List.getElem?_append_right (Nat.le_of_not_lt hlt)] at htx
      rw [List.getElem?_singleton] at htx
      by_cases hi : i - p.transactions.length = 0
      · rw [if_pos hi] at htx
        obtain rfl := Option.some.inj htx
        refine ⟨_, hkey, ?_⟩
        rw [entry_store, if_pos rfl]
        congr 1
        omega
      · rw [if_neg hi] at htx
        cases htx
  · intro q' hq' κ hκ
    unfold MessageProcessor.created at hq' ⊢
    rw [entry_store, if_neg]
    · exact hp.fresh q' (List.mem_of_mem_eraseIdx hq') κ hκ
    · rintro rfl
      exact hrest q' hq' ⟨by rw [hkey]; simp, by rw [hkey, hκ]⟩
  · exact hp.distinct.sublist (List.eraseIdx_sublist ..)

theorem Unique.effect {e : TimedEvent Event} {o : List ProcessorOut} (hp : p.Unique)
    (ht : p.Timely e) (h : Effect p e.ev o p') : p'.Unique := by
  generalize hev : e.ev = ev at h
  cases h with
  | quiet _ _ => exact hp
  | absorb _ htx => exact hp.absorb htx
  | @hand q hq hloop =>
    have hnone := ht q hev hloop
    constructor
    · exact hp.wf
    · exact hp.live
    · exact hp.found
    · intro q' hq' κ hκ
      rcases List.mem_append.mp hq' with hmem | hmem
      · exact hp.fresh q' hmem κ hκ
      · obtain rfl := List.mem_singleton.mp hmem
        exact entry_eq_none_of_hand hq hκ
    · refine List.pairwise_append.mpr ⟨hp.distinct, List.pairwise_singleton _ _, ?_⟩
      intro q' hq' q'' hq''
      obtain rfl := List.mem_singleton.mp hq''
      exact hnone q' hq'
  | ack htx hnext _ => exact hp.update htx hnext
  | reply htx hnext => exact hp.update htx hnext
  | expire htx hnext => exact hp.update htx hnext
  | create hq hk hwf hlive _ => exact hp.created hq hk hwf hlive
  | finish =>
    exact ⟨hp.wf, hp.live, hp.found, fun q hq => hp.fresh q (List.mem_of_mem_eraseIdx hq),
      hp.distinct.sublist (List.eraseIdx_sublist ..)⟩

/-- In every run whose steps are timely, the tables are the live transactions. -/
theorem unique_of_run {now : Nat}
    {tr : List (StepRec MessageProcessor (TimedEvent Event) ProcessorOut)}
    (h : Run step (start now) tr p) (ht : ∀ r ∈ tr, r.pre.Timely r.ev) : p.Unique := by
  refine Run.invariant (G := fun p e => p.Timely e) (I := fun _ p => p.Unique) (unique_start now)
    ?_ h ht
  intro tr p e p' o hp ht hs
  have hp' : ({ p with now := e.time } : MessageProcessor).Unique :=
    ⟨hp.wf, hp.live, hp.found, hp.fresh, hp.distinct⟩
  have ht' : ({ p with now := e.time } : MessageProcessor).Timely e := ht
  exact hp'.effect ht' (effect_of_step hs)

/-! ## The law -/

/-- A live transaction is the entry of its key. -/
theorem Unique.terminated_of_free {κ : Table × String} {tx : ServerTransaction} (hp : p.Unique)
    (htx : tx ∈ p.transactions) (hκ : tx.request.key = some κ) (hfree : p.entry κ = none) :
    tx.transaction.terminated = true := by
  obtain ⟨i, hi⟩ := List.mem_iff_getElem?.mp htx
  by_contra hlive
  obtain ⟨κ', hκ', hentry⟩ := hp.found i tx hi (by simpa using hlive)
  rw [hκ] at hκ'
  rw [← Option.some.inj hκ', hfree] at hentry
  cases hentry

/-- Only a transaction that is live removes its key. -/
theorem Unique.entry_of_remove {i : Nat} {tx : ServerTransaction} {t : Transaction}
    {o : List ServerOut} (hp : p.Unique) (htx : p.transactions[i]? = some tx)
    (hnext : tx.transaction.Next t o) (hr : .remove ∈ o) :
    ∃ κ, tx.request.key = some κ ∧ p.entry κ = some i := by
  rcases (hnext (hp.wf tx (List.mem_of_getElem? htx))).2 with ⟨_, hlive, _⟩ | ⟨hno, _⟩
  · exact hp.found i tx htx hlive
  · exact absurd hr hno

theorem Unique.remove {ev : Event} {o : List ProcessorOut} (hp : p.Unique) (h : Effect p ev o p')
    {i c : Nat} (hr : .server i c .remove ∈ o) :
    ∃ tx κ, p.transactions[i]? = some tx ∧ tx.request.key = some κ ∧ p.entry κ = some i := by
  have hupdate : ∀ {i' : Nat} {tx : ServerTransaction} {t : Transaction} {o : List ServerOut},
      p.transactions[i']? = some tx → tx.transaction.Next t o →
      .server i c .remove ∈ (p.update i' tx t o).2 →
      ∃ tx κ, p.transactions[i]? = some tx ∧ tx.request.key = some κ ∧ p.entry κ = some i := by
    intro i' tx t o htx hnext hmem
    obtain ⟨x, hx, heq⟩ := List.mem_map.mp hmem
    cases heq
    obtain ⟨κ, hκ, hentry⟩ := hp.entry_of_remove htx hnext hx
    exact ⟨tx, κ, htx, hκ, hentry⟩
  cases h with
  | quiet hserver _ => exact absurd hr (hserver i c _)
  | @absorb _ _ _ tx _ _ =>
    obtain ⟨x, hx, heq⟩ := List.mem_map.mp hr
    cases heq
    exact absurd hx (Transaction.not_remove_retransmit tx.transaction)
  | hand _ _ => simp at hr
  | ack htx hnext _ => exact hupdate htx hnext hr
  | reply htx hnext => exact hupdate htx hnext hr
  | expire htx hnext => exact hupdate htx hnext hr
  | create _ _ _ _ hremove =>
    obtain ⟨x, hx, heq⟩ := List.mem_map.mp hr
    cases heq
    exact absurd hx hremove
  | finish => simp at hr

/-- Only `hand` calls the application. -/
theorem hand_of_onRequest {ev : Event} {o : List ProcessorOut} {q : IncomingRequest}
    (h : Effect p ev o p') (hq : .onRequest q ∈ o) :
    ev = .arrive .running q ∧ isLoop q = false ∧ p.retransmissionOf q = none := by
  cases h with
  | quiet _ hhand => exact absurd hq (hhand q)
  | hand hnone hloop =>
    cases List.mem_singleton.mp hq
    exact ⟨rfl, hloop, hnone⟩
  | finish => simp at hq
  | _ =>
    obtain ⟨x, hx, heq⟩ := List.mem_map.mp hq
    cases heq

theorem Unique.oneLive {r : StepRec MessageProcessor (TimedEvent Event) ProcessorOut}
    (hp : r.pre.Unique) (ht : r.pre.Timely r.ev) (hs : step r.pre r.ev = some (r.post, r.out)) :
    OneLive r := by
  have hp' : ({ r.pre with now := r.ev.time } : MessageProcessor).Unique :=
    ⟨hp.wf, hp.live, hp.found, hp.fresh, hp.distinct⟩
  have heff := effect_of_step hs
  constructor
  · intro j q _ hq tx htx hsame
    obtain ⟨κ, hκ⟩ := Option.ne_none_iff_exists'.mp hsame.1
    exact hp.terminated_of_free htx hκ
      (hp.fresh q (List.mem_of_getElem? hq) κ (hsame.2 ▸ hκ))
  · intro i c hr
    exact hp'.remove heff hr
  · intro q hq
    obtain ⟨hev, hloop, hnone⟩ := hand_of_onRequest heff hq
    refine ⟨ht q hev hloop, ?_⟩
    intro tx htx hsame
    obtain ⟨κ, hκ⟩ := Option.ne_none_iff_exists'.mp hsame.1
    exact hp.terminated_of_free htx hκ (entry_eq_none_of_hand hnone (hsame.2 ▸ hκ))

/-- A request that is no loop and has no entry is handed over while OverSIP is running. -/
theorem onRequest_of_free {r : StepRec MessageProcessor (TimedEvent Event) ProcessorOut}
    {q : IncomingRequest} (hs : step r.pre r.ev = some (r.post, r.out))
    (hev : r.ev.ev = .arrive .running q) (hloop : isLoop q = false) {κ : Table × String}
    (hκ : q.key = some κ) (hfree : r.pre.entry κ = none) : .onRequest q ∈ r.out := by
  have hnone : ({ r.pre with now := r.ev.time } : MessageProcessor).retransmissionOf q = none := by
    rw [retransmissionOf_eq, hκ]
    exact hfree
  have hout := processRequest_of_step hs hev
  rw [processRequest_of_free (by rw [hκ]; simp) hnone, if_neg (by simp), if_neg (by simp [hloop])]
    at hout
  rw [(Prod.mk.inj hout).2]
  exact List.mem_singleton.mpr rfl

/-- **One live transaction for a key.** A run keeps the law exactly if its steps are timely. -/
theorem oneLive_iff {now : Nat} {tr : List (StepRec MessageProcessor (TimedEvent Event) ProcessorOut)}
    (h : Run step (start now) tr p) :
    (∀ r ∈ tr, OneLive r) ↔ ∀ r ∈ tr, r.pre.Timely r.ev := by
  constructor
  · intro hlaw
    induction h with
    | nil => simp
    | @snoc tr p p' e o hrun hs ih =>
      have hbefore := ih fun r hr => hlaw r (List.mem_append_left _ hr)
      have hp := unique_of_run hrun hbefore
      intro r hr
      rcases List.mem_append.mp hr with hr | hr
      · exact hbefore r hr
      · obtain rfl := List.mem_singleton.mp hr
        -- a pending request of the key means that the entry is free, so the request is handed over
        intro q hev hloop q' hq' hsame
        obtain ⟨κ, hκ⟩ := Option.ne_none_iff_exists'.mp hsame.1
        have hkey : q.key = some κ := hsame.2 ▸ hκ
        have hhand := onRequest_of_free hs hev hloop hkey (hp.fresh q' hq' κ hκ)
        exact ((hlaw _ (List.mem_append_right _ hr)).hand q hhand).1 q' hq' hsame
  · intro ht r hr
    obtain ⟨tr₁, tr₂, rfl⟩ := List.append_of_mem hr
    obtain ⟨hpre, hs, _⟩ := h.of_middle
    have hp := unique_of_run hpre fun r hr => ht r (List.mem_append_left _ hr)
    exact hp.oneLive (ht r hr) hs

/-! ## A retransmission during the callback -/

/-- A REGISTER over UDP. -/
def sampleRegister : IncomingRequest :=
  { method := .other "REGISTER", viaBranchId := "776asdhds", viaSentBy := "192.0.2.10:5060"
    slReplyToTag := false, antiloopId := "", connection := 0, transport := .udp }

/-- The callback is suspended when the retransmission comes; both fibers go on and reply. -/
def retransmittedDuringCallback : List (TimedEvent Event) :=
  [⟨0, .arrive .running sampleRegister⟩, ⟨500, .arrive .running sampleRegister⟩, ⟨600, .create 0⟩,
    ⟨610, .create 0⟩, ⟨620, .reply 0 (.built 200 "OK")⟩, ⟨630, .reply 1 (.built 200 "OK")⟩,
    ⟨620 + TIMER_J_UDP, .expire 0⟩]

/-- The request is handed over twice, the second transaction is made beside the first, and timer J of the
first deletes the entry of the second. -/
theorem oneLive_broken_during_callback :
    ∃ tr p, Run step (start 0) tr p ∧ tr.map (·.ev) = retransmittedDuringCallback ∧
      (outputs tr).count (.onRequest sampleRegister) = 2 ∧
      (∃ r ∈ tr, r.ev.ev = .create 0 ∧ ∃ tx ∈ r.pre.transactions,
        SameKey tx.request sampleRegister ∧ tx.transaction.terminated = false) ∧
      (∃ r ∈ tr, .server 0 0 .remove ∈ r.out ∧ r.pre.lookup .nonInvite "776asdhds" = some 1 ∧
        r.post.lookup .nonInvite "776asdhds" = none) ∧
      ¬ ∀ r ∈ tr, OneLive r := by
  have hrun := run_of_exec
    (show exec step (start 0) retransmittedDuringCallback = some (_, _) from rfl)
  refine ⟨_, _, hrun, rfl, rfl, ?_, ?_, ?_⟩
  · refine ⟨_, List.mem_of_getElem? (i := 3) rfl, rfl, _, List.mem_cons_self .., ?_, rfl⟩
    exact ⟨by decide, rfl⟩
  · exact ⟨_, List.mem_of_getElem? (i := 6) rfl, List.mem_singleton.mpr rfl, rfl, rfl⟩
  · intro hlaw
    have hhand := (hlaw _ (List.mem_of_getElem? (i := 1) rfl)).hand sampleRegister
      (List.mem_singleton.mpr rfl)
    exact hhand.1 sampleRegister (List.mem_cons_self ..) ⟨by decide, rfl⟩

/-- The callback makes the transaction before the retransmission comes. -/
def retransmittedAfterCallback : List (TimedEvent Event) :=
  [⟨0, .arrive .running sampleRegister⟩, ⟨100, .create 0⟩, ⟨500, .arrive .running sampleRegister⟩]

/-- The law at work: the retransmission is absorbed. -/
theorem oneLive_after_callback :
    ∃ tr p, Run step (start 0) tr p ∧ tr.map (·.ev) = retransmittedAfterCallback ∧
      ∀ r ∈ tr, OneLive r := by
  have hrun := run_of_exec
    (show exec step (start 0) retransmittedAfterCallback = some (_, _) from rfl)
  refine ⟨_, _, hrun, rfl, (oneLive_iff hrun).mpr ?_⟩
  intro r hr
  simp only [List.mem_cons, List.not_mem_nil, or_false] at hr
  rcases hr with rfl | rfl | rfl
  · intro q _ _ q' hq'
    simp [start] at hq'
  · intro q hev
    cases hev
  · intro q _ _ q' hq'
    simp [start, store] at hq'

end MessageProcessor

end OverSip
