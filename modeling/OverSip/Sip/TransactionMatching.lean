import OverSip.Sip.MessageProcessorTheorems

/-!
# Which requests are taken for retransmissions

A request is absorbed when the table of its method has an entry under its branch id. `matching_of_run`
says what that means in every run: the branch is that of the transaction, the table is that of its
method, and the whole effect is that the last response goes out again, over the connection of the new
request, to which the transaction moves. Neither the sent-by nor, among the methods other than INVITE,
the method is compared.
-/

namespace OverSip

namespace MessageProcessor

variable {p p' : MessageProcessor}

/-- A step of the class. -/
abbrev Step := StepRec MessageProcessor (TimedEvent Event) ProcessorOut

/-- The connection that transaction `i` sends over. -/
def connectionOf (p : MessageProcessor) (i : Nat) : Option Nat :=
  p.transactions[i]?.map (·.connection)

/-- Transaction `i` sends a response, or its connection is replaced. -/
def Touches (r : Step) (i : Nat) : Prop :=
  (∃ c x, .server i c (.send x) ∈ r.out) ∨ r.post.connectionOf i ≠ r.pre.connectionOf i

/-- The request is neither handed to the application nor replied to without a transaction. -/
def Swallows (r : Step) (q : IncomingRequest) : Prop :=
  .onRequest q ∉ r.out ∧ ∀ statusCode, .stateless statusCode ∉ r.out

/-- The request is taken for a retransmission of the one of transaction `i`. -/
def TakenBy (r : Step) (q : IncomingRequest) (i : Nat) : Prop :=
  ∃ tx, r.pre.transactions[i]? = some tx ∧
    q.method ≠ .ack ∧ q.method ≠ .cancel ∧ tx.request.method.table = q.method.table ∧
    tx.request.viaBranchId = q.viaBranchId ∧
    r.out = tx.transaction.retransmitLastResponse.map (.server i q.connection) ∧
    r.post = { r.pre with
      now := r.ev.time
      transactions := r.pre.transactions.set i { tx with connection := q.connection } }

theorem connectionOf_update {i j : Nat} {tx : ServerTransaction} {t : Transaction}
    {o : List ServerOut} (htx : p.transactions[i]? = some tx) :
    (p.update i tx t o).1.connectionOf j = p.connectionOf j := by
  unfold connectionOf
  rw [transactions_update]
  by_cases hij : i = j
  · subst hij
    have hlt := (List.getElem?_eq_some_iff.mp htx).1
    rw [List.getElem?_set_self hlt, htx]
    rfl
  · rw [List.getElem?_set_ne hij]

/-- An entry is a transaction with the branch id and the table of the request. -/
theorem takenBy_of_retransmissionOf {r : Step} {status : Status} {q : IncomingRequest} {i : Nat}
    (hp : r.pre.Sound) (hstep : step r.pre r.ev = some (r.post, r.out))
    (hev : r.ev.ev = .arrive status q) (hq : r.pre.retransmissionOf q = some i) : TakenBy r q i := by
  have hkey := retransmissionOf_eq (p := r.pre) (q := q) ▸ hq
  obtain ⟨κ, hκ, hentry⟩ := Option.bind_eq_some_iff.mp hkey
  obtain ⟨tx, htx, htxkey⟩ := hp κ i hentry
  have hne : q.key ≠ none := by rw [hκ]; simp
  obtain ⟨hack, hcancel⟩ := IncomingRequest.key_ne_none.mp hne
  obtain ⟨htable, hid⟩ := IncomingRequest.key_eq_some.mp hκ
  obtain ⟨htable', hid'⟩ := IncomingRequest.key_eq_some.mp htxkey
  have hq' : ({ r.pre with now := r.ev.time } : MessageProcessor).retransmissionOf q = some i := hq
  have hout := processRequest_of_step hstep hev
  unfold processRequest at hout
  rw [checkTransaction_of_key hne, hq'] at hout
  simp only [Option.map_some, absorb, htx] at hout
  obtain ⟨hpost, ho⟩ := Prod.mk.inj hout
  exact ⟨tx, htx, hack, hcancel, by rw [htable, htable'], by rw [hid, hid'], ho, hpost⟩

/-- A request that touches a transaction is taken for its retransmission. -/
theorem retransmissionOf_of_touches {r : Step} {status : Status} {q : IncomingRequest} {i : Nat}
    (hstep : step r.pre r.ev = some (r.post, r.out)) (hev : r.ev.ev = .arrive status q)
    (ht : Touches r i) : r.pre.retransmissionOf q = some i := by
  have heff := effect_of_step hstep
  rw [hev] at heff
  unfold Touches at ht
  generalize r.post = post at heff ht
  generalize r.out = out at heff ht
  cases heff with
  | quiet hserver _ =>
    rcases ht with ⟨c, x, hx⟩ | hne
    · exact absurd hx (hserver i c _)
    · exact absurd rfl hne
  | @absorb _ _ i' tx hq htx =>
    have hi : i = i' := by
      rcases ht with ⟨c, x, hx⟩ | hne
      · obtain ⟨_, _, heq⟩ := List.mem_map.mp hx
        cases heq
        rfl
      · by_contra hii
        refine hne ?_
        unfold connectionOf
        rw [List.getElem?_set_ne fun h => hii h.symm]
    rw [hi]
    exact hq
  | hand _ _ =>
    rcases ht with ⟨c, x, hx⟩ | hne
    · simp at hx
    · exact absurd rfl hne
  | @ack _ _ i' tx t o htx _ hsend =>
    rcases ht with ⟨c, x, hx⟩ | hne
    · obtain ⟨y, hy, heq⟩ := List.mem_map.mp hx
      cases heq
      exact absurd hy (hsend x)
    · exact absurd (connectionOf_update htx) hne

/-- A request with a table is handed over, replied to, or a retransmission. -/
theorem retransmissionOf_of_swallows {r : Step} {status : Status} {q : IncomingRequest}
    (hstep : step r.pre r.ev = some (r.post, r.out)) (hev : r.ev.ev = .arrive status q)
    (hack : q.method ≠ .ack) (hcancel : q.method ≠ .cancel) (hs : Swallows r q) :
    ∃ i, r.pre.retransmissionOf q = some i := by
  by_contra hnone
  have hfree : ({ r.pre with now := r.ev.time } : MessageProcessor).retransmissionOf q = none :=
    Option.eq_none_iff_forall_ne_some.mpr fun i hi => hnone ⟨i, hi⟩
  have hout := processRequest_of_step hstep hev
  rw [processRequest_of_free (IncomingRequest.key_ne_none.mpr ⟨hack, hcancel⟩) hfree] at hout
  obtain ⟨hhand, hstateless⟩ := hs
  by_cases hrunning : status ≠ .running
  · rw [if_pos hrunning] at hout
    exact hstateless 500 (by rw [(Prod.mk.inj hout).2]; simp)
  · rw [if_neg hrunning] at hout
    by_cases hloop : isLoop q = true
    · rw [if_pos hloop] at hout
      exact hstateless 482 (by rw [(Prod.mk.inj hout).2]; simp)
    · rw [if_neg hloop] at hout
      exact hhand (by rw [(Prod.mk.inj hout).2]; simp)

/-- In every run: a request that makes a transaction send or move, and an INVITE or another request with
a transaction of its own that is swallowed, is taken for a retransmission of a request with the same
branch and the same table, and what happens is only the retransmission of the response. -/
theorem matching_of_run {now : Nat} {tr : List Step} {p : MessageProcessor}
    (h : Run step (start now) tr p) :
    ∀ r ∈ tr, ∀ status q, r.ev.ev = .arrive status q →
      (∀ i, Touches r i → TakenBy r q i) ∧
      (q.method ≠ .ack → q.method ≠ .cancel → Swallows r q → ∃ i, TakenBy r q i) := by
  intro r hr status q hev
  obtain ⟨tr₁, tr₂, rfl⟩ := List.append_of_mem hr
  obtain ⟨hpre, hstep, _⟩ := h.of_middle
  have hsound := sound_of_run hpre
  constructor
  · intro i ht
    exact takenBy_of_retransmissionOf hsound hstep hev (retransmissionOf_of_touches hstep hev ht)
  · intro hack hcancel hs
    obtain ⟨i, hi⟩ := retransmissionOf_of_swallows hstep hev hack hcancel hs
    exact ⟨i, takenBy_of_retransmissionOf hsound hstep hev hi⟩

/-! ## Two peers with one branch -/

/-- A REGISTER of one peer. -/
def registerOfAlice : IncomingRequest :=
  { method := .other "REGISTER", viaBranchId := "776asdhds", viaSentBy := "192.0.2.10:5060"
    slReplyToTag := false, antiloopId := "", connection := 1, transport := .tcp }

/-- An OPTIONS of another peer, over its own connection, with the branch of the first. -/
def optionsOfBob : IncomingRequest :=
  { registerOfAlice with method := .other "OPTIONS", viaSentBy := "198.51.100.7:5060", connection := 2 }

/-- The REGISTER gets a provisional response; then the OPTIONS comes. -/
def sameBranch : List (TimedEvent Event) :=
  [⟨0, .arrive .running registerOfAlice⟩, ⟨0, .create 0⟩, ⟨10, .reply 0 (.built 100 "Trying")⟩,
    ⟨20, .arrive .running optionsOfBob⟩]

/-- The response of the REGISTER goes to the connection of the OPTIONS, and stays there. -/
theorem matching_ignores_sentBy :
    ∃ tr p, Run step (start 0) tr p ∧ tr.map (·.ev) = sameBranch ∧
      ∃ r ∈ tr, ∃ tx, r.ev.ev = .arrive .running optionsOfBob ∧ r.pre.transactions[0]? = some tx ∧
        r.out = [.server 0 2 (.send (.built 100 "Trying"))] ∧
        r.pre.connectionOf 0 = some 1 ∧ r.post.connectionOf 0 = some 2 ∧
        ¬ (tx.request.viaSentBy = optionsOfBob.viaSentBy) ∧
        ¬ (tx.request.method = optionsOfBob.method) := by
  have hrun := run_of_exec
    (show exec step (start 0) sameBranch = some (_, _) from rfl)
  refine ⟨_, _, hrun, rfl, _, List.mem_of_getLast? rfl, _, rfl, rfl, rfl, rfl, rfl, ?_, ?_⟩
  · decide
  · decide

/-- The law at the same run: the OPTIONS is taken for a retransmission of the REGISTER. -/
theorem matching_of_sameBranch :
    ∃ tr p, Run step (start 0) tr p ∧ tr.map (·.ev) = sameBranch ∧
      ∃ r ∈ tr, r.ev.ev = .arrive .running optionsOfBob ∧ TakenBy r optionsOfBob 0 := by
  have hrun := run_of_exec
    (show exec step (start 0) sameBranch = some (_, _) from rfl)
  refine ⟨_, _, hrun, rfl, _, List.mem_of_getLast? rfl, rfl, ?_⟩
  refine (matching_of_run hrun _ (List.mem_of_getLast? rfl) _ _ rfl).1 0 (.inl ⟨2, .built 100 "Trying", ?_⟩)
  exact List.mem_singleton.mpr rfl

end MessageProcessor

end OverSip
