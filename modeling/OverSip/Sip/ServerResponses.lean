import OverSip.Sip.MessageProcessorTheorems
import OverSip.Sip.Statuses

/-!
# What a server transaction sends upstream

A request that has its server transaction, and all that can make it send: `reply`, `reply_full` and
`reply_199` (`request.rb`), a retransmission of the request, an ACK, and the timers
(`server_transaction.rb`). A sending is the first one of a response that `receive_response` has
accepted, or the repetition of `last_response`.

`Sent` is the invariant: the statuses accepted so far have the form that goes with the state. It is kept
by an accepted response (`Accepted`), and every other event sends nothing new.
-/

namespace OverSip

namespace Transaction

/-- The verdict of `receive_response`. -/
def accepts (statusCode : Nat) : Transaction → Bool
  | .invite t => (t.receiveResponse statusCode).2
  | .nonInvite t => (t.receiveResponse statusCode).2

/-- The next timer to expire is timer G. -/
def nextIsG : Transaction → Bool
  | .invite t => t.timers.pop.any fun p => p.1.key == .G
  | .nonInvite _ => false

end Transaction

/-- A received request with its server transaction. -/
structure ServedRequest where
  /-- The tag of the received To value. -/
  toTag : Option String
  internalToTag : Option String
  transaction : Transaction
  now : Nat
deriving DecidableEq, Repr

namespace ServedRequest

/-- The request with the transaction that is made for it, and what the constructor sends. -/
def new (k : Table) (transactionId : String) (transport : Transport) (toTag : Option String)
    (now : Nat) : ServedRequest × List ServerOut :=
  match k with
  | .invite =>
    let (t, o) := InviteServerTransaction.new transactionId transport now
    ({ toTag, internalToTag := none, transaction := .invite t, now }, o)
  | .nonInvite =>
    let t := NonInviteServerTransaction.new transactionId transport now
    ({ toTag, internalToTag := none, transaction := .nonInvite t, now }, [])

/-- `reply`; `tag` is the one that `SecureRandom` would give. -/
def reply (q : ServedRequest) (statusCode : Nat) (reason : String) (extraHeaders : List String)
    (body : Option String) (tag : String) : ServedRequest × List ServerOut :=
  if q.transaction.accepts statusCode then
    let internalToTag :=
      if 100 < statusCode then some ((q.internalToTag.or q.toTag).getD tag) else q.internalToTag
    let (t, o) := q.transaction.reply (.built statusCode reason internalToTag extraHeaders body)
    ({ q with internalToTag, transaction := t }, o)
  else (q, [])

/-- `reply_full`. -/
def replyFull (q : ServedRequest) (r : Response) : ServedRequest × List ServerOut :=
  let (t, o) := q.transaction.reply (.forwarded r)
  ({ q with transaction := t }, o)

/-- `reply_199`, for a response with this reason phrase. -/
def reply199 (q : ServedRequest) (r : Response) (reasonPhrase tag : String) :
    ServedRequest × List ServerOut :=
  let header := s!"Reason: SIP ;cause={r.statusCode} ;text=\"{reasonPhrase}\""
  let (q', o) := { q with internalToTag := r.toTag }.reply 199 "Early Dialog Terminated" [header] none tag
  ({ q' with internalToTag := q.internalToTag }, o)

/-- What can happen to the request and its transaction. -/
inductive Event
  | reply (statusCode : Nat) (reason : String) (extraHeaders : List String) (body : Option String)
      (tag : String)
  | replyFull (r : Response)
  | reply199 (r : Response) (reasonPhrase tag : String)
  | retransmission
  | receiveAck
  | expire
deriving DecidableEq, Repr

def handle (q : ServedRequest) : Event → Option (ServedRequest × List ServerOut)
  | .reply statusCode reason extraHeaders body tag =>
    some (q.reply statusCode reason extraHeaders body tag)
  | .replyFull r => some (q.replyFull r)
  | .reply199 r reasonPhrase tag => some (q.reply199 r reasonPhrase tag)
  | .retransmission => some (q, q.transaction.retransmitLastResponse)
  | .receiveAck =>
    let (t, o) := q.transaction.receiveAck
    some ({ q with transaction := t }, o)
  | .expire => q.transaction.expire.map fun (t, o) => ({ q with transaction := t }, o)

/-- One event, at a clock that never goes back. -/
def step (q : ServedRequest) (e : TimedEvent Event) : Option (ServedRequest × List ServerOut) :=
  if q.now ≤ e.time then
    { q with now := e.time, transaction := q.transaction.setNow e.time }.handle e.ev
  else none

/-- What is sent by this event is a repetition. -/
def retransmits (q : ServedRequest) : Event → Bool
  | .retransmission => true
  | .expire => q.transaction.nextIsG
  | _ => false

end ServedRequest

/-- The responses among the outputs. -/
def sends (o : List ServerOut) : List Reply :=
  o.filterMap fun
    | .send r => some r
    | .remove => none

/-- A run of a request and its transaction. -/
abbrev ServedTrace := List (StepRec ServedRequest (TimedEvent ServedRequest.Event) ServerOut)

/-- The responses that are sent upstream, without the repetitions; `o` is what the constructor sends. -/
def accepted (o : List ServerOut) (tr : ServedTrace) : List Reply :=
  sends o ++ tr.flatMap fun r => if r.pre.retransmits r.ev.ev then [] else sends r.out

/-! ## The form that goes with a state -/

/-- The statuses of a non-INVITE transaction: at most one final one. -/
def NonInviteTail (fs : List Nat) : Prop := fs = [] ∨ Final fs

/-- The form of everything that a transaction of a class sends. -/
def Lawful : Table → List Nat → Prop
  | .invite => Form InviteTail
  | .nonInvite => Form NonInviteTail

def InviteServerTransaction.Sent (t : InviteServerTransaction) (l : List Nat) : Prop :=
  match t.state with
  | .proceeding => ∀ c ∈ l, c < 200
  | .accepted => Form Successes l
  | .completed | .confirmed => Form Failure l
  | .terminated => Form InviteTail l

def NonInviteServerTransaction.Sent (t : NonInviteServerTransaction) (l : List Nat) : Prop :=
  match t.state with
  | .trying | .proceeding => ∀ c ∈ l, c < 200
  | .completed => Form Final l
  | .terminated => Form NonInviteTail l

def Transaction.Sent : Table → Transaction → List Nat → Prop
  | .invite, .invite t => t.Sent
  | .nonInvite, .nonInvite t => t.Sent
  | _, _ => fun _ => False

/-- A transaction of the class `k` that has accepted the responses `rs`. -/
structure Transaction.Serves (k : Table) (t : Transaction) (rs : List Reply) : Prop where
  last : t.lastResponse = rs.getLast?
  form : Sent k t (rs.map Reply.statusCode)

theorem sends_eq_nil {o : List ServerOut} (h : ∀ x, .send x ∉ o) : sends o = [] := by
  refine List.filterMap_eq_nil_iff.mpr fun x hx => ?_
  cases x with
  | send r => exact absurd hx (h r)
  | remove => rfl

namespace InviteServerTransaction

variable {t t' : InviteServerTransaction} {l : List Nat}

theorem Sent.tail (h : t.Sent l) : Form InviteTail l := by
  unfold Sent at h
  cases hs : t.state with
  | proceeding =>
    rw [hs] at h
    exact .inviteTail_of_provisional h
  | accepted =>
    rw [hs] at h
    exact h.imp fun fs hfs => .inl hfs
  | completed | confirmed =>
    rw [hs] at h
    exact h.imp fun fs hfs => .inr hfs
  | terminated =>
    rw [hs] at h
    exact h

theorem Sent.of_state (h : t.Sent l) (hs : t'.state = t.state) : t'.Sent l := by
  unfold Sent
  rw [hs]
  exact h

theorem Sent.terminated (h : t.Sent l) (hs : t'.state = .terminated) : t'.Sent l := by
  have htail := h.tail
  unfold Sent
  rw [hs]
  exact htail

/-- What an accepted status does to the state. -/
inductive Accepted : IstState → Nat → IstState → Prop
  | provisional {c : Nat} (hc : c < 200) : Accepted .proceeding c .proceeding
  | success {s : IstState} {c : Nat} (hs : s = .proceeding ∨ s = .accepted)
      (hc : 200 ≤ c ∧ c < 300) : Accepted s c .accepted
  | failure {c : Nat} (hc : 300 ≤ c) : Accepted .proceeding c .completed

/-- A response is accepted, becomes the last one and is sent, or is refused. -/
theorem reply_cases (t : InviteServerTransaction) (r : Reply) :
    (∃ t', t.reply r = (t', [.send r]) ∧ t'.lastResponse = some r ∧
      Accepted t.state r.statusCode t'.state) ∨ t.reply r = (t, []) := by
  unfold reply receiveResponse
  by_cases h1 : r.statusCode < 200
  · rw [if_pos h1]
    cases hs : t.state with
    | proceeding => exact .inl ⟨_, rfl, rfl, by simpa [hs] using .provisional h1⟩
    | _ => exact .inr rfl
  · rw [if_neg h1]
    by_cases h2 : 200 ≤ r.statusCode ∧ r.statusCode < 300
    · rw [if_pos h2]
      cases hs : t.state with
      | proceeding => exact .inl ⟨_, rfl, rfl, .success (.inl rfl) h2⟩
      | accepted => exact .inl ⟨_, rfl, rfl, by simpa [hs] using .success (.inr rfl) h2⟩
      | _ => exact .inr rfl
    · rw [if_neg h2]
      have h3 : 300 ≤ r.statusCode := by omega
      cases hs : t.state with
      | proceeding =>
        refine .inl ⟨_, rfl, rfl, ?_⟩
        by_cases hu : t.transport = .udp
        · simpa [hu, arm, startTimerG, cancelTimer] using .failure h3
        · simpa [hu, arm, cancelTimer] using .failure h3
      | _ => exact .inr rfl

theorem Sent.accepted {c : Nat} (h : t.Sent l) (ha : Accepted t.state c t'.state) :
    t'.Sent (l ++ [c]) := by
  unfold Sent at h ⊢
  generalize t.state = s at h ha
  generalize t'.state = s' at ha ⊢
  cases ha with
  | provisional hc => exact provisional_snoc h hc
  | success hs hc =>
    rcases hs with rfl | rfl
    · exact .of_final h fun d hd => List.mem_singleton.mp hd ▸ hc
    · exact h.snoc fun fs hfs => Successes.snoc hfs hc
  | failure hc => exact .of_final h ⟨c, rfl, hc⟩

theorem receiveAck_sent (h : t.Sent l) : t.receiveAck.1.Sent l := by
  unfold receiveAck
  cases hs : t.state with
  | completed =>
    by_cases hu : t.transport = .udp
    · simp only [cancelTimer, hu, if_true]
      simpa [Sent, hs] using h
    · simp only [cancelTimer, hu, if_false]
      exact h.terminated rfl
  | _ => exact h

/-- No timer but G sends, and each of them ends the transaction. -/
theorem expire_sent {k : IstTimer} (h : t.Sent l) :
    (t.expire k).1.Sent l ∧ (t.expire k).1.lastResponse = t.lastResponse ∧
      (k ≠ .G → sends (t.expire k).2 = []) := by
  cases k with
  | G => exact ⟨h.of_state rfl, rfl, fun hG => absurd rfl hG⟩
  | C2 | H | I | L => exact ⟨h.terminated rfl, rfl, fun _ => rfl⟩

end InviteServerTransaction

namespace NonInviteServerTransaction

variable {t t' : NonInviteServerTransaction} {l : List Nat}

theorem Sent.tail (h : t.Sent l) : Form NonInviteTail l := by
  unfold Sent at h
  cases hs : t.state with
  | trying | proceeding =>
    rw [hs] at h
    exact .of_provisional h (.inl rfl)
  | completed =>
    rw [hs] at h
    exact h.imp fun fs hfs => .inr hfs
  | terminated =>
    rw [hs] at h
    exact h

theorem Sent.of_state (h : t.Sent l) (hs : t'.state = t.state) : t'.Sent l := by
  unfold Sent
  rw [hs]
  exact h

theorem Sent.terminated (h : t.Sent l) (hs : t'.state = .terminated) : t'.Sent l := by
  have htail := h.tail
  unfold Sent
  rw [hs]
  exact htail

/-- What an accepted status does to the state. -/
inductive Accepted : NistState → Nat → NistState → Prop
  | provisional {s : NistState} {c : Nat} (hs : s = .trying ∨ s = .proceeding) (hc : c < 200) :
      Accepted s c .proceeding
  | final {s s' : NistState} {c : Nat} (hs : s = .trying ∨ s = .proceeding) (hc : 200 ≤ c)
      (hs' : s' = .completed ∨ s' = .terminated) : Accepted s c s'

/-- A response is accepted, becomes the last one and is sent, or is refused. -/
theorem reply_cases (t : NonInviteServerTransaction) (r : Reply) :
    (∃ t' o, t.reply r = (t', o) ∧ sends o = [r] ∧ t'.lastResponse = some r ∧
      Accepted t.state r.statusCode t'.state) ∨ t.reply r = (t, []) := by
  unfold reply receiveResponse
  by_cases h1 : r.statusCode < 200
  · rw [if_pos h1]
    cases hs : t.state with
    | trying => exact .inl ⟨_, _, rfl, rfl, rfl, .provisional (.inl rfl) h1⟩
    | proceeding =>
      exact .inl ⟨_, _, rfl, rfl, rfl, by simpa [hs] using .provisional (.inr rfl) h1⟩
    | completed | terminated => exact .inr rfl
  · rw [if_neg h1]
    have h2 : 200 ≤ r.statusCode := by omega
    cases hs : t.state with
    | trying | proceeding =>
      by_cases hu : t.transport = .udp
      · simp only [cancelTimer, hu, if_true]
        exact .inl ⟨_, _, rfl, rfl, rfl, .final (by simp) h2 (.inl rfl)⟩
      · simp only [cancelTimer, hu, if_false]
        exact .inl ⟨_, _, rfl, rfl, rfl, .final (by simp) h2 (.inr rfl)⟩
    | completed | terminated => exact .inr rfl

theorem Sent.accepted {c : Nat} (h : t.Sent l) (ha : Accepted t.state c t'.state) :
    t'.Sent (l ++ [c]) := by
  have hl : t.state = .trying ∨ t.state = .proceeding → ∀ d ∈ l, d < 200 := by
    unfold Sent at h
    rintro (hs | hs)
    · rwa [hs] at h
    · rwa [hs] at h
  unfold Sent
  generalize t.state = s at hl ha
  generalize t'.state = s' at ha ⊢
  cases ha with
  | provisional hs hc => exact provisional_snoc (hl hs) hc
  | final hs hc hs' =>
    have hfinal : Final [c] := ⟨c, rfl, hc⟩
    rcases hs' with rfl | rfl
    · exact .of_final (hl hs) hfinal
    · exact .of_final (hl hs) (.inr hfinal)

/-- The last response is the last one accepted, and the statuses fit the state. -/
structure Serves (t : NonInviteServerTransaction) (rs : List Reply) : Prop where
  last : t.lastResponse = rs.getLast?
  sent : t.Sent (rs.map Reply.statusCode)

variable {rs : List Reply}

theorem Serves.reply (h : t.Serves rs) (r : Reply) :
    (t.reply r).1.Serves (rs ++ sends (t.reply r).2) := by
  rcases t.reply_cases r with ⟨t', o, heq, ho, hr, ha⟩ | heq
  · rw [heq, ho]
    refine ⟨by rw [hr, List.getLast?_concat], ?_⟩
    rw [List.map_append]
    exact h.sent.accepted ha
  · rw [heq]
    simpa [sends] using h

/-- The 100 of timer INT1 goes through `reply`; the other timers end the transaction. -/
theorem Serves.expire (h : t.Serves rs) (k : NistTimer) :
    (t.expire k).1.Serves (rs ++ sends (t.expire k).2) := by
  cases k with
  | INT1 =>
    unfold NonInviteServerTransaction.expire
    by_cases hl : t.lastResponse = none
    · rw [if_pos hl]
      have hreply := h.reply (.built 100 "I'm alive")
      exact ⟨hreply.last, hreply.sent.of_state rfl⟩
    · rw [if_neg hl]
      have hsame : rs ++ sends [] = rs := List.append_nil rs
      rw [hsame]
      exact ⟨h.last, h.sent.of_state rfl⟩
  | INT2 | J =>
    have hsame : rs ++ sends [.remove] = rs := List.append_nil rs
    unfold NonInviteServerTransaction.expire terminateTransaction
    rw [hsame]
    exact ⟨h.last, h.sent.terminated rfl⟩

end NonInviteServerTransaction

/-! ## One event -/

namespace Transaction

variable {k : Table} {t t' : Transaction} {rs : List Reply} {o : List ServerOut}

theorem sends_retransmitLastResponse (t : Transaction) :
    sends t.retransmitLastResponse = t.lastResponse.toList := by
  have hmap : ∀ r : Option Reply, sends (r.toList.map .send) = r.toList := by
    intro r
    cases r <;> rfl
  cases t with
  | invite t => exact hmap t.lastResponse
  | nonInvite t => exact hmap t.lastResponse

theorem Serves.setNow (h : t.Serves k rs) (now : Nat) : (t.setNow now).Serves k rs := by
  obtain ⟨hlast, hform⟩ := h
  cases k <;> cases t <;> exact ⟨hlast, hform⟩

theorem nextIsG_setNow (t : Transaction) (now : Nat) : (t.setNow now).nextIsG = t.nextIsG := by
  cases t <;> rfl

theorem Serves.invite {t : Transaction} (h : t.Serves .invite rs) :
    ∃ t', t = .invite t' ∧ t'.lastResponse = rs.getLast? ∧ t'.Sent (rs.map Reply.statusCode) := by
  obtain ⟨hlast, hform⟩ := h
  cases t with
  | invite t => exact ⟨t, rfl, hlast, hform⟩
  | nonInvite t => exact hform.elim

theorem Serves.nonInvite {t : Transaction} (h : t.Serves .nonInvite rs) :
    ∃ t', t = .nonInvite t' ∧ t'.Serves rs := by
  obtain ⟨hlast, hform⟩ := h
  cases t with
  | invite t => exact hform.elim
  | nonInvite t => exact ⟨t, rfl, hlast, hform⟩

theorem serves_nonInvite {t : NonInviteServerTransaction} (h : t.Serves rs) :
    Serves .nonInvite (.nonInvite t) rs := ⟨h.last, h.sent⟩

theorem Serves.lawful (h : t.Serves k rs) : Lawful k (rs.map Reply.statusCode) := by
  cases k with
  | invite =>
    obtain ⟨t, rfl, _, hsent⟩ := h.invite
    exact hsent.tail
  | nonInvite =>
    obtain ⟨t, rfl, hserves⟩ := h.nonInvite
    exact hserves.sent.tail

theorem Serves.reply (h : t.Serves k rs) (r : Reply) :
    (t.reply r).1.Serves k (rs ++ sends (t.reply r).2) := by
  cases k with
  | invite =>
    obtain ⟨t, rfl, hlast, hsent⟩ := h.invite
    rcases t.reply_cases r with ⟨t', heq, hr, ha⟩ | heq
    · refine ⟨?_, ?_⟩
      · simp [Transaction.reply, heq, lastResponse, hr, sends]
      · simpa [Transaction.reply, heq, sends, Sent] using hsent.accepted ha
    · simpa [Transaction.reply, heq, sends] using h
  | nonInvite =>
    obtain ⟨t, rfl, hserves⟩ := h.nonInvite
    exact serves_nonInvite (hserves.reply r)

/-- An ACK sends nothing. -/
theorem Serves.receiveAck (h : t.Serves k rs) :
    t.receiveAck.1.Serves k (rs ++ sends t.receiveAck.2) := by
  rw [sends_eq_nil (receiveAck_not_send t), List.append_nil]
  cases k with
  | invite =>
    obtain ⟨t, rfl, hlast, hsent⟩ := h.invite
    refine ⟨?_, t.receiveAck_sent hsent⟩
    rw [← hlast]
    unfold Transaction.receiveAck InviteServerTransaction.receiveAck
    cases hs : t.state with
    | completed => by_cases hu : t.transport = .udp <;> simp [lastResponse, hs, hu]
    | _ => simp [lastResponse, hs]
  | nonInvite =>
    obtain ⟨t, rfl, _⟩ := h.nonInvite
    exact h

/-- Timer G repeats the last response; what another timer sends is accepted first. -/
theorem Serves.expire (h : t.Serves k rs) (hexp : t.expire = some (t', o)) :
    t'.Serves k (rs ++ if t.nextIsG then [] else sends o) ∧
      (t.nextIsG → sends o = rs.getLast?.toList) := by
  cases k with
  | invite =>
    obtain ⟨t, rfl, hlast, hsent⟩ := h.invite
    unfold Transaction.expire at hexp
    cases hpop : t.timers.pop with
    | none => simp [hpop] at hexp
    | some p =>
      obtain ⟨x, rest⟩ := p
      simp only [hpop] at hexp
      by_cases hdue : x.due ≤ t.now
      · rw [if_pos hdue] at hexp
        obtain ⟨rfl, rfl⟩ := Prod.mk.inj (Option.some.inj hexp)
        have hrest : ({ t with timers := rest } : InviteServerTransaction).Sent _ :=
          hsent.of_state rfl
        obtain ⟨hsent', hlast', hquiet⟩ := InviteServerTransaction.expire_sent (k := x.key) hrest
        by_cases hG : x.key = .G
        · have hnext : nextIsG (.invite t) = true := by simp [nextIsG, hpop, hG]
          simp only [hnext, if_true, List.append_nil]
          refine ⟨⟨hlast'.trans hlast, hsent'⟩, fun _ => ?_⟩
          rw [hG, ← hlast]
          exact sends_retransmitLastResponse (.invite t)
        · have hnext : nextIsG (.invite t) = false := by simp [nextIsG, hpop, hG]
          simp only [hnext, hquiet hG]
          refine ⟨?_, by simp⟩
          simpa using (⟨hlast'.trans hlast, hsent'⟩ : Serves .invite (.invite _) rs)
      · rw [if_neg hdue] at hexp
        cases hexp
  | nonInvite =>
    obtain ⟨t, rfl, hserves⟩ := h.nonInvite
    refine ⟨?_, by simp [nextIsG]⟩
    unfold Transaction.expire at hexp
    cases hpop : t.timers.pop with
    | none => simp [hpop] at hexp
    | some p =>
      obtain ⟨x, rest⟩ := p
      simp only [hpop] at hexp
      by_cases hdue : x.due ≤ t.now
      · rw [if_pos hdue] at hexp
        obtain ⟨rfl, rfl⟩ := Prod.mk.inj (Option.some.inj hexp)
        have hrest : ({ t with timers := rest } : NonInviteServerTransaction).Serves rs :=
          ⟨hserves.last, hserves.sent.of_state rfl⟩
        exact serves_nonInvite (hrest.expire x.key)
      · rw [if_neg hdue] at hexp
        cases hexp

end Transaction

namespace ServedRequest

variable {k : Table} {q q' : ServedRequest} {e : TimedEvent Event} {rs : List Reply}
  {o : List ServerOut}

/-- `reply` sends through the transaction, or nothing. -/
theorem reply_serves (h : q.transaction.Serves k rs) (statusCode : Nat) (reason : String)
    (extraHeaders : List String) (body : Option String) (tag : String) :
    (q.reply statusCode reason extraHeaders body tag).1.transaction.Serves k
      (rs ++ sends (q.reply statusCode reason extraHeaders body tag).2) := by
  unfold reply
  by_cases ha : q.transaction.accepts statusCode = true
  · rw [if_pos ha]
    exact h.reply _
  · rw [if_neg ha]
    simpa [sends] using h

theorem step_serves (h : q.transaction.Serves k rs) (hs : q.step e = some (q', o)) :
    q'.transaction.Serves k (rs ++ if q.retransmits e.ev then [] else sends o) ∧
      (q.retransmits e.ev → sends o = rs.getLast?.toList) := by
  unfold step at hs
  by_cases hnow : q.now ≤ e.time
  · rw [if_pos hnow] at hs
    have hq := h.setNow e.time
    cases hev : e.ev with
    | reply statusCode reason extraHeaders body tag =>
      rw [hev] at hs
      obtain ⟨rfl, rfl⟩ := Prod.mk.inj (Option.some.inj hs)
      exact ⟨reply_serves hq .., by simp [retransmits]⟩
    | replyFull r =>
      rw [hev] at hs
      obtain ⟨rfl, rfl⟩ := Prod.mk.inj (Option.some.inj hs)
      exact ⟨hq.reply _, by simp [retransmits]⟩
    | reply199 r reasonPhrase tag =>
      rw [hev] at hs
      obtain ⟨rfl, rfl⟩ := Prod.mk.inj (Option.some.inj hs)
      exact ⟨reply_serves hq .., by simp [retransmits]⟩
    | retransmission =>
      rw [hev] at hs
      obtain ⟨rfl, rfl⟩ := Prod.mk.inj (Option.some.inj hs)
      refine ⟨by simpa [retransmits] using hq, fun _ => ?_⟩
      rw [Transaction.sends_retransmitLastResponse, ← hq.last]
    | receiveAck =>
      rw [hev] at hs
      obtain ⟨rfl, rfl⟩ := Prod.mk.inj (Option.some.inj hs)
      exact ⟨hq.receiveAck, by simp [retransmits]⟩
    | expire =>
      rw [hev] at hs
      obtain ⟨⟨t, o'⟩, hexp, heq⟩ := Option.map_eq_some_iff.mp hs
      obtain ⟨rfl, rfl⟩ := Prod.mk.inj heq
      have hexpire := hq.expire hexp
      rwa [Transaction.nextIsG_setNow] at hexpire
  · rw [if_neg hnow] at hs
    cases hs

end ServedRequest

/-! ## Every run -/

theorem accepted_snoc (o : List ServerOut) (tr : ServedTrace)
    (r : StepRec ServedRequest (TimedEvent ServedRequest.Event) ServerOut) :
    accepted o (tr ++ [r]) =
      accepted o tr ++ if r.pre.retransmits r.ev.ev then [] else sends r.out := by
  simp [accepted]

namespace ServedRequest

variable {k : Table} {transactionId : String} {transport : Transport} {toTag : Option String}
  {now : Nat} {tr : ServedTrace} {q : ServedRequest}

theorem serves_new :
    (new k transactionId transport toTag now).1.transaction.Serves k
      (accepted (new k transactionId transport toTag now).2 []) := by
  cases k with
  | invite =>
    refine ⟨rfl, fun c hc => ?_⟩
    obtain rfl := List.mem_singleton.mp hc
    decide
  | nonInvite => exact ⟨rfl, fun c hc => absurd hc List.not_mem_nil⟩

/-- In every run the transaction has accepted what was sent. -/
theorem serves_of_run (h : Run step (new k transactionId transport toTag now).1 tr q) :
    q.transaction.Serves k (accepted (new k transactionId transport toTag now).2 tr) := by
  refine h.invariant (G := fun _ _ => True)
    (I := fun tr q => q.transaction.Serves k (accepted (new k transactionId transport toTag now).2 tr))
    serves_new (fun tr q e q' o hq _ hs => ?_) fun _ _ => trivial
  rw [accepted_snoc]
  exact (step_serves hq hs).1

/-- The transaction has sent a [3456]XX and may still be asked for it. -/
def completedInvite (q : ServedRequest) : Prop :=
  ∃ t, q.transaction = .invite t ∧ t.state = .completed

/-- The last response of a `:completed` INVITE transaction is its [3456]XX. -/
theorem final_of_completed {rs : List Reply} (h : q.transaction.Serves k rs)
    (hc : q.completedInvite) : ∃ x, rs.getLast? = some x ∧ 300 ≤ x.statusCode := by
  obtain ⟨t, ht, hs⟩ := hc
  obtain ⟨_, hform⟩ := h
  rw [ht] at hform
  cases k with
  | nonInvite => exact hform.elim
  | invite =>
    have hfailure : Form Failure (rs.map Reply.statusCode) := by
      have hsent : t.Sent (rs.map Reply.statusCode) := hform
      unfold InviteServerTransaction.Sent at hsent
      rwa [hs] at hsent
    obtain ⟨c, hlast, hc⟩ := hfailure.getLast?_of_failure
    rw [List.getLast?_map] at hlast
    obtain ⟨x, hx, rfl⟩ := Option.map_eq_some_iff.mp hlast
    exact ⟨x, hx, hc⟩

/-- **What a server transaction sends upstream.** In every run the statuses of the accepted responses
have the form of the class: provisional ones, and then nothing, one or more 2XX or exactly one [3456]XX
for an INVITE, at most one final one for another request. Every repetition sends exactly the response
that was accepted last, which is the [3456]XX when an INVITE transaction is `:completed`. -/
theorem upstreamResponses (h : Run step (new k transactionId transport toTag now).1 tr q) :
    Lawful k ((accepted (new k transactionId transport toTag now).2 tr).map Reply.statusCode) ∧
    ∀ tr₁ r tr₂, tr = tr₁ ++ r :: tr₂ → r.pre.retransmits r.ev.ev →
      sends r.out = (accepted (new k transactionId transport toTag now).2 tr₁).getLast?.toList ∧
      (r.pre.completedInvite → ∃ x, sends r.out = [x] ∧ 300 ≤ x.statusCode) := by
  refine ⟨(serves_of_run h).lawful, ?_⟩
  rintro tr₁ r tr₂ rfl hr
  obtain ⟨hrun, hs, _⟩ := h.of_middle
  have hserves := serves_of_run hrun
  have hsends := (step_serves hserves hs).2 hr
  refine ⟨hsends, fun hc => ?_⟩
  obtain ⟨x, hx, hstatus⟩ := final_of_completed hserves hc
  exact ⟨x, by rw [hsends, hx]; rfl, hstatus⟩

/-- A call that rings and is refused, whose 486 is repeated by timer G and for a retransmission, until
the ACK comes. -/
def refusedCall : List (TimedEvent Event) :=
  [⟨100, .reply 180 "Ringing" [] none "t1"⟩, ⟨150, .reply199 ⟨404, some "t2"⟩ "Not Found" "t1"⟩,
    ⟨200, .reply 486 "Busy Here" [] none "t1"⟩, ⟨700, .expire⟩, ⟨800, .retransmission⟩,
    ⟨900, .receiveAck⟩, ⟨5900, .expire⟩]

theorem upstreamResponses_refusedCall : ∃ tr q,
    Run step (new .invite "b" .udp none 0).1 tr q ∧
    (accepted (new .invite "b" .udp none 0).2 tr).map Reply.statusCode = [100, 180, 199, 486] ∧
    Lawful .invite ((accepted (new .invite "b" .udp none 0).2 tr).map Reply.statusCode) ∧
    (tr.filter fun r => r.pre.retransmits r.ev.ev).map (fun r => sends r.out) =
      [[.built 486 "Busy Here" (some "t1")], [.built 486 "Busy Here" (some "t1")]] := by
  obtain ⟨tr, q, h⟩ : ∃ tr q, exec step (new .invite "b" .udp none 0).1 refusedCall = some (tr, q) :=
    ⟨_, _, rfl⟩
  have hrun := run_of_exec h
  obtain ⟨rfl, rfl⟩ := Prod.mk.inj (Option.some.inj h)
  exact ⟨_, _, hrun, rfl, (upstreamResponses hrun).1, rfl⟩

/-- A call that nobody answers is ended by timer C2 without a final response, so that its statuses have
no final one. -/
theorem upstreamForm_broken_by_timerC2 : ∃ tr q,
    Run step (new .invite "b" .udp none 0).1 tr q ∧ q.transaction.terminated = true ∧
    ¬ Form (fun fs => fs ≠ [] ∧ (Successes fs ∨ Failure fs))
      ((accepted (new .invite "b" .udp none 0).2 tr).map Reply.statusCode) := by
  obtain ⟨tr, q, h⟩ : ∃ tr q,
      exec step (new .invite "b" .udp none 0).1 [⟨TIMER_C2, .expire⟩] = some (tr, q) := ⟨_, _, rfl⟩
  have hrun := run_of_exec h
  obtain ⟨rfl, rfl⟩ := Prod.mk.inj (Option.some.inj h)
  refine ⟨_, _, hrun, rfl, ?_⟩
  rintro ⟨ps, fs, hl, _, hne, hfs⟩
  -- the tail is not empty and ends with the only status, which is provisional
  have hlast : fs.getLast hne = 100 := by
    have h100 : (ps ++ fs).getLast? = some 100 := by
      rw [← hl]
      rfl
    rw [List.getLast?_append_of_ne_nil _ hne, List.getLast?_eq_some_getLast hne] at h100
    exact Option.some.inj h100
  have hmem := List.getLast_mem hne
  rw [hlast] at hmem
  rcases hfs with hfs | ⟨c, rfl, hc⟩
  · have := hfs 100 hmem
    omega
  · have := List.mem_singleton.mp hmem
    omega

end ServedRequest

end OverSip
