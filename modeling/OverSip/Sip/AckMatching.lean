import OverSip.Lib.History
import OverSip.Sip.DecimalNumbers
import OverSip.Sip.EditedRequest
import OverSip.Sip.InviteClientTransactionTheorems

/-!
# ACK and CANCEL beside the INVITE that was sent

The INVITE is written by `Request#to_s`, from the headers and the modified addresses. `send_ack` and
`do_cancel` write `@request.ruri`, `hdr_route`, `hdr_from`, `hdr_to`, the Call-ID and the CSeq number that were
parsed. `Unmoved` says of the request that is routed when the two views are one.
-/

namespace OverSip

/-! ## The messages of a transaction -/

namespace InviteClientTransaction

/-- The ACK that `send_ack` builds. -/
def buildAck (t : InviteClientTransaction) (response : Response) : Ack :=
  { ruri := t.request.ruri, topVia := t.topVia, routes := t.request.hdrRoute.getD []
    hdrFrom := t.request.hdrFrom, hdrTo := t.request.hdrTo
    addedTag := if t.request.toTag.isSome then none else response.toTag
    callId := t.request.callId, cseq := t.request.cseq }

/-- What an event does to `@ack` and `@cancel`. A message that is sent is the one that is kept. -/
structure Messages (t : InviteClientTransaction) (ev : Event) (o : List Out) (t' : InviteClientTransaction) :
    Prop where
  request : t'.request = t.request
  topVia : t'.topVia = t.topVia
  ack : ∀ a, t'.ack = some a →
    t.ack = some a ∨ ∃ r, ev = .response r ∧ 300 ≤ r.statusCode ∧ a = t.buildAck r
  cancel : ∀ c, t'.cancel = some c → t.cancel = some c ∨ ∃ reasons, c = t.buildCancel reasons
  sentAck : ∀ a, Out.send (.ack a) ∈ o → t'.ack = some a
  sentCancel : ∀ c, Out.send (.cancel c) ∈ o → t'.cancel = some c

/-- Nothing is built or sent. -/
theorem Messages.of_silent {t t' : InviteClientTransaction} {ev : Event} {o : List Out}
    (hrequest : t'.request = t.request) (htopVia : t'.topVia = t.topVia) (hack : t'.ack = t.ack)
    (hcancel : t'.cancel = t.cancel) (hnoAck : ∀ a, Out.send (.ack a) ∉ o)
    (hnoCancel : ∀ c, Out.send (.cancel c) ∈ o → t.cancel = some c) : Messages t ev o t' where
  request := hrequest
  topVia := htopVia
  ack _ ha := .inl (hack ▸ ha)
  cancel _ hc := .inl (hcancel ▸ hc)
  sentAck a ha := absurd ha (hnoAck a)
  sentCancel c hc := hcancel ▸ hnoCancel c hc

theorem sendCancel_messages (t : InviteClientTransaction) (c : Cancel) :
    (t.sendCancel c).1.request = t.request ∧ (t.sendCancel c).1.topVia = t.topVia ∧
      (t.sendCancel c).1.ack = t.ack ∧ (t.sendCancel c).1.cancel = t.cancel := by
  unfold sendCancel
  by_cases hudp : t.transport = .udp
  · rw [if_pos hudp]
    exact ⟨rfl, rfl, rfl, rfl⟩
  · rw [if_neg hudp]
    exact ⟨rfl, rfl, rfl, rfl⟩

theorem CancelTrans.messages {t t' : InviteClientTransaction} {reasons : List String} {o : List Out}
    (h : CancelTrans t reasons o t') (ev : Event) : Messages t ev o t' := by
  cases h with
  | again _ => exact .of_silent rfl rfl rfl rfl nofun nofun
  | wait hnone hstate =>
    constructor
    case cancel =>
      intro c hc
      exact .inr ⟨reasons, (Option.some.inj hc).symm⟩
    case ack => exact fun a ha => .inl ha
    case sentAck => exact nofun
    case sentCancel => exact nofun
    all_goals rfl
  | send hnone hstate =>
    obtain ⟨hrequest, htopVia, hack, hcancel⟩ :=
      sendCancel_messages { t with cancel := some (t.buildCancel reasons) } (t.buildCancel reasons)
    constructor
    case request => exact hrequest
    case topVia => exact htopVia
    case ack =>
      intro a ha
      rw [hack] at ha
      exact .inl ha
    case cancel =>
      intro c hc
      rw [hcancel] at hc
      exact .inr ⟨reasons, (Option.some.inj hc).symm⟩
    case sentAck =>
      intro a ha
      cases List.mem_singleton.mp ha
    case sentCancel =>
      intro c hc
      cases List.mem_singleton.mp hc
      exact hcancel

theorem ExpireTrans.messages {t t' : InviteClientTransaction} {k : IctTimer} {o : List Out}
    (h : ExpireTrans t k o t') (ev : Event) : Messages t ev o t' := by
  cases h with
  | timerC h =>
    obtain ⟨hrequest, htopVia, hack, hcancel, hsentAck, hsentCancel⟩ := h.messages ev
    refine ⟨hrequest, htopVia, hack, hcancel, ?_, ?_⟩
    · intro a ha
      rcases List.mem_append.mp ha with ha | ha
      · exact hsentAck a ha
      · cases List.mem_singleton.mp ha
    · intro c hc
      rcases List.mem_append.mp hc with hc | hc
      · exact hsentCancel c hc
      · cases List.mem_singleton.mp hc
  | retransmitCancel =>
    refine .of_silent rfl rfl rfl rfl ?_ ?_
    · intro a ha
      obtain ⟨c, _, hout⟩ := List.mem_map.mp ha
      cases hout
    · intro c hc
      obtain ⟨c', hc', hout⟩ := List.mem_map.mp hc
      cases hout
      exact Option.mem_toList.mp hc'
  | retransmit => exact .of_silent rfl rfl rfl rfl (by simp) (by simp)
  | timeout => exact .of_silent rfl rfl rfl rfl (by simp) (by simp)
  | finish _ => exact .of_silent rfl rfl rfl rfl nofun nofun
  | giveUpCancel _ => exact .of_silent rfl rfl rfl rfl nofun nofun
  | lateF _ => exact .of_silent rfl rfl rfl rfl nofun nofun

/-- `send_ack` sends the ACK that is kept, which it builds the first time. -/
theorem sendAck_messages {t t' : InviteClientTransaction} {r : Response} {o : List Out}
    (hstatus : 300 ≤ r.statusCode) (hrequest : t'.request = t.request) (htopVia : t'.topVia = t.topVia)
    (hack : t'.ack = some (t.ack.getD (t.buildAck r))) (hcancel : t'.cancel = t.cancel)
    (ho : ∀ m, Out.send m ∈ o → Out.send m ∈ (t.sendAck r).2) : Messages t (.response r) o t' := by
  have hmem : ∀ m, Out.send m ∈ o → m = .ack (t.ack.getD (t.buildAck r)) := by
    intro m hm
    have hsend : Out.send m = .send (.ack (t.ack.getD (t.buildAck r))) := List.mem_singleton.mp (ho m hm)
    exact Out.send.inj hsend
  refine ⟨hrequest, htopVia, ?_, ?_, ?_, ?_⟩
  · intro a ha
    rw [hack] at ha
    cases hkept : t.ack with
    | some a' =>
      rw [hkept] at ha
      exact .inl ha
    | none =>
      rw [hkept] at ha
      exact .inr ⟨r, rfl, hstatus, (Option.some.inj ha).symm⟩
  · intro c hc
    rw [hcancel] at hc
    exact .inl hc
  · intro a ha
    have heq : a = t.ack.getD (t.buildAck r) := WireMsg.ack.inj (hmem _ ha)
    rw [hack, heq]
  · intro c hc
    cases hmem _ hc

theorem mem_sendAck_of_append (t : InviteClientTransaction) (r : Response) (m : WireMsg)
    (h : Out.send m ∈ (t.sendAck r).2 ++ [.core (.receiveResponse r)]) : Out.send m ∈ (t.sendAck r).2 := by
  rcases List.mem_append.mp h with h | h
  · exact h
  · cases List.mem_singleton.mp h

theorem not_mem_deliverProvisional (r : Response) (m : WireMsg) : Out.send m ∉ deliverProvisional r := by
  unfold deliverProvisional
  split <;> simp

theorem ResponseTrans.messages {t t' : InviteClientTransaction} {r : Response} {o : List Out}
    (h : ResponseTrans t r o t') : Messages t (.response r) o t' := by
  cases h with
  | firstProvisional _ _ _ =>
    exact .of_silent rfl rfl rfl rfl (fun a => not_mem_deliverProvisional r _)
      fun c hc => absurd hc (not_mem_deliverProvisional r _)
  | @firstProvisionalCanceled c _ _ hc =>
    obtain ⟨hrequest, htopVia, hack, hcancel⟩ :=
      sendCancel_messages (({ t with state := .proceeding }.cancelTimer .A).cancelTimer .B) c
    refine .of_silent hrequest htopVia hack hcancel ?_ ?_
    · intro a ha
      rcases List.mem_append.mp ha with ha | ha
      · exact not_mem_deliverProvisional r _ ha
      · cases List.mem_singleton.mp ha
    · intro c' hc'
      rcases List.mem_append.mp hc' with hc' | hc'
      · exact absurd hc' (not_mem_deliverProvisional r _)
      · cases List.mem_singleton.mp hc'
        exact hc
  | provisional _ _ =>
    exact .of_silent rfl rfl rfl rfl (fun a => not_mem_deliverProvisional r _)
      fun c hc => absurd hc (not_mem_deliverProvisional r _)
  | failureUdp hstatus _ _ => exact sendAck_messages hstatus rfl rfl rfl rfl (mem_sendAck_of_append t r)
  | failureReliable hstatus _ _ => exact sendAck_messages hstatus rfl rfl rfl rfl (mem_sendAck_of_append t r)
  | failureAgain hstatus _ => exact sendAck_messages hstatus rfl rfl rfl rfl fun _ => id
  | success _ _ _ => exact .of_silent rfl rfl rfl rfl (by simp) (by simp)
  | successAgain _ _ _ => exact .of_silent rfl rfl rfl rfl (by simp) (by simp)
  | ignored _ => exact .of_silent rfl rfl rfl rfl nofun nofun

theorem Trans.messages {t t' : InviteClientTransaction} {ev : Event} {o : List Out} (h : Trans t ev o t') :
    Messages t ev o t' := by
  cases h with
  | @expire x rest _ _ _ _ h =>
    obtain ⟨hrequest, htopVia, hack, hcancel, hsentAck, hsentCancel⟩ := h.messages .expire
    exact ⟨hrequest, htopVia, hack, hcancel, hsentAck, hsentCancel⟩
  | response _ _ h => exact h.messages
  | doCancel _ h => exact h.messages _
  | cancelRefused _ _ _ => exact .of_silent rfl rfl rfl rfl (by simp) (by simp)
  | fail _ _ _ => exact .of_silent rfl rfl rfl rfl (by simp) (by simp)
  | failUnsent _ _ => exact .of_silent rfl rfl rfl rfl (by simp) (by simp)
  | cancelAnswered _ _ _ => exact .of_silent rfl rfl rfl rfl nofun nofun
  | cancelLate _ => exact .of_silent rfl rfl rfl rfl nofun nofun
  | failIgnored _ _ _ => exact .of_silent rfl rfl rfl rfl nofun nofun
  | connected => exact .of_silent rfl rfl rfl rfl nofun nofun

end InviteClientTransaction

/-- The ACK for a response, of the transaction that sent the request with `topVia`. -/
def Request.ackFor (q : Request) (topVia : String) (r : Response) : Ack :=
  { ruri := q.ruri, topVia, routes := q.hdrRoute.getD [], hdrFrom := q.hdrFrom, hdrTo := q.hdrTo
    addedTag := if q.toTag.isSome then none else r.toTag
    callId := q.callId, cseq := q.cseq }

/-- The CANCEL of the transaction that sent the request with `topVia`. -/
def Request.cancelFor (q : Request) (topVia : String) (reasons : List String) : Cancel :=
  { ruri := q.ruri, topVia, routes := q.hdrRoute.getD [], reasons, hdrFrom := q.hdrFrom, hdrTo := q.hdrTo
    callId := q.callId, cseq := q.cseq }

namespace IctSystem

open InviteClientTransaction

abbrev IctTrace := List (StepRec IctSystem (TimedEvent Event) Out)

/-- The 3xx to 6xx responses of a run. -/
def failures (tr : IctTrace) : List Response :=
  tr.filterMap fun st =>
    match st.ev.ev with
    | .response r => if 300 ≤ r.statusCode then some r else none
    | _ => none

theorem failures_snoc (tr : IctTrace) (st : StepRec IctSystem (TimedEvent Event) Out) {r : Response}
    (h : st.ev.ev = .response r) (hstatus : 300 ≤ r.statusCode) : r ∈ failures (tr ++ [st]) := by
  unfold failures
  rw [List.filterMap_append]
  apply List.mem_append_right
  apply List.mem_filterMap.mpr
  refine ⟨st, List.mem_singleton.mpr rfl, ?_⟩
  rw [h]
  exact if_pos hstatus

theorem mem_failures_snoc {tr : IctTrace} {r : Response} (h : r ∈ failures tr)
    (st : StepRec IctSystem (TimedEvent Event) Out) : r ∈ failures (tr ++ [st]) := by
  unfold failures
  rw [List.filterMap_append]
  exact List.mem_append_left _ h

/-- Every ACK and every CANCEL of a run is made of the request of the transaction. -/
structure Built (request : Request) (topVia : String) (tr : IctTrace) (s : IctSystem) : Prop where
  request_eq : s.ict.request = request
  topVia_eq : s.ict.topVia = topVia
  ack : ∀ a, s.ict.ack = some a → ∃ r ∈ failures tr, a = request.ackFor topVia r
  cancel : ∀ c, s.ict.cancel = some c → ∃ reasons, c = request.cancelFor topVia reasons
  sentAck : ∀ a, Out.send (.ack a) ∈ outputs tr → ∃ r ∈ failures tr, a = request.ackFor topVia r
  sentCancel : ∀ c, Out.send (.cancel c) ∈ outputs tr → ∃ reasons, c = request.cancelFor topVia reasons

theorem Built.step {request : Request} {topVia : String} {tr : IctTrace} {s s' : IctSystem}
    {e : TimedEvent Event} {o : List Out} (h : Built request topVia tr s) (hs : s.step e = some (s', o)) :
    Built request topVia (tr ++ [⟨s, e, o, s'⟩]) s' := by
  obtain ⟨hrequest, htopVia, hack, hcancel, hsentAck, hsentCancel⟩ := (step_trans hs).2.messages
  have hrequest_eq : s.ict.request = request := h.request_eq
  have htopVia_eq : s.ict.topVia = topVia := h.topVia_eq
  have hkeptAck : ∀ a, s'.ict.ack = some a →
      ∃ r ∈ failures (tr ++ [⟨s, e, o, s'⟩]), a = request.ackFor topVia r := by
    intro a ha
    rcases hack a ha with hold | ⟨r, hev, hstatus, rfl⟩
    · obtain ⟨r, hr, heq⟩ := h.ack a hold
      exact ⟨r, mem_failures_snoc hr _, heq⟩
    · refine ⟨r, failures_snoc tr _ hev hstatus, ?_⟩
      rw [← hrequest_eq, ← htopVia_eq]
      rfl
  have hkeptCancel : ∀ c, s'.ict.cancel = some c → ∃ reasons, c = request.cancelFor topVia reasons := by
    intro c hc
    rcases hcancel c hc with hold | ⟨reasons, rfl⟩
    · exact h.cancel c hold
    · refine ⟨reasons, ?_⟩
      rw [← hrequest_eq, ← htopVia_eq]
      rfl
  refine ⟨hrequest.trans hrequest_eq, htopVia.trans htopVia_eq, hkeptAck, hkeptCancel, ?_, ?_⟩
  · intro a ha
    rw [outputs_snoc] at ha
    rcases List.mem_append.mp ha with ha | ha
    · obtain ⟨r, hr, heq⟩ := h.sentAck a ha
      exact ⟨r, mem_failures_snoc hr _, heq⟩
    · exact hkeptAck a (hsentAck a ha)
  · intro c hc
    rw [outputs_snoc] at hc
    rcases List.mem_append.mp hc with hc | hc
    · exact h.sentCancel c hc
    · exact hkeptCancel c (hsentCancel c hc)

theorem built_start (request : Request) (conf : TransactionConf) (transport : Transport) (topVia : String)
    (newConnection : Bool) (now : ℕ) :
    Built request topVia [] (start request conf transport topVia newConnection now) := by
  have hkept : (start request conf transport topVia newConnection now).ict.request = request ∧
      (start request conf transport topVia newConnection now).ict.topVia = topVia ∧
        (start request conf transport topVia newConnection now).ict.ack = none := by
    unfold start sendRequest new
    by_cases huac : request.uac = true
    · simp [huac]
    · by_cases hudp : transport = .udp <;> simp [huac, hudp]
  refine ⟨hkept.1, hkept.2.1, ?_, ?_, nofun, nofun⟩
  · intro a ha
    rw [hkept.2.2] at ha
    cases ha
  · intro c hc
    rw [start_cancel] at hc
    cases hc

theorem built_of_run {request : Request} {conf : TransactionConf} {transport : Transport} {topVia : String}
    {newConnection : Bool} {now : ℕ} {tr : IctTrace} {s : IctSystem}
    (h : Run step (start request conf transport topVia newConnection now) tr s) : Built request topVia tr s := by
  have hstep : ∀ (tr : IctTrace) (s : IctSystem) (e : TimedEvent Event) (s' : IctSystem) (o : List Out),
      Built request topVia tr s → True → s.step e = some (s', o) →
        Built request topVia (tr ++ [⟨s, e, o, s'⟩]) s' :=
    fun _ _ _ _ _ hbuilt _ hs => hbuilt.step hs
  exact h.invariant (G := fun _ _ => True) (built_start ..) hstep fun _ _ => trivial

/-- The responses that let a transaction send a CANCEL, and an ACK. -/
def ringing : Response := { statusCode := 180, toTag := some "7d" }

def requestTerminated : Response := { statusCode := 487, toTag := some "7d" }

/-- There is a run that sends both. -/
theorem exists_run_both {request : Request} (h : request.uac = false) (topVia : String) :
    ∃ tr s, Run step (start request .default .tcp topVia false 0) tr s ∧
      failures tr = [requestTerminated] ∧
        Out.send (.ack (request.ackFor topVia requestTerminated)) ∈ outputs tr ∧
          Out.send (.cancel (request.cancelFor topVia [])) ∈ outputs tr := by
  obtain ⟨uac, ruri, hdrRoute, hdrFrom, hdrTo, toTag, callId, cseq⟩ := request
  obtain rfl : uac = false := h
  let events : List (TimedEvent Event) :=
    [⟨0, .response ringing⟩, ⟨0, .doCancel []⟩, ⟨0, .response requestTerminated⟩]
  refine ⟨_, _, run_of_exec (show exec step _ events = some (_, _) from rfl), ?_, ?_, ?_⟩
  · rfl
  · exact List.mem_append_right _ (List.mem_append_right _ List.mem_cons_self)
  · exact List.mem_append_right _ (List.mem_append_left _ List.mem_cons_self)

end IctSystem

/-! ## The INVITE that was sent -/

/-- The number at the beginning of a CSeq value, in base 10. -/
def cseqNumber (value : String) : Int :=
  (Numerals.value 10 ((value.toList.takeWhile Char.isDigit).map fun c => c.toNat - 48) : ℕ)

namespace WireRequest

/-- A message with these values belongs to the request that was written. -/
structure Agrees (w : WireRequest) (ruri topVia callId : String) (cseq : Int) (hdrFrom hdrTo : String)
    (routes : List String) : Prop where
  ruri : ruri = w.ruri
  topVia : (w.values "Via").head? = some topVia
  callId : w.values "Call-ID" = [callId]
  cseq : (w.values "CSeq").map cseqNumber = [cseq]
  hdrFrom : w.values "From" = [hdrFrom]
  hdrTo : w.values "To" = [hdrTo]
  routes : w.values "Route" = routes

/-- The ACK has the values of the INVITE, and the tag of the response when the INVITE had none. -/
def AckMatches (w : WireRequest) (toTag : Option String) (r : Response) (a : Ack) : Prop :=
  w.Agrees a.ruri a.topVia a.callId a.cseq a.hdrFrom a.hdrTo a.routes ∧
    a.addedTag = if toTag.isSome then none else r.toTag

def CancelMatches (w : WireRequest) (c : Cancel) : Prop :=
  w.Agrees c.ruri c.topVia c.callId c.cseq c.hdrFrom c.hdrTo c.routes

/-- Every ACK and every CANCEL of the run match. -/
def Matched (w : WireRequest) (toTag : Option String) (tr : IctSystem.IctTrace) : Prop :=
  (∀ a, Out.send (.ack a) ∈ outputs tr → ∃ r ∈ IctSystem.failures tr, w.AckMatches toTag r a) ∧
    ∀ c, Out.send (.cancel c) ∈ outputs tr → w.CancelMatches c

/-- All of them match when the values of the request do. -/
theorem matched_of_agrees {w : WireRequest} {request : Request} {topVia : String} {tr : IctSystem.IctTrace}
    {s : IctSystem} (hbuilt : IctSystem.Built request topVia tr s)
    (h : w.Agrees request.ruri topVia request.callId request.cseq request.hdrFrom request.hdrTo
      (request.hdrRoute.getD [])) : w.Matched request.toTag tr := by
  constructor
  · intro a ha
    obtain ⟨r, hr, rfl⟩ := hbuilt.sentAck a ha
    exact ⟨r, hr, h, rfl⟩
  · intro c hc
    obtain ⟨reasons, rfl⟩ := hbuilt.sentCancel c hc
    exact h

end WireRequest

namespace EditedRequest

variable (escapeUri : String → String) (q : EditedRequest)

/-- The headers that ACK and CANCEL have too. -/
def comparedNames : List String := ["From", "To", "Call-ID", "CSeq", "Route"]

/-- What the written INVITE has of the request before it was sent. -/
structure Sent (topVia : String) (w : WireRequest) (q' : EditedRequest) : Prop where
  ruri : q.ruri.uriText escapeUri = some (w.ruri, q'.ruri)
  topVia_eq : (w.values "Via").head? = some topVia
  fromValues : w.values "From" = addressValues escapeUri q.fromAddr q.fromTag (q.headerAll "From")
  toValues : w.values "To" = addressValues escapeUri q.toAddr q.hdrTo.toTag (q.headerAll "To")
  callId_eq : w.values "Call-ID" = q.headerAll "Call-ID"
  cseq_eq : w.values "CSeq" = q.headerAll "CSeq"
  route_eq : w.values "Route" = q.headerAll "Route"
  same : q'.hdrFrom = q.hdrFrom ∧ q'.hdrTo = q.hdrTo ∧ q'.hdrRoute = q.hdrRoute ∧ q'.callId = q.callId ∧
    q'.cseq = q.cseq

/-- The request is written with some headers more. -/
theorem sent_of_written {topVia : String} {w : WireRequest} {p p' q' : EditedRequest}
    (hp : SameParsed q p) (hw : p.Written escapeUri w p') (hp' : SameParsed p' q')
    (htopVia : (p.headerAll "Via").head? = some topVia)
    (hothers : ∀ name ∈ comparedNames, p.headerAll name = q.headerAll name) :
    q.Sent escapeUri topVia w q' := by
  constructor
  case ruri =>
    rw [← hp.ruri, hp'.ruri]
    exact hw.ruri
  case topVia_eq =>
    rw [hw.others "Via" (by decide) (by decide) (by decide)]
    exact htopVia
  case fromValues =>
    rw [← hp.fromAddr, ← hp.fromTag, ← hothers "From" (by decide)]
    exact hw.fromValues
  case toValues =>
    rw [← hp.toAddr, ← hp.hdrTo, ← hothers "To" (by decide)]
    exact hw.toValues
  case callId_eq => rw [hw.others "Call-ID" (by decide) (by decide) (by decide), hothers _ (by decide)]
  case cseq_eq => rw [hw.others "CSeq" (by decide) (by decide) (by decide), hothers _ (by decide)]
  case route_eq => rw [hw.others "Route" (by decide) (by decide) (by decide), hothers _ (by decide)]
  case same =>
    refine ⟨?_, ?_, ?_, ?_, ?_⟩
    · rw [hp'.hdrFrom, hw.hdrFrom, hp.hdrFrom]
    · rw [hp'.hdrTo, hw.hdrTo, hp.hdrTo]
    · rw [hp'.hdrRoute, hw.hdrRoute, hp.hdrRoute]
    · rw [hp'.callId, hw.callId, hp.callId]
    · rw [hp'.cseq, hw.cseq, hp.cseq]

theorem sent_of_sendRequest {topVia : String} {recordRoute : Option String} {w : WireRequest}
    {q' : EditedRequest} (h : q.sendRequest escapeUri topVia recordRoute = some (w, q')) :
    q.Sent escapeUri topVia w q' := by
  have hlength := q.onlyHeader_setHeader "Content-Length"
    [toString ((q.body.map String.utf8ByteSize).getD 0)]
  have htop : OnlyHeader "Via" q.withContentLength (q.withContentLength.insertHeader "Via" topVia) :=
    onlyHeader_insertHeader _ _ (by decide)
  have hbase : SameParsed q (q.withContentLength.insertHeader "Via" topVia) := hlength.same.trans htop.same
  have hvia : (q.withContentLength.insertHeader "Via" topVia).headerAll "Via" =
      topVia :: q.withContentLength.headerAll "Via" := headerAll_insertHeader_self ..
  have hothers : ∀ name ∈ comparedNames,
      (q.withContentLength.insertHeader "Via" topVia).headerAll name = q.headerAll name := by
    intro name hname
    have hne : name ≠ "Via" ∧ name ≠ "Content-Length" := by
      revert name
      decide
    rw [htop.headerAll_eq hne.1]
    exact hlength.headerAll_eq hne.2
  unfold sendRequest at h
  cases recordRoute with
  | none =>
    obtain ⟨⟨w', p'⟩, hwritten, heq⟩ := Option.map_eq_some_iff.mp h
    obtain ⟨rfl, rfl⟩ := Prod.mk.inj heq
    apply q.sent_of_written escapeUri hbase (written_of_toS escapeUri _ hwritten)
    · exact (p'.onlyHeader_deleteHeaderTop (by decide)).same
    · rw [hvia]
      rfl
    · exact hothers
  | some recordRoute =>
    obtain ⟨⟨w', p'⟩, hwritten, heq⟩ := Option.map_eq_some_iff.mp h
    obtain ⟨rfl, rfl⟩ := Prod.mk.inj heq
    have hrr : OnlyHeader "Record-Route" (q.withContentLength.insertHeader "Via" topVia)
        ((q.withContentLength.insertHeader "Via" topVia).insertHeader "Record-Route" recordRoute) :=
      onlyHeader_insertHeader _ _ (by decide)
    apply q.sent_of_written escapeUri (hbase.trans hrr.same) (written_of_toS escapeUri _ hwritten)
    · exact (p'.onlyHeader_deleteHeaderTop (by decide)).same.trans
        ((p'.deleteHeaderTop "Via").onlyHeader_deleteHeaderTop (by decide)).same
    · rw [hrr.headerAll_eq (by decide), hvia]
      rfl
    · intro name hname
      have hne : name ≠ "Record-Route" := by
        revert name
        decide
      rw [hrr.headerAll_eq hne]
      exact hothers name hname

/-! ## When they match -/

/-- What `to_s` writes for an address is the value `hdr` that was received: it is not modified and the header
has this value, or it is modified and its text is this value. -/
def Keeps (n : NameAddr) (tag : Option String) (values : List String) (hdr : String) : Prop :=
  if n.isModified then (n.toS escapeUri).map (fun p => p.1 ++ tagText tag) = some hdr else values = [hdr]

theorem addressValues_eq_iff (n : NameAddr) (tag : Option String) (values : List String) (hdr : String) :
    addressValues escapeUri n tag values = [hdr] ↔ Keeps escapeUri n tag values hdr := by
  unfold addressValues Keeps
  split
  · exact Option.toList_eq_singleton_iff
  · exact Iff.rfl

/-- What was parsed of the request is what will be sent. -/
structure Unmoved : Prop where
  ruri : ∃ u, q.ruri = .uri u
  hdrFrom : Keeps escapeUri q.fromAddr q.fromTag (q.headerAll "From") q.hdrFrom
  hdrTo : Keeps escapeUri q.toAddr q.hdrTo.toTag (q.headerAll "To") q.hdrTo.text
  routes : q.headerAll "Route" = q.hdrRoute.getD []
  callId : q.headerAll "Call-ID" = [q.callId]
  cseq : (q.headerAll "CSeq").map cseqNumber = [q.cseq]

variable {q}

/-- `@request.ruri` in a string is the Request-URI that was written when it is a `Uri`, and only then. -/
theorem toS_ruri_eq_iff {r r' : RequestUri} {text : String} (h : r.uriText escapeUri = some (text, r')) :
    ((r'.toS escapeUri).map Prod.fst).getD "" = text ↔ ∃ u, r = .uri u := by
  cases r with
  | uri u =>
    obtain ⟨⟨t, u'⟩, hu, heq⟩ := Option.map_eq_some_iff.mp h
    obtain ⟨rfl, rfl⟩ := Prod.mk.inj heq
    obtain ⟨htext, hmodified⟩ := u.uri_cases escapeUri hu
    have hagain : RequestUri.toS escapeUri (.uri u') = some (u'.text, .uri u') := by
      show (u'.uri escapeUri).map _ = _
      rw [u'.uri_of_not_modified escapeUri hmodified]
      rfl
    rw [hagain]
    exact iff_of_true htext ⟨u, rfl⟩
  | nameAddr n =>
    obtain ⟨⟨t, u'⟩, hu, heq⟩ := Option.map_eq_some_iff.mp h
    obtain ⟨rfl, rfl⟩ := Prod.mk.inj heq
    obtain ⟨htext, hmodified⟩ := n.uri.uri_cases escapeUri hu
    obtain ⟨⟨s, n'⟩, hs⟩ :=
      NameAddr.exists_toS_of_not_modified escapeUri { n with uri := u' } hmodified
    have hne : s ≠ u'.text :=
      (NameAddr.toS_isNameAddrText escapeUri _ hs).ne_of_isUriText u'.text_isUriText
    have hagain : RequestUri.toS escapeUri (.nameAddr { n with uri := u' }) = some (s, .nameAddr n') := by
      show (NameAddr.toS escapeUri _).map _ = _
      rw [hs]
      rfl
    rw [hagain]
    exact iff_of_false (fun heq => hne (heq.trans htext.symm)) nofun

theorem agrees_iff {topVia : String} {w : WireRequest} {q' : EditedRequest} (h : q.Sent escapeUri topVia w q') :
    (w.Agrees (q'.toRequest escapeUri).ruri topVia (q'.toRequest escapeUri).callId
      (q'.toRequest escapeUri).cseq (q'.toRequest escapeUri).hdrFrom (q'.toRequest escapeUri).hdrTo
      ((q'.toRequest escapeUri).hdrRoute.getD [])) ↔ q.Unmoved escapeUri := by
  obtain ⟨hhdrFrom, hhdrTo, hhdrRoute, hcallId, hcseq⟩ := h.same
  have hruri := toS_ruri_eq_iff escapeUri h.ruri
  have hfrom := addressValues_eq_iff escapeUri q.fromAddr q.fromTag (q.headerAll "From") q.hdrFrom
  have hto := addressValues_eq_iff escapeUri q.toAddr q.hdrTo.toTag (q.headerAll "To") q.hdrTo.text
  constructor
  · intro hw
    have htext : w.values "To" = [q'.hdrTo.text] := hw.hdrTo
    have hvalue : w.values "From" = [q'.hdrFrom] := hw.hdrFrom
    have hroutes : w.values "Route" = q'.hdrRoute.getD [] := hw.routes
    have hids : w.values "Call-ID" = [q'.callId] := hw.callId
    have hnumbers : (w.values "CSeq").map cseqNumber = [q'.cseq] := hw.cseq
    constructor
    · exact hruri.mp hw.ruri
    · rw [← hfrom, ← h.fromValues, hvalue, hhdrFrom]
    · rw [← hto, ← h.toValues, htext, hhdrTo]
    · rw [← h.route_eq, hroutes, hhdrRoute]
    · rw [← h.callId_eq, hids, hcallId]
    · rw [← h.cseq_eq, hnumbers, hcseq]
  · intro hq
    constructor
    · exact hruri.mpr hq.ruri
    · exact h.topVia_eq
    · show _ = [q'.callId]
      rw [h.callId_eq, hq.callId, hcallId]
    · show _ = [q'.cseq]
      rw [h.cseq_eq, hq.cseq, hcseq]
    · show _ = [q'.hdrFrom]
      rw [h.fromValues, hfrom.mpr hq.hdrFrom, hhdrFrom]
    · show _ = [q'.hdrTo.text]
      rw [h.toValues, hto.mpr hq.hdrTo, hhdrTo]
    · show _ = q'.hdrRoute.getD []
      rw [h.route_eq, hq.routes, hhdrRoute]

/-- The ACKs and CANCELs of every transaction that sends the request match the INVITE on the wire exactly when
what was parsed of the request is what is sent. -/
theorem matched_iff {topVia : String} {recordRoute : Option String} {w : WireRequest} {q' : EditedRequest}
    (h : q.sendRequest escapeUri topVia recordRoute = some (w, q')) :
    (∀ conf transport newConnection now tr s,
      Run IctSystem.step (IctSystem.start (q'.toRequest escapeUri) conf transport topVia newConnection now) tr s →
        w.Matched q.hdrTo.toTag tr) ↔ q.Unmoved escapeUri := by
  have hsent := q.sent_of_sendRequest escapeUri h
  have htag : (q'.toRequest escapeUri).toTag = q.hdrTo.toTag := congrArg ToValue.toTag hsent.same.2.1
  rw [← agrees_iff escapeUri hsent]
  constructor
  · intro hall
    have huac : (q'.toRequest escapeUri).uac = false := rfl
    obtain ⟨tr, s, hrun, _, _, hcancel⟩ := IctSystem.exists_run_both huac topVia
    exact (hall _ _ _ _ tr s hrun).2 _ hcancel
  · intro hagrees conf transport newConnection now tr s hrun
    rw [← htag]
    exact WireRequest.matched_of_agrees (IctSystem.built_of_run hrun) hagrees

/-! ## Requests and edits for which they match -/

/-- What the parser leaves, and what edits of other things keep: the addresses are not modified, the headers
have the values that were parsed, and the Array of the Route header is `@hdr_route`. -/
structure Untouched (q : EditedRequest) : Prop where
  ruri : ∃ u, q.ruri = .uri u
  fromAddr : q.fromAddr.isModified = false
  toAddr : q.toAddr.isModified = false
  hdrFrom : q.headerAll "From" = [q.hdrFrom]
  hdrTo : q.headerAll "To" = [q.hdrTo.text]
  callId : q.headerAll "Call-ID" = [q.callId]
  route : ∀ a, q.headers.find? "Route" = some a → a.parsed = true ∧ q.hdrRoute = some a.values
  noRoute : q.headers.find? "Route" = none → q.hdrRoute = none
  cseq : (q.headerAll "CSeq").map cseqNumber = [q.cseq]

theorem Untouched.unmoved (h : q.Untouched) : q.Unmoved escapeUri := by
  constructor
  · exact h.ruri
  · unfold Keeps
    rw [h.fromAddr]
    exact h.hdrFrom
  · unfold Keeps
    rw [h.toAddr]
    exact h.hdrTo
  · cases hroute : q.headers.find? "Route" with
    | some a =>
      rw [q.headerAll_of_find? hroute, (h.route a hroute).2]
      rfl
    | none =>
      unfold headerAll
      rw [hroute, h.noRoute hroute]
      rfl
  · exact h.callId
  · exact h.cseq

/-- The edit replaces the Request-URI by a `Uri`, or changes something that ACK and CANCEL do not have, or
takes Route values off the Array. -/
def Edit.Harmless : Edit → Prop
  | .setRuri r => ∃ u, r = .uri u
  | .ruri _ | .contact _ | .shiftRoute _ => True
  | .fromAddr e | .toAddr e => e.sets = false
  | .setFrom n | .setTo n => n.isModified = false
  | .setHeader name _ | .deleteHeader name | .deleteHeaderTop name | .insertHeader name _
  | .appendHeader name _ | .replaceHeaderTop name _ => name ∉ comparedNames

/-- Only another header is changed. -/
theorem Untouched.of_onlyHeader {q' : EditedRequest} {name : String} (h : q.Untouched)
    (honly : OnlyHeader name q q') (hname : name ∉ comparedNames) : q'.Untouched := by
  have hsame := honly.same
  have hheaders : ∀ other ∈ comparedNames, q'.headers.find? other = q.headers.find? other :=
    fun other hother => honly.others other fun heq => hname (heq ▸ hother)
  have hall : ∀ name ∈ comparedNames, q'.headerAll name = q.headerAll name := by
    intro name hname
    unfold headerAll
    rw [hheaders name hname]
  constructor
  · rw [hsame.ruri]
    exact h.ruri
  · rw [hsame.fromAddr]
    exact h.fromAddr
  · rw [hsame.toAddr]
    exact h.toAddr
  · rw [hall "From" (by decide), hsame.hdrFrom]
    exact h.hdrFrom
  · rw [hall "To" (by decide), hsame.hdrTo]
    exact h.hdrTo
  · rw [hall "Call-ID" (by decide), hsame.callId]
    exact h.callId
  · rw [hheaders "Route" (by decide), hsame.hdrRoute]
    exact h.route
  · rw [hheaders "Route" (by decide), hsame.hdrRoute]
    exact h.noRoute
  · rw [hall "CSeq" (by decide), hsame.cseq]
    exact h.cseq

theorem Untouched.shiftRoute {q' : EditedRequest} {n : ℕ} (h : q.Untouched) (hq : q.shiftRoute n = some q') :
    q'.Untouched := by
  obtain ⟨a, ha, rfl⟩ := Option.map_eq_some_iff.mp hq
  obtain ⟨hparsed, hroute⟩ := h.route a ha
  have hother : ∀ name, name ≠ "Route" →
      (q.mutate "Route" a (a.values.drop n)).headerAll name = q.headerAll name := by
    intro name hne
    unfold headerAll mutate
    rw [OrderedMap.find?_set_of_ne _ _ hne]
  have hfind : (q.mutate "Route" a (a.values.drop n)).headers.find? "Route" =
      some { a with values := a.values.drop n } := OrderedMap.find?_set_self _ _ _
  constructor
  · exact h.ruri
  · exact h.fromAddr
  · exact h.toAddr
  · rw [hother "From" (by decide)]
    exact h.hdrFrom
  · rw [hother "To" (by decide)]
    exact h.hdrTo
  · rw [hother "Call-ID" (by decide)]
    exact h.callId
  · intro a' ha'
    rw [hfind] at ha'
    obtain rfl := Option.some.inj ha'
    exact ⟨hparsed, if_pos ⟨rfl, hparsed⟩⟩
  · intro hnone
    rw [hfind] at hnone
    cases hnone
  · rw [hother "CSeq" (by decide)]
    exact h.cseq

/-- A harmless edit keeps the two views of the request one. -/
theorem Untouched.edit {q' : EditedRequest} {e : Edit} (h : q.Untouched) (he : e.Harmless)
    (hq : q.edit escapeUri e = some q') : q'.Untouched := by
  have hroute : "Route" ∈ comparedNames := by decide
  cases e with
  | setRuri r =>
    obtain rfl := Option.some.inj hq
    exact { h with ruri := he }
  | ruri e =>
    obtain ⟨u, hu⟩ := h.ruri
    obtain ⟨r, hr, rfl⟩ := Option.map_eq_some_iff.mp hq
    refine { h with ruri := ?_ }
    rw [hu] at hr
    cases e with
    | displayName value => cases hr
    | uri e => exact ⟨_, (Option.some.inj hr).symm⟩
    | readUri =>
      obtain ⟨p, _, heq⟩ := Option.map_eq_some_iff.mp hr
      exact ⟨_, heq.symm⟩
    | readText =>
      obtain ⟨p, _, heq⟩ := Option.map_eq_some_iff.mp hr
      exact ⟨_, heq.symm⟩
  | fromAddr e =>
    obtain ⟨n, hn, rfl⟩ := Option.map_eq_some_iff.mp hq
    exact { h with fromAddr := q.fromAddr.isModified_of_read escapeUri h.fromAddr he hn }
  | toAddr e =>
    obtain ⟨n, hn, rfl⟩ := Option.map_eq_some_iff.mp hq
    exact { h with toAddr := q.toAddr.isModified_of_read escapeUri h.toAddr he hn }
  | contact e =>
    obtain ⟨n, _, rfl⟩ := Option.map_eq_some_iff.mp hq
    exact { h with }
  | setFrom n =>
    obtain rfl := Option.some.inj hq
    exact { h with fromAddr := he }
  | setTo n =>
    obtain rfl := Option.some.inj hq
    exact { h with toAddr := he }
  | setHeader name values =>
    obtain rfl := Option.some.inj hq
    exact h.of_onlyHeader (q.onlyHeader_setHeader name values) he
  | deleteHeader name =>
    obtain rfl := Option.some.inj hq
    exact h.of_onlyHeader (q.onlyHeader_deleteHeader name) he
  | deleteHeaderTop name =>
    obtain rfl := Option.some.inj hq
    exact h.of_onlyHeader (q.onlyHeader_deleteHeaderTop fun heq => he (heq ▸ hroute)) he
  | insertHeader name value =>
    obtain rfl := Option.some.inj hq
    exact h.of_onlyHeader (q.onlyHeader_insertHeader value fun heq => he (heq ▸ hroute)) he
  | appendHeader name value =>
    obtain rfl := Option.some.inj hq
    exact h.of_onlyHeader (q.onlyHeader_appendHeader value fun heq => he (heq ▸ hroute)) he
  | replaceHeaderTop name value =>
    obtain rfl := Option.some.inj hq
    exact h.of_onlyHeader (q.onlyHeader_replaceHeaderTop value fun heq => he (heq ▸ hroute)) he
  | shiftRoute n => exact h.shiftRoute hq

/-- After any number of harmless edits ACK and CANCEL will match. -/
theorem unmoved_of_edits {q' : EditedRequest} {edits : List Edit} (h : q.Untouched)
    (hedits : ∀ e ∈ edits, e.Harmless) (hq : edits.foldlM (fun q e => q.edit escapeUri e) q = some q') :
    q'.Unmoved escapeUri := by
  have hkept : q'.Untouched := by
    induction edits generalizing q with
    | nil =>
      obtain rfl := Option.some.inj hq
      exact h
    | cons e edits ih =>
      rw [List.foldlM_cons] at hq
      obtain ⟨q₁, hq₁, hrest⟩ := Option.bind_eq_some_iff.mp hq
      have hfirst : q₁.Untouched := h.edit escapeUri (hedits e List.mem_cons_self) hq₁
      exact ih hfirst (fun e' he' => hedits e' (List.mem_cons_of_mem _ he')) hrest
  exact hkept.unmoved escapeUri

/-! ### The CSeq of a received request -/

theorem digitChar_digit {d : ℕ} (h : d < 10) :
    (Nat.digitChar d).isDigit = true ∧ (Nat.digitChar d).toNat - 48 = d := by
  have hall : ∀ d < 10, (Nat.digitChar d).isDigit = true ∧ (Nat.digitChar d).toNat - 48 = d := by decide
  exact hall d h

theorem cseqNumber_digits {ds : List ℕ} (hds : ∀ d ∈ ds, d < 10) {rest : String}
    (hrest : ∀ c ∈ rest.toList.head?, c.isDigit = false) :
    cseqNumber (String.ofList (ds.map Nat.digitChar) ++ rest) = Numerals.value 10 ds := by
  have hnone : rest.toList.takeWhile Char.isDigit = [] := by
    cases hlist : rest.toList with
    | nil => rfl
    | cons c cs =>
      have hc : c.isDigit = false := hrest c (by rw [hlist]; rfl)
      exact List.takeWhile_cons_of_neg (by rw [hc]; exact Bool.false_ne_true)
  have hdigits : (ds.map Nat.digitChar).all Char.isDigit = true := by
    apply List.all_eq_true.mpr
    intro c hc
    obtain ⟨d, hd, rfl⟩ := List.mem_map.mp hc
    exact (digitChar_digit (hds d hd)).1
  have hmap : (ds.map Nat.digitChar).map (fun c => c.toNat - 48) = ds := by
    rw [List.map_map]
    calc ds.map _ = ds.map id := List.map_congr_left fun d hd => (digitChar_digit (hds d hd)).2
      _ = ds := List.map_id ds
  unfold cseqNumber
  rw [String.toList_append, String.toList_ofList, List.takeWhile_append_of_pos (List.all_eq_true.mp hdigits),
    hnone, List.append_nil, hmap]

/-- The CSeq that was received and left as it is has the number that was stored, unless its digits are read in
base 8. -/
theorem cseq_received_iff (w : WrittenNumber) (hfield : w.field = .cseq) {rest : String}
    (hrest : ∀ c ∈ rest.toList.head?, c.isDigit = false)
    (hheader : q.headerAll "CSeq" = [String.ofList (w.digits.map Nat.digitChar) ++ rest])
    (hcseq : q.cseq = w.read) : (q.headerAll "CSeq").map cseqNumber = [q.cseq] ↔ w.NotOctal := by
  have hread : w.field.ReadByStrtol := .inr hfield
  rw [hheader, hcseq, List.map_singleton, cseqNumber_digits w.digits_lt hrest, List.singleton_inj,
    ← w.read_eq_decimal_iff hread]
  exact eq_comm

/-! ### An INVITE that was not touched -/

theorem untouched_sampleInvite : sampleInvite.Untouched := by
  constructor
  case ruri => exact ⟨bobUri, rfl⟩
  case route =>
    intro a ha
    cases ha
  case cseq => decide
  all_goals first | rfl | exact fun _ => rfl

theorem matched_sampleInvite :
    ∃ w q', sampleInvite.sendRequest id sampleVia none = some (w, q') ∧
      ∀ conf transport newConnection now tr s,
        Run IctSystem.step (IctSystem.start (q'.toRequest id) conf transport sampleVia newConnection now) tr s →
          w.Matched sampleInvite.hdrTo.toTag tr := by
  have hsend : ∃ w q', sampleInvite.sendRequest id sampleVia none = some (w, q') := ⟨_, _, rfl⟩
  obtain ⟨w, q', hsend⟩ := hsend
  exact ⟨w, q', hsend, (matched_iff id hsend).mpr (untouched_sampleInvite.unmoved id)⟩

/-- The application routes the INVITE to a name address. -/
def renamedInvite : EditedRequest := { sampleInvite with ruri := .nameAddr (parsedAddr bobUri) }

/-- Its CANCEL goes to `<sip:bob@example.net>`, and the INVITE went to `sip:bob@example.net`. -/
theorem renamedInvite_not_matched :
    sampleInvite.edit id (.setRuri (.nameAddr (parsedAddr bobUri))) = some renamedInvite ∧
      ∃ w q', renamedInvite.sendRequest id sampleVia none = some (w, q') ∧
        ∃ tr s, Run IctSystem.step (IctSystem.start (q'.toRequest id) .default .tcp sampleVia false 0) tr s ∧
          ¬w.Matched renamedInvite.hdrTo.toTag tr := by
  refine ⟨rfl, ?_⟩
  have hsend : ∃ w q', renamedInvite.sendRequest id sampleVia none = some (w, q') := ⟨_, _, rfl⟩
  obtain ⟨w, q', hsend⟩ := hsend
  have hsent := renamedInvite.sent_of_sendRequest id hsend
  have huac : (q'.toRequest id).uac = false := rfl
  obtain ⟨tr, s, hrun, _, _, hcancel⟩ := IctSystem.exists_run_both huac sampleVia
  refine ⟨w, q', hsend, tr, s, hrun, ?_⟩
  rintro ⟨_, hcancels⟩
  obtain ⟨u, hu⟩ := (toS_ruri_eq_iff id hsent.ruri).mp (hcancels _ hcancel).ruri
  cases hu

end EditedRequest

end OverSip
