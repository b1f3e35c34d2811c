import OverSip.Sip.RoutingHeadersTheorems

/-!
# A request after it has been sent

`send_request` takes off what it has put on: after it the headers of a request are those before, apart from
From, To and Contact, which `to_s` writes anew when they were modified. So a request can be sent to one
target after another, and each copy has one Via and one second entry. The exception is `:both_outbound_path`,
for which the client transaction takes the top Record-Route off instead of its Path.
-/

namespace OverSip

/-- The values that `Request#to_s` writes into the headers. -/
structure Rewriting where
  fromValue : Option String
  toValue : Option String
  contactValue : Option String
deriving DecidableEq, Repr

namespace Rewriting

variable (w : Rewriting)

/-- The headers that `to_s` may write. -/
def names : List String := ["From", "To", "Contact"]

/-- What is written into a header. -/
def value (name : String) : Option String :=
  if name = "From" then w.fromValue
  else if name = "To" then w.toValue
  else if name = "Contact" then w.contactValue
  else none

def apply (h : Headers) : Headers := fun name => (w.value name).elim (h name) fun v => [v]

theorem apply_of_not_mem (h : Headers) {name : String} (hname : name ∉ names) : w.apply h name = h name := by
  simp only [names, List.mem_cons, List.not_mem_nil, or_false, not_or] at hname
  unfold apply value
  rw [if_neg hname.1, if_neg hname.2.1, if_neg hname.2.2]
  rfl

/-- A header that `to_s` does not write can be taken off before. -/
theorem deleteHeaderTop_apply (h : Headers) {name : String} (hname : name ∉ names) :
    (w.apply h).deleteHeaderTop name = w.apply (h.deleteHeaderTop name) := by
  funext other
  by_cases heq : other = name
  · rw [heq, Headers.deleteHeaderTop_self, w.apply_of_not_mem _ hname, w.apply_of_not_mem _ hname,
      Headers.deleteHeaderTop_self]
  · rw [Headers.deleteHeaderTop_of_ne _ heq]
    unfold apply
    rw [Headers.deleteHeaderTop_of_ne _ heq]

end Rewriting

namespace RoutedRequest

variable {r : RoutedRequest}

/-- `send_request`, with what `to_s` writes. -/
def sendRewriting (r : RoutedRequest) (klass : ServerClass) (same : Bool) (topVia : String) (w : Rewriting) :
    Headers × RoutedRequest :=
  let h := r.headers.insertHeader "Via" topVia
  match r.outRr klass same, r.inRr with
  | some (name, value), some k =>
    let copy := w.apply (h.insertHeader name value)
    (copy, { r with headers := (copy.deleteHeaderTop "Via").deleteHeaderTop (outRrHeader k) })
  | _, _ =>
    let copy := w.apply h
    (copy, { r with headers := if r.method = .ack then copy else copy.deleteHeaderTop "Via" })

theorem outRrHeader_not_mem (k : InRr) : outRrHeader k ∉ Rewriting.names := by
  cases k <;> decide

/-- What `to_s` writes goes into the copy and stays in the request. -/
theorem sendRewriting_eq (r : RoutedRequest) (klass : ServerClass) (same : Bool) (topVia : String)
    (w : Rewriting) : r.sendRewriting klass same topVia w =
      (w.apply (r.sendRequest klass same topVia).1,
        { r with headers := w.apply (r.sendRequest klass same topVia).2.headers }) := by
  have hvia : "Via" ∉ Rewriting.names := by decide
  rcases sendRequest_cases r klass same topVia with ⟨hout, hsend⟩ | ⟨k, value, hin, _, hout, hsend⟩
  · rw [hsend]
    unfold sendRewriting
    rw [hout]
    dsimp only
    rw [w.deleteHeaderTop_apply _ hvia]
    split_ifs <;> rfl
  · rw [hsend]
    unfold sendRewriting
    rw [hout, hin]
    dsimp only
    rw [w.deleteHeaderTop_apply _ hvia, w.deleteHeaderTop_apply _ (outRrHeader_not_mem k)]

/-! ## One target after another -/

/-- A call of `send_request`. -/
structure Sending where
  klass : ServerClass
  same : Bool
  topVia : String
  rewriting : Rewriting
deriving DecidableEq, Repr

/-- The copies that are sent, and the request afterwards. -/
def sendAll (r : RoutedRequest) : List Sending → List (Sending × Headers) × RoutedRequest
  | [] => ([], r)
  | s :: sendings =>
    let (copy, sent) := r.sendRewriting s.klass s.same s.topVia s.rewriting
    let (copies, last) := sent.sendAll sendings
    ((s, copy) :: copies, last)

/-- The headers are the same, apart from those that `to_s` writes. -/
def SameHeaders (q r : RoutedRequest) : Prop := ∀ name, name ∉ Rewriting.names → q.headers name = r.headers name

/-- The copy is the request with the Via and the second entry of the client transaction. -/
structure CopyOf (r : RoutedRequest) (s : Sending) (copy : Headers) : Prop where
  via : copy "Via" = s.topVia :: r.headers "Via"
  second : ∀ name ∈ ["Record-Route", "Path"], copy name = r.second s.klass s.same name ++ r.headers name

/-- The request is left as it was, and each copy is one of it. -/
structure LeavesHeaders (r : RoutedRequest) (sendings : List Sending) : Prop where
  headers : SameHeaders (r.sendAll sendings).2 r
  copies : ∀ x ∈ (r.sendAll sendings).1, CopyOf r x.1 x.2

theorem sendRequest_via (r : RoutedRequest) (klass : ServerClass) (same : Bool) (topVia : String) :
    (r.sendRequest klass same topVia).1 "Via" = topVia :: r.headers "Via" := by
  rcases sendRequest_cases r klass same topVia with ⟨_, hsend⟩ | ⟨k, value, _, _, _, hsend⟩
  · rw [hsend]
    show (r.headers.insertHeader "Via" topVia) "Via" = _
    exact Headers.insertHeader_self ..
  · rw [hsend]
    show ((r.headers.insertHeader "Via" topVia).insertHeader k.header value) "Via" = _
    rw [Headers.insertHeader_of_ne _ _ (header_ne_via k).symm, Headers.insertHeader_self]

/-- A copy of a request with the headers of `r`. -/
theorem copyOf_sendRewriting {q : RoutedRequest} (hsame : SameHeaders q r) (hmethod : q.method = r.method)
    (hinRr : q.inRr = r.inRr) (htoken : q.routeOutboundFlowToken = r.routeOutboundFlowToken) (s : Sending) :
    CopyOf r s (q.sendRewriting s.klass s.same s.topVia s.rewriting).1 := by
  have hvia : "Via" ∉ Rewriting.names := by decide
  rw [sendRewriting_eq]
  constructor
  · show s.rewriting.apply (q.sendRequest s.klass s.same s.topVia).1 "Via" = _
    rw [Rewriting.apply_of_not_mem _ _ hvia, sendRequest_via, hsame "Via" hvia]
  · intro name hname
    have hnot : name ∉ Rewriting.names := by
      simp only [List.mem_cons, List.not_mem_nil, or_false] at hname
      rcases hname with rfl | rfl <;> decide
    have hne : name ≠ "Via" := by
      rintro rfl
      exact absurd hname (by decide)
    have hsecond : q.second s.klass s.same name = r.second s.klass s.same name := by
      unfold second outRr
      rw [hmethod, hinRr, htoken]
    show s.rewriting.apply (q.sendRequest s.klass s.same s.topVia).1 name = _
    rw [Rewriting.apply_of_not_mem _ _ hnot, sendRequest_copy q s.klass s.same s.topVia hne, hsame name hnot,
      hsecond]

/-- A request that takes off what it has put on. -/
theorem leavesHeaders (hk : ¬r.KeepsPath) (hack : r.method ≠ .ack) (sendings : List Sending) :
    LeavesHeaders r sendings := by
  -- the request has the headers of `r` before each sending
  have hall : ∀ q : RoutedRequest, SameHeaders q r → q.method = r.method → q.inRr = r.inRr →
      q.routeOutboundFlowToken = r.routeOutboundFlowToken →
        SameHeaders (q.sendAll sendings).2 r ∧ ∀ x ∈ (q.sendAll sendings).1, CopyOf r x.1 x.2 := by
    induction sendings with
    | nil =>
      intro q hsame _ _ _
      exact ⟨hsame, nofun⟩
    | cons s sendings ih =>
      intro q hsame hmethod hinRr htoken
      have hkeeps : (q.sendRequest s.klass s.same s.topVia).2 = q := by
        apply sendRequest_keeps
        · rintro ⟨hin, hinvite, hack⟩
          exact hk ⟨hinRr ▸ hin, hmethod ▸ hinvite, hmethod ▸ hack⟩
        · rw [hmethod]
          exact hack
      have hcopy := copyOf_sendRewriting hsame hmethod hinRr htoken s
      obtain ⟨q', hq'⟩ : ∃ q', q' = (q.sendRewriting s.klass s.same s.topVia s.rewriting).2 := ⟨_, rfl⟩
      have hsent : q' = { q with headers := s.rewriting.apply q.headers } := by
        rw [hq', sendRewriting_eq, hkeeps]
      have hsame' : SameHeaders q' r := by
        intro name hname
        rw [hsent]
        exact (s.rewriting.apply_of_not_mem _ hname).trans (hsame name hname)
      obtain ⟨hlast, hcopies⟩ := ih q' hsame' (by rw [hsent]; exact hmethod) (by rw [hsent]; exact hinRr)
        (by rw [hsent]; exact htoken)
      rw [hq'] at hlast hcopies
      exact ⟨hlast, List.forall_mem_cons.mpr ⟨hcopy, hcopies⟩⟩
  obtain ⟨hheaders, hcopies⟩ := hall r (fun _ _ => rfl) rfl rfl rfl
  exact ⟨hheaders, hcopies⟩

/-- A request that keeps its Path has one more value in it after each sending. -/
theorem length_path_sendAll (hk : r.KeepsPath) (sendings : List Sending) :
    ((r.sendAll sendings).2.headers "Path").length = (r.headers "Path").length + sendings.length := by
  induction sendings generalizing r with
  | nil => rfl
  | cons s sendings ih =>
    obtain ⟨q, hq⟩ : ∃ q, q = (r.sendRewriting s.klass s.same s.topVia s.rewriting).2 := ⟨_, rfl⟩
    obtain ⟨headers, hheaders⟩ : ∃ headers,
      headers = s.rewriting.apply (r.sendRequest s.klass s.same s.topVia).2.headers := ⟨_, rfl⟩
    have hsent : q = { r with headers } := by
      rw [hq, hheaders, sendRewriting_eq]
    have hpath : (q.headers "Path").length = (r.headers "Path").length + 1 := by
      have hpathName : "Path" ∉ Rewriting.names := by decide
      rw [hsent]
      show (headers "Path").length = _
      rw [hheaders, Rewriting.apply_of_not_mem _ _ hpathName, sendRequest_keepsPath _ _ _ hk]
      rfl
    have hkq : q.KeepsPath := by
      rw [hsent]
      exact hk
    have hrec := ih hkq
    rw [hq] at hrec hpath
    show (((r.sendRewriting s.klass s.same s.topVia s.rewriting).2.sendAll sendings).2.headers "Path").length = _
    rw [hrec, hpath, List.length_cons]
    omega

theorem leavesHeaders_iff (hack : r.method ≠ .ack) (s : Sending) (sendings : List Sending) :
    LeavesHeaders r (s :: sendings) ↔ ¬(r.inRr = some .bothOutboundPath ∧ r.method ≠ .invite) := by
  constructor
  · rintro h ⟨hin, hinvite⟩
    have hlength := length_path_sendAll ⟨hin, hinvite, hack⟩ (s :: sendings)
    rw [h.headers "Path" (by decide), List.length_cons] at hlength
    omega
  · intro hcond
    apply leavesHeaders _ hack
    rintro ⟨hin, hinvite, _⟩
    exact hcond ⟨hin, hinvite⟩

/-- A call of `send_request` over UDP. -/
def sampleSending : Sending where
  klass := sampleServerClass
  same := false
  topVia := "SIP/2.0/UDP 192.0.2.1:5060;branch=z9hG4bK1"
  rewriting := { fromValue := none, toValue := none, contactValue := none }

theorem leavesHeaders_sample : sampleRouted.method ≠ .ack ∧ LeavesHeaders sampleRouted [sampleSending] :=
  ⟨by decide, (leavesHeaders_iff (by decide) sampleSending []).mpr (by decide)⟩

/-- A REGISTER with Outbound on both sides. -/
def bothOutboundRegister : RoutedRequest :=
  { sampleRouted with
    method := .other "REGISTER", inRr := some .bothOutboundPath, routeOutboundFlowToken := "_MTk5" }

theorem bothOutboundRegister_keeps : ¬LeavesHeaders bothOutboundRegister [sampleSending] := by
  intro h
  have hpath := h.headers "Path" (by decide)
  exact absurd hpath (by decide)

end RoutedRequest

end OverSip
