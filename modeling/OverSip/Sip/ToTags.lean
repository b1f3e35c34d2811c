import OverSip.Lib.History
import OverSip.Sip.ServerResponses

/-!
# The To tag of local replies

`reply` (`request.rb`) appends a tag to the received To value, and keeps it in `@internal_to_tag` for the
replies that follow. The value it appends to is the received one with all its parameters: a To value that
has a tag already gets a second one. `reply_199` swaps the variable for one reply.
-/

namespace OverSip

/-! ## To values -/

/-- What stands behind the `=` of a parameter. -/
inductive ParamValue
  | token (s : String)
  /-- A quoted string, or a host that is no token. -/
  | other (s : String)
deriving DecidableEq, Repr

/-- A parameter of a To value. `text` is what is written, with its separators. -/
structure ToParam where
  text : String
  name : String
  value : Option ParamValue
deriving DecidableEq, Repr

/-- The parameter is a tag, whatever its value. -/
def ToParam.isTag (p : ToParam) : Bool := p.name.toLower == "tag"

/-- A To value: the address as it is written, and the parameters. -/
structure ToValue where
  address : String
  params : List ToParam
deriving DecidableEq, Repr

namespace ToValue

/-- The string `@hdr_to`. -/
def text (v : ToValue) : String := v.params.foldl (fun s p => s ++ p.text) v.address

/-- The tag parameters. -/
def tags (v : ToValue) : List ToParam := v.params.filter ToParam.isTag

/-- Everything else. -/
def rest (v : ToValue) : String × List ToParam := (v.address, v.params.filter fun p => !p.isTag)

/-- `@to_tag`: the parser takes the value of each tag that is a token, so that the last one remains. -/
def toTag (v : ToValue) : Option String :=
  (v.tags.filterMap fun p =>
    match p.value with
    | some (.token t) => some t
    | _ => none).getLast?

/-- The parameter `;tag=t`. -/
def tagParam (t : String) : ToParam := { text := ";tag=" ++ t, name := "tag", value := some (.token t) }

/-- `@hdr_to`, and `";tag=#{@internal_to_tag}"` when there is one. -/
def withTag (v : ToValue) (internalToTag : Option String) : ToValue :=
  { v with params := v.params ++ internalToTag.toList.map tagParam }

/-- The To value is `v` with one tag. -/
structure Tagged (v : ToValue) (t : String) (w : ToValue) : Prop where
  tags : w.tags.map (·.value) = [some (.token t)]
  rest : w.rest = v.rest

theorem isTag_tagParam (t : String) : (tagParam t).isTag = true := by
  show ("tag".toLower == "tag") = true
  decide +kernel

theorem text_withTag (v : ToValue) (t : String) : (v.withTag (some t)).text = v.text ++ (";tag=" ++ t) := by
  show (v.params ++ [tagParam t]).foldl _ _ = _
  rw [List.foldl_append]
  rfl

theorem tags_withTag (v : ToValue) (t : String) : (v.withTag (some t)).tags = v.tags ++ [tagParam t] := by
  show (v.params ++ [tagParam t]).filter _ = _
  rw [List.filter_append, List.filter_singleton, isTag_tagParam]
  rfl

theorem rest_withTag (v : ToValue) (t : String) : (v.withTag (some t)).rest = v.rest := by
  show (v.address, (v.params ++ [tagParam t]).filter _) = _
  rw [List.filter_append, List.filter_singleton, isTag_tagParam, Bool.not_true, cond_false, List.append_nil]
  rfl

/-- A tag is appended rightly to a value without one. -/
theorem tagged_withTag_iff (v : ToValue) (t t' : String) :
    v.Tagged t' (v.withTag (some t)) ↔ v.tags = [] ∧ t = t' := by
  constructor
  · rintro ⟨htags, _⟩
    rw [tags_withTag, List.map_append] at htags
    have hlength := congrArg List.length htags
    rw [List.length_append, List.length_map, List.length_map] at hlength
    have hnil : v.tags = [] := List.eq_nil_of_length_eq_zero (Nat.add_right_cancel hlength)
    rw [hnil] at htags
    cases htags
    exact ⟨hnil, rfl⟩
  · rintro ⟨hnil, rfl⟩
    constructor
    · rw [tags_withTag, hnil]
      rfl
    · exact v.rest_withTag t

theorem toTag_of_tags_nil {v : ToValue} (h : v.tags = []) : v.toTag = none := by
  unfold toTag
  rw [h]
  rfl

end ToValue

/-! ## Replies -/

/-- A received request, and what `reply` reads of it. -/
structure RepliedRequest where
  hdrTo : ToValue
  internalToTag : Option String
  transaction : Option Transaction
deriving DecidableEq, Repr

/-- A reply that is sent. `downstream` is the response that a 199 was made for. -/
structure SentReply where
  statusCode : Nat
  toValue : ToValue
  downstream : Option Response
deriving DecidableEq, Repr

namespace RepliedRequest

variable (q : RepliedRequest)

/-- `receive_response` of the server transaction, if there is one. -/
def accepts (statusCode : Nat) : Bool := q.transaction.all (·.accepts statusCode)

/-- The tag that a reply with this status has; `tag` is the one that would be made. -/
def replyTag (statusCode : Nat) (tag : String) : Option String :=
  if 100 < statusCode then some ((q.internalToTag.or q.hdrTo.toTag).getD tag) else q.internalToTag

/-- `reply` to a request that is no ACK. -/
def reply (statusCode : Nat) (reason tag : String) (downstream : Option Response) :
    RepliedRequest × List SentReply :=
  if q.accepts statusCode then
    let internalToTag := q.replyTag statusCode tag
    ({ q with
        internalToTag
        transaction := q.transaction.map fun t => (t.reply (.built statusCode reason internalToTag)).1 },
      [{ statusCode, toValue := q.hdrTo.withTag internalToTag, downstream }])
  else (q, [])

/-- `reply_199` -/
def reply199 (r : Response) (tag : String) : RepliedRequest × List SentReply :=
  let (q', o) := { q with internalToTag := r.toTag }.reply 199 "Early Dialog Terminated" tag (some r)
  ({ q' with internalToTag := q.internalToTag }, o)

/-- What can happen to the request. -/
inductive Event
  | reply (statusCode : Nat) (reason tag : String)
  | reply199 (r : Response) (tag : String)
  /-- The server transaction is made, or something else happens to it. -/
  | transaction (t : Option Transaction)
deriving DecidableEq, Repr

def step (q : RepliedRequest) : Event → Option (RepliedRequest × List SentReply)
  | .reply statusCode reason tag => some (q.reply statusCode reason tag none)
  | .reply199 r tag => some (q.reply199 r tag)
  | .transaction t => some ({ q with transaction := t }, [])

/-- The request as it is received. -/
def received (hdrTo : ToValue) : RepliedRequest := { hdrTo, internalToTag := none, transaction := none }

/-- The reply of a request with a server transaction has the tag that is appended here. -/
theorem reply_served (s : ServedRequest) (statusCode : Nat) (reason tag : String)
    (h : s.toTag = q.hdrTo.toTag) (htag : s.internalToTag = q.internalToTag)
    (htransaction : q.transaction = some s.transaction) :
    (s.reply statusCode reason [] none tag).1.internalToTag = (q.reply statusCode reason tag none).1.internalToTag ∧
      some (s.reply statusCode reason [] none tag).1.transaction =
        (q.reply statusCode reason tag none).1.transaction := by
  have haccepts : q.accepts statusCode = s.transaction.accepts statusCode := by
    unfold accepts
    rw [htransaction, Option.all_some]
  unfold ServedRequest.reply reply replyTag
  rw [haccepts, htransaction, h, htag]
  split_ifs with haccept hstatus
  · exact ⟨rfl, rfl⟩
  · exact ⟨rfl, rfl⟩
  · exact ⟨htag, htransaction.symm⟩

/-! ## One tag -/

abbrev ReplyTrace := List (StepRec RepliedRequest Event SentReply)

/-- The replies above 100 of a run. -/
def finalReplies (tr : ReplyTrace) : List SentReply := (outputs tr).filter fun s => 100 < s.statusCode

/-- The tag that a reply should have: the one of the request, the one of the response that a 199 is made
for, or the one that is made once. -/
def TagOf (hdrTo : ToValue) (made : String) (s : SentReply) (t : String) : Prop :=
  match hdrTo.toTag, s.downstream with
  | some toTag, _ => t = toTag
  | none, none => t = made
  | none, some r => ∀ t' ∈ r.toTag, t = t'

/-- All replies above 100 have one tag, and it is the right one. -/
def WellTagged (hdrTo : ToValue) (tr : ReplyTrace) : Prop :=
  ∃ made, ∀ s ∈ finalReplies tr, ∃ t, hdrTo.Tagged t s.toValue ∧ TagOf hdrTo made s t

/-- What has been sent: a tag is appended to the received To value, the one that is kept unless the reply is
a 199. -/
structure Appended (hdrTo : ToValue) (tr : ReplyTrace) (q : RepliedRequest) : Prop where
  hdrTo_eq : q.hdrTo = hdrTo
  sent : ∀ s ∈ finalReplies tr, ∃ t, s.toValue = hdrTo.withTag (some t) ∧
    (s.downstream = none → q.internalToTag = some t) ∧
      ∀ r, s.downstream = some r → ∀ t' ∈ r.toTag, t = t'

/-- `reply` is refused, or it sends one reply with the tag. -/
theorem reply_cases (q : RepliedRequest) (statusCode : Nat) (reason tag : String)
    (downstream : Option Response) :
    q.reply statusCode reason tag downstream = (q, []) ∨
      ∃ t, q.reply statusCode reason tag downstream =
        ({ q with internalToTag := q.replyTag statusCode tag, transaction := t },
          [{ statusCode, toValue := q.hdrTo.withTag (q.replyTag statusCode tag), downstream }]) := by
  unfold reply
  split
  · exact .inr ⟨_, rfl⟩
  · exact .inl rfl

theorem replyTag_of_lt {statusCode : Nat} (h : 100 < statusCode) (tag : String) :
    q.replyTag statusCode tag = some ((q.internalToTag.or q.hdrTo.toTag).getD tag) := if_pos h

/-- The tag that is kept does not change. -/
theorem replyTag_of_some {t : String} (h : q.internalToTag = some t) (statusCode : Nat) (tag : String) :
    q.replyTag statusCode tag = some t := by
  unfold replyTag
  rw [h]
  split <;> rfl

variable {q} {hdrTo : ToValue} {tr : ReplyTrace}

theorem Appended.snoc (h : Appended hdrTo tr q) {e : Event} {q' : RepliedRequest} {o : List SentReply}
    (hhdrTo : q'.hdrTo = q.hdrTo) (hkeeps : ∀ t, q.internalToTag = some t → q'.internalToTag = some t)
    (hnew : ∀ s ∈ o, 100 < s.statusCode → ∃ t, s.toValue = hdrTo.withTag (some t) ∧
      (s.downstream = none → q'.internalToTag = some t) ∧
        ∀ r, s.downstream = some r → ∀ t' ∈ r.toTag, t = t') :
    Appended hdrTo (tr ++ [⟨q, e, o, q'⟩]) q' := by
  constructor
  · exact hhdrTo.trans h.hdrTo_eq
  · intro s hs
    unfold finalReplies at hs
    rw [outputs_snoc, List.filter_append, List.mem_append] at hs
    rcases hs with hs | hs
    · obtain ⟨t, hto, hmade, hdown⟩ := h.sent s hs
      exact ⟨t, hto, fun hnone => hkeeps t (hmade hnone), hdown⟩
    · obtain ⟨hmem, hstatus⟩ := List.mem_filter.mp hs
      exact hnew s hmem (of_decide_eq_true hstatus)

theorem Appended.step (h : Appended hdrTo tr q) {e : Event} {q' : RepliedRequest} {o : List SentReply}
    (hstep : q.step e = some (q', o)) : Appended hdrTo (tr ++ [⟨q, e, o, q'⟩]) q' := by
  cases e with
  | reply statusCode reason tag =>
    have hreply : q.reply statusCode reason tag none = (q', o) := Option.some.inj hstep
    rcases reply_cases q statusCode reason tag none with hrefused | ⟨t, hsent⟩
    · rw [hrefused] at hreply
      obtain ⟨rfl, rfl⟩ := Prod.mk.inj hreply
      exact h.snoc rfl (fun _ => id) nofun
    · rw [hsent] at hreply
      obtain ⟨rfl, rfl⟩ := Prod.mk.inj hreply
      refine h.snoc ?_ ?_ ?_
      · rfl
      · exact fun t ht => q.replyTag_of_some ht statusCode tag
      · intro s hs hstatus
        obtain rfl := List.mem_singleton.mp hs
        have htag := q.replyTag_of_lt hstatus tag
        refine ⟨_, ?_, fun _ => htag, nofun⟩
        rw [← htag, h.hdrTo_eq]
  | reply199 r tag =>
    have hreply : q.reply199 r tag = (q', o) := Option.some.inj hstep
    unfold reply199 at hreply
    rcases reply_cases { q with internalToTag := r.toTag } 199 "Early Dialog Terminated" tag (some r) with
      hrefused | ⟨t, hsent⟩
    · rw [hrefused] at hreply
      obtain ⟨rfl, rfl⟩ := Prod.mk.inj hreply
      exact h.snoc rfl (fun _ => id) nofun
    · rw [hsent] at hreply
      obtain ⟨rfl, rfl⟩ := Prod.mk.inj hreply
      refine h.snoc ?_ ?_ ?_
      · rfl
      · exact fun _ => id
      · intro s hs hstatus
        obtain rfl := List.mem_singleton.mp hs
        refine ⟨(r.toTag.or q.hdrTo.toTag).getD tag, ?_, nofun, ?_⟩
        · rw [← h.hdrTo_eq]
          rfl
        · intro r' hr t' ht'
          obtain rfl := Option.some.inj hr
          rw [ht']
          rfl
  | transaction t =>
    obtain ⟨rfl, rfl⟩ := Prod.mk.inj (Option.some.inj hstep)
    exact h.snoc rfl (fun _ => id) nofun

theorem appended_of_run (h : Run step (received hdrTo) tr q) : Appended hdrTo tr q := by
  have hstep : ∀ (tr : ReplyTrace) (q : RepliedRequest) (e : Event) (q' : RepliedRequest) (o : List SentReply),
      Appended hdrTo tr q → True → q.step e = some (q', o) → Appended hdrTo (tr ++ [⟨q, e, o, q'⟩]) q' :=
    fun _ _ _ _ _ happended _ hs => happended.step hs
  exact h.invariant (G := fun _ _ => True) ⟨rfl, nofun⟩ hstep fun _ _ => trivial

/-- Every reply of a run is well tagged when the received To value has no tag. Otherwise none is. -/
theorem wellTagged_iff (h : Run step (received hdrTo) tr q) :
    WellTagged hdrTo tr ↔ hdrTo.tags = [] ∨ finalReplies tr = [] := by
  have happended := appended_of_run h
  constructor
  · rintro ⟨made, hall⟩
    cases hreplies : finalReplies tr with
    | nil => exact .inr rfl
    | cons s replies =>
      have hs : s ∈ finalReplies tr := by
        rw [hreplies]
        exact List.mem_cons_self
      obtain ⟨t, htagged, _⟩ := hall s hs
      obtain ⟨t', hto, _⟩ := happended.sent s hs
      rw [hto] at htagged
      exact .inl ((hdrTo.tagged_withTag_iff t' t).mp htagged).1
  · rintro (hnil | hnone)
    · refine ⟨q.internalToTag.getD "", ?_⟩
      intro s hs
      obtain ⟨t, hto, hmade, hdown⟩ := happended.sent s hs
      refine ⟨t, ?_, ?_⟩
      · rw [hto]
        exact (hdrTo.tagged_withTag_iff t t).mpr ⟨hnil, rfl⟩
      · unfold TagOf
        rw [ToValue.toTag_of_tags_nil hnil]
        cases hs' : s.downstream with
        | none =>
          rw [hmade hs']
          rfl
        | some r => exact hdown r hs'
    · refine ⟨"", ?_⟩
      rw [hnone]
      exact nofun

/-- A To value within a dialog. -/
def taggedTo : ToValue :=
  { address := "<sip:bob@example.net>", params := [ToValue.tagParam "76341"] }

/-- A To value outside of a dialog. -/
def untaggedTo : ToValue := { address := "<sip:bob@example.net>", params := [] }

/-- A request that is answered with a 481. -/
def repliedTo (hdrTo : ToValue) : StepRec RepliedRequest Event SentReply where
  pre := received hdrTo
  ev := .reply 481 "Call/Transaction Does Not Exist" "1d2e"
  out := ((received hdrTo).reply 481 "Call/Transaction Does Not Exist" "1d2e" none).2
  post := ((received hdrTo).reply 481 "Call/Transaction Does Not Exist" "1d2e" none).1

theorem wellTagged_untagged :
    ∃ q, Run step (received untaggedTo) [repliedTo untaggedTo] q ∧ WellTagged untaggedTo [repliedTo untaggedTo] := by
  have hrun : Run step (received untaggedTo) [repliedTo untaggedTo] (repliedTo untaggedTo).post :=
    Run.of_singleton rfl
  exact ⟨_, hrun, (wellTagged_iff hrun).mpr (.inl rfl)⟩

/-- The 481 to a request within a dialog has the tag twice. -/
theorem wellTagged_broken_by_tag :
    ∃ q, Run step (received taggedTo) [repliedTo taggedTo] q ∧ ¬WellTagged taggedTo [repliedTo taggedTo] := by
  have hrun : Run step (received taggedTo) [repliedTo taggedTo] (repliedTo taggedTo).post :=
    Run.of_singleton rfl
  refine ⟨_, hrun, ?_⟩
  rintro ⟨made, hall⟩
  obtain ⟨t, htagged, _⟩ := hall _ List.mem_cons_self
  have hnil := ((taggedTo.tagged_withTag_iff _ t).mp htagged).1
  exact absurd hnil (by decide +kernel)

end RepliedRequest

end OverSip
