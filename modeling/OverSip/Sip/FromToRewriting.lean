import OverSip.Sip.EditedRequest

/-!
# From and To that are changed on the way

`Request#to_s` notes in `@from_was_modified` and `@to_was_modified` that it wrote a modified address.
`Response#to_s` (`response.rb`) then gives the response the From and the To that were received in the request,
with the tag of the response behind the To. On its way to `to_s` the response loses its top Via
(`proxy.rb`) and gets a Content-Length (`reply_full`, `request.rb`).
-/

namespace OverSip

/-! ## The two addresses -/

/-- The addresses that are put back in a response. -/
inductive EndAddress
  | fromAddr | toAddr
deriving DecidableEq, Repr

def EndAddress.header : EndAddress → String
  | .fromAddr => "From"
  | .toAddr => "To"

namespace EditedRequest

variable (escapeUri : String → String) (q : EditedRequest)

def addr : EndAddress → NameAddr
  | .fromAddr => q.fromAddr
  | .toAddr => q.toAddr

/-- `@from_was_modified` and `@to_was_modified`. -/
def wasModified : EndAddress → Bool
  | .fromAddr => q.fromWasModified
  | .toAddr => q.toWasModified

/-- The edit changes the address, or its header. -/
def Edit.modifies (a : EndAddress) : Edit → Bool
  | .fromAddr e => a = .fromAddr && e.sets
  | .toAddr e => a = .toAddr && e.sets
  | .setFrom _ => a = .fromAddr
  | .setTo _ => a = .toAddr
  | .setHeader name _ | .deleteHeader name | .deleteHeaderTop name | .insertHeader name _
  | .appendHeader name _ | .replaceHeaderTop name _ => name = a.header
  | .setRuri _ | .ruri _ | .contact _ | .shiftRoute _ => false

/-- What happens to a request until its response is there: edits, and `to_s` for each target. -/
inductive Action
  | edit (e : Edit)
  | write

def act : Action → Option EditedRequest
  | .edit e => q.edit escapeUri e
  | .write => (q.toS escapeUri).map Prod.snd

def acts (actions : List Action) : Option EditedRequest := actions.foldlM (fun q a => q.act escapeUri a) q

/-- The application changed the address. -/
def Modified (a : EndAddress) (actions : List Action) : Prop := ∃ e, .edit e ∈ actions ∧ e.modifies a = true

/-- The address has not been changed, nor noted as changed. -/
structure Fresh (a : EndAddress) (q : EditedRequest) : Prop where
  isModified : (q.addr a).isModified = false
  wasModified : q.wasModified a = false

end EditedRequest

/-! ## Responses -/

/-- A value of a header: the To of a response is looked at part by part, the others as they are written. -/
inductive HeaderValue
  | text (s : String)
  | to (v : ToValue)
deriving DecidableEq, Repr

/-- A response received from downstream. -/
structure DownstreamResponse where
  statusCode : ℕ
  reasonPhrase : String
  headers : OrderedMap String (List HeaderValue)
  toTag : Option String
  body : Option String

/-- A response as it is written. -/
structure WireResponse where
  statusCode : ℕ
  reasonPhrase : String
  lines : List (String × HeaderValue)
  body : Option String

def WireResponse.values (w : WireResponse) (name : String) : List HeaderValue :=
  OrderedMap.valuesOf w.lines name

namespace DownstreamResponse

variable (r : DownstreamResponse) (q : EditedRequest)

def headerAll (name : String) : List HeaderValue := (r.headers.find? name).getD []

/-- `delete_header_top`, as the proxy calls it for Via. -/
def deleteHeaderTop (name : String) : DownstreamResponse :=
  match r.headers.find? name with
  | some values =>
    if 1 < values.length then { r with headers := r.headers.set name values.tail }
    else { r with headers := r.headers.erase name }
  | none => r

/-- `reply_full` gives the response a Content-Length. -/
def withContentLength : DownstreamResponse :=
  { r with
    headers := r.headers.set "Content-Length" [.text (toString ((r.body.map String.utf8ByteSize).getD 0))] }

/-- `to_s`, for the request that the response belongs to. -/
def toS : WireResponse :=
  let headers := if q.fromWasModified then r.headers.set "From" [.text q.hdrFrom] else r.headers
  let headers := if q.toWasModified then headers.set "To" [.to (q.hdrTo.withTag r.toTag)] else headers
  { statusCode := r.statusCode, reasonPhrase := r.reasonPhrase, lines := headers.lines id, body := r.body }

/-- What the proxy does with a response until it is written. -/
def forwarded : WireResponse := (r.deleteHeaderTop "Via").withContentLength.toS q

end DownstreamResponse

/-! ## What becomes of the request -/

namespace EditedRequest

/-- What an edit of a header leaves as it is. -/
structure SameAddresses (q q' : EditedRequest) : Prop where
  addr : ∀ a, q'.addr a = q.addr a
  wasModified : ∀ a, q'.wasModified a = q.wasModified a
  hdrFrom : q'.hdrFrom = q.hdrFrom
  hdrTo : q'.hdrTo = q.hdrTo

variable (q : EditedRequest)

theorem sameAddresses_of_headers (headers : OrderedMap String HeaderArray) (hdrRoute : Option (List String)) :
    SameAddresses q { q with headers, hdrRoute } := by
  constructor
  case addr =>
    intro a
    cases a <;> rfl
  case wasModified =>
    intro a
    cases a <;> rfl
  all_goals rfl

theorem sameAddresses_setHeader (name : String) (values : List String) :
    SameAddresses q (q.setHeader name values) := q.sameAddresses_of_headers _ _

theorem sameAddresses_mutate (name : String) (a : HeaderArray) (values : List String) :
    SameAddresses q (q.mutate name a values) := q.sameAddresses_of_headers _ _

theorem sameAddresses_deleteHeader (name : String) : SameAddresses q (q.deleteHeader name) :=
  q.sameAddresses_of_headers _ _

theorem sameAddresses_deleteHeaderTop (name : String) : SameAddresses q (q.deleteHeaderTop name) := by
  unfold deleteHeaderTop
  split
  · split
    · exact q.sameAddresses_mutate _ _ _
    · exact q.sameAddresses_deleteHeader _
  · exact q.sameAddresses_of_headers _ _

theorem sameAddresses_insertHeader (name value : String) : SameAddresses q (q.insertHeader name value) := by
  unfold insertHeader
  split
  · exact q.sameAddresses_mutate _ _ _
  · exact q.sameAddresses_of_headers _ _

theorem sameAddresses_appendHeader (name value : String) : SameAddresses q (q.appendHeader name value) := by
  unfold appendHeader
  split
  · exact q.sameAddresses_mutate _ _ _
  · exact q.sameAddresses_setHeader _ _

theorem sameAddresses_replaceHeaderTop (name value : String) :
    SameAddresses q (q.replaceHeaderTop name value) := by
  unfold replaceHeaderTop
  split
  · exact q.sameAddresses_mutate _ _ _
  · exact q.sameAddresses_setHeader _ _

/-- An edit sets the address `a`, or reads it, or leaves it. What was received stays. -/
structure EditCases (escapeUri : String → String) (q : EditedRequest) (e : Edit) (q' : EditedRequest) : Prop where
  addr : ∀ a, e.modifies a = true ∨ q'.addr a = q.addr a ∨
    ∃ r : NameAddr.Edit, r.sets = false ∧ (q.addr a).edit escapeUri r = some (q'.addr a)
  wasModified : ∀ a, q'.wasModified a = q.wasModified a
  hdrFrom : q'.hdrFrom = q.hdrFrom
  hdrTo : q'.hdrTo = q.hdrTo

variable {escapeUri : String → String} {q}

theorem SameAddresses.editCases {q' : EditedRequest} (h : SameAddresses q q') (e : Edit) :
    EditCases escapeUri q e q' :=
  ⟨fun a => .inr (.inl (h.addr a)), h.wasModified, h.hdrFrom, h.hdrTo⟩

theorem edit_cases {q' : EditedRequest} {e : Edit} (h : q.edit escapeUri e = some q') :
    EditCases escapeUri q e q' := by
  have hwas : ∀ (n n' : NameAddr) (a : EndAddress),
      ({ q with fromAddr := n, toAddr := n' } : EditedRequest).wasModified a = q.wasModified a := by
    intro n n' a
    cases a <;> rfl
  cases e with
  | fromAddr e =>
    obtain ⟨n, hn, rfl⟩ := Option.map_eq_some_iff.mp h
    refine ⟨?_, hwas n q.toAddr, rfl, rfl⟩
    rintro (_ | _)
    · cases hsets : e.sets with
      | true => exact .inl (by simp [Edit.modifies, hsets])
      | false => exact .inr (.inr ⟨e, hsets, hn⟩)
    · exact .inr (.inl rfl)
  | toAddr e =>
    obtain ⟨n, hn, rfl⟩ := Option.map_eq_some_iff.mp h
    refine ⟨?_, hwas q.fromAddr n, rfl, rfl⟩
    rintro (_ | _)
    · exact .inr (.inl rfl)
    · cases hsets : e.sets with
      | true => exact .inl (by simp [Edit.modifies, hsets])
      | false => exact .inr (.inr ⟨e, hsets, hn⟩)
  | setFrom n =>
    obtain rfl := Option.some.inj h
    refine ⟨?_, hwas n q.toAddr, rfl, rfl⟩
    rintro (_ | _)
    · exact .inl rfl
    · exact .inr (.inl rfl)
  | setTo n =>
    obtain rfl := Option.some.inj h
    refine ⟨?_, hwas q.fromAddr n, rfl, rfl⟩
    rintro (_ | _)
    · exact .inr (.inl rfl)
    · exact .inl rfl
  | setRuri r =>
    obtain rfl := Option.some.inj h
    exact ⟨fun a => .inr (.inl (by cases a <;> rfl)), hwas q.fromAddr q.toAddr, rfl, rfl⟩
  | ruri e =>
    obtain ⟨r, _, rfl⟩ := Option.map_eq_some_iff.mp h
    exact ⟨fun a => .inr (.inl (by cases a <;> rfl)), hwas q.fromAddr q.toAddr, rfl, rfl⟩
  | contact e =>
    obtain ⟨n, _, rfl⟩ := Option.map_eq_some_iff.mp h
    exact ⟨fun a => .inr (.inl (by cases a <;> rfl)), hwas q.fromAddr q.toAddr, rfl, rfl⟩
  | setHeader name values =>
    obtain rfl := Option.some.inj h
    exact (q.sameAddresses_setHeader name values).editCases _
  | deleteHeader name =>
    obtain rfl := Option.some.inj h
    exact (q.sameAddresses_deleteHeader name).editCases _
  | deleteHeaderTop name =>
    obtain rfl := Option.some.inj h
    exact (q.sameAddresses_deleteHeaderTop name).editCases _
  | insertHeader name value =>
    obtain rfl := Option.some.inj h
    exact (q.sameAddresses_insertHeader name value).editCases _
  | appendHeader name value =>
    obtain rfl := Option.some.inj h
    exact (q.sameAddresses_appendHeader name value).editCases _
  | replaceHeaderTop name value =>
    obtain rfl := Option.some.inj h
    exact (q.sameAddresses_replaceHeaderTop name value).editCases _
  | shiftRoute n =>
    obtain ⟨a, _, rfl⟩ := Option.map_eq_some_iff.mp h
    exact (q.sameAddresses_mutate _ _ _).editCases _

theorem Fresh.edit {q' : EditedRequest} {a : EndAddress} {e : Edit} (h : q.Fresh a)
    (he : e.modifies a = false) (hq : q.edit escapeUri e = some q') : q'.Fresh a := by
  have hcases := edit_cases hq
  constructor
  · rcases hcases.addr a with hmodifies | hsame | ⟨r, hr, hread⟩
    · rw [he] at hmodifies
      cases hmodifies
    · rw [hsame]
      exact h.isModified
    · exact (q.addr a).isModified_of_read escapeUri h.isModified hr hread
  · rw [hcases.wasModified]
    exact h.wasModified

/-- `to_s` notes an address only when it is modified. -/
theorem Fresh.write {w : WireRequest} {q' : EditedRequest} {a : EndAddress} (h : q.Fresh a)
    (hw : q.Written escapeUri w q') : q'.Fresh a := by
  obtain ⟨hmodified, hwas⟩ := h
  cases a with
  | fromAddr =>
    constructor
    · show q'.fromAddr.isModified = false
      rw [hw.fromAddr hmodified]
      exact hmodified
    · show q'.fromWasModified = false
      rw [hw.fromWasModified]
      exact Bool.or_eq_false_iff.mpr ⟨hwas, hmodified⟩
  | toAddr =>
    constructor
    · show q'.toAddr.isModified = false
      rw [hw.toAddr hmodified]
      exact hmodified
    · show q'.toWasModified = false
      rw [hw.toWasModified]
      exact Bool.or_eq_false_iff.mpr ⟨hwas, hmodified⟩

/-- What was received is there after every action. -/
theorem act_received {q' : EditedRequest} {action : Action} (h : q.act escapeUri action = some q') :
    q'.hdrFrom = q.hdrFrom ∧ q'.hdrTo = q.hdrTo := by
  cases action with
  | edit e =>
    have hcases := edit_cases h
    exact ⟨hcases.hdrFrom, hcases.hdrTo⟩
  | write =>
    obtain ⟨⟨w, p⟩, hp, rfl⟩ := Option.map_eq_some_iff.mp h
    have hw := written_of_toS escapeUri q hp
    exact ⟨hw.hdrFrom, hw.hdrTo⟩

theorem Fresh.act {q' : EditedRequest} {a : EndAddress} {action : Action} (h : q.Fresh a)
    (haction : ∀ e, action = .edit e → e.modifies a = false) (hq : q.act escapeUri action = some q') :
    q'.Fresh a := by
  cases action with
  | edit e => exact h.edit (haction e rfl) hq
  | write =>
    obtain ⟨⟨w, p⟩, hp, rfl⟩ := Option.map_eq_some_iff.mp hq
    exact h.write (written_of_toS escapeUri q hp)

theorem acts_received {q' : EditedRequest} {actions : List Action} (h : q.acts escapeUri actions = some q') :
    q'.hdrFrom = q.hdrFrom ∧ q'.hdrTo = q.hdrTo := by
  unfold acts at h
  induction actions generalizing q with
  | nil =>
    obtain rfl := Option.some.inj h
    exact ⟨rfl, rfl⟩
  | cons action actions ih =>
    rw [List.foldlM_cons] at h
    obtain ⟨q₁, hq₁, hrest⟩ := Option.bind_eq_some_iff.mp h
    obtain ⟨hfrom, hto⟩ := act_received hq₁
    obtain ⟨hfrom', hto'⟩ := ih hrest
    exact ⟨hfrom'.trans hfrom, hto'.trans hto⟩

/-- An address that nobody changes is never noted. -/
theorem Fresh.acts {q' : EditedRequest} {a : EndAddress} {actions : List Action} (h : q.Fresh a)
    (hactions : ¬Modified a actions) (hq : q.acts escapeUri actions = some q') : q'.Fresh a := by
  unfold EditedRequest.acts at hq
  induction actions generalizing q with
  | nil =>
    obtain rfl := Option.some.inj hq
    exact h
  | cons action actions ih =>
    rw [List.foldlM_cons] at hq
    obtain ⟨q₁, hq₁, hrest⟩ := Option.bind_eq_some_iff.mp hq
    have hfirst : ∀ e, action = .edit e → e.modifies a = false := by
      rintro e rfl
      exact Bool.eq_false_iff.mpr fun he => hactions ⟨e, List.mem_cons_self, he⟩
    have hothers : ¬Modified a actions := fun ⟨e, he, hm⟩ => hactions ⟨e, List.mem_cons_of_mem _ he, hm⟩
    exact ih (h.act hfirst hq₁) hothers hrest

end EditedRequest

/-! ## What is written of a response -/

namespace DownstreamResponse

variable (r : DownstreamResponse) (q : EditedRequest)

theorem headerAll_deleteHeaderTop_self (name : String) :
    (r.deleteHeaderTop name).headerAll name = (r.headerAll name).tail := by
  unfold deleteHeaderTop
  split
  · next values hvalues =>
    have hall : r.headerAll name = values := by
      unfold headerAll
      rw [hvalues]
      rfl
    rw [hall]
    split
    · unfold headerAll
      rw [OrderedMap.find?_set_self]
      rfl
    · next hlength =>
      unfold headerAll
      rw [OrderedMap.find?_erase_self]
      apply Eq.symm
      apply List.eq_nil_of_length_eq_zero
      rw [List.length_tail]
      omega
  · next hnone =>
    unfold headerAll
    rw [hnone]
    rfl

theorem headerAll_deleteHeaderTop_of_ne {name other : String} (h : other ≠ name) :
    (r.deleteHeaderTop name).headerAll other = r.headerAll other := by
  unfold deleteHeaderTop
  split
  · split
    · unfold headerAll
      rw [OrderedMap.find?_set_of_ne _ _ h]
    · unfold headerAll
      rw [OrderedMap.find?_erase_of_ne _ h]
  · rfl

theorem headerAll_withContentLength_of_ne {other : String} (h : other ≠ "Content-Length") :
    r.withContentLength.headerAll other = r.headerAll other := by
  unfold headerAll withContentLength
  rw [OrderedMap.find?_set_of_ne _ _ h]

/-- A header that is set when `noted` holds. -/
theorem getD_find?_noted (headers : OrderedMap String (List HeaderValue)) (noted : Bool) (header name : String)
    (value : HeaderValue) :
    ((if noted then headers.set header [value] else headers).find? name).getD [] =
      if name = header ∧ noted then [value] else (headers.find? name).getD [] := by
  cases noted with
  | true =>
    by_cases hname : name = header
    · subst hname
      rw [if_pos rfl, if_pos ⟨rfl, rfl⟩, OrderedMap.find?_set_self]
      rfl
    · rw [if_pos rfl, if_neg fun h => hname h.1, OrderedMap.find?_set_of_ne _ _ hname]
  | false => rw [if_neg Bool.false_ne_true, if_neg fun h => Bool.false_ne_true h.2]

theorem values_toS (name : String) :
    (r.toS q).values name =
      if name = "To" ∧ q.toWasModified then [.to (q.hdrTo.withTag r.toTag)]
      else if name = "From" ∧ q.fromWasModified then [.text q.hdrFrom] else r.headerAll name := by
  unfold toS WireResponse.values
  rw [OrderedMap.valuesOf_lines, Option.map_id, id, getD_find?_noted, getD_find?_noted]
  rfl

/-- What the proxy forwards has of a header other than the four that are written anew. -/
theorem values_forwarded {name : String} (hvia : name ≠ "Via") (hlength : name ≠ "Content-Length") :
    (r.forwarded q).values name =
      if name = "To" ∧ q.toWasModified then [.to (q.hdrTo.withTag r.toTag)]
      else if name = "From" ∧ q.fromWasModified then [.text q.hdrFrom] else r.headerAll name := by
  have htag : (r.deleteHeaderTop "Via").toTag = r.toTag := by
    unfold deleteHeaderTop
    split
    · split <;> rfl
    · rfl
  unfold forwarded
  rw [values_toS, headerAll_withContentLength_of_ne _ hlength, headerAll_deleteHeaderTop_of_ne _ hvia]
  show (if name = "To" ∧ q.toWasModified then [HeaderValue.to (q.hdrTo.withTag (r.deleteHeaderTop "Via").toTag)] else _) = _
  rw [htag]

theorem values_forwarded_from :
    (r.forwarded q).values "From" = if q.fromWasModified then [.text q.hdrFrom] else r.headerAll "From" := by
  rw [r.values_forwarded q (by decide) (by decide), if_neg fun h => absurd h.1 (by decide)]
  simp only [true_and]

theorem values_forwarded_to :
    (r.forwarded q).values "To" =
      if q.toWasModified then [.to (q.hdrTo.withTag r.toTag)] else r.headerAll "To" := by
  rw [r.values_forwarded q (by decide) (by decide)]
  by_cases hnoted : q.toWasModified = true
  · rw [if_pos ⟨rfl, hnoted⟩, if_pos hnoted]
  · rw [if_neg fun h => hnoted h.2, if_neg fun h => absurd h.1 (by decide), if_neg hnoted]

theorem values_forwarded_via : (r.forwarded q).values "Via" = (r.headerAll "Via").tail := by
  unfold forwarded
  rw [values_toS, if_neg fun h => absurd h.1 (by decide), if_neg fun h => absurd h.1 (by decide),
    headerAll_withContentLength_of_ne _ (by decide), headerAll_deleteHeaderTop_self]

end DownstreamResponse

/-! ## What upstream sees -/

namespace EditedRequest

/-- The To value that was received, with the tag of the response exactly once when it has one. -/
def RestoredTo (hdrTo : ToValue) (tag : Option String) (values : List HeaderValue) : Prop :=
  match tag with
  | some t => ∃ v, hdrTo.Tagged t v ∧ values = [.to v]
  | none => values = [.to hdrTo]

/-- The response that is forwarded shows nothing of what the application did to From and To. -/
structure Invisible (q : EditedRequest) (actions : List Action) (r : DownstreamResponse) (w : WireResponse) :
    Prop where
  restoredFrom : Modified .fromAddr actions → w.values "From" = [.text q.hdrFrom]
  restoredTo : Modified .toAddr actions → RestoredTo q.hdrTo r.toTag (w.values "To")
  keptFrom : ¬Modified .fromAddr actions → w.values "From" = r.headerAll "From"
  keptTo : ¬Modified .toAddr actions → w.values "To" = r.headerAll "To"
  via : w.values "Via" = (r.headerAll "Via").tail
  others : ∀ name, name ∉ ["From", "To", "Via", "Content-Length"] → w.values name = r.headerAll name

/-- What must hold of the request when the response comes. An address that was changed has been noted, or the
response has the received value anyway; and a To that was noted was received without a tag. -/
structure Restorable (q : EditedRequest) (actions : List Action) (r : DownstreamResponse) : Prop where
  notedFrom : Modified .fromAddr actions → q.fromWasModified = true ∨ r.headerAll "From" = [.text q.hdrFrom]
  notedTo : Modified .toAddr actions →
    q.toWasModified = true ∨ RestoredTo q.hdrTo r.toTag (r.headerAll "To")
  untagged : Modified .toAddr actions → q.toWasModified = true → r.toTag = none ∨ q.hdrTo.tags = []

/-- The To that is put back has the tag once when there was none. -/
theorem restoredTo_withTag_iff (hdrTo : ToValue) (tag : Option String) :
    RestoredTo hdrTo tag [.to (hdrTo.withTag tag)] ↔ tag = none ∨ hdrTo.tags = [] := by
  cases tag with
  | none =>
    refine iff_of_true ?_ (.inl rfl)
    show [HeaderValue.to (hdrTo.withTag none)] = [.to hdrTo]
    unfold ToValue.withTag
    rw [Option.toList_none, List.map_nil, List.append_nil]
  | some t =>
    constructor
    · rintro ⟨v, hv, heq⟩
      obtain rfl := HeaderValue.to.inj (List.singleton_inj.mp heq)
      exact .inr ((hdrTo.tagged_withTag_iff t t).mp hv).1
    · rintro (hnone | hnil)
      · cases hnone
      · exact ⟨_, (hdrTo.tagged_withTag_iff t t).mpr ⟨hnil, rfl⟩, rfl⟩

variable {escapeUri : String → String} {q q' : EditedRequest} {actions : List Action}

/-- Nothing is seen upstream exactly when every change was noted and the To that is put back has no tag. -/
theorem invisible_iff (hfresh : ∀ a, q.Fresh a) (hq : q.acts escapeUri actions = some q')
    (r : DownstreamResponse) :
    q.Invisible actions r (r.forwarded q') ↔ q'.Restorable actions r := by
  obtain ⟨hhdrFrom, hhdrTo⟩ := acts_received hq
  have hfrom := r.values_forwarded_from q'
  have hto := r.values_forwarded_to q'
  constructor
  · intro h
    constructor
    · intro hmodified
      have hrestored := h.restoredFrom hmodified
      rw [hfrom, ← hhdrFrom] at hrestored
      by_cases hnoted : q'.fromWasModified = true
      · exact .inl hnoted
      · rw [if_neg hnoted] at hrestored
        exact .inr hrestored
    · intro hmodified
      have hrestored := h.restoredTo hmodified
      rw [hto, ← hhdrTo] at hrestored
      by_cases hnoted : q'.toWasModified = true
      · exact .inl hnoted
      · rw [if_neg hnoted] at hrestored
        exact .inr hrestored
    · intro hmodified hnoted
      have hrestored := h.restoredTo hmodified
      rw [hto, ← hhdrTo, if_pos hnoted] at hrestored
      exact (restoredTo_withTag_iff q'.hdrTo r.toTag).mp hrestored
  · intro h
    constructor
    · intro hmodified
      rw [hfrom, ← hhdrFrom]
      by_cases hnoted : q'.fromWasModified = true
      · rw [if_pos hnoted]
      · rw [if_neg hnoted]
        exact (h.notedFrom hmodified).resolve_left hnoted
    · intro hmodified
      rw [hto, ← hhdrTo]
      by_cases hnoted : q'.toWasModified = true
      · rw [if_pos hnoted]
        exact (restoredTo_withTag_iff q'.hdrTo r.toTag).mpr (h.untagged hmodified hnoted)
      · rw [if_neg hnoted]
        exact (h.notedTo hmodified).resolve_left hnoted
    · intro hkept
      have hnoted : q'.fromWasModified = false := ((hfresh .fromAddr).acts hkept hq).wasModified
      rw [hfrom, hnoted]
      rfl
    · intro hkept
      have hnoted : q'.toWasModified = false := ((hfresh .toAddr).acts hkept hq).wasModified
      rw [hto, hnoted]
      rfl
    · exact r.values_forwarded_via q'
    · intro name hname
      have hne : name ≠ "From" ∧ name ≠ "To" ∧ name ≠ "Via" ∧ name ≠ "Content-Length" := by
        simpa using hname
      rw [r.values_forwarded q' hne.2.2.1 hne.2.2.2, if_neg fun h => hne.2.1 h.1, if_neg fun h => hne.1 h.1]

/-- An address that is modified when the request is written is noted, -/
theorem noted_of_write {w : WireRequest} {a : EndAddress} (hw : q.Written escapeUri w q')
    (h : (q.addr a).isModified = true ∨ q.wasModified a = true) : q'.wasModified a = true := by
  have hnoted : q'.wasModified a = (q.wasModified a || (q.addr a).isModified) := by
    cases a with
    | fromAddr => exact hw.fromWasModified
    | toAddr => exact hw.toWasModified
  rw [hnoted]
  exact Bool.or_eq_true_iff.mpr h.symm

/-- and it stays noted. -/
theorem noted_acts {a : EndAddress} (h : q.wasModified a = true) (hq : q.acts escapeUri actions = some q') :
    q'.wasModified a = true := by
  unfold acts at hq
  induction actions generalizing q with
  | nil =>
    obtain rfl := Option.some.inj hq
    exact h
  | cons action actions ih =>
    rw [List.foldlM_cons] at hq
    obtain ⟨q₁, hq₁, hrest⟩ := Option.bind_eq_some_iff.mp hq
    apply ih _ hrest
    cases action with
    | edit e =>
      rw [(edit_cases hq₁).wasModified]
      exact h
    | write =>
      obtain ⟨⟨w, p⟩, hp, rfl⟩ := Option.map_eq_some_iff.mp hq₁
      exact noted_of_write (written_of_toS escapeUri q hp) (.inr h)

/-- The application gives Bob another display name, and the request is sent. -/
def newDisplay : List Action := [.edit (.toAddr (.displayName (some "Robert"))), .write]

/-- The 200 that Bob answers with. -/
def renamedOk (hdrTo : ToValue) : DownstreamResponse :=
  { statusCode := 200, reasonPhrase := "OK"
    headers :=
      { entries :=
          [("Via", [.text sampleVia, .text "SIP/2.0/TCP 192.0.2.7;branch=z9hG4bKa1"]),
            ("From", [.text "<sip:alice@example.com>;tag=1"]), ("To", [.to hdrTo])]
        nodup := by
          show ["Via", "From", "To"].Nodup
          decide }
    toTag := some "76341", body := none }

theorem fresh_of_parsed {u v : Uri} (hu : u.modified = false) (hv : v.modified = false)
    (hfrom : q.fromAddr = parsedAddr u) (hto : q.toAddr = parsedAddr v) (hnotedFrom : q.fromWasModified = false)
    (hnotedTo : q.toWasModified = false) (a : EndAddress) : q.Fresh a := by
  cases a with
  | fromAddr =>
    refine ⟨?_, hnotedFrom⟩
    show q.fromAddr.isModified = false
    rw [hfrom]
    exact Bool.or_eq_false_iff.mpr ⟨hu, rfl⟩
  | toAddr =>
    refine ⟨?_, hnotedTo⟩
    show q.toAddr.isModified = false
    rw [hto]
    exact Bool.or_eq_false_iff.mpr ⟨hv, rfl⟩

/-- The sample INVITE with another To. -/
def inviteTo (hdrTo : ToValue) : EditedRequest :=
  { sampleInvite with
    headers := sampleInvite.headers.set "To" { values := [hdrTo.text], parsed := true }
    hdrTo }

theorem exists_renamed (hdrTo : ToValue) :
    ∃ q', (inviteTo hdrTo).acts id newDisplay = some q' ∧ q'.toWasModified = true ∧
      q'.hdrTo = hdrTo := ⟨_, rfl, rfl, rfl⟩

theorem modified_newDisplay : Modified .toAddr newDisplay := ⟨_, List.mem_cons_self, rfl⟩

theorem invisible_renamedOk :
    ∃ q', (inviteTo RepliedRequest.untaggedTo).acts id newDisplay = some q' ∧
      (inviteTo RepliedRequest.untaggedTo).Invisible newDisplay (renamedOk RepliedRequest.taggedTo)
        ((renamedOk RepliedRequest.taggedTo).forwarded q') := by
  obtain ⟨q', hq, hnoted, hhdrTo⟩ := exists_renamed RepliedRequest.untaggedTo
  refine ⟨q', hq, ?_⟩
  have hfresh := fresh_of_parsed (q := inviteTo RepliedRequest.untaggedTo) (u := aliceUri) (v := bobUri) rfl rfl rfl rfl rfl rfl
  apply (invisible_iff hfresh hq _).mpr
  constructor
  · rintro ⟨e, he, hm⟩
    rcases List.mem_cons.mp he with heq | hrest
    · cases heq
      cases hm
    · cases List.mem_singleton.mp hrest
  · exact fun _ => .inl hnoted
  · intro _ _
    rw [hhdrTo]
    exact .inr rfl

/-- Within a dialog the response goes upstream with two tags in its To. -/
theorem renamedOk_inDialog_visible :
    ∃ q', (inviteTo RepliedRequest.taggedTo).acts id newDisplay = some q' ∧
      ¬(inviteTo RepliedRequest.taggedTo).Invisible newDisplay
        (renamedOk RepliedRequest.taggedTo) ((renamedOk RepliedRequest.taggedTo).forwarded q') := by
  obtain ⟨q', hq, hnoted, hhdrTo⟩ := exists_renamed RepliedRequest.taggedTo
  refine ⟨q', hq, ?_⟩
  intro h
  have hrestored := h.restoredTo modified_newDisplay
  rw [DownstreamResponse.values_forwarded_to, if_pos hnoted, hhdrTo] at hrestored
  rcases (restoredTo_withTag_iff _ _).mp hrestored with hnone | hnil
  · cases hnone
  · exact absurd hnil (by decide +kernel)

end EditedRequest

end OverSip
