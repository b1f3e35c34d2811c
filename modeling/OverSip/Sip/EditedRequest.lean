import OverSip.Sip.NameAddr
import OverSip.Sip.ToTags

/-!
# Requests that an application edits

Between its receipt and its routing a request is in the hands of the application: it replaces the Request-URI,
calls the setters of From, To and Contact, and edits the headers (`message.rb`). `Request#to_s` (`request.rb`)
then writes the request, taking the headers From, To and Contact from the addresses that are modified.

A header is an Array. The one that the parser made for Route is `@hdr_route` too, and a method that changes an
Array changes both; setting or deleting the header leaves `@hdr_route` with what it had. Names are those that
`headerize` gives, and an Array that is given to `set_header` is not used for anything else.
-/

namespace OverSip

/-- `@ruri` -/
inductive RequestUri
  | uri (u : Uri)
  | nameAddr (n : NameAddr)

namespace RequestUri

variable (escapeUri : String → String)

/-- `uri`, which a name address has from `Uri`. -/
def uriText : RequestUri → Option (String × RequestUri)
  | .uri u => (u.uri escapeUri).map fun p => (p.1, .uri p.2)
  | .nameAddr n => (n.uri.uri escapeUri).map fun p => (p.1, .nameAddr { n with uri := p.2 })

/-- `to_s`, which is `uri` for a `Uri`. -/
def toS : RequestUri → Option (String × RequestUri)
  | .uri u => (u.uri escapeUri).map fun p => (p.1, .uri p.2)
  | .nameAddr n => (n.toS escapeUri).map fun p => (p.1, .nameAddr p.2)

/-- What an application does with the Request-URI; only a name address has a display name. -/
def edit (e : NameAddr.Edit) : RequestUri → Option RequestUri
  | .uri u =>
    match e with
    | .displayName _ => none
    | .uri e => some (.uri (u.edit e))
    | .readUri => (u.uri escapeUri).map fun p => .uri p.2
    | .readText => (u.uri escapeUri).map fun p => .uri p.2
  | .nameAddr n => (n.edit escapeUri e).map .nameAddr

end RequestUri

/-- The Array of a header. `parsed` tells that the parser made it. -/
structure HeaderArray where
  values : List String
  parsed : Bool
deriving DecidableEq, Repr

/-- A request, and what `Request#to_s` and the messages that go with the request are made of. -/
structure EditedRequest where
  sipMethod : String
  ruri : RequestUri
  headers : OrderedMap String HeaderArray
  fromAddr : NameAddr
  fromTag : Option String
  toAddr : NameAddr
  contact : Option NameAddr
  contactParams : Option String
  hdrFrom : String
  hdrTo : ToValue
  hdrRoute : Option (List String)
  callId : String
  cseq : Int
  body : Option String
  fromWasModified : Bool
  toWasModified : Bool

/-- A request as it is written. -/
structure WireRequest where
  sipMethod : String
  ruri : String
  lines : List (String × String)
  body : Option String
deriving DecidableEq, Repr

/-- The values that a written request has for a header. -/
def WireRequest.values (w : WireRequest) (name : String) : List String := OrderedMap.valuesOf w.lines name

namespace EditedRequest

variable (escapeUri : String → String) (q : EditedRequest)

/-! ## Headers -/

/-- `header_all` -/
def headerAll (name : String) : List String := ((q.headers.find? name).map HeaderArray.values).getD []

/-- The Array of a header is changed in place. -/
def mutate (name : String) (a : HeaderArray) (values : List String) : EditedRequest :=
  { q with
    headers := q.headers.set name { a with values }
    hdrRoute := if name = "Route" ∧ a.parsed then some values else q.hdrRoute }

def setHeader (name : String) (values : List String) : EditedRequest :=
  { q with headers := q.headers.set name { values, parsed := false } }

def deleteHeader (name : String) : EditedRequest := { q with headers := q.headers.erase name }

/-- `delete_header_top`. The last value goes with the header, and not out of the Array. -/
def deleteHeaderTop (name : String) : EditedRequest :=
  match q.headers.find? name with
  | some a => if 1 < a.values.length then q.mutate name a a.values.tail else q.deleteHeader name
  | none => q

/-- `insert_header`. A new header is the first of the message. -/
def insertHeader (name value : String) : EditedRequest :=
  match q.headers.find? name with
  | some a => q.mutate name a (value :: a.values)
  | none => { q with headers := q.headers.setFirst name { values := [value], parsed := false } }

def appendHeader (name value : String) : EditedRequest :=
  match q.headers.find? name with
  | some a => q.mutate name a (a.values ++ [value])
  | none => q.setHeader name [value]

def replaceHeaderTop (name value : String) : EditedRequest :=
  match q.headers.find? name with
  | some a => q.mutate name a (value :: a.values.tail)
  | none => q.setHeader name [value]

/-- `loose_route` takes the Route values off that point to the proxy. It raises when the header has been
deleted. -/
def shiftRoute (n : ℕ) : Option EditedRequest :=
  (q.headers.find? "Route").map fun a => q.mutate "Route" a (a.values.drop n)

/-! ## Edits -/

/-- What an application does with a request before it is routed. -/
inductive Edit
  | setRuri (r : RequestUri)
  | ruri (e : NameAddr.Edit)
  | fromAddr (e : NameAddr.Edit)
  | toAddr (e : NameAddr.Edit)
  | contact (e : NameAddr.Edit)
  | setFrom (n : NameAddr)
  | setTo (n : NameAddr)
  | setHeader (name : String) (values : List String)
  | deleteHeader (name : String)
  | deleteHeaderTop (name : String)
  | insertHeader (name value : String)
  | appendHeader (name value : String)
  | replaceHeaderTop (name value : String)
  | shiftRoute (n : ℕ)

def edit : Edit → Option EditedRequest
  | .setRuri r => some { q with ruri := r }
  | .ruri e => (q.ruri.edit escapeUri e).map fun r => { q with ruri := r }
  | .fromAddr e => (q.fromAddr.edit escapeUri e).map fun n => { q with fromAddr := n }
  | .toAddr e => (q.toAddr.edit escapeUri e).map fun n => { q with toAddr := n }
  | .contact e =>
    (q.contact.bind fun n => n.edit escapeUri e).map fun n => { q with contact := some n }
  | .setFrom n => some { q with fromAddr := n }
  | .setTo n => some { q with toAddr := n }
  | .setHeader name values => some (q.setHeader name values)
  | .deleteHeader name => some (q.deleteHeader name)
  | .deleteHeaderTop name => some (q.deleteHeaderTop name)
  | .insertHeader name value => some (q.insertHeader name value)
  | .appendHeader name value => some (q.appendHeader name value)
  | .replaceHeaderTop name value => some (q.replaceHeaderTop name value)
  | .shiftRoute n => q.shiftRoute n

/-! ## Writing -/

/-- `;tag=` and the tag, if there is one. -/
def tagText : Option String → String
  | some tag => ";tag=" ++ tag
  | none => ""

/-- The header gets the value, if there is one. -/
def setValue (headers : OrderedMap String HeaderArray) (name : String) :
    Option String → OrderedMap String HeaderArray
  | some value => headers.set name { values := [value], parsed := false }
  | none => headers

/-- The Contact, which need not be there. -/
def renderContact : Option (Option String × Option NameAddr) :=
  match q.contact with
  | some n => (n.renderModified escapeUri (q.contactParams.getD "")).map fun p => (p.1, some p.2)
  | none => some (none, none)

/-- `to_s`. It raises when a URI cannot be written. -/
def toS : Option (WireRequest × EditedRequest) :=
  (q.ruri.uriText escapeUri).bind fun ruri =>
  (q.fromAddr.renderModified escapeUri (tagText q.fromTag)).bind fun fromAddr =>
  (q.toAddr.renderModified escapeUri (tagText q.hdrTo.toTag)).bind fun toAddr =>
  (q.renderContact escapeUri).bind fun contact =>
    let headers := setValue (setValue (setValue q.headers "From" fromAddr.1) "To" toAddr.1) "Contact" contact.1
    some ({ sipMethod := q.sipMethod, ruri := ruri.1, lines := headers.lines HeaderArray.values, body := q.body },
      { q with
        ruri := ruri.2, headers, fromAddr := fromAddr.2, toAddr := toAddr.2, contact := contact.2
        fromWasModified := q.fromWasModified || q.fromAddr.isModified
        toWasModified := q.toWasModified || q.toAddr.isModified })

/-- `ClientTransaction#initialize` gives the request a Content-Length. -/
def withContentLength : EditedRequest :=
  q.setHeader "Content-Length" [toString ((q.body.map String.utf8ByteSize).getD 0)]

/-- `send_request` of an `InviteClientTransaction`: the top Via and perhaps a second Record-Route are in the
request while it is written. -/
def sendRequest (topVia : String) (recordRoute : Option String) : Option (WireRequest × EditedRequest) :=
  let q := q.withContentLength.insertHeader "Via" topVia
  match recordRoute with
  | some recordRoute =>
    ((q.insertHeader "Record-Route" recordRoute).toS escapeUri).map fun p =>
      (p.1, (p.2.deleteHeaderTop "Via").deleteHeaderTop "Record-Route")
  | none => (q.toS escapeUri).map fun p => (p.1, p.2.deleteHeaderTop "Via")

/-- What a client transaction reads of the request after it is sent; `ruri` is what `to_s` of the Request-URI
gives. -/
def toRequest : Request where
  uac := false
  ruri := ((q.ruri.toS escapeUri).map Prod.fst).getD ""
  hdrRoute := q.hdrRoute
  hdrFrom := q.hdrFrom
  hdrTo := q.hdrTo.text
  toTag := q.hdrTo.toTag
  callId := q.callId
  cseq := q.cseq

/-! ## What an edit of a header leaves -/

theorem headerAll_set_self (headers : OrderedMap String HeaderArray) (name : String) (a : HeaderArray) :
    (({ q with headers := headers.set name a } : EditedRequest).headerAll name) = a.values := by
  unfold headerAll
  rw [OrderedMap.find?_set_self]
  rfl

@[simp] theorem headerAll_mutate_self (name : String) (a : HeaderArray) (values : List String) :
    (q.mutate name a values).headerAll name = values := q.headerAll_set_self _ _ _

theorem headerAll_of_find? {name : String} {a : HeaderArray} (h : q.headers.find? name = some a) :
    q.headerAll name = a.values := by
  unfold headerAll
  rw [h]
  rfl

@[simp] theorem headerAll_insertHeader_self (name value : String) :
    (q.insertHeader name value).headerAll name = value :: q.headerAll name := by
  unfold insertHeader
  split
  · next a ha => rw [headerAll_mutate_self, q.headerAll_of_find? ha]
  · next hnone =>
    unfold headerAll
    rw [OrderedMap.find?_setFirst_self, hnone]
    rfl

/-- What was parsed, and the addresses, are the same. -/
structure SameParsed (q q' : EditedRequest) : Prop where
  ruri : q'.ruri = q.ruri
  fromAddr : q'.fromAddr = q.fromAddr
  fromTag : q'.fromTag = q.fromTag
  toAddr : q'.toAddr = q.toAddr
  hdrFrom : q'.hdrFrom = q.hdrFrom
  hdrTo : q'.hdrTo = q.hdrTo
  hdrRoute : q'.hdrRoute = q.hdrRoute
  callId : q'.callId = q.callId
  cseq : q'.cseq = q.cseq

/-- Only the header `name` is another. -/
structure OnlyHeader (name : String) (q q' : EditedRequest) : Prop where
  same : SameParsed q q'
  others : ∀ other, other ≠ name → q'.headers.find? other = q.headers.find? other

variable {q}

theorem SameParsed.trans {q' q'' : EditedRequest} (h : SameParsed q q') (h' : SameParsed q' q'') :
    SameParsed q q'' where
  ruri := h'.ruri.trans h.ruri
  fromAddr := h'.fromAddr.trans h.fromAddr
  fromTag := h'.fromTag.trans h.fromTag
  toAddr := h'.toAddr.trans h.toAddr
  hdrFrom := h'.hdrFrom.trans h.hdrFrom
  hdrTo := h'.hdrTo.trans h.hdrTo
  hdrRoute := h'.hdrRoute.trans h.hdrRoute
  callId := h'.callId.trans h.callId
  cseq := h'.cseq.trans h.cseq

theorem OnlyHeader.headerAll_eq {name other : String} {q' : EditedRequest} (h : OnlyHeader name q q')
    (hne : other ≠ name) : q'.headerAll other = q.headerAll other := by
  unfold headerAll
  rw [h.others other hne]

/-- Another map of headers that differs in one. -/
theorem onlyHeader_of_headers {name : String} {headers : OrderedMap String HeaderArray}
    (h : ∀ other, other ≠ name → headers.find? other = q.headers.find? other) :
    OnlyHeader name q { q with headers } := by
  refine ⟨?_, h⟩
  constructor <;> rfl

variable (q)

theorem onlyHeader_mutate {name : String} (a : HeaderArray) (values : List String) (h : name ≠ "Route") :
    OnlyHeader name q (q.mutate name a values) := by
  refine ⟨?_, fun other hne => OrderedMap.find?_set_of_ne _ _ hne⟩
  constructor
  case hdrRoute => exact if_neg fun hn => h hn.1
  all_goals rfl

theorem onlyHeader_setHeader (name : String) (values : List String) :
    OnlyHeader name q (q.setHeader name values) :=
  onlyHeader_of_headers fun _ hne => OrderedMap.find?_set_of_ne _ _ hne

theorem onlyHeader_deleteHeader (name : String) : OnlyHeader name q (q.deleteHeader name) :=
  onlyHeader_of_headers fun _ hne => OrderedMap.find?_erase_of_ne _ hne

theorem onlyHeader_deleteHeaderTop {name : String} (h : name ≠ "Route") :
    OnlyHeader name q (q.deleteHeaderTop name) := by
  unfold deleteHeaderTop
  split
  · split
    · exact q.onlyHeader_mutate _ _ h
    · exact q.onlyHeader_deleteHeader name
  · exact onlyHeader_of_headers fun _ _ => rfl

theorem onlyHeader_insertHeader {name : String} (value : String) (h : name ≠ "Route") :
    OnlyHeader name q (q.insertHeader name value) := by
  unfold insertHeader
  split
  · exact q.onlyHeader_mutate _ _ h
  · exact onlyHeader_of_headers fun _ hne => OrderedMap.find?_setFirst_of_ne _ _ hne

theorem onlyHeader_appendHeader {name : String} (value : String) (h : name ≠ "Route") :
    OnlyHeader name q (q.appendHeader name value) := by
  unfold appendHeader
  split
  · exact q.onlyHeader_mutate _ _ h
  · exact q.onlyHeader_setHeader name _

theorem onlyHeader_replaceHeaderTop {name : String} (value : String) (h : name ≠ "Route") :
    OnlyHeader name q (q.replaceHeaderTop name value) := by
  unfold replaceHeaderTop
  split
  · exact q.onlyHeader_mutate _ _ h
  · exact q.onlyHeader_setHeader name _

/-! ## What is written -/

/-- The header that an address gives: its text when it is modified, and otherwise what it has. -/
def addressValues (n : NameAddr) (tag : Option String) (values : List String) : List String :=
  if n.isModified then ((n.toS escapeUri).map fun p => p.1 ++ tagText tag).toList else values

theorem find?_setValue_self (headers : OrderedMap String HeaderArray) (name : String) (value : Option String) :
    (((setValue headers name value).find? name).map HeaderArray.values).getD [] =
      (value.map fun v => [v]).getD (((headers.find? name).map HeaderArray.values).getD []) := by
  cases value with
  | some v =>
    show (((headers.set name _).find? name).map HeaderArray.values).getD [] = [v]
    rw [OrderedMap.find?_set_self]
    rfl
  | none => rfl

theorem find?_setValue_of_ne (headers : OrderedMap String HeaderArray) {name other : String}
    (value : Option String) (h : other ≠ name) :
    (setValue headers name value).find? other = headers.find? other := by
  cases value with
  | some v => exact OrderedMap.find?_set_of_ne _ _ h
  | none => rfl

/-- The values for an address whose new value `renderModified` has given. -/
theorem getD_renderModified {n n' : NameAddr} {tag value : Option String}
    (h : n.renderModified escapeUri (tagText tag) = some (value, n')) (values : List String) :
    (value.map fun v => [v]).getD values = addressValues escapeUri n tag values := by
  unfold NameAddr.renderModified at h
  unfold addressValues
  by_cases hmodified : n.isModified = true
  · rw [if_pos hmodified] at h ⊢
    obtain ⟨p, hp, heq⟩ := Option.map_eq_some_iff.mp h
    obtain ⟨rfl, rfl⟩ := Prod.mk.inj heq
    rw [hp]
    rfl
  · rw [if_neg hmodified] at h ⊢
    obtain ⟨rfl, rfl⟩ := Prod.mk.inj (Option.some.inj h)
    rfl

/-- What `to_s` writes, and what it leaves. -/
structure Written (w : WireRequest) (q' : EditedRequest) : Prop where
  ruri : q.ruri.uriText escapeUri = some (w.ruri, q'.ruri)
  fromValues : w.values "From" = addressValues escapeUri q.fromAddr q.fromTag (q.headerAll "From")
  toValues : w.values "To" = addressValues escapeUri q.toAddr q.hdrTo.toTag (q.headerAll "To")
  others : ∀ name, name ≠ "From" → name ≠ "To" → name ≠ "Contact" → w.values name = q.headerAll name
  fromAddr : q.fromAddr.isModified = false → q'.fromAddr = q.fromAddr
  toAddr : q.toAddr.isModified = false → q'.toAddr = q.toAddr
  hdrFrom : q'.hdrFrom = q.hdrFrom
  hdrTo : q'.hdrTo = q.hdrTo
  hdrRoute : q'.hdrRoute = q.hdrRoute
  callId : q'.callId = q.callId
  cseq : q'.cseq = q.cseq
  fromWasModified : q'.fromWasModified = (q.fromWasModified || q.fromAddr.isModified)
  toWasModified : q'.toWasModified = (q.toWasModified || q.toAddr.isModified)

theorem written_of_toS {w : WireRequest} {q' : EditedRequest} (h : q.toS escapeUri = some (w, q')) :
    q.Written escapeUri w q' := by
  obtain ⟨ruri, hruri, h⟩ := Option.bind_eq_some_iff.mp h
  obtain ⟨⟨fromValue, fromAddr⟩, hfrom, h⟩ := Option.bind_eq_some_iff.mp h
  obtain ⟨⟨toValue, toAddr⟩, hto, h⟩ := Option.bind_eq_some_iff.mp h
  obtain ⟨contact, hcontact, h⟩ := Option.bind_eq_some_iff.mp h
  obtain ⟨rfl, rfl⟩ := Prod.mk.inj (Option.some.inj h)
  constructor
  case ruri => exact hruri
  case fromValues =>
    unfold WireRequest.values
    rw [OrderedMap.valuesOf_lines, find?_setValue_of_ne _ _ (by decide), find?_setValue_of_ne _ _ (by decide),
      find?_setValue_self]
    exact getD_renderModified escapeUri hfrom _
  case toValues =>
    unfold WireRequest.values
    rw [OrderedMap.valuesOf_lines, find?_setValue_of_ne _ _ (by decide), find?_setValue_self,
      find?_setValue_of_ne _ _ (by decide)]
    exact getD_renderModified escapeUri hto _
  case fromAddr =>
    intro hmodified
    rw [q.fromAddr.renderModified_of_not_modified escapeUri hmodified] at hfrom
    exact (Prod.mk.inj (Option.some.inj hfrom)).2.symm
  case toAddr =>
    intro hmodified
    rw [q.toAddr.renderModified_of_not_modified escapeUri hmodified] at hto
    exact (Prod.mk.inj (Option.some.inj hto)).2.symm
  case others =>
    intro name hnf hnt hnc
    unfold WireRequest.values
    rw [OrderedMap.valuesOf_lines, find?_setValue_of_ne _ _ hnc, find?_setValue_of_ne _ _ hnt,
      find?_setValue_of_ne _ _ hnf]
    rfl
  all_goals rfl

/-! ## A received INVITE -/

/-- `sip:` with this user and host, as it is parsed. -/
def parsedUri (user host text : String) (h : IsUriText text) : Uri :=
  { scheme := .sip, user := some user, host := some host, port := none, params := none, headers := none
    text, modified := false, text_isUriText := h }

/-- A name address without a display name, as it is parsed. -/
def parsedAddr (u : Uri) : NameAddr :=
  { uri := u, displayName := none, text := none, modified := false, text_isNameAddrText := nofun }

theorem isUriText_sip (rest : String) : IsUriText ("sip:" ++ rest) :=
  Uri.isUriText_append (c := 's') (by decide) rfl

def bobUri : Uri := parsedUri "bob" "example.net" ("sip:" ++ "bob@example.net") (isUriText_sip _)

def aliceUri : Uri := parsedUri "alice" "example.com" ("sip:" ++ "alice@example.com") (isUriText_sip _)

/-- An INVITE to Bob, as it is received. -/
def sampleInvite : EditedRequest :=
  { sipMethod := "INVITE", ruri := .uri bobUri
    headers :=
      { entries :=
          [("Via", { values := ["SIP/2.0/TCP 192.0.2.7;branch=z9hG4bKa1"], parsed := true }),
            ("From", { values := ["<sip:alice@example.com>;tag=1"], parsed := true }),
            ("To", { values := ["<sip:bob@example.net>"], parsed := true }),
            ("Call-ID", { values := ["c1"], parsed := true }),
            ("CSeq", { values := ["1 INVITE"], parsed := true })]
        nodup := by decide }
    fromAddr := parsedAddr aliceUri, fromTag := some "1", toAddr := parsedAddr bobUri
    contact := none, contactParams := none
    hdrFrom := "<sip:alice@example.com>;tag=1", hdrTo := { address := "<sip:bob@example.net>", params := [] }
    hdrRoute := none, callId := "c1", cseq := 1, body := none
    fromWasModified := false, toWasModified := false }

def sampleVia : String := "SIP/2.0/TCP 192.0.2.1;branch=z9hG4bKb2;rport"

end EditedRequest

end OverSip
