import OverSip.Lib.Removal
import OverSip.Sip.FlowTokens
import OverSip.Sip.SipUriRoundTrip
import OverSip.WebSocket.Utf8Validator

/-!
# Outbound mangling

`OutboundMangling` (`outbound_mangling.rb`): the flow token of the connection is put into the Contact of a request as
`;ov-ob=TOKEN`, taken out of the Contact of its responses, and read from the Request-URI of a later request. The
parameter is written by `Uri` and taken out by `gsub!` with a regular expression, which looks at the whole value.
-/

namespace OverSip

open GrammarSipUri Numerals Regex

/-! ## The requests -/

/-- `"ov-ob"` -/
def ovOb : Bytes := ascii "ov-ob"

/-- What the module reads and writes of a request and its proxy. -/
structure OutboundRequest where
  ruri : UriObject
  contact : Option UriObject
  connectionOutboundFlowToken : Option Bytes
  routeOutboundFlowToken : Option Bytes
  incomingOutboundRequested : Bool
  /-- The calls of `on_success_response`. -/
  successCallbacks : ℕ

/-- `has_param?`; of an unknown scheme it is nil. -/
def UriObject.hasParam (o : UriObject) (k : Bytes) : Bool := !o.fields.unknownScheme && o.fields.includes k

/-- What `del_param` returns, if it is true. -/
def UriObject.deletedParam (o : UriObject) (k : Bytes) : Option Bytes :=
  if o.fields.unknownScheme then none else (o.fields.params.bind fun params => params.find? (downcase k)).join

namespace OutboundRequest

variable (r : OutboundRequest)

/-- The block that `add_outbound_to_contact` gives to `on_target`. -/
def onTarget : OutboundRequest :=
  match r.contact, r.connectionOutboundFlowToken with
  | some contact, some token =>
    if contact.hasParam ovOb then r
    else
      { r with
        contact := some (contact.set (.setParam ovOb (some token)))
        successCallbacks := r.successCallbacks + 1 }
  | _, _ => r

/-- `extract_outbound_from_ruri` -/
def extractOutboundFromRuri : OutboundRequest × Bool :=
  let deleted := { r with ruri := r.ruri.set (.delParam ovOb) }
  if r.incomingOutboundRequested then (deleted, false)
  else
    match r.ruri.deletedParam ovOb with
    | some token => ({ deleted with routeOutboundFlowToken := some token, incomingOutboundRequested := true }, true)
    | none => (deleted, false)

end OutboundRequest

/-! ## The responses -/

/-- `[_\-0-9A-Za-z]` -/
def isFlowTokenChar (b : UInt8) : Bool :=
  b == 95 || b == 45 || (48 ≤ b && b ≤ 57) || (65 ≤ b && b ≤ 90) || (97 ≤ b && b ≤ 122)

/-- `/;ov-ob=[_\-0-9A-Za-z]+/` -/
def ovObPattern : Pattern UInt8 := ⟨59 :: ascii "ov-ob=", isFlowTokenChar⟩

/-- `contacts.each`; `gsub!` raises when a value is no UTF-8 text, and the values from it on stay. -/
def revertContacts : List Bytes → List Bytes
  | [] => []
  | contact :: rest =>
    if Utf8.Valid contact then ovObPattern.removeAll contact :: revertContacts rest else contact :: rest

/-- A value of a Contact header: it has the URI in it, behind and in front of these texts, or it is another one. -/
inductive ContactValue
  | mangled (before behind : Bytes)
  | other (text : Bytes)

/-- The value, with a text of the URI. -/
def ContactValue.text (uri : Bytes) : ContactValue → Bytes
  | mangled before behind => before ++ uri ++ behind
  | other text => text

/-! ## The flows -/

/-- `SecureRandom.hex(5)` -/
structure ConnectionToken where
  text : Bytes
  length_eq : text.length = 10
  hex : text.all fun b => (48 ≤ b && b ≤ 57) || (97 ≤ b && b ≤ 102)

/-- Where a request came from. -/
inductive OutboundFlow (κ : Type)
  | udp (source : UdpSource)
  | connection (token : ConnectionToken) (c : κ)

namespace OutboundFlow

variable {κ : Type}

/-- `connection_outbound_flow_token` -/
def token : OutboundFlow κ → Bytes
  | udp source => source.connectionOutboundFlowToken
  | connection token _ => token.text

/-- The connection has not been closed. -/
def Open (outboundConnections : Bytes → Option κ) : OutboundFlow κ → Prop
  | udp _ => True
  | connection token c => outboundConnections token.text = some c

/-- Where the flow leads. -/
def toConnection : OutboundFlow κ → OutboundConnection κ
  | udp source => .udp source.ipType source.ip source.port
  | connection _ c => .connection c

end OutboundFlow

/-! ## Tokens -/

theorem isFlowTokenChar_letter_fin : ∀ n : Fin 62, isFlowTokenChar (Base64.letter n) = true := by
  decide

theorem isFlowTokenChar_letter {n : ℕ} (h : n < 62) : isFlowTokenChar (Base64.letter n) = true :=
  isFlowTokenChar_letter_fin ⟨n, h⟩

/-- Such bytes have no six bits with the value 62 or 63 in them that stand for a letter of their own, nor do two of them
together. -/
structure Plain (b : UInt8) : Prop where
  lt : b.toNat < 128
  low : b.toNat % 64 < 62

/-- The letters of the encoding of plain bytes. -/
theorem isFlowTokenChar_of_mem_encode {text : Bytes} (htext : ∀ b ∈ text, Plain b) {c : UInt8}
    (hc : c ∈ Base64.encode text) : isFlowTokenChar c = true ∨ c = 61 := by
  refine Base64.forall_mem_encode (p := fun c => isFlowTokenChar c = true ∨ c = 61) (.inr rfl) Plain
    ?_ ?_ ?_ ?_ ?_ ?_ htext c hc
  · intro x hx
    have hlt := hx.lt
    exact .inl (isFlowTokenChar_letter (by omega))
  · intro x y _ hy
    have hlt := hy.lt
    exact .inl (isFlowTokenChar_letter (by omega))
  · intro x _
    exact .inl (isFlowTokenChar_letter (by omega))
  · intro y z _ hz
    -- the only case that comes near: `z` adds no more than one to a multiple of four
    have hlt := hz.lt
    exact .inl (isFlowTokenChar_letter (by omega))
  · intro y _
    exact .inl (isFlowTokenChar_letter (by omega))
  · intro z hz
    exact .inl (isFlowTokenChar_letter hz.low)

theorem plain_iff (b : UInt8) : Plain b ↔ b.toNat < 128 ∧ b.toNat % 64 < 62 :=
  ⟨fun h => ⟨h.lt, h.low⟩, fun h => ⟨h.1, h.2⟩⟩

instance (b : UInt8) : Decidable (Plain b) := decidable_of_iff _ (plain_iff b).symm

/-- An address has plain bytes only. -/
theorem plain_of_mem_ip (t : IpType) {ip : Bytes} (h : ip ∈ lang t.grammar) {b : UInt8} (hb : b ∈ ip) : Plain b := by
  have havoids : ∀ b : UInt8, Plain b ∨ avoids b t.grammar = true := by
    cases t with
    | ipv4 =>
      apply byte_forall (p := fun b => Plain b ∨ avoids b IpType.ipv4.grammar = true)
      decide +kernel
    | ipv6 =>
      apply byte_forall (p := fun b => Plain b ∨ avoids b IpType.ipv6.grammar = true)
      decide +kernel
  exact (havoids b).resolve_right fun havoid => notMem_of_avoids havoid h hb

theorem plain_of_mem_decimal {n : ℕ} {b : UInt8} (h : b ∈ decimal n) : Plain b := by
  obtain ⟨d, hd, rfl⟩ := List.mem_map.mp h
  have hlt := lt_of_mem_decimalDigits hd
  have hvalue := toNat_digitChar hlt
  exact ⟨by omega, by omega⟩

theorem UdpSource.plain_text (s : UdpSource) {b : UInt8} (h : b ∈ s.text) : Plain b := by
  rcases List.mem_append.mp h with hip | hrest
  · exact plain_of_mem_ip s.ipType s.ip_mem hip
  · rcases List.mem_cons.mp hrest with rfl | hport
    · exact ⟨by decide, by decide⟩
    · exact plain_of_mem_decimal hport

/-- **The characters of a token.** -/
theorem OutboundFlow.isFlowTokenChar_of_mem {κ : Type} (flow : OutboundFlow κ) {c : UInt8} (h : c ∈ flow.token) :
    isFlowTokenChar c = true := by
  cases flow with
  | udp source =>
    rcases List.mem_cons.mp h with rfl | hletter
    · rfl
    · obtain ⟨b, hb, rfl⟩ := List.mem_map.mp hletter
      show isFlowTokenChar (if b = 61 then 45 else b) = true
      rcases isFlowTokenChar_of_mem_encode (fun b => source.plain_text) hb with hchar | rfl
      · split
        · rfl
        · exact hchar
      · rfl
  | connection token c =>
    have hhex := List.all_eq_true.mp token.hex _ h
    unfold isFlowTokenChar
    simp only [Bool.or_eq_true, Bool.and_eq_true, decide_eq_true_eq, beq_iff_eq] at hhex ⊢
    rcases hhex with ⟨h₁, h₂⟩ | ⟨h₁, h₂⟩
    · exact .inl (.inl (.inr ⟨h₁, h₂⟩))
    · exact .inr ⟨h₁, UInt8.le_trans h₂ (show (102 : UInt8) ≤ 122 by decide)⟩

theorem OutboundFlow.token_ne_nil {κ : Type} (flow : OutboundFlow κ) : flow.token ≠ [] := by
  cases flow with
  | udp source => exact List.cons_ne_nil _ _
  | connection token c =>
    intro hnil
    have hlength := token.length_eq
    rw [show token.text = [] from hnil] at hlength
    cases hlength

/-- **The way back** of a token. -/
theorem OutboundFlow.getOutboundConnectionOf_token {κ : Type} {flow : OutboundFlow κ}
    {outboundConnections : Bytes → Option κ} (h : flow.Open outboundConnections) :
    getOutboundConnectionOf outboundConnections flow.token = flow.toConnection := by
  cases flow with
  | udp source => exact source.getOutboundConnectionOf_token outboundConnections
  | connection token c =>
    have hlookup : outboundConnections token.text = some c := h
    have hhead : token.text.head? ≠ some 95 := by
      intro heq
      have hhex := List.all_eq_true.mp token.hex 95 (List.mem_of_mem_head? heq)
      exact absurd hhex (by decide)
    show getOutboundConnectionOf outboundConnections token.text = .connection c
    unfold getOutboundConnectionOf
    rw [if_neg hhead, hlookup]

/-! ## The mangled URI -/

namespace UriFields

variable {inet : Inet} {f : UriFields} {host : Bytes} {hostType : HostType} {token : Bytes}

/-- The text of a URI up to its headers. -/
def front (f : UriFields) (host : Bytes) : Bytes :=
  f.scheme.text ++ f.userText escapeUri ++ host ++ f.portText ++ paramsText f.params

theorem printed_eq (f : UriFields) (host : Bytes) (hostType : HostType) :
    f.printed host hostType = f.front host ++ f.headers.getD [] := by
  unfold printed front
  rw [text_printedHostPart]
  simp only [List.append_assoc]

theorem allParams_setParam : (f.setParam ovOb (some token)).allParams = f.allParams.set ovOb (some token) := rfl

/-- The parameter is the last one. -/
theorem printed_setParam (h : f.includes ovOb = false) :
    (f.setParam ovOb (some token)).printed host hostType =
      f.front host ++ ovObPattern.word ++ token ++ f.headers.getD [] := by
  have hnone : f.allParams.find? ovOb = none := by
    unfold includes at h
    unfold allParams
    cases hparams : f.params with
    | none => rfl
    | some params =>
      rw [hparams] at h
      exact Option.not_isSome_iff_eq_none.mp (ne_true_of_eq_false h)
  have hentries : (f.allParams.set ovOb (some token)).entries = f.allParams.entries ++ [(ovOb, some token)] := by
    unfold OrderedMap.set
    rw [dif_pos hnone]
  have hparams : paramsText (f.setParam ovOb (some token)).params =
      paramsText f.params ++ (ovObPattern.word ++ token) := by
    show (f.allParams.set ovOb (some token)).entries.flatMap paramText = _
    have hold : paramsText f.params = f.allParams.entries.flatMap paramText := by
      unfold paramsText allParams
      cases f.params <;> rfl
    rw [hentries, List.flatMap_append, hold, List.flatMap_cons, List.flatMap_nil, List.append_nil]
    rfl
  rw [printed_eq]
  unfold front
  rw [hparams]
  show f.scheme.text ++ f.userText escapeUri ++ host ++ f.portText ++
    (paramsText f.params ++ (ovObPattern.word ++ token)) ++ f.headers.getD [] = _
  simp only [List.append_assoc]

/-- A text of the characters of a token is a value of a parameter. -/
theorem isParamText_of_token (hne : token ≠ []) (h : ∀ c ∈ token, isFlowTokenChar c = true) :
    isParamText token = true := by
  have hchar : ∀ c : UInt8, isFlowTokenChar c = false ∨ (isParamchar c = true ∧ c ≠ 37) := by
    apply byte_forall (p := fun c => isFlowTokenChar c = false ∨ (isParamchar c = true ∧ c ≠ 37))
    decide +kernel
  have hescaped : ∀ s : Bytes, (∀ c ∈ s, isFlowTokenChar c = true) → isEscapedText isParamchar s = true := by
    intro s hs
    induction s with
    | nil => rfl
    | cons c s ih =>
      obtain ⟨hc, hrest⟩ := List.forall_mem_cons.mp hs
      obtain ⟨hparamchar, hpercent⟩ := (hchar c).resolve_left (ne_false_of_eq_true hc)
      rw [isEscapedText_cons hpercent, hparamchar, ih hrest]
      rfl
  unfold isParamText
  rw [hescaped token h, Bool.and_true]
  exact bne_iff_ne.mpr hne

theorem Printable.setParam (h : f.Printable inet host hostType) (hne : token ≠ [])
    (htoken : ∀ c ∈ token, isFlowTokenChar c = true) :
    (f.setParam ovOb (some token)).Printable inet host hostType := by
  refine ⟨h.scheme, h.host_eq, h.hostType_eq, h.found, h.normal, h.port, ?_, h.headers⟩
  rintro ⟨k, v⟩ hmem
  rw [allParams_setParam] at hmem
  rcases OrderedMap.mem_set hmem with heq | hold
  · obtain ⟨rfl, rfl⟩ := Prod.mk.inj heq
    refine ⟨.inl (show isParamText ovOb = true by decide), show downcase ovOb = ovOb by decide, fun v hv => ?_⟩
    obtain rfl := Option.some.inj hv
    exact isParamText_of_token hne htoken
  · exact h.params _ hold

/-- The mangled URI is a URI again if and only if its user is printed as a userinfo, and the parameter is in it. -/
theorem Printable.parse_setParam_iff (h : f.Printable inet host hostType) (hne : token ≠ [])
    (htoken : ∀ c ∈ token, isFlowTokenChar c = true) :
    (∃ f', parseSipUri inet ((f.setParam ovOb (some token)).printed host hostType) = some f') ↔
      ∀ user ∈ f.user, isUserinfo (escapeUri user) = true := by
  have hall : (f.user.all fun user => isUserinfo (escapeUri user)) = true ↔
      ∀ user ∈ f.user, isUserinfo (escapeUri user) = true := by
    cases f.user with
    | none => exact iff_of_true rfl fun user huser => by cases huser
    | some user => exact ⟨fun h _ huser => Option.some.inj huser ▸ h, fun h => h user rfl⟩
  unfold parseSipUri
  rw [(h.setParam hne htoken).readSipUri, ← hall]
  show (∃ f', Option.map _ (if (f.user.all fun user => isUserinfo (escapeUri user)) = true then _ else _) = some f') ↔ _
  constructor
  · rintro ⟨f', hread⟩
    by_contra hnot
    rw [if_neg hnot] at hread
    cases hread
  · intro huser
    rw [if_pos huser]
    exact ⟨_, rfl⟩

theorem Printable.find?_parse_setParam (h : f.Printable inet host hostType) (hne : token ≠ [])
    (htoken : ∀ c ∈ token, isFlowTokenChar c = true) {f' : UriFields}
    (hread : parseSipUri inet ((f.setParam ovOb (some token)).printed host hostType) = some f') :
    f'.allParams.find? ovOb = some (some token) := by
  have hprintable := h.setParam hne htoken
  unfold parseSipUri at hread
  rw [hprintable.readSipUri] at hread
  split at hread
  · obtain rfl := Option.some.inj hread
    rw [hprintable.find?_reprinted, allParams_setParam, OrderedMap.find?_set_self, Option.some_or]
  · cases hread

/-- The text with the parameter. -/
def withToken (f : UriFields) (token : Bytes) : Bytes :=
  f.front (f.host.getD []) ++ ovObPattern.word ++ token ++ f.headers.getD []

theorem Printable.rendering (h : f.Printable inet host hostType) :
    f.rendering escapeUri = .ok (some (f.front (f.host.getD []) ++ f.headers.getD [])) := by
  unfold UriFields.rendering
  rw [h.write, printed_eq, h.host_eq]
  rfl

theorem Printable.printed_withToken (h : f.Printable inet host hostType) (hov : f.includes ovOb = false) :
    (f.setParam ovOb (some token)).printed host hostType = f.withToken token := by
  rw [printed_setParam hov]
  unfold withToken
  rw [h.host_eq, Option.getD_some]

theorem Printable.write_withToken (h : f.Printable inet host hostType) (hov : f.includes ovOb = false)
    (hne : token ≠ []) (htoken : ∀ c ∈ token, isFlowTokenChar c = true) :
    (f.setParam ovOb (some token)).write escapeUri = some (f.withToken token, true) := by
  rw [(h.setParam hne htoken).write, h.printed_withToken hov]

end UriFields

/-! ## The steps of the module -/

theorem includes_eq (f : UriFields) (k : Bytes) : f.includes k = (f.allParams.find? (downcase k)).isSome := by
  unfold UriFields.includes UriFields.allParams
  cases f.params with
  | none => rfl
  | some params => rfl

namespace OutboundRequest

variable {r : OutboundRequest}

/-- The first target puts the token in; the next ones find it there. -/
theorem onTarget_iterate {contact : UriObject} {token : Bytes} (hcontact : r.contact = some contact)
    (htoken : r.connectionOutboundFlowToken = some token) (hknown : contact.fields.unknownScheme = false)
    (hov : contact.fields.includes ovOb = false) (n : ℕ) :
    onTarget^[n + 1] r =
      { r with
        contact := some { contact with fields := contact.fields.setParam ovOb (some token), uriModified := true }
        successCallbacks := r.successCallbacks + 1 } := by
  have hset : contact.set (.setParam ovOb (some token)) =
      { contact with fields := contact.fields.setParam ovOb (some token), uriModified := true } := by
    unfold UriObject.set UriFields.set
    dsimp only
    rw [hknown, if_neg Bool.false_ne_true, Bool.or_true]
  have hfirst : r.onTarget =
      { r with
        contact := some { contact with fields := contact.fields.setParam ovOb (some token), uriModified := true }
        successCallbacks := r.successCallbacks + 1 } := by
    unfold onTarget
    rw [hcontact, htoken]
    dsimp only
    rw [if_neg, hset]
    unfold UriObject.hasParam
    rw [hov, Bool.and_false]
    exact Bool.false_ne_true
  have hagain : r.onTarget.onTarget = r.onTarget := by
    have hthere : (contact.fields.setParam ovOb (some token)).includes ovOb = true := by
      rw [includes_eq, show downcase ovOb = ovOb by decide, UriFields.allParams_setParam, OrderedMap.find?_set_self]
      rfl
    rw [hfirst]
    unfold onTarget
    dsimp only
    rw [htoken]
    dsimp only
    rw [if_pos]
    unfold UriObject.hasParam
    rw [hthere, Bool.and_true]
    exact congrArg (!·) hknown
  rw [← hfirst]
  induction n with
  | zero => rfl
  | succ n ih => rw [Function.iterate_succ_apply', ih, hagain]

/-- The token of the Request-URI is taken for the one of the Route. -/
theorem extractOutboundFromRuri_spec {token : Bytes} (hknown : r.ruri.fields.unknownScheme = false)
    (htoken : r.ruri.fields.allParams.find? ovOb = some (some token)) (hincoming : r.incomingOutboundRequested = false) :
    r.extractOutboundFromRuri.2 = true ∧ r.extractOutboundFromRuri.1.routeOutboundFlowToken = some token ∧
      r.extractOutboundFromRuri.1.incomingOutboundRequested = true ∧
      r.extractOutboundFromRuri.1.ruri.fields.includes ovOb = false := by
  have hname : downcase ovOb = ovOb := by decide
  have hincludes : r.ruri.fields.includes ovOb = true := by
    rw [includes_eq, hname, htoken]
    rfl
  have hdeleted : r.ruri.deletedParam ovOb = some token := by
    unfold UriObject.deletedParam
    have hlookup : (r.ruri.fields.params.bind fun params => params.find? (downcase ovOb)) = some (some token) := by
      rw [← htoken, hname]
      unfold UriFields.allParams
      cases r.ruri.fields.params with
      | none => rfl
      | some params => rfl
    rw [hknown, if_neg Bool.false_ne_true, hlookup]
    rfl
  have hafter : (r.ruri.set (.delParam ovOb)).fields.includes ovOb = false := by
    have hfields : (r.ruri.set (.delParam ovOb)).fields = (r.ruri.fields.delParam ovOb).1 := by
      unfold UriObject.set UriFields.set
      dsimp only
      rw [hknown, if_neg Bool.false_ne_true]
    rw [hfields]
    unfold UriFields.delParam
    rw [if_pos hincludes]
    unfold UriFields.includes
    cases r.ruri.fields.params with
    | none => rfl
    | some params =>
      show ((params.erase (downcase ovOb)).find? (downcase ovOb)).isSome = false
      rw [OrderedMap.find?_erase_self]
      rfl
  unfold extractOutboundFromRuri
  dsimp only
  rw [hincoming, if_neg Bool.false_ne_true, hdeleted]
  exact ⟨rfl, rfl, rfl, hafter⟩

end OutboundRequest

/-- The values up to the first one that is no UTF-8 text are treated. -/
theorem getElem?_revertContacts (contacts : List Bytes) (i : ℕ) :
    (revertContacts contacts)[i]? = contacts[i]?.map fun contact =>
      bif (contacts.take (i + 1)).all fun c => decide (Utf8.Valid c) then ovObPattern.removeAll contact else contact := by
  induction contacts generalizing i with
  | nil => rfl
  | cons contact rest ih =>
    unfold revertContacts
    simp only [List.take_succ_cons, List.all_cons]
    by_cases hvalid : Utf8.Valid contact
    · rw [if_pos hvalid, decide_eq_true hvalid]
      cases i with
      | zero => rfl
      | succ i => exact ih i
    · rw [if_neg hvalid, decide_eq_false hvalid]
      exact Option.map_id'.symm

/-! ## The mangling is undone -/

/-- What a value with the mangled URI in it must be like. -/
structure Revertible (f : UriFields) (token : Bytes) (values : List ContactValue) (i : ℕ) (before behind : Bytes) :
    Prop where
  /-- There is no such parameter in front of the one that was added. -/
  notInFront : ¬ ovObPattern.Occurs (before ++ f.front (f.host.getD []))
  /-- Nor is there one behind it. -/
  notBehind : ¬ ovObPattern.Occurs (f.headers.getD [] ++ behind)
  /-- The token ends where it was ended. -/
  ends : (f.headers.getD [] ++ behind).head?.any isFlowTokenChar = false
  valid : ∀ v ∈ (values.map (ContactValue.text (f.withToken token))).take (i + 1), Utf8.Valid v

/-- A value is reverted if and only if it can be. -/
theorem revertContacts_iff {f : UriFields} {token : Bytes} (hne : token ≠ [])
    (htoken : ∀ c ∈ token, isFlowTokenChar c = true) {values : List ContactValue} {i : ℕ} {before behind : Bytes}
    (hi : values[i]? = some (.mangled before behind)) :
    (revertContacts (values.map (ContactValue.text (f.withToken token))))[i]? =
        some (before ++ (f.front (f.host.getD []) ++ f.headers.getD []) ++ behind) ↔
      Revertible f token values i before behind := by
  have hstarts : ovObPattern.Starts 59 (ascii "ov-ob=") := ⟨rfl, by decide, by decide⟩
  have hvalue : (values.map (ContactValue.text (f.withToken token)))[i]? =
      some (before ++ f.withToken token ++ behind) := by
    rw [List.getElem?_map, hi]
    rfl
  have hsplit : before ++ f.withToken token ++ behind =
      (before ++ f.front (f.host.getD [])) ++ ovObPattern.word ++ token ++ (f.headers.getD [] ++ behind) := by
    unfold UriFields.withToken
    simp only [List.append_assoc]
  have hplain : before ++ (f.front (f.host.getD []) ++ f.headers.getD []) ++ behind =
      (before ++ f.front (f.host.getD [])) ++ (f.headers.getD [] ++ behind) := by
    simp only [List.append_assoc]
  rw [getElem?_revertContacts, hvalue, Option.map_some, Option.some_inj]
  have hvalid : (((values.map (ContactValue.text (f.withToken token))).take (i + 1)).all fun c =>
      decide (Utf8.Valid c)) = true ↔
        ∀ v ∈ (values.map (ContactValue.text (f.withToken token))).take (i + 1), Utf8.Valid v := by
    simp only [List.all_eq_true, decide_eq_true_eq]
  cases hall : ((values.map (ContactValue.text (f.withToken token))).take (i + 1)).all fun c =>
      decide (Utf8.Valid c) with
  | true =>
    rw [cond_true, hsplit, hplain, hstarts.removeAll_eq_iff hne htoken]
    constructor
    · rintro ⟨hfront, hbehind, hends⟩
      exact ⟨hfront, hbehind, hends, hvalid.mp hall⟩
    · exact fun h => ⟨h.notInFront, h.notBehind, h.ends⟩
  | false =>
    refine iff_of_false (fun heq => ?_) fun h => ne_true_of_eq_false hall (hvalid.mpr h.valid)
    rw [cond_false] at heq
    have hlength := congrArg List.length (hsplit.symm.trans (heq.trans hplain))
    have hpos := List.length_pos_of_ne_nil hne
    simp only [List.length_append] at hlength
    omega

theorem UriObject.readUri_of_write {o : UriObject} {text : Bytes} (hmarked : o.uriModified = true)
    (hwrite : o.fields.write escapeUri = some (text, true)) : (o.readUri escapeUri).2 = .ok (some text) := by
  unfold UriObject.readUri
  rw [if_pos hmarked, hwrite]

/-- **Mangling is undone.** The token has the characters of the pattern; whatever the number of targets, the Contact is
printed with it and one callback waits for the response; the callback leaves the Contact of the response as it would have
been printed; and a later request to the mangled URI gets the flow of the token, without the parameter. -/
structure ManglingUndone {κ : Type} (inet : Inet) (outboundConnections : Bytes → Option κ) (flow : OutboundFlow κ)
    (r : OutboundRequest) (f : UriFields) (values : List ContactValue) : Prop where
  characters : ∀ c ∈ flow.token, isFlowTokenChar c = true
  undone : ∃ plain mangled, f.rendering escapeUri = .ok (some plain) ∧
    (∀ n, ∃ contact, (OutboundRequest.onTarget^[n + 1] r).contact = some contact ∧
      (contact.readUri escapeUri).2 = .ok (some mangled) ∧
      (OutboundRequest.onTarget^[n + 1] r).successCallbacks = r.successCallbacks + 1) ∧
    (∀ (i : ℕ) before behind, values[i]? = some (.mangled before behind) →
      (revertContacts (values.map (ContactValue.text mangled)))[i]? = some (before ++ plain ++ behind)) ∧
    ∃ ruri, parseSipUri inet mangled = some ruri ∧ ∀ later : OutboundRequest, later.ruri = .ofParser ruri mangled →
      later.incomingOutboundRequested = false →
        later.extractOutboundFromRuri.2 = true ∧
        later.extractOutboundFromRuri.1.incomingOutboundRequested = true ∧
        later.extractOutboundFromRuri.1.ruri.fields.includes ovOb = false ∧
        ∃ token, later.extractOutboundFromRuri.1.routeOutboundFlowToken = some token ∧
          getOutboundConnectionOf outboundConnections token = flow.toConnection

section

variable {κ : Type} {inet : Inet} {outboundConnections : Bytes → Option κ} {flow : OutboundFlow κ}
  {r : OutboundRequest} {text : Bytes} {f : UriFields} {n : Option NamePart} {values : List ContactValue}

theorem unknownScheme_of_parse (h : parseSipUri inet text = some f) : f.unknownScheme = false := by
  obtain ⟨p, hp, rfl⟩ := Option.map_eq_some_iff.mp h
  obtain ⟨host, hprintable⟩ := printable_fields inet hp
  unfold UriFields.unknownScheme
  rcases hprintable.scheme with hs | hs <;> rw [hs]

/-- What follows when the mangling of a parsed Contact is undone. -/
theorem ManglingUndone.revertible (h : ManglingUndone inet outboundConnections flow r f values)
    (hparse : parseSipUri inet text = some f)
    (hcontact : r.contact = some { UriObject.ofParser f text with namePart := n }) (hov : f.includes ovOb = false)
    (htoken : r.connectionOutboundFlowToken = some flow.token) :
    (∀ user ∈ f.user, isUserinfo (escapeUri user) = true) ∧
      ∀ (i : ℕ) before behind, values[i]? = some (.mangled before behind) →
        Revertible f flow.token values i before behind := by
  have hknown := unknownScheme_of_parse hparse
  obtain ⟨p, hp, rfl⟩ := Option.map_eq_some_iff.mp hparse
  obtain ⟨host, hprintable⟩ := printable_fields inet hp
  obtain ⟨hchars, plain, mangled, hplain, hcontacts, hreverted, ruri, hruri, -⟩ := h
  have hwrite := hprintable.write_withToken hov flow.token_ne_nil hchars
  have hreads := hprintable.parse_setParam_iff flow.token_ne_nil hchars
  rw [hprintable.printed_withToken hov] at hreads
  rw [hprintable.rendering] at hplain
  obtain rfl := Option.some.inj (Except.ok.inj hplain)
  obtain ⟨contact, hmangled, hread, -⟩ := hcontacts 0
  rw [OutboundRequest.onTarget_iterate hcontact htoken hknown hov] at hmangled
  obtain rfl := Option.some.inj hmangled
  rw [UriObject.readUri_of_write rfl hwrite] at hread
  obtain rfl := Option.some.inj (Except.ok.inj hread)
  refine ⟨hreads.mp ⟨ruri, hruri⟩, fun i before behind hi => ?_⟩
  exact (revertContacts_iff flow.token_ne_nil hchars hi).mp (hreverted i before behind hi)

/-- The mangling of a parsed Contact without `ov-ob` is undone if and only if its user is printed as a userinfo and the
values of the response that have it can be reverted. -/
theorem manglingUndone_iff (values : List ContactValue) (hopen : flow.Open outboundConnections)
    (hparse : parseSipUri inet text = some f)
    (hcontact : r.contact = some { UriObject.ofParser f text with namePart := n }) (hov : f.includes ovOb = false)
    (htoken : r.connectionOutboundFlowToken = some flow.token) :
    ManglingUndone inet outboundConnections flow r f values ↔
      (∀ user ∈ f.user, isUserinfo (escapeUri user) = true) ∧
        ∀ (i : ℕ) before behind, values[i]? = some (.mangled before behind) →
          Revertible f flow.token values i before behind := by
  refine ⟨fun h => h.revertible hparse hcontact hov htoken, ?_⟩
  rintro ⟨huser, hrevertible⟩
  have hknown := unknownScheme_of_parse hparse
  have htargets := OutboundRequest.onTarget_iterate hcontact htoken hknown hov
  have hchars : ∀ c ∈ flow.token, isFlowTokenChar c = true := fun c => flow.isFlowTokenChar_of_mem
  obtain ⟨p, hp, rfl⟩ := Option.map_eq_some_iff.mp hparse
  obtain ⟨host, hprintable⟩ := printable_fields inet hp
  have hwrite := hprintable.write_withToken hov flow.token_ne_nil hchars
  have hreads := hprintable.parse_setParam_iff flow.token_ne_nil hchars
  obtain ⟨ruri, hruri⟩ := hreads.mpr huser
  have hthere := hprintable.find?_parse_setParam flow.token_ne_nil hchars hruri
  rw [hprintable.printed_withToken hov] at hruri
  refine ⟨hchars, _, (p.fields inet).withToken flow.token, hprintable.rendering, fun n => ?_,
    fun i before behind hi => ?_, ruri, hruri, ?_⟩
  · rw [htargets]
    exact ⟨_, rfl, UriObject.readUri_of_write rfl hwrite, rfl⟩
  · exact (revertContacts_iff flow.token_ne_nil hchars hi).mpr (hrevertible i before behind hi)
  · intro later hlater hincoming
    have hlaterKnown : later.ruri.fields.unknownScheme = false := by
      rw [hlater]
      exact unknownScheme_of_parse hruri
    have hlaterToken : later.ruri.fields.allParams.find? ovOb = some (some flow.token) := by
      rw [hlater]
      exact hthere
    have hspec := OutboundRequest.extractOutboundFromRuri_spec hlaterKnown hlaterToken hincoming
    exact ⟨hspec.1, hspec.2.2.1, hspec.2.2.2, flow.token, hspec.2.1, flow.getOutboundConnectionOf_token hopen⟩

end

/-! ## Two responses -/

def sampleFlow : OutboundFlow Unit := .udp sampleUdpSource

/-- A REGISTER of `sip:alice@192.0.2.7`, of which the URI has been read. -/
def sampleOutboundRequest (f : UriFields) : OutboundRequest where
  ruri := .new .sip none (some (ascii "example.net")) none
  contact := some (.nameAddrOfParser none f (ascii "sip:alice@192.0.2.7"))
  connectionOutboundFlowToken := some sampleFlow.token
  routeOutboundFlowToken := none
  incomingOutboundRequested := false
  successCallbacks := 0

theorem sampleContact_read : ∃ f, parseSipUri .ofTexts (ascii "sip:alice@192.0.2.7") = some f ∧
    f.includes ovOb = false ∧ f.user = some (ascii "alice") ∧ f.front (f.host.getD []) = ascii "sip:alice@192.0.2.7" ∧
    f.headers = none := by
  have hread : (parseSipUri .ofTexts (ascii "sip:alice@192.0.2.7")).map (fun f =>
      (f.includes ovOb, f.user, f.front (f.host.getD []), f.headers)) =
        some (false, some (ascii "alice"), ascii "sip:alice@192.0.2.7", none) := by
    decide
  obtain ⟨f, hf, hfields⟩ := Option.map_eq_some_iff.mp hread
  obtain ⟨h₁, h₂, h₃, h₄⟩ : _ ∧ _ ∧ _ ∧ _ := by simpa only [Prod.mk.injEq] using hfields
  exact ⟨f, hf, h₁, h₂, h₃, h₄⟩

/-- The Contact of the response has a display name and a parameter. -/
theorem mangling_sample : ∃ f, parseSipUri .ofTexts (ascii "sip:alice@192.0.2.7") = some f ∧
    ManglingUndone .ofTexts (fun _ => none) sampleFlow (sampleOutboundRequest f) f
      [.mangled (ascii "\"Alice\" <") (ascii ">;expires=60")] := by
  obtain ⟨f, hparse, hov, huser, hfront, hheaders⟩ := sampleContact_read
  have hopen : sampleFlow.Open (fun _ => none) := trivial
  refine ⟨f, hparse, (manglingUndone_iff _ hopen hparse rfl hov rfl).mpr ⟨fun user hmem => ?_, ?_⟩⟩
  · rw [huser] at hmem
    obtain rfl := Option.some.inj hmem
    decide
  · intro i before behind hi
    cases i with
    | succ i => cases hi
    | zero =>
      obtain ⟨rfl, rfl⟩ := ContactValue.mangled.inj (Option.some.inj hi)
      refine ⟨?_, ?_, ?_, fun v hv => ?_⟩
      · rw [hfront]
        decide
      · rw [hheaders]
        decide
      · rw [hheaders]
        decide
      · obtain rfl := List.mem_singleton.mp hv
        unfold ContactValue.text UriFields.withToken
        dsimp only
        rw [hfront, hheaders]
        decide +kernel

/-- A display name with such a text is changed. -/
theorem mangling_displayName : ∃ f, parseSipUri .ofTexts (ascii "sip:alice@192.0.2.7") = some f ∧
    revertContacts [ascii "\";ov-ob=1\" <sip:alice@192.0.2.7;ov-ob=_MTkyLjAuMi43XzUwNjA->"] =
      [ascii "\"\" <sip:alice@192.0.2.7>"] ∧
    ¬ManglingUndone .ofTexts (fun _ => none) sampleFlow (sampleOutboundRequest f) f
      [.mangled (ascii "\";ov-ob=1\" <") (ascii ">")] := by
  obtain ⟨f, hparse, hov, huser, hfront, hheaders⟩ := sampleContact_read
  refine ⟨f, hparse, by decide +kernel, fun h => ?_⟩
  have hnot := ((h.revertible hparse rfl hov rfl).2 0 _ _ rfl).notInFront
  rw [hfront] at hnot
  revert hnot
  decide

end OverSip
