import OverSip.Sip.SipUriHosts
import OverSip.Sip.UriEscaping

/-!
# SIP URIs that are printed and read

What the parser makes of the text that `uri` writes of fields which the grammar has texts for. Only the user can be
printed as something else: what was escaped of it is printed as it is, and the machine that reads it takes it for
the beginning of a host as long as it can. `UriFields.readsBack_iff` says when the printed text is read as the same
URI.
-/

namespace OverSip

open GrammarSipUri

/-! ## Characters that cut a URI -/

/-- A character that no parameter has: ";", "?" or "@". -/
structure CutsParams (c : UInt8) : Prop where
  lt : c < 65
  percent : c ≠ 37
  equals : c ≠ 61
  hexdig : isHexdig c = false
  paramchar : isParamchar c = false
  tokenChar : isTokenChar c = false

theorem cutsParams_semicolon : CutsParams 59 :=
  ⟨by decide, by decide, by decide, by decide, by decide, by decide⟩

theorem cutsParams_question : CutsParams 63 :=
  ⟨by decide, by decide, by decide, by decide, by decide, by decide⟩

theorem cutsParams_at : CutsParams 64 :=
  ⟨by decide, by decide, by decide, by decide, by decide, by decide⟩

namespace CutsParams

variable {c : UInt8} (hc : CutsParams c)

include hc

theorem notMem_of_isParamText {s : Bytes} (h : isParamText s = true) : c ∉ s :=
  notMem_of_isEscapedText hc.percent hc.hexdig hc.paramchar (isEscapedText_of_isParamText h)

theorem notMem_of_isToken {s : Bytes} (h : isToken s = true) : c ∉ s := by
  intro hmem
  have hall := List.all_eq_true.mp (Bool.and_eq_true_iff.mp h).2 c hmem
  rw [hc.tokenChar] at hall
  cases hall

theorem notMem_of_downcase_eq {s name : Bytes} (hname : c ∉ name) (h : downcase s = name) : c ∉ s := by
  intro hmem
  have hmem' : downcaseChar c ∈ downcase s := List.mem_map_of_mem hmem
  rw [(downcaseChar_eq_iff hc.lt c).mpr rfl, h] at hmem'
  exact hname hmem'

theorem notMem_of_isEntryName {k : Bytes} (h : IsEntryName k) : c ∉ k := by
  rcases h with hk | ⟨pname, hpname, rfl⟩
  · exact hc.notMem_of_isParamText hk
  · rw [List.mem_append, List.mem_singleton]
    rintro (hmem | heq)
    · exact hc.notMem_of_isParamText hpname hmem
    · exact hc.equals heq

/-- A name, and "=" with a value. -/
theorem notMem_append_value {k : Bytes} (hk : c ∉ k) {v : Option Bytes} (hv : ∀ value ∈ v, c ∉ value) :
    c ∉ k ++ v.elim [] fun value => 61 :: value := by
  cases v with
  | none =>
    rw [Option.elim_none, List.append_nil]
    exact hk
  | some value =>
    rw [Option.elim_some, List.mem_append, List.mem_cons]
    rintro (hmem | heq | hmem)
    · exact hk hmem
    · exact hc.equals heq
    · exact hv value rfl hmem

theorem notMem_of_tokenBehind {name : String} (hname : c ∉ ascii name) {param : Bytes}
    (h : (tokenBehind name param).isSome = true) : c ∉ param := by
  obtain ⟨token, htoken⟩ := Option.isSome_iff_exists.mp h
  obtain ⟨hbehind, hvalue⟩ := Option.filter_eq_some_iff.mp htoken
  obtain ⟨k, hk, rfl⟩ := valueBehind_eq_some_iff.mp hbehind
  exact hc.notMem_append_value (v := some token) (hc.notMem_of_downcase_eq hname hk)
    fun value hvalue' => Option.some.inj hvalue' ▸ hc.notMem_of_isToken hvalue

theorem notMem_of_isFlag {name : String} (hname : c ∉ ascii name) {param : Bytes} (h : isFlag name param = true) :
    c ∉ param := by
  rcases Bool.or_eq_true_iff.mp h with h | h
  · exact hc.notMem_of_downcase_eq hname (eq_of_beq h)
  · exact hc.notMem_of_tokenBehind hname h

theorem notMem_of_isSipUriParam {param : Bytes} (h : isSipUriParam param = true) : c ∉ param := by
  have hletters : ∀ name : String, ((ascii name).all fun b => 65 ≤ b) = true → c ∉ ascii name := by
    intro name hall hmem
    have hle := of_decide_eq_true (List.all_eq_true.mp hall c hmem)
    exact absurd hc.lt (UInt8.not_lt.mpr hle)
  unfold isSipUriParam at h
  simp only [Bool.or_eq_true] at h
  rcases h with (((h | h) | h) | h) | h
  · obtain ⟨⟨k, v⟩, hentry⟩ := Option.isSome_iff_exists.mp h
    obtain ⟨hk, hv, rfl⟩ := paramEntry_eq_some_iff.mp hentry
    exact hc.notMem_append_value (hc.notMem_of_isEntryName hk) fun value hvalue => hc.notMem_of_isParamText (hv value hvalue)
  · exact hc.notMem_of_tokenBehind (hletters _ (by decide)) h
  · exact hc.notMem_of_isFlag (hletters _ (by decide)) h
  · exact hc.notMem_of_isFlag (hletters _ (by decide)) h
  · exact hc.notMem_of_isFlag (hletters _ (by decide)) h

end CutsParams

/-! ## Headers -/

theorem notMem_of_isHeader {h : Bytes} (hh : isHeader h = true) : 64 ∉ h := by
  unfold isHeader at hh
  simp only [Bool.and_eq_true] at hh
  obtain ⟨⟨⟨_, hname⟩, hequals⟩, hvalue⟩ := hh
  obtain ⟨name, value, rfl, hne⟩ := List.eq_append_cons_of_mem (List.contains_iff_mem.mp hequals)
  rw [takeWhile_ne_append hne] at hname
  rw [drop_takeWhile_ne_append hne] at hvalue
  have hchar : isHeaderChar 64 = false := by decide
  rw [List.mem_append, List.mem_cons]
  rintro (hmem | heq | hmem)
  · exact notMem_of_isEscapedText (by decide) (by decide) hchar hname hmem
  · cases heq
  · exact notMem_of_isEscapedText (by decide) (by decide) hchar hvalue hmem

theorem notMem_of_isHeaders {h : Bytes} (hh : isHeaders h = true) : 64 ∉ h := by
  obtain ⟨hhead, hall⟩ := Bool.and_eq_true_iff.mp hh
  obtain ⟨rest, rfl⟩ := List.head?_eq_some_iff.mp (eq_of_beq hhead)
  have hsep : (38 : UInt8) ≠ 64 := by decide
  have hrest : ∀ b ∈ rest, b ≠ 64 := by
    refine forall_mem_of_splitOn (p := fun b => b ≠ 64) hsep fun g hg b hb heq => ?_
    subst heq
    exact notMem_of_isHeader (List.all_eq_true.mp hall g hg) hb
  rw [List.mem_cons]
  rintro (heq | hmem)
  · cases heq
  · exact hrest 64 hmem rfl

/-- The headers begin at the first "?". -/
theorem headersOf_append {body : Bytes} (hbody : 63 ∉ body) {headers : Option Bytes}
    (hheaders : headers.all isHeaders = true) :
    headersOf (body ++ headers.getD []) = headers ∧ (body ++ headers.getD []).takeWhile (· ≠ 63) = body := by
  unfold headersOf
  cases headers with
  | none =>
    rw [Option.getD_none, List.append_nil, if_neg hbody]
    exact ⟨rfl, takeWhile_ne_of_notMem hbody⟩
  | some h =>
    have hhead := (Bool.and_eq_true_iff.mp hheaders).1
    obtain ⟨rest, rfl⟩ := List.head?_eq_some_iff.mp (eq_of_beq hhead)
    rw [Option.getD_some, if_pos (List.mem_append_right _ List.mem_cons_self), dropWhile_ne_append hbody]
    exact ⟨rfl, takeWhile_ne_append hbody rest⟩

/-! ## What stands behind the userinfo -/

/-- The text of the parts. -/
def HostPart.text (part : HostPart) : Bytes :=
  part.host ++ (part.port.elim [] fun digits => 58 :: digits) ++ part.params.flatMap (59 :: ·) ++ part.headers.getD []

/-- The parts are what the grammar asks for. -/
structure HostPart.Valid (part : HostPart) : Prop where
  host : findHost part.host = some part.hostType
  port : ∀ digits ∈ part.port, isPort digits = true
  params : part.params.all isSipUriParam = true
  headers : part.headers.all isHeaders = true

theorem notMem_hostPort {part : HostPart} (h : part.Valid) {c : UInt8}
    (hhost : (hostAlternatives.all fun alternative => Regex.avoids c alternative.2) = true) (hcolon : c ≠ 58)
    (hdigit : isDigit c = false) : c ∉ part.host ++ part.port.elim [] fun digits => 58 :: digits := by
  rw [List.mem_append]
  rintro (hmem | hmem)
  · exact notMem_of_findHost hhost h.host hmem
  · cases hport : part.port with
    | none =>
      rw [hport] at hmem
      cases hmem
    | some digits =>
      rw [hport, Option.elim_some, List.mem_cons] at hmem
      rcases hmem with heq | hmem
      · exact hcolon heq
      · exact notMem_of_isPort (h.port digits hport) hdigit hmem

theorem notMem_params {part : HostPart} (h : part.Valid) {c : UInt8} (hc : CutsParams c) (hsep : c ≠ 59) :
    c ∉ part.params.flatMap (59 :: ·) := by
  rw [List.mem_flatMap]
  rintro ⟨param, hparam, hmem⟩
  rcases List.mem_cons.mp hmem with heq | hmem
  · exact hsep heq
  · exact hc.notMem_of_isSipUriParam (List.all_eq_true.mp h.params param hparam) hmem

/-- Valid parts are read from their text. -/
theorem readHostPart_text {part : HostPart} (h : part.Valid) : readHostPart part.text = some part := by
  have hbody : 63 ∉ part.host ++ (part.port.elim [] fun digits => 58 :: digits) ++ part.params.flatMap (59 :: ·) := by
    rw [List.mem_append]
    rintro (hmem | hmem)
    · exact notMem_hostPort h (by decide) (by decide) (by decide) hmem
    · exact notMem_params h cutsParams_question (by decide) hmem
  obtain ⟨hheaders, hcut⟩ := headersOf_append hbody h.headers
  have hsplit := splitOn_append_flatMap (notMem_hostPort h (c := 59) (by decide) (by decide) (by decide))
    fun param hparam => cutsParams_semicolon.notMem_of_isSipUriParam (List.all_eq_true.mp h.params param hparam)
  unfold readHostPart HostPart.text
  rw [hcut, hsplit, hheaders]
  dsimp only
  rw [h.params, h.headers, readHostPort_append h.host h.port]
  rfl

theorem takeWhile_append_headersOf (text : Bytes) :
    text.takeWhile (· ≠ 63) ++ (headersOf text).getD [] = text := by
  unfold headersOf
  split
  · exact List.takeWhile_append_dropWhile
  · next h => rw [Option.getD_none, List.append_nil, takeWhile_ne_of_notMem h]

theorem headersOf_cases (text : Bytes) : headersOf text = none ∨ ∃ rest, headersOf text = some (63 :: rest) := by
  unfold headersOf
  split
  · next h =>
    obtain ⟨front, rest, rfl, hfront⟩ := List.eq_append_cons_of_mem h
    rw [dropWhile_ne_append hfront]
    exact .inr ⟨rest, rfl⟩
  · exact .inl rfl

theorem of_readHostPort {text : Bytes} {hostPort : HostPort} (h : readHostPort text = some hostPort) :
    findHost hostPort.host = some hostPort.hostType ∧ (∀ digits ∈ hostPort.port, isPort digits = true) ∧
      text = hostPort.host ++ hostPort.port.elim [] fun digits => 58 :: digits := by
  unfold readHostPort at h
  obtain ⟨hostType, hhost, hrest⟩ := Option.bind_eq_some_iff.mp h
  have htext := List.take_append_drop (hostLength text) text
  cases hdrop : text.drop (hostLength text) with
  | nil =>
    rw [hdrop] at hrest htext
    obtain rfl := Option.some.inj hrest
    exact ⟨hhost, nofun, htext.symm⟩
  | cons c port =>
    rw [hdrop] at hrest htext
    dsimp only at hrest
    split at hrest
    · next hport =>
      obtain ⟨rfl, hport⟩ := hport
      obtain rfl := Option.some.inj hrest
      refine ⟨hhost, ?_, htext.symm⟩
      rintro _ ⟨⟩
      exact hport
    · cases hrest

/-- What is read is valid, and the text of its parts. -/
theorem of_readHostPart {text : Bytes} {part : HostPart} (h : readHostPart text = some part) :
    part.Valid ∧ text = part.text := by
  unfold readHostPart at h
  cases hsplit : (text.takeWhile (· ≠ 63)).splitOn 59 with
  | nil =>
    rw [hsplit] at h
    cases h
  | cons head params =>
    rw [hsplit] at h
    dsimp only at h
    split at h
    · next hchecks =>
      obtain ⟨hparams, hheaders⟩ := Bool.and_eq_true_iff.mp hchecks
      obtain ⟨hostPort, hread, rfl⟩ := Option.map_eq_some_iff.mp h
      obtain ⟨hhost, hport, rfl⟩ := of_readHostPort hread
      refine ⟨⟨hhost, hport, hparams, hheaders⟩, ?_⟩
      unfold HostPart.text
      dsimp only
      rw [← (of_splitOn_eq hsplit).1]
      exact (takeWhile_append_headersOf text).symm
    · cases h

theorem notMem_text {part : HostPart} (h : part.Valid) : 64 ∉ part.text := by
  unfold HostPart.text
  rw [List.mem_append, List.mem_append]
  rintro ((hmem | hmem) | hmem)
  · exact notMem_hostPort h (by decide) (by decide) (by decide) hmem
  · exact notMem_params h cutsParams_at (by decide) hmem
  · cases hheaders : part.headers with
    | none =>
      rw [hheaders] at hmem
      cases hmem
    | some headers =>
      have hvalid := h.headers
      rw [hheaders] at hmem hvalid
      exact notMem_of_isHeaders hvalid hmem

/-! ## Printed parameters -/

/-- `k`, and `"=" << v` if there is a value. -/
def entryText (entry : Bytes × Option Bytes) : Bytes := entry.1 ++ entry.2.elim [] fun v => 61 :: v

/-- An entry that the parser has written. -/
structure IsParsedEntry (entry : Bytes × Option Bytes) : Prop where
  name : IsEntryName entry.1
  downcase : downcase entry.1 = entry.1
  value : ∀ v ∈ entry.2, isParamText v = true

theorem IsEntryName.downcase {k : Bytes} (h : IsEntryName k) : IsEntryName (downcase k) := by
  rcases h with hk | ⟨pname, hpname, rfl⟩
  · exact .inl ((isParamText_downcase k).trans hk)
  · exact .inr ⟨OverSip.downcase pname, (isParamText_downcase pname).trans hpname, List.map_append⟩

theorem isParsedEntry_of_written {read : ParamRead} {entry : Bytes × Option Bytes} (h : read.written = some entry) :
    IsParsedEntry entry := by
  cases read with
  | begun param => cases h
  | whole param =>
    obtain ⟨⟨k, v⟩, hentry, rfl⟩ := Option.map_eq_some_iff.mp h
    obtain ⟨hk, hv, _⟩ := paramEntry_eq_some_iff.mp hentry
    exact ⟨hk.downcase, downcase_downcase k, hv⟩

/-- A printed entry is read as what it is. -/
theorem paramEntry_entryText {entry : Bytes × Option Bytes} (h : IsParsedEntry entry) :
    paramEntry (entryText entry) = some entry :=
  paramEntry_eq_some_iff.mpr ⟨h.name, h.value, rfl⟩

theorem written_entryText {entry : Bytes × Option Bytes} (h : IsParsedEntry entry) :
    (ParamRead.whole (entryText entry)).written = some entry := by
  show (paramEntry (entryText entry)).map _ = some entry
  rw [paramEntry_entryText h, Option.map_some, h.downcase]

theorem isSipUriParam_entryText {entry : Bytes × Option Bytes} (h : IsParsedEntry entry) :
    isSipUriParam (entryText entry) = true := by
  unfold isSipUriParam
  rw [paramEntry_entryText h]
  rfl

theorem filterMap_written_entryText {entries : List (Bytes × Option Bytes)} (h : ∀ entry ∈ entries, IsParsedEntry entry) :
    (entries.map fun entry => ParamRead.whole (entryText entry)).filterMap ParamRead.written = entries := by
  induction entries with
  | nil => rfl
  | cons entry entries ih =>
    rw [List.forall_mem_cons] at h
    rw [List.map_cons, List.filterMap_cons_some (written_entryText h.1), ih h.2]

theorem paramsText_eq (params : Option UriParams) :
    paramsText params = (((params.getD .empty).entries.map entryText).flatMap (59 :: ·)) := by
  rw [List.flatMap_map]
  cases params with
  | none => rfl
  | some params => rfl

/-- The number of a port. -/
theorem port_range {digits : Bytes} (h : isPort digits = true) {n : ℕ}
    (hn : (strToInt digits digits.length).toNat = n) : 1 ≤ n ∧ n ≤ 65535 := by
  obtain ⟨hall, hport⟩ := Bool.and_eq_true_iff.mp h
  have hisPort : IsPort (portDigits digits) := of_decide_eq_true hport
  rw [strToInt_of_isPort h, Int.toNat_natCast] at hn
  rw [← hn]
  exact ⟨hisPort.value_pos, hisPort.value_le (lt_of_mem_portDigits hall)⟩

/-! ## Parsed fields -/

namespace SipUriParts

variable (inet : Inet) (p : SipUriParts)

/-- What the parameters of the text write. -/
def written : List (Bytes × Option Bytes) := p.reads.filterMap ParamRead.written

theorem allParams_fields : (p.fields inet).allParams = OrderedMap.empty.setAll p.written :=
  allParams_foldl (p.otherFields inet) p.reads

/-- The parameters change nothing else. -/
theorem fields_eq : p.fields inet = { p.otherFields inet with
    params := (p.fields inet).params
    transportParam := (p.fields inet).transportParam
    ovidParam := (p.fields inet).ovidParam
    lrParam := (p.fields inet).lrParam
    obParam := (p.fields inet).obParam } :=
  foldl_apply_eq (p.otherFields inet) p.reads

theorem port_fields :
    (p.fields inet).port = p.hostPart.port.map fun port => (strToInt port port.length).toNat := by
  rw [fields_eq]
  rfl

theorem isParsedEntry_of_mem {entry : Bytes × Option Bytes} (h : entry ∈ (p.fields inet).allParams.entries) :
    IsParsedEntry entry := by
  rw [allParams_fields] at h
  rcases OrderedMap.mem_setAll h with hmem | hmem
  · obtain ⟨read, _, hread⟩ := List.mem_filterMap.mp hmem
    exact isParsedEntry_of_written hread
  · cases hmem

end SipUriParts

/-! ## The user -/

section

variable {u m : Bytes}

/-- A mark of parameters stands behind a "=", or it is the one of the headers. -/
theorem mark_scanParams {headers : Option Bytes} {params : List Bytes}
    (h : (scanParams headers params).mark = some m) :
    ∃ front, params.flatMap (59 :: ·) ++ headers.getD [] = front ++ 61 :: m ∨
      headers = some m ∧ params.flatMap (59 :: ·) ++ headers.getD [] = front ++ m := by
  induction params with
  | nil => exact ⟨[], .inr ⟨h, congrArg (Option.getD · []) h⟩⟩
  | cons param params ih =>
    have hvalue : ((valueMark param).map fun value =>
        value ++ params.flatMap (fun param => 59 :: param) ++ headers.getD []) = some m →
          ∃ front, (param :: params).flatMap (59 :: ·) ++ headers.getD [] = front ++ 61 :: m := by
      intro hm
      obtain ⟨value, hmark, rfl⟩ := Option.map_eq_some_iff.mp hm
      obtain ⟨hor, _⟩ := Option.filter_eq_some_iff.mp hmark
      have hbehind : ∃ name, valueBehind name param = some value := by
        rcases Option.or_eq_some_iff.mp hor with hname | ⟨_, hname⟩
        · exact ⟨_, hname⟩
        · exact ⟨_, hname⟩
      obtain ⟨name, hname⟩ := hbehind
      obtain ⟨k, _, rfl⟩ := valueBehind_eq_some_iff.mp hname
      refine ⟨59 :: k, ?_⟩
      rw [List.flatMap_cons]
      simp only [List.cons_append, List.append_assoc]
    unfold scanParams at h
    dsimp only at h
    split at h
    · obtain ⟨front, hfront⟩ := hvalue h
      exact ⟨front, .inl hfront⟩
    · split at h
      · rcases Option.or_eq_some_iff.mp h with hm | ⟨_, hm⟩
        · obtain ⟨front, hfront | ⟨hheaders, hfront⟩⟩ := ih hm
          · refine ⟨59 :: param ++ front, .inl ?_⟩
            rw [List.flatMap_cons, List.append_assoc, hfront, List.append_assoc]
          · refine ⟨59 :: param ++ front, .inr ⟨hheaders, ?_⟩⟩
            rw [List.flatMap_cons, List.append_assoc, hfront, List.append_assoc]
        · obtain ⟨front, hfront⟩ := hvalue hm
          exact ⟨front, .inl hfront⟩
      · obtain ⟨front, hfront⟩ := hvalue h
        exact ⟨front, .inl hfront⟩

/-- The rest behind such a character is shorter. -/
theorem length_lt_of_cut {c : UInt8} (hc : isUriChar c = true) (hhex : isHexdig c = false) {front rest : Bytes}
    (h : escapeUri u = front ++ c :: rest) :
    (hexUnescape rest).length < u.length ∧ (front ≠ [] → (hexUnescape (c :: rest)).length < u.length) := by
  obtain ⟨u₁, u₂, rfl, rfl, rfl⟩ := escapeUri_eq_append_cons hc hhex h
  have hpercent : c ≠ 37 := by
    rintro rfl
    exact absurd hc (by decide)
  rw [hexUnescape_cons hpercent, hexUnescape_escapeUri, List.length_append, List.length_cons]
  refine ⟨by omega, fun hfront => ?_⟩
  have hpos : 0 < u₁.length := by
    apply List.length_pos_of_ne_nil
    rintro rfl
    exact hfront rfl
  omega

/-- Where a port ends, in a text that goes on with parameters or headers. -/
theorem length_lt_of_port {front port rest : Bytes} (h : escapeUri u = front ++ 58 :: (port ++ rest))
    (hrest : rest = [] ∨ ∃ c rest', rest = c :: rest' ∧ (c = 59 ∨ c = 63)) : (hexUnescape port).length < u.length := by
  obtain ⟨u₁, u₂, rfl, rfl, hport⟩ := escapeUri_eq_append_cons (by decide) (by decide) h
  rw [List.length_append, List.length_cons]
  rcases hrest with rfl | ⟨c, rest', rfl, hc⟩
  · rw [List.append_nil] at hport
    rw [hport, hexUnescape_escapeUri]
    omega
  · have hchar : isUriChar c = true ∧ isHexdig c = false := by
      rcases hc with rfl | rfl <;> exact ⟨by decide, by decide⟩
    obtain ⟨u₃, u₄, rfl, rfl, _⟩ := escapeUri_eq_append_cons hchar.1 hchar.2 hport.symm
    rw [hexUnescape_escapeUri, List.length_append]
    omega

/-- **The mark cuts.** What stands from it on is shorter, also when it is read back. -/
theorem length_lt_of_mark (h : (scanUserinfo (escapeUri u)).mark = some m) :
    (hexUnescape m).length < u.length := by
  have hcut := takeWhile_append_headersOf (escapeUri u)
  unfold scanUserinfo at h
  cases hsplit : ((escapeUri u).takeWhile (· ≠ 63)).splitOn 59 with
  | nil =>
    rw [hsplit] at h
    cases h
  | cons head params =>
    rw [hsplit] at h
    rw [(of_splitOn_eq hsplit).1, List.append_assoc] at hcut
    dsimp only at h
    split at h
    · next hcolon =>
      obtain ⟨name, port, rfl, hname⟩ := List.eq_append_cons_of_mem hcolon
      rw [drop_takeWhile_ne_append hname, takeWhile_ne_append hname] at h
      split at h
      · obtain rfl := Option.some.inj h
        rw [List.append_assoc, List.cons_append] at hcut
        apply length_lt_of_port hcut.symm
        cases params with
        | cons param params => exact .inr ⟨59, _, rfl, .inl rfl⟩
        | nil =>
          rcases headersOf_cases (escapeUri u) with hheaders | ⟨rest, hheaders⟩
          · rw [hheaders]
            exact .inl rfl
          · rw [hheaders]
            exact .inr ⟨63, rest, rfl, .inr rfl⟩
      · cases h
    · split at h
      · next hhost =>
        obtain ⟨hostType, hhost⟩ := Option.isSome_iff_exists.mp hhost
        obtain ⟨front, hfront | ⟨hheaders, hfront⟩⟩ := mark_scanParams h
        · rw [hfront, ← List.append_assoc] at hcut
          exact (length_lt_of_cut (by decide) (by decide) hcut.symm).1
        · obtain ⟨rest, rfl⟩ : ∃ rest, m = 63 :: rest := by
            rcases headersOf_cases (escapeUri u) with hnone | ⟨rest, hsome⟩
            · rw [hnone] at hheaders
              cases hheaders
            · rw [hsome] at hheaders
              exact ⟨rest, (Option.some.inj hheaders).symm⟩
          rw [hfront, ← List.append_assoc] at hcut
          refine (length_lt_of_cut (by decide) (by decide) hcut.symm).2 fun hnil => ?_
          exact ne_nil_of_findHost hhost (List.append_eq_nil_iff.mp hnil).1
      · cases h

end

/-! ## Reading a printed URI -/

/-- `"sip:"` or `"sips:"` -/
def UriScheme.text : UriScheme → Bytes
  | .sips => ascii "sips:"
  | _ => ascii "sip:"

theorem readScheme_text {scheme : UriScheme} (h : scheme = .sip ∨ scheme = .sips) (rest : Bytes) :
    readScheme (scheme.text ++ rest) = some (scheme, rest) := by
  rcases h with rfl | rfl
  · rfl
  · rfl

theorem notMem_of_isUserinfo {userinfo : Bytes} (h : isUserinfo userinfo = true) : 64 ∉ userinfo := by
  unfold isUserinfo at h
  dsimp only at h
  simp only [Bool.and_eq_true] at h
  obtain ⟨⟨_, huser⟩, hpassword⟩ := h
  have hchars : isUserChar 64 = false ∧ isPasswordChar 64 = false := ⟨by decide, by decide⟩
  by_cases hcolon : 58 ∈ userinfo
  · obtain ⟨user, password, rfl, hcut⟩ := List.eq_append_cons_of_mem hcolon
    rw [takeWhile_ne_append hcut] at huser
    rw [drop_takeWhile_ne_append hcut] at hpassword
    rw [List.mem_append, List.mem_cons]
    rintro (hmem | heq | hmem)
    · exact notMem_of_isEscapedText (by decide) (by decide) hchars.1 huser hmem
    · cases heq
    · exact notMem_of_isEscapedText (by decide) (by decide) hchars.2 hpassword hmem
  · rw [takeWhile_ne_of_notMem hcolon] at huser
    exact notMem_of_isEscapedText (by decide) (by decide) hchars.1 huser

section

variable {scheme : UriScheme} {part : HostPart}

theorem readSipUri_hostPart (hscheme : scheme = .sip ∨ scheme = .sips) (hpart : part.Valid) :
    readSipUri (scheme.text ++ part.text) = some { scheme, userinfo := none, hostPart := part } := by
  unfold readSipUri
  rw [readScheme_text hscheme, Option.bind_some, if_neg (notMem_text hpart), readHostPart_text hpart]
  rfl

/-- With a user; no other "@" can stand in a URI. -/
theorem readSipUri_userinfo (hscheme : scheme = .sip ∨ scheme = .sips) (hpart : part.Valid) (userinfo : Bytes) :
    readSipUri (scheme.text ++ (userinfo ++ 64 :: part.text)) =
      if isUserinfo userinfo then some { scheme, userinfo := some userinfo, hostPart := part } else none := by
  have hat : 64 ∈ userinfo ++ 64 :: part.text := List.mem_append_right _ List.mem_cons_self
  unfold readSipUri
  rw [readScheme_text hscheme, Option.bind_some, if_pos hat]
  dsimp only
  by_cases hmem : 64 ∈ userinfo
  · obtain ⟨front, rest, rfl, hfront⟩ := List.eq_append_cons_of_mem hmem
    have hno : isUserinfo (front ++ 64 :: rest) = false := by
      rw [Bool.eq_false_iff]
      exact fun htrue => notMem_of_isUserinfo htrue hmem
    have hnone : readHostPart (rest ++ 64 :: part.text) = none := by
      by_contra hne
      obtain ⟨part', hpart'⟩ := Option.ne_none_iff_exists'.mp hne
      obtain ⟨hvalid, htext⟩ := of_readHostPart hpart'
      apply notMem_text hvalid
      rw [← htext]
      exact List.mem_append_right _ List.mem_cons_self
    rw [List.append_assoc, List.cons_append, drop_takeWhile_ne_append hfront, hnone, hno]
    exact ite_self none
  · rw [drop_takeWhile_ne_append hmem, takeWhile_ne_append hmem, readHostPart_text hpart]
    rfl

end

/-! ## Printed fields -/

/-- The same URI; the order of the parameters does not count. -/
structure UriFields.SameUri (f f' : UriFields) : Prop where
  scheme : f'.scheme = f.scheme
  user : f'.user = f.user
  host : f'.host = f.host
  hostType : f'.hostType = f.hostType
  port : f'.port = f.port
  params : ∀ k, f'.allParams.find? k = f.allParams.find? k
  headers : f'.headers = f.headers

/-- The user, as it is printed, is a userinfo, and the machine takes it for no more than a user: it sets no mark in
it, and what it reads as parameters are parameters of the URI anyway. -/
structure UriFields.PrintsUser (f : UriFields) (user : Bytes) : Prop where
  userinfo : isUserinfo (escapeUri user) = true
  mark : (scanUserinfo (escapeUri user)).mark = none
  params : ∀ entry ∈ (scanUserinfo (escapeUri user)).reads.filterMap ParamRead.written,
    f.allParams.find? entry.1 ≠ none

/-- Fields of a SIP or SIPS URI for which, but for the user, the grammar has texts. -/
structure UriFields.Printable (inet : Inet) (f : UriFields) (host : Bytes) (hostType : HostType) : Prop where
  scheme : f.scheme = .sip ∨ f.scheme = .sips
  host_eq : f.host = some host
  hostType_eq : f.hostType = some hostType
  found : findHost host = some hostType
  normal : uriHost inet hostType host = some host
  port : ∀ n ∈ f.port, 1 ≤ n ∧ n ≤ 65535
  params : ∀ entry ∈ f.allParams.entries, IsParsedEntry entry
  headers : f.headers.all isHeaders = true

namespace UriFields

variable {inet : Inet} {f : UriFields} {host : Bytes} {hostType : HostType}

/-- What stands behind the userinfo in the text of the fields. -/
def printedHostPart (f : UriFields) (host : Bytes) (hostType : HostType) : HostPart where
  host
  hostType
  port := f.port.map Numerals.decimal
  params := f.allParams.entries.map entryText
  headers := f.headers

theorem Printable.hostPart_valid (h : f.Printable inet host hostType) : (f.printedHostPart host hostType).Valid := by
  refine ⟨h.found, ?_, ?_, h.headers⟩
  · intro digits hdigits
    obtain ⟨n, hn, rfl⟩ := Option.map_eq_some_iff.mp hdigits
    exact isPort_decimal (h.port n hn).1 (h.port n hn).2
  · rw [printedHostPart, List.all_map, List.all_eq_true]
    exact fun entry hentry => isSipUriParam_entryText (h.params entry hentry)

theorem text_printedHostPart (f : UriFields) (host : Bytes) (hostType : HostType) :
    (f.printedHostPart host hostType).text = host ++ f.portText ++ paramsText f.params ++ f.headers.getD [] := by
  have hport : (f.port.map Numerals.decimal).elim [] (fun digits => 58 :: digits) = f.portText := by
    unfold portText
    cases f.port with
    | none => rfl
    | some port => rfl
  unfold HostPart.text printedHostPart
  dsimp only
  rw [hport, paramsText_eq]
  rfl

/-- The text that `uri` writes. -/
def printed (f : UriFields) (host : Bytes) (hostType : HostType) : Bytes :=
  f.scheme.text ++ (f.userText escapeUri ++ (f.printedHostPart host hostType).text)

theorem Printable.write (h : f.Printable inet host hostType) :
    f.write escapeUri = some (f.printed host hostType, true) := by
  have hsip : ∀ scheme, write.sipText escapeUri f scheme =
      (scheme ++ (f.userText escapeUri ++ (f.printedHostPart host hostType).text), true) := by
    intro scheme
    unfold write.sipText
    rw [h.host_eq, text_printedHostPart]
    simp only [List.append_assoc]
  unfold UriFields.write printed
  rcases h.scheme with hs | hs
  · rw [hs]
    exact congrArg some (hsip _)
  · rw [hs]
    exact congrArg some (hsip _)

/-- What is read of the printed text. -/
def reprinted (f : UriFields) (host : Bytes) (hostType : HostType) : SipUriParts where
  scheme := f.scheme
  userinfo := f.user.map escapeUri
  hostPart := f.printedHostPart host hostType

/-- The printed text is accepted, unless the user is no userinfo. -/
theorem Printable.readSipUri (h : f.Printable inet host hostType) :
    readSipUri (f.printed host hostType) =
      if f.user.all fun user => isUserinfo (escapeUri user) then some (f.reprinted host hostType) else none := by
  unfold printed userText reprinted
  cases f.user with
  | none => exact readSipUri_hostPart h.scheme h.hostPart_valid
  | some user =>
    rw [Option.elim_some, List.append_assoc, List.singleton_append, readSipUri_userinfo h.scheme h.hostPart_valid]
    rfl

/-- The parameters that are read of the printed text: those that stand in the user first, and then those of the
map. -/
theorem Printable.find?_reprinted (h : f.Printable inet host hostType) (k : Bytes) :
    ((f.reprinted host hostType).fields inet).allParams.find? k =
      (f.allParams.find? k).or
        ((OrderedMap.empty.setAll ((f.reprinted host hostType).scan.reads.filterMap ParamRead.written)).find? k) := by
  have hwritten : (f.reprinted host hostType).written =
      (f.reprinted host hostType).scan.reads.filterMap ParamRead.written ++ f.allParams.entries := by
    unfold SipUriParts.written SipUriParts.reads
    rw [List.filterMap_append]
    have hparams : (f.reprinted host hostType).hostPart.params.map ParamRead.whole =
        f.allParams.entries.map fun entry => ParamRead.whole (entryText entry) := List.map_map
    rw [hparams, filterMap_written_entryText h.params]
  rw [SipUriParts.allParams_fields, hwritten]
  unfold OrderedMap.setAll
  rw [List.foldl_append]
  exact OrderedMap.find?_setAll_entries _ _ k

theorem user_reprinted_iff (f : UriFields) (host : Bytes) (hostType : HostType) :
    (f.reprinted host hostType).user = f.user ↔ ∀ user ∈ f.user, (scanUserinfo (escapeUri user)).mark = none := by
  have huser : (f.reprinted host hostType).user = (f.user.map escapeUri).map fun userinfo =>
      hexUnescape (((f.user.map escapeUri).elim { reads := [], mark := none } scanUserinfo).mark.getD userinfo) := rfl
  rw [huser]
  cases f.user with
  | none => exact iff_of_true rfl nofun
  | some user =>
    show some (hexUnescape ((scanUserinfo (escapeUri user)).mark.getD (escapeUri user))) = some user ↔ _
    cases hmark : (scanUserinfo (escapeUri user)).mark with
    | none =>
      rw [Option.getD_none, hexUnescape_escapeUri]
      refine iff_of_true rfl ?_
      rintro _ ⟨⟩
      exact hmark
    | some mark =>
      refine iff_of_false (fun heq => ?_) fun hall => ?_
      · have hlt := length_lt_of_mark hmark
        rw [Option.getD_some] at heq
        rw [Option.some.inj heq] at hlt
        exact Nat.lt_irrefl _ hlt
      · have hnone := hall user rfl
        rw [hmark] at hnone
        cases hnone

theorem Printable.params_reprinted_iff (h : f.Printable inet host hostType) :
    (∀ k, ((f.reprinted host hostType).fields inet).allParams.find? k = f.allParams.find? k) ↔
      ∀ user ∈ f.user, ∀ entry ∈ (scanUserinfo (escapeUri user)).reads.filterMap ParamRead.written,
        f.allParams.find? entry.1 ≠ none := by
  have hscan : ∀ entry, entry ∈ (f.reprinted host hostType).scan.reads.filterMap ParamRead.written ↔
      ∃ user ∈ f.user, entry ∈ (scanUserinfo (escapeUri user)).reads.filterMap ParamRead.written := by
    intro entry
    unfold SipUriParts.scan reprinted
    dsimp only
    cases f.user with
    | none => exact iff_of_false List.not_mem_nil nofun
    | some user => exact ⟨fun h => ⟨user, rfl, h⟩, fun ⟨_, huser, h⟩ => Option.some.inj huser ▸ h⟩
  constructor
  · intro hall user huser entry hentry hnone
    have hk := hall entry.1
    rw [h.find?_reprinted, hnone, Option.none_or, OrderedMap.find?_setAll_eq_none_iff] at hk
    exact hk.1 (List.mem_map_of_mem ((hscan entry).mpr ⟨user, huser, hentry⟩))
  · intro hall k
    rw [h.find?_reprinted]
    cases hfind : f.allParams.find? k with
    | some v => rfl
    | none =>
      rw [Option.none_or, OrderedMap.find?_setAll_eq_none_iff]
      refine ⟨fun hmem => ?_, rfl⟩
      obtain ⟨entry, hentry, rfl⟩ := List.mem_map.mp hmem
      obtain ⟨user, huser, hread⟩ := (hscan entry).mp hentry
      exact hall user huser entry hread hfind

theorem Printable.port_reprinted (h : f.Printable inet host hostType) :
    ((f.reprinted host hostType).fields inet).port = f.port := by
  have hprinted : (f.reprinted host hostType).hostPart.port = f.port.map Numerals.decimal := rfl
  rw [SipUriParts.port_fields, hprinted]
  cases hport : f.port with
  | none => rfl
  | some n =>
    obtain ⟨hpos, hle⟩ := h.port n hport
    show some (strToInt (Numerals.decimal n) (Numerals.decimal n).length).toNat = some n
    rw [strToInt_decimal hpos hle, Int.toNat_natCast]

/-- **Reading back.** The printed text is read as the same URI if and only if the user is printed as one. -/
theorem Printable.readsBack_iff (h : f.Printable inet host hostType) :
    (∃ f', parseSipUri inet (f.printed host hostType) = some f' ∧ f.SameUri f') ↔
      ∀ user ∈ f.user, f.PrintsUser user := by
  unfold parseSipUri
  rw [h.readSipUri]
  have hall : (f.user.all fun user => isUserinfo (escapeUri user)) = true ↔
      ∀ user ∈ f.user, isUserinfo (escapeUri user) = true := by
    cases f.user with
    | none => exact iff_of_true rfl nofun
    | some user => exact ⟨fun h _ huser => Option.some.inj huser ▸ h, fun h => h user rfl⟩
  constructor
  · rintro ⟨f', hread, hsame⟩
    split at hread
    · next huserinfo =>
      obtain rfl := Option.some.inj hread
      have huser : (f.reprinted host hostType).user = f.user := by
        have heq := hsame.user
        rw [SipUriParts.fields_eq] at heq
        exact heq
      intro user hmem
      exact ⟨hall.mp huserinfo user hmem, (user_reprinted_iff f host hostType).mp huser user hmem,
        h.params_reprinted_iff.mp hsame.params user hmem⟩
    · cases hread
  · intro hprints
    rw [if_pos (hall.mpr fun user hmem => (hprints user hmem).userinfo)]
    refine ⟨(f.reprinted host hostType).fields inet, rfl, ?_⟩
    have huser := (user_reprinted_iff f host hostType).mpr fun user hmem => (hprints user hmem).mark
    have hparams := h.params_reprinted_iff.mpr fun user hmem => (hprints user hmem).params
    refine ⟨?_, ?_, ?_, ?_, h.port_reprinted, hparams, ?_⟩
    all_goals rw [SipUriParts.fields_eq]
    · rfl
    · exact huser
    · exact h.normal.trans h.host_eq.symm
    · exact h.hostType_eq.symm
    · rfl

end UriFields

end OverSip
