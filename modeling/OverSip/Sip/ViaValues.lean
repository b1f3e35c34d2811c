import Mathlib.Data.List.DropRight
import OverSip.Lib.QuotedParts
import OverSip.Sip.HeaderMarks
import OverSip.Sip.SipUriPrinting
import OverSip.Utils.IpTexts

/-!
# Via values

The grammar of a Via value (`via_value` in `grammar_sip_headers.rl`) as a reader. No token and no host has a ";", so
what is sent by whom stands before the first one; the parameters stand between the others that are outside quotes.
White space may stand around each piece, but not at the end of the value, which is stored without it.

`readVia_text` says that a value that is written from a core and parameters is read back as them.
-/

namespace OverSip

open Regex GrammarSipUri GrammarIp

/-! ## The grammar -/

namespace GrammarVia

def wsp : Regex UInt8 := cls [(32, 32), (9, 9)]

/-- `( WSP* CRLF )? WSP+` -/
def lws : Regex UInt8 := cat (opt (seq [star wsp, cls [(13, 13)], cls [(10, 10)]])) (plus wsp)

def sws : Regex UInt8 := opt lws

def utf8Cont : Regex UInt8 := cls [(0x80, 0xbf)]

def utf8Nonascii : Regex UInt8 :=
  oneOf
    [seq [cls [(0xc0, 0xdf)], utf8Cont], seq [cls [(0xe0, 0xef)], times 2 utf8Cont],
      seq [cls [(0xf0, 0xf7)], times 3 utf8Cont], seq [cls [(0xf8, 0xfb)], times 4 utf8Cont],
      seq [cls [(0xfc, 0xfd)], times 5 utf8Cont]]

def qdtext : Regex UInt8 := oneOf [lws, cls [(33, 33)], cls [(0x23, 0x5b)], cls [(0x5d, 0x7e)], utf8Nonascii]

def quotedPair : Regex UInt8 := seq [cls [(92, 92)], cls [(0x00, 0x09), (0x0b, 0x0c), (0x0e, 0x7f)]]

def quotedString : Regex UInt8 := seq [cls [(34, 34)], star (alt qdtext quotedPair), cls [(34, 34)]]

end GrammarVia

open GrammarVia

def isSws (s : Bytes) : Bool := accepts sws s

/-- A ";" separates, but not between quotes. -/
def semis : Quoting UInt8 where
  separator := 59
  quote := 34
  escape := 92

/-- `token | host | quoted_string` -/
def isHeaderParamGenValue (s : Bytes) : Bool := isToken s || (findHost s).isSome || accepts quotedString s

/-- A text without the white space on its sides. -/
def trimSws (s : Bytes) : Option Bytes :=
  let rest := s.dropWhile isWhite
  if isSws (s.takeWhile isWhite) && isSws (rest.rtakeWhile isWhite) then some (rest.rdropWhile isWhite) else none

/-- `SWS c SWS`, with the white space before it, and what stands behind. -/
def readBehind (c : UInt8) (s : Bytes) : Option (Bytes × Bytes) :=
  match s.dropWhile isWhite with
  | [] => none
  | d :: rest =>
    if d = c ∧ isSws (s.takeWhile isWhite) = true ∧ isSws (rest.takeWhile isWhite) = true then
      some (s.takeWhile isWhite, rest.dropWhile isWhite)
    else none

/-! ## What stands before the parameters -/

/-- `via_sent_protocol LWS via_sent_by` -/
structure ViaSent where
  protocolName : Bytes
  protocolVersion : Bytes
  transport : Bytes
  host : Bytes
  port : Option Bytes
deriving DecidableEq, Repr

/-- Where the host of `via_sent_by` ends. -/
def sentByHostLength (text : Bytes) : ℕ :=
  if text.head? = some 91 then (text.takeWhile (· ≠ 93)).length + 1
  else (text.takeWhile fun b => b != 58 && !isWhite b).length

/-- `host ( COLON port )?` -/
def readSentBy (text : Bytes) : Option (Bytes × Option Bytes) :=
  let host := text.take (sentByHostLength text)
  let rest := text.drop (sentByHostLength text)
  if (findHost host).isSome then
    if rest = [] then some (host, none)
    else (readBehind 58 rest).bind fun behind => if isPort behind.2 then some (host, some behind.2) else none
  else none

/-- No token and no host has a "/". -/
def readSent (core : Bytes) : Option ViaSent :=
  match core.splitOn 47 with
  | [name, version, rest] =>
    let protocolName := name.rdropWhile isWhite
    let behind := rest.dropWhile isWhite
    let transport := behind.takeWhile isTokenChar
    let sentBy := behind.dropWhile isTokenChar
    if isToken protocolName && isSws (name.rtakeWhile isWhite) && isSws (rest.takeWhile isWhite) &&
        isToken transport && accepts lws (sentBy.takeWhile isWhite) then
      ((trimSws version).filter isToken).bind fun protocolVersion =>
      (readSentBy (sentBy.dropWhile isWhite)).map fun hostPort =>
        ⟨protocolName, protocolVersion, transport, hostPort.1, hostPort.2⟩
    else none
  | _ => none

/-! ## Parameters -/

/-- `via_param`. An `other` one has its value with the white space before the "=". -/
inductive ViaParam
  | branch (value : Bytes)
  | received (ip : Bytes)
  | rport (port : Option Bytes)
  | hasAlias (value : Option Bytes)
  | other (name : Bytes) (value : Option (Bytes × Bytes))
deriving DecidableEq, Repr

namespace ViaParam

/-- The names that no other parameter has. -/
def knownNames : List Bytes := [ascii "branch", ascii "received", ascii "rport", ascii "alias"]

/-- The parameter of a name and what stands behind it. -/
def ofName (name : Bytes) (value : Option (Bytes × Bytes)) : Option ViaParam :=
  if downcase name = ascii "branch" then ((value.map Prod.snd).filter isToken).map .branch
  else if downcase name = ascii "received" then ((value.map Prod.snd).filter isIpAddress).map .received
  else if downcase name = ascii "rport" then
    if value.all (isPort ·.2) then some (.rport (value.map Prod.snd)) else none
  else if downcase name = ascii "alias" then
    if value.all (isToken ·.2) then some (.hasAlias (value.map Prod.snd)) else none
  else if value.all (isHeaderParamGenValue ·.2) then some (.other name value)
  else none

/-- A parameter without white space on its sides. -/
def read (text : Bytes) : Option ViaParam :=
  let name := text.takeWhile isTokenChar
  let rest := text.dropWhile isTokenChar
  if name = [] then none
  else if rest = [] then ofName name none
  else (readBehind 61 rest).bind fun behind => ofName name (some behind)

end ViaParam

/-! ## The value -/

structure ViaValue where
  /-- `via_core_value` -/
  core : Bytes
  sent : ViaSent
  params : List ViaParam
deriving DecidableEq, Repr

/-- The parameters of what stands from the first ";" on. -/
def readViaParams : Bytes → Option (List ViaParam)
  | [] => some []
  | _ :: rest => (semis.split .plain rest).mapM fun part => (trimSws part).bind ViaParam.read

def readVia (text : Bytes) : Option ViaValue :=
  let head := text.takeWhile (· ≠ 59)
  let core := head.rdropWhile isWhite
  if isSws (head.rtakeWhile isWhite) && !text.getLast?.any isWhite then
    (readSent core).bind fun sent =>
    (readViaParams (text.drop head.length)).map fun params => { core, sent, params }
  else none

/-! ## What a value says -/

/-- The last of the values. -/
def lastOf {α β : Type} (f : α → Option β) : List α → Option β
  | [] => none
  | a :: rest => (lastOf f rest).or (f a)

namespace ViaParam

def branch? : ViaParam → Option Bytes
  | branch value => some value
  | _ => none

/-- `"z9hG4bK" token` -/
def isRfc3261 : ViaParam → Bool
  | branch value => value.take 7 == ascii "z9hG4bK" && isToken (value.drop 7)
  | _ => false

def received? : ViaParam → Option Bytes
  | received ip => some ip
  | _ => none

def rport? : ViaParam → Option (Option Bytes)
  | rport port => some port
  | _ => none

def isAlias : ViaParam → Bool
  | hasAlias _ => true
  | _ => false

/-- The value that an other parameter gives its name, which has no case. -/
def other? (key : Bytes) : ViaParam → Option (Option Bytes)
  | other name value => if downcase name = key then some (value.map Prod.snd) else none
  | _ => none

end ViaParam

namespace ViaValue

variable (v : ViaValue)

def branch : Option Bytes := lastOf ViaParam.branch? v.params

def isRfc3261 : Bool := v.params.any ViaParam.isRfc3261

def received : Option Bytes := lastOf ViaParam.received? v.params

/-- Whether there is an `rport`, with its value. -/
def rport : Option (Option Bytes) := lastOf ViaParam.rport? v.params

def isAlias : Bool := v.params.any ViaParam.isAlias

/-- The map of the other parameters. -/
def otherParam (key : Bytes) : Option (Option Bytes) := lastOf (ViaParam.other? key) v.params

end ViaValue

/-! ## White space -/

theorem white_of_isSws {s : Bytes} (h : isSws s = true) : ∀ b ∈ s, isWhite b = true := by
  intro b hb
  by_contra hwhite
  unfold isWhite at hwhite
  simp only [Bool.or_eq_true, beq_iff_eq, not_or] at hwhite
  have hcls : ∀ c, b ≠ c → (decide (c ≤ b) && decide (b ≤ c)) = false := by
    intro c hne
    rw [Bool.and_eq_false_iff, decide_eq_false_iff_not, decide_eq_false_iff_not]
    by_contra hle
    rw [not_or, not_not, not_not] at hle
    exact hne (UInt8.le_antisymm hle.2 hle.1)
  have havoids : avoids b sws = true := by
    simp [sws, lws, wsp, opt, plus, seq, avoids, Regex.inRanges, hcls _ hwhite.2, hcls _ hwhite.1.1.1,
      hcls _ hwhite.1.1.2, hcls _ hwhite.1.2]
  exact notMem_of_avoids havoids ((accepts_iff sws s).mp h) hb

theorem isSws_nil : isSws [] = true := by decide

/-- A text without white space at its ends. -/
structure Solid (s : Bytes) : Prop where
  ne_nil : s ≠ []
  head : ∀ b ∈ s.head?, isWhite b = false
  last : ∀ b ∈ s.getLast?, isWhite b = false

theorem solid_of_forall {s : Bytes} (hne : s ≠ []) (h : ∀ b ∈ s, isWhite b = false) : Solid s :=
  ⟨hne, fun b hb => h b (List.mem_of_mem_head? hb), fun b hb => h b (List.mem_of_getLast? hb)⟩

namespace Solid

variable {s u v : Bytes}

theorem takeWhile_append (h : Solid s) (rest : Bytes) : (s ++ rest).takeWhile isWhite = [] := by
  cases s with
  | nil => exact absurd rfl h.ne_nil
  | cons b s => exact List.takeWhile_cons_of_neg (Bool.eq_false_iff.mp (h.head b rfl))

theorem dropWhile_append (h : Solid s) (rest : Bytes) : (s ++ rest).dropWhile isWhite = s ++ rest := by
  cases s with
  | nil => exact absurd rfl h.ne_nil
  | cons b s => exact List.dropWhile_cons_of_neg (Bool.eq_false_iff.mp (h.head b rfl))

theorem rdropWhile (h : Solid s) : s.rdropWhile isWhite = s := by
  rw [List.rdropWhile_eq_self_iff]
  intro hne hlast
  rw [h.last _ (List.getLast?_eq_getLast_of_ne_nil hne)] at hlast
  cases hlast

theorem trimSws (h : Solid s) : OverSip.trimSws s = some s := by
  have htake := h.takeWhile_append []
  have hdrop := h.dropWhile_append []
  rw [List.append_nil] at htake hdrop
  have hbehind : s.rtakeWhile isWhite = [] := by
    rw [List.rtakeWhile_eq_nil_iff]
    intro hne hlast
    rw [h.last _ (List.getLast?_eq_getLast_of_ne_nil hne)] at hlast
    cases hlast
  unfold OverSip.trimSws
  simp only [htake, hdrop, h.rdropWhile, hbehind]
  rfl

/-- A text between two. -/
theorem between (hu : Solid u) (hv : Solid v) (middle : Bytes) : Solid (u ++ (middle ++ v)) := by
  constructor
  · exact List.append_ne_nil_of_left_ne_nil hu.ne_nil _
  · rw [List.head?_append_of_ne_nil u hu.ne_nil]
    exact hu.head
  · rw [← List.append_assoc, List.getLast?_append_of_ne_nil _ hv.ne_nil]
    exact hv.last

end Solid

/-! ## Values of parameters -/

/-- A text that can stand in a parameter: it has no white space at its ends and stays in one piece. -/
structure ParamPiece (s : Bytes) : Prop where
  solid : Solid s
  outside : semis.Outside s

theorem ParamPiece.between {u v : Bytes} (hu : ParamPiece u) (hv : ParamPiece v) {middle : Bytes}
    (h : semis.Outside middle) : ParamPiece (u ++ (middle ++ v)) :=
  ⟨hu.solid.between hv.solid middle, hu.outside.append (h.append hv.outside)⟩

/-- A text without white space, ";" and quotes. -/
theorem paramPiece_of_notMem {s : Bytes} (hne : s ≠ []) (h : ∀ c ∈ ([32, 9, 13, 10, 59, 34] : Bytes), c ∉ s) :
    ParamPiece s := by
  constructor
  · apply solid_of_forall hne
    intro b hb
    by_contra hwhite
    rw [Bool.not_eq_false] at hwhite
    unfold isWhite at hwhite
    simp only [Bool.or_eq_true, beq_iff_eq] at hwhite
    rcases hwhite with ((rfl | rfl) | rfl) | rfl <;> exact h _ (by decide) hb
  · exact Quoting.outside_of_notMem (h 59 (by decide)) (h 34 (by decide))

theorem paramPiece_of_isToken {s : Bytes} (h : isToken s = true) : ParamPiece s := by
  obtain ⟨hne, hall⟩ := Bool.and_eq_true_iff.mp h
  apply paramPiece_of_notMem (bne_iff_ne.mp hne)
  intro c hc hmem
  have htoken := List.all_eq_true.mp hall c hmem
  have hnot : ([32, 9, 13, 10, 59, 34] : Bytes).all fun c => !isTokenChar c := by decide
  have hc' := List.all_eq_true.mp hnot c hc
  rw [htoken] at hc'
  cases hc'

theorem isToken_of_isPort {s : Bytes} (h : isPort s = true) : isToken s = true := by
  obtain ⟨hall, hport⟩ := Bool.and_eq_true_iff.mp h
  apply Bool.and_eq_true_iff.mpr
  constructor
  · apply bne_iff_ne.mpr
    rintro rfl
    exact absurd h (by decide)
  · apply List.all_eq_true.mpr
    intro b hb
    have hdigit := List.all_eq_true.mp hall b hb
    unfold isTokenChar isAlphanum
    rw [hdigit, Bool.or_true, Bool.true_or]

theorem paramPiece_of_isIpAddress {s : Bytes} (h : isIpAddress s = true) : ParamPiece s := by
  have hip := (isIpAddress_iff s).mp h
  apply paramPiece_of_notMem
  · rintro rfl
    exact absurd h (by decide)
  · intro c hc
    rcases hip with hip | hip
    · have havoids : ([32, 9, 13, 10, 59, 34] : Bytes).all fun c => avoids c ipv4address := by decide
      exact notMem_of_avoids (List.all_eq_true.mp havoids c hc) hip
    · have havoids : ([32, 9, 13, 10, 59, 34] : Bytes).all fun c => avoids c ipv6address := by decide
      exact notMem_of_avoids (List.all_eq_true.mp havoids c hc) hip

theorem paramPiece_of_findHost {s : Bytes} {hostType : HostType} (h : findHost s = some hostType) : ParamPiece s := by
  apply paramPiece_of_notMem (ne_nil_of_findHost h)
  intro c hc
  have havoids : ([32, 9, 13, 10, 59, 34] : Bytes).all fun c =>
      hostAlternatives.all fun alternative => avoids c alternative.2 := by decide +kernel
  exact notMem_of_findHost (List.all_eq_true.mp havoids c hc) h

theorem paramPiece_of_quotedString {s : Bytes} (h : s ∈ lang quotedString) : ParamPiece s := by
  obtain ⟨first, hfirst, rest, hrest, rfl⟩ := Language.mem_mul.mp h
  obtain ⟨body, hbody, last, hlast, rfl⟩ := Language.mem_mul.mp hrest
  obtain rfl := (mem_cls_singleton_iff 34 first).mp hfirst
  obtain rfl := (mem_cls_singleton_iff 34 last).mp hlast
  constructor
  · have hquote : Solid [34] := by
      apply solid_of_forall (by decide)
      intro b hb
      obtain rfl := List.mem_singleton.mp hb
      rfl
    exact hquote.between hquote body
  · apply Quoting.outside_quoted (q := semis) (by decide)
    obtain ⟨pieces, rfl, hpieces⟩ := Language.mem_kstar.mp hbody
    apply Quoting.reach_quoted_flatten
    intro piece hpiece
    rcases (mem_alt_iff _ _ _).mp (hpieces piece hpiece) with htext | hpair
    · have havoids : ([34, 92] : Bytes).all fun c => avoids c qdtext := by decide +kernel
      rw [List.all_cons, List.all_cons, Bool.and_eq_true, Bool.and_eq_true] at havoids
      exact Quoting.reach_quoted_of_notMem (q := semis) (notMem_of_avoids havoids.1 htext)
        (notMem_of_avoids havoids.2.1 htext)
    · obtain ⟨escape, hescape, c, hc, rfl⟩ := Language.mem_mul.mp hpair
      obtain rfl := (mem_cls_singleton_iff 92 escape).mp hescape
      obtain ⟨c, rfl, _⟩ := hc
      exact Quoting.reach_quoted_pair (q := semis) (by decide) c

theorem paramPiece_of_genValue {s : Bytes} (h : isHeaderParamGenValue s = true) : ParamPiece s := by
  unfold isHeaderParamGenValue at h
  rw [Bool.or_eq_true, Bool.or_eq_true] at h
  rcases h with (h | h) | h
  · exact paramPiece_of_isToken h
  · obtain ⟨hostType, hhost⟩ := Option.isSome_iff_exists.mp h
    exact paramPiece_of_findHost hhost
  · exact paramPiece_of_quotedString ((accepts_iff _ _).mp h)

/-! ## Parameters as they are written -/

namespace ViaParam

/-- The name, and the value with the white space before the "=". -/
def written : ViaParam → Bytes × Option (Bytes × Bytes)
  | branch value => (ascii "branch", some ([], value))
  | received ip => (ascii "received", some ([], ip))
  | rport port => (ascii "rport", port.map fun value => ([], value))
  | hasAlias token => (ascii "alias", token.map fun value => ([], value))
  | other name value => (name, value)

def text (p : ViaParam) : Bytes := p.written.1 ++ p.written.2.elim [] fun value => value.1 ++ 61 :: value.2

/-- What is written can be read. -/
structure WellFormed (p : ViaParam) : Prop where
  name : isToken p.written.1 = true
  ofName : ofName p.written.1 p.written.2 = some p
  white : ∀ value ∈ p.written.2, isSws value.1 = true
  value : ∀ value ∈ p.written.2, ParamPiece value.2

variable {p : ViaParam} {name value : Bytes}

theorem wellFormed_branch (h : isToken value = true) : (branch value).WellFormed := by
  constructor
  · rfl
  · show ViaParam.ofName (ascii "branch") (some ([], value)) = some (branch value)
    unfold ViaParam.ofName
    rw [if_pos (by decide), Option.map_some, Option.filter_some, if_pos h]
    rfl
  · rintro _ ⟨⟩
    exact isSws_nil
  · rintro _ ⟨⟩
    exact paramPiece_of_isToken h

theorem wellFormed_received (h : isIpAddress value = true) : (received value).WellFormed := by
  constructor
  · rfl
  · show ViaParam.ofName (ascii "received") (some ([], value)) = some (received value)
    unfold ViaParam.ofName
    rw [if_neg (by decide), if_pos (by decide), Option.map_some, Option.filter_some, if_pos h]
    rfl
  · rintro _ ⟨⟩
    exact isSws_nil
  · rintro _ ⟨⟩
    exact paramPiece_of_isIpAddress h

theorem wellFormed_rport {port : Option Bytes} (h : ∀ value ∈ port, isPort value = true) :
    (rport port).WellFormed := by
  have hwritten : ∀ v ∈ port.map fun value => (([] : Bytes), value), v.1 = [] ∧ isPort v.2 = true := by
    intro v hv
    obtain ⟨value, hvalue, rfl⟩ := Option.map_eq_some_iff.mp hv
    exact ⟨rfl, h value hvalue⟩
  constructor
  · rfl
  · show ViaParam.ofName (ascii "rport") (port.map fun value => ([], value)) = some (rport port)
    unfold ViaParam.ofName
    rw [if_neg (by decide), if_neg (by decide), if_pos (by decide),
      if_pos ((Option.all_eq_true _ _).mpr fun v hv => (hwritten v hv).2), Option.map_map]
    exact congrArg (fun port => some (rport port)) Option.map_id'
  · intro v hv
    rw [(hwritten v hv).1]
    exact isSws_nil
  · exact fun v hv => paramPiece_of_isToken (isToken_of_isPort (hwritten v hv).2)

theorem wellFormed_hasAlias {token : Option Bytes} (h : ∀ value ∈ token, isToken value = true) :
    (hasAlias token).WellFormed := by
  have hwritten : ∀ v ∈ token.map fun value => (([] : Bytes), value), v.1 = [] ∧ isToken v.2 = true := by
    intro v hv
    obtain ⟨value, hvalue, rfl⟩ := Option.map_eq_some_iff.mp hv
    exact ⟨rfl, h value hvalue⟩
  constructor
  · rfl
  · show ViaParam.ofName (ascii "alias") (token.map fun value => ([], value)) = some (hasAlias token)
    unfold ViaParam.ofName
    rw [if_neg (by decide), if_neg (by decide), if_neg (by decide), if_pos (by decide),
      if_pos ((Option.all_eq_true _ _).mpr fun v hv => (hwritten v hv).2), Option.map_map]
    exact congrArg (fun token => some (hasAlias token)) Option.map_id'
  · intro v hv
    rw [(hwritten v hv).1]
    exact isSws_nil
  · exact fun v hv => paramPiece_of_isToken (hwritten v hv).2

theorem wellFormed_other {value : Option (Bytes × Bytes)} (hname : isToken name = true)
    (hknown : downcase name ∉ knownNames) (hwhite : ∀ v ∈ value, isSws v.1 = true)
    (hvalue : ∀ v ∈ value, isHeaderParamGenValue v.2 = true) : (other name value).WellFormed := by
  have hne : ∀ known ∈ knownNames, downcase name ≠ known := by
    rintro known hmem heq
    exact hknown (heq ▸ hmem)
  constructor
  · exact hname
  · show ViaParam.ofName name value = some (other name value)
    unfold ViaParam.ofName
    rw [if_neg (hne _ (by decide)), if_neg (hne _ (by decide)), if_neg (hne _ (by decide)),
      if_neg (hne _ (by decide)), if_pos ((Option.all_eq_true _ _).mpr hvalue)]
  · exact hwhite
  · exact fun v hv => paramPiece_of_genValue (hvalue v hv)

/-! ## Reading what is written -/

theorem ne_nil_of_isToken {s : Bytes} (h : isToken s = true) : s ≠ [] := bne_iff_ne.mp (Bool.and_eq_true_iff.mp h).1

theorem takeWhile_token {s : Bytes} (h : isToken s = true) (rest : Bytes)
    (hrest : ∀ b ∈ rest.head?, isTokenChar b = false) :
    (s ++ rest).takeWhile isTokenChar = s ∧ (s ++ rest).dropWhile isTokenChar = rest := by
  have hall : ∀ b ∈ s, isTokenChar b = true := List.all_eq_true.mp (Bool.and_eq_true_iff.mp h).2
  rw [List.takeWhile_append_of_pos hall, List.dropWhile_append_of_pos hall]
  cases rest with
  | nil => exact ⟨List.append_nil s, rfl⟩
  | cons b rest =>
    have hb : ¬isTokenChar b = true := Bool.eq_false_iff.mp (hrest b rfl)
    rw [List.takeWhile_cons_of_neg hb, List.dropWhile_cons_of_neg hb, List.append_nil]
    exact ⟨rfl, rfl⟩

theorem readBehind_append {c : UInt8} (hc : isWhite c = false) {white value : Bytes} (hwhite : isSws white = true)
    (hvalue : Solid value) : readBehind c (white ++ c :: value) = some (white, value) := by
  have hall := white_of_isSws hwhite
  have hneg : ¬isWhite c = true := Bool.eq_false_iff.mp hc
  have htake := hvalue.takeWhile_append []
  have hdrop := hvalue.dropWhile_append []
  rw [List.append_nil] at htake hdrop
  unfold readBehind
  rw [List.takeWhile_append_of_pos hall, List.dropWhile_append_of_pos hall, List.takeWhile_cons_of_neg hneg,
    List.dropWhile_cons_of_neg hneg, List.append_nil]
  show (if c = c ∧ isSws white = true ∧ isSws (value.takeWhile isWhite) = true then
    some (white, value.dropWhile isWhite) else none) = _
  rw [htake, hdrop, if_pos ⟨rfl, hwhite, isSws_nil⟩]

namespace WellFormed

theorem read (h : p.WellFormed) : ViaParam.read p.text = some p := by
  have hne := ne_nil_of_isToken h.name
  cases hwritten : p.written.2 with
  | none =>
    have hofName := h.ofName
    rw [hwritten] at hofName
    have htext : p.text = p.written.1 ++ [] := by
      unfold text
      rw [hwritten]
      rfl
    have htoken := takeWhile_token h.name [] (by rintro _ ⟨⟩)
    unfold ViaParam.read
    simp only [htext, htoken.1, htoken.2]
    rw [if_neg hne, if_pos True.intro, hofName]
  | some value =>
    have hofName := h.ofName
    rw [hwritten] at hofName
    have hwhite := h.white value hwritten
    have htext : p.text = p.written.1 ++ (value.1 ++ 61 :: value.2) := by
      unfold text
      rw [hwritten]
      rfl
    have hrest : ∀ b ∈ (value.1 ++ 61 :: value.2).head?, isTokenChar b = false := by
      cases hbefore : value.1 with
      | nil =>
        rintro _ ⟨⟩
        decide
      | cons c before =>
        rintro _ ⟨⟩
        have hc := white_of_isSws hwhite c (hbefore ▸ List.mem_cons_self)
        unfold isWhite at hc
        simp only [Bool.or_eq_true, beq_iff_eq] at hc
        rcases hc with ((rfl | rfl) | rfl) | rfl <;> decide
    have htoken := takeWhile_token h.name _ hrest
    unfold ViaParam.read
    simp only [htext, htoken.1, htoken.2]
    rw [if_neg hne, if_neg (List.append_ne_nil_of_right_ne_nil _ (List.cons_ne_nil _ _)),
      readBehind_append (by decide) hwhite (h.value value hwritten).solid, Option.bind_some, hofName]

theorem paramPiece (h : p.WellFormed) : ParamPiece p.text := by
  have hname := paramPiece_of_isToken h.name
  unfold text
  cases hwritten : p.written.2 with
  | none =>
    show ParamPiece (p.written.1 ++ [])
    rw [List.append_nil]
    exact hname
  | some value =>
    have hmiddle : semis.Outside (value.1 ++ [61]) := by
      have hwhite := white_of_isSws (h.white value hwritten)
      apply Quoting.outside_of_notMem <;> rw [List.mem_append, not_or]
      · exact ⟨fun hmem => absurd (hwhite _ hmem) (by decide), by decide⟩
      · exact ⟨fun hmem => absurd (hwhite _ hmem) (by decide), by decide⟩
    have hbetween := hname.between (h.value value hwritten) hmiddle
    rw [List.append_assoc, List.singleton_append] at hbetween
    exact hbetween

end WellFormed

theorem wellFormed_of_ofName {value : Option (Bytes × Bytes)} (hname : isToken name = true)
    (hwhite : ∀ v ∈ value, isSws v.1 = true) (h : ViaParam.ofName name value = some p) : p.WellFormed := by
  unfold ViaParam.ofName at h
  split at h
  · obtain ⟨token, htoken, rfl⟩ := Option.map_eq_some_iff.mp h
    exact wellFormed_branch (Option.filter_eq_some_iff.mp htoken).2
  · next hbranch =>
    split at h
    · obtain ⟨ip, hip, rfl⟩ := Option.map_eq_some_iff.mp h
      exact wellFormed_received (Option.filter_eq_some_iff.mp hip).2
    · next hreceived =>
      split at h
      · split at h
        · next hport =>
          obtain rfl := Option.some.inj h
          apply wellFormed_rport
          intro port hmem
          obtain ⟨v, hv, rfl⟩ := Option.map_eq_some_iff.mp hmem
          exact (Option.all_eq_true _ _).mp hport v hv
        · exact absurd h.symm (Option.some_ne_none _)
      · next hrport =>
        split at h
        · split at h
          · next htoken =>
            obtain rfl := Option.some.inj h
            apply wellFormed_hasAlias
            intro token hmem
            obtain ⟨v, hv, rfl⟩ := Option.map_eq_some_iff.mp hmem
            exact (Option.all_eq_true _ _).mp htoken v hv
          · exact absurd h.symm (Option.some_ne_none _)
        · next halias =>
          split at h
          · next hvalue =>
            obtain rfl := Option.some.inj h
            apply wellFormed_other hname _ hwhite ((Option.all_eq_true _ _).mp hvalue)
            unfold knownNames
            simp only [List.mem_cons, List.not_mem_nil, or_false, not_or]
            exact ⟨hbranch, hreceived, hrport, halias⟩
          · exact absurd h.symm (Option.some_ne_none _)

theorem isSws_of_readBehind {c : UInt8} {s : Bytes} {behind : Bytes × Bytes} (h : readBehind c s = some behind) :
    isSws behind.1 = true := by
  unfold readBehind at h
  split at h
  · exact absurd h.symm (Option.some_ne_none _)
  · split at h
    · next hif =>
      obtain rfl := Option.some.inj h
      exact hif.2.1
    · exact absurd h.symm (Option.some_ne_none _)

/-- The rules for an other parameter. -/
theorem other_of_ofName {value : Option (Bytes × Bytes)}
    (h : ViaParam.ofName name value = some (other name value)) :
    downcase name ∉ knownNames ∧ ∀ v ∈ value, isHeaderParamGenValue v.2 = true := by
  unfold ViaParam.ofName at h
  split at h
  · obtain ⟨_, _, heq⟩ := Option.map_eq_some_iff.mp h
    cases heq
  · next hbranch =>
    split at h
    · obtain ⟨_, _, heq⟩ := Option.map_eq_some_iff.mp h
      cases heq
    · next hreceived =>
      split at h
      · split at h <;> cases h
      · next hrport =>
        split at h
        · split at h <;> cases h
        · next halias =>
          split at h
          · next hvalue =>
            refine ⟨?_, (Option.all_eq_true _ _).mp hvalue⟩
            unfold knownNames
            simp only [List.mem_cons, List.not_mem_nil, or_false, not_or]
            exact ⟨hbranch, hreceived, hrport, halias⟩
          · cases h

theorem WellFormed.notMem_knownNames {value : Option (Bytes × Bytes)} (h : (other name value).WellFormed) :
    downcase name ∉ knownNames := (other_of_ofName h.ofName).1

theorem WellFormed.genValue {value : Option (Bytes × Bytes)} (h : (other name value).WellFormed) :
    ∀ v ∈ value, isHeaderParamGenValue v.2 = true := (other_of_ofName h.ofName).2

/-- What has been read can be written and read again. -/
theorem wellFormed_of_read {s : Bytes} (h : ViaParam.read s = some p) : p.WellFormed := by
  unfold ViaParam.read at h
  simp only at h
  split at h
  · exact absurd h.symm (Option.some_ne_none _)
  · next hne =>
    have hname : isToken (s.takeWhile isTokenChar) = true :=
      Bool.and_eq_true_iff.mpr ⟨bne_iff_ne.mpr hne, List.all_takeWhile⟩
    split at h
    · exact wellFormed_of_ofName hname (by rintro _ ⟨⟩) h
    · obtain ⟨behind, hbehind, hof⟩ := Option.bind_eq_some_iff.mp h
      apply wellFormed_of_ofName hname _ hof
      rintro _ ⟨⟩
      exact isSws_of_readBehind hbehind

end ViaParam

/-! ## Values as they are written -/

namespace ViaValue

/-- The core with the parameters behind it, one ";" before each. -/
def text (v : ViaValue) : Bytes := v.core ++ v.params.flatMap fun p => 59 :: p.text

structure WellFormed (v : ViaValue) : Prop where
  semi : 59 ∉ v.core
  last : ∀ b ∈ v.core.getLast?, isWhite b = false
  sent : readSent v.core = some v.sent
  params : ∀ p ∈ v.params, p.WellFormed

variable {v : ViaValue}

theorem readViaParams_flatMap {params : List ViaParam} (h : ∀ p ∈ params, p.WellFormed) :
    readViaParams (params.flatMap fun p => 59 :: p.text) = some params := by
  cases params with
  | nil => rfl
  | cons p params =>
    rw [List.forall_mem_cons] at h
    have houtside : ∀ part ∈ params.map ViaParam.text, semis.Outside part := by
      intro part hpart
      obtain ⟨q, hq, rfl⟩ := List.mem_map.mp hpart
      exact (h.2 q hq).paramPiece.outside
    have hsplit := Quoting.split_flatMap h.1.paramPiece.outside houtside
    rw [List.flatMap_map] at hsplit
    show (semis.split .plain (p.text ++ params.flatMap fun p => 59 :: p.text)).mapM
      (fun part => (trimSws part).bind ViaParam.read) = _
    rw [show (params.flatMap fun p => 59 :: p.text) = params.flatMap fun p => semis.separator :: p.text from rfl,
      hsplit]
    have hread : ∀ q : ViaParam, q.WellFormed → (trimSws q.text).bind ViaParam.read = some q := by
      intro q hq
      rw [hq.paramPiece.solid.trimSws, Option.bind_some, hq.read]
    have hmap : ∀ qs : List ViaParam, (∀ q ∈ qs, q.WellFormed) →
        (qs.map ViaParam.text).mapM (fun part => (trimSws part).bind ViaParam.read) = some qs := by
      intro qs hqs
      induction qs with
      | nil => rfl
      | cons q qs ih =>
        rw [List.forall_mem_cons] at hqs
        rw [List.map_cons, List.mapM_cons, hread q hqs.1, ih hqs.2]
        rfl
    exact hmap (p :: params) (List.forall_mem_cons.mpr h)

namespace WellFormed

theorem getLast?_text (h : v.WellFormed) : ∀ b ∈ v.text.getLast?, isWhite b = false := by
  unfold text
  rcases List.eq_nil_or_concat v.params with hnil | ⟨params, p, hparams⟩
  · rw [hnil, List.flatMap_nil, List.append_nil]
    exact h.last
  · have hsolid := (h.params p (by rw [hparams, List.concat_eq_append]; exact List.mem_concat_self)).paramPiece.solid
    rw [hparams, List.concat_eq_append, List.flatMap_append, ← List.append_assoc, List.flatMap_singleton]
    rw [show (59 :: p.text : Bytes) = [59] ++ p.text from rfl, ← List.append_assoc,
      List.getLast?_append_of_ne_nil _ hsolid.ne_nil]
    exact hsolid.last

/-- **A value that is written is read back.** -/
theorem readVia_text (h : v.WellFormed) : readVia v.text = some v := by
  have hhead : v.text.takeWhile (· ≠ 59) = v.core := by
    unfold text
    cases v.params with
    | nil =>
      rw [List.flatMap_nil, List.append_nil]
      exact takeWhile_ne_of_notMem h.semi
    | cons p params =>
      rw [List.flatMap_cons, List.cons_append]
      exact takeWhile_ne_append h.semi _
  have hdrop : v.text.drop v.core.length = v.params.flatMap fun p => 59 :: p.text := List.drop_left
  have hlast : v.text.getLast?.any isWhite = false := by
    rw [Option.any_eq_false]
    exact h.getLast?_text
  have hcore : v.core.rdropWhile isWhite = v.core := by
    rw [List.rdropWhile_eq_self_iff]
    intro hne
    exact Bool.eq_false_iff.mp (h.last _ (List.getLast?_eq_getLast_of_ne_nil hne))
  have hwhite : v.core.rtakeWhile isWhite = [] := by
    rw [List.rtakeWhile_eq_nil_iff]
    intro hne
    exact Bool.eq_false_iff.mp (h.last _ (List.getLast?_eq_getLast_of_ne_nil hne))
  unfold readVia
  simp only [hhead, hcore, hwhite, hlast, hdrop, h.sent, readViaParams_flatMap h.params]
  rfl

end WellFormed

theorem last_rdropWhile (s : Bytes) : ∀ b ∈ (s.rdropWhile isWhite).getLast?, isWhite b = false := by
  intro b hb
  have hne : s.rdropWhile isWhite ≠ [] := by
    intro hnil
    rw [hnil] at hb
    cases hb
  have hnot := List.rdropWhile_last_not isWhite s hne
  obtain rfl := Option.some.inj ((List.getLast?_eq_getLast_of_ne_nil hne).symm.trans hb)
  exact Bool.eq_false_iff.mpr hnot

theorem wellFormed_of_readViaParams {s : Bytes} {params : List ViaParam} (h : readViaParams s = some params) :
    ∀ p ∈ params, p.WellFormed := by
  cases s with
  | nil =>
    obtain rfl := Option.some.inj h
    exact fun p hp => absurd hp List.not_mem_nil
  | cons c rest =>
    replace h : (semis.split .plain rest).mapM (fun part => (trimSws part).bind ViaParam.read) = some params := h
    generalize semis.split .plain rest = parts at h
    induction parts generalizing params with
    | nil =>
      obtain rfl := Option.some.inj h
      exact fun p hp => absurd hp List.not_mem_nil
    | cons part parts ih =>
      rw [List.mapM_cons] at h
      obtain ⟨p, hp, hrest⟩ := Option.bind_eq_some_iff.mp h
      obtain ⟨ps, hps, hparams⟩ := Option.bind_eq_some_iff.mp hrest
      obtain rfl := Option.some.inj hparams
      obtain ⟨trimmed, _, hread⟩ := Option.bind_eq_some_iff.mp hp
      exact List.forall_mem_cons.mpr ⟨ViaParam.wellFormed_of_read hread, ih hps⟩

/-- A value that has been read can be written. -/
theorem wellFormed_of_readVia {s : Bytes} (h : readVia s = some v) : v.WellFormed := by
  unfold readVia at h
  simp only at h
  split at h
  · obtain ⟨sent, hsent, hparams⟩ := Option.bind_eq_some_iff.mp h
    obtain ⟨params, hread, rfl⟩ := Option.map_eq_some_iff.mp hparams
    constructor
    · intro hmem
      exact notMem_takeWhile_ne 59 s ((List.rdropWhile_prefix _ _).subset hmem)
    · exact last_rdropWhile _
    · exact hsent
    · exact wellFormed_of_readViaParams hread
  · exact absurd h.symm (Option.some_ne_none _)

end ViaValue

end OverSip
