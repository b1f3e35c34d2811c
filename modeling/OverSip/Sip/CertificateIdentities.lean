import Mathlib.Data.List.DropRight
import OverSip.Lib.Cutting
import OverSip.Lib.OrderedMap
import OverSip.Sip.HeaderNames

/-!
# The SIP identities of a certificate

`TLS.get_sip_identities` (`tls.rb`) and the rules of RFC 5922, section 7.1, that it follows. The names of a
subjectAltName are matched as texts such as "URI:sip:example.org" and "DNS:example.org". What the pattern of a SIP
URI notes is what stands before the first "@": of a URI with a user that is the user, and of a URI with a port or
parameters it is more than the domain.

`yieldsIdentities_iff` says for which certificates the result is right all the same.
-/

namespace OverSip

/-! ## The patterns -/

/-- `\s` -/
def isWhitespace (b : UInt8) : Bool := b = 32 || (9 ≤ b && b ≤ 13)

/-- What is between the separators; a separator whose comma has been read goes on with whitespace (`skipping`). -/
def pieces : Bool → Bytes → List Bytes
  | _, [] => [[]]
  | skipping, b :: rest =>
    if skipping && isWhitespace b then pieces true rest
    else if b = 44 && rest.head?.any isWhitespace then [] :: pieces true rest
    else (pieces false rest).modifyHead fun piece => b :: piece

/-- `split(/,\s+/)`; empty pieces at the end are left out. -/
def splitNames (value : Bytes) : List Bytes := (pieces false value).rdropWhile fun piece => piece.isEmpty

/-- What is behind the literal, which stands there in capital or small letters. -/
def behindLiteral (literal str : Bytes) : Option Bytes :=
  if downcase (str.take literal.length) = downcase literal then some (str.drop literal.length) else none

/-- What is behind `/^literal/i`: `^` is at the beginning of each line. -/
def matchLine (literal : Bytes) : Bool → Bytes → Option Bytes
  | lineStart, [] => if lineStart then behindLiteral literal [] else none
  | lineStart, b :: rest =>
    (if lineStart then behindLiteral literal (b :: rest) else none).or (matchLine literal (b = 10) rest)

/-- `/^URI:sip:([^@]*)/i` -/
def matchSipUri (name : Bytes) : Option Bytes :=
  (matchLine (ascii "URI:sip:") true name).map fun text => text.takeWhile (· ≠ 64)

/-- `/^DNS:(.*)/i` -/
def matchDns (name : Bytes) : Option Bytes :=
  (matchLine (ascii "DNS:") true name).map fun text => text.takeWhile (· ≠ 10)

/-! ## The method -/

structure X509Extension where
  oid : String
  value : Bytes
deriving DecidableEq, Repr

structure X509Certificate where
  extensions : List X509Extension
  /-- `subject.to_a` -/
  subject : List (String × Bytes)
deriving DecidableEq, Repr

/-- The local variables of `get_sip_identities`. -/
structure SipIdentitiesVars where
  verifySubjectAltNameDns : Bool := true
  verifyCn : Bool := true
  subjectAltNameUriSipEntries : List Bytes := []
  subjectAltNameDnsEntries : List Bytes := []
deriving DecidableEq, Repr

namespace SipIdentitiesVars

/-- The block for each name. -/
def name (vars : SipIdentitiesVars) (name : Bytes) : SipIdentitiesVars :=
  match matchSipUri name with
  | some text =>
    { vars with
      verifySubjectAltNameDns := false
      subjectAltNameUriSipEntries := vars.subjectAltNameUriSipEntries ++ [downcase text] }
  | none =>
    if vars.verifySubjectAltNameDns then
      match matchDns name with
      | some text => { vars with subjectAltNameDnsEntries := vars.subjectAltNameDnsEntries ++ [downcase text] }
      | none => vars
    else vars

/-- The block for each extension. -/
def extension (vars : SipIdentitiesVars) (ext : X509Extension) : SipIdentitiesVars :=
  if ext.oid ≠ "subjectAltName" then vars
  else (splitNames ext.value).foldl name { vars with verifyCn := false }

end SipIdentitiesVars

/-- `sip_identities[domain] = true` for each of the domains, and the keys. -/
def sipIdentitiesKeys (domains : List Bytes) : List Bytes :=
  ((OrderedMap.empty.setAll (domains.map fun domain => (domain, true))).entries).map Prod.fst

/-- `TLS.get_sip_identities` -/
def getSipIdentities (cert : Option X509Certificate) : List Bytes :=
  match cert with
  | none => []
  | some cert =>
    let vars := cert.extensions.foldl SipIdentitiesVars.extension {}
    if !vars.verifyCn then
      if !vars.verifySubjectAltNameDns then sipIdentitiesKeys vars.subjectAltNameUriSipEntries
      else sipIdentitiesKeys vars.subjectAltNameDnsEntries
    else
      match cert.subject.find? fun e => e.1 = "CN" with
      | some (_, value) => sipIdentitiesKeys [downcase value]
      | none => sipIdentitiesKeys []

/-! ## The rules -/

namespace X509Certificate

variable (cert : X509Certificate)

def subjectAltNames : List X509Extension := cert.extensions.filter fun ext => ext.oid = "subjectAltName"

/-- The names of all the subjectAltName extensions. -/
def names : List Bytes := cert.subjectAltNames.flatMap fun ext => splitNames ext.value

/-- The certificate has the SIP URI `sip:text`. -/
def SipUri (text : Bytes) : Prop := ∃ name ∈ cert.names, behindLiteral (ascii "URI:sip:") name = some text

def DnsName (text : Bytes) : Prop := ∃ name ∈ cert.names, behindLiteral (ascii "DNS:") name = some text

end X509Certificate

/-- The domain of a SIP URI without userinfo: what stands before the port, the parameters and the headers. The
colons of an IPv6 reference are inside its brackets. -/
def uriDomain (text : Bytes) : Bytes :=
  if text.head? = some 91 then text.takeWhile (· ≠ 93) ++ (text.dropWhile (· ≠ 93)).take 1
  else text.takeWhile fun b => b ≠ 58 && b ≠ 59 && b ≠ 63

/-- **The identities of a certificate** (RFC 5922, section 7.1), in small letters. -/
inductive IsSipIdentity (cert : X509Certificate) : Bytes → Prop
  /-- The domain of a SIP URI without userinfo. -/
  | sipUri {text : Bytes} (h : cert.SipUri text) (noUserinfo : 64 ∉ text) : IsSipIdentity cert (downcase (uriDomain text))
  /-- A DNS name when there is no SIP URI. -/
  | dns {text : Bytes} (hnone : ∀ uri, ¬cert.SipUri uri) (h : cert.DnsName text) : IsSipIdentity cert (downcase text)
  /-- The first CN when there is no subjectAltName. -/
  | cn {value : Bytes} (hnone : cert.subjectAltNames = [])
      (h : cert.subject.find? (fun e => e.1 = "CN") = some ("CN", value)) : IsSipIdentity cert (downcase value)

/-- The identities are returned, each once. -/
def YieldsIdentities (cert : X509Certificate) : Prop :=
  (getSipIdentities (some cert)).Nodup ∧ ∀ domain, domain ∈ getSipIdentities (some cert) ↔ IsSipIdentity cert domain

/-! ## Names -/

theorem pieces_of_notMem {name : Bytes} (h : 44 ∉ name) : pieces false name = [name] := by
  induction name with
  | nil => rfl
  | cons b name ih =>
    rw [List.mem_cons, not_or] at h
    have hb : (decide (b = 44)) = false := decide_eq_false (Ne.symm h.1)
    rw [pieces, hb, ih h.2]
    rfl

theorem pieces_append {name : Bytes} (h : 44 ∉ name) (rest : Bytes) :
    pieces false (name ++ 44 :: 32 :: rest) = name :: pieces true rest := by
  induction name with
  | nil => rfl
  | cons b name ih =>
    rw [List.mem_cons, not_or] at h
    have hb : (decide (b = 44)) = false := decide_eq_false (Ne.symm h.1)
    rw [List.cons_append, pieces, hb, ih h.2]
    rfl

theorem pieces_skipping {b : UInt8} (h : isWhitespace b = false) (rest : Bytes) :
    pieces true (b :: rest) = pieces false (b :: rest) := by
  rw [pieces, pieces, h]
  rfl

/-- The names that OpenSSL prints with ", " in between are the names that are gone through. -/
theorem splitNames_intercalate {ns : List Bytes}
    (h : ∀ name ∈ ns, 44 ∉ name ∧ ∃ b rest, name = b :: rest ∧ isWhitespace b = false) :
    splitNames ([44, 32].intercalate ns) = ns := by
  have hpieces : ns ≠ [] → pieces false ([44, 32].intercalate ns) = ns := by
    induction ns with
    | nil => exact fun hne => absurd rfl hne
    | cons name ns ih =>
      intro _
      rw [List.forall_mem_cons] at h
      cases ns with
      | nil =>
        rw [List.intercalate_singleton]
        exact pieces_of_notMem h.1.1
      | cons next ns =>
        have hrest := ih h.2 (List.cons_ne_nil next ns)
        obtain ⟨b, tail, rfl, hb⟩ := (h.2 next List.mem_cons_self).2
        rw [List.intercalate_cons_cons, List.append_assoc]
        show pieces false (name ++ 44 :: 32 :: [44, 32].intercalate ((b :: tail) :: ns)) = _
        rw [pieces_append h.1.1, List.intercalate_cons_cons_left, pieces_skipping hb, ← List.intercalate_cons_cons_left,
          hrest]
  by_cases hne : ns = []
  · rw [hne]
    rfl
  · unfold splitNames
    rw [hpieces hne, List.rdropWhile_eq_self_iff]
    intro hlast hempty
    obtain ⟨b, rest, hname, -⟩ := (h _ (List.getLast_mem hlast)).2
    rw [hname] at hempty
    cases hempty

/-! ## What is noted -/

namespace SipIdentitiesVars

/-- The texts of the SIP URIs are noted in their order. -/
theorem uriEntries_names (vars : SipIdentitiesVars) (ns : List Bytes) :
    (ns.foldl name vars).subjectAltNameUriSipEntries =
      vars.subjectAltNameUriSipEntries ++ (ns.filterMap matchSipUri).map downcase := by
  induction ns generalizing vars with
  | nil => exact (List.append_nil _).symm
  | cons n ns ih =>
    rw [List.foldl_cons, ih, List.filterMap_cons]
    unfold name
    cases hmatch : matchSipUri n with
    | some text =>
      dsimp only
      rw [List.map_cons, List.append_assoc, List.singleton_append]
    | none =>
      dsimp only
      split
      · split
        · rfl
        · rfl
      · rfl

theorem verifyDns_names (vars : SipIdentitiesVars) (ns : List Bytes) :
    (ns.foldl name vars).verifySubjectAltNameDns =
      (vars.verifySubjectAltNameDns && ns.all fun n => (matchSipUri n).isNone) := by
  induction ns generalizing vars with
  | nil => exact (Bool.and_true _).symm
  | cons n ns ih =>
    rw [List.foldl_cons, ih, List.all_cons]
    unfold name
    cases hmatch : matchSipUri n with
    | some text => exact (Bool.and_false _).symm
    | none =>
      rw [Option.isNone_none, Bool.true_and]
      dsimp only
      split
      · split
        · rfl
        · rfl
      · rfl

/-- As long as no SIP URI is found, the DNS names are noted in their order. -/
theorem dnsEntries_names {vars : SipIdentitiesVars} (hvars : vars.verifySubjectAltNameDns = true) {ns : List Bytes}
    (h : ∀ n ∈ ns, matchSipUri n = none) :
    (ns.foldl name vars).subjectAltNameDnsEntries =
      vars.subjectAltNameDnsEntries ++ (ns.filterMap matchDns).map downcase := by
  induction ns generalizing vars with
  | nil => exact (List.append_nil _).symm
  | cons n ns ih =>
    rw [List.forall_mem_cons] at h
    have hname : (vars.name n).verifySubjectAltNameDns = true := by
      have hverify := verifyDns_names vars [n]
      rw [List.all_cons, h.1] at hverify
      exact hverify.trans (by rw [hvars]; rfl)
    rw [List.foldl_cons, ih hname h.2, List.filterMap_cons]
    unfold name
    rw [h.1]
    dsimp only
    rw [if_pos hvars]
    cases matchDns n with
    | some text => exact List.append_assoc _ _ _
    | none => rfl

theorem verifyCn_names (vars : SipIdentitiesVars) (ns : List Bytes) :
    (ns.foldl name vars).verifyCn = vars.verifyCn := by
  induction ns generalizing vars with
  | nil => rfl
  | cons n ns ih =>
    rw [List.foldl_cons, ih]
    unfold name
    split
    · rfl
    · split
      · split
        · rfl
        · rfl
      · rfl

/-- The names of all the extensions are gone through one behind the other. -/
theorem extensions (vars : SipIdentitiesVars) (exts : List X509Extension) :
    exts.foldl extension vars =
      ((exts.filter fun ext => ext.oid = "subjectAltName").flatMap fun ext => splitNames ext.value).foldl name
        { vars with verifyCn := vars.verifyCn && (exts.filter fun ext => ext.oid = "subjectAltName").isEmpty } := by
  induction exts generalizing vars with
  | nil =>
    show vars = { vars with verifyCn := vars.verifyCn && true }
    rw [Bool.and_true]
  | cons ext exts ih =>
    rw [List.foldl_cons, ih]
    unfold extension
    by_cases hoid : ext.oid = "subjectAltName"
    · have hfilter : (ext :: exts).filter (fun ext => ext.oid = "subjectAltName") =
          ext :: exts.filter fun ext => ext.oid = "subjectAltName" :=
        List.filter_cons_of_pos (decide_eq_true hoid)
      have hcn := verifyCn_names { vars with verifyCn := false } (splitNames ext.value)
      have hkept : ∀ (c : Bool) (v : SipIdentitiesVars), v.verifyCn = false → { v with verifyCn := v.verifyCn && c } = v := by
        rintro c ⟨_, _, _, _⟩ rfl
        rfl
      rw [if_neg (not_not.mpr hoid), hkept _ _ hcn, hfilter, List.flatMap_cons, List.foldl_append, List.isEmpty_cons,
        Bool.and_false]
    · have hfilter : (ext :: exts).filter (fun ext => ext.oid = "subjectAltName") =
          exts.filter fun ext => ext.oid = "subjectAltName" :=
        List.filter_cons_of_neg fun h => hoid (of_decide_eq_true h)
      rw [if_pos hoid, hfilter]

end SipIdentitiesVars

/-! ## Domains -/

theorem downcaseChar_eq_nonletter_iff {b c : UInt8} (hupper : ¬(65 ≤ c ∧ c ≤ 90)) (hlower : ¬(97 ≤ c ∧ c ≤ 122)) :
    downcaseChar b = c ↔ b = c := by
  unfold downcaseChar
  by_cases hb : 65 ≤ b ∧ b ≤ 90
  · rw [if_pos hb]
    simp only [UInt8.le_iff_toNat_le, UInt8.reduceToNat] at hb hlower
    have hadd : (b + 32).toNat = b.toNat + 32 := by
      rw [UInt8.toNat_add]
      exact Nat.mod_eq_of_lt (show b.toNat + 32 < 256 by omega)
    constructor
    · rintro rfl
      rw [hadd] at hlower
      omega
    · rintro rfl
      exact absurd hb hupper
  · rw [if_neg hb]

theorem ne_downcaseChar {c : UInt8} (hupper : ¬(65 ≤ c ∧ c ≤ 90)) (hlower : ¬(97 ≤ c ∧ c ≤ 122)) (b : UInt8) :
    decide (downcaseChar b ≠ c) = decide (b ≠ c) :=
  decide_eq_decide.mpr (not_congr (downcaseChar_eq_nonletter_iff hupper hlower))

theorem uriDomain_downcase (text : Bytes) : uriDomain (downcase text) = downcase (uriDomain text) := by
  have hhead : (downcase text).head? = some 91 ↔ text.head? = some 91 := by
    cases text with
    | nil => exact Iff.rfl
    | cons b text =>
      show some (downcaseChar b) = some 91 ↔ some b = some 91
      rw [Option.some.injEq, Option.some.injEq]
      exact downcaseChar_eq_nonletter_iff (by decide) (by decide)
  have hbracket : (fun b => decide (b ≠ 93)) ∘ downcaseChar = fun b => decide (b ≠ 93) :=
    funext (ne_downcaseChar (by decide) (by decide))
  have hdelimiter : (fun b : UInt8 => b ≠ 58 && b ≠ 59 && b ≠ 63) ∘ downcaseChar =
      fun b => b ≠ 58 && b ≠ 59 && b ≠ 63 := by
    funext b
    show (decide (downcaseChar b ≠ 58) && decide (downcaseChar b ≠ 59) && decide (downcaseChar b ≠ 63)) = _
    rw [ne_downcaseChar (by decide) (by decide), ne_downcaseChar (by decide) (by decide),
      ne_downcaseChar (by decide) (by decide)]
  unfold uriDomain
  by_cases htext : text.head? = some 91
  · rw [if_pos htext, if_pos (hhead.mpr htext)]
    unfold downcase
    rw [List.takeWhile_map, List.dropWhile_map, hbracket, ← List.map_take, List.map_append]
  · rw [if_neg htext, if_neg fun h => htext (hhead.mp h)]
    unfold downcase
    rw [List.takeWhile_map, hdelimiter]

theorem uriDomain_prefix_text (text : Bytes) : uriDomain text <+: text := by
  unfold uriDomain
  split
  · have hsplit := List.takeWhile_append_dropWhile (p := fun b : UInt8 => decide (b ≠ 93)) (l := text)
    have htake := List.take_prefix 1 (text.dropWhile (· ≠ 93))
    have hle := (List.prefix_append_right_inj (text.takeWhile (· ≠ 93))).mpr htake
    rw [hsplit] at hle
    exact hle
  · exact List.takeWhile_prefix _

/-- A domain is its own domain. -/
theorem uriDomain_uriDomain (text : Bytes) : uriDomain (uriDomain text) = uriDomain text := by
  by_cases hhead : text.head? = some 91
  · by_cases hmem : 93 ∈ text
    · obtain ⟨s, rest, rfl, hs⟩ := List.eq_append_cons_of_mem hmem
      have hdomain : uriDomain (s ++ 93 :: rest) = s ++ [93] := by
        unfold uriDomain
        rw [if_pos hhead, takeWhile_ne_append hs, dropWhile_ne_append hs]
        rfl
      have hhead' : (s ++ [93]).head? = some 91 := by
        cases s with
        | nil =>
          have hne : (93 : UInt8) ≠ 91 := by decide
          exact absurd (Option.some.inj hhead) hne
        | cons b s => exact hhead
      rw [hdomain]
      unfold uriDomain
      rw [if_pos hhead', takeWhile_ne_append hs, dropWhile_ne_append hs]
      rfl
    · have hdomain : uriDomain text = text := by
        unfold uriDomain
        rw [if_pos hhead, takeWhile_ne_of_notMem hmem, dropWhile_ne_of_notMem hmem]
        exact List.append_nil text
      rw [hdomain, hdomain]
  · have hdomain : uriDomain text = text.takeWhile fun b => b ≠ 58 && b ≠ 59 && b ≠ 63 := if_neg hhead
    have hhead' : (text.takeWhile fun b => b ≠ 58 && b ≠ 59 && b ≠ 63).head? ≠ some 91 := by
      cases text with
      | nil => exact hhead
      | cons b text =>
        rw [List.takeWhile_cons]
        split
        · exact hhead
        · exact Option.some_ne_none 91 ∘ Eq.symm
    rw [hdomain]
    unfold uriDomain
    rw [if_neg hhead', List.takeWhile_takeWhile]
    congr 1
    funext b
    exact Bool.eq_iff_iff.mpr (by rw [decide_eq_true_eq, and_self])

/-- A text that is a domain but for the case of the letters is its own domain. -/
theorem uriDomain_of_downcase_eq {text other : Bytes} (h : downcase text = downcase (uriDomain other)) :
    uriDomain text = text := by
  have hdomain : downcase (uriDomain text) = downcase text := by
    calc downcase (uriDomain text) = uriDomain (downcase text) := (uriDomain_downcase text).symm
      _ = uriDomain (downcase (uriDomain other)) := by rw [h]
      _ = downcase (uriDomain (uriDomain other)) := uriDomain_downcase _
      _ = downcase (uriDomain other) := by rw [uriDomain_uriDomain]
      _ = downcase text := h.symm
  have hlength := congrArg List.length hdomain
  rw [length_downcase, length_downcase] at hlength
  exact (uriDomain_prefix_text text).eq_of_length hlength

/-! ## What is returned -/

theorem mem_sipIdentitiesKeys_iff (domains : List Bytes) (domain : Bytes) :
    domain ∈ sipIdentitiesKeys domains ↔ domain ∈ domains := by
  have hnone := OrderedMap.find?_setAll_eq_none_iff OrderedMap.empty (domains.map fun d => (d, true)) domain
  have hkeys := OrderedMap.lookup_eq_none_iff_notMem
    (OrderedMap.empty.setAll (domains.map fun d => (d, true))).entries domain
  have hempty : (OrderedMap.empty : OrderedMap Bytes Bool).find? domain = none := rfl
  rw [hempty, and_iff_left rfl, List.map_map] at hnone
  have hfst : (Prod.fst ∘ fun d : Bytes => (d, true)) = id := rfl
  rw [hfst, List.map_id] at hnone
  exact not_iff_not.mp (hkeys.symm.trans hnone)

theorem nodup_sipIdentitiesKeys (domains : List Bytes) : (sipIdentitiesKeys domains).Nodup :=
  (OrderedMap.empty.setAll (domains.map fun domain => (domain, true))).nodup

namespace X509Certificate

variable (cert : X509Certificate)

/-- The pattern of a SIP URI notes the text. -/
def NotesSipUri (text : Bytes) : Prop := ∃ name ∈ cert.names, matchSipUri name = some text

def NotesDns (text : Bytes) : Prop := ∃ name ∈ cert.names, matchDns name = some text

theorem foldl_extensions : cert.extensions.foldl SipIdentitiesVars.extension {} =
    cert.names.foldl SipIdentitiesVars.name { verifyCn := cert.subjectAltNames.isEmpty } :=
  SipIdentitiesVars.extensions {} cert.extensions

theorem names_eq_nil (h : cert.subjectAltNames = []) : cert.names = [] := by
  unfold names
  rw [h]
  rfl

theorem nodup_getSipIdentities : (getSipIdentities (some cert)).Nodup := by
  unfold getSipIdentities
  dsimp only
  split
  · split
    · exact nodup_sipIdentitiesKeys _
    · exact nodup_sipIdentitiesKeys _
  · split
    · exact nodup_sipIdentitiesKeys _
    · exact nodup_sipIdentitiesKeys _

variable {cert}

theorem mem_getSipIdentities_of_cn (h : cert.subjectAltNames = []) (domain : Bytes) :
    domain ∈ getSipIdentities (some cert) ↔
      ∃ value, cert.subject.find? (fun e => e.1 = "CN") = some ("CN", value) ∧ domain = downcase value := by
  unfold getSipIdentities
  dsimp only
  rw [foldl_extensions, names_eq_nil cert h, h]
  show domain ∈ (match cert.subject.find? fun e => e.1 = "CN" with
    | some (_, value) => sipIdentitiesKeys [downcase value]
    | none => sipIdentitiesKeys []) ↔ _
  cases hfind : cert.subject.find? fun e => e.1 = "CN" with
  | none =>
    dsimp only
    rw [mem_sipIdentitiesKeys_iff]
    constructor
    · exact fun h => absurd h List.not_mem_nil
    · rintro ⟨value, hvalue, -⟩
      cases hvalue
  | some e =>
    obtain ⟨oid, value⟩ := e
    have hcn := List.find?_some hfind
    obtain rfl : oid = "CN" := of_decide_eq_true hcn
    dsimp only
    rw [mem_sipIdentitiesKeys_iff, List.mem_singleton]
    constructor
    · rintro rfl
      exact ⟨value, rfl, rfl⟩
    · rintro ⟨value', hvalue, rfl⟩
      rw [(Prod.mk.inj (Option.some.inj hvalue)).2]

theorem subjectAltNames_ne_nil {name : Bytes} (h : name ∈ cert.names) : cert.subjectAltNames ≠ [] := by
  intro hnil
  rw [names_eq_nil cert hnil] at h
  exact List.not_mem_nil h

theorem mem_getSipIdentities_of_sipUri {text : Bytes} (h : cert.NotesSipUri text) (domain : Bytes) :
    domain ∈ getSipIdentities (some cert) ↔ ∃ text, cert.NotesSipUri text ∧ domain = downcase text := by
  obtain ⟨name, hname, htext⟩ := h
  have hcn : cert.subjectAltNames.isEmpty = false := by
    rw [List.isEmpty_eq_false_iff]
    exact subjectAltNames_ne_nil hname
  have hdns : (cert.names.foldl SipIdentitiesVars.name { verifyCn := false }).verifySubjectAltNameDns = false := by
    rw [SipIdentitiesVars.verifyDns_names, Bool.true_and]
    apply List.all_eq_false.mpr
    refine ⟨name, hname, ?_⟩
    rw [htext]
    exact Bool.false_ne_true
  unfold getSipIdentities
  dsimp only
  rw [foldl_extensions, hcn, SipIdentitiesVars.verifyCn_names, hdns, SipIdentitiesVars.uriEntries_names]
  show domain ∈ sipIdentitiesKeys ((cert.names.filterMap matchSipUri).map downcase) ↔ _
  rw [mem_sipIdentitiesKeys_iff, List.mem_map]
  constructor
  · rintro ⟨text, htext, rfl⟩
    exact ⟨text, List.mem_filterMap.mp htext, rfl⟩
  · rintro ⟨text, htext, rfl⟩
    exact ⟨text, List.mem_filterMap.mpr htext, rfl⟩

theorem mem_getSipIdentities_of_dns (hsan : cert.subjectAltNames ≠ []) (hnone : ∀ text, ¬cert.NotesSipUri text)
    (domain : Bytes) :
    domain ∈ getSipIdentities (some cert) ↔ ∃ text, cert.NotesDns text ∧ domain = downcase text := by
  have hcn : cert.subjectAltNames.isEmpty = false := List.isEmpty_eq_false_iff.mpr hsan
  have hmatch : ∀ name ∈ cert.names, matchSipUri name = none :=
    fun name hname => Option.eq_none_iff_forall_ne_some.mpr fun text htext => hnone text ⟨name, hname, htext⟩
  have hdns : (cert.names.foldl SipIdentitiesVars.name { verifyCn := false }).verifySubjectAltNameDns = true := by
    rw [SipIdentitiesVars.verifyDns_names, Bool.true_and]
    apply List.all_eq_true.mpr
    intro name hname
    rw [hmatch name hname]
    rfl
  unfold getSipIdentities
  dsimp only
  rw [foldl_extensions, hcn, SipIdentitiesVars.verifyCn_names, hdns, SipIdentitiesVars.dnsEntries_names rfl hmatch]
  show domain ∈ sipIdentitiesKeys ((cert.names.filterMap matchDns).map downcase) ↔ _
  rw [mem_sipIdentitiesKeys_iff, List.mem_map]
  constructor
  · rintro ⟨text, htext, rfl⟩
    exact ⟨text, List.mem_filterMap.mp htext, rfl⟩
  · rintro ⟨text, htext, rfl⟩
    exact ⟨text, List.mem_filterMap.mpr htext, rfl⟩

end X509Certificate

/-! ## When the result is right -/

theorem matchLine_of_behindLiteral {literal name text : Bytes} (h : behindLiteral literal name = some text) :
    matchLine literal true name = some text := by
  cases name with
  | nil => exact h
  | cons b name =>
    show (behindLiteral literal (b :: name)).or (matchLine literal (b = 10) name) = some text
    rw [h, Option.some_or]

theorem matchSipUri_of_behindLiteral {name text : Bytes} (h : behindLiteral (ascii "URI:sip:") name = some text) :
    matchSipUri name = some (text.takeWhile (· ≠ 64)) := by
  unfold matchSipUri
  rw [matchLine_of_behindLiteral h, Option.map_some]

theorem matchDns_of_behindLiteral {name text : Bytes} (h : behindLiteral (ascii "DNS:") name = some text) :
    matchDns name = some (text.takeWhile (· ≠ 10)) := by
  unfold matchDns
  rw [matchLine_of_behindLiteral h, Option.map_some]

/-- What a pattern of DNS names notes is in one line. -/
theorem notMem_of_matchDns {name text : Bytes} (h : matchDns name = some text) : 10 ∉ text := by
  obtain ⟨rest, -, rfl⟩ := Option.map_eq_some_iff.mp h
  exact notMem_takeWhile_ne 10 rest

/-- **When the patterns find the identities.** The last two conditions are about names with line breaks, since `^`
is at the beginning of each line and `.` ends at the end of one. -/
structure Discerned (cert : X509Certificate) : Prop where
  /-- A SIP URI without userinfo is nothing but its domain. -/
  bareDomain : ∀ text, cert.SipUri text → 64 ∉ text → uriDomain text = text
  /-- When there is a SIP URI: what stands before the "@" of another one is the domain of one without userinfo. -/
  userinfo : (∃ uri, cert.SipUri uri) → ∀ name ∈ cert.names, ∀ text, matchSipUri name = some text →
    (∀ uri, behindLiteral (ascii "URI:sip:") name = some uri → 64 ∈ uri) →
    ∃ uri, cert.SipUri uri ∧ 64 ∉ uri ∧ downcase text = downcase uri
  /-- When there is none, but a later line of a name looks like one. -/
  laterLine : (∀ uri, ¬cert.SipUri uri) → (∃ text, cert.NotesSipUri text) →
    ∀ domain, (∃ text, cert.NotesSipUri text ∧ domain = downcase text) ↔ ∃ text, cert.DnsName text ∧ domain = downcase text
  /-- When no line looks like one. -/
  oneLine : (∀ text, ¬cert.NotesSipUri text) → (∀ text, cert.DnsName text → 10 ∉ text) ∧
    ∀ name ∈ cert.names, behindLiteral (ascii "DNS:") name = none → ∀ text, matchDns name = some text →
      ∃ other, cert.DnsName other ∧ downcase text = downcase other

namespace X509Certificate

variable {cert : X509Certificate}

theorem SipUri.notes {text : Bytes} (h : cert.SipUri text) : cert.NotesSipUri (text.takeWhile (· ≠ 64)) := by
  obtain ⟨name, hname, htext⟩ := h
  exact ⟨name, hname, matchSipUri_of_behindLiteral htext⟩

theorem SipUri.notes_of_noUserinfo {text : Bytes} (h : cert.SipUri text) (hat : 64 ∉ text) : cert.NotesSipUri text := by
  have hnotes := h.notes
  rw [takeWhile_ne_of_notMem hat] at hnotes
  exact hnotes

theorem DnsName.notes {text : Bytes} (h : cert.DnsName text) (hline : 10 ∉ text) : cert.NotesDns text := by
  obtain ⟨name, hname, htext⟩ := h
  refine ⟨name, hname, ?_⟩
  rw [matchDns_of_behindLiteral htext, takeWhile_ne_of_notMem hline]

theorem isSipIdentity_iff_of_sipUri {uri : Bytes} (h : cert.SipUri uri) (domain : Bytes) :
    IsSipIdentity cert domain ↔ ∃ text, cert.SipUri text ∧ 64 ∉ text ∧ domain = downcase (uriDomain text) := by
  constructor
  · rintro (⟨htext, hat⟩ | ⟨hnone, _⟩ | ⟨hnone, _⟩)
    · exact ⟨_, htext, hat, rfl⟩
    · exact absurd h (hnone uri)
    · obtain ⟨name, hname, -⟩ := h
      exact absurd hnone (subjectAltNames_ne_nil hname)
  · rintro ⟨text, htext, hat, rfl⟩
    exact .sipUri htext hat

theorem isSipIdentity_iff_of_dns (hsan : cert.subjectAltNames ≠ []) (h : ∀ uri, ¬cert.SipUri uri) (domain : Bytes) :
    IsSipIdentity cert domain ↔ ∃ text, cert.DnsName text ∧ domain = downcase text := by
  constructor
  · rintro (⟨htext, _⟩ | ⟨_, htext⟩ | ⟨hnone, _⟩)
    · exact absurd htext (h _)
    · exact ⟨_, htext, rfl⟩
    · exact absurd hnone hsan
  · rintro ⟨text, htext, rfl⟩
    exact .dns h htext

theorem isSipIdentity_iff_of_cn (hsan : cert.subjectAltNames = []) (domain : Bytes) :
    IsSipIdentity cert domain ↔
      ∃ value, cert.subject.find? (fun e => e.1 = "CN") = some ("CN", value) ∧ domain = downcase value := by
  have hnames := names_eq_nil cert hsan
  constructor
  · rintro (⟨⟨name, hname, _⟩, _⟩ | ⟨_, ⟨name, hname, _⟩⟩ | ⟨_, hvalue⟩)
    · rw [hnames] at hname
      exact absurd hname List.not_mem_nil
    · rw [hnames] at hname
      exact absurd hname List.not_mem_nil
    · exact ⟨_, hvalue, rfl⟩
  · rintro ⟨value, hvalue, rfl⟩
    exact .cn hsan hvalue

/-- The result is right when it has the identities; each is there once in any case. -/
theorem yieldsIdentities_iff_mem : YieldsIdentities cert ↔
    ∀ domain, domain ∈ getSipIdentities (some cert) ↔ IsSipIdentity cert domain :=
  and_iff_right (nodup_getSipIdentities cert)

/-- With a SIP URI. -/
theorem yields_iff_of_sipUri {uri : Bytes} (h : cert.SipUri uri) :
    YieldsIdentities cert ↔
      (∀ text, cert.SipUri text → 64 ∉ text → uriDomain text = text) ∧
        ∀ name ∈ cert.names, ∀ text, matchSipUri name = some text →
          (∀ uri, behindLiteral (ascii "URI:sip:") name = some uri → 64 ∈ uri) →
          ∃ uri, cert.SipUri uri ∧ 64 ∉ uri ∧ downcase text = downcase uri := by
  have hcode := mem_getSipIdentities_of_sipUri h.notes
  rw [yieldsIdentities_iff_mem]
  constructor
  · intro hyields
    -- what is noted is a domain
    have hnoted : ∀ text, cert.NotesSipUri text →
        ∃ uri, cert.SipUri uri ∧ 64 ∉ uri ∧ downcase text = downcase (uriDomain uri) := by
      intro text htext
      apply (isSipIdentity_iff_of_sipUri h _).mp
      apply (hyields _).mp
      exact (hcode _).mpr ⟨text, htext, rfl⟩
    have hbare : ∀ text, cert.SipUri text → 64 ∉ text → uriDomain text = text := by
      intro text htext hat
      obtain ⟨uri, -, -, hdomain⟩ := hnoted text (htext.notes_of_noUserinfo hat)
      exact uriDomain_of_downcase_eq hdomain
    refine ⟨hbare, ?_⟩
    intro name hname text htext _
    obtain ⟨uri, huri, hat, hdomain⟩ := hnoted text ⟨name, hname, htext⟩
    rw [hbare uri huri hat] at hdomain
    exact ⟨uri, huri, hat, hdomain⟩
  · rintro ⟨hbare, hothers⟩ domain
    rw [hcode, isSipIdentity_iff_of_sipUri h]
    constructor
    · rintro ⟨text, ⟨name, hname, htext⟩, rfl⟩
      by_cases huserinfo : ∀ uri, behindLiteral (ascii "URI:sip:") name = some uri → 64 ∈ uri
      · obtain ⟨uri, huri, hat, hdomain⟩ := hothers name hname text htext huserinfo
        refine ⟨uri, huri, hat, ?_⟩
        rw [hbare uri huri hat]
        exact hdomain
      · obtain ⟨uri, huri⟩ := not_forall.mp huserinfo
        obtain ⟨hbehind, hat⟩ := Classical.not_imp.mp huri
        have hmatch := matchSipUri_of_behindLiteral hbehind
        rw [htext, takeWhile_ne_of_notMem hat] at hmatch
        obtain rfl := Option.some.inj hmatch
        refine ⟨text, ⟨name, hname, hbehind⟩, hat, ?_⟩
        rw [hbare text ⟨name, hname, hbehind⟩ hat]
    · rintro ⟨text, htext, hat, rfl⟩
      refine ⟨text, htext.notes_of_noUserinfo hat, ?_⟩
      rw [hbare text htext hat]

/-- Without a line that looks like a SIP URI. -/
theorem yields_iff_of_dns (hsan : cert.subjectAltNames ≠ []) (hnone : ∀ text, ¬cert.NotesSipUri text) :
    YieldsIdentities cert ↔
      (∀ text, cert.DnsName text → 10 ∉ text) ∧
        ∀ name ∈ cert.names, behindLiteral (ascii "DNS:") name = none → ∀ text, matchDns name = some text →
          ∃ other, cert.DnsName other ∧ downcase text = downcase other := by
  have hnoUri : ∀ uri, ¬cert.SipUri uri := fun uri huri => hnone _ huri.notes
  have hcode := mem_getSipIdentities_of_dns hsan hnone
  have hspec := isSipIdentity_iff_of_dns hsan hnoUri
  rw [yieldsIdentities_iff_mem]
  constructor
  · intro hyields
    constructor
    · intro text htext hline
      obtain ⟨noted, ⟨name, -, hnoted⟩, heq⟩ := (hcode _).mp ((hyields _).mpr ((hspec _).mpr ⟨text, htext, rfl⟩))
      -- what is noted has no line break, in small letters neither
      have hmem : 10 ∈ downcase noted := by
        rw [← heq]
        exact List.mem_map.mpr ⟨10, hline, by decide⟩
      obtain ⟨b, hb, hbreak⟩ := List.mem_map.mp hmem
      rw [downcaseChar_eq_nonletter_iff (by decide) (by decide)] at hbreak
      rw [hbreak] at hb
      exact notMem_of_matchDns hnoted hb
    · intro name hname _ text htext
      exact (hspec _).mp ((hyields _).mp ((hcode _).mpr ⟨text, ⟨name, hname, htext⟩, rfl⟩))
  · rintro ⟨hline, hothers⟩ domain
    rw [hcode, hspec]
    constructor
    · rintro ⟨text, ⟨name, hname, htext⟩, rfl⟩
      cases hbehind : behindLiteral (ascii "DNS:") name with
      | none => exact hothers name hname hbehind text htext
      | some dns =>
        have hdns : cert.DnsName dns := ⟨name, hname, hbehind⟩
        have hmatch := matchDns_of_behindLiteral hbehind
        rw [htext, takeWhile_ne_of_notMem (hline dns hdns)] at hmatch
        obtain rfl := Option.some.inj hmatch
        exact ⟨text, hdns, rfl⟩
    · rintro ⟨text, htext, rfl⟩
      exact ⟨text, htext.notes (hline text htext), rfl⟩

/-- With a later line that looks like a SIP URI. -/
theorem yields_iff_of_laterLine (hnoUri : ∀ uri, ¬cert.SipUri uri) {text : Bytes} (h : cert.NotesSipUri text) :
    YieldsIdentities cert ↔ ∀ domain, (∃ text, cert.NotesSipUri text ∧ domain = downcase text) ↔
      ∃ text, cert.DnsName text ∧ domain = downcase text := by
  have hsan : cert.subjectAltNames ≠ [] := by
    obtain ⟨name, hname, -⟩ := h
    exact subjectAltNames_ne_nil hname
  rw [yieldsIdentities_iff_mem]
  apply forall_congr'
  intro domain
  rw [mem_getSipIdentities_of_sipUri h, isSipIdentity_iff_of_dns hsan hnoUri]

end X509Certificate

/-- A certificate for a person: its one name is a SIP URI with a user. -/
def sampleUserCertificate : X509Certificate where
  extensions := [⟨"subjectAltName", ascii "URI:sip:biloxi.com@example.org"⟩]
  subject := []

theorem sipUri_sample {text : Bytes} (h : sampleUserCertificate.SipUri text) :
    text = ascii "biloxi.com@example.org" := by
  have hnames : sampleUserCertificate.names = [ascii "URI:sip:biloxi.com@example.org"] := by decide
  have hbehind : behindLiteral (ascii "URI:sip:") (ascii "URI:sip:biloxi.com@example.org") =
      some (ascii "biloxi.com@example.org") := by decide
  obtain ⟨name, hname, htext⟩ := h
  rw [hnames] at hname
  rw [List.mem_singleton.mp hname, hbehind] at htext
  exact (Option.some.inj htext).symm

end OverSip
