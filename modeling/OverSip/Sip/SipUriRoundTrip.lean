import OverSip.Sip.SipUriPrinting

/-!
# The round trip of SIP URIs

A URI that is parsed, marked by a setter that changes nothing, printed and parsed again, also in angle brackets as a
`NameAddr`.
-/

namespace OverSip

open GrammarSipUri

/-! ## Parsed fields -/

/-- The fields of an accepted text can be printed, but for the user. -/
theorem printable_fields (inet : Inet) {text : Bytes} {p : SipUriParts} (h : readSipUri text = some p) :
    ∃ host, (p.fields inet).Printable inet host p.hostPart.hostType := by
  obtain ⟨hscheme, rest, hrest⟩ := of_readSipUri h
  have hvalid := (of_readHostPart hrest).1
  obtain ⟨host, hfields, hhost, hagain⟩ := uriHost_spec inet hvalid.host
  refine ⟨host, ?_, ?_, ?_, hhost, hagain, ?_, fun _ => p.isParsedEntry_of_mem inet, ?_⟩
  · rw [SipUriParts.fields_eq]
    exact hscheme
  · rw [SipUriParts.fields_eq]
    exact hfields
  · rw [SipUriParts.fields_eq]
    rfl
  · intro n hn
    rw [SipUriParts.port_fields] at hn
    obtain ⟨digits, hmem, hnumber⟩ := Option.map_eq_some_iff.mp hn
    exact port_range (hvalid.port digits hmem) hnumber
  · rw [SipUriParts.fields_eq]
    exact hvalid.headers

/-- The parameters that the text has, also in its userinfo. -/
def SipUriParts.paramNames (p : SipUriParts) : List Bytes := p.written.map Prod.fst

theorem mem_paramNames_iff (inet : Inet) (p : SipUriParts) (k : Bytes) :
    k ∈ p.paramNames ↔ (p.fields inet).allParams.find? k ≠ none := by
  rw [SipUriParts.allParams_fields, ne_eq, OrderedMap.find?_setAll_eq_none_iff, not_and_or, not_not]
  exact ⟨.inl, fun h => h.resolve_right fun hnone => hnone rfl⟩

/-- The user, as it is printed, is a userinfo, and the machine takes it for no more than a user: it sets no mark in
it, and what it reads as parameters are parameters of the text anyway. -/
structure SipUriParts.PrintsUser (p : SipUriParts) (user : Bytes) : Prop where
  userinfo : isUserinfo (escapeUri user) = true
  mark : (scanUserinfo (escapeUri user)).mark = none
  params : ∀ entry ∈ (scanUserinfo (escapeUri user)).reads.filterMap ParamRead.written, entry.1 ∈ p.paramNames

theorem printsUser_fields_iff (inet : Inet) (p : SipUriParts) (user : Bytes) :
    (p.fields inet).PrintsUser user ↔ p.PrintsUser user := by
  constructor
  · rintro ⟨huserinfo, hmark, hparams⟩
    exact ⟨huserinfo, hmark, fun entry hentry => (mem_paramNames_iff inet p entry.1).mpr (hparams entry hentry)⟩
  · rintro ⟨huserinfo, hmark, hparams⟩
    exact ⟨huserinfo, hmark, fun entry hentry => (mem_paramNames_iff inet p entry.1).mp (hparams entry hentry)⟩

/-! ## Objects -/

section

variable {f : UriFields} {text : Bytes}

/-- An object of the parser, when a setter has marked it. -/
theorem set_ofParser (n : Option NamePart) {setter : UriSetter} (h : f.set setter = (f, true)) :
    { UriObject.ofParser f text with namePart := n }.set setter =
      { fields := f, uri := some text, uriModified := true, namePart := n } := by
  unfold UriObject.set UriObject.ofParser
  dsimp only
  rw [h]
  rfl

/-- Then `to_s` prints the fields. -/
theorem readToS_ofParser {setter : UriSetter} {printed : Bytes} (hset : f.set setter = (f, true))
    (hwrite : f.write escapeUri = some (printed, true)) :
    (((UriObject.ofParser f text).set setter).readToS escapeUri).2 = .ok (some printed) := by
  have hobject : (UriObject.ofParser f text).set setter = _ := set_ofParser none hset
  rw [hobject]
  unfold UriObject.readToS UriObject.readUri
  dsimp only
  rw [hwrite]
  rfl

theorem readToS_nameAddrOfParser {setter : UriSetter} {printed : Bytes} (hset : f.set setter = (f, true))
    (hwrite : f.write escapeUri = some (printed, true)) :
    (((UriObject.nameAddrOfParser none f text).set setter).readToS escapeUri).2 =
      .ok (some (60 :: printed ++ [62])) := by
  have hobject : (UriObject.nameAddrOfParser none f text).set setter = _ := set_ofParser (some _) hset
  rw [hobject]
  unfold UriObject.readToS UriObject.readNameAddr UriObject.kept UriObject.readUri
  dsimp only
  rw [hwrite]
  rfl

theorem parseBracketed_append (inet : Inet) (text : Bytes) :
    parseBracketed inet (60 :: text ++ [62]) = parseSipUri inet text := by
  show (if (text ++ [62]).getLast? = some 62 then parseSipUri inet (text ++ [62]).dropLast else none) = _
  rw [List.getLast?_concat, if_pos rfl, List.dropLast_concat]

/-- **The round trip** of a parsed text, through `Uri.parse` and as `<text>` through `NameAddr.parse`: a setter that
changes no value makes the next `to_s` print the fields, and the printed text is read as the same URI. -/
structure RoundTrips (inet : Inet) (text : Bytes) (f : UriFields) : Prop where
  uri : ∀ setter, f.set setter = (f, true) →
    ∃ printed f', (((UriObject.ofParser f text).set setter).readToS escapeUri).2 = .ok (some printed) ∧
      parseSipUri inet printed = some f' ∧ f.SameUri f'
  parsed : parseBracketed inet (60 :: text ++ [62]) = some f
  nameAddr : ∀ setter, f.set setter = (f, true) →
    ∃ printed f', (((UriObject.nameAddrOfParser none f text).set setter).readToS escapeUri).2 = .ok (some printed) ∧
      parseBracketed inet printed = some f' ∧ f.SameUri f'

/-- `user=` with the user that is there. -/
theorem set_user_self (h : f.unknownScheme = false) : f.set (.user f.user) = (f, true) := by
  unfold UriFields.set
  rw [h]
  rfl

/-- A parsed URI comes through the round trip if and only if its user is printed as a user. -/
theorem roundTrips_iff {inet : Inet} (hparse : parseSipUri inet text = some f) :
    RoundTrips inet text f ↔ ∀ p ∈ readSipUri text, ∀ user ∈ p.user, p.PrintsUser user := by
  obtain ⟨p, hp, rfl⟩ := Option.map_eq_some_iff.mp hparse
  obtain ⟨host, hprintable⟩ := printable_fields inet hp
  have hwrite := hprintable.write
  have huser : (p.fields inet).user = p.user := by
    rw [SipUriParts.fields_eq]
    rfl
  have hcondition : (∀ q ∈ readSipUri text, ∀ user ∈ q.user, q.PrintsUser user) ↔
      ∀ user ∈ (p.fields inet).user, (p.fields inet).PrintsUser user := by
    rw [hp, huser]
    constructor
    · exact fun h user hmem => (printsUser_fields_iff inet p user).mpr (h p rfl user hmem)
    · intro h q hq user hmem
      obtain rfl := Option.some.inj hq
      exact (printsUser_fields_iff inet p user).mp (h user hmem)
  rw [hcondition, ← hprintable.readsBack_iff]
  constructor
  · intro h
    have hknown : (p.fields inet).unknownScheme = false := by
      unfold UriFields.unknownScheme
      rcases hprintable.scheme with hs | hs <;> rw [hs]
    have hset := set_user_self hknown
    obtain ⟨printed, f', hprinted, hread, hsame⟩ := h.uri _ hset
    rw [readToS_ofParser hset hwrite] at hprinted
    obtain rfl := Option.some.inj (Except.ok.inj hprinted)
    exact ⟨f', hread, hsame⟩
  · rintro ⟨f', hread, hsame⟩
    refine ⟨fun setter hset => ⟨_, f', readToS_ofParser hset hwrite, hread, hsame⟩, ?_, fun setter hset =>
      ⟨_, f', readToS_nameAddrOfParser hset hwrite, (parseBracketed_append inet _).trans hread, hsame⟩⟩
    rw [parseBracketed_append]
    exact hparse

/-- A user that is escaped and that could be a host. -/
theorem roundTrips_sample : ∃ f, parseSipUri .ofTexts (ascii "sips:al%20ice;lr;x@H.c.:5061;Transport=udp;lr?a=b") = some f ∧
    RoundTrips .ofTexts (ascii "sips:al%20ice;lr;x@H.c.:5061;Transport=udp;lr?a=b") f := by
  obtain ⟨f, hparse⟩ : ∃ f, parseSipUri .ofTexts (ascii "sips:al%20ice;lr;x@H.c.:5061;Transport=udp;lr?a=b") = some f :=
    Option.isSome_iff_exists.mp (by decide)
  refine ⟨f, hparse, (roundTrips_iff hparse).mpr ?_⟩
  have hread : (readSipUri (ascii "sips:al%20ice;lr;x@H.c.:5061;Transport=udp;lr?a=b")).map
      (fun p => (p.user, p.paramNames)) =
        some (some (ascii "al ice;lr;x"), [ascii "transport", ascii "lr"]) := by
    decide
  intro p hp user huser
  rw [Option.mem_def.mp hp] at hread
  obtain ⟨hpuser, hnames⟩ := Prod.mk.inj (Option.some.inj hread)
  obtain rfl := Option.some.inj ((Option.mem_def.mp huser).symm.trans hpuser)
  refine ⟨by decide, by decide, ?_⟩
  rw [hnames]
  decide

/-- `sip:a%40b@h` is printed as `sip:a@b@h`. -/
theorem escapedAt_not_roundTrips : ∃ f, parseSipUri .ofTexts (ascii "sip:a%40b@h") = some f ∧
    f.write escapeUri = some (ascii "sip:a@b@h", true) ∧ parseSipUri .ofTexts (ascii "sip:a@b@h") = none ∧
      ¬RoundTrips .ofTexts (ascii "sip:a%40b@h") f := by
  obtain ⟨f, hparse⟩ : ∃ f, parseSipUri .ofTexts (ascii "sip:a%40b@h") = some f :=
    Option.isSome_iff_exists.mp (by decide)
  have hvalues : (parseSipUri .ofTexts (ascii "sip:a%40b@h")).map (fun f => (f.unknownScheme, f.write escapeUri)) =
      some (false, some (ascii "sip:a@b@h", true)) := by decide
  rw [hparse] at hvalues
  obtain ⟨hknown, hwrite⟩ := Prod.mk.inj (Option.some.inj hvalues)
  have hnone : (parseSipUri .ofTexts (ascii "sip:a@b@h")).isNone = true := by decide
  refine ⟨f, hparse, hwrite, Option.isNone_iff_eq_none.mp hnone, fun h => ?_⟩
  obtain ⟨printed, f', hprinted, hread, _⟩ := h.uri _ (set_user_self hknown)
  rw [readToS_ofParser (set_user_self hknown) hwrite] at hprinted
  obtain rfl := Option.some.inj (Except.ok.inj hprinted)
  rw [Option.isNone_iff_eq_none.mp hnone] at hread
  cases hread

end

end OverSip
