import OverSip.Lib.OrderedMap

/-!
# URIs and name addresses

`Uri` and `NameAddr` (`uri.rb`, `name_addr.rb`) keep the text they were parsed from. A setter marks the
object as modified. `uri` and `to_s` build the text again when the object is marked, keep it and take the mark
away. `modified?` looks at the marks, so it says no once the text has been read.

A text that cannot be built, because the host of a SIP URI or the number of a tel URI is missing, is `none`:
the method raises. `escapeUri` is the one of `EscapeUtils`.
-/

namespace OverSip

/-! ## URIs -/

/-- `@scheme`: a symbol, or a string when it is unknown. -/
inductive Scheme
  | sip | sips | tel | unknown (scheme : String)
deriving DecidableEq, Repr

/-- The text of a URI, which begins with its scheme. -/
def IsUriText (text : String) : Prop := ∀ c ∈ text.toList.head?, c ≠ '<' ∧ c ≠ '"'

theorem head?_append {c : Char} {s : String} (t : String) (h : s.toList.head? = some c) :
    (s ++ t).toList.head? = some c := by
  rw [String.toList_append, List.head?_append, h, Option.some_or]

structure Uri where
  scheme : Scheme
  user : Option String
  host : Option String
  port : Option ℕ
  params : Option (OrderedMap String (Option String))
  headers : Option String
  /-- `@uri` -/
  text : String
  /-- `@uri_modified` -/
  modified : Bool
  text_isUriText : IsUriText text

namespace Uri

variable (escapeUri : String → String) (u : Uri)

/-- `unknown_scheme?` -/
def unknownScheme : Bool :=
  match u.scheme with
  | .unknown _ => true
  | _ => false

/-- The parameters as they are written. -/
def paramsText : String :=
  match u.params with
  | some params =>
    params.entries.foldl
      (fun s p => s ++ ";" ++ p.1 ++
        match p.2 with
        | some v => "=" ++ v
        | none => "") ""
  | none => ""

/-- `sip:` or `sips:` and what stands behind it. -/
def sipText (scheme host : String) : String :=
  scheme ++ ":" ++
    (match u.user with
      | some user => escapeUri user ++ "@"
      | none => "") ++ host ++
    (match u.port with
      | some port => ":" ++ toString port
      | none => "") ++ u.paramsText ++ u.headers.getD ""

/-- The text that `uri` builds. Of an unknown scheme it keeps the one that was parsed. -/
def build : Option String :=
  match u.scheme with
  | .sip => u.host.map (u.sipText escapeUri "sip")
  | .sips => u.host.map (u.sipText escapeUri "sips")
  | .tel => u.user.map fun user => "tel:" ++ user ++ u.paramsText
  | .unknown _ => some u.text

theorem isUriText_append {c : Char} {s t : String} (hc : c ≠ '<' ∧ c ≠ '"') (hs : s.toList.head? = some c) :
    IsUriText (s ++ t) := by
  intro c' hc'
  rw [head?_append t hs] at hc'
  obtain rfl := Option.some.inj hc'
  exact hc

theorem build_isUriText {text : String} (h : u.build escapeUri = some text) : IsUriText text := by
  unfold build at h
  split at h
  · obtain ⟨host, _, rfl⟩ := Option.map_eq_some_iff.mp h
    unfold sipText
    simp only [String.append_assoc]
    exact isUriText_append (by decide) rfl
  · obtain ⟨host, _, rfl⟩ := Option.map_eq_some_iff.mp h
    unfold sipText
    simp only [String.append_assoc]
    exact isUriText_append (by decide) rfl
  · obtain ⟨user, _, rfl⟩ := Option.map_eq_some_iff.mp h
    rw [String.append_assoc]
    exact isUriText_append (by decide) rfl
  · obtain rfl := Option.some.inj h
    exact u.text_isUriText

/-- `uri`: the text, and the object that keeps it. -/
def uri : Option (String × Uri) :=
  if u.modified then
    match h : u.build escapeUri with
    | some text =>
      some (text, { u with text, modified := false, text_isUriText := u.build_isUriText escapeUri h })
    | none => none
  else some (u.text, u)

/-- The text that `uri` gives is the one that is kept. -/
theorem uri_cases {text : String} {u' : Uri} (h : u.uri escapeUri = some (text, u')) :
    u'.text = text ∧ u'.modified = false := by
  unfold uri at h
  split at h
  · split at h
    · obtain ⟨rfl, rfl⟩ := Prod.mk.inj (Option.some.inj h)
      exact ⟨rfl, rfl⟩
    · cases h
  · next hmodified =>
    obtain ⟨rfl, rfl⟩ := Prod.mk.inj (Option.some.inj h)
    exact ⟨rfl, Bool.eq_false_iff.mpr hmodified⟩

theorem uri_of_not_modified (h : u.modified = false) : u.uri escapeUri = some (u.text, u) := by
  unfold uri
  rw [h]
  rfl

/-! ### Setters -/

/-- What an application does with a URI. -/
inductive Edit
  | scheme (value : Scheme)
  | user (value : Option String)
  | host (value : Option String)
  | port (value : Option ℕ)
  | setParam (k : String) (v : Option String)
  | delParam (k : String)
  | clearParams
  | headers (value : Option String)
deriving DecidableEq, Repr

/-- The setters. They do nothing to a URI of an unknown scheme, `del_param` nothing when the parameter is not
there, and `clear_params` nothing when there have never been any. -/
def edit (e : Edit) : Uri :=
  if u.unknownScheme then u
  else
    match e with
    | .scheme value => { u with scheme := value, modified := true }
    | .user value => { u with user := value, modified := true }
    | .host value => { u with host := value, modified := true }
    | .port value => { u with port := value, modified := true }
    | .setParam k v =>
      { u with params := some ((u.params.getD .empty).set k.toLower v), modified := true }
    | .delParam k =>
      match u.params with
      | some params =>
        if (params.find? k.toLower).isSome then
          { u with params := some (params.erase k.toLower), modified := true }
        else u
      | none => u
    | .clearParams => if u.params.isSome then { u with params := some .empty, modified := true } else u
    | .headers value => { u with headers := value, modified := true }

end Uri

/-! ## Name addresses -/

/-- The text of a name address, which begins with the display name or with `<`. -/
def IsNameAddrText (text : String) : Prop := ∃ c ∈ text.toList.head?, c = '<' ∨ c = '"'

theorem IsNameAddrText.ne_of_isUriText {s t : String} (h : IsNameAddrText s) (ht : IsUriText t) : s ≠ t := by
  rintro rfl
  obtain ⟨c, hc, hchar⟩ := h
  rcases hchar with rfl | rfl
  · exact (ht _ hc).1 rfl
  · exact (ht _ hc).2 rfl

structure NameAddr where
  uri : Uri
  displayName : Option String
  /-- `@name_addr` -/
  text : Option String
  /-- `@name_addr_modified` -/
  modified : Bool
  text_isNameAddrText : ∀ t ∈ text, IsNameAddrText t

namespace NameAddr

variable (escapeUri : String → String) (n : NameAddr)

/-- The display name in quotes. -/
def displayText : String :=
  match n.displayName with
  | some displayName => "\"" ++ displayName ++ "\" "
  | none => ""

/-- `modified?` -/
def isModified : Bool := n.uri.modified || n.modified

/-- `to_s` returns the text that it keeps. -/
def kept : Option String := if n.isModified then none else n.text

theorem displayText_isNameAddrText (uriText : String) : IsNameAddrText (n.displayText ++ "<" ++ uriText ++ ">") := by
  unfold displayText
  split
  · refine ⟨'"', ?_, .inr rfl⟩
    simp only [String.append_assoc]
    exact head?_append _ rfl
  · refine ⟨'<', ?_, .inl rfl⟩
    rw [String.empty_append]
    simp only [String.append_assoc]
    exact head?_append _ rfl

/-- `to_s`: the text, and the object that keeps it. -/
def toS : Option (String × NameAddr) :=
  match n.kept with
  | some text => some (text, n)
  | none =>
    (n.uri.uri escapeUri).map fun p =>
      (n.displayText ++ "<" ++ p.1 ++ ">",
        { n with
          uri := p.2
          text := some (n.displayText ++ "<" ++ p.1 ++ ">")
          modified := false
          text_isNameAddrText := by
            intro t ht
            obtain rfl := Option.some.inj ht
            exact n.displayText_isNameAddrText p.1 })

/-- The text that `to_s` gives is never the text of a URI. -/
theorem toS_isNameAddrText {text : String} {n' : NameAddr} (h : n.toS escapeUri = some (text, n')) :
    IsNameAddrText text := by
  unfold toS at h
  split at h
  · next hkept =>
    obtain ⟨rfl, rfl⟩ := Prod.mk.inj (Option.some.inj h)
    unfold kept at hkept
    split at hkept
    · cases hkept
    · exact n.text_isNameAddrText _ hkept
  · obtain ⟨p, _, heq⟩ := Option.map_eq_some_iff.mp h
    obtain ⟨rfl, _⟩ := Prod.mk.inj heq
    exact n.displayText_isNameAddrText p.1

theorem exists_toS_of_not_modified (h : n.uri.modified = false) : ∃ p, n.toS escapeUri = some p := by
  unfold toS
  split
  · exact ⟨_, rfl⟩
  · rw [n.uri.uri_of_not_modified escapeUri h]
    exact ⟨_, rfl⟩

theorem append_isNameAddrText {text : String} (h : IsNameAddrText text) (s : String) :
    IsNameAddrText (text ++ s) := by
  obtain ⟨c, hc, hchar⟩ := h
  exact ⟨c, head?_append s hc, hchar⟩

/-- `<<` to the text that `to_s` returned, which is the one that is kept. -/
def appendText (s : String) : NameAddr :=
  { n with
    text := n.text.map (· ++ s)
    text_isNameAddrText := by
      intro t ht
      obtain ⟨t', ht', rfl⟩ := Option.map_eq_some_iff.mp ht
      exact append_isNameAddrText (n.text_isNameAddrText t' ht') s }

/-- What `Request#to_s` does with an address: when it is modified, its text with `s` behind it is the new
value of the header. -/
def renderModified (s : String) : Option (Option String × NameAddr) :=
  if n.isModified then (n.toS escapeUri).map fun p => (some (p.1 ++ s), p.2.appendText s)
  else some (none, n)

/-- What an application does with a name address: the setters, and the two methods that read the text. -/
inductive Edit
  | displayName (value : Option String)
  | uri (e : Uri.Edit)
  | readUri
  | readText
deriving DecidableEq, Repr

def edit : Edit → Option NameAddr
  | .displayName value => some { n with displayName := value, modified := true }
  | .uri e => some { n with uri := n.uri.edit e }
  | .readUri => (n.uri.uri escapeUri).map fun p => { n with uri := p.2 }
  | .readText => (n.toS escapeUri).map Prod.snd

/-- The setters; the other two only read. -/
def Edit.sets : Edit → Bool
  | .displayName _ | .uri _ => true
  | .readUri | .readText => false

/-- Reading leaves an address that is not modified so. -/
theorem isModified_of_read {n' : NameAddr} {e : Edit} (h : n.isModified = false) (he : e.sets = false)
    (hn : n.edit escapeUri e = some n') : n'.isModified = false := by
  obtain ⟨huri, hmodified⟩ := Bool.or_eq_false_iff.mp h
  cases e with
  | displayName value => cases he
  | uri e => cases he
  | readUri =>
    have hread : n.edit escapeUri .readUri = some { n with uri := n.uri } := by
      show (n.uri.uri escapeUri).map _ = _
      rw [n.uri.uri_of_not_modified escapeUri huri]
      rfl
    rw [hread] at hn
    obtain rfl := Option.some.inj hn
    exact h
  | readText =>
    obtain ⟨p, hp, rfl⟩ := Option.map_eq_some_iff.mp hn
    unfold toS at hp
    split at hp
    · obtain rfl := Option.some.inj hp
      exact h
    · rw [n.uri.uri_of_not_modified escapeUri huri] at hp
      obtain rfl := Option.some.inj hp
      exact Bool.or_eq_false_iff.mpr ⟨huri, rfl⟩

theorem renderModified_of_not_modified (h : n.isModified = false) (s : String) :
    n.renderModified escapeUri s = some (none, n) := by
  unfold renderModified
  rw [h]
  rfl

end NameAddr

end OverSip
