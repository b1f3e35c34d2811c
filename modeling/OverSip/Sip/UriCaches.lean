import OverSip.Lib.Machine
import OverSip.Sip.UriObject

/-!
# The cached texts of a URI

What `uri` and `to_s` return, beside the text of the fields. `@uri_modified` is a mark for two texts: `uri`
builds `@uri` again and takes the mark away, and then `to_s` of a `NameAddr` takes the `@name_addr` that it has
for a good one. `coherent_iff` says that the texts are those of the fields in exactly the runs without this
and without two setters that leave an old `@uri` behind.
-/

namespace OverSip

/-! ## Calls -/

/-- A call of a method of a `Uri` or of a `NameAddr`. -/
inductive UriCall
  | set (setter : UriSetter)
  | displayName (value : Option Bytes)
  | uri
  /-- `to_s`, and `inspect` -/
  | toS
  | aor
  | isModified

/-- What a read returns. -/
inductive UriAnswer
  | text (text : Except RubyError (Option Bytes))
  | flag (value : Bool)

/-- An object with the text that was parsed, which is its text until a setter marks it or changes what is to be
written. -/
structure TrackedUri where
  object : UriObject
  source : Option Bytes

/-- `to_s` of a `NameAddr` around what `uri` returns. -/
def NamePart.wrap (n : NamePart) : Except RubyError (Option Bytes) → Except RubyError (Option Bytes)
  | .ok (some text) => .ok (some (n.head ++ text ++ [62]))
  | .ok none => .error .typeError
  | .error e => .error e

namespace TrackedUri

variable (escapeUri : Bytes → Bytes) (t : TrackedUri)

/-- The text of the URI. -/
def uriText : Except RubyError (Option Bytes) :=
  match t.source with
  | some text => .ok (some text)
  | none => t.object.fields.rendering escapeUri

/-- The text of the whole object. -/
def wholeText : Except RubyError (Option Bytes) :=
  match t.object.namePart with
  | none => t.uriText escapeUri
  | some n => n.wrap (t.uriText escapeUri)

def set (setter : UriSetter) : TrackedUri :=
  let (fields, mark) := t.object.fields.set setter
  { object := t.object.set setter
    source :=
      if mark = false ∧ fields.write escapeUri = t.object.fields.write escapeUri then t.source else none }

def step : UriCall → Option (TrackedUri × List UriAnswer)
  | .set setter => some (t.set escapeUri setter, [])
  | .displayName value => (t.object.setDisplayName value).map fun object => ({ t with object }, [])
  | .uri =>
    let (object, answer) := t.object.readUri escapeUri
    some ({ t with object }, [.text answer])
  | .toS =>
    let (object, answer) := t.object.readToS escapeUri
    some ({ t with object }, [.text answer])
  | .aor => some (t, [.text (t.object.aor escapeUri)])
  | .isModified => some (t, [.flag t.object.isModified])

/-- An object that comes from the parser, which makes a String of an unknown scheme, or from `initialize`. -/
inductive Initial : TrackedUri → Prop
  | parsed (fields : UriFields) (text : Bytes) (h : ∀ name, fields.scheme ≠ .symbol name) :
      Initial ⟨.ofParser fields text, some text⟩
  | parsedNameAddr (displayName : Option Bytes) (fields : UriFields) (text : Bytes)
      (h : ∀ name, fields.scheme ≠ .symbol name) :
      Initial ⟨.nameAddrOfParser displayName fields text, some text⟩
  | new (scheme : UriScheme) (user host : Option Bytes) (port : Option ℕ) :
      Initial ⟨.new scheme user host port, none⟩
  | newNameAddr (displayName : Option Bytes) (scheme : UriScheme) (user host : Option Bytes) (port : Option ℕ) :
      Initial ⟨.newNameAddr displayName scheme user host port, none⟩

/-- **Coherence.** `uri` and `to_s` would return the text of the fields. -/
structure Coherent : Prop where
  uri : (t.object.readUri escapeUri).2 = t.uriText escapeUri
  toS : (t.object.readToS escapeUri).2 = t.wholeText escapeUri

/-- The calls that leave an old text behind. -/
def Spoils : UriCall → Prop
  -- `uri` of a `NameAddr` takes the mark away for which `to_s` would not return its old text
  | .uri => t.object.uriModified = true ∧ ∃ n old text, t.object.namePart = some n ∧ n.modified = false ∧
      n.nameAddr = some old ∧ t.object.fields.write escapeUri = some (text, true) ∧ old ≠ n.head ++ text ++ [62]
  -- no text is built for the new scheme
  | .set (.scheme value) => t.object.fields.unknownScheme = false ∧
      (value ≠ .sip ∧ value ≠ .sips ∧ value ≠ .tel) ∧ t.object.uri ≠ none
  -- `@host` is nil when `Utils.ip_type` raises, and no mark has been set
  | .set (.host none) => (t.object.fields.scheme = .sip ∨ t.object.fields.scheme = .sips) ∧
      t.object.fields.host ≠ none ∧ t.object.uriModified = false
  | _ => False

end TrackedUri

/-! ## Setters -/

namespace UriFields

variable {escapeUri : Bytes → Bytes} {f : UriFields}

theorem write_eq_none_iff : f.write escapeUri = none ↔
    f.scheme ≠ .sip ∧ f.scheme ≠ .sips ∧ f.scheme ≠ .tel := by
  unfold write
  cases f.scheme <;> simp

/-- The text that is written depends on these variables alone. -/
theorem write_congr {g : UriFields} (hscheme : g.scheme = f.scheme) (huser : g.user = f.user)
    (hhost : g.host = f.host) (hport : g.port = f.port) (hparams : g.params = f.params)
    (hheaders : g.headers = f.headers) : g.write escapeUri = f.write escapeUri := by
  unfold write write.sipText userText portText
  rw [hscheme, huser, hhost, hport, hparams, hheaders]

theorem write_of_host (escapeUri : Bytes → Bytes) (hscheme : f.scheme = .sip ∨ f.scheme = .sips) :
    ∃ text, f.write escapeUri = some (text, f.host.isSome) := by
  unfold write write.sipText
  rcases hscheme with hs | hs
  · rw [hs]
    cases f.host <;> exact ⟨_, rfl⟩
  · rw [hs]
    cases f.host <;> exact ⟨_, rfl⟩

theorem write_delParam (k : Bytes) (h : (f.delParam k).2 = false) : (f.delParam k).1 = f := by
  unfold delParam at h ⊢
  split at h
  · cases h
  · next hnot => rw [if_neg hnot]

/-- A setter that sets no mark does not change what is written, but for `host=` with nil. -/
theorem write_set_of_unmarked (escapeUri : Bytes → Bytes) {setter : UriSetter} (h : (f.set setter).2 = false) :
    (f.set setter).1.write escapeUri = f.write escapeUri ∨
      setter = .host none ∧ (f.scheme = .sip ∨ f.scheme = .sips) ∧ f.host ≠ none ∧
        (f.set setter).1 = { f with host := none } := by
  have hdel : ∀ g : UriFields, ∀ k, (g.delParam k).2 = false → (g.delParam k).1 = g :=
    fun g k => write_delParam k
  unfold set at h ⊢
  by_cases hunknown : f.unknownScheme = true
  · rw [if_pos hunknown]
    exact .inl rfl
  · rw [if_neg hunknown] at h ⊢
    cases setter with
    | scheme value => cases h
    | user value => cases h
    | host value =>
      cases value with
      | some value => cases h
      | none =>
        by_cases hsip : (f.scheme = .sip ∨ f.scheme = .sips) ∧ f.host ≠ none
        · exact .inr ⟨rfl, hsip.1, hsip.2, rfl⟩
        · left
          show ({ f with host := none } : UriFields).write escapeUri = _
          by_cases hhost : f.host = none
          · exact write_congr rfl rfl hhost.symm rfl rfl rfl
          · have hscheme := not_or.mp fun hs => hsip ⟨hs, hhost⟩
            unfold write
            cases hs : f.scheme with
            | sip => exact absurd hs hscheme.1
            | sips => exact absurd hs hscheme.2
            | _ => rfl
    | hostType value => exact .inl (write_congr rfl rfl rfl rfl rfl rfl)
    | port value => cases h
    | setParam k v => cases h
    | delParam k =>
      left
      rw [hdel f k h]
    | clearParams =>
      left
      dsimp only at h ⊢
      split at h
      · cases h
      · next hnone => rw [if_neg hnone]
    | transportParam value =>
      left
      dsimp only at h ⊢
      split at h
      · next hsip =>
        rw [if_pos hsip]
        cases value with
        | some value => cases h
        | none =>
          dsimp only at h ⊢
          rw [hdel _ _ h]
          exact write_congr rfl rfl rfl rfl rfl rfl
      · next hsip => rw [if_neg hsip]
    | phoneContextParam value =>
      left
      dsimp only at h ⊢
      split at h
      · next htel =>
        rw [if_pos htel]
        cases value with
        | some value => cases h
        | none =>
          dsimp only at h ⊢
          rw [hdel _ _ h]
          exact write_congr rfl rfl rfl rfl rfl rfl
      · next htel => rw [if_neg htel]
    | headers value => cases h

theorem scheme_delParam (k : Bytes) : (f.delParam k).1.scheme = f.scheme := by
  unfold delParam
  split <;> rfl

/-- Only `scheme=` changes the scheme. -/
theorem scheme_set {setter : UriSetter} (h : ∀ value, setter ≠ .scheme value) :
    (f.set setter).1.scheme = f.scheme := by
  unfold set
  split
  · rfl
  · cases setter with
    | scheme value => exact absurd rfl (h value)
    | user value => rfl
    | host value => cases value <;> rfl
    | hostType value => rfl
    | port value => rfl
    | setParam k v => rfl
    | delParam k => exact scheme_delParam k
    | clearParams =>
      dsimp only
      split <;> rfl
    | transportParam value =>
      dsimp only
      split
      · cases value with
        | some value => rfl
        | none => exact scheme_delParam _
      · rfl
    | phoneContextParam value =>
      dsimp only
      split
      · cases value with
        | some value => rfl
        | none => exact scheme_delParam _
      · rfl
    | headers value => rfl

theorem scheme_set_of_unmarked {setter : UriSetter} (h : (f.set setter).2 = false) :
    (f.set setter).1.scheme = f.scheme := by
  by_cases hscheme : ∃ value, setter = .scheme value
  · obtain ⟨value, rfl⟩ := hscheme
    unfold set at h ⊢
    split at h
    · next hunknown => rw [if_pos hunknown]
    · cases h
  · exact scheme_set fun value heq => hscheme ⟨value, heq⟩

end UriFields

/-! ## Reading -/

namespace UriObject

variable {escapeUri : Bytes → Bytes} {o : UriObject} {n : NamePart}

theorem readUri_of_unmarked (h : o.uriModified = false) : o.readUri escapeUri = (o, .ok o.uri) := by
  unfold readUri
  rw [h]
  rfl

/-- The three ways in which `uri` ends when the mark is set. -/
theorem readUri_of_marked (escapeUri : Bytes → Bytes) (h : o.uriModified = true) :
    (∃ text, o.fields.write escapeUri = some (text, true) ∧
        o.readUri escapeUri = ({ o with uri := some text, uriModified := false }, .ok (some text))) ∨
      (∃ text, o.fields.write escapeUri = some (text, false) ∧
        o.readUri escapeUri = ({ o with uri := some text }, .error .typeError)) ∨
      o.fields.write escapeUri = none ∧
        o.readUri escapeUri = ({ o with uriModified := false }, .ok o.uri) := by
  unfold readUri
  rw [if_pos h]
  cases o.fields.write escapeUri with
  | none => exact .inr (.inr ⟨rfl, rfl⟩)
  | some p =>
    obtain ⟨text, done⟩ := p
    cases done with
    | true => exact .inl ⟨text, rfl, rfl⟩
    | false => exact .inr (.inl ⟨text, rfl, rfl⟩)

theorem readUri_rendering (h : o.uriModified = true) (hnone : o.fields.write escapeUri = none → o.uri = none) :
    (o.readUri escapeUri).2 = o.fields.rendering escapeUri := by
  unfold UriFields.rendering
  rcases readUri_of_marked escapeUri h with ⟨text, hwrite, hread⟩ | ⟨text, hwrite, hread⟩ | ⟨hwrite, hread⟩
  · rw [hread, hwrite]
  · rw [hread, hwrite]
  · rw [hread, hwrite, hnone hwrite]

/-- `to_s` builds its text around what `uri` returns. -/
theorem readNameAddr_of_not_kept (h : o.kept n = none) :
    (o.readNameAddr escapeUri n).2 = n.wrap (o.readUri escapeUri).2 ∧
      (o.readNameAddr escapeUri n).1 = { (o.readUri escapeUri).1 with
        namePart := some (match n.wrap (o.readUri escapeUri).2 with
          | .ok (some text) => { n with nameAddr := some text, modified := false }
          | _ => { n with nameAddr := some n.head }) } := by
  unfold readNameAddr
  rw [h]
  dsimp only
  obtain ⟨o', answer⟩ := o.readUri escapeUri
  cases answer with
  | error e => exact ⟨rfl, rfl⟩
  | ok text =>
    cases text with
    | none => exact ⟨rfl, rfl⟩
    | some text => exact ⟨rfl, rfl⟩

theorem readNameAddr_of_kept {text : Bytes} (h : o.kept n = some text) :
    o.readNameAddr escapeUri n = (o, .ok (some text)) := by
  unfold readNameAddr
  rw [h]

theorem kept_eq_some_iff {text : Bytes} :
    o.kept n = some text ↔ n.modified = false ∧ o.uriModified = false ∧ n.nameAddr = some text := by
  unfold kept
  cases n.modified <;> cases o.uriModified <;> simp

end UriObject

/-! ## Coherence -/

namespace TrackedUri

variable {escapeUri : Bytes → Bytes} {t t' : TrackedUri} {o : List UriAnswer}

/-- What holds in every run. -/
structure Tracked (t : TrackedUri) : Prop where
  /-- The parsed text is forgotten when the mark is set. -/
  unmarked : t.source ≠ none → t.object.uriModified = false
  /-- The parser makes no Symbol of an unknown scheme. -/
  parsed : t.source ≠ none → ∀ name, t.object.fields.scheme ≠ .symbol name
  /-- When the display name is not marked, there is a text of the URI. -/
  named : ∀ n, t.object.namePart = some n → n.modified = false → t.object.uri ≠ none

/-- The texts that are kept are those of the fields. -/
structure Cached (escapeUri : Bytes → Bytes) (t : TrackedUri) : Prop where
  uri : t.object.uriModified = false → t.uriText escapeUri = .ok t.object.uri
  unknown : t.object.uriModified = true → t.object.fields.write escapeUri = none → t.object.uri = none
  nameAddr : ∀ n text, t.object.namePart = some n → t.object.kept n = some text →
    t.wholeText escapeUri = .ok (some text)

theorem Tracked.source_eq_none (h : t.Tracked) (hmarked : t.object.uriModified = true) : t.source = none := by
  by_contra hsource
  rw [h.unmarked hsource] at hmarked
  cases hmarked

theorem uriText_of_none (h : t.source = none) : t.uriText escapeUri = t.object.fields.rendering escapeUri := by
  unfold uriText
  rw [h]

theorem wholeText_of_none (h : t.object.namePart = none) : t.wholeText escapeUri = t.uriText escapeUri := by
  unfold wholeText
  rw [h]

theorem wholeText_of_some {n : NamePart} (h : t.object.namePart = some n) :
    t.wholeText escapeUri = n.wrap (t.uriText escapeUri) := by
  unfold wholeText
  rw [h]

theorem readToS_of_none (h : t.object.namePart = none) :
    t.object.readToS escapeUri = t.object.readUri escapeUri := by
  unfold UriObject.readToS
  rw [h]

theorem readToS_of_some {n : NamePart} (h : t.object.namePart = some n) :
    t.object.readToS escapeUri = t.object.readNameAddr escapeUri n := by
  unfold UriObject.readToS
  rw [h]

theorem Cached.readUri (h : t.Cached escapeUri) (ht : t.Tracked) :
    (t.object.readUri escapeUri).2 = t.uriText escapeUri := by
  cases hmarked : t.object.uriModified with
  | false => rw [UriObject.readUri_of_unmarked hmarked, h.uri hmarked]
  | true =>
    rw [uriText_of_none (ht.source_eq_none hmarked)]
    exact UriObject.readUri_rendering hmarked (h.unknown hmarked)

/-- An object is coherent if and only if the texts that it keeps are those of the fields. -/
theorem coherent_iff_cached (ht : t.Tracked) : t.Coherent escapeUri ↔ t.Cached escapeUri := by
  constructor
  · intro h
    constructor
    · intro hmarked
      rw [← h.uri, UriObject.readUri_of_unmarked hmarked]
    · intro hmarked hwrite
      have hread := h.uri
      rw [uriText_of_none (ht.source_eq_none hmarked)] at hread
      rcases UriObject.readUri_of_marked escapeUri hmarked with
        ⟨text, hsome, _⟩ | ⟨text, hsome, _⟩ | ⟨_, heq⟩
      · rw [hwrite] at hsome
        cases hsome
      · rw [hwrite] at hsome
        cases hsome
      · rw [heq] at hread
        unfold UriFields.rendering at hread
        rw [hwrite] at hread
        exact Except.ok.inj hread
    · intro n text hname hkept
      rw [← h.toS, readToS_of_some hname, UriObject.readNameAddr_of_kept hkept]
  · intro h
    have huri := h.readUri ht
    refine ⟨huri, ?_⟩
    cases hname : t.object.namePart with
    | none => rw [readToS_of_none hname, wholeText_of_none hname, huri]
    | some n =>
      rw [readToS_of_some hname]
      cases hkept : t.object.kept n with
      | none => rw [(UriObject.readNameAddr_of_not_kept hkept).1, wholeText_of_some hname, huri]
      | some text => rw [UriObject.readNameAddr_of_kept hkept, h.nameAddr n text hname hkept]

/-! ## What a call makes of it -/

theorem set_of_marked (escapeUri : Bytes → Bytes) {setter : UriSetter} (h : (t.object.fields.set setter).2 = true) :
    t.set escapeUri setter =
      { object := { t.object with fields := (t.object.fields.set setter).1, uriModified := true }
        source := none } := by
  unfold set UriObject.set
  dsimp only
  rw [h, Bool.or_true, if_neg fun hfalse => Bool.noConfusion hfalse.1]

theorem set_of_unmarked (escapeUri : Bytes → Bytes) {setter : UriSetter} (h : (t.object.fields.set setter).2 = false) :
    t.set escapeUri setter =
      { object := { t.object with fields := (t.object.fields.set setter).1 }
        source :=
          if (t.object.fields.set setter).1.write escapeUri = t.object.fields.write escapeUri then t.source
          else none } := by
  unfold set UriObject.set
  dsimp only
  rw [h, Bool.or_false]
  congr 1
  exact if_congr (and_iff_right rfl) rfl rfl

theorem Tracked.set (h : t.Tracked) (setter : UriSetter) : (t.set escapeUri setter).Tracked := by
  cases hmark : (t.object.fields.set setter).2 with
  | true =>
    rw [set_of_marked escapeUri hmark]
    exact ⟨fun hsource => absurd rfl hsource, fun hsource => absurd rfl hsource, h.named⟩
  | false =>
    rw [set_of_unmarked escapeUri hmark]
    have hsource : (if (t.object.fields.set setter).1.write escapeUri = t.object.fields.write escapeUri then
        t.source else none) ≠ none → t.source ≠ none := by
      split
      · exact id
      · exact fun hnone => absurd rfl hnone
    refine ⟨fun hs => h.unmarked (hsource hs), fun hs name => ?_, h.named⟩
    show (t.object.fields.set setter).1.scheme ≠ .symbol name
    rw [UriFields.scheme_set_of_unmarked hmark]
    exact h.parsed (hsource hs) name

/-- A scheme that is not known is another Symbol or a String. -/
theorem symbol_or_string (h : t.object.fields.scheme ≠ .sip ∧ t.object.fields.scheme ≠ .sips ∧
    t.object.fields.scheme ≠ .tel) :
    (∃ name, t.object.fields.scheme = .symbol name) ∨ t.object.fields.unknownScheme = true := by
  obtain ⟨hsip, hsips, htel⟩ := h
  unfold UriFields.unknownScheme
  cases hs : t.object.fields.scheme with
  | sip => exact absurd hs hsip
  | sips => exact absurd hs hsips
  | tel => exact absurd hs htel
  | symbol name => exact .inl ⟨name, rfl⟩
  | string name => exact .inr rfl

theorem set_of_unknown {setter : UriSetter} (h : t.object.fields.unknownScheme = true) :
    t.set escapeUri setter = t := by
  have hset : t.object.fields.set setter = (t.object.fields, false) := by
    unfold UriFields.set
    rw [if_pos h]
  have hmark : (t.object.fields.set setter).2 = false := by rw [hset]
  rw [set_of_unmarked escapeUri hmark, hset, if_pos rfl]

/-- While a scheme for which no text is built has not been given, there is none to be left behind. -/
theorem Cached.uri_eq_none (h : t.Cached escapeUri) (ht : t.Tracked) {name : Bytes}
    (hscheme : t.object.fields.scheme = .symbol name) : t.object.uri = none := by
  have hwrite : t.object.fields.write escapeUri = none := by
    unfold UriFields.write
    rw [hscheme]
  cases hmarked : t.object.uriModified with
  | true => exact h.unknown hmarked hwrite
  | false =>
    have hsource : t.source = none := by
      by_contra hsource
      exact ht.parsed hsource name hscheme
    have huri := h.uri hmarked
    rw [uriText_of_none hsource] at huri
    unfold UriFields.rendering at huri
    rw [hwrite] at huri
    exact (Except.ok.inj huri).symm

/-- A setter that sets the mark. -/
theorem cached_set_of_marked {setter : UriSetter} (h : t.Cached escapeUri) (ht : t.Tracked)
    (hmark : (t.object.fields.set setter).2 = true) :
    (t.set escapeUri setter).Cached escapeUri ↔ ¬t.Spoils escapeUri (.set setter) := by
  have hknown : t.object.fields.unknownScheme = false := by
    by_contra hne
    unfold UriFields.set at hmark
    rw [if_pos (Bool.not_eq_false _ ▸ hne)] at hmark
    cases hmark
  have hcached : (t.set escapeUri setter).Cached escapeUri ↔
      ((t.object.fields.set setter).1.write escapeUri = none → t.object.uri = none) := by
    rw [set_of_marked escapeUri hmark]
    constructor
    · exact fun hc => hc.unknown rfl
    · intro hunknown
      refine ⟨fun hfalse => Bool.noConfusion hfalse, fun _ => hunknown, fun n text _ hkept => ?_⟩
      exact Bool.noConfusion (UriObject.kept_eq_some_iff.mp hkept).2.1
  rw [hcached]
  by_cases hscheme : ∃ value, setter = .scheme value
  · obtain ⟨value, rfl⟩ := hscheme
    have hset : (t.object.fields.set (.scheme value)).1.scheme = value := by
      unfold UriFields.set
      rw [hknown]
      rfl
    rw [UriFields.write_eq_none_iff, hset]
    constructor
    · exact fun hunknown hspoils => hspoils.2.2 (hunknown hspoils.2.1)
    · intro hno hother
      by_contra huri
      exact hno ⟨hknown, hother, huri⟩
  · have hsame : (t.object.fields.set setter).1.scheme = t.object.fields.scheme :=
      UriFields.scheme_set fun value heq => hscheme ⟨value, heq⟩
    refine iff_of_true (fun hwrite => ?_) ?_
    · rw [UriFields.write_eq_none_iff, hsame] at hwrite
      rcases symbol_or_string hwrite with ⟨name, hname⟩ | hstring
      · exact h.uri_eq_none ht hname
      · rw [hknown] at hstring
        cases hstring
    · intro hspoils
      cases setter with
      | scheme value => exact hscheme ⟨value, rfl⟩
      | host value =>
        cases value with
        | some value => exact hspoils
        | none =>
          unfold UriFields.set at hmark
          rw [hknown] at hmark
          cases hmark
      | _ => exact hspoils

/-- A setter that sets no mark. -/
theorem cached_set_of_unmarked {setter : UriSetter} (h : t.Cached escapeUri)
    (hmark : (t.object.fields.set setter).2 = false) :
    (t.set escapeUri setter).Cached escapeUri ↔ ¬t.Spoils escapeUri (.set setter) := by
  rcases UriFields.write_set_of_unmarked escapeUri hmark with
    hwrite | ⟨rfl, hscheme, hhost, hfields⟩
  · -- nothing changes that is written
    have hset := set_of_unmarked escapeUri hmark
    rw [if_pos hwrite] at hset
    have hrendering : (t.object.fields.set setter).1.rendering escapeUri = t.object.fields.rendering escapeUri := by
      unfold UriFields.rendering
      rw [hwrite]
    refine iff_of_true ?_ ?_
    · have huri : (t.set escapeUri setter).uriText escapeUri = t.uriText escapeUri := by
        rw [hset]
        unfold uriText
        dsimp only
        rw [hrendering]
      refine ⟨fun hfalse => ?_, fun htrue hnone => ?_, fun n text hname hkept => ?_⟩
      · rw [huri]
        rw [hset] at hfalse ⊢
        exact h.uri hfalse
      · rw [hset] at htrue hnone ⊢
        exact h.unknown htrue (hwrite.symm.trans hnone)
      · have hname' : t.object.namePart = some n := by
          rw [hset] at hname
          exact hname
        have hkept' : t.object.kept n = some text := by
          rw [hset] at hkept
          exact hkept
        rw [wholeText_of_some hname, huri, ← wholeText_of_some hname']
        exact h.nameAddr n text hname' hkept'
    · intro hspoils
      cases setter with
      | scheme value =>
        unfold UriFields.set at hmark
        rw [hspoils.1] at hmark
        cases hmark
      | host value =>
        cases value with
        | some value => exact hspoils
        | none =>
          -- without a host the text ends earlier
          obtain ⟨hscheme, hhost, _⟩ := hspoils
          have hknown : t.object.fields.unknownScheme = false := by
            unfold UriFields.unknownScheme
            rcases hscheme with hs | hs <;> rw [hs]
          have hfields : (t.object.fields.set (.host none)).1 = { t.object.fields with host := none } := by
            unfold UriFields.set
            rw [hknown]
            rfl
          obtain ⟨text, htext⟩ := UriFields.write_of_host escapeUri hscheme
          obtain ⟨text', htext'⟩ := UriFields.write_of_host (f := { t.object.fields with host := none })
            escapeUri hscheme
          rw [hfields, htext, htext', Option.isSome_iff_ne_none.mpr hhost] at hwrite
          cases hwrite
      | _ => exact hspoils
  · obtain ⟨text, htext⟩ := UriFields.write_of_host escapeUri hscheme
    obtain ⟨text', htext'⟩ := UriFields.write_of_host (f := { t.object.fields with host := none })
      escapeUri hscheme
    have hset := set_of_unmarked escapeUri hmark
    rw [hfields, htext, htext', if_neg] at hset
    · rw [hset]
      constructor
      · intro hc hspoils
        have huri := hc.uri hspoils.2.2
        rw [uriText_of_none rfl] at huri
        unfold UriFields.rendering at huri
        rw [htext'] at huri
        cases huri
      · intro hno
        have hmarked : t.object.uriModified = true := by
          by_contra hne
          exact hno ⟨hscheme, hhost, Bool.not_eq_true _ ▸ hne⟩
        refine ⟨fun hfalse => ?_, fun _ hnone => ?_, fun n text _ hkept => ?_⟩
        · rw [show t.object.uriModified = false from hfalse] at hmarked
          cases hmarked
        · rw [show ({ t.object.fields with host := none } : UriFields).write escapeUri = _ from htext'] at hnone
          cases hnone
        · have hfalse : t.object.uriModified = false := (UriObject.kept_eq_some_iff.mp hkept).2.1
          rw [hfalse] at hmarked
          cases hmarked
    · rw [Option.isSome_iff_ne_none.mpr hhost]
      exact nofun

/-! ## What a read makes of it -/

theorem Tracked.of_fields {object : UriObject} (h : t.Tracked) (hfields : object.fields = t.object.fields)
    (hmarked : t.object.uriModified = false → object.uriModified = false)
    (hnamed : ∀ n, object.namePart = some n → n.modified = false → object.uri ≠ none) :
    Tracked { t with object } := by
  refine ⟨fun hsource => hmarked (h.unmarked hsource), fun hsource => ?_, hnamed⟩
  show ∀ name, object.fields.scheme ≠ .symbol name
  rw [hfields]
  exact h.parsed hsource

theorem Tracked.readUri (h : t.Tracked) : Tracked { t with object := (t.object.readUri escapeUri).1 } := by
  cases hmarked : t.object.uriModified with
  | false =>
    rw [UriObject.readUri_of_unmarked hmarked]
    exact h
  | true =>
    rcases UriObject.readUri_of_marked escapeUri hmarked with
      ⟨text, _, hread⟩ | ⟨text, _, hread⟩ | ⟨_, hread⟩
    · rw [hread]
      exact h.of_fields rfl (fun _ => rfl) fun _ _ _ => Option.some_ne_none text
    · rw [hread]
      exact h.of_fields rfl id fun _ _ _ => Option.some_ne_none text
    · rw [hread]
      exact h.of_fields rfl (fun _ => rfl) h.named

/-- Reading the URI does not change its text. -/
theorem uriText_congr {object : UriObject} (h : object.fields = t.object.fields) :
    uriText escapeUri { t with object } = t.uriText escapeUri := by
  unfold uriText
  dsimp only
  rw [h]

theorem wholeText_congr (escapeUri : Bytes → Bytes) (t : TrackedUri) (object : UriObject) {n : NamePart}
    (h : object.fields = t.object.fields) (hname : object.namePart = some n) :
    wholeText escapeUri { t with object } = n.wrap (t.uriText escapeUri) := by
  unfold wholeText
  dsimp only
  rw [hname]
  dsimp only
  rw [uriText_congr h]

theorem fields_readUri (o : UriObject) : (o.readUri escapeUri).1.fields = o.fields := by
  unfold UriObject.readUri
  split
  · split <;> rfl
  · rfl

theorem namePart_readUri (o : UriObject) : (o.readUri escapeUri).1.namePart = o.namePart := by
  unfold UriObject.readUri
  split
  · split <;> rfl
  · rfl

/-- After `uri` the texts of the URI are good, and `@name_addr` is unless it has become an old text. -/
theorem cached_readUri_iff (h : t.Cached escapeUri) (ht : t.Tracked) :
    Cached escapeUri { t with object := (t.object.readUri escapeUri).1 } ↔ ¬t.Spoils escapeUri .uri := by
  cases hmarked : t.object.uriModified with
  | false =>
    rw [UriObject.readUri_of_unmarked hmarked]
    refine iff_of_true h fun hspoils => ?_
    rw [hspoils.1] at hmarked
    cases hmarked
  | true =>
    have hsource := ht.source_eq_none hmarked
    rcases UriObject.readUri_of_marked escapeUri hmarked with
      ⟨text, hwrite, hread⟩ | ⟨text, hwrite, hread⟩ | ⟨hwrite, hread⟩
    · have hobject : (t.object.readUri escapeUri).1 =
          { t.object with uri := some text, uriModified := false } := congrArg Prod.fst hread
      rw [hobject]
      have htext : t.uriText escapeUri = .ok (some text) := by
        rw [uriText_of_none hsource]
        unfold UriFields.rendering
        rw [hwrite]
      have hwhole : ∀ n, t.object.namePart = some n →
          wholeText escapeUri { t with object := { t.object with uri := some text, uriModified := false } } =
            .ok (some (n.head ++ text ++ [62])) := by
        intro n hname
        have hwrap := wholeText_congr escapeUri t { t.object with uri := some text, uriModified := false } rfl hname
        rw [htext] at hwrap
        exact hwrap
      constructor
      · rintro hc ⟨-, n, old, text', hname, hn, hold, hwrite', hne⟩
        rw [hwrite] at hwrite'
        cases hwrite'
        have hgood := hc.nameAddr n old hname (UriObject.kept_eq_some_iff.mpr ⟨hn, rfl, hold⟩)
        rw [hwhole n hname] at hgood
        exact hne (Option.some.inj (Except.ok.inj hgood)).symm
      · intro hno
        refine ⟨fun _ => ?_, fun hfalse => Bool.noConfusion hfalse, fun n old hname hkept => ?_⟩
        · exact (uriText_congr rfl).trans htext
        · obtain ⟨hn, _, hold⟩ := UriObject.kept_eq_some_iff.mp hkept
          have heq : old = n.head ++ text ++ [62] := by
            by_contra hne
            exact hno ⟨hmarked, n, old, text, hname, hn, hold, hwrite, hne⟩
          rw [hwhole n hname, heq]
    · -- `uri` raises, and the mark stays
      have hobject : (t.object.readUri escapeUri).1 = { t.object with uri := some text } := congrArg Prod.fst hread
      rw [hobject]
      constructor
      · rintro _ ⟨-, n, old, text', -, -, -, hwrite', -⟩
        rw [hwrite] at hwrite'
        cases hwrite'
      · intro _
        refine ⟨fun hfalse => ?_, fun _ hnone => ?_, fun n old _ hkept => ?_⟩
        · rw [show t.object.uriModified = false from hfalse] at hmarked
          cases hmarked
        · rw [show t.object.fields.write escapeUri = none from hnone] at hwrite
          cases hwrite
        · have hfalse : t.object.uriModified = false := (UriObject.kept_eq_some_iff.mp hkept).2.1
          rw [hfalse] at hmarked
          cases hmarked
    · have hnone := h.unknown hmarked hwrite
      have hobject : (t.object.readUri escapeUri).1 = { t.object with uriModified := false } :=
        congrArg Prod.fst hread
      rw [hobject]
      constructor
      · rintro _ ⟨-, n, old, text', -, -, -, hwrite', -⟩
        rw [hwrite] at hwrite'
        cases hwrite'
      · intro _
        refine ⟨fun _ => ?_, fun hfalse => Bool.noConfusion hfalse, fun n old hname hkept => ?_⟩
        · have huri : t.uriText escapeUri = .ok t.object.uri := by
            rw [uriText_of_none hsource, hnone]
            unfold UriFields.rendering
            rw [hwrite]
          exact (uriText_congr rfl).trans huri
        · exact absurd hnone (ht.named n hname (UriObject.kept_eq_some_iff.mp hkept).1)

/-- `uri` does not look at the name. -/
theorem readUri_namePart (o : UriObject) (p : Option NamePart) :
    UriObject.readUri escapeUri { o with namePart := p } =
      ({ (o.readUri escapeUri).1 with namePart := p }, (o.readUri escapeUri).2) := by
  unfold UriObject.readUri
  dsimp only
  split
  · split <;> rfl
  · rfl

theorem uri_of_readUri (o : UriObject) {text : Option Bytes} (h : (o.readUri escapeUri).2 = .ok text) :
    (o.readUri escapeUri).1.uri = text := by
  cases hmarked : o.uriModified with
  | false =>
    rw [UriObject.readUri_of_unmarked hmarked] at h ⊢
    exact Except.ok.inj h
  | true =>
    rcases UriObject.readUri_of_marked escapeUri hmarked with ⟨text', _, hread⟩ | ⟨text', _, hread⟩ | ⟨_, hread⟩
    · rw [hread] at h ⊢
      exact Except.ok.inj h
    · rw [hread] at h
      cases h
    · rw [hread] at h ⊢
      exact Except.ok.inj h

/-- When `uri` gives no text to write, the mark stays, or there is none. -/
theorem Cached.of_readUri (h : t.Cached escapeUri) (hno : ∀ text, (t.object.readUri escapeUri).2 ≠ .ok (some text)) :
    (t.object.readUri escapeUri).1.uriModified = true ∨ t.object.uri = none := by
  cases hmarked : t.object.uriModified with
  | false =>
    rw [UriObject.readUri_of_unmarked hmarked] at hno
    right
    by_contra huri
    obtain ⟨text, htext⟩ := Option.ne_none_iff_exists'.mp huri
    exact hno text (congrArg Except.ok htext)
  | true =>
    rcases UriObject.readUri_of_marked escapeUri hmarked with
      ⟨text, _, hread⟩ | ⟨text, _, hread⟩ | ⟨hwrite, _⟩
    · rw [hread] at hno
      exact absurd rfl (hno text)
    · rw [hread]
      exact .inl hmarked
    · exact .inr (h.unknown hmarked hwrite)

/-- The texts of the URI are good after `uri`, whatever becomes of the name. -/
theorem cached_readUri_without_name (h : t.Cached escapeUri) (ht : t.Tracked) :
    Cached escapeUri { t with object := { (t.object.readUri escapeUri).1 with namePart := none } } := by
  have hcached : Cached escapeUri { t with object := { t.object with namePart := none } } := by
    refine ⟨h.uri, h.unknown, fun n text hname _ => ?_⟩
    cases hname
  have htracked : Tracked { t with object := { t.object with namePart := none } } := by
    refine ⟨ht.unmarked, ht.parsed, fun n hname _ => ?_⟩
    cases hname
  have hread := (cached_readUri_iff hcached htracked).mpr <| by
    rintro ⟨-, n, old, text, hname, -⟩
    cases hname
  rw [readUri_namePart] at hread
  exact hread

/-- The part of a `NameAddr` that `to_s` has built a text for. -/
def builtPart (escapeUri : Bytes → Bytes) (t : TrackedUri) (n : NamePart) : NamePart :=
  match n.wrap (t.object.readUri escapeUri).2 with
  | .ok (some text) => { n with nameAddr := some text, modified := false }
  | _ => { n with nameAddr := some n.head }

theorem builtPart_cases (escapeUri : Bytes → Bytes) (t : TrackedUri) (n : NamePart) :
    (∃ text, (t.object.readUri escapeUri).2 = .ok (some text) ∧
        builtPart escapeUri t n = { n with nameAddr := some (n.head ++ text ++ [62]), modified := false }) ∨
      (∀ text, (t.object.readUri escapeUri).2 ≠ .ok (some text)) ∧
        builtPart escapeUri t n = { n with nameAddr := some n.head } := by
  unfold builtPart
  cases (t.object.readUri escapeUri).2 with
  | error e => exact .inr ⟨nofun, rfl⟩
  | ok text =>
    cases text with
    | none => exact .inr ⟨nofun, rfl⟩
    | some text => exact .inl ⟨text, rfl, rfl⟩

/-- The three ways of `to_s`. -/
theorem readToS_cases (escapeUri : Bytes → Bytes) (t : TrackedUri) :
    t.object.namePart = none ∧ (t.object.readToS escapeUri).1 = (t.object.readUri escapeUri).1 ∨
      (t.object.readToS escapeUri).1 = t.object ∨
      ∃ n, t.object.namePart = some n ∧ (t.object.readToS escapeUri).1 =
        { (t.object.readUri escapeUri).1 with namePart := some (builtPart escapeUri t n) } := by
  cases hname : t.object.namePart with
  | none =>
    left
    rw [readToS_of_none hname]
    exact ⟨rfl, rfl⟩
  | some n =>
    right
    rw [readToS_of_some hname]
    cases hkept : t.object.kept n with
    | some text =>
      left
      rw [UriObject.readNameAddr_of_kept hkept]
    | none =>
      right
      exact ⟨n, rfl, (UriObject.readNameAddr_of_not_kept hkept).2⟩

theorem Tracked.readToS (h : t.Tracked) : Tracked { t with object := (t.object.readToS escapeUri).1 } := by
  rcases readToS_cases escapeUri t with ⟨_, hread⟩ | hread | ⟨n, hname, hread⟩
  · rw [hread]
    exact h.readUri
  · rw [hread]
    exact h
  · have hafter : Tracked { t with object := (t.object.readUri escapeUri).1 } := h.readUri
    rw [hread]
    refine ⟨hafter.unmarked, hafter.parsed, fun n' hname' hn' => ?_⟩
    obtain rfl := Option.some.inj hname'
    rcases builtPart_cases escapeUri t n with ⟨text, htext, _⟩ | ⟨_, hbuilt⟩
    · show (t.object.readUri escapeUri).1.uri ≠ none
      rw [uri_of_readUri t.object htext]
      exact Option.some_ne_none text
    · rw [hbuilt] at hn'
      exact hafter.named n ((namePart_readUri t.object).trans hname) hn'

theorem Cached.readToS (h : t.Cached escapeUri) (ht : t.Tracked) :
    Cached escapeUri { t with object := (t.object.readToS escapeUri).1 } := by
  rcases readToS_cases escapeUri t with ⟨hname, hread⟩ | hread | ⟨n, hname, hread⟩
  · rw [hread]
    refine (cached_readUri_iff h ht).mpr ?_
    rintro ⟨-, n, old, text, hsome, -⟩
    rw [hname] at hsome
    cases hsome
  · rw [hread]
    exact h
  · have hwithout := cached_readUri_without_name h ht
    rw [hread]
    refine ⟨hwithout.uri, hwithout.unknown, fun n' old hname' hkept => ?_⟩
    obtain rfl := Option.some.inj hname'
    obtain ⟨hmodified, hunmarked, hold⟩ := UriObject.kept_eq_some_iff.mp hkept
    have hwhole := wholeText_congr escapeUri t
      { (t.object.readUri escapeUri).1 with namePart := some (builtPart escapeUri t n) }
      (fields_readUri t.object) rfl
    refine hwhole.trans ?_
    rw [← h.readUri ht]
    rcases builtPart_cases escapeUri t n with ⟨text, htext, hbuilt⟩ | ⟨hno, hbuilt⟩
    · rw [hbuilt] at hold ⊢
      obtain rfl := Option.some.inj hold
      rw [htext]
      rfl
    · -- a text was kept before, or the mark is still there
      rw [hbuilt] at hmodified
      rcases h.of_readUri hno with hmarked | hnone
      · rw [show (t.object.readUri escapeUri).1.uriModified = false from hunmarked] at hmarked
        cases hmarked
      · exact absurd hnone (ht.named n hname hmodified)

/-! ## Runs -/

theorem Tracked.step {call : UriCall} (h : t.Tracked) (hs : t.step escapeUri call = some (t', o)) : t'.Tracked := by
  cases call with
  | set setter =>
    obtain ⟨rfl, rfl⟩ := Prod.mk.inj (Option.some.inj hs)
    exact h.set setter
  | displayName value =>
    obtain ⟨object, hobject, heq⟩ := Option.map_eq_some_iff.mp hs
    obtain ⟨rfl, rfl⟩ := Prod.mk.inj heq
    obtain ⟨n, _, rfl⟩ := Option.map_eq_some_iff.mp hobject
    refine ⟨h.unmarked, h.parsed, fun n' hn' hmodified => ?_⟩
    obtain rfl := Option.some.inj hn'
    cases hmodified
  | uri =>
    obtain ⟨rfl, rfl⟩ := Prod.mk.inj (Option.some.inj hs)
    exact h.readUri
  | toS =>
    obtain ⟨rfl, rfl⟩ := Prod.mk.inj (Option.some.inj hs)
    exact h.readToS
  | aor =>
    obtain ⟨rfl, rfl⟩ := Prod.mk.inj (Option.some.inj hs)
    exact h
  | isModified =>
    obtain ⟨rfl, rfl⟩ := Prod.mk.inj (Option.some.inj hs)
    exact h

/-- A call keeps the texts good, but for those that leave an old one behind. -/
theorem cached_step_iff {call : UriCall} (h : t.Cached escapeUri) (ht : t.Tracked)
    (hs : t.step escapeUri call = some (t', o)) : t'.Cached escapeUri ↔ ¬t.Spoils escapeUri call := by
  cases call with
  | set setter =>
    obtain ⟨rfl, rfl⟩ := Prod.mk.inj (Option.some.inj hs)
    cases hmark : (t.object.fields.set setter).2 with
    | true => exact cached_set_of_marked h ht hmark
    | false => exact cached_set_of_unmarked h hmark
  | displayName value =>
    obtain ⟨object, hobject, heq⟩ := Option.map_eq_some_iff.mp hs
    obtain ⟨rfl, rfl⟩ := Prod.mk.inj heq
    obtain ⟨n, _, rfl⟩ := Option.map_eq_some_iff.mp hobject
    refine iff_of_true ⟨h.uri, h.unknown, fun n' text hn' hkept => ?_⟩ id
    obtain rfl := Option.some.inj hn'
    exact Bool.noConfusion (UriObject.kept_eq_some_iff.mp hkept).1
  | uri =>
    obtain ⟨rfl, rfl⟩ := Prod.mk.inj (Option.some.inj hs)
    exact cached_readUri_iff h ht
  | toS =>
    obtain ⟨rfl, rfl⟩ := Prod.mk.inj (Option.some.inj hs)
    exact iff_of_true (h.readToS ht) id
  | aor =>
    obtain ⟨rfl, rfl⟩ := Prod.mk.inj (Option.some.inj hs)
    exact iff_of_true h id
  | isModified =>
    obtain ⟨rfl, rfl⟩ := Prod.mk.inj (Option.some.inj hs)
    exact iff_of_true h id

theorem Initial.tracked (h : t.Initial) : t.Tracked := by
  cases h with
  | parsed fields text hscheme =>
    exact ⟨fun _ => rfl, fun _ => hscheme, fun _ _ _ => Option.some_ne_none text⟩
  | parsedNameAddr displayName fields text hscheme =>
    exact ⟨fun _ => rfl, fun _ => hscheme, fun _ _ _ => Option.some_ne_none text⟩
  | new scheme user host port =>
    exact ⟨fun hs => absurd rfl hs, fun hs => absurd rfl hs, fun n hn _ => nomatch hn⟩
  | newNameAddr displayName scheme user host port =>
    refine ⟨fun hs => absurd rfl hs, fun hs => absurd rfl hs, fun n hn hmodified => ?_⟩
    obtain rfl := Option.some.inj hn
    cases hmodified

theorem Initial.cached (h : t.Initial) : t.Cached escapeUri := by
  cases h with
  | parsed fields text hscheme =>
    exact ⟨fun _ => rfl, fun hs => Bool.noConfusion hs, fun n _ hn _ => nomatch hn⟩
  | parsedNameAddr displayName fields text hscheme =>
    refine ⟨fun _ => rfl, fun hs => Bool.noConfusion hs, fun n old hn hkept => ?_⟩
    obtain rfl := Option.some.inj hn
    cases (UriObject.kept_eq_some_iff.mp hkept).2.2
  | new scheme user host port =>
    exact ⟨fun hs => Bool.noConfusion hs, fun _ _ => rfl, fun n _ hn _ => nomatch hn⟩
  | newNameAddr displayName scheme user host port =>
    refine ⟨fun hs => Bool.noConfusion hs, fun _ _ => rfl, fun n old hn hkept => ?_⟩
    obtain rfl := Option.some.inj hn
    cases (UriObject.kept_eq_some_iff.mp hkept).1

/-- **Coherence of the cached texts.** The texts are those of the fields all along a run if and only if no call of
it leaves an old text behind. -/
theorem coherent_iff {t₀ : TrackedUri} {tr : List (StepRec TrackedUri UriCall UriAnswer)} (hinit : t₀.Initial)
    (hrun : Run (step escapeUri) t₀ tr t) :
    (t₀.Coherent escapeUri ∧ ∀ r ∈ tr, r.post.Coherent escapeUri) ↔ ∀ r ∈ tr, ¬r.pre.Spoils escapeUri r.ev := by
  have hfirst : t₀.Coherent escapeUri := (coherent_iff_cached hinit.tracked).mpr hinit.cached
  rw [and_iff_right hfirst]
  suffices h : t.Tracked ∧ ((∀ r ∈ tr, r.post.Coherent escapeUri) → t.Coherent escapeUri) ∧
      ((∀ r ∈ tr, r.post.Coherent escapeUri) ↔ ∀ r ∈ tr, ¬r.pre.Spoils escapeUri r.ev) from h.2.2
  induction hrun with
  | nil => exact ⟨hinit.tracked, fun _ => hfirst, iff_of_true (by simp) (by simp)⟩
  | @snoc tr s s' call answers _ hs ih =>
    obtain ⟨htracked, hlast, hiff⟩ := ih
    have htracked' := htracked.step hs
    -- the last step, from a coherent state
    have hstep : s.Coherent escapeUri → (s'.Coherent escapeUri ↔ ¬s.Spoils escapeUri call) := by
      intro hcoherent
      rw [coherent_iff_cached htracked']
      exact cached_step_iff ((coherent_iff_cached htracked).mp hcoherent) htracked hs
    refine ⟨htracked', fun hall => ?_, ?_⟩
    · exact hall ⟨s, call, answers, s'⟩ (List.mem_append_right _ (List.mem_singleton.mpr rfl))
    · rw [List.forall_mem_append, List.forall_mem_append, List.forall_mem_singleton, List.forall_mem_singleton]
      constructor
      · rintro ⟨hbefore, hafter⟩
        exact ⟨hiff.mp hbefore, (hstep (hlast hbefore)).mp hafter⟩
      · rintro ⟨hbefore, hafter⟩
        have hcoherent := hiff.mpr hbefore
        exact ⟨hcoherent, (hstep (hlast hcoherent)).mpr hafter⟩

/-- What `NameAddr.parse` makes of `<sip:a@h>`. -/
def sampleNameAddr : TrackedUri :=
  ⟨.nameAddrOfParser none { scheme := .sip, user := some (ascii "a"), host := some (ascii "h") } (ascii "sip:a@h"),
    some (ascii "sip:a@h")⟩

theorem initial_sampleNameAddr : sampleNameAddr.Initial :=
  .parsedNameAddr _ _ _ fun _ h => nomatch h

/-- A setter and then `to_s`. -/
theorem coherent_iff_sample : ∃ tr t, tr.map StepRec.ev = [.set (.user (some (ascii "b"))), .toS] ∧
    Run (step id) sampleNameAddr tr t ∧ sampleNameAddr.Coherent id ∧ ∀ r ∈ tr, r.post.Coherent id := by
  have hnil : Run (step id) sampleNameAddr [] sampleNameAddr := .nil
  have hrun := (hnil.snoc (e := .set (.user (some (ascii "b")))) rfl).snoc (e := .toS) rfl
  refine ⟨_, _, rfl, hrun, (coherent_iff initial_sampleNameAddr hrun).mpr ?_⟩
  rw [List.forall_mem_append, List.nil_append, List.forall_mem_singleton, List.forall_mem_singleton]
  exact ⟨id, id⟩

/-- `uri` between a setter and `to_s`, when there is a text from before. -/
theorem sample_not_coherent : sampleNameAddr.Initial ∧ ∃ tr t,
    tr.map StepRec.ev = [.toS, .set (.user (some (ascii "b"))), .uri] ∧ Run (step id) sampleNameAddr tr t ∧
      (t.object.readToS id).2 = .ok (some (ascii "<sip:a@h>")) ∧
      t.wholeText id = .ok (some (ascii "<sip:b@h>")) ∧ ¬t.Coherent id := by
  have hnil : Run (step id) sampleNameAddr [] sampleNameAddr := .nil
  have hread := hnil.snoc (e := .toS) rfl
  have hrun := (hread.snoc (e := .set (.user (some (ascii "b")))) rfl).snoc (e := .uri) rfl
  have hold : ∀ t : TrackedUri, (t.object.readToS id).2 = .ok (some (ascii "<sip:a@h>")) →
      t.wholeText id = .ok (some (ascii "<sip:b@h>")) → ¬t.Coherent id := by
    intro t hread hwhole hcoherent
    have heq := hcoherent.toS
    rw [hread, hwhole] at heq
    exact absurd (Option.some.inj (Except.ok.inj heq)) (by decide)
  exact ⟨initial_sampleNameAddr, _, _, rfl, hrun, rfl, rfl, hold _ rfl rfl⟩

end TrackedUri

end OverSip
