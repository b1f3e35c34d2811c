import OverSip.Lib.Decimal
import OverSip.Lib.OrderedMap
import OverSip.Sip.HeaderNames
import OverSip.Utils.IpUtils

/-!
# Uri objects with their cached texts

`Uri` (`uri.rb`) and its subclass `NameAddr` (`name_addr.rb`) byte by byte, with all that their methods leave in
the object: `@uri` and `@uri_modified`, which both classes use, and `@name_addr` and `@name_addr_modified`. `<<`
with nil raises, and what has been written up to there stays in the variable.

`escapeUri` is `EscapeUtils.escape_uri`.
-/

namespace OverSip

/-- A Symbol or a String. -/
inductive RubyName
  | symbol (text : Bytes)
  | string (text : Bytes)
deriving DecidableEq, Repr

/-- `to_s` -/
def RubyName.text : RubyName → Bytes
  | .symbol text => text
  | .string text => text

/-- `@scheme`: one of the three that are known, another Symbol, or no Symbol at all. -/
inductive UriScheme
  | sip | sips | tel
  | symbol (name : Bytes)
  | string (name : Bytes)
deriving DecidableEq, Repr

/-- `to_sym` -/
def UriScheme.toSym : UriScheme → UriScheme
  | .string name =>
    if name = ascii "sip" then .sip
    else if name = ascii "sips" then .sips
    else if name = ascii "tel" then .tel
    else .symbol name
  | scheme => scheme

/-- `@host_type` -/
inductive HostType
  | domain | ipv4 | ipv6 | ipv6Reference
deriving DecidableEq, Repr

def HostIpType.hostType : HostIpType → HostType
  | .ipv4 => .ipv4
  | .ipv6 => .ipv6
  | .ipv6Reference => .ipv6Reference

/-- `Utils.ip_type(host) || :domain` -/
def hostTypeOf (host : Bytes) : HostType := ((ipTypeOf host).map HostIpType.hostType).getD .domain

/-- `@params` -/
abbrev UriParams := OrderedMap Bytes (Option Bytes)

/-- The variables of a `Uri`, without the cached text. -/
structure UriFields where
  scheme : UriScheme
  user : Option Bytes := none
  host : Option Bytes := none
  hostType : Option HostType := none
  port : Option ℕ := none
  params : Option UriParams := none
  transportParam : Option RubyName := none
  phoneContextParam : Option RubyName := none
  ovidParam : Option Bytes := none
  lrParam : Bool := false
  obParam : Bool := false
  headers : Option Bytes := none

/-! ## The text of a URI -/

/-- `";" << k`, and `"=" << v` if there is a value. -/
def paramText (p : Bytes × Option Bytes) : Bytes :=
  59 :: p.1 ++ p.2.elim [] fun v => 61 :: v

def paramsText (params : Option UriParams) : Bytes := (params.elim [] OrderedMap.entries).flatMap paramText

namespace UriFields

variable (escapeUri : Bytes → Bytes) (f : UriFields)

/-- `unknown_scheme?` -/
def unknownScheme : Bool :=
  match f.scheme with
  | .string _ => true
  | _ => false

/-- The user with its "@". -/
def userText : Bytes := f.user.elim [] fun user => escapeUri user ++ [64]

def portText : Bytes := f.port.elim [] fun port => 58 :: Numerals.decimal port

/-- What `uri` writes: `none` of a scheme that it does not know, otherwise the text, and whether no `<<` has
raised. -/
def write : Option (Bytes × Bool) :=
  match f.scheme with
  | .sip => some (sipText (ascii "sip:"))
  | .sips => some (sipText (ascii "sips:"))
  | .tel => some <|
    match f.user with
    | some user => (ascii "tel:" ++ user ++ paramsText f.params, true)
    | none => (ascii "tel:", false)
  | .symbol _ => none
  | .string _ => none
where
  /-- Behind `sip:` or `sips:`. -/
  sipText (scheme : Bytes) : Bytes × Bool :=
    match f.host with
    | some host =>
      (scheme ++ f.userText escapeUri ++ host ++ f.portText ++ paramsText f.params ++ f.headers.getD [], true)
    | none => (scheme ++ f.userText escapeUri, false)

/-- The text of the fields; `none` of a scheme that is not known. -/
def rendering : Except RubyError (Option Bytes) :=
  match f.write escapeUri with
  | some (text, true) => .ok (some text)
  | some (_, false) => .error .typeError
  | none => .ok none

end UriFields

/-! ## Setters -/

/-- A call of a setter of `Uri`. -/
inductive UriSetter
  | scheme (value : UriScheme)
  | user (value : Option Bytes)
  | host (value : Option Bytes)
  | hostType (value : Option HostType)
  | port (value : Option ℕ)
  | setParam (k : Bytes) (v : Option Bytes)
  | delParam (k : Bytes)
  | clearParams
  | transportParam (value : Option RubyName)
  | phoneContextParam (value : Option RubyName)
  | headers (value : Option Bytes)

namespace UriFields

variable (f : UriFields)

/-- `set_param` -/
def setParam (k : Bytes) (v : Option Bytes) : UriFields :=
  { f with params := some ((f.params.getD .empty).set (downcase k) v) }

/-- The parameter is there. -/
def includes (k : Bytes) : Bool := f.params.any fun params => (params.find? (downcase k)).isSome

/-- `del_param`, with the mark that it sets. -/
def delParam (k : Bytes) : UriFields × Bool :=
  if f.includes k then ({ f with params := f.params.map fun params => params.erase (downcase k) }, true)
  else (f, false)

/-- What a setter makes of the fields, and whether it sets `@uri_modified`. `host=` with nil raises before it
gets there. -/
def set (setter : UriSetter) : UriFields × Bool :=
  if f.unknownScheme then (f, false)
  else
    match setter with
    | .scheme value => ({ f with scheme := value }, true)
    | .user value => ({ f with user := value }, true)
    | .host (some value) => ({ f with host := some value, hostType := some (hostTypeOf value) }, true)
    | .host none => ({ f with host := none }, false)
    | .hostType value => ({ f with hostType := value }, false)
    | .port value => ({ f with port := value }, true)
    | .setParam k v => (f.setParam k v, true)
    | .delParam k => f.delParam k
    | .clearParams =>
      if f.params.isSome then
        ({ f with params := some .empty, transportParam := none, phoneContextParam := none }, true)
      else (f, false)
    | .transportParam value =>
      if f.scheme = .sip ∨ f.scheme = .sips then
        match value with
        | some value =>
          ({ f with transportParam := some (.symbol value.text) }.setParam (ascii "transport") value.text, true)
        | none => { f with transportParam := none }.delParam (ascii "transport")
      else (f, false)
    | .phoneContextParam value =>
      if f.scheme = .tel then
        match value with
        | some value =>
          ({ f with phoneContextParam := some (.symbol value.text) }.setParam (ascii "phone-context") value.text,
            true)
        | none => { f with phoneContextParam := none }.delParam (ascii "phone-context")
      else (f, false)
    | .headers value => ({ f with headers := value }, true)

end UriFields

/-! ## Objects -/

/-- What a `NameAddr` has in addition. -/
structure NamePart where
  displayName : Option Bytes
  /-- `@name_addr` -/
  nameAddr : Option Bytes
  /-- `@name_addr_modified` -/
  modified : Bool
deriving DecidableEq, Repr

/-- A `Uri`, or a `NameAddr` with its part. -/
structure UriObject where
  fields : UriFields
  /-- `@uri` -/
  uri : Option Bytes
  /-- `@uri_modified` -/
  uriModified : Bool
  namePart : Option NamePart

/-- `"\"" << @display_name << "\" "` and the bracket behind it. -/
def NamePart.head (n : NamePart) : Bytes :=
  (n.displayName.elim [] fun displayName => 34 :: displayName ++ [34, 32]) ++ [60]

namespace UriObject

variable (escapeUri : Bytes → Bytes) (o : UriObject)

/-- An object that the parser has made; it sets no marks and no `@name_addr`. -/
def ofParser (fields : UriFields) (text : Bytes) : UriObject :=
  { fields, uri := some text, uriModified := false, namePart := none }

def nameAddrOfParser (displayName : Option Bytes) (fields : UriFields) (text : Bytes) : UriObject :=
  { ofParser fields text with namePart := some { displayName, nameAddr := none, modified := false } }

/-- `initialize` -/
def initialFields (scheme : UriScheme) (user host : Option Bytes) (port : Option ℕ) : UriFields :=
  { scheme := scheme.toSym, user, host, port, hostType := host.map hostTypeOf }

def new (scheme : UriScheme) (user host : Option Bytes) (port : Option ℕ) : UriObject :=
  { fields := initialFields scheme user host port, uri := none, uriModified := true, namePart := none }

def newNameAddr (displayName : Option Bytes) (scheme : UriScheme) (user host : Option Bytes) (port : Option ℕ) :
    UriObject :=
  { new scheme user host port with namePart := some { displayName, nameAddr := none, modified := true } }

/-- The method `uri`. When the scheme is not known `@uri` stays, and the mark goes. -/
def readUri : UriObject × Except RubyError (Option Bytes) :=
  if o.uriModified then
    match o.fields.write escapeUri with
    | some (text, true) => ({ o with uri := some text, uriModified := false }, .ok (some text))
    | some (text, false) => ({ o with uri := some text }, .error .typeError)
    | none => ({ o with uriModified := false }, .ok o.uri)
  else (o, .ok o.uri)

/-- The text that `to_s` of a `NameAddr` returns without looking at the fields. -/
def kept (n : NamePart) : Option Bytes := if n.modified || o.uriModified then none else n.nameAddr

/-- `to_s` of a `NameAddr`, which has the part `n`. -/
def readNameAddr (n : NamePart) : UriObject × Except RubyError (Option Bytes) :=
  match o.kept n with
  | some text => (o, .ok (some text))
  | none =>
    match o.readUri escapeUri with
    | (o, .ok (some text)) =>
      let text := n.head ++ text ++ [62]
      ({ o with namePart := some { n with nameAddr := some text, modified := false } }, .ok (some text))
    -- what has been written up to the `<<` that raises
    | (o, .ok none) => ({ o with namePart := some { n with nameAddr := some n.head } }, .error .typeError)
    | (o, .error e) => ({ o with namePart := some { n with nameAddr := some n.head } }, .error e)

/-- `to_s`, and `inspect`. -/
def readToS : UriObject × Except RubyError (Option Bytes) :=
  match o.namePart with
  | none => o.readUri escapeUri
  | some n => o.readNameAddr escapeUri n

/-- `modified?` -/
def isModified : Bool := o.uriModified || o.namePart.any NamePart.modified

/-- `aor` -/
def aor : Except RubyError (Option Bytes) :=
  match o.fields.scheme with
  | .sip | .sips =>
    match o.fields.host with
    | some host => .ok (some (ascii "sip:" ++ o.fields.userText escapeUri ++ host))
    | none => .error .typeError
  | .tel =>
    match o.fields.user with
    | some user => .ok (some (ascii "tel:" ++ user))
    | none => .error .typeError
  | _ => .ok none

/-- A setter of `Uri`. -/
def set (setter : UriSetter) : UriObject :=
  let (fields, mark) := o.fields.set setter
  { o with fields, uriModified := o.uriModified || mark }

/-- `display_name=`; a `Uri` has no such method. -/
def setDisplayName (value : Option Bytes) : Option UriObject :=
  o.namePart.map fun n => { o with namePart := some { n with displayName := value, modified := true } }

end UriObject

end OverSip
