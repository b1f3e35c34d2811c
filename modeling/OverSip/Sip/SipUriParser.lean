import OverSip.Sip.UriObject
import OverSip.Utils.Ports

/-!
# The parser of SIP URIs

The part of the parser of `Uri.parse` that reads SIP and SIPS URIs (`grammar_sip_uri.rl`, `sip_uri_parser.rl`),
with the functions that it calls (`sip_parser_ruby.c`).

No word before an "@" has one, so there is a userinfo if and only if there is an "@". Up to there the text may also
be the host that a URI without userinfo begins with, and the machine takes the actions of both: parameters are
written, and the mark at which the user begins is set again, for as long as the text could be a host with
parameters. `scanUserinfo` does this second reading.

`inet_pton` and `inet_ntop`, of the C library, are given with what they promise.
-/

namespace OverSip

open Regex

/-! ## The grammar -/

namespace GrammarSipUri

def isAlpha (b : UInt8) : Bool := (65 ≤ b && b ≤ 90) || (97 ≤ b && b ≤ 122)

def isAlphanum (b : UInt8) : Bool := isAlpha b || isDigit b

/-- One of these characters. -/
def isOneOf (chars : String) (b : UInt8) : Bool := (ascii chars).contains b

def isUnreserved (b : UInt8) : Bool := isAlphanum b || isOneOf "-_.!~*'()" b

def isTokenChar (b : UInt8) : Bool := isAlphanum b || isOneOf "-.!%*_+`'~" b

/-- `token` -/
def isToken (s : Bytes) : Bool := s != [] && s.all isTokenChar

/-- `( ok | escaped )*` -/
def isEscapedText (ok : UInt8 → Bool) : Bytes → Bool
  | 37 :: a :: b :: rest => isHexdig a && isHexdig b && isEscapedText ok rest
  | c :: rest => c != 37 && ok c && isEscapedText ok rest
  | [] => true

/-- `user_unreserved | unreserved`, and "#". -/
def isUserChar (b : UInt8) : Bool := isOneOf "&=+$,;?/#" b || isUnreserved b

def isPasswordChar (b : UInt8) : Bool := isOneOf "&=+$," b || isUnreserved b

/-- `userinfo` -/
def isUserinfo (s : Bytes) : Bool :=
  let user := s.takeWhile (· ≠ 58)
  user != [] && isEscapedText isUserChar user && isEscapedText isPasswordChar (s.drop (user.length + 1))

/-- `sip_uri_paramchar`, unescaped. -/
def isParamchar (b : UInt8) : Bool := isOneOf "[]/:&+$" b || isUnreserved b

/-- `sip_uri_paramchar+` -/
def isParamText (s : Bytes) : Bool := s != [] && isEscapedText isParamchar s

def isHeaderChar (b : UInt8) : Bool := isOneOf "[]/?:+$" b || isUnreserved b

/-- `sip_uri_header` -/
def isHeader (s : Bytes) : Bool :=
  let hname := s.takeWhile (· ≠ 61)
  hname != [] && isEscapedText isHeaderChar hname && s.contains 61 &&
    isEscapedText isHeaderChar (s.drop (hname.length + 1))

/-- `sip_uri_headers`, which begins with "?". -/
def isHeaders (s : Bytes) : Bool := s.head? == some 63 && ((s.drop 1).splitOn 38).all isHeader

def alphanum : Regex UInt8 := cls [(48, 57), (65, 90), (97, 122)]

def alpha : Regex UInt8 := cls [(65, 90), (97, 122)]

/-- `alphanum | "-" | "_"` -/
def labelChar : Regex UInt8 := cls [(48, 57), (65, 90), (97, 122), (45, 45), (95, 95)]

def domainlabel : Regex UInt8 := oneOf [alphanum, seq [alphanum, star labelChar, alphanum]]

def toplabel : Regex UInt8 := oneOf [alpha, seq [alpha, star labelChar, alphanum]]

def hostname : Regex UInt8 :=
  seq [star (seq [domainlabel, GrammarIp.lit "."]), toplabel, opt (GrammarIp.lit ".")]

end GrammarSipUri

open GrammarSipUri

/-- The alternatives of `host`, with the type that each gives. -/
def hostAlternatives : List (HostType × Regex UInt8) :=
  [(.domain, hostname), (.ipv4, GrammarIp.ipv4address), (.ipv6Reference, GrammarIp.ipv6reference)]

/-- The type of a host; no text is of two types. -/
def findHost (host : Bytes) : Option HostType :=
  (hostAlternatives.find? fun alternative => accepts alternative.2 host).map Prod.fst

/-! ## Parameters -/

/-- What `sip_uri_pname ( "=" sip_uri_pvalue )?` writes. A name may end with "=". -/
def paramEntry (param : Bytes) : Option (Bytes × Option Bytes) :=
  let pname := param.takeWhile (· ≠ 61)
  if isParamText pname then
    match param.dropWhile (· ≠ 61) with
    | [] => some (pname, none)
    | [_] => some (pname ++ [61], none)
    | _ :: 61 :: pvalue => if isParamText pvalue then some (pname ++ [61], some pvalue) else none
    | _ :: pvalue => if isParamText pvalue then some (pname, some pvalue) else none
  else none

/-- What stands behind the name and "=", when the parameter begins so. -/
def valueBehind (name : String) (param : Bytes) : Option Bytes :=
  let n := (ascii name).length + 1
  if downcase (param.take n) = ascii name ++ [61] then some (param.drop n) else none

/-- The token behind the name and "=". -/
def tokenBehind (name : String) (param : Bytes) : Option Bytes := (valueBehind name param).filter isToken

/-- `name ( "=" token )?` -/
def isFlag (name : String) (param : Bytes) : Bool :=
  downcase param == ascii name || (tokenBehind name param).isSome

/-- `sip_uri_param` -/
def isSipUriParam (param : Bytes) : Bool :=
  (paramEntry param).isSome || (tokenBehind "transport" param).isSome || isFlag "lr" param || isFlag "ob" param ||
    isFlag "ovid" param

/-- `uri_known_param` for a transport. -/
def transportOf (value : Bytes) : RubyName :=
  if downcase value ∈ [ascii "udp", ascii "tcp", ascii "tls", ascii "sctp", ascii "ws", ascii "wss"] then
    .symbol (downcase value)
  else .string (downcase value)

namespace UriFields

variable (f : UriFields)

/-- `uri_param`. The value nil is the one of a length of 0. -/
def writeParam (entry : Bytes × Option Bytes) : UriFields := f.setParam entry.1 entry.2

/-- A parameter up to the ";" or "?" behind it, or up to the end. -/
def readParam (param : Bytes) : UriFields :=
  { (paramEntry param).elim f f.writeParam with
    transportParam := ((tokenBehind "transport" param).map transportOf).or f.transportParam
    ovidParam := (tokenBehind "ovid" param).or f.ovidParam
    lrParam := f.lrParam || downcase param == ascii "lr" || (valueBehind "lr" param).isSome
    obParam := f.obParam || downcase param == ascii "ob" || (valueBehind "ob" param).isSome }

/-- A parameter that breaks off: `sip_uri_has_lr` and `sip_uri_has_ob` are taken when a "=" comes. -/
def beginParam (param : Bytes) : UriFields :=
  { f with
    lrParam := f.lrParam || (valueBehind "lr" param).isSome
    obParam := f.obParam || (valueBehind "ob" param).isSome }

end UriFields

/-- How far a parameter is read. -/
inductive ParamRead
  | whole (param : Bytes)
  | begun (param : Bytes)
deriving DecidableEq, Repr

def ParamRead.apply (f : UriFields) : ParamRead → UriFields
  | whole param => f.readParam param
  | begun param => f.beginParam param

/-! ## The userinfo as the beginning of a host -/

/-- What the machine does in the userinfo when it takes it for a host: it reads parameters, and sets the mark once
or more; `mark` is the text from the last mark on. -/
structure HostScan where
  reads : List ParamRead
  mark : Option Bytes
deriving DecidableEq, Repr

/-- `>mark` of a token behind "transport=" or "ovid=": what stands behind the "=", if it begins as a token. -/
def valueMark (param : Bytes) : Option Bytes :=
  ((valueBehind "transport" param).or (valueBehind "ovid" param)).filter fun value => value.head?.any isTokenChar

/-- Some parameters, with what stands from the first "?" on. -/
def scanParams (headers : Option Bytes) : List Bytes → HostScan
  -- `>mark` of the headers
  | [] => { reads := [], mark := headers }
  | param :: params =>
    let mark := (valueMark param).map fun value =>
      value ++ params.flatMap (fun param => 59 :: param) ++ headers.getD []
    if params = [] ∧ headers = none then { reads := [.begun param], mark }
    else if isSipUriParam param then
      let scan := scanParams headers params
      { reads := .whole param :: scan.reads, mark := scan.mark.or mark }
    else { reads := [.begun param], mark }

/-- The text from the first "?" on. -/
def headersOf (text : Bytes) : Option Bytes :=
  if 63 ∈ text then some (text.dropWhile (· ≠ 63)) else none

def scanUserinfo (userinfo : Bytes) : HostScan :=
  match (userinfo.takeWhile (· ≠ 63)).splitOn 59 with
  | [] => { reads := [], mark := none }
  | head :: params =>
    if 58 ∈ head then
      let name := head.takeWhile (· ≠ 58)
      let port := head.drop (name.length + 1)
      -- `>mark` of the port
      { reads := [], mark := if (findHost name).isSome && port.head?.any isDigit then some port else none }
    else if (findHost head).isSome then scanParams (headersOf userinfo) params
    else { reads := [], mark := none }

/-! ## The host and what follows -/

/-- `host ( ":" port )?` -/
structure HostPort where
  host : Bytes
  hostType : HostType
  port : Option Bytes
deriving DecidableEq, Repr

/-- Where the host ends: behind the bracket of an IPv6 reference, otherwise before a ":". -/
def hostLength (text : Bytes) : ℕ :=
  if text.head? = some 91 then (text.takeWhile (· ≠ 93)).length + 1 else (text.takeWhile (· ≠ 58)).length

def readHostPort (text : Bytes) : Option HostPort :=
  let host := text.take (hostLength text)
  (findHost host).bind fun hostType =>
    match text.drop (hostLength text) with
    | [] => some { host, hostType, port := none }
    | c :: port => if c = 58 ∧ isPort port = true then some { host, hostType, port := some port } else none

/-- What stands behind the userinfo. -/
structure HostPart extends HostPort where
  params : List Bytes
  headers : Option Bytes
deriving DecidableEq, Repr

def readHostPart (text : Bytes) : Option HostPart :=
  match (text.takeWhile (· ≠ 63)).splitOn 59 with
  | [] => none
  | head :: params =>
    if params.all isSipUriParam && (headersOf text).all isHeaders then
      (readHostPort head).map fun hostPort => { hostPort with params, headers := headersOf text }
    else none

/-! ## Uri.parse -/

/-- `inet_pton` and `inet_ntop` for `AF_INET6`. -/
structure Inet where
  Addr : Type
  pton : Bytes → Option Addr
  ntop : Addr → Bytes
  pton_ntop : ∀ a, pton (ntop a) = some a
  /-- What `ntop` writes is an address, in lower case. -/
  ntop_mem : ∀ a, ntop a ∈ lang GrammarIp.ipv6address
  downcase_ntop : ∀ a, downcase (ntop a) = ntop a
  pton_ne_none : ∀ str, str ∈ lang GrammarIp.ipv6address → pton str ≠ none

/-- `utils_normalize_ipv6` of an IPv6 reference. -/
def Inet.normalizeIpv6 (inet : Inet) (reference : Bytes) : Option Bytes :=
  (inet.pton (reference.drop 1).dropLast).map fun a => 91 :: inet.ntop a ++ [93]

/-- `if at[length-1] == '.'` -/
def withoutDot (host : Bytes) : Bytes := if host.getLast? = some 46 then host.dropLast else host

/-- `uri_host` -/
def uriHost (inet : Inet) (hostType : HostType) (host : Bytes) : Option Bytes :=
  let host := downcase (withoutDot host)
  if hostType = .ipv6Reference then inet.normalizeIpv6 host else some host

/-- The value of a hexadecimal digit. -/
def hexValue (b : UInt8) : ℕ :=
  if b ≤ 57 then b.toNat - 48 else if b ≤ 70 then b.toNat - 55 else b.toNat - 87

/-- `my_rb_str_hex_unescape`, of a text in which two digits stand behind each "%". -/
def hexUnescape : Bytes → Bytes
  | 37 :: a :: b :: rest => UInt8.ofNat (16 * hexValue a + hexValue b) :: hexUnescape rest
  | c :: rest => c :: hexUnescape rest
  | [] => []

/-- `sip:` or `sips:`, and what stands behind it. -/
def readScheme (text : Bytes) : Option (UriScheme × Bytes) :=
  if downcase (text.take 4) = ascii "sip:" then some (.sip, text.drop 4)
  else if downcase (text.take 5) = ascii "sips:" then some (.sips, text.drop 5)
  else none

/-- The parts of a URI. -/
structure SipUriParts where
  scheme : UriScheme
  userinfo : Option Bytes
  hostPart : HostPart
deriving DecidableEq, Repr

/-- `SIP_URI` -/
def readSipUri (text : Bytes) : Option SipUriParts :=
  (readScheme text).bind fun p =>
    if 64 ∈ p.2 then
      let userinfo := p.2.takeWhile (· ≠ 64)
      if isUserinfo userinfo then
        (readHostPart (p.2.drop (userinfo.length + 1))).map fun hostPart =>
          { scheme := p.1, userinfo := some userinfo, hostPart }
      else none
    else (readHostPart p.2).map fun hostPart => { scheme := p.1, userinfo := none, hostPart }

namespace SipUriParts

variable (inet : Inet) (p : SipUriParts)

def scan : HostScan := p.userinfo.elim { reads := [], mark := none } scanUserinfo

/-- The parameters that are read, also in the userinfo. -/
def reads : List ParamRead := p.scan.reads ++ p.hostPart.params.map .whole

/-- `uri_user`, of the text from the last mark on. -/
def user : Option Bytes := p.userinfo.map fun userinfo => hexUnescape (p.scan.mark.getD userinfo)

/-- The variables of the new object, but for those of the parameters. -/
def otherFields : UriFields where
  scheme := p.scheme
  user := p.user
  host := uriHost inet p.hostPart.hostType p.hostPart.host
  hostType := some p.hostPart.hostType
  port := p.hostPart.port.map fun port => (strToInt port port.length).toNat
  headers := p.hostPart.headers

/-- The variables of the new object. -/
def fields : UriFields := p.reads.foldl ParamRead.apply (p.otherFields inet)

end SipUriParts

/-- `Uri.parse` of a SIP or SIPS URI. -/
def parseSipUri (inet : Inet) (text : Bytes) : Option UriFields :=
  (readSipUri text).map (SipUriParts.fields inet)

/-- `NameAddr.parse` of a SIP or SIPS URI in angle brackets, with no display name before it and no parameters
behind it. -/
def parseBracketed (inet : Inet) : Bytes → Option UriFields
  | 60 :: rest => if rest.getLast? = some 62 then parseSipUri inet rest.dropLast else none
  | _ => none

/-! ## Lower case -/

/-- The letters that `downcase` changes. -/
def upperCase : List UInt8 := (List.range 26).map fun n => UInt8.ofNat (65 + n)

theorem mem_upperCase (b : UInt8) : b ∈ upperCase ∨ downcaseChar b = b := by
  apply byte_forall (p := fun b => b ∈ upperCase ∨ downcaseChar b = b)
  decide +kernel

theorem downcase_mem {r : Regex UInt8} (h : keeps downcaseChar upperCase r = true) {s : Bytes} (hs : s ∈ lang r) :
    downcase s ∈ lang r :=
  map_mem_of_keeps mem_upperCase h hs

theorem downcase_mem_ipv6address {s : Bytes} (hs : s ∈ lang GrammarIp.ipv6address) :
    downcase s ∈ lang GrammarIp.ipv6address :=
  downcase_mem (by decide) hs

/-- Functions that take an address for its text, in lower case. -/
def Inet.ofTexts : Inet where
  Addr := { s : Bytes // s ∈ lang GrammarIp.ipv6address ∧ downcase s = s }
  pton str :=
    if h : str ∈ lang GrammarIp.ipv6address then
      some ⟨downcase str, downcase_mem_ipv6address h, downcase_downcase str⟩
    else none
  ntop a := a.1
  pton_ntop := by
    rintro ⟨s, hs, hdowncase⟩
    rw [dif_pos hs]
    exact congrArg some (Subtype.ext hdowncase)
  ntop_mem a := a.2.1
  downcase_ntop a := a.2.2
  pton_ne_none := by
    intro str hstr
    rw [dif_pos hstr]
    exact Option.some_ne_none _

end OverSip
