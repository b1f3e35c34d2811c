import OverSip.Lib.Arrays
import OverSip.Sip.Message
import OverSip.Sip.ViaValues
import OverSip.Utils.IpUtils

/-!
# Via rewriting

`add_via_received_rport` (`message_processor.rb`) writes the top Via of a request again, from the pieces that the
actions of the parser have collected (`sip_message_parser.rl`, `sip_parser_ruby.c`). The Array of the Via values is
an object that `@headers` and `@hdr_via` share.

`addViaReceivedRport_rewrites` says what the written value is read as.
-/

namespace OverSip

open Regex GrammarSipUri GrammarIp Numerals

/-! ## The attributes of the top Via -/

/-- The attributes of a message that its top Via gives. -/
structure ViaAttrs where
  viaSentByHost : Option Bytes
  viaSentByPort : Option Int
  viaBranch : Option Bytes
  viaBranchRfc3261 : Bool
  viaReceived : Option Bytes
  viaHasRport : Bool
  viaHasAlias : Bool
  viaCoreValue : Option Bytes
  viaParams : Option (OrderedMap Bytes (Option Bytes))

/-- The calls of the actions. -/
inductive ViaAction
  | viaSentByHost (text : Bytes)
  | viaSentByPort (text : Bytes)
  | viaBranch (text : Bytes)
  | viaBranchRfc3261
  | viaReceived (text : Bytes)
  | viaHasRport
  | viaHasAlias
  | headerCoreValue (text : Bytes)
  | headerParam (key : Bytes) (value : Option Bytes)
deriving DecidableEq, Repr

namespace ViaAttrs

/-- Those of a new message. -/
def init : ViaAttrs where
  viaSentByHost := none
  viaSentByPort := none
  viaBranch := none
  viaBranchRfc3261 := false
  viaReceived := none
  viaHasRport := false
  viaHasAlias := false
  viaCoreValue := none
  viaParams := none

/-- `header_param` -/
def headerParam (a : ViaAttrs) (key : Bytes) (value : Option Bytes) : ViaAttrs :=
  { a with viaParams := some ((a.viaParams.getD .empty).set (downcase key) value) }

def act (a : ViaAttrs) : ViaAction → ViaAttrs
  | .viaSentByHost host => { a with viaSentByHost := some host }
  | .viaSentByPort port => { a with viaSentByPort := some (strToInt port port.length) }
  | .viaBranch branch => { a with viaBranch := some branch }
  | .viaBranchRfc3261 => { a with viaBranchRfc3261 := true }
  | .viaReceived ip => { a with viaReceived := some ip }
  | .viaHasRport => { a with viaHasRport := true }
  | .viaHasAlias => { a with viaHasAlias := true }
  | .headerCoreValue core => if core = [] then a else { a with viaCoreValue := some core }
  | .headerParam key value => a.headerParam key value

end ViaAttrs

/-- The actions behind a parameter. `write_via_param` is also taken at white space before the "=", where the
parameter has no value yet. -/
def ViaParam.actions : ViaParam → List ViaAction
  | branch value => (if (branch value).isRfc3261 then [.viaBranchRfc3261] else []) ++ [.viaBranch value]
  | received ip => [.viaReceived ip]
  | rport _ => [.viaHasRport]
  | hasAlias _ => [.viaHasAlias]
  | other name none => [.headerParam name none]
  | other name (some (white, value)) =>
    (if white = [] then [] else [.headerParam name none]) ++ [.headerParam name (some value)]

/-- The actions of a value; of the calls with the core the last one stays. -/
def ViaValue.actions (v : ViaValue) : List ViaAction :=
  .viaSentByHost v.sent.host :: (v.sent.port.toList.map .viaSentByPort ++
    .headerCoreValue v.core :: v.params.flatMap ViaParam.actions)

/-! ## The message -/

/-- A message, as far as its Via is concerned. The values of a header are an Array. -/
structure ViaMessage extends ViaAttrs where
  arrays : Arrays Bytes
  headers : OrderedMap Bytes ℕ
  hdrVia : Option ℕ
  viaRport : Option ℕ
  sourceIp : Bytes
  sourcePort : ℕ

def viaKey : Bytes := ascii "Via"

/-- A line of a header, or a value of a Via header. -/
inductive HeaderEntry
  | via (name text : Bytes) (value : ViaValue) (key : headerize name = viaKey) (read : readVia text = some value)
  | other (name text : Bytes) (key : headerize name ≠ viaKey)

/-- The values of the Via headers with their texts. -/
def viasOf : List HeaderEntry → List (Bytes × ViaValue)
  | [] => []
  | .via _ text value _ _ :: rest => (text, value) :: viasOf rest
  | .other _ _ _ :: rest => viasOf rest

/-- The address that a message comes from. -/
structure SourceAddress where
  ip : Bytes
  port : ℕ
  isIpAddress_ip : isIpAddress ip = true
  port_pos : 1 ≤ port
  port_le : port ≤ 65535

namespace ViaMessage

variable (m : ViaMessage)

/-- `header` -/
def header (f v : Bytes) (isVia : Bool) : ViaMessage :=
  match m.headers.find? f with
  | some el => { m with arrays := m.arrays.write el (m.arrays.read el ++ [v]) }
  | none =>
    let array := m.arrays.alloc [v]
    { m with
      arrays := array.2
      headers := m.headers.set f array.1
      hdrVia := if isVia then some array.1 else m.hdrVia }

/-- A message from the address, before it is parsed. -/
def init (source : SourceAddress) : ViaMessage :=
  { ViaAttrs.init with
    arrays := ⟨[]⟩
    headers := .empty
    hdrVia := none
    viaRport := none
    sourceIp := source.ip
    sourcePort := source.port }

end ViaMessage

/-- The parser, which counts the Via values. -/
structure ViaParser where
  numVia : ℕ
  message : ViaMessage

namespace ViaParser

def init (source : SourceAddress) : ViaParser := ⟨0, .init source⟩

/-- Only the actions of the first Via value are passed on. -/
def read (p : ViaParser) : HeaderEntry → ViaParser
  | .via name text value _ _ =>
    let numVia := p.numVia + 1
    let m := p.message
    let attrs := if numVia = 1 then value.actions.foldl ViaAttrs.act m.toViaAttrs else m.toViaAttrs
    ⟨numVia, { m with toViaAttrs := attrs }.header (headerize name) text true⟩
  | .other name text _ => ⟨p.numVia, p.message.header (headerize name) text false⟩

end ViaParser

/-- The request that is parsed of the headers. -/
def parseVias (entries : List HeaderEntry) (source : SourceAddress) : ViaMessage :=
  (entries.foldl ViaParser.read (.init source)).message

/-! ## The rewriting -/

/-- `inet_pton` reads both, as the same address. -/
def sameAddress (pton : Bytes → Option Bytes) (ip1 ip2 : Bytes) : Bool :=
  match pton ip1, pton ip2 with
  | some addr1, some addr2 => addr1 == addr2
  | _, _ => false

/-- `utils_compare_pure_ips`; `pton4` and `pton6` are `inet_pton` for the two families. -/
def utilsComparePureIps (pton4 pton6 : Bytes → Option Bytes) (ip1 ip2 : Bytes × HostIpType) : Bool :=
  if ip1.2 ≠ ip2.2 then false
  else
    match ip1.2 with
    | .ipv4 => sameAddress pton4 ip1.1 ip2.1
    | .ipv6 => sameAddress pton6 ip1.1 ip2.1
    | .ipv6Reference => false

namespace ViaMessage

variable (pton4 pton6 : Bytes → Option Bytes) (m : ViaMessage)

/-- `@msg.hdr_via[0] = value` -/
def setTopVia (value : Bytes) : Except RubyError ViaMessage :=
  match m.hdrVia with
  | none => .error .noMethodError
  | some array => .ok { m with arrays := m.arrays.write array (value :: (m.arrays.read array).tail) }

/-- `via_params << ( v ? ";#{k}=#{v}" : ";#{k}" )` -/
def paramText (param : Bytes × Option Bytes) : Bytes :=
  param.2.elim (59 :: param.1) fun v => 59 :: (param.1 ++ 61 :: v)

/-- What stands behind the core; `nil` has no `<<`. -/
def newViaParams (viaReceived : Bytes) : Except RubyError Bytes :=
  match m.viaBranch with
  | none => .error .noMethodError
  | some branch =>
    .ok (ascii ";branch=" ++ branch ++ (ascii ";received=" ++ viaReceived) ++
      (m.viaRport.elim [] fun port => ascii ";rport=" ++ decimal port) ++
      (if m.viaHasAlias then ascii ";alias" else []) ++
      (m.viaParams.elim [] fun params => params.entries.flatMap paramText))

/-- `add_via_received_rport` -/
def addViaReceivedRport : Except RubyError ViaMessage :=
  if m.viaHasRport then
    let m := { m with viaRport := some m.sourcePort }
    (m.newViaParams m.sourceIp).bind fun viaParams => m.setTopVia (m.viaCoreValue.getD [] ++ viaParams)
  else
    match m.viaSentByHost with
    | none => .error .typeError
    | some host =>
      if compareIps (utilsComparePureIps pton4 pton6) host m.sourceIp = some true then .ok m
      else (m.newViaParams m.sourceIp).bind fun viaParams => m.setTopVia (m.viaCoreValue.getD [] ++ viaParams)

end ViaMessage

/-! ## What the actions collect -/

theorem lastOf_cons {α β : Type} (f : α → Option β) (a : α) (l : List α) :
    lastOf f (a :: l) = (lastOf f l).or (f a) := rfl

theorem lastOf_singleton {α β : Type} (f : α → Option β) (a : α) : lastOf f [a] = f a := Option.none_or

theorem lastOf_eq_none {α β : Type} {f : α → Option β} {l : List α} (h : ∀ a ∈ l, f a = none) : lastOf f l = none := by
  induction l with
  | nil => rfl
  | cons a l ih =>
    rw [List.forall_mem_cons] at h
    rw [lastOf_cons, ih h.2, h.1]
    rfl

namespace ViaAttrs

/-- The value of a parameter in `via_params`. -/
def param (a : ViaAttrs) (key : Bytes) : Option (Option Bytes) := a.viaParams.bind (·.find? key)

theorem param_headerParam (a : ViaAttrs) (name key : Bytes) (value : Option Bytes) :
    (a.headerParam name value).param key = if downcase name = key then some value else a.param key := by
  show ((a.viaParams.getD .empty).set (downcase name) value).find? key = _
  by_cases hkey : downcase name = key
  · rw [if_pos hkey, ← hkey, OrderedMap.find?_set_self]
  · rw [if_neg hkey, OrderedMap.find?_set_of_ne _ _ (Ne.symm hkey)]
    unfold param
    cases a.viaParams <;> rfl

/-- What some parameters add to the attributes. -/
structure Collected (params : List ViaParam) (a a' : ViaAttrs) : Prop where
  host : a'.viaSentByHost = a.viaSentByHost
  core : a'.viaCoreValue = a.viaCoreValue
  branch : a'.viaBranch = (lastOf ViaParam.branch? params).or a.viaBranch
  rport : a'.viaHasRport = ((lastOf ViaParam.rport? params).isSome || a.viaHasRport)
  hasAlias : a'.viaHasAlias = (params.any ViaParam.isAlias || a.viaHasAlias)
  param : ∀ key, a'.param key = (lastOf (ViaParam.other? key) params).or (a.param key)

theorem collected_act (p : ViaParam) (a : ViaAttrs) : Collected [p] a (p.actions.foldl act a) := by
  cases p with
  | branch value =>
    show Collected _ a (List.foldl act a ((if (ViaParam.branch value).isRfc3261 then [.viaBranchRfc3261] else []) ++
      [.viaBranch value]))
    split <;> exact ⟨rfl, rfl, rfl, rfl, rfl, fun key => rfl⟩
  | received ip => exact ⟨rfl, rfl, rfl, rfl, rfl, fun key => rfl⟩
  | rport port => exact ⟨rfl, rfl, rfl, rfl, rfl, fun key => rfl⟩
  | hasAlias token => exact ⟨rfl, rfl, rfl, rfl, rfl, fun key => rfl⟩
  | other name value =>
    cases value with
    | none =>
      refine ⟨rfl, rfl, rfl, rfl, rfl, fun key => ?_⟩
      show (a.headerParam name none).param key = _
      rw [param_headerParam, lastOf_singleton]
      show _ = (if downcase name = key then some none else none).or _
      split <;> rfl
    | some value =>
      obtain ⟨white, value⟩ := value
      show Collected _ a (List.foldl act a ((if white = [] then [] else [.headerParam name none]) ++
        [.headerParam name (some value)]))
      by_cases hwhite : white = []
      · rw [if_pos hwhite]
        refine ⟨rfl, rfl, rfl, rfl, rfl, fun key => ?_⟩
        show (a.headerParam name (some value)).param key = _
        rw [param_headerParam, lastOf_singleton]
        show _ = (if downcase name = key then some (some value) else none).or _
        split <;> rfl
      · rw [if_neg hwhite]
        refine ⟨rfl, rfl, rfl, rfl, rfl, fun key => ?_⟩
        show ((a.headerParam name none).headerParam name (some value)).param key = _
        rw [param_headerParam, param_headerParam, lastOf_singleton]
        show _ = (if downcase name = key then some (some value) else none).or _
        split <;> rfl

theorem collected_params (params : List ViaParam) (a : ViaAttrs) :
    Collected params a ((params.flatMap ViaParam.actions).foldl act a) := by
  induction params generalizing a with
  | nil => exact ⟨rfl, rfl, rfl, rfl, rfl, fun key => rfl⟩
  | cons p params ih =>
    rw [List.flatMap_cons, List.foldl_append]
    have hhead := collected_act p a
    have htail := ih (p.actions.foldl act a)
    constructor
    · rw [htail.host, hhead.host]
    · rw [htail.core, hhead.core]
    · rw [htail.branch, hhead.branch, ← Option.or_assoc]
      rfl
    · rw [htail.rport, hhead.rport, ← Bool.or_assoc, lastOf_singleton, lastOf_cons, Option.isSome_or]
    · rw [htail.hasAlias, hhead.hasAlias, ← Bool.or_assoc, List.any_cons, List.any_cons, List.any_nil, Bool.or_false,
        Bool.or_comm (params.any _)]
    · intro key
      rw [htail.param key, hhead.param key, ← Option.or_assoc]
      rfl

/-- An entry of `via_params`. -/
structure OtherEntry (e : Bytes × Option Bytes) : Prop where
  name : isToken e.1 = true
  lower : downcase e.1 = e.1
  known : e.1 ∉ ViaParam.knownNames
  value : ∀ v ∈ e.2, isHeaderParamGenValue v = true

def entries (a : ViaAttrs) : List (Bytes × Option Bytes) := a.viaParams.elim [] OrderedMap.entries

theorem entries_headerParam {a : ViaAttrs} (ha : ∀ e ∈ a.entries, OtherEntry e) {name : Bytes} {value : Option Bytes}
    (h : OtherEntry (downcase name, value)) : ∀ e ∈ (a.headerParam name value).entries, OtherEntry e := by
  intro e he
  rcases OrderedMap.mem_set (m := a.viaParams.getD .empty) he with rfl | hmem
  · exact h
  · apply ha
    unfold entries
    cases hparams : a.viaParams with
    | none =>
      rw [hparams] at hmem
      exact absurd hmem List.not_mem_nil
    | some params =>
      rw [hparams] at hmem
      exact hmem

theorem entries_act {p : ViaParam} (hp : p.WellFormed) {a : ViaAttrs} (ha : ∀ e ∈ a.entries, OtherEntry e) :
    ∀ e ∈ (p.actions.foldl act a).entries, OtherEntry e := by
  cases p with
  | branch value =>
    show ∀ e ∈ (List.foldl act a ((if (ViaParam.branch value).isRfc3261 then [.viaBranchRfc3261] else []) ++
      [.viaBranch value])).entries, OtherEntry e
    split <;> exact ha
  | received ip => exact ha
  | rport port => exact ha
  | hasAlias token => exact ha
  | other name value =>
    have hlower : isToken (downcase name) = true := (isToken_downcase name).trans hp.name
    have hknown := hp.notMem_knownNames
    have hvalue := hp.genValue
    have hnone : OtherEntry (downcase name, none) := ⟨hlower, downcase_downcase name, hknown, by rintro _ ⟨⟩⟩
    cases value with
    | none => exact entries_headerParam ha hnone
    | some value =>
      obtain ⟨white, value⟩ := value
      have hsome : OtherEntry (downcase name, some value) := by
        refine ⟨hlower, downcase_downcase name, hknown, ?_⟩
        rintro _ ⟨⟩
        exact hvalue (white, value) rfl
      show ∀ e ∈ (List.foldl act a ((if white = [] then [] else [.headerParam name none]) ++
        [.headerParam name (some value)])).entries, OtherEntry e
      split
      · exact entries_headerParam ha hsome
      · exact entries_headerParam (entries_headerParam ha hnone) hsome

/-- The attributes that a Via value gives. -/
structure Gives (v : ViaValue) (a : ViaAttrs) : Prop where
  host : a.viaSentByHost = some v.sent.host
  core : a.viaCoreValue = some v.core
  branch : a.viaBranch = v.branch
  rport : a.viaHasRport = v.rport.isSome
  hasAlias : a.viaHasAlias = v.isAlias
  param : ∀ key, a.param key = v.otherParam key
  entries : ∀ e ∈ a.entries, OtherEntry e

theorem act_headerCoreValue (a : ViaAttrs) {core : Bytes} (h : core ≠ []) :
    a.act (.headerCoreValue core) = { a with viaCoreValue := some core } := if_neg h

theorem gives_actions {v : ViaValue} (h : v.WellFormed) : Gives v (v.actions.foldl act init) := by
  have hcore : v.core ≠ [] := by
    intro hnil
    have hsent := h.sent
    rw [hnil, show readSent [] = none by decide] at hsent
    exact absurd hsent.symm (Option.some_ne_none _)
  have hbefore : ∃ a : ViaAttrs, v.actions.foldl act init = (v.params.flatMap ViaParam.actions).foldl act a ∧
      a.viaSentByHost = some v.sent.host ∧ a.viaCoreValue = some v.core ∧ a.viaBranch = none ∧
      a.viaHasRport = false ∧ a.viaHasAlias = false ∧ a.viaParams = none := by
    unfold ViaValue.actions
    rw [List.foldl_cons, List.foldl_append, List.foldl_cons]
    refine ⟨_, rfl, ?_⟩
    rw [act_headerCoreValue _ hcore]
    cases v.sent.port <;> exact ⟨rfl, rfl, rfl, rfl, rfl, rfl⟩
  obtain ⟨a, hactions, hhost, hcoreValue, hbranch, hrport, halias, hparams⟩ := hbefore
  rw [hactions]
  have hcollected := collected_params v.params a
  constructor
  · rw [hcollected.host, hhost]
  · rw [hcollected.core, hcoreValue]
  · rw [hcollected.branch, hbranch, Option.or_none]
    rfl
  · rw [hcollected.rport, hrport, Bool.or_false]
    rfl
  · rw [hcollected.hasAlias, halias, Bool.or_false]
    rfl
  · intro key
    rw [hcollected.param key]
    unfold param
    rw [hparams, Option.bind_none, Option.or_none]
    rfl
  · have hnone : ∀ e ∈ a.entries, OtherEntry e := by
      unfold entries
      rw [hparams]
      exact fun e he => absurd he List.not_mem_nil
    clear hcollected hactions
    have hwell := h.params
    generalize v.params = params at hwell
    clear hhost hcoreValue hbranch hrport halias hparams
    induction params generalizing a with
    | nil => exact hnone
    | cons p params ih =>
      rw [List.forall_mem_cons] at hwell
      rw [List.flatMap_cons, List.foldl_append]
      exact ih _ (entries_act hwell.1 hnone) hwell.2

end ViaAttrs

/-! ## The stored values -/

namespace ViaMessage

variable {m : ViaMessage}

/-- `@hdr_via` is the Array that `@headers` has for the Via, and no other header has it. -/
structure Stored (m : ViaMessage) (texts : List Bytes) : Prop where
  same : m.headers.find? viaKey = m.hdrVia
  none_iff : m.hdrVia = none ↔ texts = []
  read : ∀ array ∈ m.hdrVia, m.arrays.Allocated array ∧ m.arrays.read array = texts
  apart : ∀ key array, m.headers.find? key = some array →
    m.arrays.Allocated array ∧ (key ≠ viaKey → m.hdrVia ≠ some array)

theorem stored_init (source : SourceAddress) : (init source).Stored [] := by
  constructor
  · rfl
  · exact iff_of_true rfl rfl
  · rintro _ ⟨⟩
  · rintro _ _ ⟨⟩

theorem Stored.withAttrs {texts : List Bytes} (h : m.Stored texts) (attrs : ViaAttrs) :
    { m with toViaAttrs := attrs }.Stored texts := ⟨h.same, h.none_iff, h.read, h.apart⟩

theorem Stored.withRport {texts : List Bytes} (h : m.Stored texts) (viaRport : Option ℕ) :
    { m with viaRport }.Stored texts := ⟨h.same, h.none_iff, h.read, h.apart⟩

theorem Stored.header_via {texts : List Bytes} (h : m.Stored texts) (v : Bytes) :
    (m.header viaKey v true).Stored (texts ++ [v]) := by
  have hne : ¬texts ++ [v] = [] := List.append_ne_nil_of_right_ne_nil texts (List.cons_ne_nil v [])
  unfold header
  cases hfind : m.headers.find? viaKey with
  | some el =>
    have hvia : m.hdrVia = some el := h.same.symm.trans hfind
    obtain ⟨hallocated, hread⟩ := h.read el hvia
    constructor
    · exact h.same
    · exact iff_of_false (by rw [hvia]; exact Option.some_ne_none el) hne
    · intro array harray
      obtain rfl := Option.some.inj (hvia.symm.trans harray)
      refine ⟨Arrays.allocated_write hallocated _ _, ?_⟩
      show (m.arrays.write _ _).read _ = _
      rw [Arrays.read_write hallocated, hread]
    · intro key array harray
      obtain ⟨hold, hapart⟩ := h.apart key array harray
      exact ⟨Arrays.allocated_write hold _ _, hapart⟩
  | none =>
    have htexts : texts = [] := h.none_iff.mp (h.same.symm.trans hfind)
    constructor
    · exact OrderedMap.find?_set_self _ _ _
    · exact iff_of_false (Option.some_ne_none _) hne
    · rintro _ ⟨⟩
      refine ⟨Arrays.allocated_alloc _ _, ?_⟩
      show (m.arrays.alloc [v]).2.read _ = _
      rw [Arrays.read_alloc, htexts]
      rfl
    · intro key array harray
      by_cases hkey : key = viaKey
      · subst hkey
        have hset : (m.headers.set viaKey (m.arrays.alloc [v]).1).find? viaKey = some array := harray
        rw [OrderedMap.find?_set_self] at hset
        obtain rfl := Option.some.inj hset
        exact ⟨Arrays.allocated_alloc _ _, fun hne => absurd rfl hne⟩
      · have hset : (m.headers.set viaKey (m.arrays.alloc [v]).1).find? key = some array := harray
        rw [OrderedMap.find?_set_of_ne _ _ hkey] at hset
        obtain ⟨hold, _⟩ := h.apart key array hset
        refine ⟨(Arrays.extends_alloc _ _).allocated hold, fun _ heq => ?_⟩
        obtain rfl := Option.some.inj heq
        exact absurd hold (Nat.lt_irrefl _)

theorem Stored.header_other {texts : List Bytes} (h : m.Stored texts) {f : Bytes} (hf : f ≠ viaKey) (v : Bytes) :
    (m.header f v false).Stored texts := by
  unfold header
  cases hfind : m.headers.find? f with
  | some el =>
    have hapart := (h.apart f el hfind).2 hf
    constructor
    · exact h.same
    · exact h.none_iff
    · intro array harray
      obtain ⟨hallocated, hread⟩ := h.read array harray
      have hne : el ≠ array := by
        rintro rfl
        exact hapart harray
      refine ⟨Arrays.allocated_write hallocated _ _, ?_⟩
      show (m.arrays.write _ _).read _ = _
      rw [Arrays.read_write_of_ne _ hne, hread]
    · intro key array harray
      obtain ⟨hold, hold'⟩ := h.apart key array harray
      exact ⟨Arrays.allocated_write hold _ _, hold'⟩
  | none =>
    constructor
    · show (m.headers.set f _).find? viaKey = _
      rw [OrderedMap.find?_set_of_ne _ _ (Ne.symm hf)]
      exact h.same
    · exact h.none_iff
    · intro array harray
      obtain ⟨hallocated, hread⟩ := h.read array harray
      have hextends := Arrays.extends_alloc m.arrays [v]
      exact ⟨hextends.allocated hallocated, (hextends.read_eq array hallocated).trans hread⟩
    · intro key array harray
      by_cases hkey : key = f
      · subst hkey
        have hset : (m.headers.set key (m.arrays.alloc [v]).1).find? key = some array := harray
        rw [OrderedMap.find?_set_self] at hset
        obtain rfl := Option.some.inj hset
        refine ⟨Arrays.allocated_alloc _ _, fun _ heq => ?_⟩
        exact absurd (h.read _ heq).1 (Nat.lt_irrefl _)
      · have hset : (m.headers.set f (m.arrays.alloc [v]).1).find? key = some array := harray
        rw [OrderedMap.find?_set_of_ne _ _ hkey] at hset
        obtain ⟨hold, hold'⟩ := h.apart key array hset
        exact ⟨(Arrays.extends_alloc _ _).allocated hold, hold'⟩

/-- The attributes that storing a header leaves as they are. -/
theorem header_attrs (m : ViaMessage) (f v : Bytes) (isVia : Bool) :
    (m.header f v isVia).toViaAttrs = m.toViaAttrs ∧ (m.header f v isVia).viaRport = m.viaRport ∧
      (m.header f v isVia).sourceIp = m.sourceIp ∧ (m.header f v isVia).sourcePort = m.sourcePort := by
  unfold header
  cases m.headers.find? f <;> exact ⟨rfl, rfl, rfl, rfl⟩

end ViaMessage

namespace ViaParser

open ViaMessage

/-- What the parser has made of some Via values. -/
structure Parsed (source : SourceAddress) (vias : List (Bytes × ViaValue)) (p : ViaParser) : Prop where
  numVia : p.numVia = vias.length
  stored : p.message.Stored (vias.map Prod.fst)
  unread : vias = [] → p.message.toViaAttrs = .init
  gives : ∀ via ∈ vias.head?, p.message.toViaAttrs.Gives via.2
  viaRport : p.message.viaRport = none
  sourceIp : p.message.sourceIp = source.ip
  sourcePort : p.message.sourcePort = source.port

variable {source : SourceAddress} {vias : List (Bytes × ViaValue)} {p : ViaParser}

theorem Parsed.read (h : Parsed source vias p) (entry : HeaderEntry) :
    Parsed source (vias ++ viasOf [entry]) (p.read entry) := by
  cases entry with
  | other name text key =>
    obtain ⟨hattrs, hrport, hip, hport⟩ := header_attrs p.message (headerize name) text false
    show Parsed source (vias ++ []) ⟨p.numVia, p.message.header (headerize name) text false⟩
    rw [List.append_nil]
    constructor
    · exact h.numVia
    · exact h.stored.header_other key text
    · exact fun hnil => hattrs.trans (h.unread hnil)
    · exact fun via hvia => hattrs ▸ h.gives via hvia
    · exact hrport.trans h.viaRport
    · exact hip.trans h.sourceIp
    · exact hport.trans h.sourcePort
  | via name text value key read =>
    show Parsed source (vias ++ [(text, value)]) ⟨p.numVia + 1, _⟩
    obtain ⟨hattrs, hrport, hip, hport⟩ := header_attrs
      { p.message with
        toViaAttrs :=
          if p.numVia + 1 = 1 then value.actions.foldl ViaAttrs.act p.message.toViaAttrs
          else p.message.toViaAttrs } (headerize name) text true
    constructor
    · show p.numVia + 1 = _
      rw [h.numVia, List.length_append, List.length_singleton]
    · show (ViaMessage.header _ (headerize name) text true).Stored _
      rw [key, List.map_append]
      exact (h.stored.withAttrs _).header_via text
    · intro hnil
      exact absurd hnil (List.append_ne_nil_of_right_ne_nil vias (List.cons_ne_nil _ _))
    · intro via hvia
      show ViaAttrs.Gives _ (ViaMessage.header _ (headerize name) text true).toViaAttrs
      rw [hattrs]
      cases vias with
      | nil =>
        obtain rfl := Option.some.inj hvia
        have hnum : p.numVia = 0 := h.numVia
        show ViaAttrs.Gives value (if p.numVia + 1 = 1 then _ else _)
        rw [if_pos (by rw [hnum]), h.unread rfl]
        exact ViaAttrs.gives_actions (ViaValue.wellFormed_of_readVia read)
      | cons first rest =>
        have hnum : p.numVia = rest.length + 1 := h.numVia
        show ViaAttrs.Gives via.2 (if p.numVia + 1 = 1 then _ else _)
        rw [if_neg (by omega)]
        exact h.gives via hvia
    · exact hrport.trans h.viaRport
    · exact hip.trans h.sourceIp
    · exact hport.trans h.sourcePort

theorem viasOf_append (entries entries' : List HeaderEntry) :
    viasOf (entries ++ entries') = viasOf entries ++ viasOf entries' := by
  induction entries with
  | nil => rfl
  | cons entry entries ih =>
    cases entry with
    | via name text value key read => exact congrArg ((text, value) :: ·) ih
    | other name text key => exact ih

/-- What is parsed of a list of header entries. -/
theorem parsed_entries (entries : List HeaderEntry) (source : SourceAddress) :
    Parsed source (viasOf entries) (entries.foldl ViaParser.read (.init source)) := by
  induction entries using List.reverseRecOn with
  | nil =>
    constructor
    · rfl
    · exact stored_init source
    · exact fun _ => rfl
    · rintro _ ⟨⟩
    · rfl
    · rfl
    · rfl
  | append_singleton entries entry ih =>
    rw [List.foldl_append, viasOf_append]
    exact ih.read entry

end ViaParser

/-! ## Equal addresses -/

/-- The sent-by host is an IP address, and it is the address of the source. -/
def SameIp (pton4 pton6 : Bytes → Option Bytes) (host ip : Bytes) : Prop :=
  (host ∈ lang ipv4address ∧ ip ∈ lang ipv4address ∧ ∃ addr, pton4 host = some addr ∧ pton4 ip = some addr) ∨
    ∃ inner, host = 91 :: inner ++ [93] ∧ inner ∈ lang ipv6address ∧ ip ∈ lang ipv6address ∧
      ∃ addr, pton6 inner = some addr ∧ pton6 ip = some addr

theorem sameAddress_iff (pton : Bytes → Option Bytes) (ip1 ip2 : Bytes) :
    sameAddress pton ip1 ip2 = true ↔ ∃ addr, pton ip1 = some addr ∧ pton ip2 = some addr := by
  unfold sameAddress
  cases pton ip1 with
  | none => exact iff_of_false Bool.false_ne_true fun ⟨_, h, _⟩ => Option.some_ne_none _ h.symm
  | some addr1 =>
    cases pton ip2 with
    | none => exact iff_of_false Bool.false_ne_true fun ⟨_, _, h⟩ => Option.some_ne_none _ h.symm
    | some addr2 =>
      rw [beq_iff_eq]
      constructor
      · rintro rfl
        exact ⟨_, rfl, rfl⟩
      · rintro ⟨addr, h1, h2⟩
        rw [Option.some.inj h1, Option.some.inj h2]

theorem alpha_mem_of_hostname {host : Bytes} (h : host ∈ lang hostname) : ∃ b ∈ host, isAlpha b = true := by
  obtain ⟨labels, _, rest, hrest, rfl⟩ := Language.mem_mul.mp h
  obtain ⟨top, htop, dot, _, rfl⟩ := Language.mem_mul.mp hrest
  have hfirst : ∃ b ∈ top, Regex.inRanges [(65, 90), (97, 122)] b = true := by
    rcases (mem_alt_iff _ _ _).mp htop with ⟨b, rfl, hb⟩ | htop
    · exact ⟨b, List.mem_singleton_self b, hb⟩
    · obtain ⟨first, ⟨b, rfl, hb⟩, others, _, rfl⟩ := Language.mem_mul.mp htop
      exact ⟨b, List.mem_cons_self, hb⟩
  obtain ⟨b, hmem, hb⟩ := hfirst
  refine ⟨b, List.mem_append_right labels (List.mem_append_left dot hmem), ?_⟩
  unfold Regex.inRanges at hb
  rw [List.any_cons, List.any_cons, List.any_nil, Bool.or_false] at hb
  exact hb

theorem avoids_ipv4address {b : UInt8} (h : isAlpha b = true) : avoids b ipv4address = true := by
  revert h
  apply byte_forall (p := fun b => isAlpha b = true → avoids b ipv4address = true)
  decide +kernel

/-- A host name is no address, and does not go on behind one. -/
theorem utilsIpParserExecute_of_hostname {host : Bytes} (h : host ∈ lang hostname) :
    utilsIpParserExecute host = none := by
  have hcolon : 58 ∉ host := notMem_of_avoids (by decide) h
  have hbracket : 91 ∉ host := notMem_of_avoids (by decide) h
  obtain ⟨letter, hletter, halpha⟩ := alpha_mem_of_hostname h
  have hdigits : ∀ w v : Bytes, w ++ v ∈ lang ipv4address → letter ∉ w := by
    intro w v hwv hmem
    exact notMem_of_avoids (avoids_ipv4address halpha) hwv (List.mem_append_left v hmem)
  have hnot : ∀ k : HostIpType, host ∉ lang k.grammar := by
    rintro (_ | _ | _) hk
    · exact hdigits host [] (by rw [List.append_nil]; exact hk) hletter
    · exact hcolon (colon_mem_of_ipv6 hk)
    · exact hbracket (bracket_mem_of_reference hk)
  cases hread : utilsIpParserExecute host with
  | none => rfl
  | some k =>
    have hsome : (utilsIpParserExecute host).isSome = true := by rw [hread]; rfl
    obtain ⟨_, ⟨u, v, rfl, k', hu⟩, w, k'', hw⟩ := (utilsIpParserExecute_isSome_iff hnot).mp hsome
    have hu4 : u ∈ lang ipv4address := by
      cases k' with
      | ipv4 => exact hu
      | ipv6 => exact absurd (List.mem_append_left v (colon_mem_of_ipv6 hu)) hcolon
      | ipv6Reference => exact absurd (List.mem_append_left v (bracket_mem_of_reference hu)) hbracket
    cases k'' with
    | ipv4 => exact absurd hletter (hdigits _ w hw)
    | ipv6 =>
      -- in an IPv6 address a ":" stands before the dots of the IPv4 address
      obtain ⟨a, b, hab⟩ := List.append_of_mem (mem_of_needs (c := 46) (by decide) hu4)
      rw [hab, List.append_assoc, List.append_assoc, List.cons_append] at hw
      have hmem : 58 ∈ a := mem_of_guards (c := 58) (d := 46) (r := ipv6address) (by decide) hw
      rw [hab, List.append_assoc] at hcolon
      exact absurd (List.mem_append_left _ hmem) hcolon
    | ipv6Reference =>
      obtain ⟨a, _, ha⟩ := (mem_ipv6reference_iff _).mp hw
      cases u with
      | nil => exact absurd hu4 (nil_notMem_grammar .ipv4)
      | cons b u =>
        obtain ⟨rfl, _⟩ := List.cons.inj ha
        exact absurd List.mem_cons_self hbracket

theorem compareIps_iff (pton4 pton6 : Bytes → Option Bytes) {host ip : Bytes} {hostType : HostType}
    (hhost : findHost host = some hostType) (hip : isIpAddress ip = true) :
    compareIps (utilsComparePureIps pton4 pton6) host ip = some true ↔ SameIp pton4 pton6 host ip := by
  have hof : ∀ {k1 k2 : HostIpType}, utilsIpParserExecute host = some k1 → utilsIpParserExecute ip = some k2 →
      compareIps (utilsComparePureIps pton4 pton6) host ip =
        some (utilsComparePureIps pton4 pton6 (pureIp host k1) (pureIp ip k2)) := by
    intro k1 k2 h1 h2
    unfold compareIps
    rw [h1, h2]
    rfl
  have hipType : (ip ∈ lang ipv4address ∧ utilsIpParserExecute ip = some .ipv4) ∨
      (ip ∈ lang ipv6address ∧ utilsIpParserExecute ip = some .ipv6) := by
    rcases (isIpAddress_iff ip).mp hip with h | h
    · exact .inl ⟨h, utilsIpParserExecute_of_mem (k := .ipv4) h⟩
    · exact .inr ⟨h, utilsIpParserExecute_of_mem (k := .ipv6) h⟩
  rw [findHost_eq] at hhost
  split at hhost
  · next hname =>
    have hnone := utilsIpParserExecute_of_hostname hname
    apply iff_of_false
    · unfold compareIps
      rw [hnone]
      exact Option.some_ne_none _ ∘ Eq.symm
    · rintro (⟨h4, _⟩ | ⟨inner, rfl, _⟩)
      · rw [utilsIpParserExecute_of_mem (k := .ipv4) h4] at hnone
        exact Option.some_ne_none _ hnone
      · exact notMem_of_avoids (c := 91) (by decide) hname List.mem_cons_self
  · split at hhost
    · next h4 =>
      have hbracket : 91 ∉ host := bracket_notMem_of_ipv4 h4
      have hread := utilsIpParserExecute_of_mem (k := .ipv4) h4
      rcases hipType with ⟨hip4, hipRead⟩ | ⟨hip6, hipRead⟩
      · rw [hof hread hipRead, Option.some.injEq]
        show sameAddress pton4 host ip = true ↔ _
        rw [sameAddress_iff]
        constructor
        · exact fun h => .inl ⟨h4, hip4, h⟩
        · rintro (⟨_, _, h⟩ | ⟨inner, rfl, _⟩)
          · exact h
          · exact absurd List.mem_cons_self hbracket
      · rw [hof hread hipRead]
        apply iff_of_false
        · exact fun h => Bool.false_ne_true (Option.some.inj h)
        · rintro (⟨_, hip4, _⟩ | ⟨inner, rfl, _⟩)
          · exact colon_notMem_of_ipv4 hip4 (colon_mem_of_ipv6 hip6)
          · exact absurd List.mem_cons_self hbracket
    · next h4 =>
      split at hhost
      · next href =>
        obtain ⟨inner, hinner, rfl⟩ := (mem_ipv6reference_iff host).mp href
        have hread := utilsIpParserExecute_of_mem (k := .ipv6Reference) href
        rcases hipType with ⟨hip4, hipRead⟩ | ⟨hip6, hipRead⟩
        · rw [hof hread hipRead]
          apply iff_of_false
          · exact fun h => Bool.false_ne_true (Option.some.inj h)
          · rintro (⟨h, _⟩ | ⟨_, _, _, hip6, _⟩)
            · exact h4 h
            · exact colon_notMem_of_ipv4 hip4 (colon_mem_of_ipv6 hip6)
        · rw [hof hread hipRead, Option.some.injEq]
          show sameAddress pton6 ((91 :: inner ++ [93]).drop 1).dropLast ip = true ↔ _
          rw [show ((91 :: inner ++ [93] : Bytes).drop 1).dropLast = inner from List.dropLast_concat,
            sameAddress_iff]
          constructor
          · exact fun h => .inr ⟨inner, rfl, hinner, hip6, h⟩
          · rintro (⟨h, _⟩ | ⟨inner', heq, _, _, h⟩)
            · exact absurd h h4
            · obtain rfl := List.append_cancel_right (List.cons.inj heq).2
              exact h
      · exact absurd hhost.symm (Option.some_ne_none _)

/-! ## The value that is written -/

theorem mem_of_lastOf {α β : Type} {f : α → Option β} {l : List α} {b : β} (h : lastOf f l = some b) :
    ∃ a ∈ l, f a = some b := by
  induction l with
  | nil => exact absurd h.symm (Option.some_ne_none b)
  | cons a l ih =>
    rw [lastOf_cons] at h
    rcases Option.or_eq_some_iff.mp h with hlast | ⟨_, ha⟩
    · obtain ⟨a', hmem, ha'⟩ := ih hlast
      exact ⟨a', List.mem_cons_of_mem a hmem, ha'⟩
    · exact ⟨a, List.mem_cons_self, ha⟩

/-- An RFC 3261 branch is a branch. -/
theorem ViaValue.branch_of_isRfc3261 {v : ViaValue} (h : v.isRfc3261 = true) : ∃ branch, v.branch = some branch := by
  obtain ⟨p, hp, hrfc⟩ := List.any_eq_true.mp h
  cases hbranch : v.branch with
  | some branch => exact ⟨branch, rfl⟩
  | none =>
    exfalso
    unfold ViaValue.branch at hbranch
    generalize v.params = params at hp hbranch
    induction params with
    | nil => exact List.not_mem_nil hp
    | cons q params ih =>
      rw [lastOf_cons] at hbranch
      obtain ⟨hrest, hq⟩ := Option.or_eq_none_iff.mp hbranch
      rcases List.mem_cons.mp hp with rfl | hp
      · cases p with
        | branch value => exact Option.some_ne_none _ hq
        | received ip => cases hrfc
        | rport port => cases hrfc
        | hasAlias token => cases hrfc
        | other name value => cases hrfc
      · exact ih hp hrest

theorem ViaValue.WellFormed.isToken_branch {v : ViaValue} (h : v.WellFormed) {branch : Bytes}
    (hbranch : v.branch = some branch) : isToken branch = true := by
  obtain ⟨p, hp, hvalue⟩ := mem_of_lastOf hbranch
  have hwell := h.params p hp
  cases p with
  | branch value =>
    obtain rfl := Option.some.inj hvalue
    have hof : ViaParam.ofName (ascii "branch") (some ([], value)) = some (.branch value) := hwell.ofName
    unfold ViaParam.ofName at hof
    rw [if_pos (by decide)] at hof
    obtain ⟨token, htoken, heq⟩ := Option.map_eq_some_iff.mp hof
    obtain rfl := ViaParam.branch.inj heq
    exact (Option.filter_eq_some_iff.mp htoken).2
  | received ip => cases hvalue
  | rport port => cases hvalue
  | hasAlias token => cases hvalue
  | other name value => cases hvalue

/-- An entry of `via_params` as a parameter. -/
def entryParam (e : Bytes × Option Bytes) : ViaParam := .other e.1 (e.2.map fun value => ([], value))

/-- A key of a map has one entry, so the last is the one that is found. -/
theorem lastOf_entries {κ ν : Type} [DecidableEq κ] (m : OrderedMap κ ν) (key : κ) :
    lastOf (fun e => if e.1 = key then some e.2 else none) m.entries = m.find? key := by
  obtain ⟨entries, hnodup⟩ := m
  show _ = entries.lookup key
  induction entries with
  | nil => rfl
  | cons e entries ih =>
    rw [List.map_cons, List.nodup_cons] at hnodup
    rw [lastOf_cons, show lastOf _ entries = _ from ih hnodup.2]
    by_cases hkey : e.1 = key
    · subst hkey
      rw [if_pos rfl, List.lookup_cons_self, (OrderedMap.lookup_eq_none_iff_notMem entries e.1).mpr hnodup.1,
        Option.none_or]
    · rw [if_neg hkey, Option.or_none, List.lookup_cons, beq_false_of_ne (Ne.symm hkey)]

theorem lastOf_entryParam {entries : List (Bytes × Option Bytes)} (hlower : ∀ e ∈ entries, downcase e.1 = e.1)
    (key : Bytes) : lastOf (ViaParam.other? key) (entries.map entryParam) =
      lastOf (fun e => if e.1 = key then some e.2 else none) entries := by
  induction entries with
  | nil => rfl
  | cons e entries ih =>
    rw [List.forall_mem_cons] at hlower
    rw [List.map_cons, lastOf_cons, lastOf_cons, ih hlower.2]
    apply congrArg (Option.or _)
    show (if downcase e.1 = key then some ((e.2.map fun value => (([] : Bytes), value)).map Prod.snd) else none) = _
    rw [hlower.1, Option.map_map]
    exact congrArg (fun value => if e.1 = key then some value else none) Option.map_id'

/-- The parameters in the order in which `add_via_received_rport` writes them. -/
def newParams (branch ip : Bytes) (viaRport : Option ℕ) (hasAlias : Bool)
    (entries : List (Bytes × Option Bytes)) : List ViaParam :=
  .branch branch :: .received ip :: (viaRport.toList.map fun port => .rport (some (decimal port))) ++
    (if hasAlias then [.hasAlias none] else []) ++ entries.map entryParam

/-- **The value is read as it was, but for the source.** -/
structure Rewrites (source : SourceAddress) (v v' : ViaValue) : Prop where
  sent : v'.sent = v.sent
  branch : v'.branch = v.branch
  isAlias : v'.isAlias = v.isAlias
  otherParam : ∀ key, v'.otherParam key = v.otherParam key
  received : v'.received = some source.ip
  rport : v'.rport = v.rport.map fun _ => some (decimal source.port)

theorem flatMap_entryParam (entries : List (Bytes × Option Bytes)) :
    (entries.map entryParam).flatMap (fun p => 59 :: p.text) = entries.flatMap ViaMessage.paramText := by
  rw [List.flatMap_map]
  apply List.flatMap_congr
  rintro ⟨name, value⟩ _
  cases value with
  | none => exact congrArg (59 :: ·) (List.append_nil name)
  | some value => rfl

theorem wellFormed_newParams {branch ip : Bytes} {viaRport : Option ℕ} {hasAlias : Bool}
    {entries : List (Bytes × Option Bytes)} (hbranch : isToken branch = true) (hip : isIpAddress ip = true)
    (hport : ∀ port ∈ viaRport, 1 ≤ port ∧ port ≤ 65535) (hentries : ∀ e ∈ entries, ViaAttrs.OtherEntry e) :
    ∀ p ∈ newParams branch ip viaRport hasAlias entries, p.WellFormed := by
  intro p hp
  unfold newParams at hp
  rcases List.mem_append.mp hp with hp | hp
  · rcases List.mem_append.mp hp with hp | hp
    · rcases List.mem_cons.mp hp with rfl | hp
      · exact ViaParam.wellFormed_branch hbranch
      rcases List.mem_cons.mp hp with rfl | hp
      · exact ViaParam.wellFormed_received hip
      obtain ⟨port, hmem, rfl⟩ := List.mem_map.mp hp
      apply ViaParam.wellFormed_rport
      rintro _ ⟨⟩
      obtain ⟨hpos, hle⟩ := hport port (Option.mem_toList.mp hmem)
      exact isPort_decimal hpos hle
    · split at hp
      · obtain rfl := List.mem_singleton.mp hp
        exact ViaParam.wellFormed_hasAlias (by rintro _ ⟨⟩)
      · exact absurd hp List.not_mem_nil
  · obtain ⟨e, he, rfl⟩ := List.mem_map.mp hp
    have hentry := hentries e he
    have hwritten : ∀ v ∈ e.2.map fun value => (([] : Bytes), value), v.1 = [] ∧ isHeaderParamGenValue v.2 = true := by
      intro v hv
      obtain ⟨value, hvalue, rfl⟩ := Option.map_eq_some_iff.mp hv
      exact ⟨rfl, hentry.value value hvalue⟩
    apply ViaParam.wellFormed_other hentry.name
    · rw [hentry.lower]
      exact hentry.known
    · intro v hv
      rw [(hwritten v hv).1]
      exact isSws_nil
    · exact fun v hv => (hwritten v hv).2

theorem lastOf_append {α β : Type} (f : α → Option β) (l l' : List α) :
    lastOf f (l ++ l') = (lastOf f l').or (lastOf f l) := by
  induction l with
  | nil => exact Option.or_none.symm
  | cons a l ih => rw [List.cons_append, lastOf_cons, ih, Option.or_assoc, lastOf_cons]

theorem lastOf_newParams {β : Type} (f : ViaParam → Option β) (branch ip : Bytes) (viaRport : Option ℕ)
    (hasAlias : Bool) (entries : List (Bytes × Option Bytes)) :
    lastOf f (newParams branch ip viaRport hasAlias entries) =
      (lastOf f (entries.map entryParam)).or ((if hasAlias then f (.hasAlias none) else none).or
        ((viaRport.bind fun port => f (.rport (some (decimal port)))).or
          ((f (.received ip)).or (f (.branch branch))))) := by
  unfold newParams
  rw [lastOf_append, lastOf_append, lastOf_cons, lastOf_cons]
  cases hasAlias <;> cases viaRport <;>
    simp only [lastOf, Option.toList_none, Option.toList_some, List.map_nil, List.map_cons, Option.none_or,
      Option.bind_none, Option.bind_some, Option.or_assoc, if_true, Bool.false_eq_true, if_false]

theorem rewrites_newParams (source : SourceAddress) {v : ViaValue} {a : ViaAttrs} (h : a.Gives v) {branch : Bytes}
    (hbranch : v.branch = some branch) :
    Rewrites source v ⟨v.core, v.sent,
      newParams branch source.ip (if a.viaHasRport then some source.port else none) a.viaHasAlias a.entries⟩ := by
  have hentries : ∀ {β : Type} {f : ViaParam → Option β}, (∀ e, f (entryParam e) = none) →
      lastOf f (a.entries.map entryParam) = none := by
    intro β f hf
    apply lastOf_eq_none
    intro p hp
    obtain ⟨e, _, rfl⟩ := List.mem_map.mp hp
    exact hf e
  constructor
  · rfl
  · show lastOf ViaParam.branch? _ = _
    rw [lastOf_newParams, hentries fun e => rfl, hbranch]
    cases a.viaHasAlias <;> cases a.viaHasRport <;> rfl
  · show List.any _ ViaParam.isAlias = _
    rw [← h.hasAlias]
    unfold newParams
    have hnone : (a.entries.map entryParam).any ViaParam.isAlias = false := by
      rw [List.any_map]
      exact List.any_eq_false.mpr fun e _ => Bool.false_ne_true
    rw [List.any_append, List.any_append, hnone, Bool.or_false]
    cases a.viaHasAlias <;> cases a.viaHasRport <;> rfl
  · intro key
    show lastOf (ViaParam.other? key) _ = _
    rw [lastOf_newParams, lastOf_entryParam fun e he => (h.entries e he).lower, ← h.param key]
    have hfind : lastOf (fun e => if e.1 = key then some e.2 else none) a.entries = a.param key := by
      unfold ViaAttrs.entries ViaAttrs.param
      cases a.viaParams with
      | none => rfl
      | some params => exact lastOf_entries params key
    rw [hfind]
    cases a.viaHasAlias <;> cases a.viaHasRport <;> exact Option.or_none
  · show lastOf ViaParam.received? _ = _
    rw [lastOf_newParams, hentries fun e => rfl]
    cases a.viaHasAlias <;> cases a.viaHasRport <;> rfl
  · show lastOf ViaParam.rport? _ = _
    rw [lastOf_newParams, hentries fun e => rfl, h.rport]
    cases a.viaHasAlias <;> cases v.rport <;> rfl

/-! ## The request -/

namespace ViaMessage

variable (pton4 pton6 : Bytes → Option Bytes)

/-- The values of the Via header. -/
def viaTexts (m : ViaMessage) : List Bytes := m.hdrVia.elim [] m.arrays.read

/-- **The lists are the same.** `@headers` and `@hdr_via` are as before, and share the Array of the Via values; no other
Array is written. -/
structure SameLists (m m' : ViaMessage) : Prop where
  headers : m'.headers = m.headers
  hdrVia : m'.hdrVia = m.hdrVia
  shared : m'.headers.find? viaKey = m'.hdrVia
  others : ∀ array, m.hdrVia ≠ some array → m'.arrays.read array = m.arrays.read array

/-- **The Via is rewritten.** The value stays if there was no rport and the sent-by host is the source; otherwise it is
read as before, with the source in it. -/
structure RewritesTop (source : SourceAddress) (v : ViaValue) (text newText : Bytes) : Prop where
  same : v.rport = none ∧ SameIp pton4 pton6 v.sent.host source.ip → newText = text
  read : ¬(v.rport = none ∧ SameIp pton4 pton6 v.sent.host source.ip) →
    ∃ v', readVia newText = some v' ∧ Rewrites source v v'

variable {pton4 pton6} {m : ViaMessage}

theorem setTopVia_spec {text : Bytes} {texts : List Bytes} (h : m.Stored (text :: texts)) (value : Bytes) :
    ∃ m', m.setTopVia value = .ok m' ∧ m'.viaTexts = value :: texts ∧ m.SameLists m' := by
  unfold setTopVia
  cases hvia : m.hdrVia with
  | none => exact absurd (h.none_iff.mp hvia) (List.cons_ne_nil text texts)
  | some array =>
    obtain ⟨hallocated, hread⟩ := h.read array hvia
    refine ⟨_, rfl, ?_, ⟨rfl, hvia.symm, h.same.trans hvia, ?_⟩⟩
    · show (m.arrays.write array _).read array = _
      rw [Arrays.read_write hallocated, hread]
      rfl
    · intro other hother
      rw [hvia] at hother
      exact Arrays.read_write_of_ne _ (fun heq => hother (congrArg some heq)) _

/-- The text that is written has the parameters in their order. -/
theorem newViaParams_eq {branch : Bytes} (h : m.viaBranch = some branch) (ip : Bytes) :
    m.newViaParams ip = .ok ((newParams branch ip m.viaRport m.viaHasAlias m.entries).flatMap fun p => 59 :: p.text) := by
  unfold newViaParams newParams
  rw [h, List.flatMap_append, List.flatMap_append, flatMap_entryParam]
  have hbranch : ascii ";branch=" = 59 :: (ascii "branch" ++ [61]) := by decide
  have hreceived : ascii ";received=" = 59 :: (ascii "received" ++ [61]) := by decide
  have hrport : ascii ";rport=" = 59 :: (ascii "rport" ++ [61]) := by decide
  have halias : ascii ";alias" = 59 :: ascii "alias" := by decide
  rw [hbranch, hreceived, hrport, halias]
  unfold ViaAttrs.entries
  cases m.viaRport <;> cases m.viaHasAlias <;> cases m.viaParams <;>
    simp [ViaParam.text, ViaParam.written]

/-- The branch of the code that writes the value. -/
theorem setTopVia_rewrites {source : SourceAddress} {value : ViaValue} {text : Bytes} {texts : List Bytes}
    (hwell : value.WellFormed) (hgives : m.Gives value) (hstored : m.Stored (text :: texts))
    (hip : m.sourceIp = source.ip) (hport : m.viaRport = if m.viaHasRport then some source.port else none)
    (hrfc : value.isRfc3261 = true) :
    ∃ m' v', ((m.newViaParams m.sourceIp).bind fun viaParams => m.setTopVia (m.viaCoreValue.getD [] ++ viaParams)) =
        .ok m' ∧
      m'.viaTexts = v'.text :: texts ∧ readVia v'.text = some v' ∧ Rewrites source value v' ∧ m.SameLists m' := by
  obtain ⟨branch, hbranch⟩ := ViaValue.branch_of_isRfc3261 hrfc
  have hnew := newViaParams_eq (hgives.branch.trans hbranch) m.sourceIp
  obtain ⟨m', hset, htexts, hsame⟩ := setTopVia_spec hstored
    (value.core ++ (newParams branch m.sourceIp m.viaRport m.viaHasAlias m.entries).flatMap fun p => 59 :: p.text)
  have hrewrites := rewrites_newParams source hgives hbranch
  have hrange : ∀ port ∈ m.viaRport, 1 ≤ port ∧ port ≤ 65535 := by
    intro port hmem
    rw [hport] at hmem
    split at hmem
    · obtain rfl := Option.some.inj hmem
      exact ⟨source.port_pos, source.port_le⟩
    · cases hmem
  have hparams : ∀ p ∈ newParams branch source.ip m.viaRport m.viaHasAlias m.entries, p.WellFormed :=
    wellFormed_newParams (hwell.isToken_branch hbranch) source.isIpAddress_ip hrange hgives.entries
  rw [← hport] at hrewrites
  refine ⟨m', _, ?_, ?_, ?_, hrewrites, hsame⟩
  · rw [hnew, hgives.core]
    exact hset
  · rw [hip] at htexts
    exact htexts
  · exact ViaValue.WellFormed.readVia_text ⟨hwell.semi, hwell.last, hwell.sent, hparams⟩

end ViaMessage

theorem readVia_of_mem_viasOf {entries : List HeaderEntry} {text : Bytes} {value : ViaValue}
    (h : (text, value) ∈ viasOf entries) : readVia text = some value := by
  induction entries with
  | nil => exact absurd h List.not_mem_nil
  | cons entry entries ih =>
    cases entry with
    | other name other key => exact ih h
    | via name first firstValue key read =>
      rcases List.mem_cons.mp h with heq | hmem
      · obtain ⟨rfl, rfl⟩ := Prod.mk.inj heq
        exact read
      · exact ih hmem

theorem findHost_of_readSentBy {text : Bytes} {hostPort : Bytes × Option Bytes} (h : readSentBy text = some hostPort) :
    ∃ hostType, findHost hostPort.1 = some hostType := by
  unfold readSentBy at h
  simp only at h
  split at h
  · next hhost =>
    apply Option.isSome_iff_exists.mp
    split at h
    · obtain rfl := Option.some.inj h
      exact hhost
    · obtain ⟨behind, _, hport⟩ := Option.bind_eq_some_iff.mp h
      split at hport
      · obtain rfl := Option.some.inj hport
        exact hhost
      · exact absurd hport.symm (Option.some_ne_none _)
  · exact absurd h.symm (Option.some_ne_none _)

theorem findHost_of_readSent {core : Bytes} {sent : ViaSent} (h : readSent core = some sent) :
    ∃ hostType, findHost sent.host = some hostType := by
  unfold readSent at h
  split at h
  · simp only at h
    split at h
    · obtain ⟨version, _, hmap⟩ := Option.bind_eq_some_iff.mp h
      obtain ⟨hostPort, hread, rfl⟩ := Option.map_eq_some_iff.mp hmap
      exact findHost_of_readSentBy hread
    · exact absurd h.symm (Option.some_ne_none _)
  · exact absurd h.symm (Option.some_ne_none _)

/-- **Via rewriting.** A request with an RFC 3261 branch in its top Via gets the source into it, and is otherwise left
as it is. -/
theorem addViaReceivedRport_rewrites (pton4 pton6 : Bytes → Option Bytes) (entries : List HeaderEntry)
    (source : SourceAddress) {text : Bytes} {value : ViaValue} {rest : List (Bytes × ViaValue)}
    (hvias : viasOf entries = (text, value) :: rest) (hrfc : value.isRfc3261 = true) :
    ∃ m' newText, (parseVias entries source).addViaReceivedRport pton4 pton6 = .ok m' ∧
      (parseVias entries source).viaTexts = text :: rest.map Prod.fst ∧
      m'.viaTexts = newText :: rest.map Prod.fst ∧
      ViaMessage.RewritesTop pton4 pton6 source value text newText ∧ (parseVias entries source).SameLists m' := by
  have hparsed := ViaParser.parsed_entries entries source
  rw [hvias] at hparsed
  have hread : readVia text = some value := readVia_of_mem_viasOf (hvias ▸ List.mem_cons_self)
  have hwell := ViaValue.wellFormed_of_readVia hread
  have hgives := hparsed.gives (text, value) rfl
  have hstored : (parseVias entries source).Stored (text :: rest.map Prod.fst) := hparsed.stored
  have hip : (parseVias entries source).sourceIp = source.ip := hparsed.sourceIp
  have hport : (parseVias entries source).sourcePort = source.port := hparsed.sourcePort
  have hnoRport : (parseVias entries source).viaRport = none := hparsed.viaRport
  replace hgives : (parseVias entries source).Gives value := hgives
  clear hparsed
  generalize parseVias entries source = m at *
  have htexts : m.viaTexts = text :: rest.map Prod.fst := by
    unfold ViaMessage.viaTexts
    cases hvia : m.hdrVia with
    | none => exact absurd (hstored.none_iff.mp hvia) (List.cons_ne_nil _ _)
    | some array => exact (hstored.read array hvia).2
  unfold ViaMessage.addViaReceivedRport
  by_cases hrport : m.viaHasRport = true
  · rw [if_pos hrport]
    have hsome : value.rport.isSome = true := hgives.rport.symm.trans hrport
    have hport' : some m.sourcePort = if m.viaHasRport then some source.port else none := by
      rw [if_pos hrport, hport]
    obtain ⟨m', v', hok, hnew, hread', hrewrites, hsame⟩ := ViaMessage.setTopVia_rewrites
      (m := { m with viaRport := some m.sourcePort }) hwell hgives (hstored.withRport _) hip hport' hrfc
    refine ⟨m', v'.text, hok, htexts, hnew, ⟨fun h => ?_, fun _ => ⟨v', hread', hrewrites⟩⟩, ?_⟩
    · rw [h.1] at hsome
      cases hsome
    · exact ⟨hsame.headers, hsame.hdrVia, hsame.shared, hsame.others⟩
  · rw [if_neg hrport, hgives.host]
    have hnone : value.rport = none := by
      cases hvalue : value.rport with
      | none => rfl
      | some port =>
        have hgiven := hgives.rport
        rw [hvalue] at hgiven
        exact absurd hgiven hrport
    obtain ⟨hostType, hhost⟩ := findHost_of_readSent hwell.sent
    have hcompare := compareIps_iff pton4 pton6 hhost source.isIpAddress_ip
    show ∃ m' newText, (if compareIps (utilsComparePureIps pton4 pton6) value.sent.host m.sourceIp = some true then
      .ok m else _) = Except.ok m' ∧ _
    rw [hip]
    by_cases hequal : compareIps (utilsComparePureIps pton4 pton6) value.sent.host source.ip = some true
    · rw [if_pos hequal]
      refine ⟨m, text, rfl, htexts, htexts, ⟨fun _ => rfl, fun h => ?_⟩, ⟨rfl, rfl, hstored.same, fun _ _ => rfl⟩⟩
      exact absurd ⟨hnone, hcompare.mp hequal⟩ h
    · rw [if_neg hequal, ← hip]
      have hport' : m.viaRport = if m.viaHasRport then some source.port else none := by
        rw [if_neg hrport, hnoRport]
      obtain ⟨m', v', hok, hnew, hread', hrewrites, hsame⟩ :=
        ViaMessage.setTopVia_rewrites hwell hgives hstored hip hport' hrfc
      refine ⟨m', v'.text, hok, htexts, hnew, ⟨fun h => ?_, fun _ => ⟨v', hread', hrewrites⟩⟩, hsame⟩
      exact absurd (hcompare.mpr (hip ▸ h.2)) hequal

/-! ## A request -/

def sampleViaText : Bytes := ascii "SIP/2.0/UDP h.net;rport;x=\";\";branch=z9hG4bK1"

def sampleVia : ViaValue where
  core := ascii "SIP/2.0/UDP h.net"
  sent :=
    { protocolName := ascii "SIP", protocolVersion := ascii "2.0", transport := ascii "UDP", host := ascii "h.net"
      port := none }
  params := [.rport none, .other (ascii "x") (some ([], ascii "\";\"")), .branch (ascii "z9hG4bK1")]

theorem readVia_sampleViaText : readVia sampleViaText = some sampleVia := by decide

def sampleViaEntries : List HeaderEntry :=
  [.other (ascii "Subject") (ascii "x") (by decide),
    .via (ascii "v") sampleViaText sampleVia (by decide) readVia_sampleViaText]

def sampleSource : SourceAddress where
  ip := ascii "192.0.2.1"
  port := 5062
  isIpAddress_ip := by decide
  port_pos := by decide
  port_le := by decide

/-- `inet_pton` for the address of the source. -/
def samplePton4 (str : Bytes) : Option Bytes := if str = ascii "192.0.2.1" then some [192, 0, 2, 1] else none

theorem addViaReceivedRport_sample :
    ∃ m' newText, (parseVias sampleViaEntries sampleSource).addViaReceivedRport samplePton4 (fun _ => none) = .ok m' ∧
      (parseVias sampleViaEntries sampleSource).viaTexts = [sampleViaText] ∧ m'.viaTexts = [newText] ∧
      ViaMessage.RewritesTop samplePton4 (fun _ => none) sampleSource sampleVia sampleViaText newText ∧
      (parseVias sampleViaEntries sampleSource).SameLists m' :=
  addViaReceivedRport_rewrites samplePton4 (fun _ => none) sampleViaEntries sampleSource rfl (by decide)

end OverSip
