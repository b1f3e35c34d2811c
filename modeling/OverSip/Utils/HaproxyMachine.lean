import OverSip.Lib.LineMachine
import OverSip.Utils.IpTexts
import OverSip.Utils.Ports

/-!
# The machine of the HAProxy Protocol

The machine of `haproxy_protocol.rl` with its actions, and the method of `Utils` that runs it (`utils_ruby.c`). The
actions note where the address and the port begin and how long they are. The length of the line is where the
machine stops: it has no transition behind the line, so it stops there whatever follows.

`exact_parse` is the specification of the method, for every string.
-/

namespace OverSip

open Regex GrammarIp

/-! ## The machine -/

/-- The variables that the actions write; `ip_s` and `port_s` are positions in the string. -/
structure HaproxyVars where
  finished : Bool := false
  ipType : Option IpType := none
  ipS : ℕ := 0
  ipLen : ℕ := 0
  portS : ℕ := 0
  portLen : ℕ := 0
deriving DecidableEq, Repr

namespace HaproxyVars

def isIpv4 (v : HaproxyVars) : HaproxyVars := { v with ipType := some .ipv4 }

def isIpv6 (v : HaproxyVars) : HaproxyVars := { v with ipType := some .ipv6 }

def startIp (fpc : ℕ) (v : HaproxyVars) : HaproxyVars := { v with ipS := fpc }

def endIp (fpc : ℕ) (v : HaproxyVars) : HaproxyVars := { v with ipLen := fpc - v.ipS }

def startPort (fpc : ℕ) (v : HaproxyVars) : HaproxyVars := { v with portS := fpc }

def endPort (fpc : ℕ) (v : HaproxyVars) : HaproxyVars := { v with portLen := fpc - v.portS + 1 }

def done (_ : ℕ) (v : HaproxyVars) : HaproxyVars := { v with finished := true }

end HaproxyVars

namespace HaproxyLine

/-- A field without actions. -/
def plain (alternatives : List (Regex UInt8)) (stop : UInt8) : LineField UInt8 HaproxyVars where
  alternatives := alternatives.map fun r => (r, id)
  stop := stop
  entering _ v := v
  finishing _ v := v
  leaving _ v := v

/-- `"PROXY "` -/
def proxy : LineField UInt8 HaproxyVars := plain [lit "PROXY"] 32

/-- `"TCP" ( "4" | "6" ) " "` -/
def tcp : LineField UInt8 HaproxyVars := plain [cat (lit "TCP") (cls [(52, 52), (54, 54)])] 32

/-- `( IPv4address %is_ipv4 | IPv6address %is_ipv6 ) >start_ip %end_ip " "` -/
def source : LineField UInt8 HaproxyVars where
  alternatives := [(ipv4address, HaproxyVars.isIpv4), (ipv6address, HaproxyVars.isIpv6)]
  stop := 32
  entering := HaproxyVars.startIp
  finishing _ v := v
  leaving := HaproxyVars.endIp

/-- `( IPv4address | IPv6address ) " "` -/
def destination : LineField UInt8 HaproxyVars := plain [ipv4address, ipv6address] 32

/-- `port >start_port @end_port " "` -/
def sourcePort : LineField UInt8 HaproxyVars where
  alternatives := [(port, id)]
  stop := 32
  entering := HaproxyVars.startPort
  finishing := HaproxyVars.endPort
  leaving _ v := v

/-- `port "\r"` -/
def destinationPort : LineField UInt8 HaproxyVars := plain [port] 13

/-- `"\n" @done` -/
def lineFeed : LineField UInt8 HaproxyVars :=
  { plain [eps] 10 with leaving := HaproxyVars.done }

/-- `main` -/
def fields : List (LineField UInt8 HaproxyVars) :=
  [proxy, tcp, source, destination, sourcePort, destinationPort, lineFeed]

end HaproxyLine

/-- `struct_haproxy_protocol` -/
structure StructHaproxyProtocol where
  valid : Bool
  totalLen : ℕ
  vars : HaproxyVars
deriving DecidableEq, Repr

/-- `struct_haproxy_protocol_parser_execute`; `total_len` is an `unsigned short`. -/
def structHaproxyProtocolParserExecute (str : Bytes) : StructHaproxyProtocol :=
  let stopped := LineState.execute ⟨HaproxyLine.fields, false, 0, {}⟩ str
  { valid := stopped.vars.finished, totalLen := stopped.position % 65536, vars := stopped.vars }

/-- `Utils.parse_haproxy_protocol`; `none` is `false`. -/
def utilsParserHaproxyProtocol (str : Bytes) : Option HaproxyProtocol :=
  let h := structHaproxyProtocolParserExecute str
  if h.valid then
    some
      { totalLen := h.totalLen
        ipType := if h.vars.ipType = some .ipv4 then .ipv4 else .ipv6
        ip := rubyString ((str.drop h.vars.ipS).take h.vars.ipLen)
        port := (strToInt (str.drop h.vars.portS) h.vars.portLen).toNat }
  else none

/-! ## The fields -/

namespace HaproxyLine

theorem leave_plain (alternatives : List (Regex UInt8)) (stop : UInt8) (w : Bytes) (position : ℕ)
    (vars : HaproxyVars) : ((plain alternatives stop).rest w).leave position vars = vars := by
  have hid : ∀ (ps : List (Regex UInt8 × (HaproxyVars → HaproxyVars))) (v : HaproxyVars),
      (∀ p ∈ ps, p.2 = id) → ps.foldl (fun v p => p.2 v) v = v := by
    intro ps
    induction ps with
    | nil => exact fun v _ => rfl
    | cons p ps ih =>
      intro v h
      rw [List.forall_mem_cons] at h
      rw [List.foldl_cons, h.1]
      exact ih v h.2
  rw [LineField.leave_rest]
  apply hid
  intro p hp
  obtain ⟨r, -, rfl⟩ := List.mem_map.mp (List.mem_of_mem_filter hp)
  rfl

theorem readVars_plain (alternatives : List (Regex UInt8)) (stop : UInt8) (w : Bytes) (position : ℕ)
    (vars : HaproxyVars) : (plain alternatives stop).readVars position w vars = vars := ite_self _

theorem wellDelimited_plain {alternatives : List (Regex UInt8)} {stop : UInt8}
    (h : alternatives.all (avoids stop) = true) : (plain alternatives stop).WellDelimited where
  stop := by
    rintro w ⟨p, hp, hw⟩
    obtain ⟨r, hr, rfl⟩ := List.mem_map.mp hp
    exact notMem_of_avoids (List.all_eq_true.mp h r hr) hw
  finishing _ _ _ := rfl

theorem matches_plain_iff (alternatives : List (Regex UInt8)) (stop : UInt8) (w : Bytes) :
    (plain alternatives stop).Matches w ↔ ∃ r ∈ alternatives, w ∈ lang r := by
  constructor
  · rintro ⟨p, hp, hw⟩
    obtain ⟨r, hr, rfl⟩ := List.mem_map.mp hp
    exact ⟨r, hr, hw⟩
  · rintro ⟨r, hr, hw⟩
    exact ⟨(r, id), List.mem_map_of_mem hr, hw⟩

/-- A field without actions is read. -/
theorem reads_plain {alternatives : List (Regex UInt8)} {stop : UInt8} (h : alternatives.all (avoids stop) = true)
    {w : Bytes} {r : Regex UInt8} (hr : r ∈ alternatives) (hw : w ∈ lang r)
    (fields : List (LineField UInt8 HaproxyVars)) (position : ℕ) (vars : HaproxyVars) :
    LineState.reads ⟨plain alternatives stop :: fields, false, position, vars⟩ (w ++ [stop]) =
      some ⟨fields, false, position + w.length + 1, vars⟩ := by
  have hread := reads_field fields position vars (wellDelimited_plain h)
    ((matches_plain_iff alternatives stop w).mpr ⟨r, hr, hw⟩)
  rw [leave_plain, readVars_plain] at hread
  exact hread

theorem wellDelimited_source : source.WellDelimited where
  stop := by
    rintro w ⟨p, hp, hw⟩
    have hall : ∀ q ∈ source.alternatives, avoids 32 q.1 = true := by decide
    exact notMem_of_avoids (hall p hp) hw
  finishing _ _ _ := rfl

theorem wellDelimited_sourcePort : sourcePort.WellDelimited where
  stop := by
    rintro w ⟨p, hp, hw⟩
    have hall : ∀ q ∈ sourcePort.alternatives, avoids 32 q.1 = true := by decide
    exact notMem_of_avoids (hall p hp) hw
  finishing _ _ _ := rfl

/-- The type that is noted for an address. -/
def typeOf (ip : Bytes) : IpType := if isIPv4address ip then .ipv4 else .ipv6

theorem accepts_ipv4address (ip : Bytes) : ipv4address.accepts ip = isIPv4address ip :=
  Bool.eq_iff_iff.mpr ((accepts_iff ipv4address ip).trans (isIPv4address_iff ip).symm)

/-- No address has both types. -/
theorem accepts_ipv6address {ip : Bytes} (h : isIpAddress ip = true) :
    ipv6address.accepts ip = !isIPv4address ip := by
  have hmem := (isIpAddress_iff ip).mp h
  cases hipv4 : isIPv4address ip with
  | true =>
    apply Bool.eq_false_iff.mpr
    intro hipv6
    exact colon_notMem_of_isIPv4address hipv4 (colon_mem_of_ipv6 ((accepts_iff _ _).mp hipv6))
  | false =>
    rw [← isIPv4address_iff, hipv4] at hmem
    exact (accepts_iff _ _).mpr (hmem.resolve_left Bool.false_ne_true)

/-- An address is read: its place, its length and its type are noted. -/
theorem reads_source {ip : Bytes} (h : isIpAddress ip = true) (fields : List (LineField UInt8 HaproxyVars))
    (position : ℕ) (vars : HaproxyVars) :
    LineState.reads ⟨source :: fields, false, position, vars⟩ (ip ++ [32]) =
      some ⟨fields, false, position + ip.length + 1,
        { vars with ipS := position, ipLen := ip.length, ipType := some (typeOf ip) }⟩ := by
  have hmatch : source.Matches ip := by
    rcases (isIpAddress_iff ip).mp h with hip | hip
    · exact ⟨_, List.mem_cons_self, hip⟩
    · exact ⟨_, List.mem_cons_of_mem _ List.mem_cons_self, hip⟩
  have hne : ip ≠ [] := by
    rintro rfl
    cases h
  have hread := reads_field fields position vars wellDelimited_source hmatch
  rw [LineField.leave_rest, LineField.readVars, if_neg hne] at hread
  have hleave : (source.alternatives.filter fun p => p.1.accepts ip).foldl (fun v p => p.2 v)
      (HaproxyVars.startIp position vars) =
      { vars with ipS := position, ipType := some (typeOf ip) } := by
    show List.foldl (fun v p => p.2 v) (HaproxyVars.startIp position vars)
      (List.filter (fun p => p.1.accepts ip)
        [(ipv4address, HaproxyVars.isIpv4), (ipv6address, HaproxyVars.isIpv6)]) = _
    rw [List.filter_cons, List.filter_cons, List.filter_nil, accepts_ipv4address, accepts_ipv6address h]
    unfold typeOf
    cases isIPv4address ip with
    | false => rfl
    | true => rfl
  have hlen : position + ip.length - position = ip.length := Nat.add_sub_cancel_left position ip.length
  have hend : HaproxyVars.endIp (position + ip.length)
      { vars with ipS := position, ipType := some (typeOf ip) } =
      { vars with ipS := position, ipLen := ip.length, ipType := some (typeOf ip) } := by
    unfold HaproxyVars.endIp
    dsimp only
    rw [hlen]
  rw [← hend, ← hleave]
  exact hread

/-- A port is read: its place and its length are noted. -/
theorem reads_sourcePort {text : Bytes} (h : isPort text = true) (fields : List (LineField UInt8 HaproxyVars))
    (position : ℕ) (vars : HaproxyVars) :
    LineState.reads ⟨sourcePort :: fields, false, position, vars⟩ (text ++ [32]) =
      some ⟨fields, false, position + text.length + 1,
        { vars with portS := position, portLen := text.length }⟩ := by
  have hmatch : sourcePort.Matches text := ⟨_, List.mem_cons_self, (isPort_iff text).mp h⟩
  have hne : text ≠ [] := by
    rintro rfl
    cases h
  have hpos := List.length_pos_of_ne_nil hne
  have hlen : position + text.length - 1 - position + 1 = text.length := by omega
  have hread := reads_field fields position vars wellDelimited_sourcePort hmatch
  rw [LineField.leave_rest, LineField.readVars, if_neg hne] at hread
  have hleave : (sourcePort.alternatives.filter fun p => p.1.accepts text).foldl (fun v p => p.2 v)
      (HaproxyVars.endPort (position + text.length - 1) (HaproxyVars.startPort position vars)) =
      { vars with portS := position, portLen := text.length } := by
    show List.foldl (fun v p => p.2 v) (HaproxyVars.endPort _ _)
      (List.filter (fun p => p.1.accepts text) [(port, id)]) = _
    rw [List.filter_cons, List.filter_nil, if_pos ((accepts_iff _ _).mpr ((isPort_iff text).mp h))]
    unfold HaproxyVars.endPort HaproxyVars.startPort
    show { vars with portS := position, portLen := position + text.length - 1 - position + 1 } = _
    rw [hlen]
  rw [← hleave]
  exact hread

/-- The fields of a line with what ends each. -/
theorem text_eq (line : ProxyLine) : line.text =
    (ascii "PROXY" ++ [32]) ++ ((ascii "TCP" ++ [line.version] ++ [32]) ++ ((line.source ++ [32]) ++
      ((line.destination ++ [32]) ++ ((line.sourcePort ++ [32]) ++ ((line.destinationPort ++ [13]) ++
        ([] ++ [10])))))) := by
  have hproxy : ascii "PROXY TCP" = ascii "PROXY" ++ 32 :: ascii "TCP" := by decide
  unfold ProxyLine.text CRLF
  rw [hproxy]
  simp only [List.append_assoc, List.cons_append, List.nil_append]

/-- The variables when a line has been read. -/
def varsOf (line : ProxyLine) : HaproxyVars where
  finished := true
  ipType := some (typeOf line.source)
  ipS := 11
  ipLen := line.source.length
  portS := 11 + line.source.length + 1 + line.destination.length + 1
  portLen := line.sourcePort.length

theorem reads_proxy :
    LineState.reads ⟨fields, false, 0, {}⟩ (ascii "PROXY" ++ [32]) =
      some ⟨[tcp, source, destination, sourcePort, destinationPort, lineFeed], false, 6, {}⟩ :=
  reads_plain (by decide) List.mem_cons_self (by decide) _ 0 {}

theorem reads_tcp {version : UInt8} (h : version = 52 ∨ version = 54) :
    LineState.reads ⟨[tcp, source, destination, sourcePort, destinationPort, lineFeed], false, 6, {}⟩
        (ascii "TCP" ++ [version] ++ [32]) =
      some ⟨[source, destination, sourcePort, destinationPort, lineFeed], false, 11, {}⟩ := by
  have hword : ascii "TCP" ++ [version] ∈ lang (cat (lit "TCP") (cls [(52, 52), (54, 54)])) := by
    rcases h with rfl | rfl
    · decide
    · decide
  exact reads_plain (by decide) List.mem_cons_self hword _ 6 {}

theorem reads_destination {ip : Bytes} (h : isIpAddress ip = true) (position : ℕ) (vars : HaproxyVars) :
    LineState.reads ⟨[destination, sourcePort, destinationPort, lineFeed], false, position, vars⟩ (ip ++ [32]) =
      some ⟨[sourcePort, destinationPort, lineFeed], false, position + ip.length + 1, vars⟩ := by
  have hdelimited : [ipv4address, ipv6address].all (avoids (32 : UInt8)) = true := by decide
  rcases (isIpAddress_iff ip).mp h with hip | hip
  · exact reads_plain hdelimited List.mem_cons_self hip _ position vars
  · exact reads_plain hdelimited (List.mem_cons_of_mem _ List.mem_cons_self) hip _ position vars

theorem reads_destinationPort {text : Bytes} (h : isPort text = true) (position : ℕ) (vars : HaproxyVars) :
    LineState.reads ⟨[destinationPort, lineFeed], false, position, vars⟩ (text ++ [13]) =
      some ⟨[lineFeed], false, position + text.length + 1, vars⟩ :=
  reads_plain (by decide) List.mem_cons_self ((isPort_iff text).mp h) _ position vars

theorem reads_lineFeed (position : ℕ) (vars : HaproxyVars) :
    LineState.reads ⟨[lineFeed], false, position, vars⟩ ([] ++ [10]) =
      some ⟨[], false, position + 1, { vars with finished := true }⟩ := rfl

theorem length_text (line : ProxyLine) : line.text.length = 11 + line.source.length + 1 + line.destination.length + 1 +
    line.sourcePort.length + 1 + line.destinationPort.length + 1 + 1 := by
  have hproxy : (ascii "PROXY").length = 5 ∧ (ascii "TCP").length = 3 := by decide
  rw [text_eq]
  simp only [List.length_append, List.length_cons, List.length_nil, hproxy.1, hproxy.2]
  omega

/-- **A line is read.** -/
theorem reads_text (line : ProxyLine) :
    LineState.reads ⟨fields, false, 0, {}⟩ line.text = some ⟨[], false, line.text.length, varsOf line⟩ := by
  rw [length_text, text_eq, LineState.reads_append, reads_proxy, Option.bind_some, LineState.reads_append,
    reads_tcp line.version_tcp, Option.bind_some, LineState.reads_append, reads_source line.isIpAddress_source,
    Option.bind_some, LineState.reads_append, reads_destination line.isIpAddress_destination, Option.bind_some,
    LineState.reads_append, reads_sourcePort line.isPort_source, Option.bind_some, LineState.reads_append,
    reads_destinationPort line.isPort_destination, Option.bind_some, reads_lineFeed]
  rfl

/-- The actions do not set `finished` before the end of the line. -/
theorem keepsBeforeEnd_fields : KeepsBeforeEnd (fun v : HaproxyVars => v.finished = false) fields := by
  have hplain : ∀ alternatives stop, (plain alternatives stop).Keeps fun v : HaproxyVars => v.finished = false := by
    intro alternatives stop
    refine ⟨⟨fun _ _ h => h, fun _ _ h => h⟩, ?_, fun _ _ h => h⟩
    intro q hq v hv
    obtain ⟨r, -, rfl⟩ := List.mem_map.mp hq
    exact hv
  have hsource : source.Keeps fun v : HaproxyVars => v.finished = false := by
    refine ⟨⟨fun _ _ h => h, fun _ _ h => h⟩, ?_, fun _ _ h => h⟩
    intro q hq v hv
    rcases List.mem_cons.mp hq with rfl | hq
    · exact hv
    · obtain rfl := List.mem_singleton.mp hq
      exact hv
  have hsourcePort : sourcePort.Keeps fun v : HaproxyVars => v.finished = false := by
    refine ⟨⟨fun _ _ h => h, fun _ _ h => h⟩, ?_, fun _ _ h => h⟩
    intro q hq v hv
    obtain rfl := List.mem_singleton.mp hq
    exact hv
  exact ⟨hplain _ _, hplain _ _, hsource, hplain _ _, hsourcePort, hplain _ _, fun _ _ h => h, fun _ _ h => h⟩

/-- The lines of the machine are the lines of the protocol. -/
theorem exists_line_of_lineOf {u : Bytes} (h : LineOf fields u) : ∃ line : ProxyLine, u = line.text := by
  obtain ⟨w0, _, rfl, hw0, w1, _, rfl, hw1, source, _, rfl, hsource, destination, _, rfl, hdestination, sourcePort, _,
    rfl, hsourcePort, destinationPort, _, rfl, hdestinationPort, w6, _, rfl, hw6, rfl⟩ := h
  have hproxy : w0 = ascii "PROXY" := by
    obtain ⟨r, hr, hw⟩ := (matches_plain_iff _ _ _).mp hw0
    obtain rfl := List.mem_singleton.mp hr
    exact (mem_lit_iff _ _).mp hw
  obtain ⟨version, htcp, hversion⟩ : ∃ version : UInt8, w1 = ascii "TCP" ++ [version] ∧ (version = 52 ∨ version = 54) := by
    obtain ⟨r, hr, hw⟩ := (matches_plain_iff _ _ _).mp hw1
    obtain rfl := List.mem_singleton.mp hr
    obtain ⟨u, hu, v, ⟨version, rfl, hmem⟩, rfl⟩ := (mem_cat_iff _ _ _).mp hw
    rw [(mem_lit_iff _ _).mp hu]
    refine ⟨version, rfl, ?_⟩
    have hle : (52 ≤ version ∧ version ≤ 52) ∨ (54 ≤ version ∧ version ≤ 54) := by
      simpa [Regex.inRanges] using hmem
    exact hle.imp (fun h => UInt8.le_antisymm h.2 h.1) fun h => UInt8.le_antisymm h.2 h.1
  have hsourceIp : isIpAddress source = true := by
    obtain ⟨p, hp, hw⟩ := hsource
    rcases List.mem_cons.mp hp with rfl | hp
    · exact (isIpAddress_iff source).mpr (Or.inl hw)
    · obtain rfl := List.mem_singleton.mp hp
      exact (isIpAddress_iff source).mpr (Or.inr hw)
  have hdestinationIp : isIpAddress destination = true := by
    obtain ⟨r, hr, hw⟩ := (matches_plain_iff _ _ _).mp hdestination
    rcases List.mem_cons.mp hr with rfl | hr
    · exact (isIpAddress_iff destination).mpr (Or.inl hw)
    · obtain rfl := List.mem_singleton.mp hr
      exact (isIpAddress_iff destination).mpr (Or.inr hw)
  have hport : isPort sourcePort = true := by
    obtain ⟨p, hp, hw⟩ := hsourcePort
    obtain rfl := List.mem_singleton.mp hp
    exact (isPort_iff sourcePort).mpr hw
  have hdestPort : isPort destinationPort = true := by
    obtain ⟨r, hr, hw⟩ := (matches_plain_iff _ _ _).mp hdestinationPort
    obtain rfl := List.mem_singleton.mp hr
    exact (isPort_iff destinationPort).mpr hw
  have hend : w6 = [] := by
    obtain ⟨p, hp, hw⟩ := hw6
    obtain rfl := List.mem_singleton.mp hp
    exact (mem_eps_iff _).mp hw
  subst hproxy htcp hend
  refine ⟨⟨version, source, destination, sourcePort, destinationPort, hversion, hsourceIp, hdestinationIp, hport,
    hdestPort⟩, ?_⟩
  rw [text_eq]
  simp only [List.append_assoc, List.cons_append, List.nil_append]
  rfl

end HaproxyLine

/-! ## The specification -/

/-- The length of a line fits into an `unsigned short`. -/
theorem length_text_lt (line : ProxyLine) : line.text.length < 65536 := by
  have hip : ∀ ip : Bytes, isIpAddress ip = true → ip.length ≤ 45 := by
    intro ip h
    rcases (isIpAddress_iff ip).mp h with h | h
    · have hle : ip.length ≤ 15 := length_le_of_maxLength (by decide) h
      omega
    · exact length_le_of_maxLength (by decide) h
  have hport : ∀ text : Bytes, isPort text = true → text.length ≤ 5 :=
    fun text h => length_le_of_maxLength (by decide) ((isPort_iff text).mp h)
  have hsource := hip line.source line.isIpAddress_source
  have hdestination := hip line.destination line.isIpAddress_destination
  have hsourcePort := hport line.sourcePort line.isPort_source
  have hdestinationPort := hport line.destinationPort line.isPort_destination
  rw [HaproxyLine.length_text]
  omega

theorem take_drop_middle {u w v : Bytes} {n : ℕ} (h : u.length = n) :
    ((u ++ (w ++ v)).drop n).take w.length = w := by
  rw [List.drop_left' h, List.take_left]

/-- `str_to_int` looks at nothing behind the digits. -/
theorem strToInt_of_take {str digits : Bytes} (h : str.take digits.length = digits) :
    strToInt str digits.length = strToInt digits digits.length := by
  unfold strToInt
  rw [h, List.take_length]

/-- What is announced by a line is returned, whatever stands behind it. -/
theorem utilsParserHaproxyProtocol_line (line : ProxyLine) (rest : Bytes) :
    utilsParserHaproxyProtocol (line.text ++ rest) = some line.data := by
  have hstop : LineState.execute ⟨HaproxyLine.fields, false, 0, {}⟩ (line.text ++ rest) =
      ⟨[], false, line.text.length, HaproxyLine.varsOf line⟩ := by
    rw [LineState.execute_append (HaproxyLine.reads_text line), LineState.execute_of_nil rfl]
  have htext : line.text ++ rest = (ascii "PROXY TCP" ++ [line.version, 32]) ++ (line.source ++
      ((32 :: line.destination ++ [32]) ++ (line.sourcePort ++ (32 :: line.destinationPort ++ CRLF ++ rest)))) := by
    unfold ProxyLine.text
    simp only [List.append_assoc, List.cons_append, List.nil_append]
  have hproxy : (ascii "PROXY TCP").length = 9 := by decide
  have hsource : ((line.text ++ rest).drop 11).take line.source.length = line.source := by
    rw [htext]
    apply take_drop_middle
    rw [List.length_append, hproxy]
    rfl
  have hport : ((line.text ++ rest).drop (11 + line.source.length + 1 + line.destination.length + 1)).take
      line.sourcePort.length = line.sourcePort := by
    rw [htext, ← List.append_assoc _ line.source, ← List.append_assoc _ (32 :: line.destination ++ [32])]
    apply take_drop_middle
    simp only [List.length_append, List.length_cons, List.length_nil, hproxy]
    omega
  have htotal : line.text.length % 65536 = line.text.length := Nat.mod_eq_of_lt (length_text_lt line)
  have htype : (if (HaproxyLine.varsOf line).ipType = some .ipv4 then IpType.ipv4 else .ipv6) = line.data.ipType := by
    show (if some (HaproxyLine.typeOf line.source) = some .ipv4 then IpType.ipv4 else .ipv6) =
      HaproxyLine.typeOf line.source
    cases HaproxyLine.typeOf line.source with
    | ipv4 => rfl
    | ipv6 => rfl
  unfold utilsParserHaproxyProtocol structHaproxyProtocolParserExecute
  rw [hstop]
  dsimp only
  rw [htotal, htype]
  show some (HaproxyProtocol.mk _ _ (rubyString (((line.text ++ rest).drop 11).take line.source.length))
    (strToInt ((line.text ++ rest).drop (11 + line.source.length + 1 + line.destination.length + 1))
      line.sourcePort.length).toNat) = some line.data
  rw [hsource, strToInt_of_take hport]
  rfl

/-- Nothing else is taken for a line. -/
theorem line_of_utilsParserHaproxyProtocol {str : Bytes} {p : HaproxyProtocol}
    (h : utilsParserHaproxyProtocol str = some p) : ∃ line : ProxyLine, ∃ rest, str = line.text ++ rest := by
  have hfinished : (LineState.execute ⟨HaproxyLine.fields, false, 0, {}⟩ str).vars.finished = true := by
    by_contra hne
    unfold utilsParserHaproxyProtocol structHaproxyProtocolParserExecute at h
    rw [if_neg hne] at h
    cases h
  have hend : (LineState.execute ⟨HaproxyLine.fields, false, 0, {}⟩ str).fields = [] := by
    by_contra hne
    obtain ⟨v, rest, -, hreads⟩ := LineState.exists_reads_execute ⟨HaproxyLine.fields, false, 0, {}⟩ str
    have hnot := keeps_of_reads hreads HaproxyLine.keepsBeforeEnd_fields rfl hne
    rw [hfinished] at hnot
    cases hnot
  obtain ⟨u, rest, rfl, hu⟩ := LineState.line_of_execute hend
  obtain ⟨line, rfl⟩ := HaproxyLine.exists_line_of_lineOf hu
  exact ⟨line, rest, rfl⟩

/-- The machine and the reader of fields do the same. -/
theorem utilsParserHaproxyProtocol_eq (str : Bytes) : utilsParserHaproxyProtocol str = parseHaproxyProtocol str := by
  by_cases hline : ∃ line : ProxyLine, ∃ rest, str = line.text ++ rest
  · obtain ⟨line, rest, rfl⟩ := hline
    rw [utilsParserHaproxyProtocol_line, parseHaproxyProtocol_line]
  · have hmachine : utilsParserHaproxyProtocol str = none :=
      Option.eq_none_iff_forall_ne_some.mpr fun p h => hline (line_of_utilsParserHaproxyProtocol h)
    have hreader : parseHaproxyProtocol str = none :=
      Option.eq_none_iff_forall_ne_some.mpr fun p h => hline (line_of_parseHaproxyProtocol h)
    rw [hmachine, hreader]

/-- The addresses of a type. -/
def addressOf : IpType → Regex UInt8
  | .ipv4 => ipv4address
  | .ipv6 => ipv6address

theorem typeOf_of_mem {ip : Bytes} {type : IpType} (h : ip ∈ lang (addressOf type)) :
    HaproxyLine.typeOf ip = type := by
  cases type with
  | ipv4 => exact if_pos ((isIPv4address_iff ip).mpr h)
  | ipv6 =>
    have hnot : ¬isIPv4address ip = true :=
      fun hipv4 => colon_notMem_of_isIPv4address hipv4 (colon_mem_of_ipv6 h)
    exact if_neg hnot

/-- **What is parsed.** Of a line with a source address of a type the length, the type, the address and the port are
returned, whatever stands behind the line. Nothing is parsed of a string that begins with no line. -/
theorem exact_parse :
    (∀ (line : ProxyLine) (type : IpType) (rest : Bytes), line.source ∈ lang (addressOf type) →
      utilsParserHaproxyProtocol (line.text ++ rest) =
        some
          { totalLen := line.text.length
            ipType := type
            ip := rubyString line.source
            port := Numerals.value 10 (portDigits line.sourcePort) }) ∧
    (∀ n, 1 ≤ n → n ≤ 65535 →
      isPort (Numerals.decimal n) = true ∧ Numerals.value 10 (portDigits (Numerals.decimal n)) = n) ∧
    ∀ str : Bytes, (∀ (line : ProxyLine) (rest : Bytes), str ≠ line.text ++ rest) →
      utilsParserHaproxyProtocol str = none := by
  refine ⟨?_, ?_, ?_⟩
  · intro line type rest hsource
    have hport : (strToInt line.sourcePort line.sourcePort.length).toNat =
        Numerals.value 10 (portDigits line.sourcePort) := by
      rw [strToInt_of_isPort line.isPort_source, Int.toNat_natCast]
    rw [utilsParserHaproxyProtocol_line, ← typeOf_of_mem hsource, ← hport]
    rfl
  · intro n hpos hle
    have hread := strToInt_of_isPort (isPort_decimal hpos hle)
    rw [strToInt_decimal hpos hle] at hread
    exact ⟨isPort_decimal hpos hle, (Int.ofNat.inj hread).symm⟩
  · intro str hnone
    rw [Option.eq_none_iff_forall_ne_some]
    intro p hp
    obtain ⟨line, rest, hline⟩ := line_of_utilsParserHaproxyProtocol hp
    exact hnone line rest hline

/-- A line of two IPv6 addresses. -/
def sampleProxyLine : ProxyLine where
  version := 54
  source := ascii "2001:db8::1"
  destination := ascii "::ffff:10.0.0.1"
  sourcePort := ascii "40022"
  destinationPort := ascii "5061"
  version_tcp := Or.inr rfl
  isIpAddress_source := by decide
  isIpAddress_destination := by decide
  isPort_source := by decide
  isPort_destination := by decide

theorem exact_parse_sample : utilsParserHaproxyProtocol (sampleProxyLine.text ++ [80]) =
    some ⟨51, .ipv6, "2001:db8::1", 40022⟩ :=
  exact_parse.1 sampleProxyLine .ipv6 [80] (by decide)

end OverSip
