import OverSip.Sip.Connections
import OverSip.Sip.Numbers
import OverSip.Sip.ReceivedMessage

/-!
# The line of the HAProxy Protocol

The grammar of a PROXY line (`haproxy_protocol.rl`, with `grammar_ip.rl`) and `parse_haproxy_protocol`
(`utils_ruby.c`), which reads a line at the start of a string in one go: a string in which the line is not
complete is refused as one that holds something else.

No field contains the character that ends it, so the automaton is written as a reader of fields.
`parseHaproxyProtocol_eq_some_iff` is its specification.
-/

namespace OverSip

/-! ## Readers -/

/-- The given bytes at the start of a string are read. -/
def readLiteral (literal str : Bytes) : Option Bytes :=
  if str.take literal.length = literal then some (str.drop literal.length) else none

theorem readLiteral_eq_some_iff (literal str rest : Bytes) :
    readLiteral literal str = some rest ↔ str = literal ++ rest := by
  unfold readLiteral
  constructor
  · intro h
    split at h
    · next htake =>
      obtain rfl := Option.some.inj h
      calc str = str.take literal.length ++ str.drop literal.length := (List.take_append_drop _ _).symm
        _ = literal ++ str.drop literal.length := by rw [htake]
    · cases h
  · rintro rfl
    rw [List.take_left, if_pos rfl, List.drop_left]

/-- The bytes up to the first `stop` are read, and the `stop`. -/
def readField (stop : UInt8) : Bytes → Option (Bytes × Bytes)
  | [] => none
  | b :: str =>
    if b = stop then some ([], str) else (readField stop str).map fun r => (b :: r.1, r.2)

theorem readField_eq_some_iff (stop : UInt8) (str field rest : Bytes) :
    readField stop str = some (field, rest) ↔ str = field ++ stop :: rest ∧ stop ∉ field := by
  induction str generalizing field with
  | nil =>
    refine iff_of_false nofun ?_
    rintro ⟨h, _⟩
    exact List.append_ne_nil_of_right_ne_nil _ (List.cons_ne_nil _ _) h.symm
  | cons b str ih =>
    unfold readField
    by_cases hb : b = stop
    · subst hb
      rw [if_pos rfl, Option.some.injEq, Prod.mk.injEq]
      constructor
      · rintro ⟨rfl, rfl⟩
        exact ⟨rfl, List.not_mem_nil⟩
      · rintro ⟨h, hnot⟩
        cases field with
        | nil => exact ⟨rfl, (List.cons.inj h).2⟩
        | cons b' field =>
          obtain ⟨rfl, _⟩ := List.cons.inj h
          exact absurd List.mem_cons_self hnot
    · rw [if_neg hb, Option.map_eq_some_iff]
      constructor
      · rintro ⟨⟨field', rest'⟩, hread, heq⟩
        obtain ⟨rfl, rfl⟩ := Prod.mk.inj heq
        obtain ⟨rfl, hnot⟩ := (ih field').mp hread
        refine ⟨rfl, ?_⟩
        intro hmem
        rcases List.mem_cons.mp hmem with rfl | hmem
        · exact hb rfl
        · exact hnot hmem
      · rintro ⟨h, hnot⟩
        cases field with
        | nil => exact absurd (List.cons.inj h).1 hb
        | cons b' field =>
          obtain ⟨rfl, rfl⟩ := List.cons.inj h
          exact ⟨(field, rest), (ih field).mpr ⟨rfl, fun h => hnot (List.mem_cons_of_mem _ h)⟩, rfl⟩

/-- A field that has to be in a language. -/
def readChecked (stop : UInt8) (check : Bytes → Bool) (str : Bytes) : Option (Bytes × Bytes) :=
  (readField stop str).filter fun r => check r.1

theorem readChecked_append {stop : UInt8} {check : Bytes → Bool} {field : Bytes} (hstop : stop ∉ field)
    (hcheck : check field = true) (rest : Bytes) :
    readChecked stop check (field ++ stop :: rest) = some (field, rest) := by
  unfold readChecked
  rw [(readField_eq_some_iff _ _ _ _).mpr ⟨rfl, hstop⟩, Option.filter_some, if_pos hcheck]

theorem of_readChecked {stop : UInt8} {check : Bytes → Bool} {str : Bytes} {r : Bytes × Bytes}
    (h : readChecked stop check str = some r) : str = r.1 ++ stop :: r.2 ∧ check r.1 = true := by
  obtain ⟨hread, hcheck⟩ := Option.filter_eq_some_iff.mp h
  exact ⟨((readField_eq_some_iff _ _ _ _).mp hread).1, hcheck⟩

/-! ## Addresses and ports -/

def isDigit (b : UInt8) : Bool := 48 ≤ b && b ≤ 57

/-- `HEXDIG` -/
def isHexdig (b : UInt8) : Bool := isDigit b || (65 ≤ b && b ≤ 70) || (97 ≤ b && b ≤ 102)

/-- The string has a byte of each range, in their order. -/
def inRanges (ranges : List (UInt8 × UInt8)) (str : Bytes) : Bool :=
  str.length == ranges.length && (str.zip ranges).all fun p => p.2.1 ≤ p.1 && p.1 ≤ p.2.2

/-- `dec_octet` -/
def isDecOctet (str : Bytes) : Bool :=
  inRanges [(48, 57)] str || inRanges [(49, 57), (48, 57)] str ||
    inRanges [(49, 49), (48, 57), (48, 57)] str || inRanges [(50, 50), (48, 52), (48, 57)] str ||
    inRanges [(50, 50), (53, 53), (48, 53)] str

/-- `IPv4address` -/
def isIPv4address (str : Bytes) : Bool :=
  (str.splitOn 46).length == 4 && (str.splitOn 46).all isDecOctet

/-- `h16` -/
def isH16 (str : Bytes) : Bool := 1 ≤ str.length && str.length ≤ 4 && str.all isHexdig

/-- `( h16 ":" )* h16`, or nothing. -/
def h16s (str : Bytes) : List Bytes := if str = [] then [] else str.splitOn 58

/-- The units of 16 bits that the string has, in the form of `h16` with `":"` between them; `ls32` at the
end may have the form of an `IPv4address`. -/
def ipv6Units (str : Bytes) : Option Nat :=
  if (h16s str).all isH16 then some (h16s str).length
  else if (h16s str).dropLast.all isH16 && ((h16s str).getLast?.any isIPv4address) then
    some ((h16s str).length + 1)
  else none

/-- The parts in front of and behind the first `"::"`. -/
def splitDoubleColon : Bytes → Option (Bytes × Bytes)
  | 58 :: 58 :: rest => some ([], rest)
  | b :: rest => (splitDoubleColon rest).map fun r => (b :: r.1, r.2)
  | [] => none

/-- `IPv6address`: eight units, or seven at most with a `"::"` in a place, in front of which there is no
`IPv4address`. -/
def isIPv6address (str : Bytes) : Bool :=
  match splitDoubleColon str with
  | none => ipv6Units str == some 8
  | some (left, right) =>
    (h16s left).all isH16 && (ipv6Units right).any fun units => (h16s left).length + units ≤ 7

/-- `IPv4address | IPv6address` -/
def isIpAddress (str : Bytes) : Bool := isIPv4address str || isIPv6address str

instance (digits : List Nat) : Decidable (IsPort digits) := inferInstanceAs (Decidable (_ ∨ _))

/-- `port` -/
def isPort (str : Bytes) : Bool :=
  str.all isDigit && decide (IsPort (str.map fun b => b.toNat - 48))

/-! ## The line -/

/-- A line "PROXY TCP4 192.168.0.1 192.168.0.11 56324 443\r\n". -/
structure ProxyLine where
  version : UInt8
  source : Bytes
  destination : Bytes
  sourcePort : Bytes
  destinationPort : Bytes
  version_tcp : version = 52 ∨ version = 54
  isIpAddress_source : isIpAddress source = true
  isIpAddress_destination : isIpAddress destination = true
  isPort_source : isPort sourcePort = true
  isPort_destination : isPort destinationPort = true

/-- What `parse_haproxy_protocol` returns. -/
structure HaproxyProtocol where
  /-- The number of bytes of the line. -/
  totalLen : Nat
  ipType : IpType
  ip : String
  port : Nat
deriving DecidableEq, Repr

/-- `rb_str_new` -/
def rubyString (bs : Bytes) : String := String.ofList (bs.map fun b => Char.ofNat b.toNat)

namespace ProxyLine

def text (line : ProxyLine) : Bytes :=
  ascii "PROXY TCP" ++ line.version :: 32 :: (line.source ++ 32 :: (line.destination ++
    32 :: (line.sourcePort ++ 32 :: (line.destinationPort ++ CRLF))))

/-- The client that the line announces. -/
def data (line : ProxyLine) : HaproxyProtocol where
  totalLen := line.text.length
  ipType := if isIPv4address line.source then .ipv4 else .ipv6
  ip := rubyString line.source
  port := (strToInt line.sourcePort line.sourcePort.length).toNat

end ProxyLine

/-- `"4" | "6"` -/
def isVersion (str : Bytes) : Bool := str == [52] || str == [54]

/-- `parse_haproxy_protocol` -/
def parseHaproxyProtocol (str : Bytes) : Option HaproxyProtocol := do
  let afterTcp ← readLiteral (ascii "PROXY TCP") str
  let (_, afterVersion) ← readChecked 32 isVersion afterTcp
  let (ip, afterIp) ← readChecked 32 isIpAddress afterVersion
  let (_, afterDestination) ← readChecked 32 isIpAddress afterIp
  let (port, afterPort) ← readChecked 32 isPort afterDestination
  let (_, afterPorts) ← readChecked 13 isPort afterPort
  let rest ← readLiteral [10] afterPorts
  some
    { totalLen := str.length - rest.length
      ipType := if isIPv4address ip then .ipv4 else .ipv6
      ip := rubyString ip
      port := (strToInt port port.length).toNat }

/-! ## No field contains what ends it -/

theorem ne_space_of_inRanges {ranges : List (UInt8 × UInt8)} {str : Bytes} (h : inRanges ranges str = true)
    (hranges : ∀ r ∈ ranges, 48 ≤ r.1) : ∀ b ∈ str, b ≠ 32 := by
  unfold inRanges at h
  rw [Bool.and_eq_true, beq_iff_eq] at h
  intro b hb
  obtain ⟨i, hi, rfl⟩ := List.mem_iff_getElem.mp hb
  have hlen : i < ranges.length := by
    rw [← h.1]
    exact hi
  have hmem : (str[i], ranges[i]) ∈ str.zip ranges := by
    apply List.mem_iff_getElem.mpr
    exact ⟨i, by rw [List.length_zip]; omega, List.getElem_zip⟩
  have hrange := List.all_eq_true.mp h.2 _ hmem
  rw [Bool.and_eq_true, decide_eq_true_eq, decide_eq_true_eq] at hrange
  have hlow : 48 ≤ str[i] := UInt8.le_trans (hranges _ (List.getElem_mem hlen)) hrange.1
  rintro heq
  rw [heq] at hlow
  exact absurd hlow (by decide)

theorem ne_space_of_isDecOctet {str : Bytes} (h : isDecOctet str = true) : ∀ b ∈ str, b ≠ 32 := by
  unfold isDecOctet at h
  rw [Bool.or_eq_true, Bool.or_eq_true, Bool.or_eq_true, Bool.or_eq_true] at h
  rcases h with (((h | h) | h) | h) | h
  · exact ne_space_of_inRanges h (by simp)
  · exact ne_space_of_inRanges h (by simp)
  · exact ne_space_of_inRanges h (by simp)
  · exact ne_space_of_inRanges h (by simp)
  · exact ne_space_of_inRanges h (by simp)

theorem isHexdig_space : isHexdig 32 = false := by decide

theorem ne_space_of_isH16 {str : Bytes} (h : isH16 str = true) : ∀ b ∈ str, b ≠ 32 := by
  unfold isH16 at h
  rw [Bool.and_eq_true] at h
  rintro b hb rfl
  have hhex := List.all_eq_true.mp h.2 _ hb
  rw [isHexdig_space] at hhex
  cases hhex

/-- What holds of the separator and of the bytes of each group holds of every byte. -/
theorem forall_mem_of_splitOn {p : UInt8 → Prop} {sep : UInt8} (hsep : p sep) {str : Bytes}
    (h : ∀ g ∈ str.splitOn sep, ∀ b ∈ g, p b) : ∀ b ∈ str, p b := by
  rw [List.splitOn_eq_splitOnP] at h
  induction str with
  | nil => exact fun b hb => absurd hb List.not_mem_nil
  | cons c str ih =>
    rw [List.splitOnP_cons_eq_if_modifyHead] at h
    by_cases hc : (c == sep) = true
    · rw [if_pos hc] at h
      obtain rfl := eq_of_beq hc
      exact List.forall_mem_cons.mpr ⟨hsep, ih fun g hg => h g (List.mem_cons_of_mem _ hg)⟩
    · rw [if_neg hc] at h
      cases hgs : str.splitOnP (· == sep) with
      | nil => exact absurd hgs (List.splitOnP_ne_nil _ _)
      | cons g gs =>
        rw [hgs] at h ih
        have hfirst := h (c :: g) List.mem_cons_self
        refine List.forall_mem_cons.mpr ⟨hfirst c List.mem_cons_self, ih ?_⟩
        intro g' hg' b hb
        rcases List.mem_cons.mp hg' with rfl | hg'
        · exact hfirst b (List.mem_cons_of_mem _ hb)
        · exact h g' (List.mem_cons_of_mem _ hg') b hb

theorem ne_space_of_isIPv4address {str : Bytes} (h : isIPv4address str = true) : ∀ b ∈ str, b ≠ 32 := by
  unfold isIPv4address at h
  rw [Bool.and_eq_true] at h
  have hgroups : ∀ g ∈ str.splitOn 46, ∀ b ∈ g, b ≠ 32 :=
    fun g hg => ne_space_of_isDecOctet (List.all_eq_true.mp h.2 g hg)
  exact forall_mem_of_splitOn (by decide) hgroups

theorem ne_space_of_h16s {str : Bytes} (h : ∀ g ∈ h16s str, ∀ b ∈ g, b ≠ 32) : ∀ b ∈ str, b ≠ 32 := by
  unfold h16s at h
  by_cases hnil : str = []
  · subst hnil
    exact fun b hb => absurd hb List.not_mem_nil
  · rw [if_neg hnil] at h
    exact forall_mem_of_splitOn (by decide) h

theorem ne_space_of_all_h16s {str : Bytes} (h : (h16s str).all isH16 = true) : ∀ b ∈ str, b ≠ 32 := by
  apply ne_space_of_h16s
  intro g hg
  exact ne_space_of_isH16 (List.all_eq_true.mp h g hg)

theorem ne_space_of_ipv6Units {str : Bytes} {units : Nat} (h : ipv6Units str = some units) :
    ∀ b ∈ str, b ≠ 32 := by
  unfold ipv6Units at h
  by_cases hall : (h16s str).all isH16 = true
  · exact ne_space_of_all_h16s hall
  · rw [if_neg hall] at h
    split at h
    · next hlast =>
      rw [Bool.and_eq_true] at hlast
      apply ne_space_of_h16s
      intro g hg
      -- the last group is an IPv4 address
      obtain ⟨last, hget, hipv4⟩ := (Option.any_eq_true _ _).mp hlast.2
      have hsplit := List.dropLast_append_getLast? last hget
      rw [← hsplit] at hg
      rcases List.mem_append.mp hg with hg | hg
      · exact ne_space_of_isH16 (List.all_eq_true.mp hlast.1 g hg)
      · obtain rfl := List.mem_singleton.mp hg
        exact ne_space_of_isIPv4address hipv4
    · cases h

theorem of_splitDoubleColon {str left right : Bytes} (h : splitDoubleColon str = some (left, right)) :
    str = left ++ 58 :: 58 :: right := by
  induction str using splitDoubleColon.induct generalizing left with
  | case1 rest =>
    obtain ⟨rfl, rfl⟩ := Prod.mk.inj (Option.some.inj h)
    rfl
  | case2 b rest hne ih =>
    rw [splitDoubleColon] at h
    · obtain ⟨⟨left', right'⟩, hrest, heq⟩ := Option.map_eq_some_iff.mp h
      obtain ⟨rfl, rfl⟩ := Prod.mk.inj heq
      rw [ih hrest]
      rfl
    · exact hne
  | case3 => cases h

theorem ne_space_of_isIpAddress {str : Bytes} (h : isIpAddress str = true) : 32 ∉ str := by
  have hall : ∀ b ∈ str, b ≠ 32 := by
    rcases Bool.or_eq_true_iff.mp h with h | h
    · exact ne_space_of_isIPv4address h
    · unfold isIPv6address at h
      split at h
      · exact ne_space_of_ipv6Units (eq_of_beq h)
      · next left right hsplit =>
        rw [Bool.and_eq_true] at h
        obtain ⟨units, hunits, _⟩ := (Option.any_eq_true _ _).mp h.2
        have hright : ∀ b ∈ 58 :: 58 :: right, b ≠ 32 := by
          rw [List.forall_mem_cons, List.forall_mem_cons]
          exact ⟨by decide, by decide, ne_space_of_ipv6Units hunits⟩
        rw [of_splitDoubleColon hsplit]
        intro b hb
        exact (List.mem_append.mp hb).elim (ne_space_of_all_h16s h.1 b) (hright b)
  exact fun hmem => hall 32 hmem rfl

theorem notMem_of_isPort {str : Bytes} (h : isPort str = true) {b : UInt8} (hb : isDigit b = false) :
    b ∉ str := by
  intro hmem
  rw [isPort, Bool.and_eq_true] at h
  exact absurd (List.all_eq_true.mp h.1 b hmem) (by rw [hb]; exact Bool.false_ne_true)

/-! ## The specification of the parser -/

theorem parseHaproxyProtocol_line (line : ProxyLine) (rest : Bytes) :
    parseHaproxyProtocol (line.text ++ rest) = some line.data := by
  have htext : line.text ++ rest = ascii "PROXY TCP" ++ ([line.version] ++ 32 :: (line.source ++
      32 :: (line.destination ++ 32 :: (line.sourcePort ++ 32 :: (line.destinationPort ++
        13 :: ([10] ++ rest)))))) := by
    unfold ProxyLine.text CRLF
    simp only [List.append_assoc, List.cons_append, List.nil_append]
  have hversion : (32 : UInt8) ∉ [line.version] ∧ isVersion [line.version] = true := by
    rcases line.version_tcp with h | h
    · rw [h]
      decide
    · rw [h]
      decide
  have htotal : (line.text ++ rest).length - rest.length = line.text.length := by
    rw [List.length_append, Nat.add_sub_cancel]
  have htcp := (readLiteral_eq_some_iff _ _ _).mpr htext
  have hend : readLiteral [10] ([10] ++ rest) = some rest := (readLiteral_eq_some_iff _ _ _).mpr rfl
  unfold parseHaproxyProtocol
  simp only [Option.bind_eq_bind, htcp, Option.bind_some,
    readChecked_append hversion.1 hversion.2,
    readChecked_append (ne_space_of_isIpAddress line.isIpAddress_source) line.isIpAddress_source,
    readChecked_append (ne_space_of_isIpAddress line.isIpAddress_destination) line.isIpAddress_destination,
    readChecked_append (notMem_of_isPort line.isPort_source (b := 32) (by decide)) line.isPort_source,
    readChecked_append (notMem_of_isPort line.isPort_destination (b := 13) (by decide))
      line.isPort_destination, hend, htotal]
  rfl

/-- Only a line is read. -/
theorem line_of_parseHaproxyProtocol {str : Bytes} {p : HaproxyProtocol}
    (h : parseHaproxyProtocol str = some p) : ∃ line : ProxyLine, ∃ rest, str = line.text ++ rest := by
  unfold parseHaproxyProtocol at h
  obtain ⟨afterTcp, htcp, h⟩ := Option.bind_eq_some_iff.mp h
  obtain ⟨⟨version, afterVersion⟩, hversion, h⟩ := Option.bind_eq_some_iff.mp h
  obtain ⟨⟨ip, afterIp⟩, hip, h⟩ := Option.bind_eq_some_iff.mp h
  obtain ⟨⟨destination, afterDestination⟩, hdestination, h⟩ := Option.bind_eq_some_iff.mp h
  obtain ⟨⟨port, afterPort⟩, hport, h⟩ := Option.bind_eq_some_iff.mp h
  obtain ⟨⟨destinationPort, afterPorts⟩, hports, h⟩ := Option.bind_eq_some_iff.mp h
  obtain ⟨rest, hrest, _⟩ := Option.bind_eq_some_iff.mp h
  obtain ⟨rfl, hisVersion⟩ := of_readChecked hversion
  obtain ⟨rfl, hisIp⟩ := of_readChecked hip
  obtain ⟨rfl, hisDestination⟩ := of_readChecked hdestination
  obtain ⟨rfl, hisPort⟩ := of_readChecked hport
  obtain ⟨rfl, hisDestinationPort⟩ := of_readChecked hports
  obtain rfl := (readLiteral_eq_some_iff _ _ _).mp hrest
  obtain rfl := (readLiteral_eq_some_iff _ _ _).mp htcp
  obtain ⟨v, rfl, hv⟩ : ∃ v : UInt8, version = [v] ∧ (v = 52 ∨ v = 54) := by
    rcases Bool.or_eq_true_iff.mp hisVersion with h | h
    · exact ⟨52, eq_of_beq h, Or.inl rfl⟩
    · exact ⟨54, eq_of_beq h, Or.inr rfl⟩
  refine ⟨⟨v, ip, destination, port, destinationPort, hv, hisIp, hisDestination, hisPort,
    hisDestinationPort⟩, rest, ?_⟩
  unfold ProxyLine.text CRLF
  simp only [List.append_assoc, List.cons_append, List.nil_append]

/-- In a part of a line nothing is read: another line would end before this one does. -/
theorem parseHaproxyProtocol_part {line : ProxyLine} {first missing : Bytes}
    (h : line.text = first ++ missing) (hmissing : missing ≠ []) : parseHaproxyProtocol first = none := by
  rw [Option.eq_none_iff_forall_ne_some]
  intro p hp
  obtain ⟨other, rest, rfl⟩ := line_of_parseHaproxyProtocol hp
  have hline := parseHaproxyProtocol_line line []
  have hother := parseHaproxyProtocol_line other (rest ++ missing)
  rw [← List.append_assoc, ← h] at hother
  rw [List.append_nil, hother] at hline
  have hlength : other.text.length = line.text.length :=
    congrArg HaproxyProtocol.totalLen (Option.some.inj hline)
  rw [h, List.length_append, List.length_append] at hlength
  have hpos := List.length_pos_of_ne_nil hmissing
  omega

example : parseHaproxyProtocol (ascii "PROXY TCP4 192.168.0.1 192.168.0.11 56324 443" ++ CRLF ++ [65]) =
    some ⟨47, .ipv4, "192.168.0.1", 56324⟩ := by decide

example : parseHaproxyProtocol (ascii "PROXY TCP6 ::ffff:1.2.3.4 1:2:3:4:5:6:7:8 56324 44") = none := by
  decide

example : (parseHaproxyProtocol (ascii "PROXY TCP6 ::ffff:1.2.3.4 1:2:3:4:5:6:7:8 56324 44" ++ CRLF)).isSome := by
  decide

/-! ## A line in chunks -/

/-- The first chunk holds the line. -/
def HoldsLine (line : ProxyLine) (cs : List Bytes) : Prop :=
  ∃ first ∈ cs.head?, line.text.length ≤ first.length

theorem line_text_ne_nil (line : ProxyLine) : line.text ≠ [] :=
  List.append_ne_nil_of_right_ne_nil _ (List.cons_ne_nil _ _)

/-- How a cutting divides the line. -/
theorem cutting_cases {line : ProxyLine} {cs : List Bytes} {rest : Bytes} (hstream : cs.flatten = line.text ++ rest) :
    ∃ first more, cs = first :: more ∧
      ((HoldsLine line cs ∧ ∃ behind, first = line.text ++ behind ∧ rest = behind ++ more.flatten) ∨
        (¬ HoldsLine line cs ∧ ∃ missing, missing ≠ [] ∧ line.text = first ++ missing)) := by
  cases cs with
  | nil =>
    have hnil : line.text ++ rest = [] := hstream.symm
    exact absurd (List.append_eq_nil_iff.mp hnil).1 (line_text_ne_nil line)
  | cons first more =>
    refine ⟨first, more, rfl, ?_⟩
    have hholds : HoldsLine line (first :: more) ↔ line.text.length ≤ first.length := by
      constructor
      · rintro ⟨d, hd, hle⟩
        obtain rfl := Option.some.inj hd
        exact hle
      · exact fun hle => ⟨first, rfl, hle⟩
    rw [hholds]
    rw [List.flatten_cons] at hstream
    rcases List.append_eq_append_iff.mp hstream with ⟨missing, hline, _⟩ | ⟨behind, hfirst, hrest⟩
    · by_cases hmissing : missing = []
      · subst hmissing
        rw [List.append_nil] at hline
        have hrest : rest = [] ++ more.flatten := by
          rw [hline] at hstream
          exact (List.append_cancel_left hstream).symm
        refine Or.inl ⟨Nat.le_of_eq (congrArg List.length hline), [], ?_, hrest⟩
        rw [List.append_nil, hline]
      · refine Or.inr ⟨?_, missing, hmissing, hline⟩
        have hlength := congrArg List.length hline
        rw [List.length_append] at hlength
        have hpos := List.length_pos_of_ne_nil hmissing
        omega
    · refine Or.inl ⟨?_, behind, hfirst, hrest⟩
      rw [hfirst, List.length_append]
      exact Nat.le_add_right _ _

end OverSip
