import OverSip.Lib.Regex
import OverSip.Sip.ReceivedMessage

/-!
# Types of IP addresses

The grammar of an address (`grammar_ip.rl`), the machine that reads one (`ip_utils.rl`) and the methods of
`Utils` that ask it (`utils_ruby.c`). The actions `is_ipv4`, `is_ipv6` and `is_ipv6_reference` are taken
whenever a word of the grammar has been read, and at the end the function looks only at whether all bytes were
read. A string that goes on behind an address and breaks off in the middle of a longer one gets the type of
the shorter one.
-/

namespace OverSip

open Regex

/-! ## The grammar -/

namespace GrammarIp

/-- These bytes, one behind the other. -/
def lit (text : String) : Regex UInt8 := seq ((ascii text).map fun b => cls [(b, b)])

/-- `DIGIT` -/
def digit : Regex UInt8 := cls [(48, 57)]

/-- `HEXDIG` -/
def hexdig : Regex UInt8 := cls [(48, 57), (65, 70), (97, 102)]

def decOctet : Regex UInt8 :=
  oneOf
    [digit, seq [cls [(49, 57)], digit], seq [lit "1", times 2 digit], seq [lit "2", cls [(48, 52)], digit],
      seq [lit "25", cls [(48, 53)]]]

def ipv4address : Regex UInt8 := seq [decOctet, lit ".", decOctet, lit ".", decOctet, lit ".", decOctet]

/-- `HEXDIG{1,4}` -/
def h16 : Regex UInt8 := cat hexdig (upTo 3 hexdig)

def ls32 : Regex UInt8 := oneOf [seq [h16, lit ":", h16], ipv4address]

/-- `h16 ":"` -/
def h16Colon : Regex UInt8 := seq [h16, lit ":"]

/-- `( ( h16 ":" ){,n} h16 )?` -/
def front (n : ℕ) : Regex UInt8 := opt (seq [upTo n h16Colon, h16])

def ipv6address : Regex UInt8 :=
  oneOf
    [seq [times 6 h16Colon, ls32],
      seq [lit "::", times 5 h16Colon, ls32],
      seq [opt h16, lit "::", times 4 h16Colon, ls32],
      seq [front 1, lit "::", times 3 h16Colon, ls32],
      seq [front 2, lit "::", times 2 h16Colon, ls32],
      seq [front 3, lit "::", h16Colon, ls32],
      seq [front 4, lit "::", ls32],
      seq [front 5, lit "::", h16],
      seq [front 6, lit "::"]]

def ipv6reference : Regex UInt8 := seq [lit "[", ipv6address, lit "]"]

end GrammarIp

/-! ## The machine -/

/-- `enum_ip_type`, without `ip_type_error`. -/
inductive HostIpType
  | ipv4 | ipv6 | ipv6Reference
deriving DecidableEq, Repr

namespace HostIpType

def grammar : HostIpType → Regex UInt8
  | ipv4 => GrammarIp.ipv4address
  | ipv6 => GrammarIp.ipv6address
  | ipv6Reference => GrammarIp.ipv6reference

/-- `main` -/
def all : List (HostIpType × Regex UInt8) := [ipv4, ipv6, ipv6Reference].map fun k => (k, k.grammar)

theorem mem_all (k : HostIpType) : (k, k.grammar) ∈ all := by
  cases k <;> decide

theorem eq_of_mem_all {p : HostIpType × Regex UInt8} (h : p ∈ all) : p.2 = p.1.grammar := by
  obtain ⟨k, _, rfl⟩ := List.mem_map.mp h
  rfl

end HostIpType

/-- `utils_ip_parser_execute`; `none` is `ip_type_error`. -/
def utilsIpParserExecute (str : Bytes) : Option HostIpType := (scan HostIpType.all none str).join

/-- `Utils.ip?` -/
def isIp (str : Bytes) : Bool := (utilsIpParserExecute str).isSome

/-- `Utils.pure_ip?` -/
def isPureIp (str : Bytes) : Bool :=
  match utilsIpParserExecute str with
  | some .ipv4 => true
  | some .ipv6 => true
  | _ => false

/-- `Utils.ip_type`; `none` is `false`. -/
def ipTypeOf (str : Bytes) : Option HostIpType := utilsIpParserExecute str

/-- An IPv6 reference as the address in it. -/
def pureIp (str : Bytes) : HostIpType → Bytes × HostIpType
  | .ipv6Reference => ((str.drop 1).dropLast, .ipv6)
  | k => (str, k)

/-- `Utils.compare_ips`, with `utils_compare_pure_ips` given; `none` is `nil`. -/
def compareIps (comparePureIps : Bytes × HostIpType → Bytes × HostIpType → Bool) (str1 str2 : Bytes) :
    Option Bool :=
  (utilsIpParserExecute str1).bind fun k1 =>
  (utilsIpParserExecute str2).map fun k2 => comparePureIps (pureIp str1 k1) (pureIp str2 k2)

/-! ## What the type says -/

theorem nil_notMem_grammar (k : HostIpType) : [] ∉ lang k.grammar := by
  intro h
  have hnull := (nullable_iff _).mpr h
  cases k <;> exact absurd hnull (by decide)

theorem colon_mem_of_ipv6 {str : Bytes} (h : str ∈ lang HostIpType.ipv6.grammar) : 58 ∈ str :=
  mem_of_needs (by decide) h

theorem colon_notMem_of_ipv4 {str : Bytes} (h : str ∈ lang HostIpType.ipv4.grammar) : 58 ∉ str :=
  notMem_of_avoids (by decide) h

theorem bracket_mem_of_reference {str : Bytes} (h : str ∈ lang HostIpType.ipv6Reference.grammar) : 91 ∈ str :=
  mem_of_needs (by decide) h

theorem bracket_notMem_of_ipv4 {str : Bytes} (h : str ∈ lang HostIpType.ipv4.grammar) : 91 ∉ str :=
  notMem_of_avoids (by decide) h

theorem bracket_notMem_of_ipv6 {str : Bytes} (h : str ∈ lang HostIpType.ipv6.grammar) : 91 ∉ str :=
  notMem_of_avoids (by decide) h

/-- No string is of two types. -/
theorem HostIpType.eq_of_mem {str : Bytes} {k k' : HostIpType} (h : str ∈ lang k.grammar)
    (h' : str ∈ lang k'.grammar) : k = k' := by
  cases k with
  | ipv4 =>
    cases k' with
    | ipv4 => rfl
    | ipv6 => exact absurd (colon_mem_of_ipv6 h') (colon_notMem_of_ipv4 h)
    | ipv6Reference => exact absurd (bracket_mem_of_reference h') (bracket_notMem_of_ipv4 h)
  | ipv6 =>
    cases k' with
    | ipv4 => exact absurd (colon_mem_of_ipv6 h) (colon_notMem_of_ipv4 h')
    | ipv6 => rfl
    | ipv6Reference => exact absurd (bracket_mem_of_reference h') (bracket_notMem_of_ipv6 h)
  | ipv6Reference =>
    cases k' with
    | ipv4 => exact absurd (bracket_mem_of_reference h) (bracket_notMem_of_ipv4 h')
    | ipv6 => exact absurd (bracket_mem_of_reference h) (bracket_notMem_of_ipv6 h')
    | ipv6Reference => rfl

/-- An address gets its type. -/
theorem utilsIpParserExecute_of_mem {str : Bytes} {k : HostIpType} (h : str ∈ lang k.grammar) :
    utilsIpParserExecute str = some k := by
  have hne : str ≠ [] := by
    rintro rfl
    exact nil_notMem_grammar k h
  obtain ⟨k', hscan, p, hp, rfl, hmem⟩ := scan_of_mem (HostIpType.mem_all k) hne h none
  rw [HostIpType.eq_of_mem_all hp] at hmem
  unfold utilsIpParserExecute
  rw [hscan, HostIpType.eq_of_mem h hmem]
  rfl

/-- The string goes on behind an address and breaks off in the middle of a longer one. -/
structure BrokenOff (str : Bytes) : Prop where
  notAddress : ∀ k : HostIpType, str ∉ lang k.grammar
  behindAddress : ∃ u v, str = u ++ v ∧ ∃ k : HostIpType, u ∈ lang k.grammar
  goesOn : ∃ v, ∃ k : HostIpType, str ++ v ∈ lang k.grammar

/-- A string that is no address gets a type when it is broken off. -/
theorem utilsIpParserExecute_isSome_iff {str : Bytes} (h : ∀ k : HostIpType, str ∉ lang k.grammar) :
    (utilsIpParserExecute str).isSome = true ↔ BrokenOff str := by
  unfold utilsIpParserExecute
  constructor
  · intro hsome
    cases hscan : scan HostIpType.all none str with
    | none =>
      rw [hscan] at hsome
      cases hsome
    | some x =>
      rw [hscan] at hsome
      obtain ⟨u, v, huv, hne, p, hp, hu⟩ := (scan_noted_iff _ hscan).mp hsome
      rw [HostIpType.eq_of_mem_all hp] at hu
      refine ⟨h, ⟨u, v, huv, p.1, hu⟩, ?_⟩
      have hstr : str ≠ [] := by
        rw [huv]
        exact List.append_ne_nil_of_left_ne_nil hne v
      have hread : (scan HostIpType.all none str).isSome = true := by
        rw [hscan]
        rfl
      obtain ⟨q, hq, w, hw⟩ := ((scan_isSome_iff _ _ _).mp hread).resolve_left hstr
      rw [HostIpType.eq_of_mem_all hq] at hw
      exact ⟨w, q.1, hw⟩
  · rintro ⟨_, ⟨u, v, huv, k, hu⟩, w, k', hw⟩
    have hne : u ≠ [] := by
      rintro rfl
      exact nil_notMem_grammar k hu
    have hviable : Viable HostIpType.all str := ⟨_, HostIpType.mem_all k', w, hw⟩
    obtain ⟨x, hx⟩ := Option.isSome_iff_exists.mp ((scan_isSome_iff _ none _).mpr (.inr hviable))
    rw [hx]
    exact (scan_noted_iff _ hx).mpr ⟨u, v, huv, hne, _, HostIpType.mem_all k, hu⟩

/-- The methods take a string for what it is by the grammar. -/
structure TypedByGrammar (str : Bytes) : Prop where
  type : ∀ k : HostIpType, ipTypeOf str = some k ↔ str ∈ lang k.grammar
  error : ipTypeOf str = none ↔ ∀ k : HostIpType, str ∉ lang k.grammar
  isIp : isIp str = true ↔ ∃ k : HostIpType, str ∈ lang k.grammar
  isPureIp : isPureIp str = true ↔
    str ∈ lang HostIpType.ipv4.grammar ∨ str ∈ lang HostIpType.ipv6.grammar
  compareIps : ∀ (eq : Bytes × HostIpType → Bytes × HostIpType → Bool) (other : Bytes),
    compareIps eq str other = none ↔ (∀ k : HostIpType, str ∉ lang k.grammar) ∨ ipTypeOf other = none

theorem isPureIp_iff (str : Bytes) :
    isPureIp str = true ↔ ipTypeOf str = some .ipv4 ∨ ipTypeOf str = some .ipv6 := by
  unfold isPureIp ipTypeOf
  cases utilsIpParserExecute str with
  | none => decide
  | some k => cases k <;> decide

theorem compareIps_eq_none_iff (eq : Bytes × HostIpType → Bytes × HostIpType → Bool) (str other : Bytes) :
    compareIps eq str other = none ↔ ipTypeOf str = none ∨ ipTypeOf other = none := by
  unfold compareIps ipTypeOf
  cases utilsIpParserExecute str with
  | none => exact iff_of_true rfl (.inl rfl)
  | some k =>
    show (utilsIpParserExecute other).map _ = none ↔ _
    rw [Option.map_eq_none_iff]
    exact ⟨.inr, fun h => h.resolve_left (Option.some_ne_none k)⟩

/-- The type is the one of the grammar, except for a string that is broken off. -/
theorem ipType_exact_iff (str : Bytes) : TypedByGrammar str ↔ ¬BrokenOff str := by
  constructor
  · intro h hbroken
    have hsome := (utilsIpParserExecute_isSome_iff hbroken.notAddress).mpr hbroken
    have hnone : utilsIpParserExecute str = none := h.error.mpr hbroken.notAddress
    rw [hnone] at hsome
    cases hsome
  · intro h
    have htype : ∀ k : HostIpType, ipTypeOf str = some k ↔ str ∈ lang k.grammar := by
      intro k
      constructor
      · intro hk
        by_contra hnot
        apply h
        have hnone : ∀ k' : HostIpType, str ∉ lang k'.grammar := by
          intro k' hk'
          have heq := (utilsIpParserExecute_of_mem hk').symm.trans hk
          obtain rfl := Option.some.inj heq
          exact hnot hk'
        apply (utilsIpParserExecute_isSome_iff hnone).mp
        exact Option.isSome_iff_exists.mpr ⟨k, hk⟩
      · exact utilsIpParserExecute_of_mem
    have herror : ipTypeOf str = none ↔ ∀ k : HostIpType, str ∉ lang k.grammar := by
      rw [Option.eq_none_iff_forall_ne_some]
      exact forall_congr' fun k => not_congr (htype k)
    refine ⟨htype, herror, ?_, ?_, ?_⟩
    · show (ipTypeOf str).isSome = true ↔ _
      rw [Option.isSome_iff_exists]
      exact exists_congr htype
    · rw [isPureIp_iff, htype, htype]
    · intro eq other
      rw [compareIps_eq_none_iff, herror]

/-- "::1:" -/
theorem ipType_broken_off : ¬TypedByGrammar (ascii "::1:") := by
  intro h
  have htype : ipTypeOf (ascii "::1:") = some .ipv6 := by decide
  have hmem := (h.type .ipv6).mp htype
  exact absurd hmem (by decide)

end OverSip
