import OverSip.Lib.Cutting
import OverSip.Utils.HaproxyProtocol
import OverSip.Utils.IpUtils

/-!
# Addresses and ports, part by part

The texts that `grammar_ip.rl` takes for an octet, an address or a port are those in which each part between the
dots or colons is in order. An IPv6 address has eight units of 16 bits, or fewer with a "::" in a place.
-/

namespace OverSip

open Regex GrammarIp

/-! ## Ports -/

namespace GrammarIp

/-- `DIGIT{1,4} - ( "0" | "00" | "000" | "0000" )`: zeroes, and from the first other digit on any digits. -/
def nonzero : Regex UInt8 :=
  oneOf
    [seq [cls [(49, 57)], upTo 3 digit], seq [lit "0", cls [(49, 57)], upTo 2 digit],
      seq [lit "00", cls [(49, 57)], upTo 1 digit], seq [lit "000", cls [(49, 57)]]]

def port : Regex UInt8 :=
  oneOf
    [nonzero, seq [cls [(49, 53)], times 4 digit], seq [lit "6", cls [(48, 52)], times 3 digit],
      seq [lit "65", cls [(48, 52)], times 2 digit], seq [lit "655", cls [(48, 50)], digit],
      seq [lit "6553", cls [(48, 53)]]]

end GrammarIp

/-- The cases are the lengths. -/
theorem isPort_iff (str : Bytes) : isPort str = true ↔ str ∈ lang port := by
  rcases str with _ | ⟨a, _ | ⟨b, _ | ⟨c, _ | ⟨d, _ | ⟨e, _ | ⟨f, str⟩⟩⟩⟩⟩⟩ <;>
    simp [port, nonzero, oneOf, seq, digit, lit, ascii, times, upTo, opt, mem_alt_iff, cons_mem_cls_cat_iff,
      nil_notMem_cls_cat, cons_mem_cls_iff, nil_notMem_cls, mem_eps_iff, mem_cat_assoc_iff, Regex.inRanges,
      isPort, IsPort, isDigit, Numerals.value, UInt8.le_iff_toNat_le] <;>
    omega

/-! ## IPv4 addresses -/

theorem isDecOctet_iff (str : Bytes) : isDecOctet str = true ↔ str ∈ lang decOctet := by
  rcases str with _ | ⟨a, _ | ⟨b, _ | ⟨c, _ | ⟨d, str⟩⟩⟩⟩ <;>
    simp [isDecOctet, OverSip.inRanges, decOctet, oneOf, seq, digit, lit, ascii, times, mem_alt_iff,
      cons_mem_cls_cat_iff, nil_notMem_cls_cat, cons_mem_cls_iff, nil_notMem_cls, mem_eps_iff, Regex.inRanges,
      mem_cat_assoc_iff, or_assoc]

theorem isH16_iff (str : Bytes) : isH16 str = true ↔ str ∈ lang h16 := by
  rcases str with _ | ⟨a, _ | ⟨b, _ | ⟨c, _ | ⟨d, _ | ⟨e, str⟩⟩⟩⟩⟩ <;>
    simp [isH16, isHexdig, isDigit, h16, hexdig, upTo, opt, mem_alt_iff, cons_mem_cls_cat_iff, nil_notMem_cls_cat,
      mem_eps_iff, Regex.inRanges, or_assoc]

theorem mem_lit_iff (text : String) (w : Bytes) : w ∈ lang (lit text) ↔ w = ascii text := by
  unfold lit
  generalize ascii text = bs
  induction bs generalizing w with
  | nil => exact mem_eps_iff w
  | cons b bs ih =>
    cases bs with
    | nil => exact mem_cls_singleton_iff b w
    | cons c bs =>
      show w ∈ lang (cat (cls [(b, b)]) (seq ((c :: bs).map fun b => cls [(b, b)]))) ↔ w = b :: c :: bs
      rw [mem_cat_iff]
      constructor
      · rintro ⟨u, hu, v, hv, rfl⟩
        rw [(mem_cls_singleton_iff b u).mp hu, (ih v).mp hv]
        rfl
      · rintro rfl
        exact ⟨[b], (mem_cls_singleton_iff b [b]).mpr rfl, c :: bs, (ih _).mpr rfl, rfl⟩

theorem lit_dot : lit "." = cls [(46, 46)] := by decide

theorem lit_colon : lit ":" = cls [(58, 58)] := by decide

theorem lit_colons : lit "::" = cat (cls [(58, 58)]) (cls [(58, 58)]) := by decide

/-- A word, a letter and another word. -/
theorem mem_cat_letter_iff (r s : Regex UInt8) (c : UInt8) (str : Bytes) :
    str ∈ lang (cat r (cat (cls [(c, c)]) s)) ↔ ∃ u v, u ∈ lang r ∧ v ∈ lang s ∧ str = u ++ c :: v := by
  rw [mem_cat_iff]
  constructor
  · rintro ⟨u, hu, v, hv, rfl⟩
    obtain ⟨w, hw, v', hv', rfl⟩ := (mem_cat_iff _ _ _).mp hv
    rw [mem_cls_singleton_iff] at hw
    subst hw
    exact ⟨u, v', hu, hv', rfl⟩
  · rintro ⟨u, v, hu, hv, rfl⟩
    refine ⟨u, hu, c :: v, (mem_cat_iff _ _ _).mpr ⟨[c], ?_, v, hv, rfl⟩, rfl⟩
    exact (mem_cls_singleton_iff c [c]).mpr rfl

theorem mem_ipv4address_iff (str : Bytes) : str ∈ lang ipv4address ↔
    ∃ a b c d, str = a ++ [b, c, d].flatMap (46 :: ·) ∧ ∀ octet ∈ [a, b, c, d], octet ∈ lang decOctet := by
  have htext : ∀ a b c d : Bytes, a ++ 46 :: (b ++ 46 :: (c ++ 46 :: d)) = a ++ [b, c, d].flatMap (46 :: ·) := by
    intro a b c d
    simp only [List.flatMap_cons, List.flatMap_nil, List.append_nil, List.cons_append]
  unfold ipv4address seq seq seq seq seq seq seq
  rw [lit_dot, mem_cat_letter_iff]
  constructor
  · rintro ⟨a, u, ha, hu, rfl⟩
    obtain ⟨b, v, hb, hv, rfl⟩ := (mem_cat_letter_iff _ _ _ _).mp hu
    obtain ⟨c, d, hc, hd, rfl⟩ := (mem_cat_letter_iff _ _ _ _).mp hv
    refine ⟨a, b, c, d, htext a b c d, ?_⟩
    simp only [List.forall_mem_cons]
    exact ⟨ha, hb, hc, hd, List.forall_mem_nil _⟩
  · rintro ⟨a, b, c, d, rfl, hall⟩
    simp only [List.forall_mem_cons] at hall
    obtain ⟨ha, hb, hc, hd, -⟩ := hall
    refine ⟨a, _, ha, (mem_cat_letter_iff _ _ _ _).mpr ⟨b, _, hb, ?_, rfl⟩, (htext a b c d).symm⟩
    exact (mem_cat_letter_iff _ _ _ _).mpr ⟨c, d, hc, hd, rfl⟩

theorem isIPv4address_iff (str : Bytes) : isIPv4address str = true ↔ str ∈ lang ipv4address := by
  unfold isIPv4address
  rw [mem_ipv4address_iff, Bool.and_eq_true, beq_iff_eq, List.all_eq_true]
  constructor
  · rintro ⟨hlen, hall⟩
    match hsplit : str.splitOn 46, hlen, hall with
    | [a, b, c, d], _, hall =>
      refine ⟨a, b, c, d, (of_splitOn_eq hsplit).1, ?_⟩
      intro octet hoctet
      exact (isDecOctet_iff octet).mp (hall octet hoctet)
  · rintro ⟨a, b, c, d, rfl, hall⟩
    have hdot : ∀ octet ∈ [a, b, c, d], (46 : UInt8) ∉ octet :=
      fun octet hoctet => notMem_of_avoids (by decide) (hall octet hoctet)
    rw [List.forall_mem_cons] at hdot
    rw [splitOn_append_flatMap hdot.1 hdot.2]
    exact ⟨rfl, fun octet hoctet => (isDecOctet_iff octet).mpr (hall octet hoctet)⟩

/-! ## Units of an IPv6 address -/

theorem colon_notMem_of_isH16 {g : Bytes} (h : isH16 g = true) : 58 ∉ g :=
  notMem_of_avoids (by decide) ((isH16_iff g).mp h)

theorem ne_nil_of_isH16 {g : Bytes} (h : isH16 g = true) : g ≠ [] := by
  rintro rfl
  cases h

/-- Parts, each with a colon behind it. -/
def colonParts (gs : List Bytes) : Bytes := gs.flatMap fun g => g ++ [58]

theorem splitOn_colonParts {gs : List Bytes} (h : ∀ g ∈ gs, isH16 g = true) (v : Bytes) :
    (colonParts gs ++ v).splitOn 58 = gs ++ v.splitOn 58 := by
  induction gs with
  | nil => rfl
  | cons g gs ih =>
    rw [List.forall_mem_cons] at h
    have htext : colonParts (g :: gs) ++ v = g ++ 58 :: (colonParts gs ++ v) := by
      unfold colonParts
      rw [List.flatMap_cons, List.append_assoc, List.append_assoc]
      rfl
    rw [htext, List.splitOn_append_cons_self_of_not_mem (colon_notMem_of_isH16 h.1), ih h.2]
    rfl

/-- A text is known by its parts. -/
theorem eq_of_splitOn_eq {u v : Bytes} (h : u.splitOn 58 = v.splitOn 58) : u = v := by
  cases hu : u.splitOn 58 with
  | nil => exact absurd hu (List.splitOn_ne_nil 58 u)
  | cons head parts =>
    rw [(of_splitOn_eq hu).1, (of_splitOn_eq (h.symm.trans hu)).1]

theorem eq_colonParts {w v : Bytes} {gs : List Bytes} (hgs : ∀ g ∈ gs, isH16 g = true) (hv : 58 ∉ v)
    (h : w.splitOn 58 = gs ++ [v]) : w = colonParts gs ++ v := by
  apply eq_of_splitOn_eq
  rw [splitOn_colonParts hgs, List.splitOn_eq_singleton hv, h]

theorem flatten_eq_colonParts {ws : List Bytes} (h : ∀ w ∈ ws, w ∈ lang h16Colon) :
    ∃ gs : List Bytes, gs.length = ws.length ∧ (∀ g ∈ gs, isH16 g = true) ∧ ws.flatten = colonParts gs := by
  induction ws with
  | nil => exact ⟨[], rfl, List.forall_mem_nil _, rfl⟩
  | cons w ws ih =>
    rw [List.forall_mem_cons] at h
    obtain ⟨gs, hlen, hgs, htext⟩ := ih h.2
    obtain ⟨g, hg, c, hc, rfl⟩ := (mem_cat_iff _ _ _).mp h.1
    have hcolon : c ∈ lang (lit ":") := hc
    rw [lit_colon, mem_cls_singleton_iff] at hcolon
    subst hcolon
    refine ⟨g :: gs, congrArg (· + 1) hlen, List.forall_mem_cons.mpr ⟨(isH16_iff g).mpr hg, hgs⟩, ?_⟩
    rw [List.flatten_cons, htext]
    rfl

theorem colonParts_eq_flatten {gs : List Bytes} (h : ∀ g ∈ gs, isH16 g = true) :
    ∃ ws : List Bytes, ws.length = gs.length ∧ (∀ w ∈ ws, w ∈ lang h16Colon) ∧ colonParts gs = ws.flatten := by
  refine ⟨gs.map fun g => g ++ [58], List.length_map _, ?_, List.flatMap_def⟩
  intro w hw
  obtain ⟨g, hg, rfl⟩ := List.mem_map.mp hw
  refine (mem_cat_iff _ _ _).mpr ⟨g, (isH16_iff g).mp (h g hg), [58], ?_, rfl⟩
  show [58] ∈ lang (lit ":")
  rw [lit_colon, mem_cls_singleton_iff]

theorem mem_times_cat_iff (n : ℕ) (s : Regex UInt8) (w : Bytes) :
    w ∈ lang (cat (times n h16Colon) s) ↔
      ∃ gs : List Bytes, gs.length = n ∧ (∀ g ∈ gs, isH16 g = true) ∧ ∃ v ∈ lang s, colonParts gs ++ v = w := by
  rw [mem_cat_iff]
  constructor
  · rintro ⟨u, hu, v, hv, rfl⟩
    obtain ⟨ws, rfl, hws, rfl⟩ := (mem_times_iff _ _ _).mp hu
    obtain ⟨gs, hlen, hgs, htext⟩ := flatten_eq_colonParts hws
    exact ⟨gs, hlen, hgs, v, hv, by rw [htext]⟩
  · rintro ⟨gs, rfl, hgs, v, hv, rfl⟩
    obtain ⟨ws, hlen, hws, htext⟩ := colonParts_eq_flatten hgs
    exact ⟨_, (mem_times_iff _ _ _).mpr ⟨ws, hlen, hws, htext⟩, v, hv, rfl⟩

theorem mem_upTo_cat_iff (n : ℕ) (s : Regex UInt8) (w : Bytes) :
    w ∈ lang (cat (upTo n h16Colon) s) ↔
      ∃ gs : List Bytes, gs.length ≤ n ∧ (∀ g ∈ gs, isH16 g = true) ∧ ∃ v ∈ lang s, colonParts gs ++ v = w := by
  rw [mem_cat_iff]
  constructor
  · rintro ⟨u, hu, v, hv, rfl⟩
    obtain ⟨ws, hle, hws, rfl⟩ := (mem_upTo_iff _ _ _).mp hu
    obtain ⟨gs, hlen, hgs, htext⟩ := flatten_eq_colonParts hws
    exact ⟨gs, hlen ▸ hle, hgs, v, hv, by rw [htext]⟩
  · rintro ⟨gs, hle, hgs, v, hv, rfl⟩
    obtain ⟨ws, hlen, hws, htext⟩ := colonParts_eq_flatten hgs
    exact ⟨_, (mem_upTo_iff _ _ _).mpr ⟨ws, hlen ▸ hle, hws, htext⟩, v, hv, rfl⟩

theorem h16s_of_ne_nil {w : Bytes} (h : w ≠ []) : h16s w = w.splitOn 58 := if_neg h

theorem h16s_eq_nil_iff (w : Bytes) : h16s w = [] ↔ w = [] := by
  unfold h16s
  split
  · next h => exact iff_of_true rfl h
  · next h => exact iff_of_false (List.splitOn_ne_nil 58 w) h

/-- What may stand in front of a "::". -/
theorem mem_front_iff (n : ℕ) (w : Bytes) :
    w ∈ lang (front n) ↔ (h16s w).all isH16 = true ∧ (h16s w).length ≤ n + 1 := by
  unfold front
  rw [mem_opt_iff]
  show w = [] ∨ w ∈ lang (cat (upTo n h16Colon) h16) ↔ _
  rw [mem_upTo_cat_iff]
  by_cases hnil : w = []
  · subst hnil
    exact iff_of_true (.inl rfl) ⟨rfl, Nat.zero_le _⟩
  · rw [h16s_of_ne_nil hnil, List.all_eq_true]
    constructor
    · rintro (h | ⟨gs, hle, hgs, g, hg, rfl⟩)
      · exact absurd h hnil
      · have hg' := (isH16_iff g).mpr hg
        rw [splitOn_colonParts hgs, List.splitOn_eq_singleton (colon_notMem_of_isH16 hg'), List.length_append,
          List.forall_mem_append, List.forall_mem_singleton]
        exact ⟨⟨hgs, hg'⟩, Nat.succ_le_succ hle⟩
    · rintro ⟨hall, hle⟩
      right
      have hsplit := (List.dropLast_append_getLast (List.splitOn_ne_nil 58 w)).symm
      rw [hsplit, List.forall_mem_append, List.forall_mem_singleton] at hall
      rw [hsplit, List.length_append, List.length_singleton] at hle
      refine ⟨_, Nat.le_of_succ_le_succ hle, hall.1, _, (isH16_iff _).mp hall.2, ?_⟩
      exact (eq_colonParts hall.1 (colon_notMem_of_isH16 hall.2) hsplit).symm

theorem mem_ls32_iff (v : Bytes) :
    v ∈ lang ls32 ↔ (∃ a b, isH16 a = true ∧ isH16 b = true ∧ v = a ++ 58 :: b) ∨ isIPv4address v = true := by
  show v ∈ lang (alt (cat h16 (cat (lit ":") h16)) ipv4address) ↔ _
  rw [mem_alt_iff, lit_colon, mem_cat_letter_iff, isIPv4address_iff]
  simp only [isH16_iff]

theorem colon_notMem_of_isIPv4address {v : Bytes} (h : isIPv4address v = true) : 58 ∉ v :=
  notMem_of_avoids (by decide) ((isIPv4address_iff v).mp h)

theorem not_isH16_of_isIPv4address {v : Bytes} (h : isIPv4address v = true) : isH16 v = false := by
  have hdot : 46 ∈ v := mem_of_needs (by decide) ((isIPv4address_iff v).mp h)
  apply Bool.eq_false_iff.mpr
  intro hh16
  exact notMem_of_avoids (c := 46) (by decide) ((isH16_iff v).mp hh16) hdot

theorem ipv6Units_of_all {w : Bytes} (h : (h16s w).all isH16 = true) : ipv6Units w = some (h16s w).length := if_pos h

/-- Units, and an IPv4 address as the last two of them. -/
theorem ipv6Units_of_ipv4 {w v : Bytes} {gs : List Bytes} (hgs : ∀ g ∈ gs, isH16 g = true)
    (hv : isIPv4address v = true) (h : h16s w = gs ++ [v]) : ipv6Units w = some (gs.length + 2) := by
  have hall : ¬(gs ++ [v]).all isH16 = true := by
    intro hall
    have hlast := List.all_eq_true.mp hall v (List.mem_append_right gs List.mem_cons_self)
    rw [not_isH16_of_isIPv4address hv] at hlast
    cases hlast
  have hparts : (gs.all isH16 && (some v).any isIPv4address) = true :=
    Bool.and_eq_true_iff.mpr ⟨List.all_eq_true.mpr hgs, hv⟩
  unfold ipv6Units
  rw [h, if_neg hall, List.dropLast_concat, List.getLast?_concat, if_pos hparts, List.length_append,
    List.length_singleton]

/-- The two ways to have units. -/
theorem of_ipv6Units {w : Bytes} {n : ℕ} (h : ipv6Units w = some n) :
    ((∀ g ∈ h16s w, isH16 g = true) ∧ n = (h16s w).length) ∨
      ∃ gs v, h16s w = gs ++ [v] ∧ (∀ g ∈ gs, isH16 g = true) ∧ isIPv4address v = true ∧ n = gs.length + 2 := by
  unfold ipv6Units at h
  split at h
  · next hall => exact .inl ⟨List.all_eq_true.mp hall, (Option.some.inj h).symm⟩
  · split at h
    · next hparts =>
      rw [Bool.and_eq_true] at hparts
      obtain ⟨v, hlast, hv⟩ := (Option.any_eq_true _ _).mp hparts.2
      have hsplit := (List.dropLast_append_getLast? v hlast).symm
      refine .inr ⟨_, v, hsplit, List.all_eq_true.mp hparts.1, hv, ?_⟩
      rw [← Option.some.inj h, hsplit, List.length_append, List.length_singleton, List.dropLast_concat]
    · cases h

theorem ne_nil_of_h16s_append {w v : Bytes} {gs : List Bytes} (h : h16s w = gs ++ [v]) : w ≠ [] := by
  intro hw
  rw [(h16s_eq_nil_iff w).mpr hw] at h
  exact List.append_ne_nil_of_right_ne_nil gs (List.cons_ne_nil v []) h.symm

theorem exists_append_pair {l : List Bytes} {n : ℕ} (h : n + 2 = l.length) :
    ∃ gs a b, l = gs ++ [a, b] ∧ gs.length = n := by
  have hlen : (l.drop n).length = 2 := by
    rw [List.length_drop]
    omega
  obtain ⟨a, b, hab⟩ := List.length_eq_two.mp hlen
  refine ⟨l.take n, a, b, ?_, ?_⟩
  · rw [← hab, List.take_append_drop]
  · rw [List.length_take]
    omega

/-- What may stand behind a "::", when it is long enough for an IPv4 address. -/
theorem mem_back_iff (n : ℕ) (w : Bytes) :
    w ∈ lang (cat (times n h16Colon) ls32) ↔ ipv6Units w = some (n + 2) := by
  rw [mem_times_cat_iff]
  constructor
  · rintro ⟨gs, rfl, hgs, v, hv, rfl⟩
    rcases (mem_ls32_iff v).mp hv with ⟨a, b, ha, hb, rfl⟩ | hv
    · have hparts : h16s (colonParts gs ++ (a ++ 58 :: b)) = gs ++ [a, b] := by
        rw [h16s_of_ne_nil (by simp), splitOn_colonParts hgs,
          List.splitOn_append_cons_self_of_not_mem (colon_notMem_of_isH16 ha),
          List.splitOn_eq_singleton (colon_notMem_of_isH16 hb)]
      rw [ipv6Units_of_all, hparts, List.length_append]
      · rfl
      · rw [hparts, List.all_eq_true, List.forall_mem_append, List.forall_mem_cons, List.forall_mem_singleton]
        exact ⟨hgs, ha, hb⟩
    · have hne : v ≠ [] := by
        rintro rfl
        cases hv
      apply ipv6Units_of_ipv4 hgs hv
      rw [h16s_of_ne_nil (List.append_ne_nil_of_right_ne_nil _ hne), splitOn_colonParts hgs,
        List.splitOn_eq_singleton (colon_notMem_of_isIPv4address hv)]
  · intro h
    rcases of_ipv6Units h with ⟨hall, hlen⟩ | ⟨gs, v, hparts, hgs, hv, hlen⟩
    · have hw : w ≠ [] := by
        rintro rfl
        cases hlen
      rw [h16s_of_ne_nil hw] at hall hlen
      obtain ⟨gs, a, b, hsplit, hn⟩ := exists_append_pair hlen
      rw [hsplit, List.forall_mem_append, List.forall_mem_cons, List.forall_mem_singleton] at hall
      obtain ⟨hgs, ha, hb⟩ := hall
      refine ⟨gs, hn, hgs, a ++ 58 :: b, (mem_ls32_iff _).mpr (.inl ⟨a, b, ha, hb, rfl⟩), ?_⟩
      apply eq_of_splitOn_eq
      rw [splitOn_colonParts hgs, List.splitOn_append_cons_self_of_not_mem (colon_notMem_of_isH16 ha),
        List.splitOn_eq_singleton (colon_notMem_of_isH16 hb), hsplit]
    · have hsplit := hparts
      rw [h16s_of_ne_nil (ne_nil_of_h16s_append hparts)] at hsplit
      refine ⟨gs, by omega, hgs, v, (mem_ls32_iff v).mpr (.inr hv), ?_⟩
      exact (eq_colonParts hgs (colon_notMem_of_isIPv4address hv) hsplit).symm

theorem mem_back_one_iff (w : Bytes) : w ∈ lang h16 ↔ ipv6Units w = some 1 := by
  rw [← isH16_iff]
  constructor
  · intro h
    have hparts : h16s w = [w] := by
      rw [h16s_of_ne_nil (ne_nil_of_isH16 h), List.splitOn_eq_singleton (colon_notMem_of_isH16 h)]
    rw [ipv6Units_of_all, hparts]
    · rfl
    · rw [hparts, List.all_eq_true, List.forall_mem_singleton]
      exact h
  · intro h
    rcases of_ipv6Units h with ⟨hall, hlen⟩ | ⟨gs, v, -, -, -, hlen⟩
    · obtain ⟨g, hg⟩ := List.length_eq_one_iff.mp hlen.symm
      have hw : w ≠ [] := by
        rintro rfl
        cases hg
      rw [hg, List.forall_mem_singleton] at hall
      rw [h16s_of_ne_nil hw] at hg
      have htext := (of_splitOn_eq hg).1
      rw [List.flatMap_nil, List.append_nil] at htext
      rw [htext]
      exact hall
    · omega

theorem eq_nil_iff_ipv6Units (w : Bytes) : w = [] ↔ ipv6Units w = some 0 := by
  constructor
  · rintro rfl
    rfl
  · intro h
    rcases of_ipv6Units h with ⟨-, hlen⟩ | ⟨gs, v, -, -, -, hlen⟩
    · exact (h16s_eq_nil_iff w).mp (List.eq_nil_of_length_eq_zero hlen.symm)
    · omega

/-! ## IPv6 addresses -/

/-- Units in front of a "::", `m` at most, and `k` units behind it. -/
def Compressed (m k : ℕ) (str : Bytes) : Prop :=
  ∃ left right, str = left ++ 58 :: 58 :: right ∧ (h16s left).all isH16 = true ∧ (h16s left).length ≤ m ∧
    ipv6Units right = some k

theorem mem_compressed_iff {r s : Regex UInt8} {m k : ℕ}
    (hr : ∀ w, w ∈ lang r ↔ (h16s w).all isH16 = true ∧ (h16s w).length ≤ m)
    (hs : ∀ w, w ∈ lang s ↔ ipv6Units w = some k) (str : Bytes) :
    str ∈ lang (cat r (cat (lit "::") s)) ↔ Compressed m k str := by
  rw [lit_colons, mem_cat_iff]
  constructor
  · rintro ⟨left, hleft, u, hu, rfl⟩
    obtain ⟨colons, hcolons, right, hright, rfl⟩ := (mem_cat_iff _ _ _).mp hu
    obtain ⟨c, hc, d, hd, rfl⟩ := (mem_cat_iff _ _ _).mp hcolons
    rw [mem_cls_singleton_iff] at hc hd
    subst hc hd
    obtain ⟨hall, hle⟩ := (hr left).mp hleft
    exact ⟨left, right, rfl, hall, hle, (hs right).mp hright⟩
  · rintro ⟨left, right, rfl, hall, hle, hunits⟩
    refine ⟨left, (hr left).mpr ⟨hall, hle⟩, 58 :: 58 :: right, ?_, rfl⟩
    refine (mem_cat_iff _ _ _).mpr ⟨[58, 58], ?_, right, (hs right).mpr hunits, rfl⟩
    have hcolon : [58] ∈ lang (cls [((58 : UInt8), (58 : UInt8))]) := (mem_cls_singleton_iff 58 [58]).mpr rfl
    exact (mem_cat_iff _ _ _).mpr ⟨[58], hcolon, [58], hcolon, rfl⟩

theorem mem_front_none_iff (w : Bytes) :
    w ∈ lang (eps : Regex UInt8) ↔ (h16s w).all isH16 = true ∧ (h16s w).length ≤ 0 := by
  rw [mem_eps_iff, Nat.le_zero, List.length_eq_zero_iff, h16s_eq_nil_iff]
  constructor
  · rintro rfl
    exact ⟨rfl, rfl⟩
  · exact fun h => h.2

theorem mem_front_one_iff (w : Bytes) :
    w ∈ lang (opt h16) ↔ (h16s w).all isH16 = true ∧ (h16s w).length ≤ 1 := by
  rw [← mem_front_iff 0]
  show w ∈ lang (opt h16) ↔ w ∈ lang (opt (cat eps h16))
  rw [mem_opt_iff, mem_opt_iff]
  show w = [] ∨ w ∈ lang h16 ↔ w = [] ∨ w ∈ 1 * lang h16
  rw [one_mul]

theorem mem_back_two_iff (w : Bytes) : w ∈ lang ls32 ↔ ipv6Units w = some 2 := by
  rw [← mem_back_iff 0]
  show w ∈ lang ls32 ↔ w ∈ 1 * lang ls32
  rw [one_mul]

theorem mem_back_three_iff (w : Bytes) : w ∈ lang (cat h16Colon ls32) ↔ ipv6Units w = some 3 := by
  rw [← mem_back_iff 1]
  show w ∈ lang h16Colon * lang ls32 ↔ w ∈ lang h16Colon * 1 * lang ls32
  rw [mul_one]

theorem mem_back_zero_iff (w : Bytes) : w ∈ lang (eps : Regex UInt8) ↔ ipv6Units w = some 0 := by
  rw [mem_eps_iff, eq_nil_iff_ipv6Units]

/-- The alternatives of the grammar: eight units, or fewer with a "::" in a place. -/
theorem mem_ipv6address_iff (str : Bytes) : str ∈ lang ipv6address ↔
    ipv6Units str = some 8 ∨ ∃ left right units, str = left ++ 58 :: 58 :: right ∧
      (h16s left).all isH16 = true ∧ ipv6Units right = some units ∧ (h16s left).length + units ≤ 7 := by
  have hgrammar : str ∈ lang ipv6address ↔ ipv6Units str = some 8 ∨ Compressed 0 7 str ∨ Compressed 1 6 str ∨
      Compressed 2 5 str ∨ Compressed 3 4 str ∨ Compressed 4 3 str ∨ Compressed 5 2 str ∨ Compressed 6 1 str ∨
      Compressed 7 0 str := by
    rw [← mem_back_iff 6, ← mem_compressed_iff mem_front_none_iff (mem_back_iff 5),
      ← mem_compressed_iff mem_front_one_iff (mem_back_iff 4),
      ← mem_compressed_iff (mem_front_iff 1) (mem_back_iff 3),
      ← mem_compressed_iff (mem_front_iff 2) (mem_back_iff 2),
      ← mem_compressed_iff (mem_front_iff 3) mem_back_three_iff,
      ← mem_compressed_iff (mem_front_iff 4) mem_back_two_iff,
      ← mem_compressed_iff (mem_front_iff 5) mem_back_one_iff,
      ← mem_compressed_iff (mem_front_iff 6) mem_back_zero_iff]
    unfold ipv6address oneOf oneOf oneOf oneOf oneOf oneOf oneOf oneOf oneOf
    rw [mem_alt_iff, mem_alt_iff, mem_alt_iff, mem_alt_iff, mem_alt_iff, mem_alt_iff, mem_alt_iff, mem_alt_iff]
    refine or_congr_right (or_congr ?_ (or_congr_right (or_congr_right (or_congr_right (or_congr_right
      (or_congr_right (or_congr_right ?_)))))))
    · show str ∈ lang (cat (lit "::") (cat (times 5 h16Colon) ls32)) ↔
        str ∈ 1 * lang (cat (lit "::") (cat (times 5 h16Colon) ls32))
      rw [one_mul]
    · show str ∈ lang (front 6) * lang (lit "::") ↔ str ∈ lang (front 6) * (lang (lit "::") * 1)
      rw [mul_one]
  rw [hgrammar]
  refine or_congr_right ?_
  constructor
  · rintro (h | h | h | h | h | h | h | h) <;>
    · obtain ⟨left, right, htext, hall, hle, hunits⟩ := h
      exact ⟨left, right, _, htext, hall, hunits, by omega⟩
  · rintro ⟨left, right, units, htext, hall, hunits, hle⟩
    have hcompressed : Compressed (7 - units) units str := ⟨left, right, htext, hall, by omega, hunits⟩
    have hcases : units = 7 ∨ units = 6 ∨ units = 5 ∨ units = 4 ∨ units = 3 ∨ units = 2 ∨ units = 1 ∨ units = 0 := by
      omega
    rcases hcases with rfl | rfl | rfl | rfl | rfl | rfl | rfl | rfl <;> tauto

/-! ## The first "::" -/

theorem splitDoubleColon_cons_of_ne {b : UInt8} (hb : b ≠ 58) (rest : Bytes) :
    splitDoubleColon (b :: rest) = (splitDoubleColon rest).map fun r => (b :: r.1, r.2) := by
  rw [splitDoubleColon]
  intro rest' heq
  exact absurd heq hb

theorem splitDoubleColon_colon_of_ne {b : UInt8} (hb : b ≠ 58) (rest : Bytes) :
    splitDoubleColon (58 :: b :: rest) = (splitDoubleColon (b :: rest)).map fun r => (58 :: r.1, r.2) := by
  rw [splitDoubleColon]
  intro rest' _ heq
  exact absurd (List.cons.inj heq).1 hb

theorem splitDoubleColon_append {g : Bytes} (hg : 58 ∉ g) (rest : Bytes) :
    splitDoubleColon (g ++ rest) = (splitDoubleColon rest).map fun r => (g ++ r.1, r.2) := by
  induction g with
  | nil => exact Option.map_id'.symm
  | cons b g ih =>
    have hb : b ≠ 58 := fun heq => hg (heq ▸ List.mem_cons_self)
    rw [List.cons_append, splitDoubleColon_cons_of_ne hb, ih fun hmem => hg (List.mem_cons_of_mem b hmem),
      Option.map_map]
    rfl

theorem exists_first_of_isH16 {g : Bytes} (hg : isH16 g = true) (rest : Bytes) :
    ∃ b rest', g ++ rest = b :: rest' ∧ b ≠ 58 := by
  cases g with
  | nil => cases hg
  | cons b g => exact ⟨b, g ++ rest, rfl, fun heq => colon_notMem_of_isH16 hg (heq ▸ List.mem_cons_self)⟩

theorem splitDoubleColon_colonParts {gs : List Bytes} (hgs : ∀ g ∈ gs, isH16 g = true) {g : Bytes}
    (hg : isH16 g = true) (right : Bytes) :
    splitDoubleColon (colonParts gs ++ (g ++ 58 :: 58 :: right)) = some (colonParts gs ++ g, right) := by
  induction gs with
  | nil =>
    show splitDoubleColon (g ++ 58 :: 58 :: right) = some (g, right)
    rw [splitDoubleColon_append (colon_notMem_of_isH16 hg), splitDoubleColon, Option.map_some, List.append_nil]
  | cons first gs ih =>
    rw [List.forall_mem_cons] at hgs
    -- no colon stands behind the one that ends the first part
    obtain ⟨b, rest, hrest, hb⟩ : ∃ b rest, colonParts gs ++ (g ++ 58 :: 58 :: right) = b :: rest ∧ b ≠ 58 := by
      cases gs with
      | nil => exact exists_first_of_isH16 hg _
      | cons second gs =>
        rw [List.forall_mem_cons] at hgs
        unfold colonParts
        rw [List.flatMap_cons, List.append_assoc, List.append_assoc]
        exact exists_first_of_isH16 hgs.2.1 _
    have htext : colonParts (first :: gs) ++ (g ++ 58 :: 58 :: right) =
        first ++ 58 :: (colonParts gs ++ (g ++ 58 :: 58 :: right)) := by
      unfold colonParts
      rw [List.flatMap_cons, List.append_assoc, List.append_assoc]
      rfl
    rw [htext, splitDoubleColon_append (colon_notMem_of_isH16 hgs.1), hrest, splitDoubleColon_colon_of_ne hb, ← hrest,
      ih hgs.2]
    show some (first ++ 58 :: (colonParts gs ++ g), right) = some (colonParts (first :: gs) ++ g, right)
    unfold colonParts
    rw [List.flatMap_cons, List.append_assoc, List.append_assoc]
    rfl

theorem splitDoubleColon_of_h16s {left : Bytes} (h : (h16s left).all isH16 = true) (right : Bytes) :
    splitDoubleColon (left ++ 58 :: 58 :: right) = some (left, right) := by
  by_cases hleft : left = []
  · subst hleft
    rfl
  · rw [h16s_of_ne_nil hleft, List.all_eq_true] at h
    have hsplit := (List.dropLast_append_getLast (List.splitOn_ne_nil 58 left)).symm
    rw [hsplit, List.forall_mem_append, List.forall_mem_singleton] at h
    have htext := eq_colonParts h.1 (colon_notMem_of_isH16 h.2) hsplit
    have hread := splitDoubleColon_colonParts h.1 h.2 right
    rw [← List.append_assoc, ← htext] at hread
    exact hread

theorem nil_mem_splitOn (left right : Bytes) : [] ∈ (left ++ 58 :: 58 :: right).splitOn 58 := by
  induction hlen : left.length using Nat.strong_induction_on generalizing left with
  | _ n ih =>
    by_cases hcolon : 58 ∈ left
    · obtain ⟨first, rest, rfl, hfirst⟩ := List.eq_append_cons_of_mem hcolon
      have hlt : rest.length < n := by
        rw [← hlen, List.length_append, List.length_cons]
        omega
      rw [List.append_assoc, List.cons_append, List.splitOn_append_cons_self_of_not_mem hfirst]
      exact List.mem_cons_of_mem first (ih rest.length hlt rest rfl)
    · rw [List.splitOn_append_cons_self_of_not_mem hcolon, ← List.nil_append (58 :: right),
        List.splitOn_append_cons_self_of_not_mem List.not_mem_nil]
      exact List.mem_cons_of_mem left List.mem_cons_self

/-- Units with one colon between two of them have no "::". -/
theorem splitDoubleColon_of_ipv6Units {str : Bytes} {n : ℕ} (h : ipv6Units str = some n) :
    splitDoubleColon str = none := by
  rw [Option.eq_none_iff_forall_ne_some]
  rintro ⟨left, right⟩ hsplit
  have htext := of_splitDoubleColon hsplit
  have hne : str ≠ [] := by
    rw [htext]
    exact List.append_ne_nil_of_right_ne_nil left (List.cons_ne_nil 58 _)
  have hmem : [] ∈ h16s str := by
    rw [h16s_of_ne_nil hne, htext]
    exact nil_mem_splitOn left right
  rcases of_ipv6Units h with ⟨hall, -⟩ | ⟨gs, v, hparts, hgs, hv, -⟩
  · cases hall [] hmem
  · rw [hparts] at hmem
    rcases List.mem_append.mp hmem with hmem | hmem
    · cases hgs [] hmem
    · rw [← List.mem_singleton.mp hmem] at hv
      cases hv

theorem isIPv6address_iff (str : Bytes) : isIPv6address str = true ↔ str ∈ lang ipv6address := by
  rw [mem_ipv6address_iff]
  unfold isIPv6address
  constructor
  · intro h
    split at h
    · exact .inl (eq_of_beq h)
    · next left right hsplit =>
      rw [Bool.and_eq_true] at h
      obtain ⟨units, hunits, hle⟩ := (Option.any_eq_true _ _).mp h.2
      exact .inr ⟨left, right, units, of_splitDoubleColon hsplit, h.1, hunits, of_decide_eq_true hle⟩
  · rintro (h | ⟨left, right, units, rfl, hall, hunits, hle⟩)
    · rw [splitDoubleColon_of_ipv6Units h, h]
      rfl
    · rw [splitDoubleColon_of_h16s hall]
      show ((h16s left).all isH16 && (ipv6Units right).any fun units => (h16s left).length + units ≤ 7) = true
      rw [hall, hunits]
      exact decide_eq_true hle

theorem isIpAddress_iff (str : Bytes) : isIpAddress str = true ↔ str ∈ lang ipv4address ∨ str ∈ lang ipv6address := by
  unfold isIpAddress
  rw [Bool.or_eq_true, isIPv4address_iff, isIPv6address_iff]

end OverSip
