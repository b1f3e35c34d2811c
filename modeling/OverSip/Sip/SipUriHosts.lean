import OverSip.Sip.SipUriParams

/-!
# The host of a SIP URI

What `uri_host` makes of a host is a host of the same type again, and `uri_host` does not change it any more.
-/

namespace OverSip

open Regex GrammarSipUri GrammarIp

theorem findHost_eq (host : Bytes) :
    findHost host =
      if host ∈ lang hostname then some .domain
      else if host ∈ lang ipv4address then some .ipv4
      else if host ∈ lang ipv6reference then some .ipv6Reference
      else none := by
  unfold findHost hostAlternatives
  simp only [List.find?_cons, List.find?_nil, ← accepts_iff]
  cases accepts hostname host with
  | true => rfl
  | false =>
    cases accepts ipv4address host with
    | true => rfl
    | false => cases accepts ipv6reference host <;> rfl

theorem withoutDot_of_endsWithout {r : Regex UInt8} (h : endsWithout 46 r = true) {host : Bytes}
    (hhost : host ∈ lang r) : withoutDot host = host :=
  if_neg (getLast?_ne_of_endsWithout h hhost)

/-! ## Domains -/

/-- A domain without the dot behind it. -/
def domain : Regex UInt8 := cat (star (seq [domainlabel, lit "."])) toplabel

theorem withoutDot_mem {host : Bytes} (h : host ∈ lang hostname) : withoutDot host ∈ lang domain := by
  obtain ⟨labels, hlabels, rest, hrest, rfl⟩ := Language.mem_mul.mp h
  obtain ⟨top, htop, dot, hdot, rfl⟩ := Language.mem_mul.mp hrest
  have hmem : labels ++ top ∈ lang domain := Language.append_mem_mul hlabels htop
  rcases (Language.mem_add _ _ _).mp hdot with hnil | hdot
  · obtain rfl := (Language.mem_one dot).mp hnil
    rw [List.append_nil, withoutDot_of_endsWithout (by decide) hmem]
    exact hmem
  · have hlit : lit "." = cls [(46, 46)] := by decide
    rw [hlit] at hdot
    obtain rfl := (mem_cls_singleton_iff 46 dot).mp hdot
    have hlast : (labels ++ (top ++ [46])).getLast? = some 46 := by
      rw [← List.append_assoc, List.getLast?_concat]
    unfold withoutDot
    rw [if_pos hlast, ← List.append_assoc, List.dropLast_concat]
    exact hmem

theorem mem_hostname_of_domain {host : Bytes} (h : host ∈ lang domain) : host ∈ lang hostname := by
  obtain ⟨labels, hlabels, top, htop, rfl⟩ := Language.mem_mul.mp h
  have hrest : top ++ [] ∈ lang (cat toplabel (opt (lit "."))) :=
    Language.append_mem_mul htop ((Language.mem_add _ _ _).mpr (.inl ((Language.mem_one []).mpr rfl)))
  rw [List.append_nil] at hrest
  exact Language.append_mem_mul hlabels hrest

/-! ## Addresses -/

/-- A text without upper-case letters stays. -/
theorem downcase_of_avoids {r : Regex UInt8} (h : (upperCase.all fun c => avoids c r) = true) {s : Bytes}
    (hs : s ∈ lang r) : downcase s = s := by
  unfold downcase
  refine (List.map_congr_left fun b hb => ?_).trans (List.map_id s)
  rcases mem_upperCase b with hupper | hfix
  · exact absurd hb (notMem_of_avoids (List.all_eq_true.mp h b hupper) hs)
  · exact hfix

theorem mem_ipv6reference_iff (host : Bytes) :
    host ∈ lang ipv6reference ↔ ∃ a, a ∈ lang ipv6address ∧ host = 91 :: a ++ [93] := by
  have hopen : lit "[" = cls [(91, 91)] := by decide
  have hclose : lit "]" = cls [(93, 93)] := by decide
  have href : lang ipv6reference = lang (cls [(91, 91)]) * (lang ipv6address * lang (cls [(93, 93)])) := by
    rw [← hopen, ← hclose]
    rfl
  rw [href]
  constructor
  · intro h
    obtain ⟨first, hfirst, rest, hrest, rfl⟩ := Language.mem_mul.mp h
    obtain ⟨a, ha, last, hlast, rfl⟩ := Language.mem_mul.mp hrest
    obtain rfl := (mem_cls_singleton_iff 91 first).mp hfirst
    obtain rfl := (mem_cls_singleton_iff 93 last).mp hlast
    exact ⟨a, ha, rfl⟩
  · rintro ⟨a, ha, rfl⟩
    have hfirst := (mem_cls_singleton_iff (91 : UInt8) [91]).mpr rfl
    have hlast := (mem_cls_singleton_iff (93 : UInt8) [93]).mpr rfl
    have hmem := Language.append_mem_mul hfirst (Language.append_mem_mul ha hlast)
    exact hmem

theorem uriHost_ipv6reference (inet : Inet) {a : Bytes} (ha : a ∈ lang ipv6address) :
    uriHost inet .ipv6Reference (91 :: a ++ [93]) =
      (inet.pton (downcase a)).map fun addr => 91 :: inet.ntop addr ++ [93] := by
  have hdot : withoutDot (91 :: a ++ [93]) = 91 :: a ++ [93] :=
    withoutDot_of_endsWithout (by decide) ((mem_ipv6reference_iff _).mpr ⟨a, ha, rfl⟩)
  have hdowncase : downcase (91 :: a ++ [93]) = 91 :: (downcase a ++ [93]) :=
    congrArg (91 :: ·) List.map_append
  unfold uriHost
  rw [hdot, hdowncase]
  show (inet.pton (downcase a ++ [93]).dropLast).map _ = _
  rw [List.dropLast_concat]

/-! ## All of them -/

/-- **Hosts stay hosts.** -/
theorem uriHost_spec (inet : Inet) {host : Bytes} {hostType : HostType} (h : findHost host = some hostType) :
    ∃ host', uriHost inet hostType host = some host' ∧ findHost host' = some hostType ∧
      uriHost inet hostType host' = some host' := by
  rw [findHost_eq] at h
  split at h
  · next hdomain =>
    obtain rfl := Option.some.inj h
    have hlower : downcase (withoutDot host) ∈ lang domain :=
      downcase_mem (by decide) (withoutDot_mem hdomain)
    refine ⟨downcase (withoutDot host), rfl, ?_, ?_⟩
    · rw [findHost_eq, if_pos (mem_hostname_of_domain hlower)]
    · show some (downcase (withoutDot (downcase (withoutDot host)))) = _
      rw [withoutDot_of_endsWithout (by decide) hlower, downcase_downcase]
  · next hdomain =>
    split at h
    · next hipv4 =>
      obtain rfl := Option.some.inj h
      have hsame : downcase (withoutDot host) = host := by
        rw [withoutDot_of_endsWithout (by decide) hipv4, downcase_of_avoids (by decide) hipv4]
      have hhost : uriHost inet .ipv4 host = some host := congrArg some hsame
      refine ⟨host, hhost, ?_, hhost⟩
      rw [findHost_eq, if_neg hdomain, if_pos hipv4]
    · next hipv4 =>
      split at h
      · next href =>
        obtain rfl := Option.some.inj h
        obtain ⟨a, ha, rfl⟩ := (mem_ipv6reference_iff host).mp href
        obtain ⟨addr, haddr⟩ :=
          Option.ne_none_iff_exists'.mp (inet.pton_ne_none (downcase a) (downcase_mem_ipv6address ha))
        have hwritten := inet.ntop_mem addr
        have hmem : 91 :: inet.ntop addr ++ [93] ∈ lang ipv6reference :=
          (mem_ipv6reference_iff _).mpr ⟨_, hwritten, rfl⟩
        have hbracket : (91 : UInt8) ∈ 91 :: inet.ntop addr ++ [93] := List.mem_cons_self
        refine ⟨91 :: inet.ntop addr ++ [93], ?_, ?_, ?_⟩
        · rw [uriHost_ipv6reference inet ha, haddr]
          rfl
        · rw [findHost_eq, if_neg fun hin => notMem_of_avoids (by decide) hin hbracket,
            if_neg fun hin => notMem_of_avoids (by decide) hin hbracket, if_pos hmem]
        · rw [uriHost_ipv6reference inet hwritten, inet.downcase_ntop, inet.pton_ntop]
          rfl
      · cases h

/-! ## Reading a host -/

theorem notMem_of_findHost {c : UInt8} (hc : (hostAlternatives.all fun alternative => avoids c alternative.2) = true)
    {host : Bytes} {hostType : HostType} (h : findHost host = some hostType) : c ∉ host := by
  obtain ⟨alternative, hfind, _⟩ := Option.map_eq_some_iff.mp h
  have havoids := List.all_eq_true.mp hc alternative (List.mem_of_find?_eq_some hfind)
  have haccepts := List.find?_some (p := fun alternative : HostType × Regex UInt8 => accepts alternative.2 host) hfind
  exact notMem_of_avoids havoids ((accepts_iff _ _).mp haccepts)

theorem ne_nil_of_findHost {host : Bytes} {hostType : HostType} (h : findHost host = some hostType) : host ≠ [] := by
  rintro rfl
  exact absurd h (by rw [show findHost [] = none by decide]; exact nofun)

/-- A reference stands in brackets, and no other host has a bracket or a colon. -/
theorem hostLength_append {host : Bytes} {hostType : HostType} (h : findHost host = some hostType) {rest : Bytes}
    (hrest : rest = [] ∨ ∃ port, rest = 58 :: port) : hostLength (host ++ rest) = host.length := by
  have hplain : 91 ∉ host → 58 ∉ host → hostLength (host ++ rest) = host.length := by
    intro hbracket hcolon
    have hhead : (host ++ rest).head? ≠ some 91 := by
      rw [List.head?_append_of_ne_nil host (ne_nil_of_findHost h)]
      exact fun hhead => hbracket (List.mem_of_mem_head? hhead)
    unfold hostLength
    rw [if_neg hhead]
    rcases hrest with rfl | ⟨port, rfl⟩
    · rw [List.append_nil, takeWhile_ne_of_notMem hcolon]
    · rw [takeWhile_ne_append hcolon]
  rw [findHost_eq] at h
  split at h
  · next hdomain =>
    exact hplain (notMem_of_avoids (by decide) hdomain) (notMem_of_avoids (by decide) hdomain)
  · split at h
    · next hipv4 =>
      exact hplain (notMem_of_avoids (by decide) hipv4) (notMem_of_avoids (by decide) hipv4)
    · split at h
      · next href =>
        obtain ⟨a, ha, rfl⟩ := (mem_ipv6reference_iff host).mp href
        have hbracket : (93 : UInt8) ∉ 91 :: a := by
          rw [List.mem_cons]
          rintro (heq | hmem)
          · cases heq
          · exact notMem_of_avoids (by decide) ha hmem
        have htext : 91 :: a ++ [93] ++ rest = 91 :: a ++ 93 :: rest := List.append_assoc ..
        have hhead : (91 :: a ++ 93 :: rest).head? = some 91 := rfl
        unfold hostLength
        rw [htext, if_pos hhead, takeWhile_ne_append hbracket, List.length_append, List.length_singleton]
      · cases h

theorem readHostPort_append {host : Bytes} {hostType : HostType} (h : findHost host = some hostType)
    {port : Option Bytes} (hport : ∀ digits ∈ port, isPort digits = true) :
    readHostPort (host ++ port.elim [] fun digits => 58 :: digits) = some { host, hostType, port } := by
  cases port with
  | none =>
    have hlength := hostLength_append h (.inl rfl)
    unfold readHostPort
    rw [Option.elim_none, hlength, List.take_left, List.drop_left]
    dsimp only
    rw [h]
    rfl
  | some digits =>
    have hlength := hostLength_append h (.inr ⟨digits, rfl⟩)
    unfold readHostPort
    rw [Option.elim_some, hlength, List.take_left, List.drop_left]
    dsimp only
    rw [h]
    show (if (58 : UInt8) = 58 ∧ isPort digits = true then _ else none) = _
    rw [if_pos ⟨rfl, hport digits rfl⟩]

end OverSip
