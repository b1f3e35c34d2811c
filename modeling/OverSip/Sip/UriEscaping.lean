import OverSip.Sip.SipUriParams

/-!
# Escaping the user of a URI

`EscapeUtils.escape_uri` and the `my_rb_str_hex_unescape` of the parser. What is escaped is read back; a character
that stays as it is cuts an escaped text between two of its letters.
-/

namespace OverSip

open GrammarSipUri

/-- The unreserved and the reserved characters of URIs. -/
def isUriChar (b : UInt8) : Bool := isAlphanum b || isOneOf "-._~:/?#[]@!$&'()*+,;=" b

/-- A digit of `%2X`. -/
def hexDigit (n : ℕ) : UInt8 := UInt8.ofNat (if n < 10 then 48 + n else 55 + n)

def escapeByte (b : UInt8) : Bytes :=
  if isUriChar b then [b] else [37, hexDigit (b.toNat / 16), hexDigit (b.toNat % 16)]

/-- `EscapeUtils.escape_uri` -/
def escapeUri (str : Bytes) : Bytes := str.flatMap escapeByte

theorem escapeByte_of_isUriChar {b : UInt8} (h : isUriChar b = true) : escapeByte b = [b] := if_pos h

theorem escapeUri_cons (b : UInt8) (str : Bytes) : escapeUri (b :: str) = escapeByte b ++ escapeUri str :=
  List.flatMap_cons

theorem escapeUri_append (s t : Bytes) : escapeUri (s ++ t) = escapeUri s ++ escapeUri t := List.flatMap_append

/-! ## Reading back -/

theorem hexUnescape_cons {c : UInt8} (hc : c ≠ 37) (rest : Bytes) :
    hexUnescape (c :: rest) = c :: hexUnescape rest := by
  rw [hexUnescape]
  intro a b rest' heq
  exact absurd heq hc

theorem hexUnescape_percent (a b : UInt8) (rest : Bytes) :
    hexUnescape (37 :: a :: b :: rest) = UInt8.ofNat (16 * hexValue a + hexValue b) :: hexUnescape rest := rfl

theorem hexValue_hexDigit {n : ℕ} (h : n < 16) : hexValue (hexDigit n) = n := by
  have hall : ∀ m : Fin 16, hexValue (hexDigit m) = m := by decide
  exact hall ⟨n, h⟩

/-- An escaped byte in front of a rest. -/
theorem hexUnescape_escapeByte (b : UInt8) (rest : Bytes) :
    hexUnescape (escapeByte b ++ rest) = b :: hexUnescape rest := by
  unfold escapeByte
  split
  · next h =>
    apply hexUnescape_cons
    rintro rfl
    exact absurd h (by decide)
  · have hlt : b.toNat < 256 := b.toNat_lt
    rw [List.cons_append, List.cons_append, List.cons_append, List.nil_append, hexUnescape_percent,
      hexValue_hexDigit (by omega), hexValue_hexDigit (by omega), Nat.div_add_mod, UInt8.ofNat_toNat]

theorem hexUnescape_escapeUri_append (s rest : Bytes) :
    hexUnescape (escapeUri s ++ rest) = s ++ hexUnescape rest := by
  induction s with
  | nil => rfl
  | cons b s ih => rw [escapeUri_cons, List.append_assoc, hexUnescape_escapeByte, ih, List.cons_append]

/-- **Round trip.** -/
theorem hexUnescape_escapeUri (s : Bytes) : hexUnescape (escapeUri s) = s := by
  have h := hexUnescape_escapeUri_append s []
  rw [List.append_nil] at h
  exact h.trans (List.append_nil s)

/-! ## Cutting an escaped text -/

theorem isHexdig_hexDigit {n : ℕ} (h : n < 16) : isHexdig (hexDigit n) = true := by
  have hall : ∀ m : Fin 16, isHexdig (hexDigit m) = true := by decide
  exact hall ⟨n, h⟩

/-- The text of a byte has no such character but for the byte itself. -/
theorem eq_of_mem_escapeByte {b c : UInt8} (hc : isUriChar c = true) (hhex : isHexdig c = false)
    (h : c ∈ escapeByte b) : b = c := by
  unfold escapeByte at h
  split at h
  · exact (List.mem_singleton.mp h).symm
  · exfalso
    have hlt : b.toNat < 256 := b.toNat_lt
    rw [List.mem_cons, List.mem_cons, List.mem_singleton] at h
    rcases h with rfl | rfl | rfl
    · exact absurd hc (by decide)
    · rw [isHexdig_hexDigit (by omega)] at hhex
      cases hhex
    · rw [isHexdig_hexDigit (by omega)] at hhex
      cases hhex

/-- A character that is in no escape cuts the escaped text where it cuts the text. -/
theorem escapeUri_eq_append_cons {c : UInt8} (hc : isUriChar c = true) (hhex : isHexdig c = false)
    {s front rest : Bytes} (h : escapeUri s = front ++ c :: rest) :
    ∃ s₁ s₂, s = s₁ ++ c :: s₂ ∧ front = escapeUri s₁ ∧ rest = escapeUri s₂ := by
  induction s generalizing front with
  | nil => cases (List.append_eq_nil_iff.mp h.symm).2
  | cons b s ih =>
    rw [escapeUri_cons] at h
    rcases List.append_eq_append_iff.mp h with ⟨front', rfl, hs⟩ | ⟨back, hb, hrest⟩
    · obtain ⟨s₁, s₂, rfl, rfl, rfl⟩ := ih hs
      exact ⟨b :: s₁, s₂, rfl, (escapeUri_cons b s₁).symm, rfl⟩
    · cases back with
      | nil =>
        rw [List.append_nil] at hb
        obtain ⟨s₁, s₂, rfl, hnil, rfl⟩ := @ih [] hrest.symm
        refine ⟨b :: s₁, s₂, rfl, ?_, rfl⟩
        rw [escapeUri_cons, ← hnil, List.append_nil, hb]
      | cons c' back =>
        obtain ⟨rfl, rfl⟩ := List.cons.inj hrest
        have hmem : c ∈ escapeByte b := by
          rw [hb]
          exact List.mem_append_right _ List.mem_cons_self
        obtain rfl := eq_of_mem_escapeByte hc hhex hmem
        rw [escapeByte_of_isUriChar hc] at hb
        obtain ⟨hfront, hback⟩ : front = [] ∧ back = [] := by
          cases front with
          | nil => exact ⟨rfl, (List.cons.inj hb).2.symm⟩
          | cons d front => cases (List.append_eq_nil_iff.mp (List.cons.inj hb).2.symm).2
        subst hfront hback
        exact ⟨[], s, rfl, rfl, rfl⟩

end OverSip
