import OverSip.Lib.Decimal
import OverSip.Sip.DecimalNumbers
import OverSip.Utils.HaproxyProtocol

/-!
# Ports as they are written and read

A port of the grammar is read by `str_to_int` as a number from 1 to 65535, and such a number is written as a
port of the grammar.
-/

namespace OverSip

open Numerals

/-- The digits of a text. -/
def portDigits (str : Bytes) : List ℕ := str.map fun b => b.toNat - 48

theorem digitText_portDigits {str : Bytes} (h : str.all isDigit = true) : digitText (portDigits str) = str := by
  unfold digitText portDigits
  rw [List.map_map]
  calc str.map ((fun d => UInt8.ofNat (48 + d)) ∘ fun b => b.toNat - 48) = str.map id := by
        apply List.map_congr_left
        intro b hb
        have hdigit := List.all_eq_true.mp h b hb
        unfold isDigit at hdigit
        rw [Bool.and_eq_true, decide_eq_true_eq, decide_eq_true_eq, UInt8.le_iff_toNat_le] at hdigit
        have hlow : 48 ≤ b.toNat := hdigit.1
        show UInt8.ofNat (48 + (b.toNat - 48)) = b
        rw [Nat.add_sub_cancel' hlow, UInt8.ofNat_toNat]
    _ = str := List.map_id str

theorem lt_of_mem_portDigits {str : Bytes} (h : str.all isDigit = true) : ∀ d ∈ portDigits str, d < 10 := by
  intro d hd
  obtain ⟨b, hb, rfl⟩ := List.mem_map.mp hd
  have hdigit := List.all_eq_true.mp h b hb
  unfold isDigit at hdigit
  rw [Bool.and_eq_true, decide_eq_true_eq, decide_eq_true_eq, UInt8.le_iff_toNat_le, UInt8.le_iff_toNat_le]
    at hdigit
  have hhigh : b.toNat ≤ 57 := hdigit.2
  omega

theorem isDigit_digitText {ds : List ℕ} (h : ∀ d ∈ ds, d < 10) : (digitText ds).all isDigit = true := by
  apply List.all_eq_true.mpr
  intro b hb
  obtain ⟨d, hd, rfl⟩ := List.mem_map.mp hb
  have hlt := h d hd
  unfold isDigit
  rw [Bool.and_eq_true, decide_eq_true_eq, decide_eq_true_eq, UInt8.le_iff_toNat_le, UInt8.le_iff_toNat_le,
    toNat_digitChar hlt]
  exact ⟨Nat.le_add_right 48 d, by show 48 + d ≤ 57; omega⟩

theorem IsPort.length_le {ds : List ℕ} (h : IsPort ds) : ds.length ≤ 5 := by
  rcases h with h | h <;> omega

theorem IsPort.value_pos {ds : List ℕ} (h : IsPort ds) : 1 ≤ value 10 ds := by
  rcases h with h | h <;> omega

theorem IsPort.value_le {ds : List ℕ} (hds : ∀ d ∈ ds, d < 10) (h : IsPort ds) : value 10 ds ≤ 65535 := by
  rcases h with h | h
  · have hlt : value 10 ds < 10 ^ ds.length := value_lt_pow hds
    have hpow : 10 ^ ds.length ≤ 10 ^ 4 := Nat.pow_le_pow_right (by decide) h.2.1
    omega
  · exact h.2.2

/-- The number that `str_to_int` reads of a port. -/
theorem strToInt_of_isPort {str : Bytes} (h : isPort str = true) :
    strToInt str str.length = (value 10 (portDigits str) : Int) := by
  obtain ⟨hall, hport⟩ := Bool.and_eq_true_iff.mp h
  have hlen : (portDigits str).length ≤ 9 := Nat.le_trans (of_decide_eq_true hport).length_le (by decide)
  have hread := strToInt_digitText (lt_of_mem_portDigits hall) hlen []
  rw [List.append_nil, digitText_portDigits hall] at hread
  have hlength : (portDigits str).length = str.length := List.length_map _
  rw [hlength] at hread
  exact hread

theorem isPort_decimal {n : ℕ} (hpos : 1 ≤ n) (hle : n ≤ 65535) : isPort (decimal n) = true := by
  unfold isPort
  rw [Bool.and_eq_true, decide_eq_true_eq, map_decimal]
  refine ⟨isDigit_digitText fun d hd => lt_of_mem_decimalDigits hd, ?_⟩
  unfold IsPort
  rw [value_decimalDigits]
  have hlen := length_decimalDigits_pos n
  by_cases hsmall : n < 10000
  · exact .inl ⟨hlen, length_decimalDigits_le (by decide) hsmall, by omega⟩
  · have hlong : 4 < (decimalDigits n).length := lt_length_decimalDigits (by omega)
    have hshort : (decimalDigits n).length ≤ 5 := length_decimalDigits_le (by decide) (by omega)
    exact .inr ⟨by omega, by omega, hle⟩

theorem strToInt_decimal {n : ℕ} (hpos : 1 ≤ n) (hle : n ≤ 65535) :
    strToInt (decimal n) (decimal n).length = (n : Int) := by
  rw [strToInt_of_isPort (isPort_decimal hpos hle)]
  have hdigits : portDigits (decimal n) = decimalDigits n := map_decimal n
  rw [hdigits, value_decimalDigits]

end OverSip
