import OverSip.Lib.Numerals
import Mathlib.Data.Nat.Digits.Lemmas

/-!
# Numbers as they are written

`decimal` is the text of a number in base 10. The digits of a text are read back by `map_digitText`.
-/

namespace OverSip

namespace Numerals

/-- The digits of a number in base 10, the most significant one first. -/
def decimalDigits (n : ℕ) : List ℕ := if n = 0 then [0] else (Nat.digits 10 n).reverse

/-- The text of a number. -/
def decimal (n : ℕ) : List UInt8 := digitText (decimalDigits n)

theorem value_reverse (b : ℕ) (ds : List ℕ) : value b ds.reverse = Nat.ofDigits b ds := by
  induction ds with
  | nil => rfl
  | cons d ds ih =>
    rw [List.reverse_cons, value_concat, ih, Nat.ofDigits_cons]
    exact Nat.add_comm _ _

theorem value_decimalDigits (n : ℕ) : value 10 (decimalDigits n) = n := by
  unfold decimalDigits
  split
  · next h => exact h.symm
  · rw [value_reverse, Nat.ofDigits_digits]

theorem lt_of_mem_decimalDigits {n d : ℕ} (h : d ∈ decimalDigits n) : d < 10 := by
  unfold decimalDigits at h
  split at h
  · obtain rfl := List.mem_singleton.mp h
    exact Nat.succ_pos 9
  · exact Nat.digits_lt_base (by decide) (List.mem_reverse.mp h)

theorem length_decimalDigits_pos (n : ℕ) : 0 < (decimalDigits n).length := by
  unfold decimalDigits
  split
  · exact Nat.one_pos
  · next h =>
    rw [List.length_reverse]
    exact List.length_pos_of_ne_nil (Nat.digits_ne_nil_iff_ne_zero.mpr h)

theorem length_decimalDigits_le {n k : ℕ} (hk : 0 < k) (h : n < 10 ^ k) : (decimalDigits n).length ≤ k := by
  unfold decimalDigits
  split
  · exact hk
  · rw [List.length_reverse]
    exact (Nat.digits_length_le_iff (by decide) n).mpr h

/-- A number of `k + 1` digits at least has as many. -/
theorem lt_length_decimalDigits {n k : ℕ} (h : 10 ^ k ≤ n) : k < (decimalDigits n).length := by
  by_contra hle
  have hlt : value 10 (decimalDigits n) < 10 ^ (decimalDigits n).length :=
    value_lt_pow fun d hd => lt_of_mem_decimalDigits hd
  rw [value_decimalDigits] at hlt
  have hpow : 10 ^ (decimalDigits n).length ≤ 10 ^ k := Nat.pow_le_pow_right (by decide) (by omega)
  omega

/-- The digits of a text are read back. -/
theorem map_digitText {ds : List ℕ} (h : ∀ d ∈ ds, d < 10) :
    (digitText ds).map (fun c => c.toNat - 48) = ds := by
  unfold digitText
  rw [List.map_map]
  calc ds.map ((fun c => c.toNat - 48) ∘ fun d => UInt8.ofNat (48 + d)) = ds.map id := by
        apply List.map_congr_left
        intro d hd
        show (UInt8.ofNat (48 + d)).toNat - 48 = d
        rw [toNat_digitChar (h d hd), Nat.add_sub_cancel_left]
    _ = ds := List.map_id ds

theorem map_decimal (n : ℕ) : (decimal n).map (fun c => c.toNat - 48) = decimalDigits n :=
  map_digitText fun _ hd => lt_of_mem_decimalDigits hd

theorem decimal_injective {m n : ℕ} (h : decimal m = decimal n) : m = n := by
  have hdigits : decimalDigits m = decimalDigits n := by
    rw [← map_decimal m, ← map_decimal n, h]
  rw [← value_decimalDigits m, ← value_decimalDigits n, hdigits]

/-! ## The printed text -/

theorem decimalDigits_of_lt {n : ℕ} (h : n < 10) : decimalDigits n = [n] := by
  unfold decimalDigits
  by_cases hzero : n = 0
  · rw [if_pos hzero, hzero]
  · rw [if_neg hzero, Nat.digits_of_lt 10 n hzero h, List.reverse_singleton]

/-- The last digit stands behind those of the tenth part. -/
theorem decimalDigits_of_le {n : ℕ} (h : 10 ≤ n) : decimalDigits n = decimalDigits (n / 10) ++ [n % 10] := by
  have hpos : 0 < n := by omega
  have hdiv : n / 10 ≠ 0 := by omega
  unfold decimalDigits
  rw [if_neg hpos.ne', if_neg hdiv, Nat.digits_def' (by omega) hpos, List.reverse_cons]

theorem ofNat_digitChar {d : ℕ} (h : d < 10) : UInt8.ofNat (Nat.digitChar d).toNat = UInt8.ofNat (48 + d) := by
  have hall : ∀ d : Fin 10, UInt8.ofNat (Nat.digitChar d).toNat = UInt8.ofNat (48 + d) := by decide
  exact hall ⟨d, h⟩

/-- The text is the one that is printed. -/
theorem map_toDigits (n : ℕ) : (Nat.toDigits 10 n).map (fun c => UInt8.ofNat c.toNat) = decimal n := by
  induction n using Nat.strong_induction_on with
  | h n ih =>
    unfold decimal digitText at *
    by_cases hlt : n < 10
    · rw [Nat.toDigits_of_lt_base hlt, decimalDigits_of_lt hlt]
      exact congrArg (fun b => [b]) (ofNat_digitChar hlt)
    · have hmod : n % 10 < 10 := Nat.mod_lt n (by omega)
      rw [Nat.toDigits_of_base_le (by omega) (by omega), decimalDigits_of_le (by omega), List.map_append, List.map_append,
        ih (n / 10) (by omega)]
      exact congrArg (fun b => _ ++ [b]) (ofNat_digitChar hmod)

end Numerals

end OverSip
