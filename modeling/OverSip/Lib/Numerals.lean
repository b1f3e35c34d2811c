import Mathlib.Data.List.Induction
import Mathlib.Data.List.TakeWhile
import Mathlib.Tactic.Common
import Mathlib.Tactic.Linarith

/-!
# Digit strings and what `strtol` reads of them

`value b ds` is the number that the digits `ds` denote in base `b`. Read in a smaller base, the digits of a
number denote a smaller one, unless there is a single digit to count (`value_takeWhile_eq_iff`).

`strtol` is the one of C with base 0, on a 64-bit `long`: a text that begins with 0 is octal, and one that
begins with 0x is hexadecimal.
-/

namespace OverSip

namespace Numerals

/-! ## Digit strings -/

/-- The number that the digits denote in base `b`, the most significant digit first. -/
def value (b : ℕ) (ds : List ℕ) : ℕ := ds.foldl (fun n d => b * n + d) 0

variable {b c d n : ℕ} {ds es : List ℕ}

@[simp] theorem value_nil : value b [] = 0 := rfl

theorem value_concat (b : ℕ) (ds : List ℕ) (d : ℕ) : value b (ds ++ [d]) = b * value b ds + d := by
  unfold value
  rw [List.foldl_append, List.foldl_cons, List.foldl_nil]

theorem value_zero_cons (b : ℕ) (ds : List ℕ) : value b (0 :: ds) = value b ds := by
  unfold value
  rw [List.foldl_cons, Nat.mul_zero]

theorem value_le_append (hb : 0 < b) : value b ds ≤ value b (ds ++ es) := by
  induction es using List.reverseRecOn with
  | nil => rw [List.append_nil]
  | append_singleton es d ih =>
    rw [← List.append_assoc, value_concat]
    calc value b ds ≤ value b (ds ++ es) := ih
      _ ≤ b * value b (ds ++ es) := Nat.le_mul_of_pos_left _ hb
      _ ≤ b * value b (ds ++ es) + d := Nat.le_add_right _ _

/-- A digit string of length `n` denotes less than `b ^ n`. -/
theorem value_lt_pow (h : ∀ d ∈ ds, d < b) : value b ds < b ^ ds.length := by
  induction ds using List.reverseRecOn with
  | nil => exact Nat.one_pos
  | append_singleton ds d ih =>
    have hd : d < b := h d (List.mem_append_right _ (List.mem_singleton.mpr rfl))
    have hlt : value b ds + 1 ≤ b ^ ds.length :=
      ih fun x hx => h x (List.mem_append_left _ hx)
    rw [value_concat, List.length_append, List.length_singleton, Nat.pow_succ, Nat.mul_comm (b ^ _)]
    calc b * value b ds + d < b * value b ds + b := by omega
      _ = b * (value b ds + 1) := by rw [Nat.mul_add, Nat.mul_one]
      _ ≤ b * b ^ ds.length := Nat.mul_le_mul_left _ hlt

theorem value_mono (hbc : b ≤ c) (ds : List ℕ) : value b ds ≤ value c ds := by
  induction ds using List.reverseRecOn with
  | nil => exact Nat.le_refl _
  | append_singleton ds d ih =>
    rw [value_concat, value_concat]
    have : b * value b ds ≤ c * value c ds := Nat.mul_le_mul hbc ih
    omega

/-- Digits denote the same in two bases only if all but the last count nothing. -/
theorem value_eq_iff (hb : 0 < b) (hbc : b < c) (h : ∀ d ∈ ds, d < b) :
    value b ds = value c ds ↔ value c ds < b := by
  cases ds using List.reverseRecOn with
  | nil => exact iff_of_true rfl hb
  | append_singleton ds d =>
    have hd : d < b := h d (List.mem_append_right _ (List.mem_singleton.mpr rfl))
    have hle := value_mono (Nat.le_of_lt hbc) ds
    rw [value_concat, value_concat]
    rcases Nat.eq_zero_or_pos (value c ds) with hz | hpos
    · have hz' : value b ds = 0 := by omega
      rw [hz, hz', Nat.mul_zero, Nat.mul_zero, Nat.zero_add]
      exact iff_of_true rfl hd
    · -- a digit before the last counts more in the greater base
      have hlt : b * value b ds < c * value c ds :=
        calc b * value b ds ≤ b * value c ds := Nat.mul_le_mul_left _ hle
          _ < c * value c ds := Nat.mul_lt_mul_of_pos_right hbc hpos
      have hge : c ≤ c * value c ds := Nat.le_mul_of_pos_right _ hpos
      exact iff_of_false (by omega) (by omega)

theorem value_takeWhile_le (hc : 0 < c) (hbc : b ≤ c) (p : ℕ → Bool) (ds : List ℕ) :
    value b (ds.takeWhile p) ≤ value c ds :=
  calc value b (ds.takeWhile p) ≤ value c (ds.takeWhile p) := value_mono hbc _
    _ ≤ value c (ds.takeWhile p ++ ds.dropWhile p) := value_le_append hc
    _ = value c ds := by rw [List.takeWhile_append_dropWhile]

/-- The digits up to the first that base `b` does not have denote the same only below `b`. -/
theorem value_takeWhile_eq_iff (hb : 0 < b) (hbc : b < c) (ds : List ℕ) :
    value b (ds.takeWhile (· < b)) = value c ds ↔ value c ds < b := by
  have htake : ∀ d ∈ ds.takeWhile (· < b), d < b := by
    intro d hd
    simpa using List.mem_takeWhile_imp hd
  have hsplit := List.takeWhile_append_dropWhile (p := fun d => decide (d < b)) (l := ds)
  cases hrest : ds.dropWhile (· < b) with
  | nil =>
    rw [hrest, List.append_nil] at hsplit
    rw [hsplit] at htake ⊢
    exact value_eq_iff hb hbc htake
  | cons e es =>
    -- the digit `e` counts in base `c` and is not read in base `b`
    have he : b ≤ e := by
      have := List.head_dropWhile_not (p := fun d => decide (d < b)) (l := ds) (by rw [hrest]; simp)
      simp only [hrest, List.head_cons, decide_eq_false_iff_not, not_lt] at this
      exact this
    have hcount : c * value c (ds.takeWhile (· < b)) + e ≤ value c ds :=
      calc c * value c (ds.takeWhile (· < b)) + e
          = value c (ds.takeWhile (· < b) ++ [e]) := (value_concat _ _ _).symm
        _ ≤ value c (ds.takeWhile (· < b) ++ [e] ++ es) := value_le_append (by omega)
        _ = value c ds := by rw [List.append_assoc, List.singleton_append, ← hrest, hsplit]
    have hlt : value b (ds.takeWhile (· < b)) < value c ds :=
      calc value b (ds.takeWhile (· < b)) ≤ value c (ds.takeWhile (· < b)) :=
            value_mono (Nat.le_of_lt hbc) _
        _ ≤ c * value c (ds.takeWhile (· < b)) := Nat.le_mul_of_pos_left _ (by omega)
        _ < c * value c (ds.takeWhile (· < b)) + e := by omega
        _ ≤ value c ds := hcount
    exact iff_of_false (by omega) (by omega)

/-! ## `strtol` -/

def LONG_MAX : Int := 2 ^ 63 - 1
def LONG_MIN : Int := -2 ^ 63

/-- `isspace` -/
def isSpace (b : UInt8) : Bool := b == 32 || 9 ≤ b && b ≤ 13

/-- The digit that a character stands for, in any base up to 36. -/
def digitValue (b : UInt8) : Option ℕ :=
  if 48 ≤ b ∧ b ≤ 57 then some (b.toNat - 48)
  else if 97 ≤ b ∧ b ≤ 122 then some (b.toNat - 87)
  else if 65 ≤ b ∧ b ≤ 90 then some (b.toNat - 55)
  else none

/-- The digits of base `b` at the begin of a text. -/
def leadingDigits (b : ℕ) : List UInt8 → List ℕ
  | [] => []
  | s :: text =>
    match digitValue s with
    | none => []
    | some d => if d < b then d :: leadingDigits b text else []

/-- The number at the begin of a text without a sign, in the base that its begin tells. -/
def unsignedNumber (text : List UInt8) : ℕ :=
  match text with
  | 48 :: x :: s :: rest =>
    if (x = 120 ∨ x = 88) ∧ (digitValue s).any (· < 16) then value 16 (leadingDigits 16 (s :: rest))
    else value 8 (leadingDigits 8 text)
  | 48 :: _ => value 8 (leadingDigits 8 text)
  | _ => value 10 (leadingDigits 10 text)

/-- `strtol(text, NULL, 0)` -/
def strtol (text : List UInt8) : Int :=
  match text.dropWhile isSpace with
  | 45 :: text => max (-unsignedNumber text) LONG_MIN
  | 43 :: text => min (unsignedNumber text) LONG_MAX
  | text => min (unsignedNumber text) LONG_MAX

/-! ## Decimal texts -/

/-- The characters of a digit string. -/
def digitText (ds : List ℕ) : List UInt8 := ds.map fun d => UInt8.ofNat (48 + d)

theorem toNat_digitChar (h : d < 10) : (UInt8.ofNat (48 + d)).toNat = 48 + d := by
  rw [UInt8.toNat_ofNat']
  omega

theorem digitValue_digitChar (h : d < 10) : digitValue (UInt8.ofNat (48 + d)) = some d := by
  have := toNat_digitChar h
  unfold digitValue
  rw [if_pos]
  · rw [this, Nat.add_sub_cancel_left]
  · rw [UInt8.le_iff_toNat_le, UInt8.le_iff_toNat_le, this]
    exact ⟨Nat.le_add_right _ _, by show 48 + d ≤ 57; omega⟩

/-- Behind a digit string there is no other digit. -/
theorem leadingDigits_digitText {s : UInt8} {rest : List UInt8} (hds : ∀ d ∈ ds, d < 10)
    (hs : digitValue s = none) :
    leadingDigits b (digitText ds ++ s :: rest) = ds.takeWhile (· < b) := by
  induction ds with
  | nil =>
    show leadingDigits b (s :: rest) = []
    rw [leadingDigits, hs]
  | cons d ds ih =>
    rw [List.forall_mem_cons] at hds
    show leadingDigits b (UInt8.ofNat (48 + d) :: (digitText ds ++ s :: rest)) = _
    rw [leadingDigits, digitValue_digitChar hds.1]
    dsimp only
    by_cases hd : d < b
    · rw [if_pos hd, ih hds.2, List.takeWhile_cons_of_pos (by simpa using hd)]
    · rw [if_neg hd, List.takeWhile_cons_of_neg (by simpa using hd)]

theorem unsignedNumber_zero_cons {text : List UInt8} (hx : ∀ x ∈ text.head?, x ≠ 120 ∧ x ≠ 88) :
    unsignedNumber (48 :: text) = value 8 (leadingDigits 8 (48 :: text)) := by
  match text with
  | [] => rfl
  | [x] => rfl
  | x :: s :: rest =>
    obtain ⟨h, h'⟩ := hx x rfl
    exact if_neg fun hc => hc.1.elim h h'

theorem unsignedNumber_cons_of_ne {s : UInt8} {text : List UInt8} (h : s ≠ 48) :
    unsignedNumber (s :: text) = value 10 (leadingDigits 10 (s :: text)) := by
  unfold unsignedNumber
  split
  · rename_i heq
    exact absurd (List.cons.inj heq).1 h
  · rename_i heq
    exact absurd (List.cons.inj heq).1 h
  · rfl

/-- No digit, no blank behind a number and no sign is taken for the mark of a hexadecimal number. -/
theorem not_hexMark {s : UInt8} (h : ∀ d, digitValue s = some d → d < 10) : s ≠ 120 ∧ s ≠ 88 := by
  constructor
  · rintro rfl
    exact absurd (h 33 (by decide)) (by decide)
  · rintro rfl
    exact absurd (h 33 (by decide)) (by decide)

/-- A digit string that begins with 0 is read in base 8, as far as it has octal digits. -/
theorem unsignedNumber_digitText {s : UInt8} {rest : List UInt8} (hd : d < 10)
    (hds : ∀ d ∈ ds, d < 10) (hs : digitValue s = none) :
    unsignedNumber (digitText (d :: ds) ++ s :: rest) =
      if d = 0 then value 8 (ds.takeWhile (· < 8)) else value 10 (d :: ds) := by
  have hall : ∀ x ∈ d :: ds, x < 10 := List.forall_mem_cons.mpr ⟨hd, hds⟩
  by_cases hz : d = 0
  · subst hz
    rw [if_pos rfl]
    have hhead : ∀ x ∈ (digitText ds ++ s :: rest).head?, x ≠ 120 ∧ x ≠ 88 := by
      intro x hx
      refine not_hexMark fun n hn => ?_
      cases ds with
      | nil =>
        obtain rfl := Option.some.inj hx
        rw [hs] at hn
        cases hn
      | cons e es =>
        obtain rfl := Option.some.inj hx
        rw [digitValue_digitChar (hds e List.mem_cons_self)] at hn
        exact Option.some.inj hn ▸ hds e List.mem_cons_self
    show unsignedNumber (48 :: (digitText ds ++ s :: rest)) = _
    rw [unsignedNumber_zero_cons hhead]
    show value 8 (leadingDigits 8 (digitText (0 :: ds) ++ s :: rest)) = _
    rw [leadingDigits_digitText hall hs, List.takeWhile_cons_of_pos (by decide), value_zero_cons]
  · rw [if_neg hz]
    have hne : UInt8.ofNat (48 + d) ≠ 48 := by
      intro h
      have := congrArg UInt8.toNat h
      rw [toNat_digitChar hd] at this
      exact hz (by simpa using this)
    show unsignedNumber (UInt8.ofNat (48 + d) :: (digitText ds ++ s :: rest)) = _
    rw [unsignedNumber_cons_of_ne hne]
    show value 10 (leadingDigits 10 (digitText (d :: ds) ++ s :: rest)) = _
    rw [leadingDigits_digitText hall hs, List.takeWhile_eq_self_iff.mpr (by simpa using hall)]

/-- What `strtol` reads of a digit string: too short a number for a `long` to overflow. -/
theorem strtol_digitText {s : UInt8} {rest : List UInt8} (hd : d < 10) (hds : ∀ d ∈ ds, d < 10)
    (hs : digitValue s = none) (hlen : ds.length < 18) :
    strtol (digitText (d :: ds) ++ s :: rest) =
      ((if d = 0 then value 8 (ds.takeWhile (· < 8)) else value 10 (d :: ds) : ℕ) : Int) := by
  have hplain : ∀ d < 10, isSpace (UInt8.ofNat (48 + d)) = false ∧ UInt8.ofNat (48 + d) ≠ 45 ∧
      UInt8.ofNat (48 + d) ≠ 43 := by decide
  have hall : ∀ x ∈ d :: ds, x < 10 := List.forall_mem_cons.mpr ⟨hd, hds⟩
  obtain ⟨hspace, hminus, hplus⟩ := hplain d hd
  have hmin : strtol (digitText (d :: ds) ++ s :: rest) =
      min (unsignedNumber (digitText (d :: ds) ++ s :: rest) : Int) LONG_MAX := by
    show strtol (UInt8.ofNat (48 + d) :: (digitText ds ++ s :: rest)) = _
    unfold strtol
    rw [List.dropWhile_cons_of_neg (by rw [hspace]; decide)]
    split
    · rename_i heq
      exact absurd (List.cons.inj heq).1 hminus
    · rename_i heq
      exact absurd (List.cons.inj heq).1 hplus
    · rfl
  rw [hmin, unsignedNumber_digitText hd hds hs]
  refine min_eq_left ?_
  have hten : value 10 (d :: ds) < 10 ^ (ds.length + 1) := value_lt_pow hall
  have hpow : 10 ^ (ds.length + 1) ≤ 10 ^ 18 := Nat.pow_le_pow_right (by decide) hlen
  by_cases hz : d = 0
  · rw [if_pos hz]
    have hoct : value 8 (ds.takeWhile (· < 8)) ≤ value 10 (d :: ds) := by
      rw [hz, value_zero_cons]
      exact value_takeWhile_le (by decide) (by decide) _ ds
    unfold LONG_MAX
    omega
  · rw [if_neg hz]
    unfold LONG_MAX
    omega

end Numerals

end OverSip
