import Mathlib.Data.List.Basic
import Mathlib.Tactic.Common

/-!
# Base64

`encode` is the standard encoding with padding. `decode` is a lenient reader: it takes the letters of the
alphabet four at a time and skips everything else, until `=` stands in the place of the third or the fourth
letter of a group. What is in front of an encoded text and has no letter in it does not matter
(`decode_append_encode`).
-/

namespace OverSip

namespace Base64

/-! ## The alphabet -/

/-- The letter for six bits. -/
def letter (n : ℕ) : UInt8 :=
  if n < 26 then UInt8.ofNat (65 + n)
  else if n < 52 then UInt8.ofNat (71 + n)
  else if n < 62 then UInt8.ofNat (n - 4)
  else if n = 62 then 43
  else 47

/-- The six bits of a letter. -/
def value? (c : UInt8) : Option ℕ :=
  if 65 ≤ c ∧ c ≤ 90 then some (c.toNat - 65)
  else if 97 ≤ c ∧ c ≤ 122 then some (c.toNat - 71)
  else if 48 ≤ c ∧ c ≤ 57 then some (c.toNat + 4)
  else if c = 43 then some 62
  else if c = 47 then some 63
  else none

theorem value?_letter_fin : ∀ n : Fin 64, value? (letter n) = some n.val := by
  decide

theorem value?_letter {n : ℕ} (h : n < 64) : value? (letter n) = some n := value?_letter_fin ⟨n, h⟩

/-! ## Encoding -/

def encode : List UInt8 → List UInt8
  | x :: y :: z :: rest =>
    letter (x.toNat / 4) :: letter (x.toNat % 4 * 16 + y.toNat / 16) ::
      letter (y.toNat % 16 * 4 + z.toNat / 64) :: letter (z.toNat % 64) :: encode rest
  | [x, y] =>
    [letter (x.toNat / 4), letter (x.toNat % 4 * 16 + y.toNat / 16), letter (y.toNat % 16 * 4), 61]
  | [x] => [letter (x.toNat / 4), letter (x.toNat % 4 * 16), 61, 61]
  | [] => []

theorem length_le_length_encode (x : List UInt8) : x.length ≤ (encode x).length := by
  induction x using encode.induct with
  | case1 x y z rest ih =>
    show rest.length + 1 + 1 + 1 ≤ (encode rest).length + 1 + 1 + 1 + 1
    omega
  | case2 x y => exact Nat.le_add_right 2 2
  | case3 x => exact Nat.le_add_right 1 3
  | case4 => exact Nat.le_refl 0

/-- What holds of `=` and of the letters for the six bits of a text holds of its encoding. -/
theorem forall_mem_encode {p : UInt8 → Prop} (hpad : p 61) (good : UInt8 → Prop)
    (hfirst : ∀ x, good x → p (letter (x.toNat / 4)))
    (hsecond : ∀ x y, good x → good y → p (letter (x.toNat % 4 * 16 + y.toNat / 16)))
    (hsecond' : ∀ x, good x → p (letter (x.toNat % 4 * 16)))
    (hthird : ∀ y z, good y → good z → p (letter (y.toNat % 16 * 4 + z.toNat / 64)))
    (hthird' : ∀ y, good y → p (letter (y.toNat % 16 * 4)))
    (hfourth : ∀ z, good z → p (letter (z.toNat % 64))) {text : List UInt8} (htext : ∀ b ∈ text, good b) :
    ∀ c ∈ encode text, p c := by
  induction text using encode.induct with
  | case1 x y z rest ih =>
    obtain ⟨hx, htext⟩ := List.forall_mem_cons.mp htext
    obtain ⟨hy, htext⟩ := List.forall_mem_cons.mp htext
    obtain ⟨hz, hrest⟩ := List.forall_mem_cons.mp htext
    apply List.forall_mem_cons.mpr ⟨hfirst x hx, _⟩
    apply List.forall_mem_cons.mpr ⟨hsecond x y hx hy, _⟩
    apply List.forall_mem_cons.mpr ⟨hthird y z hy hz, _⟩
    exact List.forall_mem_cons.mpr ⟨hfourth z hz, ih hrest⟩
  | case2 x y =>
    obtain ⟨hx, htext⟩ := List.forall_mem_cons.mp htext
    have hy := htext y List.mem_cons_self
    apply List.forall_mem_cons.mpr ⟨hfirst x hx, _⟩
    apply List.forall_mem_cons.mpr ⟨hsecond x y hx hy, _⟩
    apply List.forall_mem_cons.mpr ⟨hthird' y hy, _⟩
    exact List.forall_mem_singleton.mpr hpad
  | case3 x =>
    have hx := htext x List.mem_cons_self
    apply List.forall_mem_cons.mpr ⟨hfirst x hx, _⟩
    apply List.forall_mem_cons.mpr ⟨hsecond' x hx, _⟩
    apply List.forall_mem_cons.mpr ⟨hpad, _⟩
    exact List.forall_mem_singleton.mpr hpad
  | case4 => exact fun c hc => absurd hc List.not_mem_nil

theorem letter_ne_dash_fin : ∀ n : Fin 64, letter n ≠ 45 := by
  decide

theorem letter_ne_dash {n : ℕ} (h : n < 64) : letter n ≠ 45 := letter_ne_dash_fin ⟨n, h⟩

/-- `-` is not in the alphabet. -/
theorem dash_notMem_encode (text : List UInt8) : 45 ∉ encode text := by
  have hall : ∀ c ∈ encode text, c ≠ 45 := by
    apply forall_mem_encode (p := fun c => c ≠ 45) (by decide) (fun _ => True)
    · exact fun x _ => letter_ne_dash (by have := x.toNat_lt; omega)
    · exact fun x y _ _ => letter_ne_dash (by have := y.toNat_lt; omega)
    · exact fun x _ => letter_ne_dash (by omega)
    · exact fun y z _ _ => letter_ne_dash (by have := z.toNat_lt; omega)
    · exact fun y _ => letter_ne_dash (by omega)
    · exact fun z _ => letter_ne_dash (by omega)
    · exact fun _ _ => trivial
  exact fun hmem => hall 45 hmem rfl

/-! ## Decoding -/

/-- The next letter, and what stands behind it. With `pad` there is none behind `=`. -/
def next (pad : Bool) : List UInt8 → Option (ℕ × List UInt8)
  | [] => none
  | c :: s =>
    match value? c with
    | some v => some (v, s)
    | none => if pad && c == 61 then none else next pad s

/-- Groups of four letters, of which the last can be shorter. -/
def decodeGroups : ℕ → List UInt8 → List UInt8
  | 0, _ => []
  | fuel + 1, s =>
    match next false s with
    | none => []
    | some (a, s) =>
      match next false s with
      | none => []
      | some (b, s) =>
        match next true s with
        | none => [UInt8.ofNat (a * 4 + b / 16)]
        | some (c, s) =>
          match next true s with
          | none => [UInt8.ofNat (a * 4 + b / 16), UInt8.ofNat (b % 16 * 16 + c / 4)]
          | some (d, s) =>
            UInt8.ofNat (a * 4 + b / 16) :: UInt8.ofNat (b % 16 * 16 + c / 4) ::
              UInt8.ofNat (c % 4 * 64 + d) :: decodeGroups fuel s

def decode (s : List UInt8) : List UInt8 := decodeGroups (s.length + 1) s

theorem next_letter (pad : Bool) {n : ℕ} (h : n < 64) (s : List UInt8) :
    next pad (letter n :: s) = some (n, s) := by
  unfold next
  rw [value?_letter h]

theorem next_pad (s : List UInt8) : next true (61 :: s) = none := rfl

/-- Bytes that are no letters are skipped. -/
theorem next_append {junk : List UInt8} (h : ∀ c ∈ junk, value? c = none) (s : List UInt8) :
    next false (junk ++ s) = next false s := by
  induction junk with
  | nil => rfl
  | cons c junk ih =>
    obtain ⟨hc, hjunk⟩ := List.forall_mem_cons.mp h
    rw [List.cons_append, next, hc]
    exact ih hjunk

theorem decodeGroups_append {junk : List UInt8} (h : ∀ c ∈ junk, value? c = none) (fuel : ℕ)
    (s : List UInt8) : decodeGroups fuel (junk ++ s) = decodeGroups fuel s := by
  cases fuel with
  | zero => rfl
  | succ fuel =>
    unfold decodeGroups
    rw [next_append h]

theorem ofNat_eq {n : ℕ} {x : UInt8} (h : n = x.toNat) : UInt8.ofNat n = x := by
  rw [h, UInt8.ofNat_toNat]

theorem decodeGroups_encode {x : List UInt8} {fuel : ℕ} (h : x.length < fuel) :
    decodeGroups fuel (encode x) = x := by
  induction x using encode.induct generalizing fuel with
  | case1 x y z rest ih =>
    obtain ⟨fuel, rfl⟩ := Nat.exists_eq_succ_of_ne_zero (Nat.ne_zero_of_lt h)
    have hfuel : rest.length < fuel := by
      have hlen : rest.length + 1 + 1 + 1 < fuel + 1 := h
      omega
    have hx := x.toNat_lt
    have hy := y.toNat_lt
    have hz := z.toNat_lt
    rw [encode, decodeGroups, next_letter false (by omega)]
    dsimp only
    rw [next_letter false (by omega)]
    dsimp only
    rw [next_letter true (by omega)]
    dsimp only
    rw [next_letter true (by omega)]
    dsimp only
    rw [ih hfuel, ofNat_eq (x := x) (by omega), ofNat_eq (x := y) (by omega), ofNat_eq (x := z) (by omega)]
  | case2 x y =>
    obtain ⟨fuel, rfl⟩ := Nat.exists_eq_succ_of_ne_zero (Nat.ne_zero_of_lt h)
    have hx := x.toNat_lt
    have hy := y.toNat_lt
    rw [encode, decodeGroups, next_letter false (by omega)]
    dsimp only
    rw [next_letter false (by omega)]
    dsimp only
    rw [next_letter true (by omega)]
    dsimp only
    rw [next_pad, ofNat_eq (x := x) (by omega), ofNat_eq (x := y) (by omega)]
  | case3 x =>
    obtain ⟨fuel, rfl⟩ := Nat.exists_eq_succ_of_ne_zero (Nat.ne_zero_of_lt h)
    have hx := x.toNat_lt
    rw [encode, decodeGroups, next_letter false (by omega)]
    dsimp only
    rw [next_letter false (by omega)]
    dsimp only
    rw [next_pad, ofNat_eq (x := x) (by omega)]
  | case4 =>
    obtain ⟨fuel, rfl⟩ := Nat.exists_eq_succ_of_ne_zero (Nat.ne_zero_of_lt h)
    rfl

/-- The encoded text is read, whatever without a letter stands in front of it. -/
theorem decode_append_encode {junk : List UInt8} (h : ∀ c ∈ junk, value? c = none) (x : List UInt8) :
    decode (junk ++ encode x) = x := by
  unfold decode
  rw [decodeGroups_append h, List.length_append]
  apply decodeGroups_encode
  have hlen := length_le_length_encode x
  omega

end Base64

end OverSip
