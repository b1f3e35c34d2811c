import Mathlib.Tactic.Common

/-!
# UTF-8

`Valid` says what a UTF-8 text is by the encoding of characters that Lean itself has. `character_iff`
gives the bytes of a character by their ranges, which is what a reader of bytes can test.
-/

namespace OverSip

namespace Utf8

/-- The bytes are the encoding of some characters. -/
def Valid (bs : List UInt8) : Prop := ∃ cs : List Char, cs.flatMap String.utf8EncodeChar = bs

/-- The bytes are the beginning of a UTF-8 text. -/
def Extends (bs : List UInt8) : Prop := ∃ more, Valid (bs ++ more)

/-- A byte behind the first one of a character. -/
def Tail (b : UInt8) : Prop := 0x80 ≤ b.toNat ∧ b.toNat ≤ 0xbf

/-- The first bytes of a character of three bytes. It is not encoded with too many bytes, and it is not
a surrogate. -/
def Lead₃ (a b : UInt8) : Prop :=
  0xe0 ≤ a.toNat ∧ a.toNat ≤ 0xef ∧ Tail b ∧ (a.toNat = 0xe0 → 0xa0 ≤ b.toNat) ∧
    (a.toNat = 0xed → b.toNat ≤ 0x9f)

/-- The first bytes of a character of four bytes. It is not encoded with too many bytes, and it is not
above the last character. -/
def Lead₄ (a b : UInt8) : Prop :=
  0xf0 ≤ a.toNat ∧ a.toNat ≤ 0xf4 ∧ Tail b ∧ (a.toNat = 0xf0 → 0x90 ≤ b.toNat) ∧
    (a.toNat = 0xf4 → b.toNat ≤ 0x8f)

/-- The bytes of one character. -/
inductive Character : List UInt8 → Prop
  | one {a : UInt8} : a.toNat < 0x80 → Character [a]
  | two {a b : UInt8} : 0xc2 ≤ a.toNat → a.toNat ≤ 0xdf → Tail b → Character [a, b]
  | three {a b c : UInt8} : Lead₃ a b → Tail c → Character [a, b, c]
  | four {a b c d : UInt8} : Lead₄ a b → Tail c → Tail d → Character [a, b, c, d]

/-! ## The encoding of a character -/

theorem ofNat_eq_of_toNat {a : UInt8} {n : ℕ} (h : n = a.toNat) : UInt8.ofNat n = a := by
  rw [h, UInt8.ofNat_toNat]

theorem toNat_ofNat_of_lt {n : ℕ} (h : n < 256) : (UInt8.ofNat n).toNat = n :=
  Nat.mod_eq_of_lt h

/-- The character of a scalar value. -/
theorem exists_char {n : ℕ} (h : n < 0xd800 ∨ 0xdfff < n ∧ n < 0x110000) :
    ∃ c : Char, c.val.toNat = n :=
  ⟨Char.ofNatAux n h, rfl⟩

theorem character_of_char (c : Char) : Character (String.utf8EncodeChar c) := by
  have hvalid : c.val.toNat < 0xd800 ∨ 0xdfff < c.val.toNat ∧ c.val.toNat < 0x110000 := c.valid
  unfold String.utf8EncodeChar
  generalize c.val.toNat = n at hvalid
  dsimp only
  split_ifs with h₁ h₂ h₃
  · exact .one (by rw [toNat_ofNat_of_lt] <;> omega)
  · refine .two ?_ ?_ ⟨?_, ?_⟩ <;> rw [toNat_ofNat_of_lt] <;> omega
  · refine .three ?_ ⟨?_, ?_⟩
    · unfold Lead₃ Tail
      rw [toNat_ofNat_of_lt (by omega), toNat_ofNat_of_lt (by omega)]
      omega
    all_goals rw [toNat_ofNat_of_lt] <;> omega
  · refine .four ?_ ⟨?_, ?_⟩ ⟨?_, ?_⟩
    · unfold Lead₄ Tail
      rw [toNat_ofNat_of_lt (by omega), toNat_ofNat_of_lt (by omega)]
      omega
    all_goals rw [toNat_ofNat_of_lt] <;> omega

theorem exists_char_of_character {l : List UInt8} (h : Character l) :
    ∃ c : Char, String.utf8EncodeChar c = l := by
  cases h with
  | @one a ha =>
    obtain ⟨c, hc⟩ := exists_char (n := a.toNat) (by omega)
    refine ⟨c, ?_⟩
    unfold String.utf8EncodeChar
    rw [hc]
    dsimp only
    rw [if_pos (by omega), UInt8.ofNat_toNat]
  | @two a b ha ha' hb =>
    unfold Tail at hb
    obtain ⟨c, hc⟩ := exists_char (n := (a.toNat - 0xc0) * 64 + (b.toNat - 0x80)) (by omega)
    refine ⟨c, ?_⟩
    unfold String.utf8EncodeChar
    rw [hc]
    dsimp only
    rw [if_neg (by omega), if_pos (by omega), ofNat_eq_of_toNat (a := a) (by omega),
      ofNat_eq_of_toNat (a := b) (by omega)]
  | @three a b c hab hc =>
    unfold Lead₃ Tail at hab
    unfold Tail at hc
    obtain ⟨ch, hch⟩ := exists_char
      (n := ((a.toNat - 0xe0) * 64 + (b.toNat - 0x80)) * 64 + (c.toNat - 0x80)) (by omega)
    refine ⟨ch, ?_⟩
    unfold String.utf8EncodeChar
    rw [hch]
    dsimp only
    rw [if_neg (by omega), if_neg (by omega), if_pos (by omega),
      ofNat_eq_of_toNat (a := a) (by omega), ofNat_eq_of_toNat (a := b) (by omega),
      ofNat_eq_of_toNat (a := c) (by omega)]
  | @four a b c d hab hc hd =>
    unfold Lead₄ Tail at hab
    unfold Tail at hc hd
    obtain ⟨ch, hch⟩ := exists_char (n := (((a.toNat - 0xf0) * 64 + (b.toNat - 0x80)) * 64 +
      (c.toNat - 0x80)) * 64 + (d.toNat - 0x80)) (by omega)
    refine ⟨ch, ?_⟩
    unfold String.utf8EncodeChar
    rw [hch]
    dsimp only
    rw [if_neg (by omega), if_neg (by omega), if_neg (by omega),
      ofNat_eq_of_toNat (a := a) (by omega), ofNat_eq_of_toNat (a := b) (by omega),
      ofNat_eq_of_toNat (a := c) (by omega), ofNat_eq_of_toNat (a := d) (by omega)]

/-- The encodings of the characters, by the ranges of their bytes. -/
theorem character_iff {l : List UInt8} : Character l ↔ ∃ c : Char, String.utf8EncodeChar c = l := by
  constructor
  · exact exists_char_of_character
  · rintro ⟨c, rfl⟩
    exact character_of_char c

/-! ## Texts -/

variable {l bs ds : List UInt8}

theorem valid_nil : Valid [] := ⟨[], rfl⟩

theorem Valid.cons (hl : Character l) (h : Valid bs) : Valid (l ++ bs) := by
  obtain ⟨c, rfl⟩ := character_iff.mp hl
  obtain ⟨cs, rfl⟩ := h
  exact ⟨c :: cs, List.flatMap_cons⟩

theorem Character.length_pos (h : Character l) : 0 < l.length := by
  cases h with
  | one | two | three | four => exact Nat.succ_pos _

theorem Valid.extends (h : Valid bs) : Extends bs := ⟨[], by rw [List.append_nil]; exact h⟩

theorem Extends.of_append (h : Extends (bs ++ ds)) : Extends bs := by
  obtain ⟨more, hmore⟩ := h
  rw [List.append_assoc] at hmore
  exact ⟨_, hmore⟩

end Utf8

end OverSip
