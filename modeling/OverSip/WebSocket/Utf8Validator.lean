import OverSip.Lib.Utf8

/-!
# The UTF-8 validator

`Utf8Validator` (`ext/websocket_framing_utils`) reads bytes through the table `utf8d`: the class of a byte,
and for a state and a class the next state. `readText_eq_zero_iff` and `readText_eq_one_iff` say what its
states mean for the text that has been read since the last `reset`.
-/

namespace OverSip

def UTF8_ACCEPT : Nat := 0

def UTF8_REJECT : Nat := 1

/-- What `validate` returns: `true`, `nil` or `false`. -/
inductive Utf8Verdict
  | valid
  | incomplete
  | invalid
deriving DecidableEq, Repr

namespace Utf8Validator

/-- The classes of the bytes, and from 256 on the next states, 16 for each state. -/
def utf8d : List Nat :=
  [0,0,0,0,0,0,0,0,0,0,0,0,0,0,0,0,0,0,0,0,0,0,0,0,0,0,0,0,0,0,0,0,
    0,0,0,0,0,0,0,0,0,0,0,0,0,0,0,0,0,0,0,0,0,0,0,0,0,0,0,0,0,0,0,0,
    0,0,0,0,0,0,0,0,0,0,0,0,0,0,0,0,0,0,0,0,0,0,0,0,0,0,0,0,0,0,0,0,
    0,0,0,0,0,0,0,0,0,0,0,0,0,0,0,0,0,0,0,0,0,0,0,0,0,0,0,0,0,0,0,0,
    1,1,1,1,1,1,1,1,1,1,1,1,1,1,1,1,9,9,9,9,9,9,9,9,9,9,9,9,9,9,9,9,
    7,7,7,7,7,7,7,7,7,7,7,7,7,7,7,7,7,7,7,7,7,7,7,7,7,7,7,7,7,7,7,7,
    8,8,2,2,2,2,2,2,2,2,2,2,2,2,2,2,2,2,2,2,2,2,2,2,2,2,2,2,2,2,2,2,
    0xa,0x3,0x3,0x3,0x3,0x3,0x3,0x3,0x3,0x3,0x3,0x3,0x3,0x4,0x3,0x3,
    0xb,0x6,0x6,0x6,0x5,0x8,0x8,0x8,0x8,0x8,0x8,0x8,0x8,0x8,0x8,0x8,
    0x0,0x1,0x2,0x3,0x5,0x8,0x7,0x1,0x1,0x1,0x4,0x6,0x1,0x1,0x1,0x1,
    1,1,1,1,1,1,1,1,1,1,1,1,1,1,1,1,1,0,1,1,1,1,1,0,1,0,1,1,1,1,1,1,
    1,2,1,1,1,1,1,2,1,2,1,1,1,1,1,1,1,1,1,1,1,1,1,2,1,1,1,1,1,1,1,1,
    1,2,1,1,1,1,1,1,1,2,1,1,1,1,1,1,1,1,1,1,1,1,1,3,1,3,1,1,1,1,1,1,
    1,3,1,1,1,1,1,3,1,3,1,1,1,1,1,1,1,3,1,1,1,1,1,1,1,1,1,1,1,1,1,1]

/-- `utf8_decode`, of which the validator uses the state. -/
def utf8Decode (state byte : Nat) : Nat :=
  utf8d.getD (256 + state * 16 + utf8d.getD byte 0) 0

/-- `Utf8Validator_validate`: the state of the validator after the string, and the verdict. -/
def validate (state : Nat) : List UInt8 → Nat × Utf8Verdict
  | [] => (state, if state = UTF8_ACCEPT then .valid else .incomplete)
  | b :: bs =>
    let state := utf8Decode state b.toNat
    if state = UTF8_REJECT then (state, .invalid) else validate state bs

/-! ## The table -/

/-- What a state expects: the least and the greatest byte, and the state behind such a byte. -/
def expected : Nat → Nat × Nat × Nat
  | 2 => (0x80, 0xbf, 0)
  | 3 => (0x80, 0xbf, 2)
  | 4 => (0xa0, 0xbf, 2)
  | 5 => (0x80, 0x9f, 2)
  | 6 => (0x90, 0xbf, 3)
  | 7 => (0x80, 0xbf, 3)
  | 8 => (0x80, 0x8f, 3)
  | _ => (1, 0, 1)

/-- The classes by the ranges of their bytes. -/
def byteClass (n : Nat) : Nat :=
  if n < 0x80 then 0 else if n < 0x90 then 1 else if n < 0xa0 then 9 else if n < 0xc0 then 7
  else if n < 0xc2 then 8 else if n < 0xe0 then 2 else if n = 0xe0 then 10 else if n = 0xed then 4
  else if n < 0xf0 then 3 else if n = 0xf0 then 11 else if n < 0xf4 then 6 else if n = 0xf4 then 5
  else 8

theorem utf8d_byte : ∀ n < 256, utf8d.getD n 0 = byteClass n := by
  decide +kernel

theorem byteClass_lt : ∀ n < 256, byteClass n < 12 := by
  decide +kernel

/-- The classes that a state expects. -/
def expectedClasses : Nat → List Nat
  | 2 | 3 | 7 => [1, 9, 7]
  | 4 => [7]
  | 5 => [1, 9]
  | 6 => [9, 7]
  | 8 => [1]
  | _ => []

theorem utf8d_state : ∀ s < 9, 0 < s → ∀ c < 12, utf8d.getD (256 + s * 16 + c) 0 =
    if (expectedClasses s).contains c then (expected s).2.2 else 1 := by
  decide

theorem contains_byteClass : ∀ s < 9, 0 < s → ∀ n < 256,
    (expectedClasses s).contains (byteClass n) = decide ((expected s).1 ≤ n ∧ n ≤ (expected s).2.1) := by
  decide +kernel

/-- In the middle of a character, and after an error. -/
theorem utf8Decode_of_pos {s n : Nat} (hs : s < 9) (hpos : 0 < s) (hn : n < 256) :
    utf8Decode s n =
      if (expected s).1 ≤ n ∧ n ≤ (expected s).2.1 then (expected s).2.2 else 1 := by
  unfold utf8Decode
  rw [utf8d_byte n hn, utf8d_state s hs hpos _ (byteClass_lt n hn), contains_byteClass s hs hpos n hn]
  simp only [decide_eq_true_eq]

/-- At the beginning of a character. -/
theorem utf8Decode_zero {n : Nat} (hn : n < 256) : utf8Decode 0 n =
    if n < 0x80 then 0 else if n < 0xc2 then 1 else if n < 0xe0 then 2
    else if n = 0xe0 then 4 else if n = 0xed then 5 else if n < 0xf0 then 3
    else if n = 0xf0 then 6 else if n < 0xf4 then 7 else if n = 0xf4 then 8 else 1 := by
  have hstart : ∀ c < 12, utf8d.getD (256 + 0 * 16 + c) 0 =
      [0, 1, 2, 3, 5, 8, 7, 1, 1, 1, 4, 6].getD c 0 := by
    decide
  unfold utf8Decode
  rw [utf8d_byte n hn, hstart _ (byteClass_lt n hn)]
  revert n
  decide +kernel

theorem utf8Decode_lt {s n : Nat} (hs : s < 9) (hn : n < 256) : utf8Decode s n < 9 := by
  rcases Nat.eq_zero_or_pos s with rfl | hpos
  · rw [utf8Decode_zero hn]
    split_ifs <;> omega
  · have hnext : ∀ s < 9, (expected s).2.2 < 9 := by decide
    rw [utf8Decode_of_pos hs hpos hn]
    split_ifs
    · exact hnext s hs
    · omega

/-! ## Texts -/

/-- The state of the validator after a text. -/
def readText (s : Nat) (bs : List UInt8) : Nat := bs.foldl (fun s b => utf8Decode s b.toNat) s

variable {s : Nat} {b : UInt8} {bs ds l : List UInt8}

theorem readText_cons : readText s (b :: bs) = readText (utf8Decode s b.toNat) bs := rfl

theorem readText_append : readText s (bs ++ ds) = readText (readText s bs) ds := List.foldl_append

theorem readText_lt (hs : s < 9) : readText s bs < 9 := by
  induction bs generalizing s with
  | nil => exact hs
  | cons b bs ih => exact ih (utf8Decode_lt hs b.toNat_lt)

theorem readText_reject : readText 1 bs = 1 := by
  induction bs with
  | nil => rfl
  | cons b bs ih =>
    rw [readText_cons, utf8Decode_of_pos (by omega) Nat.one_pos b.toNat_lt, if_neg]
    · exact ih
    · exact fun hb => Nat.not_succ_le_zero 0 (Nat.le_trans hb.1 hb.2)

/-- The byte that the state expects. -/
theorem readText_cons_of_expected (hs : s < 9) (hpos : 0 < s)
    (hb : (expected s).1 ≤ b.toNat ∧ b.toNat ≤ (expected s).2.1) :
    readText s (b :: bs) = readText (expected s).2.2 bs := by
  rw [readText_cons, utf8Decode_of_pos hs hpos b.toNat_lt, if_pos hb]

/-- A text that is complete goes on with a byte that the state expects. -/
theorem exists_expected (hs : s < 9) (hpos : 0 < s) (h : readText s bs = 0) :
    ∃ b rest, bs = b :: rest ∧ ((expected s).1 ≤ b.toNat ∧ b.toNat ≤ (expected s).2.1) ∧
      readText (expected s).2.2 rest = 0 := by
  cases bs with
  | nil => exact absurd h (by show s ≠ 0; omega)
  | cons b rest =>
    by_cases hb : (expected s).1 ≤ b.toNat ∧ b.toNat ≤ (expected s).2.1
    · rw [readText_cons_of_expected hs hpos hb] at h
      exact ⟨b, rest, rfl, hb, h⟩
    · rw [readText_cons, utf8Decode_of_pos hs hpos b.toNat_lt, if_neg hb, readText_reject] at h
      cases h

open Utf8 in
theorem exists_two_expected (hs : s < 9) (hpos : 0 < s) (hnext : (expected s).2.2 = 2)
    (h : readText s bs = 0) :
    ∃ b c rest, bs = b :: c :: rest ∧ ((expected s).1 ≤ b.toNat ∧ b.toNat ≤ (expected s).2.1) ∧
      Tail c ∧ readText 0 rest = 0 := by
  obtain ⟨b, rest, rfl, hb, hrest⟩ := exists_expected hs hpos h
  rw [hnext] at hrest
  obtain ⟨c, rest, rfl, hc, hrest'⟩ := exists_expected (by omega) (by omega) hrest
  exact ⟨b, c, rest, rfl, hb, hc, hrest'⟩

open Utf8 in
theorem exists_three_expected (hs : s < 9) (hpos : 0 < s) (hnext : (expected s).2.2 = 3)
    (h : readText s bs = 0) :
    ∃ b c d rest, bs = b :: c :: d :: rest ∧
      ((expected s).1 ≤ b.toNat ∧ b.toNat ≤ (expected s).2.1) ∧ Tail c ∧ Tail d ∧
      readText 0 rest = 0 := by
  obtain ⟨b, rest, rfl, hb, hrest⟩ := exists_expected hs hpos h
  rw [hnext] at hrest
  obtain ⟨c, d, rest, rfl, hc, hd, hrest'⟩ := exists_two_expected (by omega) (by omega) rfl hrest
  exact ⟨b, c, d, rest, rfl, hb, hc, hd, hrest'⟩

open Utf8 in
/-- A character is read from one beginning to the next. -/
theorem readText_character (hl : Character l) : readText 0 (l ++ bs) = readText 0 bs := by
  cases hl with
  | @one a ha =>
    show readText (utf8Decode 0 a.toNat) bs = _
    rw [utf8Decode_zero a.toNat_lt, if_pos ha]
  | @two a b ha ha' hb =>
    show readText (utf8Decode 0 a.toNat) (b :: bs) = _
    rw [utf8Decode_zero a.toNat_lt, if_neg (by omega), if_neg (by omega), if_pos (by omega)]
    exact readText_cons_of_expected (by omega) (by omega) hb
  | @three a b c hab hc =>
    show readText (utf8Decode 0 a.toNat) (b :: c :: bs) = _
    obtain ⟨ha, ha', hb, he0, hed⟩ := hab
    have htail : readText 2 (c :: bs) = readText 0 bs :=
      readText_cons_of_expected (by omega) (by omega) hc
    rw [utf8Decode_zero a.toNat_lt, if_neg (by omega), if_neg (by omega), if_neg (by omega)]
    split_ifs with h₁ h₂ h₃
    · exact (readText_cons_of_expected (s := 4) (by omega) (by omega) ⟨he0 h₁, hb.2⟩).trans htail
    · exact (readText_cons_of_expected (s := 5) (by omega) (by omega) ⟨hb.1, hed h₂⟩).trans htail
    · exact (readText_cons_of_expected (s := 3) (by omega) (by omega) hb).trans htail
    all_goals omega
  | @four a b c d hab hc hd =>
    show readText (utf8Decode 0 a.toNat) (b :: c :: d :: bs) = _
    obtain ⟨ha, ha', hb, hf0, hf4⟩ := hab
    have htail : readText 3 (c :: d :: bs) = readText 0 bs :=
      (readText_cons_of_expected (s := 3) (by omega) (by omega) hc).trans
        (readText_cons_of_expected (s := 2) (by omega) (by omega) hd)
    rw [utf8Decode_zero a.toNat_lt, if_neg (by omega), if_neg (by omega), if_neg (by omega),
      if_neg (by omega), if_neg (by omega), if_neg (by omega)]
    split_ifs with h₁ h₂ h₃
    · exact (readText_cons_of_expected (s := 6) (by omega) (by omega) ⟨hf0 h₁, hb.2⟩).trans htail
    · exact (readText_cons_of_expected (s := 7) (by omega) (by omega) hb).trans htail
    · exact (readText_cons_of_expected (s := 8) (by omega) (by omega) ⟨hb.1, hf4 h₃⟩).trans htail
    · omega

open Utf8 in
theorem readText_eq_zero_iff : readText 0 bs = 0 ↔ Valid bs := by
  constructor
  · intro h
    induction hn : bs.length using Nat.strongRecOn generalizing bs with
    | _ n ih =>
      cases bs with
      | nil => exact valid_nil
      | cons a rest =>
        -- what stands behind the first character is a text
        suffices hl : ∃ l more, Character l ∧ readText 0 more = 0 ∧ a :: rest = l ++ more by
          obtain ⟨l, more, hl, hmore, heq⟩ := hl
          have hlen : (a :: rest).length = l.length + more.length := by
            rw [heq, List.length_append]
          have hpos := hl.length_pos
          rw [heq]
          exact .cons hl (ih more.length (by omega) hmore rfl)
        rw [readText_cons, utf8Decode_zero a.toNat_lt] at h
        split_ifs at h with h₁ h₂ h₃ h₄ h₅ h₆ h₇ h₈ h₉
        · exact ⟨[a], rest, .one h₁, h, rfl⟩
        · rw [readText_reject] at h
          cases h
        · obtain ⟨b, more, rfl, hb, hmore⟩ := exists_expected (s := 2) (by omega) (by omega) h
          exact ⟨[a, b], more, .two (by omega) (by omega) hb, hmore, rfl⟩
        · obtain ⟨b, c, more, rfl, hb, hc, hmore⟩ :=
            exists_two_expected (s := 4) (by omega) (by omega) rfl h
          refine ⟨[a, b, c], more, .three ?_ hc, hmore, rfl⟩
          unfold Lead₃ Tail
          simp only [expected] at hb
          omega
        · obtain ⟨b, c, more, rfl, hb, hc, hmore⟩ :=
            exists_two_expected (s := 5) (by omega) (by omega) rfl h
          refine ⟨[a, b, c], more, .three ?_ hc, hmore, rfl⟩
          unfold Lead₃ Tail
          simp only [expected] at hb
          omega
        · obtain ⟨b, c, more, rfl, hb, hc, hmore⟩ :=
            exists_two_expected (s := 3) (by omega) (by omega) rfl h
          refine ⟨[a, b, c], more, .three ?_ hc, hmore, rfl⟩
          unfold Lead₃ Tail
          simp only [expected] at hb
          omega
        · obtain ⟨b, c, d, more, rfl, hb, hc, hd, hmore⟩ :=
            exists_three_expected (s := 6) (by omega) (by omega) rfl h
          refine ⟨[a, b, c, d], more, .four ?_ hc hd, hmore, rfl⟩
          unfold Lead₄ Tail
          simp only [expected] at hb
          omega
        · obtain ⟨b, c, d, more, rfl, hb, hc, hd, hmore⟩ :=
            exists_three_expected (s := 7) (by omega) (by omega) rfl h
          refine ⟨[a, b, c, d], more, .four ?_ hc hd, hmore, rfl⟩
          unfold Lead₄ Tail
          simp only [expected] at hb
          omega
        · obtain ⟨b, c, d, more, rfl, hb, hc, hd, hmore⟩ :=
            exists_three_expected (s := 8) (by omega) (by omega) rfl h
          refine ⟨[a, b, c, d], more, .four ?_ hc hd, hmore, rfl⟩
          unfold Lead₄ Tail
          simp only [expected] at hb
          omega
        · rw [readText_reject] at h
          cases h
  · rintro ⟨cs, rfl⟩
    induction cs with
    | nil => rfl
    | cons c cs ih =>
      rw [List.flatMap_cons, readText_character (character_of_char c)]
      exact ih

instance (bs : List UInt8) : Decidable (Utf8.Valid bs) :=
  decidable_of_iff (readText 0 bs = 0) readText_eq_zero_iff

/-- Bytes that lead back to the beginning of a character. -/
def completion : Nat → List UInt8
  | 2 => [0x80]
  | 3 => [0x80, 0x80]
  | 4 => [0xa0, 0x80]
  | 5 => [0x80, 0x80]
  | 6 => [0x90, 0x80, 0x80]
  | 7 => [0x80, 0x80, 0x80]
  | 8 => [0x80, 0x80, 0x80]
  | _ => []

open Utf8 in
theorem readText_eq_one_iff : readText 0 bs = 1 ↔ ¬ Extends bs := by
  constructor
  · rintro h ⟨more, hmore⟩
    rw [← readText_eq_zero_iff, readText_append, h, readText_reject] at hmore
    cases hmore
  · intro hnot
    by_contra hne
    have hcompletion : ∀ s < 9, s ≠ 1 → readText s (completion s) = 0 := by decide
    refine hnot ⟨completion (readText 0 bs), ?_⟩
    rw [← readText_eq_zero_iff, readText_append]
    exact hcompletion _ (readText_lt (by omega)) hne

/-! ## The verdicts -/

theorem validate_eq (hs : s ≠ 1) : validate s bs = (readText s bs,
    if readText s bs = 1 then .invalid else if readText s bs = 0 then .valid else .incomplete) := by
  induction bs generalizing s with
  | nil =>
    show (s, _) = (s, if s = 1 then _ else _)
    rw [if_neg hs]
    rfl
  | cons b bs ih =>
    rw [readText_cons]
    unfold validate
    dsimp only
    by_cases hreject : utf8Decode s b.toNat = UTF8_REJECT
    · rw [if_pos hreject, hreject]
      have h : readText UTF8_REJECT bs = 1 := readText_reject
      rw [h]
      rfl
    · rw [if_neg hreject]
      exact ih hreject

end Utf8Validator

end OverSip
