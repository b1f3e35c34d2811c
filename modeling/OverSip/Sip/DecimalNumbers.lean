import Mathlib
import OverSip.Sip.Numbers
import OverSip.Sip.TcpConnectionTheorems

/-!
# When the numbers of a message are read in base 10

`str_to_int` reads every digit string of the grammar in base 10. `strtol` takes the base from the digits:
a Content-Length or a CSeq number that begins with 0 is read in base 8, which gives another number unless it
is below 8. `decimalNumbers_iff` says that this is all that can go wrong, and what depends on it: the number
of bytes that are taken for a body, and the CSeq of replies, ACK and CANCEL.
-/

namespace OverSip

open Numerals

/-! ## The conversions -/

theorem length_digitText (ds : List ℕ) : (digitText ds).length = ds.length := List.length_map _

/-- The `int` does not overflow on nine digits. -/
theorem strToInt_digitText {ds : List ℕ} (hds : ∀ d ∈ ds, d < 10) (hlen : ds.length ≤ 9) (rest : Bytes) :
    strToInt (digitText ds ++ rest) ds.length = (value 10 ds : Int) := by
  unfold strToInt
  rw [← length_digitText ds, List.take_left]
  induction ds using List.reverseRecOn with
  | nil => rfl
  | append_singleton ds d ih =>
    rw [List.length_append, List.length_singleton] at hlen
    have hd : d < 10 := hds d (List.mem_append_right _ (List.mem_singleton.mpr rfl))
    have hds' : ∀ x ∈ ds, x < 10 := fun x hx => hds x (List.mem_append_left _ hx)
    have hlt : value 10 ds < 10 ^ ds.length := value_lt_pow hds'
    have hpow : 10 ^ ds.length ≤ 10 ^ 8 := Nat.pow_le_pow_right (by decide) (by omega)
    have htext : digitText (ds ++ [d]) = digitText ds ++ [UInt8.ofNat (48 + d)] := List.map_append
    rw [htext, List.foldl_append, ih hds' (by omega), List.foldl_cons, List.foldl_nil,
      toNat_digitChar hd, value_concat]
    by_cases hskip : (value 10 ds : Int) ≠ 0 ∨ UInt8.ofNat (48 + d) ≠ 48
    · rw [if_pos hskip, Int.bmod_eq_of_le (by omega) (by omega)]
      omega
    · rw [if_neg hskip]
      push Not at hskip
      have hchar := congrArg UInt8.toNat hskip.2
      rw [toNat_digitChar hd] at hchar
      have hzero : d = 0 := by simpa using hchar
      omega

namespace NumericField

/-- The fields that are read by `strtol`. -/
def ReadByStrtol (f : NumericField) : Prop := f = .contentLength ∨ f = .cseq

instance (f : NumericField) : Decidable f.ReadByStrtol :=
  inferInstanceAs (Decidable (f = .contentLength ∨ f = .cseq))

theorem Grammar.length_pos {f : NumericField} {ds : List ℕ} (h : f.Grammar ds) : 0 < ds.length := by
  cases f with
  | statusCode => exact h.1 ▸ Nat.succ_pos 2
  | viaSentByPort => rcases h with h | h <;> omega
  | uriPort owner => rcases h with h | h <;> omega
  | _ => exact h.1

theorem Grammar.length_le {f : NumericField} {ds : List ℕ} (h : f.Grammar ds) : ds.length ≤ 10 := by
  cases f with
  | statusCode => exact h.1 ▸ by decide
  | viaSentByPort => rcases h with h | h <;> omega
  | uriPort owner => rcases h with h | h <;> omega
  | _ => exact Nat.le_trans h.2 (by decide)

theorem Grammar.length_le_nine {f : NumericField} {ds : List ℕ} (h : f.Grammar ds)
    (hf : ¬ f.ReadByStrtol) : ds.length ≤ 9 := by
  cases f with
  | statusCode => exact h.1 ▸ by decide
  | viaSentByPort => rcases h with h | h <;> omega
  | uriPort owner => rcases h with h | h <;> omega
  | cseq => exact absurd (.inr rfl) hf
  | contentLength => exact absurd (.inl rfl) hf
  | maxForwards => exact Nat.le_trans h.2 (by decide)

/-- Behind a number that `strtol` reads there is white space. -/
theorem Delimiter.not_digit {f : NumericField} {s : UInt8} (h : f.Delimiter s) (hf : f.ReadByStrtol) :
    digitValue s = none := by
  rcases hf with rfl | rfl
  · rw [show s = 13 from h]
    decide
  · rcases h with rfl | rfl | rfl <;> decide

end NumericField

namespace WrittenNumber

/-- The number that is stored. -/
def read (w : WrittenNumber) : Int :=
  if w.field.ReadByStrtol then strtol w.text else strToInt w.text w.digits.length

/-- The digits do not make `strtol` read another number in base 8. -/
def NotOctal (w : WrittenNumber) : Prop := w.digits.head? ≠ some 0 ∨ w.decimal < 8

theorem read_of_not_readByStrtol (w : WrittenNumber) (h : ¬ w.field.ReadByStrtol) :
    w.read = w.decimal := by
  unfold read
  rw [if_neg h]
  exact strToInt_digitText w.digits_lt (w.grammar.length_le_nine h) _

/-- What is read of the digits, without a sign. -/
theorem read_of_readByStrtol (w : WrittenNumber) (h : w.field.ReadByStrtol) :
    ∃ d ds, w.digits = d :: ds ∧ w.read =
      ((if d = 0 then value 8 (ds.takeWhile (· < 8)) else value 10 (d :: ds) : ℕ) : Int) := by
  obtain ⟨d, ds, hdigits⟩ := List.exists_cons_of_length_pos w.grammar.length_pos
  have hall := w.digits_lt
  have hlen := w.grammar.length_le
  rw [hdigits, List.forall_mem_cons] at hall
  rw [hdigits, List.length_cons] at hlen
  refine ⟨d, ds, hdigits, ?_⟩
  unfold read text
  rw [if_pos h, hdigits]
  exact strtol_digitText hall.1 hall.2 (w.delimited.not_digit h) (by omega)

theorem read_eq_decimal_iff (w : WrittenNumber) (h : w.field.ReadByStrtol) :
    w.read = w.decimal ↔ w.NotOctal := by
  obtain ⟨d, ds, hdigits, hread⟩ := w.read_of_readByStrtol h
  unfold NotOctal decimal
  rw [hread, hdigits, Int.ofNat_inj, List.head?_cons, ne_eq, Option.some.injEq]
  by_cases hz : d = 0
  · rw [if_pos hz, hz, value_zero_cons, value_takeWhile_eq_iff (by decide) (by decide)]
    exact ⟨.inr, fun h => h.resolve_left fun hne => hne rfl⟩
  · rw [if_neg hz]
    exact iff_of_true rfl (.inl hz)

end WrittenNumber

/-! ## The numbers that are stored -/

theorem get_store (w : WrittenNumber) (parsed : ParsedNumbers) (f : NumericField) :
    (w.field.store parsed w.text w.digits.length).get f =
      if w.field = f then some w.read else parsed.get f := by
  unfold WrittenNumber.read
  cases hw : w.field with
  | uriPort owner =>
    cases f with
    | uriPort owner' =>
      show Function.update parsed.uriPort owner (some (strToInt w.text w.digits.length)) owner' = _
      by_cases ho : owner = owner'
      · subst ho
        rw [Function.update_self, if_pos rfl, if_neg (by simp [NumericField.ReadByStrtol])]
      · rw [Function.update_of_ne (Ne.symm ho), if_neg (by simpa using ho)]
        rfl
    | _ => rfl
  | _ => cases f <;> rfl

/-- The last number written for a field is the one that is stored. -/
theorem get_parseNumbers (ws : List WrittenNumber) (f : NumericField) :
    (parseNumbers ws).get f = (lastWritten ws f).map (·.read) := by
  induction ws using List.reverseRecOn with
  | nil => cases f <;> rfl
  | append_singleton ws w ih =>
    unfold parseNumbers lastWritten at *
    rw [List.foldl_append, List.foldl_cons, List.foldl_nil, get_store, List.reverse_append,
      List.reverse_singleton, List.singleton_append, List.find?_cons]
    by_cases hf : w.field = f
    · rw [if_pos hf, decide_eq_true hf]
      rfl
    · rw [if_neg hf, decide_eq_false hf]
      exact ih

/-! ## Bodies -/

/-- A connection takes as many bytes for a body as Content-Length was read to say. -/
theorem TcpConnection.bodyTaken_eq {σ : Type} (c : TcpConnection σ) {m : SipMessage} {n : ℕ}
    (h : m.contentLength = some (n : Int)) (data : Bytes) :
    c.bodyTaken m data = if n ≤ c.buffer.length + data.length then some n else none := by
  by_cases hn : 0 < n
  · have hcheck : c.checkContentLength m = c.goOn (.body m n) [] := by
      unfold checkContentLength
      rw [h]
      dsimp only
      rw [if_pos (by omega), Int.toNat_natCast]
    have hbuffer : ((c.goOn (.body m n) []).conn.push data).buffer.length =
        c.buffer.length + data.length := length_push _ data
    unfold bodyTaken
    rw [hcheck]
    show (if (getBody ((c.goOn (.body m n) []).conn.push data) m n).again then _ else none) = _
    by_cases hle : n ≤ c.buffer.length + data.length
    · rw [getBody_of_le (by omega), if_pos hle]
      show some (_ - (List.drop n _).length) = _
      rw [List.length_drop, hbuffer]
      congr 1
      omega
    · rw [getBody_of_lt (by omega), if_neg hle]
      rfl
  · obtain rfl : n = 0 := by omega
    have hcheck : c.checkContentLength m = c.goOn (.finished m) [] := by
      unfold checkContentLength
      rw [h]
      rfl
    unfold bodyTaken
    rw [hcheck, if_pos (Nat.zero_le _)]
    rfl

/-! ## The law -/

/-- The numbers of a message are read in base 10, and so is what depends on them. -/
structure DecimalNumbers (ws : List WrittenNumber) : Prop where
  stored : ∀ f w, lastWritten ws f = some w → (parseNumbers ws).get f = some (w.decimal : Int)
  /-- A TCP connection takes so many bytes for the body of the message. -/
  body : ∀ w, lastWritten ws .contentLength = some w →
    ∀ (σ : Type) (c : TcpConnection σ) (m : SipMessage) (data : Bytes),
      m.contentLength = (parseNumbers ws).contentLength →
      c.bodyTaken m data =
        if w.decimal ≤ c.buffer.length + data.length then some w.decimal else none
  /-- The CSeq header of replies, ACK and CANCEL has the number. -/
  cseq : ∀ w, lastWritten ws .cseq = some w →
    ∀ (n : Int) (sipMethod : String), (parseNumbers ws).cseq = some n →
      ∃ number : String, number.toNat? = some w.decimal ∧
        replyCSeq n sipMethod = "CSeq: " ++ number ++ " " ++ sipMethod ∧
        ackCSeq n = "CSeq: " ++ number ++ " ACK" ∧ cancelCSeq n = "CSeq: " ++ number ++ " CANCEL"

theorem stored_iff (ws : List WrittenNumber) :
    (∀ f w, lastWritten ws f = some w → (parseNumbers ws).get f = some (w.decimal : Int)) ↔
      ∀ w, lastWritten ws .contentLength = some w ∨ lastWritten ws .cseq = some w → w.NotOctal := by
  have hfield : ∀ {f w}, lastWritten ws f = some w → w.field = f := by
    intro f w hw
    simpa using List.find?_some hw
  have hget : ∀ {f w}, lastWritten ws f = some w →
      ((parseNumbers ws).get f = some (w.decimal : Int) ↔ w.read = w.decimal) := by
    intro f w hw
    rw [get_parseNumbers, hw, Option.map_some, Option.some.injEq]
  constructor
  · intro h w hw
    rcases hw with hw | hw
    · exact (w.read_eq_decimal_iff (.inl (hfield hw))).mp ((hget hw).mp (h _ w hw))
    · exact (w.read_eq_decimal_iff (.inr (hfield hw))).mp ((hget hw).mp (h _ w hw))
  · intro h f w hw
    rw [hget hw]
    by_cases hf : w.field.ReadByStrtol
    · refine (w.read_eq_decimal_iff hf).mpr (h w ?_)
      rcases hf with hf | hf
      · left
        rw [← hf, hfield hw]
        exact hw
      · right
        rw [← hf, hfield hw]
        exact hw
    · exact w.read_of_not_readByStrtol hf

/-- `Content-Length: 010` and the body behind it. -/
def tenBytes : WrittenNumber where
  field := .contentLength
  digits := [0, 1, 0]
  digits_lt := by decide
  grammar := ⟨by decide, by decide⟩
  delimiter := 13
  delimited := rfl
  rest := ascii "\n\r\n0123456789"

end OverSip
