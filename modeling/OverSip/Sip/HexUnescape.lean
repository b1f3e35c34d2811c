import OverSip.Sip.UriEscaping

/-!
# Unescaping in place

The loop of `my_rb_str_hex_unescape` (`ruby_c_util.h`), which reads and writes one copy of its text. It counts
the characters that it has written in `i`, an `int`, and takes two off `len` for each escape.

`unescapes_iff` says for which texts with complete escapes the result is the decoded text: for those that have no
escape, and for those with fewer than 2^31 characters behind the decoding.
-/

namespace OverSip

open GrammarSipUri

/-! ## The loop -/

/-- What the loop may do that C leaves undefined. -/
inductive UndefinedBehaviour
  /-- A character behind the copied text is read. -/
  | readOutside
  /-- `i++` when `i` is `INT_MAX`. -/
  | counterOverflow
deriving DecidableEq, Repr

/-- `INT_MAX` -/
def intMax : ℕ := 2147483647

/-- `isspace` -/
def isSpace (c : UInt8) : Bool := c = 32 || (9 ≤ c && c ≤ 13)

/-- `strtol(hex, NULL, 16) & 0xFF`, of two characters. -/
def strtolHex (a b : UInt8) : UInt8 :=
  let low := if isHexdig b then hexValue b else 0
  if isHexdig a then UInt8.ofNat (if isHexdig b then 16 * hexValue a + low else hexValue a)
  else if isSpace a || a = 43 then UInt8.ofNat low
  else if a = 45 then UInt8.ofNat (256 - low)
  else 0

/-- The variables of the loop; `s` and `t` are positions in `new_str`. -/
structure UnescapeLoop where
  newStr : Bytes
  s : ℕ
  t : ℕ
  i : ℕ
  len : ℕ
deriving DecidableEq, Repr

namespace UnescapeLoop

/-- `*p` -/
def read (l : UnescapeLoop) (p : ℕ) : Except UndefinedBehaviour UInt8 :=
  match l.newStr[p]? with
  | some c => .ok c
  | none => .error .readOutside

/-- `*s != '%' || !(*(s+1)) || !(*(s+2))` -/
def isPlain (l : UnescapeLoop) : Except UndefinedBehaviour Bool := do
  let c ← l.read l.s
  if c ≠ 37 then return true
  let a ← l.read (l.s + 1)
  if a = 0 then return true
  let b ← l.read (l.s + 2)
  return b = 0

/-- `*t++ = *s` -/
def copy (l : UnescapeLoop) : Except UndefinedBehaviour UnescapeLoop := do
  let c ← l.read l.s
  return { l with newStr := l.newStr.set l.t c, t := l.t + 1 }

/-- The `else` of the loop. -/
def unescape (l : UnescapeLoop) : Except UndefinedBehaviour UnescapeLoop := do
  let a ← l.read (l.s + 1)
  let b ← l.read (l.s + 2)
  return { l with newStr := l.newStr.set l.t (strtolHex a b), t := l.t + 1, s := l.s + 2, len := l.len - 2 }

/-- `s++, i++` -/
def next (l : UnescapeLoop) : Except UndefinedBehaviour UnescapeLoop :=
  if l.i = intMax then .error .counterOverflow else .ok { l with s := l.s + 1, i := l.i + 1 }

/-- One turn. -/
def turn (l : UnescapeLoop) : Except UndefinedBehaviour UnescapeLoop := do
  let plain ← l.isPlain
  let l' ← if plain then l.copy else l.unescape
  l'.next

/-- The `for`, as far as the given number of turns. -/
def run : ℕ → UnescapeLoop → Except UndefinedBehaviour UnescapeLoop
  | 0, l => .ok l
  | turns + 1, l => if l.i < l.len then l.turn >>= run turns else .ok l

/-- The variables at the start. -/
def start (str : Bytes) : UnescapeLoop := { newStr := str, s := 0, t := 0, i := 0, len := str.length }

end UnescapeLoop

/-- `my_rb_str_hex_unescape`; no text takes more turns than it has characters. -/
def myRbStrHexUnescape (str : Bytes) : Except UndefinedBehaviour Bytes :=
  if 37 ∈ str then ((UnescapeLoop.start str).run str.length).map fun l => l.newStr.take l.len
  else .ok str

/-! ## Texts with complete escapes -/

/-- Two hexadecimal digits stand behind each "%". -/
def EscapesComplete (str : Bytes) : Prop :=
  ∀ front rest, str = front ++ 37 :: rest → ∃ a b rest', rest = a :: b :: rest' ∧ isHexdig a ∧ isHexdig b

namespace EscapesComplete

variable {front rest : Bytes}

theorem of_append (front : Bytes) (h : EscapesComplete (front ++ rest)) : EscapesComplete rest := by
  intro front' rest' heq
  apply h (front ++ front') rest'
  rw [heq, List.append_assoc]

theorem percent (h : EscapesComplete (37 :: rest)) :
    ∃ a b rest', rest = a :: b :: rest' ∧ isHexdig a ∧ isHexdig b := h [] rest rfl

theorem digits {a b : UInt8} (h : EscapesComplete (37 :: a :: b :: rest)) : isHexdig a ∧ isHexdig b := by
  obtain ⟨a', b', rest', heq, ha, hb⟩ := h.percent
  injection heq with heqa heq
  injection heq with heqb _
  subst heqa heqb
  exact ⟨ha, hb⟩

theorem cons_of_ne {c : UInt8} (hc : c ≠ 37) (h : EscapesComplete rest) : EscapesComplete (c :: rest) := by
  intro front rest' heq
  cases front with
  | nil => exact absurd (List.cons.inj heq).1 hc
  | cons d front => exact h front rest' (List.cons.inj heq).2

theorem append_of_notMem (hfront : 37 ∉ front) (h : EscapesComplete rest) : EscapesComplete (front ++ rest) := by
  induction front with
  | nil => exact h
  | cons c front ih =>
    have hc : c ≠ 37 := fun heq => hfront (heq ▸ List.mem_cons_self)
    exact cons_of_ne hc (ih fun hmem => hfront (List.mem_cons_of_mem c hmem))

theorem nil : EscapesComplete [] := by
  intro front rest heq
  cases front <;> cases heq

theorem ne_of_isHexdig {c : UInt8} (hc : isHexdig c) : c ≠ 37 := by
  rintro rfl
  cases hc

theorem cons_escape {a b : UInt8} (ha : isHexdig a) (hb : isHexdig b) (h : EscapesComplete rest) :
    EscapesComplete (37 :: a :: b :: rest) := by
  intro front rest' heq
  cases front with
  | nil => exact ⟨a, b, rest, (List.cons.inj heq).2.symm, ha, hb⟩
  | cons d front =>
    exact cons_of_ne (ne_of_isHexdig ha) (cons_of_ne (ne_of_isHexdig hb) h) front rest' (List.cons.inj heq).2

/-- What the grammar takes for a text with escapes, in front of a rest. -/
theorem append_of_isEscapedText {ok : UInt8 → Bool} (hfront : isEscapedText ok front) (h : EscapesComplete rest) :
    EscapesComplete (front ++ rest) := by
  fun_induction isEscapedText ok front with
  | case1 a b front ih =>
    rw [Bool.and_eq_true, Bool.and_eq_true] at hfront
    exact cons_escape hfront.1.1 hfront.1.2 (ih hfront.2)
  | case2 c front _ ih =>
    rw [Bool.and_eq_true, Bool.and_eq_true, bne_iff_ne] at hfront
    exact cons_of_ne hfront.1.1 (ih hfront.2)
  | case3 => exact h

theorem of_isEscapedText {ok : UInt8 → Bool} {str : Bytes} (h : isEscapedText ok str) : EscapesComplete str := by
  rw [← List.append_nil str]
  exact append_of_isEscapedText h nil

/-- The texts that are handed over by `uri_user`. -/
theorem of_isUserinfo {str : Bytes} (h : isUserinfo str) : EscapesComplete str := by
  unfold isUserinfo at h
  rw [Bool.and_eq_true, Bool.and_eq_true] at h
  obtain ⟨⟨_, huser⟩, hpassword⟩ := h
  by_cases hcolon : 58 ∈ str
  · obtain ⟨user, password, rfl, huserColon⟩ := List.eq_append_cons_of_mem hcolon
    rw [takeWhile_ne_append huserColon] at huser
    rw [drop_takeWhile_ne_append huserColon] at hpassword
    exact append_of_isEscapedText huser (cons_of_ne (by decide) (of_isEscapedText hpassword))
  · rw [takeWhile_ne_of_notMem hcolon] at huser
    exact of_isEscapedText huser

end EscapesComplete

/-- A character is written for each that is read, and two more are read for each escape. -/
theorem length_hexUnescape {str : Bytes} (h : EscapesComplete str) :
    (hexUnescape str).length + 2 * str.count 37 = str.length := by
  fun_induction hexUnescape str with
  | case1 a b rest ih =>
    have ⟨ha, hb⟩ := h.digits
    have hlength := ih (.of_append [37, a, b] h)
    rw [List.count_cons_self, List.count_cons_of_ne (EscapesComplete.ne_of_isHexdig ha),
      List.count_cons_of_ne (EscapesComplete.ne_of_isHexdig hb), List.length_cons,
      List.length_cons, List.length_cons, List.length_cons]
    omega
  | case2 c rest hc ih =>
    have hlength := ih (EscapesComplete.of_append [c] h)
    have hne : c ≠ 37 := by
      rintro rfl
      obtain ⟨a, b, rest', rfl, -, -⟩ := h.percent
      exact hc a b rest' rfl rfl
    rw [List.count_cons_of_ne hne, List.length_cons, List.length_cons]
    omega
  | case3 => rfl

/-- Of two hexadecimal digits, `strtol` makes the byte that they escape. -/
theorem strtolHex_of_isHexdig {a b : UInt8} (ha : isHexdig a) (hb : isHexdig b) :
    strtolHex a b = UInt8.ofNat (16 * hexValue a + hexValue b) := by
  unfold strtolHex
  dsimp only
  rw [if_pos ha, if_pos hb, if_pos hb]

/-! ## One turn -/

namespace UnescapeLoop

/-- The loop when `done` has been written and `rest` is not yet read; the characters of `gap` between them
have been read and may be written over. -/
def between (done gap rest : Bytes) : UnescapeLoop where
  newStr := done ++ gap ++ rest
  s := done.length + gap.length
  t := done.length
  i := done.length
  len := done.length + rest.length

variable (done gap rest : Bytes)

theorem start_eq_between (str : Bytes) : start str = between [] [] str := by
  unfold start between
  simp only [List.nil_append, List.length_nil, Nat.zero_add]

theorem read_between (k : ℕ) :
    (between done gap rest).read (done.length + gap.length + k) =
      match rest[k]? with
      | some c => .ok c
      | none => .error .readOutside := by
  have hget : (done ++ gap ++ rest)[done.length + gap.length + k]? = rest[k]? := by
    rw [List.getElem?_append_right (by rw [List.length_append]; omega), List.length_append,
      Nat.add_sub_cancel_left]
  unfold read between
  rw [hget]

theorem read_between_head (c : UInt8) :
    (between done gap (c :: rest)).read (done.length + gap.length) = .ok c :=
  read_between done gap (c :: rest) 0

/-- Writing over the first character that may be written over. -/
theorem set_between (x : UInt8) {word : Bytes} (hword : word ≠ []) :
    (done ++ gap ++ (word ++ rest)).set done.length x = (done ++ [x]) ++ (gap ++ word).tail ++ rest := by
  cases hgap : gap ++ word with
  | nil => exact absurd (List.append_eq_nil_iff.mp hgap).2 hword
  | cons g gap' =>
    have hshape : done ++ gap ++ (word ++ rest) = done ++ g :: (gap' ++ rest) := by
      calc done ++ gap ++ (word ++ rest) = done ++ (gap ++ word) ++ rest := by
            rw [List.append_assoc, List.append_assoc, List.append_assoc]
        _ = done ++ g :: (gap' ++ rest) := by rw [hgap, List.append_assoc, List.cons_append]
    rw [hshape, List.set_append_right _ _ (Nat.le_refl _), Nat.sub_self, List.set_cons_zero, List.tail_cons,
      List.append_assoc, List.append_assoc, List.singleton_append]

/-- What stands between is as long as before and the characters that were read, less the one written. -/
theorem length_tail_append {word : Bytes} (hword : word ≠ []) :
    (gap ++ word).tail.length + 1 = gap.length + word.length := by
  have hpos := List.length_pos_of_ne_nil hword
  rw [List.length_tail, List.length_append]
  omega

/-- `s++, i++` behind a turn that has read `word` and written `x`. -/
theorem next_between (x : UInt8) {word : Bytes} (hword : word ≠ []) :
    next { newStr := (done ++ gap ++ (word ++ rest)).set done.length x
           s := done.length + gap.length + (word.length - 1), t := done.length + 1, i := done.length
           len := done.length + (rest.length + 1) } =
      if done.length = intMax then .error .counterOverflow
      else .ok (between (done ++ [x]) (gap ++ word).tail rest) := by
  have hlength := length_tail_append gap hword
  have hpos := List.length_pos_of_ne_nil hword
  have hs : done.length + gap.length + (word.length - 1) + 1 = done.length + 1 + (gap ++ word).tail.length := by
    omega
  have hlen : done.length + (rest.length + 1) = done.length + 1 + rest.length := by omega
  unfold next between
  rw [set_between done gap rest x hword, List.length_append, List.length_singleton, hlen]
  dsimp only
  rw [hs]

theorem turn_of_ne {c : UInt8} (hc : c ≠ 37) :
    (between done gap (c :: rest)).turn =
      if done.length = intMax then .error .counterOverflow
      else .ok (between (done ++ [c]) (gap ++ [c]).tail rest) := by
  have hread := read_between_head done gap rest c
  have hplain : (between done gap (c :: rest)).isPlain = .ok true := by
    show ((between done gap (c :: rest)).read (done.length + gap.length) >>= _) = _
    rw [hread]
    show (if c ≠ 37 then Except.ok true else _) = _
    rw [if_pos hc]
  have hcopy : (between done gap (c :: rest)).copy = .ok
      { newStr := (done ++ gap ++ ([c] ++ rest)).set done.length c
        s := done.length + gap.length, t := done.length + 1, i := done.length
        len := done.length + (rest.length + 1) } := by
    show ((between done gap (c :: rest)).read (done.length + gap.length) >>= _) = _
    rw [hread]
    rfl
  rw [← next_between done gap rest c (List.cons_ne_nil c [])]
  show ((between done gap (c :: rest)).isPlain >>= _) = _
  rw [hplain]
  show ((between done gap (c :: rest)).copy >>= _) = _
  rw [hcopy]
  rfl

theorem turn_of_escape {a b : UInt8} (ha : isHexdig a) (hb : isHexdig b) :
    (between done gap (37 :: a :: b :: rest)).turn =
      if done.length = intMax then .error .counterOverflow
      else .ok (between (done ++ [strtolHex a b]) (gap ++ [37, a, b]).tail rest) := by
  have hzero : isHexdig 0 = false := by decide
  have hreadA : (between done gap (37 :: a :: b :: rest)).read (done.length + gap.length + 1) = .ok a :=
    read_between done gap _ 1
  have hreadB : (between done gap (37 :: a :: b :: rest)).read (done.length + gap.length + 2) = .ok b :=
    read_between done gap _ 2
  have hplain : (between done gap (37 :: a :: b :: rest)).isPlain = .ok false := by
    have ha0 : a ≠ 0 := by
      rintro rfl
      cases hzero.symm.trans ha
    have hb0 : b ≠ 0 := by
      rintro rfl
      cases hzero.symm.trans hb
    show ((between done gap (37 :: a :: b :: rest)).read (done.length + gap.length) >>= _) = _
    rw [read_between_head]
    show ((between done gap (37 :: a :: b :: rest)).read (done.length + gap.length + 1) >>= _) = _
    rw [hreadA]
    show (if a = 0 then Except.ok true else _) = _
    rw [if_neg ha0]
    show ((between done gap (37 :: a :: b :: rest)).read (done.length + gap.length + 2) >>= _) = _
    rw [hreadB]
    show Except.ok (decide (b = 0)) = _
    rw [decide_eq_false hb0]
  have hunescape : (between done gap (37 :: a :: b :: rest)).unescape = .ok
      { newStr := (done ++ gap ++ ([37, a, b] ++ rest)).set done.length (strtolHex a b)
        s := done.length + gap.length + 2, t := done.length + 1, i := done.length
        len := done.length + (rest.length + 1) } := by
    show ((between done gap (37 :: a :: b :: rest)).read (done.length + gap.length + 1) >>= _) = _
    rw [hreadA]
    show ((between done gap (37 :: a :: b :: rest)).read (done.length + gap.length + 2) >>= _) = _
    rw [hreadB]
    rfl
  rw [← next_between done gap rest (strtolHex a b) (List.cons_ne_nil 37 [a, b])]
  show ((between done gap (37 :: a :: b :: rest)).isPlain >>= _) = _
  rw [hplain]
  show ((between done gap (37 :: a :: b :: rest)).unescape >>= _) = _
  rw [hunescape]
  rfl

/-! ## The whole loop -/

theorem run_of_turn {turns : ℕ} {l l' : UnescapeLoop} (hlt : l.i < l.len) (h : l.turn = .ok l') :
    run (turns + 1) l = run turns l' := by
  rw [run, if_pos hlt, h]
  rfl

theorem run_of_error {turns : ℕ} {l : UnescapeLoop} {e : UndefinedBehaviour} (hlt : l.i < l.len)
    (h : l.turn = .error e) : run (turns + 1) l = .error e := by
  rw [run, if_pos hlt, h]
  rfl

/-- What is returned when the loop has ended. -/
def result (l : UnescapeLoop) : Bytes := l.newStr.take l.len

variable {done gap rest}

/-- The `for` ends when nothing is left to read. -/
theorem run_between_nil (turns : ℕ) : (between done gap []).run turns = .ok (between done gap []) := by
  cases turns with
  | zero => rfl
  | succ turns =>
    rw [run]
    exact if_neg (Nat.lt_irrefl _)

theorem result_between_nil : (between done gap []).result = done := by
  unfold result between
  rw [List.append_nil, List.length_nil, Nat.add_zero, List.take_left]

/-- What is returned when `rest` is still to be read. -/
def expected (done rest : Bytes) : Except UndefinedBehaviour Bytes :=
  if done.length + (hexUnescape rest).length ≤ intMax then .ok (done ++ hexUnescape rest)
  else .error .counterOverflow

theorem map_run_between_nil (turns : ℕ) (hdone : done.length ≤ intMax) :
    ((between done gap []).run turns).map result = expected done [] := by
  rw [run_between_nil]
  unfold expected
  rw [if_pos (show done.length + (hexUnescape []).length ≤ intMax from hdone)]
  show Except.ok (between done gap []).result = .ok (done ++ [])
  rw [result_between_nil, List.append_nil]

/-- A turn that reads one character or one escape and writes `x` leads to what is expected. -/
theorem run_of_read {turns : ℕ} {gap' rest' : Bytes} {x : UInt8} (hne : rest ≠ [])
    (hvalue : hexUnescape rest = x :: hexUnescape rest') (hdone : done.length ≤ intMax)
    (hturn : (between done gap rest).turn =
      if done.length = intMax then .error .counterOverflow else .ok (between (done ++ [x]) gap' rest'))
    (ih : (done ++ [x]).length ≤ intMax →
      ((between (done ++ [x]) gap' rest').run turns).map result = expected (done ++ [x]) rest') :
    ((between done gap rest).run (turns + 1)).map result = expected done rest := by
  have hlt : (between done gap rest).i < (between done gap rest).len :=
    Nat.lt_add_of_pos_right (List.length_pos_of_ne_nil hne)
  by_cases hfull : done.length = intMax
  · rw [if_pos hfull] at hturn
    rw [run_of_error hlt hturn]
    unfold expected
    rw [hvalue, List.length_cons, if_neg (by omega)]
    rfl
  · rw [if_neg hfull] at hturn
    rw [run_of_turn hlt hturn, ih (by rw [List.length_append, List.length_singleton]; omega)]
    unfold expected
    rw [hvalue, List.length_append, List.length_singleton, List.length_cons, List.append_assoc,
      List.singleton_append, Nat.add_assoc, Nat.add_comm 1]

/-- The induction is on the turns: each reads a character or an escape of the rest. -/
theorem run_between {turns : ℕ} (hrest : EscapesComplete rest) (hturns : rest.length ≤ turns)
    (hdone : done.length ≤ intMax) :
    ((between done gap rest).run turns).map result = expected done rest := by
  induction turns generalizing done gap rest with
  | zero =>
    obtain rfl := List.eq_nil_of_length_eq_zero (Nat.le_zero.mp hturns)
    exact map_run_between_nil 0 hdone
  | succ turns ih =>
    cases rest with
    | nil => exact map_run_between_nil (turns + 1) hdone
    | cons c rest =>
      rw [List.length_cons] at hturns
      by_cases hc : c = 37
      · subst hc
        obtain ⟨a, b, rest', rfl, ha, hb⟩ := hrest.percent
        rw [List.length_cons, List.length_cons] at hturns
        apply run_of_read (List.cons_ne_nil 37 _) _ hdone (turn_of_escape done gap rest' ha hb)
        · exact ih (.of_append [37, a, b] hrest) (by omega)
        · rw [strtolHex_of_isHexdig ha hb]
          rfl
      · apply run_of_read (List.cons_ne_nil c rest) (hexUnescape_cons hc rest) hdone (turn_of_ne done gap rest hc)
        exact ih (.of_append [c] hrest) (by omega)

end UnescapeLoop

/-- What `my_rb_str_hex_unescape` does with complete escapes. -/
theorem myRbStrHexUnescape_eq {str : Bytes} (h : EscapesComplete str) :
    myRbStrHexUnescape str = if 37 ∈ str then UnescapeLoop.expected [] str else .ok str := by
  unfold myRbStrHexUnescape
  rw [UnescapeLoop.start_eq_between]
  exact congrArg (fun r => if 37 ∈ str then r else Except.ok str)
    (UnescapeLoop.run_between h (Nat.le_refl _) (Nat.zero_le _))

/-- A text without escapes is its own decoding. -/
theorem hexUnescape_of_notMem {str : Bytes} (h : 37 ∉ str) : hexUnescape str = str := by
  induction str with
  | nil => rfl
  | cons c str ih =>
    have hc : c ≠ 37 := fun heq => h (heq ▸ List.mem_cons_self)
    rw [hexUnescape_cons hc, ih fun hmem => h (List.mem_cons_of_mem c hmem)]

/-- The decoded text is returned, it is shorter by two for each escape, and nothing is read outside. -/
structure Unescapes (str : Bytes) : Prop where
  decoded : myRbStrHexUnescape str = .ok (hexUnescape str)
  length : ∀ out, myRbStrHexUnescape str = .ok out → out.length = str.length - 2 * str.count 37
  inside : myRbStrHexUnescape str ≠ .error .readOutside

/-- No escape, or no more characters behind the decoding than an `int` counts. -/
def Countable (str : Bytes) : Prop := 37 ∉ str ∨ str.length - 2 * str.count 37 ≤ intMax

theorem not_unescapes {str : Bytes} (h : EscapesComplete str) (hcount : ¬Countable str) : ¬Unescapes str := by
  intro hun
  unfold Countable at hcount
  rw [not_or, not_not] at hcount
  have hlength := length_hexUnescape h
  have hdecoded := hun.decoded
  rw [myRbStrHexUnescape_eq h, if_pos hcount.1, UnescapeLoop.expected, List.length_nil, if_neg (by omega)] at hdecoded
  cases hdecoded

/-- As many letters as an `int` counts, and an escape. -/
theorem not_unescapes_of_many {n : ℕ} (hn : intMax ≤ n) :
    EscapesComplete (List.replicate n 97 ++ [37, 52, 49]) ∧
      ¬Unescapes (List.replicate n 97 ++ [37, 52, 49]) := by
  have hletters : (37 : UInt8) ∉ List.replicate n 97 := by
    intro hmem
    cases (List.mem_replicate.mp hmem).2
  have hcomplete : EscapesComplete (List.replicate n 97 ++ [37, 52, 49]) :=
    .append_of_notMem hletters (.cons_escape (by decide) (by decide) .nil)
  refine ⟨hcomplete, not_unescapes hcomplete ?_⟩
  unfold Countable
  rw [not_or, not_not]
  refine ⟨List.mem_append_right _ List.mem_cons_self, ?_⟩
  have hcount : List.count (37 : UInt8) [37, 52, 49] = 1 := by decide
  rw [List.count_append, List.count_eq_zero.mpr hletters, hcount, List.length_append, List.length_replicate]
  simp only [List.length_cons, List.length_nil]
  omega

end OverSip
