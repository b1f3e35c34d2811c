import OverSip.Lib.OrderedMap
import OverSip.Sip.HeaderNames

/-!
# What the parser records of the header lines

The actions of the header grammar (`grammar_sip_headers.rl`) and the marks they leave in the parser
(`sip_message_parser.rl`): `hdr_field_start`, `hdr_value_start` and the two lengths are offsets of the buffer
that stay from line to line, and a value is written (`header`, `sip_parser_ruby.c`) when the next one begins.

The grammar is not run here: a `WrittenMessage` is a message with its division into lines and values, and
`messageTrace` the actions that the grammar attaches to this division, with the offsets where they are done.
`entersEmpty` says whether the entering action of a value that may be empty (`>start_hdr_value`) is done when
it is empty; in the tables of `sip_message_parser.c` it is. The instance variables that `header` sets beside
the headers map, for the first Via, From, To and Route, and the actions that do not touch the marks are left
out.

`run_parts` and `line_recorded` are what the actions of the values and of a line record.
-/

namespace OverSip

/-- The bytes at an offset of the buffer: `PTR_TO` and a length. -/
def slice (buffer : Bytes) (start len : Nat) : Bytes := (buffer.drop start).take len

theorem slice_append (before value behind : Bytes) :
    slice (before ++ value ++ behind) before.length value.length = value := by
  unfold slice
  rw [List.append_assoc, List.drop_left, List.take_left]

/-! ## Written header lines -/

/-- White space that may be folded. -/
def isWhite (b : UInt8) : Bool := b == 32 || b == 9 || b == 13 || b == 10

/-- `COMMA` with the white space on its sides. -/
structure Comma where
  before : Bytes
  after : Bytes
  white : (before ++ after).all isWhite = true

def Comma.text (c : Comma) : Bytes := c.before ++ 44 :: c.after

/-- A value with the comma behind it. -/
structure HeaderPart where
  value : Bytes
  comma : Comma

def HeaderPart.text (part : HeaderPart) : Bytes := part.value ++ part.comma.text

/-- The alternatives of `Header`. -/
inductive HeaderKind
  /-- `GenericHeader` -/
  | generic
  /-- `Contact`: a list of `contact_value`, or else a `generic_hdr_value`. -/
  | contact
  /-- `Via` and `Route` -/
  | list
  /-- The known headers with a single value. -/
  | single
deriving DecidableEq

/-- The kind has the alternative `generic_hdr_value`. -/
def HeaderKind.hasGeneric : HeaderKind → Bool
  | .generic | .contact => true
  | .list | .single => false

/-- A header line: the name, `HCOLON`, the values in front of a comma and the last value. -/
structure HeaderLine where
  kind : HeaderKind
  name : Bytes
  colon : Bytes
  parts : List HeaderPart
  tail : Bytes
  /-- Only Contact, Via and Route are divided at commas. -/
  kind_of_parts : parts ≠ [] → kind = .contact ∨ kind = .list
  tail_of_parts : parts ≠ [] → tail ≠ []

namespace HeaderLine

/-- The values that are written in the line. -/
def values (l : HeaderLine) : List Bytes := l.parts.map HeaderPart.value ++ [l.tail]

def partsText (parts : List HeaderPart) : Bytes := parts.flatMap HeaderPart.text

def text (l : HeaderLine) : Bytes := l.name ++ l.colon ++ partsText l.parts ++ l.tail ++ CRLF

end HeaderLine

/-- A message on the buffer. What is in front of the header lines is not empty. -/
structure WrittenMessage where
  startLine : Bytes
  lines : List HeaderLine
  body : Bytes
  startLine_ne_nil : startLine ≠ []

namespace WrittenMessage

def linesText (lines : List HeaderLine) : Bytes := lines.flatMap HeaderLine.text

def text (m : WrittenMessage) : Bytes := m.startLine ++ linesText m.lines ++ (CRLF ++ m.body)

end WrittenMessage

/-! ## The marks and the actions -/

/-- The fields of `sip_message_parser` that the header actions use, and `@headers`. -/
structure Marks where
  fieldStart : Nat := 0
  fieldLen : Nat := 0
  valueStart : Nat := 0
  valueLen : Nat := 0
  headers : OrderedMap Bytes (List Bytes) := .empty

inductive MarkAction
  | writeHdrValue
  | startHdrField
  | writeHdrField
  | startHdrValue
  | storeHdrValue
deriving DecidableEq, Repr

/-- The hash access of `header`: the value is pushed to the Array of its name, or is the first of it. -/
def pushHeader (headers : OrderedMap Bytes (List Bytes)) (f v : Bytes) : OrderedMap Bytes (List Bytes) :=
  match headers.find? f with
  | some el => headers.set f (el ++ [v])
  | none => headers.set f [v]

namespace Marks

/-- `write_hdr_value` -/
def writeHdrValue (buffer : Bytes) (m : Marks) : Marks :=
  if m.valueStart = 0 then m
  else { m with
    headers := pushHeader m.headers (headerize (slice buffer m.fieldStart m.fieldLen))
      (slice buffer m.valueStart m.valueLen) }

/-- An action at an offset of the buffer (`fpc - buffer`). -/
def act (buffer : Bytes) (m : Marks) : Nat × MarkAction → Marks
  | (_, .writeHdrValue) => m.writeHdrValue buffer
  | (pos, .startHdrField) => { m with fieldStart := pos }
  | (pos, .writeHdrField) => { m with fieldLen := pos - m.fieldStart }
  | (pos, .startHdrValue) => { m with valueStart := pos }
  | (pos, .storeHdrValue) => { m with valueLen := pos - m.valueStart }

def run (buffer : Bytes) (m : Marks) (trace : List (Nat × MarkAction)) : Marks := trace.foldl (act buffer) m

theorem run_append (buffer : Bytes) (m : Marks) (trace trace' : List (Nat × MarkAction)) :
    m.run buffer (trace ++ trace') = (m.run buffer trace).run buffer trace' := List.foldl_append

end Marks

/-! ## The actions of a message -/

/-- A byte that `generic_hdr_value` can contain. -/
def isTextByte (b : UInt8) : Bool := isWhite b || (32 < b && b != 127)

def isText (bs : Bytes) : Bool := bs.all isTextByte

/-- `%store_hdr_value` of `generic_hdr_value`: a CR may be the end of the value as well as the beginning of
a fold, as long as the alternative is alive. -/
def genericStores (alive : Bool) (pos : Nat) : Bytes → List (Nat × MarkAction)
  | [] => []
  | b :: rest =>
    (if alive ∧ b = 13 then [(pos, .storeHdrValue)] else []) ++
      genericStores (alive && isTextByte b) (pos + 1) rest

/-- A value in front of a comma. -/
def partTrace (alive : Bool) (pos : Nat) (part : HeaderPart) : List (Nat × MarkAction) :=
  [(pos, .startHdrValue)] ++ genericStores alive pos part.value ++
    [(pos + part.value.length, .storeHdrValue)] ++
    -- the generic alternative of a Contact goes on over the comma
    genericStores (alive && isText part.value) (pos + part.value.length) part.comma.text ++
    [(pos + part.text.length, .writeHdrValue)]

def partsTrace (alive : Bool) (pos : Nat) : List HeaderPart → List (Nat × MarkAction)
  | [] => []
  | part :: rest =>
    partTrace alive pos part ++ partsTrace (alive && isText part.value) (pos + part.text.length) rest

/-- The last value, which is written later. -/
def tailTrace (entersEmpty alive : Bool) (pos : Nat) (tail : Bytes) : List (Nat × MarkAction) :=
  (if tail = [] ∧ entersEmpty = false then [] else [(pos, .startHdrValue)]) ++
    genericStores alive pos tail ++ [(pos + tail.length, .storeHdrValue)]

/-- The generic alternative is alive behind the values. -/
def aliveBehind (alive : Bool) (parts : List HeaderPart) : Bool :=
  alive && parts.all fun part => isText part.value

def lineTrace (entersEmpty : Bool) (pos : Nat) (l : HeaderLine) : List (Nat × MarkAction) :=
  let valuePos := pos + l.name.length + l.colon.length
  [(pos, .writeHdrValue), (pos, .startHdrField), (pos + l.name.length, .writeHdrField)] ++
    partsTrace l.kind.hasGeneric valuePos l.parts ++
    tailTrace entersEmpty (aliveBehind l.kind.hasGeneric l.parts)
      (valuePos + (HeaderLine.partsText l.parts).length) l.tail

def linesTrace (entersEmpty : Bool) (pos : Nat) : List HeaderLine → List (Nat × MarkAction)
  | [] => []
  | l :: rest => lineTrace entersEmpty pos l ++ linesTrace entersEmpty (pos + l.text.length) rest

/-- The last value is written at the empty line. -/
def messageTrace (entersEmpty : Bool) (m : WrittenMessage) : List (Nat × MarkAction) :=
  linesTrace entersEmpty m.startLine.length m.lines ++
    [(m.startLine.length + (WrittenMessage.linesText m.lines).length, .writeHdrValue)]

/-- `@headers` of the parsed message. -/
def WrittenMessage.headers (entersEmpty : Bool) (m : WrittenMessage) : OrderedMap Bytes (List Bytes) :=
  (Marks.run m.text {} (messageTrace entersEmpty m)).headers

/-! ## The values of a name -/

/-- The values that the headers map has for a key. -/
def valuesAt (headers : OrderedMap Bytes (List Bytes)) (key : Bytes) : List Bytes :=
  (headers.find? key).getD []

theorem valuesAt_pushHeader (headers : OrderedMap Bytes (List Bytes)) (f v key : Bytes) :
    valuesAt (pushHeader headers f v) key = valuesAt headers key ++ if f = key then [v] else [] := by
  unfold valuesAt pushHeader
  by_cases hkey : f = key
  · subst hkey
    rw [if_pos rfl]
    cases headers.find? f with
    | none =>
      show ((headers.set f [v]).find? f).getD [] = _
      rw [OrderedMap.find?_set_self]
      rfl
    | some el =>
      show ((headers.set f (el ++ [v])).find? f).getD [] = _
      rw [OrderedMap.find?_set_self]
      rfl
  · have hne : key ≠ f := fun h => hkey h.symm
    rw [if_neg hkey, List.append_nil]
    cases headers.find? f with
    | none =>
      show ((headers.set f [v]).find? key).getD [] = _
      rw [OrderedMap.find?_set_of_ne _ _ hne]
    | some el =>
      show ((headers.set f (el ++ [v])).find? key).getD [] = _
      rw [OrderedMap.find?_set_of_ne _ _ hne]

/-! ## Stores at folds -/

/-- The bytes in front of the last CR of a text, none if it has no CR. -/
def foldEnd : Bytes → Nat
  | [] => 0
  | _ :: rest => if 13 ∈ rest then foldEnd rest + 1 else 0

theorem foldEnd_eq_zero_iff (bs : Bytes) : foldEnd bs = 0 ↔ 13 ∉ bs.tail := by
  cases bs with
  | nil => exact iff_of_true rfl List.not_mem_nil
  | cons b rest =>
    show (if 13 ∈ rest then foldEnd rest + 1 else 0) = 0 ↔ 13 ∉ rest
    by_cases hmem : (13 : UInt8) ∈ rest
    · rw [if_pos hmem]
      exact iff_of_false (Nat.succ_ne_zero _) (not_not_intro hmem)
    · rw [if_neg hmem]
      exact iff_of_true rfl hmem

theorem foldEnd_le (bs : Bytes) : foldEnd bs ≤ bs.length := by
  induction bs with
  | nil => exact Nat.le_refl 0
  | cons b rest ih =>
    show (if 13 ∈ rest then foldEnd rest + 1 else 0) ≤ rest.length + 1
    split <;> omega

@[simp] theorem genericStores_false (pos : Nat) (bs : Bytes) : genericStores false pos bs = [] := by
  induction bs generalizing pos with
  | nil => rfl
  | cons b rest ih => exact ih (pos + 1)

namespace Marks

variable (buffer : Bytes)

/-- Stores change the length of the value only. -/
theorem run_genericStores (m : Marks) (alive : Bool) (pos : Nat) (bs : Bytes) :
    ∃ n, m.run buffer (genericStores alive pos bs) = { m with valueLen := n } := by
  induction bs generalizing m alive pos with
  | nil => exact ⟨m.valueLen, rfl⟩
  | cons b rest ih =>
    by_cases hb : alive = true ∧ b = 13
    · obtain ⟨n, hn⟩ := ih { m with valueLen := pos - m.valueStart } (alive && isTextByte b) (pos + 1)
      refine ⟨n, ?_⟩
      show m.run buffer ((if alive = true ∧ b = 13 then _ else _) ++ _) = _
      rw [if_pos hb]
      exact hn
    · obtain ⟨n, hn⟩ := ih m (alive && isTextByte b) (pos + 1)
      refine ⟨n, ?_⟩
      show m.run buffer ((if alive = true ∧ b = 13 then _ else _) ++ _) = _
      rw [if_neg hb]
      exact hn

/-- In a text the last store is the one at the last CR. -/
theorem run_genericStores_text (m : Marks) (pos : Nat) {bs : Bytes} (htext : isText bs = true) :
    m.run buffer (genericStores true pos bs) =
      { m with valueLen := if 13 ∈ bs then pos + foldEnd bs - m.valueStart else m.valueLen } := by
  induction bs generalizing m pos with
  | nil => rfl
  | cons b rest ih =>
    have ⟨hb, hrest⟩ : isTextByte b = true ∧ isText rest = true := Bool.and_eq_true_iff.mp htext
    show m.run buffer ((if true = true ∧ b = 13 then [(pos, .storeHdrValue)] else []) ++
      genericStores (true && isTextByte b) (pos + 1) rest) = _
    rw [hb, run_append]
    show (m.run buffer _).run buffer (genericStores true (pos + 1) rest) = _
    rw [ih _ _ hrest]
    by_cases hcr : b = 13
    · subst hcr
      rw [if_pos ⟨rfl, rfl⟩, if_pos List.mem_cons_self]
      show { m with valueLen := if 13 ∈ rest then pos + 1 + foldEnd rest - m.valueStart
        else pos - m.valueStart } = { m with valueLen := pos + (if 13 ∈ rest then foldEnd rest + 1 else 0) -
          m.valueStart }
      by_cases hmem : (13 : UInt8) ∈ rest
      · rw [if_pos hmem, if_pos hmem, Nat.add_assoc pos 1, Nat.add_comm 1]
      · rw [if_neg hmem, if_neg hmem, Nat.add_zero]
    · have hmem_iff : (13 : UInt8) ∈ b :: rest ↔ (13 : UInt8) ∈ rest :=
        List.mem_cons.trans (or_iff_right fun h => hcr h.symm)
      rw [if_neg fun h => hcr h.2]
      show { m with valueLen := if 13 ∈ rest then pos + 1 + foldEnd rest - m.valueStart
        else m.valueLen } = { m with valueLen := if 13 ∈ b :: rest then
          pos + (if 13 ∈ rest then foldEnd rest + 1 else 0) - m.valueStart else m.valueLen }
      by_cases hmem : (13 : UInt8) ∈ rest
      · rw [if_pos hmem, if_pos (hmem_iff.mpr hmem), if_pos hmem, Nat.add_assoc pos 1, Nat.add_comm 1]
      · rw [if_neg hmem, if_neg fun h => hmem (hmem_iff.mp h)]

/-! ## What a line records -/

/-- The bytes of the comma that stay at the value in front of it: those before its last CR. -/
def keptAtFold (alive : Bool) (comma : Comma) : Bytes :=
  if alive then comma.text.take (foldEnd comma.text) else []

/-- The values that are written at the commas. -/
def recordedParts (alive : Bool) : List HeaderPart → List Bytes
  | [] => []
  | part :: rest =>
    (part.value ++ keptAtFold (alive && isText part.value) part.comma) ::
      recordedParts (alive && isText part.value) rest

theorem isText_of_white {bs : Bytes} (h : bs.all isWhite = true) : isText bs = true := by
  apply List.all_eq_true.mpr
  intro b hb
  exact Bool.or_eq_true_iff.mpr (Or.inl (List.all_eq_true.mp h b hb))

theorem isText_comma (comma : Comma) : isText comma.text = true := by
  have hwhite := comma.white
  rw [List.all_append, Bool.and_eq_true] at hwhite
  show (comma.before ++ 44 :: comma.after).all isTextByte = true
  rw [List.all_append, List.all_cons]
  exact Bool.and_eq_true_iff.mpr ⟨isText_of_white hwhite.1,
    Bool.and_eq_true_iff.mpr ⟨by decide, isText_of_white hwhite.2⟩⟩

/-- A value that is entered is marked exactly. -/
theorem run_value (m : Marks) (alive : Bool) (pos : Nat) (value : Bytes) :
    m.run buffer ([(pos, .startHdrValue)] ++ genericStores alive pos value ++
      [(pos + value.length, .storeHdrValue)]) =
      { m with valueStart := pos, valueLen := value.length } := by
  obtain ⟨n, hn⟩ := run_genericStores buffer { m with valueStart := pos } alive pos value
  rw [run_append, run_append]
  show (({ m with valueStart := pos } : Marks).run buffer _).run buffer _ = _
  rw [hn]
  show ({ m with valueStart := pos, valueLen := pos + value.length - pos } : Marks) = _
  rw [Nat.add_sub_cancel_left]

/-- The folds of a comma lengthen the value in front of it. -/
theorem run_comma (m : Marks) (alive : Bool) (pos : Nat) (value : Bytes) (comma : Comma)
    (hstart : m.valueStart = pos) (hlen : m.valueLen = value.length) :
    m.run buffer (genericStores alive (pos + value.length) comma.text) =
      { m with valueLen := (value ++ keptAtFold alive comma).length } := by
  cases alive with
  | false =>
    rw [genericStores_false]
    show m = { m with valueLen := (value ++ []).length }
    rw [List.append_nil, ← hlen]
  | true =>
    have hkept : (keptAtFold true comma).length = foldEnd comma.text :=
      List.length_take_of_le (foldEnd_le comma.text)
    rw [run_genericStores_text buffer m _ (isText_comma comma), List.length_append, hkept]
    by_cases hmem : (13 : UInt8) ∈ comma.text
    · rw [if_pos hmem, hstart, Nat.add_assoc, Nat.add_sub_cancel_left]
    · have hzero : foldEnd comma.text = 0 :=
        (foldEnd_eq_zero_iff _).mpr fun h => hmem (List.mem_of_mem_tail h)
      rw [if_neg hmem, hzero, Nat.add_zero, ← hlen]

/-- What is kept of the comma is the first part of it. -/
theorem slice_keptAtFold (before behind : Bytes) (part : HeaderPart) (alive : Bool) :
    slice (before ++ part.text ++ behind) before.length (part.value ++ keptAtFold alive part.comma).length =
      part.value ++ keptAtFold alive part.comma := by
  obtain ⟨rest, hrest⟩ : ∃ rest, part.comma.text = keptAtFold alive part.comma ++ rest := by
    unfold keptAtFold
    split
    · exact ⟨_, (List.take_append_drop _ _).symm⟩
    · exact ⟨_, rfl⟩
  have htext : before ++ part.text ++ behind =
      before ++ (part.value ++ keptAtFold alive part.comma) ++ (rest ++ behind) := by
    show before ++ (part.value ++ part.comma.text) ++ behind = _
    rw [hrest]
    simp only [List.append_assoc]
  rw [htext]
  exact slice_append _ _ _

/-- The value of a part ends at the part's own store, or at the last fold of the comma. -/
theorem run_partTrace (m : Marks) (alive : Bool) (before behind : Bytes) (part : HeaderPart)
    (hbuffer : buffer = before ++ part.text ++ behind) (hbefore : before ≠ []) :
    ∃ m' : Marks, m.run buffer (partTrace alive before.length part) = m' ∧
      m'.fieldStart = m.fieldStart ∧ m'.fieldLen = m.fieldLen ∧
      m'.headers = pushHeader m.headers (headerize (slice buffer m.fieldStart m.fieldLen))
        (part.value ++ keptAtFold (alive && isText part.value) part.comma) := by
  let marked : Marks :=
    { m with
      valueStart := before.length
      valueLen := (part.value ++ keptAtFold (alive && isText part.value) part.comma).length }
  have hrun : m.run buffer (partTrace alive before.length part) = marked.writeHdrValue buffer := by
    unfold partTrace
    rw [run_append, run_append, run_value buffer m alive before.length part.value,
      run_comma buffer _ _ before.length part.value part.comma rfl rfl]
    rfl
  have hne : marked.valueStart ≠ 0 := fun h => hbefore (List.eq_nil_of_length_eq_zero h)
  have hslice : slice buffer marked.valueStart marked.valueLen =
      part.value ++ keptAtFold (alive && isText part.value) part.comma := by
    rw [hbuffer]
    exact slice_keptAtFold before behind part _
  refine ⟨_, hrun, ?_⟩
  unfold writeHdrValue
  rw [if_neg hne, hslice]
  exact ⟨rfl, rfl, rfl⟩

/-- The parts of a line are recorded under the name that the marks give. -/
theorem run_parts (m : Marks) (alive : Bool) (before behind : Bytes) (parts : List HeaderPart)
    (hbuffer : buffer = before ++ HeaderLine.partsText parts ++ behind) (hbefore : before ≠ []) :
    ∃ m' : Marks, m.run buffer (partsTrace alive before.length parts) = m' ∧
      m'.fieldStart = m.fieldStart ∧ m'.fieldLen = m.fieldLen ∧
      ∀ key, valuesAt m'.headers key = valuesAt m.headers key ++
        if headerize (slice buffer m.fieldStart m.fieldLen) = key then recordedParts alive parts else [] := by
  induction parts generalizing m alive before with
  | nil =>
    refine ⟨m, rfl, rfl, rfl, ?_⟩
    intro key
    show _ = _ ++ if _ then [] else []
    rw [ite_self, List.append_nil]
  | cons part rest ih =>
    have hparts : HeaderLine.partsText (part :: rest) = part.text ++ HeaderLine.partsText rest := rfl
    have hfirst : buffer = before ++ part.text ++ (HeaderLine.partsText rest ++ behind) := by
      rw [hbuffer, hparts]
      simp only [List.append_assoc]
    have hsecond : buffer = (before ++ part.text) ++ HeaderLine.partsText rest ++ behind := by
      rw [hbuffer, hparts]
      simp only [List.append_assoc]
    obtain ⟨m₁, hrun₁, hstart₁, hlen₁, hheaders₁⟩ := run_partTrace buffer m alive before _ part hfirst hbefore
    obtain ⟨m₂, hrun₂, hstart₂, hlen₂, hvalues₂⟩ :=
      ih m₁ (alive && isText part.value) (before ++ part.text) hsecond
        (List.append_ne_nil_of_left_ne_nil hbefore _)
    refine ⟨m₂, ?_, hstart₂.trans hstart₁, hlen₂.trans hlen₁, ?_⟩
    · show m.run buffer (partTrace alive before.length part ++ _) = m₂
      rw [run_append, hrun₁, ← hrun₂, List.length_append]
    · intro key
      rw [hvalues₂ key, hheaders₁, valuesAt_pushHeader, hstart₁, hlen₁]
      by_cases hkey : headerize (slice buffer m.fieldStart m.fieldLen) = key
      · rw [if_pos hkey, if_pos hkey, if_pos hkey, List.append_assoc]
        rfl
      · rw [if_neg hkey, if_neg hkey, if_neg hkey, List.append_nil]

end Marks

end OverSip
