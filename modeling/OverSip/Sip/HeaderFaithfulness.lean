import OverSip.Sip.HeaderMarks

/-!
# Faithful headers

When the headers map has for each name the values that are written in the lines of this name.

A line is recorded as it is written if its marks are refreshed (`HeaderLine.Refreshed`): its last value is
entered, and no comma of a Contact has a fold behind its first byte while `generic_hdr_value` is alive.
`faithful_iff` says that nothing else is needed and nothing less is enough.
-/

namespace OverSip

/-! ## Lists of blocks -/

theorem length_flatMap_le {α β : Type} {l : List α} {f g : α → List β}
    (h : ∀ a ∈ l, (f a).length ≤ (g a).length) : (l.flatMap f).length ≤ (l.flatMap g).length := by
  induction l with
  | nil => exact Nat.le_refl 0
  | cons a rest ih =>
    rw [List.flatMap_cons, List.flatMap_cons, List.length_append, List.length_append]
    exact Nat.add_le_add (h a List.mem_cons_self) (ih fun b hb => h b (List.mem_cons_of_mem a hb))

/-- Blocks that are not longer than others are these if they are the same one behind the other. -/
theorem flatMap_eq_iff {α β : Type} {l : List α} {f g : α → List β}
    (hlength : ∀ a ∈ l, (f a).length ≤ (g a).length) :
    l.flatMap f = l.flatMap g ↔ ∀ a ∈ l, f a = g a := by
  constructor
  · intro h
    induction l with
    | nil => exact fun a ha => absurd ha List.not_mem_nil
    | cons b rest ih =>
      have hle : ∀ a ∈ rest, (f a).length ≤ (g a).length := fun a ha => hlength a (List.mem_cons_of_mem b ha)
      have hb : (f b).length ≤ (g b).length := hlength b List.mem_cons_self
      rw [List.flatMap_cons, List.flatMap_cons] at h
      -- the rest cannot make up for a shorter block
      have hrest : (rest.flatMap f).length ≤ (rest.flatMap g).length := length_flatMap_le hle
      have htotal := congrArg List.length h
      rw [List.length_append, List.length_append] at htotal
      have heq : (f b).length = (g b).length := by omega
      obtain ⟨hfirst, hsecond⟩ := List.append_inj h heq
      intro a ha
      rcases List.mem_cons.mp ha with rfl | ha
      · exact hfirst
      · exact ih hle hsecond a ha
  · intro h
    exact List.flatMap_congr h

/-! ## The condition -/

/-- No comma lengthens the value in front of it: a comma that `generic_hdr_value` reaches alive has no CR
behind its first byte. -/
def PartsUnfolded (alive : Bool) : List HeaderPart → Prop
  | [] => True
  | part :: rest =>
    ((alive && isText part.value) = true → 13 ∉ part.comma.text.tail) ∧
      PartsUnfolded (alive && isText part.value) rest

/-- The marks of the line are refreshed for each of its values. -/
structure HeaderLine.Refreshed (entersEmpty : Bool) (l : HeaderLine) : Prop where
  unfolded : PartsUnfolded l.kind.hasGeneric l.parts
  entered : l.tail ≠ [] ∨ entersEmpty = true

namespace Marks

theorem length_recordedParts (alive : Bool) (parts : List HeaderPart) :
    (recordedParts alive parts).length = parts.length := by
  induction parts generalizing alive with
  | nil => rfl
  | cons part rest ih => exact congrArg (· + 1) (ih _)

theorem keptAtFold_eq_nil_iff (alive : Bool) (comma : Comma) :
    keptAtFold alive comma = [] ↔ (alive = true → 13 ∉ comma.text.tail) := by
  unfold keptAtFold
  cases alive with
  | false => exact iff_of_true rfl fun h => absurd h Bool.false_ne_true
  | true =>
    rw [if_pos rfl, List.take_eq_nil_iff, foldEnd_eq_zero_iff]
    have hne : comma.text ≠ [] := List.append_ne_nil_of_right_ne_nil _ (List.cons_ne_nil _ _)
    constructor
    · rintro (hfold | hnil)
      · exact fun _ => hfold
      · exact absurd hnil hne
    · intro h
      exact Or.inl (h rfl)

theorem recordedParts_eq_iff (alive : Bool) (parts : List HeaderPart) :
    recordedParts alive parts = parts.map HeaderPart.value ↔ PartsUnfolded alive parts := by
  induction parts generalizing alive with
  | nil => exact iff_of_true rfl trivial
  | cons part rest ih =>
    show (part.value ++ keptAtFold (alive && isText part.value) part.comma) :: recordedParts _ rest =
      part.value :: rest.map HeaderPart.value ↔ _ ∧ _
    rw [List.cons.injEq, ih, List.append_right_eq_self, keptAtFold_eq_nil_iff]

/-! ## One line -/

variable (buffer : Bytes)

/-- The values that a write in this state would leave for a key. -/
def writtenAt (m : Marks) (key : Bytes) : List Bytes := valuesAt (m.writeHdrValue buffer).headers key

/-- The name of the line is marked, and what was pending is written. -/
theorem run_name (m : Marks) (pos : Nat) (name : Bytes) :
    m.run buffer [(pos, .writeHdrValue), (pos, .startHdrField), (pos + name.length, .writeHdrField)] =
      { m.writeHdrValue buffer with
        fieldStart := pos
        fieldLen := name.length } := by
  show ({ m.writeHdrValue buffer with
    fieldStart := pos
    fieldLen := pos + name.length - pos } : Marks) = _
  rw [Nat.add_sub_cancel_left]

@[simp] theorem writeHdrValue_valueStart (m : Marks) : (m.writeHdrValue buffer).valueStart = m.valueStart := by
  unfold writeHdrValue
  split <;> rfl

theorem writtenAt_of_valueStart_ne {m : Marks} (h : m.valueStart ≠ 0) (key : Bytes) :
    m.writtenAt buffer key = valuesAt m.headers key ++
      if headerize (slice buffer m.fieldStart m.fieldLen) = key then [slice buffer m.valueStart m.valueLen]
      else [] := by
  unfold writtenAt writeHdrValue
  rw [if_neg h]
  exact valuesAt_pushHeader _ _ _ _

theorem writtenAt_of_valueStart_eq {m : Marks} (h : m.valueStart = 0) (key : Bytes) :
    m.writtenAt buffer key = valuesAt m.headers key := by
  unfold writtenAt writeHdrValue
  rw [if_pos h]

/-- The last value of a line that is entered is recorded as it is written. -/
theorem tail_recorded {entersEmpty : Bool} (m : Marks) (alive : Bool) (before tail behind : Bytes)
    (hbuffer : buffer = before ++ tail ++ behind) (hbefore : before ≠ [])
    (hentered : tail ≠ [] ∨ entersEmpty = true) :
    ∃ m' : Marks, m.run buffer (tailTrace entersEmpty alive before.length tail) = m' ∧
      m'.valueStart = before.length ∧
      ∀ key, m'.writtenAt buffer key = valuesAt m.headers key ++
        if headerize (slice buffer m.fieldStart m.fieldLen) = key then [tail] else [] := by
  have hcond : ¬(tail = [] ∧ entersEmpty = false) := by
    rintro ⟨hnil, hfalse⟩
    rcases hentered with hne | htrue
    · exact hne hnil
    · exact Bool.false_ne_true (hfalse.symm.trans htrue)
  refine ⟨{ m with valueStart := before.length, valueLen := tail.length }, ?_, rfl, ?_⟩
  · unfold tailTrace
    rw [if_neg hcond]
    exact run_value buffer m alive before.length tail
  · intro key
    have hne : before.length ≠ 0 := fun h => hbefore (List.eq_nil_of_length_eq_zero h)
    have hslice : slice buffer before.length tail.length = tail := by
      rw [hbuffer]
      exact slice_append _ _ _
    rw [writtenAt_of_valueStart_ne buffer hne]
    show valuesAt m.headers key ++ (if _ then [slice buffer before.length tail.length] else []) = _
    rw [hslice]

/-- Without an entering action the mark of an older value stays: the value that is recorded begins there, or
nothing is recorded if there is no older value. It is never the empty value. -/
theorem empty_tail_recorded (m : Marks) (alive : Bool) (before behind : Bytes)
    (hbuffer : buffer = before ++ behind) (hstart : m.valueStart < before.length) :
    ∃ m' : Marks, m.run buffer (tailTrace false alive before.length []) = m' ∧
      m'.valueStart = m.valueStart ∧
      ∃ recorded : List Bytes, recorded.length ≤ 1 ∧ recorded ≠ [[]] ∧
        ∀ key, m'.writtenAt buffer key = valuesAt m.headers key ++
          if headerize (slice buffer m.fieldStart m.fieldLen) = key then recorded else [] := by
  let stored : Marks := { m with valueLen := before.length - m.valueStart }
  refine ⟨stored, rfl, rfl, ?_⟩
  by_cases hzero : m.valueStart = 0
  · refine ⟨[], Nat.zero_le 1, List.cons_ne_nil _ _ |>.symm, ?_⟩
    intro key
    have hstored : stored.valueStart = 0 := hzero
    rw [writtenAt_of_valueStart_eq buffer hstored, ite_self, List.append_nil]
  · refine ⟨[slice buffer m.valueStart (before.length - m.valueStart)], Nat.le_refl 1, ?_, ?_⟩
    · intro h
      have hnil : slice buffer m.valueStart (before.length - m.valueStart) = [] := List.head_eq_of_cons_eq h
      have hlength := congrArg List.length hnil
      have hbuf : buffer.length = before.length + behind.length := by rw [hbuffer, List.length_append]
      unfold slice at hlength
      rw [List.length_take, List.length_drop, List.length_nil] at hlength
      omega
    · intro key
      have hstored : stored.valueStart ≠ 0 := hzero
      exact writtenAt_of_valueStart_ne buffer hstored key

/-- What a line records: as many values as are written in it at most, and these ones exactly if its marks are
refreshed. -/
structure Recorded (entersEmpty : Bool) (l : HeaderLine) (recorded : List Bytes) : Prop where
  length_le : recorded.length ≤ l.values.length
  eq_iff : recorded = l.values ↔ l.Refreshed entersEmpty

theorem line_recorded (entersEmpty : Bool) (m : Marks) (before behind : Bytes) (l : HeaderLine)
    (hbuffer : buffer = before ++ l.text ++ behind) (hbefore : before ≠ [])
    (hstart : m.valueStart < before.length) :
    ∃ m' : Marks, m.run buffer (lineTrace entersEmpty before.length l) = m' ∧
      m'.valueStart < before.length + l.text.length ∧
      ∃ recorded, Recorded entersEmpty l recorded ∧
        ∀ key, m'.writtenAt buffer key = m.writtenAt buffer key ++
          if headerize l.name = key then recorded else [] := by
  let named : Marks :=
    { m.writeHdrValue buffer with
      fieldStart := before.length
      fieldLen := l.name.length }
  have hname : slice buffer named.fieldStart named.fieldLen = l.name := by
    have htext : buffer = before ++ l.name ++
        (l.colon ++ HeaderLine.partsText l.parts ++ l.tail ++ CRLF ++ behind) := by
      rw [hbuffer]
      unfold HeaderLine.text
      simp only [List.append_assoc]
    rw [htext]
    exact slice_append _ _ _
  -- the values in front of a comma
  have hparts : buffer = (before ++ l.name ++ l.colon) ++ HeaderLine.partsText l.parts ++
      (l.tail ++ CRLF ++ behind) := by
    rw [hbuffer]
    unfold HeaderLine.text
    simp only [List.append_assoc]
  have hbeforeParts : before ++ l.name ++ l.colon ≠ [] := by
    rw [List.append_assoc]
    exact List.append_ne_nil_of_left_ne_nil hbefore _
  obtain ⟨m₁, hrun₁, hfieldStart, hfieldLen, hvalues⟩ :=
    run_parts buffer named l.kind.hasGeneric _ _ l.parts hparts hbeforeParts
  rw [hname] at hvalues
  have hrun : m.run buffer (lineTrace entersEmpty before.length l) =
      m₁.run buffer (tailTrace entersEmpty (aliveBehind l.kind.hasGeneric l.parts)
        (before ++ l.name ++ l.colon ++ HeaderLine.partsText l.parts).length l.tail) := by
    unfold lineTrace
    rw [run_append, run_append, run_name, ← hrun₁]
    simp only [List.length_append]
    rfl
  have hname₁ : slice buffer m₁.fieldStart m₁.fieldLen = l.name := by
    rw [hfieldStart, hfieldLen]
    exact hname
  have htail : buffer = (before ++ l.name ++ l.colon ++ HeaderLine.partsText l.parts) ++ l.tail ++
      (CRLF ++ behind) := by
    rw [hparts]
    simp only [List.append_assoc]
  have hlength : before.length + l.text.length =
      (before ++ l.name ++ l.colon ++ HeaderLine.partsText l.parts).length + l.tail.length + 2 := by
    unfold HeaderLine.text
    simp only [List.length_append]
    show _ + (_ + 2) = _
    omega
  by_cases hentered : l.tail ≠ [] ∨ entersEmpty = true
  · obtain ⟨m', hrun', hstart', hwritten⟩ := tail_recorded buffer m₁ (aliveBehind l.kind.hasGeneric l.parts)
      _ l.tail _ htail (List.append_ne_nil_of_left_ne_nil hbeforeParts _) hentered
    refine ⟨m', hrun.trans hrun', ?_, recordedParts l.kind.hasGeneric l.parts ++ [l.tail], ⟨?_, ?_⟩, ?_⟩
    · rw [hstart', hlength]
      omega
    · unfold HeaderLine.values
      apply Nat.le_of_eq
      rw [List.length_append, List.length_append, length_recordedParts, List.length_map]
    · unfold HeaderLine.values
      rw [List.append_left_inj, recordedParts_eq_iff]
      exact ⟨fun h => ⟨h, hentered⟩, HeaderLine.Refreshed.unfolded⟩
    · intro key
      rw [hwritten key, hvalues key, hname₁]
      show valuesAt (m.writeHdrValue buffer).headers key ++ _ ++ _ = m.writtenAt buffer key ++ _
      rw [List.append_assoc]
      by_cases hkey : headerize l.name = key
      · rw [if_pos hkey, if_pos hkey, if_pos hkey]
        rfl
      · rw [if_neg hkey, if_neg hkey, if_neg hkey]
        rfl
  · -- the empty value has no part in front of it
    have hnil : l.tail = [] := Decidable.not_not.mp fun h => hentered (Or.inl h)
    have hfalse : entersEmpty = false := Bool.eq_false_iff.mpr fun h => hentered (Or.inr h)
    have hnone : l.parts = [] := Decidable.byContradiction fun h => l.tail_of_parts h hnil
    subst hfalse
    have hm₁ : m₁ = named := by
      rw [← hrun₁, hnone]
      rfl
    have hstart₁ : m₁.valueStart <
        (before ++ l.name ++ l.colon ++ HeaderLine.partsText l.parts).length := by
      rw [hm₁]
      show (m.writeHdrValue buffer).valueStart < _
      rw [writeHdrValue_valueStart]
      simp only [List.length_append]
      omega
    rw [hnil] at htail
    obtain ⟨m', hrun', hstart', recorded, hle, hne, hwritten⟩ := empty_tail_recorded buffer m₁
      (aliveBehind l.kind.hasGeneric l.parts) _ (CRLF ++ behind)
      (htail.trans (by simp only [List.append_nil])) hstart₁
    rw [hnil] at hrun
    have hvaluesOf : l.values = [[]] := by
      unfold HeaderLine.values
      rw [hnone, hnil]
      rfl
    refine ⟨m', hrun.trans hrun', ?_, recorded, ⟨?_, ?_⟩, ?_⟩
    · rw [hstart', hlength]
      omega
    · rw [hvaluesOf]
      exact hle
    · rw [hvaluesOf]
      exact iff_of_false hne fun h => hentered h.entered
    · intro key
      rw [hwritten key, hname₁, hm₁]
      rfl

/-! ## A whole message -/

/-- The lines of a message, each with what it records. -/
theorem lines_recorded (entersEmpty : Bool) (m : Marks) (before behind : Bytes) (lines : List HeaderLine)
    (hbuffer : buffer = before ++ WrittenMessage.linesText lines ++ behind) (hbefore : before ≠ [])
    (hstart : m.valueStart < before.length) :
    ∃ m' : Marks, m.run buffer (linesTrace entersEmpty before.length lines) = m' ∧
      ∃ blocks : List (HeaderLine × List Bytes), blocks.map Prod.fst = lines ∧
        (∀ block ∈ blocks, Recorded entersEmpty block.1 block.2) ∧
        ∀ key, m'.writtenAt buffer key = m.writtenAt buffer key ++
          blocks.flatMap fun block => if headerize block.1.name = key then block.2 else [] := by
  induction lines generalizing m before with
  | nil =>
    refine ⟨m, rfl, [], rfl, fun block h => absurd h List.not_mem_nil, ?_⟩
    intro key
    exact (List.append_nil _).symm
  | cons l rest ih =>
    have hlines : WrittenMessage.linesText (l :: rest) = l.text ++ WrittenMessage.linesText rest := rfl
    have hfirst : buffer = before ++ l.text ++ (WrittenMessage.linesText rest ++ behind) := by
      rw [hbuffer, hlines]
      simp only [List.append_assoc]
    have hsecond : buffer = (before ++ l.text) ++ WrittenMessage.linesText rest ++ behind := by
      rw [hbuffer, hlines]
      simp only [List.append_assoc]
    obtain ⟨m₁, hrun₁, hstart₁, recorded, hrecorded, hwritten₁⟩ :=
      line_recorded buffer entersEmpty m before _ l hfirst hbefore hstart
    have hstart₂ : m₁.valueStart < (before ++ l.text).length := by
      rw [List.length_append]
      exact hstart₁
    obtain ⟨m₂, hrun₂, blocks, hblocks, hall, hwritten₂⟩ :=
      ih m₁ (before ++ l.text) hsecond (List.append_ne_nil_of_left_ne_nil hbefore _) hstart₂
    refine ⟨m₂, ?_, (l, recorded) :: blocks, congrArg (l :: ·) hblocks, ?_, ?_⟩
    · show m.run buffer (lineTrace entersEmpty before.length l ++ _) = m₂
      rw [run_append, hrun₁, ← hrun₂, List.length_append]
    · intro block hblock
      rcases List.mem_cons.mp hblock with rfl | hblock
      · exact hrecorded
      · exact hall block hblock
    · intro key
      rw [hwritten₂ key, hwritten₁ key, List.append_assoc]
      rfl

end Marks

namespace WrittenMessage

/-- What the parser records of a message, line by line. -/
theorem headers_recorded (entersEmpty : Bool) (m : WrittenMessage) :
    ∃ blocks : List (HeaderLine × List Bytes), blocks.map Prod.fst = m.lines ∧
      (∀ block ∈ blocks, Marks.Recorded entersEmpty block.1 block.2) ∧
      ∀ key, valuesAt (m.headers entersEmpty) key =
        blocks.flatMap fun block => if headerize block.1.name = key then block.2 else [] := by
  have hstart : (0 : Nat) < m.startLine.length := List.length_pos_iff.mpr m.startLine_ne_nil
  obtain ⟨m', hrun, blocks, hblocks, hall, hwritten⟩ := Marks.lines_recorded m.text
    entersEmpty {} m.startLine (CRLF ++ m.body) m.lines rfl m.startLine_ne_nil hstart
  refine ⟨blocks, hblocks, hall, ?_⟩
  intro key
  have hheaders : m.headers entersEmpty = (m'.writeHdrValue m.text).headers := by
    unfold headers messageTrace
    rw [Marks.run_append, hrun]
    rfl
  rw [hheaders]
  exact hwritten key

/-- The headers map has for each name the values that are written in the lines of this name, in their order,
and it has nothing else. -/
structure Faithful (entersEmpty : Bool) (m : WrittenMessage) : Prop where
  named : ∀ name, valuesAt (m.headers entersEmpty) (headerize name) =
    m.lines.flatMap fun l => if SameName l.name name then l.values else []
  unnamed : ∀ key, (∀ name, headerize name ≠ key) → valuesAt (m.headers entersEmpty) key = []

/-- The same by the keys of the map. -/
theorem faithful_iff_keys (entersEmpty : Bool) (m : WrittenMessage) :
    m.Faithful entersEmpty ↔ ∀ key, valuesAt (m.headers entersEmpty) key =
      m.lines.flatMap fun l => if headerize l.name = key then l.values else [] := by
  have hname : ∀ name, (m.lines.flatMap fun l => if headerize l.name = headerize name then l.values else []) =
      m.lines.flatMap fun l => if SameName l.name name then l.values else [] := by
    intro name
    simp only [headerize_eq_iff]
  constructor
  · intro h key
    by_cases hkey : ∃ name, headerize name = key
    · obtain ⟨name, rfl⟩ := hkey
      rw [hname]
      exact h.named name
    · have hne : ∀ name, headerize name ≠ key := fun name h => hkey ⟨name, h⟩
      rw [h.unnamed key hne]
      symm
      apply List.flatMap_eq_nil_iff.mpr
      intro l _
      exact if_neg (hne l.name)
  · intro h
    constructor
    · intro name
      rw [h, hname]
    · intro key hne
      rw [h]
      apply List.flatMap_eq_nil_iff.mpr
      intro l _
      exact if_neg (hne l.name)

/-- A comma with a fold behind it: ",\r\n ". -/
def foldedComma : Comma := ⟨[], [13, 10, 32], rfl⟩

/-- A line without commas. -/
def plainLine (kind : HeaderKind) (name value : String) : HeaderLine where
  kind := kind
  name := ascii name
  colon := ascii ": "
  parts := []
  tail := ascii value
  kind_of_parts := fun h => absurd rfl h
  tail_of_parts := fun h => absurd rfl h

/-- A Contact with two values in two folds. -/
def foldedContact : HeaderLine where
  kind := .contact
  name := ascii "Contact"
  colon := ascii ": "
  parts := [⟨ascii "<sip:a@b>", foldedComma⟩]
  tail := ascii "<sip:c@d>"
  kind_of_parts := fun _ => Or.inl rfl
  tail_of_parts := fun _ => by decide

def optionsWith (lines : List HeaderLine) : WrittenMessage where
  startLine := ascii "OPTIONS sip:a@b SIP/2.0" ++ CRLF
  lines := lines
  body := []
  startLine_ne_nil := List.append_ne_nil_of_right_ne_nil _ (List.cons_ne_nil _ _)

example : valuesAt ((optionsWith [plainLine .generic "Subject" "x", plainLine .single "k" "",
    plainLine .generic "X-a" "y"]).headers true) (ascii "Supported") = [[]] := by decide

end WrittenMessage

end OverSip
