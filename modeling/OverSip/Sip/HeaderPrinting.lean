import OverSip.Sip.HeaderFaithfulness

/-!
# Headers that are printed and parsed again

`Request#to_s` and `Response#to_s` print the headers map, with one line for each value; `Message` edits it with
`set_header`, `delete_header`, `insert_header` and their like, which take the name in its normal form (`headerize`). The
next proxy parses what was printed.

`headers_eq_group` says what the parser makes of any message: its values, grouped by their names. `headers_printed` says
that a headers map is found again, whatever was edited, but for names without a value.
-/

namespace OverSip

theorem pushHeader_eq (headers : OrderedMap Bytes (List Bytes)) (f v : Bytes) :
    pushHeader headers f v = headers.push f v := by
  unfold pushHeader OrderedMap.push
  cases headers.find? f with
  | some el => rfl
  | none => rfl

/-- The headers after some more lines. -/
def pushLines (headers : OrderedMap Bytes (List Bytes)) (ls : List (Bytes × Bytes)) : OrderedMap Bytes (List Bytes) :=
  ls.foldl (fun headers l => headers.push l.1 l.2) headers

theorem pushLines_append (headers : OrderedMap Bytes (List Bytes)) (ls ls' : List (Bytes × Bytes)) :
    pushLines headers (ls ++ ls') = pushLines (pushLines headers ls) ls' := List.foldl_append

/-! ## What the parser makes of the lines -/

/-- What is recorded of a line, when an empty value is entered: a comma that `generic_hdr_value` reaches may leave a part of
it at the value in front. -/
def HeaderLine.recorded (l : HeaderLine) : List (Bytes × Bytes) :=
  (Marks.recordedParts l.kind.hasGeneric l.parts ++ [l.tail]).map fun v => (headerize l.name, v)

namespace Marks

variable (buffer : Bytes)

/-- The parts of a line are pushed under the name that the marks give. -/
theorem run_parts_headers (m : Marks) (alive : Bool) (before behind : Bytes) (parts : List HeaderPart)
    (hbuffer : buffer = before ++ HeaderLine.partsText parts ++ behind) (hbefore : before ≠ []) :
    ∃ m' : Marks, m.run buffer (partsTrace alive before.length parts) = m' ∧
      m'.fieldStart = m.fieldStart ∧ m'.fieldLen = m.fieldLen ∧
      m'.headers = pushLines m.headers
        ((recordedParts alive parts).map fun v => (headerize (slice buffer m.fieldStart m.fieldLen), v)) := by
  induction parts generalizing m alive before with
  | nil => exact ⟨m, rfl, rfl, rfl, rfl⟩
  | cons part rest ih =>
    have hparts : HeaderLine.partsText (part :: rest) = part.text ++ HeaderLine.partsText rest := rfl
    have hfirst : buffer = before ++ part.text ++ (HeaderLine.partsText rest ++ behind) := by
      rw [hbuffer, hparts]
      simp only [List.append_assoc]
    have hsecond : buffer = (before ++ part.text) ++ HeaderLine.partsText rest ++ behind := by
      rw [hbuffer, hparts]
      simp only [List.append_assoc]
    obtain ⟨m₁, hrun₁, hstart₁, hlen₁, hheaders₁⟩ := run_partTrace buffer m alive before _ part hfirst hbefore
    obtain ⟨m₂, hrun₂, hstart₂, hlen₂, hheaders₂⟩ :=
      ih m₁ (alive && isText part.value) (before ++ part.text) hsecond (List.append_ne_nil_of_left_ne_nil hbefore _)
    refine ⟨m₂, ?_, hstart₂.trans hstart₁, hlen₂.trans hlen₁, ?_⟩
    · show m.run buffer (partTrace alive before.length part ++ _) = m₂
      rw [run_append, hrun₁, ← hrun₂, List.length_append]
    · rw [hheaders₂, hheaders₁, hstart₁, hlen₁, pushHeader_eq]
      rfl

/-- A line is recorded behind what was pending. -/
theorem line_headers (m : Marks) (before behind : Bytes) (l : HeaderLine) (hbuffer : buffer = before ++ l.text ++ behind)
    (hbefore : before ≠ []) :
    ∃ m' : Marks, m.run buffer (lineTrace true before.length l) = m' ∧
      (m'.writeHdrValue buffer).headers = pushLines (m.writeHdrValue buffer).headers l.recorded := by
  let named : Marks := { m.writeHdrValue buffer with fieldStart := before.length, fieldLen := l.name.length }
  have hname : slice buffer before.length l.name.length = l.name := by
    have htext : buffer = before ++ l.name ++ (l.colon ++ HeaderLine.partsText l.parts ++ l.tail ++ CRLF ++ behind) := by
      rw [hbuffer]
      unfold HeaderLine.text
      simp only [List.append_assoc]
    rw [htext]
    exact slice_append _ _ _
  have hparts : buffer = (before ++ l.name ++ l.colon) ++ HeaderLine.partsText l.parts ++ (l.tail ++ CRLF ++ behind) := by
    rw [hbuffer]
    unfold HeaderLine.text
    simp only [List.append_assoc]
  have hbeforeParts : before ++ l.name ++ l.colon ≠ [] := by
    rw [List.append_assoc]
    exact List.append_ne_nil_of_left_ne_nil hbefore _
  obtain ⟨m₁, hrun₁, hfieldStart, hfieldLen, hheaders₁⟩ :=
    run_parts_headers buffer named l.kind.hasGeneric _ _ l.parts hparts hbeforeParts
  have hbeforeTail : before ++ l.name ++ l.colon ++ HeaderLine.partsText l.parts ≠ [] :=
    List.append_ne_nil_of_left_ne_nil hbeforeParts _
  let marked : Marks :=
    { m₁ with
      valueStart := (before ++ l.name ++ l.colon ++ HeaderLine.partsText l.parts).length
      valueLen := l.tail.length }
  have hrun : m.run buffer (lineTrace true before.length l) = marked := by
    have htail : tailTrace true (aliveBehind l.kind.hasGeneric l.parts)
        (before ++ l.name ++ l.colon ++ HeaderLine.partsText l.parts).length l.tail =
          [((before ++ l.name ++ l.colon ++ HeaderLine.partsText l.parts).length, .startHdrValue)] ++
            genericStores (aliveBehind l.kind.hasGeneric l.parts)
              (before ++ l.name ++ l.colon ++ HeaderLine.partsText l.parts).length l.tail ++
            [((before ++ l.name ++ l.colon ++ HeaderLine.partsText l.parts).length + l.tail.length, .storeHdrValue)] := by
      unfold tailTrace
      rw [if_neg fun h => Bool.false_ne_true h.2.symm]
    have hvalue := run_value buffer m₁ (aliveBehind l.kind.hasGeneric l.parts)
      (before ++ l.name ++ l.colon ++ HeaderLine.partsText l.parts).length l.tail
    rw [← htail, ← hrun₁] at hvalue
    unfold lineTrace
    rw [run_append, run_append, run_name]
    simp only [List.length_append] at hvalue ⊢
    rw [hvalue]
    show _ = ({ m₁ with valueStart := _, valueLen := _ } : Marks)
    rw [← hrun₁]
    simp only [List.length_append]
  have hslice : slice buffer marked.valueStart marked.valueLen = l.tail := by
    have htext : buffer = (before ++ l.name ++ l.colon ++ HeaderLine.partsText l.parts) ++ l.tail ++ (CRLF ++ behind) := by
      rw [hparts]
      simp only [List.append_assoc]
    rw [htext]
    exact slice_append _ _ _
  have hfield : slice buffer marked.fieldStart marked.fieldLen = l.name := by
    show slice buffer m₁.fieldStart m₁.fieldLen = l.name
    rw [hfieldStart, hfieldLen]
    exact hname
  have hne : marked.valueStart ≠ 0 := fun h => hbeforeTail (List.eq_nil_of_length_eq_zero h)
  refine ⟨marked, hrun, ?_⟩
  have hwritten : (marked.writeHdrValue buffer).headers = m₁.headers.push (headerize l.name) l.tail := by
    unfold writeHdrValue
    rw [if_neg hne, hslice, hfield]
    exact pushHeader_eq _ _ _
  rw [hwritten, hheaders₁]
  show (pushLines (m.writeHdrValue buffer).headers (_ : List (Bytes × Bytes))).push _ _ = _
  unfold HeaderLine.recorded
  rw [List.map_append, pushLines_append, show slice buffer named.fieldStart named.fieldLen = l.name from hname]
  rfl

theorem lines_headers (m : Marks) (before behind : Bytes) (lines : List HeaderLine)
    (hbuffer : buffer = before ++ WrittenMessage.linesText lines ++ behind) (hbefore : before ≠ []) :
    ((m.run buffer (linesTrace true before.length lines)).writeHdrValue buffer).headers =
      pushLines (m.writeHdrValue buffer).headers (lines.flatMap HeaderLine.recorded) := by
  induction lines generalizing m before with
  | nil => rfl
  | cons l rest ih =>
    have hlines : WrittenMessage.linesText (l :: rest) = l.text ++ WrittenMessage.linesText rest := rfl
    have hfirst : buffer = before ++ l.text ++ (WrittenMessage.linesText rest ++ behind) := by
      rw [hbuffer, hlines]
      simp only [List.append_assoc]
    have hsecond : buffer = (before ++ l.text) ++ WrittenMessage.linesText rest ++ behind := by
      rw [hbuffer, hlines]
      simp only [List.append_assoc]
    obtain ⟨m₁, hrun₁, hheaders₁⟩ := line_headers buffer m before _ l hfirst hbefore
    have hrest := ih m₁ (before ++ l.text) hsecond (List.append_ne_nil_of_left_ne_nil hbefore _)
    rw [List.length_append] at hrest
    show ((m.run buffer (lineTrace true before.length l ++ _)).writeHdrValue buffer).headers = _
    rw [run_append, hrun₁, hrest, hheaders₁, List.flatMap_cons, pushLines_append]

end Marks

/-- **What the parser makes of a message**: the recorded values, in the order of the lines, grouped by their names. -/
theorem WrittenMessage.headers_eq_group (m : WrittenMessage) :
    m.headers true = OrderedMap.group (m.lines.flatMap HeaderLine.recorded) := by
  have hlines := Marks.lines_headers m.text {} m.startLine (CRLF ++ m.body) m.lines rfl m.startLine_ne_nil
  unfold headers messageTrace
  rw [Marks.run_append]
  exact hlines

/-! ## Names in their normal form -/

theorem headerize_headerize (name : Bytes) : headerize (headerize name) = headerize name :=
  (headerize_eq_iff _ _).mpr (sameName_headerize name)

/-- The keys of the map are names in their normal form. -/
def NormalKeys (headers : OrderedMap Bytes (List Bytes)) : Prop := ∀ e ∈ headers.entries, headerize e.1 = e.1

section

variable {headers : OrderedMap Bytes (List Bytes)}

theorem NormalKeys.set (h : NormalKeys headers) (name : Bytes) (values : List Bytes) :
    NormalKeys (headers.set (headerize name) values) := by
  intro e he
  rcases OrderedMap.mem_set he with rfl | hmem
  · exact headerize_headerize name
  · exact h e hmem

theorem NormalKeys.push (h : NormalKeys headers) (name value : Bytes) :
    NormalKeys (headers.push (headerize name) value) := by
  unfold OrderedMap.push
  split
  · exact h.set name _
  · exact h.set name _

theorem NormalKeys.erase (h : NormalKeys headers) (key : Bytes) : NormalKeys (headers.erase key) :=
  fun e he => h e (List.mem_filter.mp he).1

theorem NormalKeys.setFirst (h : NormalKeys headers) (name : Bytes) (values : List Bytes) :
    NormalKeys (headers.setFirst (headerize name) values) := by
  unfold OrderedMap.setFirst
  split
  · intro e he
    rcases List.mem_cons.mp he with rfl | hmem
    · exact headerize_headerize name
    · exact h e hmem
  · exact h

theorem NormalKeys.pushLines (h : NormalKeys headers) (ls : List HeaderLine) :
    NormalKeys (pushLines headers (ls.flatMap HeaderLine.recorded)) := by
  have hpushes : ∀ (ls : List (Bytes × Bytes)) (headers : OrderedMap Bytes (List Bytes)), NormalKeys headers →
      (∀ l ∈ ls, ∃ name, l.1 = headerize name) → NormalKeys (OverSip.pushLines headers ls) := by
    intro ls
    induction ls with
    | nil => exact fun _ h _ => h
    | cons l ls ih =>
      intro headers h hls
      obtain ⟨⟨name, hname⟩, hrest⟩ := List.forall_mem_cons.mp hls
      have hpush := h.push name l.2
      rw [← hname] at hpush
      exact ih _ hpush hrest
  refine hpushes _ _ h fun l hl => ?_
  obtain ⟨line, _, hl⟩ := List.mem_flatMap.mp hl
  obtain ⟨v, _, rfl⟩ := List.mem_map.mp hl
  exact ⟨line.name, rfl⟩

/-- The parser writes names in their normal form only. -/
theorem normalKeys_headers (m : WrittenMessage) : NormalKeys (m.headers true) := by
  have hempty : NormalKeys .empty := fun e he => absurd he List.not_mem_nil
  rw [m.headers_eq_group]
  exact hempty.pushLines m.lines

end

/-! ## Editing -/

namespace HeaderMap

variable (headers : OrderedMap Bytes (List Bytes)) (name : Bytes)

/-- `set_header` -/
def setHeader (values : List Bytes) : OrderedMap Bytes (List Bytes) := headers.set (headerize name) values

/-- `delete_header` -/
def deleteHeader : OrderedMap Bytes (List Bytes) := headers.erase (headerize name)

/-- `delete_header_top` -/
def deleteHeaderTop : OrderedMap Bytes (List Bytes) :=
  match headers.find? (headerize name) with
  | some hdr => if 1 < hdr.length then headers.set (headerize name) hdr.tail else headers.erase (headerize name)
  | none => headers

/-- `insert_header`; a new name goes to the first position of the Hash. -/
def insertHeader (value : Bytes) : OrderedMap Bytes (List Bytes) :=
  match headers.find? (headerize name) with
  | some hdr => headers.set (headerize name) (value :: hdr)
  | none => headers.setFirst (headerize name) [value]

/-- `append_header` -/
def appendHeader (value : Bytes) : OrderedMap Bytes (List Bytes) :=
  match headers.find? (headerize name) with
  | some hdr => headers.set (headerize name) (hdr ++ [value])
  | none => headers.set (headerize name) [value]

/-- `replace_header_top` -/
def replaceHeaderTop (value : Bytes) : OrderedMap Bytes (List Bytes) :=
  match headers.find? (headerize name) with
  | some hdr => headers.set (headerize name) (value :: hdr.tail)
  | none => headers.set (headerize name) [value]

end HeaderMap

/-- A call of `Message` on its headers. -/
inductive HeaderOp
  | setHeader (name : Bytes) (values : List Bytes)
  | deleteHeader (name : Bytes)
  | deleteHeaderTop (name : Bytes)
  | insertHeader (name value : Bytes)
  | appendHeader (name value : Bytes)
  | replaceHeaderTop (name value : Bytes)

/-- The headers behind the call. -/
def HeaderOp.edit (headers : OrderedMap Bytes (List Bytes)) : HeaderOp → OrderedMap Bytes (List Bytes)
  | setHeader name values => HeaderMap.setHeader headers name values
  | deleteHeader name => HeaderMap.deleteHeader headers name
  | deleteHeaderTop name => HeaderMap.deleteHeaderTop headers name
  | insertHeader name value => HeaderMap.insertHeader headers name value
  | appendHeader name value => HeaderMap.appendHeader headers name value
  | replaceHeaderTop name value => HeaderMap.replaceHeaderTop headers name value

def editHeaders (headers : OrderedMap Bytes (List Bytes)) (ops : List HeaderOp) : OrderedMap Bytes (List Bytes) :=
  ops.foldl HeaderOp.edit headers

theorem NormalKeys.edit {headers : OrderedMap Bytes (List Bytes)} (h : NormalKeys headers) (op : HeaderOp) :
    NormalKeys (op.edit headers) := by
  cases op with
  | setHeader name values => exact h.set name values
  | deleteHeader name => exact h.erase _
  | deleteHeaderTop name =>
    show NormalKeys (HeaderMap.deleteHeaderTop headers name)
    unfold HeaderMap.deleteHeaderTop
    split
    · split
      · exact h.set name _
      · exact h.erase _
    · exact h
  | insertHeader name value =>
    show NormalKeys (HeaderMap.insertHeader headers name value)
    unfold HeaderMap.insertHeader
    split
    · exact h.set name _
    · exact h.setFirst name _
  | appendHeader name value =>
    show NormalKeys (HeaderMap.appendHeader headers name value)
    unfold HeaderMap.appendHeader
    split
    · exact h.set name _
    · exact h.set name _
  | replaceHeaderTop name value =>
    show NormalKeys (HeaderMap.replaceHeaderTop headers name value)
    unfold HeaderMap.replaceHeaderTop
    split
    · exact h.set name _
    · exact h.set name _

theorem NormalKeys.editHeaders {headers : OrderedMap Bytes (List Bytes)} (h : NormalKeys headers) (ops : List HeaderOp) :
    NormalKeys (editHeaders headers ops) := by
  induction ops generalizing headers with
  | nil => exact h
  | cons op ops ih => exact ih (h.edit op)

/-! ## Printing -/

/-- The alternative of `Header` with the name. -/
def HeaderKind.ofName (name : Bytes) : HeaderKind :=
  let single := ["call-id", "i", "content-length", "l", "cseq", "from", "f", "max-forwards", "proxy-require", "require",
    "supported", "k", "to", "t"]
  if (["contact", "m"].map ascii).contains (downcase name) then .contact
  else if (["via", "v", "route"].map ascii).contains (downcase name) then .list
  else if (single.map ascii).contains (downcase name) then .single
  else .generic

/-- `msg << name << ": #\x7bvalue\x7d\r\n"` -/
def printedLine (name value : Bytes) : HeaderLine where
  kind := .ofName name
  name
  colon := ascii ": "
  parts := []
  tail := value
  kind_of_parts h := absurd rfl h
  tail_of_parts h := absurd rfl h

/-- The headers in `to_s`. -/
def headersText (headers : OrderedMap Bytes (List Bytes)) : Bytes :=
  headers.entries.flatMap fun e => e.2.flatMap fun value => e.1 ++ ascii ": " ++ value ++ CRLF

/-- What is printed, with its division into lines. -/
def WrittenMessage.printed (firstLine : Bytes) (headers : OrderedMap Bytes (List Bytes)) (body : Bytes) :
    WrittenMessage where
  startLine := firstLine ++ CRLF
  lines := (headers.lines id).map fun l => printedLine l.1 l.2
  body
  startLine_ne_nil := List.append_ne_nil_of_right_ne_nil firstLine (List.cons_ne_nil _ _)

theorem WrittenMessage.text_printed (firstLine : Bytes) (headers : OrderedMap Bytes (List Bytes)) (body : Bytes) :
    (printed firstLine headers body).text = firstLine ++ CRLF ++ headersText headers ++ (CRLF ++ body) := by
  have hlines : linesText (printed firstLine headers body).lines = headersText headers := by
    unfold linesText printed headersText OrderedMap.lines
    rw [List.flatMap_map, List.flatMap_assoc]
    refine List.flatMap_congr fun e _ => ?_
    rw [List.flatMap_map]
    refine List.flatMap_congr fun value _ => ?_
    unfold HeaderLine.text printedLine HeaderLine.partsText
    simp only [List.flatMap_nil, List.append_nil]
  unfold text
  rw [hlines]
  rfl

/-- **A headers map is found again** in what is printed of it, but for names without a value. -/
theorem WrittenMessage.headers_printed (firstLine : Bytes) {headers : OrderedMap Bytes (List Bytes)}
    (h : NormalKeys headers) (body : Bytes) : (printed firstLine headers body).headers true = headers.nonempty := by
  have hrecorded : (printed firstLine headers body).lines.flatMap HeaderLine.recorded = headers.lines id := by
    unfold printed
    rw [List.flatMap_map]
    refine (List.flatMap_congr fun l hl => ?_).trans (List.flatMap_singleton' _)
    obtain ⟨e, he, hl⟩ := List.mem_flatMap.mp hl
    obtain ⟨v, _, rfl⟩ := List.mem_map.mp hl
    show [(headerize e.1, v)] = [(e.1, v)]
    rw [h e he]
  rw [headers_eq_group, hrecorded, OrderedMap.group_lines]

theorem headersText_nonempty (headers : OrderedMap Bytes (List Bytes)) :
    headersText headers.nonempty = headersText headers := by
  unfold headersText OrderedMap.nonempty
  dsimp only
  induction headers.entries with
  | nil => rfl
  | cons e rest ih =>
    cases hvs : e.2 with
    | nil => rw [List.filter_cons_of_neg (by simp [hvs]), ih, List.flatMap_cons, hvs, List.flatMap_nil, List.nil_append]
    | cons v vs => rw [List.filter_cons_of_pos (by simp [hvs]), List.flatMap_cons, List.flatMap_cons, ih]

/-! ## Along a row of proxies -/

/-- The parser writes no name without a value. -/
theorem nonempty_headers (m : WrittenMessage) : (m.headers true).nonempty = m.headers true := by
  have hpushes : ∀ (ls : List (Bytes × Bytes)) (headers : OrderedMap Bytes (List Bytes)),
      (∀ e ∈ headers.entries, e.2 ≠ []) → ∀ e ∈ (pushLines headers ls).entries, e.2 ≠ [] := by
    intro ls
    induction ls with
    | nil => exact fun _ h => h
    | cons l ls ih =>
      intro headers h
      refine ih _ fun e he => ?_
      have hpush : e ∈ (headers.push l.1 l.2).entries := he
      unfold OrderedMap.push at hpush
      split at hpush
      · rcases OrderedMap.mem_set hpush with rfl | hmem
        · exact List.append_ne_nil_of_right_ne_nil _ (List.cons_ne_nil _ _)
        · exact h e hmem
      · rcases OrderedMap.mem_set hpush with rfl | hmem
        · exact List.cons_ne_nil _ _
        · exact h e hmem
  have hne : ∀ e ∈ (m.headers true).entries, e.2 ≠ [] := by
    rw [m.headers_eq_group]
    exact hpushes _ .empty fun e he => absurd he List.not_mem_nil
  apply OrderedMap.ext
  refine List.filter_eq_self.mpr fun e he => ?_
  rw [Bool.not_eq_true', List.isEmpty_eq_false_iff]
  exact hne e he

/-- What one proxy does with a message: its edits of the headers, and what it prints in front of them and behind. -/
structure Relay where
  ops : List HeaderOp
  firstLine : Bytes
  body : Bytes

/-- The message that the last proxy of a row sends; each one parses what the one before has printed. -/
def relayed (m : WrittenMessage) : List Relay → WrittenMessage
  | [] => m
  | p :: ps => relayed (.printed p.firstLine (editHeaders (m.headers true) p.ops) p.body) ps

/-- The headers after the edits of a row, without the names that are left without a value. -/
def editedBy (headers : OrderedMap Bytes (List Bytes)) (ps : List Relay) : OrderedMap Bytes (List Bytes) :=
  ps.foldl (fun headers p => (editHeaders headers p.ops).nonempty) headers

theorem headers_relayed (m : WrittenMessage) (ps : List Relay) :
    (relayed m ps).headers true = editedBy (m.headers true) ps := by
  induction ps generalizing m with
  | nil => rfl
  | cons p ps ih =>
    unfold relayed
    rw [ih, WrittenMessage.headers_printed p.firstLine ((normalKeys_headers m).editHeaders p.ops) p.body]
    rfl

theorem relayed_append (m : WrittenMessage) (ps ps' : List Relay) :
    relayed m (ps ++ ps') = relayed (relayed m ps) ps' := by
  induction ps generalizing m with
  | nil => rfl
  | cons p ps ih => exact ih _

/-- **Headers along a row of proxies.** Each proxy parses the headers as the one before has left them, and prints them as
they are then edited; where nothing is edited they stay as they were parsed first. -/
structure RelaysHeaders (m : WrittenMessage) (ps : List Relay) : Prop where
  parsed : m.headers true = OrderedMap.group (m.lines.flatMap HeaderLine.recorded)
  headers : (relayed m ps).headers true = editedBy (m.headers true) ps
  text : ∀ p, (relayed m (ps ++ [p])).text =
    p.firstLine ++ CRLF ++ headersText (editHeaders (editedBy (m.headers true) ps) p.ops) ++ (CRLF ++ p.body)
  again : ∀ p, headersText ((relayed m (ps ++ [p])).headers true) =
    headersText (editHeaders (editedBy (m.headers true) ps) p.ops)
  unchanged : (∀ p ∈ ps, p.ops = []) → (relayed m ps).headers true = m.headers true

end OverSip
