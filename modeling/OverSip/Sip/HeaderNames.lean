import OverSip.Sip.ReceivedMessage

/-!
# Header names

The table of the usual SIP headers and `headerize` (`common_headers.h`): the form in which the name of a
header line becomes a key of the headers map. `headerize_eq_iff` says when two names have one key: a compact
name stands for the long one, and the case of the letters does not matter.
-/

namespace OverSip

/-- `downcase_char` -/
def downcaseChar (c : UInt8) : UInt8 := if 65 ≤ c ∧ c ≤ 90 then c + 32 else c

/-- `if (*str >= 'a' && *str <= 'z') *str &= ~0x20` -/
def upcaseChar (c : UInt8) : UInt8 := if 97 ≤ c ∧ c ≤ 122 then c &&& ~~~0x20 else c

/-- A fact about every byte is a fact about the numbers below 256. -/
theorem byte_forall {p : UInt8 → Prop} (h : ∀ n : Fin 256, p (UInt8.ofFin n)) (c : UInt8) : p c := by
  have hc : UInt8.ofFin c.toFin = c := UInt8.ofFin_toFin c
  rw [← hc]
  exact h c.toFin

@[simp] theorem downcaseChar_downcaseChar (c : UInt8) : downcaseChar (downcaseChar c) = downcaseChar c := by
  apply byte_forall (p := fun c => downcaseChar (downcaseChar c) = downcaseChar c)
  decide +kernel

@[simp] theorem downcaseChar_upcaseChar (c : UInt8) : downcaseChar (upcaseChar c) = downcaseChar c := by
  apply byte_forall (p := fun c => downcaseChar (upcaseChar c) = downcaseChar c)
  decide +kernel

@[simp] theorem upcaseChar_downcaseChar (c : UInt8) : upcaseChar (downcaseChar c) = upcaseChar c := by
  apply byte_forall (p := fun c => upcaseChar (downcaseChar c) = upcaseChar c)
  decide +kernel

/-- A name in small letters. -/
def downcase (name : Bytes) : Bytes := name.map downcaseChar

@[simp] theorem length_downcase (name : Bytes) : (downcase name).length = name.length := List.length_map ..

@[simp] theorem downcase_downcase (name : Bytes) : downcase (downcase name) = downcase name := by
  unfold downcase
  rw [List.map_map]
  apply List.map_congr_left
  intro c _
  exact downcaseChar_downcaseChar c

/-! ## The usual headers -/

/-- `struct common_header_name`; `' '` as the short name is `none`. -/
structure CommonHeaderName where
  name : Bytes
  shortName : Option UInt8

/-- `f(N, S)` -/
def common (name : String) (shortName : String := "") : CommonHeaderName :=
  ⟨ascii name, (ascii shortName).head?⟩

def commonHeaders : List CommonHeaderName :=
  [common "Accept", common "Accept-Contact" "A", common "Accept-Encoding", common "Accept-Language",
    common "Alert-Info", common "Allow", common "Allow-Events" "U", common "Authentication-Info",
    common "Authorization", common "Call-ID" "I", common "Call-Info", common "Contact" "M",
    common "Content-Disposition", common "Content-Encoding" "E", common "Content-Language",
    common "Content-Length" "L", common "Content-Type" "C", common "CSeq", common "Date",
    common "Event" "O", common "Error-Info", common "Expires", common "From" "F", common "Identity" "Y",
    common "Identity-Info" "N", common "In-Reply-To", common "Max-Forwards", common "Min-Expires",
    common "MIME-Version", common "Organization", common "Priority", common "Proxy-Authenticate",
    common "Proxy-Authorization", common "Proxy-Require", common "Record-Route", common "Refer-To" "R",
    common "Referred-By" "B", common "Reject-Contact" "J", common "Reply-To",
    common "Request-Disposition" "D", common "Require", common "Retry-After", common "Route",
    common "Server", common "Session-Expires" "X", common "Subject" "S", common "Supported" "K",
    common "Timestamp", common "To" "T", common "Unsupported", common "User-Agent", common "Via" "V",
    common "Warning", common "WWW-Authenticate"]

/-- `find_common_header_name` -/
def findCommonHeaderName (name : Bytes) : Option Bytes :=
  (commonHeaders.find? fun cf => cf.name.length == name.length && downcase cf.name == downcase name).map
    CommonHeaderName.name

/-- `find_short_header_name`, over the entries that `init_short_headers` copies. -/
def findShortHeaderName (abbr : UInt8) : Option Bytes :=
  (commonHeaders.find? fun cf => cf.shortName == some (upcaseChar abbr)).map CommonHeaderName.name

theorem findCommonHeaderName_downcase (name : Bytes) :
    findCommonHeaderName (downcase name) = findCommonHeaderName name := by
  unfold findCommonHeaderName
  rw [length_downcase, downcase_downcase]

theorem downcase_of_findCommon {name found : Bytes} (h : findCommonHeaderName name = some found) :
    downcase found = downcase name := by
  obtain ⟨cf, hfind, rfl⟩ := Option.map_eq_some_iff.mp h
  have hcf := List.find?_some hfind
  rw [Bool.and_eq_true] at hcf
  exact eq_of_beq hcf.2

/-- A header with a short name is found by its long name, and that is no short one. -/
theorem commonHeaders_short : ∀ cf ∈ commonHeaders, cf.shortName.isSome →
    findCommonHeaderName cf.name = some cf.name ∧ cf.name.length ≠ 1 := by
  decide

theorem findCommon_of_findShort {abbr : UInt8} {found : Bytes} (h : findShortHeaderName abbr = some found) :
    findCommonHeaderName found = some found ∧ found.length ≠ 1 := by
  obtain ⟨cf, hfind, rfl⟩ := Option.map_eq_some_iff.mp h
  have hbeq := List.find?_some hfind
  have hshort : cf.shortName = some (upcaseChar abbr) := eq_of_beq hbeq
  apply commonHeaders_short cf (List.mem_of_find?_eq_some hfind)
  rw [hshort]
  rfl

/-! ## `headerize` -/

/-- The loop over the characters behind the first one; the character before decides. -/
def capitalizeAfter (before : UInt8) : Bytes → Bytes
  | [] => []
  | c :: rest =>
    -- behind '-' and '_' a letter is made a capital one
    let c' := if before = 45 ∨ before = 95 then upcaseChar c else downcaseChar c
    c' :: capitalizeAfter c' rest

/-- A name that is not in the table. -/
def capitalize : Bytes → Bytes
  | [] => []
  | c :: rest => upcaseChar c :: capitalizeAfter (upcaseChar c) rest

/-- `headerize` -/
def headerize (hname : Bytes) : Bytes :=
  match hname with
  | [c] => (findShortHeaderName c).getD [downcaseChar c]
  | _ => (findCommonHeaderName hname).getD (capitalize hname)

theorem headerize_of_length {name : Bytes} (h : name.length ≠ 1) :
    headerize name = (findCommonHeaderName name).getD (capitalize name) := by
  unfold headerize
  split
  · exact absurd rfl h
  · rfl

theorem capitalizeAfter_downcase (before : UInt8) (name : Bytes) :
    capitalizeAfter before (downcase name) = capitalizeAfter before name := by
  induction name generalizing before with
  | nil => rfl
  | cons c rest ih =>
    have hc : (if before = 45 ∨ before = 95 then upcaseChar (downcaseChar c)
        else downcaseChar (downcaseChar c)) =
        if before = 45 ∨ before = 95 then upcaseChar c else downcaseChar c := by
      rw [upcaseChar_downcaseChar, downcaseChar_downcaseChar]
    show _ :: capitalizeAfter _ (downcase rest) = _ :: capitalizeAfter _ rest
    rw [hc, ih]

theorem capitalize_downcase (name : Bytes) : capitalize (downcase name) = capitalize name := by
  cases name with
  | nil => rfl
  | cons c rest =>
    show upcaseChar (downcaseChar c) :: capitalizeAfter (upcaseChar (downcaseChar c)) (downcase rest) = _
    rw [upcaseChar_downcaseChar, capitalizeAfter_downcase]
    rfl

theorem downcase_capitalizeAfter (before : UInt8) (name : Bytes) :
    downcase (capitalizeAfter before name) = downcase name := by
  induction name generalizing before with
  | nil => rfl
  | cons c rest ih =>
    have hc : downcaseChar (if before = 45 ∨ before = 95 then upcaseChar c else downcaseChar c) =
        downcaseChar c := by
      split
      · exact downcaseChar_upcaseChar c
      · exact downcaseChar_downcaseChar c
    show downcaseChar _ :: downcase (capitalizeAfter _ rest) = downcaseChar c :: downcase rest
    rw [hc, ih]

theorem downcase_capitalize (name : Bytes) : downcase (capitalize name) = downcase name := by
  cases name with
  | nil => rfl
  | cons c rest =>
    show downcaseChar (upcaseChar c) :: downcase (capitalizeAfter _ rest) = downcaseChar c :: downcase rest
    rw [downcaseChar_upcaseChar, downcase_capitalizeAfter]

/-! ## Two names of one header -/

/-- The long name of a header in small letters. -/
def longName (name : Bytes) : Bytes :=
  match name with
  | [c] => downcase ((findShortHeaderName c).getD [c])
  | _ => downcase name

/-- The two names are names of one header. -/
def SameName (a b : Bytes) : Prop := longName a = longName b

instance (a b : Bytes) : Decidable (SameName a b) := inferInstanceAs (Decidable (longName a = longName b))

theorem longName_of_length {name : Bytes} (h : name.length ≠ 1) : longName name = downcase name := by
  unfold longName
  split
  · exact absurd rfl h
  · rfl

/-- `headerize` changes the case of letters only, once a compact name is written out. -/
theorem downcase_headerize (name : Bytes) : downcase (headerize name) = longName name := by
  by_cases hone : name.length = 1
  · obtain ⟨c, rfl⟩ := List.length_eq_one_iff.mp hone
    show downcase ((findShortHeaderName c).getD [downcaseChar c]) = downcase ((findShortHeaderName c).getD [c])
    cases findShortHeaderName c with
    | none => exact downcase_downcase [c]
    | some found => rfl
  · rw [headerize_of_length hone, longName_of_length hone]
    cases hfind : findCommonHeaderName name with
    | none => exact downcase_capitalize name
    | some found => exact downcase_of_findCommon hfind

/-- The key is a function of the long name. -/
theorem headerize_longName (name : Bytes) : headerize name =
    if (longName name).length = 1 then longName name
    else (findCommonHeaderName (longName name)).getD (capitalize (longName name)) := by
  by_cases hone : name.length = 1
  · obtain ⟨c, rfl⟩ := List.length_eq_one_iff.mp hone
    show (findShortHeaderName c).getD [downcaseChar c] = _
    have hlong : longName [c] = downcase ((findShortHeaderName c).getD [c]) := rfl
    rw [hlong]
    cases hfind : findShortHeaderName c with
    | none => rfl
    | some found =>
      have ⟨hcommon, hlength⟩ := findCommon_of_findShort hfind
      show found = if (downcase found).length = 1 then downcase found
        else (findCommonHeaderName (downcase found)).getD (capitalize (downcase found))
      rw [length_downcase, if_neg hlength, findCommonHeaderName_downcase, hcommon]
      rfl
  · have hlength : (downcase name).length ≠ 1 := by
      rw [length_downcase]
      exact hone
    rw [headerize_of_length hone, longName_of_length hone, if_neg hlength, findCommonHeaderName_downcase,
      capitalize_downcase]

/-- Two names have one key exactly if they are names of one header. -/
theorem headerize_eq_iff (a b : Bytes) : headerize a = headerize b ↔ SameName a b := by
  constructor
  · intro h
    show longName a = longName b
    rw [← downcase_headerize, ← downcase_headerize, h]
  · intro h
    have hlong : longName a = longName b := h
    rw [headerize_longName a, headerize_longName b, hlong]

/-! ## A normal form -/

/-- `short` is the compact name and `long` the long one of a header that has both. -/
def IsCompactOf (short long : Bytes) : Prop :=
  ∃ cf ∈ commonHeaders, ∃ abbr ∈ cf.shortName,
    downcase short = downcase [abbr] ∧ downcase long = downcase cf.name

/-- No two headers of the table share a short name. -/
theorem findShort_of_mem : ∀ cf ∈ commonHeaders, ∀ abbr ∈ cf.shortName,
    findShortHeaderName abbr = some cf.name := by
  decide +kernel

theorem upcaseChar_eq_of_downcaseChar_eq {c d : UInt8} (h : downcaseChar c = downcaseChar d) :
    upcaseChar c = upcaseChar d := by
  rw [← upcaseChar_downcaseChar c, h, upcaseChar_downcaseChar]

theorem findShortHeaderName_congr {c d : UInt8} (h : downcaseChar c = downcaseChar d) :
    findShortHeaderName c = findShortHeaderName d := by
  unfold findShortHeaderName
  rw [upcaseChar_eq_of_downcaseChar_eq h]

theorem longName_downcase (name : Bytes) : longName (downcase name) = longName name := by
  by_cases hone : name.length = 1
  · obtain ⟨c, rfl⟩ := List.length_eq_one_iff.mp hone
    show downcase ((findShortHeaderName (downcaseChar c)).getD [downcaseChar c]) =
      downcase ((findShortHeaderName c).getD [c])
    rw [findShortHeaderName_congr (downcaseChar_downcaseChar c)]
    cases findShortHeaderName c with
    | none => exact downcase_downcase [c]
    | some found => rfl
  · rw [longName_of_length hone, longName_of_length (by rwa [length_downcase]), downcase_downcase]

theorem sameName_of_downcase_eq {a b : Bytes} (h : downcase a = downcase b) : SameName a b := by
  show longName a = longName b
  rw [← longName_downcase a, h, longName_downcase b]

theorem sameName_of_isCompactOf {short long : Bytes} (h : IsCompactOf short long) : SameName short long := by
  obtain ⟨cf, hcf, abbr, habbr, hshort, hlong⟩ := h
  have hfind := findShort_of_mem cf hcf abbr habbr
  calc longName short = longName [abbr] := sameName_of_downcase_eq hshort
    _ = downcase cf.name := by
      show downcase ((findShortHeaderName abbr).getD [abbr]) = downcase cf.name
      rw [hfind]
      rfl
    _ = longName cf.name := (longName_of_length (findCommon_of_findShort hfind).2).symm
    _ = longName long := sameName_of_downcase_eq hlong.symm

/-- A key is a name of the header it stands for. -/
theorem sameName_headerize (name : Bytes) : SameName (headerize name) name := by
  by_cases hlength : (headerize name).length = 1
  · -- only a compact name that no header has is left with one character
    have hlong : (longName name).length = 1 := by
      rw [← downcase_headerize, length_downcase, hlength]
    have hone : name.length = 1 := by
      by_contra hne
      rw [longName_of_length hne, length_downcase] at hlong
      exact hne hlong
    obtain ⟨c, rfl⟩ := List.length_eq_one_iff.mp hone
    have hkey : headerize [c] = (findShortHeaderName c).getD [downcaseChar c] := rfl
    cases hfind : findShortHeaderName c with
    | none =>
      rw [hkey, hfind]
      exact sameName_of_downcase_eq (downcase_downcase [c])
    | some found =>
      rw [hkey, hfind] at hlength
      exact absurd hlength (findCommon_of_findShort hfind).2
  · show longName (headerize name) = longName name
    rw [longName_of_length hlength, downcase_headerize]

/-- The keys of a map whose entries are to be found under every name of a header: names that differ in
letter case only have one key, and so have the compact name and the long one; a key is its own key; other
names of more than one character have different keys. -/
structure NormalForm (key : Bytes → Bytes) : Prop where
  caseless : ∀ a b, downcase a = downcase b → key a = key b
  compact : ∀ short long, IsCompactOf short long → key short = key long
  idempotent : ∀ a, key (key a) = key a
  separate : ∀ a b, 1 < a.length → 1 < b.length → downcase a ≠ downcase b → key a ≠ key b

/-- **Normal form of header names.** -/
theorem normalForm_headerize : NormalForm headerize where
  caseless a b h := (headerize_eq_iff a b).mpr (sameName_of_downcase_eq h)
  compact short long h := (headerize_eq_iff short long).mpr (sameName_of_isCompactOf h)
  idempotent a := (headerize_eq_iff (headerize a) a).mpr (sameName_headerize a)
  separate a b ha hb hne h := by
    have hsame : longName a = longName b := (headerize_eq_iff a b).mp h
    rw [longName_of_length (by omega), longName_of_length (by omega)] at hsame
    exact hne hsame

example : headerize (ascii "cseq") = ascii "CSeq" ∧ headerize (ascii "m") = headerize (ascii "CONTACT") ∧
    headerize (ascii "x-my_hDR") = ascii "X-My_Hdr" := by decide

end OverSip
