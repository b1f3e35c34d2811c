import OverSip.Lib.Cutting
import OverSip.Sip.SipUriParser

/-!
# The parameters of a SIP URI

What the grammar of a parameter leaves to the map: an entry is the parameter up to upper and lower case
(`paramEntry_eq_some_iff`), and what stands behind a name and "=" is its value, if it is one.
-/

namespace OverSip

namespace GrammarSipUri

/-! ## Upper and lower case -/

/-- No letter becomes another character. -/
theorem downcaseChar_eq_iff {c : UInt8} (hc : c < 65) (b : UInt8) : downcaseChar b = c ↔ b = c := by
  unfold downcaseChar
  split
  · next hb =>
    simp only [UInt8.le_iff_toNat_le, UInt8.lt_iff_toNat_lt, ← UInt8.toNat_inj, UInt8.toNat_add] at *
    simp at *
    omega
  · rfl

theorem isTokenChar_downcaseChar (b : UInt8) : isTokenChar (downcaseChar b) = isTokenChar b := by
  apply byte_forall (p := fun b => isTokenChar (downcaseChar b) = isTokenChar b)
  decide +kernel

theorem isHexdig_downcaseChar (b : UInt8) : isHexdig (downcaseChar b) = isHexdig b := by
  apply byte_forall (p := fun b => isHexdig (downcaseChar b) = isHexdig b)
  decide +kernel

theorem isParamchar_downcaseChar (b : UInt8) : isParamchar (downcaseChar b) = isParamchar b := by
  apply byte_forall (p := fun b => isParamchar (downcaseChar b) = isParamchar b)
  decide +kernel

theorem downcase_eq_nil_iff {s : Bytes} : downcase s = [] ↔ s = [] := List.map_eq_nil_iff

theorem isToken_downcase (s : Bytes) : isToken (downcase s) = isToken s := by
  have hall : (downcase s).all isTokenChar = s.all isTokenChar := by
    unfold downcase
    rw [List.all_map]
    exact congrArg (s.all ·) (funext isTokenChar_downcaseChar)
  have hne : (downcase s != []) = (s != []) := by
    rw [Bool.eq_iff_iff, bne_iff_ne, bne_iff_ne, ne_eq, downcase_eq_nil_iff]
  unfold isToken
  rw [hall, hne]

theorem isEscapedText_cons {ok : UInt8 → Bool} {c : UInt8} (hc : c ≠ 37) (rest : Bytes) :
    isEscapedText ok (c :: rest) = (ok c && isEscapedText ok rest) := by
  have hne : (c != 37) = true := bne_iff_ne.mpr hc
  rw [isEscapedText, hne, Bool.true_and]
  intro a b rest' heq
  exact absurd heq hc

theorem isEscapedText_percent (ok : UInt8 → Bool) (a b : UInt8) (rest : Bytes) :
    isEscapedText ok (37 :: a :: b :: rest) = (isHexdig a && isHexdig b && isEscapedText ok rest) := rfl

/-- Two digits stand behind a "%". -/
theorem isEscapedText_percent_of_short {ok : UInt8 → Bool} {rest : Bytes} (h : rest.length < 2) :
    isEscapedText ok (37 :: rest) = false := by
  match rest with
  | [] => rfl
  | [_] => rfl
  | _ :: _ :: rest =>
    rw [List.length_cons, List.length_cons] at h
    omega

theorem isEscapedText_downcase {ok : UInt8 → Bool} (hok : ∀ b, ok (downcaseChar b) = ok b) (s : Bytes) :
    isEscapedText ok (downcase s) = isEscapedText ok s := by
  fun_induction isEscapedText ok s with
  | case1 a b rest ih =>
    show isEscapedText ok (37 :: downcaseChar a :: downcaseChar b :: downcase rest) = _
    rw [isEscapedText_percent, isHexdig_downcaseChar, isHexdig_downcaseChar, ih]
  | case2 c rest hrest ih =>
    show isEscapedText ok (downcaseChar c :: downcase rest) = _
    by_cases hc : c = 37
    · subst hc
      have hshort : (downcase rest).length < 2 := by
        rw [length_downcase]
        match rest with
        | [] => exact Nat.zero_lt_two
        | [_] => exact Nat.one_lt_two
        | a :: b :: rest => exact (hrest a b rest rfl rfl).elim
      exact isEscapedText_percent_of_short hshort
    · have hne : (c != 37) = true := bne_iff_ne.mpr hc
      have hc' : downcaseChar c ≠ 37 := mt (downcaseChar_eq_iff (by decide) c).mp hc
      rw [isEscapedText_cons hc', hok, ih, hne, Bool.true_and]
  | case3 => rfl

theorem isParamText_downcase (s : Bytes) : isParamText (downcase s) = isParamText s := by
  have hne : (downcase s != []) = (s != []) := by
    rw [Bool.eq_iff_iff, bne_iff_ne, bne_iff_ne, ne_eq, downcase_eq_nil_iff]
  unfold isParamText
  rw [isEscapedText_downcase isParamchar_downcaseChar, hne]

/-! ## Characters -/

theorem mem_of_isEscapedText {ok : UInt8 → Bool} {s : Bytes} (h : isEscapedText ok s = true) :
    ∀ c ∈ s, c = 37 ∨ isHexdig c = true ∨ ok c = true := by
  fun_induction isEscapedText ok s with
  | case1 a b rest ih =>
    rw [Bool.and_eq_true, Bool.and_eq_true] at h
    obtain ⟨⟨ha, hb⟩, hrest⟩ := h
    intro c hc
    rw [List.mem_cons, List.mem_cons, List.mem_cons] at hc
    rcases hc with rfl | rfl | rfl | hc
    · exact .inl rfl
    · exact .inr (.inl ha)
    · exact .inr (.inl hb)
    · exact ih hrest c hc
  | case2 c rest hrest ih =>
    rw [Bool.and_eq_true, Bool.and_eq_true] at h
    obtain ⟨⟨_, hc⟩, hrest⟩ := h
    intro c' hc'
    rcases List.mem_cons.mp hc' with rfl | hc'
    · exact .inr (.inr hc)
    · exact ih hrest c' hc'
  | case3 =>
    intro c hc
    cases hc

theorem notMem_of_isEscapedText {ok : UInt8 → Bool} {c : UInt8} (hc : c ≠ 37) (hhex : isHexdig c = false)
    (hok : ok c = false) {s : Bytes} (h : isEscapedText ok s = true) : c ∉ s := by
  intro hmem
  rcases mem_of_isEscapedText h c hmem with rfl | htrue | htrue
  · exact hc rfl
  · rw [hhex] at htrue
    cases htrue
  · rw [hok] at htrue
    cases htrue

theorem isEscapedText_of_isParamText {s : Bytes} (h : isParamText s = true) : isEscapedText isParamchar s = true :=
  (Bool.and_eq_true_iff.mp h).2

/-- A name and a value have no "=". -/
theorem notMem_of_isParamText {s : Bytes} (h : isParamText s = true) : 61 ∉ s :=
  notMem_of_isEscapedText (by decide) (by decide) (by decide) (isEscapedText_of_isParamText h)

end GrammarSipUri

open GrammarSipUri

/-! ## Entries -/

/-- The name of an entry. -/
def IsEntryName (k : Bytes) : Prop := isParamText k = true ∨ ∃ pname, isParamText pname = true ∧ k = pname ++ [61]

/-- A parameter without "=". -/
theorem paramEntry_of_notMem {param : Bytes} (h : 61 ∉ param) :
    paramEntry param = if isParamText param then some (param, none) else none := by
  unfold paramEntry
  rw [takeWhile_ne_of_notMem h, dropWhile_ne_of_notMem h]

theorem paramEntry_append {pname : Bytes} (h : 61 ∉ pname) (rest : Bytes) :
    paramEntry (pname ++ 61 :: rest) =
      if isParamText pname then
        if rest = [] then some (pname ++ [61], none)
        else if rest.head? = some 61 then
          if isParamText rest.tail then some (pname ++ [61], some rest.tail) else none
        else if isParamText rest then some (pname, some rest) else none
      else none := by
  unfold paramEntry
  rw [takeWhile_ne_append h, dropWhile_ne_append h]
  match rest with
  | [] => rfl
  | c :: rest =>
    by_cases hc : c = 61
    · subst hc
      rfl
    · have hhead : (c :: rest).head? ≠ some 61 := fun heq => hc (Option.some.inj heq)
      rw [if_neg (List.cons_ne_nil c rest), if_neg hhead]
      dsimp only
      split
      · split
        · next heq => cases heq
        · next heq => cases (List.cons.inj heq).2
        · next heq => exact absurd (List.cons.inj (List.cons.inj heq).2).1 hc
        · next heq => rw [← (List.cons.inj heq).2]
      · rfl

/-- The text of the entry is the parameter. -/
theorem paramEntry_eq_some_iff {param k : Bytes} {v : Option Bytes} :
    paramEntry param = some (k, v) ↔
      IsEntryName k ∧ (∀ value ∈ v, isParamText value = true) ∧ param = k ++ v.elim [] fun value => 61 :: value := by
  constructor
  · intro h
    by_cases hmem : 61 ∈ param
    · obtain ⟨pname, rest, rfl, hpname⟩ := List.eq_append_cons_of_mem hmem
      rw [paramEntry_append hpname] at h
      split at h
      · next hname =>
        have hlong : IsEntryName (pname ++ [61]) := .inr ⟨pname, hname, rfl⟩
        split at h
        · next hrest =>
          obtain ⟨rfl, rfl⟩ := Prod.mk.inj (Option.some.inj h)
          exact ⟨hlong, nofun, by rw [hrest, Option.elim_none, List.append_nil]⟩
        · split at h
          · next hhead =>
            obtain ⟨pvalue, rfl⟩ := List.head?_eq_some_iff.mp hhead
            split at h
            · next hvalue =>
              obtain ⟨rfl, rfl⟩ := Prod.mk.inj (Option.some.inj h)
              refine ⟨hlong, ?_, ?_⟩
              · rintro _ ⟨⟩
                exact hvalue
              · exact (List.append_assoc pname [61] _).symm
            · cases h
          · split at h
            · next hvalue =>
              obtain ⟨rfl, rfl⟩ := Prod.mk.inj (Option.some.inj h)
              refine ⟨.inl hname, ?_, rfl⟩
              rintro _ ⟨⟩
              exact hvalue
            · cases h
      · cases h
    · rw [paramEntry_of_notMem hmem] at h
      split at h
      · next hname =>
        obtain ⟨rfl, rfl⟩ := Prod.mk.inj (Option.some.inj h)
        exact ⟨.inl hname, nofun, (List.append_nil param).symm⟩
      · cases h
  · rintro ⟨hk | ⟨pname, hpname, rfl⟩, hv, rfl⟩
    · have hmem := notMem_of_isParamText hk
      cases v with
      | none =>
        rw [Option.elim_none, List.append_nil, paramEntry_of_notMem hmem, if_pos hk]
      | some value =>
        have hvalue := hv value rfl
        have hhead : value.head? ≠ some 61 := fun heq =>
          notMem_of_isParamText hvalue (List.mem_of_mem_head? heq)
        have hne : value ≠ [] := by
          rintro rfl
          cases hvalue
        rw [Option.elim_some, paramEntry_append hmem, if_pos hk, if_neg hne, if_neg hhead, if_pos hvalue]
    · have hmem := notMem_of_isParamText hpname
      cases v with
      | none =>
        rw [Option.elim_none, List.append_nil, paramEntry_append hmem, if_pos hpname, if_pos rfl]
      | some value =>
        have hvalue := hv value rfl
        rw [Option.elim_some, List.append_assoc, List.singleton_append, paramEntry_append hmem, if_pos hpname,
          if_neg (List.cons_ne_nil _ _), if_pos List.head?_cons, List.tail_cons, if_pos hvalue]

/-! ## Values behind a name -/

theorem valueBehind_eq_some_iff {name : String} {param value : Bytes} :
    valueBehind name param = some value ↔ ∃ k, downcase k = ascii name ∧ param = k ++ 61 :: value := by
  unfold valueBehind
  dsimp only
  constructor
  · intro h
    split at h
    · next hpre =>
      obtain rfl := Option.some.inj h
      obtain ⟨k, eq, htake, hk, heq⟩ := List.map_eq_append_iff.mp hpre
      obtain ⟨c, rfl, hc⟩ := List.map_eq_singleton_iff.mp heq
      obtain rfl := (downcaseChar_eq_iff (by decide) c).mp hc
      refine ⟨k, hk, ?_⟩
      calc param
        _ = param.take ((ascii name).length + 1) ++ param.drop ((ascii name).length + 1) :=
          (List.take_append_drop ..).symm
        _ = k ++ 61 :: param.drop ((ascii name).length + 1) := by
          rw [htake, List.append_assoc, List.singleton_append]
    · cases h
  · rintro ⟨k, hk, rfl⟩
    have hlen : (k ++ [61]).length = (ascii name).length + 1 := by
      rw [← hk, length_downcase, List.length_append, List.length_singleton]
    have hpre : downcase (k ++ [61]) = ascii name ++ [61] := by
      rw [← hk]
      exact List.map_append
    rw [← List.singleton_append, ← List.append_assoc, List.take_left' hlen, if_pos hpre, List.drop_left' hlen]

/-- The entry has the name when nothing stands behind it, or a value. -/
theorem paramEntry_named_iff {name : String} (hname : isParamText (ascii name) = true) {param : Bytes}
    {v : Option Bytes} :
    (∃ k, paramEntry param = some (k, v) ∧ downcase k = ascii name) ↔
      downcase param = ascii name ∧ v = none ∨
        ∃ value, valueBehind name param = some value ∧ isParamText value = true ∧ v = some value := by
  constructor
  · rintro ⟨k, hentry, hk⟩
    obtain ⟨_, hv, rfl⟩ := paramEntry_eq_some_iff.mp hentry
    cases v with
    | none =>
      rw [Option.elim_none, List.append_nil]
      exact .inl ⟨hk, rfl⟩
    | some value => exact .inr ⟨value, valueBehind_eq_some_iff.mpr ⟨k, hk, rfl⟩, hv value rfl, rfl⟩
  · rintro (⟨hparam, rfl⟩ | ⟨value, hbehind, hvalue, rfl⟩)
    · have hk : isParamText param = true := by rw [← isParamText_downcase, hparam, hname]
      exact ⟨param, paramEntry_eq_some_iff.mpr ⟨.inl hk, nofun, (List.append_nil param).symm⟩, hparam⟩
    · obtain ⟨k, hk, rfl⟩ := valueBehind_eq_some_iff.mp hbehind
      have hktext : isParamText k = true := by rw [← isParamText_downcase, hk, hname]
      refine ⟨k, paramEntry_eq_some_iff.mpr ⟨.inl hktext, ?_, rfl⟩, hk⟩
      rintro _ ⟨⟩
      exact hvalue

/-! ## What is read -/

/-- The method `params`. -/
def UriFields.allParams (f : UriFields) : UriParams := f.params.getD .empty

/-- What a parameter writes into the map. -/
def ParamRead.written : ParamRead → Option (Bytes × Option Bytes)
  | whole param => (paramEntry param).map fun entry => (downcase entry.1, entry.2)
  | begun _ => none

/-- Parameters change the map and the accessors. -/
theorem apply_eq (f : UriFields) (read : ParamRead) :
    read.apply f = { f with
      params := (read.apply f).params
      transportParam := (read.apply f).transportParam
      ovidParam := (read.apply f).ovidParam
      lrParam := (read.apply f).lrParam
      obParam := (read.apply f).obParam } := by
  cases read with
  | begun param => rfl
  | whole param =>
    have hwrite : (paramEntry param).elim f f.writeParam =
        { f with params := ((paramEntry param).elim f f.writeParam).params } := by
      cases paramEntry param with
      | none => rfl
      | some entry => rfl
    unfold ParamRead.apply UriFields.readParam
    dsimp only
    rw [hwrite]

theorem foldl_apply_eq (f : UriFields) (reads : List ParamRead) :
    reads.foldl ParamRead.apply f = { f with
      params := (reads.foldl ParamRead.apply f).params
      transportParam := (reads.foldl ParamRead.apply f).transportParam
      ovidParam := (reads.foldl ParamRead.apply f).ovidParam
      lrParam := (reads.foldl ParamRead.apply f).lrParam
      obParam := (reads.foldl ParamRead.apply f).obParam } := by
  induction reads generalizing f with
  | nil => rfl
  | cons read reads ih =>
    rw [List.foldl_cons, ih, apply_eq]

theorem allParams_apply (f : UriFields) (read : ParamRead) :
    (read.apply f).allParams = f.allParams.setAll read.written.toList := by
  cases read with
  | begun param => rfl
  | whole param =>
    show ((paramEntry param).elim f f.writeParam).allParams =
      f.allParams.setAll ((paramEntry param).map fun entry => (downcase entry.1, entry.2)).toList
    cases paramEntry param with
    | none => rfl
    | some entry => rfl

theorem allParams_foldl (f : UriFields) (reads : List ParamRead) :
    (reads.foldl ParamRead.apply f).allParams = f.allParams.setAll (reads.filterMap ParamRead.written) := by
  induction reads generalizing f with
  | nil => rfl
  | cons read reads ih =>
    rw [List.foldl_cons, ih, allParams_apply, List.filterMap_cons]
    cases read.written with
    | none => rfl
    | some entry => rfl

/-! ## The other parts -/

theorem scheme_of_readScheme {text : Bytes} {q : UriScheme × Bytes} (h : readScheme text = some q) :
    q.1 = .sip ∨ q.1 = .sips := by
  unfold readScheme at h
  split at h
  · exact .inl (congrArg Prod.fst (Option.some.inj h)).symm
  · split at h
    · exact .inr (congrArg Prod.fst (Option.some.inj h)).symm
    · cases h

theorem of_readSipUri {text : Bytes} {p : SipUriParts} (h : readSipUri text = some p) :
    (p.scheme = .sip ∨ p.scheme = .sips) ∧ ∃ rest, readHostPart rest = some p.hostPart := by
  obtain ⟨q, hscheme, hrest⟩ := Option.bind_eq_some_iff.mp h
  have hq := scheme_of_readScheme hscheme
  split at hrest
  · dsimp only at hrest
    split at hrest
    · obtain ⟨part, hpart, rfl⟩ := Option.map_eq_some_iff.mp hrest
      exact ⟨hq, _, hpart⟩
    · cases hrest
  · obtain ⟨part, hpart, rfl⟩ := Option.map_eq_some_iff.mp hrest
    exact ⟨hq, _, hpart⟩

end OverSip
