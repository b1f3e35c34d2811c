import OverSip.Lib.Machine
import OverSip.Sip.SipUriParams

/-!
# The parameters of a URI and their accessors

`transport_param`, `ovid_param`, `lr_param?` and `ob_param?` read variables of their own beside the map of the
parameters. The parser writes both in `uri_param` and in `uri_known_param` or `uri_has_param`, which look at a
parameter differently, and only `transport_param=` and, for the transport, `clear_params` write both later.
`UriFields.agree_iff` says from which texts and through which operations the two say the same.
-/

namespace OverSip

open GrammarSipUri

/-! ## Agreement -/

/-- `params[name]`, if it is there. -/
def UriFields.entry (f : UriFields) (name : String) : Option (Option Bytes) :=
  f.params.bind fun params => params.find? (ascii name)

/-- **Agreement.** The accessors say what the map has; the transport is a Symbol in lower case. -/
structure UriFields.Agree (f : UriFields) : Prop where
  transport : (f.entry "transport").map (Option.map downcase) =
    f.transportParam.map fun name => some (downcase name.text)
  ovid : f.ovidParam.isSome = (f.entry "ovid").isSome
  lr : f.lrParam = (f.entry "lr").isSome
  ob : f.obParam = (f.entry "ob").isSome

/-- A call that is about the parameters. -/
inductive ParamOperation
  | setParam (k : Bytes) (v : Option Bytes)
  | delParam (k : Bytes)
  | clearParams
  | transportParam (value : Option RubyName)

def ParamOperation.setter : ParamOperation → UriSetter
  | setParam k v => .setParam k v
  | delParam k => .delParam k
  | clearParams => .clearParams
  | transportParam value => .transportParam value

namespace UriFields

variable (f : UriFields)

def paramStep (operation : ParamOperation) : Option (UriFields × List Unit) :=
  some ((f.set operation.setter).1, [])

/-- The operations that write the map and not the accessor. -/
def Spoils : ParamOperation → Prop
  | .setParam k v =>
    (downcase k = ascii "transport" ∧
        ¬∃ name value, f.transportParam = some name ∧ v = some value ∧ downcase value = downcase name.text) ∨
      (downcase k ∈ [ascii "ovid", ascii "lr", ascii "ob"] ∧ f.includes k = false)
  | .delParam k =>
    downcase k ∈ [ascii "transport", ascii "ovid", ascii "lr", ascii "ob"] ∧ f.includes k = true
  | .clearParams => ∃ k ∈ [ascii "ovid", ascii "lr", ascii "ob"], f.includes k = true
  | .transportParam _ => False

end UriFields

/-! ## Texts that agree -/

namespace ParamRead

/-- A parameter of this name: nothing stands behind it, or a value. -/
def names (name : String) : ParamRead → Bool
  | whole param => downcase param == ascii name || (valueBehind name param).any isParamText
  | begun _ => false

/-- A token stands behind the name. -/
def givesToken (name : String) : ParamRead → Bool
  | whole param => (tokenBehind name param).isSome
  | begun _ => false

/-- It writes the transport, into the map or for the accessor. -/
def isTransport (read : ParamRead) : Bool := read.names "transport" || read.givesToken "transport"

/-- It begins with the name and "=". -/
def begins (name : String) : ParamRead → Bool
  | whole param => (valueBehind name param).isSome
  | begun param => (valueBehind name param).isSome

end ParamRead

/-- The parameters write the map and the accessors alike. -/
structure ReadsAgree (reads : List ParamRead) : Prop where
  /-- The last transport is a value and a token. -/
  transport : ∀ read ∈ (reads.filter ParamRead.isTransport).getLast?,
    read.names "transport" = true ∧ read.givesToken "transport" = true
  ovid : reads.any (ParamRead.givesToken "ovid") = reads.any (ParamRead.names "ovid")
  lr : reads.any (ParamRead.begins "lr") = true → reads.any (ParamRead.names "lr") = true
  ob : reads.any (ParamRead.begins "ob") = true → reads.any (ParamRead.names "ob") = true

/-- What the parser reads as parameters, also in the userinfo. -/
def paramReads (text : Bytes) : List ParamRead := (readSipUri text).elim [] SipUriParts.reads

/-! ## What the parser writes -/

section

variable {f : UriFields} {name : String} {param : Bytes}

theorem valueBehind_of_downcase_eq (h : downcase param = ascii name) : valueBehind name param = none := by
  by_contra hne
  obtain ⟨value, hvalue⟩ := Option.ne_none_iff_exists'.mp hne
  obtain ⟨k, hk, rfl⟩ := valueBehind_eq_some_iff.mp hvalue
  have hlen : (k ++ 61 :: value).length = k.length := by
    rw [← length_downcase, h, ← hk, length_downcase]
  rw [List.length_append, List.length_cons] at hlen
  omega

theorem entry_writeParam (f : UriFields) (entry : Bytes × Option Bytes) (name : String) :
    (f.writeParam entry).entry name = if downcase entry.1 = ascii name then some entry.2 else f.entry name := by
  show ((f.params.getD .empty).set (downcase entry.1) entry.2).find? (ascii name) = _
  split
  · next h => rw [h, OrderedMap.find?_set_self]
  · next h =>
    rw [OrderedMap.find?_set_of_ne _ _ fun heq => h heq.symm]
    unfold UriFields.entry
    cases f.params with
    | none => rfl
    | some params => rfl

theorem names_whole_iff :
    (ParamRead.whole param).names name = true ↔
      downcase param = ascii name ∨ ∃ value, valueBehind name param = some value ∧ isParamText value = true := by
  show (downcase param == ascii name || (valueBehind name param).any isParamText) = true ↔ _
  rw [Bool.or_eq_true, beq_iff_eq, Option.any_eq_true]

/-- The entry of a parameter of this name has what stands behind the name. -/
theorem names_iff (hname : isParamText (ascii name) = true) {v : Option Bytes} :
    (∃ k, paramEntry param = some (k, v) ∧ downcase k = ascii name) ↔
      (ParamRead.whole param).names name = true ∧ v = valueBehind name param := by
  rw [paramEntry_named_iff hname, names_whole_iff]
  constructor
  · rintro (⟨hbare, rfl⟩ | ⟨value, hbehind, hvalue, rfl⟩)
    · exact ⟨.inl hbare, (valueBehind_of_downcase_eq hbare).symm⟩
    · exact ⟨.inr ⟨value, hbehind, hvalue⟩, hbehind.symm⟩
  · rintro ⟨hbare | ⟨value, hbehind, hvalue⟩, rfl⟩
    · exact .inl ⟨hbare, valueBehind_of_downcase_eq hbare⟩
    · exact .inr ⟨value, hbehind, hvalue, hbehind⟩

/-- The map, after a parameter. -/
theorem entry_readParam (hname : isParamText (ascii name) = true) (f : UriFields) (param : Bytes) :
    (f.readParam param).entry name =
      if (ParamRead.whole param).names name then some (valueBehind name param) else f.entry name := by
  have hentry : (f.readParam param).entry name = ((paramEntry param).elim f f.writeParam).entry name := rfl
  rw [hentry]
  split
  · next h =>
    obtain ⟨k, hk, hdowncase⟩ := (names_iff hname).mpr ⟨h, rfl⟩
    rw [hk, Option.elim_some, entry_writeParam, if_pos hdowncase]
  · next h =>
    cases hparam : paramEntry param with
    | none => rfl
    | some entry =>
      have hne : downcase entry.1 ≠ ascii name := fun hdowncase =>
        h ((names_iff hname).mp ⟨entry.1, hparam, hdowncase⟩).1
      rw [Option.elim_some, entry_writeParam, if_neg hne]

theorem entry_apply (hname : isParamText (ascii name) = true) (f : UriFields) (read : ParamRead) :
    ((read.apply f).entry name).isSome = (read.names name || (f.entry name).isSome) := by
  cases read with
  | begun param => rfl
  | whole param =>
    show ((f.readParam param).entry name).isSome = _
    rw [entry_readParam hname]
    cases (ParamRead.whole param).names name with
    | false => rfl
    | true => rfl

theorem entry_foldl (hname : isParamText (ascii name) = true) (f : UriFields) (reads : List ParamRead) :
    ((reads.foldl ParamRead.apply f).entry name).isSome =
      ((f.entry name).isSome || reads.any (ParamRead.names name)) := by
  induction reads generalizing f with
  | nil => exact (Bool.or_false _).symm
  | cons read reads ih =>
    rw [List.foldl_cons, ih, entry_apply hname, List.any_cons, Bool.or_comm (read.names name), Bool.or_assoc]

/-- What `lr_param?` and `ob_param?` look for. -/
theorem flag_readParam (name : String) (param : Bytes) :
    (downcase param == ascii name || (valueBehind name param).isSome) =
      ((ParamRead.whole param).begins name || (ParamRead.whole param).names name) := by
  show _ = ((valueBehind name param).isSome || (downcase param == ascii name || (valueBehind name param).any isParamText))
  cases valueBehind name param with
  | none => rw [Option.isSome_none, Option.any_none, Bool.false_or, Bool.or_false]
  | some value => rw [Option.isSome_some, Bool.or_true, Bool.true_or]

theorem lrParam_foldl (f : UriFields) (reads : List ParamRead) :
    (reads.foldl ParamRead.apply f).lrParam =
      (f.lrParam || reads.any fun read => read.begins "lr" || read.names "lr") := by
  induction reads generalizing f with
  | nil => exact (Bool.or_false _).symm
  | cons read reads ih =>
    have hread : (read.apply f).lrParam = (f.lrParam || (read.begins "lr" || read.names "lr")) := by
      cases read with
      | whole param =>
        rw [← flag_readParam, ← Bool.or_assoc]
        rfl
      | begun param =>
        rw [← Bool.or_assoc]
        exact (Bool.or_false _).symm
    rw [List.foldl_cons, ih, hread, List.any_cons, Bool.or_assoc]

theorem obParam_foldl (f : UriFields) (reads : List ParamRead) :
    (reads.foldl ParamRead.apply f).obParam =
      (f.obParam || reads.any fun read => read.begins "ob" || read.names "ob") := by
  induction reads generalizing f with
  | nil => exact (Bool.or_false _).symm
  | cons read reads ih =>
    have hread : (read.apply f).obParam = (f.obParam || (read.begins "ob" || read.names "ob")) := by
      cases read with
      | whole param =>
        rw [← flag_readParam, ← Bool.or_assoc]
        rfl
      | begun param =>
        rw [← Bool.or_assoc]
        exact (Bool.or_false _).symm
    rw [List.foldl_cons, ih, hread, List.any_cons, Bool.or_assoc]

theorem ovidParam_foldl (f : UriFields) (reads : List ParamRead) :
    (reads.foldl ParamRead.apply f).ovidParam.isSome =
      (f.ovidParam.isSome || reads.any (ParamRead.givesToken "ovid")) := by
  induction reads generalizing f with
  | nil => exact (Bool.or_false _).symm
  | cons read reads ih =>
    have hread : (read.apply f).ovidParam.isSome = (f.ovidParam.isSome || read.givesToken "ovid") := by
      cases read with
      | whole param =>
        show ((tokenBehind "ovid" param).or f.ovidParam).isSome = _
        rw [Option.isSome_or, Bool.or_comm]
        rfl
      | begun param => exact (Bool.or_false _).symm
    rw [List.foldl_cons, ih, hread, List.any_cons, Bool.or_assoc]

/-- A flag that more parameters set than there are of its name. -/
theorem any_or_eq_iff {α : Type} (p q : α → Bool) (xs : List α) :
    (xs.any fun x => p x || q x) = xs.any q ↔ (xs.any p = true → xs.any q = true) := by
  have hor : (xs.any fun x => p x || q x) = (xs.any p || xs.any q) := by
    induction xs with
    | nil => rfl
    | cons x xs ih =>
      rw [List.any_cons, List.any_cons, List.any_cons, ih]
      ac_rfl
  rw [hor]
  cases xs.any p with
  | false => simp
  | true => cases xs.any q <;> simp

end

/-! ### The transport -/

section

variable {f : UriFields}

theorem text_transportOf (value : Bytes) : (transportOf value).text = downcase value := by
  unfold transportOf
  split <;> rfl

/-- What the grammar has seen of the two texts of the transport. -/
structure UriFields.Seen (f : UriFields) : Prop where
  entry : ∀ value, f.entry "transport" = some (some value) → isParamText value = true
  accessor : ∀ name, f.transportParam = some name → isToken name.text = true

theorem isParamText_transport : isParamText (ascii "transport") = true := by decide

theorem UriFields.Seen.readParam (h : f.Seen) (param : Bytes) : (f.readParam param).Seen := by
  constructor
  · intro value hvalue
    rw [entry_readParam isParamText_transport] at hvalue
    split at hvalue
    · next hnames =>
      rcases names_whole_iff.mp hnames with hbare | ⟨value', hbehind, htext⟩
      · rw [valueBehind_of_downcase_eq hbare] at hvalue
        cases Option.some.inj hvalue
      · rw [hbehind] at hvalue
        obtain rfl := Option.some.inj (Option.some.inj hvalue)
        exact htext
    · exact h.entry value hvalue
  · intro name hname
    have hread : ((tokenBehind "transport" param).map transportOf).or f.transportParam = some name := hname
    cases htoken : tokenBehind "transport" param with
    | none =>
      rw [htoken] at hread
      exact h.accessor name hread
    | some token =>
      rw [htoken] at hread
      obtain rfl := Option.some.inj hread
      rw [text_transportOf, isToken_downcase]
      exact (Option.filter_eq_some_iff.mp htoken).2

/-- A parameter behind which the two agree on the transport, or nothing has been written. -/
theorem transport_readParam_iff (h : f.Seen) (param : Bytes) :
    ((f.readParam param).entry "transport").map (Option.map downcase) =
        ((f.readParam param).transportParam.map fun name => some (downcase name.text)) ↔
      if (ParamRead.whole param).isTransport then
        (ParamRead.whole param).names "transport" = true ∧ (ParamRead.whole param).givesToken "transport" = true
      else (f.entry "transport").map (Option.map downcase) =
        f.transportParam.map fun name => some (downcase name.text) := by
  have haccessor : (f.readParam param).transportParam =
      ((tokenBehind "transport" param).map transportOf).or f.transportParam := rfl
  have htoken : (ParamRead.whole param).givesToken "transport" = (tokenBehind "transport" param).isSome := rfl
  unfold ParamRead.isTransport
  rw [entry_readParam isParamText_transport, haccessor, htoken]
  cases hnames : (ParamRead.whole param).names "transport" with
  | false =>
    cases htoken : tokenBehind "transport" param with
    | none => rfl
    | some token =>
      obtain ⟨hbehind, _⟩ := Option.filter_eq_some_iff.mp htoken
      refine iff_of_false (fun heq => ?_) (fun hboth => Bool.noConfusion hboth.1)
      -- a value that is the same up to case would be one for the map
      obtain ⟨v, hentry, hv⟩ := Option.map_eq_some_iff.mp heq
      obtain ⟨value, rfl, hvalue⟩ := Option.map_eq_some_iff.mp hv
      rw [text_transportOf, downcase_downcase] at hvalue
      have htext : isParamText token = true := by
        rw [← isParamText_downcase, ← hvalue, isParamText_downcase]
        exact h.entry value hentry
      rw [names_whole_iff.mpr (.inr ⟨token, hbehind, htext⟩)] at hnames
      cases hnames
  | true =>
    cases htoken : tokenBehind "transport" param with
    | none =>
      refine iff_of_false (fun heq => ?_) (fun hboth => Bool.noConfusion hboth.2)
      obtain ⟨name, hname, hv⟩ := Option.map_eq_some_iff.mp heq.symm
      rw [Option.map_none, Option.none_or] at hname
      obtain ⟨value, hbehind, hvalue⟩ := Option.map_eq_some_iff.mp hv.symm
      -- and here one for the accessor
      have hvtoken : isToken value = true := by
        rw [← isToken_downcase, hvalue, isToken_downcase]
        exact h.accessor name hname
      have hsome : tokenBehind "transport" param = some value := Option.filter_eq_some_iff.mpr ⟨hbehind, hvtoken⟩
      rw [htoken] at hsome
      cases hsome
    | some token =>
      obtain ⟨hbehind, _⟩ := Option.filter_eq_some_iff.mp htoken
      refine iff_of_true ?_ ⟨rfl, rfl⟩
      rw [if_pos rfl, hbehind]
      show some (some (downcase token)) = some (some (downcase (transportOf token).text))
      rw [text_transportOf, downcase_downcase]

theorem UriFields.Seen.apply (h : f.Seen) (read : ParamRead) : (read.apply f).Seen := by
  cases read with
  | whole param => exact h.readParam param
  | begun param => exact ⟨h.entry, h.accessor⟩

theorem UriFields.Seen.foldl (h : f.Seen) (reads : List ParamRead) : (reads.foldl ParamRead.apply f).Seen := by
  induction reads generalizing f with
  | nil => exact h
  | cons read reads ih => exact ih (h.apply read)

/-- The last parameter that writes one of the two has to write both. -/
theorem transport_foldl_iff (h : f.Seen) (hentry : f.entry "transport" = none) (haccessor : f.transportParam = none)
    (reads : List ParamRead) :
    ((reads.foldl ParamRead.apply f).entry "transport").map (Option.map downcase) =
        ((reads.foldl ParamRead.apply f).transportParam.map fun name => some (downcase name.text)) ↔
      ∀ read ∈ (reads.filter ParamRead.isTransport).getLast?,
        read.names "transport" = true ∧ read.givesToken "transport" = true := by
  induction reads using List.reverseRecOn with
  | nil =>
    refine iff_of_true ?_ nofun
    rw [List.foldl_nil, hentry, haccessor]
    rfl
  | append_singleton reads read ih =>
    rw [List.foldl_append, List.foldl_cons, List.foldl_nil, List.filter_append]
    cases read with
    | begun param =>
      rw [List.filter_cons_of_neg Bool.false_ne_true, List.filter_nil, List.append_nil]
      exact ih
    | whole param =>
      refine (transport_readParam_iff (h.foldl reads) param).trans ?_
      split
      · next hwrites =>
        rw [List.filter_cons_of_pos hwrites, List.filter_nil, List.getLast?_concat]
        constructor
        · rintro hboth _ ⟨⟩
          exact hboth
        · exact fun hall => hall _ rfl
      · next hwrites =>
        rw [List.filter_cons_of_neg hwrites, List.filter_nil, List.append_nil]
        exact ih

end

/-- A new object agrees if and only if the parameters that have been read do. -/
theorem agree_fields_iff (inet : Inet) (p : SipUriParts) : (p.fields inet).Agree ↔ ReadsAgree p.reads := by
  have hseen : (p.otherFields inet).Seen := ⟨nofun, nofun⟩
  have htransport := transport_foldl_iff hseen rfl rfl p.reads
  have hentry : ∀ name, isParamText (ascii name) = true →
      ((p.fields inet).entry name).isSome = p.reads.any (ParamRead.names name) := fun _ hname =>
    entry_foldl hname (p.otherFields inet) p.reads
  have hovid : (p.fields inet).ovidParam.isSome = p.reads.any (ParamRead.givesToken "ovid") :=
    ovidParam_foldl (p.otherFields inet) p.reads
  have hlr : (p.fields inet).lrParam = p.reads.any fun read => read.begins "lr" || read.names "lr" :=
    lrParam_foldl (p.otherFields inet) p.reads
  have hob : (p.fields inet).obParam = p.reads.any fun read => read.begins "ob" || read.names "ob" :=
    obParam_foldl (p.otherFields inet) p.reads
  have hovidEntry := hentry "ovid" (by decide)
  have hlrEntry := hentry "lr" (by decide)
  have hobEntry := hentry "ob" (by decide)
  constructor
  · rintro ⟨ht, ho, hl, hb⟩
    rw [hovid, hovidEntry] at ho
    rw [hlr, hlrEntry, any_or_eq_iff] at hl
    rw [hob, hobEntry, any_or_eq_iff] at hb
    exact ⟨htransport.mp ht, ho, hl, hb⟩
  · rintro ⟨ht, ho, hl, hb⟩
    refine ⟨htransport.mpr ht, ?_, ?_, ?_⟩
    · rw [hovid, hovidEntry]
      exact ho
    · rw [hlr, hlrEntry, any_or_eq_iff]
      exact hl
    · rw [hob, hobEntry, any_or_eq_iff]
      exact hb

/-! ## Operations -/

namespace UriFields

variable {f : UriFields}

theorem includes_eq {k : Bytes} {name : String} (hk : downcase k = ascii name) :
    f.includes k = (f.entry name).isSome := by
  unfold includes entry
  rw [hk]
  cases f.params with
  | none => rfl
  | some params => rfl

/-- `del_param` changes the map only. -/
theorem delParam_eq (f : UriFields) (k : Bytes) :
    (f.delParam k).1 = { f with params := (f.delParam k).1.params } := by
  unfold delParam
  split <;> rfl

theorem entry_delParam (f : UriFields) (k : Bytes) (name : String) :
    (f.delParam k).1.entry name = if downcase k = ascii name then none else f.entry name := by
  unfold delParam
  split
  · show (f.params.map fun params => params.erase (downcase k)).bind (fun params => params.find? (ascii name)) = _
    unfold entry
    cases f.params with
    | none => exact (ite_self none).symm
    | some params =>
      show (params.erase (downcase k)).find? (ascii name) = _
      split
      · next h => rw [h, OrderedMap.find?_erase_self]
      · next h => exact OrderedMap.find?_erase_of_ne _ fun heq => h heq.symm
  · next hincludes =>
    show f.entry name = _
    split
    · next h =>
      rw [includes_eq h, Bool.not_eq_true, Option.isSome_eq_false_iff, Option.isNone_iff_eq_none] at hincludes
      exact hincludes
    · rfl

theorem entry_setParam (f : UriFields) (k : Bytes) (v : Option Bytes) (name : String) :
    (f.setParam k v).entry name = if downcase k = ascii name then some v else f.entry name :=
  entry_writeParam f (k, v) name

/-- An accessor that an operation has not changed, beside an entry that it has written if `c` holds. -/
theorem isSome_ite_iff {a : Bool} {e e' : Option (Option Bytes)} (h : a = e.isSome) {c : Prop} [Decidable c] :
    a = (if c then e' else e).isSome ↔ (c → e.isSome = e'.isSome) := by
  split
  · next hc => rw [h, imp_iff_right hc]
  · next hc => exact iff_of_true h fun hc' => absurd hc' hc

/-- `set_param` keeps the agreement on the transport when the accessor has the value, and on the others when the
entry is there. -/
theorem agree_setParam_iff (h : f.Agree) (k : Bytes) (v : Option Bytes) :
    (f.setParam k v).Agree ↔
      (downcase k = ascii "transport" →
        ∃ name value, f.transportParam = some name ∧ v = some value ∧ downcase value = downcase name.text) ∧
      (downcase k = ascii "ovid" → f.includes k = true) ∧ (downcase k = ascii "lr" → f.includes k = true) ∧
        (downcase k = ascii "ob" → f.includes k = true) := by
  have hflag : ∀ {a : Bool} {name : String}, a = (f.entry name).isSome →
      (a = ((f.setParam k v).entry name).isSome ↔ (downcase k = ascii name → f.includes k = true)) := by
    intro a name ha
    rw [entry_setParam, isSome_ite_iff ha]
    exact forall_congr' fun hk => by rw [includes_eq hk, Option.isSome_some]
  have htransport : ((f.setParam k v).entry "transport").map (Option.map downcase) =
      (f.transportParam.map fun name => some (downcase name.text)) ↔
      (downcase k = ascii "transport" →
        ∃ name value, f.transportParam = some name ∧ v = some value ∧ downcase value = downcase name.text) := by
    rw [entry_setParam]
    split
    · next hk =>
      rw [imp_iff_right hk]
      constructor
      · intro heq
        obtain ⟨name, hname, hv⟩ := Option.map_eq_some_iff.mp heq.symm
        obtain ⟨value, rfl, hvalue⟩ := Option.map_eq_some_iff.mp hv.symm
        exact ⟨name, value, hname, rfl, hvalue⟩
      · rintro ⟨name, value, hname, rfl, hvalue⟩
        rw [hname]
        exact congrArg (fun text => some (some text)) hvalue
    · next hk => exact iff_of_true h.transport fun hk' => absurd hk' hk
  constructor
  · rintro ⟨ht, ho, hl, hb⟩
    exact ⟨htransport.mp ht, (hflag h.ovid).mp ho, (hflag h.lr).mp hl, (hflag h.ob).mp hb⟩
  · rintro ⟨ht, ho, hl, hb⟩
    exact ⟨htransport.mpr ht, (hflag h.ovid).mpr ho, (hflag h.lr).mpr hl, (hflag h.ob).mpr hb⟩

/-- `del_param` keeps the agreement when there is nothing to delete. -/
theorem agree_delParam_iff (h : f.Agree) (k : Bytes) :
    (f.delParam k).1.Agree ↔
      (downcase k = ascii "transport" → f.includes k = false) ∧ (downcase k = ascii "ovid" → f.includes k = false) ∧
        (downcase k = ascii "lr" → f.includes k = false) ∧ (downcase k = ascii "ob" → f.includes k = false) := by
  have hflag : ∀ {a : Bool} {name : String}, a = (f.entry name).isSome →
      (a = ((f.delParam k).1.entry name).isSome ↔ (downcase k = ascii name → f.includes k = false)) := by
    intro a name ha
    rw [entry_delParam, isSome_ite_iff ha]
    exact forall_congr' fun hk => by rw [includes_eq hk, Option.isSome_none]
  have htransport : ((f.delParam k).1.entry "transport").map (Option.map downcase) =
      (f.transportParam.map fun name => some (downcase name.text)) ↔
      (downcase k = ascii "transport" → f.includes k = false) := by
    rw [entry_delParam]
    split
    · next hk =>
      rw [imp_iff_right hk, includes_eq hk, Option.isSome_eq_false_iff, Option.isNone_iff_eq_none, Option.map_none,
        ← h.transport, eq_comm, Option.map_eq_none_iff]
    · next hk => exact iff_of_true h.transport fun hk' => absurd hk' hk
  rw [delParam_eq]
  constructor
  · rintro ⟨ht, ho, hl, hb⟩
    exact ⟨htransport.mp ht, (hflag h.ovid).mp ho, (hflag h.lr).mp hl, (hflag h.ob).mp hb⟩
  · rintro ⟨ht, ho, hl, hb⟩
    exact ⟨htransport.mpr ht, (hflag h.ovid).mpr ho, (hflag h.lr).mpr hl, (hflag h.ob).mpr hb⟩

theorem downcase_ascii_transport : downcase (ascii "transport") = ascii "transport" := by decide

/-- Nothing else is called as the transport. -/
theorem ascii_transport_ne : ascii "transport" ≠ ascii "ovid" ∧ ascii "transport" ≠ ascii "lr" ∧
    ascii "transport" ≠ ascii "ob" := by decide

/-- Only the transport is changed. -/
theorem Agree.of_transport {f' : UriFields} (h : f.Agree)
    (haccessors : f'.ovidParam = f.ovidParam ∧ f'.lrParam = f.lrParam ∧ f'.obParam = f.obParam)
    (hentry : ∀ name, ascii "transport" ≠ ascii name → f'.entry name = f.entry name)
    (htransport : (f'.entry "transport").map (Option.map downcase) =
      f'.transportParam.map fun name => some (downcase name.text)) : f'.Agree := by
  obtain ⟨hovid, hlr, hob⟩ := haccessors
  obtain ⟨hovidName, hlrName, hobName⟩ := ascii_transport_ne
  refine ⟨htransport, ?_, ?_, ?_⟩
  · rw [hovid, hentry _ hovidName, h.ovid]
  · rw [hlr, hentry _ hlrName, h.lr]
  · rw [hob, hentry _ hobName, h.ob]

/-- `transport_param=` writes both. -/
theorem agree_transportParam (h : f.Agree) (hscheme : f.scheme = .sip ∨ f.scheme = .sips)
    (hknown : f.unknownScheme = false) (value : Option RubyName) : (f.set (.transportParam value)).1.Agree := by
  unfold set
  rw [if_neg (by rw [hknown]; exact Bool.false_ne_true)]
  dsimp only
  rw [if_pos hscheme]
  cases value with
  | some value =>
    refine h.of_transport ⟨rfl, rfl, rfl⟩ (fun name hname => ?_) ?_
    · exact (entry_setParam _ _ _ name).trans (if_neg (downcase_ascii_transport ▸ hname))
    · dsimp only
      rw [entry_setParam, if_pos downcase_ascii_transport]
      rfl
  | none =>
    have heq := delParam_eq { f with transportParam := none } (ascii "transport")
    refine h.of_transport ?_ (fun name hname => ?_) ?_
    · dsimp only
      rw [heq]
      exact ⟨rfl, rfl, rfl⟩
    · exact (entry_delParam _ _ name).trans (if_neg (downcase_ascii_transport ▸ hname))
    · dsimp only
      rw [entry_delParam, if_pos downcase_ascii_transport, heq]
      rfl

/-- `clear_params` forgets the transport with its parameter, and no other accessor. -/
theorem agree_clearParams_iff (h : f.Agree) (hknown : f.unknownScheme = false) :
    (f.set .clearParams).1.Agree ↔
      (f.entry "ovid").isSome = false ∧ (f.entry "lr").isSome = false ∧ (f.entry "ob").isSome = false := by
  unfold set
  rw [if_neg (by rw [hknown]; exact Bool.false_ne_true)]
  dsimp only
  split
  · rw [← h.ovid, ← h.lr, ← h.ob]
    exact ⟨fun h' => ⟨h'.ovid, h'.lr, h'.ob⟩, fun h' => ⟨rfl, h'.1, h'.2.1, h'.2.2⟩⟩
  · next hparams =>
    rw [Bool.not_eq_true, Option.isSome_eq_false_iff, Option.isNone_iff_eq_none] at hparams
    have hentry : ∀ name, (f.entry name).isSome = false := by
      intro name
      unfold entry
      rw [hparams]
      rfl
    exact iff_of_true h ⟨hentry _, hentry _, hentry _⟩

/-- **Step law.** -/
theorem agree_step_iff {operation : ParamOperation} (h : f.Agree) (hscheme : f.scheme = .sip ∨ f.scheme = .sips) :
    (f.set operation.setter).1.Agree ↔ ¬f.Spoils operation := by
  have hknown : f.unknownScheme = false := by
    unfold unknownScheme
    rcases hscheme with hs | hs <;> rw [hs]
  cases operation with
  | setParam k v =>
    have hset : f.set (ParamOperation.setParam k v).setter = (f.setParam k v, true) := by
      show f.set (.setParam k v) = _
      unfold set
      rw [hknown]
      rfl
    rw [hset, agree_setParam_iff h]
    simp only [Spoils, not_or, not_and, not_not, List.mem_cons, List.not_mem_nil, or_false, or_imp,
      Bool.not_eq_false]
  | delParam k =>
    have hset : f.set (ParamOperation.delParam k).setter = f.delParam k := by
      show f.set (.delParam k) = _
      unfold set
      rw [hknown]
      rfl
    rw [hset, agree_delParam_iff h]
    simp only [Spoils, not_and, List.mem_cons, List.not_mem_nil, or_false, or_imp, Bool.not_eq_true]
  | clearParams =>
    refine (agree_clearParams_iff h hknown).trans ?_
    have hincludes : ∀ name, downcase (ascii name) = ascii name →
        f.includes (ascii name) = (f.entry name).isSome := fun _ => includes_eq
    simp only [Spoils, List.mem_cons, List.not_mem_nil, or_false, exists_eq_or_imp, exists_eq_left, not_or,
      Bool.not_eq_true, hincludes "ovid" (by decide), hincludes "lr" (by decide),
      hincludes "ob" (by decide)]
  | transportParam value => exact iff_of_true (agree_transportParam h hscheme hknown value) id

/-! ## Runs -/

theorem scheme_foldl (f : UriFields) (reads : List ParamRead) :
    (reads.foldl ParamRead.apply f).scheme = f.scheme := by
  rw [foldl_apply_eq]

theorem scheme_of_delParam (f : UriFields) (k : Bytes) : (f.delParam k).1.scheme = f.scheme := by
  rw [delParam_eq]

/-- No operation on the parameters changes the scheme. -/
theorem scheme_step (f : UriFields) (operation : ParamOperation) :
    (f.set operation.setter).1.scheme = f.scheme := by
  unfold set
  split
  · rfl
  · cases operation with
    | setParam k v => rfl
    | delParam k => exact scheme_of_delParam f k
    | clearParams =>
      show (if f.params.isSome then _ else _ : UriFields × Bool).1.scheme = f.scheme
      split <;> rfl
    | transportParam value =>
      show (if f.scheme = .sip ∨ f.scheme = .sips then _ else _ : UriFields × Bool).1.scheme = f.scheme
      split
      · cases value with
        | some value => rfl
        | none => exact scheme_of_delParam { f with transportParam := none } (ascii "transport")
      · rfl

/-- **Agreement of the accessors with the map.** They agree all along a run of operations if and only if the
parameters in the text do and no operation writes the map alone. -/
theorem agree_iff {inet : Inet} {text : Bytes} {f₀ : UriFields} {tr : List (StepRec UriFields ParamOperation Unit)}
    (hparse : parseSipUri inet text = some f₀) (hrun : Run paramStep f₀ tr f) :
    (f₀.Agree ∧ ∀ r ∈ tr, r.post.Agree) ↔ ReadsAgree (paramReads text) ∧ ∀ r ∈ tr, ¬r.pre.Spoils r.ev := by
  obtain ⟨p, hp, rfl⟩ := Option.map_eq_some_iff.mp hparse
  have hfirst : (p.fields inet).Agree ↔ ReadsAgree (paramReads text) := by
    have hreads : paramReads text = p.reads := by
      unfold paramReads
      rw [hp]
      rfl
    rw [hreads]
    exact agree_fields_iff inet p
  have hscheme₀ : (p.fields inet).scheme = .sip ∨ (p.fields inet).scheme = .sips := by
    unfold SipUriParts.fields
    rw [scheme_foldl]
    exact (of_readSipUri hp).1
  rw [← hfirst]
  apply and_congr_right
  intro hagree
  suffices h : (f.scheme = .sip ∨ f.scheme = .sips) ∧ ((∀ r ∈ tr, r.post.Agree) → f.Agree) ∧
      ((∀ r ∈ tr, r.post.Agree) ↔ ∀ r ∈ tr, ¬r.pre.Spoils r.ev) from h.2.2
  induction hrun with
  | nil => exact ⟨hscheme₀, fun _ => hagree, iff_of_true (List.forall_mem_nil _) (List.forall_mem_nil _)⟩
  | @snoc tr f f' operation o _ hs ih =>
    obtain ⟨hscheme, hlast, hiff⟩ := ih
    obtain ⟨rfl, rfl⟩ := Prod.mk.inj (Option.some.inj hs)
    refine ⟨(scheme_step f operation).symm ▸ hscheme, fun hall => ?_, ?_⟩
    · exact hall ⟨f, operation, [], _⟩ (List.mem_append_right _ (List.mem_singleton.mpr rfl))
    · rw [List.forall_mem_append, List.forall_mem_append, List.forall_mem_singleton, List.forall_mem_singleton]
      constructor
      · rintro ⟨hbefore, hafter⟩
        exact ⟨hiff.mp hbefore, (agree_step_iff (hlast hbefore) hscheme).mp hafter⟩
      · rintro ⟨hbefore, hafter⟩
        have hall := hiff.mpr hbefore
        exact ⟨hall, (agree_step_iff (hlast hall) hscheme).mpr hafter⟩

/-- Operations that write both, or that are about another parameter. -/
theorem agree_iff_sample : ∃ f₀ tr f, parseSipUri .ofTexts (ascii "sip:a@h;Transport=TCP;lr") = some f₀ ∧
    tr.map StepRec.ev = [.transportParam (some (.symbol (ascii "udp"))), .setParam (ascii "X") none] ∧
    Run paramStep f₀ tr f ∧ f₀.Agree ∧ ∀ r ∈ tr, r.post.Agree := by
  obtain ⟨f₀, hparse⟩ : ∃ f₀, parseSipUri .ofTexts (ascii "sip:a@h;Transport=TCP;lr") = some f₀ :=
    Option.isSome_iff_exists.mp (by decide)
  have hnil : Run paramStep f₀ [] f₀ := .nil
  have hrun := (hnil.snoc (e := .transportParam (some (.symbol (ascii "udp")))) rfl).snoc
    (e := .setParam (ascii "X") none) rfl
  refine ⟨f₀, _, _, hparse, rfl, hrun, (agree_iff hparse hrun).mpr ⟨?_, ?_⟩⟩
  · exact ⟨by decide, by decide, by decide, by decide⟩
  · rw [List.forall_mem_append, List.nil_append, List.forall_mem_singleton, List.forall_mem_singleton]
    refine ⟨id, ?_⟩
    rintro (⟨hk, -⟩ | ⟨hk, -⟩)
    · exact absurd hk (by decide)
    · exact absurd hk (by decide)

/-- `set_param` of the transport. -/
theorem setParam_not_agree : ∃ f₀ tr f, parseSipUri .ofTexts (ascii "sip:a@h;transport=udp") = some f₀ ∧
    tr.map StepRec.ev = [.setParam (ascii "transport") (some (ascii "tcp"))] ∧ Run paramStep f₀ tr f ∧
      f.transportParam = some (.symbol (ascii "udp")) ∧ f.entry "transport" = some (some (ascii "tcp")) ∧
      ¬f.Agree := by
  obtain ⟨f₀, hparse⟩ : ∃ f₀, parseSipUri .ofTexts (ascii "sip:a@h;transport=udp") = some f₀ :=
    Option.isSome_iff_exists.mp (by decide)
  have hvalues : (parseSipUri .ofTexts (ascii "sip:a@h;transport=udp")).map (fun f =>
      let f := (f.set (.setParam (ascii "transport") (some (ascii "tcp")))).1
      (f.transportParam, f.entry "transport")) =
        some (some (.symbol (ascii "udp")), some (some (ascii "tcp"))) := by decide
  rw [hparse] at hvalues
  obtain ⟨haccessor, hentry⟩ := Prod.mk.inj (Option.some.inj hvalues)
  have hnil : Run paramStep f₀ [] f₀ := .nil
  have hrun := hnil.snoc (e := .setParam (ascii "transport") (some (ascii "tcp"))) rfl
  have hdiffer : ∀ f : UriFields, f.transportParam = some (.symbol (ascii "udp")) →
      f.entry "transport" = some (some (ascii "tcp")) → ¬f.Agree := by
    intro f haccessor hentry hagree
    have heq := hagree.transport
    rw [haccessor, hentry] at heq
    exact absurd heq (by decide)
  exact ⟨f₀, _, _, hparse, rfl, hrun, haccessor, hentry, hdiffer _ haccessor hentry⟩

end UriFields

end OverSip
