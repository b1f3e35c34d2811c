import Mathlib.Data.List.Infix
import OverSip.Lib.FirstError

/-!
# Validated parameters

What a YAML file holds, the validators of `config_validators.rb` that a proxy of `proxies.conf` is checked with,
and the loop over the values of one parameter, which `Config.load` and `ProxiesConfig.load` have alike.

A Fixnum is an integer of 62 bits and a sign.
-/

namespace OverSip

/-- A value of a YAML document. A hash is the list of its pairs. -/
inductive YamlValue
  | null
  | bool (b : Bool)
  | int (n : Int)
  | str (s : String)
  | sym (s : String)
  /-- A float or a date: its `to_s`, and its `<=>` with an integer. -/
  | scalar (text : String) (compares : Int → Option Ordering)
  | seq (l : List YamlValue)
  | map (l : List (YamlValue × YamlValue))

namespace YamlValue

/-- The `<=>` of a value and an integer, `none` where it raises. -/
def compares : YamlValue → Int → Option Ordering
  | .int m, n => some (compare m n)
  | .scalar _ c, n => c n
  | _, _ => none

def isString (s : String) : YamlValue → Bool
  | .str t => t == s
  | _ => false

/-- `value[key]`, `none` where it raises. A string has the key for a substring or not. -/
def index : YamlValue → String → Option YamlValue
  | .map l, key => some (((l.find? fun e => isString key e.1).map (·.2)).getD .null)
  | .str s, key | .sym s, key => some (if key.toList <:+: s.toList then .str key else .null)
  | _, _ => none

theorem index_eq_none {v : YamlValue} {key : String} (h : v.index key = none) (key' : String) :
    v.index key' = none := by
  cases v <;> first | rfl | cases h

/-- `values.is_a?(::Array) ? values : [ values ]` -/
def values : YamlValue → List YamlValue
  | .seq l => l
  | v => [v]

end YamlValue

/-- An entry of a list of validations. -/
inductive Validation
  | required
  | multiValue
  | nonEmpty
  | boolean
  | fixnum
  | greaterEqualThan (minimum : Int)
  | minorEqualThan (maximum : Int)
  | choices (l : List String)
deriving DecidableEq, Repr

namespace Validation

def name : Validation → String
  | .required => "required"
  | .multiValue => "multi_value"
  | .nonEmpty => "non_empty"
  | .boolean => "boolean"
  | .fixnum => "fixnum"
  | .greaterEqualThan _ => "greater_equal_than"
  | .minorEqualThan _ => "minor_equal_than"
  | .choices _ => "choices"

/-- The validator of this name; the loop skips the first three. -/
def holds : Validation → YamlValue → Bool
  | .required, _ | .multiValue, _ | .nonEmpty, _ => true
  | .boolean, .bool _ => true
  | .boolean, _ => false
  | .fixnum, .int n => -4611686018427387904 ≤ n ∧ n < 4611686018427387904
  | .fixnum, _ => false
  | .greaterEqualThan minimum, v => (v.compares minimum).any (·.isGE)
  | .minorEqualThan maximum, v => (v.compares maximum).any (·.isLE)
  | .choices l, .str s => l.contains s
  | .choices _, _ => false

theorem greaterEqualThan_int {minimum n : Int} : (greaterEqualThan minimum).holds (.int n) = true ↔ minimum ≤ n :=
  Std.isGE_compare

theorem minorEqualThan_int {maximum n : Int} : (minorEqualThan maximum).holds (.int n) = true ↔ n ≤ maximum :=
  Std.isLE_compare

end Validation

/-- What a parameter is refused for. -/
inductive Complaint
  | requiresValue
  | multipleValues
  | emptyValues
  | invalidValue (value : YamlValue) (validation : Validation)

section parameter

variable (validations : List Validation)

/-- The first value that fails, with the first validation it fails. -/
def firstInvalid (values : List YamlValue) : Option (YamlValue × Validation) :=
  values.findSome? fun value => (validations.find? fun v => !v.holds value).map fun v => (value, v)

/-- The loop `values.each`: what the parameter is set to, none where there is no value. -/
def readValues (values : List YamlValue) : Except Complaint (Option YamlValue) :=
  match firstInvalid validations values with
  | some (value, validation) => .error (.invalidValue value validation)
  | none => .ok (values.head?.map fun value => if .multiValue ∈ validations then .seq values else value)

/-- The body of the loop over the parameters. -/
def readParameter (values : YamlValue) : Except Complaint (Option YamlValue) :=
  match values with
  | .null => if .required ∈ validations then .error .requiresValue else .ok none
  | .seq l =>
    if .multiValue ∉ validations then .error .multipleValues
    else if .nonEmpty ∈ validations ∧ l.isEmpty then .error .emptyValues
    else readValues validations l
  | v => readValues validations v.values

/-! ## What is accepted -/

/-- A value passes all the validators. -/
def Passes (v : YamlValue) : Prop := ∀ c ∈ validations, c.holds v = true

instance (v : YamlValue) : Decidable (Passes validations v) :=
  inferInstanceAs (Decidable (∀ c ∈ validations, c.holds v = true))

/-- What a file may give for a parameter. -/
structure Admissible (v : YamlValue) : Prop where
  required : .required ∈ validations → v ≠ .null
  multiValue : ∀ l, v = .seq l → .multiValue ∈ validations
  nonEmpty : .nonEmpty ∈ validations → v ≠ .seq []
  passes : v ≠ .null → ∀ x ∈ v.values, Passes validations x

/-- What a parameter that is given is set to. -/
def stored : YamlValue → Option YamlValue
  | .null => none
  | .seq [] => none
  | .seq (v :: l) => some (.seq (v :: l))
  | v => some (if .multiValue ∈ validations then .seq [v] else v)

/-- What a parameter may be set to. -/
def Settled (v : YamlValue) : Prop :=
  if .multiValue ∈ validations then ∃ l, v = .seq l ∧ l ≠ [] ∧ ∀ x ∈ l, Passes validations x
  else Passes validations v

/-- A complaint is about a rule that the values of the parameter break. -/
def Complaint.Justified (values : YamlValue) : Complaint → Prop
  | .requiresValue => .required ∈ validations ∧ values = .null
  | .multipleValues => .multiValue ∉ validations ∧ ∃ l, values = .seq l
  | .emptyValues => .nonEmpty ∈ validations ∧ values = .seq []
  | .invalidValue value validation =>
    values ≠ .null ∧ value ∈ values.values ∧ validation ∈ validations ∧ validation.holds value = false

variable {validations}

theorem firstInvalid_eq_none_iff (values : List YamlValue) :
    firstInvalid validations values = none ↔ ∀ x ∈ values, Passes validations x := by
  unfold firstInvalid Passes
  rw [List.findSome?_eq_none_iff]
  refine forall₂_congr fun x _ => ?_
  rw [Option.map_eq_none_iff, List.find?_eq_none]
  refine forall₂_congr fun c _ => ?_
  rw [Bool.not_eq_true, Bool.not_eq_false']

theorem of_firstInvalid {values : List YamlValue} {value : YamlValue} {validation : Validation}
    (h : firstInvalid validations values = some (value, validation)) :
    value ∈ values ∧ validation ∈ validations ∧ validation.holds value = false := by
  obtain ⟨x, hx, hfind⟩ := List.exists_of_findSome?_eq_some h
  rw [Option.map_eq_some_iff] at hfind
  obtain ⟨c, hc, hpair⟩ := hfind
  obtain ⟨rfl, rfl⟩ := Prod.mk.inj hpair
  refine ⟨hx, List.mem_of_find?_eq_some hc, ?_⟩
  have hfails := List.find?_some hc
  rwa [Bool.not_eq_true'] at hfails

theorem readValues_eq_ok_iff (values : List YamlValue) (r : Option YamlValue) :
    readValues validations values = .ok r ↔
      (∀ x ∈ values, Passes validations x) ∧
        r = values.head?.map fun value => if .multiValue ∈ validations then .seq values else value := by
  rw [← firstInvalid_eq_none_iff, readValues]
  cases hfirst : firstInvalid validations values with
  | none =>
    rw [Except.ok.injEq, eq_comm, and_iff_right rfl]
  | some p =>
    constructor
    · intro h
      cases h
    · rintro ⟨h, -⟩
      cases h

theorem readValues_eq_error {values : List YamlValue} {c : Complaint} (h : readValues validations values = .error c) :
    ∃ value validation, c = .invalidValue value validation ∧
      value ∈ values ∧ validation ∈ validations ∧ validation.holds value = false := by
  unfold readValues at h
  cases hfirst : firstInvalid validations values with
  | none =>
    rw [hfirst] at h
    cases h
  | some p =>
    rw [hfirst] at h
    exact ⟨p.1, p.2, (Except.error.inj h).symm, of_firstInvalid hfirst⟩

/-- A value that is neither missing nor an array is read as the only one. -/
theorem readParameter_of_single {v : YamlValue} (hnull : v ≠ .null) (hseq : ∀ l, v ≠ .seq l) :
    readParameter validations v = readValues validations [v] := by
  cases v <;> first | rfl | exact absurd rfl hnull | exact absurd rfl (hseq _)

theorem stored_of_single {v : YamlValue} (hnull : v ≠ .null) (hseq : ∀ l, v ≠ .seq l) :
    stored validations v = some (if .multiValue ∈ validations then .seq [v] else v) := by
  cases v <;> first | rfl | exact absurd rfl hnull | exact absurd rfl (hseq _)

theorem values_of_not_seq {v : YamlValue} (hseq : ∀ l, v ≠ .seq l) : v.values = [v] := by
  cases v <;> first | rfl | exact absurd rfl (hseq _)

theorem readParameter_eq_ok_iff (v : YamlValue) (r : Option YamlValue) :
    readParameter validations v = .ok r ↔ Admissible validations v ∧ r = stored validations v := by
  -- the three alternatives of the loop: nothing given, an array, and any other value
  by_cases hnull : v = .null
  · subst hnull
    rw [readParameter, stored]
    split_ifs with hrequired
    · constructor
      · intro h
        cases h
      · intro h
        exact absurd rfl (h.1.required hrequired)
    · have hadmissible : Admissible validations .null := by
        refine ⟨fun h => absurd h hrequired, ?_, ?_, fun h => absurd rfl h⟩
        · intro l hl
          cases hl
        · intro _ hl
          cases hl
      rw [and_iff_right hadmissible]
      exact ⟨fun h => (Except.ok.inj h).symm, fun h => congrArg Except.ok h.symm⟩
  by_cases hseq : ∃ l, v = .seq l
  · obtain ⟨l, rfl⟩ := hseq
    rw [readParameter]
    split_ifs with hmulti hempty
    · constructor
      · intro h
        cases h
      · intro h
        rw [List.isEmpty_iff.mp hempty.2] at h
        exact absurd rfl (h.1.nonEmpty hempty.1)
    · have hstored : (l.head?.map fun value => if .multiValue ∈ validations then YamlValue.seq l else value) =
          stored validations (.seq l) := by
        cases l with
        | nil => rfl
        | cons x l => rw [List.head?_cons, Option.map_some, if_pos hmulti, stored]
      rw [readValues_eq_ok_iff, hstored]
      refine and_congr_left fun _ => ?_
      constructor
      · intro h
        refine ⟨fun _ => hnull, fun _ _ => hmulti, ?_, fun _ => h⟩
        intro hnonEmpty hl
        exact hempty ⟨hnonEmpty, List.isEmpty_iff.mpr (YamlValue.seq.inj hl)⟩
      · intro h
        exact h.passes hnull
    · constructor
      · intro h
        cases h
      · intro h
        exact absurd (h.1.multiValue l rfl) hmulti
  · have hseq : ∀ l, v ≠ .seq l := fun l hl => hseq ⟨l, hl⟩
    rw [readParameter_of_single hnull hseq, stored_of_single hnull hseq, readValues_eq_ok_iff, List.head?_cons,
      Option.map_some]
    refine and_congr_left fun _ => ?_
    constructor
    · intro h
      refine ⟨fun _ => hnull, fun l hl => absurd hl (hseq l), fun _ => hseq [], fun _ => ?_⟩
      rwa [values_of_not_seq hseq]
    · intro h
      have hpasses := h.passes hnull
      rwa [values_of_not_seq hseq] at hpasses

theorem justified_of_readParameter {v : YamlValue} {c : Complaint} (h : readParameter validations v = .error c) :
    c.Justified validations v := by
  by_cases hnull : v = .null
  · subst hnull
    rw [readParameter] at h
    split_ifs at h with hrequired
    obtain rfl := Except.error.inj h
    exact ⟨hrequired, rfl⟩
  by_cases hseq : ∃ l, v = .seq l
  · obtain ⟨l, rfl⟩ := hseq
    rw [readParameter] at h
    split_ifs at h with hmulti hempty
    · obtain rfl := Except.error.inj h
      exact ⟨hempty.1, congrArg YamlValue.seq (List.isEmpty_iff.mp hempty.2)⟩
    · obtain ⟨value, validation, rfl, hbroken⟩ := readValues_eq_error h
      exact ⟨hnull, hbroken⟩
    · obtain rfl := Except.error.inj h
      exact ⟨hmulti, l, rfl⟩
  · have hseq : ∀ l, v ≠ .seq l := fun l hl => hseq ⟨l, hl⟩
    rw [readParameter_of_single hnull hseq] at h
    obtain ⟨value, validation, rfl, hbroken⟩ := readValues_eq_error h
    rw [← values_of_not_seq hseq] at hbroken
    exact ⟨hnull, hbroken⟩

theorem Complaint.Justified.not_admissible {v : YamlValue} {c : Complaint} (h : c.Justified validations v) :
    ¬ Admissible validations v := by
  intro hadmissible
  cases c with
  | requiresValue => exact hadmissible.required h.1 h.2
  | multipleValues =>
    obtain ⟨hmulti, l, hl⟩ := h
    exact hmulti (hadmissible.multiValue l hl)
  | emptyValues => exact hadmissible.nonEmpty h.1 h.2
  | invalidValue value validation =>
    obtain ⟨hnull, hvalue, hvalidation, hfails⟩ := h
    rw [hadmissible.passes hnull value hvalue validation hvalidation] at hfails
    cases hfails

theorem settled_of_stored {v w : YamlValue} (h : Admissible validations v) (hw : stored validations v = some w) :
    Settled validations w := by
  by_cases hnull : v = .null
  · subst hnull
    cases hw
  have hpasses := h.passes hnull
  by_cases hseq : ∃ l, v = .seq l
  · obtain ⟨l, rfl⟩ := hseq
    rw [Settled, if_pos (h.multiValue l rfl)]
    cases l with
    | nil => cases hw
    | cons x l => exact ⟨x :: l, (Option.some.inj hw).symm, List.cons_ne_nil x l, hpasses⟩
  · have hseq : ∀ l, v ≠ .seq l := fun l hl => hseq ⟨l, hl⟩
    rw [stored_of_single hnull hseq] at hw
    rw [values_of_not_seq hseq, List.forall_mem_singleton] at hpasses
    unfold Settled
    split_ifs at hw ⊢ with hmulti
    · refine ⟨[v], (Option.some.inj hw).symm, List.cons_ne_nil v [], ?_⟩
      rwa [List.forall_mem_singleton]
    · rwa [← Option.some.inj hw]

end parameter

end OverSip
