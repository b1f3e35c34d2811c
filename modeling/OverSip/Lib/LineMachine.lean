import OverSip.Lib.Regex

/-!
# A machine that reads a line of fields

A line is a list of fields, each with the letter that ends it. The machine reads letter by letter and takes the
actions of the fields: at the first letter of a field, at each letter with which the field could end, and at the
letter that ends it. It stops at a letter that no line goes on with.

When no word of a field has the letter that ends the field, the machine gets through exactly the lines
(`reads_line`, `line_of_execute`).
-/

namespace OverSip

open Regex

variable {α σ : Type}

/-- A field. The actions get the position of the letter. -/
structure LineField (α σ : Type) where
  /-- What the field may be, with what is done at its end when it is that. -/
  alternatives : List (Regex α × (σ → σ))
  /-- The letter that ends the field. -/
  stop : α
  entering : ℕ → σ → σ
  finishing : ℕ → σ → σ
  leaving : ℕ → σ → σ

/-- The machine on its way: the fields that are still to be read, of the first of which a part may have been
read (`entered`). -/
structure LineState (α σ : Type) where
  fields : List (LineField α σ)
  entered : Bool
  position : ℕ
  vars : σ

namespace LineField

variable [LE α] [DecidableLE α] (f : LineField α σ)

/-- The rest of the field, when the word has been read of it. -/
def rest (w : List α) : LineField α σ := { f with alternatives := f.alternatives.map fun p => (p.1.derivs w, p.2) }

def isEmpty : Bool := f.alternatives.all fun p => p.1.isEmpty

def isNullable : Bool := f.alternatives.any fun p => p.1.nullable

/-- What is done at the letter that ends the field. -/
def leave (position : ℕ) (vars : σ) : σ :=
  f.leaving position ((f.alternatives.filter fun p => p.1.nullable).foldl (fun v p => p.2 v) vars)

/-- The word is one of the field. -/
def Matches (w : List α) : Prop := ∃ p ∈ f.alternatives, w ∈ lang p.1

end LineField

/-! ## Fields -/

namespace LineField

variable [LE α] [DecidableLE α] {f : LineField α σ}

theorem rest_rest (u w : List α) : (f.rest u).rest w = f.rest (u ++ w) := by
  unfold rest
  rw [List.map_map]
  congr 1
  apply List.map_congr_left
  intro p _
  show ((p.1.derivs u).derivs w, p.2) = (p.1.derivs (u ++ w), p.2)
  unfold derivs
  rw [List.foldl_append]

theorem rest_nil : f.rest [] = f := by
  unfold rest
  show { f with alternatives := f.alternatives.map id } = f
  rw [List.map_id]

theorem matches_rest_iff (u w : List α) : (f.rest u).Matches w ↔ f.Matches (u ++ w) := by
  constructor
  · rintro ⟨q, hq, hw⟩
    obtain ⟨p, hp, rfl⟩ := List.mem_map.mp hq
    exact ⟨p, hp, (mem_derivs p.1 u w).mp hw⟩
  · rintro ⟨p, hp, hw⟩
    exact ⟨_, List.mem_map_of_mem hp, (mem_derivs p.1 u w).mpr hw⟩

theorem isNullable_iff : f.isNullable = true ↔ f.Matches [] := by
  unfold isNullable Matches
  rw [List.any_eq_true]
  exact exists_congr fun p => and_congr_right fun _ => nullable_iff p.1

theorem isNullable_rest_iff (u : List α) : (f.rest u).isNullable = true ↔ f.Matches u := by
  rw [isNullable_iff, matches_rest_iff, List.append_nil]

/-- What is done at the letter that ends the field, behind the word `w`. -/
theorem leave_rest (w : List α) (position : ℕ) (vars : σ) :
    (f.rest w).leave position vars =
      f.leaving position ((f.alternatives.filter fun p => p.1.accepts w).foldl (fun v p => p.2 v) vars) := by
  unfold leave rest accepts
  rw [List.filter_map, List.foldl_map]
  rfl

end LineField

namespace LineState

variable [DecidableEq α] [LE α] [DecidableLE α]

/-- One letter; `none` is the error state. -/
def step (s : LineState α σ) (a : α) : Option (LineState α σ) :=
  match s.fields with
  | [] => none
  | f :: fields =>
    if (f.rest [a]).isEmpty then
      if a = f.stop ∧ f.isNullable = true then
        some { fields, entered := false, position := s.position + 1, vars := f.leave s.position s.vars }
      else none
    else
      let vars := if s.entered then s.vars else f.entering s.position s.vars
      some
        { fields := f.rest [a] :: fields, entered := true, position := s.position + 1
          vars := if (f.rest [a]).isNullable then f.finishing s.position vars else vars }

/-- The letters are read. -/
def reads : LineState α σ → List α → Option (LineState α σ)
  | s, [] => some s
  | s, a :: w => (s.step a).bind fun s' => s'.reads w

/-- The state in which the machine stops. -/
def execute : LineState α σ → List α → LineState α σ
  | s, [] => s
  | s, a :: w => match s.step a with
    | some s' => s'.execute w
    | none => s

theorem reads_append (s : LineState α σ) (u w : List α) :
    s.reads (u ++ w) = (s.reads u).bind fun s' => s'.reads w := by
  induction u generalizing s with
  | nil => rfl
  | cons a u ih =>
    rw [List.cons_append, reads, reads, Option.bind_assoc]
    exact congrArg (s.step a).bind (funext fun s' => ih s')

theorem execute_append {s s' : LineState α σ} {u : List α} (h : s.reads u = some s') (w : List α) :
    s.execute (u ++ w) = s'.execute w := by
  induction u generalizing s with
  | nil =>
    obtain rfl := Option.some.inj h
    rfl
  | cons a u ih =>
    obtain ⟨t, ht, h⟩ := Option.bind_eq_some_iff.mp h
    rw [List.cons_append, execute, ht]
    exact ih h

/-- The machine stops at once behind the last field. -/
theorem execute_of_nil {s : LineState α σ} (h : s.fields = []) (w : List α) : s.execute w = s := by
  cases w with
  | nil => rfl
  | cons a w =>
    have hstep : s.step a = none := by
      unfold step
      rw [h]
    rw [execute, hstep]

end LineState

/-! ## Lines -/

/-- A line of the fields. -/
def LineOf [LE α] [DecidableLE α] : List (LineField α σ) → List α → Prop
  | [], u => u = []
  | f :: fields, u => ∃ w rest, u = w ++ f.stop :: rest ∧ f.Matches w ∧ LineOf fields rest

namespace LineState

variable [DecidableEq α] [LE α] [DecidableLE α]

/-- What has been read when no field is left is a line. -/
theorem lineOf_of_reads {s s' : LineState α σ} {u : List α} (h : s.reads u = some s') (hend : s'.fields = []) :
    LineOf s.fields u := by
  induction u generalizing s with
  | nil =>
    obtain rfl := Option.some.inj h
    rw [hend]
    exact rfl
  | cons a u ih =>
    obtain ⟨t, ht, h⟩ := Option.bind_eq_some_iff.mp h
    have hline := ih h
    cases hfields : s.fields with
    | nil =>
      unfold step at ht
      rw [hfields] at ht
      cases ht
    | cons f fields =>
      unfold step at ht
      rw [hfields] at ht
      dsimp only at ht
      split at ht
      · split at ht
        · next hstop =>
          -- the letter ends the field
          obtain rfl := Option.some.inj ht
          obtain ⟨rfl, hnull⟩ := hstop
          exact ⟨[], u, rfl, LineField.isNullable_iff.mp hnull, hline⟩
        · cases ht
      · -- the field goes on with the letter
        obtain rfl := Option.some.inj ht
        obtain ⟨w, rest, rfl, hw, hrest⟩ := hline
        exact ⟨a :: w, rest, rfl, (LineField.matches_rest_iff [a] w).mp hw, hrest⟩

/-- The letters up to where the machine stops. -/
theorem exists_reads_execute (s : LineState α σ) (u : List α) :
    ∃ v rest, u = v ++ rest ∧ s.reads v = some (s.execute u) := by
  induction u generalizing s with
  | nil => exact ⟨[], [], rfl, rfl⟩
  | cons a u ih =>
    cases hstep : s.step a with
    | none =>
      refine ⟨[], a :: u, rfl, ?_⟩
      rw [execute, hstep]
      rfl
    | some t =>
      obtain ⟨v, rest, rfl, hv⟩ := ih t
      refine ⟨a :: v, rest, rfl, ?_⟩
      rw [execute, hstep, reads, hstep]
      exact hv

/-- **Soundness.** The machine gets through all the fields only when there is a line at the start. -/
theorem line_of_execute {s : LineState α σ} {u : List α} (h : (s.execute u).fields = []) :
    ∃ line rest, u = line ++ rest ∧ LineOf s.fields line := by
  obtain ⟨v, rest, huv, hv⟩ := s.exists_reads_execute u
  exact ⟨v, rest, huv, lineOf_of_reads hv h⟩

end LineState

/-! ## What holds before the end -/

/-- The actions inside the field keep `P`. -/
structure LineField.KeepsInside (P : σ → Prop) (f : LineField α σ) : Prop where
  entering : ∀ p v, P v → P (f.entering p v)
  finishing : ∀ p v, P v → P (f.finishing p v)

/-- The actions of the field keep `P`, also those at its end. -/
structure LineField.Keeps (P : σ → Prop) (f : LineField α σ) : Prop extends f.KeepsInside P where
  alternatives : ∀ q ∈ f.alternatives, ∀ v, P v → P (q.2 v)
  leaving : ∀ p v, P v → P (f.leaving p v)

/-- All actions but those at the end of the last field keep `P`. -/
def KeepsBeforeEnd (P : σ → Prop) : List (LineField α σ) → Prop
  | [] => True
  | [f] => f.KeepsInside P
  | f :: g :: fields => f.Keeps P ∧ KeepsBeforeEnd P (g :: fields)

section
variable {P : σ → Prop} {f : LineField α σ} {fields : List (LineField α σ)}

theorem KeepsBeforeEnd.inside (h : KeepsBeforeEnd P (f :: fields)) : f.KeepsInside P := by
  cases fields with
  | nil => exact h
  | cons g fields => exact h.1.toKeepsInside

theorem LineField.Keeps.leave (h : f.Keeps P) (position : ℕ) {vars : σ} (hvars : P vars) :
    P (f.leave position vars) := by
  apply h.leaving
  have hall : ∀ q ∈ f.alternatives.filter fun p => p.1.nullable, ∀ v, P v → P (q.2 v) :=
    fun q hq => h.alternatives q (List.mem_of_mem_filter hq)
  generalize (f.alternatives.filter fun p => p.1.nullable) = qs at hall
  induction qs generalizing vars with
  | nil => exact hvars
  | cons q qs ih =>
    rw [List.forall_mem_cons] at hall
    exact ih (hall.1 vars hvars) hall.2

variable [LE α] [DecidableLE α]

theorem LineField.Keeps.rest (h : f.Keeps P) (w : List α) : (f.rest w).Keeps P where
  entering := h.entering
  finishing := h.finishing
  leaving := h.leaving
  alternatives := by
    intro q hq
    obtain ⟨p, hp, rfl⟩ := List.mem_map.mp hq
    exact h.alternatives p hp

theorem KeepsBeforeEnd.rest (h : KeepsBeforeEnd P (f :: fields)) (w : List α) :
    KeepsBeforeEnd P (f.rest w :: fields) := by
  cases fields with
  | nil => exact ⟨h.entering, h.finishing⟩
  | cons g fields => exact ⟨h.1.rest w, h.2⟩

variable [DecidableEq α]

/-- The variables keep `P` as long as a field is left. -/
theorem keeps_of_reads {s s' : LineState α σ} {u : List α} (h : s.reads u = some s')
    (hkeeps : KeepsBeforeEnd P s.fields) (hvars : P s.vars) (hleft : s'.fields ≠ []) : P s'.vars := by
  induction u generalizing s with
  | nil =>
    obtain rfl := Option.some.inj h
    exact hvars
  | cons a u ih =>
    obtain ⟨t, ht, h⟩ := Option.bind_eq_some_iff.mp h
    cases hfields : s.fields with
    | nil =>
      unfold LineState.step at ht
      rw [hfields] at ht
      cases ht
    | cons f fields =>
      rw [hfields] at hkeeps
      unfold LineState.step at ht
      rw [hfields] at ht
      dsimp only at ht
      split at ht
      · split at ht
        · obtain rfl := Option.some.inj ht
          cases fields with
          | nil =>
            -- that was the last field, and nothing is read behind it
            cases u with
            | nil =>
              obtain rfl := Option.some.inj h
              exact absurd rfl hleft
            | cons b u => cases h
          | cons g fields => exact ih h hkeeps.2 (hkeeps.1.leave s.position hvars)
        · cases ht
      · obtain rfl := Option.some.inj ht
        apply ih h (hkeeps.rest [a])
        have hentered : P (if s.entered then s.vars else f.entering s.position s.vars) := by
          split
          · exact hvars
          · exact hkeeps.inside.entering _ _ hvars
        dsimp only
        split
        · exact hkeeps.inside.finishing _ _ hentered
        · exact hentered

end

/-! ## Reading a field -/

/-- No word of the field has the letter that ends it, and of the actions at its letters the last one counts. -/
structure LineField.WellDelimited [LE α] [DecidableLE α] (f : LineField α σ) : Prop where
  stop : ∀ w, f.Matches w → f.stop ∉ w
  finishing : ∀ p q vars, f.finishing q (f.finishing p vars) = f.finishing q vars

/-- What has been done when a word of the field has been read, of which the first letter is at the position. -/
def LineField.readVars (f : LineField α σ) (position : ℕ) (w : List α) (vars : σ) : σ :=
  if w = [] then vars else f.finishing (position + w.length - 1) (f.entering position vars)

section
variable [LE α] [DecidableLE α] [Std.IsPartialOrder α]
variable {f : LineField α σ} {fields : List (LineField α σ)} {vars : σ} {position : ℕ}

theorem LineField.isEmpty_iff : f.isEmpty = true ↔ ∀ w, ¬f.Matches w := by
  unfold LineField.isEmpty LineField.Matches
  rw [List.all_eq_true]
  constructor
  · rintro h w ⟨p, hp, hw⟩
    exact (Regex.isEmpty_iff p.1).mp (h p hp) w hw
  · intro h p hp
    exact (Regex.isEmpty_iff p.1).mpr fun w hw => h w ⟨p, hp, hw⟩

theorem LineField.isEmpty_rest_iff (u : List α) : (f.rest u).isEmpty = true ↔ ∀ w, ¬f.Matches (u ++ w) := by
  rw [LineField.isEmpty_iff]
  exact forall_congr' fun w => not_congr (LineField.matches_rest_iff u w)

variable [DecidableEq α]

/-- A letter that the field goes on with. -/
theorem step_of_matches {entered : Bool} {a : α} {w : List α} (hw : f.Matches (a :: w)) :
    LineState.step ⟨f :: fields, entered, position, vars⟩ a =
      some ⟨f.rest [a] :: fields, true, position + 1,
        if (f.rest [a]).isNullable then f.finishing position (if entered then vars else f.entering position vars)
        else if entered then vars else f.entering position vars⟩ := by
  have hne : ¬(f.rest [a]).isEmpty = true := fun h => (LineField.isEmpty_rest_iff [a]).mp h w hw
  unfold LineState.step
  dsimp only
  rw [if_neg hne]

/-- The letter that ends the field. -/
theorem step_of_stop {entered : Bool} (hstop : ∀ w, ¬f.Matches (f.stop :: w)) (hend : f.Matches []) :
    LineState.step ⟨f :: fields, entered, position, vars⟩ f.stop =
      some ⟨fields, false, position + 1, f.leave position vars⟩ := by
  have hempty : (f.rest [f.stop]).isEmpty = true := (LineField.isEmpty_rest_iff [f.stop]).mpr hstop
  unfold LineState.step
  dsimp only
  rw [if_pos hempty, if_pos ⟨rfl, LineField.isNullable_iff.mpr hend⟩]

omit [Std.IsPartialOrder α] [DecidableEq α] in
/-- The actions at one more letter `a` of the field. -/
theorem finishing_letter (hf : f.WellDelimited) {vars' : σ} (u : List α) (a : α)
    (h : ∀ q, f.finishing q vars' = f.finishing q (f.entering position vars)) :
    (∀ q, f.finishing q (if (f.rest (u ++ [a])).isNullable then f.finishing (position + u.length) vars' else vars') =
        f.finishing q (f.entering position vars)) ∧
      (f.Matches (u ++ [a]) →
        (if (f.rest (u ++ [a])).isNullable then f.finishing (position + u.length) vars' else vars') =
          f.readVars position (u ++ [a]) vars) := by
  constructor
  · intro q
    split
    · rw [hf.finishing, h]
    · exact h q
  · intro hmatch
    have hlast : position + (u ++ [a]).length - 1 = position + u.length := by
      rw [List.length_append, List.length_singleton]
      omega
    rw [if_pos ((LineField.isNullable_rest_iff _).mpr hmatch), h]
    unfold LineField.readVars
    rw [if_neg (List.append_ne_nil_of_right_ne_nil u (List.cons_ne_nil a [])), hlast]

/-- A part of a word of the field. The induction adds a letter at its end. -/
theorem reads_part (fields : List (LineField α σ)) (position : ℕ) (vars : σ) (hf : f.WellDelimited)
    {u w : List α} (hne : u ≠ []) (hw : f.Matches (u ++ w)) :
    ∃ vars', LineState.reads ⟨f :: fields, false, position, vars⟩ u =
        some ⟨f.rest u :: fields, true, position + u.length, vars'⟩ ∧
      (∀ q, f.finishing q vars' = f.finishing q (f.entering position vars)) ∧
      (f.Matches u → vars' = f.readVars position u vars) := by
  induction u using List.reverseRecOn generalizing w with
  | nil => exact absurd rfl hne
  | append_singleton u a ih =>
    rw [List.append_assoc, List.singleton_append] at hw
    by_cases hu : u = []
    · subst hu
      refine ⟨_, ?_, finishing_letter hf [] a fun q => rfl⟩
      show (LineState.step ⟨f :: fields, false, position, vars⟩ a).bind _ = _
      rw [step_of_matches hw]
      rfl
    · obtain ⟨vars', hreads, hfin, -⟩ := ih hu hw
      refine ⟨_, ?_, finishing_letter hf u a hfin⟩
      have hrest : (f.rest u).Matches (a :: w) := (LineField.matches_rest_iff u (a :: w)).mpr hw
      rw [LineState.reads_append, hreads]
      show (LineState.step ⟨f.rest u :: fields, true, position + u.length, vars'⟩ a).bind _ = _
      rw [step_of_matches hrest, LineField.rest_rest, List.length_append, ← Nat.add_assoc]
      rfl

/-- **A field is read**, with the letter that ends it. -/
theorem reads_field (fields : List (LineField α σ)) (position : ℕ) (vars : σ) (hf : f.WellDelimited)
    {w : List α} (hw : f.Matches w) :
    LineState.reads ⟨f :: fields, false, position, vars⟩ (w ++ [f.stop]) =
      some ⟨fields, false, position + w.length + 1,
        (f.rest w).leave (position + w.length) (f.readVars position w vars)⟩ := by
  have hstop : ∀ v, ¬(f.rest w).Matches ((f.rest w).stop :: v) := by
    intro v hv
    have hmem : f.stop ∈ w ++ f.stop :: v := List.mem_append_right w List.mem_cons_self
    exact hf.stop _ ((LineField.matches_rest_iff w _).mp hv) hmem
  have hend : (f.rest w).Matches [] := by
    rw [LineField.matches_rest_iff, List.append_nil]
    exact hw
  by_cases hne : w = []
  · subst hne
    rw [LineField.rest_nil] at hstop hend
    show (LineState.step ⟨f :: fields, false, position, vars⟩ f.stop).bind _ = _
    rw [step_of_stop hstop hend, LineField.rest_nil]
    rfl
  · have hpart : f.Matches (w ++ []) := by
      rw [List.append_nil]
      exact hw
    obtain ⟨vars', hreads, -, hvars⟩ := reads_part fields position vars hf hne hpart
    rw [LineState.reads_append, hreads, ← hvars hw]
    show (LineState.step ⟨f.rest w :: fields, true, position + w.length, vars'⟩ (f.rest w).stop).bind _ = _
    rw [step_of_stop hstop hend]
    rfl

end

end OverSip
