import Mathlib.Data.List.Basic

/-!
# Removing a pattern from a text

A pattern is a word and one or more characters of a class behind it. `removeAll` takes away its matches, each the
first one from the left and as long as it can be, as `gsub` with an empty text does.

When the first character of the word is neither in the rest of the word nor in the class, no match contains a second
one of it. So a text can be cut in front of this character, and each part is treated alone.
-/

namespace OverSip

variable {α : Type}

/-- A word, and a class of characters of which one or more stand behind it. -/
structure Pattern (α : Type) where
  word : List α
  cls : α → Bool

namespace Pattern

variable [DecidableEq α] (p : Pattern α)

/-- The length of the match at the beginning. -/
def matchLength (s : List α) : Option ℕ :=
  if p.word <+: s ∧ (s.drop p.word.length).head?.any p.cls then
    some (p.word.length + ((s.drop p.word.length).takeWhile p.cls).length)
  else none

/-- The text without its matches; of the first match, `skip` characters are still to be left out. -/
def removeFrom : ℕ → List α → List α
  | _, [] => []
  | skip + 1, _ :: s => removeFrom skip s
  | 0, c :: s =>
    match p.matchLength (c :: s) with
    | some n => removeFrom (n - 1) s
    | none => c :: removeFrom 0 s

def removeAll (s : List α) : List α := p.removeFrom 0 s

/-- The pattern matches at some place. -/
def Occurs (s : List α) : Prop := ∃ before c behind, s = before ++ p.word ++ c :: behind ∧ p.cls c = true

variable {p} {s : List α}

theorem matchLength_ne_none_iff : p.matchLength s ≠ none ↔ ∃ c behind, s = p.word ++ c :: behind ∧ p.cls c = true := by
  unfold matchLength
  constructor
  · intro h
    split_ifs at h with hmatch
    · obtain ⟨⟨rest, rfl⟩, hhead⟩ := hmatch
      rw [List.drop_left] at hhead
      cases rest with
      | nil => cases hhead
      | cons c behind => exact ⟨c, behind, rfl, hhead⟩
    · exact absurd rfl h
  · rintro ⟨c, behind, rfl, hc⟩
    have hhead : ((p.word ++ c :: behind).drop p.word.length).head?.any p.cls = true := by
      rw [List.drop_left]
      exact hc
    rw [if_pos ⟨List.prefix_append _ _, hhead⟩]
    exact Option.some_ne_none _

theorem occurs_cons_iff {c : α} : p.Occurs (c :: s) ↔ p.matchLength (c :: s) ≠ none ∨ p.Occurs s := by
  rw [matchLength_ne_none_iff]
  constructor
  · rintro ⟨before, d, behind, heq, hd⟩
    cases before with
    | nil => exact .inl ⟨d, behind, heq, hd⟩
    | cons b before =>
      rw [List.cons_append, List.cons_append] at heq
      exact .inr ⟨before, d, behind, (List.cons.inj heq).2, hd⟩
  · rintro (⟨d, behind, heq, hd⟩ | ⟨before, d, behind, rfl, hd⟩)
    · exact ⟨[], d, behind, heq, hd⟩
    · exact ⟨c :: before, d, behind, rfl, hd⟩

theorem length_removeFrom_le (skip : ℕ) : (p.removeFrom skip s).length ≤ s.length := by
  induction s generalizing skip with
  | nil => exact Nat.le_refl 0
  | cons c s ih =>
    cases skip with
    | succ skip => exact Nat.le_succ_of_le (ih skip)
    | zero =>
      unfold removeFrom
      split
      · exact Nat.le_succ_of_le (ih _)
      · exact Nat.succ_le_succ (ih 0)

/-- Nothing is removed of the texts without a match alone. -/
theorem removeAll_eq_self_iff : p.removeAll s = s ↔ ¬ p.Occurs s := by
  unfold removeAll
  induction s with
  | nil =>
    refine iff_of_true rfl ?_
    rintro ⟨before, c, behind, heq, -⟩
    have hlength := congrArg List.length heq
    simp only [List.length_nil, List.length_append, List.length_cons] at hlength
    omega
  | cons c s ih =>
    rw [occurs_cons_iff, not_or, not_ne_iff]
    unfold removeFrom
    cases hmatch : p.matchLength (c :: s) with
    | some n =>
      -- the character in front is lost
      refine iff_of_false (fun heq => ?_) fun h => Option.some_ne_none n h.1
      have heq : p.removeFrom (n - 1) s = c :: s := heq
      have hle := length_removeFrom_le (p := p) (s := s) (n - 1)
      have hlength := congrArg List.length heq
      rw [List.length_cons] at hlength
      omega
    | none =>
      show c :: p.removeFrom 0 s = c :: s ↔ _
      rw [← ih]
      constructor
      · exact fun heq => ⟨rfl, (List.cons.inj heq).2⟩
      · exact fun heq => congrArg (c :: ·) heq.2

instance (p : Pattern α) (s : List α) : Decidable (p.Occurs s) :=
  decidable_of_iff (¬ p.removeAll s = s) (not_iff_comm.mp removeAll_eq_self_iff.symm)

/-! ## Cutting a text -/

/-- The first character of the word stands at no other place of a match. -/
structure Starts (p : Pattern α) (c : α) (rest : List α) : Prop where
  word_eq : p.word = c :: rest
  notMem : c ∉ rest
  notCls : p.cls c = false

variable {c : α} {rest front behind : List α}

omit [DecidableEq α] in
theorem takeWhile_append_of_not {q : α → Bool} (hc : q c = false) :
    (front ++ c :: behind).takeWhile q = front.takeWhile q := by
  induction front with
  | nil => rw [List.nil_append, List.takeWhile_cons, hc, if_neg Bool.false_ne_true, List.takeWhile_nil]
  | cons d front ih => rw [List.cons_append, List.takeWhile_cons, List.takeWhile_cons, ih]

/-- A match in front of the first character of a word does not come to it. -/
theorem Starts.matchLength_append (h : p.Starts c rest) (hfront : front ≠ []) :
    p.matchLength (front ++ c :: behind) = p.matchLength front := by
  have hfits : p.word <+: front ++ c :: behind ↔ p.word <+: front := by
    refine ⟨fun hpre => ?_, fun hpre => hpre.trans (List.prefix_append _ _)⟩
    rcases List.prefix_or_prefix_of_prefix hpre (List.prefix_append front (c :: behind)) with hin | ⟨more, hmore⟩
    · exact hin
    · -- the word would go on with its first character
      cases more with
      | nil => exact ⟨[], by rw [List.append_nil, ← hmore, List.append_nil]⟩
      | cons d more =>
        obtain ⟨tail, htail⟩ := hpre
        rw [← hmore, List.append_assoc] at htail
        have hd : d = c := (List.cons.inj (List.append_cancel_left htail)).1
        cases front with
        | nil => exact absurd rfl hfront
        | cons x front =>
          rw [h.word_eq, List.cons_append] at hmore
          have hrest := (List.cons.inj hmore).2
          exact absurd (hrest ▸ hd ▸ List.mem_append_right front List.mem_cons_self) h.notMem
  unfold matchLength
  by_cases hin : p.word <+: front
  · obtain ⟨tail, rfl⟩ := hin
    rw [List.append_assoc, List.drop_left, List.drop_left]
    have hhead : ((tail ++ c :: behind).head?.any p.cls = true) ↔ (tail.head?.any p.cls = true) := by
      cases tail with
      | nil => simp [h.notCls]
      | cons d tail => rfl
    rw [takeWhile_append_of_not h.notCls]
    simp only [List.prefix_append, true_and, hhead]
  · rw [if_neg fun hboth => hin (hfits.mp hboth.1), if_neg fun hboth => hin hboth.1]

/-- The match at the beginning is not longer than the text. -/
theorem matchLength_le {n : ℕ} (h : p.matchLength s = some n) : n ≤ s.length := by
  unfold matchLength at h
  split_ifs at h with hmatch
  obtain ⟨⟨tail, rfl⟩, -⟩ := hmatch
  rw [List.drop_left] at h
  have hle : (tail.takeWhile p.cls).length ≤ tail.length := (List.takeWhile_sublist _).length_le
  rw [← Option.some.inj h, List.length_append]
  omega

/-- **A text is cut** in front of the first character of a word. -/
theorem Starts.removeFrom_append (h : p.Starts c rest) {skip : ℕ} (hskip : skip ≤ front.length) :
    p.removeFrom skip (front ++ c :: behind) = p.removeFrom skip front ++ p.removeAll (c :: behind) := by
  induction front generalizing skip with
  | nil =>
    rw [List.length_nil, Nat.le_zero] at hskip
    rw [hskip]
    rfl
  | cons d front ih =>
    cases skip with
    | succ skip => exact ih (Nat.le_of_succ_le_succ hskip)
    | zero =>
      have hmatch : p.matchLength (d :: (front ++ c :: behind)) = p.matchLength (d :: front) :=
        h.matchLength_append (List.cons_ne_nil d front)
      show p.removeFrom 0 (d :: (front ++ c :: behind)) = _
      unfold removeFrom
      rw [hmatch]
      cases hlength : p.matchLength (d :: front) with
      | none => exact congrArg (d :: ·) (ih (Nat.zero_le _))
      | some n =>
        have hn := matchLength_le hlength
        rw [List.length_cons] at hn
        exact ih (by omega)

theorem Starts.removeAll_append (h : p.Starts c rest) :
    p.removeAll (front ++ c :: behind) = p.removeAll front ++ p.removeAll (c :: behind) :=
  h.removeFrom_append (Nat.zero_le _)

theorem removeFrom_append_length (front : List α) : p.removeFrom front.length (front ++ s) = p.removeAll s := by
  induction front with
  | nil => rfl
  | cons d front ih => exact ih

/-- **The match at the beginning** is removed. -/
theorem Starts.removeAll_match (h : p.Starts c rest) {token : List α} (htoken : token ≠ [])
    (hcls : ∀ d ∈ token, p.cls d = true) :
    p.removeAll (p.word ++ token ++ s) = p.removeAll (s.dropWhile p.cls) := by
  obtain ⟨d, token', rfl⟩ := List.exists_cons_of_ne_nil htoken
  have hlength : p.matchLength (p.word ++ (d :: token') ++ s) =
      some (p.word.length + ((d :: token').length + (s.takeWhile p.cls).length)) := by
    unfold matchLength
    rw [List.append_assoc, List.drop_left, List.takeWhile_append_of_pos hcls, List.length_append, if_pos]
    exact ⟨List.prefix_append _ _, hcls d List.mem_cons_self⟩
  have hsplit : rest ++ ((d :: token') ++ s) = (rest ++ (d :: token') ++ s.takeWhile p.cls) ++ s.dropWhile p.cls := by
    rw [List.append_assoc, List.append_assoc, List.takeWhile_append_dropWhile]
  rw [h.word_eq, List.append_assoc, List.cons_append] at hlength ⊢
  unfold removeAll
  conv_lhs => unfold removeFrom
  rw [hlength]
  show p.removeFrom _ _ = _
  rw [hsplit, show (c :: rest).length + ((d :: token').length + (s.takeWhile p.cls).length) - 1 =
    (rest ++ (d :: token') ++ s.takeWhile p.cls).length by
      simp only [List.length_cons, List.length_append]
      omega]
  exact removeFrom_append_length _

/-- **One match is taken out** of a text if and only if there is no other one in front of it nor behind it, and it
does not go on. -/
theorem Starts.removeAll_eq_iff (h : p.Starts c rest) {token : List α} (htoken : token ≠ [])
    (hcls : ∀ d ∈ token, p.cls d = true) :
    p.removeAll (front ++ p.word ++ token ++ behind) = front ++ behind ↔
      ¬ p.Occurs front ∧ ¬ p.Occurs behind ∧ behind.head?.any p.cls = false := by
  have hremoved : p.removeAll (front ++ p.word ++ token ++ behind) =
      p.removeAll front ++ p.removeAll (behind.dropWhile p.cls) := by
    rw [← h.removeAll_match htoken hcls, List.append_assoc, List.append_assoc, List.append_assoc, h.word_eq]
    exact h.removeAll_append
  have hfront : (p.removeAll front).length ≤ front.length := length_removeFrom_le 0
  have hbehind : (p.removeAll (behind.dropWhile p.cls)).length ≤ (behind.dropWhile p.cls).length :=
    length_removeFrom_le 0
  have hdrop : (behind.dropWhile p.cls).length ≤ behind.length := (List.dropWhile_sublist _).length_le
  have hhead : behind.dropWhile p.cls = behind ↔ behind.head?.any p.cls = false := by
    cases behind with
    | nil => exact iff_of_true rfl rfl
    | cons d behind =>
      rw [List.dropWhile_cons]
      show _ ↔ p.cls d = false
      cases hd : p.cls d with
      | false => exact iff_of_true rfl rfl
      | true =>
        refine iff_of_false (fun heq => ?_) Bool.noConfusion
        have hle : (behind.dropWhile p.cls).length ≤ behind.length := (List.dropWhile_sublist _).length_le
        have hlength := congrArg List.length heq
        rw [if_pos rfl, List.length_cons] at hlength
        omega
  rw [hremoved, ← removeAll_eq_self_iff, ← removeAll_eq_self_iff, ← hhead]
  constructor
  · intro heq
    have hlength := congrArg List.length heq
    rw [List.length_append, List.length_append] at hlength
    obtain ⟨heq₁, heq₂⟩ := List.append_inj heq (by omega)
    have hwhole : behind.dropWhile p.cls = behind :=
      (List.dropWhile_sublist _).eq_of_length (by omega)
    rw [hwhole] at heq₂
    exact ⟨heq₁, heq₂, hwhole⟩
  · rintro ⟨heq₁, heq₂, hwhole⟩
    rw [hwhole, heq₁, heq₂]

end Pattern

end OverSip
