import Mathlib.Data.List.Basic

/-!
# Parts between separators outside quotes

A text with quoted strings is cut at the separators that stand outside the quotes. In quotes an escape takes the
letter behind it its meaning. A text that contains no such separator and closes what it opens (`Outside`) stays in
one piece, whatever stands behind it.
-/

namespace OverSip

/-- Where a letter stands. -/
inductive QuoteState
  | plain | quoted | escaped
deriving DecidableEq, Repr

/-- The letters that have a meaning. -/
structure Quoting (α : Type) where
  separator : α
  quote : α
  escape : α

namespace Quoting

variable {α : Type} [DecidableEq α] (q : Quoting α)

def next : QuoteState → α → QuoteState
  | .plain, c => if c = q.quote then .quoted else .plain
  | .quoted, c => if c = q.quote then .plain else if c = q.escape then .escaped else .quoted
  | .escaped, _ => .quoted

/-- The parts of a text that begins in the state. -/
def split : QuoteState → List α → List (List α)
  | _, [] => [[]]
  | s, c :: rest =>
    if s = .plain ∧ c = q.separator then [] :: split .plain rest
    else (split (q.next s c) rest).modifyHead (c :: ·)

/-- The state behind a text that contains no separator outside quotes. -/
def reach : QuoteState → List α → Option QuoteState
  | s, [] => some s
  | s, c :: rest => if s = .plain ∧ c = q.separator then none else reach (q.next s c) rest

theorem reach_cons (s : QuoteState) (c : α) (rest : List α) :
    q.reach s (c :: rest) = if s = .plain ∧ c = q.separator then none else q.reach (q.next s c) rest := rfl

theorem split_cons (s : QuoteState) (c : α) (rest : List α) :
    q.split s (c :: rest) = if s = .plain ∧ c = q.separator then [] :: q.split .plain rest
      else (q.split (q.next s c) rest).modifyHead (c :: ·) := by
  cases s <;> rfl

theorem reach_append (s : QuoteState) (u v : List α) :
    q.reach s (u ++ v) = (q.reach s u).bind fun s' => q.reach s' v := by
  induction u generalizing s with
  | nil => rfl
  | cons c u ih =>
    rw [List.cons_append, reach_cons, reach_cons, ih]
    split <;> rfl

/-- A text without a separator outside quotes stays in one piece. -/
theorem split_append {s s' : QuoteState} {u : List α} (h : q.reach s u = some s') (v : List α) :
    q.split s (u ++ v) = (q.split s' v).modifyHead (u ++ ·) := by
  induction u generalizing s with
  | nil =>
    obtain rfl := Option.some.inj h
    show q.split s v = (q.split s v).modifyHead id
    rw [List.modifyHead_id]
    rfl
  | cons c u ih =>
    rw [reach_cons] at h
    by_cases hsep : s = .plain ∧ c = q.separator
    · rw [if_pos hsep] at h
      exact absurd h.symm (Option.some_ne_none _)
    · rw [if_neg hsep] at h
      rw [List.cons_append, split_cons, if_neg hsep, ih h, List.modifyHead_modifyHead]
      rfl

/-! ## Texts that close what they open -/

/-- No separator outside quotes, and every quote is closed. -/
def Outside (u : List α) : Prop := q.reach .plain u = some .plain

variable {q}

theorem Outside.append {u v : List α} (hu : q.Outside u) (hv : q.Outside v) : q.Outside (u ++ v) := by
  unfold Outside
  rw [reach_append, hu]
  exact hv

theorem outside_of_notMem {u : List α} (hsep : q.separator ∉ u) (hquote : q.quote ∉ u) : q.Outside u := by
  induction u with
  | nil => rfl
  | cons c u ih =>
    rw [List.mem_cons, not_or] at hsep hquote
    unfold Outside reach
    rw [if_neg fun h => hsep.1 h.2.symm]
    show q.reach (if c = q.quote then .quoted else .plain) u = some .plain
    rw [if_neg fun h => hquote.1 h.symm]
    exact ih hsep.2 hquote.2

/-- What is in quotes, piece by piece. -/
theorem reach_quoted_flatten {us : List (List α)} (h : ∀ u ∈ us, q.reach .quoted u = some .quoted) :
    q.reach .quoted us.flatten = some .quoted := by
  induction us with
  | nil => rfl
  | cons u us ih =>
    rw [List.forall_mem_cons] at h
    rw [List.flatten_cons, reach_append, h.1]
    exact ih h.2

theorem reach_quoted_of_notMem {u : List α} (hquote : q.quote ∉ u) (hescape : q.escape ∉ u) :
    q.reach .quoted u = some .quoted := by
  induction u with
  | nil => rfl
  | cons c u ih =>
    rw [List.mem_cons, not_or] at hquote hescape
    unfold reach
    rw [if_neg fun h => absurd h.1 (by decide)]
    show q.reach (if c = q.quote then .plain else if c = q.escape then .escaped else .quoted) u = some .quoted
    rw [if_neg fun h => hquote.1 h.symm, if_neg fun h => hescape.1 h.symm]
    exact ih hquote.2 hescape.2

theorem reach_quoted_pair (hne : q.escape ≠ q.quote) (c : α) : q.reach .quoted [q.escape, c] = some .quoted := by
  unfold reach
  rw [if_neg fun h => absurd h.1 (by decide)]
  show q.reach (if q.escape = q.quote then .plain else if q.escape = q.escape then .escaped else .quoted) [c] = _
  rw [if_neg hne, if_pos rfl]
  unfold reach
  rw [if_neg fun h => absurd h.1 (by decide)]
  rfl

/-- A quoted string. -/
theorem outside_quoted {u : List α} (hne : q.quote ≠ q.separator) (h : q.reach .quoted u = some .quoted) :
    q.Outside (q.quote :: (u ++ [q.quote])) := by
  unfold Outside reach
  rw [if_neg fun hsep => hne hsep.2]
  show q.reach (if q.quote = q.quote then .quoted else .plain) (u ++ [q.quote]) = some .plain
  rw [if_pos rfl, reach_append, h]
  show q.reach .quoted [q.quote] = some .plain
  unfold reach
  rw [if_neg fun hsep => hne hsep.2]
  show some (if q.quote = q.quote then QuoteState.plain else _) = some .plain
  rw [if_pos rfl]

/-- The parts of a text that was written from parts. -/
theorem split_flatMap {part : List α} {parts : List (List α)} (hpart : q.Outside part)
    (hparts : ∀ part ∈ parts, q.Outside part) :
    q.split .plain (part ++ parts.flatMap fun part => q.separator :: part) = part :: parts := by
  induction parts generalizing part with
  | nil =>
    rw [q.split_append hpart]
    show [part ++ []] = [part]
    rw [List.append_nil]
  | cons next parts ih =>
    rw [List.forall_mem_cons] at hparts
    rw [q.split_append hpart, List.flatMap_cons]
    show (if QuoteState.plain = .plain ∧ q.separator = q.separator then
        [] :: q.split .plain (next ++ parts.flatMap fun part => q.separator :: part) else _).modifyHead _ = _
    rw [if_pos ⟨rfl, rfl⟩, ih hparts.1 hparts.2]
    show (part ++ []) :: next :: parts = _
    rw [List.append_nil]

end Quoting

end OverSip
