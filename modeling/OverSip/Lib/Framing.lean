import Mathlib.Data.List.Flatten
import Mathlib.Tactic.Common

/-!
# Machines that are fed a stream in chunks

A framer keeps the bytes that it has not used. When a chunk arrives it appends it to them (`push`) and
takes turns until one asks for no other. What it puts out should depend on the stream alone, not on where
the stream was cut.

`Framer.Lawful` says what a single turn must do for that: a turn commutes with the bytes behind it, or it
only looks for more bytes, or it ends the framer whatever comes behind. `agree_of_flatten_eq` draws the conclusion
for two cuttings of a stream.

`Framer.Resumable` is for a framer whose loop may also stop with bytes left to read. Where it does not stop
so on the whole stream (`Clean`), it does not for any cutting (`Clean.feeds`).
-/

namespace OverSip

/-- A machine with a buffer. Its outputs are the visible ones, which are to be the same for every cutting,
errors, after which nothing is promised, and others. -/
structure Framer (γ β ω : Type*) where
  push : γ → List β → γ
  /-- One turn of the loop: the state after it, what it puts out, and whether the loop goes on. -/
  turn : γ → γ × List ω × Bool
  /-- Nothing that arrives is looked at any more. -/
  dead : γ → Prop
  visible : ω → Bool
  error : ω → Bool

namespace Framer

variable {γ β ω : Type*} (f : Framer γ β ω)

/-- The loop takes `c` to `c'` and puts out `o`. -/
inductive Drains : γ → List ω → γ → Prop
  | stop {c c' : γ} {o : List ω} : f.turn c = (c', o, false) → Drains c o c'
  | more {c c₁ c₂ : γ} {o₁ o₂ : List ω} :
      f.turn c = (c₁, o₁, true) → Drains c₁ o₂ c₂ → Drains c (o₁ ++ o₂) c₂

/-- The framer is fed the chunks one after the other. -/
inductive Feeds : γ → List (List β) → List ω → γ → Prop
  | nil {c : γ} : Feeds c [] [] c
  | ignored {c c₂ : γ} {d : List β} {ds : List (List β)} {o : List ω} :
      f.dead c → Feeds c ds o c₂ → Feeds c (d :: ds) o c₂
  | chunk {c c₁ c₂ : γ} {d : List β} {ds : List (List β)} {o₁ o₂ : List ω} :
      ¬ f.dead c → Drains f (f.push c d) o₁ c₁ → Feeds c₁ ds o₂ c₂ → Feeds c (d :: ds) (o₁ ++ o₂) c₂

/-- What a turn may do about the bytes behind it, on the states that meet `I`. -/
structure Lawful (I : γ → Prop) : Prop where
  push_append : ∀ c d e, f.push (f.push c d) e = f.push c (d ++ e)
  inv_push : ∀ c d, I c → I (f.push c d)
  inv_turn : ∀ c, I c → I (f.turn c).1
  turn_push : ∀ c d, I c → d ≠ [] → (∀ x ∈ (f.turn c).2.1, f.error x = false) →
    -- the bytes behind are not looked at
    ((f.turn c).2.2 = true ∨ f.dead (f.turn c).1) ∧
        f.turn (f.push c d) = (f.push (f.turn c).1 d, (f.turn c).2) ∧
        (f.dead (f.turn c).1 → f.dead (f.push (f.turn c).1 d)) ∨
    -- the turn looks for more bytes, which the next turn finds where this one stopped
    (f.turn c).2 = ([], false) ∧ ¬ f.dead (f.turn c).1 ∧
        f.turn (f.push c d) = f.turn (f.push (f.turn c).1 d) ∨
    -- the framer ends, with the bytes behind as without them
    (f.turn c).2.2 = false ∧ f.dead (f.turn c).1 ∧ (f.turn (f.push c d)).2.2 = false ∧
        f.dead (f.turn (f.push c d)).1 ∧
        (f.turn (f.push c d)).2.1.filter f.visible = (f.turn c).2.1.filter f.visible

variable {f} {c c' c₁ c₂ : γ} {d e : List β} {ds es : List (List β)} {o o₁ o₂ : List ω} {I : γ → Prop}

/-! ## The loop -/

theorem Drains.unique (h₁ : f.Drains c o₁ c₁) (h₂ : f.Drains c o₂ c₂) : o₁ = o₂ ∧ c₁ = c₂ := by
  induction h₁ generalizing o₂ c₂ with
  | stop ht =>
    cases h₂ with
    | stop ht₂ =>
      rw [ht] at ht₂
      cases ht₂
      exact ⟨rfl, rfl⟩
    | more ht₂ _ =>
      rw [ht] at ht₂
      cases ht₂
  | more ht _ ih =>
    cases h₂ with
    | stop ht₂ =>
      rw [ht] at ht₂
      cases ht₂
    | more ht₂ hrest =>
      rw [ht] at ht₂
      cases ht₂
      obtain ⟨rfl, rfl⟩ := ih hrest
      exact ⟨rfl, rfl⟩

theorem Drains.inv (hf : f.Lawful I) (h : f.Drains c o c') (hI : I c) : I c' := by
  induction h with
  | @stop c c' o ht =>
    have := hf.inv_turn c hI
    rw [ht] at this
    exact this
  | @more c c₁ c₂ o₁ o₂ ht _ ih =>
    have := hf.inv_turn c hI
    rw [ht] at this
    exact ih this

/-- What the loop does when bytes stand behind those it has: it ends in the same way, or it comes to where
it stopped for want of bytes and goes on with them. -/
theorem Drains.push (hf : f.Lawful I) (h : f.Drains c o c') (hI : I c) (hd : d ≠ [])
    (ho : ∀ x ∈ o, f.error x = false) :
    (f.dead c' ∧ ∃ o' c'', f.Drains (f.push c d) o' c'' ∧ f.dead c'' ∧
        o'.filter f.visible = o.filter f.visible) ∨
      (¬ f.dead c' ∧ ∀ o₂ c₂, f.Drains (f.push c' d) o₂ c₂ → f.Drains (f.push c d) (o ++ o₂) c₂) := by
  induction h with
  | @stop c c' o ht =>
    have hlaw := hf.turn_push c d hI hd
    simp only [ht] at hlaw
    rcases hlaw ho with ⟨hend, hpush, hdead⟩ | ⟨hout, halive, hpush⟩ | ⟨_, hdead, hstop, hdead', hvis⟩
    · have hd' : f.dead c' := hend.resolve_left (by simp)
      exact .inl ⟨hd', _, _, .stop hpush, hdead hd', rfl⟩
    · obtain ⟨rfl, _⟩ := Prod.mk.inj hout
      refine .inr ⟨halive, fun o₂ c₂ h₂ => ?_⟩
      rw [List.nil_append]
      -- the first turn is the same on both sides
      cases h₂ with
      | stop ht₂ => exact .stop (hpush.trans ht₂)
      | more ht₂ hrest => exact .more (hpush.trans ht₂) hrest
    · refine .inl ⟨hdead, _, _, .stop (Prod.ext rfl (Prod.ext rfl hstop)), hdead', hvis⟩
  | @more c c₁ c₂ o₁ o₂ ht hrest ih =>
    have hI₁ := hf.inv_turn c hI
    have hlaw := hf.turn_push c d hI hd
    simp only [ht] at hlaw hI₁
    rw [List.forall_mem_append] at ho
    have hpush : f.turn (f.push c d) = (f.push c₁ d, o₁, true) := by
      rcases hlaw ho.1 with ⟨_, hpush, _⟩ | ⟨hout, _⟩ | ⟨hfalse, _⟩
      · exact hpush
      · cases (Prod.mk.inj hout).2
      · cases hfalse
    rcases ih hI₁ ho.2 with ⟨hdead, o', c'', hdr, hdead', hvis⟩ | ⟨halive, hgo⟩
    · refine .inl ⟨hdead, _, _, .more hpush hdr, hdead', ?_⟩
      rw [List.filter_append, List.filter_append, hvis]
    · refine .inr ⟨halive, fun o₂ c₂ h₂ => ?_⟩
      rw [List.append_assoc]
      exact .more hpush (hgo _ _ h₂)

/-! ## Chunks -/

theorem Feeds.of_dead (h : f.Feeds c ds o c') (hd : f.dead c) : o = [] ∧ c' = c := by
  induction h with
  | nil => exact ⟨rfl, rfl⟩
  | ignored _ _ ih => exact ih hd
  | chunk halive _ _ _ => exact absurd hd halive

theorem Feeds.append (h₁ : f.Feeds c ds o₁ c₁) (h₂ : f.Feeds c₁ es o₂ c₂) :
    f.Feeds c (ds ++ es) (o₁ ++ o₂) c₂ := by
  induction h₁ with
  | nil => exact h₂
  | ignored hd _ ih => exact .ignored hd (ih h₂)
  | chunk halive hdr _ ih =>
    rw [List.append_assoc]
    exact .chunk halive hdr (ih h₂)

/-- The same state, or both at their end. -/
def Agree (f : Framer γ β ω) (c c' : γ) : Prop := c = c' ∨ f.dead c ∧ f.dead c'

theorem Agree.dead_iff (h : f.Agree c c') : f.dead c ↔ f.dead c' := by
  rcases h with rfl | ⟨h, h'⟩
  · exact Iff.rfl
  · exact iff_of_true h h'

theorem Agree.trans (h : f.Agree c c₁) (h' : f.Agree c₁ c₂) : f.Agree c c₂ := by
  rcases h with rfl | ⟨hd, hd₁⟩
  · exact h'
  · exact .inr ⟨hd, h'.dead_iff.mp hd₁⟩

theorem Agree.symm (h : f.Agree c c') : f.Agree c' c := by
  rcases h with rfl | ⟨hd, hd'⟩
  · exact .inl rfl
  · exact .inr ⟨hd', hd⟩

/-- Feeding some chunks is feeding their bytes at once. -/
theorem Feeds.at_once (hf : f.Lawful I) (h : f.Feeds c ds o c') (hI : I c) (halive : ¬ f.dead c)
    (hne : ds ≠ []) (hds : ∀ d ∈ ds, d ≠ []) (ho : ∀ x ∈ o, f.error x = false) :
    ∃ o₁ c₁, f.Drains (f.push c ds.flatten) o₁ c₁ ∧
      o₁.filter f.visible = o.filter f.visible ∧ f.Agree c₁ c' := by
  induction h with
  | nil => exact absurd rfl hne
  | ignored hd _ _ => exact absurd hd halive
  | @chunk c c₁ c₂ d ds o₁ o₂ _ hdr hrest ih =>
    rw [List.forall_mem_append] at ho
    rw [List.forall_mem_cons] at hds
    have hI' := hf.inv_push c d hI
    rw [List.flatten_cons, ← hf.push_append]
    cases ds with
    | nil =>
      cases hrest
      refine ⟨o₁, c₁, ?_, by rw [List.append_nil], .inl rfl⟩
      -- the chunk was the last one
      have hnil : f.push (f.push c d) [] = f.push c d := by rw [hf.push_append, List.append_nil]
      rw [List.flatten_nil, hnil]
      exact hdr
    | cons e es =>
      have hflat : (e :: es).flatten ≠ [] := by
        rw [List.flatten_cons]
        exact fun hnil => hds.2 e List.mem_cons_self (List.append_eq_nil_iff.mp hnil).1
      rcases hdr.push hf hI' hflat ho.1 with ⟨hdead, o', c'', hdr', hdead', hvis⟩ | ⟨halive₁, hgo⟩
      · obtain ⟨rfl, rfl⟩ := hrest.of_dead hdead
        refine ⟨o', c'', hdr', ?_, .inr ⟨hdead', hdead⟩⟩
        rw [List.append_nil, hvis]
      · obtain ⟨o₂', c₂', hdr₂, hvis, hagree⟩ :=
          ih (hdr.inv hf hI') halive₁ (List.cons_ne_nil e es) hds.2 ho.2
        refine ⟨o₁ ++ o₂', c₂', hgo _ _ hdr₂, ?_, hagree⟩
        rw [List.filter_append, List.filter_append, hvis]

/-- **Two cuttings of a stream** put out the same and lead to the same. -/
theorem Feeds.agree_of_flatten_eq (hf : f.Lawful I) (h₁ : f.Feeds c ds o₁ c₁) (h₂ : f.Feeds c es o₂ c₂)
    (hI : I c) (hds : ∀ d ∈ ds, d ≠ []) (hes : ∀ d ∈ es, d ≠ []) (heq : ds.flatten = es.flatten)
    (ho₁ : ∀ x ∈ o₁, f.error x = false) (ho₂ : ∀ x ∈ o₂, f.error x = false) :
    o₁.filter f.visible = o₂.filter f.visible ∧ f.Agree c₁ c₂ := by
  by_cases hdead : f.dead c
  · obtain ⟨rfl, rfl⟩ := h₁.of_dead hdead
    obtain ⟨rfl, rfl⟩ := h₂.of_dead hdead
    exact ⟨rfl, .inl rfl⟩
  · by_cases hnil : ds = []
    · subst hnil
      have hes' : es = [] := by
        rw [List.flatten_nil, eq_comm, List.flatten_eq_nil_iff] at heq
        exact List.eq_nil_iff_forall_not_mem.mpr fun d hd => hes d hd (heq d hd)
      subst hes'
      cases h₁
      cases h₂
      exact ⟨rfl, .inl rfl⟩
    · have hes' : es ≠ [] := by
        rintro rfl
        rw [List.flatten_nil, List.flatten_eq_nil_iff] at heq
        exact hnil (List.eq_nil_iff_forall_not_mem.mpr fun d hd => hds d hd (heq d hd))
      obtain ⟨p₁, q₁, hdr₁, hvis₁, hagree₁⟩ := h₁.at_once hf hI hdead hnil hds ho₁
      obtain ⟨p₂, q₂, hdr₂, hvis₂, hagree₂⟩ := h₂.at_once hf hI hdead hes' hes ho₂
      rw [heq] at hdr₁
      obtain ⟨rfl, rfl⟩ := hdr₁.unique hdr₂
      exact ⟨hvis₁.symm.trans hvis₂, hagree₁.symm.trans hagree₂⟩

/-! ## A stream that is read to its end -/

/-- The loop takes `c` to `c'` and puts out `o`, and stops because it waits for more bytes, or for good. -/
inductive Clean (f : Framer γ β ω) : γ → List ω → γ → Prop
  | wait {c : γ} : ¬ f.dead c → f.turn c = (c, [], false) → Clean f c [] c
  | ended {c c' : γ} {o : List ω} : f.turn c = (c', o, false) → f.dead c' → Clean f c o c'
  | more {c c₁ c₂ : γ} {o₁ o₂ : List ω} :
      f.turn c = (c₁, o₁, true) → Clean f c₁ o₂ c₂ → Clean f c (o₁ ++ o₂) c₂

/-- A turn of a framer that is not dead waits for more bytes, or does not look at those behind. -/
structure Resumable (f : Framer γ β ω) : Prop where
  push_nil : ∀ c, f.push c [] = c
  push_append : ∀ c d e, f.push (f.push c d) e = f.push c (d ++ e)
  push_inj : ∀ c c' d, f.push c d = f.push c' d → c = c'
  dead_push : ∀ c d, f.dead (f.push c d) ↔ f.dead c
  alive_turn : ∀ c, ¬ f.dead c → (f.turn c).2.2 = true → ¬ f.dead (f.turn c).1
  turn_push : ∀ c d, ¬ f.dead c → f.turn c = (c, [], false) ∨
    (f.turn (f.push c d)).2 = (f.turn c).2 ∧ ((f.turn (f.push c d)).1 = f.push (f.turn c).1 d ∨
      f.dead (f.turn c).1 ∧ (f.turn c).2.2 = false)

/-- A turn after which the loop goes on does not look at the bytes behind. -/
theorem Resumable.turn_push_of_more (hf : f.Resumable) (halive : ¬ f.dead c)
    (ht : f.turn c = (c', o, true)) (d : List β) : f.turn (f.push c d) = (f.push c' d, o, true) := by
  rcases hf.turn_push c d halive with hwait | ⟨hout, hconn⟩
  · rw [ht] at hwait
    cases hwait
  · rw [ht] at hout hconn
    refine Prod.ext (hconn.resolve_right ?_) hout
    rintro ⟨_, hstop⟩
    cases hstop

theorem Clean.drains (h : f.Clean c o c') : f.Drains c o c' := by
  induction h with
  | wait _ ht => exact .stop ht
  | ended ht _ => exact .stop ht
  | more ht _ ih => exact .more ht ih

/-- Where the framer is not dead, it has stopped for want of bytes. -/
theorem Clean.waits (h : f.Clean c o c') (halive : ¬ f.dead c') : f.turn c' = (c', [], false) := by
  induction h with
  | wait _ ht => exact ht
  | ended _ hdead => exact absurd hdead halive
  | more _ _ ih => exact ih halive

/-- The loop without the last bytes: it comes to the same end, or it stops where it goes on with them. -/
theorem Clean.split (hf : f.Resumable) (halive : ¬ f.dead c) (h : f.Clean (f.push c d) o c') :
    ∃ o₁ c₁, f.Clean c o₁ c₁ ∧ (f.dead c₁ ∧ o₁ = o ∨
      ¬ f.dead c₁ ∧ ∃ o₂, f.Clean (f.push c₁ d) o₂ c' ∧ o = o₁ ++ o₂) := by
  generalize hpush : f.push c d = cd at h
  induction h generalizing c with
  | @wait cd hcd ht =>
    subst hpush
    rcases hf.turn_push c d halive with hwait | ⟨hout, hconn⟩
    · exact ⟨[], c, .wait halive hwait, .inr ⟨halive, [], .wait hcd ht, rfl⟩⟩
    · rw [ht] at hout hconn
      by_cases hdead : f.dead (f.turn c).1
      · exact ⟨[], _, .ended (Prod.ext rfl hout.symm) hdead, .inl ⟨hdead, rfl⟩⟩
      · have hsame : (f.turn c).1 = c :=
          (hf.push_inj c _ d (hconn.resolve_right fun hend => hdead hend.1)).symm
        exact ⟨[], c, .wait halive (Prod.ext hsame hout.symm), .inr ⟨halive, [], .wait hcd ht, rfl⟩⟩
  | @ended cd c' o ht hdead =>
    subst hpush
    rcases hf.turn_push c d halive with hwait | ⟨hout, hconn⟩
    · exact ⟨[], c, .wait halive hwait, .inr ⟨halive, o, .ended ht hdead, rfl⟩⟩
    · rw [ht] at hout hconn
      have hdead' : f.dead (f.turn c).1 := by
        rcases hconn with hconn | hend
        · rw [← hf.dead_push _ d, ← hconn]
          exact hdead
        · exact hend.1
      exact ⟨o, _, .ended (Prod.ext rfl hout.symm) hdead', .inl ⟨hdead', rfl⟩⟩
  | @more cd c₁ c₂ o₁ o₂ ht hrest ih =>
    subst hpush
    rcases hf.turn_push c d halive with hwait | ⟨hout, hconn⟩
    · exact ⟨[], c, .wait halive hwait, .inr ⟨halive, o₁ ++ o₂, .more ht hrest, rfl⟩⟩
    · rw [ht] at hout hconn
      have hagain : (f.turn c).2.2 = true := by rw [← hout]
      have hpush : f.push (f.turn c).1 d = c₁ := by
        rcases hconn with hconn | hend
        · exact hconn.symm
        · rw [hagain] at hend
          cases hend.2
      obtain ⟨o', c'', hclean, hend⟩ := ih (hf.alive_turn c halive hagain) hpush
      refine ⟨o₁ ++ o', c'', .more (Prod.ext rfl hout.symm) hclean, ?_⟩
      rcases hend with ⟨hdead, rfl⟩ | ⟨halive', o'', hclean', rfl⟩
      · exact .inl ⟨hdead, rfl⟩
      · exact .inr ⟨halive', o'', hclean', (List.append_assoc _ _ _).symm⟩

/-- Where the loop stops alive, it waits for more bytes, or it stops there whatever comes behind. -/
theorem Drains.clean_or_stalls (hf : f.Resumable) (halive : ¬ f.dead c) (h : f.Drains c o c') :
    f.Clean c o c' ∨ ¬ f.dead c' ∧ ∀ d, f.Drains (f.push c d) o (f.push c' d) := by
  induction h with
  | @stop c c' o ht =>
    by_cases hdead : f.dead c'
    · exact .inl (.ended ht hdead)
    · by_cases hwait : f.turn c = (c, [], false)
      · rw [ht] at hwait
        cases hwait
        exact .inl (.wait hdead ht)
      · refine .inr ⟨hdead, fun d => .stop ?_⟩
        obtain ⟨hout, hconn⟩ := (hf.turn_push c d halive).resolve_left hwait
        rw [ht] at hout hconn
        exact Prod.ext (hconn.resolve_right fun hend => hdead hend.1) hout
  | @more c c₁ c₂ o₁ o₂ ht _ ih =>
    have halive₁ : ¬ f.dead c₁ := by
      have := hf.alive_turn c halive
      rw [ht] at this
      exact this rfl
    rcases ih halive₁ with hclean | ⟨hdead, hpush⟩
    · exact .inl (.more ht hclean)
    · exact .inr ⟨hdead, fun d => .more (hf.turn_push_of_more halive ht d) (hpush d)⟩

/-- Where the loop waits for more bytes, it goes on with those behind. -/
theorem Clean.push_drains (hf : f.Resumable) (halive : ¬ f.dead c) (h : f.Clean c o c')
    (halive' : ¬ f.dead c') (h₂ : f.Drains (f.push c' d) o₂ c₂) :
    f.Drains (f.push c d) (o ++ o₂) c₂ := by
  induction h with
  | wait _ _ => exact h₂
  | ended _ hdead => exact absurd hdead halive'
  | @more c c₁ c' o₁ o ht _ ih =>
    have halive₁ : ¬ f.dead c₁ := by
      have := hf.alive_turn c halive
      rw [ht] at this
      exact this rfl
    rw [List.append_assoc]
    exact .more (hf.turn_push_of_more halive ht d) (ih halive₁ halive' h₂)

theorem Feeds.ignores (h : f.dead c) (ds : List (List β)) : f.Feeds c ds [] c := by
  induction ds with
  | nil => exact .nil
  | cons d ds ih => exact .ignored h ih

/-- **A stream in chunks.** What the framer puts out for a stream that it reads to its end, it puts out for
every cutting of the stream. -/
theorem Clean.feeds (hf : f.Resumable) (halive : ¬ f.dead c) (hwait : f.turn c = (c, [], false))
    (h : f.Clean (f.push c ds.flatten) o c') : ∃ c'', f.Feeds c ds o c'' := by
  induction ds generalizing c o with
  | nil =>
    rw [List.flatten_nil, hf.push_nil] at h
    obtain ⟨rfl, _⟩ := h.drains.unique (.stop hwait)
    exact ⟨c, .nil⟩
  | cons d ds ih =>
    rw [List.flatten_cons, ← hf.push_append] at h
    have halive' : ¬ f.dead (f.push c d) := fun hdead => halive ((hf.dead_push c d).mp hdead)
    obtain ⟨o₁, c₁, hclean, ⟨hdead, rfl⟩ | ⟨halive₁, o₂, hclean', rfl⟩⟩ := h.split hf halive'
    · have hfeeds : f.Feeds c (d :: ds) (o₁ ++ []) c₁ :=
        .chunk halive hclean.drains (.ignores hdead ds)
      rw [List.append_nil] at hfeeds
      exact ⟨c₁, hfeeds⟩
    · obtain ⟨c'', hfeeds⟩ := ih halive₁ (hclean.waits halive₁) hclean'
      exact ⟨c'', .chunk halive hclean.drains hfeeds⟩

end Framer

end OverSip
