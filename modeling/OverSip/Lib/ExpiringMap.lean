import OverSip.Lib.TimerQueue
import Mathlib.Data.List.AList
import Mathlib.Data.List.Induction

/-!
# Maps whose stores expire

A map in which each store of a key arms a timer of its own that deletes the key. A timer knows the key
and not the store it belongs to, and nothing cancels it, so a timer of an earlier store deletes what a
later one has put there.

`advance t` fires the timers due by `t`. `replay h` is the map after the stores `h`. `live h k t` is the
store a reader means: the last one of the key, until its time is over. `punctual_iff` says of which keys
the map holds what `live` says at all times.
-/

namespace OverSip

/-- A store of a value, at a time and for a time. -/
structure Store (κ ν : Type) where
  key : κ
  value : ν
  time : ℕ
  timeout : ℕ
deriving DecidableEq, Repr

/-- The time a store is over. -/
def Store.due {κ ν : Type} (a : Store κ ν) : ℕ := a.time + a.timeout

/-- The entries and the armed deletions. -/
structure ExpiringMap (κ ν : Type) [DecidableEq κ] where
  entries : AList fun _ : κ => ν
  timers : TimerQueue κ

namespace ExpiringMap

variable {κ ν : Type} [DecidableEq κ]

def empty : ExpiringMap κ ν := ⟨∅, []⟩

def get (m : ExpiringMap κ ν) (k : κ) : Option ν := m.entries.lookup k

/-- Store a value and arm the timer that deletes the key. -/
def put (m : ExpiringMap κ ν) (a : Store κ ν) : ExpiringMap κ ν :=
  { entries := m.entries.insert a.key a.value, timers := m.timers.arm a.key a.due }

/-- Fire the timers due by `t`. -/
def advance (m : ExpiringMap κ ν) (t : ℕ) : ExpiringMap κ ν :=
  { entries := (m.timers.filter (·.due ≤ t)).foldl (fun e x => e.erase x.key) m.entries
    timers := m.timers.filter (t < ·.due) }

/-- The map after some stores, the oldest first. -/
def replay (h : List (Store κ ν)) : ExpiringMap κ ν :=
  h.foldl (fun m a => (m.advance a.time).put a) empty

/-- The stores of a key. -/
def storesOf (h : List (Store κ ν)) (k : κ) : List (Store κ ν) := h.filter (·.key = k)

/-- The last store of a key. -/
def lastStore (h : List (Store κ ν)) (k : κ) : Option (Store κ ν) := (storesOf h k).getLast?

/-- The last store of a key while its time is not over. -/
def live (h : List (Store κ ν)) (k : κ) (t : ℕ) : Option (Store κ ν) :=
  (lastStore h k).filter (t < ·.due)

/-! ## Firing timers -/

theorem lookup_foldl_erase (q : TimerQueue κ) (e : AList fun _ : κ => ν) (k : κ) :
    (q.foldl (fun e x => e.erase x.key) e).lookup k = if q.Has k then none else e.lookup k := by
  induction q generalizing e with
  | nil => simp
  | cons x q ih =>
    rw [List.foldl_cons, ih]
    by_cases hq : TimerQueue.Has q k
    · have hxq : TimerQueue.Has (x :: q) k := by
        obtain ⟨y, hy, hk⟩ := hq
        exact ⟨y, List.mem_cons_of_mem _ hy, hk⟩
      rw [if_pos hq, if_pos hxq]
    · rw [if_neg hq]
      by_cases hx : x.key = k
      · have hxq : TimerQueue.Has (x :: q) k := ⟨x, List.mem_cons_self, hx⟩
        rw [if_pos hxq, hx, AList.lookup_erase]
      · have hxq : ¬ TimerQueue.Has (x :: q) k := by
          rintro ⟨y, hy, hk⟩
          rcases List.mem_cons.mp hy with rfl | hy
          · exact hx hk
          · exact hq ⟨y, hy, hk⟩
        rw [if_neg hxq, AList.lookup_erase_ne (Ne.symm hx)]

theorem get_advance (m : ExpiringMap κ ν) (t : ℕ) (k : κ) :
    (m.advance t).get k = if ∃ x ∈ m.timers, x.key = k ∧ x.due ≤ t then none else m.get k := by
  have hiff : TimerQueue.Has (m.timers.filter (·.due ≤ t)) k ↔
      ∃ x ∈ m.timers, x.key = k ∧ x.due ≤ t := by
    simp only [TimerQueue.Has, List.mem_filter, decide_eq_true_eq]
    constructor
    · rintro ⟨x, ⟨hx, hdue⟩, hk⟩
      exact ⟨x, hx, hk, hdue⟩
    · rintro ⟨x, hx, hk, hdue⟩
      exact ⟨x, ⟨hx, hdue⟩, hk⟩
  unfold get advance
  rw [lookup_foldl_erase]
  by_cases h : ∃ x ∈ m.timers, x.key = k ∧ x.due ≤ t
  · rw [if_pos h, if_pos (hiff.mpr h)]
  · rw [if_neg h, if_neg (mt hiff.mp h)]

theorem mem_timers_advance {m : ExpiringMap κ ν} {t : ℕ} {x : Armed κ} :
    x ∈ (m.advance t).timers ↔ x ∈ m.timers ∧ t < x.due := by
  simp [advance]

/-- Firing timers in two goes is firing them in one. -/
theorem get_advance_advance (m : ExpiringMap κ ν) {s t : ℕ} (h : s ≤ t) (k : κ) :
    ((m.advance s).advance t).get k = (m.advance t).get k := by
  rw [get_advance (m.advance s), get_advance m, get_advance m]
  by_cases hs : ∃ x ∈ m.timers, x.key = k ∧ x.due ≤ s
  · have ht : ∃ x ∈ m.timers, x.key = k ∧ x.due ≤ t := by
      obtain ⟨x, hx, hk, hdue⟩ := hs
      exact ⟨x, hx, hk, Nat.le_trans hdue h⟩
    rw [if_pos hs, if_pos ht, ite_self]
  · rw [if_neg hs]
    congr 1
    refine propext ⟨?_, ?_⟩
    · rintro ⟨x, hx, hk, hdue⟩
      exact ⟨x, (mem_timers_advance.mp hx).1, hk, hdue⟩
    · rintro ⟨x, hx, hk, hdue⟩
      refine ⟨x, mem_timers_advance.mpr ⟨hx, ?_⟩, hk, hdue⟩
      by_contra hlt
      exact hs ⟨x, hx, hk, by omega⟩

/-! ## A store -/

theorem get_put_self (m : ExpiringMap κ ν) (a : Store κ ν) : (m.put a).get a.key = some a.value :=
  AList.lookup_insert _

theorem get_put_of_ne (m : ExpiringMap κ ν) (a : Store κ ν) {k : κ} (hk : k ≠ a.key) :
    (m.put a).get k = m.get k :=
  AList.lookup_insert_ne hk

theorem get_put_advance_self (m : ExpiringMap κ ν) (a : Store κ ν) (t : ℕ) :
    ((m.put a).advance t).get a.key =
      if a.due ≤ t ∨ ∃ x ∈ m.timers, x.key = a.key ∧ x.due ≤ t then none else some a.value := by
  have hiff : (∃ x ∈ (m.put a).timers, x.key = a.key ∧ x.due ≤ t) ↔
      a.due ≤ t ∨ ∃ x ∈ m.timers, x.key = a.key ∧ x.due ≤ t := by
    simp only [put, TimerQueue.mem_arm]
    constructor
    · rintro ⟨x, hx | rfl, hk, hdue⟩
      · exact .inr ⟨x, hx, hk, hdue⟩
      · exact .inl hdue
    · rintro (hdue | ⟨x, hx, hk, hdue⟩)
      · exact ⟨_, .inr rfl, rfl, hdue⟩
      · exact ⟨x, .inl hx, hk, hdue⟩
  rw [get_advance, get_put_self]
  by_cases h : a.due ≤ t ∨ ∃ x ∈ m.timers, x.key = a.key ∧ x.due ≤ t
  · rw [if_pos h, if_pos (hiff.mpr h)]
  · rw [if_neg h, if_neg (mt hiff.mp h)]

/-- A store leaves the other keys alone. -/
theorem get_put_advance_of_ne (m : ExpiringMap κ ν) (a : Store κ ν) (t : ℕ) {k : κ}
    (hk : k ≠ a.key) : ((m.put a).advance t).get k = (m.advance t).get k := by
  rw [get_advance, get_advance, get_put_of_ne m a hk]
  congr 1
  refine propext ⟨?_, ?_⟩
  · rintro ⟨x, hx, hxk, hdue⟩
    simp only [put, TimerQueue.mem_arm] at hx
    rcases hx with hx | rfl
    · exact ⟨x, hx, hxk, hdue⟩
    · exact absurd hxk.symm hk
  · rintro ⟨x, hx, hxk, hdue⟩
    exact ⟨x, TimerQueue.mem_arm.mpr (.inl hx), hxk, hdue⟩

/-! ## Histories of stores -/

@[simp] theorem replay_nil : replay ([] : List (Store κ ν)) = empty := rfl

@[simp] theorem replay_snoc (h : List (Store κ ν)) (a : Store κ ν) :
    replay (h ++ [a]) = ((replay h).advance a.time).put a := by
  simp [replay]

theorem mem_storesOf {h : List (Store κ ν)} {k : κ} {a : Store κ ν} :
    a ∈ storesOf h k ↔ a ∈ h ∧ a.key = k := by
  simp [storesOf]

theorem storesOf_snoc_self (h : List (Store κ ν)) (a : Store κ ν) :
    storesOf (h ++ [a]) a.key = storesOf h a.key ++ [a] := by
  simp [storesOf]

theorem storesOf_snoc_of_ne (h : List (Store κ ν)) (a : Store κ ν) {k : κ} (hk : k ≠ a.key) :
    storesOf (h ++ [a]) k = storesOf h k := by
  simp [storesOf, hk.symm]

theorem lastStore_snoc_self (h : List (Store κ ν)) (a : Store κ ν) :
    lastStore (h ++ [a]) a.key = some a := by
  rw [lastStore, storesOf_snoc_self, List.getLast?_concat]

theorem lastStore_snoc_of_ne (h : List (Store κ ν)) (a : Store κ ν) {k : κ} (hk : k ≠ a.key) :
    lastStore (h ++ [a]) k = lastStore h k := by
  rw [lastStore, storesOf_snoc_of_ne h a hk, lastStore]

/-- An armed timer is that of a store. -/
theorem mem_timers_replay {h : List (Store κ ν)} {x : Armed κ} (hx : x ∈ (replay h).timers) :
    ∃ b ∈ h, x = ⟨b.key, b.due⟩ := by
  induction h using List.reverseRecOn with
  | nil => cases hx
  | append_singleton h a ih =>
    rw [replay_snoc] at hx
    rcases TimerQueue.mem_arm.mp hx with hx | rfl
    · obtain ⟨b, hb, hxb⟩ := ih (mem_timers_advance.mp hx).1
      exact ⟨b, List.mem_append_left _ hb, hxb⟩
    · exact ⟨a, List.mem_append_right _ (List.mem_singleton.mpr rfl), rfl⟩

/-- The timer of a store is armed until it is due. -/
theorem armed_of_mem {h : List (Store κ ν)} {b : Store κ ν} (hb : b ∈ h) {t : ℕ}
    (ht : ∀ a ∈ h, a.time ≤ t) (hdue : t < b.due) : ⟨b.key, b.due⟩ ∈ (replay h).timers := by
  induction h using List.reverseRecOn with
  | nil => cases hb
  | append_singleton h a ih =>
    rw [replay_snoc]
    rcases List.mem_append.mp hb with hb | hb
    · have hat : a.time ≤ t := ht a (List.mem_append_right _ (List.mem_singleton.mpr rfl))
      have hmem := ih hb fun c hc => ht c (List.mem_append_left _ hc)
      exact TimerQueue.mem_arm.mpr (.inl (mem_timers_advance.mpr ⟨hmem, Nat.lt_of_le_of_lt hat hdue⟩))
    · obtain rfl := List.mem_singleton.mp hb
      exact TimerQueue.mem_arm.mpr (.inr rfl)

/-! ## Maps that agree -/

/-- Two maps that no reader can tell apart, now or later. -/
def Agree (m m' : ExpiringMap κ ν) : Prop :=
  (∀ k, m.get k = m'.get k) ∧ ∀ x, x ∈ m.timers ↔ x ∈ m'.timers

theorem Agree.refl (m : ExpiringMap κ ν) : Agree m m := ⟨fun _ => rfl, fun _ => Iff.rfl⟩

theorem Agree.trans {m m' m'' : ExpiringMap κ ν} (h : Agree m m') (h' : Agree m' m'') :
    Agree m m'' :=
  ⟨fun k => (h.1 k).trans (h'.1 k), fun x => (h.2 x).trans (h'.2 x)⟩

theorem Agree.advance {m m' : ExpiringMap κ ν} (h : Agree m m') (t : ℕ) :
    Agree (m.advance t) (m'.advance t) := by
  constructor
  · intro k
    simp only [get_advance, h.1, h.2]
  · intro x
    simp only [mem_timers_advance, h.2]

theorem Agree.put {m m' : ExpiringMap κ ν} (h : Agree m m') (a : Store κ ν) :
    Agree (m.put a) (m'.put a) := by
  constructor
  · intro k
    by_cases hk : k = a.key
    · rw [hk, get_put_self, get_put_self]
    · rw [get_put_of_ne m a hk, get_put_of_ne m' a hk, h.1]
  · intro x
    simp only [ExpiringMap.put, TimerQueue.mem_arm, h.2]

theorem advance_advance (m : ExpiringMap κ ν) {s t : ℕ} (h : s ≤ t) :
    Agree ((m.advance s).advance t) (m.advance t) := by
  constructor
  · intro k
    exact get_advance_advance m h k
  · intro x
    simp only [mem_timers_advance]
    constructor
    · rintro ⟨⟨hx, _⟩, ht⟩
      exact ⟨hx, ht⟩
    · rintro ⟨hx, ht⟩
      exact ⟨⟨hx, Nat.lt_of_le_of_lt h ht⟩, ht⟩

/-! ## What a reader finds -/

/-- A reader finds the value of the last store of the key, exactly as long as its time is not over and no timer of an
earlier store has fired since. -/
theorem get_replay_iff {h : List (Store κ ν)} (hsorted : h.Pairwise fun b a => b.time ≤ a.time) {t : ℕ}
    (ht : ∀ a ∈ h, a.time ≤ t) {k : κ} {v : ν} :
    ((replay h).advance t).get k = some v ↔ ∃ a, lastStore h k = some a ∧ a.value = v ∧ t < a.due ∧
      ∀ b ∈ storesOf h k, b.due ≤ a.time ∨ t < b.due := by
  induction h using List.reverseRecOn with
  | nil =>
    rw [replay_nil, get_advance]
    simp [empty, get, lastStore, storesOf]
  | append_singleton h c ih =>
    obtain ⟨hs, _, hlast⟩ := List.pairwise_append.mp hsorted
    have hct : c.time ≤ t := ht c (List.mem_append_right _ (List.mem_singleton.mpr rfl))
    have htime : ∀ b ∈ h, b.time ≤ c.time := fun b hb => hlast b hb c (List.mem_singleton.mpr rfl)
    by_cases hk : k = c.key
    · subst hk
      -- the timers that can fire between the store and the time
      have hfired : (∃ x ∈ ((replay h).advance c.time).timers, x.key = c.key ∧ x.due ≤ t) ↔
          ∃ b ∈ storesOf h c.key, c.time < b.due ∧ b.due ≤ t := by
        constructor
        · rintro ⟨x, hx, hxk, hxt⟩
          obtain ⟨hx, hlt⟩ := mem_timers_advance.mp hx
          obtain ⟨b, hb, rfl⟩ := mem_timers_replay hx
          exact ⟨b, mem_storesOf.mpr ⟨hb, hxk⟩, hlt, hxt⟩
        · rintro ⟨b, hb, hlt, hbt⟩
          obtain ⟨hb, hbk⟩ := mem_storesOf.mp hb
          exact ⟨_, mem_timers_advance.mpr ⟨armed_of_mem hb htime hlt, hlt⟩, hbk, hbt⟩
      rw [replay_snoc, get_put_advance_self, lastStore_snoc_self, storesOf_snoc_self]
      constructor
      · intro hget
        split at hget
        · cases hget
        · rename_i hnone
          obtain ⟨hdue, hquiet⟩ := not_or.mp hnone
          refine ⟨c, rfl, Option.some.inj hget, by omega, ?_⟩
          intro b hb
          rcases List.mem_append.mp hb with hb | hb
          · by_contra hbad
            exact hquiet (hfired.mpr ⟨b, hb, by omega, by omega⟩)
          · rw [List.mem_singleton.mp hb]
            omega
      · rintro ⟨a, ha, hv, hdue, hquiet⟩
        obtain rfl := Option.some.inj ha
        rw [if_neg, hv]
        rintro (hle | hearlier)
        · omega
        · obtain ⟨b, hb, hlt, hbt⟩ := hfired.mp hearlier
          have := hquiet b (List.mem_append_left _ hb)
          omega
    · rw [replay_snoc, get_put_advance_of_ne _ _ _ hk, get_advance_advance _ hct, lastStore_snoc_of_ne _ _ hk,
        storesOf_snoc_of_ne _ _ hk]
      exact ih hs fun a ha => ht a (List.mem_append_left _ ha)

/-! ## Maps of a state -/

/-- At the time `now` and later, the map is the one after the stores `h`. -/
structure Follows (h : List (Store κ ν)) (m : ExpiringMap κ ν) (now : ℕ) : Prop where
  past : ∀ a ∈ h, a.time ≤ now
  sorted : h.Pairwise fun b a => b.time ≤ a.time
  agree : ∀ t, now ≤ t → (m.advance t).Agree ((replay h).advance t)

theorem follows_empty (now : ℕ) : Follows ([] : List (Store κ ν)) empty now := by
  refine ⟨?_, List.Pairwise.nil, fun t _ => Agree.refl _⟩
  intro a ha
  cases ha

theorem Follows.advance {h : List (Store κ ν)} {m : ExpiringMap κ ν} {now t : ℕ} (hm : Follows h m now)
    (hle : now ≤ t) : Follows h (m.advance t) t := by
  refine ⟨fun a ha => Nat.le_trans (hm.past a ha) hle, hm.sorted, ?_⟩
  intro u hu
  exact (advance_advance m hu).trans (hm.agree u (Nat.le_trans hle hu))

theorem Follows.put {h : List (Store κ ν)} {m : ExpiringMap κ ν} {now : ℕ} (hm : Follows h (m.advance now) now)
    {a : Store κ ν} (ha : a.time = now) : Follows (h ++ [a]) ((m.advance now).put a) now := by
  have hnow : (m.advance now).Agree ((replay h).advance now) := by
    refine Agree.trans ?_ (hm.agree now (Nat.le_refl _))
    exact ⟨fun k => (get_advance_advance m (Nat.le_refl _) k).symm, fun x => by simp [mem_timers_advance]⟩
  refine ⟨?_, ?_, ?_⟩
  · intro b hb
    rcases List.mem_append.mp hb with hb | hb
    · exact hm.past b hb
    · rw [List.mem_singleton.mp hb, ha]
  · refine List.pairwise_append.mpr ⟨hm.sorted, List.pairwise_singleton _ _, ?_⟩
    intro b hb c hc
    rw [List.mem_singleton.mp hc, ha]
    exact hm.past b hb
  · intro t _
    rw [replay_snoc, ha]
    exact (hnow.put a).advance t

/-- `get_replay_iff` for the map of a state. -/
theorem Follows.get_iff {h : List (Store κ ν)} {m : ExpiringMap κ ν} {now : ℕ} (hm : Follows h m now) {t : ℕ}
    (hle : now ≤ t) {k : κ} {v : ν} :
    (m.advance t).get k = some v ↔ ∃ a, lastStore h k = some a ∧ a.value = v ∧ t < a.due ∧
      ∀ b ∈ storesOf h k, b.due ≤ a.time ∨ t < b.due := by
  rw [(hm.agree t hle).1 k]
  exact get_replay_iff hm.sorted fun a ha => Nat.le_trans (hm.past a ha) hle

/-! ## Punctual keys -/

/-- At every time from the last store on, the map holds of the key what its last store says. -/
def Punctual (h : List (Store κ ν)) (k : κ) : Prop :=
  ∀ t, (∀ a ∈ h, a.time ≤ t) → ((replay h).advance t).get k = (live h k t).map (·.value)

/-- `b` is over when `a` comes, or is not over before `a`. -/
def NotBefore (b a : Store κ ν) : Prop := b.due ≤ a.time ∨ a.due ≤ b.due

instance (b a : Store κ ν) : Decidable (NotBefore b a) :=
  inferInstanceAs (Decidable (_ ∨ _))

theorem punctual_nil (k : κ) : Punctual ([] : List (Store κ ν)) k := by
  intro t _
  rw [replay_nil, get_advance]
  exact ite_self none

/-- A store of another key changes nothing. -/
theorem Punctual.snoc_of_ne {h : List (Store κ ν)} {k : κ} (hh : Punctual h k) {a : Store κ ν}
    (hk : k ≠ a.key) : Punctual (h ++ [a]) k := by
  intro t ht
  have hat : a.time ≤ t := ht a (List.mem_append_right _ (List.mem_singleton.mpr rfl))
  rw [replay_snoc, get_put_advance_of_ne _ _ _ hk, get_advance_advance _ hat, live,
    lastStore_snoc_of_ne _ _ hk]
  exact hh t fun b hb => ht b (List.mem_append_left _ hb)

/-- One more store keeps its key punctual exactly when no earlier one is over in between. -/
theorem punctual_snoc_iff {h : List (Store κ ν)} {a : Store κ ν} (hh : Punctual h a.key)
    (htime : ∀ b ∈ h, b.time ≤ a.time) :
    Punctual (h ++ [a]) a.key ↔ ∀ b ∈ storesOf h a.key, NotBefore b a := by
  constructor
  · intro hp b hb
    obtain ⟨hb, hk⟩ := mem_storesOf.mp hb
    by_contra hne
    obtain ⟨hlt, hbefore⟩ := not_or.mp hne
    -- the timer of `b` deletes what `a` has stored
    have hnow : ∀ c ∈ h ++ [a], c.time ≤ b.due := by
      intro c hc
      rcases List.mem_append.mp hc with hc | hc
      · have := htime c hc
        omega
      · obtain rfl := List.mem_singleton.mp hc
        omega
    have harmed : ⟨b.key, b.due⟩ ∈ (replay h).timers := armed_of_mem hb htime (by omega)
    have hfired := hp b.due hnow
    rw [replay_snoc, get_put_advance_self, if_pos, live, lastStore_snoc_self, Option.filter_some,
      if_pos (by simpa using hbefore)] at hfired
    · cases hfired
    · exact .inr ⟨_, mem_timers_advance.mpr ⟨harmed, by simpa using hlt⟩, hk, Nat.le_refl _⟩
  · intro hnb t ht
    rw [replay_snoc, get_put_advance_self, live, lastStore_snoc_self, Option.filter_some]
    by_cases hdue : a.due ≤ t
    · rw [if_pos (.inl hdue), if_neg (by simpa using hdue)]
      rfl
    · have hnone : ¬ ∃ x ∈ ((replay h).advance a.time).timers, x.key = a.key ∧ x.due ≤ t := by
        rintro ⟨x, hx, hxk, hxt⟩
        obtain ⟨hx, hlt⟩ := mem_timers_advance.mp hx
        obtain ⟨b, hb, rfl⟩ := mem_timers_replay hx
        rcases hnb b (mem_storesOf.mpr ⟨hb, hxk⟩) with hle | hle
        · simp only at hlt
          omega
        · simp only at hxt
          omega
      rw [if_neg (not_or.mpr ⟨hdue, hnone⟩), if_pos (by simpa using hdue)]
      rfl

/-- **A key is punctual on the way** exactly when no store of it is over before a later one that comes in
its time. -/
theorem punctual_iff {h : List (Store κ ν)} (hsorted : h.Pairwise fun b a => b.time ≤ a.time) (k : κ) :
    (∀ h' h'', h = h' ++ h'' → Punctual h' k) ↔ (storesOf h k).Pairwise NotBefore := by
  induction h using List.reverseRecOn with
  | nil =>
    constructor
    · intro _
      exact List.Pairwise.nil
    · intro _ h' h'' heq
      rw [(List.append_eq_nil_iff.mp heq.symm).1]
      exact punctual_nil k
  | append_singleton h a ih =>
    obtain ⟨hs, _, hlast⟩ := List.pairwise_append.mp hsorted
    have htime : ∀ b ∈ h, b.time ≤ a.time := fun b hb => hlast b hb a (List.mem_singleton.mpr rfl)
    -- the histories on the way are those of `h` and the whole one
    have hsplit : (∀ h' h'', h ++ [a] = h' ++ h'' → Punctual h' k) ↔
        (∀ h' h'', h = h' ++ h'' → Punctual h' k) ∧ Punctual (h ++ [a]) k := by
      constructor
      · intro hp
        refine ⟨fun h' h'' heq => hp h' (h'' ++ [a]) ?_, hp _ [] (List.append_nil _).symm⟩
        rw [heq, List.append_assoc]
      · rintro ⟨hh, hall⟩ h' h'' heq
        rcases List.eq_nil_or_concat h'' with rfl | ⟨l, c, rfl⟩
        · rw [List.append_nil] at heq
          exact heq ▸ hall
        · rw [List.concat_eq_append, ← List.append_assoc] at heq
          exact hh h' l (List.append_inj' heq rfl).1
    rw [hsplit, ih hs]
    by_cases hk : k = a.key
    · subst hk
      rw [storesOf_snoc_self, List.pairwise_append]
      constructor
      · rintro ⟨hpair, hall⟩
        have hh := (ih hs).mpr hpair h [] (List.append_nil h).symm
        refine ⟨hpair, List.pairwise_singleton _ _, ?_⟩
        intro b hb c hc
        obtain rfl := List.mem_singleton.mp hc
        exact (punctual_snoc_iff hh htime).mp hall b hb
      · rintro ⟨hpair, _, hnb⟩
        have hh := (ih hs).mpr hpair h [] (List.append_nil h).symm
        refine ⟨hpair, (punctual_snoc_iff hh htime).mpr ?_⟩
        intro b hb
        exact hnb b hb a (List.mem_singleton.mpr rfl)
    · rw [storesOf_snoc_of_ne h a hk]
      constructor
      · rintro ⟨hpair, _⟩
        exact hpair
      · intro hpair
        exact ⟨hpair, ((ih hs).mpr hpair h [] (List.append_nil h).symm).snoc_of_ne hk⟩

end ExpiringMap

end OverSip
