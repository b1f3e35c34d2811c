import OverSip.Lib.ExpiringMap
import OverSip.Lib.History
import OverSip.Sip.Client

/-!
# The blacklist of a proxy configuration

`add_target_to_blacklist`, the methods of `Client` for the failures of its client transaction, and the
lookup of `use_target` (`client.rb`), for any number of clients that share a proxy configuration.

Each store has a timer that deletes the key, so a timer of an earlier store deletes a later one. The run
lemma is `tracks_of_run`: the blacklist is the map after the stores of the run. The keys that are right at
all times are then those of `ExpiringMap.punctual_iff`.

Times are in milliseconds. The timers that are due fire before anything else that happens at the time.
-/

namespace OverSip

namespace Blacklist

/-- The entries `:use_blacklist` and `:blacklist_time` of a proxy configuration, the time in seconds. -/
structure Conf where
  useBlacklist : Bool
  blacklistTime : ℕ
  admitted : 2 ≤ blacklistTime ∧ blacklistTime ≤ 600

/-- The defaults of `proxies_config.rb`. -/
def Conf.default : Conf := ⟨true, 10, by decide⟩

/-- The failures that a client transaction reports. -/
inductive Failure
  | clientTimeout
  | connectionFailed
  | tlsValidationFailed
deriving DecidableEq, Repr

/-- What is stored for a failure. -/
def Failure.entry : Failure → Cause
  | .clientTimeout => .error 408 "Client Timeout" .clientTimeout
  | .connectionFailed => .error 500 "Connection Error" .connectionError
  | .tlsValidationFailed => .error 500 "TLS Validation Failed" .tlsValidationFailed

/-- What can happen to the clients of a configuration. -/
inductive Event
  | newClient
  /-- `try_next_target` makes a target the current one and gives it to `use_target`. -/
  | tryTarget (i : ℕ) (t : Client.Target)
  | failure (i : ℕ) (f : Failure)
  | addTargetToBlacklist (i : ℕ) (timeout : Option Int) (statusCode : ℕ) (reasonPhrase : String)
deriving DecidableEq, Repr

inductive Output
  | stored (a : Store String Cause)
  /-- The destination was found in the blacklist. -/
  | found (entry : Cause)
  /-- It was not, and `use_target` goes on. -/
  | notFound
  /-- `add_target_to_blacklist` returns false. -/
  | refused
  /-- `add_target_to_blacklist` raises. -/
  | raised
deriving DecidableEq, Repr

/-- A proxy configuration, and `@current_target` of each of its clients. -/
structure State where
  conf : Conf
  blacklist : ExpiringMap String Cause
  currentTargets : List (Option Client.Target)
  now : ℕ

def init (conf : Conf) : State :=
  { conf, blacklist := .empty, currentTargets := [], now := 0 }

/-- `@current_target.to_s`, also of no target. -/
def blacklistEntry : Option Client.Target → String
  | some t => t.toS
  | none => ""

/-- Store an entry and add the timer that deletes it. -/
def State.store (s : State) (t : Option Client.Target) (timeout : ℕ) (c : Cause) :
    State × List Output :=
  let a : Store String Cause := ⟨blacklistEntry t, c, s.now, 1000 * timeout⟩
  ({ s with blacklist := s.blacklist.put a }, [.stored a])

/-- The lookup of `use_target`. -/
def State.lookup (s : State) (t : Client.Target) : Option Cause :=
  if s.blacklist.entries.entries.isEmpty then none else s.blacklist.get t.toS

/-- `client_timeout`, `connection_failed` and `tls_validation_failed`, up to `try_next_target`. -/
def State.failure (s : State) (t : Option Client.Target) (f : Failure) : State × List Output :=
  if s.conf.useBlacklist = true then s.store t s.conf.blacklistTime f.entry else (s, [])

/-- `add_target_to_blacklist`. -/
def State.addTargetToBlacklist (s : State) (t : Option Client.Target) (timeout : Option Int)
    (statusCode : ℕ) (reasonPhrase : String) : State × List Output :=
  if t = none then (s, [.refused])
  else
    match timeout with
    | some n =>
      if n < 2 ∨ 600 < n then (s, [.raised])
      else s.store t n.toNat (.error statusCode reasonPhrase .destinationBlacklisted)
    | none => s.store t s.conf.blacklistTime (.error statusCode reasonPhrase .destinationBlacklisted)

/-- One event at the time of the state. -/
def State.handle (s : State) : Event → Option (State × List Output)
  | .newClient => some ({ s with currentTargets := s.currentTargets ++ [none] }, [])
  | .tryTarget i t =>
    if i < s.currentTargets.length then
      let s := { s with currentTargets := s.currentTargets.set i (some t) }
      match s.lookup t with
      | some entry => some (s, [.found entry])
      | none => some (s, [.notFound])
    else none
  | .failure i f =>
    match s.currentTargets[i]? with
    | some t => some (s.failure t f)
    | none => none
  | .addTargetToBlacklist i timeout statusCode reasonPhrase =>
    match s.currentTargets[i]? with
    | some t => some (s.addTargetToBlacklist t timeout statusCode reasonPhrase)
    | none => none

/-- The timers due by a time fire. -/
def State.advance (s : State) (t : ℕ) : State :=
  { s with blacklist := s.blacklist.advance t, now := t }

/-- One event, after the timers that are due. -/
def step (s : State) (e : TimedEvent Event) : Option (State × List Output) :=
  if s.now ≤ e.time then (s.advance e.time).handle e.ev else none

/-- The stores that a run has made, the oldest first. -/
def storesOf (o : List Output) : List (Store String Cause) :=
  o.filterMap fun x =>
    match x with
    | .stored a => some a
    | _ => none

@[simp] theorem storesOf_nil : storesOf [] = [] := rfl

@[simp] theorem storesOf_stored (a : Store String Cause) : storesOf [.stored a] = [a] := rfl

theorem storesOf_append (o o' : List Output) : storesOf (o ++ o') = storesOf o ++ storesOf o' :=
  List.filterMap_append

theorem State.lookup_eq (s : State) (t : Client.Target) : s.lookup t = s.blacklist.get t.toS := by
  unfold State.lookup
  by_cases hempty : s.blacklist.entries.entries.isEmpty = true
  · rw [if_pos hempty]
    have hnil : s.blacklist.entries = ∅ := AList.ext (List.isEmpty_iff.mp hempty)
    rw [ExpiringMap.get, hnil, AList.lookup_empty]
  · rw [if_neg hempty]

/-! ## One event -/

/-- The time of a store is between two seconds and ten minutes. -/
def Admitted (a : Store String Cause) : Prop := 2000 ≤ a.timeout ∧ a.timeout ≤ 600000

/-- A method leaves the clock alone, and stores one entry or none. -/
def Recorded (s : State) (p : State × List Output) : Prop :=
  p.1.now = s.now ∧
    ((p.1.blacklist = s.blacklist ∧ storesOf p.2 = []) ∨
      ∃ a, p.1.blacklist = s.blacklist.put a ∧ storesOf p.2 = [a] ∧ a.time = s.now ∧ Admitted a)

theorem store_recorded (s : State) (t : Option Client.Target) {timeout : ℕ} (c : Cause)
    (h : 2 ≤ timeout ∧ timeout ≤ 600) : Recorded s (s.store t timeout c) := by
  refine ⟨rfl, .inr ⟨_, rfl, rfl, rfl, ?_⟩⟩
  show 2000 ≤ 1000 * timeout ∧ 1000 * timeout ≤ 600000
  omega

theorem failure_recorded (s : State) (t : Option Client.Target) (f : Failure) :
    Recorded s (s.failure t f) := by
  unfold State.failure
  by_cases huse : s.conf.useBlacklist = true
  · rw [if_pos huse]
    exact store_recorded s t _ s.conf.admitted
  · rw [if_neg huse]
    exact ⟨rfl, .inl ⟨rfl, rfl⟩⟩

theorem addTargetToBlacklist_recorded (s : State) (t : Option Client.Target) (timeout : Option Int)
    (statusCode : ℕ) (reasonPhrase : String) :
    Recorded s (s.addTargetToBlacklist t timeout statusCode reasonPhrase) := by
  unfold State.addTargetToBlacklist
  by_cases ht : t = none
  · rw [if_pos ht]
    exact ⟨rfl, .inl ⟨rfl, rfl⟩⟩
  · rw [if_neg ht]
    cases timeout with
    | none => exact store_recorded s t _ s.conf.admitted
    | some n =>
      by_cases hn : n < 2 ∨ 600 < n
      · simp only [if_pos hn]
        exact ⟨rfl, .inl ⟨rfl, rfl⟩⟩
      · simp only [if_neg hn]
        exact store_recorded s t _ (by omega)

theorem handle_recorded {s s' : State} {ev : Event} {o : List Output}
    (h : s.handle ev = some (s', o)) : Recorded s (s', o) := by
  cases ev with
  | newClient =>
    obtain ⟨rfl, rfl⟩ := Prod.mk.inj (Option.some.inj h)
    exact ⟨rfl, .inl ⟨rfl, rfl⟩⟩
  | tryTarget i t =>
    simp only [State.handle] at h
    split at h
    · split at h <;> obtain ⟨rfl, rfl⟩ := Prod.mk.inj (Option.some.inj h) <;>
        exact ⟨rfl, .inl ⟨rfl, rfl⟩⟩
    · cases h
  | failure i f =>
    simp only [State.handle] at h
    split at h
    · rw [← Option.some.inj h]
      exact failure_recorded s _ f
    · cases h
  | addTargetToBlacklist i timeout statusCode reasonPhrase =>
    simp only [State.handle] at h
    split at h
    · rw [← Option.some.inj h]
      exact addTargetToBlacklist_recorded s _ timeout statusCode reasonPhrase
    · cases h

theorem step_recorded {s s' : State} {e : TimedEvent Event} {o : List Output}
    (h : step s e = some (s', o)) : s.now ≤ e.time ∧ Recorded (s.advance e.time) (s', o) := by
  unfold step at h
  split at h
  · rename_i hle
    exact ⟨hle, handle_recorded h⟩
  · cases h

/-! ## Runs -/

/-- The blacklist is the map after the stores `h`, now and later. -/
structure Tracks (h : List (Store String Cause)) (s : State) : Prop where
  past : ∀ a ∈ h, a.time ≤ s.now
  sorted : h.Pairwise fun b a => b.time ≤ a.time
  admitted : ∀ a ∈ h, Admitted a
  agree : ∀ t, s.now ≤ t →
    (s.blacklist.advance t).Agree ((ExpiringMap.replay h).advance t)

theorem Tracks.step {h : List (Store String Cause)} {s s' : State} {e : TimedEvent Event}
    {o : List Output} (hs : Tracks h s) (hstep : Blacklist.step s e = some (s', o)) :
    Tracks (h ++ storesOf o) s' := by
  obtain ⟨hle, hnow, hcases⟩ := step_recorded hstep
  have hthen := hs.agree e.time hle
  have hpast : ∀ a ∈ h, a.time ≤ e.time := fun a ha => Nat.le_trans (hs.past a ha) hle
  replace hnow : s'.now = e.time := hnow
  rcases hcases with ⟨hbl, ho⟩ | ⟨a, hbl, ho, hat, hadmitted⟩
  · replace hbl : s'.blacklist = s.blacklist.advance e.time := hbl
    refine ⟨?_, ?_, ?_, ?_⟩
    · rw [ho, List.append_nil, hnow]
      exact hpast
    · rw [ho, List.append_nil]
      exact hs.sorted
    · rw [ho, List.append_nil]
      exact hs.admitted
    · intro t ht
      rw [hnow] at ht
      rw [ho, List.append_nil, hbl]
      exact (hthen.advance t).trans (ExpiringMap.advance_advance _ ht)
  · replace hbl : s'.blacklist = (s.blacklist.advance e.time).put a := hbl
    replace hat : a.time = e.time := hat
    refine ⟨?_, ?_, ?_, ?_⟩
    · rw [ho, hnow]
      intro b hb
      rcases List.mem_append.mp hb with hb | hb
      · exact hpast b hb
      · rw [List.mem_singleton.mp hb, hat]
    · rw [ho]
      refine List.pairwise_append.mpr ⟨hs.sorted, List.pairwise_singleton _ _, ?_⟩
      intro b hb c hc
      rw [List.mem_singleton.mp hc, hat]
      exact hpast b hb
    · rw [ho]
      intro b hb
      rcases List.mem_append.mp hb with hb | hb
      · exact hs.admitted b hb
      · exact List.mem_singleton.mp hb ▸ hadmitted
    · intro t _
      rw [ho, hbl, ExpiringMap.replay_snoc, hat]
      exact (hthen.put a).advance t

/-- **Over a whole run** the blacklist is the map after the stores of the run. -/
theorem tracks_of_run {conf : Conf} {tr : List (StepRec State (TimedEvent Event) Output)} {s : State}
    (hrun : Run step (init conf) tr s) : Tracks (storesOf (outputs tr)) s := by
  refine Run.invariant (G := fun _ _ => True) (I := fun tr s => Tracks (storesOf (outputs tr)) s)
    ?_ ?_ hrun fun _ _ => trivial
  · refine ⟨?_, List.Pairwise.nil, ?_, ?_⟩
    · intro a ha
      cases ha
    · intro a ha
      cases ha
    · intro t _
      exact ExpiringMap.Agree.refl _
  · intro tr s e s' o hs _ hstep
    rw [outputs_snoc, storesOf_append]
    exact hs.step hstep

/-- A run stops at each of its stores. -/
theorem stops_at_store {conf : Conf} {tr : List (StepRec State (TimedEvent Event) Output)} {s : State}
    (hrun : Run step (init conf) tr s) {h' h'' : List (Store String Cause)} {a : Store String Cause}
    (h : storesOf (outputs tr) = h' ++ a :: h'') :
    ∃ tr₁ tr₂ s₁, tr = tr₁ ++ tr₂ ∧ Run step (init conf) tr₁ s₁ ∧
      storesOf (outputs tr₁) = h' ++ [a] ∧ s₁.now = a.time := by
  induction hrun generalizing h'' with
  | nil => simp at h
  | @snoc tr s s' e o hrun hs ih =>
    obtain ⟨_, hnow, hcases⟩ := step_recorded hs
    -- the store is one of the run before the step, or the one of the step
    have hbefore : ∀ l, storesOf (outputs tr) = h' ++ a :: l → ∃ tr₁ tr₂ s₁,
        tr ++ [⟨s, e, o, s'⟩] = tr₁ ++ tr₂ ∧ Run step (init conf) tr₁ s₁ ∧
          storesOf (outputs tr₁) = h' ++ [a] ∧ s₁.now = a.time := by
      intro l hl
      obtain ⟨tr₁, tr₂, s₁, rfl, hrest⟩ := ih hl
      exact ⟨tr₁, tr₂ ++ [⟨s, e, o, s'⟩], s₁, List.append_assoc .., hrest⟩
    rw [outputs_snoc, storesOf_append] at h
    rcases hcases with ⟨_, ho⟩ | ⟨b, _, ho, hbt, _⟩
    · replace ho : storesOf o = [] := ho
      rw [ho, List.append_nil] at h
      exact hbefore h'' h
    · replace ho : storesOf o = [b] := ho
      rw [ho] at h
      rcases List.eq_nil_or_concat h'' with rfl | ⟨l, c, rfl⟩
      · have hb : b = a := List.singleton_inj.mp (List.append_inj' h rfl).2
        refine ⟨tr ++ [⟨s, e, o, s'⟩], [], s', (List.append_nil _).symm, hrun.snoc hs, ?_, ?_⟩
        · rw [outputs_snoc, storesOf_append, ho, h]
        · rw [← hb, hbt, hnow]
      · rw [List.concat_eq_append, ← List.cons_append, ← List.append_assoc] at h
        exact hbefore l (List.append_inj' h rfl).1

/-! ## Lifetimes -/

/-- Wherever the run is stopped and left alone, at every time from then on `use_target` finds of a target
the entry of the last store, until its time is over. -/
def Lifetimes (conf : Conf) (tr : List (StepRec State (TimedEvent Event) Output))
    (x : Client.Target) : Prop :=
  ∀ tr₁ tr₂ s₁, tr = tr₁ ++ tr₂ → Run step (init conf) tr₁ s₁ → ∀ t, s₁.now ≤ t →
    (s₁.advance t).lookup x =
      (ExpiringMap.live (storesOf (outputs tr₁)) x.toS t).map (·.value)

/-- **The lifetimes of a target are right** exactly when none of its stores is over before a later one
that comes in its time. -/
theorem lifetimes_iff {conf : Conf} {tr : List (StepRec State (TimedEvent Event) Output)} {s : State}
    (hrun : Run step (init conf) tr s) (x : Client.Target) :
    Lifetimes conf tr x ↔
      (ExpiringMap.storesOf (storesOf (outputs tr)) x.toS).Pairwise ExpiringMap.NotBefore := by
  rw [← ExpiringMap.punctual_iff (tracks_of_run hrun).sorted]
  constructor
  · intro hlife h' h'' heq
    rcases List.eq_nil_or_concat h' with rfl | ⟨l, a, rfl⟩
    · exact ExpiringMap.punctual_nil _
    · rw [List.concat_eq_append, List.append_assoc, List.singleton_append] at heq
      obtain ⟨tr₁, tr₂, s₁, htr, hrun₁, hstores, hnow⟩ := stops_at_store hrun heq
      rw [List.concat_eq_append, ← hstores]
      intro t ht
      have hle : s₁.now ≤ t := by
        rw [hnow]
        exact ht a (by rw [hstores]; exact List.mem_append_right _ (List.mem_singleton.mpr rfl))
      have hfound := hlife tr₁ tr₂ s₁ htr hrun₁ t hle
      rw [State.lookup_eq] at hfound
      rw [← hfound]
      exact (((tracks_of_run hrun₁).agree t hle).1 _).symm
  · intro hp tr₁ tr₂ s₁ htr hrun₁ t ht
    have htracks := tracks_of_run hrun₁
    have hsplit : storesOf (outputs tr) = storesOf (outputs tr₁) ++ storesOf (outputs tr₂) := by
      rw [htr, ← storesOf_append]
      simp [outputs]
    rw [State.lookup_eq]
    exact ((htracks.agree t ht).1 _).trans
      (hp _ _ hsplit t fun a ha => Nat.le_trans (htracks.past a ha) ht)

/-- A target fails for one client while another tries it, and the other then asks for ten minutes. -/
def overlapping : List (TimedEvent Event) :=
  [⟨0, .newClient⟩, ⟨0, .newClient⟩, ⟨0, .tryTarget 0 Client.sampleTarget⟩,
    ⟨0, .tryTarget 1 Client.sampleTarget⟩, ⟨1000, .failure 0 .connectionFailed⟩,
    ⟨5000, .addTargetToBlacklist 1 (some 600) 403 "Gone"⟩]

/-- One store, the other event left out. -/
theorem lifetimes_sample : ∃ tr, tr.length = 5 ∧ Lifetimes .default tr Client.sampleTarget := by
  have hexec : ∃ tr s, exec step (init .default) (overlapping.take 5) = some (tr, s) ∧
      tr.length = 5 ∧ (ExpiringMap.storesOf (storesOf (outputs tr))
        Client.sampleTarget.toS).Pairwise ExpiringMap.NotBefore := by
    refine ⟨_, _, rfl, rfl, ?_⟩
    decide
  obtain ⟨tr, s, htr, hlength, hpair⟩ := hexec
  exact ⟨tr, hlength, (lifetimes_iff (run_of_exec htr) Client.sampleTarget).mpr hpair⟩

/-- The timer of the first store fires ten seconds after it and ends the ten minutes. -/
theorem lifetime_cut_short : ∃ tr s, Run step (init .default) tr s ∧
    ¬ Lifetimes .default tr Client.sampleTarget := by
  have hexec : ∃ tr s, exec step (init .default) overlapping = some (tr, s) ∧ s.now = 5000 ∧
      (s.advance 11000).lookup Client.sampleTarget = none ∧
      (ExpiringMap.live (storesOf (outputs tr)) Client.sampleTarget.toS 11000).map (·.value) =
        some (.error 403 "Gone" .destinationBlacklisted) :=
    ⟨_, _, rfl, rfl, rfl, rfl⟩
  obtain ⟨tr, s, htr, hnow, hlookup, hlive⟩ := hexec
  refine ⟨tr, s, run_of_exec htr, ?_⟩
  intro hlife
  have hfound := hlife tr [] s (List.append_nil tr).symm (run_of_exec htr) 11000 (by rw [hnow]; decide)
  rw [hlookup, hlive] at hfound
  cases hfound

end Blacklist

end OverSip
