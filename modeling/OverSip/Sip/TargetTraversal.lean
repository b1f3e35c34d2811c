import OverSip.Lib.History
import OverSip.Sip.TargetWalk

/-!
# The order in which targets are tried

`Traversal` is the law of a run that begins with a list of targets and goes on with what becomes of the
client transactions: the targets are taken in the order of the list, the environment alone decides which
get a client transaction, and `no_more_targets` is called once, with the last cause of a failure.
-/

namespace OverSip

namespace Client

variable {env : Env} {c : Client}

/-! ## What is seen -/

namespace Output

/-- A target that is taken, with its number. -/
def tried? : Output → Option (Target × ℕ)
  | .trying n t => some (t, n)
  | _ => none

/-- The destination of a client transaction. -/
def sent? : Output → Option (Destination × ℕ)
  | .send n d _ => some (d, n)
  | _ => none

/-- The failure of a target before a client transaction is made. -/
def failure? : Output → Option Cause
  | .blacklisted _ entry => some entry
  | .aborted _ => some abortedCause
  | _ => none

def isAborted : Output → Bool
  | .aborted _ => true
  | _ => false

def isNoMoreTargets : Output → Bool
  | .noMoreTargets _ => true
  | _ => false

end Output

def tried (os : List Output) : List (Target × ℕ) := os.filterMap Output.tried?

def sent (os : List Output) : List (Destination × ℕ) := os.filterMap Output.sent?

def skipped (os : List Output) : List Cause := os.filterMap Output.failure?

/-- The failure that an event tells. -/
def Event.cause (conf : ClientConf) : Event → Option Cause
  | .outcome _ o => o.cause conf
  | _ => none

/-- The failures of a history, in their order. -/
def failures (tr : List (StepRec Client EnvEvent Output)) : List Cause :=
  tr.flatMap fun r => (r.ev.ev.cause r.pre.conf).toList ++ skipped r.out

/-! ## The law -/

/-- The targets `ts` are tried as they should be. -/
structure Traversal (ts : List Target) (tr : List (StepRec Client EnvEvent Output)) : Prop where
  /-- In the order of the list, each once. -/
  inOrder : tried (outputs tr) <+: ts.zipIdx 1
  /-- A client transaction is for a target that is taken, and there is one for each at most. -/
  forTaken : (sent (outputs tr)).Sublist ((tried (outputs tr)).map fun p => (.target p.1, p.2))
  /-- There is one exactly when the target is not blacklisted as it is reached, and does not stop the
  routing. -/
  created : ∀ r ∈ tr, ∀ n t, .trying n t ∈ r.out →
    ((.target t, n) ∈ sent r.out ↔
      r.ev.env.blacklist n t.toS = none ∧ r.ev.env.abortRouting n = false)
  /-- A routing that is aborted is over. -/
  aborted : ∀ os n os', outputs tr = os ++ .aborted n :: os' → os' = [.noMoreTargets abortedCause]
  /-- `no_more_targets` is called once, when the routing is aborted or all targets have failed. -/
  once : (outputs tr).countP Output.isNoMoreTargets =
    if (outputs tr).any Output.isAborted ∨ (failures tr).length = ts.length then 1 else 0
  /-- It is given the last failure. -/
  cause : ∀ cause, .noMoreTargets cause ∈ outputs tr → cause = (failures tr).getLast?.getD .none

/-! ## One walk -/

/-- Nothing says that the routing is over. -/
def Quiet (os : List Output) : Prop := ∀ o ∈ os, o.isAborted = false ∧ o.isNoMoreTargets = false

theorem quiet_nil : Quiet [] := by
  intro o ho
  cases ho

theorem Quiet.append {os os' : List Output} (h : Quiet os) (h' : Quiet os') : Quiet (os ++ os') := by
  intro o ho
  rcases List.mem_append.mp ho with ho | ho
  · exact h o ho
  · exact h' o ho

theorem quiet_blacklisted (n m : ℕ) (t : Target) (entry : Cause) :
    Quiet [.trying n t, .blacklisted m entry] := by
  intro o ho
  simp only [List.mem_cons, List.not_mem_nil, or_false] at ho
  rcases ho with rfl | rfl <;> exact ⟨rfl, rfl⟩

theorem quiet_trying (n m : ℕ) (t t' : Target) : Quiet [.trying n t, .onTarget m t'] := by
  intro o ho
  simp only [List.mem_cons, List.not_mem_nil, or_false] at ho
  rcases ho with rfl | rfl <;> exact ⟨rfl, rfl⟩

/-- A walk makes no client transaction itself. -/
theorem walk_sent (env : Env) (n : ℕ) (ts : List Target) (cause : Cause) :
    sent (walk env n ts cause).1 = [] := by
  refine walk_rule (P := fun _ _ _ p => sent p.1 = []) ?_ ?_ ?_ ?_ n ts cause
  · intro n cause
    rfl
  · intro n t ts cause entry p _ hp
    exact hp
  · intro n t ts cause _ _
    rfl
  · intro n t ts cause _ _
    rfl

/-- How a walk that stops has got there. -/
structure Stopped (n : ℕ) (ts : List Target) (os : List Output) (stop : Stop) : Prop where
  pre : ∃ us, ts = us ++ stop.target :: stop.rest ∧ stop.num = n + us.length + 1 ∧
    tried os = (us ++ [stop.target]).zipIdx (n + 1) ∧ (skipped os).length = us.length
  quiet : Quiet os

theorem walk_stopped {n : ℕ} {ts : List Target} {cause : Cause} {stop : Stop}
    (h : (walk env n ts cause).2 = some stop) : Stopped n ts (walk env n ts cause).1 stop := by
  refine walk_rule (P := fun n ts _ p => p.2 = some stop → Stopped n ts p.1 stop)
    ?_ ?_ ?_ ?_ n ts cause h
  · intro n cause h
    cases h
  · intro n t ts cause entry p _ hp h
    obtain ⟨us, rfl, hnum, htried, hskipped⟩ := (hp h).pre
    refine ⟨⟨t :: us, rfl, ?_, ?_, ?_⟩, (quiet_blacklisted _ _ _ _).append (hp h).quiet⟩
    · rw [hnum, List.length_cons]
      omega
    · rw [List.cons_append, List.zipIdx_cons, ← htried]
      rfl
    · rw [List.length_cons, ← hskipped]
      rfl
  · intro n t ts cause _ _ h
    cases h
  · intro n t ts cause _ _ h
    obtain rfl := Option.some.inj h
    exact ⟨⟨[], rfl, rfl, rfl, rfl⟩, quiet_trying _ _ _ _⟩

/-- How a walk that does not stop ends. -/
structure Ended (n : ℕ) (ts : List Target) (cause : Cause) (os : List Output) : Prop where
  inOrder : tried os <+: ts.zipIdx (n + 1)
  last : ∃ os', os = os' ++ [.noMoreTargets ((skipped os).getLast?.getD cause)] ∧
    ((Quiet os' ∧ (skipped os).length = ts.length) ∨
      ((skipped os).getLast? = some abortedCause ∧
        ∃ os'' q, os' = os'' ++ [.aborted q] ∧ Quiet os''))

theorem walk_ended {n : ℕ} {ts : List Target} {cause : Cause}
    (h : (walk env n ts cause).2 = none) : Ended n ts cause (walk env n ts cause).1 := by
  refine walk_rule (P := fun n ts cause p => p.2 = none → Ended n ts cause p.1)
    ?_ ?_ ?_ ?_ n ts cause h
  · intro n cause _
    exact ⟨List.prefix_refl _, [], rfl, .inl ⟨quiet_nil, rfl⟩⟩
  · intro n t ts cause entry p _ hp h
    have hquiet := quiet_blacklisted (n + 1) (n + 1) t entry
    obtain ⟨horder, os', hos, hend⟩ := hp h
    have hlast : (entry :: skipped p.1).getLast?.getD cause = (skipped p.1).getLast?.getD entry := by
      rw [List.getLast?_cons, Option.getD_some]
    refine ⟨?_, [.trying (n + 1) t, .blacklisted (n + 1) entry] ++ os', ?_, ?_⟩
    · rw [List.zipIdx_cons]
      exact List.cons_prefix_cons.mpr ⟨rfl, horder⟩
    · have hskip : skipped (.trying (n + 1) t :: .blacklisted (n + 1) entry :: p.1) =
          entry :: skipped p.1 := rfl
      rw [hskip, hlast, List.append_assoc, ← hos]
      rfl
    · rcases hend with ⟨hq, hlen⟩ | ⟨hcause, os'', q, rfl, hq⟩
      · exact .inl ⟨hquiet.append hq, congrArg (· + 1) hlen⟩
      · refine .inr ⟨?_, _, q, (List.append_assoc ..).symm, hquiet.append hq⟩
        have hskip : skipped (.trying (n + 1) t :: .blacklisted (n + 1) entry :: p.1) =
            entry :: skipped p.1 := rfl
        rw [hskip, List.getLast?_cons, hcause, Option.getD_some]
  · intro n t ts cause _ _ _
    refine ⟨?_, [.trying (n + 1) t, .onTarget (n + 1) t, .aborted (n + 1)], rfl, .inr ?_⟩
    · rw [List.zipIdx_cons]
      exact List.cons_prefix_cons.mpr ⟨rfl, List.nil_prefix⟩
    · exact ⟨rfl, _, n + 1, rfl, quiet_trying _ _ _ _⟩
  · intro n t ts cause _ _ h
    cases h

/-- The stop of a walk is the `q`-th target, and it is `t`. -/
def StopsAt (p : List Output × Option Stop) (q : ℕ) (t : Target) : Prop :=
  ∃ stop, p.2 = some stop ∧ stop.target = t ∧ stop.num = q

/-- A walk stops at a target exactly when the environment lets it. -/
theorem walk_created (env : Env) (n : ℕ) (ts : List Target) (cause : Cause) :
    (∀ q t, StopsAt (walk env n ts cause) q t → n < q) ∧
      ∀ q t, .trying q t ∈ (walk env n ts cause).1 → n < q ∧
        (StopsAt (walk env n ts cause) q t ↔
          env.blacklist q t.toS = none ∧ env.abortRouting q = false) := by
  refine walk_rule (P := fun n _ _ p => (∀ q t, StopsAt p q t → n < q) ∧
    ∀ q t, .trying q t ∈ p.1 → n < q ∧
      (StopsAt p q t ↔ env.blacklist q t.toS = none ∧ env.abortRouting q = false))
    ?_ ?_ ?_ ?_ n ts cause
  · intro n cause
    refine ⟨?_, ?_⟩
    · rintro q t ⟨stop, h, _⟩
      cases h
    · intro q t h
      simp at h
  · intro n u ts cause entry p hb ⟨hlt, hp⟩
    refine ⟨fun q t h => Nat.lt_of_succ_lt (hlt q t h), ?_⟩
    intro q t h
    simp only [List.mem_cons, Output.trying.injEq, reduceCtorEq, false_or] at h
    rcases h with ⟨rfl, rfl⟩ | h
    · refine ⟨Nat.lt_succ_self n, ?_, ?_⟩
      · intro hstop
        exact absurd (hlt _ _ hstop) (Nat.lt_irrefl _)
      · intro ⟨hnone, _⟩
        rw [hb] at hnone
        cases hnone
    · obtain ⟨hq, hiff⟩ := hp q t h
      exact ⟨Nat.lt_of_succ_lt hq, hiff⟩
  · intro n u ts cause hb habort
    refine ⟨?_, ?_⟩
    · rintro q t ⟨stop, h, _⟩
      cases h
    · intro q t h
      simp only [List.mem_cons, Output.trying.injEq, reduceCtorEq, List.not_mem_nil, or_false] at h
      obtain ⟨rfl, rfl⟩ := h
      refine ⟨Nat.lt_succ_self n, ?_, ?_⟩
      · rintro ⟨stop, h, _⟩
        cases h
      · intro ⟨_, hfalse⟩
        rw [habort] at hfalse
        cases hfalse
  · intro n u ts cause hb habort
    refine ⟨?_, ?_⟩
    · rintro q t ⟨stop, h, _, rfl⟩
      obtain rfl := Option.some.inj h
      exact Nat.lt_succ_self n
    · intro q t h
      simp only [List.mem_cons, Output.trying.injEq, reduceCtorEq, List.not_mem_nil, or_false] at h
      obtain ⟨rfl, rfl⟩ := h
      exact ⟨Nat.lt_succ_self n, fun _ => ⟨hb, habort⟩, fun _ => ⟨_, rfl, rfl, rfl⟩⟩

/-! ## One call of `try_next_target` -/

/-- A client transaction that can fail is the last one. -/
def OneRuns (c : Client) : Prop :=
  ∀ i a, c.attempts[i]? = some a → a.running = true → i + 1 = c.attempts.length

/-- No client transaction can fail. -/
def Idle (c : Client) : Prop := ∀ a ∈ c.attempts, a.running = false

theorem Idle.oneRuns (h : c.Idle) : c.OneRuns := by
  intro i a ha hrun
  rw [h a (List.mem_of_getElem? ha)] at hrun
  cases hrun

theorem Idle.of_attempts {c' : Client} (h : Idle c) (heq : c'.attempts = c.attempts) : Idle c' := by
  unfold Idle
  rw [heq]
  exact h

/-- What an environment makes of the targets that are tried. -/
structure Fair (env : Env) (os : List Output) : Prop where
  forTaken : (sent os).Sublist ((tried os).map fun p => (.target p.1, p.2))
  created : ∀ n t, .trying n t ∈ os →
    ((.target t, n) ∈ sent os ↔ env.blacklist n t.toS = none ∧ env.abortRouting n = false)

/-- The traversal of `ts`, of which `os` was seen, goes on. -/
structure Going (ts : List Target) (os : List Output) (c : Client) : Prop where
  inOrder : tried os = (ts.take c.taken).zipIdx 1
  le_length : c.taken ≤ ts.length
  rest : c.left = ts.drop c.taken
  quiet : Quiet os

/-- The traversal of `ts`, of which `os` was seen and whose failures are `fs`, is over. -/
structure Over (ts : List Target) (os : List Output) (fs : List Cause) : Prop where
  inOrder : tried os <+: ts.zipIdx 1
  last : ∃ os', os = os' ++ [.noMoreTargets (fs.getLast?.getD .none)] ∧
    ((Quiet os' ∧ fs.length = ts.length) ∨
      (fs.getLast? = some abortedCause ∧ ∃ os'' q, os' = os'' ++ [.aborted q] ∧ Quiet os''))

theorem tried_append (os os' : List Output) : tried (os ++ os') = tried os ++ tried os' :=
  List.filterMap_append

theorem sent_append (os os' : List Output) : sent (os ++ os') = sent os ++ sent os' :=
  List.filterMap_append

theorem skipped_append (os os' : List Output) : skipped (os ++ os') = skipped os ++ skipped os' :=
  List.filterMap_append

/-- `startFor` sends to its target. -/
theorem startFor_out (env : Env) (c : Client) (t : Target) :
    ∃ copy, (c.startFor env t).2 = [.send c.taken (.target t) copy] :=
  ⟨_, rfl⟩

theorem fair_tryNextTarget (haborted : c.aborted = false) (cause : Cause) :
    Fair env (tryNextTarget env c cause).2 := by
  have hwalk : Walked env c (walk env c.taken c.left cause) (tryNextTarget env c cause) :=
    tryNextTarget_walk haborted
  have hsent := walk_sent env c.taken c.left cause
  obtain ⟨_, hcreated⟩ := walk_created env c.taken c.left cause
  generalize hw : walk env c.taken c.left cause = w at hwalk hsent hcreated
  generalize tryNextTarget env c cause = p at hwalk
  cases hwalk with
  | ended c' hend hleft hkept =>
    refine ⟨?_, ?_⟩
    · rw [hsent]
      exact List.nil_sublist _
    · intro n t ht
      rw [hsent, ← (hcreated n t ht).2]
      refine ⟨fun h => absurd h List.not_mem_nil, ?_⟩
      rintro ⟨stop, hstop, _⟩
      rw [hend] at hstop
      cases hstop
  | stopped c' stop hstop hleft hnum hkept =>
    obtain ⟨copy, hout⟩ := startFor_out env c' stop.target
    have htaken : c'.taken = stop.num := by
      rw [taken, hnum, Option.getD_some]
    have hsentAll : sent (w.1 ++ (c'.startFor env stop.target).2) = [(.target stop.target, stop.num)] := by
      rw [sent_append, hsent, hout, htaken]
      rfl
    refine ⟨?_, ?_⟩
    · have hst : Stopped c.taken c.left w.1 stop := by
        rw [← hw]
        exact walk_stopped (by rw [hw, hstop])
      obtain ⟨us, _, hn, htried, _⟩ := hst.pre
      rw [hsentAll, tried_append, htried, List.zipIdx_append, hout]
      simp [tried, Output.tried?, hn]
      omega
    · intro n t ht
      rw [hsentAll]
      have ht : .trying n t ∈ w.1 := by
        rw [hout] at ht
        simpa using ht
      rw [← (hcreated n t ht).2, List.mem_singleton]
      constructor
      · intro heq
        obtain ⟨hd, rfl⟩ := Prod.mk.inj heq
        obtain rfl := Destination.target.inj hd
        exact ⟨stop, hstop, rfl, rfl⟩
      · rintro ⟨stop', hstop', rfl, rfl⟩
        obtain rfl : stop = stop' := Option.some.inj (hstop.symm.trans hstop')
        rfl

/-- The traversal after a call of `try_next_target`. -/
structure Next (ts : List Target) (os : List Output) (fs : List Cause) (c : Client) : Prop where
  aborted : c.aborted = false
  oneRuns : OneRuns c
  state : (Going ts os c ∧ fs.length + 1 = c.taken) ∨ (Over ts os fs ∧ Idle c)

theorem zipIdx_take_append_drop {α : Type} (ts : List α) {k : ℕ} (h : k ≤ ts.length) :
    (ts.take k).zipIdx 1 ++ (ts.drop k).zipIdx (k + 1) = ts.zipIdx 1 := by
  have hsplit : (ts.take k ++ ts.drop k).zipIdx 1 =
      (ts.take k).zipIdx 1 ++ (ts.drop k).zipIdx (1 + (ts.take k).length) := List.zipIdx_append
  rw [List.take_append_drop, List.length_take, Nat.min_eq_left h, Nat.add_comm 1 k] at hsplit
  exact hsplit.symm

theorem getLast_append_getD {α : Type} (l l' : List α) (d : α) :
    (l ++ l').getLast?.getD d = l'.getLast?.getD (l.getLast?.getD d) := by
  rw [List.getLast?_append]
  cases l'.getLast? with
  | none => rfl
  | some x => rfl

/-- The one transaction made after all others have ended can fail, no other. -/
theorem oneRuns_startFor {c' : Client} (h : Idle c') (t : Target) : OneRuns (c'.startFor env t).1 := by
  have hattempts : (c'.startFor env t).1.attempts = c'.attempts ++ [⟨.target t, true⟩] := rfl
  intro i a ha hrun
  rw [hattempts] at ha ⊢
  rcases Nat.lt_or_ge i c'.attempts.length with hlt | hge
  · rw [List.getElem?_append_left hlt] at ha
    rw [h a (List.mem_of_getElem? ha)] at hrun
    cases hrun
  · have hle := (List.getElem?_eq_some_iff.mp ha).1
    rw [List.length_append, List.length_singleton] at hle ⊢
    omega

/-- A traversal whose last transaction has failed goes on, or is over. -/
theorem Going.next (env : Env) {ts : List Target} {os : List Output} {fs : List Cause} (h : Going ts os c)
    (hfs : fs.length = c.taken) (haborted : c.aborted = false) (hidle : Idle c) :
    Next ts (os ++ (tryNextTarget env c (fs.getLast?.getD .none)).2)
      (fs ++ skipped (tryNextTarget env c (fs.getLast?.getD .none)).2)
      (tryNextTarget env c (fs.getLast?.getD .none)).1 := by
  have hwalk : Walked env c (walk env c.taken c.left (fs.getLast?.getD .none))
      (tryNextTarget env c (fs.getLast?.getD .none)) := tryNextTarget_walk haborted
  generalize hw : walk env c.taken c.left (fs.getLast?.getD .none) = w at hwalk
  generalize tryNextTarget env c (fs.getLast?.getD .none) = p at hwalk
  cases hwalk with
  | ended c' hend hleft hkept =>
    have hended : Ended c.taken c.left (fs.getLast?.getD .none) w.1 := by
      rw [← hw]
      exact walk_ended (by rw [hw, hend])
    have hidle' : Idle c' := hidle.of_attempts hkept.attempts
    refine ⟨hkept.aborted.trans haborted, hidle'.oneRuns, .inr ⟨⟨?_, ?_⟩, hidle'⟩⟩
    · have hrest := hended.inOrder
      rw [h.rest] at hrest
      rw [tried_append, h.inOrder, ← zipIdx_take_append_drop ts h.le_length]
      exact (List.prefix_append_right_inj _).mpr hrest
    · obtain ⟨os', hos, hlast⟩ := hended.last
      refine ⟨os ++ os', ?_, ?_⟩
      · rw [getLast_append_getD, List.append_assoc, ← hos]
      · rcases hlast with ⟨hq, hlen⟩ | ⟨hcause, os'', q, rfl, hq⟩
        · refine .inl ⟨h.quiet.append hq, ?_⟩
          rw [List.length_append, hlen, hfs, h.rest, List.length_drop]
          have := h.le_length
          omega
        · refine .inr ⟨?_, os ++ os'', q, (List.append_assoc ..).symm, h.quiet.append hq⟩
          rw [List.getLast?_append, hcause]
          rfl
  | stopped c' stop hstop hleft hnum hkept =>
    have hst : Stopped c.taken c.left w.1 stop := by
      rw [← hw]
      exact walk_stopped (by rw [hw, hstop])
    obtain ⟨us, hus, hn, htried, hskipped⟩ := hst.pre
    obtain ⟨copy, hout⟩ := startFor_out env c' stop.target
    have hidle' : Idle c' := hidle.of_attempts hkept.attempts
    have htaken : (c'.startFor env stop.target).1.taken = stop.num := by
      have : (c'.startFor env stop.target).1.taken = c'.taken := rfl
      rw [this, Client.taken, hnum, Option.getD_some]
    -- the list, cut behind the target that the walk stops at
    have hts : ts = (ts.take c.taken ++ (us ++ [stop.target])) ++ stop.rest := by
      have hdrop := h.rest.symm.trans hus
      rw [List.append_assoc, List.append_assoc, List.singleton_append, ← hdrop, List.take_append_drop]
    have hlen : (ts.take c.taken ++ (us ++ [stop.target])).length = stop.num := by
      rw [List.length_append, List.length_take, Nat.min_eq_left h.le_length, List.length_append,
        List.length_singleton, hn]
      omega
    refine ⟨hkept.aborted.trans haborted, oneRuns_startFor hidle' _, .inl ⟨⟨?_, ?_, ?_, ?_⟩, ?_⟩⟩
    · have htake : ts.take stop.num = ts.take c.taken ++ (us ++ [stop.target]) := by
        conv_lhs => rw [hts, ← hlen]
        exact List.take_left
      have hzip : (ts.take c.taken ++ (us ++ [stop.target])).zipIdx 1 =
          (ts.take c.taken).zipIdx 1 ++ (us ++ [stop.target]).zipIdx (c.taken + 1) := by
        rw [List.zipIdx_append, List.length_take, Nat.min_eq_left h.le_length, Nat.add_comm 1]
      have hnone : tried [.send c'.taken (.target stop.target) copy] = [] := rfl
      rw [htaken, htake, hzip, tried_append, tried_append, h.inOrder, htried, hout, hnone,
        List.append_nil]
    · have hlength := congrArg List.length hts
      rw [List.length_append, hlen] at hlength
      exact Nat.le_trans (Nat.le_of_eq htaken) (by omega)
    · have hdrop : ts.drop stop.num = stop.rest := by
        conv_lhs => rw [hts, ← hlen]
        exact List.drop_left
      rw [htaken, hdrop]
      exact hleft
    · refine h.quiet.append (hst.quiet.append ?_)
      rw [hout]
      intro o ho
      obtain rfl := List.mem_singleton.mp ho
      exact ⟨rfl, rfl⟩
    · rw [htaken, hn, skipped_append, hout, List.length_append, List.length_append, hskipped, hfs]
      rfl

/-! ## Steps -/

/-- A result that is handed to a client begins a traversal. -/
theorem next_result (env : Env) (result : Resolution) (haborted : c.aborted = false) (hidle : Idle c) :
    Next result.targets (rfc3263Succeeded env c result).2
        (skipped (rfc3263Succeeded env c result).2) (rfc3263Succeeded env c result).1 ∧
      Fair env (rfc3263Succeeded env c result).2 := by
  obtain ⟨c', heq, hnum, hleft, hkept⟩ := rfc3263Succeeded_eq env c result
  have htaken : c'.taken = 0 := by
    rw [taken, hnum, Option.getD_some]
  have haborted' : c'.aborted = false := hkept.aborted.trans haborted
  have hidle' : Idle c' := hidle.of_attempts hkept.attempts
  have hgoing : Going result.targets [] c' := by
    refine ⟨?_, ?_, ?_, quiet_nil⟩
    · rw [htaken]
      rfl
    · rw [htaken]
      exact Nat.zero_le _
    · rw [htaken, hleft]
      rfl
  have hnext : Next result.targets ([] ++ (tryNextTarget env c' .none).2)
      ([] ++ skipped (tryNextTarget env c' .none).2) (tryNextTarget env c' .none).1 := by
    have hlength : ([] : List Cause).length = c'.taken := htaken.symm
    exact hgoing.next env hlength haborted' hidle'
  rw [heq]
  exact ⟨hnext, fair_tryNextTarget haborted' _⟩

/-- The client without a transaction that has told its last. -/
def settle (c : Client) (i : ℕ) (a : Attempt) (o : Outcome) : Client :=
  { c with attempts := c.attempts.set i { a with running := !o.final } }

/-- What becomes of a client transaction happens to one that can fail. -/
theorem step_outcome {e : EnvEvent} {i : ℕ} {o : Outcome} {p : Client × List Output}
    (he : e.ev = .outcome i o) (h : step c e = some p) :
    ∃ a, c.attempts[i]? = some a ∧ a.running = true ∧ c.request.method ≠ .ack ∧
      p = coreCall e.env (c.settle i a o) o := by
  unfold step at h
  rw [he] at h
  cases ha : c.attempts[i]? with
  | none =>
    simp only [ha] at h
    cases h
  | some a =>
    simp only [ha] at h
    by_cases hg : a.running = true ∧ c.request.method ≠ .ack
    · rw [if_pos hg] at h
      exact ⟨a, rfl, hg.1, hg.2, (Option.some.inj h).symm⟩
    · rw [if_neg hg] at h
      cases h

/-- The last transaction, the only one that could fail, has failed. -/
theorem idle_settle {i : ℕ} {a : Attempt} {o : Outcome} (h : OneRuns c) (ha : c.attempts[i]? = some a)
    (hrun : a.running = true) (hfinal : o.final = true) : Idle (c.settle i a o) := by
  intro b hb
  obtain ⟨j, hj⟩ := List.mem_iff_getElem?.mp hb
  have hlast := h i a ha hrun
  rw [settle, List.getElem?_set] at hj
  by_cases hij : i = j
  · rw [if_pos hij] at hj
    have hlt : i < c.attempts.length := by omega
    rw [if_pos hlt, hfinal] at hj
    rw [← Option.some.inj hj]
    rfl
  · rw [if_neg hij] at hj
    by_contra hbrun
    have hblast := h j b hj (by simpa using hbrun)
    omega

theorem oneRuns_settle {i : ℕ} {a : Attempt} {o : Outcome} (h : OneRuns c)
    (ha : c.attempts[i]? = some a) (hrun : a.running = true) : OneRuns (c.settle i a o) := by
  intro j b hb hbrun
  have hlast := h i a ha hrun
  rw [settle, List.getElem?_set] at hb
  rw [settle, List.length_set]
  by_cases hij : i = j
  · omega
  · rw [if_neg hij] at hb
    exact h j b hb hbrun

/-- What becomes of a client transaction keeps a traversal. -/
theorem Next.outcome {ts : List Target} {os : List Output} {fs : List Cause} {e : EnvEvent} {i : ℕ}
    {o : Outcome} {p : Client × List Output} (h : Next ts os fs c) (he : e.ev = .outcome i o)
    (hs : step c e = some p) :
    Next ts (os ++ p.2) (fs ++ ((o.cause c.conf).toList ++ skipped p.2)) p.1 ∧ Fair e.env p.2 := by
  obtain ⟨a, ha, hrun, _, rfl⟩ := step_outcome he hs
  -- there is a transaction that can fail, so the traversal is not over
  have hgoing : Going ts os c ∧ fs.length + 1 = c.taken := by
    rcases h.state with hg | ⟨_, hidle⟩
    · exact hg
    · rw [hidle a (List.mem_of_getElem? ha)] at hrun
      cases hrun
  have hsettled : Going ts os (c.settle i a o) :=
    ⟨hgoing.1.inOrder, hgoing.1.le_length, hgoing.1.rest, hgoing.1.quiet⟩
  cases hcause : o.cause c.conf with
  | some cause =>
    have hcause' : o.cause (c.settle i a o).conf = some cause := hcause
    obtain ⟨hfinal, hcall⟩ := coreCall_of_some e.env (c.settle i a o) hcause'
    have hlength : (fs ++ [cause]).length = (c.settle i a o).taken := by
      rw [List.length_append, List.length_singleton]
      exact hgoing.2
    have hlast : (fs ++ [cause]).getLast?.getD .none = cause := by
      rw [List.getLast?_concat, Option.getD_some]
    have hnext : Next ts (os ++ (tryNextTarget e.env (c.settle i a o) cause).2)
        (fs ++ [cause] ++ skipped (tryNextTarget e.env (c.settle i a o) cause).2)
        (tryNextTarget e.env (c.settle i a o) cause).1 := by
      have := hsettled.next e.env hlength h.aborted (idle_settle h.oneRuns ha hrun hfinal)
      rwa [hlast] at this
    rw [hcall]
    rw [List.append_assoc] at hnext
    have haborted : (c.settle i a o).aborted = false := h.aborted
    exact ⟨hnext, fair_tryNextTarget haborted _⟩
  | none =>
    have hcause' : o.cause (c.settle i a o).conf = none := hcause
    obtain ⟨r, hcall⟩ := coreCall_of_none e.env (c.settle i a o) hcause'
    rw [hcall]
    have hanswered : tried [.answered r] = [] := rfl
    have hquiet : Quiet [.answered r] := by
      intro x hx
      obtain rfl := List.mem_singleton.mp hx
      exact ⟨rfl, rfl⟩
    refine ⟨⟨h.aborted, oneRuns_settle h.oneRuns ha hrun, .inl ⟨⟨?_, ?_, ?_, ?_⟩, ?_⟩⟩, ?_, ?_⟩
    · rw [tried_append, hanswered, List.append_nil]
      exact hsettled.inOrder
    · exact hsettled.le_length
    · exact hsettled.rest
    · exact hsettled.quiet.append hquiet
    · have hnil : (none : Option Cause).toList ++ skipped [.answered r] = [] := rfl
      rw [hnil, List.append_nil]
      exact hgoing.2
    · exact List.nil_sublist _
    · intro n t ht
      simp at ht

/-! ## Runs -/

theorem failures_append (tr tr' : List (StepRec Client EnvEvent Output)) :
    failures (tr ++ tr') = failures tr ++ failures tr' :=
  List.flatMap_append

theorem forTaken_outputs {tr : List (StepRec Client EnvEvent Output)}
    (h : ∀ r ∈ tr, Fair r.ev.env r.out) :
    (sent (outputs tr)).Sublist ((tried (outputs tr)).map fun p => (.target p.1, p.2)) := by
  induction tr with
  | nil => exact List.Sublist.refl _
  | cons r tr ih =>
    have houts : outputs (r :: tr) = r.out ++ outputs tr := rfl
    rw [houts, sent_append, tried_append, List.map_append]
    exact (h r List.mem_cons_self).forTaken.append (ih fun r' hr' => h r' (List.mem_cons_of_mem _ hr'))

theorem Quiet.countP {os : List Output} (h : Quiet os) : os.countP Output.isNoMoreTargets = 0 := by
  rw [List.countP_eq_zero]
  intro o ho
  rw [(h o ho).2]
  decide

theorem Quiet.any {os : List Output} (h : Quiet os) : os.any Output.isAborted = false := by
  rw [List.any_eq_false]
  intro o ho
  rw [(h o ho).1]
  decide

theorem Quiet.not_aborted {os : List Output} (h : Quiet os) (n : ℕ) : .aborted n ∉ os :=
  fun hmem => Bool.noConfusion (h _ hmem).1

theorem Quiet.not_noMoreTargets {os : List Output} (h : Quiet os) (cause : Cause) :
    .noMoreTargets cause ∉ os :=
  fun hmem => Bool.noConfusion (h _ hmem).2

/-- What stands behind the end of the routing. -/
theorem Quiet.after_aborted {os os₁ os₂ : List Output} {n q : ℕ} {cause : Cause} (h : Quiet os)
    (heq : os ++ [.aborted q] ++ [.noMoreTargets cause] = os₁ ++ .aborted n :: os₂) :
    os₂ = [.noMoreTargets cause] := by
  rw [List.append_assoc] at heq
  rcases List.append_eq_append_iff.mp heq with ⟨l, rfl, hl⟩ | ⟨l, hos, hl⟩
  · cases l with
    | nil => exact (List.cons.inj hl).2.symm
    | cons o l =>
      obtain ⟨_, hrest⟩ := List.cons.inj hl
      cases l with
      | nil => cases hrest
      | cons o' l =>
        obtain ⟨_, hrest⟩ := List.cons.inj hrest
        exact absurd hrest.symm (List.append_ne_nil_of_right_ne_nil _ (List.cons_ne_nil _ _))
  · cases l with
    | nil => exact (List.cons.inj hl).2
    | cons o l =>
      obtain ⟨rfl, _⟩ := List.cons.inj hl
      refine absurd ?_ (h.not_aborted n)
      rw [hos]
      simp

/-- What the state of a traversal says of its history. -/
theorem Next.describes {ts : List Target} {tr : List (StepRec Client EnvEvent Output)}
    (h : Next ts (outputs tr) (failures tr) c) (hfair : ∀ r ∈ tr, Fair r.ev.env r.out) :
    Traversal ts tr := by
  have hforTaken := forTaken_outputs hfair
  have hcreated : ∀ r ∈ tr, ∀ n t, .trying n t ∈ r.out →
      ((.target t, n) ∈ sent r.out ↔
        r.ev.env.blacklist n t.toS = none ∧ r.ev.env.abortRouting n = false) :=
    fun r hr => (hfair r hr).created
  rcases h.state with ⟨hgoing, hlen⟩ | ⟨hover, _⟩
  · have hno := hgoing.quiet
    refine ⟨?_, hforTaken, hcreated, ?_, ?_, ?_⟩
    · rw [hgoing.inOrder, ← zipIdx_take_append_drop ts hgoing.le_length]
      exact List.prefix_append _ _
    · intro os n os' heq
      have hmem : .aborted n ∈ outputs tr := by
        rw [heq]
        simp
      exact absurd hmem (hno.not_aborted n)
    · have hle := hgoing.le_length
      rw [hno.countP, hno.any, if_neg]
      rintro (hfalse | heq)
      · cases hfalse
      · omega
    · intro cause hmem
      exact absurd hmem (hno.not_noMoreTargets cause)
  · obtain ⟨os', hos, hlast⟩ := hover.last
    have hone : ([.noMoreTargets ((failures tr).getLast?.getD .none)] : List Output).countP
        Output.isNoMoreTargets = 1 := rfl
    refine ⟨hover.inOrder, hforTaken, hcreated, ?_, ?_, ?_⟩
    · intro os n os₂ heq
      rcases hlast with ⟨hq, _⟩ | ⟨hcause, os'', q, rfl, hq⟩
      · have hmem : .aborted n ∈ os' ++ [.noMoreTargets ((failures tr).getLast?.getD .none)] := by
          rw [← hos, heq]
          simp
        rcases List.mem_append.mp hmem with hmem | hmem
        · exact absurd hmem (hq.not_aborted n)
        · simp at hmem
      · rw [hos] at heq
        rw [hq.after_aborted heq, hcause, Option.getD_some]
    · rcases hlast with ⟨hq, hlen⟩ | ⟨_, os'', q, rfl, hq⟩
      · rw [if_pos (.inr hlen), hos, List.countP_append, hq.countP, hone]
      · have hzero : ([.aborted q] : List Output).countP Output.isNoMoreTargets = 0 := rfl
        have hany : (outputs tr).any Output.isAborted = true := by
          rw [hos]
          simp [Output.isAborted]
        rw [if_pos (.inl hany), hos, List.countP_append, List.countP_append, hq.countP, hzero, hone]
    · intro cause hmem
      rw [hos] at hmem
      rcases List.mem_append.mp hmem with hmem | hmem
      · rcases hlast with ⟨hq, _⟩ | ⟨_, os'', q, rfl, hq⟩
        · exact absurd hmem (hq.not_noMoreTargets cause)
        · rcases List.mem_append.mp hmem with hmem | hmem
          · exact absurd hmem (hq.not_noMoreTargets cause)
          · simp at hmem
      · exact Output.noMoreTargets.inj (List.mem_singleton.mp hmem)

/-- The step that hands a result to the client. -/
theorem step_result {e : EnvEvent} {result : Resolution} {p : Client × List Output}
    (he : e.ev.result? = some result) (h : step c e = some p) :
    ∃ c', p = rfc3263Succeeded e.env c' result ∧ c'.aborted = c.aborted ∧
      c'.attempts = c.attempts ∧ c'.request = c.request ∧ c'.conf = c.conf := by
  unfold step at h
  cases hev : e.ev with
  | route how =>
    rw [hev] at he h
    cases how with
    | resolved result' =>
      obtain rfl := Option.some.inj he
      exact ⟨_, (Option.some.inj h).symm, rfl, rfl, rfl, rfl⟩
    | flow connection => cases he
    | failed e => cases he
    | wait => cases he
  | dnsSucceeded call result' =>
    rw [hev] at he h
    obtain rfl := Option.some.inj he
    by_cases hmem : call ∈ c.waiting
    · simp only [if_pos hmem] at h
      exact ⟨_, (Option.some.inj h).symm, rfl, rfl, rfl, rfl⟩
    · simp only [if_neg hmem] at h
      cases h
  | dnsFailed call err =>
    rw [hev] at he
    cases he
  | outcome i o =>
    rw [hev] at he
    cases he

/-- What becomes of the client transactions keeps what a traversal says. -/
theorem next_run {ts : List Target} {r₀ : StepRec Client EnvEvent Output}
    {rest : List (StepRec Client EnvEvent Output)} (h : Run step r₀.post rest c)
    (hnext : Next ts (outputs [r₀]) (failures [r₀]) r₀.post) (hfair : Fair r₀.ev.env r₀.out)
    (hrest : ∀ r ∈ rest, ∃ i o, r.ev.ev = .outcome i o) :
    Next ts (outputs (r₀ :: rest)) (failures (r₀ :: rest)) c ∧
      ∀ r ∈ r₀ :: rest, Fair r.ev.env r.out := by
  refine Run.invariant (G := fun _ e => ∃ i o, e.ev = .outcome i o)
    (I := fun tr s => Next ts (outputs (r₀ :: tr)) (failures (r₀ :: tr)) s ∧
      ∀ r ∈ r₀ :: tr, Fair r.ev.env r.out) ?_ ?_ h hrest
  · refine ⟨hnext, ?_⟩
    intro r hr
    obtain rfl := List.mem_singleton.mp hr
    exact hfair
  · intro tr s e s' out ⟨hn, hf⟩ ⟨i, o, he⟩ hs
    obtain ⟨hn', hf'⟩ := hn.outcome he hs
    have houts : outputs (r₀ :: (tr ++ [⟨s, e, out, s'⟩])) = outputs (r₀ :: tr) ++ out := by
      rw [← List.cons_append, outputs_snoc]
    have hfails : failures (r₀ :: (tr ++ [⟨s, e, out, s'⟩])) =
        failures (r₀ :: tr) ++ ((o.cause s.conf).toList ++ skipped out) := by
      have hlast : failures [⟨s, e, out, s'⟩] = (o.cause s.conf).toList ++ skipped out := by
        simp [failures, he, Event.cause]
      rw [← List.cons_append, failures_append, hlast]
    rw [houts, hfails]
    refine ⟨hn', ?_⟩
    intro r hr
    rw [← List.cons_append] at hr
    rcases List.mem_append.mp hr with hr | hr
    · exact hf r hr
    · obtain rfl := List.mem_singleton.mp hr
      exact hf'

/-- The second target is in the blacklist. -/
def sampleEnv : Env :=
  { blacklist := fun n _ => if n = 2 then some (.error 500 "Connection Error" .connectionError) else none
    abortRouting := fun _ => false
    topVia := "SIP/2.0/UDP 192.0.2.1:5060;branch=z9hG4bK1;rport" }

/-- A client with two targets, the first taken. -/
def sampleTaken : Client :=
  { new sampleClientConf sampleRouted with
    targets := some [sampleTarget, otherTarget], numTarget := some 1
    currentTarget := some sampleTarget, calls := 1 }

/-- It has sent the request to the first target. -/
def sampleSent : Client × List Output := sampleTaken.startFor sampleEnv sampleTarget

/-- The first transaction has timed out, and the second target is taken. -/
def sampleTimedOut : Client :=
  { sampleSent.1 with
    attempts := [⟨.target sampleTarget, false⟩], numTarget := some 2, currentTarget := some otherTarget }

/-- The request is routed. -/
def sampleFirst : StepRec Client EnvEvent Output :=
  { pre := new sampleClientConf sampleRouted
    ev := ⟨sampleEnv, .route (.resolved (.multiple [sampleTarget, otherTarget]))⟩
    out := .trying 1 sampleTarget :: .onTarget 1 sampleTarget :: sampleSent.2
    post := sampleSent.1 }

/-- The first transaction times out. -/
def sampleSecond : StepRec Client EnvEvent Output :=
  { pre := sampleSent.1
    ev := ⟨sampleEnv, .outcome 0 .clientTimeout⟩
    out := [.trying 2 otherTarget, .blacklisted 2 (.error 500 "Connection Error" .connectionError),
      .noMoreTargets (.error 500 "Connection Error" .connectionError)]
    post := sampleTimedOut }

theorem sampleFirst_step :
    step sampleFirst.pre sampleFirst.ev = some (sampleFirst.post, sampleFirst.out) := by
  have htry : tryNextTarget sampleEnv
      { new sampleClientConf sampleRouted with
        targets := some [sampleTarget, otherTarget], numTarget := some 0, calls := 1 } .none =
      (sampleSent.1, sampleFirst.out) := by
    rw [tryNextTarget_cons rfl, useTarget_starts _ rfl rfl rfl]
    rfl
  exact congrArg some htry

theorem sampleSecond_step :
    step sampleSecond.pre sampleSecond.ev = some (sampleSecond.post, sampleSecond.out) := by
  have htry : tryNextTarget sampleEnv
      { sampleSent.1 with attempts := [⟨.target sampleTarget, false⟩] }
      (.error 408 "Client Timeout" .clientTimeout) = (sampleTimedOut, sampleSecond.out) := by
    rw [tryNextTarget_cons rfl, useTarget_blacklisted _ rfl, tryNextTarget_nil rfl]
    rfl
  exact congrArg some htry

end Client

end OverSip
