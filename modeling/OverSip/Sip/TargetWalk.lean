import OverSip.Lib.History
import OverSip.Sip.Client

/-!
# The walk down the targets of a client

`try_next_target` and `use_target` call each other over `@target`, `@targets` and `@num_target`. `walk` is
what they do in terms of the list of targets that are left: a target is blacklisted, or stops the routing,
or gets a client transaction, and when none is left `no_more_targets` is called. `tryNextTarget_walk` joins
the two.
-/

namespace OverSip

namespace Client

variable {env : Env} {c : Client}

/-! ## The next target -/

/-- The number of targets taken. -/
def taken (c : Client) : ℕ := c.numTarget.getD 0

/-- The client when the next target is `t`. -/
def take (c : Client) (t : Target) : Client :=
  { c with currentTarget := some t, numTarget := some (c.taken + 1) }

/-- The client when the routing was aborted. -/
def abort (c : Client) : Client := { c with aborted := false, target := none, targets := none }

/-- The three branches of `try_next_target`. -/
theorem numTarget_cases (c : Client) :
    c.numTarget = none ∨ (∃ t, c.numTarget = some 0 ∧ c.target = some t) ∨
      ∃ n, c.numTarget = some n ∧ (n = 0 → c.target = none) := by
  cases hnum : c.numTarget with
  | none => exact .inl rfl
  | some n =>
    right
    cases htarget : c.target with
    | none => exact .inr ⟨n, rfl, fun _ => rfl⟩
    | some t =>
      by_cases hn : n = 0
      · exact .inl ⟨t, by rw [hn], rfl⟩
      · exact .inr ⟨n, rfl, fun h => absurd h hn⟩

theorem left_none (h : c.numTarget = none) : c.left = [] := by
  unfold left
  rw [h]

theorem left_single {t : Target} (hnum : c.numTarget = some 0) (htarget : c.target = some t) :
    c.left = t :: (c.targets.getD []).drop 1 := by
  simp [left, hnum, htarget]

theorem left_multiple {n : ℕ} (hnum : c.numTarget = some n) (htarget : n = 0 → c.target = none) :
    c.left = (c.targets.getD []).drop n := by
  cases n with
  | zero => simp [left, hnum, htarget rfl]
  | succ n => simp [left, hnum]

theorem left_abort (c : Client) : c.abort.left = [] := by
  rcases numTarget_cases c.abort with h | ⟨t, _, h⟩ | ⟨n, hnum, h⟩
  · exact left_none h
  · cases h
  · rw [left_multiple hnum h]
    exact List.drop_nil

theorem left_take {t : Target} {ts : List Target} (h : c.left = t :: ts) : (c.take t).left = ts := by
  have hleft : (c.take t).left = (c.targets.getD []).drop (c.taken + 1) :=
    left_multiple rfl fun h => absurd h (Nat.succ_ne_zero _)
  rw [hleft]
  rcases numTarget_cases c with hnum | ⟨t', hnum, htarget⟩ | ⟨n, hnum, htarget⟩
  · rw [left_none hnum] at h
    cases h
  · rw [left_single hnum htarget] at h
    rw [taken, hnum]
    exact (List.cons.inj h).2
  · rw [left_multiple hnum htarget] at h
    rw [taken, hnum, Option.getD_some, ← List.tail_drop, h, List.tail_cons]

/-- Nothing is left: the client gives up. -/
theorem tryNextTarget_nil {cause : Cause} (h : c.left = []) :
    tryNextTarget env c cause = (c, [.noMoreTargets cause]) := by
  rw [tryNextTarget.eq_def]
  rcases numTarget_cases c with hnum | ⟨t, hnum, htarget⟩ | ⟨n, hnum, htarget⟩
  · rw [hnum]
    cases c.target <;> rfl
  · rw [left_single hnum htarget] at h
    cases h
  · have hnone : (c.targets.getD [])[n]? = none := by
      rw [left_multiple hnum htarget, List.drop_eq_nil_iff] at h
      exact List.getElem?_eq_none h
    split
    · simp_all
    · rename_i m hm _
      obtain rfl : n = m := Option.some.inj (hnum.symm.trans hm)
      split
      · simp_all
      · rfl
    · rfl

theorem tryNextTarget_cons {cause : Cause} {t : Target} {ts : List Target} (h : c.left = t :: ts) :
    tryNextTarget env c cause =
      ((useTarget env (c.take t) t).1, .trying (c.taken + 1) t :: (useTarget env (c.take t) t).2) := by
  rw [tryNextTarget.eq_def]
  rcases numTarget_cases c with hnum | ⟨t', hnum, htarget⟩ | ⟨n, hnum, htarget⟩
  · rw [left_none hnum] at h
    cases h
  · rw [left_single hnum htarget] at h
    split
    · simp_all [take, taken]
    · simp_all
    · simp_all
  · have hsome : (c.targets.getD [])[n]? = some t := by
      rw [left_multiple hnum htarget] at h
      rw [← List.head?_drop, h, List.head?_cons]
    split
    · simp_all
    · rename_i m hm _
      obtain rfl : n = m := Option.some.inj (hnum.symm.trans hm)
      split
      · rename_i t' hget
        obtain rfl : t' = t := Option.some.inj (hget.symm.trans hsome)
        simp only [take, taken, hnum, Option.getD_some]
      · simp_all
    · simp_all

theorem useTarget_blacklisted (c : Client) {t : Target} {entry : Cause}
    (h : env.blacklist c.taken t.toS = some entry) :
    useTarget env c t =
      ((tryNextTarget env c entry).1, .blacklisted c.taken entry :: (tryNextTarget env c entry).2) := by
  rw [useTarget.eq_def]
  simp only [taken] at h
  simp only [taken, h]

theorem useTarget_aborted (c : Client) {t : Target} (h : env.blacklist c.taken t.toS = none)
    (habort : env.abortRouting c.taken = true) :
    useTarget env c t =
      (c.abort, [.onTarget c.taken t, .aborted c.taken,
        .noMoreTargets (.error 403 "Destination Aborted" .destinationAborted)]) := by
  have hnil : tryNextTarget env c.abort (.error 403 "Destination Aborted" .destinationAborted) =
      (c.abort, [.noMoreTargets (.error 403 "Destination Aborted" .destinationAborted)]) :=
    tryNextTarget_nil (left_abort c)
  rw [useTarget.eq_def]
  simp only [taken] at h habort
  simp only [taken, h, habort, Bool.or_true, if_true]
  rw [abort] at hnil
  rw [hnil]
  rfl

/-- The client transaction for a target. -/
def startFor (env : Env) (c : Client) (t : Target) : Client × List Output :=
  c.startTransaction env (.target t) (c.conf.serverClass t.transport t.ipType)
    (c.conf.sameClass t.transport t.ipType)

theorem useTarget_starts (c : Client) {t : Target} (h : env.blacklist c.taken t.toS = none)
    (habort : env.abortRouting c.taken = false) (haborted : c.aborted = false) :
    useTarget env c t = ((c.startFor env t).1, .onTarget c.taken t :: (c.startFor env t).2) := by
  rw [useTarget.eq_def]
  simp only [taken] at h habort
  simp only [taken, h, habort, haborted, Bool.or_self, startFor]
  rfl

/-! ## The walk down the list -/

/-- Where a walk stops to make a client transaction. -/
structure Stop where
  num : ℕ
  target : Target
  rest : List Target

/-- The cause of an aborted routing. -/
def abortedCause : Cause := .error 403 "Destination Aborted" .destinationAborted

/-- What `try_next_target` does when `n` targets are taken and `ts` are left: what is seen of it, and the
target it stops at. -/
def walk (env : Env) : ℕ → List Target → Cause → List Output × Option Stop
  | _, [], cause => ([.noMoreTargets cause], none)
  | n, t :: ts, _ =>
    match env.blacklist (n + 1) t.toS with
    | some entry =>
      let p := walk env (n + 1) ts entry
      (.trying (n + 1) t :: .blacklisted (n + 1) entry :: p.1, p.2)
    | none =>
      if env.abortRouting (n + 1) then
        ([.trying (n + 1) t, .onTarget (n + 1) t, .aborted (n + 1), .noMoreTargets abortedCause], none)
      else ([.trying (n + 1) t, .onTarget (n + 1) t], some ⟨n + 1, t, ts⟩)

theorem walk_blacklisted {n : ℕ} {t : Target} {entry : Cause}
    (h : env.blacklist (n + 1) t.toS = some entry) (ts : List Target) (cause : Cause) :
    walk env n (t :: ts) cause =
      (.trying (n + 1) t :: .blacklisted (n + 1) entry :: (walk env (n + 1) ts entry).1,
        (walk env (n + 1) ts entry).2) := by
  rw [walk, h]

theorem walk_aborted {n : ℕ} {t : Target} (h : env.blacklist (n + 1) t.toS = none)
    (habort : env.abortRouting (n + 1) = true) (ts : List Target) (cause : Cause) :
    walk env n (t :: ts) cause =
      ([.trying (n + 1) t, .onTarget (n + 1) t, .aborted (n + 1), .noMoreTargets abortedCause],
        none) := by
  rw [walk, h]
  exact if_pos habort

theorem walk_stops {n : ℕ} {t : Target} (h : env.blacklist (n + 1) t.toS = none)
    (habort : env.abortRouting (n + 1) = false) (ts : List Target) (cause : Cause) :
    walk env n (t :: ts) cause =
      ([.trying (n + 1) t, .onTarget (n + 1) t], some ⟨n + 1, t, ts⟩) := by
  rw [walk, h]
  exact if_neg (by rw [habort]; decide)

/-- **Walk rule**: what holds where a walk ends and survives a target that is blacklisted holds of every
walk. -/
theorem walk_rule {P : ℕ → List Target → Cause → List Output × Option Stop → Prop}
    (hnil : ∀ n cause, P n [] cause ([.noMoreTargets cause], none))
    (hblacklisted : ∀ n t ts cause entry p, env.blacklist (n + 1) t.toS = some entry →
      P (n + 1) ts entry p →
      P n (t :: ts) cause (.trying (n + 1) t :: .blacklisted (n + 1) entry :: p.1, p.2))
    (haborted : ∀ n t ts cause, env.blacklist (n + 1) t.toS = none →
      env.abortRouting (n + 1) = true →
      P n (t :: ts) cause
        ([.trying (n + 1) t, .onTarget (n + 1) t, .aborted (n + 1), .noMoreTargets abortedCause], none))
    (hstops : ∀ n t ts cause, env.blacklist (n + 1) t.toS = none →
      env.abortRouting (n + 1) = false →
      P n (t :: ts) cause ([.trying (n + 1) t, .onTarget (n + 1) t], some ⟨n + 1, t, ts⟩))
    (n : ℕ) (ts : List Target) (cause : Cause) : P n ts cause (walk env n ts cause) := by
  induction ts generalizing n cause with
  | nil => exact hnil n cause
  | cons t ts ih =>
    cases hb : env.blacklist (n + 1) t.toS with
    | some entry =>
      rw [walk_blacklisted hb]
      exact hblacklisted n t ts cause entry _ hb (ih (n + 1) entry)
    | none =>
      cases habort : env.abortRouting (n + 1) with
      | true =>
        rw [walk_aborted hb habort]
        exact haborted n t ts cause hb habort
      | false =>
        rw [walk_stops hb habort]
        exact hstops n t ts cause hb habort

/-- What a walk leaves as it was. -/
structure Kept (c c' : Client) : Prop where
  conf : c'.conf = c.conf
  request : c'.request = c.request
  attempts : c'.attempts = c.attempts
  calls : c'.calls = c.calls
  waiting : c'.waiting = c.waiting
  aborted : c'.aborted = c.aborted

theorem Kept.refl (c : Client) : Kept c c := ⟨rfl, rfl, rfl, rfl, rfl, rfl⟩

theorem Kept.of_take {t : Target} {c' : Client} (h : Kept (c.take t) c') : Kept c c' :=
  ⟨h.conf, h.request, h.attempts, h.calls, h.waiting, h.aborted⟩

/-- Where `tryNextTarget` gets to on a walk. -/
inductive Walked (env : Env) (c : Client) (w : List Output × Option Stop) :
    Client × List Output → Prop
  /-- Nothing is left. -/
  | ended (c' : Client) (hend : w.2 = none) (hleft : c'.left = []) (hkept : Kept c c') :
      Walked env c w (c', w.1)
  /-- A client transaction is made for the target that the walk stops at. -/
  | stopped (c' : Client) (stop : Stop) (hstop : w.2 = some stop) (hleft : c'.left = stop.rest)
      (hnum : c'.numTarget = some stop.num) (hkept : Kept c c') :
      Walked env c w ((c'.startFor env stop.target).1, w.1 ++ (c'.startFor env stop.target).2)

/-- **The recursion is a walk down the targets that are left.** -/
theorem tryNextTarget_walk {cause : Cause} (haborted : c.aborted = false) :
    Walked env c (walk env c.taken c.left cause) (tryNextTarget env c cause) := by
  induction hleft : c.left generalizing c cause with
  | nil =>
    rw [tryNextTarget_nil hleft]
    exact .ended c rfl hleft (.refl c)
  | cons t ts ih =>
    have htake : (c.take t).left = ts := left_take hleft
    rw [tryNextTarget_cons hleft]
    cases hb : env.blacklist (c.taken + 1) t.toS with
    | some entry =>
      have hrest : Walked env (c.take t) (walk env (c.taken + 1) ts entry)
          (tryNextTarget env (c.take t) entry) := ih haborted htake
      rw [useTarget_blacklisted (c.take t) hb, walk_blacklisted hb]
      generalize tryNextTarget env (c.take t) entry = p at hrest
      cases hrest with
      | ended c' hend hleft hkept => exact .ended c' hend hleft hkept.of_take
      | stopped c' stop hstop hleft hnum hkept =>
        exact .stopped c' stop hstop hleft hnum hkept.of_take
    | none =>
      cases habort : env.abortRouting (c.taken + 1) with
      | true =>
        rw [useTarget_aborted (c.take t) hb habort, walk_aborted hb habort]
        exact .ended (c.take t).abort rfl (left_abort _) ⟨rfl, rfl, rfl, rfl, rfl, haborted.symm⟩
      | false =>
        rw [useTarget_starts (c.take t) hb habort haborted, walk_stops hb habort]
        exact .stopped (c.take t) ⟨c.taken + 1, t, ts⟩ rfl htake rfl (Kept.refl _).of_take

/-! ## A result -/

/-- The targets of a result. -/
def Resolution.targets : Resolution → List Target
  | .single t => [t]
  | .multiple ts => ts
  | .other => []

/-- The result that an event hands to the client. -/
def Event.result? : Event → Option Resolution
  | .route (.resolved result) => some result
  | .dnsSucceeded _ result => some result
  | _ => none

/-- A result is a walk down all its targets. -/
theorem rfc3263Succeeded_eq (env : Env) (c : Client) (result : Resolution) :
    ∃ c', rfc3263Succeeded env c result = tryNextTarget env c' .none ∧ c'.numTarget = some 0 ∧
      c'.left = result.targets ∧ Kept c c' := by
  cases result with
  | single t => exact ⟨_, rfl, rfl, rfl, rfl, rfl, rfl, rfl, rfl, rfl⟩
  | multiple ts => exact ⟨_, rfl, rfl, rfl, rfl, rfl, rfl, rfl, rfl, rfl⟩
  | other => exact ⟨_, rfl, rfl, rfl, rfl, rfl, rfl, rfl, rfl, rfl⟩

/-! ## A failure -/

/-- The failure that a client transaction tells. -/
def Outcome.cause (conf : ClientConf) : Outcome → Option Cause
  | .clientTimeout => some (.error 408 "Client Timeout" .clientTimeout)
  | .connectionFailed => some (.error 500 "Connection Error" .connectionError)
  | .tlsValidationFailed => some (.error 500 "TLS Validation Failed" .tlsValidationFailed)
  | .response r =>
    if r.statusCode = 503 ∧ conf.dnsFailoverOn503 = true then
      some { Cause.none with fullResponse := some r }
    else none

/-- A failure is the last thing a client transaction tells, and makes the client try its next target. -/
theorem coreCall_of_some (env : Env) (c : Client) {o : Outcome} {cause : Cause} (h : o.cause c.conf = some cause) :
    o.final = true ∧ coreCall env c o = tryNextTarget env c cause := by
  cases o with
  | clientTimeout =>
    obtain rfl := Option.some.inj h
    exact ⟨rfl, rfl⟩
  | connectionFailed =>
    obtain rfl := Option.some.inj h
    exact ⟨rfl, rfl⟩
  | tlsValidationFailed =>
    obtain rfl := Option.some.inj h
    exact ⟨rfl, rfl⟩
  | response r =>
    by_cases h503 : r.statusCode = 503 ∧ c.conf.dnsFailoverOn503 = true
    · rw [Outcome.cause, if_pos h503] at h
      obtain rfl := Option.some.inj h
      refine ⟨?_, if_pos h503⟩
      rw [Outcome.final, h503.1]
      decide
    · rw [Outcome.cause, if_neg h503] at h
      cases h

/-- Another response is answered. -/
theorem coreCall_of_none (env : Env) (c : Client) {o : Outcome} (h : o.cause c.conf = none) :
    ∃ r, coreCall env c o = (c, [.answered r]) := by
  cases o with
  | clientTimeout => cases h
  | connectionFailed => cases h
  | tlsValidationFailed => cases h
  | response r =>
    refine ⟨r, ?_⟩
    by_cases h503 : r.statusCode = 503 ∧ c.conf.dnsFailoverOn503 = true
    · rw [Outcome.cause, if_pos h503] at h
      cases h
    · exact if_neg h503

end Client

end OverSip
