import Mathlib.Data.List.Perm.Basic
import Mathlib.Logic.Function.Iterate
import OverSip.Lib.Machine

/-!
# The pool of fibers

`FiberPool` (`fiber_pool.rb`), which runs the DNS part of the routing. A fiber runs one block after the other: when
a block returns it takes the next one from the queue, and without one it goes back to the pool. A fiber whose block
raises is dead; it stays among the busy ones until the next `spawn` replaces it.

A block may be suspended at any place. So what other fibers and callers do in the meantime is any order of events.
-/

namespace OverSip

/-- What a busy fiber is about. -/
inductive BusyFiber (β : Type)
  | running (block : β)
  | dead
deriving DecidableEq, Repr

/-- The pool, with its fibers by their numbers. -/
structure FiberPool (β : Type) where
  /-- `@fibers` -/
  fibers : List ℕ
  /-- `@busy_fibers` -/
  busyFibers : List (ℕ × BusyFiber β)
  queue : List β
  /-- How many fibers have been made. -/
  made : ℕ
deriving DecidableEq, Repr

namespace FiberPool

variable {β : Type}

inductive Event (β : Type)
  | spawn (block : β)
  /-- The block of a fiber returns. -/
  | returns (fiber : ℕ)
  /-- The block of a fiber raises. -/
  | raises (fiber : ℕ)
deriving DecidableEq, Repr

inductive Output (β : Type)
  | started (fiber : ℕ) (block : β)
  | queued (block : β)
  | ended (fiber : ℕ) (block : β)
deriving DecidableEq, Repr

/-! ## The methods -/

def addFiber (p : FiberPool β) : FiberPool β := { p with fibers := p.fibers ++ [p.made], made := p.made + 1 }

/-- `initialize` -/
def new (count : ℕ) : FiberPool β := addFiber^[count] { fibers := [], busyFibers := [], queue := [], made := 0 }

def BusyFiber.isDead : BusyFiber β → Bool
  | .running _ => false
  | .dead => true

/-- "resurrect dead fibers" -/
def resurrect (p : FiberPool β) : FiberPool β :=
  let dead := p.busyFibers.filter fun f => BusyFiber.isDead f.2
  addFiber^[dead.length] { p with busyFibers := p.busyFibers.filter fun f => !BusyFiber.isDead f.2 }

def spawn (p : FiberPool β) (block : β) : FiberPool β × List (Output β) :=
  let p := p.resurrect
  match p.fibers with
  | fiber :: fibers =>
    ({ p with fibers, busyFibers := p.busyFibers ++ [(fiber, .running block)] }, [.started fiber block])
  | [] => ({ p with queue := p.queue ++ [block] }, [.queued block])

/-- The busy fibers, with another thing that `fiber` is about. -/
def setBusy (busyFibers : List (ℕ × BusyFiber β)) (fiber : ℕ) (state : BusyFiber β) : List (ℕ × BusyFiber β) :=
  busyFibers.map fun f => if f.1 = fiber then (fiber, state) else f

/-- The `loop` of a fiber, when its block returns. -/
def returns (p : FiberPool β) (fiber : ℕ) (block : β) : FiberPool β × List (Output β) :=
  match p.queue with
  | next :: queue =>
    ({ p with busyFibers := setBusy p.busyFibers fiber (.running next), queue },
      [.ended fiber block, .started fiber next])
  | [] =>
    ({ p with fibers := fiber :: p.fibers, busyFibers := p.busyFibers.filter fun f => f.1 ≠ fiber },
      [.ended fiber block])

def step (p : FiberPool β) : Event β → Option (FiberPool β × List (Output β))
  | .spawn block => some (p.spawn block)
  | .returns fiber =>
    match p.busyFibers.lookup fiber with
    | some (.running block) => some (p.returns fiber block)
    | _ => none
  | .raises fiber =>
    match p.busyFibers.lookup fiber with
    | some (.running block) =>
      some ({ p with busyFibers := setBusy p.busyFibers fiber .dead }, [.ended fiber block])
    | _ => none

/-! ## What a run has done -/

def spawnedBy : Event β → List β
  | .spawn block => [block]
  | _ => []

def startedBy : Output β → List β
  | .started _ block => [block]
  | _ => []

/-- The blocks that have been given to `spawn`. -/
def spawned (tr : List (StepRec (FiberPool β) (Event β) (Output β))) : List β := tr.flatMap fun x => spawnedBy x.ev

/-- The blocks that have been started. -/
def started (tr : List (StepRec (FiberPool β) (Event β) (Output β))) : List β :=
  tr.flatMap fun x => x.out.flatMap startedBy

/-- The blocks that are being run, or suspended. -/
def running (p : FiberPool β) : List (ℕ × BusyFiber β) := p.busyFibers.filter fun f => !BusyFiber.isDead f.2

variable {p p' : FiberPool β} {count : ℕ} {out : List (Output β)} {e : Event β}
  {tr : List (StepRec (FiberPool β) (Event β) (Output β))}

@[simp] theorem spawned_append (x : StepRec (FiberPool β) (Event β) (Output β)) :
    spawned (tr ++ [x]) = spawned tr ++ spawnedBy x.ev := by
  unfold spawned
  rw [List.flatMap_append, List.flatMap_singleton]

@[simp] theorem started_append (x : StepRec (FiberPool β) (Event β) (Output β)) :
    started (tr ++ [x]) = started tr ++ x.out.flatMap startedBy := by
  unfold started
  rw [List.flatMap_append, List.flatMap_singleton]

/-! ## Every block is started once, or waits -/

/-- Each fiber is at one place. -/
structure Wf (count : ℕ) (p : FiberPool β) : Prop where
  total : p.fibers.length + p.busyFibers.length = count
  nodup : (p.fibers ++ p.busyFibers.map Prod.fst).Nodup
  made : ∀ f ∈ p.fibers ++ p.busyFibers.map Prod.fst, f < p.made

/-- A new fiber has a new number. -/
theorem Wf.addFiber (h : p.Wf count) : p.addFiber.Wf (count + 1) := by
  have hperm : (p.addFiber.fibers ++ p.addFiber.busyFibers.map Prod.fst).Perm
      (p.made :: (p.fibers ++ p.busyFibers.map Prod.fst)) := by
    show ((p.fibers ++ [p.made]) ++ p.busyFibers.map Prod.fst).Perm _
    rw [List.append_assoc]
    exact List.perm_middle
  have hnew : p.made ∉ p.fibers ++ p.busyFibers.map Prod.fst := fun hmem => Nat.lt_irrefl _ (h.made _ hmem)
  refine ⟨?_, hperm.nodup_iff.mpr (List.nodup_cons.mpr ⟨hnew, h.nodup⟩), fun f hf => ?_⟩
  · have htotal := h.total
    show (p.fibers ++ [p.made]).length + p.busyFibers.length = count + 1
    rw [List.length_append, List.length_singleton]
    omega
  · show f < p.made + 1
    rcases List.mem_cons.mp (hperm.mem_iff.mp hf) with rfl | hold
    · omega
    · have hlt := h.made f hold
      omega

/-- Adding fibers leaves the others. -/
theorem addFiber_iterate (n : ℕ) (p : FiberPool β) :
    (FiberPool.addFiber^[n] p).busyFibers = p.busyFibers ∧ (FiberPool.addFiber^[n] p).queue = p.queue ∧
      ∀ {count : ℕ}, p.Wf count → (FiberPool.addFiber^[n] p).Wf (count + n) := by
  induction n with
  | zero => exact ⟨rfl, rfl, fun h => h⟩
  | succ n ih =>
    rw [Function.iterate_succ_apply']
    exact ⟨ih.1, ih.2.1, fun h => (ih.2.2 h).addFiber⟩

theorem wf_new (count : ℕ) : (new count : FiberPool β).Wf count := by
  have hempty : Wf 0 ({ fibers := [], busyFibers := [], queue := [], made := 0 } : FiberPool β) :=
    ⟨rfl, List.nodup_nil, by simp⟩
  have hnew := (addFiber_iterate count _).2.2 hempty
  rw [Nat.zero_add] at hnew
  exact hnew

/-- Fewer busy fibers. -/
theorem Wf.filter (h : p.Wf count) (keep : ℕ × BusyFiber β → Bool) :
    Wf (p.fibers.length + (p.busyFibers.filter keep).length)
      { p with busyFibers := p.busyFibers.filter keep } := by
  have hsub : (p.fibers ++ (p.busyFibers.filter keep).map Prod.fst).Sublist
      (p.fibers ++ p.busyFibers.map Prod.fst) :=
    (List.Sublist.refl _).append (List.filter_sublist.map Prod.fst)
  exact ⟨rfl, h.nodup.sublist hsub, fun f hf => h.made f (hsub.subset hf)⟩

theorem length_filter_add (busy : List (ℕ × BusyFiber β)) (q : ℕ × BusyFiber β → Bool) :
    (busy.filter q).length + (busy.filter fun f => !q f).length = busy.length := by
  induction busy with
  | nil => rfl
  | cons f rest ih =>
    rw [List.filter_cons, List.filter_cons]
    cases q f with
    | true =>
      simp only [Bool.not_true, Bool.false_eq_true, if_true, if_false, List.length_cons]
      omega
    | false =>
      simp only [Bool.not_false, Bool.false_eq_true, if_true, if_false, List.length_cons]
      omega

/-- The dead fibers are replaced by as many new ones. -/
theorem Wf.resurrect (h : p.Wf count) : p.resurrect.Wf count ∧ p.resurrect.queue = p.queue ∧
    p.resurrect.busyFibers = p.running := by
  obtain ⟨hbusy, hqueue, hwf⟩ := addFiber_iterate (p.busyFibers.filter fun f => BusyFiber.isDead f.2).length
    { p with busyFibers := p.busyFibers.filter fun f => !BusyFiber.isDead f.2 }
  refine ⟨?_, hqueue, hbusy⟩
  have hafter := hwf (h.filter fun f => !BusyFiber.isDead f.2)
  have hparts := length_filter_add p.busyFibers fun f => BusyFiber.isDead f.2
  have htotal := h.total
  have hcount : p.fibers.length + (p.busyFibers.filter fun f => !BusyFiber.isDead f.2).length +
      (p.busyFibers.filter fun f => BusyFiber.isDead f.2).length = count := by
    omega
  rw [hcount] at hafter
  exact hafter

theorem map_fst_setBusy (busyFibers : List (ℕ × BusyFiber β)) (fiber : ℕ) (state : BusyFiber β) :
    (setBusy busyFibers fiber state).map Prod.fst = busyFibers.map Prod.fst := by
  unfold setBusy
  rw [List.map_map]
  apply List.map_congr_left
  intro f _
  show (if f.1 = fiber then (fiber, state) else f).1 = f.1
  split
  · rename_i hf
    exact hf.symm
  · rfl

theorem Wf.setBusy (h : p.Wf count) (fiber : ℕ) (state : BusyFiber β) (queue : List β) :
    Wf count { p with busyFibers := setBusy p.busyFibers fiber state, queue } := by
  refine ⟨?_, ?_, ?_⟩
  · show p.fibers.length + (FiberPool.setBusy p.busyFibers fiber state).length = count
    unfold FiberPool.setBusy
    rw [List.length_map]
    exact h.total
  · show (p.fibers ++ (FiberPool.setBusy p.busyFibers fiber state).map Prod.fst).Nodup
    rw [map_fst_setBusy]
    exact h.nodup
  · show ∀ f ∈ p.fibers ++ (FiberPool.setBusy p.busyFibers fiber state).map Prod.fst, f < p.made
    rw [map_fst_setBusy]
    exact h.made

/-- A fiber goes from the pool to the busy ones. -/
theorem Wf.take {fiber : ℕ} {fibers : List ℕ} (h : p.Wf count) (hfibers : p.fibers = fiber :: fibers) (block : β) :
    Wf count { p with fibers, busyFibers := p.busyFibers ++ [(fiber, .running block)] } := by
  have hperm : (fibers ++ (p.busyFibers ++ [(fiber, BusyFiber.running block)]).map Prod.fst).Perm
      (p.fibers ++ p.busyFibers.map Prod.fst) := by
    rw [hfibers, List.map_append, ← List.append_assoc]
    exact List.perm_append_singleton _ _
  have htotal := h.total
  rw [hfibers, List.length_cons] at htotal
  refine ⟨?_, hperm.nodup_iff.mpr h.nodup, fun f hf => h.made f (hperm.mem_iff.mp hf)⟩
  show fibers.length + (p.busyFibers ++ [(fiber, BusyFiber.running block)]).length = count
  rw [List.length_append, List.length_singleton]
  omega

/-- A busy fiber goes back to the pool. -/
theorem Wf.release {fiber : ℕ} {state : BusyFiber β} (h : p.Wf count) (hbusy : (fiber, state) ∈ p.busyFibers) :
    Wf count { p with
      fibers := fiber :: p.fibers
      busyFibers := p.busyFibers.filter fun f => f.1 ≠ fiber } := by
  have hperm : (fiber :: p.fibers ++ (p.busyFibers.filter fun f => decide (f.1 ≠ fiber)).map Prod.fst).Perm
      (p.fibers ++ p.busyFibers.map Prod.fst) := by
    have hkeys : (p.busyFibers.filter fun f => decide (f.1 ≠ fiber)).map Prod.fst =
        (p.busyFibers.map Prod.fst).erase fiber := by
      rw [(List.nodup_append.mp h.nodup).2.1.erase_eq_filter, List.filter_map]
      congr 1
      apply List.filter_congr
      intro f _
      show decide (f.1 ≠ fiber) = (f.1 != fiber)
      by_cases hf : f.1 = fiber
      · simp [hf]
      · simp [hf]
    rw [hkeys, List.cons_append]
    calc fiber :: (p.fibers ++ (p.busyFibers.map Prod.fst).erase fiber)
        |>.Perm (p.fibers ++ fiber :: (p.busyFibers.map Prod.fst).erase fiber) := List.perm_middle.symm
      _ |>.Perm (p.fibers ++ p.busyFibers.map Prod.fst) :=
        (List.perm_cons_erase (List.mem_map_of_mem (f := Prod.fst) hbusy)).symm.append_left _
  have hlength := hperm.length_eq
  have htotal := h.total
  refine ⟨?_, hperm.nodup_iff.mpr h.nodup, fun f hf => h.made f (hperm.mem_iff.mp hf)⟩
  show (fiber :: p.fibers).length + (p.busyFibers.filter fun f => decide (f.1 ≠ fiber)).length = count
  simp only [List.length_append, List.length_map] at hlength
  omega

/-- The paths of an event. -/
inductive Trans (p : FiberPool β) : Event β → List (Output β) → FiberPool β → Prop
  | taken {block : β} {fiber : ℕ} {fibers : List ℕ} : p.resurrect.fibers = fiber :: fibers →
      Trans p (.spawn block) [.started fiber block]
        { p.resurrect with fibers, busyFibers := p.resurrect.busyFibers ++ [(fiber, .running block)] }
  | queued {block : β} : p.resurrect.fibers = [] →
      Trans p (.spawn block) [.queued block] { p.resurrect with queue := p.resurrect.queue ++ [block] }
  | next {fiber : ℕ} {block next : β} {queue : List β} : (fiber, .running block) ∈ p.busyFibers →
      p.queue = next :: queue →
      Trans p (.returns fiber) [.ended fiber block, .started fiber next]
        { p with busyFibers := FiberPool.setBusy p.busyFibers fiber (.running next), queue }
  | freed {fiber : ℕ} {block : β} : (fiber, .running block) ∈ p.busyFibers → p.queue = [] →
      Trans p (.returns fiber) [.ended fiber block]
        { p with fibers := fiber :: p.fibers, busyFibers := p.busyFibers.filter fun f => f.1 ≠ fiber }
  | died {fiber : ℕ} {block : β} : (fiber, .running block) ∈ p.busyFibers →
      Trans p (.raises fiber) [.ended fiber block] { p with busyFibers := FiberPool.setBusy p.busyFibers fiber .dead }

theorem mem_of_lookup {busyFibers : List (ℕ × BusyFiber β)} {fiber : ℕ} {state : BusyFiber β}
    (h : busyFibers.lookup fiber = some state) : (fiber, state) ∈ busyFibers := by
  obtain ⟨front, rest, rfl, -⟩ := List.lookup_eq_some_iff.mp h
  exact List.mem_append_right _ List.mem_cons_self

theorem step_trans (h : p.step e = some (p', out)) : Trans p e out p' := by
  cases e with
  | spawn block =>
    have hstep : p.spawn block = (p', out) := Option.some.inj h
    unfold spawn at hstep
    dsimp only at hstep
    split at hstep
    · rename_i fiber fibers hfibers
      obtain ⟨rfl, rfl⟩ := Prod.mk.inj hstep
      exact .taken hfibers
    · rename_i hfibers
      obtain ⟨rfl, rfl⟩ := Prod.mk.inj hstep
      exact .queued hfibers
  | returns fiber =>
    unfold step at h
    dsimp only at h
    split at h
    · rename_i block hlookup
      have hmem := mem_of_lookup hlookup
      have hstep := Option.some.inj h
      unfold returns at hstep
      split at hstep
      · rename_i next queue hqueue
        obtain ⟨rfl, rfl⟩ := Prod.mk.inj hstep
        exact .next hmem hqueue
      · rename_i hqueue
        obtain ⟨rfl, rfl⟩ := Prod.mk.inj hstep
        exact .freed hmem hqueue
    · cases h
  | raises fiber =>
    unfold step at h
    dsimp only at h
    split at h
    · rename_i block hlookup
      obtain ⟨rfl, rfl⟩ := Prod.mk.inj (Option.some.inj h)
      exact .died (mem_of_lookup hlookup)
    · cases h

/-- **One event** keeps each fiber at one place. -/
theorem Wf.trans (h : p.Wf count) (ht : Trans p e out p') : p'.Wf count := by
  cases ht with
  | taken hfibers => exact h.resurrect.1.take hfibers _
  | queued _ =>
    have hwf := h.resurrect.1
    exact ⟨hwf.total, hwf.nodup, hwf.made⟩
  | next _ _ => exact h.setBusy _ _ _
  | freed hmem _ => exact h.release hmem
  | died _ => exact h.setBusy _ _ p.queue

theorem queue_resurrect (p : FiberPool β) : p.resurrect.queue = p.queue := (addFiber_iterate _ _).2.1

/-- What an event starts is what was spawned or waited. -/
theorem Trans.started (ht : Trans p e out p') :
    (out.flatMap startedBy ++ p'.queue).Perm (p.queue ++ spawnedBy e) := by
  cases ht with
  | @taken block _ _ _ =>
    show ([block] ++ p.resurrect.queue).Perm (p.queue ++ [block])
    rw [queue_resurrect]
    exact List.perm_append_comm
  | @queued block _ =>
    show ([] ++ (p.resurrect.queue ++ [block])).Perm (p.queue ++ [block])
    rw [queue_resurrect]
    exact .refl _
  | @next _ _ next queue _ hqueue =>
    show ([next] ++ queue).Perm (p.queue ++ [])
    rw [hqueue, List.append_nil]
    exact .refl _
  | freed _ _ =>
    show ([] ++ p.queue).Perm (p.queue ++ [])
    rw [List.append_nil]
    exact .refl _
  | died _ =>
    show ([] ++ p.queue).Perm (p.queue ++ [])
    rw [List.append_nil]
    exact .refl _

/-- **The blocks of a pool.** Each block that was given to `spawn` has been started once, or waits; no more blocks than
the pool has fibers are being run, each in a fiber of its own. -/
structure Serves (count : ℕ) (tr : List (StepRec (FiberPool β) (Event β) (Output β))) (p : FiberPool β) : Prop where
  served : (started tr ++ p.queue).Perm (spawned tr)
  bounded : p.running.length ≤ count
  apart : (p.running.map Prod.fst).Nodup

/-- Whatever returns, is suspended or raises. -/
theorem serves_blocks_of_run (h : Run step (new count) tr p) : Serves count tr p := by
  have hrun : p.Wf count ∧ (started tr ++ p.queue).Perm (spawned tr) := by
    refine Run.invariant (G := fun _ _ => True)
      (I := fun tr p => p.Wf count ∧ (started tr ++ p.queue).Perm (spawned tr)) ⟨wf_new count, ?_⟩ ?_ h fun _ _ => trivial
    · have hqueue : (new count : FiberPool β).queue = [] := (addFiber_iterate count _).2.1
      rw [hqueue]
      exact .refl _
    · rintro tr p e p' out ⟨hwf, hperm⟩ - hstep
      have ht := step_trans hstep
      refine ⟨hwf.trans ht, ?_⟩
      rw [started_append, spawned_append, List.append_assoc]
      calc started tr ++ (out.flatMap startedBy ++ p'.queue)
          |>.Perm (started tr ++ (p.queue ++ spawnedBy e)) := ht.started.append_left _
        _ |>.Perm (spawned tr ++ spawnedBy e) := by
          rw [← List.append_assoc]
          exact hperm.append_right _
  obtain ⟨hwf, hperm⟩ := hrun
  refine ⟨hperm, ?_, ?_⟩
  · have hle : p.running.length ≤ p.busyFibers.length := List.length_filter_le _ _
    have htotal := hwf.total
    omega
  · exact (List.nodup_append.mp hwf.nodup).2.1.sublist (List.filter_sublist.map Prod.fst)

/-! ## The order of the blocks -/

/-- **The order of the blocks.** They are started in the order of the calls, and a block waits only while all fibers
run others. -/
structure InOrder (count : ℕ) (tr : List (StepRec (FiberPool β) (Event β) (Output β))) (p : FiberPool β) : Prop where
  order : started tr ++ p.queue = spawned tr
  busy : p.queue ≠ [] → p.running.length = count

/-- No fiber is dead, and none waits beside a block. -/
structure Lively (p : FiberPool β) : Prop where
  alive : ∀ f ∈ p.busyFibers, BusyFiber.isDead f.2 = false
  working : p.queue ≠ [] → p.fibers = []

theorem Lively.resurrect (h : p.Lively) : p.resurrect = p := by
  have hnone : (p.busyFibers.filter fun f => BusyFiber.isDead f.2) = [] := by
    rw [List.filter_eq_nil_iff]
    exact fun f hf hdead => Bool.false_ne_true ((h.alive f hf).symm.trans hdead)
  have hall : (p.busyFibers.filter fun f => !BusyFiber.isDead f.2) = p.busyFibers := by
    rw [List.filter_eq_self]
    exact fun f hf => congrArg (!·) (h.alive f hf)
  unfold FiberPool.resurrect
  rw [hnone, hall]
  rfl

theorem alive_setBusy {busyFibers : List (ℕ × BusyFiber β)} {fiber : ℕ} {block : β}
    (h : ∀ f ∈ busyFibers, BusyFiber.isDead f.2 = false) :
    ∀ f ∈ setBusy busyFibers fiber (.running block), BusyFiber.isDead f.2 = false := by
  intro f hf
  obtain ⟨g, hg, rfl⟩ := List.mem_map.mp hf
  split
  · rfl
  · exact h g hg

/-- **One event** in which no block raises. -/
theorem Lively.trans (h : p.Lively) (ht : Trans p e out p') (hraises : ∀ fiber, e ≠ .raises fiber) :
    p'.Lively ∧ out.flatMap startedBy ++ p'.queue = p.queue ++ spawnedBy e := by
  cases ht with
  | @taken block fiber fibers hfibers =>
    rw [h.resurrect] at hfibers ⊢
    -- a free fiber: nothing waits
    have hqueue : p.queue = [] := by
      by_contra hwaits
      rw [h.working hwaits] at hfibers
      cases hfibers
    refine ⟨⟨?_, fun hne => absurd hqueue hne⟩, ?_⟩
    · intro f hf
      rcases List.mem_append.mp hf with hold | hnew
      · exact h.alive f hold
      · rw [List.mem_singleton.mp hnew]
        rfl
    · show [block] ++ p.queue = p.queue ++ [block]
      rw [hqueue]
      rfl
  | @queued block hfibers =>
    rw [h.resurrect] at hfibers ⊢
    exact ⟨⟨h.alive, fun _ => hfibers⟩, rfl⟩
  | @next fiber block next queue hmem hqueue =>
    have hfibers : p.fibers = [] := h.working (by rw [hqueue]; exact List.cons_ne_nil _ _)
    refine ⟨⟨alive_setBusy h.alive, fun _ => hfibers⟩, ?_⟩
    show [next] ++ queue = p.queue ++ []
    rw [hqueue, List.append_nil]
    rfl
  | @freed fiber block hmem hqueue =>
    refine ⟨⟨fun f hf => h.alive f (List.mem_filter.mp hf).1, fun hne => absurd hqueue hne⟩, ?_⟩
    exact (List.append_nil _).symm
  | died _ => exact absurd rfl (hraises _)

theorem inOrder_of_run (h : Run step (new count) tr p) (hraises : ∀ x ∈ tr, ∀ fiber, x.ev ≠ .raises fiber) :
    InOrder count tr p := by
  have hnew : (new count : FiberPool β).busyFibers = [] ∧ (new count : FiberPool β).queue = [] :=
    ⟨(addFiber_iterate count _).1, (addFiber_iterate count _).2.1⟩
  have hrun : (p.Wf count ∧ p.Lively) ∧ started tr ++ p.queue = spawned tr := by
    refine Run.invariant (G := fun _ e => ∀ fiber, e ≠ .raises fiber)
      (I := fun tr p => (p.Wf count ∧ p.Lively) ∧ started tr ++ p.queue = spawned tr) ?_ ?_ h hraises
    · refine ⟨⟨wf_new count, ?_, fun hne => absurd hnew.2 hne⟩, ?_⟩
      · rw [hnew.1]
        exact fun f hf => absurd hf List.not_mem_nil
      · rw [hnew.2]
        rfl
    · rintro tr p e p' out ⟨⟨hwf, hlively⟩, horder⟩ he hstep
      have ht := step_trans hstep
      obtain ⟨hlively', hstarted⟩ := hlively.trans ht he
      refine ⟨⟨hwf.trans ht, hlively'⟩, ?_⟩
      rw [started_append, spawned_append, List.append_assoc, hstarted, ← List.append_assoc, horder]
  obtain ⟨⟨hwf, hlively⟩, horder⟩ := hrun
  refine ⟨horder, fun hwaits => ?_⟩
  have hall : p.running = p.busyFibers := by
    unfold running
    rw [List.filter_eq_self]
    exact fun f hf => congrArg (!·) (hlively.alive f hf)
  have htotal := hwf.total
  rw [hlively.working hwaits, List.length_nil, Nat.zero_add] at htotal
  rw [hall, htotal]

/-! ## A small pool -/

/-- One fiber and two blocks, of which the first returns. -/
def sampleEvents : List (Event String) := [.spawn "naptr", .spawn "srv", .returns 0]

theorem sample_run : ∃ tr p, Run step (new 1) tr p ∧ tr.map StepRec.ev = sampleEvents ∧ started tr = ["naptr", "srv"] := by
  have hexec : (exec step (new 1) sampleEvents).isSome = true := by decide
  obtain ⟨⟨tr, p⟩, hp⟩ := Option.isSome_iff_exists.mp hexec
  have hfacts : (exec step (new 1) sampleEvents).map (fun r => (r.1.map StepRec.ev, started r.1)) =
      some (sampleEvents, ["naptr", "srv"]) := by
    decide
  rw [hp] at hfacts
  obtain ⟨hevents, hstarted⟩ := Prod.mk.inj (Option.some.inj hfacts)
  exact ⟨tr, p, run_of_exec hp, hevents, hstarted⟩

theorem serves_sample : ∃ tr p, tr.map StepRec.ev = sampleEvents ∧ Serves 1 tr p := by
  obtain ⟨tr, p, hrun, hevents, -⟩ := sample_run
  exact ⟨tr, p, hevents, serves_blocks_of_run hrun⟩

theorem inOrder_sample : ∃ tr p, tr.map StepRec.ev = sampleEvents ∧ InOrder 1 tr p := by
  obtain ⟨tr, p, hrun, hevents, -⟩ := sample_run
  refine ⟨tr, p, hevents, inOrder_of_run hrun fun x hx fiber heq => ?_⟩
  have hmem : x.ev ∈ sampleEvents := hevents ▸ List.mem_map_of_mem hx
  rw [heq] at hmem
  simp [sampleEvents] at hmem

end FiberPool

end OverSip
