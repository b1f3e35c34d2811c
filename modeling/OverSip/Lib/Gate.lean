import OverSip.Lib.History

/-!
# Gates

A gate stands between what arrives and the machine that processes it. While it waits it holds what
arrives. When it opens, the machine is fed what was held, and from then on what arrives. Once it is shut,
nothing reaches the machine any more.

`Fed.run` says this as a function, and `behaves_run` in three laws. A machine with a gate of its own is
compared with it step by step (`seen_of_run`).
-/

namespace OverSip

/-- A machine that is fed: it takes a chunk, with what the environment decides meanwhile; something else
happens to it; something outside changes, of which nothing is seen. -/
structure Fed (σ β κ ε τ ω : Type) where
  feed : κ → σ → List β → σ × List ω
  act : ε → σ → σ × List ω
  change : τ → σ → σ

/-- What happens at a gate. -/
inductive GateEvent (β κ ε τ : Type)
  | chunk (k : κ) (data : List β)
  | opens (k : κ)
  | shuts
  | act (e : ε)
  | change (t : τ)

inductive GateState (σ β : Type)
  | waiting (held : List β) (s : σ)
  | opened (s : σ)
  | shut

/-- The chunks of some events, one after the other. -/
def GateEvent.arrived {β κ ε τ : Type} (es : List (GateEvent β κ ε τ)) : List β :=
  es.flatMap fun e =>
    match e with
    | .chunk _ data => data
    | _ => []

def GateEvent.isOpens {β κ ε τ : Type} : GateEvent β κ ε τ → Bool
  | .opens _ => true
  | _ => false

def GateEvent.isShuts {β κ ε τ : Type} : GateEvent β κ ε τ → Bool
  | .shuts => true
  | _ => false

namespace Fed

variable {σ β κ ε τ ω : Type} (m : Fed σ β κ ε τ ω)

/-- The machine without a gate. -/
def plainStep (s : σ) : GateEvent β κ ε τ → σ × List ω
  | .chunk k data => m.feed k s data
  | .act e => m.act e s
  | .change t => (m.change t s, [])
  | .opens _ => (s, [])
  | .shuts => (s, [])

def plain : σ → List (GateEvent β κ ε τ) → σ × List ω
  | s, [] => (s, [])
  | s, e :: es =>
    let p := m.plainStep s e
    let q := plain p.1 es
    (q.1, p.2 ++ q.2)

/-- What changes while the gate waits. -/
def changed (s : σ) (es : List (GateEvent β κ ε τ)) : σ :=
  es.foldl (fun s e =>
    match e with
    | .change t => m.change t s
    | _ => s) s

/-- The machine behind a gate. -/
def step : GateState σ β → GateEvent β κ ε τ → GateState σ β × List ω
  | .waiting held s, .chunk _ data => (.waiting (held ++ data) s, [])
  | .waiting held s, .opens k => let p := m.feed k s held; (.opened p.1, p.2)
  | .waiting _ _, .shuts => (.shut, [])
  | .waiting held s, .act _ => (.waiting held s, [])
  | .waiting held s, .change t => (.waiting held (m.change t s), [])
  | .opened s, e => let p := m.plainStep s e; (.opened p.1, p.2)
  | .shut, _ => (.shut, [])

def run : GateState σ β → List (GateEvent β κ ε τ) → GateState σ β × List ω
  | g, [] => (g, [])
  | g, e :: es =>
    let p := m.step g e
    let q := run p.1 es
    (q.1, p.2 ++ q.2)

@[simp] theorem run_nil (g : GateState σ β) : m.run g [] = (g, []) := rfl

@[simp] theorem run_singleton (g : GateState σ β) (e : GateEvent β κ ε τ) :
    m.run g [e] = m.step g e := by
  simp [run]

theorem run_append (g : GateState σ β) (es es' : List (GateEvent β κ ε τ)) :
    m.run g (es ++ es') =
      ((m.run (m.run g es).1 es').1, (m.run g es).2 ++ (m.run (m.run g es).1 es').2) := by
  induction es generalizing g with
  | nil => rfl
  | cons e es ih =>
    simp only [List.cons_append, run, ih, List.append_assoc]

/-! ## The laws of a gate -/

theorem run_shut (es : List (GateEvent β κ ε τ)) : m.run .shut es = (.shut, []) := by
  induction es with
  | nil => rfl
  | cons e es ih =>
    have hstep : m.step .shut e = (.shut, []) := rfl
    rw [run, hstep]
    simp only [ih, List.append_nil]

/-- What comes when nothing more happens, or when the gate is shut. -/
theorem run_append_of_quiet {g : GateState σ β} {es es' : List (GateEvent β κ ε τ)}
    (h : es' = [] ∨ (m.run g es).1 = .shut) : m.run g (es ++ es') = m.run g es := by
  rw [run_append]
  rcases h with rfl | hshut
  · simp
  · rw [hshut, run_shut, List.append_nil, ← hshut]

theorem run_opened (s : σ) (es : List (GateEvent β κ ε τ)) :
    m.run (.opened s) es = (.opened (m.plain s es).1, (m.plain s es).2) := by
  induction es generalizing s with
  | nil => rfl
  | cons e es ih =>
    have hstep : m.step (.opened s) e = (.opened (m.plainStep s e).1, (m.plainStep s e).2) := rfl
    rw [run, hstep]
    simp only [ih, plain]

/-- A gate that neither opens nor shuts holds what arrives. -/
theorem run_waiting (held : List β) (s : σ) {es : List (GateEvent β κ ε τ)}
    (hopens : ∀ e ∈ es, e.isOpens = false) (hshuts : ∀ e ∈ es, e.isShuts = false) :
    m.run (.waiting held s) es =
      (.waiting (held ++ GateEvent.arrived es) (m.changed s es), []) := by
  induction es generalizing held s with
  | nil => simp [run, GateEvent.arrived, changed]
  | cons e es ih =>
    have hopens' := fun e' he' => hopens e' (List.mem_cons_of_mem e he')
    have hshuts' := fun e' he' => hshuts e' (List.mem_cons_of_mem e he')
    rw [run]
    cases e with
    | chunk k data => simp [step, ih _ _ hopens' hshuts', GateEvent.arrived, changed]
    | opens k => exact absurd (hopens _ List.mem_cons_self) (by simp [GateEvent.isOpens])
    | shuts => exact absurd (hshuts _ List.mem_cons_self) (by simp [GateEvent.isShuts])
    | act e => simp [step, ih _ _ hopens' hshuts', GateEvent.arrived, changed]
    | change t => simp [step, ih _ _ hopens' hshuts', GateEvent.arrived, changed]

/-- A gate that does not open lets nothing through. -/
theorem run_held (held : List β) (s : σ) {es : List (GateEvent β κ ε τ)}
    (hopens : ∀ e ∈ es, e.isOpens = false) :
    (m.run (.waiting held s) es).2 = [] ∧ ∀ s', (m.run (.waiting held s) es).1 ≠ .opened s' := by
  induction es generalizing held s with
  | nil => exact ⟨rfl, fun s' h => nomatch h⟩
  | cons e es ih =>
    have hopens' := fun e' he' => hopens e' (List.mem_cons_of_mem e he')
    rw [run]
    cases e with
    | chunk k data => exact ih _ _ hopens'
    | opens k => exact absurd (hopens _ List.mem_cons_self) (by simp [GateEvent.isOpens])
    | shuts => simp [step, run_shut]
    | act e => exact ih _ _ hopens'
    | change t => exact ih _ _ hopens'

/-- What is seen of a machine whose bytes come through a gate. -/
structure Behaves (s : σ) (es : List (GateEvent β κ ε τ)) (seen : List ω) : Prop where
  /-- Nothing, as long as the gate has not opened. -/
  held : (∀ e ∈ es, e.isOpens = false) → seen = []
  /-- Nothing at all, if it is shut before it opens. -/
  shut : ∀ es₁ es₂, es = es₁ ++ .shuts :: es₂ → (∀ e ∈ es₁, e.isOpens = false) → seen = []
  /-- What the machine does with the bytes that have arrived by then, as one chunk, and with what comes
  later. -/
  opened : ∀ es₁ k es₂, es = es₁ ++ .opens k :: es₂ → (∀ e ∈ es₁, e.isOpens = false) →
    (∀ e ∈ es₁, e.isShuts = false) →
      seen = (m.plain (m.changed s es₁) (.chunk k (GateEvent.arrived es₁) :: es₂)).2

/-- **The laws of a gate.** -/
theorem behaves_run (s : σ) (es : List (GateEvent β κ ε τ)) :
    m.Behaves s es (m.run (.waiting [] s) es).2 := by
  constructor
  · exact fun hopens => (m.run_held [] s hopens).1
  · rintro es₁ es₂ rfl hopens
    obtain ⟨hnone, hnot⟩ := m.run_held [] s hopens
    rw [run_append, hnone]
    -- the gate is shut by the event, if not before
    have hshut : (m.run (m.run (.waiting [] s) es₁).1 (.shuts :: es₂)).2 = [] := by
      rw [run]
      cases hg : (m.run (.waiting [] s) es₁).1 with
      | waiting held s' => simp [step, run_shut]
      | shut => simp [step, run_shut]
      | opened s' => exact absurd hg (hnot s')
    rw [hshut]
    rfl
  · rintro es₁ k es₂ rfl hopens hshuts
    rw [run_append, m.run_waiting [] s hopens hshuts, run]
    simp only [List.nil_append, step, run_opened, plain, plainStep]

/-! ## Machines with a gate of their own -/

/-- If each step of a machine does to a related gate what the events of the step do, then so does a run,
and what is seen of the one is seen of the other. -/
theorem seen_of_run {σ' ε' ω' : Type} {step : σ' → ε' → Option (σ' × List ω')} {s₀ s : σ'}
    {tr : List (StepRec σ' ε' ω')} {R : σ' → GateState σ β → Prop} {g₀ : GateState σ β}
    (events : StepRec σ' ε' ω' → List (GateEvent β κ ε τ)) (seen : ω' → List ω)
    (hstep : ∀ s e s' o g, R s g → step s e = some (s', o) →
      R s' (m.run g (events ⟨s, e, o, s'⟩)).1 ∧
        o.flatMap seen = (m.run g (events ⟨s, e, o, s'⟩)).2)
    (h₀ : R s₀ g₀) (hrun : Run step s₀ tr s) :
    R s (m.run g₀ (tr.flatMap events)).1 ∧
      (outputs tr).flatMap seen = (m.run g₀ (tr.flatMap events)).2 := by
  induction hrun with
  | nil => exact ⟨h₀, rfl⟩
  | @snoc tr s s' e o _ hs ih =>
    obtain ⟨hr, hseen⟩ := ih
    obtain ⟨hr', hseen'⟩ := hstep s e s' o _ hr hs
    rw [List.flatMap_append, List.flatMap_singleton, run_append, outputs_snoc, List.flatMap_append,
      hseen, hseen']
    exact ⟨hr', rfl⟩

end Fed

end OverSip
