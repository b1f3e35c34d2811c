import OverSip.Lib.History
import OverSip.Sip.ReceivedMessage

/-!
# Fibers of a receiver

`process_request` runs `on_request` in a fiber, and replies 500 to `@msg` when the callback raises
(`message_processor.rb`). `@msg` is an instance variable of the object that receives the messages, a
connection or a `WsSipApp`; each message that it parses is assigned to it, whether it is then processed or
not. A fiber can be suspended, and go on after any of them.

A `Receiver` is such an object up to the call of `on_request`; `Receiver.step` adds the fibers. The objects
that `@msg` gets are numbered, so that two messages with the same text are told apart.
-/

namespace OverSip

/-- One step of a receiver: what it assigns to `@msg`, and then whether it calls `on_request`. -/
structure Received where
  assigned : Option Parsed
  called : Bool
deriving DecidableEq, Repr

/-- An object that includes `MessageProcessor`. It calls `on_request` for a request only, the one in
`@msg`; `coherent` says what its state has to do with `@msg`. -/
structure Receiver where
  State : Type
  Event : Type
  start : State
  receive : State → Event → Option (State × Received)
  coherent : State → Parsed → Prop
  coherent_start : coherent start .nothing
  coherent_receive : ∀ {s e s' r x}, receive s e = some (s', r) → coherent s x →
    coherent s' (r.assigned.getD x)
  request_of_called : ∀ {s e s' r x}, receive s e = some (s', r) → coherent s x → r.called = true →
    ∃ m, r.assigned.getD x = .message m ∧ m.isRequest = true

/-- How a callback goes on, up to its next suspension. -/
inductive CallbackEnd
  | returns
  | suspends
  | raises
deriving DecidableEq, Repr

/-- A value of `@msg`. -/
structure MsgObject where
  number : ℕ
  parsed : Parsed
deriving DecidableEq, Repr

/-- The message is an ACK. -/
def Parsed.isAck : Parsed → Bool
  | .message m => m.isRequest && m.method == .ack
  | _ => false

/-- The message is a request that can be replied to. -/
def Parsed.isRepliable : Parsed → Bool
  | .message m => m.isRequest && m.method != .ack
  | _ => false

inductive FiberOut
  /-- `reply 500, "Internal Error"` on a request. -/
  | reply500 (number : ℕ)
  /-- An exception that leaves the fiber. -/
  | raise (e : RubyError)
deriving DecidableEq, Repr

/-- `@msg.reply 500`: an ACK refuses, and what is no request has no such method. -/
def MsgObject.replyInternalError (msg : MsgObject) : List FiberOut :=
  if msg.parsed.isRepliable then [.reply500 msg.number]
  else if msg.parsed.isAck then []
  else [.raise .noMethodError]

/-- The messages that get a 500. -/
def replied (o : List FiberOut) : List ℕ :=
  o.filterMap fun x =>
    match x with
    | .reply500 n => some n
    | .raise _ => none

/-- A receiver with its `@msg`, the messages it has parsed so far, and the requests of the fibers that are
suspended. -/
structure Fibers (R : Receiver) where
  state : R.State
  msg : MsgObject
  parsed : List Parsed
  suspended : List MsgObject

/-- What can happen: the receiver goes on, and if it calls `on_request` the callback does; or a suspended
callback goes on. -/
inductive FiberEvent (R : Receiver)
  | receive (e : R.Event) (callback : CallbackEnd)
  | resume (j : ℕ) (callback : CallbackEnd)

namespace Fibers

variable {R : Receiver}

/-- Nothing has been parsed. -/
def init (R : Receiver) : Fibers R :=
  { state := R.start, msg := ⟨0, .nothing⟩, parsed := [], suspended := [] }

/-- `@msg = @parser.parsed` -/
def assign (s : Fibers R) : Option Parsed → Fibers R
  | some x => { s with msg := ⟨s.parsed.length, x⟩, parsed := s.parsed ++ [x] }
  | none => s

/-- The block of the fiber: a callback that raises ends with `@msg.reply`. -/
def runCallback (s : Fibers R) (request : MsgObject) : CallbackEnd → Fibers R × List FiberOut
  | .returns => (s, [])
  | .suspends => ({ s with suspended := s.suspended ++ [request] }, [])
  | .raises => (s, s.msg.replyInternalError)

def step (s : Fibers R) : FiberEvent R → Option (Fibers R × List FiberOut)
  | .receive e callback =>
    match R.receive s.state e with
    | some (state, r) =>
      let s := { s with state }.assign r.assigned
      if r.called = true then some (s.runCallback s.msg callback) else some (s, [])
    | none => none
  | .resume j callback =>
    match s.suspended[j]? with
    | some request =>
      some ({ s with suspended := s.suspended.eraseIdx j }.runCallback request callback)
    | none => none

/-! ## Errors of callbacks -/

/-- The request whose callback raises in the step. -/
def raising (s : Fibers R) : FiberEvent R → Option MsgObject
  | .receive e .raises =>
    match R.receive s.state e with
    | some (state, r) =>
      if r.called = true then some ({ s with state }.assign r.assigned).msg else none
    | none => none
  | .resume j .raises => s.suspended[j]?
  | _ => none

/-- The 500 for a request whose callback raises. An ACK gets none. -/
def owed : Option MsgObject → List ℕ
  | some q => if q.parsed.isRepliable then [q.number] else []
  | none => []

/-- The step gives a 500 to the request whose callback raises, and to no other. -/
def ErrorIsolated (r : StepRec (Fibers R) (FiberEvent R) FiberOut) : Prop :=
  replied r.out = owed (raising r.pre r.ev)

/-- If a suspended callback raises, no message has been parsed since its request; or it is the one of an
ACK, and the last message parsed cannot be replied to. -/
def Undisturbed (r : StepRec (Fibers R) (FiberEvent R) FiberOut) : Prop :=
  ∀ j q, r.ev = .resume j .raises → r.pre.suspended[j]? = some q →
    r.pre.parsed.length = q.number + 1 ∨
      (q.parsed.isRepliable = false ∧
        ∀ x, r.pre.parsed.getLast? = some x → x.isRepliable = false)

/-- The numbers are the places in what was parsed, and `@msg` is the last. -/
structure Numbered (s : Fibers R) : Prop where
  coherent : R.coherent s.state s.msg.parsed
  last : (s.parsed = [] ∧ s.msg.parsed = .nothing) ∨
    (s.msg.number + 1 = s.parsed.length ∧ s.parsed.getLast? = some s.msg.parsed)
  suspended : ∀ q ∈ s.suspended, s.parsed[q.number]? = some q.parsed

theorem owed_of_repliable {q : MsgObject} (h : q.parsed.isRepliable = true) :
    owed (some q) = [q.number] := if_pos h

theorem owed_of_not_repliable {q : MsgObject} (h : q.parsed.isRepliable = false) :
    owed (some q) = [] := by
  unfold owed
  simp only [h, Bool.false_eq_true, if_false]

theorem replied_replyInternalError (msg : MsgObject) :
    replied msg.replyInternalError = owed (some msg) := by
  unfold MsgObject.replyInternalError
  by_cases hreply : msg.parsed.isRepliable = true
  · rw [if_pos hreply, owed_of_repliable hreply]
    rfl
  · rw [if_neg hreply, owed_of_not_repliable (Bool.eq_false_iff.mpr hreply)]
    by_cases hack : msg.parsed.isAck = true
    · rw [if_pos hack]
      rfl
    · rw [if_neg hack]
      rfl

/-- Two requests are owed the same when they are the same, or are owed nothing. -/
theorem owed_eq_iff (p q : MsgObject) :
    owed (some p) = owed (some q) ↔
      (p.number = q.number ∧ p.parsed.isRepliable = q.parsed.isRepliable) ∨
        (p.parsed.isRepliable = false ∧ q.parsed.isRepliable = false) := by
  cases hp : p.parsed.isRepliable <;> cases hq : q.parsed.isRepliable <;>
    simp [owed, hp, hq]

@[simp] theorem assign_state (s : Fibers R) (x : Option Parsed) : (s.assign x).state = s.state := by
  cases x <;> rfl

@[simp] theorem assign_suspended (s : Fibers R) (x : Option Parsed) :
    (s.assign x).suspended = s.suspended := by
  cases x <;> rfl

@[simp] theorem assign_msg_parsed (s : Fibers R) (x : Option Parsed) :
    (s.assign x).msg.parsed = x.getD s.msg.parsed := by
  cases x <;> rfl

/-! ## One step -/

/-- The place of `@msg`, once it is a message. -/
theorem Numbered.msg_place {s : Fibers R} (h : Numbered s) {m : SipMessage}
    (hm : s.msg.parsed = .message m) : s.parsed[s.msg.number]? = some s.msg.parsed := by
  rcases h.last with ⟨_, hnothing⟩ | ⟨hnumber, hlast⟩
  · rw [hm] at hnothing
    cases hnothing
  · rw [List.getLast?_eq_getElem?] at hlast
    rw [← hlast]
    congr 1
    omega

/-- What the receiver assigns keeps the numbers. -/
theorem Numbered.receive {s : Fibers R} (h : Numbered s) {e : R.Event} {state : R.State}
    {r : Received} (hr : R.receive s.state e = some (state, r)) :
    Numbered ({ s with state }.assign r.assigned) := by
  have hcoherent := R.coherent_receive hr h.coherent
  refine ⟨by simpa using hcoherent, ?_, ?_⟩
  · cases r.assigned with
    | none => exact h.last
    | some x => exact .inr ⟨by simp [assign], List.getLast?_concat⟩
  · intro q hq
    rw [assign_suspended] at hq
    have hplace := h.suspended q hq
    have hlt := (List.getElem?_eq_some_iff.mp hplace).1
    cases r.assigned with
    | none => exact hplace
    | some x => exact (List.getElem?_append_left hlt).trans hplace

theorem Numbered.runCallback {s : Fibers R} (h : Numbered s) {request : MsgObject}
    (hrequest : s.parsed[request.number]? = some request.parsed) (callback : CallbackEnd) :
    Numbered (s.runCallback request callback).1 := by
  cases callback with
  | returns => exact h
  | raises => exact h
  | suspends =>
    refine ⟨h.coherent, h.last, ?_⟩
    intro q hq
    rcases List.mem_append.mp hq with hq | hq
    · exact h.suspended q hq
    · rw [List.mem_singleton.mp hq]
      exact hrequest

theorem Numbered.eraseIdx {s : Fibers R} (h : Numbered s) (j : ℕ) :
    Numbered { s with suspended := s.suspended.eraseIdx j } :=
  ⟨h.coherent, h.last, fun q hq => h.suspended q (List.mem_of_mem_eraseIdx hq)⟩

theorem Numbered.step {s s' : Fibers R} {e : FiberEvent R} {o : List FiberOut} (h : Numbered s)
    (hs : s.step e = some (s', o)) : Numbered s' := by
  cases e with
  | receive e callback =>
    simp only [Fibers.step] at hs
    split at hs
    · rename_i state r hr
      have hnext := h.receive hr
      split at hs
      · rename_i hcalled
        obtain ⟨m, hm, _⟩ := R.request_of_called hr h.coherent hcalled
        have hplace := hnext.msg_place (m := m) (by simpa using hm)
        have hcallback := hnext.runCallback hplace callback
        rwa [Option.some.inj hs] at hcallback
      · obtain ⟨rfl, _⟩ := Prod.mk.inj (Option.some.inj hs)
        exact hnext
    · cases hs
  | resume j callback =>
    simp only [Fibers.step] at hs
    split at hs
    · rename_i request hj
      have hplace := h.suspended request (List.mem_of_getElem? hj)
      have hcallback := (h.eraseIdx j).runCallback hplace callback
      rwa [Option.some.inj hs] at hcallback
    · cases hs

theorem numbered_init (R : Receiver) : Numbered (init R) :=
  ⟨R.coherent_start, .inl ⟨rfl, rfl⟩, fun _ hq => nomatch hq⟩

/-- The 500 of a suspended callback that raises is right when `@msg` is its request still, or when
neither can be replied to. -/
theorem replied_eq_owed_iff {s : Fibers R} (h : Numbered s) {q : MsgObject} (hq : q ∈ s.suspended) :
    replied s.msg.replyInternalError = owed (some q) ↔
      s.parsed.length = q.number + 1 ∨
        (q.parsed.isRepliable = false ∧
          ∀ x, s.parsed.getLast? = some x → x.isRepliable = false) := by
  have hplace := h.suspended q hq
  have hlt := (List.getElem?_eq_some_iff.mp hplace).1
  obtain ⟨hnumber, hlast⟩ : s.msg.number + 1 = s.parsed.length ∧
      s.parsed.getLast? = some s.msg.parsed := by
    rcases h.last with ⟨hnil, _⟩ | hlast
    · rw [hnil] at hlt
      exact absurd hlt (Nat.not_lt_zero _)
    · exact hlast
  rw [replied_replyInternalError, owed_eq_iff]
  constructor
  · rintro (⟨hsame, _⟩ | ⟨hmsg, hrequest⟩)
    · left
      omega
    · right
      refine ⟨hrequest, ?_⟩
      intro x hx
      rw [hlast] at hx
      exact Option.some.inj hx ▸ hmsg
  · rintro (hlength | ⟨hrequest, hall⟩)
    · left
      have hsame : s.msg.number = q.number := by omega
      rw [List.getLast?_eq_getElem?, hlength, Nat.add_sub_cancel, hplace] at hlast
      exact ⟨hsame, by rw [Option.some.inj hlast]⟩
    · exact .inr ⟨hall _ hlast, hrequest⟩

/-- **A step** isolates the error of a callback exactly when the callback was not disturbed. -/
theorem step_errorIsolated_iff {s s' : Fibers R} {e : FiberEvent R} {o : List FiberOut} (h : Numbered s)
    (hs : s.step e = some (s', o)) :
    ErrorIsolated ⟨s, e, o, s'⟩ ↔ Undisturbed ⟨s, e, o, s'⟩ := by
  cases e with
  | receive e callback =>
    have hundisturbed : Undisturbed ⟨s, .receive e callback, o, s'⟩ := by
      intro j q heq
      cases heq
    refine iff_of_true ?_ hundisturbed
    simp only [Fibers.step] at hs
    split at hs
    · rename_i state r hr
      split at hs
      · rename_i hcalled
        obtain ⟨_, rfl⟩ := Prod.mk.inj (Option.some.inj hs)
        cases callback with
        | returns => rfl
        | suspends => rfl
        | raises =>
          simp only [ErrorIsolated, raising, hr, hcalled, if_true]
          exact replied_replyInternalError _
      · rename_i hcalled
        obtain ⟨_, rfl⟩ := Prod.mk.inj (Option.some.inj hs)
        cases callback with
        | returns => rfl
        | suspends => rfl
        | raises =>
          simp only [ErrorIsolated, raising, hr, hcalled]
          rfl
    · cases hs
  | resume j callback =>
    simp only [Fibers.step] at hs
    split at hs
    · rename_i request hj
      obtain ⟨_, rfl⟩ := Prod.mk.inj (Option.some.inj hs)
      cases callback with
      | returns => exact iff_of_true rfl fun _ _ heq _ => nomatch heq
      | suspends => exact iff_of_true rfl fun _ _ heq _ => nomatch heq
      | raises =>
        have hmem := List.mem_of_getElem? hj
        rw [ErrorIsolated, raising, hj]
        refine (replied_eq_owed_iff h hmem).trans ⟨?_, ?_⟩
        · intro hdone j' q heq hj'
          cases heq
          rw [hj] at hj'
          exact Option.some.inj hj' ▸ hdone
        · intro hundisturbed
          exact hundisturbed j request rfl hj
    · cases hs

/-! ## Runs -/

/-- **Errors are isolated in a run** exactly when no callback that raises was disturbed. -/
theorem run_errorIsolated_iff {tr : List (StepRec (Fibers R) (FiberEvent R) FiberOut)} {s : Fibers R}
    (hrun : Run step (init R) tr s) :
    (∀ r ∈ tr, ErrorIsolated r) ↔ ∀ r ∈ tr, Undisturbed r := by
  have heach : ∀ r ∈ tr, ErrorIsolated r ↔ Undisturbed r := by
    intro r hr
    obtain ⟨tr₁, tr₂, rfl⟩ := List.append_of_mem hr
    obtain ⟨hpre, hs, _⟩ := Run.of_middle hrun
    have hnumbered := Run.stateInvariant (I := Numbered) (numbered_init R)
      (fun s e s' o h hs => h.step hs) hpre
    exact step_errorIsolated_iff hnumbered hs
  exact forall₂_congr heach

end Fibers

end OverSip
