import OverSip.Lib.Gate
import OverSip.Sip.RequestFibers

/-!
# TLS connections and `on_client_tls_handshake`

`ssl_handshake_completed` is the same method in `TlsServer` (`tls_server.rb`) and in `WssServer`
(`wss_server.rb`), with the callback `on_client_tls_handshake` set. The callback runs in a fiber when the TLS
handshake is completed; until it returns, what arrives is stored in the buffer.

What the method uses of the superclass is a `ListenerClass`. `close` and `close_connection` both set
`@local_closed` (`ruby_ext/eventmachine.rb`), and `error?` is true once the connection has been unbound.
EventMachine delivers nothing before the handshake is completed and nothing after `unbind`.

`behaves` says that the callback is a gate (`OverSip.Lib.Gate`) before the connection of the superclass.
-/

namespace OverSip

/-- What a callback does up to its next suspension: how it closes its connection, and how it goes on. -/
structure GateCallback (γ : Type) where
  closes : List γ
  ends : CallbackEnd
deriving DecidableEq, Repr

/-- A callback closes its connection in some ways, one after the other. -/
def closeAll {σ γ ω : Type} (close : γ → σ → σ × List ω) : σ → List γ → σ × List ω
  | s, [] => (s, [])
  | s, g :: gs =>
    let p := close g s
    let q := closeAll close p.1 gs
    (q.1, p.2 ++ q.2)

@[simp] theorem closeAll_nil {σ γ ω : Type} (close : γ → σ → σ × List ω) (s : σ) :
    closeAll close s [] = (s, []) := rfl

/-- A property that closing keeps is kept by a callback. -/
theorem closeAll_of_close {σ γ ω : Type} {close : γ → σ → σ × List ω} {P : σ → Prop}
    (hP : ∀ s g, P s → P (close g s).1) {s : σ} (hs : P s) (gs : List γ) :
    P (closeAll close s gs).1 := by
  induction gs generalizing s with
  | nil => exact hs
  | cons g gs ih => exact ih (hP s g hs)

/-- What can happen to a connection. `k` is what the environment decides while data is processed. -/
inductive ConnEvent (κ ε γ τ : Type)
  | chunk (k : κ) (data : Bytes)
  /-- A suspended fiber of the connection goes on. -/
  | goOn (e : ε)
  /-- The program closes the connection. -/
  | close (g : γ)
  | unbind
  | elsewhere (t : τ)

/-- A class of connections that a server accepts. -/
structure ListenerClass (σ κ ε γ τ ω : Type) where
  /-- `@state = :waiting_for_on_client_tls_handshake` -/
  wait : σ → σ
  /-- `@state = :init` -/
  restart : σ → σ
  /-- `process_received_data` -/
  processReceivedData : κ → σ → σ × List ω
  /-- `receive_data` -/
  receiveData : κ → σ → Bytes → σ × List ω
  /-- A Ruby exception leaves the method. -/
  isRaise : ω → Bool
  goOn : ε → σ → σ × List ω
  close : γ → σ → σ × List ω
  /-- `close_connection` -/
  closeConnection : γ
  unbind : σ → σ
  /-- `@local_closed` -/
  localClosed : σ → Bool
  /-- `error?` -/
  unbound : σ → Bool
  elsewhere : τ → σ → σ

/-- What else happens to a connection than that data arrives. -/
inductive ConnAct (ε γ : Type)
  | goOn (e : ε)
  | close (g : γ)
  | unbind

namespace ListenerClass

variable {σ κ ε γ τ ω : Type} (cls : ListenerClass σ κ ε γ τ ω)

/-- `@local_closed or error?` -/
def closed (s : σ) : Bool := cls.localClosed s || cls.unbound s

/-- A connection without TLS. -/
def step (s : σ) : ConnEvent κ ε γ τ → Option (σ × List ω)
  | .chunk k data => if cls.unbound s then none else some (cls.receiveData k s data)
  | .goOn e => some (cls.goOn e s)
  | .close g => some (cls.close g s)
  | .unbind => if cls.unbound s then none else some (cls.unbind s, [])
  | .elsewhere t => some (cls.elsewhere t s, [])

/-- The connection as a machine that is fed. What is put out when it is closed is not seen. -/
def fed : Fed σ UInt8 κ (ConnAct ε γ) τ ω where
  feed := cls.receiveData
  act := fun a s =>
    match a with
    | .goOn e => cls.goOn e s
    | .close g => ((cls.close g s).1, [])
    | .unbind => (cls.unbind s, [])
  change := cls.elsewhere

end ListenerClass

/-- A connection with TLS. -/
structure TlsHandshake (σ : Type) where
  conn : σ
  /-- `@connected` -/
  connected : Bool
  /-- The fiber of the callback is suspended. -/
  suspended : Bool

inductive TlsHandshakeOut (ω : Type)
  /-- What the processing of data puts out. -/
  | processing (o : ω)
  /-- What closing the connection puts out. -/
  | closing (o : ω)
  /-- `close_connection` after an error in the fiber. -/
  | closeConnection

def TlsHandshakeOut.isRescue {ω : Type} : TlsHandshakeOut ω → Bool
  | .closeConnection => true
  | _ => false

inductive TlsHandshakeEvent (κ ε γ τ : Type)
  | sslHandshakeCompleted (callback : GateCallback γ) (k : κ)
  /-- The suspended callback goes on. -/
  | resume (callback : GateCallback γ) (k : κ)
  | conn (e : ConnEvent κ ε γ τ)

namespace TlsHandshake

variable {σ κ ε γ τ ω : Type} (cls : ListenerClass σ κ ε γ τ ω)

/-- An accepted connection. -/
def new (s : σ) : TlsHandshake σ := { conn := s, connected := false, suspended := false }

variable (s : TlsHandshake σ)

/-- The rescue of the fiber. -/
def rescue : TlsHandshake σ × List (TlsHandshakeOut ω) :=
  ({ s with conn := (cls.close cls.closeConnection s.conn).1 }, [.closeConnection])

/-- The rest of the fiber, from where the callback goes on. -/
def runCallback (callback : GateCallback γ) (k : κ) : TlsHandshake σ × List (TlsHandshakeOut ω) :=
  let p := closeAll cls.close s.conn callback.closes
  let s := { s with conn := p.1 }
  match callback.ends with
  | .suspends => ({ s with suspended := true }, p.2.map .closing)
  | .raises => let q := s.rescue cls; (q.1, p.2.map .closing ++ q.2)
  | .returns =>
    if cls.closed s.conn then (s, p.2.map .closing)
    else
      let r := cls.processReceivedData k (cls.restart s.conn)
      let s := { s with conn := r.1 }
      let o := p.2.map .closing ++ r.2.map .processing
      if r.2.any cls.isRaise then let q := s.rescue cls; (q.1, o ++ q.2) else (s, o)

def step (s : TlsHandshake σ) : TlsHandshakeEvent κ ε γ τ → Option (TlsHandshake σ × List (TlsHandshakeOut ω))
  | .sslHandshakeCompleted callback k =>
    if s.connected || cls.unbound s.conn then none
    else
      some ({ s with conn := cls.wait s.conn, connected := true }.runCallback cls callback k)
  | .resume callback k =>
    if s.suspended then some ({ s with suspended := false }.runCallback cls callback k) else none
  | .conn (.chunk k data) =>
    if s.connected && !cls.unbound s.conn then
      let r := cls.receiveData k s.conn data
      some ({ s with conn := r.1 }, r.2.map .processing)
    else none
  | .conn (.goOn e) => let r := cls.goOn e s.conn; some ({ s with conn := r.1 }, r.2.map .processing)
  | .conn (.close g) => let r := cls.close g s.conn; some ({ s with conn := r.1 }, r.2.map .closing)
  | .conn .unbind =>
    if cls.unbound s.conn then none else some ({ s with conn := cls.unbind s.conn }, [])
  | .conn (.elsewhere t) => some ({ s with conn := cls.elsewhere t s.conn }, [])

end TlsHandshake

/-! ## The gate -/

/-- What a callback does to its gate: a connection that is closed meanwhile shuts it, and so does an error;
if it returns, the gate opens. -/
def GateCallback.gateEvents {β κ ε τ γ : Type} (callback : GateCallback γ) (k : κ) :
    List (GateEvent β κ ε τ) :=
  (if callback.closes = [] then [] else [.shuts]) ++
    match callback.ends with
    | .returns => [.opens k]
    | .suspends => []
    | .raises => [.shuts]

/-- A callback that closes its connection shuts the gate. -/
theorem GateCallback.run_of_closes {σ β κ ε τ ω γ : Type} {callback : GateCallback γ}
    (h : callback.closes ≠ []) (m : Fed σ β κ ε τ ω) (held : List β) (s : σ) (k : κ)
    (es : List (GateEvent β κ ε τ)) :
    m.run (.waiting held s) (callback.gateEvents k ++ es) = (.shut, []) := by
  unfold gateEvents
  rw [if_neg h, List.append_assoc, m.run_append, m.run_singleton]
  exact m.run_shut _

/-- What happens at a gate when something happens to the connection behind it. -/
def ConnEvent.gateEvents {κ ε γ τ : Type} : ConnEvent κ ε γ τ →
    List (GateEvent UInt8 κ (ConnAct ε γ) τ)
  | .chunk k data => [.chunk k data]
  | .goOn e => [.act (.goOn e)]
  | .close g => [.shuts, .act (.close g)]
  | .unbind => [.shuts, .act .unbind]
  | .elsewhere t => [.change t]

/-- A class whose connections hold what arrives while they wait. A fresh connection is in `:init`; a
deaf one does not process what it receives; an idle one has no suspended fiber. -/
structure Holding {σ κ ε γ τ ω : Type} (cls : ListenerClass σ κ ε γ τ ω) where
  /-- `@buffer << data` -/
  push : σ → Bytes → σ
  Fresh : σ → Prop
  Deaf : σ → Prop
  Idle : σ → Prop
  push_nil : ∀ s, push s [] = s
  push_push : ∀ s d e, push (push s d) e = push s (d ++ e)
  closed_wait : ∀ s, cls.closed (cls.wait s) = cls.closed s
  closed_restart : ∀ s, cls.closed (cls.restart s) = cls.closed s
  closed_push : ∀ s d, cls.closed (push s d) = cls.closed s
  closed_close : ∀ s g, cls.closed (cls.close g s).1 = true
  closed_unbind : ∀ s, cls.closed (cls.unbind s) = true
  closed_elsewhere : ∀ s t, cls.closed (cls.elsewhere t s) = cls.closed s
  receive_wait : ∀ s k held d,
    cls.receiveData k (push (cls.wait s) held) d = (push (push (cls.wait s) held) d, [])
  process_restart : ∀ s k held, Fresh s →
    cls.processReceivedData k (cls.restart (push (cls.wait s) held)) = cls.receiveData k s held
  elsewhere_wait : ∀ s t held,
    cls.elsewhere t (push (cls.wait s) held) = push (cls.wait (cls.elsewhere t s)) held
  fresh_elsewhere : ∀ s t, Fresh s → Fresh (cls.elsewhere t s)
  receive_deaf : ∀ s k d, Deaf s → ∃ d', cls.receiveData k s d = (push s d', [])
  deaf_wait : ∀ s, Deaf (cls.wait s)
  deaf_push : ∀ s d, Deaf s → Deaf (push s d)
  deaf_close : ∀ s g, Deaf s → Deaf (cls.close g s).1
  deaf_unbind : ∀ s, Deaf s → Deaf (cls.unbind s)
  deaf_elsewhere : ∀ s t, Deaf s → Deaf (cls.elsewhere t s)
  goOn_idle : ∀ s e, Idle s → cls.goOn e s = (s, [])
  idle_fresh : ∀ s, Fresh s → Idle s
  idle_wait : ∀ s, Idle s → Idle (cls.wait s)
  idle_push : ∀ s d, Idle s → Idle (push s d)
  idle_close : ∀ s g, Idle s → Idle (cls.close g s).1
  idle_unbind : ∀ s, Idle s → Idle (cls.unbind s)
  idle_elsewhere : ∀ s t, Idle s → Idle (cls.elsewhere t s)

namespace Holding

variable {σ κ ε γ τ ω : Type} {cls : ListenerClass σ κ ε γ τ ω} (h : Holding cls) {s : σ} {gs : List γ}

include h in
theorem closed_closeAll_of_closed (hs : cls.closed s = true) (gs : List γ) :
    cls.closed (closeAll cls.close s gs).1 = true :=
  closeAll_of_close (P := fun s => cls.closed s = true)
    (fun s g _ => h.closed_close s g) hs gs

include h in
theorem closed_closeAll (hgs : gs ≠ []) : cls.closed (closeAll cls.close s gs).1 = true := by
  cases gs with
  | nil => exact absurd rfl hgs
  | cons g gs => exact h.closed_closeAll_of_closed (h.closed_close s g) gs

end Holding

namespace TlsHandshake

variable {σ κ ε γ τ ω : Type} {cls : ListenerClass σ κ ε γ τ ω}

/-- What the processing of data puts out. -/
def seen : TlsHandshakeOut ω → List ω
  | .processing o => [o]
  | .closing _ => []
  | .closeConnection => []

/-- An error in the fiber closes the connection. -/
def rescueEvents (cls : ListenerClass σ κ ε γ τ ω) (o : List (TlsHandshakeOut ω)) :
    List (GateEvent UInt8 κ (ConnAct ε γ) τ) :=
  if o.any TlsHandshakeOut.isRescue then [.shuts, .act (.close cls.closeConnection)] else []

/-- What happens at the gate in a step. -/
def gateEvents (cls : ListenerClass σ κ ε γ τ ω)
    (r : StepRec (TlsHandshake σ) (TlsHandshakeEvent κ ε γ τ) (TlsHandshakeOut ω)) :
    List (GateEvent UInt8 κ (ConnAct ε γ) τ) :=
  match r.ev with
  | .sslHandshakeCompleted callback k => callback.gateEvents k ++ rescueEvents cls r.out
  | .resume callback k => callback.gateEvents k ++ rescueEvents cls r.out
  | .conn e => e.gateEvents

/-- The connection is where its gate is. -/
inductive AtGate (h : Holding cls) : TlsHandshake σ → GateState σ UInt8 → Prop
  /-- Before the handshake. -/
  | early {s : TlsHandshake σ} : s.connected = false → s.suspended = false →
      cls.closed s.conn = false → h.Fresh s.conn → AtGate h s (.waiting [] s.conn)
  /-- The callback is suspended. -/
  | waiting {s : TlsHandshake σ} {held : Bytes} {c : σ} : s.connected = true → s.suspended = true →
      cls.closed c = false → h.Fresh c → s.conn = h.push (cls.wait c) held →
      AtGate h s (.waiting held c)
  /-- The callback has returned. -/
  | opened {s : TlsHandshake σ} : s.connected = true → s.suspended = false →
      AtGate h s (.opened s.conn)
  /-- The connection was closed before. -/
  | shut {s : TlsHandshake σ} : cls.closed s.conn = true → h.Idle s.conn →
      (s.connected = true → h.Deaf s.conn) → (s.suspended = true → s.connected = true) →
      AtGate h s .shut

variable (h : Holding cls) {s : TlsHandshake σ} {callback : GateCallback γ} {k : κ}

@[simp] theorem seen_map_closing (o : List ω) : (o.map TlsHandshakeOut.closing).flatMap seen = [] := by
  induction o with
  | nil => rfl
  | cons x o ih => exact ih

@[simp] theorem seen_map_processing (o : List ω) :
    (o.map TlsHandshakeOut.processing).flatMap seen = o := by
  induction o with
  | nil => rfl
  | cons x o ih => rw [List.map_cons, List.flatMap_cons, ih]; rfl

@[simp] theorem not_rescue_map_processing (o : List ω) :
    (o.map TlsHandshakeOut.processing).any TlsHandshakeOut.isRescue = false := by
  rw [List.any_map, List.any_eq_false]
  exact fun x _ => nofun

/-- What a fiber puts out: what the callback does to the connection, what is processed, and the rescue. -/
def fiberOut (o o' : List ω) (rescued : Bool) : List (TlsHandshakeOut ω) :=
  o.map .closing ++ o'.map .processing ++ if rescued then [.closeConnection] else []

theorem seen_fiberOut (o o' : List ω) (rescued : Bool) : (fiberOut o o' rescued).flatMap seen = o' := by
  unfold fiberOut
  rw [List.flatMap_append, List.flatMap_append, seen_map_closing, seen_map_processing]
  cases rescued with
  | false => exact List.append_nil o'
  | true => exact List.append_nil o'

theorem isRescue_fiberOut (o o' : List ω) (rescued : Bool) :
    (fiberOut o o' rescued).any TlsHandshakeOut.isRescue = rescued := by
  unfold fiberOut
  rw [List.any_append, List.any_append, not_rescue_map_processing, List.any_map]
  have hnone : o.any (TlsHandshakeOut.isRescue ∘ TlsHandshakeOut.closing) = false := by
    rw [List.any_eq_false]
    exact fun x _ => nofun
  rw [hnone]
  cases rescued <;> rfl

/-- How the fiber goes on, when the callback has left the connection in `c` and put out `o`: it stops there,
an error closes the connection, the connection processes what has been stored, or raises while it does. -/
inductive Outcome (cls : ListenerClass σ κ ε γ τ ω) (s : TlsHandshake σ) (k : κ) (c : σ) (o : List ω) :
    TlsHandshake σ × List (TlsHandshakeOut ω) → Prop
  | suspends : Outcome cls s k c o ({ s with conn := c, suspended := true }, fiberOut o [] false)
  | aborts : Outcome cls s k c o ({ s with conn := c }, fiberOut o [] false)
  | raises : Outcome cls s k c o
      ({ s with conn := (cls.close cls.closeConnection c).1 }, fiberOut o [] true)
  | processes : cls.closed c = false → Outcome cls s k c o
      ({ s with conn := (cls.processReceivedData k (cls.restart c)).1 },
        fiberOut o (cls.processReceivedData k (cls.restart c)).2 false)
  | rescues : cls.closed c = false → Outcome cls s k c o
      ({ s with conn :=
          (cls.close cls.closeConnection (cls.processReceivedData k (cls.restart c)).1).1 },
        fiberOut o (cls.processReceivedData k (cls.restart c)).2 true)

theorem runCallback_outcome (cls : ListenerClass σ κ ε γ τ ω) (s : TlsHandshake σ)
    (callback : GateCallback γ) (k : κ) :
    Outcome cls s k (closeAll cls.close s.conn callback.closes).1
      (closeAll cls.close s.conn callback.closes).2 (s.runCallback cls callback k) := by
  have hquiet : ∀ o : List ω, o.map TlsHandshakeOut.closing = fiberOut o [] false := fun o => by
    simp [fiberOut]
  have hraised : ∀ o : List ω,
      o.map TlsHandshakeOut.closing ++ [.closeConnection] = fiberOut o [] true := fun o => by
    simp [fiberOut]
  have hprocessed : ∀ o o' : List ω,
      o.map TlsHandshakeOut.closing ++ o'.map .processing = fiberOut o o' false := fun o o' => by
    simp [fiberOut]
  unfold runCallback rescue
  dsimp only
  cases callback.ends with
  | suspends =>
    dsimp only
    rw [hquiet]
    exact .suspends
  | raises =>
    dsimp only
    rw [hraised]
    exact .raises
  | returns =>
    dsimp only
    split_ifs with hclosed hraise
    · rw [hquiet]
      exact .aborts
    · exact .rescues (Bool.eq_false_iff.mpr hclosed)
    · rw [hprocessed]
      exact .processes (Bool.eq_false_iff.mpr hclosed)

/-- A callback that finds the connection closed does not begin to process. -/
theorem runCallback_of_closed (hconn : s.connected = true)
    (hclosed : cls.closed (closeAll cls.close s.conn callback.closes).1 = true)
    (hdeaf : h.Deaf s.conn) (hidle : h.Idle s.conn) :
    AtGate h (s.runCallback cls callback k).1 .shut ∧
      (s.runCallback cls callback k).2.flatMap seen = [] := by
  have hdeaf' := closeAll_of_close h.deaf_close hdeaf callback.closes
  have hidle' := closeAll_of_close h.idle_close hidle callback.closes
  unfold runCallback
  dsimp only
  cases hends : callback.ends with
  | suspends => exact ⟨.shut hclosed hidle' (fun _ => hdeaf') (fun _ => hconn), seen_map_closing _⟩
  | raises =>
    refine ⟨.shut (h.closed_close _ _) (h.idle_close _ _ hidle') (fun _ => h.deaf_close _ _ hdeaf')
      (fun _ => hconn), ?_⟩
    rw [List.flatMap_append, seen_map_closing]
    rfl
  | returns =>
    dsimp only
    rw [if_pos hclosed]
    exact ⟨.shut hclosed hidle' (fun _ => hdeaf') (fun _ => hconn), seen_map_closing _⟩

theorem run_gateEvents_shut (o : List (TlsHandshakeOut ω)) :
    cls.fed.run .shut (callback.gateEvents k ++ rescueEvents cls o) = (.shut, []) :=
  cls.fed.run_shut _

/-- The callback returns: what has been stored is processed. -/
theorem runCallback_of_returns {r : σ × List ω} (hcloses : callback.closes = [])
    (hends : callback.ends = .returns) (hopen : cls.closed s.conn = false)
    (hprocess : cls.processReceivedData k (cls.restart s.conn) = r) :
    s.runCallback cls callback k =
      if r.2.any cls.isRaise then
        ({ s with conn := (cls.close cls.closeConnection r.1).1 },
          r.2.map .processing ++ [.closeConnection])
      else ({ s with conn := r.1 }, r.2.map .processing) := by
  unfold runCallback rescue
  rw [hcloses, hends]
  simp only [closeAll_nil, hopen, hprocess, Bool.false_eq_true, if_false, List.map_nil,
    List.nil_append]

/-- The callback does to the connection what its events do to the gate. -/
theorem runCallback_waiting {held : Bytes} {c : σ} (hconn : s.connected = true)
    (hsusp : s.suspended = false) (hc : cls.closed c = false) (hfresh : h.Fresh c)
    (hs : s.conn = h.push (cls.wait c) held) :
    AtGate h (s.runCallback cls callback k).1 (cls.fed.run (.waiting held c)
        (callback.gateEvents k ++ rescueEvents cls (s.runCallback cls callback k).2)).1 ∧
      (s.runCallback cls callback k).2.flatMap seen = (cls.fed.run (.waiting held c)
        (callback.gateEvents k ++ rescueEvents cls (s.runCallback cls callback k).2)).2 := by
  have hdeaf : h.Deaf s.conn := by
    rw [hs]
    exact h.deaf_push _ _ (h.deaf_wait c)
  have hidle : h.Idle s.conn := by
    rw [hs]
    exact h.idle_push _ _ (h.idle_wait c (h.idle_fresh c hfresh))
  by_cases hcloses : callback.closes = []
  · cases hends : callback.ends with
    | suspends =>
      unfold runCallback GateCallback.gateEvents
      rw [hcloses, hends]
      exact ⟨.waiting hconn rfl hc hfresh hs, rfl⟩
    | raises =>
      unfold runCallback GateCallback.gateEvents
      rw [hcloses, hends]
      exact ⟨.shut (h.closed_close _ _) (h.idle_close _ _ hidle) (fun _ => h.deaf_close _ _ hdeaf)
        (fun _ => hconn), rfl⟩
    | returns =>
      have hopen : cls.closed s.conn = false := by
        rw [hs, h.closed_push, h.closed_wait]
        exact hc
      have hprocess : cls.processReceivedData k (cls.restart s.conn) = cls.receiveData k c held := by
        rw [hs]
        exact h.process_restart c k held hfresh
      have hevents : callback.gateEvents k = ([.opens k] : List (GateEvent UInt8 κ (ConnAct ε γ) τ)) := by
        unfold GateCallback.gateEvents
        rw [if_pos hcloses, hends]
        rfl
      rw [runCallback_of_returns hcloses hends hopen hprocess, hevents]
      by_cases hraise : (cls.receiveData k c held).2.any cls.isRaise
      · rw [if_pos hraise]
        have hrescue : rescueEvents cls ((cls.receiveData k c held).2.map TlsHandshakeOut.processing ++
            [.closeConnection]) = [.shuts, .act (.close cls.closeConnection)] := by
          unfold rescueEvents
          rw [List.any_append]
          simp [TlsHandshakeOut.isRescue]
        dsimp only
        rw [hrescue, List.flatMap_append, seen_map_processing]
        -- the gate has opened when the rescue closes the connection
        exact ⟨.opened hconn hsusp, by
          simp [Fed.run, Fed.step, Fed.plainStep, ListenerClass.fed, seen]⟩
      · rw [if_neg hraise]
        have hrescue : rescueEvents cls ((cls.receiveData k c held).2.map
            TlsHandshakeOut.processing) = [] := by
          unfold rescueEvents
          rw [not_rescue_map_processing]
          rfl
        dsimp only
        rw [hrescue, seen_map_processing]
        exact ⟨.opened hconn hsusp, by simp [Fed.step, ListenerClass.fed]⟩
  · have hclosed := h.closed_closeAll (s := s.conn) hcloses
    rw [callback.run_of_closes hcloses]
    exact runCallback_of_closed h hconn hclosed hdeaf hidle

variable {s' : TlsHandshake σ} {e : TlsHandshakeEvent κ ε γ τ} {o : List (TlsHandshakeOut ω)}

/-- The step does to the connection what its events do to the gate. -/
def Simulates (h : Holding cls) (s : TlsHandshake σ) (e : TlsHandshakeEvent κ ε γ τ)
    (o : List (TlsHandshakeOut ω)) (s' : TlsHandshake σ) (g : GateState σ UInt8) : Prop :=
  AtGate h s' (cls.fed.run g (gateEvents cls ⟨s, e, o, s'⟩)).1 ∧
    o.flatMap seen = (cls.fed.run g (gateEvents cls ⟨s, e, o, s'⟩)).2

theorem simulates_early (hstep : s.step cls e = some (s', o)) (hconn : s.connected = false)
    (hsusp : s.suspended = false) (hopen : cls.closed s.conn = false) (hfresh : h.Fresh s.conn) :
    Simulates h s e o s' (.waiting [] s.conn) := by
  have hidle := h.idle_fresh _ hfresh
  cases e with
  | sslHandshakeCompleted callback k =>
    dsimp only [step] at hstep
    split at hstep
    · cases hstep
    · obtain ⟨rfl, rfl⟩ := Prod.ext_iff.mp (Option.some.inj hstep)
      exact runCallback_waiting h rfl hsusp hopen hfresh (h.push_nil _).symm
  | resume callback k => simp [step, hsusp] at hstep
  | conn e =>
    cases e with
    | chunk k data => simp [step, hconn] at hstep
    | goOn e =>
      simp only [step, h.goOn_idle _ _ hidle] at hstep
      cases hstep
      exact ⟨.early hconn hsusp hopen hfresh, rfl⟩
    | close g =>
      cases hstep
      refine ⟨.shut (h.closed_close _ _) (h.idle_close _ _ hidle) ?_ ?_, seen_map_closing _⟩
      · exact fun hyes => absurd (hconn.symm.trans hyes) Bool.false_ne_true
      · exact fun hyes => absurd (hsusp.symm.trans hyes) Bool.false_ne_true
    | unbind =>
      dsimp only [step] at hstep
      split at hstep
      · cases hstep
      · cases hstep
        refine ⟨.shut (h.closed_unbind _) (h.idle_unbind _ hidle) ?_ ?_, rfl⟩
        · exact fun hyes => absurd (hconn.symm.trans hyes) Bool.false_ne_true
        · exact fun hyes => absurd (hsusp.symm.trans hyes) Bool.false_ne_true
    | elsewhere t =>
      cases hstep
      exact ⟨.early hconn hsusp ((h.closed_elsewhere _ t).trans hopen) (h.fresh_elsewhere _ _ hfresh),
        rfl⟩

theorem simulates_waiting {held : Bytes} {c : σ} (hstep : s.step cls e = some (s', o))
    (hconn : s.connected = true) (hsusp : s.suspended = true) (hopen : cls.closed c = false)
    (hfresh : h.Fresh c) (hs : s.conn = h.push (cls.wait c) held) :
    Simulates h s e o s' (.waiting held c) := by
  have hidle : h.Idle s.conn := by
    rw [hs]
    exact h.idle_push _ _ (h.idle_wait c (h.idle_fresh c hfresh))
  have hdeaf : h.Deaf s.conn := by
    rw [hs]
    exact h.deaf_push _ _ (h.deaf_wait c)
  cases e with
  | sslHandshakeCompleted callback k => simp [step, hconn] at hstep
  | resume callback k =>
    simp only [step, hsusp, if_true] at hstep
    obtain ⟨rfl, rfl⟩ := Prod.ext_iff.mp (Option.some.inj hstep)
    exact runCallback_waiting h hconn rfl hopen hfresh hs
  | conn e =>
    cases e with
    | chunk k data =>
      dsimp only [step] at hstep
      split at hstep
      · rw [hs, h.receive_wait] at hstep
        cases hstep
        exact ⟨.waiting hconn hsusp hopen hfresh (h.push_push _ _ _), rfl⟩
      · cases hstep
    | goOn e =>
      simp only [step, h.goOn_idle _ _ hidle] at hstep
      cases hstep
      exact ⟨.waiting hconn hsusp hopen hfresh hs, rfl⟩
    | close g =>
      cases hstep
      exact ⟨.shut (h.closed_close _ _) (h.idle_close _ _ hidle) (fun _ => h.deaf_close _ _ hdeaf)
        (fun _ => hconn), seen_map_closing _⟩
    | unbind =>
      dsimp only [step] at hstep
      split at hstep
      · cases hstep
      · cases hstep
        exact ⟨.shut (h.closed_unbind _) (h.idle_unbind _ hidle) (fun _ => h.deaf_unbind _ hdeaf)
          (fun _ => hconn), rfl⟩
    | elsewhere t =>
      cases hstep
      refine ⟨.waiting hconn hsusp ((h.closed_elsewhere c t).trans hopen)
        (h.fresh_elsewhere _ _ hfresh) ?_, rfl⟩
      show cls.elsewhere t s.conn = h.push (cls.wait (cls.elsewhere t c)) held
      rw [← h.elsewhere_wait, ← hs]

theorem simulates_opened (hstep : s.step cls e = some (s', o)) (hconn : s.connected = true)
    (hsusp : s.suspended = false) : Simulates h s e o s' (.opened s.conn) := by
  cases e with
  | sslHandshakeCompleted callback k => simp [step, hconn] at hstep
  | resume callback k => simp [step, hsusp] at hstep
  | conn e =>
    cases e with
    | chunk k data =>
      dsimp only [step] at hstep
      split at hstep
      · cases hstep
        refine ⟨.opened hconn hsusp, ?_⟩
        rw [seen_map_processing]
        exact (List.append_nil _).symm
      · cases hstep
    | goOn e =>
      cases hstep
      refine ⟨.opened hconn hsusp, ?_⟩
      rw [seen_map_processing]
      exact (List.append_nil _).symm
    | close g =>
      cases hstep
      exact ⟨.opened hconn hsusp, seen_map_closing _⟩
    | unbind =>
      dsimp only [step] at hstep
      split at hstep
      · cases hstep
      · cases hstep
        exact ⟨.opened hconn hsusp, rfl⟩
    | elsewhere t =>
      cases hstep
      exact ⟨.opened hconn hsusp, rfl⟩

theorem simulates_shut (hstep : s.step cls e = some (s', o)) (hclosed : cls.closed s.conn = true)
    (hidle : h.Idle s.conn) (hdeaf : s.connected = true → h.Deaf s.conn)
    (hsusp : s.suspended = true → s.connected = true) : Simulates h s e o s' .shut := by
  unfold Simulates
  rw [Fed.run_shut]
  cases e with
  | sslHandshakeCompleted callback k =>
    dsimp only [step] at hstep
    split at hstep
    · cases hstep
    · obtain ⟨rfl, rfl⟩ := Prod.ext_iff.mp (Option.some.inj hstep)
      have hclosed' : cls.closed (cls.wait s.conn) = true := (h.closed_wait _).trans hclosed
      exact runCallback_of_closed h rfl (h.closed_closeAll_of_closed hclosed' _) (h.deaf_wait _)
        (h.idle_wait _ hidle)
  | resume callback k =>
    dsimp only [step] at hstep
    split at hstep
    · obtain ⟨rfl, rfl⟩ := Prod.ext_iff.mp (Option.some.inj hstep)
      have hconn := hsusp ‹_›
      exact runCallback_of_closed h hconn (h.closed_closeAll_of_closed hclosed _) (hdeaf hconn) hidle
    · cases hstep
  | conn e =>
    cases e with
    | chunk k data =>
      dsimp only [step] at hstep
      split at hstep
      next hboth =>
        rw [Bool.and_eq_true] at hboth
        obtain ⟨d, hreceive⟩ := h.receive_deaf s.conn k data (hdeaf hboth.1)
        rw [hreceive] at hstep
        cases hstep
        refine ⟨.shut ?_ (h.idle_push _ _ hidle) (fun hyes => h.deaf_push _ _ (hdeaf hyes)) hsusp, rfl⟩
        rw [h.closed_push]
        exact hclosed
      next => cases hstep
    | goOn e =>
      simp only [step, h.goOn_idle _ _ hidle] at hstep
      cases hstep
      exact ⟨.shut hclosed hidle hdeaf hsusp, rfl⟩
    | close g =>
      cases hstep
      exact ⟨.shut (h.closed_close _ _) (h.idle_close _ _ hidle)
        (fun hyes => h.deaf_close _ _ (hdeaf hyes)) hsusp, seen_map_closing _⟩
    | unbind =>
      dsimp only [step] at hstep
      split at hstep
      · cases hstep
      · cases hstep
        exact ⟨.shut (h.closed_unbind _) (h.idle_unbind _ hidle)
          (fun hyes => h.deaf_unbind _ (hdeaf hyes)) hsusp, rfl⟩
    | elsewhere t =>
      cases hstep
      exact ⟨.shut ((h.closed_elsewhere _ t).trans hclosed) (h.idle_elsewhere _ _ hidle)
        (fun hyes => h.deaf_elsewhere _ _ (hdeaf hyes)) hsusp, rfl⟩

/-- Every step does to the connection what its events do to the gate. -/
theorem simulates {g : GateState σ UInt8} (hat : AtGate h s g) (hstep : s.step cls e = some (s', o)) :
    Simulates h s e o s' g := by
  cases hat with
  | early hconn hsusp hopen hfresh => exact simulates_early h hstep hconn hsusp hopen hfresh
  | waiting hconn hsusp hopen hfresh hs =>
    exact simulates_waiting h hstep hconn hsusp hopen hfresh hs
  | opened hconn hsusp => exact simulates_opened h hstep hconn hsusp
  | shut hclosed hidle hdeaf hsusp => exact simulates_shut h hstep hclosed hidle hdeaf hsusp

/-- **The gate before a TLS connection.** In a run of a fresh connection, what is seen of the
processing behaves as behind a gate. -/
theorem behaves {c : σ} (hopen : cls.closed c = false) (hfresh : h.Fresh c)
    {tr : List (StepRec (TlsHandshake σ) (TlsHandshakeEvent κ ε γ τ) (TlsHandshakeOut ω))}
    {s : TlsHandshake σ} (hrun : Run (step cls) (.new c) tr s) :
    cls.fed.Behaves c (tr.flatMap (gateEvents cls)) ((outputs tr).flatMap seen) := by
  have hstart : AtGate h (.new c) (.waiting [] c) := .early rfl rfl hopen hfresh
  obtain ⟨_, hseen⟩ := cls.fed.seen_of_run (gateEvents cls) seen
    (fun s e s' o g hat hstep => simulates h hat hstep) hstart hrun
  rw [hseen]
  exact cls.fed.behaves_run c _

end TlsHandshake

end OverSip
