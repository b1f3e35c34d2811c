import OverSip.Sip.TcpSegmentation
import OverSip.Sip.TlsServer
import OverSip.WebSocket.WsMessages
import OverSip.WebSocket.WsRequestBytes

/-!
# The gates of server connections

The class `WssServer` (`wss_server.rb`) is a `WsServer` with TLS, so that the bytes of the framing come
through two gates. `accept_gate` puts the gates of `TlsServer`, `WssServer` and `WsServer` together.
-/

namespace OverSip

namespace WsUpgrade

variable {η α : Type} {code : WsCode η} {cfg : WsConfig} {app : SipApp α} {s s' : WsUpgrade η α}
  {g : GateState (WsConnection α) UInt8} {o o' : List WsUpgradeOut}
  {es es' : List (FramingEvent α)}

/-- One thing after the other. -/
theorem Matches.trans (h : Matches code (s, o) ((WsConnection.fed cfg app).run g es))
    (h' : Matches code (s', o') ((WsConnection.fed cfg app).run
      ((WsConnection.fed cfg app).run g es).1 es')) :
    Matches code (s', o ++ o') ((WsConnection.fed cfg app).run g (es ++ es')) := by
  rw [Fed.run_append]
  refine ⟨h'.1, ?_⟩
  rw [List.flatMap_append, h.2, h'.2]

/-- A callback that closes its connection before the framing has begun. -/
theorem closeAll_matches (hat : AtGate code s g) (hs : s.state ≠ .established) (gs : List WsClosing) :
    Matches code ((closeAll (fun g s => s.close g) s gs).1, [])
      ((WsConnection.fed cfg app).run g (if gs = [] then [] else [.shuts])) := by
  by_cases hgs : gs = []
  · subst hgs
    exact ⟨hat, rfl⟩
  · have hbarred := barred_closeAll hs (.inr hgs)
    rw [if_neg hgs]
    cases hat with
    | early _ _ _ _ => exact ⟨hbarred.matches.1, rfl⟩
    | waiting _ _ _ _ => exact ⟨hbarred.matches.1, rfl⟩
    | opened hest _ => exact absurd hest hs
    | shut _ _ => exact ⟨hbarred.matches.1, rfl⟩

/-- The rescue closes the connection. -/
theorem rescue_matches (hat : AtGate code s g) :
    Matches code ((s.close .closeConnection).1, [])
      ((WsConnection.fed cfg app).run g [.shuts, .act (.close .closeConnection)]) := by
  have hmatch : Matches code (s.close .closeConnection)
      ((WsConnection.fed cfg app).run g [.shuts, .act (.close .closeConnection)]) :=
    close_matches hat .closeConnection
  exact ⟨hmatch.1, hmatch.2⟩

/-- `on_client_tls_handshake` has returned, and the connection reads. -/
theorem restart_matches (hat : AtGate code s g) (hopen : s.closed = false)
    (hs : s.state = .waitingForOnClientTlsHandshake ∨ s.state = .ignore) (env : WsEnv) :
    Matches code (({ s with state := .init } : WsUpgrade η α).processReceivedData code cfg app env)
      ((WsConnection.fed cfg app).run g (
        (({ s with state := .init } : WsUpgrade η α).processReceivedData code cfg app env).2.flatMap
          (outEvents env.onConnection))) := by
  cases hat with
  | early _ _ _ hsusp =>
    exact processReceivedData_spec (s := { s with state := .init }) (.inl rfl) hopen hsusp
  | waiting hwait _ _ _ => rcases hs with h | h <;> cases hwait.symm.trans h
  | opened hest _ => rcases hs with h | h <;> cases hest.symm.trans h
  | shut _ hclosed => cases hclosed.symm.trans hopen

theorem state_closeAll {gs : List WsClosing}
    (hs : s.state = .waitingForOnClientTlsHandshake ∨ s.state = .ignore) :
    (closeAll (fun g s => s.close g) s gs).1.state = .waitingForOnClientTlsHandshake ∨
      (closeAll (fun g s => s.close g) s gs).1.state = .ignore := by
  refine closeAll_of_close (P := fun s : WsUpgrade η α =>
    s.state = .waitingForOnClientTlsHandshake ∨ s.state = .ignore) (fun s g hs => ?_) hs gs
  rcases state_close_of_ne (ne_established_of_deaf hs) g with h | h
  · rw [h]
    exact hs
  · exact .inr h

end WsUpgrade

namespace WssServer

variable {η α : Type} {code : WsCode η} {cfg : WsConfig} {app : SipApp α}

/-- What the framing puts out. -/
def seen (o : TlsHandshakeOut WsUpgradeOut) : List WsOut := (TlsHandshake.seen o).flatMap WsUpgrade.seen

/-- What the rescue of the fiber does to the gate. -/
def rescueEvents (o : List (TlsHandshakeOut WsUpgradeOut)) :
    List (FramingEvent α) :=
  if o.any TlsHandshakeOut.isRescue then [.shuts, .act (.close .closeConnection)] else []

/-- What `on_client_tls_handshake` does to the gate of `on_connection`. -/
def callbackEvents (callback : GateCallback WsClosing) (env : WsEnv)
    (o : List (TlsHandshakeOut WsUpgradeOut)) :
    List (FramingEvent α) :=
  (if callback.closes = [] then [] else [.shuts]) ++
    (o.flatMap TlsHandshake.seen).flatMap (WsUpgrade.outEvents env.onConnection) ++ rescueEvents o

/-- What happens at the gate of `on_connection` in a step. -/
def gateEvents (r : StepRec (TlsHandshake (WsUpgrade η α))
    (TlsHandshakeEvent WsEnv (GateCallback WsClosing) WsClosing α) (TlsHandshakeOut WsUpgradeOut)) :
    List (FramingEvent α) :=
  match r.ev with
  | .sslHandshakeCompleted callback env => callbackEvents callback env r.out
  | .resume callback env => callbackEvents callback env r.out
  | .conn e => WsUpgrade.gateEvents ⟨r.pre.conn, e, r.out.flatMap TlsHandshake.seen, r.post.conn⟩

/-- Before `on_client_tls_handshake` has returned, the connection has not begun to read. -/
structure Reads (s : TlsHandshake (WsUpgrade η α)) : Prop where
  early : s.connected = false → s.conn.state = .init ∨ s.conn.state = .ignore
  waits : s.suspended = true →
    s.conn.state = .waitingForOnClientTlsHandshake ∨ s.conn.state = .ignore
  idle : s.connected = false ∨ s.suspended = true → s.conn.suspended = false
  completed : s.suspended = true → s.connected = true

/-- The connection is where its gate is. -/
def AtGate (code : WsCode η) (s : TlsHandshake (WsUpgrade η α))
    (g : GateState (WsConnection α) UInt8) : Prop :=
  Reads s ∧ WsUpgrade.AtGate code s.conn g

variable {s s' : TlsHandshake (WsUpgrade η α)} {g : GateState (WsConnection α) UInt8}

theorem reads_of_returned (hconn : s.connected = true) (hsusp : s.suspended = false) : Reads s where
  early h := absurd (hconn.symm.trans h) (by simp)
  waits h := absurd (hsusp.symm.trans h) (by simp)
  idle h := by
    rcases h with h | h
    · exact absurd (hconn.symm.trans h) (by simp)
    · exact absurd (hsusp.symm.trans h) (by simp)
  completed _ := hconn

/-- The events of a fiber: those of what it processes, and those of the rescue. -/
theorem callbackEvents_fiberOut (callback : GateCallback WsClosing) (env : WsEnv)
    (o o' : List WsUpgradeOut) (rescued : Bool) :
    (callbackEvents callback env (TlsHandshake.fiberOut o o' rescued) : List (FramingEvent α)) =
      (if callback.closes = [] then [] else [.shuts]) ++
        o'.flatMap (WsUpgrade.outEvents env.onConnection) ++
          if rescued then [.shuts, .act (.close .closeConnection)] else [] := by
  unfold callbackEvents rescueEvents
  rw [TlsHandshake.seen_fiberOut, TlsHandshake.isRescue_fiberOut]

/-- The callback does to the connection what its events do to the gate. -/
theorem runCallback_spec {callback : GateCallback WsClosing} {env : WsEnv} (hconn : s.connected = true)
    (hsusp : s.suspended = false)
    (hstate : s.conn.state = .waitingForOnClientTlsHandshake ∨ s.conn.state = .ignore)
    (hidle : s.conn.suspended = false) (hat : WsUpgrade.AtGate code s.conn g)
    {p : TlsHandshake (WsUpgrade η α) × List (TlsHandshakeOut WsUpgradeOut)}
    (hp : s.runCallback (WsUpgrade.listenerClass code cfg app) callback env = p) :
    Reads p.1 ∧ WsUpgrade.Matches code (p.1.conn, p.2.flatMap TlsHandshake.seen)
      ((WsConnection.fed cfg app).run g (callbackEvents callback env p.2)) := by
  subst hp
  let gs := callback.closes
  let c := (closeAll (fun g s => s.close g) s.conn gs).1
  let o := (closeAll (fun g s => s.close g) s.conn gs).2
  have hclose : WsUpgrade.Matches code (c, [])
      ((WsConnection.fed cfg app).run g (if gs = [] then [] else [.shuts])) :=
    WsUpgrade.closeAll_matches hat (WsUpgrade.ne_established_of_deaf hstate) gs
  have hstate' : c.state = .waitingForOnClientTlsHandshake ∨ c.state = .ignore :=
    WsUpgrade.state_closeAll hstate
  have hidle' : c.suspended = false :=
    closeAll_of_close (P := fun s : WsUpgrade η α => s.suspended = false)
      (fun s g hs => (WsUpgrade.close_spec s g).1.trans hs) hidle _
  have hprocess : c.closed = false → WsUpgrade.Matches code
      (({ c with state := .init } : WsUpgrade η α).processReceivedData code cfg app env)
      ((WsConnection.fed cfg app).run g ((if gs = [] then [] else [.shuts]) ++
        (({ c with state := .init } : WsUpgrade η α).processReceivedData code cfg app env).2.flatMap
          (WsUpgrade.outEvents env.onConnection))) := fun hopen =>
    hclose.trans (WsUpgrade.restart_matches hclose.1 hopen hstate' env)
  have hout : TlsHandshake.Outcome (WsUpgrade.listenerClass code cfg app) s env c o
      (s.runCallback (WsUpgrade.listenerClass code cfg app) callback env) :=
    TlsHandshake.runCallback_outcome _ s callback env
  generalize s.runCallback (WsUpgrade.listenerClass code cfg app) callback env = p at hout
  cases hout with
  | suspends =>
    rw [callbackEvents_fiberOut, TlsHandshake.seen_fiberOut]
    simp only [List.flatMap_nil, List.append_nil, Bool.false_eq_true, if_false]
    exact ⟨⟨fun h => absurd (hconn.symm.trans h) (by simp), fun _ => hstate', fun _ => hidle',
      fun _ => hconn⟩, hclose⟩
  | aborts =>
    rw [callbackEvents_fiberOut, TlsHandshake.seen_fiberOut]
    simp only [List.flatMap_nil, List.append_nil, Bool.false_eq_true, if_false]
    exact ⟨reads_of_returned hconn hsusp, hclose⟩
  | raises =>
    rw [callbackEvents_fiberOut, TlsHandshake.seen_fiberOut]
    simp only [List.flatMap_nil, List.append_nil, if_true]
    exact ⟨reads_of_returned hconn hsusp, hclose.trans (WsUpgrade.rescue_matches hclose.1)⟩
  | processes hopen =>
    rw [callbackEvents_fiberOut, TlsHandshake.seen_fiberOut]
    simp only [Bool.false_eq_true, if_false, List.append_nil]
    exact ⟨reads_of_returned hconn hsusp, hprocess hopen⟩
  | rescues hopen =>
    rw [callbackEvents_fiberOut, TlsHandshake.seen_fiberOut, if_pos rfl]
    have hlast := (hprocess hopen).trans (WsUpgrade.rescue_matches (hprocess hopen).1)
    rw [List.append_nil] at hlast
    exact ⟨reads_of_returned hconn hsusp, hlast⟩

/-- A connection that waits stays where it is, or is closed. -/
theorem Reads.of_conn (h : Reads s) {conn : WsUpgrade η α}
    (hconn : s.connected = false ∨ s.suspended = true →
      (conn.state = s.conn.state ∨ conn.state = .ignore) ∧ conn.suspended = s.conn.suspended) :
    Reads { s with conn } := by
  refine ⟨fun hc => ?_, fun hs => ?_, fun hb => (hconn hb).2.trans (h.idle hb),
    h.completed⟩
  · rcases (hconn (.inl hc)).1 with hsame | hignore
    · rw [hsame]
      exact h.early hc
    · exact .inr hignore
  · rcases (hconn (.inr hs)).1 with hsame | hignore
    · rw [hsame]
      exact h.waits hs
    · exact .inr hignore

theorem Reads.state_ne (h : Reads s) (hb : s.connected = false ∨ s.suspended = true) :
    s.conn.state ≠ .established ∧ s.conn.state ≠ .waitingForOnConnection := by
  rcases hb with hc | hs
  · rcases h.early hc with hstate | hstate
    · simp [hstate]
    · simp [hstate]
  · rcases h.waits hs with hstate | hstate
    · simp [hstate]
    · simp [hstate]

theorem flatMap_seen (o : List (TlsHandshakeOut WsUpgradeOut)) :
    o.flatMap seen = (o.flatMap TlsHandshake.seen).flatMap WsUpgrade.seen := by
  rw [List.flatMap_assoc]
  rfl

/-- What happens to the connection by itself. -/
theorem simulates_conn {e : ConnEvent WsEnv (GateCallback WsClosing) WsClosing α}
    {o : List (TlsHandshakeOut WsUpgradeOut)} (hat : AtGate code s g)
    (hstep : TlsHandshake.step (WsUpgrade.listenerClass code cfg app) s (.conn e) = some (s', o)) :
    Reads s' ∧ WsUpgrade.Matches code (s'.conn, o.flatMap TlsHandshake.seen)
      ((WsConnection.fed cfg app).run g (gateEvents ⟨s, .conn e, o, s'⟩)) := by
  obtain ⟨hreads, hconn⟩ := hat
  cases e with
  | chunk env data =>
    dsimp only [TlsHandshake.step] at hstep
    split at hstep
    next hboth =>
      rw [Bool.and_eq_true] at hboth
      obtain ⟨rfl, rfl⟩ := Prod.ext_iff.mp (Option.some.inj hstep)
      refine ⟨hreads.of_conn fun hb => ?_, ?_⟩
      · have hs : s.suspended = true := hb.resolve_left (by simp [hboth.1])
        show ((WsUpgrade.receiveData code cfg app s.conn env data).1.state = _ ∨ _) ∧
          (WsUpgrade.receiveData code cfg app s.conn env data).1.suspended = _
        unfold WsUpgrade.receiveData
        rcases hreads.waits hs with hstate | hstate
        · rw [hstate]
          exact ⟨.inl hstate, rfl⟩
        · rw [hstate]
          exact ⟨.inl hstate, rfl⟩
      · dsimp only [gateEvents]
        rw [TlsHandshake.seen_map_processing]
        exact WsUpgrade.receiveData_spec hconn env data
    next => cases hstep
  | goOn callback =>
    obtain ⟨rfl, rfl⟩ := Prod.ext_iff.mp (Option.some.inj hstep)
    refine ⟨hreads.of_conn fun hb => ?_, ?_⟩
    · show ((WsUpgrade.resume code cfg app s.conn callback).1.state = _ ∨ _) ∧
        (WsUpgrade.resume code cfg app s.conn callback).1.suspended = _
      unfold WsUpgrade.resume
      rw [hreads.idle hb]
      exact ⟨.inl rfl, hreads.idle hb⟩
    · dsimp only [gateEvents]
      rw [TlsHandshake.seen_map_processing]
      exact WsUpgrade.resume_spec hconn callback
  | close c =>
    obtain ⟨rfl, rfl⟩ := Prod.ext_iff.mp (Option.some.inj hstep)
    have hmatch : WsUpgrade.Matches code (s.conn.close c)
        ((WsConnection.fed cfg app).run g [.shuts, .act (.close c)]) :=
      WsUpgrade.close_matches hconn c
    refine ⟨hreads.of_conn fun hb => ⟨WsUpgrade.state_close_of_ne (hreads.state_ne hb).1 c,
      (WsUpgrade.close_spec s.conn c).1⟩, hmatch.1, ?_⟩
    dsimp only
    rw [TlsHandshake.seen_map_closing]
    exact (WsUpgrade.seen_close s.conn c).symm.trans hmatch.2
  | unbind =>
    dsimp only [TlsHandshake.step] at hstep
    split at hstep
    · cases hstep
    · obtain ⟨rfl, rfl⟩ := Prod.ext_iff.mp (Option.some.inj hstep)
      refine ⟨hreads.of_conn fun hb => ⟨.inr ?_, WsUpgrade.suspended_setIgnore s.conn⟩,
        WsUpgrade.unbind_matches hconn⟩
      show s.conn.setIgnore.state = .ignore
      rw [WsUpgrade.setIgnore_of_ne (hreads.state_ne hb).1]
  | elsewhere a =>
    obtain ⟨rfl, rfl⟩ := Prod.ext_iff.mp (Option.some.inj hstep)
    exact ⟨hreads.of_conn fun _ => ⟨.inl rfl, rfl⟩, WsUpgrade.elsewhere_matches hconn a⟩

/-- Every step does to the connection what its events do to the gate. -/
theorem simulates {e : TlsHandshakeEvent WsEnv (GateCallback WsClosing) WsClosing α}
    {o : List (TlsHandshakeOut WsUpgradeOut)} (hat : AtGate code s g)
    (hstep : TlsHandshake.step (WsUpgrade.listenerClass code cfg app) s e = some (s', o)) :
    AtGate code s' ((WsConnection.fed cfg app).run g (gateEvents ⟨s, e, o, s'⟩)).1 ∧
      o.flatMap seen = ((WsConnection.fed cfg app).run g (gateEvents ⟨s, e, o, s'⟩)).2 := by
  rw [flatMap_seen]
  suffices hmatch : Reads s' ∧ WsUpgrade.Matches code (s'.conn, o.flatMap TlsHandshake.seen)
      ((WsConnection.fed cfg app).run g (gateEvents ⟨s, e, o, s'⟩)) from
    ⟨⟨hmatch.1, hmatch.2.1⟩, hmatch.2.2⟩
  cases e with
  | sslHandshakeCompleted callback env =>
    dsimp only [TlsHandshake.step] at hstep
    split at hstep
    · cases hstep
    next hnot =>
      have hconn : s.connected = false := by
        cases h : s.connected with
        | false => rfl
        | true => simp [h] at hnot
      have hne := hat.1.state_ne (.inl hconn)
      have hwait : WsUpgrade.AtGate code
          ({ s.conn with state := .waitingForOnClientTlsHandshake } : WsUpgrade η α) g := by
        cases hat.2 with
        | early _ _ hopen hidle => exact .early (by simp) (by simp) hopen hidle
        | waiting hs _ _ _ => exact absurd hs hne.2
        | opened hs _ => exact absurd hs hne.1
        | shut _ hclosed => exact .shut (by simp) hclosed
      have hsusp : s.suspended = false := by
        cases h : s.suspended with
        | false => rfl
        | true => exact absurd (hconn.symm.trans (hat.1.completed h)) (by simp)
      exact runCallback_spec (s := { s with
        conn := { s.conn with state := .waitingForOnClientTlsHandshake }, connected := true })
        rfl hsusp (.inl rfl) (hat.1.idle (.inl hconn)) hwait (Option.some.inj hstep)
  | resume callback env =>
    dsimp only [TlsHandshake.step] at hstep
    split at hstep
    next hs =>
      exact runCallback_spec (s := { s with suspended := false }) (hat.1.completed hs) rfl
        (hat.1.waits hs) (hat.1.idle (.inr hs)) hat.2 (Option.some.inj hstep)
    next => cases hstep
  | conn e => exact simulates_conn hat hstep

theorem atGate_new (code : WsCode η) (a : α) : AtGate code (.new (.new code a)) (.waiting [] (.new a)) :=
  ⟨⟨fun _ => .inl rfl, fun h => (nomatch h), fun _ => rfl, fun h => (nomatch h)⟩,
    .early (by simp [TlsHandshake.new, WsUpgrade.new]) (by simp [TlsHandshake.new, WsUpgrade.new])
      rfl rfl⟩

/-- **The gate before the framing, with TLS.** In a run of a new connection, what is seen of the framing
behaves as behind the gate of `on_connection`. -/
theorem behaves {a : α} {tr : List (StepRec (TlsHandshake (WsUpgrade η α))
      (TlsHandshakeEvent WsEnv (GateCallback WsClosing) WsClosing α) (TlsHandshakeOut WsUpgradeOut))}
    (hrun : Run (TlsHandshake.step (WsUpgrade.listenerClass code cfg app)) (.new (.new code a)) tr s) :
    (WsConnection.fed cfg app).Behaves (.new a) (tr.flatMap gateEvents) ((outputs tr).flatMap seen) := by
  obtain ⟨_, hseen⟩ := (WsConnection.fed cfg app).seen_of_run gateEvents seen
    (fun s e s' o g hat hstep => simulates hat hstep) (atGate_new code a) hrun
  rw [hseen]
  exact (WsConnection.fed cfg app).behaves_run _ _

/-! ## The bytes behind the request -/

/-- The stream that a connection has received behind its handshake. -/
def received (tr : List (StepRec (TlsHandshake (WsUpgrade η α))
    (TlsHandshakeEvent WsEnv (GateCallback WsClosing) WsClosing α) (TlsHandshakeOut WsUpgradeOut))) :
    Bytes :=
  tr.flatMap (·.ev.data)

/-- What the connection has made of the stream so far, unless it was closed before the handshake. -/
def Kept (code : WsCode η) (stream : Bytes) (c : WsUpgrade η α) : Prop :=
  WsUpgrade.Collected code stream c ∨
    c.state = .waitingForOnClientTlsHandshake ∧ c.closed = true ∧ c.suspended = false

variable {stream : Bytes} {c : WsUpgrade η α}

theorem Kept.close (h : Kept code stream c) (g : WsClosing) : Kept code stream (c.close g).1 := by
  rcases h with h | ⟨hs, _, hsusp⟩
  · exact .inl (h.close g)
  · cases g with
    | closeConnection => exact .inr ⟨hs, WsUpgrade.closed_of_localClosed rfl, hsusp⟩
    | close args =>
      rw [WsUpgrade.close_args_of_ne (by simp [hs])]
      exact .inl (.ended (.inr (.inr ⟨rfl, WsUpgrade.closed_of_localClosed rfl⟩)))

/-- A connection that waited reads what it has stored. -/
theorem keeps_restart (h : Kept code stream c) (hopen : c.closed = false)
    (hs : c.state = .waitingForOnClientTlsHandshake ∨ c.state = .ignore) (env : WsEnv) :
    WsUpgrade.Keeps code stream
      (({ c with state := .init } : WsUpgrade η α).processReceivedData code cfg app env) := by
  rcases h with h | ⟨_, hclosed, _⟩
  · cases h with
    | fresh _ hbuffer hsusp =>
      exact WsUpgrade.keeps_of_init (s := { c with state := .init }) rfl hbuffer hsusp
    | reading hread _ _ _ _ _ => rcases hs with h | h <;> cases hread.symm.trans h
    | ended hover =>
      rcases hover with hwait | hest | ⟨_, hclosed⟩
      · rcases hs with h | h <;> cases hwait.symm.trans h
      · rcases hs with h | h <;> cases hest.symm.trans h
      · cases hclosed.symm.trans hopen
  · cases hclosed.symm.trans hopen

/-- The rest of the fiber. -/
theorem keeps_runCallback {callback : GateCallback WsClosing} {env : WsEnv}
    (hstate : s.conn.state = .waitingForOnClientTlsHandshake ∨ s.conn.state = .ignore)
    (h : Kept code stream s.conn)
    {p : TlsHandshake (WsUpgrade η α) × List (TlsHandshakeOut WsUpgradeOut)}
    (hp : s.runCallback (WsUpgrade.listenerClass code cfg app) callback env = p) :
    Kept code stream p.1.conn ∧ WsUpgrade.IsCalled code stream (p.2.flatMap TlsHandshake.seen) := by
  subst hp
  let c := (closeAll (fun g s => s.close g) s.conn callback.closes).1
  let o := (closeAll (fun g s => s.close g) s.conn callback.closes).2
  have hkept : Kept code stream c :=
    closeAll_of_close (P := Kept code stream) (fun _ g hc => hc.close g) h callback.closes
  have hstate' : c.state = .waitingForOnClientTlsHandshake ∨ c.state = .ignore :=
    WsUpgrade.state_closeAll hstate
  have hout : TlsHandshake.Outcome (WsUpgrade.listenerClass code cfg app) s env c o
      (s.runCallback (WsUpgrade.listenerClass code cfg app) callback env) :=
    TlsHandshake.runCallback_outcome _ s callback env
  generalize s.runCallback (WsUpgrade.listenerClass code cfg app) callback env = p at hout
  have hnone : WsUpgrade.IsCalled code stream [] := by simp [WsUpgrade.IsCalled]
  have hprocess : c.closed = false → WsUpgrade.Keeps code stream
      (({ c with state := .init } : WsUpgrade η α).processReceivedData code cfg app env) :=
    fun hopen => keeps_restart hkept hopen hstate' env
  cases hout with
  | suspends =>
    rw [TlsHandshake.seen_fiberOut]
    exact ⟨hkept, hnone⟩
  | aborts =>
    rw [TlsHandshake.seen_fiberOut]
    exact ⟨hkept, hnone⟩
  | raises =>
    rw [TlsHandshake.seen_fiberOut]
    exact ⟨hkept.close _, hnone⟩
  | processes hopen =>
    obtain ⟨hcollected, hcalled⟩ := hprocess hopen
    rw [TlsHandshake.seen_fiberOut]
    exact ⟨.inl hcollected, hcalled⟩
  | rescues hopen =>
    obtain ⟨hcollected, hcalled⟩ := hprocess hopen
    rw [TlsHandshake.seen_fiberOut]
    exact ⟨.inl (hcollected.close _), hcalled⟩

/-- What happens to the connection by itself. -/
theorem keeps_conn (h : Kept code stream s.conn)
    {e : ConnEvent WsEnv (GateCallback WsClosing) WsClosing α} {o : List (TlsHandshakeOut WsUpgradeOut)}
    (hstep : TlsHandshake.step (WsUpgrade.listenerClass code cfg app) s (.conn e) = some (s', o)) :
    Kept code (stream ++ e.data) s'.conn ∧
      WsUpgrade.IsCalled code (stream ++ e.data) (o.flatMap TlsHandshake.seen) := by
  have hnone : ∀ stream : Bytes, WsUpgrade.IsCalled code stream [] := by simp [WsUpgrade.IsCalled]
  cases e with
  | chunk env data =>
    dsimp only [TlsHandshake.step] at hstep
    split at hstep
    · obtain ⟨rfl, rfl⟩ := Prod.ext_iff.mp (Option.some.inj hstep)
      dsimp only
      rw [TlsHandshake.seen_map_processing]
      rcases h with h | hwait
      · have hkeeps : WsUpgrade.Keeps code (stream ++ data)
            (s.conn.receiveData code cfg app env data) := WsUpgrade.keeps_receiveData h env data
        exact ⟨.inl hkeeps.1, hkeeps.2⟩
      · have hreceive : WsUpgrade.receiveData code cfg app s.conn env data = (s.conn.push data, []) := by
          unfold WsUpgrade.receiveData
          rw [hwait.1]
        show Kept _ _ (WsUpgrade.receiveData code cfg app s.conn env data).1 ∧
          WsUpgrade.IsCalled _ _ (WsUpgrade.receiveData code cfg app s.conn env data).2
        rw [hreceive]
        exact ⟨.inr hwait, hnone _⟩
    · cases hstep
  | goOn callback =>
    obtain ⟨rfl, rfl⟩ := Prod.ext_iff.mp (Option.some.inj hstep)
    rw [TlsHandshake.seen_map_processing, show ConnEvent.data _ = [] from rfl, List.append_nil]
    rcases h with h | hwait
    · have hkeeps : WsUpgrade.Keeps code stream (s.conn.resume code cfg app callback) :=
        WsUpgrade.keeps_resume h callback
      exact ⟨.inl hkeeps.1, hkeeps.2⟩
    · have hresume : WsUpgrade.resume code cfg app s.conn callback = (s.conn, []) := by
        unfold WsUpgrade.resume
        rw [hwait.2.2]
        rfl
      show Kept _ _ (WsUpgrade.resume code cfg app s.conn callback).1 ∧
        WsUpgrade.IsCalled _ _ (WsUpgrade.resume code cfg app s.conn callback).2
      rw [hresume]
      exact ⟨.inr hwait, hnone _⟩
  | close g =>
    obtain ⟨rfl, rfl⟩ := Prod.ext_iff.mp (Option.some.inj hstep)
    rw [TlsHandshake.seen_map_closing, show ConnEvent.data _ = [] from rfl, List.append_nil]
    exact ⟨h.close g, hnone _⟩
  | unbind =>
    dsimp only [TlsHandshake.step] at hstep
    split at hstep
    · cases hstep
    · obtain ⟨rfl, rfl⟩ := Prod.ext_iff.mp (Option.some.inj hstep)
      exact ⟨.inl (WsUpgrade.collected_unbind code _ s.conn), hnone _⟩
  | elsewhere a =>
    obtain ⟨rfl, rfl⟩ := Prod.ext_iff.mp (Option.some.inj hstep)
    rw [show ConnEvent.data _ = [] from rfl, List.append_nil]
    refine ⟨?_, hnone _⟩
    rcases h with h | hwait
    · exact .inl (h.elsewhere a)
    · exact .inr hwait

theorem keeps_step (hreads : Reads s) (h : Kept code stream s.conn)
    {e : TlsHandshakeEvent WsEnv (GateCallback WsClosing) WsClosing α}
    {o : List (TlsHandshakeOut WsUpgradeOut)}
    (hstep : TlsHandshake.step (WsUpgrade.listenerClass code cfg app) s e = some (s', o)) :
    Kept code (stream ++ e.data) s'.conn ∧
      WsUpgrade.IsCalled code (stream ++ e.data) (o.flatMap TlsHandshake.seen) := by
  cases e with
  | sslHandshakeCompleted callback env =>
    rw [show TlsHandshakeEvent.data _ = [] from rfl, List.append_nil]
    dsimp only [TlsHandshake.step] at hstep
    split at hstep
    · cases hstep
    next hnot =>
      have hconn : s.connected = false := by
        cases hc : s.connected with
        | false => rfl
        | true => simp [hc] at hnot
      have hwait : Kept code stream
          ({ s.conn with state := .waitingForOnClientTlsHandshake } : WsUpgrade η α) := by
        have hidle := hreads.idle (.inl hconn)
        have hne := hreads.state_ne (.inl hconn)
        rcases h with h | ⟨_, hclosed, _⟩
        · cases h with
          | fresh _ hbuffer hsusp => exact .inl (.fresh (.inr rfl) hbuffer hsusp)
          | reading hs _ _ _ _ _ => rcases hreads.early hconn with h | h <;> cases hs.symm.trans h
          | ended hover =>
            rcases hover with hs | hs | ⟨_, hclosed⟩
            · exact absurd hs hne.2
            · exact absurd hs hne.1
            · exact .inr ⟨rfl, hclosed, hidle⟩
        · exact .inr ⟨rfl, hclosed, hidle⟩
      exact keeps_runCallback (.inl rfl) hwait (Option.some.inj hstep)
  | resume callback env =>
    rw [show TlsHandshakeEvent.data _ = [] from rfl, List.append_nil]
    dsimp only [TlsHandshake.step] at hstep
    split at hstep
    next hs =>
      exact keeps_runCallback (s := { s with suspended := false }) (hreads.waits hs) h
        (Option.some.inj hstep)
    next => cases hstep
  | conn e => exact keeps_conn h hstep

/-- The connection has made of the stream what it should when the steps of a run have been taken. -/
theorem kept_of_run {a : α} {tr : List (StepRec (TlsHandshake (WsUpgrade η α))
      (TlsHandshakeEvent WsEnv (GateCallback WsClosing) WsClosing α) (TlsHandshakeOut WsUpgradeOut))}
    (hrun : Run (TlsHandshake.step (WsUpgrade.listenerClass code cfg app)) (.new (.new code a)) tr s) :
    Reads s ∧ Kept code (received tr) s.conn := by
  induction hrun with
  | nil => exact ⟨(atGate_new code a).1, .inl (.fresh (.inl rfl) rfl rfl)⟩
  | @snoc tr s s' e o hbefore hstep ih =>
    obtain ⟨hat, _⟩ := (WsConnection.fed cfg app).seen_of_run gateEvents seen
      (fun s e s' o g hat hstep => simulates hat hstep) (atGate_new code a) (hbefore.snoc hstep)
    have hkept := (keeps_step ih.1 ih.2 hstep).1
    unfold received at *
    rw [List.flatMap_append, List.flatMap_singleton]
    exact ⟨hat.1, hkept⟩

/-- **The bytes behind the request, with TLS.** -/
theorem isCalled_of_run {a : α} {tr₁ tr₂ : List (StepRec (TlsHandshake (WsUpgrade η α))
      (TlsHandshakeEvent WsEnv (GateCallback WsClosing) WsClosing α) (TlsHandshakeOut WsUpgradeOut))}
    {r : StepRec (TlsHandshake (WsUpgrade η α))
      (TlsHandshakeEvent WsEnv (GateCallback WsClosing) WsClosing α) (TlsHandshakeOut WsUpgradeOut)}
    (hrun : Run (TlsHandshake.step (WsUpgrade.listenerClass code cfg app)) (.new (.new code a))
      (tr₁ ++ r :: tr₂) s) :
    WsUpgrade.IsCalled code (received (tr₁ ++ [r])) (r.out.flatMap TlsHandshake.seen) := by
  obtain ⟨hbefore, hstep, _⟩ := hrun.of_middle
  obtain ⟨hreads, hkept⟩ := kept_of_run hbefore
  have hcalled := (keeps_step hreads hkept hstep).2
  unfold received at *
  rw [List.flatMap_append, List.flatMap_singleton]
  exact hcalled

end WssServer

/-- A request that is accepted, and the parser on it. -/
def sampleHttpRequest : HttpRequest :=
  { httpMethod := .get, httpVersion := "HTTP/1.1", hdrConnection := some ["upgrade"]
    hdrUpgrade := some "websocket", hdrSecWebsocketVersion := some 13
    hdrSecWebsocketKey := some "dGhlIHNhbXBsZSBub25jZQ=="
    hdrSecWebsocketProtocol := some [WS_SIP_PROTOCOL] }

def sampleHttpText : Bytes :=
  ascii "GET / HTTP/1.1\r\nConnection: Upgrade\r\nUpgrade: websocket\r\n\r\n"

def sampleWsCode : WsCode TextState where
  parser :=
    { automaton := (textParser [(sampleHttpText, .outboundKeepalive)] (by simp)).automaton
      request := fun _ => sampleHttpRequest }
  base64digest := fun text => text

/-- A server with small sizes whose program closes no connection. -/
abbrev sampleWsClass : ListenerClass (WsUpgrade TextState Unit) WsEnv (GateCallback WsClosing) WsClosing
    Unit WsUpgradeOut :=
  WsUpgrade.listenerClass sampleWsCode WsServer.smallSizes WsServer.quietApp

/-- A text frame with two bytes. -/
def sampleFrame : Bytes := [0x81, 0x82, 0, 0, 0, 0, 104, 105]

/-- A keepalive and a message, of which three bytes arrive before the callback goes on. -/
def sampleTlsEvents : List (TlsHandshakeEvent Unit Empty TcpClose World) :=
  [.sslHandshakeCompleted ⟨[], .suspends⟩ (), .conn (.chunk () (TcpListener.sampleStream.take 3)),
    .resume ⟨[], .returns⟩ (), .conn (.chunk () (TcpListener.sampleStream.drop 3))]

/-- The request and a frame, of which three bytes arrive before the first callback goes on and the others
before the second. -/
def sampleWssEvents : List (TlsHandshakeEvent WsEnv (GateCallback WsClosing) WsClosing Unit) :=
  let env : WsEnv := ⟨.running, ⟨[], .suspends⟩⟩
  [.sslHandshakeCompleted ⟨[], .suspends⟩ env,
    .conn (.chunk env (sampleHttpText ++ sampleFrame.take 3)), .resume ⟨[], .returns⟩ env,
    .conn (.chunk env (sampleFrame.drop 3)), .conn (.goOn ⟨[], .returns⟩)]

end OverSip
