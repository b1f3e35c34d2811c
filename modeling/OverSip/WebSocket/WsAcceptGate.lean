import OverSip.WebSocket.WsUpgrade

/-!
# The gates of a WebSocket connection

A `WssServer` has two gates: that of `on_client_tls_handshake` before its `WsServer`, and that of
`on_connection` before its framing, which begins with the bytes behind the HTTP request. A `WsServer` has
the second one.
-/

namespace OverSip

/-- The framing of a connection behind its gate. What is put out when it is closed is not seen. -/
def WsConnection.fed {α : Type} (cfg : WsConfig) (app : SipApp α) :
    Fed (WsConnection α) UInt8 Unit (ConnAct Empty WsClosing) α WsOut where
  feed := fun _ c data => c.receiveData cfg app data
  act := fun a c =>
    match a with
    | .close (.close args) => ((c.close args).1, [])
    | .close .closeConnection => (c, [])
    | .unbind => ({ c with state := .ignore }, [])
  change := fun a c => { c with app := a }

/-- What happens at the gate before the framing. -/
abbrev FramingEvent (α : Type) := GateEvent UInt8 Unit (ConnAct Empty WsClosing) α

namespace WsUpgrade

variable {η α : Type} {code : WsCode η} {cfg : WsConfig} {app : SipApp α} {s : WsUpgrade η α}

/-! ## The gate of `on_client_tls_handshake` -/

theorem close_args_of_ne (hs : s.state ≠ .established) (args : WsClose) :
    s.close (.close args) =
      ({ s with state := .ignore, localClosed := true }, [.closeConnectionAfterWriting]) :=
  if_neg hs

theorem close_args_of_established (hs : s.state = .established) (args : WsClose) :
    s.close (.close args) =
      ({ s with conn := (s.conn.close args).1, localClosed := true },
        (s.conn.close args).2.map closingOut) :=
  if_pos hs

theorem setIgnore_of_ne (hs : s.state ≠ .established) : s.setIgnore = { s with state := .ignore } :=
  if_neg hs

theorem state_close_of_ne (hs : s.state ≠ .established) (g : WsClosing) :
    (s.close g).1.state = s.state ∨ (s.close g).1.state = .ignore := by
  cases g with
  | closeConnection => exact .inl rfl
  | close args =>
    rw [close_args_of_ne hs]
    exact .inr rfl

/-- Closing leaves a fiber suspended, and sets `@local_closed`. -/
theorem close_spec (s : WsUpgrade η α) (g : WsClosing) :
    (s.close g).1.suspended = s.suspended ∧ (s.close g).1.localClosed = true := by
  cases g with
  | closeConnection => exact ⟨rfl, rfl⟩
  | close args =>
    by_cases hs : s.state = .established
    · rw [close_args_of_established hs]
      exact ⟨rfl, rfl⟩
    · rw [close_args_of_ne hs]
      exact ⟨rfl, rfl⟩

theorem suspended_setIgnore (s : WsUpgrade η α) : s.setIgnore.suspended = s.suspended := by
  unfold setIgnore
  split_ifs <;> rfl

theorem ne_established_of_deaf
    (h : s.state = .waitingForOnClientTlsHandshake ∨ s.state = .ignore) : s.state ≠ .established := by
  rcases h with h | h
  · simp [h]
  · simp [h]

/-- Until `on_client_tls_handshake` has returned, what arrives is only stored. -/
def holding (code : WsCode η) (cfg : WsConfig) (app : SipApp α) : Holding (listenerClass code cfg app) where
  push := push
  Fresh := fun s => s.state = .init ∧ s.suspended = false
  Deaf := fun s => s.state = .waitingForOnClientTlsHandshake ∨ s.state = .ignore
  Idle := fun s => s.suspended = false
  push_nil s := by
    unfold push WsConnection.push
    rw [List.append_nil]
  push_push s d e := by
    unfold push WsConnection.push
    rw [List.append_assoc]
  closed_wait _ := rfl
  closed_restart _ := rfl
  closed_push _ _ := rfl
  closed_close s g := by
    show ((s.close g).1.localClosed || _) = true
    rw [(close_spec s g).2]
    rfl
  closed_unbind s := Bool.or_true _
  closed_elsewhere _ _ := rfl
  receive_wait _ _ _ _ := rfl
  process_restart s env held hfresh := by
    have hstate : s.state = .init := hfresh.1
    have hagain : ({ ({ s with state := .waitingForOnClientTlsHandshake } : WsUpgrade η α).push held with
        state := .init } : WsUpgrade η α) = s.push held := by
      unfold push
      rw [← hstate]
    show processReceivedData code cfg app { ({ s with
      state := .waitingForOnClientTlsHandshake } : WsUpgrade η α).push held with state := .init } env =
        s.receiveData code cfg app env held
    unfold receiveData
    rw [hagain, hstate]
  elsewhere_wait _ _ _ := rfl
  fresh_elsewhere _ _ hfresh := hfresh
  receive_deaf s env d hdeaf := by
    show ∃ d', s.receiveData code cfg app env d = _
    unfold receiveData
    rcases hdeaf with hwait | hignore
    · rw [hwait]
      exact ⟨d, rfl⟩
    · rw [hignore]
      refine ⟨[], ?_⟩
      unfold push WsConnection.push
      rw [List.append_nil]
  deaf_wait _ := .inl rfl
  deaf_push _ _ hdeaf := hdeaf
  deaf_close s g hdeaf := by
    rcases state_close_of_ne (ne_established_of_deaf hdeaf) g with hsame | hignore
    · show (s.close g).1.state = _ ∨ (s.close g).1.state = _
      rw [hsame]
      exact hdeaf
    · exact .inr hignore
  deaf_unbind s hdeaf := by
    right
    show s.setIgnore.state = .ignore
    rw [setIgnore_of_ne (ne_established_of_deaf hdeaf)]
  deaf_elsewhere _ _ hdeaf := hdeaf
  goOn_idle s callback hidle := by
    have hsusp : s.suspended = false := hidle
    show s.resume code cfg app callback = _
    unfold resume
    rw [hsusp]
    rfl
  idle_fresh _ hfresh := hfresh.2
  idle_wait _ hidle := hidle
  idle_push _ _ hidle := hidle
  idle_close s g hidle := (close_spec s g).1.trans hidle
  idle_unbind s hidle := (suspended_setIgnore s).trans hidle
  idle_elsewhere _ _ hidle := hidle

/-! ## The request -/

/-- How `parse_http_headers` ends: it waits for more, gives up, or goes on with the request. -/
inductive HeadersEnd (code : WsCode η) (cfg : WsConfig) (app : SipApp α) (env : WsEnv)
    (s : WsUpgrade η α) : WsUpgrade η α × List WsUpgradeOut → Prop
  | waits (parser : MessageParser η) (nbytes : Option Nat) {o : List WsUpgradeOut} :
      (o = [] ∨ ∃ e, o = [.raise e]) →
      HeadersEnd code cfg app env s ({ s with parser, parserNbytes := nbytes }, o)
  | givesUp (parser : MessageParser η) (nbytes : Option Nat) {o : WsUpgradeOut} :
      (o = .closeConnection ∨ o = .closeConnectionAfterWriting) →
      HeadersEnd code cfg app env s
        ({ s with parser, parserNbytes := nbytes, state := .ignore, localClosed := true }, [o])
  | finished (parser : MessageParser η) (nbytes : Nat) :
      HeadersEnd code cfg app env s
        (({ s with
              parser, parserNbytes := some nbytes
              conn := { s.conn with buffer := s.conn.buffer.drop nbytes } } :
            WsUpgrade η α).checkHttpRequest code cfg app env)

theorem parseHttpHeaders_end (code : WsCode η) (cfg : WsConfig) (app : SipApp α) (s : WsUpgrade η α)
    (env : WsEnv) :
    HeadersEnd code cfg app env s (s.parseHttpHeaders code cfg app env) := by
  unfold parseHttpHeaders
  split_ifs with hnil
  · exact .waits s.parser s.parserNbytes (.inl rfl)
  · cases code.parser.execute s.parser s.conn.buffer s.parserNbytes with
    | error e => exact .waits s.parser s.parserNbytes (.inr ⟨e, rfl⟩)
    | ok r =>
      obtain ⟨parser, nbytes⟩ := r
      cases nbytes with
      | none => exact .givesUp parser none (.inr rfl)
      | some nbytes =>
        dsimp only
        split_ifs with hmax hfinished
        · exact .givesUp parser (some nbytes) (.inl rfl)
        · exact .waits parser (some nbytes) (.inl rfl)
        · exact .finished parser nbytes

theorem checkHttpRequest_of_some {env : WsEnv} {r : HttpRejection}
    (h : (s.request code).rejection env.status = some r) :
    s.checkHttpRequest code cfg app env = s.httpReject code r := by
  unfold checkHttpRequest
  rw [h]

theorem checkHttpRequest_of_none {env : WsEnv} (h : (s.request code).rejection env.status = none) :
    s.checkHttpRequest code cfg app env =
      ({ s with websocketProtocolNegotiated := (s.request code).hdrSecWebsocketProtocol.isSome } :
        WsUpgrade η α).doOnConnectionCallback code cfg app env.onConnection := by
  unfold checkHttpRequest
  rw [h]

theorem processReceivedData_of_init (h : s.state = .init) (env : WsEnv) :
    s.processReceivedData code cfg app env =
      ({ s with state := .httpHeaders, parser := code.parser.reset, parserNbytes := some 0 } :
        WsUpgrade η α).parseHttpHeaders code cfg app env := by
  unfold processReceivedData
  rw [h]

theorem processReceivedData_of_httpHeaders (h : s.state = .httpHeaders) (env : WsEnv) :
    s.processReceivedData code cfg app env = s.parseHttpHeaders code cfg app env := by
  unfold processReceivedData
  rw [h]

/-! ## The gate of `on_connection` -/

/-- What the framing puts out. -/
def seen : WsUpgradeOut → List WsOut
  | .framing o => [o]
  | _ => []

/-- What happens at the gate with an output, until the gate opens: the bytes behind the request arrive
and the callback runs; the connection closes itself. -/
def outEvents (callback : GateCallback WsClosing) :
    WsUpgradeOut → List (FramingEvent α)
  | .onConnection _ buffer => .chunk () buffer :: callback.gateEvents ()
  | .closeConnection => [.shuts]
  | .closeConnectionAfterWriting => [.shuts]
  | _ => []

/-- What happens at the gate when a chunk arrives: it is a part of the request, or stands behind it. -/
def chunkEvents (s : WsUpgrade η α) (env : WsEnv) (data : Bytes) (o : List WsUpgradeOut) :
    List (FramingEvent α) :=
  if s.state = .waitingForOnConnection ∨ s.state = .established then [.chunk () data]
  else o.flatMap (outEvents env.onConnection)

/-- What happens at the gate in a step. -/
def gateEvents (r : StepRec (WsUpgrade η α)
    (ConnEvent WsEnv (GateCallback WsClosing) WsClosing α) WsUpgradeOut) :
    List (FramingEvent α) :=
  match r.ev with
  | .chunk env data => r.pre.chunkEvents env data r.out
  | .goOn callback => if r.pre.suspended then callback.gateEvents () else []
  | .close g => [.shuts, .act (.close g)]
  | .unbind => [.shuts, .act .unbind]
  | .elsewhere a => [.change a]

/-- The connection has been closed, or unbound. -/
def closed (s : WsUpgrade η α) : Bool := s.localClosed || s.unbound

/-- The connection is where its gate is. -/
inductive AtGate (code : WsCode η) : WsUpgrade η α → GateState (WsConnection α) UInt8 → Prop
  /-- Before the end of the request. -/
  | early {s : WsUpgrade η α} : s.state ≠ .waitingForOnConnection → s.state ≠ .established →
      s.closed = false → s.suspended = false → AtGate code s (.waiting [] (.new s.conn.app))
  /-- The callback is suspended. -/
  | waiting {s : WsUpgrade η α} : s.state = .waitingForOnConnection → s.closed = false →
      s.suspended = true → (s.request code).hdrSecWebsocketKey ≠ none →
      AtGate code s (.waiting s.conn.buffer (.new s.conn.app))
  /-- The callback has returned. -/
  | opened {s : WsUpgrade η α} : s.state = .established → s.suspended = false →
      AtGate code s (.opened s.conn)
  /-- The connection was closed before. -/
  | shut {s : WsUpgrade η α} : s.state ≠ .established → s.closed = true → AtGate code s .shut

/-- What a method has done with the connection and what has happened to the gate belong together. -/
def Matches (code : WsCode η) (r : WsUpgrade η α × List WsUpgradeOut)
    (p : GateState (WsConnection α) UInt8 × List WsOut) : Prop :=
  AtGate code r.1 p.1 ∧ r.2.flatMap seen = p.2

theorem seen_map_framing (o : List WsOut) : (o.map WsUpgradeOut.framing).flatMap seen = o := by
  induction o with
  | nil => rfl
  | cons x o ih => rw [List.map_cons, List.flatMap_cons, ih]; rfl

theorem seen_close (s : WsUpgrade η α) (g : WsClosing) : (s.close g).2.flatMap seen = [] := by
  cases g with
  | closeConnection => rfl
  | close args =>
    by_cases hs : s.state = .established
    · rw [close_args_of_established hs, List.flatMap_map, List.flatMap_eq_nil_iff]
      intro o _
      cases o <;> rfl
    · rw [close_args_of_ne hs]
      rfl

theorem state_close_ne (hs : s.state ≠ .established) (g : WsClosing) :
    (s.close g).1.state ≠ .established := by
  rcases state_close_of_ne hs g with h | h
  · rwa [h]
  · rw [h]
    simp

theorem closed_of_localClosed (h : s.localClosed = true) : s.closed = true := by
  rw [closed, h]
  rfl

/-- The connection does not come to the framing any more, and nothing is seen. -/
structure Barred (r : WsUpgrade η α × List WsUpgradeOut) : Prop where
  state : r.1.state ≠ .established
  closed : r.1.closed = true
  seen : r.2.flatMap seen = []

theorem Barred.matches {r : WsUpgrade η α × List WsUpgradeOut} (h : Barred r) :
    Matches code r (.shut, []) :=
  ⟨.shut h.state h.closed, h.seen⟩

theorem barred_of_quiet (hs : s.state ≠ .established) (hclosed : s.closed = true) : Barred (s, []) :=
  ⟨hs, hclosed, rfl⟩

theorem Barred.after {r : WsUpgrade η α × List WsUpgradeOut} (h : Barred r) {o : List WsUpgradeOut}
    (ho : o.flatMap WsUpgrade.seen = []) : Barred (r.1, o ++ r.2) := by
  refine ⟨h.state, h.closed, ?_⟩
  rw [List.flatMap_append, ho, h.seen]
  rfl

/-- A connection that is closed, or whose callback closes it. -/
theorem barred_closeAll (hs : s.state ≠ .established) {gs : List WsClosing}
    (hclosed : s.closed = true ∨ gs ≠ []) : Barred (closeAll (fun g s => s.close g) s gs) := by
  induction gs generalizing s with
  | nil => exact barred_of_quiet hs (hclosed.resolve_right fun h => h rfl)
  | cons g gs ih =>
    have hnext : (s.close g).1.closed = true := closed_of_localClosed (close_spec s g).2
    exact (ih (state_close_ne hs g) (.inl hnext)).after (seen_close s g)

theorem barred_httpReject (hs : s.state ≠ .established) (r : HttpRejection) :
    Barred (s.httpReject code r) := by
  unfold httpReject
  rw [setIgnore_of_ne hs]
  exact ⟨by simp, closed_of_localClosed rfl, rfl⟩

theorem barred_runCallback {callback : GateCallback WsClosing} (hs : s.state ≠ .established)
    (hclosed : s.closed = true ∨ callback.closes ≠ []) :
    Barred (s.runCallback code cfg app callback) := by
  have hbarred := barred_closeAll hs hclosed
  unfold runCallback
  dsimp only
  cases hends : callback.ends with
  | suspends => exact ⟨hbarred.state, hbarred.closed, hbarred.seen⟩
  | raises => exact (barred_httpReject hbarred.state ⟨500, none, []⟩).after hbarred.seen
  | returns =>
    dsimp only
    rw [if_pos (show (_ || _) = true from hbarred.closed)]
    exact hbarred

theorem barred_checkHttpRequest (hs : s.state ≠ .established) (hclosed : s.closed = true)
    (env : WsEnv) : Barred (s.checkHttpRequest code cfg app env) := by
  cases hr : (s.request code).rejection env.status with
  | some r =>
    rw [checkHttpRequest_of_some hr]
    exact barred_httpReject hs r
  | none =>
    rw [checkHttpRequest_of_none hr]
    let s' : WsUpgrade η α := { s with
      websocketProtocolNegotiated := (s.request code).hdrSecWebsocketProtocol.isSome
      state := .waitingForOnConnection }
    have hbarred : Barred (s'.runCallback code cfg app env.onConnection) :=
      barred_runCallback (by simp [s']) (.inl hclosed)
    exact hbarred.after (o := [.onConnection (s.request code) s.conn.buffer]) rfl

theorem barred_parseHttpHeaders (hs : s.state ≠ .established) (hclosed : s.closed = true)
    (env : WsEnv) : Barred (s.parseHttpHeaders code cfg app env) := by
  have hend := parseHttpHeaders_end code cfg app s env
  generalize s.parseHttpHeaders code cfg app env = r at hend
  cases hend with
  | waits parser nbytes ho =>
    rcases ho with rfl | ⟨e, rfl⟩
    · exact ⟨hs, hclosed, rfl⟩
    · exact ⟨hs, hclosed, rfl⟩
  | givesUp parser nbytes ho =>
    rcases ho with rfl | rfl
    · exact ⟨by simp, closed_of_localClosed rfl, rfl⟩
    · exact ⟨by simp, closed_of_localClosed rfl, rfl⟩
  | finished parser nbytes =>
    exact barred_checkHttpRequest (s := { s with
      parser, parserNbytes := some nbytes
      conn := { s.conn with buffer := s.conn.buffer.drop nbytes } }) hs hclosed env

/-- A closed connection reads on, but does not come to the framing. -/
theorem barred_receiveData (hs : s.state ≠ .established) (hclosed : s.closed = true) (env : WsEnv)
    (data : Bytes) : Barred (s.receiveData code cfg app env data) := by
  unfold receiveData
  cases hstate : s.state with
  | init =>
    dsimp only
    rw [processReceivedData_of_init (show (s.push data).state = .init from hstate)]
    exact barred_parseHttpHeaders (s := { s.push data with
      state := .httpHeaders, parser := code.parser.reset, parserNbytes := some 0 }) (by simp) hclosed env
  | httpHeaders =>
    dsimp only
    rw [processReceivedData_of_httpHeaders (show (s.push data).state = .httpHeaders from hstate)]
    exact barred_parseHttpHeaders (s := s.push data) hs hclosed env
  | ignore => exact barred_of_quiet hs hclosed
  | waitingForOnClientTlsHandshake => exact ⟨hs, hclosed, rfl⟩
  | waitingForOnConnection => exact ⟨hs, hclosed, rfl⟩
  | established => exact absurd hstate hs

theorem receiveData_of_new (cfg : WsConfig) (app : SipApp α) (a : α) (buffer : Bytes) :
    ({ WsConnection.new a with buffer } : WsConnection α).receiveData cfg app [] =
      (WsConnection.new a).receiveData cfg app buffer := by
  unfold WsConnection.receiveData WsConnection.push WsConnection.new
  dsimp only
  rw [List.append_nil, List.nil_append]

/-- What the framing has put out does nothing to the gate. -/
theorem outEvents_map_framing (callback : GateCallback WsClosing) (o : List WsOut) :
    ((o.map WsUpgradeOut.framing).flatMap (outEvents callback) : List (FramingEvent α)) = [] := by
  rw [List.flatMap_map, List.flatMap_eq_nil_iff]
  exact fun _ _ => rfl

/-- `accept_ws_handshake` hands the buffer to the framing. -/
theorem acceptWsHandshake_spec (cfg : WsConfig) (app : SipApp α) (hsusp : s.suspended = false)
    (hkey : (s.request code).hdrSecWebsocketKey ≠ none) :
    Matches code (s.acceptWsHandshake code cfg app)
        ((WsConnection.fed cfg app).run (.waiting s.conn.buffer (.new s.conn.app)) [.opens ()]) ∧
      ∀ callback, ((s.acceptWsHandshake code cfg app).2.flatMap (outEvents callback) :
        List (FramingEvent α)) = [] := by
  obtain ⟨key, hkey⟩ := Option.ne_none_iff_exists'.mp hkey
  unfold acceptWsHandshake
  rw [hkey]
  dsimp only
  rw [receiveData_of_new]
  refine ⟨⟨.opened rfl hsusp, ?_⟩, fun callback => ?_⟩
  · rw [List.flatMap_cons, Fed.run_singleton]
    exact seen_map_framing _
  · rw [List.flatMap_cons]
    exact outEvents_map_framing callback _

/-- The callback does to the connection what its events do to the gate. What the connection does when it
closes itself, it does when the gate is shut. -/
theorem runCallback_spec (cfg : WsConfig) (app : SipApp α) {callback : GateCallback WsClosing}
    (hs : s.state = .waitingForOnConnection) (hopen : s.closed = false) (hsusp : s.suspended = false)
    (hkey : (s.request code).hdrSecWebsocketKey ≠ none) :
    Matches code (s.runCallback code cfg app callback) ((WsConnection.fed cfg app).run
        (.waiting s.conn.buffer (.new s.conn.app)) (callback.gateEvents ())) ∧
      (((s.runCallback code cfg app callback).2.flatMap (outEvents callback) :
          List (FramingEvent α)) = [] ∨
        ((WsConnection.fed cfg app).run (.waiting s.conn.buffer (.new s.conn.app))
          (callback.gateEvents ())).1 = .shut) := by
  have hne : s.state ≠ .established := by simp [hs]
  by_cases hcloses : callback.closes = []
  · unfold runCallback GateCallback.gateEvents
    rw [if_pos hcloses, hcloses, closeAll_nil, List.nil_append]
    dsimp only
    cases hends : callback.ends with
    | suspends => exact ⟨⟨.waiting hs hopen rfl hkey, rfl⟩, .inl rfl⟩
    | raises => exact ⟨(barred_httpReject hne ⟨500, none, []⟩).matches, .inr rfl⟩
    | returns =>
      obtain ⟨hmatch, hquiet⟩ := acceptWsHandshake_spec cfg app hsusp hkey
      dsimp only
      rw [show (s.localClosed || s.unbound) = false from hopen]
      exact ⟨hmatch, .inl (hquiet callback)⟩
  · have hrun : (WsConnection.fed cfg app).run (.waiting s.conn.buffer (.new s.conn.app))
        (callback.gateEvents ()) = (.shut, []) := by
      have hshut := callback.run_of_closes hcloses (WsConnection.fed cfg app) s.conn.buffer
        (.new s.conn.app) () []
      rwa [List.append_nil] at hshut
    rw [hrun]
    exact ⟨(barred_runCallback hne (.inr hcloses)).matches, .inr rfl⟩

/-- The bytes behind the request have arrived when the callback is called. -/
theorem doOnConnectionCallback_spec {callback : GateCallback WsClosing} (hopen : s.closed = false)
    (hsusp : s.suspended = false) (hkey : (s.request code).hdrSecWebsocketKey ≠ none) :
    Matches code (s.doOnConnectionCallback code cfg app callback) ((WsConnection.fed cfg app).run
      (.waiting [] (.new s.conn.app))
      ((s.doOnConnectionCallback code cfg app callback).2.flatMap (outEvents callback))) := by
  let s' : WsUpgrade η α := { s with state := .waitingForOnConnection }
  obtain ⟨⟨hat, hseen⟩, hquiet⟩ :=
    runCallback_spec cfg app (s := s') rfl hopen hsusp hkey
  have hevents : ((s.doOnConnectionCallback code cfg app callback).2.flatMap (outEvents callback) :
      List (FramingEvent α)) =
      .chunk () s.conn.buffer :: (callback.gateEvents () ++
        (s'.runCallback code cfg app callback).2.flatMap (outEvents callback)) := rfl
  have hrun : (WsConnection.fed cfg app).run (.waiting [] (.new s.conn.app))
      (.chunk () s.conn.buffer :: (callback.gateEvents () ++
        (s'.runCallback code cfg app callback).2.flatMap (outEvents callback))) =
      (WsConnection.fed cfg app).run (.waiting s'.conn.buffer (.new s'.conn.app))
        (callback.gateEvents ()) := by
    have hchunk : (WsConnection.fed cfg app).step (.waiting [] (.new s.conn.app))
        (.chunk () s.conn.buffer) = (.waiting s.conn.buffer (.new s.conn.app), []) := rfl
    rw [Fed.run, hchunk, Fed.run_append_of_quiet _ hquiet]
    rfl
  rw [hevents, hrun]
  exact ⟨hat, hseen⟩

theorem key_of_rejection {r : HttpRequest} {status : Status} (h : r.rejection status = none) :
    r.hdrSecWebsocketKey ≠ none := by
  unfold HttpRequest.rejection at h
  split at h
  · cases h
  · cases h
  · split_ifs at h
    assumption

/-- A request that is rejected shuts the gate, and another one calls the callback. -/
theorem checkHttpRequest_spec {env : WsEnv} (hs : s.state ≠ .established) (hopen : s.closed = false)
    (hsusp : s.suspended = false) :
    Matches code (s.checkHttpRequest code cfg app env) ((WsConnection.fed cfg app).run
      (.waiting [] (.new s.conn.app))
      ((s.checkHttpRequest code cfg app env).2.flatMap (outEvents env.onConnection))) := by
  cases hr : (s.request code).rejection env.status with
  | some r =>
    rw [checkHttpRequest_of_some hr]
    exact (barred_httpReject hs r).matches
  | none =>
    rw [checkHttpRequest_of_none hr]
    exact doOnConnectionCallback_spec hopen hsusp (key_of_rejection hr)

/-- The connection gives up before the end of the request. -/
theorem matches_of_giveUp {a : α} {o : WsUpgradeOut} {callback : GateCallback WsClosing}
    (hs : s.state = .ignore) (hclosed : s.localClosed = true)
    (ho : o = .closeConnection ∨ o = .closeConnectionAfterWriting) :
    Matches code (s, [o]) ((WsConnection.fed cfg app).run (.waiting [] (.new a))
      ([o].flatMap (outEvents callback))) := by
  have hat : AtGate code s .shut := .shut (by simp [hs]) (closed_of_localClosed hclosed)
  rcases ho with rfl | rfl
  · exact ⟨hat, rfl⟩
  · exact ⟨hat, rfl⟩

/-- The parser reads on, or ends with the request. -/
theorem parseHttpHeaders_spec {env : WsEnv} (hs : s.state = .httpHeaders) (hopen : s.closed = false)
    (hsusp : s.suspended = false) :
    Matches code (s.parseHttpHeaders code cfg app env) ((WsConnection.fed cfg app).run
      (.waiting [] (.new s.conn.app))
      ((s.parseHttpHeaders code cfg app env).2.flatMap (outEvents env.onConnection))) := by
  have hend := parseHttpHeaders_end code cfg app s env
  generalize s.parseHttpHeaders code cfg app env = r at hend
  cases hend with
  | waits parser nbytes ho =>
    have hat : AtGate code { s with parser, parserNbytes := nbytes } (.waiting [] (.new s.conn.app)) :=
      .early (by simp [hs]) (by simp [hs]) hopen hsusp
    rcases ho with rfl | ⟨e, rfl⟩
    · exact ⟨hat, rfl⟩
    · exact ⟨hat, rfl⟩
  | givesUp parser nbytes ho => exact matches_of_giveUp rfl rfl ho
  | finished parser nbytes =>
    exact checkHttpRequest_spec (s := { s with
      parser, parserNbytes := some nbytes
      conn := { s.conn with buffer := s.conn.buffer.drop nbytes } }) (by simp [hs]) hopen hsusp

theorem processReceivedData_spec {env : WsEnv} (hs : s.state = .init ∨ s.state = .httpHeaders)
    (hopen : s.closed = false) (hsusp : s.suspended = false) :
    Matches code (s.processReceivedData code cfg app env) ((WsConnection.fed cfg app).run
      (.waiting [] (.new s.conn.app))
      ((s.processReceivedData code cfg app env).2.flatMap (outEvents env.onConnection))) := by
  rcases hs with hs | hs
  · rw [processReceivedData_of_init hs]
    exact parseHttpHeaders_spec (s := { s with
      state := .httpHeaders, parser := code.parser.reset, parserNbytes := some 0 }) rfl hopen hsusp
  · rw [processReceivedData_of_httpHeaders hs]
    exact parseHttpHeaders_spec hs hopen hsusp

/-! ## Steps -/

variable {g : GateState (WsConnection α) UInt8}

/-- A chunk is a part of the request, is stored, or goes to the framing. -/
theorem receiveData_spec (hat : AtGate code s g) (env : WsEnv) (data : Bytes) :
    Matches code (s.receiveData code cfg app env data) ((WsConnection.fed cfg app).run g
      (s.chunkEvents env data (s.receiveData code cfg app env data).2)) := by
  cases hat with
  | early hwait hest hopen hsusp =>
    unfold chunkEvents
    rw [if_neg (by simp [hwait, hest])]
    unfold receiveData
    cases hs : s.state with
    | init => exact processReceivedData_spec (s := s.push data) (.inl hs) hopen hsusp
    | httpHeaders => exact processReceivedData_spec (s := s.push data) (.inr hs) hopen hsusp
    | ignore => exact ⟨.early hwait hest hopen hsusp, rfl⟩
    | waitingForOnClientTlsHandshake => exact ⟨.early hwait hest hopen hsusp, rfl⟩
    | waitingForOnConnection => exact absurd hs hwait
    | established => exact absurd hs hest
  | waiting hs hopen hsusp hkey =>
    unfold chunkEvents receiveData
    rw [if_pos (.inl hs), hs, Fed.run_singleton]
    exact ⟨.waiting hs hopen hsusp hkey, rfl⟩
  | opened hs hsusp =>
    unfold chunkEvents receiveData
    rw [if_pos (.inr hs), hs, Fed.run_singleton]
    exact ⟨.opened hs hsusp, seen_map_framing _⟩
  | shut hs hclosed =>
    rw [Fed.run_shut]
    exact (barred_receiveData hs hclosed env data).matches

/-- The suspended callback goes on. -/
theorem resume_spec (hat : AtGate code s g) (callback : GateCallback WsClosing) :
    Matches code (s.resume code cfg app callback) ((WsConnection.fed cfg app).run g
      (if s.suspended then callback.gateEvents () else [])) := by
  have hidle : ∀ {s : WsUpgrade η α} {g : GateState (WsConnection α) UInt8}, AtGate code s g →
      s.suspended = false → Matches code (s.resume code cfg app callback) ((WsConnection.fed cfg app).run g
        (if s.suspended then callback.gateEvents () else [])) := by
    intro s g hat hsusp
    unfold resume
    rw [hsusp]
    exact ⟨hat, rfl⟩
  cases hsusp : s.suspended with
  | false =>
    have := hidle hat hsusp
    rwa [hsusp] at this
  | true =>
    unfold resume
    rw [hsusp, if_pos rfl, if_pos rfl]
    cases hat with
    | early _ _ _ hnot => exact absurd (hnot.symm.trans hsusp) Bool.false_ne_true
    | waiting hs hopen _ hkey =>
      exact (runCallback_spec cfg app (s := { s with suspended := false }) hs hopen rfl hkey).1
    | opened _ hnot => exact absurd (hnot.symm.trans hsusp) Bool.false_ne_true
    | shut hs hclosed =>
      rw [Fed.run_shut]
      exact (barred_runCallback (s := { s with suspended := false }) hs (.inl hclosed)).matches

/-- The program closes the connection, which shuts the gate unless it has opened. -/
theorem close_matches (hat : AtGate code s g) (c : WsClosing) :
    Matches code (s.close c) ((WsConnection.fed cfg app).run g [.shuts, .act (.close c)]) := by
  have hclosed : (s.close c).1.closed = true := closed_of_localClosed (close_spec s c).2
  cases hat with
  | early _ hest _ _ => exact ⟨.shut (state_close_ne hest c) hclosed, seen_close s c⟩
  | waiting hs _ _ _ => exact ⟨.shut (state_close_ne (by simp [hs]) c) hclosed, seen_close s c⟩
  | opened hs hsusp =>
    cases c with
    | closeConnection => exact ⟨.opened hs hsusp, rfl⟩
    | close args =>
      have hseen := seen_close s (.close args)
      rw [close_args_of_established hs] at hseen ⊢
      exact ⟨.opened hs hsusp, hseen⟩
  | shut hs _ => exact ⟨.shut (state_close_ne hs c) hclosed, seen_close s c⟩

theorem unbind_matches (hat : AtGate code s g) :
    Matches code ({ s.setIgnore with unbound := true }, []) ((WsConnection.fed cfg app).run g
      [.shuts, .act .unbind]) := by
  have hshut : s.state ≠ .established → Matches code ({ s.setIgnore with unbound := true }, [])
      (.shut, []) := by
    intro hs
    refine ⟨.shut ?_ (Bool.or_true _), rfl⟩
    rw [setIgnore_of_ne hs]
    simp
  cases hat with
  | early _ hest _ _ => exact hshut hest
  | waiting hs _ _ _ => exact hshut (by simp [hs])
  | opened hs hsusp =>
    unfold setIgnore
    rw [if_pos hs]
    exact ⟨.opened hs hsusp, rfl⟩
  | shut hs _ => exact hshut hs

theorem elsewhere_matches (hat : AtGate code s g) (a : α) :
    Matches code ({ s with conn := { s.conn with app := a } }, []) ((WsConnection.fed cfg app).run g
      [.change a]) := by
  cases hat with
  | early hwait hest hopen hsusp => exact ⟨.early hwait hest hopen hsusp, rfl⟩
  | waiting hs hopen hsusp hkey => exact ⟨.waiting hs hopen hsusp hkey, rfl⟩
  | opened hs hsusp => exact ⟨.opened hs hsusp, rfl⟩
  | shut hs hclosed => exact ⟨.shut hs hclosed, rfl⟩

/-- **The gate before the framing.** In a run of a new connection without TLS, what is seen of the framing
behaves as behind the gate of `on_connection`. -/
theorem behaves {a : α} {tr : List (StepRec (WsUpgrade η α)
      (ConnEvent WsEnv (GateCallback WsClosing) WsClosing α) WsUpgradeOut)}
    (hrun : Run (listenerClass code cfg app).step (.new code a) tr s) :
    (WsConnection.fed cfg app).Behaves (.new a) (tr.flatMap gateEvents) ((outputs tr).flatMap seen) := by
  have hstart : AtGate code (.new code a) (.waiting [] (.new a)) :=
    .early (by simp [new]) (by simp [new]) rfl rfl
  have hstep : ∀ s e s' o g, AtGate code s g →
      (listenerClass code cfg app).step s e = some (s', o) →
      AtGate code s' ((WsConnection.fed cfg app).run g (gateEvents ⟨s, e, o, s'⟩)).1 ∧
        o.flatMap seen = ((WsConnection.fed cfg app).run g (gateEvents ⟨s, e, o, s'⟩)).2 := by
    intro s e s' o g hat hs
    cases e with
    | chunk env data =>
      dsimp only [ListenerClass.step] at hs
      split at hs
      · cases hs
      · obtain ⟨rfl, rfl⟩ := Prod.ext_iff.mp (Option.some.inj hs)
        exact receiveData_spec hat env data
    | goOn callback =>
      obtain ⟨rfl, rfl⟩ := Prod.ext_iff.mp (Option.some.inj hs)
      exact resume_spec hat callback
    | close c =>
      obtain ⟨rfl, rfl⟩ := Prod.ext_iff.mp (Option.some.inj hs)
      exact close_matches hat c
    | unbind =>
      dsimp only [ListenerClass.step] at hs
      split at hs
      · cases hs
      · obtain ⟨rfl, rfl⟩ := Prod.ext_iff.mp (Option.some.inj hs)
        exact unbind_matches hat
    | elsewhere a =>
      obtain ⟨rfl, rfl⟩ := Prod.ext_iff.mp (Option.some.inj hs)
      exact elsewhere_matches hat a
  obtain ⟨_, hseen⟩ := (WsConnection.fed cfg app).seen_of_run gateEvents seen hstep hstart hrun
  rw [hseen]
  exact (WsConnection.fed cfg app).behaves_run _ _

end WsUpgrade

end OverSip
