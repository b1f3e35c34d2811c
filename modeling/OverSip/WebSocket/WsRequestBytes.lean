import OverSip.WebSocket.WsAcceptGate

/-!
# The bytes of the HTTP request

`on_connection` is called for the request that the parser reads from the start of the stream, and the bytes
in the buffer are those behind it (`isBehind_receiveData`): the buffer is the whole stream as long as the
request is not finished, and the parser goes on where it stopped.
-/

namespace OverSip

namespace WsUpgrade

variable {η α : Type} {code : WsCode η} {cfg : WsConfig} {app : SipApp α} {s : WsUpgrade η α}
  {stream data : Bytes}

/-- The parser reads the request from the start of the stream, and `rest` stands behind it. -/
def IsBehind (code : WsCode η) (stream : Bytes) (request : HttpRequest) (rest : Bytes) : Prop :=
  ∃ cs n, code.parser.automaton.read code.parser.automaton.start stream = (cs, n) ∧
    code.parser.automaton.failed cs = false ∧ code.parser.automaton.done cs = true ∧
      code.parser.request cs = request ∧ stream.drop n = rest

/-- The requests for which `on_connection` is called, with the bytes behind them. -/
def IsCalled (code : WsCode η) (stream : Bytes) (o : List WsUpgradeOut) : Prop :=
  ∀ request rest, .onConnection request rest ∈ o → IsBehind code stream request rest

/-- The state after the request, or after an end before. -/
def IsOver (s : WsUpgrade η α) : Prop :=
  s.state = .waitingForOnConnection ∨ s.state = .established ∨ s.state = .ignore ∧ s.closed = true

/-- What the connection has made of the stream so far. -/
inductive Collected (code : WsCode η) (stream : Bytes) (s : WsUpgrade η α) : Prop
  /-- Nothing. -/
  | fresh : s.state = .init ∨ s.state = .waitingForOnClientTlsHandshake → s.conn.buffer = stream →
      s.suspended = false → Collected code stream s
  /-- The parser has read all of it. -/
  | reading : s.state = .httpHeaders → s.conn.buffer = stream →
      s.parserNbytes = some s.parser.nread → s.parser.nread = stream.length →
      (∀ more, code.parser.automaton.read code.parser.automaton.start (stream ++ more) =
        ((code.parser.automaton.read s.parser.cs more).1,
          stream.length + (code.parser.automaton.read s.parser.cs more).2)) →
      s.suspended = false → Collected code stream s
  /-- The request is finished, or the connection closed. -/
  | ended : s.IsOver → Collected code stream s

/-- Something else than the call of `on_connection`. -/
def isOther : WsUpgradeOut → Bool
  | .onConnection _ _ => false
  | _ => true

theorem isCalled_of_other {o : List WsUpgradeOut} (h : ∀ x ∈ o, isOther x = true) :
    IsCalled code stream o :=
  fun _ _ hmem => absurd (h _ hmem) (by simp [isOther])

theorem isOver_close (h : s.IsOver) (g : WsClosing) : (s.close g).1.IsOver := by
  cases g with
  | closeConnection =>
    rcases h with hs | hs | ⟨hs, _⟩
    · exact .inl hs
    · exact .inr (.inl hs)
    · exact .inr (.inr ⟨hs, closed_of_localClosed rfl⟩)
  | close args =>
    by_cases hs : s.state = .established
    · rw [close_args_of_established hs]
      exact .inr (.inl hs)
    · rw [close_args_of_ne hs]
      exact .inr (.inr ⟨rfl, closed_of_localClosed rfl⟩)

theorem isOther_close (s : WsUpgrade η α) (g : WsClosing) : ∀ x ∈ (s.close g).2, isOther x = true := by
  cases g with
  | closeConnection => simp [close, isOther]
  | close args =>
    by_cases hs : s.state = .established
    · rw [close_args_of_established hs]
      intro x hx
      obtain ⟨o, _, rfl⟩ := List.mem_map.mp hx
      cases o <;> rfl
    · rw [close_args_of_ne hs]
      simp [isOther]

theorem isOther_closeAll (s : WsUpgrade η α) (gs : List WsClosing) :
    ∀ x ∈ (closeAll (fun g s => s.close g) s gs).2, isOther x = true := by
  induction gs generalizing s with
  | nil => simp
  | cons g gs ih => exact List.forall_mem_append.mpr ⟨isOther_close s g, ih _⟩

/-- `http_reject` ends the request. -/
theorem httpReject_over (code : WsCode η) (s : WsUpgrade η α) (r : HttpRejection) :
    (s.httpReject code r).1.IsOver ∧ ∀ x ∈ (s.httpReject code r).2, isOther x = true := by
  refine ⟨?_, by simp [httpReject, reply, isOther]⟩
  unfold httpReject setIgnore
  split_ifs with hs
  · exact .inr (.inl hs)
  · exact .inr (.inr ⟨rfl, closed_of_localClosed rfl⟩)

/-- A callback ends with the connection accepted, waiting or closed. -/
theorem runCallback_over (code : WsCode η) (cfg : WsConfig) (app : SipApp α) (h : s.IsOver)
    (callback : GateCallback WsClosing) :
    (s.runCallback code cfg app callback).1.IsOver ∧
      ∀ x ∈ (s.runCallback code cfg app callback).2, isOther x = true := by
  have hover := closeAll_of_close (P := IsOver) (fun s g hs => isOver_close hs g) h callback.closes
  have hother := isOther_closeAll s callback.closes
  unfold runCallback
  dsimp only
  cases callback.ends with
  | suspends => exact ⟨hover, hother⟩
  | raises =>
    obtain ⟨hreject, hreply⟩ :=
      httpReject_over code (closeAll (fun g s => s.close g) s callback.closes).1 ⟨500, none, []⟩
    exact ⟨hreject, List.forall_mem_append.mpr ⟨hother, hreply⟩⟩
  | returns =>
    dsimp only
    split_ifs
    · exact ⟨hover, hother⟩
    · unfold acceptWsHandshake
      split
      · obtain ⟨hreject, hreply⟩ :=
          httpReject_over code (closeAll (fun g s => s.close g) s callback.closes).1 ⟨500, none, []⟩
        exact ⟨hreject, List.forall_mem_append.mpr ⟨hother, hreply⟩⟩
      · refine ⟨.inr (.inl rfl), List.forall_mem_append.mpr ⟨hother, List.forall_mem_cons.mpr ⟨rfl, ?_⟩⟩⟩
        intro x hx
        obtain ⟨o, _, rfl⟩ := List.mem_map.mp hx
        rfl

/-- What a method makes of the stream. -/
def Keeps (code : WsCode η) (stream : Bytes) (r : WsUpgrade η α × List WsUpgradeOut) : Prop :=
  Collected code stream r.1 ∧ IsCalled code stream r.2

theorem keeps_checkHttpRequest {env : WsEnv}
    (h : IsBehind code stream (s.request code) s.conn.buffer) :
    Keeps code stream (s.checkHttpRequest code cfg app env) := by
  cases hr : (s.request code).rejection env.status with
  | some r =>
    rw [checkHttpRequest_of_some hr]
    obtain ⟨hover, hother⟩ := httpReject_over code s r
    exact ⟨.ended hover, isCalled_of_other hother⟩
  | none =>
    rw [checkHttpRequest_of_none hr]
    let s' : WsUpgrade η α := { s with
      websocketProtocolNegotiated := (s.request code).hdrSecWebsocketProtocol.isSome
      state := .waitingForOnConnection }
    obtain ⟨hover, hother⟩ : (s'.runCallback code cfg app env.onConnection).1.IsOver ∧
        ∀ x ∈ (s'.runCallback code cfg app env.onConnection).2, isOther x = true :=
      runCallback_over code cfg app (.inl rfl) env.onConnection
    refine ⟨.ended hover, fun request rest hmem => ?_⟩
    rcases List.mem_cons.mp hmem with heq | hmem
    · cases heq
      exact h
    · exact absurd (hother _ hmem) (by simp [isOther])

/-- The parser goes on with the new bytes. -/
theorem keeps_parseHttpHeaders {env : WsEnv} (hs : s.state = .httpHeaders)
    (hbuffer : s.conn.buffer = stream ++ data) (hnbytes : s.parserNbytes = some s.parser.nread)
    (hnread : s.parser.nread = stream.length)
    (hread : ∀ more, code.parser.automaton.read code.parser.automaton.start (stream ++ more) =
      ((code.parser.automaton.read s.parser.cs more).1,
        stream.length + (code.parser.automaton.read s.parser.cs more).2))
    (hsusp : s.suspended = false) :
    Keeps code (stream ++ data) (s.parseHttpHeaders code cfg app env) := by
  unfold parseHttpHeaders HttpParser.execute
  rw [hnbytes]
  by_cases hdata : data = []
  · -- nothing has arrived: the parser is not called, or raises
    subst hdata
    rw [List.append_nil] at hbuffer ⊢
    have hkeep : Collected code stream s := .reading hs hbuffer hnbytes hnread hread hsusp
    split_ifs with hnil
    · exact ⟨hkeep, by simp [IsCalled]⟩
    · dsimp only
      rw [if_pos (Nat.le_of_eq (by rw [hbuffer, hnread]))]
      exact ⟨hkeep, by simp [IsCalled]⟩
  · have hne : s.conn.buffer ≠ [] := by
      rw [hbuffer]
      exact fun h => hdata (List.append_eq_nil_iff.mp h).2
    have hlong : ¬ s.conn.buffer.length ≤ s.parser.nread := by
      have hpos := List.length_pos_of_ne_nil hdata
      rw [hbuffer, hnread, List.length_append]
      omega
    have hdrop : s.conn.buffer.drop s.parser.nread = data := by
      rw [hbuffer, hnread, List.drop_left]
    rw [if_neg hne]
    dsimp only
    rw [if_neg hlong, hdrop]
    obtain ⟨cs, n, hr⟩ : ∃ cs n, code.parser.automaton.read s.parser.cs data = (cs, n) := ⟨_, _, rfl⟩
    have hwhole := hread data
    rw [hr] at hwhole ⊢
    dsimp only at hwhole ⊢
    cases hfailed : code.parser.automaton.failed cs with
    | true => exact ⟨.ended (.inr (.inr ⟨rfl, closed_of_localClosed rfl⟩)), isCalled_of_other (by simp [isOther])⟩
    | false =>
      simp only [Bool.false_eq_true, if_false]
      split_ifs with hmax hfinished
      · exact ⟨.ended (.inr (.inr ⟨rfl, closed_of_localClosed rfl⟩)), isCalled_of_other (by simp [isOther])⟩
      · -- the parser has read all the bytes and runs on
        have hrunning : ¬ code.parser.automaton.Stopped (code.parser.automaton.read s.parser.cs data).1 := by
          rw [hr]
          rintro (h | h)
          · exact absurd (hfailed.symm.trans h) (by simp)
          · exact absurd (Eq.symm hfinished |>.trans h) (by simp)
        have hn : n = data.length := by
          have hall := Automaton.read_of_running hrunning
          rwa [hr] at hall
        refine ⟨.reading hs hbuffer rfl ?_ (fun more => ?_) hsusp, by simp [IsCalled]⟩
        · show s.parser.nread + n = _
          rw [hnread, hn, List.length_append]
        · have happend : code.parser.automaton.read s.parser.cs (data ++ more) = _ :=
            Automaton.read_append_of_running hrunning
          rw [hr] at happend
          rw [List.append_assoc, hread, happend, List.length_append, Nat.add_assoc]
      · refine keeps_checkHttpRequest ⟨cs, _, hwhole, hfailed, ?_, rfl, ?_⟩
        · simpa [HttpParser.finished] using hfinished
        · show _ = s.conn.buffer.drop (s.parser.nread + n)
          rw [hbuffer, hnread]

theorem keeps_of_init {env : WsEnv} (hs : s.state = .init) (hbuffer : s.conn.buffer = stream)
    (hsusp : s.suspended = false) :
    Keeps code stream (s.processReceivedData code cfg app env) := by
  rw [processReceivedData_of_init hs]
  have hread : ∀ more, code.parser.automaton.read code.parser.automaton.start ([] ++ more) =
      ((code.parser.automaton.read code.parser.reset.cs more).1,
        ([] : Bytes).length + (code.parser.automaton.read code.parser.reset.cs more).2) := fun more => by
    simp [HttpParser.reset]
  have hbuffer' : s.conn.buffer = [] ++ stream := hbuffer
  exact keeps_parseHttpHeaders (s := { s with
    state := .httpHeaders, parser := code.parser.reset, parserNbytes := some 0 }) rfl hbuffer' rfl rfl
    hread hsusp

/-- A chunk goes on with the request, or stands behind it. -/
theorem keeps_receiveData (h : Collected code stream s) (env : WsEnv) (data : Bytes) :
    Keeps code (stream ++ data) (s.receiveData code cfg app env data) := by
  unfold receiveData
  cases h with
  | fresh hs hbuffer hsusp =>
    have hpush : (s.push data).conn.buffer = stream ++ data := by
      show s.conn.buffer ++ data = _
      rw [hbuffer]
    rcases hs with hs | hs
    · rw [hs]
      exact keeps_of_init (s := s.push data) hs hpush hsusp
    · rw [hs]
      exact ⟨.fresh (.inr hs) hpush hsusp, by simp [IsCalled]⟩
  | reading hs hbuffer hnbytes hnread hread hsusp =>
    rw [hs]
    dsimp only
    rw [processReceivedData_of_httpHeaders (show (s.push data).state = .httpHeaders from hs)]
    refine keeps_parseHttpHeaders (s := s.push data) hs ?_ hnbytes hnread hread hsusp
    show s.conn.buffer ++ data = _
    rw [hbuffer]
  | ended hover =>
    rcases hover with hs | hs | ⟨hs, hclosed⟩
    · rw [hs]
      exact ⟨.ended (.inl hs), by simp [IsCalled]⟩
    · rw [hs]
      refine ⟨.ended (.inr (.inl hs)), isCalled_of_other fun x hx => ?_⟩
      obtain ⟨o, _, rfl⟩ := List.mem_map.mp hx
      rfl
    · rw [hs]
      exact ⟨.ended (.inr (.inr ⟨hs, hclosed⟩)), by simp [IsCalled]⟩

theorem Collected.close (h : Collected code stream s) (g : WsClosing) :
    Collected code stream (s.close g).1 := by
  cases h with
  | ended hover => exact .ended (isOver_close hover g)
  | fresh hs hbuffer hsusp =>
    cases g with
    | closeConnection => exact .fresh hs hbuffer hsusp
    | close args =>
      rw [close_args_of_ne (by rcases hs with hs | hs <;> simp [hs])]
      exact .ended (.inr (.inr ⟨rfl, closed_of_localClosed rfl⟩))
  | reading hs hbuffer hnbytes hnread hread hsusp =>
    cases g with
    | closeConnection => exact .reading hs hbuffer hnbytes hnread hread hsusp
    | close args =>
      rw [close_args_of_ne (by simp [hs])]
      exact .ended (.inr (.inr ⟨rfl, closed_of_localClosed rfl⟩))

theorem collected_unbind (code : WsCode η) (stream : Bytes) (s : WsUpgrade η α) :
    Collected code stream ({ s.setIgnore with unbound := true } : WsUpgrade η α) := by
  refine .ended ?_
  unfold setIgnore
  split_ifs with hs
  · exact .inr (.inl hs)
  · exact .inr (.inr ⟨rfl, Bool.or_true _⟩)

theorem Collected.elsewhere (h : Collected code stream s) (a : α) :
    Collected code stream ({ s with conn := { s.conn with app := a } } : WsUpgrade η α) := by
  cases h with
  | fresh hs hbuffer hsusp => exact .fresh hs hbuffer hsusp
  | reading hs hbuffer hnbytes hnread hread hsusp =>
    exact .reading hs hbuffer hnbytes hnread hread hsusp
  | ended hover => exact .ended hover

/-- The suspended callback goes on behind the request. -/
theorem keeps_resume (h : Collected code stream s) (callback : GateCallback WsClosing) :
    Keeps code stream (s.resume code cfg app callback) := by
  unfold resume
  split_ifs with hsusp
  · cases h with
    | fresh _ _ hnot => exact absurd (hnot.symm.trans hsusp) (by simp)
    | reading _ _ _ _ _ hnot => exact absurd (hnot.symm.trans hsusp) (by simp)
    | ended hover =>
      obtain ⟨hover', hother⟩ := runCallback_over code cfg app
        (s := { s with suspended := false }) hover callback
      exact ⟨.ended hover', isCalled_of_other hother⟩
  · exact ⟨h, by simp [IsCalled]⟩

end WsUpgrade

/-- The data that arrives by an event. -/
def ConnEvent.data {κ ε γ τ : Type} : ConnEvent κ ε γ τ → Bytes
  | .chunk _ data => data
  | _ => []

def TlsHandshakeEvent.data {κ ε γ τ : Type} : TlsHandshakeEvent κ ε γ τ → Bytes
  | .conn e => e.data
  | _ => []

namespace WsUpgrade

variable {η α : Type} {code : WsCode η} {cfg : WsConfig} {app : SipApp α} {s : WsUpgrade η α}

/-- The stream that a connection has received. -/
def received (tr : List (StepRec (WsUpgrade η α)
    (ConnEvent WsEnv (GateCallback WsClosing) WsClosing α) WsUpgradeOut)) : Bytes :=
  tr.flatMap (·.ev.data)

theorem keeps_step {stream : Bytes} (h : Collected code stream s)
    {e : ConnEvent WsEnv (GateCallback WsClosing) WsClosing α} {p : WsUpgrade η α × List WsUpgradeOut}
    (hstep : (listenerClass code cfg app).step s e = some p) : Keeps code (stream ++ e.data) p := by
  cases e with
  | chunk env data =>
    dsimp only [ListenerClass.step] at hstep
    split at hstep
    · cases hstep
    · obtain rfl := Option.some.inj hstep
      exact keeps_receiveData h env data
  | goOn callback =>
    obtain rfl := Option.some.inj hstep
    rw [show ConnEvent.data _ = [] from rfl, List.append_nil]
    exact keeps_resume h callback
  | close g =>
    obtain rfl := Option.some.inj hstep
    rw [show ConnEvent.data _ = [] from rfl, List.append_nil]
    exact ⟨h.close g, isCalled_of_other (isOther_close s g)⟩
  | unbind =>
    dsimp only [ListenerClass.step] at hstep
    split at hstep
    · cases hstep
    · obtain rfl := Option.some.inj hstep
      exact ⟨collected_unbind code _ s, by simp [IsCalled]⟩
  | elsewhere a =>
    obtain rfl := Option.some.inj hstep
    rw [show ConnEvent.data _ = [] from rfl, List.append_nil]
    exact ⟨h.elsewhere a, by simp [IsCalled]⟩

theorem collected_of_run {a : α} {tr : List (StepRec (WsUpgrade η α)
      (ConnEvent WsEnv (GateCallback WsClosing) WsClosing α) WsUpgradeOut)}
    (hrun : Run (listenerClass code cfg app).step (.new code a) tr s) :
    Collected code (received tr) s := by
  induction hrun with
  | nil => exact .fresh (.inl rfl) rfl rfl
  | @snoc tr s s' e o _ hstep ih =>
    have hkeeps := keeps_step ih hstep
    unfold received at *
    rw [List.flatMap_append, List.flatMap_singleton]
    exact hkeeps.1

/-- **The bytes behind the request.** In every step of a run, `on_connection` is called for the request at
the start of the stream, with the bytes behind it in the buffer. -/
theorem isCalled_of_run {a : α} {tr₁ tr₂ : List (StepRec (WsUpgrade η α)
      (ConnEvent WsEnv (GateCallback WsClosing) WsClosing α) WsUpgradeOut)}
    {r : StepRec (WsUpgrade η α) (ConnEvent WsEnv (GateCallback WsClosing) WsClosing α) WsUpgradeOut}
    (hrun : Run (listenerClass code cfg app).step (.new code a) (tr₁ ++ r :: tr₂) s) :
    IsCalled code (received (tr₁ ++ [r])) r.out := by
  obtain ⟨hbefore, hstep, _⟩ := hrun.of_middle
  have hkeeps := keeps_step (collected_of_run hbefore) hstep
  unfold received at *
  rw [List.flatMap_append, List.flatMap_singleton]
  exact hkeeps.2

end WsUpgrade

end OverSip
