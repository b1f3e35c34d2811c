import OverSip.WebSocket.WsLaterBytes

/-!
# A WebSocket stream in chunks

What a `WsServer` makes of a stream, from the HTTP request on. `atOnce` is the connection that receives the
stream in one chunk and then goes on with the suspended callback. A connection that receives the stream in
chunks comes to the same (`Tracks.receiveData`), until a chunk arrives while its loop has stalled: what it
looks at then is not looked at in one chunk (`Tracks.diverged`).
-/

namespace OverSip

namespace WsUpgrade

variable {η α : Type} {code : WsCode η} {cfg : WsConfig} {app : SipApp α} {env : WsEnv}
  {s t u : WsUpgrade η α} {d e stream : Bytes} {o : List WsUpgradeOut}
  {r r' : WsUpgrade η α × List WsUpgradeOut}

/-! ## The request -/

/-- The connection that has read `stream`, `n` bytes of it for the request. -/
def reading (a : α) (buffer : Bytes) (cs : η) (n : Nat) (code : WsCode η) : WsUpgrade η α :=
  { new code a with
    state := .httpHeaders
    parser := { cs, nread := n }
    parserNbytes := some n
    conn := { WsConnection.new a with buffer } }

/-- What becomes of the stream when the parser has read `n` bytes of it. -/
def afterRead (code : WsCode η) (cfg : WsConfig) (app : SipApp α) (env : WsEnv) (a : α) (stream : Bytes)
    (cs : η) (n : Nat) : WsUpgrade η α × List WsUpgradeOut :=
  if code.parser.automaton.failed cs then
    ({ reading a stream cs n code with parserNbytes := none, state := .ignore, localClosed := true },
      [.closeConnectionAfterWriting])
  else if HTTP_HEADERS_MAX_SIZE < n then
    ({ reading a stream cs n code with state := .ignore, localClosed := true }, [.closeConnection])
  else if code.parser.automaton.done cs = false then (reading a stream cs n code, [])
  else (reading a (stream.drop n) cs n code).checkHttpRequest code cfg app env

theorem execute_append (code : WsCode η) (stream : Bytes) (cs : η) (hd : d ≠ []) {cs' : η} {n : Nat}
    (hr : code.parser.automaton.read cs d = (cs', n)) :
    code.parser.execute { cs, nread := stream.length } (stream ++ d) (some stream.length) =
      .ok ({ cs := cs', nread := stream.length + n },
        if code.parser.automaton.failed cs' then none else some (stream.length + n)) := by
  have hlong : ¬ (stream ++ d).length ≤ stream.length := by
    have hpos := List.length_pos_of_ne_nil hd
    rw [List.length_append]
    omega
  unfold HttpParser.execute
  dsimp only
  rw [if_neg hlong, List.drop_left, hr]

/-- The parser goes on with a chunk. -/
theorem receiveData_reading (code : WsCode η) (cfg : WsConfig) (app : SipApp α) (env : WsEnv) (a : α)
    (stream : Bytes) (cs : η) (hd : d ≠ []) :
    (reading a stream cs stream.length code).receiveData code cfg app env d =
      afterRead code cfg app env a (stream ++ d) (code.parser.automaton.read cs d).1
        (stream.length + (code.parser.automaton.read cs d).2) := by
  obtain ⟨cs', n, hr⟩ : ∃ cs' n, code.parser.automaton.read cs d = (cs', n) := ⟨_, _, rfl⟩
  have hne : (reading a (stream ++ d) cs stream.length code).conn.buffer ≠ [] :=
    fun h => hd (List.append_eq_nil_iff.mp h).2
  have hexec : code.parser.execute (reading a (stream ++ d) cs stream.length code).parser
      (reading a (stream ++ d) cs stream.length code).conn.buffer
      (reading a (stream ++ d) cs stream.length code).parserNbytes = _ :=
    execute_append code stream cs hd hr
  show (reading a (stream ++ d) cs stream.length code).parseHttpHeaders code cfg app env = _
  unfold parseHttpHeaders afterRead
  rw [if_neg hne, hexec, hr]
  cases hfailed : code.parser.automaton.failed cs' with
  | true => rfl
  | false =>
    simp only [Bool.false_eq_true, if_false]
    rfl

/-- The connection at the start of the request. -/
def start (code : WsCode η) (a : α) : WsUpgrade η α := reading a [] code.parser.automaton.start 0 code

/-- A new connection comes to the request at once. -/
theorem receiveData_new (code : WsCode η) (cfg : WsConfig) (app : SipApp α) (env : WsEnv) (a : α)
    (d : Bytes) :
    (new code a).receiveData code cfg app env d = (start code a).receiveData code cfg app env d := rfl

theorem receiveData_start_nil (code : WsCode η) (cfg : WsConfig) (app : SipApp α) (env : WsEnv) (a : α) :
    (start code a).receiveData code cfg app env [] = (start code a, []) := rfl

theorem receiveData_start (code : WsCode η) (cfg : WsConfig) (app : SipApp α) (env : WsEnv) (a : α)
    (hd : d ≠ []) :
    (start code a).receiveData code cfg app env d =
      afterRead code cfg app env a d (code.parser.automaton.read code.parser.automaton.start d).1
        (code.parser.automaton.read code.parser.automaton.start d).2 := by
  have h := receiveData_reading code cfg app env a [] code.parser.automaton.start hd
  rw [List.nil_append, List.length_nil, Nat.zero_add] at h
  exact h

theorem later_checkHttpRequest (code : WsCode η) (cfg : WsConfig) (app : SipApp α) (env : WsEnv)
    (hs : s.state ≠ .established) (hsusp : s.suspended = false) (d : Bytes) :
    Later code cfg app env d (s.checkHttpRequest code cfg app env)
      ((s.push d).checkHttpRequest code cfg app env) := by
  have hrequest : (s.push d).request code = s.request code := rfl
  cases hr : (s.request code).rejection env.status with
  | some r =>
    have hr' : ((s.push d).request code).rejection env.status = some r := hr
    have hs' : (s.push d).state ≠ .established := hs
    rw [checkHttpRequest_of_some hr, checkHttpRequest_of_some hr']
    unfold httpReject
    rw [setIgnore_of_ne hs, setIgnore_of_ne hs']
    exact .ignored (.inr ⟨rfl, rfl⟩) (.ignored (s.conn.buffer ++ d) rfl rfl) rfl
  | none =>
    have hr' : ((s.push d).request code).rejection env.status = none := hr
    rw [checkHttpRequest_of_none hr, checkHttpRequest_of_none hr']
    let s₁ : WsUpgrade η α :=
      { s with
        websocketProtocolNegotiated := (s.request code).hdrSecWebsocketProtocol.isSome
        state := .waitingForOnConnection }
    have hlater : Later code cfg app env d (s₁.runCallback code cfg app env.onConnection)
        ((s₁.push d).runCallback code cfg app env.onConnection) :=
      later_runCallback code cfg app env (s := s₁) rfl hsusp d env.onConnection
    have hout : shownOf [.onConnection (s.request code) (s.conn.buffer ++ d)] =
        shownOf [.onConnection (s.request code) s.conn.buffer] := rfl
    exact hlater.after_outputs hout

/-- What the request is read from is closed for good. -/
theorem over_afterRead (cfg : WsConfig) (app : SipApp α) (env : WsEnv) (a : α) (stream : Bytes) {cs : η}
    {n : Nat} (h : code.parser.automaton.failed cs = true ∨ HTTP_HEADERS_MAX_SIZE < n) :
    (afterRead code cfg app env a stream cs n).1.Over ∧
      shownOf (afterRead code cfg app env a stream cs n).2 = [.closeConnectionAfterWriting] := by
  unfold afterRead
  cases hfailed : code.parser.automaton.failed cs with
  | true => exact ⟨⟨rfl, .inl rfl⟩, rfl⟩
  | false =>
    rw [hfailed] at h
    have hlong := h.resolve_left Bool.false_ne_true
    rw [if_neg Bool.false_ne_true, if_pos hlong]
    exact ⟨⟨rfl, .inl rfl⟩, rfl⟩

/-- The request goes on in the next chunk. -/
structure Continues (code : WsCode η) (cfg : WsConfig) (app : SipApp α) (env : WsEnv) (a : α)
    (stream d : Bytes) (r : WsUpgrade η α × List WsUpgradeOut) : Prop where
  state : r.1.state = .httpHeaders
  suspended : r.1.suspended = false
  silent : r.2 = []
  receive : (start code a).receiveData code cfg app env (stream ++ d) =
    r.1.receiveData code cfg app env d

/-- **A chunk in two pieces**, from the start of the request. -/
theorem receiveData_append (code : WsCode η) (cfg : WsConfig) (app : SipApp α) (env : WsEnv) (a : α)
    (stream : Bytes) (hd : d ≠ []) :
    Continues code cfg app env a stream d ((start code a).receiveData code cfg app env stream) ∨
      Later code cfg app env d ((start code a).receiveData code cfg app env stream)
        ((start code a).receiveData code cfg app env (stream ++ d)) := by
  by_cases hstream : stream = []
  · subst hstream
    rw [receiveData_start_nil]
    exact .inl ⟨rfl, rfl, rfl, rfl⟩
  · have hne : stream ++ d ≠ [] := List.append_ne_nil_of_left_ne_nil hstream d
    have hpiece := receiveData_start code cfg app env a hstream
    have hwhole := receiveData_start code cfg app env a hne
    obtain ⟨cs, n, hr⟩ : ∃ cs n, code.parser.automaton.read code.parser.automaton.start stream = (cs, n) :=
      ⟨_, _, rfl⟩
    have hle : (code.parser.automaton.read code.parser.automaton.start stream).2 ≤ stream.length :=
      Automaton.read_le_length
    by_cases hstopped : code.parser.automaton.Stopped
        (code.parser.automaton.read code.parser.automaton.start stream).1
    · -- the parser does not look at the bytes behind
      rw [Automaton.read_append_of_stopped hstream hstopped] at hwhole
      rw [hr] at hpiece hwhole hstopped hle
      rw [hpiece, hwhole]
      right
      by_cases hover : code.parser.automaton.failed cs = true ∨ HTTP_HEADERS_MAX_SIZE < n
      · obtain ⟨hover₁, hout₁⟩ := over_afterRead cfg app env a stream hover
        obtain ⟨hover₂, hout₂⟩ := over_afterRead cfg app env a (stream ++ d) hover
        exact .ignored (.inl hover₁) (.ended hover₁ hover₂) (hout₂.trans hout₁.symm)
      · rw [not_or] at hover
        have hdone : ¬ code.parser.automaton.done cs = false := by
          rw [hstopped.resolve_left hover.1]
          exact nofun
        unfold afterRead
        rw [if_neg hover.1, if_neg hover.2, if_neg hdone, if_neg hover.1, if_neg hover.2, if_neg hdone,
          List.drop_append_of_le_length hle]
        exact later_checkHttpRequest code cfg app env (s := reading a (stream.drop n) cs n code) nofun rfl d
    · -- it goes on with them
      have hall := Automaton.read_of_running hstopped
      rw [Automaton.read_append_of_running hstopped] at hwhole
      rw [hr] at hpiece hwhole hstopped hall
      obtain rfl : n = stream.length := hall
      by_cases hlong : HTTP_HEADERS_MAX_SIZE < stream.length
      · right
        have hover : code.parser.automaton.failed cs = true ∨ HTTP_HEADERS_MAX_SIZE < stream.length :=
          .inr hlong
        obtain ⟨hover₁, hout₁⟩ := over_afterRead cfg app env a stream hover
        obtain ⟨hover₂, hout₂⟩ := over_afterRead cfg app env a (stream ++ d)
          (.inr (Nat.lt_of_lt_of_le hlong (Nat.le_add_right _ _)))
        rw [hpiece, hwhole]
        exact .ignored (.inl hover₁) (.ended hover₁ hover₂) (hout₂.trans hout₁.symm)
      · left
        have hread := receiveData_reading code cfg app env a stream cs hd
        unfold Automaton.Stopped at hstopped
        rw [not_or] at hstopped
        have hpiece' : afterRead code cfg app env a stream cs stream.length =
            (reading a stream cs stream.length code, []) := by
          unfold afterRead
          rw [if_neg hstopped.1, if_neg hlong, if_pos (eq_false_of_ne_true hstopped.2)]
        rw [hpiece, hpiece']
        exact ⟨rfl, rfl, rfl, hwhole.trans hread.symm⟩

/-! ## The stream at once -/

/-- The connection receives the stream in one chunk, and then the suspended callback goes on in these
ways. -/
def atOnce (code : WsCode η) (cfg : WsConfig) (app : SipApp α) (env : WsEnv) (s : WsUpgrade η α)
    (stream : Bytes) (callbacks : List (GateCallback WsClosing)) : WsUpgrade η α × List WsUpgradeOut :=
  callbacks.foldl (andResume code cfg app) (s.receiveData code cfg app env stream)

variable {a : α} {callbacks : List (GateCallback WsClosing)}

theorem atOnce_snoc (s : WsUpgrade η α) (stream : Bytes) (callbacks : List (GateCallback WsClosing))
    (callback : GateCallback WsClosing) :
    s.atOnce code cfg app env stream (callbacks ++ [callback]) =
      andResume code cfg app (s.atOnce code cfg app env stream callbacks) callback := by
  unfold atOnce
  rw [List.foldl_append]
  rfl

theorem foldl_andResume_of_idle (h : r.1.suspended = false) (callbacks : List (GateCallback WsClosing)) :
    callbacks.foldl (andResume code cfg app) r = r := by
  induction callbacks with
  | nil => rfl
  | cons callback callbacks ih => rw [List.foldl_cons, andResume_of_idle h, ih]

theorem Continues.atOnce (h : Continues code cfg app env a stream d
      ((start code a).receiveData code cfg app env stream)) :
    (start code a).atOnce code cfg app env stream callbacks =
      (start code a).receiveData code cfg app env stream :=
  foldl_andResume_of_idle h.suspended callbacks

theorem Later.atOnce (h : Later code cfg app env d (s.receiveData code cfg app env stream)
      (s.receiveData code cfg app env (stream ++ d))) (callbacks : List (GateCallback WsClosing)) :
    Later code cfg app env d (s.atOnce code cfg app env stream callbacks)
      (s.atOnce code cfg app env (stream ++ d) callbacks) := by
  induction callbacks using List.reverseRecOn with
  | nil => exact h
  | append_singleton callbacks callback ih =>
    rw [atOnce_snoc, atOnce_snoc]
    exact ih.andResume callback

/-- What a connection has made of the stream in chunks is what it makes of it at once. -/
structure Tracks (code : WsCode η) (cfg : WsConfig) (app : SipApp α) (env : WsEnv) (a : α) (stream : Bytes)
    (callbacks : List (GateCallback WsClosing)) (r : WsUpgrade η α × List WsUpgradeOut) : Prop where
  alike : Alike r.1 ((start code a).atOnce code cfg app env stream callbacks).1
  outputs : shownOf r.2 = shownOf ((start code a).atOnce code cfg app env stream callbacks).2
  /-- No callback has gone on before the end of the request. -/
  callbacks : ((start code a).receiveData code cfg app env stream).1.state = .httpHeaders → callbacks = []

/-- A chunk arrives while the loop has stalled, and the header of a frame is there. -/
def Jams (cfg : WsConfig) (s : WsUpgrade η α) (d : Bytes) : Prop :=
  s.Stalled cfg ∧ 2 ≤ s.conn.buffer.length + d.length

instance (cfg : WsConfig) (s : WsUpgrade η α) (d : Bytes) : Decidable (Jams cfg s d) :=
  inferInstanceAs (Decidable (_ ∧ _ ≤ _))

/-- The loop has looked at bytes at which it does not look when they arrive at once. -/
structure Diverged (code : WsCode η) (cfg : WsConfig) (app : SipApp α) (env : WsEnv) (a : α) (stream : Bytes)
    (callbacks : List (GateCallback WsClosing)) (s : WsUpgrade η α) : Prop where
  stalled : ((start code a).atOnce code cfg app env stream callbacks).1.Stalled cfg
  state : s.state = .established
  suspended : s.suspended = false
  ahead : s.conn.buffer.length + 2 ≤
    ((start code a).atOnce code cfg app env stream callbacks).1.conn.buffer.length

theorem Alike.ignores (h : Alike s t) (hignores : s.Ignores) : t.Ignores := by
  cases h with
  | same => exact hignores
  | ignored buffer hstate hclosed => exact .inr ⟨hstate, hclosed⟩
  | ended _ hover => exact .inl hover

theorem Ignores.state_ne (h : s.Ignores) : s.state ≠ .httpHeaders := by
  intro hstate
  rcases h with ⟨_, hignore | ⟨hest, _⟩⟩ | ⟨hignore, _⟩
  · rw [hstate] at hignore
    cases hignore
  · rw [hstate] at hest
    cases hest
  · rw [hstate] at hignore
    cases hignore

/-- Behind the request. -/
theorem Later.state_ne (h : Later code cfg app env d r r') : r'.1.state ≠ .httpHeaders := by
  cases h with
  | ignored hignores halike => exact (halike.ignores hignores).state_ne
  | waiting hstate hpush =>
    rw [hpush]
    show r.1.state ≠ _
    rw [hstate]
    exact nofun
  | stalled _ hstalled hpush =>
    rw [hpush]
    show r.1.state ≠ _
    rw [hstalled.1]
    exact nofun
  | opened _ hstate _ hsame =>
    rw [hsame, receiveData_of_established hstate]
    show r.1.state ≠ _
    rw [hstate]
    exact nofun

theorem Alike.eq_of_stalled (h : Alike s t) (hstalled : s.Stalled cfg ∨ t.Stalled cfg) : s = t := by
  cases h with
  | same => rfl
  | ignored buffer hstate hclosed =>
    have hignores : s.Ignores := .inr ⟨hstate, hclosed⟩
    have hignores' : (s.withBuffer buffer).Ignores := .inr ⟨hstate, hclosed⟩
    exact (hstalled.elim hignores.not_stalled hignores'.not_stalled).elim
  | ended hover hover' =>
    have hignores : s.Ignores := .inl hover
    have hignores' : t.Ignores := .inl hover'
    exact (hstalled.elim hignores.not_stalled hignores'.not_stalled).elim

/-- The next chunk. -/
theorem Tracks.receiveData (h : Tracks code cfg app env a stream callbacks r) (hd : d ≠ [])
    (hnot : ¬ Jams cfg r.1 d) :
    Tracks code cfg app env a (stream ++ d) callbacks
      ((r.1.receiveData code cfg app env d).1, r.2 ++ (r.1.receiveData code cfg app env d).2) := by
  obtain ⟨halike, hsame⟩ := h.alike.receiveData code cfg app env d
  rcases receiveData_append code cfg app env a stream hd with hcont | hlater
  · -- the request goes on
    have hcallbacks := h.callbacks hcont.state
    have hwhole := hcont.receive
    rw [hcallbacks] at h halike hsame ⊢
    have houtputs : shownOf r.2 = [] := by
      rw [h.outputs, hcont.atOnce, hcont.silent]
      rfl
    rw [hcont.atOnce] at halike hsame
    refine ⟨?_, ?_, fun _ => rfl⟩
    · show Alike _ ((start code a).receiveData code cfg app env (stream ++ d)).1
      rw [hwhole]
      exact halike
    · show _ = shownOf ((start code a).receiveData code cfg app env (stream ++ d)).2
      rw [hwhole, shownOf_append, houtputs, hsame]
      rfl
  · have hatOnce := hlater.atOnce callbacks
    have hrequest : ((start code a).receiveData code cfg app env (stream ++ d)).1.state = .httpHeaders →
        callbacks = [] := fun hstate => absurd hstate hlater.state_ne
    by_cases hstalled : ((start code a).atOnce code cfg app env stream callbacks).1.Stalled cfg
    · -- less than a header is stored
      obtain ⟨_, hpush, hout⟩ := hatOnce.of_stalled hstalled
      have heq := h.alike.eq_of_stalled (.inr hstalled)
      rw [← heq] at hstalled hpush
      have hlt : r.1.conn.buffer.length + d.length < 2 := Nat.lt_of_not_le fun hle => hnot ⟨hstalled, hle⟩
      have hreceive : r.1.receiveData code cfg app env d = (r.1.push d, []) := by
        rw [receiveData_of_established hstalled.1, hstalled.2.receiveData_of_lt hlt]
        unfold framed
        rw [show (r.1.localClosed || [].contains WsOut.closeConnectionAfterWriting) = r.1.localClosed from
          Bool.or_false _]
        rfl
      rw [hreceive, List.append_nil]
      refine ⟨?_, h.outputs.trans hout.symm, hrequest⟩
      rw [hpush]
      exact .same _
    · obtain ⟨halike', hout⟩ := hatOnce.alike hstalled
      refine ⟨halike.trans halike', ?_, hrequest⟩
      rw [hout, shownOf_append, shownOf_append, h.outputs, hsame]

/-- Until the end of the request no callback is suspended. -/
theorem suspended_of_httpHeaders
    (h : ((start code a).receiveData code cfg app env stream).1.state = .httpHeaders) :
    ((start code a).receiveData code cfg app env stream).1.suspended = false := by
  have hfresh : Collected code [] (new code a) := .fresh (.inl rfl) rfl rfl
  have hkeeps : Keeps code ([] ++ stream) ((start code a).receiveData code cfg app env stream) :=
    keeps_receiveData hfresh env stream
  cases hkeeps.1 with
  | fresh hstate => simp [h] at hstate
  | reading _ _ _ _ _ hsusp => exact hsusp
  | ended hover =>
    rcases hover with hstate | hstate | ⟨hstate, _⟩
    all_goals rw [h] at hstate; cases hstate

/-- The suspended callback goes on. -/
theorem Tracks.andResume (h : Tracks code cfg app env a stream callbacks r) (hsusp : r.1.suspended = true)
    (callback : GateCallback WsClosing) :
    Tracks code cfg app env a stream (callbacks ++ [callback])
      (WsUpgrade.andResume code cfg app r callback) := by
  obtain ⟨halike, hsame⟩ := h.alike.resume code cfg app callback
  refine ⟨?_, ?_, fun hstate => ?_⟩
  · rw [atOnce_snoc]
    exact halike
  · rw [atOnce_snoc]
    unfold WsUpgrade.andResume
    rw [shownOf_append, shownOf_append, h.outputs, hsame]
  · have hidle := suspended_of_httpHeaders hstate
    have halike' := h.alike
    unfold WsUpgrade.atOnce at halike'
    rw [foldl_andResume_of_idle hidle] at halike'
    generalize ((start code a).receiveData code cfg app env stream).1 = t at hstate hidle halike'
    generalize r.1 = s at hsusp halike'
    cases halike' with
    | same =>
      rw [hidle] at hsusp
      cases hsusp
    | ignored buffer hignore hclosed =>
      have hignores : (s.withBuffer buffer).Ignores := .inr ⟨hignore, hclosed⟩
      exact absurd hstate hignores.state_ne
    | ended _ hover =>
      have hignores : t.Ignores := .inl hover
      exact absurd hstate hignores.state_ne

theorem Stalled.push (h : s.Stalled cfg) (d : Bytes) : (s.push d).Stalled cfg :=
  ⟨h.1, h.2.alive, h.2.init, h.2.tooBig⟩

/-- Where the loop has stalled, the stream that comes at once is not looked at any more. -/
theorem atOnce_of_stalled (hd : d ≠ [])
    (h : ((start code a).atOnce code cfg app env stream callbacks).1.Stalled cfg) :
    ((start code a).atOnce code cfg app env (stream ++ d) callbacks).1 =
      ((start code a).atOnce code cfg app env stream callbacks).1.push d := by
  rcases receiveData_append code cfg app env a stream hd with hcont | hlater
  · rw [hcont.atOnce] at h
    have hstate := hcont.state
    rw [h.1] at hstate
    cases hstate
  · exact ((hlater.atOnce callbacks).of_stalled h).2.1

theorem length_push (s : WsUpgrade η α) (d : Bytes) :
    (s.push d).conn.buffer.length = s.conn.buffer.length + d.length := List.length_append

/-- The loop looks at what has been left behind. -/
theorem Tracks.diverged (h : Tracks code cfg app env a stream callbacks r) (hd : d ≠ [])
    (hjams : Jams cfg r.1 d) :
    Diverged code cfg app env a (stream ++ d) callbacks (r.1.receiveData code cfg app env d).1 := by
  have heq := h.alike.eq_of_stalled (.inl hjams.1)
  have hstalled : ((start code a).atOnce code cfg app env stream callbacks).1.Stalled cfg := heq ▸ hjams.1
  have hwhole := atOnce_of_stalled hd hstalled
  rw [← heq] at hwhole
  have hsusp : r.1.suspended = false := by
    rcases receiveData_append code cfg app env a stream hd with hcont | hlater
    · rw [hcont.atOnce] at heq
      rw [heq]
      exact hcont.suspended
    · rw [heq]
      exact ((hlater.atOnce callbacks).of_stalled hstalled).1
  rw [receiveData_of_established hjams.1.1]
  constructor
  · rw [hwhole]
    exact hjams.1.push d
  · exact hjams.1.1
  · exact hsusp
  · rw [hwhole, length_push]
    exact hjams.1.2.length_receiveData_le hjams.2

theorem Diverged.receiveData (h : Diverged code cfg app env a stream callbacks s) (hd : d ≠ []) :
    Diverged code cfg app env a (stream ++ d) callbacks (s.receiveData code cfg app env d).1 := by
  have hwhole := atOnce_of_stalled hd h.stalled
  rw [receiveData_of_established h.state]
  constructor
  · rw [hwhole]
    exact h.stalled.push d
  · exact h.state
  · exact h.suspended
  · have hle : (s.conn.receiveData cfg app d).1.buffer.length ≤ s.conn.buffer.length + d.length :=
      WsConnection.length_receiveData_le s.conn d
    have hahead := h.ahead
    rw [hwhole, length_push]
    show (s.conn.receiveData cfg app d).1.buffer.length + 2 ≤ _
    omega

/-- What arrives is ignored. -/
def isIgnoring (s : WsUpgrade η α) : Prop :=
  s.state = .ignore ∨ s.state = .established ∧ s.conn.state = .ignore

/-- The same is put out, and the connection is the same or ignores what arrives. -/
def SameAs (r r' : WsUpgrade η α × List WsUpgradeOut) : Prop :=
  shownOf r.2 = shownOf r'.2 ∧ (r.1 = r'.1 ∨ r.1.isIgnoring ∧ r'.1.isIgnoring)

theorem Alike.eq_or_ignoring (h : Alike s t) : s = t ∨ s.isIgnoring ∧ t.isIgnoring := by
  cases h with
  | same => exact .inl rfl
  | ignored buffer hstate _ => exact .inr ⟨.inl hstate, .inl hstate⟩
  | ended hover hover' => exact .inr ⟨hover.2, hover'.2⟩

theorem Tracks.sameAs (h : Tracks code cfg app env a stream callbacks r) :
    SameAs r ((start code a).atOnce code cfg app env stream callbacks) :=
  ⟨h.outputs, h.alike.eq_or_ignoring⟩

theorem Diverged.not_sameAs (h : Diverged code cfg app env a stream callbacks s) (o : List WsUpgradeOut) :
    ¬ SameAs (s, o) ((start code a).atOnce code cfg app env stream callbacks) := by
  rintro ⟨_, heq | ⟨_, hignoring⟩⟩
  · have hahead := h.ahead
    rw [show s = _ from heq] at hahead
    omega
  · rcases hignoring with hignore | ⟨_, hignore⟩
    · rw [h.stalled.1] at hignore
      cases hignore
    · rw [h.stalled.2.alive] at hignore
      cases hignore

end WsUpgrade

end OverSip
