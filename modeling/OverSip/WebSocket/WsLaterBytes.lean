import OverSip.WebSocket.WsRequestBytes
import OverSip.WebSocket.WsStalls

/-!
# Bytes behind the HTTP request

Whether bytes arrive before the callback `on_connection` returns or behind it: the callback does not look at
the buffer (`runCallback_withBuffer`), and the framing gets what is in it. `Later` relates what has been
made of a stream and of the stream with some bytes behind it: with these the first one comes to the same
(`Later.alike`), unless the loop has stalled (`Later.of_stalled`).
-/

namespace OverSip

/-- An output, but for the way in which the connection is closed and for the bytes behind the request,
which `on_connection` does not get. -/
def WsUpgradeOut.shown : WsUpgradeOut → WsUpgradeOut
  | .onConnection request _ => .onConnection request []
  | .closeConnection => .closeConnectionAfterWriting
  | o => o

namespace WsUpgrade

variable {η α : Type} {code : WsCode η} {cfg : WsConfig} {app : SipApp α} {env : WsEnv}
  {s t u : WsUpgrade η α} {d e stream : Bytes} {o : List WsUpgradeOut}
  {r r' : WsUpgrade η α × List WsUpgradeOut}

/-- What has been put out, as it is shown. -/
def shownOf (o : List WsUpgradeOut) : List WsUpgradeOut := o.map WsUpgradeOut.shown

theorem shownOf_append (o o' : List WsUpgradeOut) : shownOf (o ++ o') = shownOf o ++ shownOf o' :=
  List.map_append

/-! ## Connections that only differ in what they ignore -/

/-- The connection ignores what arrives, and no callback is suspended. -/
def Over (s : WsUpgrade η α) : Prop :=
  s.suspended = false ∧ (s.state = .ignore ∨ s.state = .established ∧ s.conn.state = .ignore)

/-- The connection ignores what arrives. -/
def Ignores (s : WsUpgrade η α) : Prop := s.Over ∨ s.state = .ignore ∧ s.localClosed = true

/-- The connection with other bytes in its buffer. -/
def withBuffer (s : WsUpgrade η α) (buffer : Bytes) : WsUpgrade η α :=
  { s with conn := { s.conn with buffer } }

/-- The same connection, or one that ignores what arrives. -/
inductive Alike : WsUpgrade η α → WsUpgrade η α → Prop
  | same (s : WsUpgrade η α) : Alike s s
  /-- A callback may go on. -/
  | ignored {s : WsUpgrade η α} (buffer : Bytes) : s.state = .ignore → s.localClosed = true →
      Alike s (s.withBuffer buffer)
  | ended {s t : WsUpgrade η α} : s.Over → t.Over → Alike s t

theorem Over.withBuffer (h : s.Over) (buffer : Bytes) : (s.withBuffer buffer).Over := h

theorem Alike.trans (h : Alike s t) (h' : Alike t u) : Alike s u := by
  cases h with
  | same => exact h'
  | ignored buffer hstate hclosed =>
    cases h' with
    | same => exact .ignored buffer hstate hclosed
    | ignored buffer' => exact .ignored buffer' hstate hclosed
    | ended hover hover' => exact .ended hover hover'
  | ended hover hover' =>
    cases h' with
    | same => exact .ended hover hover'
    | ignored buffer => exact .ended hover hover'
    | ended _ hover'' => exact .ended hover hover''

theorem receiveData_of_ignore (h : s.state = .ignore) (env : WsEnv) (d : Bytes) :
    s.receiveData code cfg app env d = (s, []) := by
  unfold receiveData
  rw [h]

theorem receiveData_of_established (h : s.state = .established) (env : WsEnv) (d : Bytes) :
    s.receiveData code cfg app env d = s.framed (s.conn.receiveData cfg app d) := by
  unfold receiveData
  rw [h]

theorem receiveData_of_waiting (h : s.state = .waitingForOnConnection) (env : WsEnv) (d : Bytes) :
    s.receiveData code cfg app env d = (s.push d, []) := by
  unfold receiveData
  rw [h]

theorem Over.receiveData (h : s.Over) (env : WsEnv) (d : Bytes) :
    s.receiveData code cfg app env d = (s, []) := by
  rcases h.2 with hstate | ⟨hstate, hconn⟩
  · exact receiveData_of_ignore hstate env d
  · rw [receiveData_of_established hstate, WsConnection.receiveData_of_ignore hconn]
    unfold framed
    rw [show (s.localClosed || [].contains WsOut.closeConnectionAfterWriting) = s.localClosed from
      Bool.or_false _]
    rfl

theorem Ignores.receiveData (h : s.Ignores) (env : WsEnv) (d : Bytes) :
    s.receiveData code cfg app env d = (s, []) := by
  rcases h with hover | ⟨hstate, _⟩
  · exact hover.receiveData env d
  · exact receiveData_of_ignore hstate env d

theorem resume_of_idle (h : s.suspended = false) (callback : GateCallback WsClosing) :
    s.resume code cfg app callback = (s, []) := by
  unfold resume
  rw [h]
  rfl

theorem resume_of_suspended (h : s.suspended = true) (callback : GateCallback WsClosing) :
    s.resume code cfg app callback =
      ({ s with suspended := false } : WsUpgrade η α).runCallback code cfg app callback :=
  if_pos h

/-- Connections that only differ in what they ignore receive the same. -/
theorem Alike.receiveData (h : Alike s t) (code : WsCode η) (cfg : WsConfig) (app : SipApp α) (env : WsEnv)
    (d : Bytes) :
    Alike (s.receiveData code cfg app env d).1 (t.receiveData code cfg app env d).1 ∧
      (s.receiveData code cfg app env d).2 = (t.receiveData code cfg app env d).2 := by
  cases h with
  | same => exact ⟨.same _, rfl⟩
  | ignored buffer hstate hclosed =>
    have hstate' : (s.withBuffer buffer).state = .ignore := hstate
    rw [receiveData_of_ignore hstate, receiveData_of_ignore hstate']
    exact ⟨.ignored buffer hstate hclosed, rfl⟩
  | ended hover hover' =>
    rw [hover.receiveData, hover'.receiveData]
    exact ⟨.ended hover hover', rfl⟩

/-! ## The callback does not look at the buffer -/

theorem close_withBuffer (hs : s.state ≠ .established) (g : WsClosing) (buffer : Bytes) :
    (s.withBuffer buffer).close g = ((s.close g).1.withBuffer buffer, (s.close g).2) := by
  cases g with
  | closeConnection => rfl
  | close args =>
    have hs' : (s.withBuffer buffer).state ≠ .established := hs
    rw [close_args_of_ne hs, close_args_of_ne hs']
    rfl

theorem closeAll_withBuffer (hs : s.state ≠ .established) (gs : List WsClosing) (buffer : Bytes) :
    closeAll (fun g s => close s g) (s.withBuffer buffer) gs =
      ((closeAll (fun g s => close s g) s gs).1.withBuffer buffer,
        (closeAll (fun g s => close s g) s gs).2) := by
  induction gs generalizing s with
  | nil => rfl
  | cons g gs ih =>
    unfold closeAll
    dsimp only
    rw [close_withBuffer hs g buffer, ih (state_close_ne hs g)]

/-- What closing changes before the framing is there. -/
structure Closes (s s₁ : WsUpgrade η α) : Prop where
  conn : s₁.conn = s.conn
  state : s₁.state = s.state ∨ s₁.state = .ignore ∧ s₁.localClosed = true
  closed : s.localClosed = true → s₁.localClosed = true

theorem Closes.refl (s : WsUpgrade η α) : Closes s s := ⟨rfl, .inl rfl, id⟩

theorem Closes.state_ne (h : Closes s t) (hs : s.state ≠ .established) : t.state ≠ .established := by
  rcases h.state with hstate | ⟨hstate, _⟩
  · rwa [hstate]
  · rw [hstate]
    exact nofun

theorem Closes.close (h : Closes s t) (hs : s.state ≠ .established) (g : WsClosing) :
    Closes s (t.close g).1 := by
  have hclosed := (close_spec t g).2
  refine ⟨?_, ?_, fun _ => hclosed⟩
  · cases g with
    | closeConnection => exact h.conn
    | close args =>
      rw [close_args_of_ne (h.state_ne hs)]
      exact h.conn
  · rcases state_close_of_ne (h.state_ne hs) g with hsame | hignore
    · rw [hsame]
      exact h.state.imp_right fun hignore => ⟨hignore.1, hclosed⟩
    · exact .inr ⟨hignore, hclosed⟩

theorem closes_closeAll (hs : s.state ≠ .established) (gs : List WsClosing) :
    Closes s (closeAll (fun g s => close s g) s gs).1 :=
  closeAll_of_close (P := Closes s) (fun _ g h => h.close hs g) (.refl s) gs

theorem suspended_closeAll (s : WsUpgrade η α) (gs : List WsClosing) :
    (closeAll (fun g s => close s g) s gs).1.suspended = s.suspended :=
  closeAll_of_close (P := fun t : WsUpgrade η α => t.suspended = s.suspended)
    (fun t g h => (close_spec t g).1.trans h) rfl gs

theorem Closes.httpReject (h : Closes s t) (hs : s.state ≠ .established) (code : WsCode η)
    (r : HttpRejection) : Closes s (t.httpReject code r).1 := by
  unfold WsUpgrade.httpReject
  rw [setIgnore_of_ne (h.state_ne hs)]
  exact ⟨h.conn, .inr ⟨rfl, rfl⟩, fun _ => rfl⟩

theorem httpReject_withBuffer (hs : s.state ≠ .established) (code : WsCode η) (r : HttpRejection)
    (buffer : Bytes) :
    (s.withBuffer buffer).httpReject code r =
      ((s.httpReject code r).1.withBuffer buffer, (s.httpReject code r).2) := by
  have hs' : (s.withBuffer buffer).state ≠ .established := hs
  unfold httpReject
  rw [setIgnore_of_ne hs, setIgnore_of_ne hs']
  rfl

/-- The framing gets the bytes in the buffer. -/
def accepted (cfg : WsConfig) (app : SipApp α) (s : WsUpgrade η α) (buffer : Bytes) :
    WsUpgrade η α × List WsUpgradeOut :=
  { s with state := .established }.framed ((WsConnection.new s.conn.app).receiveData cfg app buffer)

/-- The reply of `accept_ws_handshake`. -/
def handshakeReply (code : WsCode η) (s : WsUpgrade η α) (key : String) : WsUpgradeOut :=
  s.reply code
    { statusCode := 101
      extraHeaders :=
        ["Upgrade: websocket", "Connection: Upgrade",
          "Sec-WebSocket-Accept: " ++ code.base64digest (key ++ WS_MAGIC_GUID_04)] ++
        if s.websocketProtocolNegotiated then ["Sec-WebSocket-Protocol: " ++ WS_SIP_PROTOCOL] else [] }

theorem acceptWsHandshake_withBuffer {key : String} (hkey : (s.request code).hdrSecWebsocketKey = some key)
    (cfg : WsConfig) (app : SipApp α) (buffer : Bytes) :
    (s.withBuffer buffer).acceptWsHandshake code cfg app =
      ((accepted cfg app s buffer).1, s.handshakeReply code key :: (accepted cfg app s buffer).2) := by
  have hkey' : ((s.withBuffer buffer).request code).hdrSecWebsocketKey = some key := hkey
  unfold acceptWsHandshake
  rw [hkey']
  dsimp only
  rw [receiveData_of_new]
  rfl

/-- The callback leaves the buffer as it is, or the framing gets it. -/
theorem runCallback_withBuffer (code : WsCode η) (cfg : WsConfig) (app : SipApp α)
    (hs : s.state ≠ .established) (callback : GateCallback WsClosing) :
    (∃ s₁ o, Closes s s₁ ∧ ∀ buffer, (s.withBuffer buffer).runCallback code cfg app callback =
        (s₁.withBuffer buffer, o)) ∨
      ∃ s₁ o, Closes s s₁ ∧ s₁.localClosed = false ∧ s₁.suspended = s.suspended ∧
        ∀ buffer, (s.withBuffer buffer).runCallback code cfg app callback =
          ((accepted cfg app s₁ buffer).1, o ++ (accepted cfg app s₁ buffer).2) := by
  have hcloses := closes_closeAll hs callback.closes
  have hsusp := suspended_closeAll s callback.closes
  have hbuffer := closeAll_withBuffer hs callback.closes
  generalize closeAll (fun g s => close s g) s callback.closes = p at hcloses hsusp hbuffer
  have hne := hcloses.state_ne hs
  unfold runCallback
  simp only [hbuffer]
  cases callback.ends with
  | suspends =>
    exact .inl ⟨{ p.1 with suspended := true }, p.2, ⟨hcloses.conn, hcloses.state, hcloses.closed⟩,
      fun _ => rfl⟩
  | raises =>
    refine .inl ⟨(p.1.httpReject code ⟨500, none, []⟩).1, p.2 ++ (p.1.httpReject code ⟨500, none, []⟩).2,
      hcloses.httpReject hs code _, fun buffer => ?_⟩
    dsimp only
    rw [httpReject_withBuffer hne]
  | returns =>
    have hclosed : ∀ buffer, ((p.1.withBuffer buffer).localClosed || (p.1.withBuffer buffer).unbound) =
        (p.1.localClosed || p.1.unbound) := fun _ => rfl
    simp only [hclosed]
    cases hopen : p.1.localClosed || p.1.unbound with
    | true => exact .inl ⟨p.1, p.2, hcloses, fun _ => rfl⟩
    | false =>
      cases hkey : (p.1.request code).hdrSecWebsocketKey with
      | none =>
        refine .inl ⟨(p.1.httpReject code ⟨500, none, []⟩).1,
          p.2 ++ (p.1.httpReject code ⟨500, none, []⟩).2, hcloses.httpReject hs code _, fun buffer => ?_⟩
        have hkey' : ((p.1.withBuffer buffer).request code).hdrSecWebsocketKey = none := hkey
        unfold acceptWsHandshake
        rw [hkey']
        dsimp only
        rw [httpReject_withBuffer hne]
        rfl
      | some key =>
        refine .inr ⟨p.1, p.2 ++ [p.1.handshakeReply code key], hcloses,
          (Bool.or_eq_false_iff.mp hopen).1, hsusp, fun buffer => ?_⟩
        rw [acceptWsHandshake_withBuffer hkey cfg app buffer, List.append_assoc]
        rfl

/-- A callback that goes on with a connection that is ignored. -/
theorem runCallback_ignored (code : WsCode η) (cfg : WsConfig) (app : SipApp α) (hs : s.state = .ignore)
    (hclosed : s.localClosed = true) (callback : GateCallback WsClosing) :
    ∃ s₁ : WsUpgrade η α, ∃ o, s₁.state = .ignore ∧ s₁.localClosed = true ∧ ∀ buffer,
      (s.withBuffer buffer).runCallback code cfg app callback = (s₁.withBuffer buffer, o) := by
  have hne : s.state ≠ .established := by simp [hs]
  rcases runCallback_withBuffer code cfg app hne callback with
    ⟨s₁, o, hcloses, hsame⟩ | ⟨s₁, _, hcloses, hopen, _⟩
  · refine ⟨s₁, o, ?_, hcloses.closed hclosed, hsame⟩
    rcases hcloses.state with hstate | ⟨hstate, _⟩
    · exact hstate.trans hs
    · exact hstate
  · rw [hcloses.closed hclosed] at hopen
    cases hopen

theorem resume_ignored (code : WsCode η) (cfg : WsConfig) (app : SipApp α) (hs : s.state = .ignore)
    (hclosed : s.localClosed = true) (callback : GateCallback WsClosing) :
    ∃ s₁ : WsUpgrade η α, ∃ o, s₁.state = .ignore ∧ s₁.localClosed = true ∧ ∀ buffer,
      (s.withBuffer buffer).resume code cfg app callback = (s₁.withBuffer buffer, o) := by
  cases hsusp : s.suspended with
  | false =>
    exact ⟨s, [], hs, hclosed, fun buffer => resume_of_idle (s := s.withBuffer buffer) hsusp callback⟩
  | true =>
    obtain ⟨s₁, o, hstate, hclosed₁, hsame⟩ := runCallback_ignored code cfg app
      (s := { s with suspended := false }) hs hclosed callback
    refine ⟨s₁, o, hstate, hclosed₁, fun buffer => ?_⟩
    exact (resume_of_suspended (s := s.withBuffer buffer) hsusp callback).trans (hsame buffer)

/-- Connections that only differ in what they ignore go on alike. -/
theorem Alike.resume (h : Alike s t) (code : WsCode η) (cfg : WsConfig) (app : SipApp α)
    (callback : GateCallback WsClosing) :
    Alike (s.resume code cfg app callback).1 (t.resume code cfg app callback).1 ∧
      (s.resume code cfg app callback).2 = (t.resume code cfg app callback).2 := by
  cases h with
  | same => exact ⟨.same _, rfl⟩
  | ended hover hover' =>
    rw [resume_of_idle hover.1, resume_of_idle hover'.1]
    exact ⟨.ended hover hover', rfl⟩
  | ignored buffer hstate hclosed =>
    obtain ⟨s₁, o, hstate₁, hclosed₁, hsame⟩ := resume_ignored code cfg app hstate hclosed callback
    have hs : s.resume code cfg app callback = (s₁.withBuffer s.conn.buffer, o) := hsame s.conn.buffer
    rw [hs, hsame buffer]
    exact ⟨.ignored (s := s₁.withBuffer s.conn.buffer) buffer hstate₁ hclosed₁, rfl⟩

/-! ## Bytes that arrive later -/

/-- The loop of the framing has stalled. -/
def Stalled (cfg : WsConfig) (s : WsUpgrade η α) : Prop :=
  s.state = .established ∧ WsConnection.Stalled cfg s.conn

instance (cfg : WsConfig) (s : WsUpgrade η α) : Decidable (Stalled cfg s) :=
  inferInstanceAs (Decidable (_ = _ ∧ _))

/-- What has been made of a stream behind the request, and of the stream with `d` behind it. -/
inductive Later (code : WsCode η) (cfg : WsConfig) (app : SipApp α) (env : WsEnv) (d : Bytes) :
    WsUpgrade η α × List WsUpgradeOut → WsUpgrade η α × List WsUpgradeOut → Prop
  | ignored {r r' : WsUpgrade η α × List WsUpgradeOut} : r.1.Ignores → Alike r.1 r'.1 →
      shownOf r'.2 = shownOf r.2 → Later code cfg app env d r r'
  /-- The bytes are stored until the callback has returned. -/
  | waiting {r r' : WsUpgrade η α × List WsUpgradeOut} : r.1.state = .waitingForOnConnection →
      r'.1 = r.1.push d → shownOf r'.2 = shownOf r.2 → Later code cfg app env d r r'
  /-- The loop does not come to them. -/
  | stalled {r r' : WsUpgrade η α × List WsUpgradeOut} : r.1.suspended = false → r.1.Stalled cfg →
      r'.1 = r.1.push d → shownOf r'.2 = shownOf r.2 → Later code cfg app env d r r'
  /-- The framing has got them as if they had arrived later. -/
  | opened {r r' : WsUpgrade η α × List WsUpgradeOut} : r.1.suspended = false → r.1.state = .established →
      ¬ r.1.Stalled cfg → r'.1 = (r.1.receiveData code cfg app env d).1 →
      shownOf r'.2 = shownOf (r.2 ++ (r.1.receiveData code cfg app env d).2) →
      Later code cfg app env d r r'

theorem Later.after_outputs (h : Later code cfg app env d r r') {o o' : List WsUpgradeOut}
    (ho : shownOf o' = shownOf o) : Later code cfg app env d (r.1, o ++ r.2) (r'.1, o' ++ r'.2) := by
  have happend : ∀ p p' : List WsUpgradeOut, shownOf p' = shownOf p →
      shownOf (o' ++ p') = shownOf (o ++ p) := by
    intro p p' hp
    rw [shownOf_append, shownOf_append, ho, hp]
  cases h with
  | ignored hignores halike hout => exact .ignored hignores halike (happend _ _ hout)
  | waiting hstate hpush hout => exact .waiting hstate hpush (happend _ _ hout)
  | stalled hsusp hstalled hpush hout => exact .stalled hsusp hstalled hpush (happend _ _ hout)
  | opened hsusp hstate hnot hsame hout =>
    refine .opened hsusp hstate hnot hsame ?_
    rw [List.append_assoc]
    exact happend _ _ hout

theorem framed_framed (s : WsUpgrade η α) (p q : WsConnection α × List WsOut) :
    ((s.framed p).1.framed q) =
      ((s.framed (q.1, p.2 ++ q.2)).1, q.2.map WsUpgradeOut.framing) := by
  unfold framed
  dsimp only
  rw [List.contains_eq_any_beq, List.contains_eq_any_beq, List.contains_eq_any_beq, List.any_append,
    Bool.or_assoc]

/-- The framing gets the bytes that stand behind the request. -/
theorem later_accepted (code : WsCode η) (cfg : WsConfig) (app : SipApp α) (env : WsEnv)
    (hsusp : s.suspended = false) (buffer d : Bytes) :
    Later code cfg app env d (accepted cfg app s buffer) (accepted cfg app s (buffer ++ d)) := by
  have hsmall : (WsConnection.new s.conn.app).wsMessage.length ≤ cfg.maxWsMessageSize := Nat.zero_le _
  have happend := WsConnection.receiveData_append app (c := WsConnection.new s.conn.app) rfl hsmall
    buffer d
  unfold accepted
  dsimp only at happend
  generalize (WsConnection.new s.conn.app).receiveData cfg app buffer = p at happend
  rcases happend with ⟨hdead, rest, heq⟩ | ⟨halive, hnot, heq⟩ | ⟨hstalled, heq⟩
  · rw [heq]
    have hover : (framed { s with state := .established } p).1.Over := ⟨hsusp, .inr ⟨rfl, hdead⟩⟩
    exact .ignored (.inl hover) (.ended hover ⟨hsusp, .inr ⟨rfl, hdead⟩⟩) rfl
  · have hreceive : ((framed { s with state := .established } p).1.receiveData code cfg app env d) =
        (framed { s with state := .established } p).1.framed (p.1.receiveData cfg app d) :=
      receiveData_of_established rfl env d
    refine .opened hsusp rfl (fun hstalled => hnot hstalled.2) ?_ ?_
    · rw [hreceive, framed_framed, heq]
    · rw [hreceive, framed_framed, heq]
      unfold framed
      rw [List.map_append]
  · rw [heq]
    exact .stalled hsusp ⟨rfl, hstalled⟩ rfl rfl

/-- The callback comes to its end before the bytes arrive, or behind them. -/
theorem later_runCallback (code : WsCode η) (cfg : WsConfig) (app : SipApp α) (env : WsEnv)
    (hs : s.state = .waitingForOnConnection) (hsusp : s.suspended = false) (d : Bytes)
    (callback : GateCallback WsClosing) :
    Later code cfg app env d (s.runCallback code cfg app callback)
      ((s.push d).runCallback code cfg app callback) := by
  have hbuffer : s.withBuffer s.conn.buffer = s := rfl
  have hpush : s.withBuffer (s.conn.buffer ++ d) = s.push d := rfl
  have hne : s.state ≠ .established := by simp [hs]
  rcases runCallback_withBuffer code cfg app hne callback with
    ⟨s₁, o, hcloses, hsame⟩ | ⟨s₁, o, hcloses, _, hsusp₁, hsame⟩
  · have hleft := hsame s.conn.buffer
    have hright := hsame (s.conn.buffer ++ d)
    rw [hbuffer] at hleft
    rw [hpush] at hright
    rw [hleft, hright]
    rcases hcloses.state with hstate | ⟨hstate, hclosed⟩
    · exact .waiting (hstate.trans hs) rfl rfl
    · exact .ignored (.inr ⟨hstate, hclosed⟩) (.ignored (s := s₁.withBuffer s.conn.buffer) _ hstate hclosed) rfl
  · have hleft := hsame s.conn.buffer
    have hright := hsame (s.conn.buffer ++ d)
    rw [hbuffer] at hleft
    rw [hpush] at hright
    rw [hleft, hright]
    exact (later_accepted code cfg app env (hsusp₁.trans hsusp) s.conn.buffer d).after_outputs rfl

/-- A connection that ignores what arrives does so when the callback goes on. -/
theorem Ignores.resume (h : s.Ignores) (callback : GateCallback WsClosing) :
    (s.resume code cfg app callback).1.Ignores := by
  rcases h with hover | ⟨hstate, hclosed⟩
  · rw [resume_of_idle hover.1]
    exact .inl hover
  · obtain ⟨s₁, o, hstate₁, hclosed₁, hsame⟩ := resume_ignored code cfg app hstate hclosed callback
    have hs : s.resume code cfg app callback = (s₁.withBuffer s.conn.buffer, o) := hsame s.conn.buffer
    rw [hs]
    exact .inr ⟨hstate₁, hclosed₁⟩

/-- The suspended callback goes on. -/
def andResume (code : WsCode η) (cfg : WsConfig) (app : SipApp α)
    (r : WsUpgrade η α × List WsUpgradeOut) (callback : GateCallback WsClosing) :
    WsUpgrade η α × List WsUpgradeOut :=
  ((r.1.resume code cfg app callback).1, r.2 ++ (r.1.resume code cfg app callback).2)

theorem andResume_of_idle (h : r.1.suspended = false) (callback : GateCallback WsClosing) :
    andResume code cfg app r callback = r := by
  unfold andResume
  rw [resume_of_idle h, List.append_nil]

/-- What arrives later arrives later than what the callback does. -/
theorem Later.andResume (h : Later code cfg app env d r r') (callback : GateCallback WsClosing) :
    Later code cfg app env d (WsUpgrade.andResume code cfg app r callback)
      (WsUpgrade.andResume code cfg app r' callback) := by
  cases h with
  | ignored hignores halike hout =>
    obtain ⟨halike', hsame⟩ := halike.resume code cfg app callback
    refine .ignored (hignores.resume callback) halike' ?_
    unfold WsUpgrade.andResume
    rw [shownOf_append, shownOf_append, hout, hsame]
  | waiting hstate hpush hout =>
    cases hsusp : r.1.suspended with
    | false =>
      have hsusp' : r'.1.suspended = false := by
        rw [hpush]
        exact hsusp
      rw [andResume_of_idle hsusp, andResume_of_idle hsusp']
      exact .waiting hstate hpush hout
    | true =>
      have hsusp' : r'.1.suspended = true := by
        rw [hpush]
        exact hsusp
      unfold WsUpgrade.andResume
      rw [resume_of_suspended hsusp, resume_of_suspended hsusp', hpush]
      exact (later_runCallback code cfg app env (s := { r.1 with suspended := false }) hstate rfl d
        callback).after_outputs hout
  | stalled hsusp hstalled hpush hout =>
    have hsusp' : r'.1.suspended = false := by
      rw [hpush]
      exact hsusp
    rw [andResume_of_idle hsusp, andResume_of_idle hsusp']
    exact .stalled hsusp hstalled hpush hout
  | opened hsusp hstate hnot hsame hout =>
    have hsusp' : r'.1.suspended = false := by
      rw [hsame, receiveData_of_established hstate]
      exact hsusp
    rw [andResume_of_idle hsusp, andResume_of_idle hsusp']
    exact .opened hsusp hstate hnot hsame hout

/-- Where the loop has not stalled, the bytes come to what they come to later. -/
theorem Later.alike (h : Later code cfg app env d r r') (hnot : ¬ r.1.Stalled cfg) :
    Alike (r.1.receiveData code cfg app env d).1 r'.1 ∧
      shownOf r'.2 = shownOf (r.2 ++ (r.1.receiveData code cfg app env d).2) := by
  cases h with
  | ignored hignores halike hout =>
    rw [hignores.receiveData, List.append_nil]
    exact ⟨halike, hout⟩
  | waiting hstate hpush hout =>
    rw [receiveData_of_waiting hstate, List.append_nil, hpush]
    exact ⟨.same _, hout⟩
  | stalled _ hstalled => exact absurd hstalled hnot
  | opened _ _ _ hsame hout =>
    rw [hsame]
    exact ⟨.same _, hout⟩

theorem Ignores.not_stalled (h : s.Ignores) : ¬ s.Stalled cfg := by
  rintro ⟨hstate, hstalled⟩
  rcases h with ⟨_, hignore | ⟨_, hignore⟩⟩ | ⟨hignore, _⟩
  · rw [hstate] at hignore
    cases hignore
  · rw [hstalled.alive] at hignore
    cases hignore
  · rw [hstate] at hignore
    cases hignore

/-- Where the loop has stalled, it does not come to the bytes. -/
theorem Later.of_stalled (h : Later code cfg app env d r r') (hstalled : r.1.Stalled cfg) :
    r.1.suspended = false ∧ r'.1 = r.1.push d ∧ shownOf r'.2 = shownOf r.2 := by
  cases h with
  | ignored hignores => exact absurd hstalled hignores.not_stalled
  | waiting hstate =>
    rw [hstalled.1] at hstate
    cases hstate
  | stalled hsusp _ hpush hout => exact ⟨hsusp, hpush, hout⟩
  | opened _ _ hnot => exact absurd hstalled hnot

end WsUpgrade

end OverSip
