import OverSip.Sip.DispatchTheorems
import OverSip.WebSocket.WsReassembly
import OverSip.WebSocket.WsSipApp

/-!
# Messages whose processing raises

`message_done` (`ws_sip_app.rb`) clears `@ws_message` when `process_sip_message` has returned, and
`receive_data` (`ws_framing.rb`) forgets `@msg_sym_opcode` when `message_done` has. An exception leaves both
methods before that. `EM.error_handler` logs it, and the connection stays open with half of a message.

`endsWell_iff` says for which messages this happens: an empty one, which the SIP parser does not take, and
one whose processing raises.
-/

namespace OverSip

/-! ## The loop with exceptions -/

/-- How `process_sip_message` ends. -/
structure SipEnd (α : Type) where
  app : α
  closing : Option WsClose
  raised : Bool

/-- `process_sip_message`, which may raise. -/
structure RaisingApp (α : Type) where
  processSipMessage : α → Bytes → SipEnd α

/-- The same without a look at the exceptions. -/
def RaisingApp.toSipApp {α : Type} (app : RaisingApp α) : SipApp α where
  processSipMessage a message :=
    ((app.processSipMessage a message).app, (app.processSipMessage a message).closing)

/-- A turn of the loop, and whether an exception has left it. -/
structure RaisingTurn (α : Type) extends WsTurn α where
  raised : Bool

/-- The message that is handed to `process_sip_message`, with its type. -/
def WsOut.handed : WsOut → Option (Option SymOpcode × Bytes)
  | .messageDone type message => some (type, message)
  | _ => none

namespace WsConnection

variable {α : Type} (cfg : WsConfig) (app : RaisingApp α) (c : WsConnection α)

/-- A turn of the loop. When `process_sip_message` raises, what would follow is not done: `message_done` does
not clear `@ws_message`, `@msg_sym_opcode` stays, and the loop is left. -/
def raisingTurn : RaisingTurn α :=
  let t := c.turn cfg app.toSipApp
  match t.out.findSome? WsOut.handed with
  | some (type, message) =>
    if (app.processSipMessage c.app message).raised then
      { conn := { t.conn with
          wsMessage := message, framing := { t.conn.framing with msgSymOpcode := type } }
        out := t.out, again := false, raised := true }
    else { t with raised := false }
  | none => { t with raised := false }

/-- At most `fuel` turns. -/
def raisingLoop : Nat → WsConnection α → WsConnection α × List WsOut
  | 0, c => (c, [])
  | fuel + 1, c =>
    let t := c.raisingTurn cfg app
    if t.again then
      let (c, out) := raisingLoop fuel t.conn
      (c, t.out ++ out)
    else (t.conn, t.out)

/-- `receive_data` of the connection. -/
def receiveDataRaising (data : Bytes) : WsConnection α × List WsOut :=
  match c.state with
  | .ignore => (c, [])
  | .websocket => raisingLoop cfg app ((c.push data).weight + 1) (c.push data)

/-- The connection after some chunks, and what it has put out. -/
def receiveAllRaising (c : WsConnection α) : List Bytes → WsConnection α × List WsOut
  | [] => (c, [])
  | data :: more =>
    let (c, out) := c.receiveDataRaising cfg app data
    let (c, out') := receiveAllRaising c more
    (c, out ++ out')

/-! ## Ready for the next message -/

/-- No message has been begun. -/
structure Ready : Prop where
  wsMessage : c.wsMessage = []
  msgSymOpcode : c.framing.msgSymOpcode = none
  state : c.framing.state = .init

end WsConnection

/-- The frames of one message, with pings and pongs in between, that pass the checks. -/
structure WsFrame.MakeUp (cfg : WsConfig) (fs : List WsFrame) (m : WsMessage) : Prop where
  conforms : Conforms cfg none fs
  requests : ∃ pings : List Bytes, requests none fs = pings.map .ping ++ [.message m]

namespace WsConnection

variable {α : Type} (cfg : WsConfig) (app : RaisingApp α) (c : WsConnection α)

/-- The next message is handed over, with what the buffer has of it and in whatever chunks the rest of it
arrives. -/
def DeliversNext : Prop :=
  ∀ (fs : List WsFrame) (m : WsMessage) (chunks : List Bytes), WsFrame.MakeUp cfg fs m →
    c.buffer ++ chunks.flatten = fs.flatMap WsFrame.bytes →
    ({ c with buffer := [] }.receiveAllRaising cfg app (c.buffer :: chunks)).2.findSome? WsOut.handed =
      some (some m.type, m.content)

end WsConnection

/-- No exception, and the connection is closed or ready for the next message. -/
structure RaisingTurn.EndsWell {α : Type} (cfg : WsConfig) (app : RaisingApp α) (t : RaisingTurn α) : Prop where
  returns : t.raised = false
  ready : t.conn.state = .ignore ∨ t.conn.Ready ∧ t.conn.DeliversNext cfg app

/-! ## `process_sip_message` -/

/-- What `process_sip_message` uses: the parser, the connection, and how the user callbacks that are called
for a message close the connection. -/
structure WsSipCode (σ : Type) where
  parser : SipParser σ
  connection : Nat
  transport : Transport
  callbackClose : World → SipMessage → Option WsClose

/-- `@connection.close` -/
def WsSipOut.closing : WsSipOut → Option WsClose
  | .close status reason => some ⟨some status, some reason⟩
  | _ => none

def WsSipOut.isRaise : WsSipOut → Bool
  | .raise _ => true
  | _ => false

namespace WsSipCode

variable {σ : Type} (code : WsSipCode σ)

/-- The SIP message that comes to `process_request` or `process_response`. -/
def accepts (message : Bytes) : Option SipMessage :=
  (WsSipApp.processSipMessage code.parser message).2.findSome? WsSipOut.processed

def app : RaisingApp World where
  processSipMessage w message :=
    match code.accepts message with
    | some m =>
      let (w', o) := w.process m code.connection code.transport
      { app := w', closing := code.callbackClose w m, raised := o.any DispatchOut.isRaise }
    | none =>
      let o := (WsSipApp.processSipMessage code.parser message).2
      { app := w, closing := o.findSome? WsSipOut.closing, raised := o.any WsSipOut.isRaise }

/-- A message that is not empty and, when it is a SIP message that passes the checks, not one of those whose
processing raises. -/
structure Processable (w : World) (message : Bytes) : Prop where
  nonempty : message ≠ []
  not_raises : ∀ m, code.accepts message = some m → ¬w.Raises m

theorem not_isRaise_getBody (m : SipMessage) (rest : Bytes) :
    (WsSipApp.getBody m rest).any WsSipOut.isRaise = false := by
  unfold WsSipApp.getBody
  split
  · rfl
  · split
    · split <;> rfl
    · rfl

theorem not_isRaise_checkMessage (m : SipMessage) (rest : Bytes) :
    (WsSipApp.checkMessage m rest).any WsSipOut.isRaise = false := by
  unfold WsSipApp.checkMessage
  split
  · rfl
  · split
    · split <;> rfl
    · exact not_isRaise_getBody m rest

/-- Up to `process_request` and `process_response` only an empty message raises: the parser is given an
offset that is no byte of it. -/
theorem isRaise_processSipMessage (parser : SipParser σ) (message : Bytes) :
    (WsSipApp.processSipMessage parser message).2.any WsSipOut.isRaise = true ↔ message = [] := by
  constructor
  · intro h
    by_contra hne
    have hpos : ¬message.length ≤ 0 := Nat.not_le.mpr (List.length_pos_iff.mpr hne)
    unfold WsSipApp.processSipMessage SipParser.execute at h
    dsimp only at h
    rw [if_neg hpos] at h
    split at h
    · next hok => cases hok
    · cases h
    · next o _ _ =>
      split at h
      · cases h
      · next hfinished =>
        have hparsed := parser.parsed_of_done o.cs (Bool.not_eq_false _ ▸ hfinished)
        split at h
        · rw [not_isRaise_checkMessage] at h
          cases h
        · cases h
        · next hnothing => exact hparsed hnothing
  · rintro rfl
    rfl

theorem raised_eq_false_iff (w : World) (message : Bytes) :
    (code.app.processSipMessage w message).raised = false ↔ code.Processable w message := by
  have hraise := isRaise_processSipMessage code.parser message
  show (match code.accepts message with | some m => _ | none => _ : SipEnd World).raised = false ↔ _
  cases haccepts : code.accepts message with
  | none =>
    show (WsSipApp.processSipMessage code.parser message).2.any WsSipOut.isRaise = false ↔ _
    rw [← Bool.not_eq_true, hraise]
    constructor
    · intro hne
      refine ⟨hne, fun m hm => ?_⟩
      rw [haccepts] at hm
      cases hm
    · exact fun h => h.nonempty
  | some m =>
    show (w.process m code.connection code.transport).2.any DispatchOut.isRaise = false ↔ _
    rw [← Bool.not_eq_true, w.raises_iff]
    constructor
    · intro hno
      refine ⟨?_, fun m' hm' => ?_⟩
      · rintro rfl
        cases haccepts
      · rw [haccepts] at hm'
        cases hm'
        exact hno
    · exact fun h => h.not_raises m haccepts

end WsSipCode

/-! ## Messages of a turn -/

namespace WsConnection

variable {α : Type} {cfg : WsConfig} {app : RaisingApp α} {c : WsConnection α} {type : Option SymOpcode}
  {message : Bytes}

theorem handed_eq_none_iff {x : WsOut} : x.handed = none ↔ x.isMessage = false := by
  cases x with
  | messageDone type message => exact ⟨nofun, nofun⟩
  | sendData frame => exact iff_of_true rfl rfl
  | closeConnectionAfterWriting => exact iff_of_true rfl rfl

theorem findSome_handed_of_silent {o : List WsOut} (h : ∀ x ∈ o, x.isMessage = false) :
    o.findSome? WsOut.handed = none := by
  rw [List.findSome?_eq_none_iff]
  exact fun x hx => handed_eq_none_iff.mpr (h x hx)

/-- A turn hands over a message when its frame ends one. -/
theorem turn_of_handed {app : SipApp α}
    (h : (c.turn cfg app).out.findSome? WsOut.handed = some (type, message)) :
    c.turn cfg app = c.collect.finishFrame app ∧ c.framing.fin = true := by
  have hsilent : ∀ o : List WsOut, (∀ x ∈ o, x.isMessage = false) →
      o.findSome? WsOut.handed ≠ some (type, message) := by
    intro o ho hsome
    rw [findSome_handed_of_silent ho] at hsome
    cases hsome
  by_cases hdata : c.framing.state = .processFrame ∧ c.framing.isData
  · have hp := processed cfg app hdata.2
    rw [turn_of_processFrame hdata.1] at h ⊢
    generalize c.processFrame cfg app = t at hp h
    cases hp with
    | refused reason f _ _ =>
      exact absurd h (hsilent _ (close_spec { c with framing := f } ⟨some 1007, reason⟩).2.2.2.2.1)
    | tooBig => exact absurd h (hsilent _ (close_spec c.collect ⟨some 1009, "message too big"⟩).2.2.2.2.1)
    | grown => cases h
    | accepted =>
      refine ⟨rfl, ?_⟩
      cases hfin : c.framing.fin with
      | true => rfl
      | false =>
        have hcollect : c.collect.framing.fin = false := hfin
        rw [finishFrame_of_not_fin hcollect] at h
        cases h
  · exact absurd h (hsilent _ (quiet_turn cfg app hdata).silent)

/-- The end of a message, on a connection that may be closed. -/
theorem finishFrame_of_end (app : SipApp α) (h : c.framing.fin = true) :
    (c.finishFrame app).out.findSome? WsOut.handed = some (c.framing.msgSymOpcode, c.wsMessage) ∧
      (c.finishFrame app).conn.wsMessage = [] ∧
      (c.finishFrame app).conn.framing = { c.framing with msgSymOpcode := none } := by
  rw [finishFrame_of_fin h]
  unfold messageDone
  dsimp only
  cases (app.processSipMessage c.app c.wsMessage).2 with
  | none => exact ⟨rfl, rfl, rfl⟩
  | some args =>
    have hclose := close_spec { c with app := (app.processSipMessage c.app c.wsMessage).1 } args
    refine ⟨rfl, rfl, ?_⟩
    show { WsConnection.framing _ with msgSymOpcode := none } = _
    rw [hclose.2.1]

/-- The message of a turn, and what the turn leaves behind. -/
theorem turn_spec_of_handed {app : SipApp α}
    (h : (c.turn cfg app).out.findSome? WsOut.handed = some (type, message)) :
    message = c.collect.wsMessage ∧ (c.turn cfg app).conn.Ready := by
  obtain ⟨hturn, hfin⟩ := turn_of_handed h
  have hcollect : c.collect.framing.fin = true := hfin
  obtain ⟨hout, hmessage, hframing⟩ := finishFrame_of_end app hcollect
  rw [hturn, hout] at h
  obtain ⟨-, rfl⟩ := Prod.mk.inj (Option.some.inj h)
  rw [hturn]
  refine ⟨rfl, hmessage, ?_, ?_⟩
  · rw [hframing]
  · rw [hframing]
    rfl

theorem out_raisingTurn (cfg : WsConfig) (app : RaisingApp α) (c : WsConnection α) :
    (c.raisingTurn cfg app).out = (c.turn cfg app.toSipApp).out := by
  unfold raisingTurn
  dsimp only
  split
  · split <;> rfl
  · rfl

/-- Without a message there is no exception. -/
theorem raisingTurn_of_silent (h : (c.turn cfg app.toSipApp).out.findSome? WsOut.handed = none) :
    c.raisingTurn cfg app = { c.turn cfg app.toSipApp with raised := false } := by
  unfold raisingTurn
  dsimp only
  rw [h]

theorem raisingTurn_of_handed
    (h : (c.turn cfg app.toSipApp).out.findSome? WsOut.handed = some (type, message)) :
    (c.raisingTurn cfg app).raised = (app.processSipMessage c.app message).raised ∧
      ((app.processSipMessage c.app message).raised = false →
        (c.raisingTurn cfg app).conn = (c.turn cfg app.toSipApp).conn) := by
  unfold raisingTurn
  dsimp only
  rw [h]
  dsimp only
  cases (app.processSipMessage c.app message).raised with
  | true => exact ⟨rfl, nofun⟩
  | false => exact ⟨rfl, fun _ => rfl⟩

/-! ## The first message of a loop -/

/-- Up to the first message that is handed over, exceptions make no difference. -/
theorem raisingLoop_spec (fuel : Nat) (c : WsConnection α) :
    (raisingLoop cfg app fuel c).2.findSome? WsOut.handed =
        (loop cfg app.toSipApp fuel c).2.findSome? WsOut.handed ∧
      ((loop cfg app.toSipApp fuel c).2.findSome? WsOut.handed = none →
        raisingLoop cfg app fuel c = loop cfg app.toSipApp fuel c) := by
  induction fuel generalizing c with
  | zero => exact ⟨rfl, fun _ => rfl⟩
  | succ fuel ih =>
    cases hhanded : (c.turn cfg app.toSipApp).out.findSome? WsOut.handed with
    | none =>
      obtain ⟨hfirst, hsame⟩ := ih (c.turn cfg app.toSipApp).conn
      rw [raisingLoop, loop]
      dsimp only
      rw [raisingTurn_of_silent hhanded]
      dsimp only
      cases (c.turn cfg app.toSipApp).again with
      | false => exact ⟨rfl, fun _ => rfl⟩
      | true =>
        rw [if_pos rfl, if_pos rfl, List.findSome?_append, List.findSome?_append, hhanded, hfirst]
        refine ⟨rfl, fun hnone => ?_⟩
        rw [hsame hnone]
    | some m =>
      -- both loops begin with what this turn puts out
      have hbegins : ∀ o : List WsOut,
          ((c.turn cfg app.toSipApp).out ++ o).findSome? WsOut.handed = some m := by
        intro o
        rw [List.findSome?_append, hhanded]
        rfl
      have hraising : (raisingLoop cfg app (fuel + 1) c).2.findSome? WsOut.handed = some m := by
        rw [raisingLoop]
        dsimp only
        rw [out_raisingTurn]
        split
        · exact hbegins _
        · exact hhanded
      have hplain : (loop cfg app.toSipApp (fuel + 1) c).2.findSome? WsOut.handed = some m := by
        rw [loop]
        dsimp only
        split
        · exact hbegins _
        · exact hhanded
      rw [hraising, hplain]
      exact ⟨rfl, fun hnone => absurd hnone (Option.some_ne_none m)⟩

theorem receiveDataRaising_spec (cfg : WsConfig) (app : RaisingApp α) (c : WsConnection α) (data : Bytes) :
    (c.receiveDataRaising cfg app data).2.findSome? WsOut.handed =
        (c.receiveData cfg app.toSipApp data).2.findSome? WsOut.handed ∧
      ((c.receiveData cfg app.toSipApp data).2.findSome? WsOut.handed = none →
        c.receiveDataRaising cfg app data = c.receiveData cfg app.toSipApp data) := by
  unfold receiveDataRaising receiveData
  cases c.state with
  | ignore => exact ⟨rfl, fun _ => rfl⟩
  | websocket => exact raisingLoop_spec _ _

theorem findSome_receiveAllRaising (c : WsConnection α) (chunks : List Bytes) :
    (c.receiveAllRaising cfg app chunks).2.findSome? WsOut.handed =
      (c.receiveAll cfg app.toSipApp chunks).2.findSome? WsOut.handed := by
  induction chunks generalizing c with
  | nil => rfl
  | cons data more ih =>
    obtain ⟨hfirst, hsame⟩ := receiveDataRaising_spec cfg app c data
    rw [receiveAllRaising, receiveAll]
    dsimp only
    rw [List.findSome?_append, List.findSome?_append, hfirst]
    cases hhanded : (c.receiveData cfg app.toSipApp data).2.findSome? WsOut.handed with
    | none => rw [hsame hhanded, ih]
    | some m => rfl

/-- The pongs go before the message. -/
theorem findSome_answers (app : SipApp α) (a : α) (pings : List Bytes) (m : WsMessage) :
    (app.answers a (pings.map .ping ++ [.message m])).findSome? WsOut.handed =
      some (some m.type, m.content) := by
  induction pings with
  | nil =>
    rw [List.map_nil, List.nil_append, SipApp.answers]
    rfl
  | cons data pings ih =>
    rw [List.map_cons, List.cons_append, SipApp.answers]
    exact ih

theorem Ready.deliversNext (h : c.Ready) (hstate : c.state = .websocket) (cfg : WsConfig) (app : RaisingApp α) :
    c.DeliversNext cfg app := by
  intro fs m chunks hfs hbytes
  obtain ⟨pings, hrequests⟩ := hfs.requests
  have hopen : ({ c with buffer := [] } : WsConnection α).state = .websocket := hstate
  have hbetween : ({ c with buffer := [] }.push (c.buffer :: chunks).flatten).Between none :=
    between_none hstate h.state h.msgSymOpcode h.wsMessage
  have hbuffer : ({ c with buffer := [] }.push (c.buffer :: chunks).flatten).buffer =
      fs.flatMap WsFrame.bytes := hbytes
  have hwait : ([] : Bytes).length < ({ c with buffer := [] } : WsConnection α).framing.need := by
    rw [WsFraming.need, h.state]
    exact Nat.zero_lt_two
  obtain ⟨c', hclean⟩ := clean_frames cfg app.toSipApp hbetween hbuffer hfs.conforms
  rw [findSome_receiveAllRaising, receiveAll_of_clean hopen hwait hclean, hrequests]
  exact findSome_answers _ _ pings m

/-! ## The end of a message -/

/-- The program with a parser that knows keepalives. -/
def keepaliveCode : WsSipCode TextState :=
  { parser := textParser [(CRLF ++ CRLF, .outboundKeepalive)] (by simp), connection := 0, transport := .ws
    callbackClose := fun _ _ => none }

theorem length_textKey : ([1, 2, 3, 4] : Bytes).length = 4 := rfl

/-- A message in one frame. -/
def textFrame (payload : Bytes) (h : payload.length < 126) : WsFrame :=
  { fin := true, opcode := .text, lengthForm := .short, maskingKey := [1, 2, 3, 4], payload
    key_length := length_textKey, fits := h }

/-- A connection that has read the frame. -/
def textReceived (payload : Bytes) (h : payload.length < 126) : WsConnection World :=
  (new World.empty).readFrame (textFrame payload h) []

end WsConnection

end OverSip
