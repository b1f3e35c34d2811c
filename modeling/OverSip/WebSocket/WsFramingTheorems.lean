import OverSip.Lib.Framing
import OverSip.WebSocket.WsFraming

/-!
# What a turn of the WebSocket loop does

`Processed` says what becomes of the payload of a data frame, `Wf` what the checks of a frame have
established when its payload is processed. `Pushed` says that a turn does not look at the bytes behind
those it reads, and `weight_turn` that the loop comes to an end.
-/

namespace OverSip

/-- A message is handed to `process_sip_message`. -/
def WsOut.isMessage : WsOut → Bool
  | .messageDone _ _ => true
  | _ => false

namespace WsConnection

variable {α : Type} {cfg : WsConfig} {app : SipApp α} {c : WsConnection α} {d bytes : Bytes}

/-! ## Closing -/

theorem close_of_websocket (h : c.state = .websocket) (args : WsClose) :
    c.close args = ({ c with state := .ignore, buffer := [] },
      [.sendData (closeFrame args), .closeConnectionAfterWriting]) := by
  unfold close
  rw [h]

theorem fail_of_websocket (h : c.state = .websocket) (status : Nat) (reason : Option String) :
    c.fail status reason = { conn := { c with state := .ignore, buffer := [] }
                             out := [.sendData (closeFrame ⟨some status, reason⟩),
                               .closeConnectionAfterWriting]
                             again := false } := by
  unfold fail
  rw [close_of_websocket h]

/-- A connection ends in `:ignore`, and nothing else of it changes but the buffer. -/
theorem close_spec (c : WsConnection α) (args : WsClose) :
    (c.close args).1.state = .ignore ∧ (c.close args).1.framing = c.framing ∧
      (c.close args).1.wsMessage = c.wsMessage ∧ (c.close args).1.app = c.app ∧
      (∀ x ∈ (c.close args).2, x.isMessage = false) ∧
      (c.state = .websocket → (c.close args).1.buffer = []) := by
  unfold close
  cases hstate : c.state with
  | websocket => exact ⟨rfl, rfl, rfl, rfl, by simp [WsOut.isMessage], fun _ => rfl⟩
  | ignore => exact ⟨hstate, rfl, rfl, rfl, by simp [WsOut.isMessage], fun h => nomatch h⟩

/-- A message is handed over, and the connection may be closed for it. -/
theorem messageDone_spec (app : SipApp α) (hc : c.state = .websocket) (type : Option SymOpcode) :
    (c.messageDone app type).1.wsMessage = [] ∧ (c.messageDone app type).1.framing = c.framing ∧
      (c.messageDone app type).1.app = (app.processSipMessage c.app c.wsMessage).1 ∧
      (((app.processSipMessage c.app c.wsMessage).2 = none ∧
          (c.messageDone app type).1.state = .websocket ∧
          (c.messageDone app type).1.buffer = c.buffer ∧
          (c.messageDone app type).2 = [.messageDone type c.wsMessage]) ∨
        ∃ args, (app.processSipMessage c.app c.wsMessage).2 = some args ∧
          (c.messageDone app type).1.state = .ignore ∧ (c.messageDone app type).1.buffer = [] ∧
          (c.messageDone app type).2 = [.messageDone type c.wsMessage, .sendData (closeFrame args),
            .closeConnectionAfterWriting]) := by
  unfold messageDone
  dsimp only
  cases hclosing : (app.processSipMessage c.app c.wsMessage).2 with
  | none => exact ⟨rfl, rfl, rfl, .inl ⟨rfl, hc, rfl, rfl⟩⟩
  | some args =>
    dsimp only
    rw [close_of_websocket (c := { c with app := (app.processSipMessage c.app c.wsMessage).1 }) hc]
    exact ⟨rfl, rfl, rfl, .inr ⟨args, rfl, rfl, rfl, rfl⟩⟩

end WsConnection

/-! ## The payload of a data frame -/

namespace WsFraming

variable (f : WsFraming)

/-- The type of the message that a data frame belongs to. -/
def messageOpcode : Option SymOpcode :=
  match f.symOpcode with
  | .text => some .text
  | .binary => some .binary
  | _ => f.msgSymOpcode

/-- The state in which the validator reads the payload. -/
def utf8Before : Nat :=
  match f.symOpcode with
  | .text => UTF8_ACCEPT
  | _ => f.utf8Validator

/-- The payload, also when it is `nil`. -/
def payloadBytes : Bytes := f.payload.getD []

/-- The payload is read by the validator. -/
def isTextPayload : Prop := f.messageOpcode = some .text ∧ f.payload ≠ none

/-- The connection is closed for what the validator says. -/
def isRefused : Prop :=
  f.isTextPayload ∧ ((Utf8Validator.validate f.utf8Before f.payloadBytes).2 = .invalid ∨
    f.fin = true ∧ (Utf8Validator.validate f.utf8Before f.payloadBytes).2 ≠ .valid)

instance : Decidable f.isTextPayload :=
  inferInstanceAs (Decidable (f.messageOpcode = some .text ∧ f.payload ≠ none))

instance : Decidable f.isRefused :=
  inferInstanceAs (Decidable (f.isTextPayload ∧
    ((Utf8Validator.validate f.utf8Before f.payloadBytes).2 = .invalid ∨
      f.fin = true ∧ (Utf8Validator.validate f.utf8Before f.payloadBytes).2 ≠ .valid)))

/-- The state of the validator when the frame has been processed. -/
def utf8After : Nat :=
  if f.messageOpcode = some .text then (Utf8Validator.validate f.utf8Before f.payloadBytes).1
  else f.utf8Validator

/-- A data frame: the payload belongs to a message. -/
def isData : Prop := f.symOpcode = .text ∨ f.symOpcode = .binary ∨ f.symOpcode = .continuation

variable {f}

theorem messageOpcode_of_text (h : f.symOpcode = .text) : f.messageOpcode = some .text := by
  unfold messageOpcode
  rw [h]

theorem messageOpcode_of_binary (h : f.symOpcode = .binary) : f.messageOpcode = some .binary := by
  unfold messageOpcode
  rw [h]

theorem messageOpcode_of_continuation (h : f.symOpcode = .continuation) :
    f.messageOpcode = f.msgSymOpcode := by
  unfold messageOpcode
  rw [h]

end WsFraming

namespace WsConnection

variable {α : Type} {cfg : WsConfig} {app : SipApp α} {c : WsConnection α} {d bytes : Bytes}

/-- The connection when the payload of a data frame has been added to the message. -/
def collect (c : WsConnection α) : WsConnection α :=
  { c with
    wsMessage := c.wsMessage ++ c.framing.payloadBytes
    framing := { c.framing with
      state := .init, msgSymOpcode := c.framing.messageOpcode, utf8Validator := c.framing.utf8After } }

/-- What becomes of a data frame. -/
inductive Processed (cfg : WsConfig) (app : SipApp α) (c : WsConnection α) : WsTurn α → Prop
  /-- The text is not UTF-8. -/
  | refused (reason : String) (f : WsFraming) : c.framing.isRefused → f.state = .init →
      Processed cfg app c ({ c with framing := f }.fail 1007 reason)
  /-- The message is too big, and this is its first frame. -/
  | tooBig : ¬ c.framing.isRefused → c.framing.payload ≠ none → c.framing.symOpcode ≠ .continuation →
      cfg.maxWsMessageSize < c.collect.wsMessage.length →
      Processed cfg app c (c.collect.fail 1009 "message too big")
  /-- The message has become too big. -/
  | grown : ¬ c.framing.isRefused → c.framing.payload ≠ none → c.framing.symOpcode = .continuation →
      cfg.maxWsMessageSize < c.collect.wsMessage.length → Processed cfg app c c.collect.stop
  /-- The payload is accepted. -/
  | accepted : ¬ c.framing.isRefused →
      (c.framing.payload = none ∨ c.collect.wsMessage.length ≤ cfg.maxWsMessageSize) →
      Processed cfg app c (c.collect.finishFrame app)

/-- The UTF-8 checks pass, or the connection is closed. -/
theorem checkUtf8_eq (invalid incomplete : String) (k : WsConnection α → WsTurn α) :
    c.checkUtf8 bytes invalid incomplete k =
      if (Utf8Validator.validate c.framing.utf8Validator bytes).2 = .invalid then
        (c.validateUtf8 bytes).1.fail 1007 invalid
      else if c.framing.fin = true ∧
          (Utf8Validator.validate c.framing.utf8Validator bytes).2 ≠ .valid then
        (c.validateUtf8 bytes).1.fail 1007 incomplete
      else k (c.validateUtf8 bytes).1 := by
  unfold checkUtf8 validateUtf8
  simp only [Bool.and_eq_true, decide_eq_true_eq]

/-- The connection when a data frame has been looked at, up to its payload. -/
def opened (c : WsConnection α) (u : Nat) : WsConnection α :=
  { c with framing := { c.framing with
    state := .init, msgSymOpcode := c.framing.messageOpcode, utf8Validator := u } }

theorem opened_receivePayloadData {p : Bytes} (hp : c.framing.payloadBytes = p) :
    (c.opened c.framing.utf8After).receivePayloadData cfg p =
      (c.collect, !decide (cfg.maxWsMessageSize < c.collect.wsMessage.length)) := by
  subst hp
  rfl

/-- A payload of the message, in a first frame and in a continuation frame. -/
theorem processed_of_payload {p : Bytes} (hp : c.framing.payload = some p)
    (hrefused : ¬ c.framing.isRefused) :
    (c.framing.symOpcode ≠ .continuation →
        Processed cfg app c ((c.opened c.framing.utf8After).receiveFirst cfg app p)) ∧
      (c.framing.symOpcode = .continuation →
        Processed cfg app c ((c.opened c.framing.utf8After).receiveMore cfg app p)) := by
  have hbytes : c.framing.payloadBytes = p := by
    unfold WsFraming.payloadBytes
    rw [hp]
    rfl
  have hne : c.framing.payload ≠ none := by
    rw [hp]
    exact Option.some_ne_none p
  unfold receiveFirst receiveMore
  rw [opened_receivePayloadData hbytes]
  dsimp only
  by_cases hbig : cfg.maxWsMessageSize < c.collect.wsMessage.length
  · simp only [hbig, decide_true, Bool.not_true, Bool.false_eq_true, if_false]
    exact ⟨fun hop => .tooBig hrefused hne hop hbig, fun hop => .grown hrefused hne hop hbig⟩
  · simp only [hbig, decide_false, Bool.not_false, if_true]
    have haccepted : Processed cfg app c (c.collect.finishFrame app) :=
      .accepted hrefused (.inr (Nat.le_of_not_lt hbig))
    exact ⟨fun _ => haccepted, fun _ => haccepted⟩

/-- A frame without a payload. -/
theorem processed_of_none (hp : c.framing.payload = none) {u : Nat} (hu : c.framing.utf8After = u) :
    Processed cfg app c ((c.opened u).finishFrame app) := by
  have hcollect : c.collect = c.opened u := by
    unfold collect opened WsFraming.payloadBytes
    rw [hu, hp]
    show { c with wsMessage := c.wsMessage ++ [], framing := _ } = _
    rw [List.append_nil]
  rw [← hcollect]
  exact .accepted (fun h => h.1.2 hp) (.inl hp)

/-- A text payload is checked before it is added to the message. -/
theorem processed_of_checkUtf8 {p : Bytes} (hp : c.framing.payload = some p)
    (htype : c.framing.messageOpcode = some .text) (invalid incomplete : String)
    {k : WsConnection α → WsTurn α} (hk : ¬ c.framing.isRefused →
      Processed cfg app c (k (c.opened c.framing.utf8After))) :
    Processed cfg app c ((c.opened c.framing.utf8Before).checkUtf8 p invalid incomplete k) := by
  have hbytes : c.framing.payloadBytes = p := by
    unfold WsFraming.payloadBytes
    rw [hp]
    rfl
  have htext : c.framing.isTextPayload := by
    refine ⟨htype, ?_⟩
    rw [hp]
    exact Option.some_ne_none p
  have hafter : ((c.opened c.framing.utf8Before).validateUtf8 p).1 = c.opened c.framing.utf8After := by
    unfold WsFraming.utf8After
    rw [if_pos htype, hbytes]
    rfl
  have hverdict : Utf8Validator.validate (c.opened c.framing.utf8Before).framing.utf8Validator p =
      Utf8Validator.validate c.framing.utf8Before c.framing.payloadBytes := by
    rw [hbytes]
    rfl
  rw [checkUtf8_eq, hverdict, hafter]
  by_cases hinvalid : (Utf8Validator.validate c.framing.utf8Before c.framing.payloadBytes).2 = .invalid
  · rw [if_pos hinvalid]
    exact .refused invalid _ ⟨htext, .inl hinvalid⟩ rfl
  · rw [if_neg hinvalid]
    by_cases hincomplete : c.framing.fin = true ∧
        (Utf8Validator.validate c.framing.utf8Before c.framing.payloadBytes).2 ≠ .valid
    · rw [if_pos (show (c.opened c.framing.utf8Before).framing.fin = true ∧ _ from hincomplete)]
      exact .refused incomplete _ ⟨htext, .inr hincomplete⟩ rfl
    · rw [if_neg (show ¬ ((c.opened c.framing.utf8Before).framing.fin = true ∧ _) from hincomplete)]
      refine hk fun hrefused => ?_
      rcases hrefused.2 with h | h
      · exact hinvalid h
      · exact hincomplete h

theorem processed_text (h : c.framing.symOpcode = .text) :
    Processed cfg app c (c.processFrame cfg app) := by
  have htype := WsFraming.messageOpcode_of_text h
  have hbefore : c.framing.utf8Before = UTF8_ACCEPT := by
    unfold WsFraming.utf8Before
    rw [h]
  have hopened : { c with framing := { c.framing with
      state := .init, msgSymOpcode := some .text, utf8Validator := UTF8_ACCEPT } } =
      c.opened c.framing.utf8Before := by
    unfold opened
    rw [htype, hbefore]
  have hprocess : c.processFrame cfg app =
      ({ c with framing := { c.framing with state := .init } } : WsConnection α).processText cfg app := by
    unfold processFrame
    dsimp only
    rw [h]
  cases hp : c.framing.payload with
  | none =>
    have hturn : c.processFrame cfg app = (c.opened c.framing.utf8Before).finishFrame app := by
      rw [← hopened, hprocess]
      unfold processText
      dsimp only
      rw [hp]
    rw [hturn]
    refine processed_of_none hp ?_
    unfold WsFraming.utf8After WsFraming.payloadBytes
    rw [if_pos htype, hp]
    rfl
  | some p =>
    have hturn : c.processFrame cfg app = (c.opened c.framing.utf8Before).checkUtf8 p
        "single text frame contains invalid UTF-8" "single text frame contains incomplete UTF-8"
        fun c => c.receiveFirst cfg app p := by
      rw [← hopened, hprocess]
      unfold processText
      dsimp only
      rw [hp]
    rw [hturn]
    refine processed_of_checkUtf8 hp htype _ _ fun hrefused => ?_
    exact (processed_of_payload hp hrefused).1 (by rw [h]; exact nofun)

theorem utf8After_of_ne (h : c.framing.messageOpcode ≠ some .text) :
    c.framing.utf8After = c.framing.utf8Validator := if_neg h

theorem processed_binary (h : c.framing.symOpcode = .binary) :
    Processed cfg app c (c.processFrame cfg app) := by
  have htype := WsFraming.messageOpcode_of_binary h
  have hafter : c.framing.utf8After = c.framing.utf8Validator :=
    utf8After_of_ne (by rw [htype]; exact nofun)
  have hrefused : ¬ c.framing.isRefused := fun hr => by
    have := hr.1.1
    rw [htype] at this
    cases this
  have hopened : { c with framing := { c.framing with state := .init, msgSymOpcode := some .binary } } =
      c.opened c.framing.utf8After := by
    unfold opened
    rw [htype, hafter]
  have hprocess : c.processFrame cfg app =
      ({ c with framing := { c.framing with state := .init } } : WsConnection α).processBinary cfg app := by
    unfold processFrame
    dsimp only
    rw [h]
  cases hp : c.framing.payload with
  | none =>
    have hturn : c.processFrame cfg app = (c.opened c.framing.utf8After).finishFrame app := by
      rw [← hopened, hprocess]
      unfold processBinary
      dsimp only
      rw [hp]
    rw [hturn]
    exact processed_of_none hp rfl
  | some p =>
    have hturn : c.processFrame cfg app = (c.opened c.framing.utf8After).receiveFirst cfg app p := by
      rw [← hopened, hprocess]
      unfold processBinary
      dsimp only
      rw [hp]
    rw [hturn]
    exact (processed_of_payload hp hrefused).1 (by rw [h]; exact nofun)

theorem processed_continuation (h : c.framing.symOpcode = .continuation) :
    Processed cfg app c (c.processFrame cfg app) := by
  have htype := WsFraming.messageOpcode_of_continuation h
  have hbefore : c.framing.utf8Before = c.framing.utf8Validator := by
    unfold WsFraming.utf8Before
    rw [h]
  have hopened : { c with framing := { c.framing with state := .init } } =
      c.opened c.framing.utf8Before := by
    unfold opened
    rw [htype, hbefore]
  have hturn : c.processFrame cfg app =
      (c.opened c.framing.utf8Before).processContinuation cfg app := by
    rw [← hopened]
    unfold processFrame
    dsimp only
    rw [h]
  rw [hturn]
  unfold processContinuation
  rw [show (c.opened c.framing.utf8Before).framing.payload = c.framing.payload from rfl,
    show (c.opened c.framing.utf8Before).framing.msgSymOpcode = c.framing.messageOpcode from rfl]
  cases hp : c.framing.payload with
  | none =>
    refine processed_of_none hp ?_
    unfold WsFraming.utf8After WsFraming.payloadBytes
    rw [hbefore, hp]
    split_ifs <;> rfl
  | some p =>
    dsimp only
    by_cases htext : c.framing.messageOpcode = some .text
    · rw [if_pos htext]
      refine processed_of_checkUtf8 hp htext _ _ fun hrefused => ?_
      exact (processed_of_payload hp hrefused).2 h
    · rw [if_neg htext, hbefore, ← utf8After_of_ne htext]
      exact (processed_of_payload hp fun hr => htext hr.1.1).2 h

/-- What becomes of a data frame. -/
theorem processed (cfg : WsConfig) (app : SipApp α) (h : c.framing.isData) : Processed cfg app c (c.processFrame cfg app) := by
  rcases h with h | h | h
  · exact processed_text h
  · exact processed_binary h
  · exact processed_continuation h

/-- A finished message is handed over, another one goes on. -/
theorem finishFrame_of_fin (h : c.framing.fin = true) :
    c.finishFrame app =
      { conn := { (c.messageDone app c.framing.msgSymOpcode).1 with framing :=
          { (c.messageDone app c.framing.msgSymOpcode).1.framing with msgSymOpcode := none } }
        out := (c.messageDone app c.framing.msgSymOpcode).2
        again := true } := by
  unfold finishFrame
  rw [if_pos h]

theorem finishFrame_of_not_fin (h : c.framing.fin = false) :
    c.finishFrame app = { conn := c, out := [], again := true } := by
  unfold finishFrame
  rw [h]
  rfl

/-! ## Bytes behind those that are read -/

/-- The results of a turn without and with more bytes in the buffer. -/
structure Pushed (d : Bytes) (t t' : WsTurn α) : Prop where
  out : t'.out = t.out
  again : t'.again = t.again
  conn : t'.conn = t.conn.push d ∨ t.conn.state = .ignore ∧ t'.conn = t.conn

@[simp] theorem push_framing (c : WsConnection α) (d : Bytes) : (c.push d).framing = c.framing := rfl

@[simp] theorem push_state (c : WsConnection α) (d : Bytes) : (c.push d).state = c.state := rfl

theorem pushed_stop : Pushed d c.stop (c.push d).stop := ⟨rfl, rfl, .inl rfl⟩

theorem pushed_goOn (s : WsState) : Pushed d (c.goOn s) ((c.push d).goOn s) := ⟨rfl, rfl, .inl rfl⟩

theorem pushed_fail (h : c.state = .websocket) (status : Nat) (reason : Option String) :
    Pushed d (c.fail status reason) ((c.push d).fail status reason) := by
  rw [fail_of_websocket h, fail_of_websocket (c := c.push d) h]
  exact ⟨rfl, rfl, .inr ⟨rfl, rfl⟩⟩

theorem pushed_ite {p : Prop} [Decidable p] {t t' u u' : WsTurn α} (ht : Pushed d t t')
    (hu : Pushed d u u') : Pushed d (if p then t else u) (if p then t' else u') := by
  by_cases hp : p
  · rw [if_pos hp, if_pos hp]
    exact ht
  · rw [if_neg hp, if_neg hp]
    exact hu

theorem pushed_readHeader (h : c.state = .websocket) (bytes : Bytes) :
    Pushed d (c.readHeader bytes) ((c.push d).readHeader bytes) := by
  unfold readHeader
  dsimp only
  refine pushed_ite (pushed_fail h _ _) ?_
  split
  · exact pushed_fail h _ _
  · refine pushed_ite (pushed_fail h _ _) ?_
    exact pushed_ite (pushed_goOn _) (pushed_ite (pushed_goOn _) (pushed_goOn _))

theorem pushed_readPayloadLength8Bytes (h : c.state = .websocket) (bytes : Bytes) :
    Pushed d (c.readPayloadLength8Bytes bytes) ((c.push d).readPayloadLength8Bytes bytes) := by
  unfold readPayloadLength8Bytes
  exact pushed_ite (pushed_fail h _ _) (pushed_goOn _)

theorem pushed_checkFrame (h : c.state = .websocket) :
    Pushed d (c.checkFrame cfg) ((c.push d).checkFrame cfg) := by
  unfold checkFrame
  rw [push_framing]
  refine pushed_ite (pushed_fail h _ _) (pushed_ite (pushed_fail h _ _) ?_)
  refine pushed_ite (pushed_fail h _ _) (pushed_ite (pushed_fail h _ _) ?_)
  exact pushed_ite (pushed_fail h _ _) (pushed_goOn _)

theorem pushed_messageDone (app : SipApp α) (d : Bytes) (h : c.state = .websocket) (type : Option SymOpcode) :
    ((c.push d).messageDone app type).2 = (c.messageDone app type).2 ∧
      (((c.push d).messageDone app type).1 = (c.messageDone app type).1.push d ∨
        (c.messageDone app type).1.state = .ignore ∧
          ((c.push d).messageDone app type).1 = (c.messageDone app type).1) := by
  simp only [messageDone, push]
  cases (app.processSipMessage c.app c.wsMessage).2 with
  | none => exact ⟨rfl, .inl rfl⟩
  | some args =>
    -- the buffer is cleared, whatever is in it
    simp only [close, h]
    exact ⟨trivial, .inr ⟨trivial, trivial⟩⟩

theorem pushed_finishFrame (h : c.state = .websocket) :
    Pushed d (c.finishFrame app) ((c.push d).finishFrame app) := by
  cases hfin : c.framing.fin with
  | false =>
    rw [finishFrame_of_not_fin hfin, finishFrame_of_not_fin (c := c.push d) hfin]
    exact ⟨rfl, rfl, .inl rfl⟩
  | true =>
    obtain ⟨hout, hconn⟩ := pushed_messageDone app d h c.framing.msgSymOpcode
    rw [finishFrame_of_fin hfin, finishFrame_of_fin (c := c.push d) hfin]
    refine ⟨hout, rfl, ?_⟩
    rcases hconn with hconn | ⟨hstate, hconn⟩
    · left
      dsimp only
      rw [push_framing, hconn]
      rfl
    · right
      dsimp only
      rw [push_framing, hconn]
      exact ⟨hstate, rfl⟩

theorem pushed_receiveFirst (h : c.state = .websocket) (p : Bytes) :
    Pushed d (c.receiveFirst cfg app p) ((c.push d).receiveFirst cfg app p) := by
  unfold receiveFirst receivePayloadData
  rw [show (c.push d).wsMessage = c.wsMessage from rfl]
  exact pushed_ite (pushed_finishFrame (c := { c with wsMessage := c.wsMessage ++ p }) h)
    (pushed_fail (c := { c with wsMessage := c.wsMessage ++ p }) h _ _)

theorem pushed_receiveMore (h : c.state = .websocket) (p : Bytes) :
    Pushed d (c.receiveMore cfg app p) ((c.push d).receiveMore cfg app p) := by
  unfold receiveMore receivePayloadData
  rw [show (c.push d).wsMessage = c.wsMessage from rfl]
  exact pushed_ite (pushed_finishFrame (c := { c with wsMessage := c.wsMessage ++ p }) h)
    (pushed_stop (c := { c with wsMessage := c.wsMessage ++ p }))

theorem pushed_checkUtf8 (h : c.state = .websocket) (p : Bytes) (invalid incomplete : String)
    {k : WsConnection α → WsTurn α}
    (hk : ∀ c₁ : WsConnection α, c₁.state = .websocket → Pushed d (k c₁) (k (c₁.push d))) :
    Pushed d (c.checkUtf8 p invalid incomplete k) ((c.push d).checkUtf8 p invalid incomplete k) := by
  have hvalidate : ((c.push d).validateUtf8 p).1 = (c.validateUtf8 p).1.push d := rfl
  have hstate : (c.validateUtf8 p).1.state = .websocket := h
  rw [checkUtf8_eq, checkUtf8_eq, hvalidate, push_framing]
  exact pushed_ite (pushed_fail hstate _ _) (pushed_ite (pushed_fail hstate _ _) (hk _ hstate))

theorem pushed_processClose (h : c.state = .websocket) :
    Pushed d c.processClose (c.push d).processClose := by
  have hanswer : ∀ c₁ : WsConnection α, c₁.state = .websocket →
      Pushed d { conn := (c₁.close ⟨none, none⟩).1, out := (c₁.close ⟨none, none⟩).2, again := false }
        { conn := ((c₁.push d).close ⟨none, none⟩).1, out := ((c₁.push d).close ⟨none, none⟩).2
          again := false } := by
    intro c₁ h₁
    rw [close_of_websocket h₁, close_of_websocket (c := c₁.push d) h₁]
    exact ⟨rfl, rfl, .inr ⟨rfl, rfl⟩⟩
  unfold processClose
  rw [push_framing]
  refine pushed_ite ?_ (hanswer c h)
  unfold validateUtf8
  dsimp only
  generalize Utf8Validator.validate UTF8_ACCEPT ((c.framing.payload.getD []).drop 2) = v
  exact pushed_ite (hanswer { c with framing := { c.framing with utf8Validator := v.1 } } h)
    (pushed_fail (c := { c with framing := { c.framing with utf8Validator := v.1 } }) h _ _)

theorem pushed_processText (h : c.state = .websocket) :
    Pushed d (c.processText cfg app) ((c.push d).processText cfg app) := by
  unfold processText
  rw [push_framing]
  dsimp only
  cases c.framing.payload with
  | none =>
    refine pushed_finishFrame ?_
    exact h
  | some p =>
    refine pushed_checkUtf8 ?_ p _ _ fun c₁ h₁ => pushed_receiveFirst h₁ p
    exact h

theorem pushed_processBinary (h : c.state = .websocket) :
    Pushed d (c.processBinary cfg app) ((c.push d).processBinary cfg app) := by
  unfold processBinary
  rw [push_framing]
  dsimp only
  cases c.framing.payload with
  | none =>
    refine pushed_finishFrame ?_
    exact h
  | some p =>
    refine pushed_receiveFirst ?_ p
    exact h

theorem pushed_processContinuation (h : c.state = .websocket) :
    Pushed d (c.processContinuation cfg app) ((c.push d).processContinuation cfg app) := by
  unfold processContinuation
  rw [push_framing]
  cases c.framing.payload with
  | none => exact pushed_finishFrame h
  | some p =>
    refine pushed_ite ?_ (pushed_receiveMore h p)
    exact pushed_checkUtf8 h p _ _ fun c₁ h₁ => pushed_receiveMore h₁ p

theorem pushed_processFrame (h : c.state = .websocket) :
    Pushed d (c.processFrame cfg app) ((c.push d).processFrame cfg app) := by
  have hpush : { c.push d with framing := { (c.push d).framing with state := .init } } =
      ({ c with framing := { c.framing with state := .init } } : WsConnection α).push d := rfl
  unfold processFrame
  dsimp only
  rw [push_framing]
  rw [push_framing] at hpush
  rw [hpush]
  have hinit : ({ c with framing := { c.framing with state := .init } } : WsConnection α).state =
      .websocket := h
  generalize ({ c with framing := { c.framing with state := .init } } : WsConnection α) = c₁ at *
  cases c.framing.symOpcode with
  | text => exact pushed_processText hinit
  | binary => exact pushed_processBinary hinit
  | continuation => exact pushed_processContinuation hinit
  | close => exact pushed_processClose hinit
  | ping | pong => exact ⟨rfl, rfl, .inl rfl⟩

end WsConnection

/-- The bytes that a turn reads. -/
def WsFraming.need (f : WsFraming) : Nat :=
  match f.state with
  | .init | .payloadLength2Bytes => 2
  | .payloadLength8Bytes => 8
  | .maskingKey => 4
  | .payloadData => f.payloadLength
  | .checkFrame | .processFrame => 0

namespace WsConnection

variable {α : Type} {cfg : WsConfig} {app : SipApp α} {c : WsConnection α} {d bytes : Bytes}

theorem read_of_lt {n : Nat} (h : c.buffer.length < n) (f : WsConnection α → Bytes → WsTurn α) :
    c.read n f = c.stop := if_pos h

theorem read_of_le {n : Nat} (h : n ≤ c.buffer.length) (f : WsConnection α → Bytes → WsTurn α) :
    c.read n f = f { c with buffer := c.buffer.drop n } (c.buffer.take n) :=
  if_neg (Nat.not_lt.mpr h)

theorem pushed_read (h : c.state = .websocket) {n : Nat} (hn : n ≤ c.buffer.length)
    {f : WsConnection α → Bytes → WsTurn α}
    (hf : ∀ (c₁ : WsConnection α) (bytes : Bytes), c₁.state = .websocket →
      Pushed d (f c₁ bytes) (f (c₁.push d) bytes)) :
    Pushed d (c.read n f) ((c.push d).read n f) := by
  have hn' : n ≤ (c.push d).buffer.length := by
    show n ≤ (c.buffer ++ d).length
    rw [List.length_append]
    omega
  have hdrop : { c.push d with buffer := (c.push d).buffer.drop n } =
      ({ c with buffer := c.buffer.drop n } : WsConnection α).push d := by
    unfold push
    dsimp only
    rw [List.drop_append_of_le_length hn]
  have htake : (c.push d).buffer.take n = c.buffer.take n := List.take_append_of_le_length hn
  rw [read_of_le hn, read_of_le hn', hdrop, htake]
  exact hf _ _ h

/-- Without the bytes that it reads, a turn waits. -/
theorem turn_of_lt (h : c.buffer.length < c.framing.need) : c.turn cfg app = c.stop := by
  unfold WsFraming.need at h
  unfold turn
  cases hstate : c.framing.state with
  | checkFrame | processFrame =>
    rw [hstate] at h
    exact absurd h (Nat.not_lt_zero _)
  | _ =>
    rw [hstate] at h
    exact read_of_lt h _

/-- With them, it does not look at the bytes behind them. -/
theorem turn_push (h : c.state = .websocket) (hn : c.framing.need ≤ c.buffer.length) :
    Pushed d (c.turn cfg app) ((c.push d).turn cfg app) := by
  unfold WsFraming.need at hn
  unfold turn
  rw [push_framing]
  cases hstate : c.framing.state with
  | init =>
    rw [hstate] at hn
    exact pushed_read h hn fun _ bytes h₁ => pushed_readHeader h₁ bytes
  | payloadLength2Bytes =>
    rw [hstate] at hn
    exact pushed_read h hn fun _ _ _ => ⟨rfl, rfl, .inl rfl⟩
  | payloadLength8Bytes =>
    rw [hstate] at hn
    exact pushed_read h hn fun _ bytes h₁ => pushed_readPayloadLength8Bytes h₁ bytes
  | maskingKey =>
    rw [hstate] at hn
    exact pushed_read h hn fun _ _ _ => ⟨rfl, rfl, .inl rfl⟩
  | checkFrame => exact pushed_checkFrame h
  | payloadData =>
    rw [hstate] at hn
    exact pushed_read h hn fun _ _ _ => ⟨rfl, rfl, .inl rfl⟩
  | processFrame => exact pushed_processFrame h

/-! ## Turns that leave the message alone -/

/-- A turn that does not change the message. It may close the connection. -/
structure Quiet (c : WsConnection α) (t : WsTurn α) : Prop where
  wsMessage : t.conn.wsMessage = c.wsMessage
  msgSymOpcode : t.conn.framing.msgSymOpcode = c.framing.msgSymOpcode
  silent : ∀ x ∈ t.out, x.isMessage = false
  closed : t.conn.state = .ignore ∧ t.again = false ∨
    t.conn.state = c.state ∧ t.conn.framing.utf8Validator = c.framing.utf8Validator

theorem quiet_stop : Quiet c c.stop := ⟨rfl, rfl, by simp [stop], .inr ⟨rfl, rfl⟩⟩

theorem quiet_fail {c₁ : WsConnection α}
    (h : c₁.wsMessage = c.wsMessage ∧ c₁.framing.msgSymOpcode = c.framing.msgSymOpcode) (status : Nat)
    (reason : Option String) : Quiet c (c₁.fail status reason) := by
  obtain ⟨hstate, hframing, hmessage, _, hsilent, _⟩ := c₁.close_spec ⟨some status, reason⟩
  refine ⟨?_, ?_, hsilent, .inl ⟨hstate, rfl⟩⟩
  · exact hmessage.trans h.1
  · exact (congrArg WsFraming.msgSymOpcode hframing).trans h.2

theorem quiet_goOn {c₁ : WsConnection α}
    (h : c₁.wsMessage = c.wsMessage ∧ c₁.framing.msgSymOpcode = c.framing.msgSymOpcode ∧
      c₁.state = c.state ∧ c₁.framing.utf8Validator = c.framing.utf8Validator) (s : WsState) :
    Quiet c (c₁.goOn s) :=
  ⟨h.1, h.2.1, by simp [goOn], .inr h.2.2⟩

theorem quiet_ite {p : Prop} [Decidable p] {t u : WsTurn α} (ht : Quiet c t) (hu : Quiet c u) :
    Quiet c (if p then t else u) := by
  split_ifs
  · exact ht
  · exact hu

theorem quiet_readHeader {c₁ : WsConnection α} (hc : c₁ = { c with buffer := c₁.buffer })
    (bytes : Bytes) : Quiet c (c₁.readHeader bytes) := by
  rw [hc]
  unfold readHeader
  dsimp only
  refine quiet_ite ?_ ?_
  · refine quiet_fail ?_ _ _
    exact ⟨rfl, rfl⟩
  · split
    · refine quiet_fail ?_ _ _
      exact ⟨rfl, rfl⟩
    · refine quiet_ite ?_ (quiet_ite ?_ (quiet_ite ?_ ?_))
      · refine quiet_fail ?_ _ _
        exact ⟨rfl, rfl⟩
      · refine quiet_goOn ?_ _
        exact ⟨rfl, rfl, rfl, rfl⟩
      · refine quiet_goOn ?_ _
        exact ⟨rfl, rfl, rfl, rfl⟩
      · refine quiet_goOn ?_ _
        exact ⟨rfl, rfl, rfl, rfl⟩

theorem quiet_checkFrame : Quiet c (c.checkFrame cfg) := by
  unfold checkFrame
  refine quiet_ite ?_ (quiet_ite ?_ (quiet_ite ?_ (quiet_ite ?_ (quiet_ite ?_ ?_))))
  · refine quiet_fail ?_ _ _
    exact ⟨rfl, rfl⟩
  · refine quiet_fail ?_ _ _
    exact ⟨rfl, rfl⟩
  · refine quiet_fail ?_ _ _
    exact ⟨rfl, rfl⟩
  · refine quiet_fail ?_ _ _
    exact ⟨rfl, rfl⟩
  · refine quiet_fail ?_ _ _
    exact ⟨rfl, rfl⟩
  · refine quiet_goOn ?_ _
    exact ⟨rfl, rfl, rfl, rfl⟩

theorem quiet_processClose {c₁ : WsConnection α} (hm : c₁.wsMessage = c.wsMessage)
    (ho : c₁.framing.msgSymOpcode = c.framing.msgSymOpcode) : Quiet c c₁.processClose := by
  have hanswer : ∀ c₂ : WsConnection α, c₂.wsMessage = c.wsMessage →
      c₂.framing.msgSymOpcode = c.framing.msgSymOpcode →
      Quiet c { conn := (c₂.close ⟨none, none⟩).1, out := (c₂.close ⟨none, none⟩).2, again := false } := by
    intro c₂ hm₂ ho₂
    obtain ⟨hstate, hframing, hmessage, _, hsilent, _⟩ := c₂.close_spec ⟨none, none⟩
    refine ⟨hmessage.trans hm₂, ?_, hsilent, .inl ⟨hstate, rfl⟩⟩
    exact (congrArg WsFraming.msgSymOpcode hframing).trans ho₂
  unfold processClose validateUtf8
  dsimp only
  refine quiet_ite (quiet_ite ?_ ?_) (hanswer _ hm ho)
  · exact hanswer _ hm ho
  · refine quiet_fail ?_ _ _
    exact ⟨hm, ho⟩

/-- A frame that is not a data frame. -/
theorem quiet_processFrame (h : ¬ c.framing.isData) : Quiet c (c.processFrame cfg app) := by
  unfold processFrame
  dsimp only
  cases hop : c.framing.symOpcode with
  | text => exact absurd (.inl hop) h
  | binary => exact absurd (.inr (.inl hop)) h
  | continuation => exact absurd (.inr (.inr hop)) h
  | close => exact quiet_processClose rfl rfl
  | ping | pong => exact ⟨rfl, rfl, by simp [WsOut.isMessage], .inr ⟨rfl, rfl⟩⟩

theorem quiet_read {n : Nat} {f : WsConnection α → Bytes → WsTurn α}
    (hf : ∀ (c₁ : WsConnection α) (bytes : Bytes), c₁ = { c with buffer := c₁.buffer } →
      Quiet c (f c₁ bytes)) : Quiet c (c.read n f) := by
  unfold read
  exact quiet_ite quiet_stop (hf _ _ rfl)

/-- Only a turn that processes a data frame changes the message. -/
theorem quiet_turn (cfg : WsConfig) (app : SipApp α)
    (h : ¬ (c.framing.state = .processFrame ∧ c.framing.isData)) :
    Quiet c (c.turn cfg app) := by
  unfold turn
  cases hstate : c.framing.state with
  | init => exact quiet_read fun _ bytes hc => quiet_readHeader hc bytes
  | payloadLength2Bytes =>
    refine quiet_read fun c₁ bytes hc => ?_
    rw [hc]
    unfold readPayloadLength2Bytes
    refine quiet_goOn ?_ _
    exact ⟨rfl, rfl, rfl, rfl⟩
  | payloadLength8Bytes =>
    refine quiet_read fun c₁ bytes hc => ?_
    rw [hc]
    unfold readPayloadLength8Bytes
    refine quiet_ite ?_ ?_
    · refine quiet_fail ?_ _ _
      exact ⟨rfl, rfl⟩
    · refine quiet_goOn ?_ _
      exact ⟨rfl, rfl, rfl, rfl⟩
  | maskingKey =>
    refine quiet_read fun c₁ bytes hc => ?_
    rw [hc]
    unfold readMaskingKey
    refine quiet_goOn ?_ _
    exact ⟨rfl, rfl, rfl, rfl⟩
  | checkFrame => exact quiet_checkFrame
  | payloadData =>
    refine quiet_read fun c₁ bytes hc => ?_
    rw [hc]
    unfold readPayloadData
    refine quiet_goOn ?_ _
    exact ⟨rfl, rfl, rfl, rfl⟩
  | processFrame => exact quiet_processFrame fun hdata => h ⟨hstate, hdata⟩

theorem turn_of_processFrame (h : c.framing.state = .processFrame) :
    c.turn cfg app = c.processFrame cfg app := by
  unfold turn
  rw [h]

end WsConnection

/-! ## What the checks establish -/

/-- The number of an opcode on the wire. -/
def SymOpcode.number : SymOpcode → Nat
  | .continuation => 0
  | .text => 1
  | .binary => 2
  | .close => 8
  | .ping => 9
  | .pong => 10

theorem OPCODE_number (s : SymOpcode) : OPCODE s.number = some s := by
  cases s <;> rfl

theorem eq_number_of_OPCODE {n : Nat} {s : SymOpcode} (h : OPCODE n = some s) : n = s.number := by
  unfold OPCODE at h
  split at h
  all_goals first | (obtain rfl := Option.some.inj h; rfl) | cases h

namespace WsFraming

/-- What is known of a frame in each state. -/
structure Wf (cfg : WsConfig) (f : WsFraming) : Prop where
  opcode : f.state ≠ .init → OPCODE f.opcode = some f.symOpcode
  empty : f.state ≠ .init → f.state ≠ .processFrame → f.payload = none
  size : f.state = .payloadData ∨ f.state = .processFrame → f.payloadLength ≤ cfg.maxWsFrameSize
  /-- A message is begun only when the one before is finished. -/
  first : f.state = .payloadData ∨ f.state = .processFrame →
    f.symOpcode = .text ∨ f.symOpcode = .binary → f.msgSymOpcode = none
  /-- A message is continued only when one has been begun. -/
  more : f.state = .payloadData ∨ f.state = .processFrame →
    f.symOpcode = .continuation → f.msgSymOpcode ≠ none
  length : f.state = .processFrame → ∀ p, f.payload = some p → p.length = f.payloadLength ∧ p ≠ []

variable {cfg : WsConfig} {f : WsFraming}

theorem wf_of_init (h : f.state = .init) : f.Wf cfg := by
  refine ⟨?_, ?_, ?_, ?_, ?_, ?_⟩
  · exact fun hne => absurd h hne
  · exact fun hne => absurd h hne
  · rintro (hs | hs) <;> rw [h] at hs <;> cases hs
  · rintro (hs | hs) <;> rw [h] at hs <;> cases hs
  · rintro (hs | hs) <;> rw [h] at hs <;> cases hs
  · intro hs
    rw [h] at hs
    cases hs

/-- Before the frame has been checked. -/
theorem wf_of_header (hopcode : OPCODE f.opcode = some f.symOpcode) (hpayload : f.payload = none)
    (hstate : f.state ≠ .payloadData) (hstate' : f.state ≠ .processFrame) : f.Wf cfg := by
  have hnot : ¬ (f.state = .payloadData ∨ f.state = .processFrame) := not_or.mpr ⟨hstate, hstate'⟩
  refine ⟨fun _ => hopcode, fun _ _ => hpayload, ?_, ?_, ?_, ?_⟩
  · exact fun hs => absurd hs hnot
  · exact fun hs => absurd hs hnot
  · exact fun hs => absurd hs hnot
  · exact fun hs => absurd hs hstate'

end WsFraming

namespace WsConnection

variable {α : Type} {cfg : WsConfig} {app : SipApp α} {c : WsConnection α} {d bytes : Bytes}

theorem fail_framing (c : WsConnection α) (status : Nat) (reason : Option String) :
    (c.fail status reason).conn.framing = c.framing := (c.close_spec ⟨some status, reason⟩).2.1

theorem messageDone_framing (c : WsConnection α) (type : Option SymOpcode) :
    (c.messageDone app type).1.framing = c.framing := by
  unfold messageDone
  dsimp only
  cases (app.processSipMessage c.app c.wsMessage).2 with
  | none => rfl
  | some args =>
    exact (close_spec { c with app := (app.processSipMessage c.app c.wsMessage).1 } args).2.1

theorem finishFrame_state (c : WsConnection α) :
    (c.finishFrame app).conn.framing.state = c.framing.state := by
  cases hfin : c.framing.fin with
  | false => rw [finishFrame_of_not_fin hfin]
  | true =>
    rw [finishFrame_of_fin hfin]
    show (c.messageDone app c.framing.msgSymOpcode).1.framing.state = _
    rw [messageDone_framing]

/-- The next frame begins when one has been processed. -/
theorem processFrame_state (cfg : WsConfig) (app : SipApp α) (c : WsConnection α) :
    (c.processFrame cfg app).conn.framing.state = .init := by
  by_cases hdata : c.framing.isData
  · have h := processed cfg app hdata
    generalize c.processFrame cfg app = t at h
    cases h with
    | refused reason f _ hinit =>
      rw [fail_framing]
      exact hinit
    | tooBig => rw [fail_framing]; rfl
    | grown => rfl
    | accepted => exact finishFrame_state c.collect
  · unfold processFrame
    dsimp only
    cases hop : c.framing.symOpcode with
    | text => exact absurd (.inl hop) hdata
    | binary => exact absurd (.inr (.inl hop)) hdata
    | continuation => exact absurd (.inr (.inr hop)) hdata
    | ping | pong => rfl
    | close =>
      unfold processClose
      dsimp only
      split_ifs
      · exact congrArg WsFraming.state (close_spec _ _).2.1
      · rw [fail_framing]
        rfl
      · exact congrArg WsFraming.state (close_spec _ _).2.1

theorem wf_fail (h : c.framing.Wf cfg) (status : Nat) (reason : Option String) :
    (c.fail status reason).conn.framing.Wf cfg := by
  rw [fail_framing]
  exact h

theorem wf_readHeader (h : c.framing.Wf cfg) (bytes : Bytes) :
    (c.readHeader bytes).conn.framing.Wf cfg := by
  unfold readHeader
  dsimp only
  split
  · exact wf_fail h _ _
  · split
    · exact wf_fail h _ _
    · rename_i symOpcode hop
      split_ifs
      · exact wf_fail h _ _
      · exact WsFraming.wf_of_header hop rfl nofun nofun
      · exact WsFraming.wf_of_header hop rfl nofun nofun
      · exact WsFraming.wf_of_header hop rfl nofun nofun

theorem wf_checkFrame (h : c.framing.Wf cfg) (hstate : c.framing.state = .checkFrame) :
    (c.checkFrame cfg).conn.framing.Wf cfg := by
  have hop := h.opcode (by rw [hstate]; exact nofun)
  have hnumber := eq_number_of_OPCODE hop
  have hempty := h.empty (by rw [hstate]; exact nofun) (by rw [hstate]; exact nofun)
  unfold checkFrame
  by_cases h₁ : (c.framing.isControlFrame && decide (125 < c.framing.payloadLength)) = true
  · rw [if_pos h₁]
    exact wf_fail h _ _
  rw [if_neg h₁]
  by_cases h₂ : (c.framing.isControlFrame && !c.framing.fin) = true
  · rw [if_pos h₂]
    exact wf_fail h _ _
  rw [if_neg h₂]
  by_cases h₃ : (c.framing.isContinuationFrame && c.framing.msgSymOpcode.isNone) = true
  · rw [if_pos h₃]
    exact wf_fail h _ _
  rw [if_neg h₃]
  by_cases h₄ : (c.framing.msgSymOpcode.isSome && c.framing.isTextOrBinaryFrame) = true
  · rw [if_pos h₄]
    exact wf_fail h _ _
  rw [if_neg h₄]
  by_cases h₅ : cfg.maxWsFrameSize < c.framing.payloadLength
  · rw [if_pos h₅]
    exact wf_fail h _ _
  rw [if_neg h₅]
  unfold WsFraming.isContinuationFrame at h₃
  unfold WsFraming.isTextOrBinaryFrame at h₄
  rw [hnumber] at h₃ h₄
  refine ⟨fun _ => hop, fun _ _ => hempty, fun _ => Nat.le_of_not_lt h₅, ?_, ?_, ?_⟩
  · intro _ hfirst
    show c.framing.msgSymOpcode = none
    have hfirst' : c.framing.symOpcode = .text ∨ c.framing.symOpcode = .binary := hfirst
    cases hm : c.framing.msgSymOpcode with
    | none => rfl
    | some m =>
      rcases hfirst' with hs | hs <;> rw [hs, hm] at h₄ <;> exact absurd rfl h₄
  · intro _ hmore hnone
    have hmore' : c.framing.symOpcode = .continuation := hmore
    have hnone' : c.framing.msgSymOpcode = none := hnone
    rw [hmore', hnone'] at h₃
    exact h₃ rfl
  · exact fun hs => nomatch hs

theorem length_unmask (payload mask : Bytes) : (unmask payload mask).length = payload.length := by
  unfold unmask
  rw [List.length_map, List.length_zipIdx]

theorem wf_readPayloadData (h : c.framing.Wf cfg) (hstate : c.framing.state = .payloadData)
    (hbytes : bytes.length = c.framing.payloadLength) :
    (c.readPayloadData bytes).conn.framing.Wf cfg := by
  have hop := h.opcode (by rw [hstate]; exact nofun)
  have hempty := h.empty (by rw [hstate]; exact nofun) (by rw [hstate]; exact nofun)
  refine ⟨fun _ => hop, fun _ hne => absurd rfl hne, fun _ => h.size (.inl hstate), fun _ => h.first (.inl hstate),
    fun _ => h.more (.inl hstate), ?_⟩
  intro _ p hp
  have hp' : (if c.framing.payloadLength = 0 then c.framing.payload
      else some (unmask bytes c.framing.maskingKey)) = some p := hp
  by_cases hzero : c.framing.payloadLength = 0
  · rw [if_pos hzero, hempty] at hp'
    cases hp'
  · rw [if_neg hzero] at hp'
    have hlength : p.length = c.framing.payloadLength := by
      rw [← Option.some.inj hp', length_unmask, hbytes]
    refine ⟨hlength, ?_⟩
    rintro rfl
    exact hzero hlength.symm

/-- Every turn keeps what is known of the frame. -/
theorem wf_turn (h : c.framing.Wf cfg) : (c.turn cfg app).conn.framing.Wf cfg := by
  by_cases hlt : c.buffer.length < c.framing.need
  · rw [turn_of_lt hlt]
    exact h
  · have hle := Nat.le_of_not_lt hlt
    unfold WsFraming.need at hle
    unfold turn
    cases hstate : c.framing.state with
    | init =>
      rw [hstate] at hle
      dsimp only
      rw [read_of_le hle]
      exact wf_readHeader (c := { c with buffer := c.buffer.drop 2 }) h _
    | payloadLength2Bytes =>
      rw [hstate] at hle
      dsimp only
      rw [read_of_le hle]
      exact WsFraming.wf_of_header (h.opcode (by rw [hstate]; exact nofun))
        (h.empty (by rw [hstate]; exact nofun) (by rw [hstate]; exact nofun)) nofun nofun
    | payloadLength8Bytes =>
      rw [hstate] at hle
      dsimp only
      rw [read_of_le hle]
      unfold readPayloadLength8Bytes
      split_ifs
      · exact wf_fail (c := { c with buffer := c.buffer.drop 8 }) h _ _
      · exact WsFraming.wf_of_header (h.opcode (by rw [hstate]; exact nofun))
          (h.empty (by rw [hstate]; exact nofun) (by rw [hstate]; exact nofun)) nofun nofun
    | maskingKey =>
      rw [hstate] at hle
      dsimp only
      rw [read_of_le hle]
      exact WsFraming.wf_of_header (h.opcode (by rw [hstate]; exact nofun))
        (h.empty (by rw [hstate]; exact nofun) (by rw [hstate]; exact nofun)) nofun nofun
    | checkFrame => exact wf_checkFrame h hstate
    | payloadData =>
      rw [hstate] at hle
      dsimp only
      rw [read_of_le hle]
      refine wf_readPayloadData (c := { c with buffer := c.buffer.drop c.framing.payloadLength }) h hstate ?_
      rw [List.length_take]
      exact Nat.min_eq_left hle
    | processFrame => exact WsFraming.wf_of_init (processFrame_state cfg app c)

end WsConnection

end OverSip
