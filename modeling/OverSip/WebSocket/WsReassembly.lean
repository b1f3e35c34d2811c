import OverSip.WebSocket.WsFrames

/-!
# Messages are put together

`requests` says what a sequence of frames asks for: messages, each with the opcode of its first frame and
the payloads of its frames, and pings between them. `reassembled` says that the loop answers exactly that,
however the bytes of the frames are cut into chunks. A close frame ends the sequence, and so does a message
on which the application closes the connection.
-/

namespace OverSip

/-- A message, or the beginning of one. -/
structure WsMessage where
  type : SymOpcode
  content : Bytes
deriving DecidableEq, Repr

/-- What a client asks for. -/
inductive WsRequest
  | message (m : WsMessage)
  | ping (data : Bytes)
  | close
deriving DecidableEq, Repr

/-- The message is not too big, and a text is UTF-8, as far as it goes. -/
structure WsMessage.Allowed (cfg : WsConfig) (finished : Bool) (m : WsMessage) : Prop where
  size : m.content.length ≤ cfg.maxWsMessageSize
  begins : m.type = .text → Utf8.Extends m.content
  valid : m.type = .text → finished = true → Utf8.Valid m.content

namespace WsFrame

/-- The message with the payload of a data frame. -/
def extend (f : WsFrame) (cur : Option WsMessage) : Option WsMessage :=
  match f.opcode with
  | .continuation => cur.map fun m => { m with content := m.content ++ f.payload }
  | _ => some { type := f.opcode, content := f.payload }

/-- What some frames ask for, when the message `cur` has been begun. -/
def requests : Option WsMessage → List WsFrame → List WsRequest
  | _, [] => []
  | cur, f :: fs =>
    match f.opcode with
    | .ping => .ping f.payload :: requests cur fs
    | .pong => requests cur fs
    | .close => [.close]
    | .text | .binary | .continuation =>
      match f.fin, f.extend cur with
      | true, some m => .message m :: requests none fs
      | _, cur => requests cur fs

/-- The frames pass the checks, when the message `cur` has been begun. -/
def Conforms (cfg : WsConfig) : Option WsMessage → List WsFrame → Prop
  | _, [] => True
  | cur, f :: fs => f.Checked cfg (cur.map WsMessage.type) ∧
    match f.opcode with
    | .ping | .pong => Conforms cfg cur fs
    | .close => 2 ≤ f.payload.length → Utf8.Valid (f.payload.drop 2)
    | .text | .binary | .continuation =>
      (∀ m, f.extend cur = some m → m.Allowed cfg f.fin) ∧
        Conforms cfg (if f.fin then none else f.extend cur) fs

end WsFrame

/-- The answers to some requests: a pong for each ping, and the messages go to the application until it
closes the connection. -/
def SipApp.answers {α : Type} (app : SipApp α) : α → List WsRequest → List WsOut
  | _, [] => []
  | a, .ping data :: rs => .sendData (pongFrame data) :: app.answers a rs
  | _, .close :: _ => [.sendData (closeFrame ⟨none, none⟩), .closeConnectionAfterWriting]
  | a, .message m :: rs =>
    .messageDone m.type m.content ::
      match app.processSipMessage a m.content with
      | (a, none) => app.answers a rs
      | (_, some args) => [.sendData (closeFrame args), .closeConnectionAfterWriting]

namespace WsConnection

variable {α : Type} {cfg : WsConfig} {app : SipApp α} {c c' : WsConnection α} {f : WsFrame}
  {fs : List WsFrame} {cur : Option WsMessage} {rest : Bytes} {o : List WsOut}

/-- Between two frames, with the message `cur` begun. -/
structure Between (c : WsConnection α) (cur : Option WsMessage) : Prop where
  state : c.state = .websocket
  init : c.framing.state = .init
  sound : c.Sound
  type : c.framing.msgSymOpcode = cur.map WsMessage.type
  message : c.wsMessage = (cur.map WsMessage.content).getD []

/-- The connection when a frame has been read. -/
def readFrame (c : WsConnection α) (f : WsFrame) (rest : Bytes) : WsConnection α :=
  { c with buffer := rest, framing := c.framing.received f }

/-! ## A data frame -/

theorem wf_readFrame (rest : Bytes) (h : f.Checked cfg c.framing.msgSymOpcode) :
    (c.readFrame f rest).framing.Wf cfg := by
  constructor
  · exact fun _ => OPCODE_number f.opcode
  · exact fun _ hne => absurd rfl hne
  · exact fun _ => h.size
  · exact fun _ => h.first
  · exact fun _ => h.more
  · intro _ p hp
    have hpayload : (if f.payload = [] then none else some f.payload) = some p := hp
    split_ifs at hpayload with hnil
    cases hpayload
    exact ⟨rfl, hnil⟩

/-- The message that is collected is the one with the payload of the frame. -/
theorem collect_readFrame (rest : Bytes) (h : c.Between cur) (hchecked : f.Checked cfg c.framing.msgSymOpcode)
    (hdata : (c.readFrame f rest).framing.isData) :
    ∃ m, f.extend cur = some m ∧ (c.readFrame f rest).framing.messageOpcode = some m.type ∧
      (c.readFrame f rest).collect.wsMessage = m.content := by
  have hcollect : (c.readFrame f rest).collect.wsMessage = c.wsMessage ++ f.payload := by
    show c.wsMessage ++ (c.framing.received f).payloadBytes = _
    rw [WsFraming.payloadBytes_received]
  rw [hcollect, h.message]
  unfold WsFrame.extend
  have hfirst := hchecked.first
  have hmore := hchecked.more
  rw [h.type] at hfirst hmore
  rcases hdata with hop | hop | hop
  · rw [WsFraming.messageOpcode_of_text hop]
    rw [show f.opcode = .text from hop] at hfirst ⊢
    rw [Option.map_eq_none_iff.mp (hfirst (.inl rfl))]
    exact ⟨_, rfl, rfl, rfl⟩
  · rw [WsFraming.messageOpcode_of_binary hop]
    rw [show f.opcode = .binary from hop] at hfirst ⊢
    rw [Option.map_eq_none_iff.mp (hfirst (.inr rfl))]
    exact ⟨_, rfl, rfl, rfl⟩
  · have hopcode : (c.readFrame f rest).framing.messageOpcode = cur.map WsMessage.type :=
      (WsFraming.messageOpcode_of_continuation hop).trans h.type
    rw [hopcode]
    rw [show f.opcode = .continuation from hop] at hmore ⊢
    cases cur with
    | none => exact absurd rfl (hmore rfl)
    | some m => exact ⟨_, rfl, rfl, rfl⟩

/-- The payload of a data frame that passes the checks is accepted. -/
theorem turn_readFrame {m : WsMessage} (cfg : WsConfig) (app : SipApp α) (rest : Bytes)
    (h : c.Between cur) (hchecked : f.Checked cfg c.framing.msgSymOpcode)
    (hdata : (c.readFrame f rest).framing.isData) (hm : f.extend cur = some m)
    (hallowed : m.Allowed cfg f.fin) :
    (c.readFrame f rest).turn cfg app = (c.readFrame f rest).collect.finishFrame app ∧
      (c.readFrame f rest).collect.Sound ∧
      (c.readFrame f rest).framing.messageOpcode = some m.type ∧
      (c.readFrame f rest).collect.wsMessage = m.content := by
  obtain ⟨m', hm', htype, hmessage⟩ := collect_readFrame rest h hchecked hdata
  obtain rfl : m' = m := Option.some.inj (hm'.symm.trans hm)
  have hwf := wf_readFrame rest hchecked
  have hsound : (c.readFrame f rest).Sound := ⟨h.sound.empty, h.sound.text⟩
  have hrefused : ¬ (c.readFrame f rest).framing.isRefused := by
    intro hr
    have htext : m'.type = .text := Option.some.inj (htype.symm.trans hr.1.1)
    rw [hsound.isRefused_iff hwf rfl hdata hr.1.1, hmessage] at hr
    rcases hr.2 with hbad | ⟨hfin, hbad⟩
    · exact hbad (hallowed.begins htext)
    · exact hbad (hallowed.valid htext hfin)
  refine ⟨?_, hsound.collect hwf rfl hdata hrefused, htype, hmessage⟩
  rw [turn_of_processFrame rfl]
  have hp := processed cfg app hdata
  generalize (c.readFrame f rest).processFrame cfg app = t at hp
  have hsize := hallowed.size
  rw [← hmessage] at hsize
  cases hp with
  | refused _ _ hr => exact absurd hr hrefused
  | tooBig _ _ _ hbig => exact absurd hbig (Nat.not_lt_of_le hsize)
  | grown _ _ _ hbig => exact absurd hbig (Nat.not_lt_of_le hsize)
  | accepted => rfl

/-- The loop between two messages. -/
theorem between_none (hstate : c.state = .websocket) (hinit : c.framing.state = .init)
    (htype : c.framing.msgSymOpcode = none) (hmessage : c.wsMessage = []) : c.Between none := by
  refine ⟨hstate, hinit, ⟨fun _ => hmessage, fun htext => ?_⟩, htype, hmessage⟩
  rw [htype] at htext
  cases htext

/-- The loop goes on, or ends, with the payload of a data frame. -/
theorem clean_data {m : WsMessage} (h : c.Between cur) (hchecked : f.Checked cfg c.framing.msgSymOpcode)
    (hdata : (c.readFrame f rest).framing.isData) (hm : f.extend cur = some m)
    (hallowed : m.Allowed cfg f.fin) (hfs : WsFrame.Conforms cfg (if f.fin then none else some m) fs)
    (ih : ∀ (c₁ : WsConnection α) (cur : Option WsMessage), c₁.Between cur → c₁.buffer = rest →
      WsFrame.Conforms cfg cur fs →
      ∃ c', (framer cfg app).Clean c₁ (app.answers c₁.app (WsFrame.requests cur fs)) c') :
    ∃ c', (framer cfg app).Clean (c.readFrame f rest) (app.answers c.app
      (if f.fin then .message m :: WsFrame.requests none fs else WsFrame.requests (some m) fs)) c' := by
  obtain ⟨hturn, hsound, htype, hmessage⟩ :=
    turn_readFrame cfg app rest h hchecked hdata hm hallowed
  have hcollect : (c.readFrame f rest).collect.state = .websocket := h.state
  have hsame : (c.readFrame f rest).collect.app = c.app := rfl
  rcases finishFrame_spec app hcollect with ⟨hfin, heq⟩ | ⟨hfin, hempty, hframing, happ, hend⟩
  · -- the message goes on
    have hfin' : f.fin = false := hfin
    rw [hfin'] at hfs ⊢
    obtain ⟨c', hclean⟩ := ih (c.readFrame f rest).collect (some m)
      ⟨h.state, rfl, hsound, htype, hmessage⟩ rfl hfs
    exact ⟨c', clean_turn _ (hturn.trans heq) h.state hclean⟩
  · have hfin' : f.fin = true := hfin
    rw [hfin'] at hfs ⊢
    rw [hsame, hmessage] at happ hend
    rw [show (c.readFrame f rest).collect.framing.msgSymOpcode = some m.type from htype] at hend
    rw [← hturn] at hempty hframing happ hend
    rw [if_pos rfl, SipApp.answers]
    have hagain : ((c.readFrame f rest).turn cfg app).again = true := by
      rw [hturn, finishFrame_of_fin hfin]
    generalize app.processSipMessage c.app m.content = answer at happ hend
    obtain ⟨a, closing⟩ := answer
    rcases hend with ⟨hnone, hstate, hbuffer, hout⟩ | ⟨args, hsome, hstate, _, hout⟩
    · obtain rfl : closing = none := hnone
      have hbetween : ((c.readFrame f rest).turn cfg app).conn.Between none := by
        refine between_none hstate ?_ ?_ hempty
        · rw [hframing]
          rfl
        · rw [hframing]
      obtain ⟨c', hclean⟩ := ih _ none hbetween hbuffer hfs
      rw [happ] at hclean
      have hframer := framer_turn_of_again hagain hstate
      rw [hout] at hframer
      exact ⟨c', .more hframer hclean⟩
    · obtain rfl : closing = some args := hsome
      have hframer := framer_turn_of_ignore hstate
      rw [hout] at hframer
      exact ⟨_, .ended hframer hstate⟩

/-! ## Control frames -/

/-- The connection when a frame has been answered. -/
def readOn (c : WsConnection α) (f : WsFrame) (rest : Bytes) : WsConnection α :=
  { c with buffer := rest, framing := { c.framing.received f with state := .init } }

theorem Between.readOn (h : c.Between cur) (f : WsFrame) (rest : Bytes) : (c.readOn f rest).Between cur :=
  ⟨h.state, rfl, ⟨h.sound.empty, h.sound.text⟩, h.type, h.message⟩

/-- The turn that processes a frame. -/
theorem turn_of_readFrame (cfg : WsConfig) (app : SipApp α) (c : WsConnection α) (f : WsFrame)
    (rest : Bytes) : (c.readFrame f rest).turn cfg app =
      match f.opcode with
      | .text => (c.readOn f rest).processText cfg app
      | .binary => (c.readOn f rest).processBinary cfg app
      | .continuation => (c.readOn f rest).processContinuation cfg app
      | .close => (c.readOn f rest).processClose
      | .ping =>
        { conn := c.readOn f rest, out := [.sendData (pongFrame (c.framing.received f).payload)]
          again := true }
      | .pong => { conn := c.readOn f rest, out := [], again := true } := rfl

/-- An empty payload is answered as no payload is. -/
theorem pongFrame_received (g : WsFraming) (f : WsFrame) :
    pongFrame (g.received f).payload = pongFrame f.payload := by
  show pongFrame (if f.payload = [] then none else some f.payload) = _
  split_ifs with hnil
  · rw [hnil]
    rfl
  · rfl

/-- A close frame is answered with one, if its reason is UTF-8. -/
theorem processClose_readOn (rest : Bytes) (h : c.Between cur)
    (hreason : 2 ≤ f.payload.length → Utf8.Valid (f.payload.drop 2)) :
    (c.readOn f rest).processClose.conn.state = .ignore ∧
      (c.readOn f rest).processClose.out =
        [.sendData (closeFrame ⟨none, none⟩), .closeConnectionAfterWriting] := by
  have hclose : ∀ c₁ : WsConnection α, c₁.state = .websocket →
      (c₁.close ⟨none, none⟩).1.state = .ignore ∧ (c₁.close ⟨none, none⟩).2 =
        [.sendData (closeFrame ⟨none, none⟩), .closeConnectionAfterWriting] := by
    intro c₁ hstate
    rw [close_of_websocket hstate]
    exact ⟨rfl, rfl⟩
  have hpayload : (c.readOn f rest).framing.payload.getD [] = f.payload :=
    WsFraming.payloadBytes_received c.framing f
  unfold processClose
  rw [hpayload]
  dsimp only
  split_ifs with hlong hverdict
  · exact hclose _ h.state
  · -- the validator says that the reason is UTF-8
    refine absurd ?_ hverdict
    have hzero := Utf8Validator.readText_eq_zero_iff.mpr (hreason hlong)
    show (Utf8Validator.validate UTF8_ACCEPT (f.payload.drop 2)).2 = .valid
    rw [Utf8Validator.validate_eq (by decide), show UTF8_ACCEPT = 0 from rfl, hzero]
    rfl
  · exact hclose _ h.state

/-! ## Sequences of frames -/

/-- The message with the payload of a data frame that passes the checks. -/
theorem exists_extend (h : f.Checked cfg (cur.map WsMessage.type)) : ∃ m, f.extend cur = some m := by
  have hmore := h.more
  unfold WsFrame.extend
  cases hop : f.opcode with
  | continuation =>
    cases cur with
    | none => exact absurd rfl (hmore hop)
    | some m => exact ⟨_, rfl⟩
  | _ => exact ⟨_, rfl⟩

/-- What a data frame asks for. -/
theorem requests_data {m : WsMessage} (hdata : f.opcode = .text ∨ f.opcode = .binary ∨ f.opcode = .continuation)
    (hm : f.extend cur = some m) : WsFrame.requests cur (f :: fs) =
      if f.fin then .message m :: WsFrame.requests none fs else WsFrame.requests (some m) fs := by
  have hrequests : WsFrame.requests cur (f :: fs) =
      match f.fin, f.extend cur with
      | true, some m => .message m :: WsFrame.requests none fs
      | _, cur => WsFrame.requests cur fs := by
    rw [WsFrame.requests]
    rcases hdata with hop | hop | hop <;> rw [hop]
  rw [hrequests, hm]
  cases f.fin <;> rfl

/-- **Frames.** The loop answers what a sequence of frames asks for. -/
theorem clean_frames (cfg : WsConfig) (app : SipApp α) (h : c.Between cur)
    (hbuffer : c.buffer = fs.flatMap WsFrame.bytes) (hfs : WsFrame.Conforms cfg cur fs) :
    ∃ c', (framer cfg app).Clean c (app.answers c.app (WsFrame.requests cur fs)) c' := by
  induction fs generalizing c cur with
  | nil =>
    refine ⟨c, .wait (not_dead h.state) (framer_turn_of_lt ?_)⟩
    rw [hbuffer, WsFraming.need, h.init]
    exact Nat.zero_lt_two
  | cons f fs ih =>
    obtain ⟨hchecked, hrest⟩ := hfs
    have hchecked' := hchecked
    rw [← h.type] at hchecked'
    rw [List.flatMap_cons] at hbuffer
    suffices hread : ∃ c', (framer cfg app).Clean (c.readFrame f (fs.flatMap WsFrame.bytes))
        (app.answers c.app (WsFrame.requests cur (f :: fs))) c' by
      obtain ⟨c', hclean⟩ := hread
      exact ⟨c', clean_frame h.state h.init hbuffer hchecked' hclean⟩
    by_cases hdata : f.opcode = .text ∨ f.opcode = .binary ∨ f.opcode = .continuation
    · obtain ⟨m, hm⟩ := exists_extend hchecked
      have hconforms : (∀ m, f.extend cur = some m → m.Allowed cfg f.fin) ∧
          WsFrame.Conforms cfg (if f.fin then none else f.extend cur) fs := by
        rcases hdata with hop | hop | hop <;> rw [hop] at hrest <;> exact hrest
      rw [hm] at hconforms
      rw [requests_data hdata hm]
      exact clean_data h hchecked' hdata hm (hconforms.1 m rfl) hconforms.2
        fun c₁ cur h₁ hbuffer₁ hfs₁ => ih h₁ hbuffer₁ hfs₁
    · have hturn := turn_of_readFrame cfg app c f (fs.flatMap WsFrame.bytes)
      have hbetween := h.readOn f (fs.flatMap WsFrame.bytes)
      rw [WsFrame.requests]
      cases hop : f.opcode with
      | text => exact absurd (.inl hop) hdata
      | binary => exact absurd (.inr (.inl hop)) hdata
      | continuation => exact absurd (.inr (.inr hop)) hdata
      | ping =>
        rw [hop] at hrest hturn
        obtain ⟨c', hclean⟩ := ih hbetween rfl hrest
        have hframer : (framer cfg app).turn (c.readFrame f (fs.flatMap WsFrame.bytes)) = _ :=
          framer_turn_of_again (by rw [hturn]) (by rw [hturn]; exact h.state)
        rw [hturn, pongFrame_received] at hframer
        exact ⟨c', .more hframer hclean⟩
      | pong =>
        rw [hop] at hrest hturn
        obtain ⟨c', hclean⟩ := ih hbetween rfl hrest
        exact ⟨c', clean_turn _ hturn h.state hclean⟩
      | close =>
        rw [hop] at hrest hturn
        obtain ⟨hstate, hout⟩ := processClose_readOn (fs.flatMap WsFrame.bytes) h hrest
        have hframer : (framer cfg app).turn (c.readFrame f (fs.flatMap WsFrame.bytes)) = _ :=
          framer_turn_of_ignore (by rw [hturn]; exact hstate)
        rw [hturn, hout] at hframer
        exact ⟨_, .ended hframer hstate⟩

/-- A character of two bytes in two frames, with a ping in between, in frames with different forms of the
length. -/
def characterAndPing : List WsFrame :=
  [{ fin := false, opcode := .text, lengthForm := .short, maskingKey := [1, 2, 3, 4], payload := [0xc3]
     key_length := rfl, fits := by decide },
   { fin := true, opcode := .ping, lengthForm := .twoBytes, maskingKey := [5, 6, 7, 8], payload := [0x21]
     key_length := rfl, fits := by decide },
   { fin := true, opcode := .continuation, lengthForm := .eightBytes, maskingKey := [9, 10, 11, 12]
     payload := [0xa9], key_length := rfl, fits := by decide }]

theorem conforms_characterAndPing : WsFrame.Conforms WsServer.smallSizes none characterAndPing := by
  refine ⟨⟨by decide, by decide, by decide, by decide⟩, fun m hm => ?_,
    ⟨by decide, by decide, by decide, by decide⟩,
    ⟨by decide, by decide, by decide, by decide⟩, fun m hm => ?_, trivial⟩
  · cases hm
    refine ⟨by decide, fun _ => ⟨[0xa9], ?_⟩, fun _ hfin => nomatch hfin⟩
    show Utf8.Valid [0xc3, 0xa9]
    decide
  · cases hm
    have hvalid : Utf8.Valid [0xc3, 0xa9] := by decide
    exact ⟨by decide, fun _ => hvalid.extends, fun _ _ => hvalid⟩

/-- The program with messages that are the beginning of a SIP message, and no more. -/
def incompleteApp : SipApp Unit :=
  { processSipMessage := fun a _ => (a, some ⟨some 4001, "SIP message incomplete"⟩) }

/-- Two messages of one byte. -/
def twoTexts : List WsFrame :=
  [{ fin := true, opcode := .text, lengthForm := .short, maskingKey := [1, 2, 3, 4], payload := [0x78]
     key_length := rfl, fits := by decide },
   { fin := true, opcode := .text, lengthForm := .short, maskingKey := [5, 6, 7, 8], payload := [0x79]
     key_length := rfl, fits := by decide }]

end WsConnection

end OverSip
