import OverSip.WebSocket.WsMessages

/-!
# Text messages are UTF-8

The payload of a text frame, and of a continuation frame of a text message, is read by the validator, whose
state is kept from one frame to the next. The verdict is asked for when there is a payload. An empty
continuation frame that finishes a message is taken without looking at the state of the validator, also in
the middle of a character.
-/

namespace OverSip

namespace WsServer

variable {α : Type} {cfg : WsConfig} {app : SipApp α} {s s' : WsServer α}
  {tr : List (StepRec (WsServer α) (WsEvent α) WsOut)}

/-- The frame that is processed belongs to a text message, which is `m` with its payload. -/
structure ProcessesText (s : WsServer α) (m : Bytes) : Prop where
  running : s.running = true
  state : s.conn.framing.state = .processFrame
  data : s.conn.framing.isData
  text : s.conn.framing.messageOpcode = some .text
  message : m = s.conn.wsMessage ++ s.conn.framing.payloadBytes

/-- What a step owes to text messages. -/
structure StepText (r : StepRec (WsServer α) (WsEvent α) WsOut) : Prop where
  valid : ∀ m, .messageDone (some .text) m ∈ r.out → Utf8.Valid m
  /-- A text message that is ill-formed, or finished but truncated, closes the connection. -/
  closed : ∀ m, r.ev = .turn → ProcessesText r.pre m →
    ¬ Utf8.Extends m ∨ r.pre.conn.framing.fin = true ∧ ¬ Utf8.Valid m →
    r.post.conn.state = .ignore ∧ ∀ x ∈ r.out, x.isMessage = false

/-- An empty continuation frame finishes a text message in the middle of a character. -/
def Truncates (s : WsServer α) : WsEvent α → Prop
  | .turn => s.running = true ∧ s.conn.framing.state = .processFrame ∧
    s.conn.framing.symOpcode = .continuation ∧ s.conn.framing.msgSymOpcode = some .text ∧
    s.conn.framing.payload = none ∧ s.conn.framing.fin = true ∧ ¬ Utf8.Valid s.conn.wsMessage
  | _ => False

instance (s : WsServer α) (ev : WsEvent α) : Decidable (Truncates s ev) :=
  match ev with
  | .turn => inferInstanceAs (Decidable (_ = _ ∧ _ = _ ∧ _ = _ ∧ _ = _ ∧ _ = _ ∧ _ = _ ∧
      ¬ Utf8.Valid s.conn.wsMessage))
  | .receiveData _ | .close _ | .elsewhere _ => inferInstanceAs (Decidable False)

/-! ## A turn -/

/-- A text message that an accepted frame finishes is UTF-8, unless the frame is an empty continuation
frame. -/
theorem valid_collect {c : WsConnection α} (h : c.Sound) (hwf : c.framing.Wf cfg)
    (hstate : c.framing.state = .processFrame) (hdata : c.framing.isData)
    (htext : c.framing.messageOpcode = some .text) (hrefused : ¬ c.framing.isRefused)
    (hfin : c.framing.fin = true) (hG : ¬ Truncates ⟨c, true⟩ .turn) :
    Utf8.Valid c.collect.wsMessage := by
  rw [h.isRefused_iff hwf hstate hdata htext, not_and, not_or] at hrefused
  by_cases hp : c.framing.payload = none
  · have hmessage : c.collect.wsMessage = c.wsMessage := by
      show c.wsMessage ++ c.framing.payloadBytes = _
      unfold WsFraming.payloadBytes
      rw [hp]
      exact List.append_nil _
    rw [hmessage]
    unfold WsFraming.messageOpcode at htext
    rcases hdata with hop | hop | hop
    · -- a single frame without a payload
      rw [h.empty (hwf.first (.inr hstate) (.inl hop))]
      exact Utf8.valid_nil
    · rw [hop] at htext
      cases htext
    · rw [hop] at htext
      by_contra hinvalid
      exact hG ⟨rfl, hstate, hop, htext, hp, hfin, hinvalid⟩
  · by_contra hinvalid
    exact (hrefused hp).2 ⟨hfin, hinvalid⟩

/-- A frame with which the text message is not UTF-8 closes the connection. -/
theorem refused_turn {c : WsConnection α} (hstate : c.framing.state = .processFrame)
    (hdata : c.framing.isData) (hrefused : c.framing.isRefused) :
    (c.turn cfg app).conn.state = .ignore ∧ ∀ x ∈ (c.turn cfg app).out, x.isMessage = false := by
  rw [WsConnection.turn_of_processFrame hstate]
  have hp := WsConnection.processed cfg app hdata
  generalize c.processFrame cfg app = t at hp
  cases hp with
  | refused reason f =>
    obtain ⟨hignore, _, _, _, hsilent, _⟩ :=
      WsConnection.close_spec { c with framing := f } ⟨some 1007, reason⟩
    exact ⟨hignore, hsilent⟩
  | tooBig hnot => exact absurd hrefused hnot
  | grown hnot => exact absurd hrefused hnot
  | accepted hnot => exact absurd hrefused hnot

theorem stepText_turn {c : WsConnection α} (hc : c.state = .websocket) (h : c.Sound)
    (hwf : c.framing.Wf cfg) (hG : ¬ Truncates ⟨c, true⟩ .turn) :
    StepText ⟨⟨c, true⟩, .turn, (c.turn cfg app).out, ⟨(c.turn cfg app).conn, (c.turn cfg app).again⟩⟩ := by
  constructor
  · intro m hm
    obtain ⟨hstate, hdata, hrefused, _, hfin, htype, rfl⟩ := WsConnection.mem_turn hc hm
    exact valid_collect h hwf hstate hdata htype.symm hrefused hfin hG
  · rintro m _ ⟨_, hstate, hdata, htext, rfl⟩ hbad
    refine refused_turn hstate hdata ?_
    rw [h.isRefused_iff hwf hstate hdata htext]
    refine ⟨fun hp => ?_, hbad⟩
    -- without a payload the message is what the validator has read
    have hmessage : c.wsMessage ++ c.framing.payloadBytes = c.wsMessage := by
      unfold WsFraming.payloadBytes
      rw [hp]
      exact List.append_nil _
    rcases hbad with hextends | ⟨hfin, hinvalid⟩
    · rw [show (⟨c, true⟩ : WsServer α).conn = c from rfl, hmessage] at hextends
      exact hextends (h.utf8Before hwf hstate hdata htext).2
    · exact hinvalid (valid_collect h hwf hstate hdata htext (fun hr => hr.1.2 hp) hfin hG)

/-! ## Runs -/

theorem stepText {ev : WsEvent α} {o : List WsOut} (hinv : s.Inv cfg) (hG : ¬ Truncates s ev)
    (hs : step cfg app s ev = some (s', o)) : StepText ⟨s, ev, o, s'⟩ := by
  rcases step_cases hs with ⟨rfl, hrun, rfl, rfl⟩ | ⟨hstopped, _, _, hsilent, _⟩
  · cases hstate : s.conn.state with
    | websocket =>
      obtain ⟨c, running⟩ := s
      cases hrun
      exact stepText_turn hstate (hinv.sound hstate) hinv.wf hG
    | ignore =>
      rw [hinv.turn_of_ignore hstate hrun]
      constructor
      · exact fun m hm => absurd hm List.not_mem_nil
      · exact fun m _ _ _ => ⟨hstate, fun x hx => absurd hx List.not_mem_nil⟩
  · constructor
    · intro m hm
      cases hsilent _ hm
    · rintro m _ ⟨hrun, _⟩
      rw [hrun] at hstopped
      cases hstopped

/-- **UTF-8.** In every run the text messages that are handed over are UTF-8, and the others close the
connection, exactly if no empty continuation frame finishes a text message in the middle of a character. -/
theorem text_iff {a : α} (h : Run (step cfg app) (start a) tr s) :
    (∀ r ∈ tr, StepText r) ↔ ∀ r ∈ tr, ¬ Truncates r.pre r.ev := by
  constructor
  · intro hvalid r hr htruncates
    obtain ⟨tr₁, tr₂, rfl⟩ := List.append_of_mem hr
    obtain ⟨hrun, hs, _⟩ := h.of_middle
    have hev : r.ev = .turn := by
      cases hev : r.ev with
      | turn => rfl
      | _ => rw [hev] at htruncates; exact htruncates.elim
    rw [hev] at hs htruncates
    obtain ⟨hrunning, hstate, hop, htext, hp, hfin, hinvalid⟩ := htruncates
    have hinv := inv_of_run hrun
    have halive : r.pre.conn.state = .websocket := by
      cases halive : r.pre.conn.state with
      | websocket => rfl
      | ignore =>
        rw [(hinv.closed halive hrunning).2] at hstate
        cases hstate
    refine hinvalid ((hvalid r hr).valid _ ?_)
    -- the frame is accepted, and the message is handed over
    rcases step_cases hs with ⟨_, _, _, hout⟩ | ⟨hstopped, _⟩
    · have htype : r.pre.conn.framing.messageOpcode = some .text := by
        unfold WsFraming.messageOpcode
        rw [hop]
        exact htext
      have hmessage : r.pre.conn.collect.wsMessage = r.pre.conn.wsMessage := by
        show r.pre.conn.wsMessage ++ r.pre.conn.framing.payloadBytes = _
        unfold WsFraming.payloadBytes
        rw [hp]
        exact List.append_nil _
      rw [hout, WsConnection.turn_of_processFrame hstate]
      have hprocessed := WsConnection.processed cfg app (c := r.pre.conn) (.inr (.inr hop))
      generalize r.pre.conn.processFrame cfg app = t at hprocessed
      cases hprocessed with
      | refused _ _ hr' => exact absurd hp hr'.1.2
      | tooBig _ hne => exact absurd hp hne
      | grown _ hne => exact absurd hp hne
      | accepted =>
        rcases WsConnection.finishFrame_spec app (c := r.pre.conn.collect) halive with
          ⟨hnot, _⟩ | ⟨_, _, _, _, ⟨_, _, _, hdone⟩ | ⟨_, _, _, _, hdone⟩⟩
        · rw [show r.pre.conn.collect.framing.fin = r.pre.conn.framing.fin from rfl, hfin] at hnot
          cases hnot
        · rw [hdone, hmessage]
          exact List.mem_singleton.mpr (congrArg (WsOut.messageDone · _) htype.symm)
        · rw [hdone, hmessage]
          exact List.mem_cons.mpr (.inl (congrArg (WsOut.messageDone · _) htype.symm))
    · rw [hrunning] at hstopped
      cases hstopped
  · intro hG r hr
    obtain ⟨tr₁, tr₂, rfl⟩ := List.append_of_mem hr
    obtain ⟨hrun, hs, _⟩ := h.of_middle
    exact stepText (inv_of_run hrun) (hG r hr) hs

/-- The first byte of a character, and an empty frame that finishes the message. -/
def truncated : List (WsEvent Unit) :=
  frameEvents [0x01, 0x81, 0, 0, 0, 0, 0xc3] ++ [.turn] ++ frameEvents [0x80, 0x80, 0, 0, 0, 0]

theorem text_broken_by_empty_frame : ∃ tr s, Run (step smallSizes quietApp) (start ()) tr s ∧
    tr.map (·.ev) = truncated ∧ s.conn.state = .websocket ∧
    ∃ r ∈ tr, r.out = [.messageDone (some .text) [0xc3]] ∧ ¬ StepText r := by
  have hrun := run_of_exec
    (show exec (step smallSizes quietApp) (start ()) truncated = some (_, _) from rfl)
  refine ⟨_, _, hrun, rfl, rfl, _, List.mem_of_getLast? rfl, rfl, fun htext => ?_⟩
  have hvalid := htext.valid [0xc3] (List.mem_singleton.mpr rfl)
  exact absurd hvalid (by decide)

/-- A character of two bytes in two frames, with a ping in between. -/
def completed : List (WsEvent Unit) :=
  frameEvents [0x01, 0x81, 0, 0, 0, 0, 0xc3] ++ [.turn] ++
    frameEvents [0x89, 0x80, 0, 0, 0, 0] ++ [.turn] ++ frameEvents [0x80, 0x81, 0, 0, 0, 0, 0xa9]

theorem text_completed : ∃ tr s, Run (step smallSizes quietApp) (start ()) tr s ∧
    tr.map (·.ev) = completed ∧ (∀ r ∈ tr, StepText r) ∧
    ∃ r ∈ tr, r.out = [.messageDone (some .text) [0xc3, 0xa9]] := by
  have hrun := run_of_exec
    (show exec (step smallSizes quietApp) (start ()) completed = some (_, _) from rfl)
  exact ⟨_, _, hrun, rfl, (text_iff hrun).mpr (by decide), _, List.mem_of_getLast? rfl, rfl⟩

end WsServer

end OverSip
