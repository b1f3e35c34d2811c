import OverSip.WebSocket.WsFramingTheorems

/-!
# The message of a WebSocket connection

What holds in every run of a connection of `@ws_message` and of the validator: between messages
`@ws_message` is empty, and within a text message the validator has read what is in it. A connection that
has been closed from within the loop has nothing left to read.
-/

namespace OverSip

namespace WsConnection

variable {α : Type} {cfg : WsConfig} {app : SipApp α} {c : WsConnection α}

/-! ## Finished frames -/

/-- A frame whose payload has been accepted leaves a message that goes on, or the end of one. -/
theorem finishFrame_spec (app : SipApp α) (h : c.state = .websocket) :
    (c.framing.fin = false ∧ c.finishFrame app = { conn := c, out := [], again := true }) ∨
      (c.framing.fin = true ∧ (c.finishFrame app).conn.wsMessage = [] ∧
        (c.finishFrame app).conn.framing = { c.framing with msgSymOpcode := none } ∧
        (c.finishFrame app).conn.app = (app.processSipMessage c.app c.wsMessage).1 ∧
        (((app.processSipMessage c.app c.wsMessage).2 = none ∧
            (c.finishFrame app).conn.state = .websocket ∧
            (c.finishFrame app).conn.buffer = c.buffer ∧
            (c.finishFrame app).out = [.messageDone c.framing.msgSymOpcode c.wsMessage]) ∨
          ∃ args, (app.processSipMessage c.app c.wsMessage).2 = some args ∧
            (c.finishFrame app).conn.state = .ignore ∧ (c.finishFrame app).conn.buffer = [] ∧
            (c.finishFrame app).out = [.messageDone c.framing.msgSymOpcode c.wsMessage,
              .sendData (closeFrame args), .closeConnectionAfterWriting])) := by
  cases hfin : c.framing.fin with
  | false => exact .inl ⟨rfl, finishFrame_of_not_fin hfin⟩
  | true =>
    obtain ⟨hmessage, hframing, happ, hstate⟩ := messageDone_spec app h c.framing.msgSymOpcode
    rw [finishFrame_of_fin hfin]
    refine .inr ⟨rfl, hmessage, ?_, happ, hstate⟩
    show { (c.messageDone app c.framing.msgSymOpcode).1.framing with msgSymOpcode := none } = _
    rw [hframing]

/-- The only message that the end of a frame hands over is the one that has been collected. -/
theorem mem_finishFrame (h : c.state = .websocket) {type : Option SymOpcode} {m : Bytes}
    (hm : .messageDone type m ∈ (c.finishFrame app).out) :
    c.framing.fin = true ∧ type = c.framing.msgSymOpcode ∧ m = c.wsMessage := by
  rcases finishFrame_spec app h with ⟨_, heq⟩ | ⟨hfin, _, _, _, ⟨_, _, _, hout⟩ | ⟨_, _, _, _, hout⟩⟩
  · rw [heq] at hm
    cases hm
  · rw [hout] at hm
    cases List.mem_singleton.mp hm
    exact ⟨hfin, rfl, rfl⟩
  · rw [hout] at hm
    rcases List.mem_cons.mp hm with hm | hm
    · cases hm
      exact ⟨hfin, rfl, rfl⟩
    · simp at hm

/-- A message that is handed over by a turn is the one that the frame finishes. -/
theorem mem_turn (hc : c.state = .websocket) {type : Option SymOpcode} {m : Bytes}
    (hm : .messageDone type m ∈ (c.turn cfg app).out) :
    c.framing.state = .processFrame ∧ c.framing.isData ∧ ¬ c.framing.isRefused ∧
      (c.framing.payload = none ∨ c.collect.wsMessage.length ≤ cfg.maxWsMessageSize) ∧
      c.framing.fin = true ∧ type = c.framing.messageOpcode ∧ m = c.collect.wsMessage := by
  by_cases hdata : c.framing.state = .processFrame ∧ c.framing.isData
  · have hp := processed cfg app hdata.2
    rw [turn_of_processFrame hdata.1] at hm
    generalize c.processFrame cfg app = t at hp hm
    cases hp with
    | refused reason f _ _ =>
      have hsilent := (close_spec { c with framing := f } ⟨some 1007, reason⟩).2.2.2.2.1 _ hm
      cases hsilent
    | tooBig =>
      have hsilent := (close_spec c.collect ⟨some 1009, "message too big"⟩).2.2.2.2.1 _ hm
      cases hsilent
    | grown => cases hm
    | accepted hrefused hsize =>
      obtain ⟨hfin, htype, hmessage⟩ := mem_finishFrame (c := c.collect) hc hm
      exact ⟨hdata.1, hdata.2, hrefused, hsize, hfin, htype, hmessage⟩
  · cases (quiet_turn cfg app hdata).silent _ hm

/-- When the loop goes on with a connection that the application has closed, nothing is left to read. -/
theorem turn_closed (hc : c.state = .websocket) (hstate : (c.turn cfg app).conn.state = .ignore)
    (hagain : (c.turn cfg app).again = true) :
    (c.turn cfg app).conn.buffer = [] ∧ (c.turn cfg app).conn.framing.state = .init := by
  by_cases hdata : c.framing.state = .processFrame ∧ c.framing.isData
  · have hinit := processFrame_state cfg app c
    rw [turn_of_processFrame hdata.1] at hstate hagain ⊢
    have hp := processed cfg app hdata.2
    generalize c.processFrame cfg app = t at hp hstate hagain hinit
    refine ⟨?_, hinit⟩
    cases hp with
    | refused => cases hagain
    | tooBig => cases hagain
    | grown => cases hagain
    | accepted =>
      have hcollect : c.collect.state = .websocket := hc
      rcases finishFrame_spec app hcollect with
        ⟨_, heq⟩ | ⟨_, _, _, _, ⟨_, halive, _⟩ | ⟨_, _, _, hbuffer, _⟩⟩
      · rw [heq] at hstate
        exact absurd (hstate.symm.trans hc) (by simp)
      · exact absurd (hstate.symm.trans halive) (by simp)
      · exact hbuffer
  · rcases (quiet_turn cfg app hdata).closed with ⟨_, hstop⟩ | ⟨hsame, _⟩
    · rw [hstop] at hagain
      cases hagain
    · exact absurd (hstate.symm.trans (hsame.trans hc)) (by simp)

/-! ## The validator and the message -/

/-- `@ws_message` is empty between messages, and within a text message it is what the validator has
read. -/
structure Sound (c : WsConnection α) : Prop where
  empty : c.framing.msgSymOpcode = none → c.wsMessage = []
  text : c.framing.msgSymOpcode = some .text →
    c.framing.utf8Validator = Utf8Validator.readText 0 c.wsMessage ∧ Utf8.Extends c.wsMessage

/-- The message that a data frame belongs to has a type. -/
theorem messageOpcode_ne_none (hwf : c.framing.Wf cfg) (hstate : c.framing.state = .processFrame)
    (hdata : c.framing.isData) : c.framing.messageOpcode ≠ none := by
  unfold WsFraming.messageOpcode
  rcases hdata with h | h | h
  · rw [h]
    exact nofun
  · rw [h]
    exact nofun
  · rw [h]
    exact hwf.more (.inr hstate) h

/-- The state in which the validator reads a text payload. -/
theorem Sound.utf8Before (h : c.Sound) (hwf : c.framing.Wf cfg)
    (hstate : c.framing.state = .processFrame) (hdata : c.framing.isData)
    (htext : c.framing.messageOpcode = some .text) :
    c.framing.utf8Before = Utf8Validator.readText 0 c.wsMessage ∧ Utf8.Extends c.wsMessage := by
  unfold WsFraming.messageOpcode at htext
  unfold WsFraming.utf8Before
  rcases hdata with hop | hop | hop
  · rw [hop]
    rw [h.empty (hwf.first (.inr hstate) (.inl hop))]
    exact ⟨rfl, Utf8.valid_nil.extends⟩
  · rw [hop] at htext
    cases htext
  · rw [hop] at htext ⊢
    exact h.text htext

/-- A text frame closes the connection for a payload with which the message is not, or not to the end,
UTF-8. -/
theorem Sound.isRefused_iff (h : c.Sound) (hwf : c.framing.Wf cfg)
    (hstate : c.framing.state = .processFrame) (hdata : c.framing.isData)
    (htext : c.framing.messageOpcode = some .text) :
    c.framing.isRefused ↔ c.framing.payload ≠ none ∧ (¬ Utf8.Extends c.collect.wsMessage ∨
      c.framing.fin = true ∧ ¬ Utf8.Valid c.collect.wsMessage) := by
  obtain ⟨hbefore, hextends⟩ := h.utf8Before hwf hstate hdata htext
  have hread : Utf8Validator.readText c.framing.utf8Before c.framing.payloadBytes =
      Utf8Validator.readText 0 c.collect.wsMessage := by
    rw [hbefore]
    exact Utf8Validator.readText_append.symm
  have hne : c.framing.utf8Before ≠ 1 := by
    rw [hbefore]
    exact fun hone => Utf8Validator.readText_eq_one_iff.mp hone hextends
  unfold WsFraming.isRefused WsFraming.isTextPayload
  rw [Utf8Validator.validate_eq hne, hread, ← Utf8Validator.readText_eq_one_iff,
    ← Utf8Validator.readText_eq_zero_iff]
  dsimp only
  constructor
  · rintro ⟨⟨_, hp⟩, hverdict | ⟨hfin, hverdict⟩⟩
    · refine ⟨hp, .inl ?_⟩
      by_contra hone
      rw [if_neg hone] at hverdict
      split_ifs at hverdict
    · refine ⟨hp, .inr ⟨hfin, fun hzero => hverdict ?_⟩⟩
      rw [if_neg (by rw [hzero]; exact Nat.zero_ne_one), if_pos hzero]
  · rintro ⟨hp, hone | ⟨hfin, hzero⟩⟩
    · exact ⟨⟨htext, hp⟩, .inl (if_pos hone)⟩
    · refine ⟨⟨htext, hp⟩, .inr ⟨hfin, ?_⟩⟩
      rw [if_neg hzero]
      split_ifs <;> exact nofun

/-- The validator has read what has been collected. -/
theorem Sound.collect (h : c.Sound) (hwf : c.framing.Wf cfg)
    (hstate : c.framing.state = .processFrame) (hdata : c.framing.isData)
    (hrefused : ¬ c.framing.isRefused) : c.collect.Sound := by
  constructor
  · intro hnone
    exact absurd hnone (messageOpcode_ne_none hwf hstate hdata)
  · intro htext
    have htext' : c.framing.messageOpcode = some .text := htext
    obtain ⟨hbefore, hextends⟩ := h.utf8Before hwf hstate hdata htext'
    have hne : c.framing.utf8Before ≠ 1 := by
      rw [hbefore]
      exact fun hone => Utf8Validator.readText_eq_one_iff.mp hone hextends
    constructor
    · show c.framing.utf8After = _
      unfold WsFraming.utf8After
      rw [if_pos htext', Utf8Validator.validate_eq hne, hbefore]
      exact Utf8Validator.readText_append.symm
    · rw [h.isRefused_iff hwf hstate hdata htext', not_and, not_or, not_not] at hrefused
      by_cases hp : c.framing.payload = none
      · -- nothing has been added
        show Utf8.Extends (c.wsMessage ++ c.framing.payloadBytes)
        unfold WsFraming.payloadBytes
        rw [hp]
        show Utf8.Extends (c.wsMessage ++ [])
        rw [List.append_nil]
        exact hextends
      · exact (hrefused hp).1

/-- A turn keeps the message sound, or closes the connection. -/
theorem Sound.turn (h : c.Sound) (hc : c.state = .websocket) (hwf : c.framing.Wf cfg)
    (halive : (c.turn cfg app).conn.state = .websocket) : (c.turn cfg app).conn.Sound := by
  by_cases hdata : c.framing.state = .processFrame ∧ c.framing.isData
  · have hcollect := h.collect hwf hdata.1 hdata.2
    rw [turn_of_processFrame hdata.1] at halive ⊢
    have hp := processed cfg app hdata.2
    generalize c.processFrame cfg app = t at hp halive
    cases hp with
    | refused reason f =>
      rw [show (fail { c with framing := f } 1007 reason).conn.state = .ignore from
        (close_spec _ _).1] at halive
      cases halive
    | tooBig =>
      rw [show (c.collect.fail 1009 "message too big").conn.state = .ignore from
        (close_spec _ _).1] at halive
      cases halive
    | grown hrefused => exact hcollect hrefused
    | accepted hrefused =>
      rcases finishFrame_spec app (c := c.collect) hc with
        ⟨_, heq⟩ | ⟨_, hmessage, hframing, _⟩
      · rw [heq]
        exact hcollect hrefused
      · constructor
        · exact fun _ => hmessage
        · rw [hframing]
          exact fun htext => nomatch htext
  · obtain ⟨hmessage, htype, _, hclosed⟩ := quiet_turn cfg app hdata
    rcases hclosed with ⟨hignore, _⟩ | ⟨_, hutf8⟩
    · rw [hignore] at halive
      cases halive
    · constructor
      · rw [htype, hmessage]
        exact h.empty
      · rw [htype, hmessage, hutf8]
        exact h.text

end WsConnection

/-! ## Runs -/

namespace WsServer

variable {α : Type} {cfg : WsConfig} {app : SipApp α} {s s' : WsServer α}

/-- What holds in every state that a run reaches. -/
structure Inv (cfg : WsConfig) (s : WsServer α) : Prop where
  wf : s.conn.framing.Wf cfg
  sound : s.conn.state = .websocket → s.conn.Sound
  closed : s.conn.state = .ignore → s.running = true →
    s.conn.buffer = [] ∧ s.conn.framing.state = .init

theorem inv_start (a : α) : Inv cfg (start a) := by
  refine ⟨WsFraming.wf_of_init rfl, fun _ => ⟨fun _ => rfl, fun h => ?_⟩, fun h => ?_⟩
  · cases h
  · cases h

/-- The loop of a closed connection stops at once. -/
theorem Inv.turn_of_ignore (h : s.Inv cfg) (hstate : s.conn.state = .ignore) (hrun : s.running = true) :
    s.conn.turn cfg app = s.conn.stop := by
  obtain ⟨hbuffer, hinit⟩ := h.closed hstate hrun
  refine WsConnection.turn_of_lt ?_
  unfold WsFraming.need
  rw [hbuffer, hinit]
  exact Nat.zero_lt_two

/-- What a step does: a turn, or nothing to the message. -/
theorem step_cases {ev : WsEvent α} {o : List WsOut} (hs : step cfg app s ev = some (s', o)) :
    (ev = .turn ∧ s.running = true ∧ s' = ⟨(s.conn.turn cfg app).conn, (s.conn.turn cfg app).again⟩ ∧
        o = (s.conn.turn cfg app).out) ∨
      (s.running = false ∧ s'.conn.framing = s.conn.framing ∧ s'.conn.wsMessage = s.conn.wsMessage ∧
        (∀ x ∈ o, x.isMessage = false) ∧ (s.conn.state = .ignore → s'.conn.state = .ignore) ∧
        (s'.running = true → s'.conn.state = .websocket)) := by
  cases ev with
  | receiveData data =>
    simp only [step] at hs
    split_ifs at hs with hrun
    have hrun' := eq_false_of_ne_true hrun
    cases hstate : s.conn.state with
    | ignore =>
      rw [hstate] at hs
      obtain ⟨rfl, rfl⟩ := Prod.mk.inj (Option.some.inj hs)
      refine .inr ⟨hrun', rfl, rfl, by simp, fun _ => hstate, fun h => absurd h hrun⟩
    | websocket =>
      rw [hstate] at hs
      obtain ⟨rfl, rfl⟩ := Prod.mk.inj (Option.some.inj hs)
      refine .inr ⟨hrun', rfl, rfl, by simp, fun h => ?_, fun _ => hstate⟩
      cases h
  | turn =>
    simp only [step] at hs
    split_ifs at hs with hrun
    obtain ⟨rfl, rfl⟩ := Prod.mk.inj (Option.some.inj hs)
    exact .inl ⟨rfl, hrun, rfl, rfl⟩
  | close args =>
    simp only [step] at hs
    split_ifs at hs with hrun
    obtain ⟨rfl, rfl⟩ := Prod.mk.inj (Option.some.inj hs)
    obtain ⟨hstate, hframing, hmessage, _, hsilent, _⟩ := s.conn.close_spec args
    exact .inr ⟨eq_false_of_ne_true hrun, hframing, hmessage, hsilent, fun _ => hstate,
      fun h => absurd h hrun⟩
  | elsewhere a =>
    simp only [step] at hs
    split_ifs at hs with hrun
    obtain ⟨rfl, rfl⟩ := Prod.mk.inj (Option.some.inj hs)
    exact .inr ⟨eq_false_of_ne_true hrun, rfl, rfl, by simp, fun h => h, fun h => absurd h hrun⟩

theorem Inv.step {ev : WsEvent α} {o : List WsOut} (h : s.Inv cfg)
    (hs : WsServer.step cfg app s ev = some (s', o)) : s'.Inv cfg := by
  rcases step_cases hs with ⟨_, hrun, rfl, _⟩ | ⟨_, hframing, hmessage, _, hkeep, halive⟩
  · cases hstate : s.conn.state with
    | websocket =>
      exact ⟨WsConnection.wf_turn h.wf, (h.sound hstate).turn hstate h.wf,
        WsConnection.turn_closed hstate⟩
    | ignore =>
      rw [h.turn_of_ignore hstate hrun]
      refine ⟨h.wf, h.sound, fun _ hagain => ?_⟩
      cases hagain
  · refine ⟨?_, fun hstate => ?_, fun hstate hrun => ?_⟩
    · rw [hframing]
      exact h.wf
    · have hpre : s.conn.state = .websocket := by
        cases hpre : s.conn.state with
        | websocket => rfl
        | ignore =>
          rw [hkeep hpre] at hstate
          cases hstate
      constructor
      · rw [hframing, hmessage]
        exact (h.sound hpre).empty
      · rw [hframing, hmessage]
        exact (h.sound hpre).text
    · rw [halive hrun] at hstate
      cases hstate

theorem inv_of_run {a : α} {tr : List (StepRec (WsServer α) (WsEvent α) WsOut)}
    (h : Run (WsServer.step cfg app) (start a) tr s) : s.Inv cfg :=
  h.stateInvariant (inv_start a) fun _ _ _ _ hI hs => hI.step hs

/-! ## Sample frames -/

/-- A configuration with small sizes. -/
def smallSizes : WsConfig :=
  { maxWsFrameSize := 4, maxWsMessageSize := 4, frame_minor_than := by decide
    message_minor_than := by decide }

/-- A program that closes no connection. -/
def quietApp : SipApp Unit := { processSipMessage := fun a _ => (a, none) }

/-- The events of a chunk that is a frame with a payload. -/
def frameEvents (frame : Bytes) : List (WsEvent Unit) :=
  [.receiveData frame, .turn, .turn, .turn, .turn, .turn]

end WsServer

end OverSip
