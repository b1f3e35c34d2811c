import OverSip.WebSocket.WsMessages

/-!
# The size of a WebSocket message

`receive_payload_data` adds the payload of a frame to `@ws_message` and returns `false` when the message is
too big. The branches of text and binary frames then close the connection. The branch of continuation
frames ends the loop and leaves the connection open, so that the next frame is added as well.
-/

namespace OverSip

namespace WsServer

variable {α : Type} {cfg : WsConfig} {app : SipApp α} {s s' : WsServer α}
  {tr : List (StepRec (WsServer α) (WsEvent α) WsOut)}

/-- What a step owes to the bounds. -/
structure StepBounded (cfg : WsConfig) (r : StepRec (WsServer α) (WsEvent α) WsOut) : Prop where
  bound : r.post.conn.wsMessage.length ≤ cfg.maxWsMessageSize + cfg.maxWsFrameSize
  /-- The connection is closed as soon as the message is too big. -/
  closed : cfg.maxWsMessageSize < r.post.conn.wsMessage.length → r.post.conn.state = .ignore
  /-- No message that is too big is delivered. -/
  delivered : ∀ type m, .messageDone type m ∈ r.out → m.length ≤ cfg.maxWsMessageSize
  /-- Nothing is accumulated or delivered when the connection has been closed. -/
  final : r.pre.conn.state = .ignore → r.post.conn.state = .ignore ∧
    r.post.conn.wsMessage = r.pre.conn.wsMessage ∧ ∀ x ∈ r.out, x.isMessage = false

/-- The payload of a continuation frame makes the message too big. -/
def Overflows (cfg : WsConfig) (s : WsServer α) : WsEvent α → Prop
  | .turn => s.running = true ∧ s.conn.framing.state = .processFrame ∧
    s.conn.framing.symOpcode = .continuation ∧ s.conn.framing.payload ≠ none ∧
    ¬ s.conn.framing.isRefused ∧
    cfg.maxWsMessageSize < (s.conn.wsMessage ++ s.conn.framing.payloadBytes).length
  | _ => False

instance (cfg : WsConfig) (s : WsServer α) (ev : WsEvent α) : Decidable (Overflows cfg s ev) :=
  match ev with
  | .turn => inferInstanceAs (Decidable (_ = _ ∧ _ = _ ∧ _ = _ ∧ _ ≠ _ ∧
      ¬ s.conn.framing.isRefused ∧ _ < (s.conn.wsMessage ++ s.conn.framing.payloadBytes).length))
  | .receiveData _ | .close _ | .elsewhere _ => inferInstanceAs (Decidable False)

/-- The message of an open connection is not too big, and that of a closed one not much bigger. -/
structure Small (cfg : WsConfig) (c : WsConnection α) : Prop where
  bound : c.wsMessage.length ≤ cfg.maxWsMessageSize + cfg.maxWsFrameSize
  small : c.state = .websocket → c.wsMessage.length ≤ cfg.maxWsMessageSize

/-! ## A turn -/

/-- The payload of a frame fits into a frame. -/
theorem length_payloadBytes {f : WsFraming} (hwf : f.Wf cfg) (hstate : f.state = .processFrame) :
    f.payloadBytes.length ≤ cfg.maxWsFrameSize := by
  unfold WsFraming.payloadBytes
  cases hp : f.payload with
  | none => exact Nat.zero_le _
  | some p =>
    show p.length ≤ _
    rw [(hwf.length hstate p hp).1]
    exact hwf.size (.inr hstate)

theorem small_of_closed {c : WsConnection α} (hstate : c.state = .ignore)
    (h : c.wsMessage.length ≤ cfg.maxWsMessageSize + cfg.maxWsFrameSize) : Small cfg c := by
  refine ⟨h, fun halive => ?_⟩
  rw [hstate] at halive
  cases halive

theorem small_of_le {c : WsConnection α} (h : c.wsMessage.length ≤ cfg.maxWsMessageSize) :
    Small cfg c :=
  ⟨Nat.le_trans h (Nat.le_add_right _ _), fun _ => h⟩

/-- A turn of an open connection, unless a continuation frame makes the message too big. -/
theorem small_turn {c : WsConnection α} (h : Small cfg c) (hc : c.state = .websocket)
    (hwf : c.framing.Wf cfg) (hG : ¬ Overflows cfg ⟨c, true⟩ .turn) :
    Small cfg (c.turn cfg app).conn := by
  by_cases hdata : c.framing.state = .processFrame ∧ c.framing.isData
  · have hsmall := h.small hc
    have hpayload := length_payloadBytes hwf hdata.1
    have hcollect : c.collect.wsMessage.length = c.wsMessage.length + c.framing.payloadBytes.length :=
      List.length_append
    rw [WsConnection.turn_of_processFrame hdata.1]
    have hp := WsConnection.processed cfg app hdata.2
    generalize c.processFrame cfg app = t at hp
    cases hp with
    | refused reason f =>
      obtain ⟨hstate, _, hmessage, _⟩ :=
        WsConnection.close_spec { c with framing := f } ⟨some 1007, reason⟩
      refine small_of_closed hstate ?_
      show ((WsConnection.close { c with framing := f } ⟨some 1007, reason⟩).1.wsMessage).length ≤ _
      rw [hmessage]
      exact h.bound
    | tooBig =>
      obtain ⟨hstate, _, hmessage, _⟩ := c.collect.close_spec ⟨some 1009, "message too big"⟩
      refine small_of_closed hstate ?_
      show ((c.collect.close ⟨some 1009, "message too big"⟩).1.wsMessage).length ≤ _
      rw [hmessage, hcollect]
      omega
    | grown hrefused hne hop hbig => exact absurd ⟨rfl, hdata.1, hop, hne, hrefused, hbig⟩ hG
    | accepted hrefused hsize =>
      have hle : c.collect.wsMessage.length ≤ cfg.maxWsMessageSize := by
        rcases hsize with hnone | hsize
        · rw [hcollect]
          unfold WsFraming.payloadBytes
          rw [hnone]
          exact hsmall
        · exact hsize
      rcases WsConnection.finishFrame_spec app (c := c.collect) hc with
        ⟨_, heq⟩ | ⟨_, hmessage, _⟩
      · rw [heq]
        exact small_of_le hle
      · refine small_of_le ?_
        rw [hmessage]
        exact Nat.zero_le _
  · obtain ⟨hmessage, _, _, hclosed⟩ := WsConnection.quiet_turn cfg app hdata
    refine ⟨?_, fun halive => ?_⟩
    · rw [hmessage]
      exact h.bound
    · rw [hmessage]
      exact h.small hc

/-- A message that is delivered by an open connection is not too big. -/
theorem delivered_turn {c : WsConnection α} (h : Small cfg c) (hc : c.state = .websocket)
    {type : Option SymOpcode} {m : Bytes} (hm : .messageDone type m ∈ (c.turn cfg app).out) :
    m.length ≤ cfg.maxWsMessageSize := by
  obtain ⟨_, _, _, hsize, _, _, rfl⟩ := WsConnection.mem_turn hc hm
  rcases hsize with hnone | hsize
  · have hcollect : c.collect.wsMessage.length = c.wsMessage.length + c.framing.payloadBytes.length :=
      List.length_append
    rw [hcollect]
    unfold WsFraming.payloadBytes
    rw [hnone]
    exact h.small hc
  · exact hsize

/-! ## Runs -/

theorem stepBounded {ev : WsEvent α} {o : List WsOut} (hinv : s.Inv cfg) (h : Small cfg s.conn)
    (hG : ¬ Overflows cfg s ev) (hs : step cfg app s ev = some (s', o)) :
    Small cfg s'.conn ∧ StepBounded cfg ⟨s, ev, o, s'⟩ := by
  rcases step_cases hs with ⟨rfl, hrun, rfl, rfl⟩ | ⟨_, _, hmessage, hsilent, hkeep, _⟩
  · cases hstate : s.conn.state with
    | websocket =>
      have hG' : ¬ Overflows cfg ⟨s.conn, true⟩ .turn := fun hover => hG ⟨hrun, hover.2⟩
      have hsmall : Small cfg (s.conn.turn cfg app).conn := small_turn h hstate hinv.wf hG'
      refine ⟨hsmall, hsmall.bound, fun hbig => ?_, fun _ _ hm => delivered_turn h hstate hm,
        fun hignore => ?_⟩
      · cases halive : (s.conn.turn cfg app).conn.state with
        | ignore => rfl
        | websocket => exact absurd (hsmall.small halive) (Nat.not_le.mpr hbig)
      · rw [show s.conn.state = .ignore from hignore] at hstate
        cases hstate
    | ignore =>
      rw [hinv.turn_of_ignore hstate hrun]
      refine ⟨h, h.bound, fun _ => hstate, fun _ _ hm => ?_, fun _ => ⟨hstate, rfl, ?_⟩⟩
      · exact absurd hm List.not_mem_nil
      · exact fun x hx => absurd hx List.not_mem_nil
  · have hsmall : Small cfg s'.conn := by
      refine ⟨?_, fun halive => ?_⟩
      · rw [hmessage]
        exact h.bound
      · rw [hmessage]
        refine h.small ?_
        cases hstate : s.conn.state with
        | websocket => rfl
        | ignore =>
          rw [hkeep hstate] at halive
          cases halive
    refine ⟨hsmall, hsmall.bound, fun hbig => ?_, fun _ _ hm => ?_, fun hignore => ?_⟩
    · cases halive : s'.conn.state with
      | ignore => rfl
      | websocket => exact absurd (hsmall.small halive) (Nat.not_le.mpr hbig)
    · cases hsilent _ hm
    · exact ⟨hkeep hignore, hmessage, hsilent⟩

/-- **The size of a message.** In every run the bounds are kept, and the connection is closed as soon as
a message is too big, exactly if no continuation frame makes a message too big. -/
theorem bounded_iff {a : α} (h : Run (step cfg app) (start a) tr s) :
    (∀ r ∈ tr, StepBounded cfg r) ↔ ∀ r ∈ tr, ¬ Overflows cfg r.pre r.ev := by
  constructor
  · intro hbounded r hr hover
    obtain ⟨tr₁, tr₂, rfl⟩ := List.append_of_mem hr
    obtain ⟨hrun, hs, _⟩ := h.of_middle
    have hev : r.ev = .turn := by
      cases hev : r.ev with
      | turn => rfl
      | _ => rw [hev] at hover; exact hover.elim
    rw [hev] at hs hover
    obtain ⟨hrunning, hprocess, hop, hne, hrefused, hbig⟩ := hover
    have hinv := inv_of_run hrun
    have halive : r.pre.conn.state = .websocket := by
      cases hstate : r.pre.conn.state with
      | websocket => rfl
      | ignore =>
        rw [(hinv.closed hstate hrunning).2] at hprocess
        cases hprocess
    -- the payload has been added, and the connection is open
    have hpost : r.post.conn = r.pre.conn.collect := by
      rcases step_cases hs with ⟨_, _, hpost, _⟩ | ⟨hstopped, _⟩
      · rw [hpost, WsConnection.turn_of_processFrame hprocess]
        have hp := WsConnection.processed cfg app (c := r.pre.conn) (.inr (.inr hop))
        dsimp only
        generalize r.pre.conn.processFrame cfg app = t at hp
        cases hp with
        | refused _ _ hr' => exact absurd hr' hrefused
        | tooBig _ _ hop' => exact absurd hop hop'
        | grown => rfl
        | accepted _ hsize =>
          rcases hsize with hnone | hsize
          · exact absurd hnone hne
          · exact absurd hsize (Nat.not_le.mpr hbig)
      · rw [hrunning] at hstopped
        cases hstopped
    have hclosed := (hbounded r hr).closed
    rw [hpost] at hclosed
    have hignore : r.pre.conn.state = .ignore := hclosed hbig
    rw [halive] at hignore
    cases hignore
  · intro hG
    have hI : s.Inv cfg ∧ Small cfg s.conn ∧ ∀ r ∈ tr, StepBounded cfg r := by
      refine Run.invariant (G := fun s ev => ¬ Overflows cfg s ev)
        (I := fun tr s => s.Inv cfg ∧ Small cfg s.conn ∧ ∀ r ∈ tr, StepBounded cfg r) ?_ ?_ h hG
      · exact ⟨inv_start a, small_of_le (Nat.zero_le _), fun r hr => absurd hr List.not_mem_nil⟩
      · rintro tr s ev s' o ⟨hinv, hsmall, hbounded⟩ hGe hs
        obtain ⟨hsmall', hstep⟩ := stepBounded hinv hsmall hGe hs
        refine ⟨hinv.step hs, hsmall', fun r hr => ?_⟩
        rcases List.mem_append.mp hr with hr | hr
        · exact hbounded r hr
        · rw [List.mem_singleton.mp hr]
          exact hstep
    exact hI.2.2

/-- A text frame of two bytes and two continuation frames of four bytes, each in a chunk. -/
def growing : List (WsEvent Unit) :=
  frameEvents [0x01, 0x82, 0, 0, 0, 0, 97, 98] ++ [.turn] ++
    frameEvents [0x00, 0x84, 0, 0, 0, 0, 97, 98, 99, 100] ++
    frameEvents [0x00, 0x84, 0, 0, 0, 0, 97, 98, 99, 100]

theorem bounded_broken_by_continuation : ∃ tr s, Run (step smallSizes quietApp) (start ()) tr s ∧
    tr.map (·.ev) = growing ∧ s.conn.state = .websocket ∧ s.conn.wsMessage.length = 10 ∧
    ¬ ∀ r ∈ tr, StepBounded smallSizes r := by
  have hrun := run_of_exec
    (show exec (step smallSizes quietApp) (start ()) growing = some (_, _) from rfl)
  refine ⟨_, _, hrun, rfl, rfl, rfl, ?_⟩
  intro hbounded
  have hlast := hbounded _ (List.mem_of_getLast? rfl)
  exact absurd hlast.bound (by decide)

/-- A text frame of two bytes, finished by a continuation frame of two bytes. -/
def fitting : List (WsEvent Unit) :=
  frameEvents [0x01, 0x82, 0, 0, 0, 0, 97, 98] ++ [.turn] ++
    frameEvents [0x80, 0x82, 0, 0, 0, 0, 99, 100]

theorem bounded_fitting : ∃ tr s, Run (step smallSizes quietApp) (start ()) tr s ∧
    tr.map (·.ev) = fitting ∧ (∀ r ∈ tr, StepBounded smallSizes r) ∧
    ∃ r ∈ tr, r.out = [.messageDone (some .text) [97, 98, 99, 100]] := by
  have hrun := run_of_exec
    (show exec (step smallSizes quietApp) (start ()) fitting = some (_, _) from rfl)
  exact ⟨_, _, hrun, rfl, (bounded_iff hrun).mpr (by decide), _, List.mem_of_getLast? rfl, rfl⟩

end WsServer

end OverSip
