import OverSip.WebSocket.WsSegmentation

/-!
# Where the WebSocket loop stalls

The loop waits for more bytes, ends with the connection, or stalls: behind a continuation frame that makes
the message too big it stops with the connection open, whatever stands behind the frame (`drains_cases`).
What is left is looked at when the next chunk arrives. `receiveData_append` says what a chunk in two pieces
comes to.
-/

namespace OverSip

namespace WsConnection

variable {α : Type} {cfg : WsConfig} {app : SipApp α} {c c' : WsConnection α} {d e bytes : Bytes}
  {o : List WsOut}

/-- The loop has stopped with the connection open and a message that is too big. -/
structure Stalled (cfg : WsConfig) (c : WsConnection α) : Prop where
  alive : c.state = .websocket
  init : c.framing.state = .init
  tooBig : cfg.maxWsMessageSize < c.wsMessage.length

instance (cfg : WsConfig) (c : WsConnection α) : Decidable (Stalled cfg c) :=
  decidable_of_iff (c.state = .websocket ∧ c.framing.state = .init ∧
      cfg.maxWsMessageSize < c.wsMessage.length)
    ⟨fun h => ⟨h.1, h.2.1, h.2.2⟩, fun h => ⟨h.alive, h.init, h.tooBig⟩⟩

/-! ## How a turn ends -/

/-- The loop goes on, or the connection is closed. -/
def Proceeds (t : WsTurn α) : Prop := t.again = true ∨ t.conn.state = .ignore

theorem proceeds_fail (c : WsConnection α) (status : Nat) (reason : Option String) :
    Proceeds (c.fail status reason) :=
  .inr (c.close_spec ⟨some status, reason⟩).1

theorem proceeds_goOn (c : WsConnection α) (state : WsState) : Proceeds (c.goOn state) := .inl rfl

theorem proceeds_ite {p : Prop} [Decidable p] {t u : WsTurn α} (ht : Proceeds t) (hu : Proceeds u) :
    Proceeds (if p then t else u) := by
  by_cases hp : p
  · rw [if_pos hp]
    exact ht
  · rw [if_neg hp]
    exact hu

theorem proceeds_readHeader (c : WsConnection α) (bytes : Bytes) : Proceeds (c.readHeader bytes) := by
  unfold readHeader
  dsimp only
  apply proceeds_ite (proceeds_fail c _ _)
  split
  · exact proceeds_fail c _ _
  · apply proceeds_ite (proceeds_fail c _ _)
    apply proceeds_ite (proceeds_goOn _ _)
    exact proceeds_ite (proceeds_goOn _ _) (proceeds_goOn _ _)

theorem proceeds_checkFrame (cfg : WsConfig) (c : WsConnection α) : Proceeds (c.checkFrame cfg) := by
  unfold checkFrame
  apply proceeds_ite (proceeds_fail c _ _)
  apply proceeds_ite (proceeds_fail c _ _)
  apply proceeds_ite (proceeds_fail c _ _)
  apply proceeds_ite (proceeds_fail c _ _)
  exact proceeds_ite (proceeds_fail c _ _) (proceeds_goOn c _)

theorem proceeds_processClose (c : WsConnection α) : Proceeds c.processClose := by
  unfold processClose validateUtf8
  dsimp only
  apply proceeds_ite
  · exact proceeds_ite (.inr (close_spec _ _).1) (proceeds_fail _ _ _)
  · exact .inr (close_spec _ _).1

theorem again_finishFrame (app : SipApp α) (c : WsConnection α) : (c.finishFrame app).again = true := by
  cases hfin : c.framing.fin with
  | false => rw [finishFrame_of_not_fin hfin]
  | true => rw [finishFrame_of_fin hfin]

/-- The payload of a frame is processed, the connection is closed, or the message is too big. -/
theorem processFrame_proceeds (cfg : WsConfig) (app : SipApp α) (c : WsConnection α) :
    Proceeds (c.processFrame cfg app) ∨
      cfg.maxWsMessageSize < (c.processFrame cfg app).conn.wsMessage.length := by
  by_cases hdata : c.framing.isData
  · have hp := processed cfg app hdata
    generalize c.processFrame cfg app = t at hp
    cases hp with
    | refused reason f => exact .inl (proceeds_fail _ _ _)
    | tooBig => exact .inl (proceeds_fail _ _ _)
    | grown _ _ _ hbig => exact .inr hbig
    | accepted => exact .inl (.inl (again_finishFrame app c.collect))
  · left
    unfold processFrame
    dsimp only
    cases hop : c.framing.symOpcode with
    | text => exact absurd (.inl hop) hdata
    | binary => exact absurd (.inr (.inl hop)) hdata
    | continuation => exact absurd (.inr (.inr hop)) hdata
    | ping => exact .inl rfl
    | pong => exact .inl rfl
    | close => exact proceeds_processClose _

/-- A turn that has its bytes and stops closes the connection, or stalls. -/
theorem stalled_of_stop (hn : c.framing.need ≤ c.buffer.length)
    (hstop : (c.turn cfg app).again = false) (halive : (c.turn cfg app).conn.state = .websocket) :
    Stalled cfg (c.turn cfg app).conn := by
  have hnot : ¬ Proceeds (c.turn cfg app) := by
    rintro (hagain | hignore)
    · rw [hstop] at hagain
      cases hagain
    · rw [halive] at hignore
      cases hignore
  by_cases hstate : c.framing.state = .processFrame
  · have hinit := processFrame_state cfg app c
    rw [turn_of_processFrame hstate] at hnot halive ⊢
    exact ⟨halive, hinit, (processFrame_proceeds cfg app c).resolve_left hnot⟩
  · apply absurd _ hnot
    unfold WsFraming.need at hn
    unfold turn
    cases hstate' : c.framing.state with
    | processFrame => exact absurd hstate' hstate
    | checkFrame => exact proceeds_checkFrame cfg c
    | init =>
      rw [hstate'] at hn
      dsimp only
      rw [read_of_le hn]
      exact proceeds_readHeader _ _
    | payloadLength2Bytes =>
      rw [hstate'] at hn
      dsimp only
      rw [read_of_le hn]
      exact proceeds_goOn _ _
    | payloadLength8Bytes =>
      rw [hstate'] at hn
      dsimp only
      rw [read_of_le hn]
      exact proceeds_ite (proceeds_fail _ _ _) (proceeds_goOn _ _)
    | maskingKey =>
      rw [hstate'] at hn
      dsimp only
      rw [read_of_le hn]
      exact proceeds_goOn _ _
    | payloadData =>
      rw [hstate'] at hn
      dsimp only
      rw [read_of_le hn]
      exact proceeds_goOn _ _

/-- While the loop goes on, the message is not too big. -/
theorem length_wsMessage_of_again (hc : c.state = .websocket)
    (hsmall : c.wsMessage.length ≤ cfg.maxWsMessageSize) (hagain : (c.turn cfg app).again = true) :
    (c.turn cfg app).conn.wsMessage.length ≤ cfg.maxWsMessageSize := by
  by_cases hdata : c.framing.state = .processFrame ∧ c.framing.isData
  · rw [turn_of_processFrame hdata.1] at hagain ⊢
    have hp := processed cfg app hdata.2
    generalize c.processFrame cfg app = t at hp hagain
    cases hp with
    | refused reason f => cases hagain
    | tooBig => cases hagain
    | grown => cases hagain
    | accepted _ hsize =>
      have hle : c.collect.wsMessage.length ≤ cfg.maxWsMessageSize := by
        rcases hsize with hnone | hsize
        · -- nothing has been added
          have hcollect : c.collect.wsMessage = c.wsMessage ++ c.framing.payload.getD [] := rfl
          rw [hcollect, hnone]
          show (c.wsMessage ++ []).length ≤ _
          rw [List.append_nil]
          exact hsmall
        · exact hsize
      rcases finishFrame_spec app (c := c.collect) hc with ⟨_, heq⟩ | ⟨_, hmessage, _⟩
      · rw [heq]
        exact hle
      · rw [hmessage]
        exact Nat.zero_le _
  · rw [(quiet_turn cfg app hdata).wsMessage]
    exact hsmall

/-! ## How the loop ends -/

theorem websocket_of_ne_ignore (h : c.state ≠ .ignore) : c.state = .websocket := by
  cases hstate : c.state with
  | websocket => rfl
  | ignore => exact absurd hstate h

theorem exists_drains (cfg : WsConfig) (app : SipApp α) (c : WsConnection α) :
    ∃ o c', (framer cfg app).Drains c o c' := by
  -- every turn leaves less to do
  induction hw : c.weight using Nat.strongRecOn generalizing c with
  | ind n ih =>
    cases hagain : ((framer cfg app).turn c).2.2 with
    | false => exact ⟨_, _, .stop (Prod.ext rfl (Prod.ext rfl hagain))⟩
    | true =>
      obtain ⟨_, _, hmore, _⟩ := framer_more (Prod.ext rfl (Prod.ext rfl hagain))
      have hlt := weight_turn hmore
      obtain ⟨o, c', hdrains⟩ := ih _ (hw ▸ hlt) (c.turn cfg app).conn rfl
      exact ⟨_, _, .more (Prod.ext rfl (Prod.ext rfl hagain)) hdrains⟩

theorem receiveData_of_drains (hc : c.state = .websocket) (h : (framer cfg app).Drains (c.push d) o c') :
    c.receiveData cfg app d = (c', o) := by
  unfold receiveData
  rw [hc]
  exact loop_of_drains h hc (Nat.lt_succ_self _)

/-- The loop is through with its bytes, or stalls. -/
theorem clean_or_stalled (h : (framer cfg app).Drains c o c') (hc : c.state = .websocket) :
    (framer cfg app).Clean c o c' ∨ Stalled cfg c' := by
  induction h with
  | @stop c c' o ht =>
    obtain ⟨hconn, _, hignore⟩ := framer_stop ht
    by_cases hlt : c.buffer.length < c.framing.need
    · rw [framer_turn_of_lt hlt] at ht
      cases ht
      exact .inl (.wait (not_dead hc) (framer_turn_of_lt hlt))
    · by_cases hdead : c'.state = .ignore
      · exact .inl (.ended ht hdead)
      · have halive := websocket_of_ne_ignore hdead
        have hstop : (c.turn cfg app).again = false :=
          eq_false_of_ne_true fun hagain => hdead (hignore hagain)
        rw [← hconn] at halive ⊢
        exact .inr (stalled_of_stop (Nat.le_of_not_lt hlt) hstop halive)
  | more ht _ ih =>
    obtain ⟨_, _, _, hstate⟩ := framer_more ht
    exact (ih hstate).imp_left (Framer.Clean.more ht)

/-- A loop that is through with its bytes has no message that is too big. -/
theorem not_stalled_of_clean (h : (framer cfg app).Clean c o c') (hc : c.state = .websocket)
    (hsmall : c.wsMessage.length ≤ cfg.maxWsMessageSize) : ¬ Stalled cfg c' := by
  intro hstalled
  induction h with
  | wait => exact absurd hstalled.tooBig (Nat.not_lt.mpr hsmall)
  | ended _ hdead => exact not_dead hstalled.alive hdead
  | more ht _ ih =>
    obtain ⟨hconn, _, hagain, hstate⟩ := framer_more ht
    have hsmall₁ := length_wsMessage_of_again hc hsmall hagain
    rw [hconn] at hsmall₁
    exact ih hstate hsmall₁ hstalled

/-- The loop is through with its bytes, or stalls whatever stands behind them. -/
theorem drains_cases (h : (framer cfg app).Drains c o c') (hc : c.state = .websocket)
    (hsmall : c.wsMessage.length ≤ cfg.maxWsMessageSize) :
    (framer cfg app).Clean c o c' ∧ ¬ Stalled cfg c' ∨
      Stalled cfg c' ∧ ∀ d, (framer cfg app).Drains (c.push d) o (c'.push d) := by
  by_cases hstalled : Stalled cfg c'
  · rcases h.clean_or_stalls (resumable cfg app) (not_dead hc) with hclean | ⟨_, hpush⟩
    · exact absurd hstalled (not_stalled_of_clean hclean hc hsmall)
    · exact .inr ⟨hstalled, hpush⟩
  · exact .inl ⟨(clean_or_stalled h hc).resolve_right hstalled, hstalled⟩

/-- The loop closes the connection with bytes behind as without them. -/
theorem drains_push_of_ignore (h : (framer cfg app).Drains c o c') (hc : c.state = .websocket)
    (hdead : c'.state = .ignore) (d : Bytes) :
    ∃ buffer, (framer cfg app).Drains (c.push d) o { c' with buffer } := by
  induction h with
  | @stop c c' o ht =>
    obtain ⟨hconn, hout, _⟩ := framer_stop ht
    by_cases hlt : c.buffer.length < c.framing.need
    · rw [framer_turn_of_lt hlt] at ht
      cases ht
      rw [hc] at hdead
      cases hdead
    · have hpushed : Pushed d (c.turn cfg app) ((c.push d).turn cfg app) :=
        turn_push hc (Nat.le_of_not_lt hlt)
      obtain ⟨hsame, _, hconn'⟩ := hpushed
      rw [hconn] at hconn'
      rcases hconn' with hconn' | ⟨_, hconn'⟩
      · refine ⟨c'.buffer ++ d, .stop ?_⟩
        rw [framer_turn_of_ignore (by rw [hconn']; exact hdead), hconn', hsame, hout]
        rfl
      · refine ⟨c'.buffer, .stop ?_⟩
        rw [framer_turn_of_ignore (by rw [hconn']; exact hdead), hconn', hsame, hout]
  | @more c c₁ c₂ o₁ o₂ ht _ ih =>
    obtain ⟨_, _, _, hstate⟩ := framer_more ht
    obtain ⟨buffer, hdrains⟩ := ih hstate hdead
    exact ⟨buffer, .more ((resumable cfg app).turn_push_of_more (not_dead hc) ht d) hdrains⟩

theorem receiveData_of_ignore (hc : c.state = .ignore) (d : Bytes) :
    c.receiveData cfg app d = (c, []) := by
  unfold receiveData
  rw [hc]

/-- **A chunk in two pieces.** The second piece is looked at where the first one ends, unless the loop
stalls there. -/
theorem receiveData_append (app : SipApp α) (hc : c.state = .websocket)
    (hsmall : c.wsMessage.length ≤ cfg.maxWsMessageSize) (d e : Bytes) :
    let r := c.receiveData cfg app d
    r.1.state = .ignore ∧ (∃ buffer, c.receiveData cfg app (d ++ e) = ({ r.1 with buffer }, r.2)) ∨
      r.1.state = .websocket ∧ ¬ Stalled cfg r.1 ∧
        c.receiveData cfg app (d ++ e) =
          ((r.1.receiveData cfg app e).1, r.2 ++ (r.1.receiveData cfg app e).2) ∨
      Stalled cfg r.1 ∧ c.receiveData cfg app (d ++ e) = (r.1.push e, r.2) := by
  obtain ⟨o, c', hdrains⟩ := exists_drains cfg app (c.push d)
  have hpush : (c.push d).push e = c.push (d ++ e) := (resumable cfg app).push_append c d e
  have halive : (c.push d).state = .websocket := hc
  rw [receiveData_of_drains hc hdrains]
  dsimp only
  rcases drains_cases hdrains halive hsmall with ⟨hclean, hnot⟩ | ⟨hstalled, hstalls⟩
  · by_cases hdead : c'.state = .ignore
    · obtain ⟨buffer, hdrains'⟩ := drains_push_of_ignore hdrains halive hdead e
      rw [hpush] at hdrains'
      exact .inl ⟨hdead, buffer, receiveData_of_drains hc hdrains'⟩
    · have halive' := websocket_of_ne_ignore hdead
      obtain ⟨o₂, c₂, hdrains₂⟩ := exists_drains cfg app (c'.push e)
      have hwhole : (framer cfg app).Drains (c.push (d ++ e)) (o ++ o₂) c₂ := by
        rw [← hpush]
        exact hclean.push_drains (resumable cfg app) (not_dead halive) (not_dead halive') hdrains₂
      rw [receiveData_of_drains halive' hdrains₂, receiveData_of_drains hc hwhole]
      exact .inr (.inl ⟨halive', hnot, rfl⟩)
  · have hdrains' := hstalls e
    rw [hpush] at hdrains'
    exact .inr (.inr ⟨hstalled, receiveData_of_drains hc hdrains'⟩)

/-! ## A stalled connection -/

/-- Less than the header of a frame is stored. -/
theorem Stalled.receiveData_of_lt (h : Stalled cfg c) (hd : c.buffer.length + d.length < 2) :
    c.receiveData cfg app d = (c.push d, []) := by
  apply receiveData_of_drains h.alive
  apply Framer.Drains.stop
  apply framer_turn_of_lt
  show (c.buffer ++ d).length < c.framing.need
  rw [List.length_append, WsFraming.need, h.init]
  exact hd

/-- Nothing is added to the buffer. -/
def Shrinks (c : WsConnection α) (t : WsTurn α) : Prop := t.conn.buffer.length ≤ c.buffer.length

theorem shrinks_fail (c : WsConnection α) (status : Nat) (reason : Option String) :
    Shrinks c (c.fail status reason) :=
  length_close_le c ⟨some status, reason⟩

theorem shrinks_ite {p : Prop} [Decidable p] {t u : WsTurn α} (ht : Shrinks c t) (hu : Shrinks c u) :
    Shrinks c (if p then t else u) := by
  by_cases hp : p
  · rw [if_pos hp]
    exact ht
  · rw [if_neg hp]
    exact hu

theorem shrinks_readHeader (c : WsConnection α) (bytes : Bytes) : Shrinks c (c.readHeader bytes) := by
  unfold readHeader
  dsimp only
  apply shrinks_ite (shrinks_fail c _ _)
  split
  · exact shrinks_fail c _ _
  · apply shrinks_ite (shrinks_fail c _ _)
    exact shrinks_ite (Nat.le_refl _) (shrinks_ite (Nat.le_refl _) (Nat.le_refl _))

theorem shrinks_checkFrame (cfg : WsConfig) (c : WsConnection α) : Shrinks c (c.checkFrame cfg) := by
  unfold checkFrame
  apply shrinks_ite (shrinks_fail c _ _)
  apply shrinks_ite (shrinks_fail c _ _)
  apply shrinks_ite (shrinks_fail c _ _)
  apply shrinks_ite (shrinks_fail c _ _)
  exact shrinks_ite (shrinks_fail c _ _) (Nat.le_refl _)

theorem shrinks_read {n : Nat} {f : WsConnection α → Bytes → WsTurn α}
    (hf : ∀ c bytes, Shrinks c (f c bytes)) : Shrinks c (c.read n f) := by
  by_cases hlt : c.buffer.length < n
  · rw [read_of_lt hlt]
    exact Nat.le_refl _
  · rw [read_of_le (Nat.le_of_not_lt hlt)]
    apply Nat.le_trans (hf _ _)
    exact Nat.le_trans (Nat.le_of_eq List.length_drop) (Nat.sub_le _ _)

theorem shrinks_turn (cfg : WsConfig) (app : SipApp α) (c : WsConnection α) :
    Shrinks c (c.turn cfg app) := by
  unfold turn
  cases c.framing.state with
  | init => exact shrinks_read shrinks_readHeader
  | payloadLength2Bytes => exact shrinks_read fun _ _ => Nat.le_refl _
  | payloadLength8Bytes =>
    exact shrinks_read fun c _ => shrinks_ite (shrinks_fail c _ _) (Nat.le_refl _)
  | maskingKey => exact shrinks_read fun _ _ => Nat.le_refl _
  | checkFrame => exact shrinks_checkFrame cfg c
  | payloadData => exact shrinks_read fun _ _ => Nat.le_refl _
  | processFrame => exact length_processFrame_le cfg app c

theorem length_le_of_drains (h : (framer cfg app).Drains c o c') :
    c'.buffer.length ≤ c.buffer.length := by
  induction h with
  | @stop c c' o ht =>
    obtain ⟨rfl, _⟩ := framer_stop ht
    exact shrinks_turn cfg app c
  | @more c c₁ c₂ o₁ o₂ ht _ ih =>
    obtain ⟨rfl, _⟩ := framer_more ht
    exact Nat.le_trans ih (shrinks_turn cfg app c)

theorem length_receiveData_le (c : WsConnection α) (d : Bytes) :
    (c.receiveData cfg app d).1.buffer.length ≤ c.buffer.length + d.length := by
  by_cases hc : c.state = .ignore
  · rw [receiveData_of_ignore hc]
    exact Nat.le_add_right _ _
  · obtain ⟨o, c', hdrains⟩ := exists_drains cfg app (c.push d)
    rw [receiveData_of_drains (websocket_of_ne_ignore hc) hdrains]
    exact Nat.le_trans (length_le_of_drains hdrains) (Nat.le_of_eq List.length_append)

/-- What was left of the chunk before is looked at. -/
theorem Stalled.length_receiveData_le (h : Stalled cfg c) (hd : 2 ≤ c.buffer.length + d.length) :
    (c.receiveData cfg app d).1.buffer.length + 2 ≤ c.buffer.length + d.length := by
  obtain ⟨o, c', hdrains⟩ := exists_drains cfg app (c.push d)
  rw [receiveData_of_drains h.alive hdrains]
  have hlength : (c.push d).buffer.length = c.buffer.length + d.length := List.length_append
  have hinit : (c.push d).framing.state = .init := h.init
  have hturn : ((c.push d).turn cfg app).conn.buffer.length + 2 ≤ c.buffer.length + d.length := by
    unfold turn
    rw [hinit]
    dsimp only
    rw [read_of_le (hlength ▸ hd)]
    have hdrop : ((c.push d).buffer.drop 2).length = (c.push d).buffer.length - 2 := List.length_drop
    have hshrinks : ∀ bytes, (readHeader { c.push d with buffer := (c.push d).buffer.drop 2 }
        bytes).conn.buffer.length ≤ ((c.push d).buffer.drop 2).length := shrinks_readHeader _
    have hle := hshrinks ((c.push d).buffer.take 2)
    dsimp only at hle ⊢
    omega
  cases hdrains with
  | stop ht =>
    obtain ⟨rfl, _⟩ := framer_stop ht
    exact hturn
  | more ht hrest =>
    obtain ⟨rfl, _⟩ := framer_more ht
    have hle := length_le_of_drains hrest
    exact Nat.le_trans (Nat.add_le_add_right hle 2) hturn

end WsConnection

end OverSip
