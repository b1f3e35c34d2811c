import OverSip.WebSocket.WsMessages

/-!
# The WebSocket loop as a framer

A turn of the loop waits for the bytes it reads, or does not look at the bytes behind them, so that the
rules of `Framer.Resumable` apply. `receiveAll_of_clean` is the rule for a stream that the loop reads to its
end: whatever the chunks are, it puts out the same.
-/

namespace OverSip

namespace WsConnection

variable {α : Type} {cfg : WsConfig} {app : SipApp α} {c c' : WsConnection α} {d bytes : Bytes}

/-- A WebSocket connection as a framer of its stream. When the application has closed the connection, the
loop has come to its end. -/
def framer (cfg : WsConfig) (app : SipApp α) : Framer (WsConnection α) UInt8 WsOut where
  push := push
  turn c := ((c.turn cfg app).conn, (c.turn cfg app).out,
    (c.turn cfg app).again && decide ((c.turn cfg app).conn.state = .websocket))
  dead c := c.state = .ignore
  visible := fun _ => true
  error := fun _ => false

theorem state_of_alive (h : ¬ (framer cfg app).dead c) : c.state = .websocket := by
  cases hstate : c.state with
  | websocket => rfl
  | ignore => exact absurd hstate h

theorem not_dead (h : c.state = .websocket) : ¬ (framer cfg app).dead c := by
  intro hdead
  rw [show c.state = .ignore from hdead] at h
  cases h

theorem framer_turn_of_lt (h : c.buffer.length < c.framing.need) :
    (framer cfg app).turn c = (c, [], false) := by
  show ((c.turn cfg app).conn, (c.turn cfg app).out, _) = _
  rw [turn_of_lt h]
  rfl

theorem framer_turn_of_again (hagain : (c.turn cfg app).again = true)
    (hstate : (c.turn cfg app).conn.state = .websocket) :
    (framer cfg app).turn c = ((c.turn cfg app).conn, (c.turn cfg app).out, true) := by
  show (_, _, _ && _) = _
  rw [hagain, hstate]
  rfl

theorem framer_turn_of_ignore (hstate : (c.turn cfg app).conn.state = .ignore) :
    (framer cfg app).turn c = ((c.turn cfg app).conn, (c.turn cfg app).out, false) := by
  show (_, _, _ && _) = _
  rw [hstate]
  simp

theorem resumable (cfg : WsConfig) (app : SipApp α) : (framer cfg app).Resumable where
  push_nil c := by
    show { c with buffer := c.buffer ++ [] } = c
    rw [List.append_nil]
  push_append c d e := by
    show { c with buffer := c.buffer ++ d ++ e } = { c with buffer := c.buffer ++ (d ++ e) }
    rw [List.append_assoc]
  push_inj c c' d h := by
    obtain ⟨state, buffer, framing, wsMessage, a⟩ := c
    obtain ⟨state', buffer', framing', wsMessage', a'⟩ := c'
    obtain ⟨hstate, hbuffer, hframing, hmessage, happ⟩ := WsConnection.mk.inj h
    have hbuffer' : buffer = buffer' := List.append_cancel_right hbuffer
    rw [WsConnection.mk.injEq]
    exact ⟨hstate, hbuffer', hframing, hmessage, happ⟩
  dead_push c d := Iff.rfl
  alive_turn c _ hagain := by
    have hboth : ((c.turn cfg app).again && decide ((c.turn cfg app).conn.state = .websocket)) = true :=
      hagain
    rw [Bool.and_eq_true, decide_eq_true_eq] at hboth
    exact not_dead hboth.2
  turn_push c d halive := by
    have hstate := state_of_alive halive
    by_cases hlt : c.buffer.length < c.framing.need
    · exact .inl (framer_turn_of_lt hlt)
    · right
      have hpushed : Pushed d (c.turn cfg app) ((c.push d).turn cfg app) :=
        turn_push hstate (Nat.le_of_not_lt hlt)
      obtain ⟨hout, hagain, hconn⟩ := hpushed
      have hsame : ((c.push d).turn cfg app).conn.state = (c.turn cfg app).conn.state := by
        rcases hconn with hconn | ⟨_, hconn⟩ <;> rw [hconn]
        rfl
      refine ⟨?_, ?_⟩
      · show (((c.push d).turn cfg app).out, ((c.push d).turn cfg app).again &&
          decide (((c.push d).turn cfg app).conn.state = .websocket)) = (_, _ && _)
        rw [hout, hagain, hsame]
      · rcases hconn with hconn | ⟨hignore, hconn⟩
        · exact .inl hconn
        · refine .inr ⟨hignore, ?_⟩
          rw [framer_turn_of_ignore hignore]

/-! ## The loop comes to its end -/

theorem length_close_le (c : WsConnection α) (args : WsClose) :
    (c.close args).1.buffer.length ≤ c.buffer.length := by
  unfold close
  cases c.state with
  | websocket => exact Nat.zero_le _
  | ignore => exact Nat.le_refl _

theorem length_finishFrame_le (app : SipApp α) (c : WsConnection α) :
    (c.finishFrame app).conn.buffer.length ≤ c.buffer.length := by
  cases hfin : c.framing.fin with
  | false =>
    exact Nat.le_of_eq (by rw [finishFrame_of_not_fin hfin])
  | true =>
    rw [finishFrame_of_fin hfin]
    unfold messageDone
    dsimp only
    cases (app.processSipMessage c.app c.wsMessage).2 with
    | none => exact Nat.le_refl _
    | some args =>
      exact length_close_le { c with app := (app.processSipMessage c.app c.wsMessage).1 } args

/-- The payload of a frame has been read before it is processed. -/
theorem length_processFrame_le (cfg : WsConfig) (app : SipApp α) (c : WsConnection α) :
    (c.processFrame cfg app).conn.buffer.length ≤ c.buffer.length := by
  by_cases hdata : c.framing.isData
  · have hp := processed cfg app hdata
    generalize c.processFrame cfg app = t at hp
    cases hp with
    | refused reason f => exact length_close_le { c with framing := f } _
    | tooBig => exact length_close_le c.collect _
    | grown => exact Nat.le_refl _
    | accepted => exact length_finishFrame_le app c.collect
  · unfold processFrame
    dsimp only
    cases hop : c.framing.symOpcode with
    | text => exact absurd (.inl hop) hdata
    | binary => exact absurd (.inr (.inl hop)) hdata
    | continuation => exact absurd (.inr (.inr hop)) hdata
    | ping | pong => exact Nat.le_refl _
    | close =>
      unfold processClose validateUtf8
      dsimp only
      split_ifs
      · exact length_close_le _ _
      · exact length_close_le _ _
      · exact length_close_le _ _

/-- What is left to do in a state of the framing. -/
theorem weight_of_state (c : WsConnection α) : c.weight = 3 * c.buffer.length +
    match c.framing.state with
    | .init => 0
    | .payloadLength2Bytes | .payloadLength8Bytes => 5
    | .maskingKey => 4
    | .checkFrame => 3
    | .payloadData => 2
    | .processFrame => 1 := rfl

theorem weight_readHeader (hagain : (c.readHeader bytes).again = true) :
    (c.readHeader bytes).conn.weight ≤ 3 * c.buffer.length + 5 := by
  unfold readHeader at hagain ⊢
  dsimp only at hagain ⊢
  split at hagain
  · cases hagain
  · rename_i hrsv
    rw [if_neg hrsv]
    split at hagain
    · cases hagain
    · split_ifs at hagain ⊢
      · cases hagain
      · exact Nat.le_refl _
      · exact Nat.le_refl _
      · exact Nat.le_succ _

theorem weight_checkFrame (hagain : (c.checkFrame cfg).again = true) :
    (c.checkFrame cfg).conn.weight = 3 * c.buffer.length + 2 := by
  unfold checkFrame at hagain ⊢
  split_ifs at hagain ⊢
  all_goals first | rfl | cases hagain

/-- Every turn after which the loop goes on leaves less to do. -/
theorem weight_turn (hagain : (c.turn cfg app).again = true) :
    (c.turn cfg app).conn.weight < c.weight := by
  by_cases hlt : c.buffer.length < c.framing.need
  · rw [turn_of_lt hlt] at hagain
    cases hagain
  · have hle := Nat.le_of_not_lt hlt
    unfold WsFraming.need at hle
    rw [weight_of_state c]
    unfold turn at hagain ⊢
    cases hstate : c.framing.state with
    | init =>
      rw [hstate] at hle hagain
      dsimp only at hle hagain ⊢
      rw [read_of_le hle] at hagain ⊢
      have hheader := weight_readHeader hagain
      have hdrop : ({ c with buffer := c.buffer.drop 2 } : WsConnection α).buffer.length =
          c.buffer.length - 2 := List.length_drop
      omega
    | payloadLength2Bytes =>
      rw [hstate] at hle
      dsimp only at hle ⊢
      rw [read_of_le hle]
      show 3 * (c.buffer.drop 2).length + 4 < _
      rw [List.length_drop]
      omega
    | payloadLength8Bytes =>
      rw [hstate] at hle hagain
      dsimp only at hle hagain ⊢
      rw [read_of_le hle] at hagain ⊢
      unfold readPayloadLength8Bytes at hagain ⊢
      split_ifs at hagain ⊢
      · cases hagain
      · show 3 * (c.buffer.drop 8).length + 4 < _
        rw [List.length_drop]
        omega
    | maskingKey =>
      rw [hstate] at hle
      dsimp only at hle ⊢
      rw [read_of_le hle]
      show 3 * (c.buffer.drop 4).length + 3 < _
      rw [List.length_drop]
      omega
    | checkFrame =>
      rw [hstate] at hagain
      dsimp only at hagain ⊢
      rw [weight_checkFrame hagain]
      exact Nat.lt_succ_self _
    | payloadData =>
      rw [hstate] at hle
      dsimp only at hle ⊢
      rw [read_of_le hle]
      show 3 * (c.buffer.drop c.framing.payloadLength).length + 1 < _
      rw [List.length_drop]
      omega
    | processFrame =>
      dsimp only
      have hlength := length_processFrame_le cfg app c
      rw [weight_of_state, processFrame_state cfg app c]
      dsimp only
      omega

theorem loop_of_again {fuel : Nat} (h : (c.turn cfg app).again = true) :
    loop cfg app (fuel + 1) c = ((loop cfg app fuel (c.turn cfg app).conn).1,
      (c.turn cfg app).out ++ (loop cfg app fuel (c.turn cfg app).conn).2) := by
  rw [loop]
  simp only [h, if_true]

theorem loop_of_stop {fuel : Nat} (h : (c.turn cfg app).again = false) :
    loop cfg app (fuel + 1) c = ((c.turn cfg app).conn, (c.turn cfg app).out) := by
  rw [loop]
  simp [h]

theorem framer_stop {o : List WsOut} (h : (framer cfg app).turn c = (c', o, false)) :
    (c.turn cfg app).conn = c' ∧ (c.turn cfg app).out = o ∧
      ((c.turn cfg app).again = true → c'.state = .ignore) := by
  have hboth : ((c.turn cfg app).conn, (c.turn cfg app).out,
      (c.turn cfg app).again && decide ((c.turn cfg app).conn.state = .websocket)) = (c', o, false) := h
  rw [Prod.mk.injEq, Prod.mk.injEq] at hboth
  obtain ⟨rfl, rfl, hagain⟩ := hboth
  refine ⟨rfl, rfl, fun hgoes => ?_⟩
  rw [hgoes, Bool.true_and, decide_eq_false_iff_not] at hagain
  cases hstate : (c.turn cfg app).conn.state with
  | websocket => exact absurd hstate hagain
  | ignore => rfl

theorem framer_more {o : List WsOut} (h : (framer cfg app).turn c = (c', o, true)) :
    (c.turn cfg app).conn = c' ∧ (c.turn cfg app).out = o ∧ (c.turn cfg app).again = true ∧
      c'.state = .websocket := by
  have hboth : ((c.turn cfg app).conn, (c.turn cfg app).out,
      (c.turn cfg app).again && decide ((c.turn cfg app).conn.state = .websocket)) = (c', o, true) := h
  rw [Prod.mk.injEq, Prod.mk.injEq, Bool.and_eq_true, decide_eq_true_eq] at hboth
  obtain ⟨rfl, rfl, hagain, hstate⟩ := hboth
  exact ⟨rfl, rfl, hagain, hstate⟩

/-- The loop does what the framer does. -/
theorem loop_of_drains {o : List WsOut} (h : (framer cfg app).Drains c o c')
    (hc : c.state = .websocket) {fuel : Nat} (hfuel : c.weight < fuel) :
    loop cfg app fuel c = (c', o) := by
  induction h generalizing fuel with
  | @stop c c' o ht =>
    obtain ⟨fuel, rfl⟩ := Nat.exists_eq_succ_of_ne_zero (Nat.ne_zero_of_lt hfuel)
    obtain ⟨hconn, hout, hignore⟩ := framer_stop ht
    cases hagain : (c.turn cfg app).again with
    | false => rw [loop_of_stop hagain, hconn, hout]
    | true =>
      -- the application has closed the connection, and the loop finds the buffer empty
      have hlt := weight_turn hagain
      obtain ⟨fuel, rfl⟩ := Nat.exists_eq_succ_of_ne_zero (show fuel ≠ 0 by omega)
      obtain ⟨hempty, hinit⟩ := turn_closed hc (by rw [hconn]; exact hignore hagain) hagain
      rw [hconn] at hempty hinit
      have hstop : c'.turn cfg app = { conn := c', out := [], again := false } := by
        apply turn_of_lt
        rw [hempty, WsFraming.need, hinit]
        exact Nat.zero_lt_two
      rw [loop_of_again hagain, hconn, hout, loop_of_stop (by rw [hstop]), hstop, List.append_nil]
  | @more c c₁ c₂ o₁ o₂ ht _ ih =>
    obtain ⟨rfl, rfl, hagain, hstate⟩ := framer_more ht
    obtain ⟨fuel, rfl⟩ := Nat.exists_eq_succ_of_ne_zero (Nat.ne_zero_of_lt hfuel)
    have hlt := weight_turn hagain
    rw [loop_of_again hagain, ih hstate (by omega)]

theorem receiveAll_of_feeds {ds : List Bytes} {o : List WsOut} (h : (framer cfg app).Feeds c ds o c') :
    c.receiveAll cfg app ds = (c', o) := by
  induction h with
  | nil => rfl
  | @ignored c c₂ d ds o hdead _ ih =>
    rw [receiveAll, receiveData, show c.state = .ignore from hdead]
    dsimp only
    rw [ih, List.nil_append]
  | @chunk c c₁ c₂ d ds o₁ o₂ halive hdrains _ ih =>
    have hstate := state_of_alive halive
    have hloop : loop cfg app ((c.push d).weight + 1) (c.push d) = (c₁, o₁) :=
      loop_of_drains hdrains hstate (Nat.lt_succ_self _)
    rw [receiveAll, receiveData, hstate]
    dsimp only
    rw [hloop, ih]

/-- **A stream in chunks.** When the loop reads a stream to its end, it puts out the same for every cutting
of the stream. -/
theorem receiveAll_of_clean {ds : List Bytes} {o : List WsOut} (hstate : c.state = .websocket)
    (hwait : c.buffer.length < c.framing.need)
    (h : (framer cfg app).Clean (c.push ds.flatten) o c') : (c.receiveAll cfg app ds).2 = o := by
  obtain ⟨c'', hfeeds⟩ := Framer.Clean.feeds (resumable cfg app) (not_dead hstate)
    (framer_turn_of_lt hwait) h
  rw [receiveAll_of_feeds hfeeds]

end WsConnection

end OverSip
