import OverSip.Sip.TcpConnection

/-!
# What the loop of a TCP connection does

The spec lemmas of `TcpConnection`: what becomes of a message that is checked, what the parser does with
more bytes, and that the loop comes to its end. `turn_spec` says what a turn does for the connection
itself, whatever the processing of a message does elsewhere (`quietTurn`).
-/

namespace OverSip

variable {σ : Type}

/-- What the cutting of the stream must not change: the messages that are processed, with their bodies,
and what the connection itself sends. -/
def TcpOut.isVisible : TcpOut → Bool
  | .process _ | .sendData _ | .reply _ _ => true
  | _ => false

theorem SipParser.execute_of_lt (p : SipParser σ) (o : MessageParser σ) {buffer : Bytes} {start : Nat}
    (h : start < buffer.length) :
    p.execute o buffer (some start) =
      .ok (⟨(p.automaton.read o.cs (buffer.drop start)).1,
          o.nread + (p.automaton.read o.cs (buffer.drop start)).2⟩,
        if p.automaton.failed (p.automaton.read o.cs (buffer.drop start)).1 then none
        else some (o.nread + (p.automaton.read o.cs (buffer.drop start)).2)) := by
  unfold execute
  dsimp only
  rw [if_neg (by omega)]

/-- The result with more bytes behind. -/
def TcpResult.push (r : TcpResult σ) (d : Bytes) : TcpResult σ := { r with conn := r.conn.push d }

namespace TcpConnection

variable {code : TcpCode σ} {c : TcpConnection σ} {d : Bytes} {m : SipMessage} {n : Nat}

/-- The parser is resumed at the end of what it has read. -/
def Wf (c : TcpConnection σ) : Prop := c.state = .headers → c.parserNbytes = some c.parser.nread

/-! ## The checks of a message -/

/-- What becomes of a message: an exception, the end of the connection, or another state. -/
inductive Outcome (c : TcpConnection σ) : TcpResult σ → Prop
  | raised (e : RubyError) : Outcome c (c.raised e)
  | giveUp (o : List TcpOut) : Outcome c (c.giveUp o)
  | goOn (s : TcpState) (o : List TcpOut) : s ≠ .headers → Outcome c (c.goOn s o)

theorem outcome_checkMessage (code : TcpCode σ) (c : TcpConnection σ) (m : SipMessage) :
    Outcome c (c.checkMessage code m) := by
  unfold checkMessage
  by_cases hv : m.valid = false
  · rw [if_pos hv]
    exact .giveUp _
  · rw [if_neg hv]
    dsimp only
    split
    · exact .raised _
    · rename_i m' _
      by_cases hb : m'.via.branchRfc3261 = false
      · rw [if_pos hb]
        exact .giveUp _
      · rw [if_neg hb]
        unfold checkContentLength
        split
        · split
          · exact .goOn _ _ (by simp)
          · exact .goOn _ _ (by simp)
        · exact .giveUp _

/-- The checks do not look at the buffer. -/
theorem checkMessage_push (code : TcpCode σ) (c : TcpConnection σ) (m : SipMessage) (d : Bytes) :
    (c.push d).checkMessage code m = (c.checkMessage code m).push d := by
  unfold checkMessage
  by_cases hv : m.valid = false
  · rw [if_pos hv, if_pos hv]
    rfl
  · rw [if_neg hv, if_neg hv]
    dsimp only [push]
    split
    · rfl
    · rename_i m' _
      by_cases hb : m'.via.branchRfc3261 = false
      · rw [if_pos hb, if_pos hb]
        rfl
      · rw [if_neg hb, if_neg hb]
        unfold checkContentLength
        split
        · split <;> rfl
        · rfl

/-! ## The parser -/

/-- The connection after the parser has read on from byte `n`. -/
def readOn (code : TcpCode σ) (c : TcpConnection σ) (n : Nat) : TcpConnection σ :=
  let r := code.parser.automaton.read c.parser.cs (c.buffer.drop n)
  { c with
    parser := ⟨r.1, c.parser.nread + r.2⟩
    parserNbytes :=
      if code.parser.automaton.failed r.1 then none else some (c.parser.nread + r.2) }

theorem parseHeaders_of_nil (h : c.buffer = []) : c.parseHeaders code = c.stop := by
  unfold parseHeaders
  rw [if_pos h]

/-- The start is behind the data. -/
theorem parseHeaders_of_le (h : c.buffer ≠ []) (hn : c.parserNbytes = some n)
    (hle : c.buffer.length ≤ n) : c.parseHeaders code = c.raised .messageParserError := by
  unfold parseHeaders SipParser.execute
  rw [if_neg h, hn]
  dsimp only
  rw [if_pos hle]

theorem parseHeaders_of_lt (hn : c.parserNbytes = some n) (hlt : n < c.buffer.length) :
    c.parseHeaders code =
      if code.parser.automaton.failed (c.readOn code n).parser.cs then (c.readOn code n).giveUp []
      else (c.readOn code n).checkParser code (c.readOn code n).parser.nread := by
  have hne : c.buffer ≠ [] := by
    intro h
    rw [h] at hlt
    simp at hlt
  unfold parseHeaders
  rw [if_neg hne, hn, SipParser.execute_of_lt _ _ hlt]
  unfold readOn
  dsimp only
  cases hf : code.parser.automaton.failed
      (code.parser.automaton.read c.parser.cs (c.buffer.drop n)).1 with
  | true => simp
  | false => simp

theorem length_push (c : TcpConnection σ) (d : Bytes) :
    (c.push d).buffer.length = c.buffer.length + d.length := List.length_append

theorem nread_readOn_le (hn : c.parser.nread ≤ c.buffer.length) :
    (c.readOn code c.parser.nread).parser.nread ≤ c.buffer.length := by
  have h : (code.parser.automaton.read c.parser.cs (c.buffer.drop c.parser.nread)).2 ≤
      (c.buffer.drop c.parser.nread).length := Automaton.read_le_length
  rw [List.length_drop] at h
  unfold readOn
  dsimp only
  omega

/-- The bytes behind are not read. -/
theorem readOn_push_of_stopped (hlt : n < c.buffer.length)
    (hs : code.parser.automaton.Stopped (c.readOn code n).parser.cs) :
    (c.push d).readOn code n = (c.readOn code n).push d := by
  have hne : c.buffer.drop n ≠ [] := by
    rw [ne_eq, List.drop_eq_nil_iff]
    omega
  unfold readOn push at *
  dsimp only at *
  rw [List.drop_append_of_le_length (Nat.le_of_lt hlt), Automaton.read_append_of_stopped hne hs]

/-- With the bytes behind, the parser goes on where it stops without them. -/
theorem readOn_push_of_running (hlt : n < c.buffer.length)
    (hs : ¬ code.parser.automaton.Stopped (c.readOn code n).parser.cs) :
    (c.push d).readOn code n = ((c.readOn code n).push d).readOn code c.buffer.length := by
  have hall := Automaton.read_of_running hs
  unfold readOn push at *
  dsimp only at *
  rw [List.drop_append_of_le_length (Nat.le_of_lt hlt), Automaton.read_append_of_running hs,
    List.drop_left, hall]
  dsimp only
  rw [Nat.add_assoc]

theorem nread_readOn_of_running (hn : c.parser.nread ≤ c.buffer.length)
    (hs : ¬ code.parser.automaton.Stopped (c.readOn code c.parser.nread).parser.cs) :
    (c.readOn code c.parser.nread).parser.nread = c.buffer.length := by
  have hall := Automaton.read_of_running hs
  rw [List.length_drop] at hall
  unfold readOn
  dsimp only
  omega

theorem parserNbytes_readOn (h : code.parser.automaton.failed (c.readOn code n).parser.cs = false) :
    (c.readOn code n).parserNbytes = some (c.readOn code n).parser.nread := by
  unfold readOn at *
  dsimp only at *
  rw [h]
  rfl

/-- A finished header section is taken off the buffer, whatever stands behind it. -/
theorem checkParser_push (hf : code.parser.finished c.parser = true) (hn : n ≤ c.buffer.length) :
    (c.push d).checkParser code n = (c.checkParser code n).push d := by
  have hfin : ¬ code.parser.finished c.parser = false := by simp [hf]
  have hfin' : ¬ code.parser.finished (c.push d).parser = false := hfin
  unfold checkParser
  by_cases hmax : HEADERS_MAX_SIZE < n
  · rw [if_pos hmax, if_pos hmax]
    rfl
  · rw [if_neg hmax, if_neg hmax, if_neg hfin, if_neg hfin']
    have hdrop : { c.push d with buffer := (c.push d).buffer.drop n } =
        push { c with buffer := c.buffer.drop n } d := by
      unfold push
      dsimp only
      rw [List.drop_append_of_le_length hn]
    rw [hdrop, show (c.push d).parser = c.parser from rfl]
    dsimp only
    split
    · exact checkMessage_push code _ _ d
    · rfl
    · rfl

theorem outcome_checkParser (hf : code.parser.finished c.parser = true) :
    (c.checkParser code n).again = false ∧ (c.checkParser code n).conn.state = .ignore ∨
      Outcome { c with buffer := c.buffer.drop n } (c.checkParser code n) := by
  unfold checkParser
  by_cases hmax : HEADERS_MAX_SIZE < n
  · rw [if_pos hmax]
    exact .inl ⟨rfl, rfl⟩
  · rw [if_neg hmax, if_neg (by simp [hf])]
    dsimp only
    split
    · exact .inr (outcome_checkMessage code _ _)
    · exact .inr (.goOn _ _ (by simp))
    · exact .inr (.raised _)

/-! ## The body -/

theorem getBody_of_lt (h : c.buffer.length < n) : c.getBody m n = c.stop := by
  unfold getBody
  rw [if_pos h]

theorem getBody_of_le (h : n ≤ c.buffer.length) :
    c.getBody m n =
      { c with buffer := c.buffer.drop n }.goOn
        (.finished { m with body := some (c.buffer.take n) }) [] := by
  unfold getBody
  rw [if_neg (by omega)]

/-! ## Turns -/

/-- A turn of the loop, with the processing of the message left to others. -/
def quietTurn (code : TcpCode σ) (c : TcpConnection σ) : TcpResult σ :=
  match c.state with
  | .init => { c with parser := code.parser.reset, parserNbytes := some 0 }.goOn .headers []
  | .headers => c.parseHeaders code
  | .body m bodyLength => c.getBody m bodyLength
  | .finished m => c.goOn .init [.process m]
  | .ignore | .waitingForOnClientTlsHandshake => c.stop

theorem wf_readOn (h : code.parser.automaton.failed (c.readOn code n).parser.cs = false) :
    (c.readOn code n).Wf := fun _ => parserNbytes_readOn h

theorem wf_of_state (h : c.state ≠ .headers) : c.Wf := fun hc => absurd hc h

theorem Outcome.wf {r : TcpResult σ} (h : Outcome c r) (hc : c.Wf) : r.conn.Wf := by
  cases h with
  | raised e => exact hc
  | giveUp o => exact wf_of_state (by simp [TcpConnection.giveUp])
  | goOn s o hs => exact wf_of_state hs

theorem wf_checkParser (hc : c.Wf) : (c.checkParser code n).conn.Wf := by
  by_cases hf : code.parser.finished c.parser = true
  · rcases outcome_checkParser (n := n) hf with ⟨_, hstate⟩ | hout
    · exact wf_of_state (by rw [hstate]; simp)
    · exact hout.wf hc
  · rw [Bool.not_eq_true] at hf
    unfold checkParser
    rw [if_pos hf]
    split
    · exact wf_of_state (by simp)
    · exact hc

theorem wf_quietTurn (hc : c.Wf) : (c.quietTurn code).conn.Wf := by
  unfold quietTurn
  cases hstate : c.state with
  | init => exact fun _ => rfl
  | headers =>
    by_cases hnil : c.buffer = []
    · rw [parseHeaders_of_nil hnil]
      exact hc
    · by_cases hlt : c.parser.nread < c.buffer.length
      · rw [parseHeaders_of_lt (hc hstate) hlt]
        by_cases hfail : code.parser.automaton.failed (c.readOn code c.parser.nread).parser.cs = true
        · rw [if_pos hfail]
          exact wf_of_state (by simp [giveUp])
        · rw [if_neg hfail]
          exact wf_checkParser (wf_readOn (by simpa using hfail))
      · rw [parseHeaders_of_le hnil (hc hstate) (by omega)]
        exact hc
  | body m n =>
    dsimp only
    by_cases hlt : c.buffer.length < n
    · rw [getBody_of_lt hlt]
      exact hc
    · rw [getBody_of_le (by omega)]
      exact wf_of_state (by simp [goOn])
  | finished m => exact wf_of_state (by simp [goOn])
  | ignore => exact hc
  | waitingForOnClientTlsHandshake => exact hc

theorem turn_of_not_finished (w : World) (h : ∀ m, c.state ≠ .finished m) :
    c.turn code w = { c.quietTurn code with world := w } := by
  unfold turn quietTurn
  cases hstate : c.state with
  | finished m => exact absurd hstate (h m)
  | _ => rfl

/-- The processing of a message raises, or leaves the connection as the quiet turn does. -/
theorem turn_of_finished (code : TcpCode σ) (c : TcpConnection σ) (w : World) (hstate : c.state = .finished m) :
    ((c.turn code w).again = false ∧ ∃ x ∈ (c.turn code w).out, x.isRaise = true) ∨
      ((c.turn code w).conn = (c.quietTurn code).conn ∧ (c.turn code w).again = true ∧
        (c.quietTurn code).again = true ∧ (c.quietTurn code).out = [.process m] ∧
        ∃ o : List DispatchOut, (c.turn code w).out = .process m :: o.map .dispatch) := by
  have hquiet : c.quietTurn code = c.goOn .init [.process m] := by
    unfold quietTurn
    rw [hstate]
  unfold turn
  rw [hstate, hquiet]
  dsimp only
  unfold finish
  dsimp only
  generalize w.process m c.id c.transport = r
  by_cases hr : r.2.any DispatchOut.isRaise = true
  · rw [if_pos hr]
    obtain ⟨x, hx, hraise⟩ := List.any_eq_true.mp hr
    exact .inl ⟨rfl, .dispatch x, List.mem_cons_of_mem _ (List.mem_map_of_mem hx), hraise⟩
  · rw [if_neg hr]
    exact .inr ⟨rfl, rfl, rfl, rfl, r.2, rfl⟩

/-- A turn that raises nothing does for the connection what the quiet turn does. -/
theorem turn_spec (w : World) (ho : ∀ x ∈ (c.turn code w).out, x.isRaise = false) :
    (c.turn code w).conn = (c.quietTurn code).conn ∧
      (c.turn code w).again = (c.quietTurn code).again ∧
      (c.quietTurn code).out.filter TcpOut.isVisible = (c.turn code w).out.filter TcpOut.isVisible ∧
      ∀ x ∈ (c.quietTurn code).out, x.isRaise = false := by
  by_cases hfin : ∃ m, c.state = .finished m
  · obtain ⟨m, hstate⟩ := hfin
    rcases c.turn_of_finished code w hstate with
      ⟨_, x, hx, hraise⟩ | ⟨hconn, hagain, hagain', hquiet, o, hout⟩
    · rw [ho x hx] at hraise
      cases hraise
    · have hnil : (o.map TcpOut.dispatch).filter TcpOut.isVisible = [] := by
        rw [List.filter_eq_nil_iff]
        intro x hx
        obtain ⟨o, _, rfl⟩ := List.mem_map.mp hx
        simp [TcpOut.isVisible]
      refine ⟨hconn, hagain.trans hagain'.symm, ?_, fun x hx => ?_⟩
      · rw [hquiet, hout]
        show [TcpOut.process m] =
          TcpOut.process m :: (o.map TcpOut.dispatch).filter TcpOut.isVisible
        rw [hnil]
      · rw [hquiet] at hx
        obtain rfl := List.mem_singleton.mp hx
        rfl
  · have hstate : ∀ m, c.state ≠ .finished m := fun m hm => hfin ⟨m, hm⟩
    rw [turn_of_not_finished w hstate] at ho ⊢
    exact ⟨rfl, rfl, rfl, ho⟩

theorem turn_of_again (w : World) (hagain : (c.turn code w).again = true) :
    (c.turn code w).conn = (c.quietTurn code).conn ∧ (c.quietTurn code).again = true := by
  by_cases hfin : ∃ m, c.state = .finished m
  · obtain ⟨m, hstate⟩ := hfin
    rcases c.turn_of_finished code w hstate with ⟨hstop, _⟩ | ⟨hconn, _, hagain', _⟩
    · rw [hstop] at hagain
      cases hagain
    · exact ⟨hconn, hagain'⟩
  · have hstate : ∀ m, c.state ≠ .finished m := fun m hm => hfin ⟨m, hm⟩
    rw [turn_of_not_finished w hstate] at hagain ⊢
    exact ⟨rfl, hagain⟩

/-! ## The loop -/

theorem weight_le (c : TcpConnection σ) : c.weight ≤ 4 * c.buffer.length + 3 := by
  unfold weight
  split <;> omega

theorem Outcome.weight_le {r : TcpResult σ} (h : Outcome c r) :
    r.conn.weight ≤ 4 * c.buffer.length + 3 := by
  cases h <;> exact TcpConnection.weight_le _

/-- A header section has at least one byte. -/
theorem weight_checkParser (hagain : (c.checkParser code n).again = true)
    (hn : code.parser.finished c.parser = true → 0 < n)
    (hne : c.buffer ≠ []) : (c.checkParser code n).conn.weight < 4 * c.buffer.length := by
  have hlen := List.length_pos_iff.mpr hne
  by_cases hf : code.parser.finished c.parser = true
  · rcases outcome_checkParser (n := n) hf with ⟨hstop, _⟩ | hout
    · rw [hstop] at hagain
      cases hagain
    · have hpos := hn hf
      have hle := hout.weight_le
      dsimp only at hle
      rw [List.length_drop] at hle
      omega
  · rw [Bool.not_eq_true] at hf
    unfold checkParser at hagain
    rw [if_pos hf] at hagain
    split at hagain <;> cases hagain

theorem weight_parseHeaders (hagain : (c.parseHeaders code).again = true) :
    (c.parseHeaders code).conn.weight < 4 * c.buffer.length := by
  by_cases hnil : c.buffer = []
  · rw [parseHeaders_of_nil hnil] at hagain
    cases hagain
  · cases hn : c.parserNbytes with
    | none =>
      unfold parseHeaders SipParser.execute at hagain
      rw [if_neg hnil, hn] at hagain
      cases hagain
    | some n =>
      by_cases hlt : n < c.buffer.length
      · rw [parseHeaders_of_lt hn hlt] at hagain ⊢
        by_cases hfail : code.parser.automaton.failed (c.readOn code n).parser.cs = true
        · rw [if_pos hfail] at hagain
          cases hagain
        · rw [if_neg hfail] at hagain ⊢
          have hrest : c.buffer.drop n ≠ [] := by
            rw [ne_eq, List.drop_eq_nil_iff]
            omega
          refine weight_checkParser (c := c.readOn code n) hagain (fun hdone => ?_) hnil
          have := Automaton.read_pos_of_done hrest (Bool.eq_false_iff.mpr hfail) hdone
          exact Nat.lt_of_lt_of_le this (Nat.le_add_left _ _)
      · rw [parseHeaders_of_le hnil hn (by omega)] at hagain
        cases hagain

/-- Every turn that goes on brings the loop nearer to its end. -/
theorem weight_quietTurn (hagain : (c.quietTurn code).again = true) :
    (c.quietTurn code).conn.weight < c.weight := by
  unfold quietTurn at *
  cases hstate : c.state with
  | init =>
    unfold weight goOn
    rw [hstate]
    exact Nat.lt_succ_self _
  | headers =>
    rw [hstate] at hagain
    have := weight_parseHeaders hagain
    unfold weight at this ⊢
    rw [hstate]
    exact this
  | body m n =>
    rw [hstate] at hagain
    dsimp only at *
    by_cases hlt : c.buffer.length < n
    · rw [getBody_of_lt hlt] at hagain
      cases hagain
    · rw [getBody_of_le (by omega)]
      unfold weight goOn
      rw [hstate]
      dsimp only
      rw [List.length_drop]
      omega
  | finished m =>
    unfold weight goOn
    rw [hstate]
    exact Nat.lt_succ_self _
  | ignore =>
    rw [hstate] at hagain
    cases hagain
  | waitingForOnClientTlsHandshake =>
    rw [hstate] at hagain
    cases hagain

theorem weight_turn (w : World) (hagain : (c.turn code w).again = true) :
    (c.turn code w).conn.weight < c.weight := by
  obtain ⟨hconn, hagain'⟩ := turn_of_again w hagain
  rw [hconn]
  exact weight_quietTurn hagain'

theorem loop_of_stop {fuel : Nat} {w : World} (h : (c.turn code w).again = false) :
    loop code (fuel + 1) w c = ((c.turn code w).conn, (c.turn code w).world, (c.turn code w).out) := by
  rw [loop]
  simp [h]

theorem loop_of_again {fuel : Nat} {w : World} (h : (c.turn code w).again = true) :
    loop code (fuel + 1) w c =
      ((loop code fuel (c.turn code w).world (c.turn code w).conn).1,
        (loop code fuel (c.turn code w).world (c.turn code w).conn).2.1,
        (c.turn code w).out ++ (loop code fuel (c.turn code w).world (c.turn code w).conn).2.2) := by
  rw [loop]
  simp [h]

/-- The loop has come to its end before its fuel is used up. -/
theorem loop_of_lt {fuel fuel' : Nat} (w : World) (h : c.weight < fuel) (h' : c.weight < fuel') :
    loop code fuel w c = loop code fuel' w c := by
  induction fuel generalizing fuel' w c with
  | zero => exact absurd h (Nat.not_lt_zero _)
  | succ fuel ih =>
    obtain ⟨fuel', rfl⟩ := Nat.exists_eq_succ_of_ne_zero (Nat.ne_zero_of_lt h')
    cases hagain : (c.turn code w).again with
    | false => rw [loop_of_stop hagain, loop_of_stop hagain]
    | true =>
      have hlt := weight_turn w hagain
      have hnext : loop code fuel (c.turn code w).world (c.turn code w).conn =
          loop code fuel' (c.turn code w).world (c.turn code w).conn := ih _ (by omega) (by omega)
      rw [loop_of_again hagain, loop_of_again hagain, hnext]

end TcpConnection

end OverSip
