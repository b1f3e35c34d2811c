import OverSip.Lib.Framing
import OverSip.Sip.TcpConnectionTheorems

/-!
# TCP framing does not depend on segmentation

A `TcpConnection` is a framer: a turn of its loop either uses bytes whatever stands behind them, or waits
for more, or ends the connection. The parser waits in the middle of the headers, where it is resumed; a
header section that is too long ends the connection, be it at the limit or behind it.
-/

namespace OverSip

variable {σ : Type}

namespace TcpConnection

variable {code : TcpCode σ} {c : TcpConnection σ} {d : Bytes} {m : SipMessage} {n : Nat}

/-! ## The connection as a framer -/

/-- A TCP connection as a framer of its stream. -/
def framer (code : TcpCode σ) : Framer (TcpConnection σ) UInt8 TcpOut where
  push := push
  turn c := ((c.quietTurn code).conn, (c.quietTurn code).out, (c.quietTurn code).again)
  dead c := c.state = .ignore
  visible := TcpOut.isVisible
  error := TcpOut.isRaise

/-- What a turn does about the bytes behind it, in terms of its results without and with them: see
`Framer.Lawful`. -/
def Cuttable (code : TcpCode σ) (d : Bytes) (r r' : TcpResult σ) : Prop :=
  (r.again = true ∨ r.conn.state = .ignore) ∧ r' = r.push d ∨
    r.out = [] ∧ r.again = false ∧ r.conn.state ≠ .ignore ∧ r' = (r.conn.push d).quietTurn code ∨
    r.again = false ∧ r.conn.state = .ignore ∧ r'.again = false ∧ r'.conn.state = .ignore ∧
      r'.out.filter TcpOut.isVisible = r.out.filter TcpOut.isVisible

/-- The parser has come to an end in the bytes it has. -/
theorem cuttable_parseHeaders_of_stopped (hn : c.parserNbytes = some c.parser.nread)
    (hlt : c.parser.nread < c.buffer.length)
    (hs : code.parser.automaton.Stopped (c.readOn code c.parser.nread).parser.cs)
    (ho : ∀ x ∈ (c.parseHeaders code).out, x.isRaise = false) :
    Cuttable code d (c.parseHeaders code) ((c.push d).parseHeaders code) := by
  have hlt' : c.parser.nread < (c.push d).buffer.length := by
    rw [length_push]
    omega
  rw [parseHeaders_of_lt hn hlt] at ho ⊢
  rw [parseHeaders_of_lt (c := c.push d) hn hlt', readOn_push_of_stopped hlt hs]
  have hle : (c.readOn code c.parser.nread).parser.nread ≤ c.buffer.length :=
    nread_readOn_le (Nat.le_of_lt hlt)
  generalize hc₁ : c.readOn code c.parser.nread = c₁ at *
  have hlen : c₁.buffer.length = c.buffer.length := by rw [← hc₁]; rfl
  rw [show (c₁.push d).parser = c₁.parser from rfl]
  by_cases hfail : code.parser.automaton.failed c₁.parser.cs = true
  · rw [if_pos hfail, if_pos hfail]
    exact .inl ⟨.inr rfl, rfl⟩
  · rw [if_neg hfail] at ho ⊢
    rw [if_neg hfail]
    have hfin : code.parser.finished c₁.parser = true := hs.resolve_left hfail
    refine .inl ⟨?_, checkParser_push hfin (hlen ▸ hle)⟩
    rcases outcome_checkParser (n := c₁.parser.nread) hfin with ⟨_, hdead⟩ | hout
    · exact .inr hdead
    · generalize c₁.checkParser code c₁.parser.nread = r at hout ho ⊢
      cases hout with
      | raised e => exact absurd (ho _ (List.mem_singleton.mpr rfl)) (by simp [TcpOut.isRaise])
      | giveUp o => exact .inr rfl
      | goOn s o _ => exact .inl rfl

/-- The parser wants more bytes. -/
theorem cuttable_parseHeaders_of_running (hstate : c.state = .headers)
    (hn : c.parserNbytes = some c.parser.nread) (hlt : c.parser.nread < c.buffer.length) (hd : d ≠ [])
    (hs : ¬ code.parser.automaton.Stopped (c.readOn code c.parser.nread).parser.cs) :
    Cuttable code d (c.parseHeaders code) ((c.push d).parseHeaders code) := by
  have hlt' : c.parser.nread < (c.push d).buffer.length := by
    rw [length_push]
    omega
  rw [parseHeaders_of_lt hn hlt, parseHeaders_of_lt (c := c.push d) hn hlt', readOn_push_of_running hlt hs]
  have hnread := nread_readOn_of_running (Nat.le_of_lt hlt) hs
  have hstate₁ : (c.readOn code c.parser.nread).state = .headers := hstate
  have hbuffer₁ : (c.readOn code c.parser.nread).buffer = c.buffer := rfl
  have hnbytes₁ : code.parser.automaton.failed (c.readOn code c.parser.nread).parser.cs = false →
      (c.readOn code c.parser.nread).parserNbytes =
        some (c.readOn code c.parser.nread).parser.nread := parserNbytes_readOn
  generalize c.readOn code c.parser.nread = c₁ at *
  unfold Automaton.Stopped at hs
  push Not at hs
  rw [if_neg hs.1]
  unfold checkParser
  by_cases hmax : HEADERS_MAX_SIZE < c₁.parser.nread
  · rw [if_pos hmax]
    refine .inr (.inr ⟨rfl, rfl, ?_⟩)
    -- the limit is passed with the bytes behind as well, unless the parser fails before
    have hmore : HEADERS_MAX_SIZE < ((c₁.push d).readOn code c.buffer.length).parser.nread :=
      Nat.lt_of_lt_of_le hmax (Nat.le_add_right _ _)
    by_cases hfail : code.parser.automaton.failed
        ((c₁.push d).readOn code c.buffer.length).parser.cs = true
    · rw [if_pos hfail]
      exact ⟨rfl, rfl, rfl⟩
    · rw [if_neg hfail, if_pos hmore]
      exact ⟨rfl, rfl, rfl⟩
  · have hrun : code.parser.finished c₁.parser = false := by
      rw [← Bool.not_eq_true]
      exact hs.2
    rw [if_neg hmax, if_pos hrun]
    have hnbytes : (c₁.push d).parserNbytes = some c.buffer.length := by
      rw [← hnread]
      exact hnbytes₁ (by simpa using hs.1)
    have hlen : c.buffer.length < (c₁.push d).buffer.length := by
      have := List.length_pos_iff.mpr hd
      rw [length_push, hbuffer₁]
      omega
    -- the next turn is in the headers again
    have hturn : (c₁.stop.conn.push d).quietTurn code = (c₁.push d).parseHeaders code := by
      unfold quietTurn
      rw [show (c₁.stop.conn.push d).state = .headers from hstate₁]
      rfl
    refine .inr (.inl ⟨rfl, rfl, ?_, ?_⟩)
    · show c₁.state ≠ .ignore
      rw [hstate₁]
      simp
    · rw [hturn, parseHeaders_of_lt hnbytes hlen]
      rfl

/-- A turn in the headers. -/
theorem cuttable_parseHeaders (hstate : c.state = .headers) (hn : c.parserNbytes = some c.parser.nread)
    (hd : d ≠ []) (ho : ∀ x ∈ (c.parseHeaders code).out, x.isRaise = false) :
    Cuttable code d (c.parseHeaders code) ((c.push d).parseHeaders code) := by
  by_cases hnil : c.buffer = []
  · have hturn : (c.push d).quietTurn code = (c.push d).parseHeaders code := by
      unfold quietTurn
      rw [show (c.push d).state = .headers from hstate]
    rw [parseHeaders_of_nil hnil]
    refine .inr (.inl ⟨rfl, rfl, ?_, hturn.symm⟩)
    show c.state ≠ .ignore
    rw [hstate]
    simp
  · by_cases hlt : c.parser.nread < c.buffer.length
    · by_cases hs : code.parser.automaton.Stopped (c.readOn code c.parser.nread).parser.cs
      · exact cuttable_parseHeaders_of_stopped hn hlt hs ho
      · exact cuttable_parseHeaders_of_running hstate hn hlt hd hs
    · rw [parseHeaders_of_le hnil hn (by omega)] at ho
      exact absurd (ho _ (List.mem_singleton.mpr rfl)) (by simp [TcpOut.isRaise])

theorem cuttable_getBody (hstate : c.state = .body m n) :
    Cuttable code d (c.getBody m n) ((c.push d).getBody m n) := by
  by_cases hlt : c.buffer.length < n
  · rw [getBody_of_lt hlt]
    refine .inr (.inl ⟨rfl, rfl, ?_, ?_⟩)
    · show c.state ≠ .ignore
      rw [hstate]
      simp
    · unfold quietTurn
      rw [show (c.stop.conn.push d).state = .body m n from hstate]
      rfl
  · have hle : n ≤ c.buffer.length := by omega
    have hle' : n ≤ (c.push d).buffer.length := by
      rw [length_push]
      omega
    rw [getBody_of_le hle, getBody_of_le hle']
    refine .inl ⟨.inl rfl, ?_⟩
    unfold push TcpResult.push goOn push
    dsimp only
    rw [List.drop_append_of_le_length hle, List.take_append_of_le_length hle]

theorem cuttable_quietTurn (hc : c.Wf) (hd : d ≠ [])
    (ho : ∀ x ∈ (c.quietTurn code).out, x.isRaise = false) :
    Cuttable code d (c.quietTurn code) ((c.push d).quietTurn code) := by
  unfold quietTurn at *
  rw [show (c.push d).state = c.state from rfl]
  cases hstate : c.state with
  | init => exact .inl ⟨.inl rfl, rfl⟩
  | headers =>
    rw [hstate] at ho
    exact cuttable_parseHeaders hstate (hc hstate) hd ho
  | body m n => exact cuttable_getBody hstate
  | finished m => exact .inl ⟨.inl rfl, rfl⟩
  | ignore => exact .inl ⟨.inr hstate, rfl⟩
  | waitingForOnClientTlsHandshake =>
    refine .inr (.inl ⟨rfl, rfl, ?_, ?_⟩)
    · show c.state ≠ .ignore
      rw [hstate]
      simp
    · unfold quietTurn
      rw [show (c.stop.conn.push d).state = .waitingForOnClientTlsHandshake from hstate]
      rfl

theorem lawful (code : TcpCode σ) : (framer code).Lawful Wf where
  push_append c d e := by
    show { c with buffer := c.buffer ++ d ++ e } = { c with buffer := c.buffer ++ (d ++ e) }
    rw [List.append_assoc]
  inv_push _ _ hc := hc
  inv_turn _ hc := wf_quietTurn hc
  turn_push c d hc hd ho := by
    rcases (cuttable_quietTurn hc hd ho : Cuttable code d (c.quietTurn code) _) with
      ⟨hend, hpush⟩ | ⟨hout, hagain, halive, hturn⟩ | hdies
    · refine .inl ⟨hend, ?_, fun h => h⟩
      unfold framer
      dsimp only
      rw [hpush]
      rfl
    · refine .inr (.inl ⟨Prod.ext hout hagain, halive, ?_⟩)
      unfold framer
      dsimp only
      rw [hturn]
    · exact .inr (.inr hdies)

/-- A loop that raises nothing does for the connection what its framer does. -/
theorem loop_drains (fuel : Nat) (w : World) (c : TcpConnection σ) (hfuel : c.weight < fuel)
    (ho : ∀ x ∈ (loop code fuel w c).2.2, x.isRaise = false) :
    ∃ o, (framer code).Drains c o (loop code fuel w c).1 ∧
      o.filter TcpOut.isVisible = (loop code fuel w c).2.2.filter TcpOut.isVisible ∧
      ∀ x ∈ o, x.isRaise = false := by
  induction fuel generalizing w c with
  | zero => exact absurd hfuel (Nat.not_lt_zero _)
  | succ fuel ih =>
    cases hagain : (c.turn code w).again with
    | false =>
      rw [loop_of_stop hagain] at ho ⊢
      obtain ⟨hconn, hstop, hvis, hno⟩ := turn_spec w ho
      rw [hagain] at hstop
      exact ⟨_, .stop (Prod.ext hconn.symm (Prod.ext rfl hstop.symm)), hvis, hno⟩
    | true =>
      rw [loop_of_again hagain] at ho ⊢
      rw [List.forall_mem_append] at ho
      obtain ⟨hconn, hgo, hvis, hno⟩ := turn_spec w ho.1
      rw [hagain] at hgo
      have hlt := weight_turn w hagain
      obtain ⟨o, hdr, hvis', hno'⟩ :=
        ih (c.turn code w).world (c.turn code w).conn (by omega) ho.2
      refine ⟨(c.quietTurn code).out ++ o, .more (Prod.ext hconn.symm (Prod.ext rfl hgo.symm)) hdr, ?_, ?_⟩
      · rw [List.filter_append, List.filter_append, hvis', hvis]
      · rw [List.forall_mem_append]
        exact ⟨hno, hno'⟩

/-! ## Chunks -/

theorem receiveData_feeds (w : World) (d : Bytes)
    (ho : ∀ x ∈ (c.receiveData code w d).2.2, x.isRaise = false) :
    ∃ o, (framer code).Feeds c [d] o (c.receiveData code w d).1 ∧
      o.filter TcpOut.isVisible = (c.receiveData code w d).2.2.filter TcpOut.isVisible ∧
      ∀ x ∈ o, x.isRaise = false := by
  unfold receiveData at *
  by_cases hignore : c.state = .ignore
  · rw [if_pos hignore]
    exact ⟨[], .ignored hignore .nil, rfl, by simp⟩
  · rw [if_neg hignore] at ho ⊢
    by_cases hwait : c.state = .waitingForOnClientTlsHandshake
    · rw [if_pos hwait]
      have hturn : (c.push d).quietTurn code = (c.push d).stop := by
        unfold quietTurn
        rw [show (c.push d).state = .waitingForOnClientTlsHandshake from hwait]
      have hdr : (framer code).Drains (c.push d) [] (c.push d) := by
        refine .stop ?_
        unfold framer
        dsimp only
        rw [hturn]
        rfl
      exact ⟨[] ++ [], .chunk hignore hdr .nil, rfl, by simp⟩
    · have hprocess : (c.push d).processReceivedData code w =
          loop code ((c.push d).weight + 1) w (c.push d) := by
        unfold processReceivedData
        rw [if_neg (show (c.push d).state ≠ .ignore from hignore)]
      rw [if_neg hwait, hprocess] at ho ⊢
      obtain ⟨o, hdr, hvis, hno⟩ := loop_drains _ w (c.push d) (Nat.lt_succ_self _) ho
      refine ⟨o ++ [], .chunk hignore hdr .nil, ?_, ?_⟩
      · rw [List.append_nil, hvis]
      · rw [List.append_nil]
        exact hno

end TcpConnection

namespace TcpListener

variable {code : TcpCode σ}

/-- The chunks of the stream that arrive in a run. -/
def chunks (tr : List (StepRec (TcpListener σ) TcpEvent TcpOut)) : List Bytes :=
  tr.filterMap (·.ev.data?)

/-- What is put out in a run. -/
def outputs (tr : List (StepRec (TcpListener σ) TcpEvent TcpOut)) : List TcpOut := tr.flatMap (·.out)

theorem step_chunk (l : TcpListener σ) (d : Bytes) :
    step code l (.chunk d) =
      some (⟨(l.conn.receiveData code l.world d).1, (l.conn.receiveData code l.world d).2.1⟩,
        (l.conn.receiveData code l.world d).2.2) := rfl

/-- A run that raises nothing feeds the connection the chunks that arrive in it. -/
theorem feeds_of_run {l₀ l : TcpListener σ} {tr : List (StepRec (TcpListener σ) TcpEvent TcpOut)}
    (h : Run (step code) l₀ tr l) (ho : ∀ x ∈ outputs tr, x.isRaise = false) :
    ∃ o, (TcpConnection.framer code).Feeds l₀.conn (chunks tr) o l.conn ∧
      o.filter TcpOut.isVisible = (outputs tr).filter TcpOut.isVisible ∧
      ∀ x ∈ o, x.isRaise = false := by
  induction h with
  | nil => exact ⟨[], .nil, rfl, by simp⟩
  | @snoc tr l l' ev out _ hs ih =>
    have hout : outputs (tr ++ [⟨l, ev, out, l'⟩]) = outputs tr ++ out := by
      unfold outputs
      rw [List.flatMap_append, List.flatMap_singleton]
    have hchunks : chunks (tr ++ [⟨l, ev, out, l'⟩]) = chunks tr ++ ev.data?.toList := by
      unfold chunks
      rw [List.filterMap_append]
      cases ev <;> rfl
    rw [hout, List.forall_mem_append] at ho
    obtain ⟨o, hfeeds, hvis, hno⟩ := ih ho.1
    rw [hout, hchunks]
    cases ev with
    | elsewhere w =>
      obtain ⟨rfl, rfl⟩ := Prod.mk.inj (Option.some.inj hs)
      refine ⟨o ++ [], hfeeds.append .nil, ?_, ?_⟩
      · rw [List.append_nil, List.append_nil, hvis]
      · rw [List.append_nil]
        exact hno
    | chunk d =>
      rw [step_chunk] at hs
      obtain ⟨hpost, hlast⟩ := Prod.mk.inj (Option.some.inj hs)
      rw [← hpost, ← hlast]
      rw [← hlast] at ho
      obtain ⟨o', hfeeds', hvis', hno'⟩ := TcpConnection.receiveData_feeds l.world d ho.2
      refine ⟨o ++ o', hfeeds.append hfeeds', ?_, ?_⟩
      · rw [List.filter_append, List.filter_append, hvis, hvis']
      · rw [List.forall_mem_append]
        exact ⟨hno, hno'⟩

/-- **Segmentation.** Two runs of a new connection in which the same bytes arrive, cut into non-empty
chunks in whatever way and with whatever happening elsewhere in between, and in which nothing raises,
process the same messages and send the same, and both end in `:ignore` or none does. -/
theorem sameStream {id : Nat} {transport : Transport} {ip : String} {port : Nat} {w w' : World}
    {tr tr' : List (StepRec (TcpListener σ) TcpEvent TcpOut)} {l l' : TcpListener σ}
    (h : Run (step code) ⟨.new code id transport ip port, w⟩ tr l)
    (h' : Run (step code) ⟨.new code id transport ip port, w'⟩ tr' l')
    (hne : ∀ d ∈ chunks tr, d ≠ []) (hne' : ∀ d ∈ chunks tr', d ≠ [])
    (heq : (chunks tr).flatten = (chunks tr').flatten)
    (ho : ∀ x ∈ outputs tr, x.isRaise = false) (ho' : ∀ x ∈ outputs tr', x.isRaise = false) :
    (outputs tr).filter TcpOut.isVisible = (outputs tr').filter TcpOut.isVisible ∧
      (l.conn.state = .ignore ↔ l'.conn.state = .ignore) := by
  obtain ⟨o, hfeeds, hvis, hno⟩ := feeds_of_run h ho
  obtain ⟨o', hfeeds', hvis', hno'⟩ := feeds_of_run h' ho'
  have hwf : (TcpConnection.new code id transport ip port).Wf :=
    TcpConnection.wf_of_state (by simp [TcpConnection.new])
  obtain ⟨hsame, hagree⟩ :=
    hfeeds.agree_of_flatten_eq (TcpConnection.lawful code) hfeeds' hwf hne hne' heq hno hno'
  exact ⟨by rw [← hvis, ← hvis']; exact hsame, hagree.dead_iff⟩

/-! ## A stream in two cuttings -/

/-- The connection after some chunks, and what it has put out. -/
def receiveAll (code : TcpCode σ) (l : TcpListener σ) : List Bytes → TcpListener σ × List TcpOut
  | [] => (l, [])
  | d :: ds =>
    let (conn, world, o) := l.conn.receiveData code l.world d
    let (l, o') := receiveAll code { conn, world } ds
    (l, o ++ o')

theorem run_receiveAll (code : TcpCode σ) (l : TcpListener σ) (ds : List Bytes) :
    ∃ tr, Run (step code) l tr (receiveAll code l ds).1 ∧ chunks tr = ds ∧
      outputs tr = (receiveAll code l ds).2 := by
  induction ds generalizing l with
  | nil => exact ⟨[], .nil, rfl, rfl⟩
  | cons d ds ih =>
    obtain ⟨tr, hrun, hchunks, hout⟩ :=
      ih ⟨(l.conn.receiveData code l.world d).1, (l.conn.receiveData code l.world d).2.1⟩
    refine ⟨_, (Run.of_singleton (step_chunk l d)).append hrun, ?_, ?_⟩
    · unfold chunks at *
      rw [List.filterMap_append, hchunks]
      rfl
    · unfold outputs at *
      rw [List.flatMap_append, hout, List.flatMap_singleton]
      rfl

/-- A MESSAGE with a body of two bytes. -/
def messageText : Bytes :=
  ascii "MESSAGE sip:a SIP/2.0\r\nv:SIP/2.0/TCP 192.0.2.9;branch=z9hG4bK1\r\nf:sip:b\r\nt:sip:a\r\ni:1\r\nCSeq:1 MESSAGE\r\nl:2\r\n\r\n"

def message : SipMessage :=
  { kind := .request, method := .other "MESSAGE", missingCoreHeader := none
    duplicatedCoreHeader := none, contentLength := some 2, toTag := none, slReplyToTag := false
    reasons := [], antiloopId := "", hdrVia := ["SIP/2.0/TCP 192.0.2.9;branch=z9hG4bK1"]
    via :=
      { coreValue := "SIP/2.0/TCP 192.0.2.9", sentByHost := "192.0.2.9", sentByPort := none
        branch := some "z9hG4bK1", branchRfc3261 := true, hasRport := false, hasAlias := false
        params := none, branch_of_rfc3261 := fun _ => Option.some_ne_none _ } }

/-- The native code on a keepalive and the message. -/
def sampleCode : TcpCode TextState where
  parser := textParser [(CRLF ++ CRLF, .outboundKeepalive), (messageText, .message message)] (by simp)
  compareIps a b := a == b

/-- An accepted connection when nothing has happened yet. -/
def sampleListener : TcpListener TextState :=
  ⟨.new sampleCode 0 .tcp "192.0.2.9" 5060, .empty⟩

/-- A keepalive and the message with its body. -/
def sampleStream : Bytes := CRLF ++ CRLF ++ messageText ++ ascii "hi"

/-- The stream, cut within the keepalive, within the headers and within the body. -/
def sampleChunks : List Bytes :=
  [sampleStream.take 3, (sampleStream.drop 3).take 40, (sampleStream.drop 43).take 72,
    sampleStream.drop 115]

/-- The law at work: the keepalive is answered and the message is processed with its body. -/
theorem sameStream_message :
    ∃ tr tr' l l', Run (step sampleCode) sampleListener tr l ∧
      Run (step sampleCode) sampleListener tr' l' ∧
      chunks tr = sampleChunks ∧ chunks tr' = [sampleStream] ∧
      (outputs tr).filter TcpOut.isVisible =
        [.sendData CRLF, .process { message with body := some (ascii "hi") }] ∧
      (outputs tr).filter TcpOut.isVisible = (outputs tr').filter TcpOut.isVisible ∧
      (l.conn.state = .ignore ↔ l'.conn.state = .ignore) := by
  have hcut : ((receiveAll sampleCode sampleListener sampleChunks).2.filter TcpOut.isVisible =
      [.sendData CRLF, .process { message with body := some (ascii "hi") }]) ∧
      ∀ x ∈ (receiveAll sampleCode sampleListener sampleChunks).2, x.isRaise = false := by
    decide +kernel
  have hwhole : ∀ x ∈ (receiveAll sampleCode sampleListener [sampleStream]).2, x.isRaise = false := by
    decide +kernel
  have hne : (∀ d ∈ sampleChunks, d ≠ []) ∧ (∀ d ∈ [sampleStream], d ≠ []) ∧
      sampleChunks.flatten = [sampleStream].flatten := by
    decide +kernel
  obtain ⟨tr, hrun, hchunks, hout⟩ := run_receiveAll sampleCode sampleListener sampleChunks
  obtain ⟨tr', hrun', hchunks', hout'⟩ := run_receiveAll sampleCode sampleListener [sampleStream]
  have hsame := sameStream hrun hrun' (by rw [hchunks]; exact hne.1) (by rw [hchunks']; exact hne.2.1)
    (by rw [hchunks, hchunks']; exact hne.2.2) (by rw [hout]; exact hcut.2)
    (by rw [hout']; exact hwhole)
  exact ⟨tr, tr', _, _, hrun, hrun', hchunks, hchunks', by rw [hout]; exact hcut.1, hsame⟩

end TcpListener

end OverSip
