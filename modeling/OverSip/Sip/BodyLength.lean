import OverSip.Lib.History
import OverSip.Sip.DecimalNumbers
import OverSip.Sip.TcpConnectionTheorems
import OverSip.Sip.UdpIsolation
import OverSip.WebSocket.WsSipApp

/-!
# Content-Length and the body

The three ways in which a body is decided: by what is left of a datagram, by counted bytes of a stream, by
what is left of a WebSocket message. `bodyLengths_iff` says when every message that is passed to
`process_request` or `process_response` has the body that its Content-Length announces: over UDP and TCP
always, over WebSocket unless a message that announces a body ends with its headers.

Content-Length is the number that the parser stores, and no body counts as an empty one.
-/

namespace OverSip

variable {σ : Type}

/-- The body has the length that Content-Length announces. -/
def SipMessage.BodyAgrees (m : SipMessage) : Prop :=
  ∀ cl, m.contentLength = some cl → cl = (m.body.getD []).length

/-- A message as the parser leaves it: without a body, and with the number of some digits. -/
structure SipMessage.Headers (m : SipMessage) : Prop where
  no_body : m.body = none
  length_nonneg : ∀ cl, m.contentLength = some cl → 0 ≤ cl

/-- The parser stores the headers of a message only. -/
def SipParser.StoresHeaders (p : SipParser σ) : Prop :=
  ∀ s m, p.parsed s = .message m → m.Headers

/-- A Content-Length is stored without a sign. -/
theorem contentLength_nonneg (ws : List WrittenNumber) {cl : Int}
    (h : (parseNumbers ws).contentLength = some cl) : 0 ≤ cl := by
  have hget : (parseNumbers ws).get .contentLength = some cl := h
  rw [get_parseNumbers] at hget
  obtain ⟨w, hw, rfl⟩ := Option.map_eq_some_iff.mp hget
  have hfield : w.field = .contentLength := by
    simpa using List.find?_some hw
  obtain ⟨d, ds, _, hread⟩ := w.read_of_readByStrtol (.inl hfield)
  rw [hread]
  exact Int.natCast_nonneg _

/-- What a connection adds before the body leaves the headers as they are. -/
theorem SipMessage.Headers.addViaReceivedRport {m m' : SipMessage} (h : m.Headers)
    {compareIps : String → String → Bool} {ip : String} {port : Nat}
    (hadd : m.addViaReceivedRport compareIps ip port = .ok m') : m'.Headers := by
  have hrport : (if m.via.hasRport then { m with viaRport := some port } else m).Headers := by
    split
    · exact ⟨h.no_body, h.length_nonneg⟩
    · exact h
  unfold SipMessage.addViaReceivedRport at hadd
  dsimp only at hadd
  split at hadd
  · cases hadd
    exact hrport
  · split at hadd
    · cases hadd
    · cases hadd
      exact ⟨hrport.no_body, hrport.length_nonneg⟩

/-- Without a body, Content-Length has to be 0. -/
theorem SipMessage.Headers.bodyAgrees_iff {m : SipMessage} (h : m.Headers) :
    m.BodyAgrees ↔ ∀ cl, m.contentLength = some cl → cl ≤ 0 := by
  unfold BodyAgrees
  rw [h.no_body]
  constructor
  · intro hagrees cl hcl
    exact Int.le_of_eq (hagrees cl hcl)
  · intro hzero cl hcl
    exact Int.le_antisymm (hzero cl hcl) (h.length_nonneg cl hcl)

/-! ## UDP -/

namespace UdpConnection

variable {code : UdpCode σ} {c : UdpConnection σ} {w : World} {peer : Peer} {data : Bytes}

/-- The message that `parse_message` hands over. -/
def handed (code : UdpCode σ) (c : UdpConnection σ) (peer : Peer) : Option SipMessage :=
  if (c.parseMessage code peer).again then (c.parseMessage code peer).conn.msg else none

/-- The message that `receive_data` processes. -/
def processes (code : UdpCode σ) (c : UdpConnection σ) (peer : Peer) (data : Bytes) :
    Option SipMessage :=
  let c := { c with buffer := c.buffer ++ data }
  match c.state with
  | .init =>
    handed code { c with parser := code.parser.reset, parserNbytes := some 0, state := .message } peer
  | .message => c.handed code peer
  | .finished => c.msg

/-- A message that is to be processed has the body that it announces. -/
def Agrees (c : UdpConnection σ) : Prop :=
  c.state = .finished → ∀ m, c.msg = some m → m.BodyAgrees

/-- A part of `parse_message` leaves the connection so, and hands over such a message. -/
def Sound (r : UdpResult σ) : Prop :=
  r.conn.Agrees ∧ (r.again = true → r.conn.state = .finished)

theorem sound_giveUp (o : List UdpOut) : Sound (c.giveUp o) :=
  ⟨fun h => (nomatch h), fun h => nomatch h⟩

theorem sound_checkNoBody {m : SipMessage} (h : m.BodyAgrees) : Sound (c.checkNoBody m) := by
  unfold checkNoBody
  split
  · refine ⟨?_, fun _ => rfl⟩
    rintro _ m' hm'
    exact Option.some.inj hm' ▸ h
  · exact sound_giveUp _

theorem sound_checkBody {m : SipMessage} (h : m.Headers) : Sound (c.checkBody m) := by
  unfold checkBody
  cases hcl : m.contentLength with
  | none =>
    refine sound_checkNoBody (h.bodyAgrees_iff.mpr ?_)
    intro cl hcl'
    rw [hcl] at hcl'
    cases hcl'
  | some cl =>
    dsimp only
    by_cases hpos : 0 < cl
    · rw [if_pos hpos]
      by_cases hlen : cl = c.buffer.length
      · rw [if_pos hlen]
        refine ⟨?_, fun _ => rfl⟩
        rintro _ m' hm'
        rw [← Option.some.inj hm']
        intro cl' hcl'
        exact Option.some.inj hcl' ▸ hlen
      · rw [if_neg hlen]
        split
        · exact sound_giveUp _
        · exact sound_giveUp _
    · rw [if_neg hpos]
      refine sound_checkNoBody (h.bodyAgrees_iff.mpr ?_)
      intro cl' hcl'
      rw [← Option.some.inj (hcl.symm.trans hcl')]
      omega

theorem sound_checkMessage (hstate : c.state ≠ .finished) {m : SipMessage} (h : m.Headers)
    (ip : String) (port : Nat) : Sound (c.checkMessage code m ip port) := by
  -- what is left once the Via is rewritten
  have hrest : ∀ m', m'.Headers → Sound (if m'.via.branchRfc3261 = false then
        { c with msg := some m' }.giveUp (reply m' 400 "Via branch non RFC 3261 compliant")
      else { c with msg := some m' }.checkBody m') := by
    intro m' hm'
    split
    · exact sound_giveUp _
    · exact sound_checkBody hm'
  unfold checkMessage
  split
  · exact sound_giveUp _
  · by_cases hreq : m.isRequest = true
    · rw [if_pos hreq]
      cases hadd : m.addViaReceivedRport code.compareIps ip port with
      | error e => exact ⟨fun h => absurd h hstate, fun h => nomatch h⟩
      | ok m' => exact hrest m' (h.addViaReceivedRport hadd)
    · rw [if_neg hreq]
      exact hrest m h

theorem sound_parseMessage (hp : code.parser.StoresHeaders) (hstate : c.state ≠ .finished) :
    Sound (c.parseMessage code peer) := by
  unfold parseMessage
  split
  · exact ⟨fun h => absurd h hstate, fun h => nomatch h⟩
  · split
    · exact sound_giveUp _
    · split
      · exact sound_giveUp _
      · split
        · exact sound_giveUp _
        · exact sound_giveUp _
        · unfold parseSip
          split
          · exact ⟨fun h => absurd h hstate, fun h => nomatch h⟩
          · exact sound_giveUp _
          · dsimp only
            split
            · exact sound_giveUp _
            · split
              · rename_i hm
                refine sound_checkMessage ?_ (hp _ _ hm) _ _
                exact hstate
              · exact sound_giveUp _
              · exact ⟨fun h => absurd h hstate, fun h => nomatch h⟩

/-- A message that is handed over has the body that it announces. -/
theorem bodyAgrees_of_handed (hp : code.parser.StoresHeaders) (hstate : c.state ≠ .finished)
    {m : SipMessage} (hm : c.handed code peer = some m) : m.BodyAgrees := by
  obtain ⟨hagrees, hfinished⟩ : Sound (c.parseMessage code peer) := sound_parseMessage hp hstate
  unfold handed at hm
  split at hm
  · rename_i hagain
    exact hagrees (hfinished hagain) m hm
  · cases hm

theorem agrees_finish (h : ∀ m, c.msg = some m → m.BodyAgrees) : (c.finish w).1.Agrees := by
  unfold finish
  split
  · rename_i hnone
    intro _ m hm
    rw [hnone] at hm
    cases hm
  · rename_i m hm
    intro _ m' hm'
    refine h m' ?_
    revert hm'
    dsimp only
    split <;> exact fun hm' => hm'

theorem agrees_run (hp : code.parser.StoresHeaders) (hstate : c.state ≠ .finished) :
    (c.run code w peer).1.Agrees := by
  obtain ⟨hagrees, hfinished⟩ : Sound (c.parseMessage code peer) := sound_parseMessage hp hstate
  unfold run
  dsimp only
  split
  · rename_i hagain
    exact agrees_finish (hagrees (hfinished hagain))
  · exact hagrees

theorem agrees_receiveData (hp : code.parser.StoresHeaders) (h : c.Agrees) :
    (c.receiveData code w peer data).1.Agrees ∧
      ∀ m, c.processes code peer data = some m → m.BodyAgrees := by
  have hmessage : UdpState.message ≠ .finished := by decide
  unfold receiveData processes
  dsimp only
  cases hstate : c.state with
  | init => exact ⟨agrees_run hp hmessage, fun m hm => bodyAgrees_of_handed hp hmessage hm⟩
  | message => exact ⟨agrees_run hp hmessage, fun m hm => bodyAgrees_of_handed hp hmessage hm⟩
  | finished => exact ⟨agrees_finish (h hstate), h hstate⟩

end UdpConnection

/-- The messages that are processed in a step. -/
def UdpListener.processed (code : UdpCode σ) (r : StepRec (UdpListener σ) UdpEvent UdpOut) :
    List SipMessage :=
  match r.ev with
  | .datagram peer data => (r.pre.conn.processes code peer data).toList
  | .elsewhere _ => []

/-- **Over UDP** every message that is processed has the body that it announces. -/
theorem UdpListener.bodyAgrees {code : UdpCode σ} (hp : code.parser.StoresHeaders) {w : World}
    {tr : List (StepRec (UdpListener σ) UdpEvent UdpOut)} {l : UdpListener σ}
    (hrun : Run (step code) ⟨.new code, w⟩ tr l) :
    ∀ r ∈ tr, ∀ m ∈ processed code r, m.BodyAgrees := by
  have hagrees : ∀ {tr l}, Run (step code) ⟨.new code, w⟩ tr l → l.conn.Agrees := by
    intro tr l hrun
    have hnew : (UdpConnection.new code).Agrees := fun h => nomatch h
    refine Run.stateInvariant (I := fun l : UdpListener σ => l.conn.Agrees) hnew ?_ hrun
    intro l e l' o h hs
    cases e with
    | datagram peer data =>
      obtain ⟨rfl, _⟩ := Prod.mk.inj (Option.some.inj hs)
      exact (UdpConnection.agrees_receiveData hp h).1
    | elsewhere w =>
      obtain ⟨rfl, _⟩ := Prod.mk.inj (Option.some.inj hs)
      exact h
  intro r hr m hm
  obtain ⟨tr₁, tr₂, rfl⟩ := List.append_of_mem hr
  obtain ⟨hpre, _, _⟩ := Run.of_middle hrun
  unfold processed at hm
  split at hm
  · exact (UdpConnection.agrees_receiveData (w := w) hp (hagrees hpre)).2 m (Option.mem_toList.mp hm)
  · cases hm

/-! ## TCP -/

namespace TcpConnection

variable {code : TcpCode σ} {c : TcpConnection σ} {w : World}

/-- A message that waits for its body waits for as much as it announces, and a message that is to be
processed has it. -/
def Agrees (c : TcpConnection σ) : Prop :=
  match c.state with
  | .body m bodyLength => m.contentLength = some (bodyLength : Int)
  | .finished m => m.BodyAgrees
  | _ => True

/-- A branch of the `case` leaves the connection so, and processes nothing. -/
def Sound (r : TcpResult σ) : Prop := r.conn.Agrees ∧ ∀ m, .process m ∉ r.out

theorem sound_giveUp {o : List TcpOut} (ho : ∀ m, .process m ∉ o) : Sound (c.giveUp o) := by
  refine ⟨trivial, ?_⟩
  intro m hm
  rcases List.mem_append.mp hm with hm | hm
  · exact ho m hm
  · cases List.mem_singleton.mp hm

theorem not_process_reply (m : SipMessage) (statusCode : Nat) (reason : String) (m' : SipMessage) :
    .process m' ∉ reply m statusCode reason := by
  unfold reply
  split <;> simp

theorem sound_checkMessage (hstate : c.state = .headers) {m : SipMessage} (h : m.Headers) :
    Sound (c.checkMessage code m) := by
  -- what is left once the Via is rewritten
  have hrest : ∀ m', m'.Headers → Sound (if m'.via.branchRfc3261 = false then
        c.giveUp (reply m' 400 "Via branch non RFC 3261 compliant")
      else c.checkContentLength m') := by
    intro m' hm'
    split
    · exact sound_giveUp (not_process_reply _ _ _)
    · unfold checkContentLength
      split
      · rename_i cl hcl
        by_cases hpos : 0 < cl
        · rw [if_pos hpos]
          refine ⟨?_, by simp [goOn]⟩
          show m'.contentLength = some ((cl.toNat : ℕ) : Int)
          rw [hcl, Int.toNat_of_nonneg (by omega)]
        · rw [if_neg hpos]
          refine ⟨?_, by simp [goOn]⟩
          show m'.BodyAgrees
          refine hm'.bodyAgrees_iff.mpr ?_
          intro cl' hcl'
          rw [← Option.some.inj (hcl.symm.trans hcl')]
          omega
      · exact sound_giveUp (not_process_reply _ _ _)
  unfold checkMessage
  split
  · exact sound_giveUp (by simp)
  · by_cases hreq : m.isRequest = true
    · rw [if_pos hreq]
      cases hadd : m.addViaReceivedRport code.compareIps c.remoteIp c.remotePort with
      | error e =>
        refine ⟨?_, by simp [raised]⟩
        show c.Agrees
        simp only [Agrees, hstate]
      | ok m' => exact hrest m' (h.addViaReceivedRport hadd)
    · rw [if_neg hreq]
      exact hrest m h

theorem sound_parseHeaders (hp : code.parser.StoresHeaders) (hstate : c.state = .headers) :
    Sound (c.parseHeaders code) := by
  have hheaders : ∀ {c' : TcpConnection σ}, c'.state = .headers → c'.Agrees := by
    intro c' hc'
    simp only [Agrees, hc']
  unfold parseHeaders
  split
  · exact ⟨hheaders hstate, by simp [stop]⟩
  · split
    · exact ⟨hheaders hstate, by simp [raised]⟩
    · exact sound_giveUp (by simp)
    · unfold checkParser
      split
      · exact ⟨trivial, by simp⟩
      · split
        · exact ⟨hheaders hstate, by simp [stop]⟩
        · dsimp only
          split
          · rename_i hm
            refine sound_checkMessage ?_ (hp _ _ hm)
            exact hstate
          · exact ⟨trivial, by simp [goOn]⟩
          · exact ⟨hheaders hstate, by simp [raised]⟩

theorem sound_getBody {m : SipMessage} {n : ℕ} (h : c.Agrees) (hm : m.contentLength = some (n : Int)) :
    Sound (c.getBody m n) := by
  unfold getBody
  by_cases hlen : c.buffer.length < n
  · rw [if_pos hlen]
    exact ⟨h, by simp [stop]⟩
  · rw [if_neg hlen]
    refine ⟨?_, by simp [goOn]⟩
    intro cl hcl
    rw [← Option.some.inj (hm.symm.trans hcl), Option.getD_some, List.length_take]
    omega

/-- A turn leaves the connection so, and processes a message only with the body that it announces. -/
theorem agrees_turn (hp : code.parser.StoresHeaders) (h : c.Agrees) :
    (c.turn code w).conn.Agrees ∧ ∀ m, .process m ∈ (c.turn code w).out → m.BodyAgrees := by
  have hsound : ∀ {r : TcpResult σ}, Sound r →
      r.conn.Agrees ∧ ∀ m, .process m ∈ r.out → m.BodyAgrees := by
    intro r hr
    exact ⟨hr.1, fun m hm => absurd hm (hr.2 m)⟩
  unfold turn
  cases hstate : c.state with
  | init => exact hsound ⟨trivial, by simp [goOn]⟩
  | headers => exact hsound (sound_parseHeaders hp hstate)
  | body m n =>
    have hm : m.contentLength = some (n : Int) := by
      unfold Agrees at h
      rwa [hstate] at h
    exact hsound (sound_getBody h hm)
  | finished m =>
    have hm : m.BodyAgrees := by
      unfold Agrees at h
      rwa [hstate] at h
    show (c.finish w m).conn.Agrees ∧ ∀ m', .process m' ∈ (c.finish w m).out → m'.BodyAgrees
    unfold finish
    dsimp only
    split
    · exact ⟨h, by simp [hm]⟩
    · exact ⟨trivial, by simp [goOn, hm]⟩
  | ignore => exact hsound ⟨h, by simp [stop]⟩
  | waitingForOnClientTlsHandshake => exact hsound ⟨h, by simp [stop]⟩

theorem agrees_loop (hp : code.parser.StoresHeaders) (fuel : ℕ) {w : World} {c : TcpConnection σ}
    (h : c.Agrees) :
    (loop code fuel w c).1.Agrees ∧ ∀ m, .process m ∈ (loop code fuel w c).2.2 → m.BodyAgrees := by
  induction fuel generalizing w c with
  | zero => exact ⟨h, fun m hm => nomatch hm⟩
  | succ fuel ih =>
    obtain ⟨hturn, hprocess⟩ := agrees_turn (w := w) hp h
    unfold loop
    dsimp only
    split
    · obtain ⟨hloop, hmore⟩ := ih (w := (c.turn code w).world) hturn
      refine ⟨hloop, ?_⟩
      intro m hm
      rcases List.mem_append.mp hm with hm | hm
      · exact hprocess m hm
      · exact hmore m hm
    · exact ⟨hturn, hprocess⟩

theorem agrees_receiveData (hp : code.parser.StoresHeaders) (h : c.Agrees) (data : Bytes) :
    (c.receiveData code w data).1.Agrees ∧
      ∀ m, .process m ∈ (c.receiveData code w data).2.2 → m.BodyAgrees := by
  have hpush : (c.push data).Agrees := h
  unfold receiveData processReceivedData
  split
  · exact ⟨h, fun m hm => nomatch hm⟩
  · split
    · exact ⟨hpush, fun m hm => nomatch hm⟩
    · split
      · exact ⟨hpush, fun m hm => nomatch hm⟩
      · exact agrees_loop hp _ hpush

end TcpConnection

/-- The messages that are processed in a step. -/
def TcpListener.processed (r : StepRec (TcpListener σ) TcpEvent TcpOut) : List SipMessage :=
  r.out.filterMap fun x =>
    match x with
    | .process m => some m
    | _ => none

theorem TcpListener.mem_processed {r : StepRec (TcpListener σ) TcpEvent TcpOut} {m : SipMessage} :
    m ∈ processed r ↔ .process m ∈ r.out := by
  unfold processed
  rw [List.mem_filterMap]
  constructor
  · rintro ⟨x, hx, heq⟩
    split at heq
    · exact Option.some.inj heq ▸ hx
    · cases heq
  · intro hm
    exact ⟨_, hm, rfl⟩

/-- **Over TCP** every message that is processed has the body that it announces. -/
theorem TcpListener.bodyAgrees {code : TcpCode σ} (hp : code.parser.StoresHeaders) {id : Nat}
    {transport : Transport} {ip : String} {port : Nat} {w : World}
    {tr : List (StepRec (TcpListener σ) TcpEvent TcpOut)} {l : TcpListener σ}
    (hrun : Run (step code) ⟨.new code id transport ip port, w⟩ tr l) :
    ∀ r ∈ tr, ∀ m, .process m ∈ r.out → m.BodyAgrees := by
  have hstep : ∀ {l l' : TcpListener σ} {e o}, l.conn.Agrees → step code l e = some (l', o) →
      l'.conn.Agrees ∧ ∀ m, .process m ∈ o → m.BodyAgrees := by
    intro l l' e o h hs
    cases e with
    | chunk data =>
      obtain ⟨rfl, rfl⟩ := Prod.mk.inj (Option.some.inj hs)
      exact TcpConnection.agrees_receiveData hp h data
    | elsewhere w =>
      obtain ⟨rfl, rfl⟩ := Prod.mk.inj (Option.some.inj hs)
      exact ⟨h, fun m hm => nomatch hm⟩
  intro r hr
  obtain ⟨tr₁, tr₂, rfl⟩ := List.append_of_mem hr
  obtain ⟨hpre, hs, _⟩ := Run.of_middle hrun
  have hnew : (TcpConnection.new code id transport ip port).Agrees := trivial
  have hagrees := Run.stateInvariant (I := fun l : TcpListener σ => l.conn.Agrees) hnew
    (fun _ _ _ _ h hs => (hstep h hs).1) hpre
  exact (hstep hagrees hs).2

/-! ## WebSocket -/

namespace WsSipApp

variable {parser : SipParser σ} {payload : Bytes}

/-- The message of a payload, and the bytes behind its headers. -/
def messageOf (parser : SipParser σ) (payload : Bytes) : Option (SipMessage × Bytes) :=
  match parser.execute parser.reset payload (some 0) with
  | .ok (o, some nbytes) =>
    if parser.finished o = false then none
    else
      match parser.parsed o.cs with
      | .message m => some (m, payload.drop nbytes)
      | _ => none
  | _ => none

/-- The messages of a payload that are processed. -/
def processed (parser : SipParser σ) (payload : Bytes) : List SipMessage :=
  (processSipMessage parser payload).2.filterMap WsSipOut.processed

/-- A good message announces a body and ends with its headers. -/
def LacksBody (parser : SipParser σ) (payload : Bytes) : Prop :=
  ∃ m cl, messageOf parser payload = some (m, []) ∧ m.valid = true ∧ m.via.branchRfc3261 = true ∧
    m.contentLength = some cl ∧ 0 < cl

theorem processed_eq (parser : SipParser σ) (payload : Bytes) :
    processed parser payload =
      ((messageOf parser payload).elim [] fun x => checkMessage x.1 x.2).filterMap
        WsSipOut.processed := by
  unfold processed processSipMessage messageOf
  cases parser.execute parser.reset payload (some 0) with
  | error e => rfl
  | ok r =>
    obtain ⟨o, _ | nbytes⟩ := r
    · rfl
    · dsimp only
      split
      · rfl
      · cases parser.parsed o.cs <;> rfl

/-- A body that is there is compared with Content-Length; one that is not is not. -/
theorem bodyAgrees_getBody_iff {m : SipMessage} (h : m.Headers) (rest : Bytes) :
    (∀ m' ∈ (getBody m rest).filterMap WsSipOut.processed, m'.BodyAgrees) ↔
      ¬ (rest = [] ∧ ∃ cl, m.contentLength = some cl ∧ 0 < cl) := by
  unfold getBody
  by_cases hrest : rest = []
  · rw [if_pos hrest]
    simp only [List.filterMap_cons, WsSipOut.processed, List.filterMap_nil, List.forall_mem_singleton]
    rw [h.bodyAgrees_iff]
    constructor
    · rintro hzero ⟨_, cl, hcl, hpos⟩
      have := hzero cl hcl
      omega
    · intro hno cl hcl
      by_contra hpos
      exact hno ⟨hrest, cl, hcl, by omega⟩
  · rw [if_neg hrest]
    refine iff_of_true ?_ fun hno => hrest hno.1
    intro m' hm'
    cases hcl : m.contentLength with
    | none =>
      rw [hcl] at hm'
      obtain rfl := List.mem_singleton.mp hm'
      intro cl hcl'
      cases hcl'
    | some cl =>
      rw [hcl] at hm'
      dsimp only at hm'
      by_cases hlen : cl = rest.length
      · rw [if_neg (not_not.mpr hlen)] at hm'
        obtain rfl := List.mem_singleton.mp hm'
        intro cl' hcl'
        exact Option.some.inj hcl' ▸ hlen
      · rw [if_pos hlen] at hm'
        cases hm'

theorem headers_of_messageOf (hp : parser.StoresHeaders) {m : SipMessage} {rest : Bytes}
    (h : messageOf parser payload = some (m, rest)) : m.Headers := by
  unfold messageOf at h
  split at h
  · split at h
    · cases h
    · split at h
      · rename_i hm
        exact (Prod.mk.inj (Option.some.inj h)).1 ▸ hp _ _ hm
      · cases h
  · cases h

/-- What is no good message is not processed. -/
theorem bodyAgrees_checkMessage_iff {m : SipMessage} (h : m.Headers) (rest : Bytes) :
    (∀ m' ∈ (checkMessage m rest).filterMap WsSipOut.processed, m'.BodyAgrees) ↔
      ¬ (m.valid = true ∧ m.via.branchRfc3261 = true ∧ rest = [] ∧
        ∃ cl, m.contentLength = some cl ∧ 0 < cl) := by
  unfold checkMessage
  by_cases hv : m.valid = false
  · rw [if_pos hv]
    exact iff_of_true (fun m' hm' => nomatch hm') fun hno => by simp [hno.1] at hv
  · rw [if_neg hv]
    have hvalid : m.valid = true := by simpa using hv
    by_cases hb : m.via.branchRfc3261 = false
    · rw [if_pos hb]
      refine iff_of_true ?_ fun hno => by simp [hno.2.1] at hb
      split <;> exact fun m' hm' => nomatch hm'
    · rw [if_neg hb, bodyAgrees_getBody_iff h]
      have hbranch : m.via.branchRfc3261 = true := by simpa using hb
      constructor
      · exact fun hno hall => hno hall.2.2
      · exact fun hno hall => hno ⟨hvalid, hbranch, hall⟩

/-- **Over WebSocket** a payload is processed with another body than it announces exactly when it lacks
one. -/
theorem bodyAgrees_processed_iff (hp : parser.StoresHeaders) (payload : Bytes) :
    (∀ m ∈ processed parser payload, m.BodyAgrees) ↔ ¬ LacksBody parser payload := by
  rw [processed_eq]
  unfold LacksBody
  cases hm : messageOf parser payload with
  | none =>
    refine iff_of_true (fun m hm => nomatch hm) ?_
    rintro ⟨_, _, hno, _⟩
    cases hno
  | some x =>
    obtain ⟨m, rest⟩ := x
    refine (bodyAgrees_checkMessage_iff (headers_of_messageOf hp hm) rest).trans ?_
    constructor
    · rintro hno ⟨m', cl, heq, hv, hb, hcl, hpos⟩
      obtain ⟨rfl, rfl⟩ := Prod.mk.inj (Option.some.inj heq)
      exact hno ⟨hv, hb, rfl, cl, hcl, hpos⟩
    · rintro hno ⟨hv, hb, rfl, cl, hcl, hpos⟩
      exact hno ⟨m, cl, rfl, hv, hb, hcl, hpos⟩

end WsSipApp

/-! ## The three transports -/

/-- Some traffic on a connection, of any transport: the payloads of the WebSocket messages in it, as
`message_done` gets them, and the messages that are processed. -/
inductive Traffic (parser : SipParser σ) : List Bytes → List SipMessage → Prop
  | udp {code : UdpCode σ} {w : World} {tr : List (StepRec (UdpListener σ) UdpEvent UdpOut)}
      {l : UdpListener σ} : code.parser = parser → Run (UdpListener.step code) ⟨.new code, w⟩ tr l →
      Traffic parser [] (tr.flatMap (UdpListener.processed code))
  | tcp {code : TcpCode σ} {id : Nat} {transport : Transport} {ip : String} {port : Nat} {w : World}
      {tr : List (StepRec (TcpListener σ) TcpEvent TcpOut)} {l : TcpListener σ} :
      code.parser = parser →
      Run (TcpListener.step code) ⟨.new code id transport ip port, w⟩ tr l →
      Traffic parser [] (tr.flatMap TcpListener.processed)
  | webSocket (payloads : List Bytes) :
      Traffic parser payloads (payloads.flatMap (WsSipApp.processed parser))

/-- **Every message that is processed** has the body that its Content-Length announces exactly when no
WebSocket message lacks it. -/
theorem bodyLengths_iff {parser : SipParser σ} (hp : parser.StoresHeaders) {payloads : List Bytes}
    {ms : List SipMessage} (h : Traffic parser payloads ms) :
    (∀ m ∈ ms, m.BodyAgrees) ↔ ∀ payload ∈ payloads, ¬ WsSipApp.LacksBody parser payload := by
  cases h with
  | udp hcode hrun =>
    subst hcode
    refine iff_of_true ?_ fun payload hno => nomatch hno
    intro m hm
    obtain ⟨r, hr, hm⟩ := List.mem_flatMap.mp hm
    exact UdpListener.bodyAgrees hp hrun r hr m hm
  | tcp hcode hrun =>
    subst hcode
    refine iff_of_true ?_ fun payload hno => nomatch hno
    intro m hm
    obtain ⟨r, hr, hm⟩ := List.mem_flatMap.mp hm
    exact TcpListener.bodyAgrees hp hrun r hr m (TcpListener.mem_processed.mp hm)
  | webSocket payloads =>
    constructor
    · intro hall payload hpayload
      refine (WsSipApp.bodyAgrees_processed_iff hp payload).mp ?_
      exact fun m hm => hall m (List.mem_flatMap.mpr ⟨payload, hpayload, hm⟩)
    · intro hall m hm
      obtain ⟨payload, hpayload, hm⟩ := List.mem_flatMap.mp hm
      exact (WsSipApp.bodyAgrees_processed_iff hp payload).mpr (hall payload hpayload) m hm

/-! ## A body that is not there -/

namespace WsSipApp

/-- A MESSAGE that announces two bytes. -/
def announcingText : Bytes :=
  ascii "MESSAGE sip:a SIP/2.0\r\nv:SIP/2.0/WS c;branch=z9hG4bK1\r\nf:sip:b\r\nt:sip:a\r\ni:1\r\nCSeq:1 MESSAGE\r\nl:2\r\n\r\n"

def announcingMessage : SipMessage :=
  { UdpListener.branchMessage with
    method := .other "MESSAGE", contentLength := some 2
    hdrVia := ["SIP/2.0/WS c;branch=z9hG4bK1"]
    via := { UdpListener.branchMessage.via with coreValue := "SIP/2.0/WS c" } }

theorem announcingMessage_headers : announcingMessage.Headers := by
  refine ⟨rfl, ?_⟩
  intro cl hcl
  rw [← Option.some.inj hcl]
  decide

/-- The texts that may still come have headers only. -/
def OnlyHeaders (s : TextState) : Prop := ∀ t ∈ s.1, ∀ m, t.2 = .message m → m.Headers

/-- The parser on that text. -/
def announcingParser : SipParser { s : TextState // OnlyHeaders s } :=
  (textParser [(announcingText, .message announcingMessage)] (by simp)).restrict OnlyHeaders
    (by
      intro t ht m hm
      rw [List.mem_singleton.mp ht] at hm
      cases hm
      exact announcingMessage_headers)
    (by
      intro s b hs t ht m hm
      obtain ⟨t', ht', heq⟩ := List.mem_filterMap.mp ht
      split at heq
      · rw [← Option.some.inj heq] at hm
        exact hs t' ht' m hm
      · cases heq)

theorem announcingParser_storesHeaders : announcingParser.StoresHeaders := by
  intro s m hm
  replace hm : ((s.1.1.find? (·.1 == [])).map (·.2)).getD .nothing = .message m := hm
  cases hfind : s.1.1.find? (·.1 == []) with
  | none =>
    rw [hfind] at hm
    cases hm
  | some t =>
    rw [hfind] at hm
    exact s.2 t (List.mem_of_find?_eq_some hfind) m hm

end WsSipApp

/-- A WebSocket message that ends with its headers is processed without the body that it announces. -/
theorem body_not_there : ∃ payloads ms, WsSipApp.announcingParser.StoresHeaders ∧
    Traffic WsSipApp.announcingParser payloads ms ∧ ¬ ∀ m ∈ ms, m.BodyAgrees := by
  refine ⟨_, _, WsSipApp.announcingParser_storesHeaders, .webSocket [WsSipApp.announcingText], ?_⟩
  have hprocessed : WsSipApp.processed WsSipApp.announcingParser WsSipApp.announcingText =
      [WsSipApp.announcingMessage] := by
    decide +kernel
  rw [List.flatMap_singleton, hprocessed]
  intro hall
  have hbad := hall _ (List.mem_singleton.mpr rfl) 2 rfl
  cases hbad

/-- The same message with its body: it is processed, and has the bytes it announces. -/
theorem body_there :
    [WsSipApp.announcingText ++ ascii "hi"].flatMap (WsSipApp.processed WsSipApp.announcingParser) ≠ [] ∧
      ∀ m ∈ [WsSipApp.announcingText ++ ascii "hi"].flatMap
        (WsSipApp.processed WsSipApp.announcingParser), m.BodyAgrees := by
  refine ⟨by decide +kernel, (bodyLengths_iff WsSipApp.announcingParser_storesHeaders
    (.webSocket _)).mpr ?_⟩
  intro payload hpayload
  rw [List.mem_singleton.mp hpayload]
  have hmessage : WsSipApp.messageOf WsSipApp.announcingParser (WsSipApp.announcingText ++ ascii "hi") =
      some (WsSipApp.announcingMessage, ascii "hi") := by
    decide +kernel
  rintro ⟨m, cl, heq, _⟩
  rw [hmessage] at heq
  exact absurd (Prod.mk.inj (Option.some.inj heq)).2 (by decide)

end OverSip
