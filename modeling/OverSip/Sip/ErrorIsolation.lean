import OverSip.Sip.RequestFibers
import OverSip.Sip.TcpConnectionTheorems
import OverSip.Sip.UdpIsolation
import OverSip.WebSocket.WsSipApp

/-!
# Errors of `on_request` on the three transports

A `UdpConnection`, a `TcpConnection` and a `WsSipApp` as receivers: what each assigns to `@msg` and when it
calls `on_request`. `errorIsolated_iff` says in which runs the 500 for a callback that raises goes to its
own request.

A TCP connection goes on by turns of its loop, so that fibers may go on between two messages of a chunk.
-/

namespace OverSip

variable {σ : Type}

/-- `on_request` is called. -/
def DispatchOut.isOnRequest : DispatchOut → Bool
  | .processor (.onRequest _) => true
  | _ => false

def UdpOut.isOnRequest : UdpOut → Bool
  | .dispatch o => o.isOnRequest
  | _ => false

def TcpOut.isOnRequest : TcpOut → Bool
  | .dispatch o => o.isOnRequest
  | _ => false

/-- `m` is the message `x`, or what a connection has made of it. -/
def Parsed.Becomes (x : Parsed) (m : SipMessage) : Prop :=
  ∃ m', x = .message m' ∧ m.kind = m'.kind

/-! ## The receivers -/

namespace UdpConnection

/-- What `parse_message` assigns to `@msg`. -/
def parses (code : UdpCode σ) (c : UdpConnection σ) (peer : Peer) : Option Parsed :=
  if c.buffer = [] then none
  else if c.buffer = CRLF then none
  else
    match peer with
    | none => none
    | some (ip, port) =>
      match code.parseStun c.buffer ip port with
      | .notStun =>
        match code.parser.execute c.parser c.buffer c.parserNbytes with
        | .ok (parser, some _) =>
          if code.parser.finished parser = false then none else some (code.parser.parsed parser.cs)
        | _ => none
      | _ => none

/-- What `receive_data` assigns to `@msg`. -/
def assigns (code : UdpCode σ) (c : UdpConnection σ) (peer : Peer) (data : Bytes) : Option Parsed :=
  let c := { c with buffer := c.buffer ++ data }
  match c.state with
  | .init => { c with parser := code.parser.reset, parserNbytes := some 0, state := .message }.parses
      code peer
  | .message => c.parses code peer
  | .finished => none

end UdpConnection

/-- A UDP connection as a receiver. -/
def UdpListener.receive (code : UdpCode σ) (l : UdpListener σ) :
    UdpEvent → Option (UdpListener σ × Received)
  | .datagram peer data =>
    let (conn, world, o) := l.conn.receiveData code l.world peer data
    some (⟨conn, world⟩, ⟨l.conn.assigns code peer data, o.any UdpOut.isOnRequest⟩)
  | .elsewhere world => some ({ l with world }, ⟨none, false⟩)

/-- What a turn of a TCP connection assigns to `@msg`. -/
def TcpConnection.assigns (code : TcpCode σ) (c : TcpConnection σ) : Option Parsed :=
  if c.state = .headers ∧ c.buffer ≠ [] then
    match code.parser.execute c.parser c.buffer c.parserNbytes with
    | .ok (parser, some nbytes) =>
      if HEADERS_MAX_SIZE < nbytes then none
      else if code.parser.finished parser = false then none
      else some (code.parser.parsed parser.cs)
    | _ => none
  else none

/-- A TCP connection, and whether its loop is running. -/
structure TcpLoop (σ : Type) where
  listener : TcpListener σ
  running : Bool

/-- What can happen to a TCP connection: a chunk arrives, the loop takes a turn, the rest of the program
changes. -/
inductive TcpLoopEvent
  | chunk (data : Bytes)
  | turn
  | elsewhere (w : World)

/-- A TCP connection as a receiver. -/
def TcpLoop.receive (code : TcpCode σ) (l : TcpLoop σ) :
    TcpLoopEvent → Option (TcpLoop σ × Received)
  | .chunk data =>
    if l.running then none
    else
      let c := l.listener.conn
      if c.state = .ignore then some (l, ⟨none, false⟩)
      else if c.state = .waitingForOnClientTlsHandshake then
        some ({ l with listener := { l.listener with conn := c.push data } }, ⟨none, false⟩)
      else some (⟨{ l.listener with conn := c.push data }, true⟩, ⟨none, false⟩)
  | .turn =>
    if l.running then
      let t := l.listener.conn.turn code l.listener.world
      some (⟨⟨t.conn, t.world⟩, t.again⟩,
        ⟨l.listener.conn.assigns code, t.out.any TcpOut.isOnRequest⟩)
    else none
  | .elsewhere world => some ({ l with listener := { l.listener with world } }, ⟨none, false⟩)

/-- The payload of a WebSocket message, or anything else that happens to the tables and the
transactions. -/
inductive WsSipEvent
  | message (payload : Bytes)
  | elsewhere (w : World)

/-- A `WsSipApp` of a connection as a receiver. -/
def WsSipApp.receive (parser : SipParser σ) (connection : Nat) (transport : Transport) (w : World) :
    WsSipEvent → Option (World × Received)
  | .message payload =>
    let (assigned, o) := processSipMessage parser payload
    match o.findSome? WsSipOut.processed with
    | some m =>
      let (w, o) := w.process m connection transport
      some (w, ⟨assigned, o.any DispatchOut.isOnRequest⟩)
    | none => some (w, ⟨assigned, false⟩)
  | .elsewhere w => some (w, ⟨none, false⟩)

/-! ## `on_request` is called for requests -/

theorem World.not_isOnRequest_callCore (env : Env) (id : String) (os : List Out)
    (core : Option Proxy) : (callCore env id core os).2.any DispatchOut.isOnRequest = false := by
  induction os generalizing core with
  | nil => rfl
  | cons o os ih =>
    rw [callCore.eq_def]
    split
    · rename_i heq
      cases heq
    · rename_i heq
      obtain ⟨rfl, rfl⟩ := List.cons.inj heq
      simp [DispatchOut.isOnRequest, ih]
    · rename_i heq
      obtain ⟨rfl, rfl⟩ := List.cons.inj heq
      simp [DispatchOut.isOnRequest, ih]

theorem World.not_isOnRequest_processResponse (w : World) (m : SipMessage) (statusCode : Nat) :
    (w.processResponse m statusCode).2.any DispatchOut.isOnRequest = false := by
  have hclient : ∀ (id : String) (o : List Out),
      (o.map (DispatchOut.client id)).any DispatchOut.isOnRequest = false := by
    intro id o
    rw [List.any_map]
    exact List.any_eq_false.mpr fun _ _ h => nomatch h
  unfold processResponse
  dsimp only
  split
  · rfl
  · rfl
  · split
    · rfl
    · exact not_isOnRequest_callCore _ _ _ _
  · split
    · rfl
    · exact hclient _ _
  · split
    · rfl
    · exact hclient _ _

/-- `on_request` is called for requests. -/
theorem World.isRequest_of_isOnRequest {w : World} {m : SipMessage} {connection : Nat}
    {transport : Transport}
    (h : (w.process m connection transport).2.any DispatchOut.isOnRequest = true) :
    m.kind = .request := by
  cases hkind : m.kind with
  | request => rfl
  | response statusCode =>
    unfold process at h
    simp only [hkind] at h
    rw [not_isOnRequest_processResponse] at h
    cases h

theorem Parsed.Becomes.isRequest {x : Parsed} {m : SipMessage} (h : x.Becomes m)
    (hkind : m.kind = .request) : ∃ m', x = .message m' ∧ m'.isRequest = true := by
  obtain ⟨m', hx, hsame⟩ := h
  rw [hkind] at hsame
  refine ⟨m', hx, ?_⟩
  rw [SipMessage.isRequest, ← hsame]
  rfl

/-! ## UDP -/

namespace UdpConnection

variable {code : UdpCode σ} {c : UdpConnection σ} {w : World} {peer : Peer}

/-- A part of `parse_message` calls no callback, and ends the loop or hands over what has been assigned to
`@msg`. -/
def HandsOver (x : Option Parsed) (r : UdpResult σ) : Prop :=
  r.out.any UdpOut.isOnRequest = false ∧
    ((r.again = false ∧ r.conn.state ≠ .finished) ∨
      (r.again = true ∧ r.conn.state = .finished ∧
        ∃ m y, r.conn.msg = some m ∧ x = some y ∧ y.Becomes m))

theorem handsOver_giveUp (x : Option Parsed) {o : List UdpOut}
    (ho : o.any UdpOut.isOnRequest = false) : HandsOver x (c.giveUp o) :=
  ⟨ho, .inl ⟨rfl, fun h => nomatch h⟩⟩

theorem handsOver_raised (x : Option Parsed) (e : RubyError) (hstate : c.state = .message) :
    HandsOver x (c.raised e) := by
  refine ⟨rfl, .inl ⟨rfl, ?_⟩⟩
  show c.state ≠ .finished
  simp [hstate]

theorem not_isOnRequest_reply (m : SipMessage) (statusCode : Nat) (reason : String) :
    (reply m statusCode reason).any UdpOut.isOnRequest = false := by
  unfold reply
  split <;> rfl

theorem handsOver_checkBody {x : Parsed} {m : SipMessage} (h : x.Becomes m) :
    HandsOver (some x) (c.checkBody m) := by
  have hnobody : HandsOver (some x) (c.checkNoBody m) := by
    unfold checkNoBody
    split
    · exact ⟨rfl, .inr ⟨rfl, rfl, m, x, rfl, rfl, h⟩⟩
    · exact handsOver_giveUp _ (not_isOnRequest_reply _ _ _)
  unfold checkBody
  split
  · split
    · split
      · exact ⟨rfl, .inr ⟨rfl, rfl, _, x, rfl, rfl, h⟩⟩
      · split
        · exact handsOver_giveUp _ rfl
        · exact handsOver_giveUp _ (not_isOnRequest_reply _ _ _)
    · exact hnobody
  · exact hnobody

theorem handsOver_checkMessage (hstate : c.state = .message) (m : SipMessage) (ip : String)
    (port : Nat) : HandsOver (some (.message m)) (c.checkMessage code m ip port) := by
  -- what is left once the Via is rewritten
  have hrest : ∀ m', m'.kind = m.kind → HandsOver (some (.message m))
      (if m'.via.branchRfc3261 = false then
          { c with msg := some m' }.giveUp (reply m' 400 "Via branch non RFC 3261 compliant")
        else { c with msg := some m' }.checkBody m') := by
    intro m' hkind
    split
    · exact handsOver_giveUp _ (not_isOnRequest_reply _ _ _)
    · exact handsOver_checkBody ⟨m, rfl, hkind⟩
  unfold checkMessage
  split
  · exact handsOver_giveUp _ rfl
  · by_cases hreq : m.isRequest = true
    · rw [if_pos hreq]
      rcases addViaReceivedRport_spec m code.compareIps ip port with ⟨_, _, hadd⟩ | ⟨_, m', hadd, hlike⟩
      · rw [hadd]
        exact handsOver_raised _ _ hstate
      · rw [hadd]
        exact hrest m' hlike.kind
    · rw [if_neg hreq]
      exact hrest m rfl

theorem handsOver_parseMessage (hstate : c.state = .message) :
    HandsOver (c.parses code peer) (c.parseMessage code peer) := by
  unfold parseMessage parses
  by_cases hnil : c.buffer = []
  · rw [if_pos hnil, if_pos hnil]
    exact ⟨rfl, .inl ⟨rfl, by simp [hstate]⟩⟩
  · rw [if_neg hnil, if_neg hnil]
    by_cases hcrlf : c.buffer = CRLF
    · rw [if_pos hcrlf, if_pos hcrlf]
      exact handsOver_giveUp _ rfl
    · rw [if_neg hcrlf, if_neg hcrlf]
      cases peer with
      | none => exact handsOver_giveUp _ rfl
      | some a =>
        dsimp only
        cases code.parseStun c.buffer a.1 a.2 with
        | invalid => exact handsOver_giveUp _ rfl
        | response _ => exact handsOver_giveUp _ rfl
        | notStun =>
          dsimp only
          unfold parseSip
          cases code.parser.execute c.parser c.buffer c.parserNbytes with
          | error e => exact handsOver_raised _ _ hstate
          | ok r =>
            obtain ⟨parser, _ | nbytes⟩ := r
            · exact handsOver_giveUp _ rfl
            · dsimp only
              by_cases hfin : code.parser.finished parser = false
              · rw [if_pos hfin, if_pos hfin]
                exact handsOver_giveUp _ rfl
              · rw [if_neg hfin, if_neg hfin]
                cases code.parser.parsed parser.cs with
                | nothing => exact handsOver_raised _ _ hstate
                | outboundKeepalive => exact handsOver_giveUp _ rfl
                | message m =>
                  refine handsOver_checkMessage ?_ m _ _
                  exact hstate

/-- A connection that has a message to process has it from `@msg`. -/
def Holds (c : UdpConnection σ) (x : Parsed) : Prop :=
  c.state = .finished → ∃ m, c.msg = some m ∧ x.Becomes m

/-- `receive_data` leaves the connection so, and `on_request` was called for the request in `@msg`. -/
def Settles (x : Parsed) (r : UdpConnection σ × World × List UdpOut) : Prop :=
  r.1.Holds x ∧
    (r.2.2.any UdpOut.isOnRequest = true → ∃ m, x = .message m ∧ m.isRequest = true)

theorem settles_finish {m : SipMessage} {x : Parsed} (hmsg : c.msg = some m) (hx : x.Becomes m) :
    Settles x (c.finish w) := by
  unfold finish
  rw [hmsg]
  dsimp only
  constructor
  · intro _
    split
    · exact ⟨m, hmsg, hx⟩
    · exact ⟨m, rfl, hx⟩
  · intro hcalled
    rw [List.any_map] at hcalled
    exact hx.isRequest (World.isRequest_of_isOnRequest hcalled)

theorem settles_run (hstate : c.state = .message) (x : Parsed) :
    Settles ((c.parses code peer).getD x) (c.run code w peer) := by
  have hparse : HandsOver (c.parses code peer) (c.parseMessage code peer) :=
    handsOver_parseMessage hstate
  obtain ⟨hquiet, hends⟩ := hparse
  unfold run
  dsimp only
  rcases hends with ⟨hagain, hnot⟩ | ⟨hagain, _, m, y, hmsg, hparses, hy⟩
  · rw [hagain, if_neg (by simp)]
    refine ⟨fun hfinished => absurd hfinished hnot, ?_⟩
    intro hcalled
    rw [hquiet] at hcalled
    cases hcalled
  · rw [hagain, if_pos rfl, hparses]
    obtain ⟨hholds, hcalls⟩ := settles_finish (w := w) hmsg hy
    refine ⟨hholds, ?_⟩
    intro hcalled
    rw [List.any_append, hquiet, Bool.false_or] at hcalled
    exact hcalls hcalled

theorem settles_receiveData {x : Parsed} (hx : c.Holds x) (data : Bytes) :
    Settles ((c.assigns code peer data).getD x) (c.receiveData code w peer data) := by
  unfold assigns receiveData
  dsimp only
  cases hstate : c.state with
  | init => exact settles_run rfl x
  | message => exact settles_run rfl x
  | finished =>
    obtain ⟨m, hmsg, hbecomes⟩ := hx hstate
    exact settles_finish hmsg hbecomes

end UdpConnection

/-- A UDP connection among the receivers. -/
def udpReceiver (code : UdpCode σ) (w : World) : Receiver where
  State := UdpListener σ
  Event := UdpEvent
  start := ⟨.new code, w⟩
  receive := UdpListener.receive code
  coherent := fun l x => l.conn.Holds x
  coherent_start := fun h => nomatch h
  coherent_receive := by
    intro l e l' r x h hx
    cases e with
    | datagram peer data =>
      obtain ⟨rfl, rfl⟩ := Prod.mk.inj (Option.some.inj h)
      exact (UdpConnection.settles_receiveData hx data).1
    | elsewhere w =>
      obtain ⟨rfl, rfl⟩ := Prod.mk.inj (Option.some.inj h)
      exact hx
  request_of_called := by
    intro l e l' r x h hx hcalled
    cases e with
    | datagram peer data =>
      obtain ⟨rfl, rfl⟩ := Prod.mk.inj (Option.some.inj h)
      exact (UdpConnection.settles_receiveData hx data).2 hcalled
    | elsewhere w =>
      obtain ⟨rfl, rfl⟩ := Prod.mk.inj (Option.some.inj h)
      cases hcalled

/-! ## TCP -/

namespace TcpConnection

variable {code : TcpCode σ} {c : TcpConnection σ}

/-- A connection that waits for a body or has a message to process has it from `@msg`. -/
def Holds (c : TcpConnection σ) (x : Parsed) : Prop :=
  match c.state with
  | .body m _ => x.Becomes m
  | .finished m => x.Becomes m
  | _ => True

/-- A branch of the `case` calls no callback and leaves the connection so. -/
def Quiet (x : Parsed) (r : TcpResult σ) : Prop :=
  r.out.any TcpOut.isOnRequest = false ∧ r.conn.Holds x

theorem quiet_giveUp (x : Parsed) {o : List TcpOut} (ho : o.any TcpOut.isOnRequest = false) :
    Quiet x (c.giveUp o) := by
  refine ⟨?_, trivial⟩
  show (o ++ [TcpOut.closeConnectionAfterWriting]).any TcpOut.isOnRequest = false
  rw [List.any_append, ho]
  rfl

theorem not_isOnRequest_reply (m : SipMessage) (statusCode : Nat) (reason : String) :
    (reply m statusCode reason).any TcpOut.isOnRequest = false := by
  unfold reply
  split <;> rfl

theorem quiet_checkMessage (hstate : c.state = .headers) (m : SipMessage) :
    Quiet (.message m) (c.checkMessage code m) := by
  -- what is left once the Via is rewritten
  have hrest : ∀ m', m'.kind = m.kind → Quiet (.message m)
      (if m'.via.branchRfc3261 = false then
          c.giveUp (reply m' 400 "Via branch non RFC 3261 compliant")
        else c.checkContentLength m') := by
    intro m' hkind
    split
    · exact quiet_giveUp _ (not_isOnRequest_reply _ _ _)
    · unfold checkContentLength
      split
      · split
        · exact ⟨rfl, m, rfl, hkind⟩
        · exact ⟨rfl, m, rfl, hkind⟩
      · exact quiet_giveUp _ (not_isOnRequest_reply _ _ _)
  unfold checkMessage
  split
  · exact quiet_giveUp _ rfl
  · by_cases hreq : m.isRequest = true
    · rw [if_pos hreq]
      rcases UdpConnection.addViaReceivedRport_spec m code.compareIps c.remoteIp c.remotePort with
        ⟨_, _, hadd⟩ | ⟨_, m', hadd, hlike⟩
      · rw [hadd]
        refine ⟨rfl, ?_⟩
        show Holds c _
        simp only [Holds, hstate]
      · rw [hadd]
        exact hrest m' hlike.kind
    · rw [if_neg hreq]
      exact hrest m rfl

theorem quiet_parseHeaders (hstate : c.state = .headers) (x : Parsed) :
    Quiet ((c.assigns code).getD x) (c.parseHeaders code) := by
  have hheaders : ∀ (c' : TcpConnection σ) y, c'.state = .headers → c'.Holds y := by
    intro c' y hc'
    simp only [Holds, hc']
  unfold assigns parseHeaders
  by_cases hnil : c.buffer = []
  · rw [if_pos hnil]
    exact ⟨rfl, hheaders c _ hstate⟩
  · rw [if_neg hnil, if_pos ⟨hstate, hnil⟩]
    cases code.parser.execute c.parser c.buffer c.parserNbytes with
    | error e => exact ⟨rfl, hheaders c _ hstate⟩
    | ok r =>
      obtain ⟨parser, _ | nbytes⟩ := r
      · exact quiet_giveUp _ rfl
      · dsimp only
        unfold checkParser
        by_cases hmax : HEADERS_MAX_SIZE < nbytes
        · rw [if_pos hmax, if_pos hmax]
          exact ⟨rfl, trivial⟩
        · rw [if_neg hmax, if_neg hmax]
          dsimp only
          by_cases hfin : code.parser.finished parser = false
          · rw [if_pos hfin, if_pos hfin]
            exact ⟨rfl, hheaders _ _ hstate⟩
          · rw [if_neg hfin, if_neg hfin]
            cases code.parser.parsed parser.cs with
            | nothing => exact ⟨rfl, hheaders _ _ hstate⟩
            | outboundKeepalive => exact ⟨rfl, trivial⟩
            | message m =>
              refine quiet_checkMessage ?_ m
              exact hstate

theorem finish_out (c : TcpConnection σ) (w : World) (m : SipMessage) :
    (c.finish w m).out = .process m :: (w.process m c.id c.transport).2.map .dispatch := by
  unfold finish
  dsimp only
  split <;> rfl

/-- A turn leaves the connection so, and `on_request` is called for the request in `@msg`. -/
theorem settles_turn {w : World} {x : Parsed} (hx : c.Holds x) :
    (c.turn code w).conn.Holds ((c.assigns code).getD x) ∧
      ((c.turn code w).out.any TcpOut.isOnRequest = true →
        ∃ m, (c.assigns code).getD x = .message m ∧ m.isRequest = true) := by
  have hquiet : ∀ {y : Parsed} {r : TcpResult σ}, Quiet y r →
      r.conn.Holds y ∧ (r.out.any TcpOut.isOnRequest = true → ∃ m, y = .message m ∧
        m.isRequest = true) := by
    intro y r hr
    refine ⟨hr.2, fun hcalled => ?_⟩
    rw [hr.1] at hcalled
    cases hcalled
  have hnone : c.state ≠ .headers → c.assigns code = none := by
    intro hne
    unfold assigns
    rw [if_neg fun h => hne h.1]
  unfold turn
  cases hstate : c.state with
  | headers => exact hquiet (quiet_parseHeaders hstate x)
  | init =>
    rw [hnone (by simp [hstate])]
    exact hquiet ⟨rfl, trivial⟩
  | ignore =>
    rw [hnone (by simp [hstate])]
    exact hquiet ⟨rfl, hx⟩
  | waitingForOnClientTlsHandshake =>
    rw [hnone (by simp [hstate])]
    exact hquiet ⟨rfl, hx⟩
  | body m n =>
    rw [hnone (by simp [hstate])]
    refine hquiet (y := x) (r := c.getBody m n) ?_
    unfold getBody
    by_cases hlen : c.buffer.length < n
    · rw [if_pos hlen]
      exact ⟨rfl, hx⟩
    · rw [if_neg hlen]
      unfold Holds at hx
      rw [hstate] at hx
      exact ⟨rfl, hx⟩
  | finished m =>
    rw [hnone (by simp [hstate])]
    have hbecomes : x.Becomes m := by
      unfold Holds at hx
      rw [hstate] at hx
      exact hx
    constructor
    · show (c.finish w m).conn.Holds x
      unfold finish
      dsimp only
      split
      · exact hx
      · trivial
    · intro hcalled
      replace hcalled : (c.finish w m).out.any TcpOut.isOnRequest = true := hcalled
      rw [finish_out, List.any_cons, List.any_map] at hcalled
      exact hbecomes.isRequest (World.isRequest_of_isOnRequest hcalled)

end TcpConnection

/-- A TCP connection among the receivers. -/
def tcpReceiver (code : TcpCode σ) (l : TcpListener σ) (h : l.conn.state = .init) : Receiver where
  State := TcpLoop σ
  Event := TcpLoopEvent
  start := ⟨l, false⟩
  receive := TcpLoop.receive code
  coherent := fun l x => l.listener.conn.Holds x
  coherent_start := by
    unfold TcpConnection.Holds
    rw [h]
    trivial
  coherent_receive := by
    intro l e l' r x hr hx
    cases e with
    | chunk data =>
      simp only [TcpLoop.receive] at hr
      split at hr
      · cases hr
      · split at hr
        · obtain ⟨rfl, rfl⟩ := Prod.mk.inj (Option.some.inj hr)
          exact hx
        · split at hr <;> obtain ⟨rfl, rfl⟩ := Prod.mk.inj (Option.some.inj hr) <;> exact hx
    | turn =>
      simp only [TcpLoop.receive] at hr
      split at hr
      · obtain ⟨rfl, rfl⟩ := Prod.mk.inj (Option.some.inj hr)
        exact (TcpConnection.settles_turn hx).1
      · cases hr
    | elsewhere w =>
      obtain ⟨rfl, rfl⟩ := Prod.mk.inj (Option.some.inj hr)
      exact hx
  request_of_called := by
    intro l e l' r x hr hx hcalled
    cases e with
    | chunk data =>
      simp only [TcpLoop.receive] at hr
      split at hr
      · cases hr
      · split at hr
        · obtain ⟨rfl, rfl⟩ := Prod.mk.inj (Option.some.inj hr)
          cases hcalled
        · split at hr <;> obtain ⟨rfl, rfl⟩ := Prod.mk.inj (Option.some.inj hr) <;> cases hcalled
    | turn =>
      simp only [TcpLoop.receive] at hr
      split at hr
      · obtain ⟨rfl, rfl⟩ := Prod.mk.inj (Option.some.inj hr)
        exact (TcpConnection.settles_turn hx).2 hcalled
      · cases hr
    | elsewhere w =>
      obtain ⟨rfl, rfl⟩ := Prod.mk.inj (Option.some.inj hr)
      cases hcalled

/-! ## WebSocket -/

namespace WsSipApp

theorem findSome_checkMessage {m m' : SipMessage} {rest : Bytes}
    (h : (checkMessage m rest).findSome? WsSipOut.processed = some m') : m'.kind = m.kind := by
  unfold checkMessage at h
  split at h
  · cases h
  · split at h
    · split at h <;> cases h
    · unfold getBody at h
      split at h
      · cases h
        rfl
      · split at h
        · split at h
          · cases h
          · cases h
            rfl
        · cases h
          rfl

/-- The message that is processed is the one in `@msg`. -/
theorem assigns_of_processed {parser : SipParser σ} {payload : Bytes} {m : SipMessage}
    (h : (processSipMessage parser payload).2.findSome? WsSipOut.processed = some m) :
    ∃ x, (processSipMessage parser payload).1 = some x ∧ x.Becomes m := by
  revert h
  unfold processSipMessage
  split
  · exact fun h => nomatch h
  · exact fun h => nomatch h
  · split
    · exact fun h => nomatch h
    · split
      · intro h
        exact ⟨_, rfl, _, rfl, findSome_checkMessage h⟩
      · exact fun h => nomatch h
      · exact fun h => nomatch h

end WsSipApp

/-- A `WsSipApp` among the receivers. -/
def wsReceiver (parser : SipParser σ) (connection : Nat) (transport : Transport) (w : World) :
    Receiver where
  State := World
  Event := WsSipEvent
  start := w
  receive := WsSipApp.receive parser connection transport
  coherent := fun _ _ => True
  coherent_start := trivial
  coherent_receive := fun _ _ => trivial
  request_of_called := by
    intro w e w' r x hr _ hcalled
    cases e with
    | message payload =>
      simp only [WsSipApp.receive] at hr
      split at hr
      · rename_i m hm
        obtain ⟨rfl, rfl⟩ := Prod.mk.inj (Option.some.inj hr)
        obtain ⟨y, hy, hbecomes⟩ := WsSipApp.assigns_of_processed hm
        rw [hy]
        exact hbecomes.isRequest (World.isRequest_of_isOnRequest hcalled)
      · obtain ⟨rfl, rfl⟩ := Prod.mk.inj (Option.some.inj hr)
        cases hcalled
    | elsewhere w =>
      obtain ⟨rfl, rfl⟩ := Prod.mk.inj (Option.some.inj hr)
      cases hcalled

/-! ## The three transports -/

/-- An object that receives messages, when nothing has arrived. -/
inductive MessageReceiver (σ : Type)
  | udp (code : UdpCode σ) (w : World)
  | tcp (code : TcpCode σ) (id : Nat) (transport : Transport) (remoteIp : String) (remotePort : Nat)
    (w : World)
  | ws (parser : SipParser σ) (connection : Nat) (transport : Transport) (w : World)

def MessageReceiver.receiver : MessageReceiver σ → Receiver
  | .udp code w => udpReceiver code w
  | .tcp code id transport remoteIp remotePort w =>
    tcpReceiver code ⟨.new code id transport remoteIp remotePort, w⟩ rfl
  | .ws parser connection transport w => wsReceiver parser connection transport w

/-- **The 500 for a callback that raises** is a reply to its own request, and no other request gets one,
exactly in the runs where nothing was parsed between the call of a suspended callback and its exception
(or an ACK is behind it, and what was parsed last cannot be replied to). -/
theorem MessageReceiver.errorIsolated_iff (k : MessageReceiver σ)
    {tr : List (StepRec (Fibers k.receiver) (FiberEvent k.receiver) FiberOut)} {s : Fibers k.receiver}
    (hrun : Run Fibers.step (Fibers.init k.receiver) tr s) :
    (∀ r ∈ tr, Fibers.ErrorIsolated r) ↔ ∀ r ∈ tr, Fibers.Undisturbed r :=
  Fibers.run_errorIsolated_iff hrun

/-! ## Two requests on a UDP connection -/

namespace MessageReceiver

/-- A UDP connection that gets requests. -/
def sample : MessageReceiver TextState := .udp UdpListener.sampleCode .empty

/-- A request whose callback is suspended and raises, with another one in between. -/
def disturbed : List (FiberEvent sample.receiver) :=
  [.receive (.datagram UdpListener.samplePeer UdpListener.branchText) .suspends,
    .receive (.datagram UdpListener.samplePeer UdpListener.branchText) .returns, .resume 0 .raises]

/-- The same without the other. -/
def undisturbed : List (FiberEvent sample.receiver) :=
  [.receive (.datagram UdpListener.samplePeer UdpListener.branchText) .suspends, .resume 0 .raises]

/-- The second request gets the 500 for the callback of the first. -/
theorem error_of_another : ∃ tr s, Run Fibers.step (Fibers.init sample.receiver) tr s ∧
    ¬ ∀ r ∈ tr, Fibers.ErrorIsolated r := by
  have hexec : (exec Fibers.step (Fibers.init sample.receiver) disturbed).map (fun p =>
      p.1.map fun r => (replied r.out, Fibers.owed (Fibers.raising r.pre r.ev))) =
      some [([], []), ([], []), ([1], [0])] := by
    decide +kernel
  obtain ⟨⟨tr, s⟩, hp, htr⟩ := Option.map_eq_some_iff.mp hexec
  refine ⟨tr, s, run_of_exec hp, ?_⟩
  intro hall
  have hmem : (([1], [0]) : List ℕ × List ℕ) ∈
      tr.map fun r => (replied r.out, Fibers.owed (Fibers.raising r.pre r.ev)) := by
    rw [htr]
    simp
  obtain ⟨r, hr, heq⟩ := List.mem_map.mp hmem
  obtain ⟨hreplied, howed⟩ := Prod.mk.inj heq
  have hbad := hall r hr
  rw [Fibers.ErrorIsolated, hreplied, howed] at hbad
  cases hbad

/-- A callback that is suspended while nothing arrives. -/
theorem errorIsolated_sample :
    ∃ tr : List (StepRec (Fibers sample.receiver) (FiberEvent sample.receiver) FiberOut),
      tr.length = 2 ∧ ∀ r ∈ tr, Fibers.ErrorIsolated r := by
  have hexec : (exec Fibers.step (Fibers.init sample.receiver) undisturbed).map (fun p =>
      p.1.map fun r => (r.pre.parsed.length, r.pre.suspended.map (·.number))) =
      some [(0, []), (1, [0])] := by
    decide +kernel
  obtain ⟨⟨tr, s⟩, hp, htr⟩ := Option.map_eq_some_iff.mp hexec
  have hlength : tr.length = 2 := by
    have := congrArg List.length htr
    simpa using this
  refine ⟨tr, hlength, (errorIsolated_iff sample (run_of_exec hp)).mpr ?_⟩
  intro r hr j q _ hq
  have hmem : (r.pre.parsed.length, r.pre.suspended.map (·.number)) ∈ [(0, []), (1, [0])] :=
    htr ▸ List.mem_map_of_mem hr
  have hnumber := List.mem_map_of_mem (f := (·.number)) (List.mem_of_getElem? hq)
  left
  rcases List.mem_cons.mp hmem with heq | hmem
  · rw [(Prod.mk.inj heq).2] at hnumber
    cases hnumber
  · obtain ⟨hparsed, hsuspended⟩ := Prod.mk.inj (List.mem_singleton.mp hmem)
    rw [hsuspended] at hnumber
    rw [hparsed, List.mem_singleton.mp hnumber]

end MessageReceiver

end OverSip
