import OverSip.Sip.DispatchTheorems
import OverSip.Sip.UdpConnection

/-!
# One datagram does not depend on another

A datagram finds the connection ready, with an empty buffer and a parser to be reset or just reset, and
leaves it so. `isolated_iff` says for which runs this is so, raises nothing and makes each datagram do
what it would do first: those without a `Hazard`, a datagram that raises in `add_via_received_rport` or
while its message is processed.
-/

namespace OverSip

variable {σ : Type}

/-- The bytes behind the headers are what Content-Length announces. -/
def BodyFits (m : SipMessage) (rest : Bytes) : Prop :=
  match m.contentLength with
  | some cl => if 0 < cl then cl = rest.length else rest = []
  | none => rest = []

/-- The message of a datagram, the bytes behind its headers and the address it comes from. -/
def UdpCode.messageOf (code : UdpCode σ) (peer : Peer) (data : Bytes) :
    Option (SipMessage × Bytes × String × Nat) :=
  if data = [] ∨ data = CRLF then none
  else
    match peer with
    | none => none
    | some (ip, port) =>
      if code.parseStun data ip port = .notStun then
        match code.parser.execute code.parser.reset data (some 0) with
        | .ok (parser, some nbytes) =>
          if code.parser.finished parser then
            match code.parser.parsed parser.cs with
            | .message m => some (m, data.drop nbytes, ip, port)
            | _ => none
          else none
        | _ => none
      else none

/-- A datagram whose handling raises. -/
inductive Hazard (code : UdpCode σ) (w : World) (peer : Peer) (data : Bytes) : Prop
  /-- A request whose top Via needs a `received` and has no branch. -/
  | noBranch {m : SipMessage} {rest : Bytes} {ip : String} {port : Nat} :
      code.messageOf peer data = some (m, rest, ip, port) → m.valid = true → m.isRequest = true →
      m.viaReceived code.compareIps ip ≠ none → m.via.branch = none → Hazard code w peer data
  /-- A message that is processed and whose processing raises. -/
  | process {m : SipMessage} {rest : Bytes} {ip : String} {port : Nat} :
      code.messageOf peer data = some (m, rest, ip, port) → m.valid = true →
      m.via.branchRfc3261 = true → BodyFits m rest → w.Raises m → Hazard code w peer data

namespace UdpConnection

variable {code : UdpCode σ} {c : UdpConnection σ} {w : World} {peer : Peer} {data : Bytes}

/-- Ready for a datagram. -/
def Ready (code : UdpCode σ) (c : UdpConnection σ) : Prop :=
  c.buffer = [] ∧
    (c.state = .init ∨
      c.state = .message ∧ c.parser = code.parser.reset ∧ c.parserNbytes = some 0)

theorem ready_new (code : UdpCode σ) : (new code).Ready code := ⟨rfl, .inl rfl⟩

theorem ready_giveUp (o : List UdpOut) : (c.giveUp o).conn.Ready code := ⟨rfl, .inl rfl⟩

/-! ## The message of the last datagram is not read -/

/-- The same but for `@msg`, which the next message overwrites. -/
structure SameBut (r r' : UdpResult σ) : Prop where
  out : r.out = r'.out
  again : r.again = r'.again
  conn : r.again = true → r.conn = r'.conn

theorem SameBut.refl (r : UdpResult σ) : SameBut r r := ⟨rfl, rfl, fun _ => rfl⟩

theorem sameBut_giveUp (x : Option SipMessage) (o : List UdpOut) :
    SameBut ({ c with msg := x }.giveUp o) (c.giveUp o) :=
  ⟨rfl, rfl, fun h => by cases h⟩

theorem sameBut_raised (x : Option SipMessage) (e : RubyError) :
    SameBut ({ c with msg := x }.raised e) (c.raised e) :=
  ⟨rfl, rfl, fun h => by cases h⟩

theorem sameBut_parseSip (x : Option SipMessage) (ip : String) (port : Nat) :
    SameBut ({ c with msg := x }.parseSip code ip port) (c.parseSip code ip port) := by
  unfold parseSip
  dsimp only
  split
  · exact sameBut_raised x _
  · exact sameBut_giveUp (c := { c with parser := _, parserNbytes := none }) x []
  · rename_i parser nbytes _
    split
    · exact sameBut_giveUp (c := { c with parser := parser, parserNbytes := some nbytes }) x []
    · split
      · exact .refl _
      · exact sameBut_giveUp (c := { c with parser := parser, parserNbytes := some nbytes }) x _
      · exact sameBut_raised (c := { c with parser := parser, parserNbytes := some nbytes }) x _

theorem sameBut_parseMessage (x : Option SipMessage) :
    SameBut ({ c with msg := x }.parseMessage code peer) (c.parseMessage code peer) := by
  unfold parseMessage
  dsimp only
  by_cases hnil : c.buffer = []
  · rw [if_pos hnil, if_pos hnil]
    exact ⟨rfl, rfl, fun h => by cases h⟩
  · rw [if_neg hnil, if_neg hnil]
    by_cases hcrlf : c.buffer = CRLF
    · rw [if_pos hcrlf, if_pos hcrlf]
      exact sameBut_giveUp x []
    · rw [if_neg hcrlf, if_neg hcrlf]
      cases peer with
      | none => exact sameBut_giveUp x []
      | some a =>
        obtain ⟨ip, port⟩ := a
        dsimp only
        cases code.parseStun c.buffer ip port with
        | notStun => exact sameBut_parseSip x ip port
        | invalid => exact sameBut_giveUp x []
        | response r => exact sameBut_giveUp x _

/-- The connection that has just reset its parser, with a datagram in its buffer. -/
def fresh (code : UdpCode σ) (data : Bytes) (msg : Option SipMessage) : UdpConnection σ :=
  { state := .message, buffer := data, parser := code.parser.reset, parserNbytes := some 0, msg }

theorem receiveData_of_ready (h : c.Ready code) :
    c.receiveData code w peer data = (fresh code data c.msg).run code w peer := by
  obtain ⟨hbuffer, hstate | ⟨hstate, hparser, hnbytes⟩⟩ := h
  · unfold receiveData
    rw [hbuffer]
    simp only [hstate, List.nil_append]
    rfl
  · unfold receiveData
    rw [hbuffer]
    simp only [hstate, List.nil_append]
    rw [fresh, ← hparser, ← hnbytes, ← hstate]

/-- What a datagram does depends on the message of the one before in nothing that is put out. -/
theorem run_fresh_out (code : UdpCode σ) (data : Bytes) (x y : Option SipMessage) :
    ((fresh code data x).run code w peer).2 = ((fresh code data y).run code w peer).2 := by
  have h : SameBut ({ fresh code data y with msg := x }.parseMessage code peer)
      ((fresh code data y).parseMessage code peer) := sameBut_parseMessage x
  have hx : { fresh code data y with msg := x } = fresh code data x := rfl
  rw [hx] at h
  unfold run
  dsimp only
  rw [h.out, h.again]
  by_cases ha : ((fresh code data y).parseMessage code peer).again = true
  · rw [if_pos ha, if_pos ha, h.conn (h.again.trans ha)]
  · rw [if_neg ha, if_neg ha]

/-! ## The ends of `parse_message` -/

/-- `m'` is `m` with what a connection adds to it. -/
structure Like (m m' : SipMessage) : Prop where
  kind : m'.kind = m.kind
  method : m'.method = m.method
  via : m'.via = m.via
  slReplyToTag : m'.slReplyToTag = m.slReplyToTag
  contentLength : m'.contentLength = m.contentLength

theorem Like.raises {m m' : SipMessage} (h : Like m m') : w.Raises m' ↔ w.Raises m := by
  have hid : m'.viaBranchId = m.viaBranchId := by
    unfold SipMessage.viaBranchId
    rw [h.via]
  constructor
  · intro hr
    cases hr with
    | shortBranch hk hnone hc hack hs =>
      rw [h.kind] at hk
      rw [hid] at hnone
      rw [h.method] at hc hack
      rw [h.slReplyToTag] at hack
      exact .shortBranch hk hnone hc hack hs
    | responseToCancel hk hc hsome ht hs hunsent =>
      exact .responseToCancel (h.kind ▸ hk) (h.method ▸ hc) (hid ▸ hsome) ht hs hunsent
    | cancel hk hc hsome hl htx ht hs hcore hnone =>
      exact .cancel (h.kind ▸ hk) (h.method ▸ hc) (hid ▸ hsome) hl htx ht hs hcore hnone
  · intro hr
    cases hr with
    | shortBranch hk hnone hc hack hs =>
      rw [← h.kind] at hk
      rw [← hid] at hnone
      rw [← h.method] at hc hack
      rw [← h.slReplyToTag] at hack
      exact .shortBranch hk hnone hc hack hs
    | responseToCancel hk hc hsome ht hs hunsent =>
      exact .responseToCancel (h.kind ▸ hk) (h.method ▸ hc) (hid ▸ hsome) ht hs hunsent
    | cancel hk hc hsome hl htx ht hs hcore hnone =>
      exact .cancel (h.kind ▸ hk) (h.method ▸ hc) (hid ▸ hsome) hl htx ht hs hcore hnone

/-- A part of `parse_message` ends ready and without an exception. -/
def Quiet (code : UdpCode σ) (r : UdpResult σ) : Prop :=
  r.again = false ∧ r.out.any UdpOut.isRaise = false ∧ r.conn.Ready code

/-- A part of `parse_message` ends with a message like `m` to be processed. -/
def Hands (m : SipMessage) (r : UdpResult σ) : Prop :=
  r.again = true ∧ r.out = [] ∧ r.conn.buffer = [] ∧ r.conn.state = .finished ∧
    ∃ m', r.conn.msg = some m' ∧ Like m m'

/-- A part of `parse_message` ends with an exception. -/
def Breaks (r : UdpResult σ) : Prop := r.again = false ∧ r.out.any UdpOut.isRaise = true

theorem not_raise_reply (m : SipMessage) (statusCode : Nat) (reason : String) :
    (reply m statusCode reason).any UdpOut.isRaise = false := by
  unfold reply
  split <;> rfl

theorem quiet_giveUp {o : List UdpOut} (ho : o.any UdpOut.isRaise = false) :
    Quiet code (c.giveUp o) :=
  ⟨rfl, ho, ready_giveUp o⟩

theorem checkNoBody_spec {m m' : SipMessage} (hm : Like m m') :
    c.buffer = [] ∧ Hands m (c.checkNoBody m') ∨ c.buffer ≠ [] ∧ Quiet code (c.checkNoBody m') := by
  unfold checkNoBody
  by_cases hb : c.buffer = []
  · rw [if_pos (by rw [hb]; rfl)]
    exact .inl ⟨hb, rfl, rfl, hb, rfl, m', rfl, hm⟩
  · rw [if_neg (by simpa using hb)]
    exact .inr ⟨hb, quiet_giveUp (not_raise_reply _ _ _)⟩

theorem checkBody_spec (code : UdpCode σ) (c : UdpConnection σ) {m m' : SipMessage} (hm : Like m m') :
    BodyFits m c.buffer ∧ Hands m (c.checkBody m') ∨
      ¬ BodyFits m c.buffer ∧ Quiet code (c.checkBody m') := by
  unfold checkBody BodyFits
  rw [hm.contentLength]
  cases hcl : m.contentLength with
  | none => exact checkNoBody_spec hm
  | some cl =>
    dsimp only
    by_cases hpos : 0 < cl
    · rw [if_pos hpos, if_pos hpos]
      by_cases hlen : cl = c.buffer.length
      · rw [if_pos hlen]
        refine .inl ⟨hlen, rfl, rfl, rfl, rfl, _, rfl, ?_⟩
        exact ⟨hm.kind, hm.method, hm.via, hm.slReplyToTag, hcl.symm⟩
      · rw [if_neg hlen]
        refine .inr ⟨hlen, ?_⟩
        split
        · exact quiet_giveUp rfl
        · exact quiet_giveUp (not_raise_reply _ _ _)
    · rw [if_neg hpos, if_neg hpos]
      exact checkNoBody_spec hm

/-- `add_via_received_rport` raises for want of a branch, and changes nothing that the processing looks
at. -/
theorem addViaReceivedRport_spec (m : SipMessage) (compareIps : String → String → Bool) (ip : String)
    (port : Nat) :
    (m.viaReceived compareIps ip ≠ none ∧ m.via.branch = none ∧
        m.addViaReceivedRport compareIps ip port = .error .noMethodError) ∨
      ¬ (m.viaReceived compareIps ip ≠ none ∧ m.via.branch = none) ∧
        ∃ m', m.addViaReceivedRport compareIps ip port = .ok m' ∧ Like m m' := by
  have hset : ∀ m' : SipMessage,
      (if m.via.hasRport then { m with viaRport := some port } else m) = m' →
        Like m m' ∧ m'.viaReceived compareIps ip = m.viaReceived compareIps ip := by
    rintro m' rfl
    split
    · exact ⟨⟨rfl, rfl, rfl, rfl, rfl⟩, rfl⟩
    · exact ⟨⟨rfl, rfl, rfl, rfl, rfl⟩, rfl⟩
  unfold SipMessage.addViaReceivedRport
  dsimp only
  generalize (if m.via.hasRport then { m with viaRport := some port } else m) = m₁ at hset ⊢
  obtain ⟨hlike, hreceived⟩ := hset m₁ rfl
  rw [← hreceived]
  cases hr : m₁.viaReceived compareIps ip with
  | none => exact .inr ⟨fun h => h.1 rfl, m₁, rfl, hlike⟩
  | some received =>
    rw [← hlike.via]
    cases hb : m₁.via.branch with
    | none => exact .inl ⟨by simp, rfl, rfl⟩
    | some branch =>
      refine .inr ⟨by simp, _, rfl, ?_⟩
      exact ⟨hlike.kind, hlike.method, hlike.via, hlike.slReplyToTag, hlike.contentLength⟩

/-- The request lacks the branch that `add_via_received_rport` writes. -/
def LacksBranch (code : UdpCode σ) (m : SipMessage) (ip : String) : Prop :=
  m.valid = true ∧ m.isRequest = true ∧ m.viaReceived code.compareIps ip ≠ none ∧
    m.via.branch = none

/-- The message is handed over for processing. -/
def Accepted (m : SipMessage) (rest : Bytes) : Prop :=
  m.valid = true ∧ m.via.branchRfc3261 = true ∧ BodyFits m rest

theorem Accepted.not_lacksBranch {m : SipMessage} {rest : Bytes} {ip : String}
    (h : Accepted m rest) : ¬ LacksBranch code m ip :=
  fun hl => m.via.branch_of_rfc3261 h.2.1 hl.2.2.2

theorem checkMessage_spec (code : UdpCode σ) (m : SipMessage) (ip : String) (port : Nat) :
    LacksBranch code m ip ∧ Breaks (c.checkMessage code m ip port) ∨
      Accepted m c.buffer ∧ Hands m (c.checkMessage code m ip port) ∨
      (¬ LacksBranch code m ip ∧ ¬ Accepted m c.buffer ∧ Quiet code (c.checkMessage code m ip port)) := by
  unfold checkMessage
  by_cases hv : m.valid = false
  · rw [if_pos hv]
    refine .inr (.inr ⟨?_, ?_, quiet_giveUp rfl⟩)
    · exact fun h => by rw [h.1] at hv; cases hv
    · exact fun h => by rw [h.1] at hv; cases hv
  · rw [if_neg hv]
    have hvalid : m.valid = true := by simpa using hv
    -- what is left once the Via is rewritten
    have hrest : ∀ m', Like m m' → ¬ LacksBranch code m ip →
        Accepted m c.buffer ∧ Hands m (if m'.via.branchRfc3261 = false then
            { c with msg := some m' }.giveUp (reply m' 400 "Via branch non RFC 3261 compliant")
          else { c with msg := some m' }.checkBody m') ∨
        (¬ LacksBranch code m ip ∧ ¬ Accepted m c.buffer ∧
          Quiet code (if m'.via.branchRfc3261 = false then
              { c with msg := some m' }.giveUp (reply m' 400 "Via branch non RFC 3261 compliant")
            else { c with msg := some m' }.checkBody m')) := by
      intro m' hlike hno
      rw [hlike.via]
      by_cases hrfc : m.via.branchRfc3261 = false
      · rw [if_pos hrfc]
        refine .inr ⟨hno, fun h => ?_, quiet_giveUp (not_raise_reply _ _ _)⟩
        rw [h.2.1] at hrfc
        cases hrfc
      · rw [if_neg hrfc]
        have hrfc' : m.via.branchRfc3261 = true := by simpa using hrfc
        rcases checkBody_spec code { c with msg := some m' } hlike with
          ⟨hfits, hhands⟩ | ⟨hfits, hquiet⟩
        · exact .inl ⟨⟨hvalid, hrfc', hfits⟩, hhands⟩
        · exact .inr ⟨hno, fun h => hfits h.2.2, hquiet⟩
    by_cases hreq : m.isRequest = true
    · rw [if_pos hreq]
      rcases addViaReceivedRport_spec m code.compareIps ip port with ⟨hr, hb, hadd⟩ | ⟨hno, m', hadd, hlike⟩
      · rw [hadd]
        exact .inl ⟨⟨hvalid, hreq, hr, hb⟩, rfl, rfl⟩
      · rw [hadd]
        exact .inr (hrest m' hlike fun h => hno ⟨h.2.2.1, h.2.2.2⟩)
    · rw [if_neg hreq]
      exact .inr (hrest m ⟨rfl, rfl, rfl, rfl, rfl⟩ fun h => hreq h.2.1)

/-- A parser that has been reset takes any bytes. -/
theorem execute_reset (p : SipParser σ) (h : data ≠ []) :
    ∃ parser nbytes, p.execute p.reset data (some 0) = .ok (parser, nbytes) := by
  have hlen : ¬ data.length ≤ 0 := by
    rw [Nat.le_zero, List.length_eq_zero_iff]
    exact h
  unfold SipParser.execute
  dsimp only
  rw [if_neg hlen]
  exact ⟨_, _, rfl⟩

/-- What `parse_message` does with a datagram is decided by the message in it. -/
theorem parseMessage_spec (code : UdpCode σ) (peer : Peer) (data : Bytes) (msg : Option SipMessage) :
    (∃ m rest ip port, code.messageOf peer data = some (m, rest, ip, port) ∧
        (LacksBranch code m ip ∧ Breaks ((fresh code data msg).parseMessage code peer) ∨
          Accepted m rest ∧ Hands m ((fresh code data msg).parseMessage code peer) ∨
          (¬ LacksBranch code m ip ∧ ¬ Accepted m rest ∧
            Quiet code ((fresh code data msg).parseMessage code peer)))) ∨
      code.messageOf peer data = none ∧ Quiet code ((fresh code data msg).parseMessage code peer) := by
  unfold parseMessage UdpCode.messageOf
  by_cases hnil : data = []
  · rw [if_pos (show (fresh code data msg).buffer = [] from hnil), if_pos (.inl hnil)]
    exact .inr ⟨rfl, rfl, rfl, hnil, .inr ⟨rfl, rfl, rfl⟩⟩
  · rw [if_neg (show ¬ (fresh code data msg).buffer = [] from hnil)]
    by_cases hcrlf : data = CRLF
    · rw [if_pos (show (fresh code data msg).buffer = CRLF from hcrlf), if_pos (.inr hcrlf)]
      exact .inr ⟨rfl, quiet_giveUp rfl⟩
    · rw [if_neg (show ¬ (fresh code data msg).buffer = CRLF from hcrlf), if_neg (by simp [hnil, hcrlf])]
      cases peer with
      | none => exact .inr ⟨rfl, quiet_giveUp rfl⟩
      | some a =>
        obtain ⟨ip, port⟩ := a
        dsimp only
        rw [show (fresh code data msg).buffer = data from rfl]
        cases hstun : code.parseStun data ip port with
        | invalid => exact .inr ⟨by simp, quiet_giveUp rfl⟩
        | response r => exact .inr ⟨by simp, quiet_giveUp rfl⟩
        | notStun =>
          rw [if_pos rfl]
          unfold parseSip
          rw [show (fresh code data msg).parser = code.parser.reset from rfl,
            show (fresh code data msg).parserNbytes = some 0 from rfl,
            show (fresh code data msg).buffer = data from rfl]
          obtain ⟨parser, nbytes, hex⟩ := execute_reset code.parser hnil
          rw [hex]
          cases nbytes with
          | none => exact .inr ⟨rfl, quiet_giveUp rfl⟩
          | some nbytes =>
            dsimp only
            cases hf : code.parser.finished parser with
            | false =>
              rw [if_pos rfl, if_neg (by simp)]
              exact .inr ⟨rfl, quiet_giveUp rfl⟩
            | true =>
              simp only [Bool.true_eq_false, if_false, if_true]
              cases hp : code.parser.parsed parser.cs with
              | nothing => exact absurd hp (code.parser.parsed_of_done _ hf)
              | outboundKeepalive => exact .inr ⟨rfl, quiet_giveUp rfl⟩
              | message m =>
                exact .inl ⟨m, _, ip, port, rfl, checkMessage_spec code m ip port⟩

/-! ## The law -/

/-- A datagram raises exactly if it is a hazard, and leaves the connection ready if it is none. -/
theorem run_fresh_spec (code : UdpCode σ) (w : World) (peer : Peer) (data : Bytes)
    (msg : Option SipMessage) :
    Hazard code w peer data ∧
        ((fresh code data msg).run code w peer).2.2.any UdpOut.isRaise = true ∨
      ¬ Hazard code w peer data ∧
        ((fresh code data msg).run code w peer).2.2.any UdpOut.isRaise = false ∧
        ((fresh code data msg).run code w peer).1.Ready code := by
  have hquiet : Quiet code ((fresh code data msg).parseMessage code peer) →
      ((fresh code data msg).run code w peer).2.2.any UdpOut.isRaise = false ∧
        ((fresh code data msg).run code w peer).1.Ready code := by
    intro ⟨hagain, hout, hready⟩
    unfold run
    dsimp only
    rw [if_neg (by simp [hagain])]
    exact ⟨hout, hready⟩
  rcases parseMessage_spec code peer data msg with ⟨m, rest, ip, port, hm, h⟩ | ⟨hnone, h⟩
  · rcases h with ⟨hl, hagain, hraise⟩ | ⟨ha, hhands⟩ | ⟨hl, ha, hq⟩
    · refine .inl ⟨.noBranch hm hl.1 hl.2.1 hl.2.2.1 hl.2.2.2, ?_⟩
      unfold run
      dsimp only
      rw [if_neg (by simp [hagain])]
      exact hraise
    · have hnot : ¬ LacksBranch code m ip := ha.not_lacksBranch
      obtain ⟨hagain, hout, hbuffer, hstate, m', hm', hlike⟩ := hhands
      have hraises := w.raises_iff m' 0 .udp
      rw [hlike.raises] at hraises
      have hany : ((fresh code data msg).run code w peer).2.2.any UdpOut.isRaise =
          (w.process m' 0 .udp).2.any DispatchOut.isRaise := by
        unfold run finish
        dsimp only
        rw [if_pos hagain, hout, hm', List.nil_append, List.any_map]
        rfl
      by_cases hr : w.Raises m
      · refine .inl ⟨.process hm ha.1 ha.2.1 ha.2.2 hr, ?_⟩
        rw [hany]
        exact hraises.mpr hr
      · have hno : (w.process m' 0 .udp).2.any DispatchOut.isRaise = false := by
          rw [← Bool.not_eq_true]
          exact fun h => hr (hraises.mp h)
        refine .inr ⟨?_, by rw [hany, hno], ?_⟩
        · intro hh
          cases hh with
          | noBranch hm₂ hv hreq hrec hb =>
            obtain ⟨rfl, rfl, rfl, rfl⟩ := by simpa using hm.symm.trans hm₂
            exact hnot ⟨hv, hreq, hrec, hb⟩
          | process hm₂ _ _ _ hr₂ =>
            obtain ⟨rfl, rfl, rfl, rfl⟩ := by simpa using hm.symm.trans hm₂
            exact hr hr₂
        · unfold run finish
          dsimp only
          rw [if_pos hagain, hm']
          dsimp only
          rw [if_neg (by rw [hno]; simp)]
          exact ⟨hbuffer, .inl rfl⟩
    · refine .inr ⟨?_, hquiet hq⟩
      intro hh
      cases hh with
      | noBranch hm₂ hv hreq hrec hb =>
        obtain ⟨rfl, rfl, rfl, rfl⟩ := by simpa using hm.symm.trans hm₂
        exact hl ⟨hv, hreq, hrec, hb⟩
      | process hm₂ hv hb hfits _ =>
        obtain ⟨rfl, rfl, rfl, rfl⟩ := by simpa using hm.symm.trans hm₂
        exact ha ⟨hv, hb, hfits⟩
  · refine .inr ⟨?_, hquiet h⟩
    intro hh
    cases hh with
    | noBranch hm₂ => rw [hnone] at hm₂; cases hm₂
    | process hm₂ => rw [hnone] at hm₂; cases hm₂

end UdpConnection

namespace UdpListener

variable {code : UdpCode σ}

/-- The step raises nothing, leaves the connection ready, and does with a datagram what a new connection
would do with it. -/
structure Isolated (code : UdpCode σ) (r : StepRec (UdpListener σ) UdpEvent UdpOut) : Prop where
  noRaise : r.out.any UdpOut.isRaise = false
  ready : r.post.conn.Ready code
  independent : ∀ peer data, r.ev = .datagram peer data →
    ((UdpConnection.new code).receiveData code r.pre.world peer data).2 = (r.post.world, r.out)

theorem not_isolated_of_raise {l l' : UdpListener σ} {ev : UdpEvent} {o : List UdpOut} {e : RubyError}
    (hout : o = [.raise e]) : ¬ Isolated code ⟨l, ev, o, l'⟩ := by
  intro hisolated
  subst hout
  cases hisolated.noRaise

/-- The datagram of the step, if there is one, is no hazard. -/
def Harmless (code : UdpCode σ) (l : UdpListener σ) (ev : UdpEvent) : Prop :=
  ∀ peer data, ev = .datagram peer data → ¬ Hazard code l.world peer data

theorem step_datagram (l : UdpListener σ) (peer : Peer) (data : Bytes) :
    step code l (.datagram peer data) =
      some ({ conn := (l.conn.receiveData code l.world peer data).1
              world := (l.conn.receiveData code l.world peer data).2.1 },
        (l.conn.receiveData code l.world peer data).2.2) := rfl

/-- From a ready connection, a step is isolated exactly if its datagram is no hazard. -/
theorem isolated_iff_of_ready {r : StepRec (UdpListener σ) UdpEvent UdpOut}
    (hs : step code r.pre r.ev = some (r.post, r.out)) (hready : r.pre.conn.Ready code) :
    Isolated code r ↔ Harmless code r.pre r.ev := by
  cases hev : r.ev with
  | elsewhere w =>
    rw [hev] at hs
    obtain ⟨hpost, hout⟩ := Prod.mk.inj (Option.some.inj hs)
    constructor
    · intro _ peer data h
      cases h
    · intro _
      refine ⟨by rw [← hout]; rfl, by rw [← hpost]; exact hready, fun peer data h => ?_⟩
      rw [hev] at h
      cases h
  | datagram peer data =>
    rw [hev, step_datagram, UdpConnection.receiveData_of_ready hready] at hs
    obtain ⟨hpost, hout⟩ := Prod.mk.inj (Option.some.inj hs)
    have hspec := UdpConnection.run_fresh_spec code r.pre.world peer data r.pre.conn.msg
    constructor
    · intro hi peer' data' heq hh
      cases heq
      rcases hspec with ⟨_, hraise⟩ | ⟨hno, _⟩
      · have := hi.noRaise
        rw [← hout, hraise] at this
        cases this
      · exact hno hh
    · intro hh
      rcases hspec with ⟨hhazard, _⟩ | ⟨_, hquiet, hpostReady⟩
      · exact absurd hhazard (hh peer data rfl)
      · refine ⟨by rw [← hout]; exact hquiet, by rw [← hpost]; exact hpostReady, ?_⟩
        intro peer' data' heq
        rw [hev] at heq
        cases heq
        rw [UdpConnection.receiveData_of_ready (UdpConnection.ready_new code),
          UdpConnection.run_fresh_out code data _ r.pre.conn.msg, ← hpost, ← hout]

/-- An OPTIONS whose top Via has an `rport` and no branch. -/
def noBranchText : Bytes :=
  ascii "OPTIONS sip:a SIP/2.0\r\nv:SIP/2.0/UDP c;rport\r\nf:sip:b\r\nt:sip:a\r\ni:1\r\nCSeq:1 OPTIONS\r\n\r\n"

def noBranchMessage : SipMessage :=
  { kind := .request, method := .other "OPTIONS", missingCoreHeader := none
    duplicatedCoreHeader := none, contentLength := none, toTag := none, slReplyToTag := false
    reasons := [], antiloopId := "", hdrVia := ["SIP/2.0/UDP c;rport"]
    via :=
      { coreValue := "SIP/2.0/UDP c", sentByHost := "c", sentByPort := none
        branch := none, branchRfc3261 := false, hasRport := true, hasAlias := false, params := none
        branch_of_rfc3261 := by simp } }

/-- The same with a branch. -/
def branchText : Bytes :=
  ascii "OPTIONS sip:a SIP/2.0\r\nv:SIP/2.0/UDP c;branch=z9hG4bK1\r\nf:sip:b\r\nt:sip:a\r\ni:1\r\nCSeq:1 OPTIONS\r\n\r\n"

def branchMessage : SipMessage :=
  { noBranchMessage with
    hdrVia := ["SIP/2.0/UDP c;branch=z9hG4bK1"]
    via :=
      { noBranchMessage.via with
        branch := some "z9hG4bK1", branchRfc3261 := true, hasRport := false
        branch_of_rfc3261 := fun _ => Option.some_ne_none _ } }

/-- The native code on the two texts. -/
def sampleCode : UdpCode TextState :=
  { parser := textParser
      [(noBranchText, .message noBranchMessage), (branchText, .message branchMessage)] (by simp)
    parseStun := fun _ _ _ => .notStun
    compareIps := fun a b => a == b }

def samplePeer : Peer := some ("192.0.2.9", 5060)

/-- A connection of the sample after a datagram, and what it puts out. -/
def afterDatagram (l : UdpListener TextState) (data : Bytes) : UdpListener TextState × List UdpOut :=
  ({ conn := (l.conn.receiveData sampleCode l.world samplePeer data).1
     world := (l.conn.receiveData sampleCode l.world samplePeer data).2.1 },
    (l.conn.receiveData sampleCode l.world samplePeer data).2.2)

theorem step_afterDatagram (l : UdpListener TextState) (data : Bytes) :
    step sampleCode l (.datagram samplePeer data) =
      some ((afterDatagram l data).1, (afterDatagram l data).2) := rfl

/-- The listener when OverSIP starts. -/
def sampleListener : UdpListener TextState := ⟨.new sampleCode, .empty⟩

/-- What the connection of the sample does with the two texts, and with the good one alone. -/
theorem afterDatagram_texts :
    (afterDatagram sampleListener noBranchText).2 = [.raise .noMethodError] ∧
      (afterDatagram (afterDatagram sampleListener noBranchText).1 branchText).2 = [] ∧
      (afterDatagram sampleListener branchText).2 = [.dispatch (.processor (.onRequest
        (branchMessage.toIncomingRequest "1" 0 .udp)))] ∧
      sampleCode.messageOf samplePeer branchText =
        some (branchMessage, [], "192.0.2.9", 5060) := by
  decide +kernel

end UdpListener

end OverSip
