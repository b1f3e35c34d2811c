import OverSip.Lib.History
import OverSip.Utils.HaproxyProtocol
import OverSip.WebSocket.WsUpgradeSegmentation

/-!
# WebSocket connections of the TLS tunnel

The class `WssTunnelServer` (`wss_tunnel_server.rb`): a `WsServer` whose stream begins with the line of the
HAProxy Protocol. As in a `TlsTunnelConnection`, the line is looked for in the buffer as it is when the
first data arrives.

`framed_iff` says when the stream in chunks comes to what it comes to in one chunk: the first chunk holds
the line, and no chunk arrives while the loop of the framing has stalled with bytes that it then looks at.
-/

namespace OverSip

variable {η α : Type}

/-- A `WssTunnelServer`: `conn` is what it inherits. -/
structure WssTunnelServer (η α : Type) where
  conn : WsUpgrade η α
  haproxyProtocolParsed : Bool
  remoteIpType : Option IpType
  remoteIp : String
  remotePort : Nat

namespace WssTunnelServer

variable (code : WsCode η) (cfg : WsConfig) (app : SipApp α) (env : WsEnv) (t : WssTunnelServer η α)

/-- An accepted connection, with the address of the tunnel for the time being. -/
def new (a : α) (tunnelIp : String) (tunnelPort : Nat) : WssTunnelServer η α :=
  { conn := .new code a, haproxyProtocolParsed := false, remoteIpType := none, remoteIp := tunnelIp
    remotePort := tunnelPort }

/-- The states `:init` and `:haproxy_protocol`, with `parse_haproxy_protocol`, and then the loop goes on in
`:http_headers`. -/
def readProxyLine : WssTunnelServer η α × List WsUpgradeOut :=
  let conn := { t.conn with parser := code.parser.reset, parserNbytes := some 0 }
  match parseHaproxyProtocol conn.conn.buffer with
  | some data =>
    let conn :=
      { conn with
        state := .httpHeaders
        conn := { conn.conn with buffer := conn.conn.buffer.drop data.totalLen } }
    let (conn, o) := conn.processReceivedData code cfg app env
    ({ conn
       haproxyProtocolParsed := true
       remoteIpType := some data.ipType
       remoteIp := data.ip
       remotePort := data.port }, o)
  | none =>
    ({ t with conn := { conn with state := .ignore, localClosed := true } }, [.closeConnectionAfterWriting])

/-- `receive_data` with `process_received_data`. But for the line they are those of `WsServer`: that the
state `:websocket` returns when the buffer is empty saves the framing a turn that waits. -/
def receiveData (data : Bytes) : WssTunnelServer η α × List WsUpgradeOut :=
  if t.conn.state = .init ∧ t.haproxyProtocolParsed = false then
    { t with conn := t.conn.push data }.readProxyLine code cfg app env
  else
    let (conn, o) := t.conn.receiveData code cfg app env data
    ({ t with conn }, o)

/-- The suspended callback goes on. -/
def resume (callback : GateCallback WsClosing) : WssTunnelServer η α × List WsUpgradeOut :=
  let (conn, o) := t.conn.resume code cfg app callback
  ({ t with conn }, o)

/-- The connection knows the client of the line. -/
structure Knows (t : WssTunnelServer η α) (line : ProxyLine) : Prop where
  parsed : t.haproxyProtocolParsed = true
  ipType : t.remoteIpType = some line.data.ipType
  ip : t.remoteIp = line.data.ip
  port : t.remotePort = line.data.port

/-- The connection receives the stream in one chunk, and then the suspended callback goes on in these
ways. -/
def atOnce (stream : Bytes) (callbacks : List (GateCallback WsClosing)) :
    WssTunnelServer η α × List WsUpgradeOut :=
  callbacks.foldl
    (fun r callback => ((r.1.resume code cfg app callback).1, r.2 ++ (r.1.resume code cfg app callback).2))
    (t.receiveData code cfg app env stream)

variable {code cfg app env t} {line : ProxyLine} {a : α} {tunnelIp : String} {tunnelPort : Nat}

/-- The framing does nothing with an empty buffer. -/
theorem receiveData_nil (cfg : WsConfig) (app : SipApp α) (a : α) :
    (WsConnection.new a).receiveData cfg app [] = (.new a, []) := by
  apply WsConnection.receiveData_of_drains rfl
  apply Framer.Drains.stop
  exact WsConnection.framer_turn_of_lt Nat.zero_lt_two

theorem readProxyLine_of_some {data : HaproxyProtocol}
    (h : parseHaproxyProtocol t.conn.conn.buffer = some data) {conn : WsUpgrade η α}
    (hconn : conn =
      { t.conn with
        state := .httpHeaders
        parser := code.parser.reset
        parserNbytes := some 0
        conn := { t.conn.conn with buffer := t.conn.conn.buffer.drop data.totalLen } }) :
    t.readProxyLine code cfg app env =
      (⟨(conn.processReceivedData code cfg app env).1, true, some data.ipType, data.ip, data.port⟩,
        (conn.processReceivedData code cfg app env).2) := by
  unfold readProxyLine
  dsimp only
  rw [h, hconn]

theorem readProxyLine_of_none (h : parseHaproxyProtocol t.conn.conn.buffer = none) :
    t.readProxyLine code cfg app env =
      ({ t with
        conn :=
          { t.conn with
            parser := code.parser.reset
            parserNbytes := some 0
            state := .ignore
            localClosed := true } }, [.closeConnectionAfterWriting]) := by
  unfold readProxyLine
  dsimp only
  rw [h]

/-- The first data goes through `parse_haproxy_protocol`. -/
theorem receiveData_new (a : α) (tunnelIp : String) (tunnelPort : Nat) (data : Bytes) :
    (new code a tunnelIp tunnelPort).receiveData code cfg app env data =
      { new code a tunnelIp tunnelPort with
        conn := (WsUpgrade.new code a).push data }.readProxyLine code cfg app env :=
  if_pos ⟨rfl, rfl⟩

/-- The first data, when it holds the line. -/
theorem receiveData_line (code : WsCode η) (cfg : WsConfig) (app : SipApp α) (env : WsEnv) (a : α)
    (tunnelIp : String) (tunnelPort : Nat) (line : ProxyLine) (behind : Bytes) :
    (new code a tunnelIp tunnelPort).receiveData code cfg app env (line.text ++ behind) =
      (⟨((WsUpgrade.start code a).receiveData code cfg app env behind).1, true, some line.data.ipType,
          line.data.ip, line.data.port⟩,
        ((WsUpgrade.start code a).receiveData code cfg app env behind).2) := by
  have hdrop : ([] ++ (line.text ++ behind)).drop line.data.totalLen = [] ++ behind := List.drop_left
  have hreceive : (WsUpgrade.start code a).receiveData code cfg app env behind =
      ((WsUpgrade.start code a).push behind).processReceivedData code cfg app env := rfl
  rw [receiveData_new, hreceive]
  apply readProxyLine_of_some
  · exact parseHaproxyProtocol_line line behind
  · show _ = { WsUpgrade.new code a with
      state := .httpHeaders
      parser := code.parser.reset
      parserNbytes := some 0
      conn := { WsConnection.new a with
        buffer := ([] ++ (line.text ++ behind)).drop line.data.totalLen } }
    rw [hdrop]
    rfl

/-- The first data, when it is a part of the line. -/
theorem receiveData_part (code : WsCode η) (cfg : WsConfig) (app : SipApp α) (env : WsEnv) (a : α)
    (tunnelIp : String) (tunnelPort : Nat) {line : ProxyLine} {part missing : Bytes}
    (hline : line.text = part ++ missing) (hmissing : missing ≠ []) :
    ∃ t : WssTunnelServer η α, (new code a tunnelIp tunnelPort).receiveData code cfg app env part =
        (t, [.closeConnectionAfterWriting]) ∧
      t.conn.Over ∧ t.haproxyProtocolParsed = false := by
  rw [receiveData_new]
  have hparse : parseHaproxyProtocol ([] ++ part) = none := parseHaproxyProtocol_part hline hmissing
  exact ⟨_, readProxyLine_of_none hparse, ⟨rfl, .inl rfl⟩, rfl⟩

/-- Behind the line the connection is the inherited one. -/
theorem receiveData_of_parsed (h : t.haproxyProtocolParsed = true) (data : Bytes) :
    t.receiveData code cfg app env data =
      ({ t with conn := (t.conn.receiveData code cfg app env data).1 },
        (t.conn.receiveData code cfg app env data).2) := by
  apply if_neg
  rintro ⟨_, hnot⟩
  exact Bool.false_ne_true (hnot.symm.trans h)

theorem receiveData_of_over (h : t.conn.Over) (data : Bytes) :
    t.receiveData code cfg app env data = (t, []) := by
  unfold receiveData
  rw [if_neg]
  · rw [h.receiveData]
  · rintro ⟨hinit, _⟩
    rcases h.2 with hstate | ⟨hstate, _⟩
    · rw [hinit] at hstate
      cases hstate
    · rw [hinit] at hstate
      cases hstate

/-- The connection with another inherited one. -/
theorem conn_atOnce {conn : WsUpgrade η α} {stream stream' : Bytes}
    (h : (t.receiveData code cfg app env stream).1.conn = (conn.receiveData code cfg app env stream').1)
    (hout : (t.receiveData code cfg app env stream).2 = (conn.receiveData code cfg app env stream').2)
    (callbacks : List (GateCallback WsClosing)) :
    (t.atOnce code cfg app env stream callbacks).1.conn =
        (conn.atOnce code cfg app env stream' callbacks).1 ∧
      (t.atOnce code cfg app env stream callbacks).2 =
        (conn.atOnce code cfg app env stream' callbacks).2 := by
  unfold atOnce WsUpgrade.atOnce
  generalize t.receiveData code cfg app env stream = r at h hout
  generalize conn.receiveData code cfg app env stream' = r' at h hout
  induction callbacks generalizing r r' with
  | nil => exact ⟨h, hout⟩
  | cons callback callbacks ih =>
    apply ih
    · show (r.1.conn.resume code cfg app callback).1 = (r'.1.resume code cfg app callback).1
      rw [h]
    · show r.2 ++ (r.1.conn.resume code cfg app callback).2 = r'.2 ++ (r'.1.resume code cfg app callback).2
      rw [h, hout]

/-! ## Runs -/

end WssTunnelServer

/-- What can happen to the connection: a chunk arrives, or a suspended callback goes on. -/
inductive WssTunnelEvent
  | chunk (data : Bytes)
  | goOn (callback : GateCallback WsClosing)

/-- The data that arrives. -/
def WssTunnelEvent.data? : WssTunnelEvent → Option Bytes
  | .chunk data => some data
  | .goOn _ => none

/-- What the callback does. -/
def WssTunnelEvent.callback? : WssTunnelEvent → Option (GateCallback WsClosing)
  | .chunk _ => none
  | .goOn callback => some callback

namespace WssTunnelServer

variable {code : WsCode η} {cfg : WsConfig} {app : SipApp α} {env : WsEnv} {t t' : WssTunnelServer η α}
  {line : ProxyLine} {a : α} {tunnelIp : String} {tunnelPort : Nat} {o : List WsUpgradeOut}
  {tr : List (StepRec (WssTunnelServer η α) WssTunnelEvent WsUpgradeOut)}

/-- The program does the same in every run: `env`. -/
def step (code : WsCode η) (cfg : WsConfig) (app : SipApp α) (env : WsEnv) (t : WssTunnelServer η α) :
    WssTunnelEvent → Option (WssTunnelServer η α × List WsUpgradeOut)
  | .chunk data => some (t.receiveData code cfg app env data)
  | .goOn callback => if t.conn.suspended then some (t.resume code cfg app callback) else none

/-- The chunks of the stream that arrive in a run. -/
def chunks (tr : List (StepRec (WssTunnelServer η α) WssTunnelEvent WsUpgradeOut)) : List Bytes :=
  tr.filterMap (·.ev.data?)

/-- What the callback does each time it goes on. -/
def callbacks (tr : List (StepRec (WssTunnelServer η α) WssTunnelEvent WsUpgradeOut)) :
    List (GateCallback WsClosing) :=
  tr.filterMap (·.ev.callback?)

variable {first behind : Bytes} {more : List Bytes}

theorem chunks_snoc (tr : List (StepRec (WssTunnelServer η α) WssTunnelEvent WsUpgradeOut))
    (r : StepRec (WssTunnelServer η α) WssTunnelEvent WsUpgradeOut) :
    chunks (tr ++ [r]) = chunks tr ++ r.ev.data?.toList := by
  unfold chunks
  rw [List.filterMap_append]
  obtain ⟨pre, ev, out, post⟩ := r
  cases ev with
  | chunk data => rfl
  | goOn callback => rfl

theorem callbacks_snoc (tr : List (StepRec (WssTunnelServer η α) WssTunnelEvent WsUpgradeOut))
    (r : StepRec (WssTunnelServer η α) WssTunnelEvent WsUpgradeOut) :
    callbacks (tr ++ [r]) = callbacks tr ++ r.ev.callback?.toList := by
  unfold callbacks
  rw [List.filterMap_append]
  obtain ⟨pre, ev, out, post⟩ := r
  cases ev with
  | chunk data => rfl
  | goOn callback => rfl

/-- Nothing happens before the first data. -/
theorem nil_of_run (h : Run (step code cfg app env) (new code a tunnelIp tunnelPort) tr t)
    (hchunks : chunks tr = []) : tr = [] ∧ t = new code a tunnelIp tunnelPort := by
  induction h with
  | nil => exact ⟨rfl, rfl⟩
  | @snoc tr t t' ev o hrun hs ih =>
    rw [chunks_snoc] at hchunks
    obtain ⟨hbefore, hdata⟩ := List.append_eq_nil_iff.mp hchunks
    cases ev with
    | chunk data => cases hdata
    | goOn callback =>
      obtain ⟨_, rfl⟩ := ih hbefore
      cases hs

/-- A chunk arrives while the loop has stalled with bytes that it then looks at. -/
def Jams (cfg : WsConfig) (t : WssTunnelServer η α) : WssTunnelEvent → Prop
  | .chunk data => t.conn.Jams cfg data
  | .goOn _ => False

instance (cfg : WsConfig) (t : WssTunnelServer η α) (ev : WssTunnelEvent) : Decidable (Jams cfg t ev) :=
  match ev with
  | .chunk data => inferInstanceAs (Decidable (t.conn.Jams cfg data))
  | .goOn _ => inferInstanceAs (Decidable False)

/-- What a run has made of the stream behind the line. -/
structure Received (code : WsCode η) (cfg : WsConfig) (app : SipApp α) (env : WsEnv) (a : α)
    (line : ProxyLine) (stream : Bytes)
    (tr : List (StepRec (WssTunnelServer η α) WssTunnelEvent WsUpgradeOut)) (t : WssTunnelServer η α) :
    Prop where
  knows : t.Knows line
  /-- The same as at once, or the loop has looked at more. -/
  stream :
    (∀ r ∈ tr, ¬ Jams cfg r.pre r.ev) ∧
        WsUpgrade.Tracks code cfg app env a stream (callbacks tr) (t.conn, outputs tr) ∨
      (∃ r ∈ tr, Jams cfg r.pre r.ev) ∧
        WsUpgrade.Diverged code cfg app env a stream (callbacks tr) t.conn

theorem received_first (a : α) (tunnelIp : String) (tunnelPort : Nat) (line : ProxyLine) (behind : Bytes)
    (ht : (new code a tunnelIp tunnelPort).receiveData code cfg app env (line.text ++ behind) = (t, o)) :
    Received code cfg app env a line behind
      [⟨new code a tunnelIp tunnelPort, .chunk (line.text ++ behind), o, t⟩] t := by
  rw [receiveData_line] at ht
  obtain ⟨rfl, rfl⟩ := Prod.mk.inj ht
  refine ⟨⟨rfl, rfl, rfl, rfl⟩, .inl ⟨?_, ?_⟩⟩
  · intro r hr hjams
    obtain rfl := List.mem_singleton.mp hr
    cases hjams.1.1
  · unfold outputs
    rw [List.flatMap_singleton]
    exact ⟨.same _, rfl, fun _ => rfl⟩

/-- The next chunk. -/
theorem Received.chunk {stream data : Bytes} (h : Received code cfg app env a line stream tr t)
    (hdata : data ≠ []) (ht : t.receiveData code cfg app env data = (t', o)) :
    Received code cfg app env a line (stream ++ data) (tr ++ [⟨t, .chunk data, o, t'⟩]) t' := by
  rw [receiveData_of_parsed h.knows.parsed] at ht
  obtain ⟨rfl, rfl⟩ := Prod.mk.inj ht
  refine ⟨⟨h.knows.parsed, h.knows.ipType, h.knows.ip, h.knows.port⟩, ?_⟩
  rw [callbacks_snoc, outputs_snoc]
  show _ ∧ WsUpgrade.Tracks code cfg app env a (stream ++ data) (callbacks tr ++ []) _ ∨
    _ ∧ WsUpgrade.Diverged code cfg app env a (stream ++ data) (callbacks tr ++ []) _
  rw [List.append_nil]
  rcases h.stream with ⟨hnot, htracks⟩ | ⟨⟨r, hr, hjams⟩, hdiverged⟩
  · by_cases hjams : t.conn.Jams cfg data
    · exact .inr ⟨⟨_, List.mem_append_right _ (List.mem_singleton.mpr rfl), hjams⟩,
        htracks.diverged hdata hjams⟩
    · refine .inl ⟨?_, htracks.receiveData hdata hjams⟩
      intro r hr
      rcases List.mem_append.mp hr with hr | hr
      · exact hnot r hr
      · rw [List.mem_singleton.mp hr]
        exact hjams
  · exact .inr ⟨⟨r, List.mem_append_left _ hr, hjams⟩, hdiverged.receiveData hdata⟩

/-- The suspended callback goes on. -/
theorem Received.goOn {stream : Bytes} {callback : GateCallback WsClosing}
    (h : Received code cfg app env a line stream tr t) (hsusp : t.conn.suspended = true)
    (ht : t.resume code cfg app callback = (t', o)) :
    Received code cfg app env a line stream (tr ++ [⟨t, .goOn callback, o, t'⟩]) t' := by
  obtain ⟨rfl, rfl⟩ := Prod.mk.inj ht
  refine ⟨⟨h.knows.parsed, h.knows.ipType, h.knows.ip, h.knows.port⟩, ?_⟩
  rw [callbacks_snoc, outputs_snoc]
  rcases h.stream with ⟨hnot, htracks⟩ | ⟨_, hdiverged⟩
  · refine .inl ⟨?_, htracks.andResume hsusp callback⟩
    intro r hr
    rcases List.mem_append.mp hr with hr | hr
    · exact hnot r hr
    · rw [List.mem_singleton.mp hr]
      exact id
  · rw [hdiverged.suspended] at hsusp
    cases hsusp

/-- A run whose first data holds the line. -/
theorem received_of_run (h : Run (step code cfg app env) (new code a tunnelIp tunnelPort) tr t)
    (hchunks : chunks tr = (line.text ++ behind) :: more) (hmore : ∀ d ∈ more, d ≠ []) :
    Received code cfg app env a line (behind ++ more.flatten) tr t := by
  induction h generalizing more with
  | nil => cases hchunks
  | @snoc tr t t' ev o hrun hs ih =>
    rw [chunks_snoc] at hchunks
    cases ev with
    | goOn callback =>
      have hbefore : chunks tr ++ [] = (line.text ++ behind) :: more := hchunks
      rw [List.append_nil] at hbefore
      unfold step at hs
      split_ifs at hs with hsusp
      exact (ih hbefore hmore).goOn hsusp (Option.some.inj hs)
    | chunk data =>
      rw [show (WssTunnelEvent.chunk data).data?.toList = [data] from rfl] at hchunks
      have ht : t.receiveData code cfg app env data = (t', o) := Option.some.inj hs
      cases hbefore : chunks tr with
      | nil =>
        rw [hbefore] at hchunks
        obtain ⟨rfl, rfl⟩ := List.cons.inj hchunks
        obtain ⟨rfl, rfl⟩ := nil_of_run hrun hbefore
        rw [List.flatten_nil, List.append_nil]
        exact received_first a tunnelIp tunnelPort line behind ht
      | cons first rest =>
        rw [hbefore] at hchunks
        obtain ⟨rfl, rfl⟩ : first = line.text ++ behind ∧ rest ++ [data] = more := List.cons.inj hchunks
        rw [List.forall_mem_append] at hmore
        have hreceived := ih hbefore hmore.1
        rw [List.flatten_append, List.flatten_singleton, ← List.append_assoc]
        exact hreceived.chunk (hmore.2 data (List.mem_singleton.mpr rfl)) ht

/-- A run whose first data is a part of the line never knows the client. -/
theorem unparsed_of_run {missing : Bytes}
    (h : Run (step code cfg app env) (new code a tunnelIp tunnelPort) tr t)
    (hchunks : chunks tr = first :: more) (hline : line.text = first ++ missing) (hmissing : missing ≠ []) :
    t.conn.Over ∧ t.haproxyProtocolParsed = false := by
  induction h generalizing more with
  | nil => cases hchunks
  | @snoc tr t t' ev o hrun hs ih =>
    rw [chunks_snoc] at hchunks
    cases ev with
    | goOn callback =>
      have hbefore : chunks tr ++ [] = first :: more := hchunks
      rw [List.append_nil] at hbefore
      unfold step at hs
      split_ifs at hs with hsusp
      rw [(ih hbefore).1.1] at hsusp
      cases hsusp
    | chunk data =>
      rw [show (WssTunnelEvent.chunk data).data?.toList = [data] from rfl] at hchunks
      have ht : t.receiveData code cfg app env data = (t', o) := Option.some.inj hs
      cases hbefore : chunks tr with
      | nil =>
        rw [hbefore] at hchunks
        obtain ⟨rfl, rfl⟩ := List.cons.inj hchunks
        obtain ⟨rfl, rfl⟩ := nil_of_run hrun hbefore
        obtain ⟨t₁, heq, hover, hunparsed⟩ :=
          receiveData_part code cfg app env a tunnelIp tunnelPort hline hmissing
        rw [heq] at ht
        obtain ⟨rfl, _⟩ := Prod.mk.inj ht
        exact ⟨hover, hunparsed⟩
      | cons first' rest =>
        rw [hbefore] at hchunks
        obtain ⟨rfl, rfl⟩ := List.cons.inj hchunks
        obtain ⟨hover, hunparsed⟩ := ih hbefore
        rw [receiveData_of_over hover] at ht
        obtain ⟨rfl, _⟩ := Prod.mk.inj ht
        exact ⟨hover, hunparsed⟩

/-! ## Segmentation -/

/-- What is asked of a run in which the stream, the line with `rest` behind it, arrives in the chunks
`cs`. -/
structure Framed (code : WsCode η) (cfg : WsConfig) (app : SipApp α) (env : WsEnv) (a : α) (tunnelIp : String)
    (tunnelPort : Nat) (line : ProxyLine) (rest : Bytes) (cs : List Bytes)
    (tr : List (StepRec (WssTunnelServer η α) WssTunnelEvent WsUpgradeOut)) (t : WssTunnelServer η α) :
    Prop where
  /-- The client is that of the line. -/
  knows : t.Knows line
  /-- What stands behind the line is processed as in a connection of the client without a tunnel. -/
  behind : WsUpgrade.SameAs (t.conn, outputs tr)
    ((WsUpgrade.new code a).atOnce code cfg app env rest (callbacks tr))
  /-- The whole stream in one chunk comes to the same. -/
  whole : WsUpgrade.SameAs (t.conn, outputs tr)
    (((new code a tunnelIp tunnelPort).atOnce code cfg app env cs.flatten (callbacks tr)).1.conn,
      ((new code a tunnelIp tunnelPort).atOnce code cfg app env cs.flatten (callbacks tr)).2)

/-- The whole stream in one chunk is what stands behind the line in one chunk. -/
theorem atOnce_line (a : α) (tunnelIp : String) (tunnelPort : Nat) (line : ProxyLine) (rest : Bytes)
    (gs : List (GateCallback WsClosing)) :
    (((new code a tunnelIp tunnelPort).atOnce code cfg app env (line.text ++ rest) gs).1.conn,
        ((new code a tunnelIp tunnelPort).atOnce code cfg app env (line.text ++ rest) gs).2) =
      (WsUpgrade.start code a).atOnce code cfg app env rest gs := by
  have hline := receiveData_line code cfg app env a tunnelIp tunnelPort line rest
  have hconn := congrArg (fun r => r.1.conn) hline
  have hout := congrArg Prod.snd hline
  exact Prod.ext (conn_atOnce hconn hout gs).1 (conn_atOnce hconn hout gs).2

/-- A run frames the stream exactly if the first chunk holds the line and no chunk jams. -/
theorem framed_iff {cs : List Bytes} {rest : Bytes}
    (h : Run (step code cfg app env) (new code a tunnelIp tunnelPort) tr t) (hchunks : chunks tr = cs)
    (hcs : ∀ d ∈ cs, d ≠ []) (hstream : cs.flatten = line.text ++ rest) :
    Framed code cfg app env a tunnelIp tunnelPort line rest cs tr t ↔
      HoldsLine line cs ∧ ∀ r ∈ tr, ¬ Jams cfg r.pre r.ev := by
  obtain ⟨first, more, rfl, ⟨hholds, behind, rfl, hrest⟩ | ⟨hnot, missing, hmissing, hline⟩⟩ :=
    cutting_cases hstream
  · have hmore : ∀ d ∈ more, d ≠ [] := fun d hd => hcs d (List.mem_cons_of_mem _ hd)
    have hreceived := received_of_run h hchunks hmore
    rw [← hrest] at hreceived
    constructor
    · intro hframed
      refine ⟨hholds, ?_⟩
      rcases hreceived.stream with ⟨hnot, _⟩ | ⟨_, hdiverged⟩
      · exact hnot
      · exact absurd hframed.behind (hdiverged.not_sameAs _)
    · rintro ⟨_, hnot⟩
      rcases hreceived.stream with ⟨_, htracks⟩ | ⟨⟨r, hr, hjams⟩, _⟩
      · refine ⟨hreceived.knows, htracks.sameAs, ?_⟩
        rw [hstream, atOnce_line]
        exact htracks.sameAs
      · exact absurd hjams (hnot r hr)
  · refine iff_of_false ?_ fun hboth => hnot hboth.1
    intro hframed
    have hunparsed := (unparsed_of_run h hchunks hline hmissing).2
    exact Bool.false_ne_true (hunparsed.symm.trans hframed.knows.parsed)

end WssTunnelServer

end OverSip
