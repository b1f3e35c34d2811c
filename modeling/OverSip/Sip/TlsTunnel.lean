import OverSip.Sip.TcpSegmentation
import OverSip.Utils.HaproxyProtocol

/-!
# Connections of the TLS tunnel

The class `TlsTunnelConnection` (`tls_tunnel_connection.rb`): a `TcpConnection` whose stream begins with the
line of the HAProxy Protocol. The line is looked for in the buffer as it is when the first data arrives;
where it is not found, the connection is closed.

`feeds_of_run` says what the connection is behind the line: a TCP connection of the client that the line
announces, which is fed with what stands behind the line.
-/

namespace OverSip

variable {σ : Type}

/-! ## The address of a connection -/

namespace TcpConnection

variable {code : TcpCode σ}

/-- `@remote_ip` and `@remote_port` -/
def remote (c : TcpConnection σ) : String × Nat := (c.remoteIp, c.remotePort)

theorem Outcome.remote {c : TcpConnection σ} {r : TcpResult σ} (h : Outcome c r) :
    r.conn.remote = c.remote := by
  cases h with
  | raised e => rfl
  | giveUp o => rfl
  | goOn s o hs => rfl

theorem remote_checkParser (code : TcpCode σ) (c : TcpConnection σ) (n : Nat) :
    (c.checkParser code n).conn.remote = c.remote := by
  unfold checkParser
  split
  · rfl
  · split
    · rfl
    · dsimp only
      split
      · exact (outcome_checkMessage code _ _).remote
      · rfl
      · rfl

theorem remote_parseHeaders (code : TcpCode σ) (c : TcpConnection σ) :
    (c.parseHeaders code).conn.remote = c.remote := by
  unfold parseHeaders
  split
  · rfl
  · split
    · rfl
    · rfl
    · exact remote_checkParser code _ _

theorem remote_turn (code : TcpCode σ) (w : World) (c : TcpConnection σ) :
    (c.turn code w).conn.remote = c.remote := by
  unfold turn
  split
  · rfl
  · exact remote_parseHeaders code c
  · next m bodyLength _ =>
    show (c.getBody m bodyLength).conn.remote = c.remote
    unfold getBody
    split <;> rfl
  · next m _ =>
    show (c.finish w m).conn.remote = c.remote
    unfold finish
    dsimp only
    split <;> rfl
  · rfl
  · rfl

theorem remote_loop (code : TcpCode σ) (fuel : Nat) (w : World) (c : TcpConnection σ) :
    (loop code fuel w c).1.remote = c.remote := by
  induction fuel generalizing w c with
  | zero => rfl
  | succ fuel ih =>
    unfold loop
    dsimp only
    split
    · exact (ih _ _).trans (remote_turn code w c)
    · exact remote_turn code w c

theorem remote_processReceivedData (code : TcpCode σ) (w : World) (c : TcpConnection σ) :
    (c.processReceivedData code w).1.remote = c.remote := by
  unfold processReceivedData
  split
  · rfl
  · exact remote_loop code _ w c

theorem remote_receiveData (code : TcpCode σ) (w : World) (c : TcpConnection σ) (data : Bytes) :
    (c.receiveData code w data).1.remote = c.remote := by
  unfold receiveData
  split
  · rfl
  · split
    · rfl
    · exact remote_processReceivedData code w _

end TcpConnection

/-! ## The class -/

/-- A `TlsTunnelConnection`: `conn` is what it inherits. -/
structure TlsTunnelConnection (σ : Type) where
  conn : TcpConnection σ
  haproxyProtocolParsed : Bool
  remoteIpType : Option IpType

/-- What `receive_data` puts out. -/
inductive TlsTunnelOut
  /-- `TransportManager.add_connection`, in the table of a TLS server. -/
  | addConnection (ipType : IpType) (ip : String) (port : Nat)
  | tcp (o : TcpOut)
deriving DecidableEq, Repr

def TlsTunnelOut.isRaise : TlsTunnelOut → Bool
  | .addConnection _ _ _ => false
  | .tcp o => o.isRaise

/-- What the connection that is inherited puts out. -/
def TlsTunnelOut.tcp? : TlsTunnelOut → Option TcpOut
  | .addConnection _ _ _ => none
  | .tcp o => some o

namespace TlsTunnelConnection

variable (code : TcpCode σ) (t : TlsTunnelConnection σ)

/-- An accepted connection, with the address of the tunnel for the time being. -/
def new (id : Nat) (transport : Transport) (tunnelIp : String) (tunnelPort : Nat) : TlsTunnelConnection σ :=
  { conn := .new code id transport tunnelIp tunnelPort, haproxyProtocolParsed := false, remoteIpType := none }

/-- The states `:init` and `:haproxy_protocol`, with `parse_haproxy_protocol`, and then the loop goes on in
`:headers`. -/
def readProxyLine (w : World) : TlsTunnelConnection σ × World × List TlsTunnelOut :=
  let conn := { t.conn with parser := code.parser.reset, parserNbytes := some 0 }
  match parseHaproxyProtocol conn.buffer with
  | some data =>
    let conn :=
      { conn with
        state := .headers
        remoteIp := data.ip
        remotePort := data.port
        buffer := conn.buffer.drop data.totalLen }
    let (conn, w, o) := conn.processReceivedData code w
    ({ conn, haproxyProtocolParsed := true, remoteIpType := some data.ipType }, w,
      .addConnection data.ipType data.ip data.port :: o.map .tcp)
  | none => ({ t with conn := { conn with state := .ignore } }, w, [.tcp .closeConnectionAfterWriting])

/-- `process_received_data` -/
def processReceivedData (w : World) : TlsTunnelConnection σ × World × List TlsTunnelOut :=
  if t.conn.state = .init ∧ t.haproxyProtocolParsed = false then t.readProxyLine code w
  else
    let (conn, w, o) := t.conn.processReceivedData code w
    ({ t with conn }, w, o.map .tcp)

/-- `receive_data` -/
def receiveData (w : World) (data : Bytes) : TlsTunnelConnection σ × World × List TlsTunnelOut :=
  if t.conn.state = .ignore then (t, w, [])
  else if t.conn.state = .waitingForOnClientTlsHandshake then ({ t with conn := t.conn.push data }, w, [])
  else { t with conn := t.conn.push data }.processReceivedData code w

/-- The inherited connection when the line has been read. -/
def behindLine (id : Nat) (transport : Transport) (line : ProxyLine) : TcpConnection σ :=
  { TcpConnection.new code id transport line.data.ip line.data.port with
    state := .headers
    parserNbytes := some 0 }

/-- The connection knows the client of the line. -/
structure Knows (t : TlsTunnelConnection σ) (line : ProxyLine) : Prop where
  parsed : t.haproxyProtocolParsed = true
  ipType : t.remoteIpType = some line.data.ipType
  remote : t.conn.remote = (line.data.ip, line.data.port)

variable {code t}

theorem readProxyLine_of_some {data : HaproxyProtocol} (h : parseHaproxyProtocol t.conn.buffer = some data)
    (w : World) {conn : TcpConnection σ}
    (hconn : conn =
      { t.conn with
        state := .headers
        parser := code.parser.reset
        parserNbytes := some 0
        remoteIp := data.ip
        remotePort := data.port
        buffer := t.conn.buffer.drop data.totalLen }) :
    t.readProxyLine code w =
      (⟨(conn.processReceivedData code w).1, true, some data.ipType⟩,
        (conn.processReceivedData code w).2.1,
        .addConnection data.ipType data.ip data.port :: (conn.processReceivedData code w).2.2.map .tcp) := by
  unfold readProxyLine
  dsimp only
  rw [h, hconn]

theorem readProxyLine_of_none (h : parseHaproxyProtocol t.conn.buffer = none) (w : World) :
    t.readProxyLine code w =
      ({ t with
        conn :=
          { t.conn with
            parser := code.parser.reset
            parserNbytes := some 0
            state := .ignore } }, w, [.tcp .closeConnectionAfterWriting]) := by
  unfold readProxyLine
  dsimp only
  rw [h]

/-- The first data goes through `parse_haproxy_protocol`. -/
theorem receiveData_new (id : Nat) (transport : Transport) (tunnelIp : String) (tunnelPort : Nat) (w : World)
    (data : Bytes) :
    (new code id transport tunnelIp tunnelPort).receiveData code w data =
      { new code id transport tunnelIp tunnelPort with
        conn := (TcpConnection.new code id transport tunnelIp tunnelPort).push data }.readProxyLine code w := by
  unfold receiveData processReceivedData
  rw [if_neg (by simp [new, TcpConnection.new]), if_neg (by simp [new, TcpConnection.new])]
  exact if_pos ⟨rfl, rfl⟩

/-- The first data, when it holds the line. -/
theorem receiveData_line (id : Nat) (transport : Transport) (tunnelIp : String) (tunnelPort : Nat) (w : World)
    (line : ProxyLine) (behind : Bytes) :
    (new code id transport tunnelIp tunnelPort).receiveData code w (line.text ++ behind) =
      (⟨((behindLine code id transport line).receiveData code w behind).1, true, some line.data.ipType⟩,
        ((behindLine code id transport line).receiveData code w behind).2.1,
        .addConnection line.data.ipType line.data.ip line.data.port ::
          ((behindLine code id transport line).receiveData code w behind).2.2.map .tcp) := by
  have hdrop : ([] ++ (line.text ++ behind)).drop line.data.totalLen = [] ++ behind := List.drop_left
  have hreceive : (behindLine code id transport line).receiveData code w behind =
      ((behindLine code id transport line).push behind).processReceivedData code w := by
    unfold TcpConnection.receiveData
    rw [if_neg (by simp [behindLine]), if_neg (by simp [behindLine])]
  rw [receiveData_new, hreceive]
  apply readProxyLine_of_some
  · exact parseHaproxyProtocol_line line behind
  · show _ = { behindLine code id transport line with
      buffer := ([] ++ (line.text ++ behind)).drop line.data.totalLen }
    rw [hdrop]
    rfl

/-- The first data, when it is a part of the line. -/
theorem receiveData_part (code : TcpCode σ) (id : Nat) (transport : Transport) (tunnelIp : String) (tunnelPort : Nat) (w : World)
    {line : ProxyLine} {part missing : Bytes} (hline : line.text = part ++ missing) (hmissing : missing ≠ []) :
    ∃ t : TlsTunnelConnection σ, (new code id transport tunnelIp tunnelPort).receiveData code w part =
        (t, w, [.tcp .closeConnectionAfterWriting]) ∧
      t.conn.state = .ignore ∧ t.haproxyProtocolParsed = false := by
  rw [receiveData_new]
  have hparse : parseHaproxyProtocol ([] ++ part) = none := parseHaproxyProtocol_part hline hmissing
  exact ⟨_, readProxyLine_of_none hparse w, rfl, rfl⟩

/-- Behind the line the connection is the inherited one. -/
theorem receiveData_of_parsed (h : t.haproxyProtocolParsed = true) (w : World) (data : Bytes) :
    t.receiveData code w data =
      ({ t with conn := (t.conn.receiveData code w data).1 }, (t.conn.receiveData code w data).2.1,
        (t.conn.receiveData code w data).2.2.map .tcp) := by
  unfold receiveData processReceivedData TcpConnection.receiveData
  by_cases hignore : t.conn.state = .ignore
  · rw [if_pos hignore, if_pos hignore]
    rfl
  · rw [if_neg hignore, if_neg hignore]
    by_cases hwaits : t.conn.state = .waitingForOnClientTlsHandshake
    · rw [if_pos hwaits, if_pos hwaits]
      rfl
    · rw [if_neg hwaits, if_neg hwaits]
      apply if_neg
      rintro ⟨_, hnot⟩
      exact Bool.false_ne_true (hnot.symm.trans h)

theorem receiveData_of_ignore (h : t.conn.state = .ignore) (w : World) (data : Bytes) :
    t.receiveData code w data = (t, w, []) := by
  unfold receiveData
  rw [if_pos h]

end TlsTunnelConnection

/-! ## A connection among the rest -/

/-- The connection and what it shares with its class. -/
structure TlsTunnelListener (σ : Type) where
  tunnel : TlsTunnelConnection σ
  world : World

namespace TlsTunnelListener

variable {code : TcpCode σ} {id : Nat} {transport : Transport} {tunnelIp : String} {tunnelPort : Nat}
  {w : World} {line : ProxyLine} {tr : List (StepRec (TlsTunnelListener σ) TcpEvent TlsTunnelOut)}
  {l : TlsTunnelListener σ} {first : Bytes} {more : List Bytes}

def step (code : TcpCode σ) (l : TlsTunnelListener σ) :
    TcpEvent → Option (TlsTunnelListener σ × List TlsTunnelOut)
  | .chunk data =>
    let (tunnel, world, o) := l.tunnel.receiveData code l.world data
    some ({ tunnel, world }, o)
  | .elsewhere world => some ({ l with world }, [])

/-- The tunnel has connected. -/
def accepted (code : TcpCode σ) (id : Nat) (transport : Transport) (tunnelIp : String) (tunnelPort : Nat)
    (w : World) : TlsTunnelListener σ :=
  ⟨.new code id transport tunnelIp tunnelPort, w⟩

/-- The chunks of the stream that arrive in a run. -/
def chunks (tr : List (StepRec (TlsTunnelListener σ) TcpEvent TlsTunnelOut)) : List Bytes :=
  tr.filterMap (·.ev.data?)

def outputs (tr : List (StepRec (TlsTunnelListener σ) TcpEvent TlsTunnelOut)) : List TlsTunnelOut :=
  tr.flatMap (·.out)

/-- What the inherited connection puts out in a run. -/
def tcpOutputs (tr : List (StepRec (TlsTunnelListener σ) TcpEvent TlsTunnelOut)) : List TcpOut :=
  (outputs tr).filterMap TlsTunnelOut.tcp?

theorem chunks_snoc (tr : List (StepRec (TlsTunnelListener σ) TcpEvent TlsTunnelOut))
    (r : StepRec (TlsTunnelListener σ) TcpEvent TlsTunnelOut) :
    chunks (tr ++ [r]) = chunks tr ++ r.ev.data?.toList := by
  unfold chunks
  rw [List.filterMap_append]
  obtain ⟨pre, ev, out, post⟩ := r
  cases ev with
  | chunk data => rfl
  | elsewhere world => rfl

theorem outputs_snoc (tr : List (StepRec (TlsTunnelListener σ) TcpEvent TlsTunnelOut))
    (r : StepRec (TlsTunnelListener σ) TcpEvent TlsTunnelOut) : outputs (tr ++ [r]) = outputs tr ++ r.out := by
  unfold outputs
  rw [List.flatMap_append, List.flatMap_singleton]

theorem step_chunk (l : TlsTunnelListener σ) (data : Bytes) :
    step code l (.chunk data) =
      some (⟨(l.tunnel.receiveData code l.world data).1, (l.tunnel.receiveData code l.world data).2.1⟩,
        (l.tunnel.receiveData code l.world data).2.2) := rfl

theorem filterMap_tcp (o : List TcpOut) : (o.map TlsTunnelOut.tcp).filterMap TlsTunnelOut.tcp? = o := by
  rw [List.filterMap_map]
  exact List.filterMap_some

theorem isRaise_map_tcp {o : List TcpOut} (h : ∀ x ∈ o.map TlsTunnelOut.tcp, x.isRaise = false) :
    ∀ x ∈ o, x.isRaise = false := fun x hx => h (.tcp x) (List.mem_map_of_mem hx)

/-- Before the first data nothing has happened to the connection. -/
theorem fresh_of_run (h : Run (step code) (accepted code id transport tunnelIp tunnelPort w) tr l)
    (hchunks : chunks tr = []) :
    l.tunnel = .new code id transport tunnelIp tunnelPort ∧ outputs tr = [] := by
  induction h with
  | nil => exact ⟨rfl, rfl⟩
  | @snoc tr l l' ev o _ hs ih =>
    rw [chunks_snoc, List.append_eq_nil_iff] at hchunks
    obtain ⟨htunnel, hout⟩ := ih hchunks.1
    cases ev with
    | chunk data => cases hchunks.2
    | elsewhere w' =>
      obtain ⟨rfl, rfl⟩ := Prod.mk.inj (Option.some.inj hs)
      rw [outputs_snoc, hout]
      exact ⟨htunnel, rfl⟩

/-- What a run has made of the stream behind the line. -/
structure FedBehind (code : TcpCode σ) (id : Nat) (transport : Transport) (line : ProxyLine) (ds : List Bytes)
    (o : List TlsTunnelOut) (t : TlsTunnelConnection σ) : Prop where
  knows : t.Knows line
  feeds : (∀ x ∈ o, x.isRaise = false) →
    ∃ o', (TcpConnection.framer code).Feeds (TlsTunnelConnection.behindLine code id transport line) ds o'
        t.conn ∧
      o'.filter TcpOut.isVisible = (o.filterMap TlsTunnelOut.tcp?).filter TcpOut.isVisible ∧
      ∀ x ∈ o', x.isRaise = false

theorem fedBehind_first (id : Nat) (transport : Transport) (tunnelIp : String) (tunnelPort : Nat) (w : World)
    (line : ProxyLine) (behind : Bytes) {t : TlsTunnelConnection σ} {o : List TlsTunnelOut}
    (ht : t = ((TlsTunnelConnection.new code id transport tunnelIp tunnelPort).receiveData code w
      (line.text ++ behind)).1)
    (ho : o = ((TlsTunnelConnection.new code id transport tunnelIp tunnelPort).receiveData code w
      (line.text ++ behind)).2.2) : FedBehind code id transport line [behind] o t := by
  rw [TlsTunnelConnection.receiveData_line] at ht ho
  rw [ht, ho]
  constructor
  · exact ⟨rfl, rfl, TcpConnection.remote_receiveData code w _ behind⟩
  · intro hno
    obtain ⟨o', hfeeds, hvis, hno'⟩ := TcpConnection.receiveData_feeds w behind
      (isRaise_map_tcp fun x hx => hno x (List.mem_cons_of_mem _ hx))
    refine ⟨o', hfeeds, ?_, hno'⟩
    rw [hvis]
    show _ = ((List.map TlsTunnelOut.tcp _).filterMap TlsTunnelOut.tcp?).filter TcpOut.isVisible
    rw [filterMap_tcp]

theorem FedBehind.receiveData {ds : List Bytes} {o : List TlsTunnelOut} {t : TlsTunnelConnection σ}
    (h : FedBehind code id transport line ds o t) (w : World) (data : Bytes) :
    FedBehind code id transport line (ds ++ [data]) (o ++ (t.receiveData code w data).2.2)
      (t.receiveData code w data).1 := by
  rw [TlsTunnelConnection.receiveData_of_parsed h.knows.parsed]
  constructor
  · exact ⟨h.knows.parsed, h.knows.ipType,
      (TcpConnection.remote_receiveData code w _ data).trans h.knows.remote⟩
  · intro hno
    rw [List.forall_mem_append] at hno
    obtain ⟨o₁, hfeeds₁, hvis₁, hno₁⟩ := h.feeds hno.1
    obtain ⟨o₂, hfeeds₂, hvis₂, hno₂⟩ := TcpConnection.receiveData_feeds w data (isRaise_map_tcp hno.2)
    refine ⟨o₁ ++ o₂, hfeeds₁.append hfeeds₂, ?_, List.forall_mem_append.mpr ⟨hno₁, hno₂⟩⟩
    rw [List.filter_append, hvis₁, hvis₂, List.filterMap_append, List.filter_append, filterMap_tcp]

/-- A run whose first data holds the line feeds the connection what stands behind the line. -/
theorem feeds_of_run {behind : Bytes}
    (h : Run (step code) (accepted code id transport tunnelIp tunnelPort w) tr l)
    (hchunks : chunks tr = (line.text ++ behind) :: more) :
    FedBehind code id transport line (behind :: more) (outputs tr) l.tunnel := by
  induction h generalizing more with
  | nil => cases hchunks
  | @snoc tr l l' ev o hrun hs ih =>
    rw [chunks_snoc] at hchunks
    rw [outputs_snoc]
    cases ev with
    | elsewhere w' =>
      obtain ⟨rfl, rfl⟩ := Prod.mk.inj (Option.some.inj hs)
      rw [show (TcpEvent.elsewhere w').data?.toList = [] from rfl, List.append_nil] at hchunks
      show FedBehind code id transport line (behind :: more) (outputs tr ++ []) l.tunnel
      rw [List.append_nil]
      exact ih hchunks
    | chunk data =>
      rw [show (TcpEvent.chunk data).data?.toList = [data] from rfl] at hchunks
      rw [step_chunk] at hs
      obtain ⟨rfl, rfl⟩ := Prod.mk.inj (Option.some.inj hs)
      cases hbefore : chunks tr with
      | nil =>
        rw [hbefore] at hchunks
        obtain ⟨rfl, rfl⟩ := List.cons.inj hchunks
        obtain ⟨htunnel, hout⟩ := fresh_of_run hrun hbefore
        rw [hout, List.nil_append]
        refine fedBehind_first id transport tunnelIp tunnelPort l.world line behind ?_ ?_
        · rw [← htunnel]
        · rw [← htunnel]
      | cons first rest =>
        rw [hbefore] at hchunks
        obtain ⟨rfl, rfl⟩ := List.cons.inj hchunks
        exact (ih hbefore).receiveData l.world data

/-- A run whose first data is a part of the line never knows the client. -/
theorem unparsed_of_run {missing : Bytes} (h : Run (step code)
      (accepted code id transport tunnelIp tunnelPort w) tr l)
    (hchunks : chunks tr = first :: more) (hline : line.text = first ++ missing) (hmissing : missing ≠ []) :
    l.tunnel.conn.state = .ignore ∧ l.tunnel.haproxyProtocolParsed = false := by
  induction h generalizing more with
  | nil => cases hchunks
  | @snoc tr l l' ev o hrun hs ih =>
    rw [chunks_snoc] at hchunks
    cases ev with
    | elsewhere w' =>
      obtain ⟨rfl, rfl⟩ := Prod.mk.inj (Option.some.inj hs)
      rw [show (TcpEvent.elsewhere w').data?.toList = [] from rfl, List.append_nil] at hchunks
      exact ih hchunks
    | chunk data =>
      rw [show (TcpEvent.chunk data).data?.toList = [data] from rfl] at hchunks
      rw [step_chunk] at hs
      obtain ⟨rfl, rfl⟩ := Prod.mk.inj (Option.some.inj hs)
      cases hbefore : chunks tr with
      | nil =>
        rw [hbefore] at hchunks
        obtain ⟨rfl, rfl⟩ := List.cons.inj hchunks
        obtain ⟨t, heq, hignore, hunparsed⟩ := TlsTunnelConnection.receiveData_part code id transport
          tunnelIp tunnelPort l.world hline hmissing
        rw [(fresh_of_run hrun hbefore).1, heq]
        exact ⟨hignore, hunparsed⟩
      | cons first' rest =>
        rw [hbefore] at hchunks
        obtain ⟨rfl, rfl⟩ := List.cons.inj hchunks
        obtain ⟨hignore, hunparsed⟩ := ih hbefore
        rw [TlsTunnelConnection.receiveData_of_ignore hignore]
        exact ⟨hignore, hunparsed⟩

/-- Every stream can arrive in every cutting. -/
theorem exists_run (code : TcpCode σ) (l : TlsTunnelListener σ) (ds : List Bytes) :
    ∃ tr l', Run (step code) l tr l' ∧ chunks tr = ds := by
  induction ds using List.reverseRecOn with
  | nil => exact ⟨[], l, .nil, rfl⟩
  | append_singleton ds d ih =>
    obtain ⟨tr, l', hrun, hchunks⟩ := ih
    refine ⟨_, _, hrun.snoc (step_chunk l' d), ?_⟩
    rw [chunks_snoc, hchunks]
    rfl

/-! ## Segmentation -/

open TlsTunnelConnection (behindLine)

theorem turn_behindLine (code : TcpCode σ) (id : Nat) (transport : Transport) (line : ProxyLine) :
    (TcpConnection.framer code).turn (behindLine code id transport line) =
      (behindLine code id transport line, [], false) := by
  have hnil : (behindLine code id transport line).buffer = [] := rfl
  show (((behindLine code id transport line).parseHeaders code).conn,
    ((behindLine code id transport line).parseHeaders code).out,
    ((behindLine code id transport line).parseHeaders code).again) = _
  rw [TcpConnection.parseHeaders_of_nil hnil]
  rfl

/-- Where nothing stands behind the line in the first data, the connection waits for the next one. -/
theorem feeds_nonempty {behind : Bytes} {ds : List Bytes} {o : List TcpOut} {c : TcpConnection σ}
    (h : (TcpConnection.framer code).Feeds (behindLine code id transport line) (behind :: ds) o c)
    (hds : ∀ d ∈ ds, d ≠ []) :
    ∃ ds', (∀ d ∈ ds', d ≠ []) ∧ ds'.flatten = behind ++ ds.flatten ∧
      (TcpConnection.framer code).Feeds (behindLine code id transport line) ds' o c := by
  by_cases hbehind : behind = []
  · subst hbehind
    refine ⟨ds, hds, rfl, ?_⟩
    cases h with
    | ignored hdead _ => exact absurd hdead (by simp [TcpConnection.framer, behindLine])
    | chunk _ hdrains hfeeds =>
      have hpush : (TcpConnection.framer code).push (behindLine code id transport line) [] =
          behindLine code id transport line := rfl
      rw [hpush] at hdrains
      obtain ⟨rfl, rfl⟩ := hdrains.unique (.stop (turn_behindLine code id transport line))
      exact hfeeds
  · exact ⟨behind :: ds, List.forall_mem_cons.mpr ⟨hbehind, hds⟩, rfl, h⟩

/-- A TCP connection of the client does with its stream what the connection does behind the line. -/
theorem feeds_new {ds : List Bytes} {o : List TcpOut} {c : TcpConnection σ}
    (h : (TcpConnection.framer code).Feeds (.new code id transport line.data.ip line.data.port) ds o c) :
    ∃ c', (TcpConnection.framer code).Feeds (behindLine code id transport line) ds o c' ∧
      (c.state = .ignore ↔ c'.state = .ignore) := by
  cases h with
  | nil => exact ⟨_, .nil, by simp [behindLine, TcpConnection.new]⟩
  | ignored hdead _ => exact absurd hdead (by simp [TcpConnection.framer, TcpConnection.new])
  | @chunk _ c₁ _ d _ o₁ _ halive hdrains hfeeds =>
    -- the first turn comes to the headers
    have hturn : (TcpConnection.framer code).turn ((TcpConnection.framer code).push
        (.new code id transport line.data.ip line.data.port) d) =
        ((TcpConnection.framer code).push (behindLine code id transport line) d, [], true) := rfl
    have hdrains' : (TcpConnection.framer code).Drains
        ((TcpConnection.framer code).push (behindLine code id transport line) d) o₁ c₁ := by
      cases hdrains with
      | stop ht =>
        rw [hturn] at ht
        cases ht
      | more ht hrest =>
        rw [hturn] at ht
        cases ht
        exact hrest
    exact ⟨c, .chunk (by simp [TcpConnection.framer, behindLine]) hdrains' hfeeds, Iff.rfl⟩

/-- What is asked of the cutting `cs` of a stream with this line and `rest` behind it. -/
structure Framing (code : TcpCode σ) (id : Nat) (transport : Transport) (tunnelIp : String) (tunnelPort : Nat)
    (line : ProxyLine) (rest : Bytes) (cs : List Bytes) : Prop where
  /-- The client is that of the line. -/
  knows : ∀ {w tr l}, Run (step code) (accepted code id transport tunnelIp tunnelPort w) tr l →
    chunks tr = cs → l.tunnel.Knows line
  /-- What stands behind the line is processed as in a TCP connection of the client. -/
  behind : ∀ {w w' tr tr' l l'}, Run (step code) (accepted code id transport tunnelIp tunnelPort w) tr l →
    Run (TcpListener.step code) ⟨.new code id transport line.data.ip line.data.port, w'⟩ tr' l' →
    chunks tr = cs → (∀ d ∈ TcpListener.chunks tr', d ≠ []) → (TcpListener.chunks tr').flatten = rest →
    (∀ x ∈ outputs tr, x.isRaise = false) → (∀ x ∈ TcpListener.outputs tr', x.isRaise = false) →
    (tcpOutputs tr).filter TcpOut.isVisible = (TcpListener.outputs tr').filter TcpOut.isVisible ∧
      (l.tunnel.conn.state = .ignore ↔ l'.conn.state = .ignore)
  /-- The whole stream in one chunk comes to the same. -/
  whole : ∀ {w w' tr tr' l l'}, Run (step code) (accepted code id transport tunnelIp tunnelPort w) tr l →
    Run (step code) (accepted code id transport tunnelIp tunnelPort w') tr' l' →
    chunks tr = cs → chunks tr' = [cs.flatten] →
    (∀ x ∈ outputs tr, x.isRaise = false) → (∀ x ∈ outputs tr', x.isRaise = false) →
    (tcpOutputs tr).filter TcpOut.isVisible = (tcpOutputs tr').filter TcpOut.isVisible ∧
      (l.tunnel.conn = l'.tunnel.conn ∨
        l.tunnel.conn.state = .ignore ∧ l'.tunnel.conn.state = .ignore)

/-- The framing is right exactly if the first chunk holds the line. -/
theorem framing_iff (code : TcpCode σ) (id : Nat) (transport : Transport) (tunnelIp : String)
    (tunnelPort : Nat) {cs : List Bytes} {rest : Bytes} (hcs : ∀ d ∈ cs, d ≠ [])
    (hstream : cs.flatten = line.text ++ rest) :
    Framing code id transport tunnelIp tunnelPort line rest cs ↔ HoldsLine line cs := by
  obtain ⟨first, more, rfl, ⟨hholds, behind, rfl, hrest⟩ | ⟨hnot, missing, hmissing, hline⟩⟩ :=
    cutting_cases hstream
  · refine iff_of_true ?_ hholds
    have hwf : (behindLine code id transport line).Wf := fun _ => rfl
    have hmore : ∀ d ∈ more, d ≠ [] := fun d hd => hcs d (List.mem_cons_of_mem _ hd)
    have hfed : ∀ {w tr l}, Run (step code) (accepted code id transport tunnelIp tunnelPort w) tr l →
        chunks tr = (line.text ++ behind) :: more → (∀ x ∈ outputs tr, x.isRaise = false) →
        ∃ ds o, (∀ d ∈ ds, d ≠ []) ∧ ds.flatten = rest ∧
          (TcpConnection.framer code).Feeds (behindLine code id transport line) ds o l.tunnel.conn ∧
          o.filter TcpOut.isVisible = (tcpOutputs tr).filter TcpOut.isVisible ∧
          ∀ x ∈ o, x.isRaise = false := by
      intro w tr l hrun hchunks hno
      obtain ⟨o, hfeeds, hvis, hno'⟩ := (feeds_of_run hrun hchunks).feeds hno
      obtain ⟨ds, hds, hflat, hfeeds'⟩ := feeds_nonempty hfeeds hmore
      exact ⟨ds, o, hds, hflat.trans hrest.symm, hfeeds', hvis, hno'⟩
    constructor
    · intro w tr l hrun hchunks
      exact (feeds_of_run hrun hchunks).knows
    · intro w w' tr tr' l l' hrun hrun' hchunks hne' hflat' hno hno'
      obtain ⟨ds, o, hds, hflat, hfeeds, hvis, hraise⟩ := hfed hrun hchunks hno
      obtain ⟨o', hfeeds', hvis', hraise'⟩ := TcpListener.feeds_of_run hrun' hno'
      obtain ⟨c', hnew, hdead⟩ := feeds_new hfeeds'
      obtain ⟨hsame, hagree⟩ := hfeeds.agree_of_flatten_eq (TcpConnection.lawful code) hnew hwf hds hne'
        (hflat.trans hflat'.symm) hraise hraise'
      exact ⟨hvis.symm.trans (hsame.trans hvis'), hagree.dead_iff.trans hdead.symm⟩
    · intro w w' tr tr' l l' hrun hrun' hchunks hchunks' hno hno'
      obtain ⟨ds, o, hds, hflat, hfeeds, hvis, hraise⟩ := hfed hrun hchunks hno
      -- the whole stream is a line with all the rest behind it
      rw [hstream] at hchunks'
      obtain ⟨o', hfeeds', hvis', hraise'⟩ := (feeds_of_run hrun' hchunks').feeds hno'
      obtain ⟨ds', hds', hflat', hfeeds'⟩ :=
        feeds_nonempty hfeeds' fun d hd => absurd hd List.not_mem_nil
      rw [List.flatten_nil, List.append_nil] at hflat'
      obtain ⟨hsame, hagree⟩ := hfeeds.agree_of_flatten_eq (TcpConnection.lawful code) hfeeds' hwf hds hds'
        (hflat.trans hflat'.symm) hraise hraise'
      exact ⟨hvis.symm.trans (hsame.trans hvis'), hagree⟩
  · refine iff_of_false ?_ hnot
    intro h
    obtain ⟨tr, l, hrun, hchunks⟩ :=
      exists_run code (accepted code id transport tunnelIp tunnelPort .empty) (first :: more)
    have hunparsed := (unparsed_of_run hrun hchunks hline hmissing).2
    exact Bool.false_ne_true (hunparsed.symm.trans (h.knows hrun hchunks).parsed)

end TlsTunnelListener

end OverSip
