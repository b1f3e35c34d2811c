import OverSip.Sip.TcpConnection
import OverSip.Sip.TlsHandshake

/-!
# `TlsServer`

The class `TlsServer` (`tls_server.rb`) is a `TcpServer` with TLS; its gate is that of
`OverSip.Sip.TlsHandshake`.
-/

namespace OverSip

/-- The connection closes itself. -/
def TcpOut.isClose : TcpOut → Bool
  | .closeConnection => true
  | .closeConnectionAfterWriting => true
  | _ => false

/-- How the program closes a TCP connection. `close` is another name of the second. -/
inductive TcpClose
  | closeConnection
  | closeConnectionAfterWriting
deriving DecidableEq, Repr

def TcpClose.out : TcpClose → TcpOut
  | .closeConnection => .closeConnection
  | .closeConnectionAfterWriting => .closeConnectionAfterWriting

/-- A `TcpServer`, with `@local_closed` and whether it has been unbound. -/
structure TcpServer (σ : Type) where
  listener : TcpListener σ
  localClosed : Bool
  unbound : Bool

namespace TcpServer

variable {σ : Type} (code : TcpCode σ) (s : TcpServer σ)

/-- An accepted connection. -/
def new (id : Nat) (transport : Transport) (remoteIp : String) (remotePort : Nat) (w : World) :
    TcpServer σ :=
  { listener := ⟨.new code id transport remoteIp remotePort, w⟩, localClosed := false, unbound := false }

def setState (state : TcpState) : TcpServer σ :=
  { s with listener := { s.listener with conn := { s.listener.conn with state } } }

/-- `@buffer << data` -/
def push (data : Bytes) : TcpServer σ :=
  { s with listener := { s.listener with conn := s.listener.conn.push data } }

/-- The connection has done this. -/
def processed (r : TcpConnection σ × World × List TcpOut) : TcpServer σ × List TcpOut :=
  ({ s with listener := ⟨r.1, r.2.1⟩, localClosed := s.localClosed || r.2.2.any TcpOut.isClose }, r.2.2)

/-- The class. Nothing goes on in a connection between two chunks. -/
def listenerClass : ListenerClass (TcpServer σ) Unit Empty TcpClose World TcpOut where
  wait := fun s => s.setState .waitingForOnClientTlsHandshake
  restart := fun s => s.setState .init
  processReceivedData := fun _ s =>
    s.processed (s.listener.conn.processReceivedData code s.listener.world)
  receiveData := fun _ s data => s.processed (s.listener.conn.receiveData code s.listener.world data)
  isRaise := TcpOut.isRaise
  goOn := nofun
  close := fun g s => ({ s with localClosed := true }, [g.out])
  closeConnection := .closeConnection
  unbind := fun s => { s.setState .ignore with unbound := true }
  localClosed := localClosed
  unbound := unbound
  elsewhere := fun world s => { s with listener := { s.listener with world } }

variable {code s}

theorem receive_waiting (hstate : s.listener.conn.state = .waitingForOnClientTlsHandshake)
    (data : Bytes) : (listenerClass code).receiveData () s data = (s.push data, []) := by
  show s.processed (s.listener.conn.receiveData code s.listener.world data) = _
  unfold TcpConnection.receiveData processed push
  simp [hstate]

theorem receive_ignored (hstate : s.listener.conn.state = .ignore) (data : Bytes) :
    (listenerClass code).receiveData () s data = (s, []) := by
  show s.processed (s.listener.conn.receiveData code s.listener.world data) = _
  unfold TcpConnection.receiveData processed
  simp [hstate]

/-- Until the callback has returned, what arrives is only stored. -/
def holding (code : TcpCode σ) : Holding (listenerClass code) where
  push := push
  Fresh := fun s => s.listener.conn.state = .init
  Deaf := fun s => s.listener.conn.state = .waitingForOnClientTlsHandshake ∨
    s.listener.conn.state = .ignore
  Idle := fun _ => True
  push_nil s := by
    unfold push TcpConnection.push
    rw [List.append_nil]
  push_push s d e := by
    unfold push TcpConnection.push
    rw [List.append_assoc]
  closed_wait _ := rfl
  closed_restart _ := rfl
  closed_push _ _ := rfl
  closed_close _ _ := rfl
  closed_unbind s := Bool.or_true s.localClosed
  closed_elsewhere _ _ := rfl
  receive_wait s k held d := receive_waiting rfl d
  process_restart s k held hfresh := by
    have hstate : s.listener.conn.state = .init := hfresh
    have hagain : (listenerClass code).restart (((listenerClass code).wait s).push held) = s.push held := by
      show ((s.setState .waitingForOnClientTlsHandshake).push held).setState .init = s.push held
      unfold setState push TcpConnection.push
      rw [← hstate]
    have hreceive : s.listener.conn.receiveData code s.listener.world held =
        (s.push held).listener.conn.processReceivedData code s.listener.world := by
      unfold TcpConnection.receiveData
      simp [hstate, push]
    rw [hagain]
    show (s.push held).processed _ = s.processed _
    rw [hreceive]
    rfl
  elsewhere_wait _ _ _ := rfl
  fresh_elsewhere _ _ hfresh := hfresh
  receive_deaf s k d hdeaf := by
    rcases hdeaf with hwait | hignore
    · exact ⟨d, receive_waiting hwait d⟩
    · refine ⟨[], (receive_ignored hignore d).trans ?_⟩
      unfold push TcpConnection.push
      rw [List.append_nil]
  deaf_wait _ := .inl rfl
  deaf_push _ _ hdeaf := hdeaf
  deaf_close _ _ hdeaf := hdeaf
  deaf_unbind _ _ := .inr rfl
  deaf_elsewhere _ _ hdeaf := hdeaf
  goOn_idle _ := nofun
  idle_fresh _ _ := trivial
  idle_wait _ _ := trivial
  idle_push _ _ _ := trivial
  idle_close _ _ _ := trivial
  idle_unbind _ _ := trivial
  idle_elsewhere _ _ _ := trivial

end TcpServer

end OverSip
