import Mathlib.Tactic.FinCases
import OverSip.Lib.History

/-!
# An outgoing TLS connection

`TlsClient` (`listeners/tls_client.rb`) keeps the messages that `send_sip_msg` is given until the TLS
handshake is done, and runs `on_server_tls_handshake` in a Fiber before it sends them. The callback may be
suspended, so everything else can happen while it runs. `@connected` is set before the callback is
called, and from then on `send_sip_msg` does not wait.
-/

namespace OverSip

/-- How far the handshake of a `TlsClient` has come. -/
inductive Handshake
  | tcp       -- the TCP connection is not open yet
  | tls       -- `start_tls` has been called
  | callback  -- `on_server_tls_handshake` runs, or is suspended
  | finished  -- the pending messages have been sent
  | rejected  -- the callback has returned and the connection was closed
deriving DecidableEq, Repr

/-- `ssl_handshake_completed` has been called. -/
def Handshake.completed : Handshake → Bool
  | .tcp | .tls => false
  | .callback | .finished | .rejected => true

/-- What `ssl_handshake_completed`, `send_sip_msg`, `unbind` and `get_connection` read and write.
`failed` is an error that `error?` reports while the connection exists. -/
structure TlsClient (μ : Type) where
  callbackOnServerTlsHandshake : Bool
  connected : Bool
  localClosed : Bool
  failed : Bool
  unbound : Bool
  pendingMessages : List μ
  pendingClientTransactions : List Nat
  serverPems : List String
  serverLastPem : Option String
  timerTlsHandshake : Bool
  handshake : Handshake
deriving DecidableEq, Repr

/-- What a `TlsClient` does to the others. -/
inductive TlsOut (μ : Type)
  | sendData (m : μ)
  | onServerTlsHandshake (pems : List String)
  | tlsValidationFailed (clientTransaction : Nat)
  | connectionFailed (clientTransaction : Nat)
deriving DecidableEq, Repr

/-- The message that is handed to `send_data`. -/
def TlsOut.data {μ : Type} : TlsOut μ → Option μ
  | .sendData m => some m
  | _ => none

namespace TlsClient

variable {μ : Type}

def start : TlsClient μ :=
  { callbackOnServerTlsHandshake := false, connected := false, localClosed := false, failed := false
    unbound := false, pendingMessages := [], pendingClientTransactions := [], serverPems := []
    serverLastPem := none, timerTlsHandshake := false, handshake := .tcp }

/-- `error?`, which is also true of a connection that does not exist any more. -/
def isError (c : TlsClient μ) : Bool := c.failed || c.unbound

/-- `close_connection`. -/
def closeConnection (c : TlsClient μ) : TlsClient μ := { c with localClosed := true }

/-- What `get_connection` does to a `TlsClient` that it has found. -/
def getConnection (c : TlsClient μ) (callback : Bool) (clientTransaction : Nat) : TlsClient μ :=
  if c.connected then c
  else { c with
    callbackOnServerTlsHandshake := callback
    pendingClientTransactions := c.pendingClientTransactions ++ [clientTransaction] }

def connectionCompleted (c : TlsClient μ) : TlsClient μ :=
  { c with serverPems := [], serverLastPem := none, timerTlsHandshake := true, handshake := .tls }

/-- The timer of `connection_completed` fires. -/
def tlsHandshakeTimeout (c : TlsClient μ) : TlsClient μ :=
  let c := { c with timerTlsHandshake := false }
  if c.connected then c else c.closeConnection

def sslVerifyPeer (c : TlsClient μ) (pem : String) : TlsClient μ :=
  if c.serverLastPem = some pem then c
  else { c with serverLastPem := some pem, serverPems := c.serverPems ++ [pem] }

/-- The end of the Fiber. -/
def sendPending (c : TlsClient μ) : TlsClient μ × List (TlsOut μ) :=
  ({ c with pendingClientTransactions := [], pendingMessages := [], handshake := .finished },
    c.pendingMessages.map .sendData)

/-- `ssl_handshake_completed`, to the call of the callback or, without one, to the end. -/
def sslHandshakeCompleted (c : TlsClient μ) : TlsClient μ × List (TlsOut μ) :=
  let c := { c with connected := true, timerTlsHandshake := false }
  if c.callbackOnServerTlsHandshake then
    ({ c with handshake := .callback }, [.onServerTlsHandshake c.serverPems])
  else c.sendPending

/-- The rest of the Fiber, once the callback has returned or raised. -/
def callbackReturned (c : TlsClient μ) (raised : Bool) : TlsClient μ × List (TlsOut μ) :=
  let c := if raised then c.closeConnection else c
  if c.localClosed || c.isError then
    ({ c with pendingClientTransactions := [], pendingMessages := [], handshake := .rejected },
      c.pendingClientTransactions.map .tlsValidationFailed)
  else c.sendPending

/-- `unbind`, also of `TcpClient`. It is called outside of a `rescue`, where `$!` is `nil`. -/
def unbind (c : TlsClient μ) (timedOut : Bool) : TlsClient μ × List (TlsOut μ) :=
  let c := { c with
    localClosed := c.localClosed || timedOut, unbound := true, timerTlsHandshake := false
    pendingMessages := [] }
  if c.connected then ({ c with connected := false }, [])
  else ({ c with pendingClientTransactions := [] },
    c.pendingClientTransactions.map .connectionFailed)

/-- `send_sip_msg`. With an error it returns `false`. -/
def sendSipMsg (c : TlsClient μ) (m : μ) : TlsClient μ × List (TlsOut μ) :=
  if c.isError then (c, [])
  else if c.connected then (c, [.sendData m])
  else ({ c with pendingMessages := c.pendingMessages ++ [m] }, [])

/-- What can happen to a `TlsClient`. Between two of these the callback may be suspended. -/
inductive Event (μ : Type)
  | getConnection (callback : Bool) (clientTransaction : Nat)
  | sendSipMsg (m : μ)
  | connectionCompleted
  | sslVerifyPeer (pem : String)
  | sslHandshakeCompleted
  | callbackReturned (raised : Bool)
  | tlsHandshakeTimeout
  | closeConnection
  | fail
  | unbind (timedOut : Bool)
deriving DecidableEq, Repr

/-- An unbound connection is not found by `get_connection`, and the reactor calls its methods no more.
Its Fiber and the transactions that hold it go on. -/
def step (c : TlsClient μ) : Event μ → Option (TlsClient μ × List (TlsOut μ))
  | .getConnection callback ct => if c.unbound then none else some (c.getConnection callback ct, [])
  | .sendSipMsg m => some (c.sendSipMsg m)
  | .connectionCompleted =>
    if c.unbound = false ∧ c.handshake = .tcp then some (c.connectionCompleted, []) else none
  | .sslVerifyPeer pem =>
    if c.unbound = false ∧ c.handshake = .tls then some (c.sslVerifyPeer pem, []) else none
  | .sslHandshakeCompleted =>
    if c.unbound = false ∧ c.handshake = .tls then some c.sslHandshakeCompleted else none
  | .callbackReturned raised =>
    if c.handshake = .callback then some (c.callbackReturned raised) else none
  | .tlsHandshakeTimeout => if c.timerTlsHandshake then some (c.tlsHandshakeTimeout, []) else none
  | .closeConnection => some (c.closeConnection, [])
  | .fail => if c.unbound then none else some ({ c with failed := true }, [])
  | .unbind timedOut => if c.unbound then none else some (c.unbind timedOut)

/-! ## The law -/

variable {c c' : TlsClient μ} {tr : List (StepRec (TlsClient μ) (Event μ) (TlsOut μ))}

/-- The message that a step hands to `send_sip_msg`, when the call returns `true`. -/
def given (r : StepRec (TlsClient μ) (Event μ) (TlsOut μ)) : Option μ :=
  match r.ev with
  | .sendSipMsg m => if r.pre.isError then none else some m
  | _ => none

/-- The callback has returned in this step, and the connection is not closed. -/
def Validates (r : StepRec (TlsClient μ) (Event μ) (TlsOut μ)) : Prop :=
  ∃ raised, r.ev = .callbackReturned raised ∧ r.post.localClosed = false ∧ r.post.isError = false

/-- The messages that a history has handed to `send_data`. -/
def sent (tr : List (StepRec (TlsClient μ) (Event μ) (TlsOut μ))) : List μ :=
  (outputs tr).filterMap TlsOut.data

/-- No message is sent before the callback has returned without closing the connection. -/
def Gate (tr : List (StepRec (TlsClient μ) (Event μ) (TlsOut μ))) : Prop :=
  ∀ tr₁ r tr₂ m, tr = tr₁ ++ r :: tr₂ → .sendData m ∈ r.out →
    r.pre.callbackOnServerTlsHandshake = true → ∃ r' ∈ tr₁ ++ [r], Validates r'

/-- What the handshake promises of a history that ends in `c`. -/
structure Gated (tr : List (StepRec (TlsClient μ) (Event μ) (TlsOut μ))) (c : TlsClient μ) :
    Prop where
  gate : Gate tr
  /-- The messages are sent in the order given, none twice. -/
  order : sent tr <+: tr.filterMap given
  /-- None is missing once the handshake has ended well. -/
  complete : c.handshake = .finished → sent tr = tr.filterMap given

/-- `send_sip_msg` does not wait for the callback: it is called after the handshake, but before the
callback has returned, or when it has closed the connection. -/
def SendsUnvalidated (c : TlsClient μ) : Event μ → Prop
  | .sendSipMsg _ => c.isError = false ∧ c.connected = true ∧
    c.callbackOnServerTlsHandshake = true ∧ c.handshake ≠ .finished
  | _ => False

instance (c : TlsClient μ) (ev : Event μ) : Decidable (c.SendsUnvalidated ev) :=
  match ev with
  | .sendSipMsg _ => inferInstanceAs (Decidable (_ = false ∧ _ = true ∧ _ = true ∧ _ ≠ Handshake.finished))
  | .getConnection _ _ | .connectionCompleted | .sslVerifyPeer _ | .sslHandshakeCompleted
  | .callbackReturned _ | .tlsHandshakeTimeout | .closeConnection | .fail | .unbind _ =>
    inferInstanceAs (Decidable False)

/-! ## What a step does to a history -/

variable {r : StepRec (TlsClient μ) (Event μ) (TlsOut μ)} {ev : Event μ} {o : List (TlsOut μ)}

theorem sent_snoc : sent (tr ++ [r]) = sent tr ++ r.out.filterMap TlsOut.data := by
  unfold sent
  rw [outputs_snoc, List.filterMap_append]

theorem given_snoc : (tr ++ [r]).filterMap given = tr.filterMap given ++ (given r).toList := by
  rw [List.filterMap_append]
  cases h : given r with
  | none => simp [h]
  | some m => simp [h]

theorem data_sendData (ms : List μ) : (ms.map TlsOut.sendData).filterMap TlsOut.data = ms := by
  rw [List.filterMap_map]
  exact List.filterMap_some

theorem data_of_ne {cts : List Nat} {f : Nat → TlsOut μ} (hf : ∀ n, (f n).data = none) :
    (cts.map f).filterMap TlsOut.data = [] := by
  rw [List.filterMap_eq_nil_iff]
  intro x hx
  obtain ⟨n, _, rfl⟩ := List.mem_map.mp hx
  exact hf n

theorem gate_nil : Gate ([] : List (StepRec (TlsClient μ) (Event μ) (TlsOut μ))) := by
  intro tr₁ r tr₂ m htr
  simp at htr

theorem Gate.snoc (h : Gate tr)
    (hr : r.out.filterMap TlsOut.data ≠ [] → r.pre.callbackOnServerTlsHandshake = true →
      ∃ r' ∈ tr ++ [r], Validates r') : Gate (tr ++ [r]) := by
  intro tr₁ r' tr₂ m htr hm hcb
  rcases snoc_eq_append_cons htr with ⟨rfl, rfl⟩ | ⟨tr₃, htr₃⟩
  · refine hr (fun hnil => ?_) hcb
    rw [List.filterMap_eq_nil_iff] at hnil
    cases hnil _ hm
  · exact h tr₁ r' tr₃ m htr₃ hm hcb

/-! ## The state and its history -/

/-- The state of a client and the history that leads to it. -/
structure Inv (tr : List (StepRec (TlsClient μ) (Event μ) (TlsOut μ))) (c : TlsClient μ) : Prop where
  connected : c.connected = true ↔ c.handshake.completed = true ∧ c.unbound = false
  called : c.handshake = .callback ∨ c.handshake = .rejected →
    c.callbackOnServerTlsHandshake = true
  unsent : c.handshake ≠ .finished → sent tr = []
  pending : c.handshake ≠ .finished → c.handshake ≠ .rejected → c.unbound = false →
    c.pendingMessages = tr.filterMap given
  finished : c.handshake = .finished → sent tr = tr.filterMap given
  validated : c.handshake = .finished → c.callbackOnServerTlsHandshake = true →
    ∃ r ∈ tr, Validates r

theorem inv_start : Inv [] (start : TlsClient μ) := by
  refine ⟨?_, ?_, ?_, ?_, ?_, ?_⟩
  · simp [start, Handshake.completed]
  · intro h
    cases h with
    | inl h => cases h
    | inr h => cases h
  · exact fun _ => rfl
  · exact fun _ _ _ => rfl
  · exact fun _ => rfl
  · exact fun h => nomatch h

/-- A step that neither sends nor is given a message and leaves what the invariant speaks of. -/
theorem Inv.quiet (h : Inv tr r.pre) (hout : r.out.filterMap TlsOut.data = [])
    (hgiven : given r = none) (hhandshake : r.post.handshake = r.pre.handshake)
    (hconnected : r.post.connected = r.pre.connected) (hunbound : r.post.unbound = r.pre.unbound)
    (hpending : r.post.pendingMessages = r.pre.pendingMessages)
    (hcallback : r.pre.handshake.completed = true →
      r.post.callbackOnServerTlsHandshake = r.pre.callbackOnServerTlsHandshake) :
    Inv (tr ++ [r]) r.post := by
  have hsent : sent (tr ++ [r]) = sent tr := by rw [sent_snoc, hout, List.append_nil]
  have hgivens : (tr ++ [r]).filterMap given = tr.filterMap given := by
    rw [given_snoc, hgiven]
    exact List.append_nil _
  refine ⟨?_, ?_, ?_, ?_, ?_, ?_⟩
  · rw [hconnected, hhandshake, hunbound]
    exact h.connected
  · rw [hhandshake]
    intro hc
    rw [hcallback (by rcases hc with hc | hc <;> rw [hc] <;> rfl)]
    exact h.called hc
  · rw [hhandshake, hsent]
    exact h.unsent
  · rw [hhandshake, hunbound, hpending, hgivens]
    exact h.pending
  · rw [hhandshake, hsent, hgivens]
    exact h.finished
  · rw [hhandshake]
    intro hc
    rw [hcallback (by rw [hc]; rfl)]
    intro hcb
    obtain ⟨r', hr', hv⟩ := h.validated hc hcb
    exact ⟨r', List.mem_append_left _ hr', hv⟩

/-- A step that sends the pending messages. -/
theorem Inv.sendPending (h : Inv tr r.pre) (hfinished : r.pre.handshake ≠ .finished)
    (hrejected : r.pre.handshake ≠ .rejected) (hunbound : r.pre.unbound = false)
    (hgiven : given r = none) (hout : r.out = r.pre.pendingMessages.map .sendData)
    (hpost : r.post.handshake = .finished ∧ r.post.connected = true ∧ r.post.unbound = false)
    (hvalid : r.post.callbackOnServerTlsHandshake = true → Validates r) :
    Inv (tr ++ [r]) r.post := by
  obtain ⟨hhandshake, hconnected, hopen⟩ := hpost
  refine ⟨?_, ?_, ?_, ?_, ?_, ?_⟩
  · rw [hconnected, hhandshake, hopen]
    exact ⟨fun _ => ⟨rfl, rfl⟩, fun _ => rfl⟩
  · rw [hhandshake]
    rintro (hc | hc) <;> cases hc
  · exact fun hc => absurd hhandshake hc
  · exact fun hc => absurd hhandshake hc
  · intro _
    -- nothing has been sent, and all that was given is pending
    rw [sent_snoc, given_snoc, hgiven, hout, data_sendData, h.unsent hfinished,
      h.pending hfinished hrejected hunbound, List.nil_append]
    exact (List.append_nil _).symm
  · exact fun _ hcb => ⟨r, List.mem_append_right _ (List.mem_singleton.mpr rfl), hvalid hcb⟩

theorem Inv.sslHandshakeCompleted {o : List (TlsOut μ)} (h : Inv tr c)
    (hs : c.step .sslHandshakeCompleted = some (c', o)) :
    Inv (tr ++ [⟨c, .sslHandshakeCompleted, o, c'⟩]) c' := by
  simp only [step] at hs
  split_ifs at hs with hguard
  obtain ⟨hunbound, htls⟩ := hguard
  unfold TlsClient.sslHandshakeCompleted at hs
  dsimp only at hs
  by_cases hcb : c.callbackOnServerTlsHandshake = true
  · rw [if_pos hcb] at hs
    obtain ⟨rfl, rfl⟩ := Prod.mk.inj (Option.some.inj hs)
    have hne : c.handshake ≠ .finished := by rw [htls]; exact nofun
    refine ⟨?_, ?_, ?_, ?_, ?_, ?_⟩
    · exact ⟨fun _ => ⟨rfl, hunbound⟩, fun _ => rfl⟩
    · exact fun _ => hcb
    · intro _
      rw [sent_snoc, h.unsent hne]
      rfl
    · intro _ _ _
      rw [given_snoc, ← h.pending hne (by rw [htls]; exact nofun) hunbound]
      exact (List.append_nil _).symm
    · exact fun hc => nomatch hc
    · exact fun hc => nomatch hc
  · rw [if_neg hcb] at hs
    obtain ⟨rfl, rfl⟩ := Prod.mk.inj (Option.some.inj hs)
    refine Inv.sendPending (r := ⟨c, .sslHandshakeCompleted, _, _⟩) h ?_ ?_ hunbound rfl rfl
      ⟨rfl, rfl, hunbound⟩ fun hc => absurd hc hcb
    · rw [htls]
      exact nofun
    · rw [htls]
      exact nofun

/-- The callback has returned: the connection was closed, or the pending messages are sent. -/
theorem callbackReturned_cases {raised : Bool} {o : List (TlsOut μ)}
    (hs : c.step (.callbackReturned raised) = some (c', o)) : c.handshake = .callback ∧
      ((((c.localClosed || raised) || c.isError) = true ∧
          c' = { c with localClosed := c.localClosed || raised, pendingClientTransactions := []
                        pendingMessages := [], handshake := .rejected } ∧
          o = c.pendingClientTransactions.map .tlsValidationFailed) ∨
        ((c.localClosed || c.isError) = false ∧ (c', o) = c.sendPending)) := by
  simp only [step] at hs
  split_ifs at hs with hguard
  refine ⟨hguard, ?_⟩
  unfold TlsClient.callbackReturned at hs
  cases raised with
  | false =>
    rw [Bool.or_false]
    simp only [Bool.false_eq_true, if_false] at hs
    by_cases hclosed : (c.localClosed || c.isError) = true
    · rw [if_pos hclosed] at hs
      obtain ⟨rfl, rfl⟩ := Prod.mk.inj (Option.some.inj hs)
      exact .inl ⟨hclosed, rfl, rfl⟩
    · rw [if_neg hclosed] at hs
      exact .inr ⟨eq_false_of_ne_true hclosed, (Option.some.inj hs).symm⟩
  | true =>
    rw [Bool.or_true, Bool.true_or]
    obtain ⟨rfl, rfl⟩ := Prod.mk.inj (Option.some.inj hs)
    exact .inl ⟨rfl, rfl, rfl⟩

theorem Inv.callbackReturned {raised : Bool} {o : List (TlsOut μ)} (h : Inv tr c)
    (hs : c.step (.callbackReturned raised) = some (c', o)) :
    Inv (tr ++ [⟨c, .callbackReturned raised, o, c'⟩]) c' := by
  obtain ⟨hguard, ⟨hclosed, rfl, rfl⟩ | ⟨hopen, heq⟩⟩ := callbackReturned_cases hs
  · refine ⟨?_, ?_, ?_, ?_, ?_, ?_⟩
    · rw [h.connected, hguard]
      exact Iff.rfl
    · exact fun _ => h.called (.inl hguard)
    · intro _
      rw [sent_snoc, h.unsent (by rw [hguard]; exact nofun), data_of_ne fun _ => rfl]
      rfl
    · exact fun _ hc => absurd rfl hc
    · exact fun hc => nomatch hc
    · exact fun hc => nomatch hc
  · obtain ⟨rfl, rfl⟩ := Prod.mk.inj heq
    obtain ⟨hlocal, herror⟩ := Bool.or_eq_false_iff.mp hopen
    have hunbound : c.unbound = false := (Bool.or_eq_false_iff.mp herror).2
    have hconnected : c.connected = true := h.connected.mpr ⟨by rw [hguard]; rfl, hunbound⟩
    refine Inv.sendPending (r := ⟨c, .callbackReturned raised, _, _⟩) h ?_ ?_ hunbound rfl rfl
      ⟨rfl, hconnected, hunbound⟩ fun _ => ⟨raised, rfl, hlocal, herror⟩
    · rw [hguard]
      exact nofun
    · rw [hguard]
      exact nofun

theorem Inv.unbind {timedOut : Bool} {o : List (TlsOut μ)} (h : Inv tr c)
    (hs : c.step (.unbind timedOut) = some (c', o)) :
    Inv (tr ++ [⟨c, .unbind timedOut, o, c'⟩]) c' := by
  have hspec : c'.connected = false ∧ c'.unbound = true ∧ c'.handshake = c.handshake ∧
      c'.callbackOnServerTlsHandshake = c.callbackOnServerTlsHandshake ∧
      o.filterMap TlsOut.data = [] := by
    simp only [step] at hs
    split_ifs at hs
    unfold TlsClient.unbind at hs
    dsimp only at hs
    by_cases hconnected : c.connected = true
    · rw [if_pos hconnected] at hs
      obtain ⟨rfl, rfl⟩ := Prod.mk.inj (Option.some.inj hs)
      exact ⟨rfl, rfl, rfl, rfl, rfl⟩
    · rw [if_neg hconnected] at hs
      obtain ⟨rfl, rfl⟩ := Prod.mk.inj (Option.some.inj hs)
      exact ⟨eq_false_of_ne_true hconnected, rfl, rfl, rfl, data_of_ne fun _ => rfl⟩
  obtain ⟨hconnected, hunbound, hhandshake, hcallback, hout⟩ := hspec
  generalize hr : StepRec.mk c (Event.unbind timedOut) o c' = r
  have hsent : sent (tr ++ [r]) = sent tr := by
    rw [sent_snoc, ← hr, hout, List.append_nil]
  have hgivens : (tr ++ [r]).filterMap given = tr.filterMap given := by
    rw [given_snoc, ← hr]
    exact List.append_nil _
  refine ⟨?_, ?_, ?_, ?_, ?_, ?_⟩
  · rw [hconnected, hunbound]
    simp
  · rw [hhandshake, hcallback]
    exact h.called
  · rw [hhandshake, hsent]
    exact h.unsent
  · intro _ _ hc
    rw [hunbound] at hc
    cases hc
  · rw [hhandshake, hsent, hgivens]
    exact h.finished
  · rw [hhandshake, hcallback]
    intro hc hcb
    obtain ⟨r', hr', hv⟩ := h.validated hc hcb
    exact ⟨r', List.mem_append_left _ hr', hv⟩

theorem Inv.getConnection {callback : Bool} {clientTransaction : Nat} {o : List (TlsOut μ)}
    (h : Inv tr c) (hs : c.step (.getConnection callback clientTransaction) = some (c', o)) :
    Inv (tr ++ [⟨c, .getConnection callback clientTransaction, o, c'⟩]) c' := by
  simp only [step] at hs
  split_ifs at hs with hunbound
  obtain ⟨rfl, rfl⟩ := Prod.mk.inj (Option.some.inj hs)
  unfold TlsClient.getConnection
  by_cases hconnected : c.connected = true
  · rw [if_pos hconnected]
    exact Inv.quiet (r := ⟨c, .getConnection callback clientTransaction, _, _⟩) h rfl rfl rfl rfl rfl rfl
      fun _ => rfl
  · rw [if_neg hconnected]
    refine Inv.quiet (r := ⟨c, .getConnection callback clientTransaction, _, _⟩) h rfl rfl rfl rfl rfl rfl
      fun hc => ?_
    exact absurd (h.connected.mpr ⟨hc, eq_false_of_ne_true hunbound⟩) hconnected

/-- A message waits before the handshake, and is sent at once when all others have been sent. -/
theorem Inv.sendSipMsg {m : μ} {o : List (TlsOut μ)} (h : Inv tr c)
    (hG : ¬ c.SendsUnvalidated (.sendSipMsg m)) (hs : c.step (.sendSipMsg m) = some (c', o)) :
    Inv (tr ++ [⟨c, .sendSipMsg m, o, c'⟩]) c' := by
  simp only [step] at hs
  unfold TlsClient.sendSipMsg at hs
  by_cases herror : c.isError = true
  · rw [if_pos herror] at hs
    obtain ⟨rfl, rfl⟩ := Prod.mk.inj (Option.some.inj hs)
    exact Inv.quiet (r := ⟨c, .sendSipMsg m, _, _⟩) h rfl (if_pos herror) rfl rfl rfl rfl fun _ => rfl
  · rw [if_neg herror] at hs
    have hgiven : ∀ o c', given ⟨c, .sendSipMsg m, o, c'⟩ = some m := fun _ _ => if_neg herror
    by_cases hconnected : c.connected = true
    · rw [if_pos hconnected] at hs
      obtain ⟨rfl, rfl⟩ := Prod.mk.inj (Option.some.inj hs)
      -- with a callback the handshake has finished, or the call would be the one that `hG` excludes
      have hfinished : c.handshake = .finished := by
        by_contra hne
        have hcb : c.callbackOnServerTlsHandshake = true := by
          refine h.called ?_
          have hcompleted := (h.connected.mp hconnected).1
          cases hh : c.handshake with
          | tcp | tls => rw [hh] at hcompleted; cases hcompleted
          | callback => exact .inl rfl
          | finished => exact absurd hh hne
          | rejected => exact .inr rfl
        exact hG ⟨eq_false_of_ne_true herror, hconnected, hcb, hne⟩
      refine ⟨h.connected, h.called, ?_, ?_, ?_, ?_⟩
      · exact fun hc => absurd hfinished hc
      · exact fun hc => absurd hfinished hc
      · intro _
        rw [sent_snoc, given_snoc, hgiven, h.finished hfinished]
        rfl
      · intro _ hcb
        obtain ⟨r', hr', hv⟩ := h.validated hfinished hcb
        exact ⟨r', List.mem_append_left _ hr', hv⟩
    · rw [if_neg hconnected] at hs
      obtain ⟨rfl, rfl⟩ := Prod.mk.inj (Option.some.inj hs)
      have hunbound : c.unbound = false :=
        (Bool.or_eq_false_iff.mp (eq_false_of_ne_true herror)).2
      -- the handshake has not been completed, since the client would be connected
      have hcompleted : c.handshake.completed ≠ true := fun hc =>
        hconnected (h.connected.mpr ⟨hc, hunbound⟩)
      have hne : c.handshake ≠ .finished := fun hc => hcompleted (by rw [hc]; rfl)
      have hne' : c.handshake ≠ .rejected := fun hc => hcompleted (by rw [hc]; rfl)
      refine ⟨h.connected, h.called, ?_, ?_, ?_, ?_⟩
      · intro _
        rw [sent_snoc, h.unsent hne]
        rfl
      · intro _ _ _
        rw [given_snoc, hgiven, ← h.pending hne hne' hunbound]
        rfl
      · exact fun hc => absurd hc hne
      · exact fun hc => absurd hc hne

theorem Inv.step {ev : Event μ} {o : List (TlsOut μ)} (h : Inv tr c) (hG : ¬ c.SendsUnvalidated ev)
    (hs : c.step ev = some (c', o)) : Inv (tr ++ [⟨c, ev, o, c'⟩]) c' := by
  cases ev with
  | getConnection callback clientTransaction => exact h.getConnection hs
  | sendSipMsg m => exact h.sendSipMsg hG hs
  | sslHandshakeCompleted => exact h.sslHandshakeCompleted hs
  | callbackReturned raised => exact h.callbackReturned hs
  | unbind timedOut => exact h.unbind hs
  | connectionCompleted =>
    simp only [TlsClient.step] at hs
    split_ifs at hs with hguard
    obtain ⟨rfl, rfl⟩ := Prod.mk.inj (Option.some.inj hs)
    have hne : c.handshake ≠ .finished := by rw [hguard.2]; exact nofun
    have hne' : c.handshake ≠ .rejected := by rw [hguard.2]; exact nofun
    refine ⟨?_, ?_, ?_, ?_, ?_, ?_⟩
    · have hconnected := h.connected
      rw [hguard.2] at hconnected
      exact hconnected
    · rintro (hc | hc) <;> cases hc
    · intro _
      rw [sent_snoc, h.unsent hne]
      rfl
    · intro _ _ hunbound
      rw [given_snoc, ← h.pending hne hne' hunbound]
      exact (List.append_nil _).symm
    · exact fun hc => nomatch hc
    · exact fun hc => nomatch hc
  | sslVerifyPeer pem =>
    simp only [TlsClient.step] at hs
    split_ifs at hs
    obtain ⟨rfl, rfl⟩ := Prod.mk.inj (Option.some.inj hs)
    unfold TlsClient.sslVerifyPeer
    split_ifs
    · exact Inv.quiet (r := ⟨c, .sslVerifyPeer pem, _, _⟩) h rfl rfl rfl rfl rfl rfl fun _ => rfl
    · exact Inv.quiet (r := ⟨c, .sslVerifyPeer pem, _, _⟩) h rfl rfl rfl rfl rfl rfl fun _ => rfl
  | tlsHandshakeTimeout =>
    simp only [TlsClient.step] at hs
    split_ifs at hs
    obtain ⟨rfl, rfl⟩ := Prod.mk.inj (Option.some.inj hs)
    unfold TlsClient.tlsHandshakeTimeout
    dsimp only
    split_ifs
    · exact Inv.quiet (r := ⟨c, .tlsHandshakeTimeout, _, _⟩) h rfl rfl rfl rfl rfl rfl fun _ => rfl
    · exact Inv.quiet (r := ⟨c, .tlsHandshakeTimeout, _, _⟩) h rfl rfl rfl rfl rfl rfl fun _ => rfl
  | closeConnection =>
    obtain ⟨rfl, rfl⟩ := Prod.mk.inj (Option.some.inj hs)
    exact Inv.quiet (r := ⟨c, .closeConnection, _, _⟩) h rfl rfl rfl rfl rfl rfl fun _ => rfl
  | fail =>
    simp only [TlsClient.step] at hs
    split_ifs at hs
    obtain ⟨rfl, rfl⟩ := Prod.mk.inj (Option.some.inj hs)
    exact Inv.quiet (r := ⟨c, .fail, _, _⟩) h rfl rfl rfl rfl rfl rfl fun _ => rfl

/-! ## The gate -/

/-- A message is sent by a step that leaves the handshake finished. -/
theorem finished_of_data {ev : Event μ} {o : List (TlsOut μ)}
    (hG : ¬ c.SendsUnvalidated ev) (hs : c.step ev = some (c', o))
    (ho : o.filterMap TlsOut.data ≠ []) (hcb : c.callbackOnServerTlsHandshake = true) :
    c'.handshake = .finished ∧ c'.callbackOnServerTlsHandshake = true := by
  cases ev with
  | sendSipMsg m =>
    simp only [TlsClient.step] at hs
    unfold TlsClient.sendSipMsg at hs
    split_ifs at hs with herror hconnected
    · obtain ⟨rfl, rfl⟩ := Prod.mk.inj (Option.some.inj hs)
      exact absurd rfl ho
    · obtain ⟨rfl, rfl⟩ := Prod.mk.inj (Option.some.inj hs)
      refine ⟨?_, hcb⟩
      by_contra hne
      exact hG ⟨eq_false_of_ne_true herror, hconnected, hcb, hne⟩
    · obtain ⟨rfl, rfl⟩ := Prod.mk.inj (Option.some.inj hs)
      exact absurd rfl ho
  | sslHandshakeCompleted =>
    simp only [TlsClient.step] at hs
    split_ifs at hs
    unfold TlsClient.sslHandshakeCompleted at hs
    dsimp only at hs
    rw [if_pos hcb] at hs
    obtain ⟨rfl, rfl⟩ := Prod.mk.inj (Option.some.inj hs)
    exact absurd rfl ho
  | callbackReturned raised =>
    obtain ⟨_, ⟨_, _, rfl⟩ | ⟨_, heq⟩⟩ := callbackReturned_cases hs
    · exact absurd (data_of_ne fun _ => rfl) ho
    · obtain ⟨rfl, _⟩ := Prod.mk.inj heq
      exact ⟨rfl, hcb⟩
  | unbind timedOut =>
    simp only [TlsClient.step] at hs
    split_ifs at hs
    unfold TlsClient.unbind at hs
    dsimp only at hs
    split_ifs at hs
    · obtain ⟨rfl, rfl⟩ := Prod.mk.inj (Option.some.inj hs)
      exact absurd rfl ho
    · obtain ⟨rfl, rfl⟩ := Prod.mk.inj (Option.some.inj hs)
      exact absurd (data_of_ne fun _ => rfl) ho
  | closeConnection =>
    obtain ⟨_, rfl⟩ := Prod.mk.inj (Option.some.inj hs)
    exact absurd rfl ho
  | _ =>
    simp only [TlsClient.step] at hs
    split_ifs at hs
    obtain ⟨_, rfl⟩ := Prod.mk.inj (Option.some.inj hs)
    exact absurd rfl ho

/-- After the callback has returned without closing the connection, the handshake is finished. -/
theorem finished_of_validates (h : Run step start tr c) (hv : ∃ r ∈ tr, Validates r) :
    c.handshake = .finished := by
  -- no step leaves a finished handshake
  have hkeep : ∀ (c c' : TlsClient μ) (ev : Event μ) (o : List (TlsOut μ)),
      c.handshake = .finished → c.step ev = some (c', o) → c'.handshake = .finished := by
    intro c c' ev o hc hs
    cases ev <;>
      simp only [TlsClient.step, TlsClient.getConnection, TlsClient.sendSipMsg,
        TlsClient.connectionCompleted, TlsClient.sslVerifyPeer, TlsClient.tlsHandshakeTimeout,
        TlsClient.closeConnection, TlsClient.unbind, hc, reduceCtorEq, and_false, if_false] at hs <;>
      grind
  suffices hI : (∃ r ∈ tr, Validates r) → c.handshake = .finished from hI hv
  refine Run.invariant (G := fun _ _ => True)
    (I := fun tr c => (∃ r ∈ tr, Validates r) → c.handshake = .finished) ?_ ?_ h fun _ _ => trivial
  · rintro ⟨r, hr, _⟩
    cases hr
  · rintro tr c ev c' o ih _ hs ⟨r, hr, hvalid⟩
    rcases List.mem_append.mp hr with hr | hr
    · exact hkeep c c' ev o (ih ⟨r, hr, hvalid⟩) hs
    · obtain rfl := List.mem_singleton.mp hr
      obtain ⟨raised, rfl, hlocal, herror⟩ := hvalid
      obtain ⟨_, ⟨hclosed, rfl, _⟩ | ⟨_, heq⟩⟩ := callbackReturned_cases hs
      · have hopen : ((c.localClosed || raised) || c.isError) = false :=
          Bool.or_eq_false_iff.mpr ⟨hlocal, herror⟩
        rw [hopen] at hclosed
        cases hclosed
      · exact congrArg handshake (Prod.mk.inj heq).1

theorem Inv.order (h : Inv tr c) : sent tr <+: tr.filterMap given := by
  by_cases hfinished : c.handshake = .finished
  · exact ⟨[], (List.append_nil _).trans (h.finished hfinished)⟩
  · rw [h.unsent hfinished]
    exact List.nil_prefix

/-- **The validation gate.** In every run, the messages wait for the callback and are sent in the order
given, each once, exactly if `send_sip_msg` is never called between the handshake and the return of the
callback, nor after a callback that has closed the connection. -/
theorem gated_iff (h : Run step (start : TlsClient μ) tr c) :
    Gated tr c ↔ ∀ r ∈ tr, ¬ r.pre.SendsUnvalidated r.ev := by
  constructor
  · intro hgated r hr hsends
    obtain ⟨tr₁, tr₂, rfl⟩ := List.append_of_mem hr
    obtain ⟨hrun, hs, _⟩ := h.of_middle
    obtain ⟨m, hev⟩ : ∃ m, r.ev = .sendSipMsg m := by
      cases hev : r.ev with
      | sendSipMsg m => exact ⟨m, rfl⟩
      | _ => rw [hev] at hsends; exact hsends.elim
    rw [hev] at hs hsends
    obtain ⟨herror, hconnected, hcb, hne⟩ := hsends
    simp only [step] at hs
    unfold TlsClient.sendSipMsg at hs
    rw [if_neg (by rw [herror]; exact Bool.false_ne_true), if_pos hconnected] at hs
    obtain ⟨_, hout⟩ := Prod.mk.inj (Option.some.inj hs)
    obtain ⟨r', hr', hv⟩ := hgated.gate tr₁ r tr₂ m rfl
      (by rw [← hout]; exact List.mem_singleton.mpr rfl) hcb
    rcases List.mem_append.mp hr' with hr' | hr'
    · exact hne (finished_of_validates hrun ⟨r', hr', hv⟩)
    · obtain rfl := List.mem_singleton.mp hr'
      obtain ⟨raised, hev', _⟩ := hv
      rw [hev] at hev'
      cases hev'
  · intro hG
    have hI : Inv tr c ∧ Gate tr := by
      refine Run.invariant (G := fun c ev => ¬ c.SendsUnvalidated ev)
        (I := fun tr c => Inv tr c ∧ Gate tr) ⟨inv_start, gate_nil⟩ ?_ h hG
      rintro tr c ev c' o ⟨hinv, hgate⟩ hGe hs
      have hinv' := hinv.step hGe hs
      refine ⟨hinv', hgate.snoc fun ho hcb => ?_⟩
      obtain ⟨hfinished, hcb'⟩ := finished_of_data hGe hs ho hcb
      exact hinv'.validated hfinished hcb'
    exact ⟨hI.2, hI.1.order, hI.1.finished⟩

/-- A second request for the server is made while the callback is suspended. -/
def duringCallback : List (Event String) :=
  [.getConnection true 0, .sendSipMsg "INVITE 1", .connectionCompleted, .sslVerifyPeer "pem",
    .sslHandshakeCompleted, .getConnection true 1, .sendSipMsg "INVITE 2", .callbackReturned false]

theorem gated_broken_during_callback : ∃ tr c, Run step (start : TlsClient String) tr c ∧
    tr.map (·.ev) = duringCallback ∧ ¬ Gate tr ∧ ¬ sent tr <+: tr.filterMap given := by
  have hrun := run_of_exec
    (show exec step (start : TlsClient String) duringCallback = some (_, _) from rfl)
  refine ⟨_, _, hrun, rfl, ?_, by decide⟩
  intro hgate
  obtain ⟨r, hr, raised, hev, _⟩ := hgate (_ :: _ :: _ :: _ :: _ :: _ :: []) _ [_] "INVITE 2" rfl
    (List.mem_singleton.mpr rfl) rfl
  fin_cases hr <;> cases hev

/-- The callback returns before the second request. -/
def afterCallback : List (Event String) :=
  [.getConnection true 0, .sendSipMsg "INVITE 1", .connectionCompleted, .sslVerifyPeer "pem",
    .sslHandshakeCompleted, .callbackReturned false, .getConnection true 1, .sendSipMsg "INVITE 2"]

theorem gated_after_callback : ∃ tr c, Run step (start : TlsClient String) tr c ∧
    tr.map (·.ev) = afterCallback ∧ Gated tr c ∧ sent tr = ["INVITE 1", "INVITE 2"] := by
  have hrun := run_of_exec
    (show exec step (start : TlsClient String) afterCallback = some (_, _) from rfl)
  exact ⟨_, _, hrun, rfl, (gated_iff hrun).mpr (by decide), by decide⟩

end TlsClient

end OverSip
