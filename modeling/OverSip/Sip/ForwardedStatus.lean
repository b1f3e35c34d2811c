import OverSip.Lib.History
import OverSip.Sip.Proxy
import OverSip.Sip.ServerResponses

/-!
# The statuses that a proxy sends on

A `Proxy` (`proxy.rb`) for a request of any method, as far as it calls `reply_full` and `reply` of the
request. `receive_response` and `no_more_targets` make a 500 of a 503. A response that is not looked at, since
the request was canceled or has its final response already, is given to `reply_full` as it came.

The client transactions and DNS are the environment's: their calls come in any order, and any number of times.
A callback may do anything to the server transaction.
-/

namespace OverSip

/-! ## What server transactions take -/

/-- `valid_response?` of a non-INVITE server transaction. -/
def NonInviteServerTransaction.validResponse (t : NonInviteServerTransaction) (statusCode : ℕ) : Bool :=
  if statusCode < 200 then t.state == .trying || t.state == .proceeding
  else t.state == .trying || t.state == .proceeding

/-- `valid_response?` -/
def Transaction.validResponse (statusCode : ℕ) : Transaction → Bool
  | .invite t => t.validResponse statusCode
  | .nonInvite t => t.validResponse statusCode

/-! ## The proxy -/

/-- What callbacks and the blacklist do while an event is handled. -/
structure CallbackEnv where
  blacklist : Target → Option NoTarget
  callbacks : Callback → Effects
  /-- The server transaction after the callbacks. -/
  transaction : Callback → Transaction → Transaction

/-- A `Proxy`, as far as its replies depend on it. -/
structure ReplyingProxy where
  dnsFailoverOn503 : Bool
  server : Transaction
  /-- The targets from `@num_target` on. -/
  targets : List Target
  canceled : Bool
  aborted : Bool
  dropResponse : Bool
deriving DecidableEq, Repr

/-- The calls that a proxy makes, and what the server transaction puts out. -/
inductive ReplyCall
  | replyFull (r : Response)
  | reply (statusCode : ℕ) (reason : String)
  | sendRequest (t : Target)
  | server (o : ServerOut)
  | raise (e : RubyError)
deriving DecidableEq, Repr

namespace ReplyingProxy

def runCallbacks (p : ReplyingProxy) (env : CallbackEnv) (c : Callback) : ReplyingProxy :=
  { p with
    aborted := p.aborted || (env.callbacks c).abort
    dropResponse := p.dropResponse || (env.callbacks c).drop
    server := env.transaction c p.server }

/-- The call that a reply is. -/
def callOf : Reply → ReplyCall
  | .built statusCode reason .. => .reply statusCode reason
  | .forwarded r => .replyFull r

/-- `@request.reply` and `@request.reply_full`. -/
def reply (p : ReplyingProxy) (r : Reply) : ReplyingProxy × List ReplyCall :=
  let (server, o) := p.server.reply r
  ({ p with server }, callOf r :: o.map .server)

/-- `@request.reply… unless @drop_response`, which is cleared. -/
def replyUnlessDropped (p : ReplyingProxy) (r : Reply) : ReplyingProxy × List ReplyCall :=
  if p.dropResponse then ({ p with dropResponse := false }, []) else p.reply r

/-- `no_more_targets` -/
def noMoreTargets (p : ReplyingProxy) (env : CallbackEnv) : Option NoTarget → ReplyingProxy × List ReplyCall
  | some why =>
    match why.fullResponse with
    | some r => (p.runCallbacks env .failure).replyUnlessDropped (.forwarded (Proxy.convert503 r))
    | none => (p.runCallbacks env .error).replyUnlessDropped (.built why.status why.reason)
  | none =>
    let p := p.runCallbacks env .error
    if p.dropResponse then ({ p with dropResponse := false }, []) else (p, [.raise .noMethodError])

/-- `try_next_target` and `use_target`, on the targets that are left. -/
def tryNextTarget (env : CallbackEnv) :
    List Target → ReplyingProxy → Option NoTarget → ReplyingProxy × List ReplyCall
  | [], p, why => { p with targets := [] }.noMoreTargets env why
  | t :: ts, p, _ =>
    let p := { p with targets := ts }
    match env.blacklist t with
    | some entry => tryNextTarget env ts p (some entry)
    | none =>
      let p := p.runCallbacks env (.target t)
      if p.aborted then
        { p with aborted := false, targets := [] }.noMoreTargets env
          (some ⟨403, "Destination Aborted", none⟩)
      else
        (p, [.sendRequest t])

/-- `do_dns_fail`. An ACK is not answered, and has no proxy of this kind. -/
def doDnsFail (p : ReplyingProxy) (env : CallbackEnv) (status : ℕ) (reason : String) :
    ReplyingProxy × List ReplyCall :=
  (p.runCallbacks env .error).replyUnlessDropped (.built status reason)

/-- `receive_response` -/
def receiveResponse (p : ReplyingProxy) (env : CallbackEnv) (r : Response) : ReplyingProxy × List ReplyCall :=
  if p.server.validResponse r.statusCode then
    if r.statusCode < 200 ∧ p.canceled = false then
      (p.runCallbacks env .provisional).replyUnlessDropped (.forwarded r)
    else if 200 ≤ r.statusCode ∧ r.statusCode ≤ 299 then
      (p.runCallbacks env .success).replyUnlessDropped (.forwarded r)
    else if 300 ≤ r.statusCode ∧ p.canceled = false then
      if r.statusCode = 503 ∧ p.dnsFailoverOn503 = true then
        tryNextTarget env p.targets p (some ⟨0, "", some r⟩)
      else
        (p.runCallbacks env .failure).replyUnlessDropped (.forwarded (Proxy.convert503 r))
    else
      p.replyUnlessDropped (.forwarded r)
  else
    p.replyUnlessDropped (.forwarded r)

/-- `invite_timeout` -/
def inviteTimeout (p : ReplyingProxy) (env : CallbackEnv) : ReplyingProxy × List ReplyCall :=
  let p := p.runCallbacks env .inviteTimeout
  let (p, o) := if p.dropResponse then (p, []) else p.reply (.built 408 "INVITE Timeout")
  ({ p with dropResponse := true }, o)

/-- The calls a client transaction makes to its core. -/
def coreCall (p : ReplyingProxy) (env : CallbackEnv) : CoreCall → ReplyingProxy × List ReplyCall
  | .receiveResponse r => p.receiveResponse env r
  | .clientTimeout => tryNextTarget env p.targets p (some ⟨408, "Client Timeout", none⟩)
  | .connectionFailed => tryNextTarget env p.targets p (some ⟨500, "Connection Error", none⟩)
  | .tlsValidationFailed =>
    tryNextTarget env p.targets p (some ⟨500, "TLS Validation Failed", none⟩)
  | .inviteTimeout => p.inviteTimeout env

/-- What can happen to a proxy. `targets` is the end of a resolution, `transaction` is all else that happens
to the server transaction. -/
inductive Event
  | flowFailed
  | targets (ts : List Target)
  | dnsFailed (status : ℕ) (reason : String)
  | core (c : CoreCall)
  | cancel
  | transaction (t : Transaction)
deriving DecidableEq, Repr

/-- An event with what the environment decides while it is handled. -/
structure EnvEvent where
  env : CallbackEnv
  ev : Event

def step (p : ReplyingProxy) (e : EnvEvent) : Option (ReplyingProxy × List ReplyCall) :=
  match e.ev with
  | .flowFailed => some ((p.runCallbacks e.env .error).replyUnlessDropped (.built 430 "Flow Failed"))
  | .targets ts => some (tryNextTarget e.env ts p none)
  | .dnsFailed status reason => some (p.doDnsFail e.env status reason)
  | .core c => some (p.coreCall e.env c)
  | .cancel => some ({ p with canceled := true }.runCallbacks e.env .canceled, [])
  | .transaction t => some ({ p with server := t }, [])

/-! ## What is given to `reply_full` -/

abbrev ForwardTrace := List (StepRec ReplyingProxy EnvEvent ReplyCall)

/-- The responses that are given to `reply_full`. -/
def fullReplies (o : List ReplyCall) : List Response :=
  o.filterMap fun
    | .replyFull r => some r
    | _ => none

/-- No response from downstream is forwarded as a 503. -/
def NoneForwarded (tr : ForwardTrace) : Prop := ∀ r ∈ fullReplies (outputs tr), r.statusCode ≠ 503

/-- A 503 comes that `receive_response` does not look at, and it is not dropped. -/
def Unseen (p : ReplyingProxy) (e : EnvEvent) : Prop :=
  ∃ r : Response, e.ev = .core (.receiveResponse r) ∧ r.statusCode = 503 ∧
    (p.canceled = true ∨ p.server.validResponse 503 = false) ∧ p.dropResponse = false

theorem fullReplies_append (o o' : List ReplyCall) : fullReplies (o ++ o') = fullReplies o ++ fullReplies o' :=
  List.filterMap_append

theorem fullReplies_server (o : List ServerOut) : fullReplies (o.map .server) = [] := by
  apply List.filterMap_eq_nil_iff.mpr
  intro c hc
  obtain ⟨s, _, rfl⟩ := List.mem_map.mp hc
  rfl

theorem fullReplies_reply_forwarded (p : ReplyingProxy) (r : Response) :
    fullReplies (p.reply (.forwarded r)).2 = [r] := by
  show fullReplies (.replyFull r :: _) = [r]
  exact congrArg (r :: ·) (fullReplies_server _)

theorem fullReplies_reply_built (p : ReplyingProxy) (statusCode : ℕ) (reason : String) :
    fullReplies (p.reply (.built statusCode reason)).2 = [] :=
  fullReplies_server _

theorem fullReplies_replyUnlessDropped_forwarded (p : ReplyingProxy) (r : Response) :
    fullReplies (p.replyUnlessDropped (.forwarded r)).2 = if p.dropResponse then [] else [r] := by
  unfold replyUnlessDropped
  by_cases hdrop : p.dropResponse = true
  · rw [if_pos hdrop, if_pos hdrop]
    rfl
  · rw [if_neg hdrop, if_neg hdrop]
    exact p.fullReplies_reply_forwarded r

theorem fullReplies_replyUnlessDropped_built (p : ReplyingProxy) (statusCode : ℕ) (reason : String) :
    fullReplies (p.replyUnlessDropped (.built statusCode reason)).2 = [] := by
  unfold replyUnlessDropped
  by_cases hdrop : p.dropResponse = true
  · rw [if_pos hdrop]
    rfl
  · rw [if_neg hdrop]
    exact p.fullReplies_reply_built statusCode reason

/-- The calls of `reply_full` among these calls are for other statuses. -/
def Converted (o : List ReplyCall) : Prop := ∀ r ∈ fullReplies o, r.statusCode ≠ 503

theorem converted_of_nil {o : List ReplyCall} (h : fullReplies o = []) : Converted o := by
  intro r hr
  rw [h] at hr
  cases hr

theorem convert503_ne (r : Response) : (Proxy.convert503 r).statusCode ≠ 503 := by
  unfold Proxy.convert503
  by_cases h : r.statusCode = 503
  · rw [if_pos h]
    show 500 ≠ 503
    decide
  · rw [if_neg h]
    exact h

theorem converted_replyUnlessDropped (p : ReplyingProxy) {r : Response} (h : r.statusCode ≠ 503) :
    Converted (p.replyUnlessDropped (.forwarded r)).2 := by
  intro r' hr'
  rw [fullReplies_replyUnlessDropped_forwarded] at hr'
  split at hr'
  · cases hr'
  · obtain rfl := List.mem_singleton.mp hr'
    exact h

theorem converted_noMoreTargets (p : ReplyingProxy) (env : CallbackEnv) (why : Option NoTarget) :
    Converted (p.noMoreTargets env why).2 := by
  unfold noMoreTargets
  split
  · split
    · exact converted_replyUnlessDropped _ (convert503_ne _)
    · exact converted_of_nil (fullReplies_replyUnlessDropped_built _ _ _)
  · dsimp only
    split
    · exact converted_of_nil rfl
    · exact converted_of_nil rfl

/-- The walk over the targets ends with a request that is sent, or in `no_more_targets`. -/
theorem converted_tryNextTarget (env : CallbackEnv) (ts : List Target) (p : ReplyingProxy)
    (why : Option NoTarget) : Converted (tryNextTarget env ts p why).2 := by
  induction ts generalizing p why with
  | nil => exact converted_noMoreTargets _ env why
  | cons t ts ih =>
    unfold tryNextTarget
    dsimp only
    split
    · exact ih _ _
    · split
      · exact converted_noMoreTargets _ env _
      · exact converted_of_nil rfl

theorem converted_inviteTimeout (p : ReplyingProxy) (env : CallbackEnv) :
    Converted (p.inviteTimeout env).2 := by
  unfold inviteTimeout
  dsimp only
  split
  · exact converted_of_nil rfl
  · exact converted_of_nil (fullReplies_reply_built _ _ _)

/-- A 503 that `receive_response` looks at is converted, or another target is tried. -/
theorem receiveResponse_503 {p : ReplyingProxy} {r : Response} (h : r.statusCode = 503)
    (hcanceled : p.canceled = false) (hvalid : p.server.validResponse 503 = true) (env : CallbackEnv) :
    Converted (p.receiveResponse env r).2 := by
  unfold receiveResponse
  rw [h, if_pos hvalid, if_neg (by omega), if_neg (by omega), if_pos ⟨by omega, hcanceled⟩]
  split
  · exact converted_tryNextTarget _ _ _ _
  · exact converted_replyUnlessDropped _ (convert503_ne r)

/-- A 503 that it does not look at is given to `reply_full`. -/
theorem receiveResponse_unseen {p : ReplyingProxy} {r : Response} (h : r.statusCode = 503)
    (hunseen : p.canceled = true ∨ p.server.validResponse 503 = false) (env : CallbackEnv) :
    p.receiveResponse env r = p.replyUnlessDropped (.forwarded r) := by
  unfold receiveResponse
  rw [h]
  by_cases hvalid : p.server.validResponse 503 = true
  · have hcanceled : p.canceled = true := hunseen.resolve_right fun hfalse => by
      rw [hvalid] at hfalse
      cases hfalse
    rw [if_pos hvalid, if_neg (by omega), if_neg (by omega), if_neg]
    rintro ⟨_, hnot⟩
    rw [hcanceled] at hnot
    cases hnot
  · rw [if_neg hvalid]

/-- Any other response goes on with its status. -/
theorem receiveResponse_other {p : ReplyingProxy} {r : Response} (h : r.statusCode ≠ 503) (env : CallbackEnv) :
    Converted (p.receiveResponse env r).2 := by
  have hconvert : (Proxy.convert503 r).statusCode ≠ 503 := convert503_ne r
  unfold receiveResponse
  split_ifs with hvalid hprovisional hsuccess hfailure hfailover
  · exact converted_replyUnlessDropped _ h
  · exact converted_replyUnlessDropped _ h
  · exact absurd hfailover.1 h
  · exact converted_replyUnlessDropped _ hconvert
  · exact converted_replyUnlessDropped _ h
  · exact converted_replyUnlessDropped _ h

/-- A step gives a 503 to `reply_full` exactly when one comes unseen. -/
theorem converted_step_iff {p p' : ReplyingProxy} {e : EnvEvent} {o : List ReplyCall}
    (h : p.step e = some (p', o)) : Converted o ↔ ¬p.Unseen e := by
  have hother : (∀ r, e.ev ≠ .core (.receiveResponse r)) → ¬p.Unseen e :=
    fun hne ⟨r, hr, _⟩ => hne r hr
  obtain ⟨env, ev⟩ := e
  cases ev with
  | flowFailed =>
    have ho : o = ((p.runCallbacks env .error).replyUnlessDropped (.built 430 "Flow Failed")).2 :=
      (congrArg Prod.snd (Option.some.inj h)).symm
    refine iff_of_true ?_ (hother nofun)
    rw [ho]
    exact converted_of_nil (fullReplies_replyUnlessDropped_built _ _ _)
  | targets ts =>
    have ho : o = (tryNextTarget env ts p none).2 := (congrArg Prod.snd (Option.some.inj h)).symm
    refine iff_of_true ?_ (hother nofun)
    rw [ho]
    exact converted_tryNextTarget _ _ _ _
  | dnsFailed status reason =>
    have ho : o = (p.doDnsFail env status reason).2 := (congrArg Prod.snd (Option.some.inj h)).symm
    refine iff_of_true ?_ (hother nofun)
    rw [ho]
    exact converted_of_nil (fullReplies_replyUnlessDropped_built _ _ _)
  | cancel =>
    obtain ⟨rfl, rfl⟩ := Prod.mk.inj (Option.some.inj h)
    exact iff_of_true (converted_of_nil rfl) (hother nofun)
  | transaction t =>
    obtain ⟨rfl, rfl⟩ := Prod.mk.inj (Option.some.inj h)
    exact iff_of_true (converted_of_nil rfl) (hother nofun)
  | core c =>
    have ho : o = (p.coreCall env c).2 := (congrArg Prod.snd (Option.some.inj h)).symm
    rw [ho]
    cases c with
    | clientTimeout => exact iff_of_true (converted_tryNextTarget _ _ _ _) (hother nofun)
    | connectionFailed => exact iff_of_true (converted_tryNextTarget _ _ _ _) (hother nofun)
    | tlsValidationFailed => exact iff_of_true (converted_tryNextTarget _ _ _ _) (hother nofun)
    | inviteTimeout => exact iff_of_true (converted_inviteTimeout p env) (hother nofun)
    | receiveResponse r =>
      show Converted (p.receiveResponse env r).2 ↔ _
      by_cases hstatus : r.statusCode = 503
      · by_cases hunseen : p.canceled = true ∨ p.server.validResponse 503 = false
        · rw [receiveResponse_unseen hstatus hunseen env]
          constructor
          · rintro hconverted ⟨r', hr', _, _, hdrop⟩
            have hall : fullReplies (p.replyUnlessDropped (.forwarded r)).2 = [r] := by
              rw [fullReplies_replyUnlessDropped_forwarded, hdrop]
              rfl
            exact hconverted r (hall ▸ List.mem_cons_self) hstatus
          · intro hnot
            apply converted_of_nil
            rw [fullReplies_replyUnlessDropped_forwarded]
            apply if_pos
            by_contra hdrop
            exact hnot ⟨r, rfl, hstatus, hunseen, Bool.eq_false_iff.mpr hdrop⟩
        · have hcanceled : p.canceled = false := Bool.eq_false_iff.mpr fun hc => hunseen (.inl hc)
          have hvalid : p.server.validResponse 503 = true := by
            by_contra hv
            exact hunseen (.inr (Bool.eq_false_iff.mpr hv))
          refine iff_of_true (receiveResponse_503 hstatus hcanceled hvalid env) ?_
          rintro ⟨_, _, _, hbad, _⟩
          exact hunseen hbad
      · refine iff_of_true (receiveResponse_other hstatus env) ?_
        rintro ⟨r', hr', hstatus', _⟩
        cases hr'
        exact hstatus hstatus'

/-- No 503 is forwarded in a run exactly when none of its steps brings one that is not looked at. -/
theorem noneForwarded_iff {p p' : ReplyingProxy} {tr : ForwardTrace} (h : Run step p tr p') :
    NoneForwarded tr ↔ ∀ st ∈ tr, ¬st.pre.Unseen st.ev := by
  induction h with
  | nil =>
    exact iff_of_true (fun r hr => absurd hr List.not_mem_nil) fun st hst => absurd hst List.not_mem_nil
  | @snoc tr q q' e o hrun hs ih =>
    have hlast := converted_step_iff hs
    unfold NoneForwarded at ih ⊢
    rw [outputs_snoc, fullReplies_append]
    constructor
    · intro hall st hst
      have htr : ∀ r ∈ fullReplies (outputs tr), r.statusCode ≠ 503 :=
        fun r hr => hall r (List.mem_append_left _ hr)
      have ho : Converted o := fun r hr => hall r (List.mem_append_right _ hr)
      rcases List.mem_append.mp hst with hst | hst
      · exact ih.mp htr st hst
      · obtain rfl := List.mem_singleton.mp hst
        exact hlast.mp ho
    · intro hall r hr
      rcases List.mem_append.mp hr with hr | hr
      · exact ih.mpr (fun st hst => hall st (List.mem_append_left _ hst)) r hr
      · exact hlast.mpr (hall _ (List.mem_append_right _ List.mem_cons_self)) r hr

/-! ## The proxy of an INVITE -/

/-- What is sent upstream by these calls. -/
def serverOuts (o : List ReplyCall) : List ServerOut :=
  o.filterMap fun
    | .server s => some s
    | _ => none

/-- The proxy of an INVITE, without its client transactions. -/
def ofProxy (p : Proxy) : ReplyingProxy where
  dnsFailoverOn503 := p.dnsFailoverOn503
  server := .invite p.server
  targets := p.targets
  canceled := p.canceled
  aborted := p.aborted
  dropResponse := p.dropResponse

/-- Callbacks that leave the server transaction as it is. -/
def ofEnv (env : Env) : CallbackEnv :=
  { blacklist := env.blacklist, callbacks := env.callbacks, transaction := fun _ t => t }

/-- The same state and the same sendings upstream. -/
structure Simulates (x : Proxy × List ProxyOut) (y : ReplyingProxy × List ReplyCall) : Prop where
  state : ofProxy x.1 = y.1
  sent : (x.2.filterMap fun
    | .server s => some s
    | _ => none) = serverOuts y.2

theorem simulates_reply (p : Proxy) (r : Reply) : Simulates (p.reply r) ((ofProxy p).reply r) := by
  refine ⟨rfl, ?_⟩
  have hcall : serverOuts [callOf r] = [] := by
    cases r <;> rfl
  have hserver : ∀ o : List ServerOut, serverOuts (o.map .server) = o := by
    intro o
    unfold serverOuts
    rw [List.filterMap_map]
    exact List.filterMap_some
  show ((p.server.reply r).2.map ProxyOut.server).filterMap _ =
    serverOuts ([callOf r] ++ (p.server.reply r).2.map .server)
  unfold serverOuts at hcall hserver ⊢
  rw [List.filterMap_append, hcall, List.nil_append, hserver, List.filterMap_map]
  exact List.filterMap_some

theorem simulates_replyUnlessDropped (p : Proxy) (r : Reply) :
    Simulates (p.replyUnlessDropped r) ((ofProxy p).replyUnlessDropped r) := by
  have hsame : (ofProxy p).dropResponse = p.dropResponse := rfl
  unfold Proxy.replyUnlessDropped replyUnlessDropped
  rw [hsame]
  by_cases hdrop : p.dropResponse = true
  · rw [if_pos hdrop, if_pos hdrop]
    exact ⟨rfl, rfl⟩
  · rw [if_neg hdrop, if_neg hdrop]
    exact simulates_reply p r

theorem simulates_noMoreTargets (p : Proxy) (env : Env) (why : Option NoTarget) :
    Simulates (p.noMoreTargets env why) ((ofProxy p).noMoreTargets (ofEnv env) why) := by
  cases why with
  | none =>
    show Simulates (if (p.runCallbacks env .error).dropResponse then _ else _)
      (if (p.runCallbacks env .error).dropResponse then _ else _)
    split
    · exact ⟨rfl, rfl⟩
    · exact ⟨rfl, rfl⟩
  | some why =>
    obtain ⟨status, reason, fullResponse⟩ := why
    cases fullResponse with
    | none => exact simulates_replyUnlessDropped _ _
    | some r => exact simulates_replyUnlessDropped _ _

theorem simulates_tryNextTarget (env : Env) (ts : List Target) (p : Proxy) (why : Option NoTarget) :
    Simulates (Proxy.tryNextTarget env ts p why) (tryNextTarget (ofEnv env) ts (ofProxy p) why) := by
  induction ts generalizing p why with
  | nil => exact simulates_noMoreTargets _ env why
  | cons t ts ih =>
    unfold Proxy.tryNextTarget tryNextTarget
    have hblacklist : (ofEnv env).blacklist t = env.blacklist t := rfl
    rw [hblacklist]
    cases env.blacklist t with
    | some entry => exact ih _ _
    | none =>
      show Simulates (if (({ p with targets := ts } : Proxy).runCallbacks env (.target t)).aborted then _ else _)
        (if (({ p with targets := ts } : Proxy).runCallbacks env (.target t)).aborted then _ else _)
      split
      · exact simulates_noMoreTargets _ env _
      · exact ⟨rfl, rfl⟩

theorem simulates_receiveResponse (p : Proxy) (env : Env) (r : Response) :
    Simulates (p.receiveResponse env r) ((ofProxy p).receiveResponse (ofEnv env) r) := by
  have hvalid : (ofProxy p).server.validResponse r.statusCode = p.server.validResponse r.statusCode := rfl
  have hcanceled : (ofProxy p).canceled = p.canceled := rfl
  have hfailover : (ofProxy p).dnsFailoverOn503 = p.dnsFailoverOn503 := rfl
  unfold Proxy.receiveResponse receiveResponse
  rw [hvalid, hcanceled, hfailover]
  split_ifs with hv hprovisional hsuccess hfailure h503
  · exact simulates_replyUnlessDropped _ _
  · exact simulates_replyUnlessDropped _ _
  · exact simulates_tryNextTarget env _ _ _
  · exact simulates_replyUnlessDropped _ _
  · exact simulates_replyUnlessDropped _ _
  · exact simulates_replyUnlessDropped _ _

theorem simulates_inviteTimeout (p : Proxy) (env : Env) :
    Simulates (p.inviteTimeout env) ((ofProxy p).inviteTimeout (ofEnv env)) := by
  have hsame : ((ofProxy p).runCallbacks (ofEnv env) .inviteTimeout).dropResponse =
      (p.runCallbacks env .inviteTimeout).dropResponse := rfl
  have hreply := simulates_reply (p.runCallbacks env .inviteTimeout) (.built 408 "INVITE Timeout")
  unfold Proxy.inviteTimeout inviteTimeout
  dsimp only
  rw [hsame]
  by_cases hdrop : (p.runCallbacks env .inviteTimeout).dropResponse = true
  · rw [if_pos hdrop, if_pos hdrop]
    exact ⟨rfl, rfl⟩
  · rw [if_neg hdrop, if_neg hdrop]
    exact ⟨congrArg (fun q : ReplyingProxy => { q with dropResponse := true }) hreply.state, hreply.sent⟩

/-- The calls of the client transactions do to the proxy of an INVITE what they do here. -/
theorem simulates_coreCall (p : Proxy) (env : Env) (c : CoreCall) :
    Simulates (p.coreCall env c) ((ofProxy p).coreCall (ofEnv env) c) := by
  cases c with
  | receiveResponse r => exact simulates_receiveResponse p env r
  | clientTimeout => exact simulates_tryNextTarget env _ _ _
  | connectionFailed => exact simulates_tryNextTarget env _ _ _
  | tlsValidationFailed => exact simulates_tryNextTarget env _ _ _
  | inviteTimeout => exact simulates_inviteTimeout p env

/-! ## A 503 to a canceled INVITE -/

/-- Nothing is in the blacklist, and there are no callbacks. -/
def quietEnv : Env :=
  { blacklist := fun _ => none, callbacks := fun _ => { abort := false, drop := false }
    topVia := fun _ => "SIP/2.0/UDP 192.0.2.1;branch=z9hG4bKc3", newConnection := fun _ => false }

def unavailable : Response := { statusCode := 503, toTag := some "9e" }

def soleTarget : OverSip.Target := { transport := .udp, ip := "192.0.2.10", port := 5060 }

/-- The proxy of an INVITE that is received at 0. -/
def invitedProxy : Proxy := Proxy.start sampleRequest .default true .udp "b1" 0

/-- The callee rings, the caller cancels, and the callee answers with a 503. -/
def canceledEvents : List (TimedEvent Proxy.EnvEvent) :=
  [⟨0, quietEnv, .route (.resolved soleTarget [])⟩,
    ⟨1, quietEnv, .client 0 (.response { statusCode := 180, toTag := some "9e" })⟩,
    ⟨2, quietEnv, .cancel []⟩,
    ⟨3, quietEnv, .client 0 (.response unavailable)⟩]

/-- What this is for the replies of the proxy. -/
def canceledReplies : List EnvEvent :=
  [⟨ofEnv quietEnv, .targets [soleTarget]⟩,
    ⟨ofEnv quietEnv, .core (.receiveResponse { statusCode := 180, toTag := some "9e" })⟩,
    ⟨ofEnv quietEnv, .cancel⟩,
    ⟨ofEnv quietEnv, .core (.receiveResponse unavailable)⟩]

/-- The 503 of the last target, while the INVITE is not canceled. -/
def answered503 : StepRec ReplyingProxy EnvEvent ReplyCall where
  pre := ofProxy invitedProxy
  ev := ⟨ofEnv quietEnv, .core (.receiveResponse unavailable)⟩
  out := ((ofProxy invitedProxy).receiveResponse (ofEnv quietEnv) unavailable).2
  post := ((ofProxy invitedProxy).receiveResponse (ofEnv quietEnv) unavailable).1

/-- It goes on as a 500. -/
theorem noneForwarded_answered503 :
    ∃ p, Run step (ofProxy invitedProxy) [answered503] p ∧ NoneForwarded [answered503] := by
  have hrun : Run step (ofProxy invitedProxy) [answered503] answered503.post := Run.of_singleton rfl
  refine ⟨_, hrun, (noneForwarded_iff hrun).mpr ?_⟩
  intro st hst
  obtain rfl := List.mem_singleton.mp hst
  rintro ⟨_, _, _, hcanceled | hinvalid, _⟩
  · cases hcanceled
  · cases hinvalid

/-- The 503 to the canceled INVITE is given to `reply_full`, and sent upstream. -/
theorem canceled_forwards_503 :
    (∃ tr p, Run step (ofProxy invitedProxy) tr p ∧ ¬NoneForwarded tr) ∧
      ∃ tr p, Run Proxy.step invitedProxy tr p ∧ .server (.send (.forwarded unavailable)) ∈ outputs tr := by
  constructor
  · refine ⟨_, _, run_of_exec (show exec step (ofProxy invitedProxy) canceledReplies = some (_, _) from rfl), ?_⟩
    intro hnone
    exact hnone unavailable (by decide) rfl
  · refine ⟨_, _, run_of_exec (show exec Proxy.step invitedProxy canceledEvents = some (_, _) from rfl), ?_⟩
    decide

end ReplyingProxy

end OverSip
