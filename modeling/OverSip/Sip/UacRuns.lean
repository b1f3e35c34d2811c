import OverSip.Sip.NonInviteClientTransactionTheorems
import OverSip.Sip.Uac
import OverSip.Sip.UriCaches

/-!
# Runs of a UAC without an exception

A `UacRequest` has the methods that a non-INVITE client transaction and the forwarding of an ACK call. The INVITE
client transaction also calls `in_rr`, which it has not, before anything is sent. What else can raise is the
printing of the objects for From and To, which the constructor has not looked at. `works_iff` says that a request
without the one and the other goes through every run.
-/

namespace OverSip

/-! ## Objects that can be printed -/

/-- The scheme is one for which `uri` builds a text. -/
def UriFields.KnownScheme (f : UriFields) : Prop := f.scheme = .sip ∨ f.scheme = .sips ∨ f.scheme = .tel

/-- The variables that `uri` appends are there. -/
def UriFields.Complete (f : UriFields) : Prop :=
  ((f.scheme = .sip ∨ f.scheme = .sips) → f.host ≠ none) ∧ (f.scheme = .tel → f.user ≠ none)

namespace UriObject

/-- What `uri` needs. -/
def HasUri (o : UriObject) : Prop := o.uriModified = true → o.fields.Complete

/-- What `to_s` needs. A `NameAddr` appends the text of the URI. -/
def HasText (o : UriObject) : Prop :=
  match o.namePart with
  | none => o.HasUri
  | some n => (∃ text, o.kept n = some text) ∨
      o.HasUri ∧ (o.uri ≠ none ∨ o.uriModified = true ∧ o.fields.KnownScheme)

variable {o : UriObject} (escapeUri : Bytes → Bytes)

theorem complete_iff {f : UriFields} : f.Complete ↔ ∀ text, f.write escapeUri ≠ some (text, false) := by
  unfold UriFields.Complete UriFields.write UriFields.write.sipText
  cases f.scheme with
  | sip => cases f.host <;> simp
  | sips => cases f.host <;> simp
  | tel => cases f.user <;> simp
  | _ => simp

theorem knownScheme_iff {f : UriFields} : f.KnownScheme ↔ f.write escapeUri ≠ none := by
  rw [Ne, UriFields.write_eq_none_iff]
  unfold UriFields.KnownScheme
  tauto

/-- `uri` raises when a variable is missing, and gives nil when it has never had a text to give. -/
theorem readUri_eq : (o.readUri escapeUri).2 = .error .typeError ∧ ¬ o.HasUri ∨
    o.HasUri ∧ ∃ text, (o.readUri escapeUri).2 = .ok text ∧ (o.readUri escapeUri).1.uri = text ∧
      (text ≠ none ↔ o.uri ≠ none ∨ o.uriModified = true ∧ o.fields.KnownScheme) := by
  unfold HasUri
  cases hmarked : o.uriModified with
  | false =>
    rw [readUri_of_unmarked hmarked]
    exact .inr ⟨by simp, o.uri, rfl, rfl, by simp⟩
  | true =>
    rw [complete_iff escapeUri, knownScheme_iff escapeUri]
    obtain ⟨text, hw, hr⟩ | ⟨text, hw, hr⟩ | ⟨hw, hr⟩ := readUri_of_marked escapeUri hmarked
    · rw [hr, hw]
      exact .inr ⟨by simp, some text, rfl, rfl, by simp⟩
    · rw [hr, hw]
      exact .inl ⟨rfl, by simp⟩
    · rw [hr, hw]
      exact .inr ⟨by simp, o.uri, rfl, rfl, by simp⟩

/-- What `uri` leaves of an object that has given its text. -/
theorem readUri_kept (h : o.HasUri) : (o.readUri escapeUri).1.uriModified = false ∧
    (o.readUri escapeUri).1.namePart = o.namePart ∧
    (o.uriModified = false → (o.readUri escapeUri).1 = o) := by
  cases hmarked : o.uriModified with
  | false =>
    rw [readUri_of_unmarked hmarked]
    exact ⟨hmarked, rfl, fun _ => rfl⟩
  | true =>
    obtain ⟨text, hw, hr⟩ | ⟨text, hw, hr⟩ | ⟨hw, hr⟩ := readUri_of_marked escapeUri hmarked
    · rw [hr]
      exact ⟨rfl, rfl, fun hfalse => by cases hfalse⟩
    · exact absurd hw ((complete_iff escapeUri).mp (h hmarked) text)
    · rw [hr]
      exact ⟨rfl, rfl, fun hfalse => by cases hfalse⟩

theorem HasText.hasUri (h : o.HasText) : o.HasUri := by
  unfold HasText at h
  split at h
  · exact h
  · rename_i n hn
    rcases h with ⟨text, hkept⟩ | h
    · intro hmarked
      rw [(kept_eq_some_iff.mp hkept).2.1] at hmarked
      cases hmarked
    · exact h.1

theorem hasText_of_none (hn : o.namePart = none) : o.HasText ↔ o.HasUri := by
  unfold HasText
  rw [hn]

theorem hasText_of_some {n : NamePart} (hn : o.namePart = some n) : o.HasText ↔
    (∃ text, o.kept n = some text) ∨
      o.HasUri ∧ (o.uri ≠ none ∨ o.uriModified = true ∧ o.fields.KnownScheme) := by
  unfold HasText
  rw [hn]

/-- An object that can be printed can be printed behind a call of `uri`. -/
theorem HasText.readUri (h : o.HasText) : (o.readUri escapeUri).1.HasText := by
  obtain ⟨hmark, hpart, hsame⟩ := readUri_kept escapeUri h.hasUri
  have huri : (o.readUri escapeUri).1.HasUri := fun hmarked => by rw [hmark] at hmarked; cases hmarked
  cases hn : o.namePart with
  | none => exact (hasText_of_none (hpart.trans hn)).mpr huri
  | some n =>
    rcases (hasText_of_some hn).mp h with ⟨text, hkept⟩ | ⟨_, hgives⟩
    · rw [hsame (kept_eq_some_iff.mp hkept).2.1]
      exact h
    · rcases readUri_eq (o := o) escapeUri with ⟨_, hnot⟩ | ⟨_, text, _, htext, hsome⟩
      · exact absurd h.hasUri hnot
      · refine (hasText_of_some (hpart.trans hn)).mpr (.inr ⟨huri, .inl ?_⟩)
        rw [htext]
        exact hsome.mpr hgives

/-- `to_s` of an object that can be printed, which can be printed again. -/
theorem HasText.readToS (h : o.HasText) :
    (o.readToS escapeUri).1.HasText ∧ ∃ text, (o.readToS escapeUri).2 = .ok text := by
  unfold UriObject.readToS
  cases hn : o.namePart with
  | none =>
    refine ⟨h.readUri escapeUri, ?_⟩
    rcases readUri_eq (o := o) escapeUri with ⟨_, hnot⟩ | ⟨_, text, htext, _⟩
    · exact absurd h.hasUri hnot
    · exact ⟨text, htext⟩
  | some n =>
    dsimp only
    unfold readNameAddr
    cases hkept : o.kept n with
    | some text => exact ⟨h, some text, rfl⟩
    | none =>
      obtain ⟨hmark, hpart, -⟩ := readUri_kept escapeUri h.hasUri
      rcases readUri_eq (o := o) escapeUri with ⟨_, hnot⟩ | ⟨_, text, htext, _, hsome⟩
      · exact absurd h.hasUri hnot
      · rcases (hasText_of_some hn).mp h with ⟨text', hkept'⟩ | ⟨_, hgives⟩
        · rw [hkept] at hkept'
          cases hkept'
        · obtain ⟨uri, rfl⟩ := Option.ne_none_iff_exists'.mp (hsome.mpr hgives)
          rcases hread : o.readUri escapeUri with ⟨o', answer⟩
          rw [hread] at htext hmark
          obtain rfl : answer = .ok (some uri) := htext
          refine ⟨(hasText_of_some (n := { n with nameAddr := some (n.head ++ uri ++ [62]), modified := false })
            rfl).mpr (.inl ⟨_, kept_eq_some_iff.mpr ⟨rfl, hmark, rfl⟩⟩), _, rfl⟩

/-- Only an object that can be printed is printed. -/
theorem hasText_of_readToS {text : Option Bytes} (h : (o.readToS escapeUri).2 = .ok text) : o.HasText := by
  unfold UriObject.readToS at h
  cases hn : o.namePart with
  | none =>
    rw [hn] at h
    rcases readUri_eq (o := o) escapeUri with ⟨herror, _⟩ | ⟨huri, _⟩
    · rw [herror] at h
      cases h
    · exact (hasText_of_none hn).mpr huri
  | some n =>
    rw [hn] at h
    dsimp only at h
    unfold readNameAddr at h
    rw [hasText_of_some hn]
    cases hkept : o.kept n with
    | some text' => exact .inl ⟨text', rfl⟩
    | none =>
      rw [hkept] at h
      right
      rcases hread : o.readUri escapeUri with ⟨o', answer⟩
      rw [hread] at h
      have heq := readUri_eq (o := o) escapeUri
      rw [hread] at heq
      rcases heq with ⟨herror, _⟩ | ⟨huri, uri, htext, _, hsome⟩
      · obtain rfl : answer = .error .typeError := herror
        cases h
      · obtain rfl : answer = .ok uri := htext
        refine ⟨huri, hsome.mp ?_⟩
        rintro rfl
        cases h

end UriObject

/-! ## The text of a request -/

/-- `to_s` of an address. -/
def UacAddress.HasText : UacAddress → Prop
  | string _ => True
  | object o => o.HasText

theorem UacAddress.HasText.readToS {a : UacAddress} (escapeUri : Bytes → Bytes) (h : a.HasText) :
    (a.readToS escapeUri).1.HasText ∧ ∃ text, (a.readToS escapeUri).2 = .ok text := by
  cases a with
  | string text => exact ⟨trivial, some text, rfl⟩
  | object o => exact UriObject.HasText.readToS escapeUri h

theorem UacAddress.hasText_of_readToS {a : UacAddress} {escapeUri : Bytes → Bytes} {text : Option Bytes}
    (h : (a.readToS escapeUri).2 = .ok text) : a.HasText := by
  cases a with
  | string _ => trivial
  | object o => exact UriObject.hasText_of_readToS escapeUri h

namespace UacRequest

/-- The objects of a request can be printed. -/
structure HasTexts (r : UacRequest) : Prop where
  ruri : r.ruri.HasText
  fromAddr : r.fromAddr.HasText
  toAddr : ∀ a ∈ r.toAddr, a.HasText

variable {r : UacRequest} (node : UacNode)

theorem HasTexts.readTo (h : r.HasTexts) :
    (r.readTo node).1.HasTexts ∧ ∃ text, (r.readTo node).2 = .ok text := by
  have hto := h.toAddr
  unfold UacRequest.readTo
  split
  · rename_i address hsome
    rw [hsome] at hto
    obtain ⟨haddress, htext⟩ := (hto address rfl).readToS node.escapeUri
    refine ⟨⟨h.ruri, h.fromAddr, fun a ha => ?_⟩, htext⟩
    obtain rfl := Option.mem_some_iff.mp ha
    exact haddress
  · obtain ⟨hruri, htext⟩ := h.ruri.readToS node.escapeUri
    exact ⟨⟨hruri, h.fromAddr, hto⟩, htext⟩

/-- `to_s` keeps the method. -/
theorem toS_sipMethod : (r.toS node).1.sipMethod = r.sipMethod := by
  have hto : ∀ q : UacRequest, (q.readTo node).1.sipMethod = q.sipMethod := by
    intro q
    unfold UacRequest.readTo
    split <;> rfl
  unfold toS
  split
  · rfl
  · rename_i ruri uri _
    split
    · rfl
    · rename_i fromAddr fromText _
      split
      · rename_i q e hread
        exact (congrArg (fun p => p.1.sipMethod) hread).symm.trans (hto _)
      · rename_i q text hread
        exact (congrArg (fun p => p.1.sipMethod) hread).symm.trans (hto _)

theorem HasTexts.toS (h : r.HasTexts) : (r.toS node).1.HasTexts ∧ ∃ text, (r.toS node).2 = .ok text := by
  unfold UacRequest.toS
  have hruri := h.ruri.readUri node.escapeUri
  have hok : ∃ uri, (r.ruri.readUri node.escapeUri).2 = .ok uri := by
    rcases UriObject.readUri_eq (o := r.ruri) node.escapeUri with ⟨_, hnot⟩ | ⟨_, uri, huri, _⟩
    · exact absurd h.ruri.hasUri hnot
    · exact ⟨uri, huri⟩
  obtain ⟨uri, huri⟩ := hok
  obtain ⟨hfrom, fromText, hfromText⟩ := h.fromAddr.readToS node.escapeUri
  generalize r.ruri.readUri node.escapeUri = p at hruri huri ⊢
  generalize r.fromAddr.readToS node.escapeUri = q at hfrom hfromText ⊢
  obtain ⟨ruri, answer⟩ := p
  obtain ⟨fromAddr, answer'⟩ := q
  obtain rfl : answer = .ok uri := huri
  obtain rfl : answer' = .ok fromText := hfromText
  have hboth : ({ r with ruri, fromAddr } : UacRequest).HasTexts := ⟨hruri, hfrom, h.toAddr⟩
  obtain ⟨hafter, toText, htoText⟩ := hboth.readTo node
  dsimp only
  generalize UacRequest.readTo node { r with ruri, fromAddr } = t at hafter htoText ⊢
  obtain ⟨r', answer''⟩ := t
  obtain rfl : answer'' = .ok toText := htoText
  exact ⟨hafter, _, rfl⟩

/-- Only a request whose addresses can be printed is printed. -/
theorem hasText_of_toS {text : Bytes} (h : (r.toS node).2 = .ok text) :
    r.fromAddr.HasText ∧ ∀ a ∈ r.toAddr, a.HasText := by
  unfold toS at h
  split at h
  · cases h
  · split at h
    · cases h
    · rename_i fromAddr fromText hfrom
      split at h
      · cases h
      · rename_i q toText hto
        refine ⟨UacAddress.hasText_of_readToS (congrArg Prod.snd hfrom), fun a ha => ?_⟩
        have hsome : r.toAddr = some a := ha
        unfold readTo at hto
        rw [hsome] at hto
        exact UacAddress.hasText_of_readToS (congrArg Prod.snd hto)

end UacRequest

/-! ## The transactions of a request -/

/-- A non-INVITE client transaction raises nothing. -/
theorem NonInviteClientTransaction.Trans.quiet {t t' : NonInviteClientTransaction}
    {ev : NonInviteClientTransaction.Event} {o : List Out} (h : Trans t ev o t') (err : RubyError) :
    .raise err ∉ o := by
  cases h with
  | @expire x rest _ _ _ _ hr =>
    generalize x.key = k at hr
    cases hr <;> simp
  | response _ hr =>
    cases hr with
    | provisional _ _ ho => rcases ho with rfl | rfl <;> simp
    | finalUdp _ _ _ => simp
    | finalReliable _ _ _ => simp
    | ignored _ => simp
  | fail _ => simp
  | connected => simp

namespace Uac

/-- What keeps a `Uac` from raising. -/
structure Quiet (u : Uac) : Prop where
  method : u.request.sipMethod ≠ .symbol (ascii "INVITE")
  texts : u.request.HasTexts
  left : ∀ t ∈ u.left, usableTarget t = true
  transactions : ∀ transaction ∈ u.transactions, ∀ s, transaction ≠ .invite s

/-- Nothing is raised, and every transaction that is made comes to its sending. -/
structure Sound (out : List UacOutput) : Prop where
  quiet : ∀ e, .raised e ∉ out
  sends : ∀ n t, .using n t ∈ out → ∃ text, .sent n text ∈ out

theorem Sound.append {out out' : List UacOutput} (h : Sound out) (h' : Sound out') : Sound (out ++ out') where
  quiet e he := (List.mem_append.mp he).elim (h.quiet e) (h'.quiet e)
  sends n t ht := by
    rcases List.mem_append.mp ht with ht | ht
    · obtain ⟨text, htext⟩ := h.sends n t ht
      exact ⟨text, List.mem_append_left _ htext⟩
    · obtain ⟨text, htext⟩ := h'.sends n t ht
      exact ⟨text, List.mem_append_right _ htext⟩

theorem sound_nil : Sound [] := ⟨by simp, by simp⟩

/-- An output that is neither an exception nor a new transaction. -/
theorem sound_singleton {x : UacOutput} (hraised : ∀ e, x ≠ .raised e) (husing : ∀ n t, x ≠ .using n t) :
    Sound [x] where
  quiet e he := hraised e (List.mem_singleton.mp he).symm
  sends n t ht := absurd (List.mem_singleton.mp ht).symm (husing n t)

theorem sound_noMoreTargets (cause : Cause) : Sound [noMoreTargets cause] := by
  unfold noMoreTargets
  split
  · exact sound_singleton (by simp) (by simp)
  · exact sound_singleton (by simp) (by simp)

theorem getClass_ne_invite {sipMethod : RubyName} (h : sipMethod ≠ .symbol (ascii "INVITE")) :
    getClass sipMethod = .ack ∨ getClass sipMethod = .nonInvite := by
  unfold getClass
  rw [if_neg h]
  split
  · exact .inl rfl
  · exact .inr rfl

/-- A `UacRequest` has what the classes but that for INVITE call. -/
theorem call_sendingCalls {klass : TransactionClass} (h : klass = .ack ∨ klass = .nonInvite) :
    UacRequest.call (sendingCalls klass) = .ok () := by
  rcases h with rfl | rfl <;> rfl

variable {u : Uac} {env : UacEnv}

/-- `send_request` of a request that is no INVITE. -/
theorem sendRequest_spec (env : UacEnv) (h : u.Quiet) (transport : Transport) (ipType : IpType) :
    (u.sendRequest env transport ipType).1.Quiet ∧
      ∃ text, (u.sendRequest env transport ipType).2 = [.sent u.numTarget text] := by
  have hclass := getClass_ne_invite h.method
  unfold sendRequest
  generalize getClass u.request.sipMethod = klass at hclass
  dsimp only
  rw [call_sendingCalls hclass]
  generalize u.topVia env transport ipType (if klass = .ack then [] else ascii ";rport") = via
  have hinserted : (u.request.insertHeader (ascii "Via") via).HasTexts :=
    ⟨h.texts.ruri, h.texts.fromAddr, h.texts.toAddr⟩
  obtain ⟨htexts, text, htext⟩ := hinserted.toS u.node
  have hmethod := UacRequest.toS_sipMethod (r := u.request.insertHeader (ascii "Via") via) u.node
  generalize (u.request.insertHeader (ascii "Via") via).toS u.node = p at htexts htext hmethod
  obtain ⟨request, answer⟩ := p
  obtain rfl : answer = .ok text := htext
  dsimp only at hmethod htexts ⊢
  refine ⟨⟨?_, ?_, h.left, ?_⟩, text, rfl⟩
  · split
    · exact fun heq => h.method (hmethod.symm.trans heq)
    · exact fun heq => h.method (hmethod.symm.trans heq)
  · split
    · exact htexts
    · exact ⟨htexts.ruri, htexts.fromAddr, htexts.toAddr⟩
  · intro transaction hmem s heq
    rcases List.mem_append.mp hmem with hmem | hmem
    · exact h.transactions transaction hmem s heq
    · rw [List.mem_singleton.mp hmem] at heq
      rcases hclass with rfl | rfl
      · cases heq
      · cases heq

/-- **A new transaction** for a target with a server class sends. -/
theorem startTransaction_spec (env : UacEnv) (h : u.Quiet) {t : Rfc3263.Target} (ht : usableTarget t = true) :
    (u.startTransaction env t).1.Quiet ∧
      ∃ text, (u.startTransaction env t).2 = [.using u.numTarget t, .sent u.numTarget text] := by
  have hsend : ∃ transport, u.startTransaction env t =
      ((u.sendRequest env transport t.ipType).1, .using u.numTarget t :: (u.sendRequest env transport t.ipType).2) := by
    unfold usableTarget at ht
    unfold startTransaction
    generalize t.transport = transport at ht
    split
    · simp at ht
    · simp at ht
    · simp at ht
    · rename_i transport _ _
      exact ⟨transport, rfl⟩
  obtain ⟨transport, hsend⟩ := hsend
  obtain ⟨hquiet, text, htext⟩ := sendRequest_spec env h transport t.ipType
  rw [hsend, htext]
  exact ⟨hquiet, text, rfl⟩

/-- **The loop over the targets**, by induction on the targets that are left. -/
theorem tryTargets_spec (env : UacEnv) (h : u.Quiet) (cause : Cause) {targets : List Rfc3263.Target}
    (husable : ∀ t ∈ targets, usableTarget t = true) :
    (u.tryTargets env cause targets).1.Quiet ∧ Sound (u.tryTargets env cause targets).2 := by
  induction targets generalizing u cause with
  | nil =>
    have hquiet : ({ u with left := [] } : Uac).Quiet := ⟨h.method, h.texts, by simp, h.transactions⟩
    exact ⟨hquiet, sound_noMoreTargets cause⟩
  | cons t rest ih =>
    have hrest : ∀ t ∈ rest, usableTarget t = true := fun t ht => husable t (List.mem_cons_of_mem _ ht)
    have hquiet : ({ u with left := rest, numTarget := u.numTarget + 1 } : Uac).Quiet :=
      ⟨h.method, h.texts, hrest, h.transactions⟩
    unfold tryTargets
    dsimp only
    split
    · rename_i entry _
      obtain ⟨hquiet', hsound⟩ := ih hquiet entry hrest
      exact ⟨hquiet', (sound_singleton (x := .blacklisted (u.numTarget + 1)) (by simp) (by simp)).append hsound⟩
    · split
      · refine ⟨⟨h.method, h.texts, by simp, h.transactions⟩, ?_⟩
        have htwo : Sound [.onTarget (u.numTarget + 1) t, .aborted (u.numTarget + 1)] := ⟨by simp, by simp⟩
        exact htwo.append (sound_noMoreTargets _)
      · obtain ⟨hquiet', text, htext⟩ := startTransaction_spec env hquiet (husable t List.mem_cons_self)
        rw [htext]
        refine ⟨hquiet', ⟨by simp, ?_⟩⟩
        simp only [List.mem_cons, List.not_mem_nil, or_false, reduceCtorEq, false_or, UacOutput.using.injEq]
        rintro n t' ⟨rfl, rfl⟩
        exact ⟨text, rfl⟩

/-- A target that is not in the blacklist is sent to, unless `abort_routing` is called. -/
theorem tryTargets_sends (env : UacEnv) (h : u.Quiet) (cause : Cause) {targets : List Rfc3263.Target}
    (husable : ∀ t ∈ targets, usableTarget t = true) (habort : ∀ n, env.abortRouting n = false)
    {i : ℕ} {t : Rfc3263.Target} (hi : targets[i]? = some t)
    (hfree : env.blacklist (u.numTarget + i + 1) (blacklistKey t) = none) :
    ∃ n text, .sent n text ∈ (u.tryTargets env cause targets).2 := by
  induction targets generalizing u cause i with
  | nil => cases hi
  | cons first rest ih =>
    have hrest : ∀ t ∈ rest, usableTarget t = true := fun t ht => husable t (List.mem_cons_of_mem _ ht)
    have hquiet : ({ u with left := rest, numTarget := u.numTarget + 1 } : Uac).Quiet :=
      ⟨h.method, h.texts, hrest, h.transactions⟩
    unfold tryTargets
    dsimp only
    split
    · rename_i entry hentry
      -- the target that is meant is behind the one in the blacklist
      cases i with
      | zero =>
        obtain rfl := Option.some.inj hi
        rw [show u.numTarget + 0 + 1 = u.numTarget + 1 by omega, hentry] at hfree
        cases hfree
      | succ i =>
        have hfree' : env.blacklist (u.numTarget + 1 + i + 1) (blacklistKey t) = none := by
          rw [show u.numTarget + 1 + i + 1 = u.numTarget + (i + 1) + 1 by omega]
          exact hfree
        obtain ⟨n, text, hsent⟩ := ih hquiet entry hrest hi hfree'
        exact ⟨n, text, List.mem_cons_of_mem _ hsent⟩
    · rw [if_neg (by rw [habort]; exact Bool.false_ne_true)]
      obtain ⟨-, text, htext⟩ := startTransaction_spec env hquiet (husable first List.mem_cons_self)
      rw [htext]
      exact ⟨u.numTarget + 1, text, by simp⟩

theorem rfc3263Succeeded_spec (env : UacEnv) (h : u.Quiet) {targets : List Rfc3263.Target}
    (husable : ∀ t ∈ targets, usableTarget t = true) :
    (u.rfc3263Succeeded env targets).1.Quiet ∧ Sound (u.rfc3263Succeeded env targets).2 := by
  have hquiet : ({ u with numTarget := 0, left := targets } : Uac).Quiet :=
    ⟨h.method, h.texts, husable, h.transactions⟩
  exact tryTargets_spec env hquiet .none husable

theorem rfc3263Succeeded_sends (env : UacEnv) (h : u.Quiet) {targets : List Rfc3263.Target}
    (husable : ∀ t ∈ targets, usableTarget t = true) (habort : ∀ n, env.abortRouting n = false)
    {i : ℕ} {t : Rfc3263.Target} (hi : targets[i]? = some t)
    (hfree : env.blacklist (i + 1) (blacklistKey t) = none) :
    ∃ n text, .sent n text ∈ (u.rfc3263Succeeded env targets).2 := by
  have hquiet : ({ u with numTarget := 0, left := targets } : Uac).Quiet :=
    ⟨h.method, h.texts, husable, h.transactions⟩
  refine tryTargets_sends env hquiet .none husable habort hi ?_
  rw [show 0 + i + 1 = i + 1 by omega]
  exact hfree

/-- What a client transaction calls. -/
theorem coreCall_spec (env : UacEnv) (h : u.Quiet) (call : CoreCall) :
    (u.coreCall env call).1.Quiet ∧ Sound (u.coreCall env call).2 := by
  cases call with
  | receiveResponse r =>
    unfold coreCall receiveResponse
    dsimp only
    split
    · exact ⟨h, sound_singleton (by simp) (by simp)⟩
    · split
      · exact ⟨h, sound_singleton (by simp) (by simp)⟩
      · split
        · exact tryTargets_spec env h _ h.left
        · exact ⟨h, sound_singleton (by simp) (by simp)⟩
  | clientTimeout => exact tryTargets_spec env h _ h.left
  | connectionFailed => exact tryTargets_spec env h _ h.left
  | tlsValidationFailed => exact tryTargets_spec env h _ h.left
  | inviteTimeout => exact ⟨h, sound_singleton (by simp) (by simp)⟩

/-- What a client transaction puts out, by induction on its outputs. -/
theorem handOver_spec (env : UacEnv) (i : ℕ) (h : u.Quiet) {out : List Out} (hout : ∀ e, .raise e ∉ out) :
    (u.handOver env i out).1.Quiet ∧ Sound (u.handOver env i out).2 := by
  induction out generalizing u with
  | nil => exact ⟨h, sound_nil⟩
  | cons x rest ih =>
    have hrest : ∀ e, .raise e ∉ rest := fun e he => hout e (List.mem_cons_of_mem _ he)
    cases x with
    | send m =>
      obtain ⟨hquiet, hsound⟩ := ih h hrest
      exact ⟨hquiet, (sound_singleton (x := .sentLater i m) (by simp) (by simp)).append hsound⟩
    | core call =>
      obtain ⟨hquiet, hsound⟩ := coreCall_spec env h call
      obtain ⟨hquiet', hsound'⟩ := ih hquiet hrest
      exact ⟨hquiet', hsound.append hsound'⟩
    | raise e => exact absurd List.mem_cons_self (hout e)

/-- The event of a transaction. -/
theorem transactionStep_spec {time : ℕ} {ev : TransactionEvent} {transaction transaction' : UacTransaction}
    {out : List Out} (h : ∀ s, transaction ≠ .invite s)
    (hstep : transactionStep time ev transaction = some (transaction', out)) :
    (∀ s, transaction' ≠ .invite s) ∧ ∀ e, .raise e ∉ out := by
  cases transaction with
  | invite s => exact absurd rfl (h s)
  | ack => cases hstep
  | nonInvite s =>
    cases ev with
    | invite ev => cases hstep
    | nonInvite ev =>
      obtain ⟨p, hp, heq⟩ := Option.map_eq_some_iff.mp hstep
      obtain ⟨rfl, rfl⟩ := Prod.mk.inj heq
      exact ⟨by simp, (NictSystem.step_trans hp).2.quiet⟩

end Uac

/-! ## Runs -/

/-- The targets that an event brings have a server class. -/
def Uac.EnvEvent.Usable (u : Uac) (e : Uac.EnvEvent) : Prop :=
  ∀ targets, e.ev.targets u = some targets → ∀ t ∈ targets, usableTarget t = true

/-- The event brings a target that is tried: it is not in the blacklist, and no callback calls `abort_routing`. -/
def Uac.EnvEvent.Tries (u : Uac) (e : Uac.EnvEvent) : Prop :=
  (∀ n, e.env.abortRouting n = false) ∧ ∃ targets i t, e.ev.targets u = some targets ∧
    targets[i]? = some t ∧ e.env.blacklist (i + 1) (blacklistKey t) = none

/-- **Without an exception.** In every run, an event that brings targets comes to `send_sip_msg`, every transaction
that is made sends, and no event raises. -/
structure UacRequest.Works (node : UacNode) (conf : UacConf) (r : UacRequest) : Prop where
  reaches {tr : List (StepRec Uac Uac.EnvEvent UacOutput)} {u : Uac} (hrun : Run Uac.step (.new node conf r) tr u)
    (husable : ∀ x ∈ tr, x.ev.Usable x.pre) : ∀ x ∈ tr, x.ev.Tries x.pre → ∃ n text, .sent n text ∈ x.out
  sends {tr : List (StepRec Uac Uac.EnvEvent UacOutput)} {u : Uac} (hrun : Run Uac.step (.new node conf r) tr u)
    (husable : ∀ x ∈ tr, x.ev.Usable x.pre) : ∀ x ∈ tr, ∀ n t, .using n t ∈ x.out → ∃ text, .sent n text ∈ x.out
  quiet {tr : List (StepRec Uac Uac.EnvEvent UacOutput)} {u : Uac} (hrun : Run Uac.step (.new node conf r) tr u)
    (husable : ∀ x ∈ tr, x.ev.Usable x.pre) : ∀ x ∈ tr, ∀ e, .raised e ∉ x.out

namespace Uac

variable {u u' : Uac}

theorem route_spec (env : UacEnv) (h : u.Quiet) {args : UacRouteArgs} {resolve : UacDestination → UacRouting}
    (husable : ∀ targets, Event.targets u (.route args resolve) = some targets → ∀ t ∈ targets, usableTarget t = true) :
    (u.route env args resolve).1.Quiet ∧ Sound (u.route env args resolve).2 := by
  have hcalls : ({ u with calls := u.calls + 1 } : Uac).Quiet := ⟨h.method, h.texts, h.left, h.transactions⟩
  unfold Event.targets at husable
  dsimp only at husable
  unfold route
  dsimp only
  generalize resolve (u.request.destination u.conf.normalizeIpv6 args) = routing at husable
  cases routing with
  | resolved targets => exact rfc3263Succeeded_spec env hcalls (husable targets rfl)
  | failed e => exact ⟨hcalls, sound_singleton (by simp) (by simp)⟩
  | wait => exact ⟨⟨h.method, h.texts, h.left, h.transactions⟩, sound_nil⟩

theorem route_sends (env : UacEnv) (h : u.Quiet) {args : UacRouteArgs} {resolve : UacDestination → UacRouting}
    {targets : List Rfc3263.Target} (htargets : Event.targets u (.route args resolve) = some targets)
    (husable : ∀ t ∈ targets, usableTarget t = true) (habort : ∀ n, env.abortRouting n = false)
    {i : ℕ} {t : Rfc3263.Target} (hi : targets[i]? = some t)
    (hfree : env.blacklist (i + 1) (blacklistKey t) = none) :
    ∃ n text, .sent n text ∈ (u.route env args resolve).2 := by
  have hcalls : ({ u with calls := u.calls + 1 } : Uac).Quiet := ⟨h.method, h.texts, h.left, h.transactions⟩
  unfold Event.targets at htargets
  dsimp only at htargets
  unfold route
  dsimp only
  generalize resolve (u.request.destination u.conf.normalizeIpv6 args) = routing at htargets
  cases routing with
  | resolved targets' =>
    obtain rfl := Option.some.inj htargets
    exact rfc3263Succeeded_sends env hcalls husable habort hi hfree
  | failed e => cases htargets
  | wait => cases htargets

/-- What an event brings does not depend on the clock. -/
theorem targets_withNow (time : ℕ) (ev : Event) : Event.targets { u with now := time } ev = Event.targets u ev := rfl

/-- **One event.** -/
theorem step_spec {e : EnvEvent} {out : List UacOutput} (h : u.Quiet) (husable : e.Usable u)
    (hstep : u.step e = some (u', out)) :
    u'.Quiet ∧ Sound out ∧ (e.Tries u → ∃ n text, .sent n text ∈ out) := by
  obtain ⟨env, time, ev⟩ := e
  have hnow : ({ u with now := time } : Uac).Quiet := ⟨h.method, h.texts, h.left, h.transactions⟩
  have hnone : Event.targets u ev = none → EnvEvent.Tries u ⟨env, time, ev⟩ → ∃ n text, .sent n text ∈ out := by
    rintro hev ⟨-, targets, -, -, htargets, -⟩
    rw [hev] at htargets
    cases htargets
  unfold step at hstep
  split_ifs at hstep
  dsimp only at hstep
  cases ev with
  | route args resolve =>
    obtain ⟨rfl, rfl⟩ := Prod.mk.inj (Option.some.inj hstep)
    obtain ⟨hquiet, hsound⟩ := route_spec env hnow husable
    refine ⟨hquiet, hsound, ?_⟩
    rintro ⟨habort, targets, i, t, htargets, hi, hfree⟩
    exact route_sends env hnow htargets (husable targets htargets) habort hi hfree
  | dnsSucceeded call targets =>
    dsimp only at hstep
    split_ifs at hstep
    obtain ⟨rfl, rfl⟩ := Prod.mk.inj (Option.some.inj hstep)
    have hwait : ({ u with now := time, waiting := u.waiting.erase call } : Uac).Quiet :=
      ⟨h.method, h.texts, h.left, h.transactions⟩
    obtain ⟨hquiet, hsound⟩ := rfc3263Succeeded_spec env hwait (husable targets rfl)
    refine ⟨hquiet, hsound, ?_⟩
    rintro ⟨habort, targets', i, t, htargets, hi, hfree⟩
    obtain rfl := Option.some.inj htargets
    exact rfc3263Succeeded_sends env hwait (husable targets rfl) habort hi hfree
  | dnsFailed call err =>
    dsimp only at hstep
    split_ifs at hstep
    obtain ⟨rfl, rfl⟩ := Prod.mk.inj (Option.some.inj hstep)
    exact ⟨⟨h.method, h.texts, h.left, h.transactions⟩, sound_singleton (by simp) (by simp), hnone rfl⟩
  | transaction i ev =>
    obtain ⟨transaction, hi, hstep⟩ := Option.bind_eq_some_iff.mp hstep
    obtain ⟨⟨transaction', o⟩, hp, heq⟩ := Option.map_eq_some_iff.mp hstep
    obtain ⟨rfl, rfl⟩ := Prod.mk.inj heq
    obtain ⟨hkind, hout⟩ := transactionStep_spec (h.transactions transaction (List.mem_of_getElem? hi)) hp
    have hset : ({ u with now := time, transactions := u.transactions.set i transaction' } : Uac).Quiet := by
      refine ⟨h.method, h.texts, h.left, fun x hx => ?_⟩
      rcases List.mem_or_eq_of_mem_set hx with hx | rfl
      · exact h.transactions x hx
      · exact hkind
    obtain ⟨hquiet, hsound⟩ := handOver_spec env i hset hout
    exact ⟨hquiet, hsound, hnone rfl⟩

/-- **A whole run**, by induction on its steps. -/
theorem run_spec {u₀ : Uac} {tr : List (StepRec Uac EnvEvent UacOutput)} (h : u₀.Quiet) (hrun : Run step u₀ tr u)
    (husable : ∀ x ∈ tr, x.ev.Usable x.pre) :
    u.Quiet ∧ ∀ x ∈ tr, Sound x.out ∧ (x.ev.Tries x.pre → ∃ n text, .sent n text ∈ x.out) := by
  refine Run.invariant (G := fun u e => e.Usable u)
    (I := fun tr u => u.Quiet ∧ ∀ x ∈ tr, Sound x.out ∧ (x.ev.Tries x.pre → ∃ n text, .sent n text ∈ x.out))
    ⟨h, by simp⟩ ?_ hrun husable
  rintro tr u e u' out ⟨hquiet, hall⟩ hev hstep
  obtain ⟨hquiet', hsound, hsends⟩ := step_spec hquiet hev hstep
  refine ⟨hquiet', fun x hx => ?_⟩
  rcases List.mem_append.mp hx with hx | hx
  · exact hall x hx
  · obtain rfl := List.mem_singleton.mp hx
    exact ⟨hsound, hsends⟩

end Uac

/-! ## Which requests work -/

namespace Uac

variable {u : Uac} {env : UacEnv} {transport : Transport} {ipType : IpType}

/-- An INVITE: `in_rr` is called before the sending. -/
theorem sendRequest_of_invite (h : u.request.sipMethod = .symbol (ascii "INVITE")) :
    (u.sendRequest env transport ipType).2 = [.raised .noMethodError] := by
  have hclass : getClass u.request.sipMethod = .invite := if_pos h
  unfold sendRequest
  rw [hclass]
  rfl

/-- What does not raise has printed From and To. -/
theorem hasText_of_sendRequest (h : ∀ e, .raised e ∉ (u.sendRequest env transport ipType).2) :
    u.request.fromAddr.HasText ∧ ∀ a ∈ u.request.toAddr, a.HasText := by
  unfold sendRequest at h
  dsimp only at h
  split at h
  · rename_i e _
    exact absurd (List.mem_singleton.mpr rfl) (h e)
  · split at h
    · rename_i e _
      exact absurd (List.mem_singleton.mpr rfl) (h e)
    · rename_i text hread
      have htexts := UacRequest.hasText_of_toS u.node (congrArg Prod.snd hread)
      exact htexts

end Uac

namespace UacRequest

/-- A target over UDP. -/
def udpTarget : Rfc3263.Target := ⟨some .udp, "192.0.2.1", .ipv4, some 5060⟩

/-- `route` with a single target, which is not in the blacklist. -/
def routeToTarget : Uac.EnvEvent where
  env := { blacklist := fun _ _ => none, abortRouting := fun _ => false, transactionHex := ascii "5f3a91c2"
           newConnection := false }
  time := 0
  ev := .route ⟨none, none, none⟩ fun _ => .resolved [udpTarget]

/-- What `route` of a new `Uac` puts out. -/
theorem step_routeToTarget (node : UacNode) (conf : UacConf) (r : UacRequest) :
    ∃ u u' : Uac, u.request = r ∧ (Uac.new node conf r).step routeToTarget =
      some (u', [.onTarget 1 udpTarget, .using 1 udpTarget] ++
        (u.sendRequest routeToTarget.env .udp .ipv4).2) :=
  ⟨{ Uac.new node conf r with calls := 1, left := [], numTarget := 1 }, _, rfl, rfl⟩

theorem usable_routeToTarget (u : Uac) : routeToTarget.Usable u := by
  rintro targets htargets t ht
  obtain rfl := Option.some.inj htargets
  obtain rfl := List.mem_singleton.mp ht
  rfl

/-- What a request that works does when it is routed. -/
theorem Works.sendRequest_quiet {node : UacNode} {conf : UacConf} {r : UacRequest} (h : r.Works node conf) :
    ∃ u : Uac, u.request = r ∧ ∀ e, .raised e ∉ (u.sendRequest routeToTarget.env .udp .ipv4).2 := by
  obtain ⟨u, u', hu, hstep⟩ := step_routeToTarget node conf r
  refine ⟨u, hu, fun e he => ?_⟩
  refine h.quiet (.of_singleton hstep) ?_ _ (List.mem_singleton.mpr rfl) e (List.mem_append_right _ he)
  intro x hx
  rw [List.mem_singleton.mp hx]
  exact usable_routeToTarget _

theorem not_works_of_invite {node : UacNode} {conf : UacConf} {r : UacRequest}
    (h : r.sipMethod = .symbol (ascii "INVITE")) : ¬ r.Works node conf := by
  intro hworks
  obtain ⟨u, rfl, hquiet⟩ := hworks.sendRequest_quiet
  refine hquiet .noMethodError ?_
  rw [Uac.sendRequest_of_invite h]
  exact List.mem_singleton.mpr rfl

/-- What the constructor makes of its arguments: the request URI has been printed. -/
theorem of_new {node : UacNode} {random : UacRandom} {data : UacData} {extraHeaders : List Bytes}
    {body : Option Bytes} {r : UacRequest} (h : UacRequest.new node random data extraHeaders body = .ok r) :
    data.sipMethod = some r.sipMethod ∧ r.ruri.HasText ∧
      r.fromAddr = data.fromAddr.getD (.string (defaultFrom node)) ∧ r.toAddr = data.toAddr := by
  unfold UacRequest.new at h
  split at h
  · cases h
  · cases h
  · rename_i sipMethod ruri hmethod hruri
    rw [hmethod]
    cases hobject : ruri.toObject node with
    | error e =>
      rw [hobject] at h
      cases h
    | ok object =>
      rw [hobject] at h
      simp only [Except.bind] at h
      split at h
      · cases h
      · rename_i object' text hread
        obtain rfl := Except.ok.inj h
        have htext : object.HasText :=
          UriObject.hasText_of_readToS node.escapeUri (congrArg Prod.snd hread)
        have hafter := (htext.readToS node.escapeUri).1
        rw [hread] at hafter
        exact ⟨rfl, hafter, rfl, rfl⟩

/-- A request that the constructor accepts goes through every run if and only if it is no INVITE and its addresses
can be printed. -/
theorem works_iff {node : UacNode} {random : UacRandom} {data : UacData} {extraHeaders : List Bytes}
    {body : Option Bytes} {r : UacRequest} (conf : UacConf)
    (hnew : UacRequest.new node random data extraHeaders body = .ok r) :
    r.Works node conf ↔ data.sipMethod ≠ some (.symbol (ascii "INVITE")) ∧
      (∀ a ∈ data.fromAddr, a.HasText) ∧ ∀ a ∈ data.toAddr, a.HasText := by
  obtain ⟨hmethod, hruri, hfrom, hto⟩ := of_new hnew
  rw [hmethod]
  constructor
  · intro h
    have hinvite : r.sipMethod ≠ .symbol (ascii "INVITE") := fun hinvite => not_works_of_invite hinvite h
    obtain ⟨u, rfl, hquiet⟩ := h.sendRequest_quiet
    obtain ⟨hfromText, htoText⟩ := Uac.hasText_of_sendRequest hquiet
    refine ⟨fun heq => hinvite (Option.some.inj heq), fun a ha => ?_, fun a ha => htoText a (hto ▸ ha)⟩
    rw [hfrom, Option.mem_def.mp ha] at hfromText
    exact hfromText
  · rintro ⟨hinvite, hfromText, htoText⟩
    have hfromAddr : r.fromAddr.HasText := by
      rw [hfrom]
      cases hgiven : data.fromAddr with
      | none => exact trivial
      | some a => exact hfromText a hgiven
    have hquiet : (Uac.new node conf r).Quiet :=
      ⟨fun heq => hinvite (congrArg some heq), ⟨hruri, hfromAddr, fun a ha => htoText a (hto ▸ ha)⟩,
        by simp [Uac.new], by simp [Uac.new]⟩
    constructor
    · exact fun hrun husable x hx => ((Uac.run_spec hquiet hrun husable).2 x hx).2
    · exact fun hrun husable x hx => ((Uac.run_spec hquiet hrun husable).2 x hx).1.sends
    · exact fun hrun husable x hx => ((Uac.run_spec hquiet hrun husable).2 x hx).1.quiet

/-! ## Two requests -/

/-- The digest is that of the text that is given to it below. -/
def sampleUacNode : UacNode where
  version := ascii "2.0.4"
  hdrUserAgent := ascii "User-Agent: OverSIP/2.0.4"
  antiloopConst := ascii "7f"
  md5 := fun _ => ascii "bb5384a6c83a4e1274b6036a6da9481c"
  escapeUri := fun text => text
  parseUri := fun _ => none

def sampleUacRandom : UacRandom :=
  ⟨ascii "c0d1e2f3", ascii "0a1b2c3d4e5f6071", 512, ascii "9b8a7c6d"⟩

def sampleUacConf : UacConf where
  transactionConf := ⟨none, none, none⟩
  dnsFailoverOn503 := true
  normalizeIpv6 := fun ip => ip
  viaCore := fun _ _ => ascii "SIP/2.0/UDP 192.0.2.10:5060"

/-- A method for `sip:alice@192.0.2.1`. -/
def sampleUacData (sipMethod : String) : UacData where
  sipMethod := some (.symbol (ascii sipMethod))
  ruri := some (.object (.new .sip (some (ascii "alice")) (some (ascii "192.0.2.1")) none))

theorem works_options : ∃ r, UacRequest.new sampleUacNode sampleUacRandom (sampleUacData "OPTIONS") [] none = .ok r ∧
    r.Works sampleUacNode sampleUacConf :=
  ⟨_, rfl, (works_iff sampleUacConf (show
      UacRequest.new sampleUacNode sampleUacRandom (sampleUacData "OPTIONS") [] none = .ok _ from rfl)).mpr
    ⟨by decide, by simp [sampleUacData], by simp [sampleUacData]⟩⟩

theorem raises_invite : ∃ r u, UacRequest.new sampleUacNode sampleUacRandom (sampleUacData "INVITE") [] none = .ok r ∧
    (Uac.new sampleUacNode sampleUacConf r).step routeToTarget =
      some (u, [.onTarget 1 udpTarget, .using 1 udpTarget, .raised .noMethodError]) ∧
    ¬ r.Works sampleUacNode sampleUacConf :=
  ⟨_, _, rfl, rfl, not_works_of_invite rfl⟩

end UacRequest

end OverSip
