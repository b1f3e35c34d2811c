import OverSip.Lib.Latch
import OverSip.Lib.Machine
import OverSip.Sip.HeaderFaithfulness

/-!
# The users that are asserted to connections

The module `UserAssertion` (`user_assertion.rb`), for any number of connections. `assert_connection` keeps the From URI
of a request in the variables of its connection, and `add_pai` writes a P-Asserted-Identity with it in later requests.

Any client can write a P-Asserted-Identity itself, under any spelling of the name. `trusted_of_run` says which of these
header lines a request has that went through `add_pai`.
-/

namespace OverSip

namespace UserAssertion

def pAssertedIdentity : Bytes := ascii "P-Asserted-Identity"

def pPreferredIdentity : Bytes := ascii "P-Preferred-Identity"

/-- What the module reads of a request. The keys of `@headers` come from `headerize`. -/
structure Request where
  /-- `from.uri` -/
  fromUri : Bytes
  headers : OrderedMap Bytes (List Bytes)
  keyed : ∀ e ∈ headers.entries, ∃ name, e.1 = headerize name

/-- `reliable_transport_listener?` of the class of a connection, and `cvars[:asserted_user]`. -/
structure Connection where
  reliable : Bool
  assertedUser : Option Bytes
deriving DecidableEq, Repr

/-! ## The methods -/

/-- `assert_connection`, for a request and for a response to it; `none` is the result false. -/
def assertConnection (c : Connection) (q : Request) : Connection × Option Bytes :=
  if c.reliable = false then (c, none)
  else
    match c.assertedUser with
    | some user => (c, some user)
    | none =>
      if (q.headers.find? pPreferredIdentity).isSome then (c, none)
      else ({ c with assertedUser := some q.fromUri }, some q.fromUri)

/-- `revoke_assertion` -/
def revokeAssertion (c : Connection) : Connection := { c with assertedUser := none }

/-- `"<" << user << ">"` -/
def bracketed (user : Bytes) : Bytes := 60 :: (user ++ [62])

/-- `add_pai`: the headers and the result, true, nil or false. -/
def addPai (c : Connection) (q : Request) : OrderedMap Bytes (List Bytes) × Option Bool :=
  if c.assertedUser = some q.fromUri then
    if (q.headers.find? pPreferredIdentity).isNone then
      (q.headers.set (headerize pAssertedIdentity) [bracketed q.fromUri], some true)
    else (q.headers.erase pAssertedIdentity, none)
  else (q.headers.erase pAssertedIdentity, some false)

inductive Event
  | connect (reliable : Bool)
  | assertConnection (connection : ℕ) (q : Request)
  | revokeAssertion (connection : ℕ)
  | addPai (connection : ℕ) (q : Request)

inductive Output
  | asserted (result : Option Bytes)
  | revoked
  | added (headers : OrderedMap Bytes (List Bytes)) (result : Option Bool)

/-- The connections by their numbers. -/
def step (cs : List Connection) : Event → Option (List Connection × List Output)
  | .connect reliable => some (cs ++ [⟨reliable, none⟩], [])
  | .assertConnection i q =>
    cs[i]?.map fun c =>
      let r := assertConnection c q
      (cs.set i r.1, [.asserted r.2])
  | .revokeAssertion i => cs[i]?.map fun c => (cs.set i (revokeAssertion c), [.revoked])
  | .addPai i q =>
    cs[i]?.map fun c =>
      let r := addPai c q
      (cs, [.added r.1 r.2])

/-! ## Parsed requests -/

/-- The keys of a headers map are names that `headerize` gives. -/
def Keyed (headers : OrderedMap Bytes (List Bytes)) : Prop := ∀ e ∈ headers.entries, ∃ name, e.1 = headerize name

theorem Keyed.set {headers : OrderedMap Bytes (List Bytes)} (h : Keyed headers) (name : Bytes) (values : List Bytes) :
    Keyed (headers.set (headerize name) values) := by
  intro e he
  rcases OrderedMap.mem_set he with rfl | he
  · exact ⟨name, rfl⟩
  · exact h e he

theorem keyed_run (buffer : Bytes) (trace : List (ℕ × MarkAction)) (m : Marks) (h : Keyed m.headers) :
    Keyed (m.run buffer trace).headers := by
  induction trace generalizing m with
  | nil => exact h
  | cons x trace ih =>
    apply ih
    obtain ⟨pos, action⟩ := x
    cases action with
    | writeHdrValue =>
      show Keyed (m.writeHdrValue buffer).headers
      unfold Marks.writeHdrValue pushHeader
      split
      · exact h
      · dsimp only
        split
        · exact h.set _ _
        · exact h.set _ _
    | startHdrField => exact h
    | writeHdrField => exact h
    | startHdrValue => exact h
    | storeHdrValue => exact h

/-- A request as the parser gives it. -/
def Request.parsed (entersEmpty : Bool) (m : WrittenMessage) (fromUri : Bytes) : Request where
  fromUri := fromUri
  headers := m.headers entersEmpty
  keyed := by
    apply keyed_run
    intro e he
    cases he

/-! ## Header lines -/

/-- The lines that a request is written with under the name P-Asserted-Identity, in any spelling. -/
def assertedLines (headers : OrderedMap Bytes (List Bytes)) : List (Bytes × Bytes) :=
  (headers.lines id).filter fun l => SameName l.1 pAssertedIdentity

/-- The other ones. -/
def otherLines (headers : OrderedMap Bytes (List Bytes)) : List (Bytes × Bytes) :=
  (headers.lines id).filter fun l => ¬ SameName l.1 pAssertedIdentity

theorem headerize_pAssertedIdentity : headerize pAssertedIdentity = pAssertedIdentity := by decide

/-- Of the keys of a request, only the one of the module is a spelling of it. -/
theorem Keyed.sameName_iff {headers : OrderedMap Bytes (List Bytes)} (h : Keyed headers) {l : Bytes × Bytes}
    (hl : l ∈ headers.lines id) : SameName l.1 pAssertedIdentity ↔ l.1 = pAssertedIdentity := by
  obtain ⟨e, he, hle⟩ := List.mem_flatMap.mp hl
  obtain ⟨v, _, rfl⟩ := List.mem_map.mp hle
  obtain ⟨name, hname⟩ := h e he
  show SameName e.1 pAssertedIdentity ↔ e.1 = pAssertedIdentity
  have hidem : headerize (headerize name) = headerize name := (headerize_eq_iff _ _).mpr (sameName_headerize name)
  rw [hname, ← headerize_eq_iff, headerize_pAssertedIdentity, hidem]

theorem Keyed.assertedLines_eq {headers : OrderedMap Bytes (List Bytes)} (h : Keyed headers) :
    assertedLines headers = ((headers.find? pAssertedIdentity).getD []).map fun v => (pAssertedIdentity, v) := by
  have hfilter : assertedLines headers = (headers.lines id).filter fun l => l.1 = pAssertedIdentity := by
    apply List.filter_congr
    intro l hl
    exact decide_eq_decide.mpr (h.sameName_iff hl)
  rw [hfilter, OrderedMap.filter_eq_map_valuesOf, OrderedMap.valuesOf_lines, Option.map_id, id]

theorem Keyed.otherLines_eq {headers : OrderedMap Bytes (List Bytes)} (h : Keyed headers) :
    otherLines headers = headers.linesBut id pAssertedIdentity := by
  apply List.filter_congr
  intro l hl
  exact decide_eq_decide.mpr (not_congr (h.sameName_iff hl))

theorem Keyed.erase {headers : OrderedMap Bytes (List Bytes)} (h : Keyed headers) (key : Bytes) :
    Keyed (headers.erase key) := fun e he => h e (List.mem_filter.mp he).1

/-- What `add_pai` leaves of a request. -/
theorem addPai_spec (c : Connection) (q : Request) :
    otherLines (addPai c q).1 = otherLines q.headers ∧
      assertedLines (addPai c q).1 =
        if c.assertedUser = some q.fromUri ∧ q.headers.find? pPreferredIdentity = none then
          [(pAssertedIdentity, bracketed q.fromUri)]
        else [] := by
  have hkeyed : Keyed q.headers := q.keyed
  have herase : otherLines (q.headers.erase pAssertedIdentity) = otherLines q.headers ∧
      assertedLines (q.headers.erase pAssertedIdentity) = [] := by
    rw [(hkeyed.erase _).otherLines_eq, hkeyed.otherLines_eq, (hkeyed.erase _).assertedLines_eq,
      OrderedMap.linesBut_erase, OrderedMap.find?_erase_self]
    exact ⟨rfl, rfl⟩
  unfold addPai
  by_cases huser : c.assertedUser = some q.fromUri
  · rw [if_pos huser]
    by_cases hppi : q.headers.find? pPreferredIdentity = none
    · have hnone : (q.headers.find? pPreferredIdentity).isNone = true := Option.isNone_iff_eq_none.mpr hppi
      rw [if_pos hnone, if_pos ⟨huser, hppi⟩, (hkeyed.set _ _).otherLines_eq, hkeyed.otherLines_eq,
        (hkeyed.set _ _).assertedLines_eq, headerize_pAssertedIdentity, OrderedMap.linesBut_set,
        OrderedMap.find?_set_self]
      exact ⟨rfl, rfl⟩
    · have hsome : ¬ (q.headers.find? pPreferredIdentity).isNone = true :=
        fun h => hppi (Option.isNone_iff_eq_none.mp h)
      rw [if_neg hsome, if_neg fun h => hppi h.2]
      exact herase
  · rw [if_neg huser, if_neg fun h => huser h.1]
    exact herase

/-! ## Runs -/

abbrev History := List (StepRec (List Connection) Event Output)

/-- What a step does with the asserted user of a connection: a call of `assert_connection` for a request that came by a
reliable transport and has no P-Preferred-Identity, or a call of `revoke_assertion`. -/
def opOf (i : ℕ) (r : StepRec (List Connection) Event Output) : Option (LatchOp Bytes) :=
  match r.ev with
  | .assertConnection j q =>
    if j = i ∧ (r.pre[i]?.any Connection.reliable) = true ∧ q.headers.find? pPreferredIdentity = none then
      some (.set q.fromUri)
    else none
  | .revokeAssertion j => if j = i then some .clear else none
  | .connect _ | .addPai _ _ => none

def opsOf (i : ℕ) (tr : History) : List (LatchOp Bytes) := tr.filterMap (opOf i)

/-- **Trusted identities.** A request that has gone through `add_pai` has a P-Asserted-Identity, under any spelling of the
name, exactly when it has no P-Preferred-Identity and its From URI is the user that was the first to be asserted to
its connection since the last revocation; it is then the only one, and it has this URI. All other header lines are those
of the request. -/
structure Trusted (tr : History) : Prop where
  asserted : ∀ tr₁ r tr₂ i q, tr = tr₁ ++ r :: tr₂ → r.ev = .addPai i q → ∃ headers result,
    r.out = [.added headers result] ∧ otherLines headers = otherLines q.headers ∧
      (Latch.Holds (opsOf i tr₁) q.fromUri ∧ q.headers.find? pPreferredIdentity = none →
        assertedLines headers = [(pAssertedIdentity, bracketed q.fromUri)]) ∧
      (¬ (Latch.Holds (opsOf i tr₁) q.fromUri ∧ q.headers.find? pPreferredIdentity = none) →
        assertedLines headers = [])

/-- The variables of each connection are the latch of its history. -/
def Tracks (tr : History) (cs : List Connection) : Prop :=
  ∀ i c, cs[i]? = some c → c.assertedUser = Latch.after (opsOf i tr)

theorem opsOf_snoc (i : ℕ) (tr : History) (r : StepRec (List Connection) Event Output) :
    opsOf i (tr ++ [r]) = opsOf i tr ++ (opOf i r).toList := by
  unfold opsOf
  rw [List.filterMap_append]
  congr 1

/-- Nothing happens to a connection before it is there. -/
def Fresh (tr : History) (cs : List Connection) : Prop := ∀ i, cs.length ≤ i → opsOf i tr = []

theorem assertConnection_spec (c : Connection) (q : Request) :
    (assertConnection c q).1 = { c with assertedUser :=
      if c.reliable = true ∧ q.headers.find? pPreferredIdentity = none then Latch.next c.assertedUser (.set q.fromUri)
      else c.assertedUser } := by
  obtain ⟨reliable, user⟩ := c
  unfold assertConnection
  cases reliable with
  | false => rfl
  | true =>
    cases user with
    | some u =>
      show (⟨true, some u⟩ : Connection) = _
      congr 1
      exact (ite_self _).symm
    | none =>
      cases hppi : q.headers.find? pPreferredIdentity with
      | none => rfl
      | some _ => rfl

variable {tr : History} {cs cs' : List Connection} {e : Event} {o : List Output}

theorem opOf_of_ne {i j : ℕ} (h : j ≠ i) (q : Request) (out : List Output) :
    opOf i ⟨cs, .assertConnection j q, out, cs'⟩ = none ∧ opOf i ⟨cs, .revokeAssertion j, out, cs'⟩ = none := by
  constructor
  · exact if_neg fun hc => h hc.1
  · exact if_neg h

/-- A connection that an event leaves alone. -/
theorem Tracks.keep (h : Tracks tr cs) {i : ℕ} {c : Connection} (hc : cs[i]? = some c)
    (hop : opOf i ⟨cs, e, o, cs'⟩ = none) : c.assertedUser = Latch.after (opsOf i (tr ++ [⟨cs, e, o, cs'⟩])) := by
  rw [opsOf_snoc, hop]
  show c.assertedUser = Latch.after (opsOf i tr ++ [])
  rw [List.append_nil]
  exact h i c hc

/-- **One event** does with the variables what its operation does with the latch. -/
theorem Tracks.step (h : Tracks tr cs) (hfresh : Fresh tr cs) (hstep : UserAssertion.step cs e = some (cs', o)) :
    Tracks (tr ++ [⟨cs, e, o, cs'⟩]) cs' ∧ Fresh (tr ++ [⟨cs, e, o, cs'⟩]) cs' := by
  cases e with
  | connect reliable =>
    obtain ⟨rfl, rfl⟩ := Prod.mk.inj (Option.some.inj hstep)
    have hops : ∀ i, opsOf i (tr ++ [⟨cs, .connect reliable, [], cs ++ [⟨reliable, none⟩]⟩]) = opsOf i tr := by
      intro i
      rw [opsOf_snoc]
      exact List.append_nil _
    constructor
    · intro i c hc
      rw [hops]
      rcases Nat.lt_trichotomy i cs.length with hlt | rfl | hgt
      · rw [List.getElem?_append_left hlt] at hc
        exact h i c hc
      · rw [List.getElem?_concat_length] at hc
        obtain rfl := Option.some.inj hc
        rw [hfresh _ (Nat.le_refl _)]
        rfl
      · rw [List.getElem?_eq_none (by rw [List.length_append, List.length_singleton]; omega)] at hc
        cases hc
    · intro i hi
      rw [List.length_append, List.length_singleton] at hi
      rw [hops]
      exact hfresh i (by omega)
  | assertConnection j q =>
    obtain ⟨c, hj, hmk⟩ := Option.map_eq_some_iff.mp hstep
    obtain ⟨rfl, rfl⟩ := Prod.mk.inj hmk
    have hlt : j < cs.length := (List.getElem?_eq_some_iff.mp hj).1
    constructor
    · intro i d hd
      by_cases hij : j = i
      · subst hij
        rw [List.getElem?_set_self hlt] at hd
        obtain rfl := Option.some.inj hd
        rw [assertConnection_spec, opsOf_snoc]
        show (if c.reliable = true ∧ q.headers.find? pPreferredIdentity = none then _ else _) =
          Latch.after (opsOf j tr ++ (if j = j ∧ (cs[j]?.any Connection.reliable) = true ∧
            q.headers.find? pPreferredIdentity = none then some (LatchOp.set q.fromUri) else none).toList)
        rw [hj, Option.any_some, h j c hj]
        by_cases hcond : c.reliable = true ∧ q.headers.find? pPreferredIdentity = none
        · rw [if_pos hcond, if_pos ⟨rfl, hcond⟩]
          exact (Latch.after_snoc _ _).symm
        · rw [if_neg hcond, if_neg fun hall => hcond hall.2]
          show _ = Latch.after (opsOf j tr ++ [])
          rw [List.append_nil]
      · rw [List.getElem?_set_ne hij] at hd
        exact h.keep hd (opOf_of_ne hij q _).1
    · intro i hi
      rw [List.length_set] at hi
      rw [opsOf_snoc, (opOf_of_ne (by omega) q _).1, hfresh i hi]
      rfl
  | revokeAssertion j =>
    obtain ⟨c, hj, hmk⟩ := Option.map_eq_some_iff.mp hstep
    obtain ⟨rfl, rfl⟩ := Prod.mk.inj hmk
    have hlt : j < cs.length := (List.getElem?_eq_some_iff.mp hj).1
    constructor
    · intro i d hd
      by_cases hij : j = i
      · subst hij
        rw [List.getElem?_set_self hlt] at hd
        obtain rfl := Option.some.inj hd
        have hop : opOf j ⟨cs, .revokeAssertion j, [.revoked], cs.set j (revokeAssertion c)⟩ = some .clear := if_pos rfl
        rw [opsOf_snoc, hop]
        exact (Latch.after_snoc (opsOf j tr) .clear).symm
      · rw [List.getElem?_set_ne hij] at hd
        refine h.keep hd ?_
        exact if_neg hij
    · intro i hi
      rw [List.length_set] at hi
      have hop : opOf i ⟨cs, .revokeAssertion j, [.revoked], cs.set j (revokeAssertion c)⟩ = none := if_neg (by omega)
      rw [opsOf_snoc, hop, hfresh i hi]
      rfl
  | addPai j q =>
    obtain ⟨c, hj, hmk⟩ := Option.map_eq_some_iff.mp hstep
    obtain ⟨rfl, rfl⟩ := Prod.mk.inj hmk
    constructor
    · intro i d hd
      exact h.keep hd rfl
    · intro i hi
      rw [opsOf_snoc]
      exact (List.append_nil _).trans (hfresh i hi)

theorem tracks_of_run (h : Run step [] tr cs) : Tracks tr cs := by
  have hboth : Tracks tr cs ∧ Fresh tr cs := by
    refine Run.invariant (G := fun _ _ => True) (I := fun tr cs => Tracks tr cs ∧ Fresh tr cs) ?_ ?_ h fun _ _ => trivial
    · refine ⟨?_, fun _ _ => rfl⟩
      intro i c hc
      cases hc
    · rintro tr cs e cs' o ⟨htracks, hfresh⟩ - hstep
      exact htracks.step hfresh hstep
  exact hboth.1

theorem trusted_of_run (h : Run step [] tr cs) : Trusted tr := by
  refine ⟨?_⟩
  rintro tr₁ r tr₂ i q rfl hev
  obtain ⟨hrun, hstep, -⟩ := h.of_middle
  rw [hev] at hstep
  obtain ⟨c, hc, hmk⟩ := Option.map_eq_some_iff.mp hstep
  obtain ⟨hother, hasserted⟩ := addPai_spec c q
  refine ⟨(addPai c q).1, (addPai c q).2, (Prod.mk.inj hmk).2.symm, hother, ?_, ?_⟩
  · rintro ⟨hholds, hppi⟩
    have huser : c.assertedUser = some q.fromUri := by
      rw [tracks_of_run hrun i c hc]
      exact Latch.after_eq_some_iff.mpr hholds
    rw [hasserted, if_pos ⟨huser, hppi⟩]
  · intro hnot
    rw [hasserted, if_neg]
    rintro ⟨huser, hppi⟩
    refine hnot ⟨Latch.after_eq_some_iff.mp ?_, hppi⟩
    rw [← tracks_of_run hrun i c hc]
    exact huser

/-! ## A small run -/

/-- A request in which the client writes a P-Asserted-Identity itself, in small letters. -/
def spoofedRequest (fromUri : String) : Request :=
  Request.parsed true
    (WrittenMessage.optionsWith [WrittenMessage.plainLine .generic "p-asserted-identity" "<sip:eve@example>"])
    (ascii fromUri)

/-- Alice is asserted to a connection, over which requests of both come. -/
def sampleEvents : List Event :=
  [.connect true, .assertConnection 0 (spoofedRequest "sip:alice@example"),
    .addPai 0 (spoofedRequest "sip:bob@example"), .addPai 0 (spoofedRequest "sip:alice@example")]

def Output.assertedLines : Output → List (Bytes × Bytes)
  | .added headers _ => UserAssertion.assertedLines headers
  | _ => []

theorem trusted_sample : ∃ tr, tr.map (fun r => r.out.flatMap Output.assertedLines) =
    [[], [], [], [(pAssertedIdentity, ascii "<sip:alice@example>")]] ∧ Trusted tr := by
  have hexec : ∃ tr cs, exec step [] sampleEvents = some (tr, cs) ∧
      tr.map (fun r => r.out.flatMap Output.assertedLines) =
        [[], [], [], [(pAssertedIdentity, ascii "<sip:alice@example>")]] := by
    refine ⟨_, _, rfl, ?_⟩
    decide
  obtain ⟨tr, cs, htr, hlines⟩ := hexec
  exact ⟨tr, hlines, trusted_of_run (run_of_exec htr)⟩

end UserAssertion

end OverSip
