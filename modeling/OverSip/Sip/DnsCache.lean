import OverSip.Lib.Cutting
import OverSip.Lib.ExpiringMap
import OverSip.Lib.Machine
import OverSip.Sip.Rfc3263Results

/-!
# The DNS cache of a proxy configuration

`check_dns_cache` and `do_dns` (`client.rb`), for any number of clients that share a proxy configuration. What a
resolution hands to its client is stored under a key made of the destination, with a timer that deletes the key; other
clients may look up or resolve the same destination in the meantime.

A resolution is known by what it will hand over (`Rfc3263.doDns`), which it does one call after the other and at any
times. Times are in milliseconds; the timers that are due fire before anything else that happens at the time.
-/

namespace OverSip

namespace DnsCache

open Rfc3263

/-- What `route` looks up. -/
structure Destination where
  scheme : String
  host : String
  hostType : UriHostType
  port : Option ℕ
  transport : Option String
deriving DecidableEq, Repr

/-- A proxy of `proxies.conf`; the time is in seconds. -/
structure Conf where
  proxy : ProxyConf
  useDnsCache : Bool
  dnsCacheTime : ℕ
  admitted : 300 ≤ dnsCacheTime

/-- How long an entry lives. -/
def Conf.ttl (conf : Conf) : ℕ := 1000 * conf.dnsCacheTime

/-! ## Destinations -/

def uriScheme (scheme : String) : UriScheme :=
  if scheme = "sip" then .sip else if scheme = "sips" then .sips else .other

def uriTransport (transport : String) : UriTransport :=
  if transport = "udp" then .udp else if transport = "tcp" then .tcp else if transport = "tls" then .tls else .other

/-- `Query.new` -/
def query (d : Destination) : Query :=
  { uriScheme := uriScheme d.scheme
    uriHost := d.host
    uriHostType := d.hostType
    uriPort := d.port
    uriTransport := d.transport.map uriTransport }

/-- `"#{dst_scheme}|#{dst_host}|#{dst_port}|#{dst_transport}"` -/
def dnsCacheKey (d : Destination) : String :=
  d.scheme ++ "|" ++ d.host ++ "|" ++ (d.port.map toString).getD "" ++ "|" ++ d.transport.getD ""

/-- What the parser gives: no bar in a scheme or a host, and no empty transport. -/
structure Plain (d : Destination) : Prop where
  scheme : '|' ∉ d.scheme.toList
  host : '|' ∉ d.host.toList
  transport : d.transport ≠ some ""

/-! ## The methods -/

inductive CacheCheck
  /-- It answers from the cache and returns true. -/
  | found (h : Handed)
  /-- The key, or `nil`. -/
  | goesOn (key : Option String)
deriving DecidableEq, Repr

/-- A query whose fiber is under way. -/
structure Resolution where
  key : Option String
  destination : Destination
  /-- The calls of its callbacks that are still to come. -/
  left : List Handed
deriving DecidableEq, Repr

structure State where
  conf : Conf
  cache : ExpiringMap String Handed
  resolutions : List Resolution
  now : ℕ

def init (conf : Conf) : State := { conf, cache := .empty, resolutions := [], now := 0 }

inductive Event
  /-- `route`. `dns`, `order` and `late` say what comes of the query when one is made. -/
  | route (d : Destination) (dns : Dns) (order : NaptrSort) (late : Bool)
  /-- A callback of a query is called. -/
  | calls (i : ℕ)

inductive Output
  /-- A resolution hands something to its client. -/
  | handed (d : Destination) (h : Handed)
  /-- The DNS cache does. -/
  | cached (d : Destination) (h : Handed)
deriving DecidableEq, Repr

def State.checkDnsCache (s : State) (d : Destination) : CacheCheck :=
  if d.hostType = .domain ∧ s.conf.useDnsCache = true then
    match s.cache.get (dnsCacheKey d) with
    | some h => .found h
    | none => .goesOn (some (dnsCacheKey d))
  else .goesOn none

/-- "Store the result in the DNS cache." -/
def State.store (s : State) (key : Option String) (h : Handed) : State :=
  match key with
  | some key => { s with cache := s.cache.put ⟨key, h, s.now, s.conf.ttl⟩ }
  | none => s

def State.doDns (s : State) (key : Option String) (d : Destination) (late : Bool) : Resolved → State × List Output
  | .target t => (s, [.handed d (.success (.target t))])
  | .error e => (s.store key (.error e), [.handed d (.error e)])
  | .started events =>
    ({ s with resolutions := s.resolutions ++ [⟨key, d, Rfc3263.handed late events⟩] }, [])

def State.route (s : State) (d : Destination) (dns : Dns) (order : NaptrSort) (late : Bool) : State × List Output :=
  match s.checkDnsCache d with
  | .found h => (s, [.cached d h])
  | .goesOn key => s.doDns key d late (resolve s.conf.proxy dns (query d) order)

/-- One event at the time of the state. -/
def State.handle (s : State) : Event → Option (State × List Output)
  | .route d dns order late => some (s.route d dns order late)
  | .calls i =>
    match s.resolutions[i]? with
    | some ⟨key, d, h :: left⟩ =>
      some ({ s with resolutions := s.resolutions.set i ⟨key, d, left⟩ }.store key h, [.handed d h])
    | _ => none

/-- One event, after the timers that are due. -/
def step (s : State) (e : TimedEvent Event) : Option (State × List Output) :=
  if s.now ≤ e.time then { s with cache := s.cache.advance e.time, now := e.time }.handle e.ev else none

/-! ## Keys -/

/-- The proxy configuration has a cache for the destination. -/
def Conf.Caches (conf : Conf) (d : Destination) : Prop := d.hostType = .domain ∧ conf.useDnsCache = true

instance (conf : Conf) (d : Destination) : Decidable (conf.Caches d) := inferInstanceAs (Decidable (_ ∧ _))

theorem notMem_toDigits (n : ℕ) : '|' ∉ Nat.toDigits 10 n := by
  intro h
  have hdigit := Nat.isDigit_of_mem_toDigits (by decide) (by decide) h
  cases hdigit

theorem portText_inj {p q : Option ℕ} (h : (p.map toString).getD "" = (q.map toString).getD "") : p = q := by
  have hne : ∀ n : ℕ, toString n ≠ "" := fun n => Nat.repr_ne_empty
  cases p with
  | none =>
    cases q with
    | none => rfl
    | some n => exact absurd h.symm (hne n)
  | some m =>
    cases q with
    | none => exact absurd h (hne m)
    | some n =>
      have hdigits : Nat.toDigits 10 m = Nat.toDigits 10 n := by
        rw [← Nat.toList_repr, ← Nat.toList_repr]
        exact congrArg String.toList h
      rw [← Nat.ofDigitChars_ten_toDigits (n := m), hdigits, Nat.ofDigitChars_ten_toDigits]

theorem notMem_portText (p : Option ℕ) : '|' ∉ ((p.map toString).getD "").toList := by
  cases p with
  | none => exact List.not_mem_nil
  | some n =>
    show '|' ∉ n.repr.toList
    rw [Nat.toList_repr]
    exact notMem_toDigits n

theorem toList_dnsCacheKey (d : Destination) : (dnsCacheKey d).toList =
    d.scheme.toList ++ '|' :: (d.host.toList ++ '|' ::
      (((d.port.map toString).getD "").toList ++ '|' :: (d.transport.getD "").toList)) := by
  have hbar : "|".toList = ['|'] := rfl
  simp only [dnsCacheKey, String.toList_append, hbar, List.append_assoc, List.cons_append, List.nil_append]

/-- **Two destinations with a cache have two keys.** -/
theorem dnsCacheKey_inj {conf : Conf} {d d' : Destination} (hd : Plain d) (hd' : Plain d') (hc : conf.Caches d)
    (hc' : conf.Caches d') (h : dnsCacheKey d = dnsCacheKey d') : d = d' := by
  have hkeys := congrArg String.toList h
  rw [toList_dnsCacheKey, toList_dnsCacheKey] at hkeys
  obtain ⟨hscheme, hkeys⟩ := append_cons_inj_of_notMem hd.scheme hd'.scheme hkeys
  obtain ⟨hhost, hkeys⟩ := append_cons_inj_of_notMem hd.host hd'.host hkeys
  obtain ⟨hport, htransport⟩ := append_cons_inj_of_notMem (notMem_portText _) (notMem_portText _) hkeys
  have htransports : d.transport = d'.transport := by
    have hne := hd.transport
    have hne' := hd'.transport
    have heq := String.toList_inj.mp htransport
    cases ht : d.transport with
    | none =>
      cases ht' : d'.transport with
      | none => rfl
      | some t' =>
        rw [ht, ht'] at heq
        rw [ht'] at hne'
        exact absurd (congrArg some heq.symm) hne'
    | some t =>
      cases ht' : d'.transport with
      | none =>
        rw [ht, ht'] at heq
        rw [ht] at hne
        exact absurd (congrArg some heq) hne
      | some t' =>
        rw [ht, ht'] at heq
        exact congrArg some heq
  have htypes : d.hostType = d'.hostType := hc.1.trans hc'.1.symm
  cases d with
  | mk scheme host hostType port transport =>
    cases d' with
    | mk scheme' host' hostType' port' transport' =>
      obtain rfl := String.toList_inj.mp hscheme
      obtain rfl := String.toList_inj.mp hhost
      obtain rfl := htypes
      obtain rfl := portText_inj (String.toList_inj.mp hport)
      obtain rfl := htransports
      rfl

/-! ## One event -/

variable {s s' : State} {e : Event} {o : List Output}

/-- The key that a destination is stored under, if it is. -/
def State.keyOf (s : State) (d : Destination) : Option String :=
  if s.conf.Caches d then some (dnsCacheKey d) else none

/-- The cache has nothing for a destination. -/
def State.Misses (s : State) (d : Destination) : Prop := s.conf.Caches d → s.cache.get (dnsCacheKey d) = none

/-- The paths of an event. -/
inductive Trans (s : State) : Event → List Output → State → Prop
  | cached {d : Destination} {dns : Dns} {order : NaptrSort} {late : Bool} {h : Handed} :
      s.conf.Caches d → s.cache.get (dnsCacheKey d) = some h → Trans s (.route d dns order late) [.cached d h] s
  | atOnce {d : Destination} {dns : Dns} {order : NaptrSort} {late : Bool} {h : Handed} : s.Misses d →
      (Rfc3263.doDns late (resolve s.conf.proxy dns (query d) order)).2 = [h] →
      Trans s (.route d dns order late) [.handed d h] (s.store (s.keyOf d) h)
  | started {d : Destination} {dns : Dns} {order : NaptrSort} {late : Bool} : s.Misses d →
      Trans s (.route d dns order late) []
        { s with resolutions := s.resolutions ++
            [⟨s.keyOf d, d, (Rfc3263.doDns late (resolve s.conf.proxy dns (query d) order)).2⟩] }
  | calls {i : ℕ} {key : Option String} {d : Destination} {h : Handed} {left : List Handed} :
      s.resolutions[i]? = some ⟨key, d, h :: left⟩ →
      Trans s (.calls i) [.handed d h] ({ s with resolutions := s.resolutions.set i ⟨key, d, left⟩ }.store key h)

/-- Only a host that is an address is resolved at once. -/
theorem hostType_of_target {conf : ProxyConf} {dns : Dns} {q : Query} {order : NaptrSort} {t : Rfc3263.Target}
    (h : resolve conf dns q order = .target t) : q.uriHostType ≠ .domain := by
  intro hdomain
  unfold resolve at h
  rw [hdomain] at h
  split at h
  · cases h
  · split at h
    · cases h
    · split at h
      · cases h
      · cases h

theorem doDns_trans {d : Destination} {dns : Dns} {order : NaptrSort} {late : Bool} (hmiss : s.Misses d)
    (h : s.doDns (s.keyOf d) d late (resolve s.conf.proxy dns (query d) order) = (s', o)) :
    Trans s (.route d dns order late) o s' := by
  cases hr : resolve s.conf.proxy dns (query d) order with
  | target t =>
    rw [hr] at h
    obtain ⟨rfl, rfl⟩ := Prod.mk.inj h
    have hkey : s.keyOf d = none := if_neg fun hc => hostType_of_target hr hc.1
    have ht : Trans s (.route d dns order late) [.handed d (.success (.target t))]
        (s.store (s.keyOf d) (.success (.target t))) := .atOnce hmiss (by rw [hr]; rfl)
    rw [hkey] at ht
    exact ht
  | error e =>
    rw [hr] at h
    obtain ⟨rfl, rfl⟩ := Prod.mk.inj h
    exact .atOnce hmiss (by rw [hr]; rfl)
  | started events =>
    rw [hr] at h
    obtain ⟨rfl, rfl⟩ := Prod.mk.inj h
    have ht : Trans s (.route d dns order late) []
        { s with resolutions := s.resolutions ++
            [⟨s.keyOf d, d, (Rfc3263.doDns late (resolve s.conf.proxy dns (query d) order)).2⟩] } := .started hmiss
    rw [hr] at ht
    exact ht

theorem handle_trans (h : s.handle e = some (s', o)) : Trans s e o s' := by
  cases e with
  | route d dns order late =>
    have hroute : s.route d dns order late = (s', o) := Option.some.inj h
    unfold State.route State.checkDnsCache at hroute
    by_cases hc : s.conf.Caches d
    · have hkey : s.keyOf d = some (dnsCacheKey d) := if_pos hc
      have hcond : d.hostType = .domain ∧ s.conf.useDnsCache = true := hc
      rw [if_pos hcond] at hroute
      cases hget : s.cache.get (dnsCacheKey d) with
      | some x =>
        rw [hget] at hroute
        obtain ⟨rfl, rfl⟩ := Prod.mk.inj hroute
        exact .cached hc hget
      | none =>
        rw [hget] at hroute
        refine doDns_trans (fun _ => hget) ?_
        rw [hkey]
        exact hroute
    · have hkey : s.keyOf d = none := if_neg hc
      have hcond : ¬ (d.hostType = .domain ∧ s.conf.useDnsCache = true) := hc
      rw [if_neg hcond] at hroute
      refine doDns_trans (fun hd => absurd hd hc) ?_
      rw [hkey]
      exact hroute
  | calls i =>
    unfold State.handle at h
    dsimp only at h
    split at h
    · rename_i hi
      obtain ⟨rfl, rfl⟩ := Prod.mk.inj (Option.some.inj h)
      exact .calls hi
    · cases h

theorem step_trans {e : TimedEvent Event} (h : step s e = some (s', o)) :
    s.now ≤ e.time ∧ Trans { s with cache := s.cache.advance e.time, now := e.time } e.ev o s' := by
  unfold step at h
  split at h
  · rename_i hle
    exact ⟨hle, handle_trans h⟩
  · cases h

/-! ## What a run has resolved -/

/-- Something that a resolution has handed over. -/
structure Answer where
  time : ℕ
  destination : Destination
  handed : Handed
deriving DecidableEq, Repr

/-- The answers of one step. -/
def answersAt (time : ℕ) (out : List Output) : List Answer :=
  out.filterMap fun x =>
    match x with
    | .handed d h => some ⟨time, d, h⟩
    | .cached _ _ => none

/-- The answers of a run, the oldest first. -/
def answers (tr : List (StepRec State (TimedEvent Event) Output)) : List Answer :=
  tr.flatMap fun r => answersAt r.ev.time r.out

/-- The answers for one destination. -/
def answersTo (tr : List (StepRec State (TimedEvent Event) Output)) (d : Destination) : List Answer :=
  (answers tr).filter (·.destination = d)

theorem answers_append (tr tr' : List (StepRec State (TimedEvent Event) Output)) :
    answers (tr ++ tr') = answers tr ++ answers tr' := List.flatMap_append

/-- The store of an answer. -/
def Answer.store (conf : Conf) (a : Answer) : Store String Handed :=
  ⟨dnsCacheKey a.destination, a.handed, a.time, conf.ttl⟩

/-- The stores that go with some answers. -/
def stored (conf : Conf) (as : List Answer) : List (Store String Handed) :=
  (as.filter fun a => decide (conf.Caches a.destination)).map (Answer.store conf)

/-- What resolutions of a destination can hand over. -/
def CanBe (conf : Conf) (d : Destination) (h : Handed) : Prop :=
  ∃ dns order late, h ∈ (Rfc3263.doDns late (resolve conf.proxy dns (query d) order)).2

/-- The cache is the map after the stores of the answers, and what is under way is for its destination. -/
structure Tracks (conf : Conf) (as : List Answer) (s : State) : Prop where
  same : s.conf = conf
  follows : ExpiringMap.Follows (stored conf as) s.cache s.now
  plain : ∀ a ∈ as, Plain a.destination
  genuine : ∀ a ∈ as, CanBe conf a.destination a.handed
  pending : ∀ x ∈ s.resolutions, x.key = (if conf.Caches x.destination then some (dnsCacheKey x.destination) else none) ∧
    Plain x.destination ∧ ∀ h ∈ x.left, CanBe conf x.destination h

variable {conf : Conf} {as : List Answer}

theorem tracks_init (conf : Conf) : Tracks conf [] (init conf) := by
  refine ⟨rfl, ExpiringMap.follows_empty 0, ?_, ?_, ?_⟩
  · intro a ha
    cases ha
  · intro a ha
    cases ha
  · intro x hx
    cases hx

theorem stored_append (conf : Conf) (as : List Answer) (a : Answer) :
    stored conf (as ++ [a]) = stored conf as ++ if conf.Caches a.destination then [a.store conf] else [] := by
  unfold stored
  rw [List.filter_append, List.map_append]
  by_cases hc : conf.Caches a.destination
  · rw [if_pos hc, List.filter_cons_of_pos (by simpa using hc)]
    rfl
  · rw [if_neg hc, List.filter_cons_of_neg (by simpa using hc)]
    rfl

/-- The timers that are due have fired. -/
theorem Tracks.advance (h : Tracks conf as s) {t : ℕ} (hle : s.now ≤ t) :
    Tracks conf as { s with cache := s.cache.advance t, now := t } :=
  ⟨h.same, h.follows.advance hle, h.plain, h.genuine, h.pending⟩

/-- One more answer is stored. -/
theorem Tracks.store {d : Destination} {x : Handed} (h : Tracks conf as s)
    (hfired : ∃ m : ExpiringMap String Handed, s.cache = m.advance s.now) (hplain : Plain d) (hx : CanBe conf d x) :
    Tracks conf (as ++ [⟨s.now, d, x⟩])
      (s.store (if conf.Caches d then some (dnsCacheKey d) else none) x) := by
  have hplains : ∀ a ∈ as ++ [(⟨s.now, d, x⟩ : Answer)], Plain a.destination := by
    intro a ha
    rcases List.mem_append.mp ha with ha | ha
    · exact h.plain a ha
    · rw [List.mem_singleton.mp ha]
      exact hplain
  have hgenuine : ∀ a ∈ as ++ [(⟨s.now, d, x⟩ : Answer)], CanBe conf a.destination a.handed := by
    intro a ha
    rcases List.mem_append.mp ha with ha | ha
    · exact h.genuine a ha
    · rw [List.mem_singleton.mp ha]
      exact hx
  by_cases hc : conf.Caches d
  · have hstored : stored conf (as ++ [⟨s.now, d, x⟩]) = stored conf as ++ [⟨dnsCacheKey d, x, s.now, conf.ttl⟩] := by
      rw [stored_append, if_pos hc]
      rfl
    obtain ⟨m, hm⟩ := hfired
    have hfollows := h.follows
    rw [hm] at hfollows
    rw [if_pos hc]
    refine ⟨h.same, ?_, hplains, hgenuine, h.pending⟩
    show ExpiringMap.Follows _ (s.cache.put ⟨dnsCacheKey d, x, s.now, s.conf.ttl⟩) s.now
    rw [hstored, h.same, hm]
    exact hfollows.put rfl
  · have hstored : stored conf (as ++ [⟨s.now, d, x⟩]) = stored conf as := by
      rw [stored_append, if_neg hc, List.append_nil]
    rw [if_neg hc]
    refine ⟨h.same, ?_, hplains, hgenuine, h.pending⟩
    rw [hstored]
    exact h.follows

/-- **One event** leaves the cache with the stores of the answers. -/
theorem Tracks.trans (h : Tracks conf as s) (hfired : ∃ m : ExpiringMap String Handed, s.cache = m.advance s.now)
    (hplain : ∀ d dns order late, e = .route d dns order late → Plain d) (ht : Trans s e o s') :
    Tracks conf (as ++ answersAt s.now o) s' ∧ s'.now = s.now := by
  have hkey : ∀ d, s.keyOf d = if conf.Caches d then some (dnsCacheKey d) else none := by
    intro d
    unfold State.keyOf
    rw [h.same]
  have hnow : ∀ (s : State) key x, (s.store key x).now = s.now := by
    intro s key x
    cases key with
    | none => rfl
    | some _ => rfl
  cases ht with
  | @cached d dns order late x _ _ =>
    refine ⟨?_, rfl⟩
    show Tracks conf (as ++ []) s
    rw [List.append_nil]
    exact h
  | @atOnce d dns order late x _ hdone =>
    refine ⟨?_, hnow _ _ _⟩
    rw [hkey]
    refine h.store hfired (hplain d dns order late rfl) ⟨dns, order, late, ?_⟩
    rw [← h.same, hdone]
    exact List.mem_singleton.mpr rfl
  | @started d dns order late _ =>
    refine ⟨?_, rfl⟩
    show Tracks conf (as ++ []) _
    rw [List.append_nil]
    refine ⟨h.same, h.follows, h.plain, h.genuine, ?_⟩
    intro x hx
    rcases List.mem_append.mp hx with hx | hx
    · exact h.pending x hx
    · rw [List.mem_singleton.mp hx]
      refine ⟨hkey d, hplain d dns order late rfl, fun y hy => ⟨dns, order, late, ?_⟩⟩
      rw [← h.same]
      exact hy
  | @calls i key d x left hi =>
    refine ⟨?_, hnow _ _ _⟩
    obtain ⟨hk, hp, hleft⟩ := h.pending _ (List.mem_of_getElem? hi)
    have hset : Tracks conf as { s with resolutions := s.resolutions.set i ⟨key, d, left⟩ } := by
      refine ⟨h.same, h.follows, h.plain, h.genuine, ?_⟩
      intro y hy
      rcases List.mem_or_eq_of_mem_set hy with hy | rfl
      · exact h.pending y hy
      · exact ⟨hk, hp, fun z hz => hleft z (List.mem_cons_of_mem _ hz)⟩
    replace hk : key = if conf.Caches d then some (dnsCacheKey d) else none := hk
    rw [hk] at hset ⊢
    exact hset.store hfired hp (hleft x List.mem_cons_self)

/-! ## Runs -/

/-- A lookup at a time finds what was handed over last, as long as its time is not over and the timer of no earlier
answer has fired since. -/
def Finds (conf : Conf) (as : List Answer) (t : ℕ) (h : Handed) : Prop :=
  ∃ before last, as = before ++ [last] ∧ last.handed = h ∧ t < last.time + conf.ttl ∧
    ∀ a ∈ before, a.time + conf.ttl ≤ last.time ∨ t < a.time + conf.ttl

/-- **The DNS cache over a whole run.** -/
structure Coherent (conf : Conf) (tr : List (StepRec State (TimedEvent Event) Output)) : Prop where
  /-- What resolutions hand over is what comes of the query for the destination. -/
  genuine : ∀ a ∈ answers tr, CanBe conf a.destination a.handed
  /-- The cache answers the client that asks. -/
  asked : ∀ r ∈ tr, ∀ d h, .cached d h ∈ r.out → ∃ dns order late, r.ev.ev = .route d dns order late
  /-- It answers with what resolutions of the destination have handed over before, and only so. -/
  found : ∀ tr₁ r tr₂ d dns order late h, tr = tr₁ ++ r :: tr₂ → r.ev.ev = .route d dns order late →
    (.cached d h ∈ r.out ↔ conf.Caches d ∧ Finds conf (answersTo tr₁ d) r.ev.time h)

/-- The stores of a key are those of the answers to its destination. -/
theorem storesOf_stored {d : Destination} (hd : Plain d) (hc : conf.Caches d) (has : ∀ a ∈ as, Plain a.destination) :
    ExpiringMap.storesOf (stored conf as) (dnsCacheKey d) =
      (as.filter (·.destination = d)).map (Answer.store conf) := by
  unfold ExpiringMap.storesOf stored
  rw [List.filter_map, List.filter_filter]
  congr 1
  apply List.filter_congr
  intro a ha
  show (decide (dnsCacheKey a.destination = dnsCacheKey d) && decide (conf.Caches a.destination)) =
    decide (a.destination = d)
  by_cases heq : a.destination = d
  · rw [heq, decide_eq_true rfl, decide_eq_true hc, decide_eq_true rfl]
    rfl
  · rw [decide_eq_false heq]
    by_cases hca : conf.Caches a.destination
    · have hne : dnsCacheKey a.destination ≠ dnsCacheKey d := fun hkeys => heq (dnsCacheKey_inj (has a ha) hd hca hc hkeys)
      rw [decide_eq_false hne]
      rfl
    · rw [decide_eq_false hca, Bool.and_false]

theorem finds_iff {conf : Conf} {as : List Answer} {t : ℕ} {h : Handed} :
    Finds conf as t h ↔ ∃ a, (as.map (Answer.store conf)).getLast? = some a ∧ a.value = h ∧ t < a.due ∧
      ∀ b ∈ as.map (Answer.store conf), b.due ≤ a.time ∨ t < b.due := by
  constructor
  · rintro ⟨before, last, rfl, hvalue, hdue, hquiet⟩
    refine ⟨last.store conf, ?_, hvalue, hdue, ?_⟩
    · rw [List.map_append]
      exact List.getLast?_concat
    · intro b hb
      obtain ⟨a, ha, rfl⟩ := List.mem_map.mp hb
      rcases List.mem_append.mp ha with ha | ha
      · exact hquiet a ha
      · rw [List.mem_singleton.mp ha]
        exact .inr hdue
  · rintro ⟨a, hlast, hvalue, hdue, hquiet⟩
    rcases List.eq_nil_or_concat as with rfl | ⟨before, last, rfl⟩
    · cases hlast
    · rw [List.concat_eq_append] at hlast hquiet ⊢
      rw [List.map_append, List.map_singleton, List.getLast?_concat] at hlast
      obtain rfl := Option.some.inj hlast
      refine ⟨before, last, rfl, hvalue, hdue, fun b hb => ?_⟩
      exact hquiet _ (List.mem_map_of_mem (List.mem_append_left _ hb))

/-- A lookup in the state after a run. -/
theorem Tracks.get_iff (h : Tracks conf as s) {t : ℕ} (hle : s.now ≤ t) {d : Destination} (hd : Plain d)
    (hc : conf.Caches d) {x : Handed} :
    (s.cache.advance t).get (dnsCacheKey d) = some x ↔ Finds conf (as.filter (·.destination = d)) t x := by
  rw [h.follows.get_iff hle, finds_iff, ExpiringMap.lastStore, storesOf_stored hd hc h.plain]

variable {tr : List (StepRec State (TimedEvent Event) Output)}

/-- The destinations of a run are what the parser gives. -/
def PlainRoutes (tr : List (StepRec State (TimedEvent Event) Output)) : Prop :=
  ∀ r ∈ tr, ∀ d dns order late, r.ev.ev = .route d dns order late → Plain d

theorem tracks_of_run (hrun : Run step (init conf) tr s) (hplain : PlainRoutes tr) : Tracks conf (answers tr) s := by
  refine Run.invariant (G := fun (_ : State) (e : TimedEvent Event) => ∀ (d : Destination) (dns : Dns) (order : NaptrSort) (late : Bool),
    e.ev = .route d dns order late → Plain d)
    (I := fun tr s => Tracks conf (answers tr) s) (tracks_init conf) ?_ hrun hplain
  intro tr s e s' o hs he hstep
  obtain ⟨hle, ht⟩ := step_trans hstep
  rw [answers_append]
  have hnext := ((hs.advance hle).trans ⟨s.cache, rfl⟩ he ht).1
  show Tracks conf (answers tr ++ (answersAt e.time o ++ [])) s'
  rw [List.append_nil]
  exact hnext

theorem coherent_of_run (hrun : Run step (init conf) tr s) (hplain : PlainRoutes tr) : Coherent conf tr := by
  refine ⟨(tracks_of_run hrun hplain).genuine, ?_, ?_⟩
  · intro r hr d h hmem
    obtain ⟨tr₁, tr₂, rfl⟩ := List.append_of_mem hr
    obtain ⟨_, ht⟩ := step_trans hrun.of_middle.2.1
    generalize r.ev.ev = e at ht ⊢
    generalize r.out = o at ht hmem
    generalize r.post = s' at ht
    cases ht with
    | cached _ _ =>
      cases List.mem_singleton.mp hmem
      exact ⟨_, _, _, rfl⟩
    | atOnce _ _ => cases List.mem_singleton.mp hmem
    | started _ => cases hmem
    | calls _ => cases List.mem_singleton.mp hmem
  · rintro tr₁ r tr₂ d dns order late h rfl hev
    have hd : Plain d := hplain r (List.mem_append_right _ List.mem_cons_self) d dns order late hev
    obtain ⟨hrun₁, hstep, _⟩ := hrun.of_middle
    have htracks := tracks_of_run hrun₁ fun x hx => hplain x (List.mem_append_left _ hx)
    obtain ⟨hle, ht⟩ := step_trans hstep
    have hget := htracks.get_iff hle hd (x := h)
    rw [hev] at ht
    generalize r.out = o at ht ⊢
    generalize r.post = s' at ht
    have hsame := htracks.same
    cases ht with
    | cached hc hfound =>
      rw [hsame] at hc
      rw [List.mem_singleton]
      constructor
      · intro heq
        obtain ⟨-, rfl⟩ := Output.cached.inj heq
        exact ⟨hc, (hget hc).mp hfound⟩
      · rintro ⟨-, hfinds⟩
        have hx := ((hget hc).mpr hfinds).symm.trans hfound
        rw [Option.some.inj hx]
    | atOnce hmiss _ =>
      constructor
      · intro hmem
        cases List.mem_singleton.mp hmem
      · rintro ⟨hc, hfinds⟩
        have hnone := hmiss (by show r.pre.conf.Caches d; rw [hsame]; exact hc)
        cases ((hget hc).mpr hfinds).symm.trans hnone
    | started hmiss =>
      constructor
      · intro hmem
        cases hmem
      · rintro ⟨hc, hfinds⟩
        have hnone := hmiss (by show r.pre.conf.Caches d; rw [hsame]; exact hc)
        cases ((hget hc).mpr hfinds).symm.trans hnone

/-! ## A small run -/

/-- `sip:example`. -/
def sampleDestination : Destination :=
  { scheme := "sip", host := "example", hostType := .domain, port := none, transport := none }

theorem plain_sample : Plain sampleDestination := ⟨by decide, by decide, by decide⟩

def sampleConf : Conf := ⟨defaultConf, true, 300, by decide⟩

/-- The destination is resolved, and asked for again five minutes later and right before. -/
def sampleEvents : List (TimedEvent Event) :=
  [⟨0, .route sampleDestination twoServers stableSort true⟩, ⟨40, .calls 0⟩,
    ⟨300039, .route sampleDestination twoServers stableSort true⟩,
    ⟨300040, .route sampleDestination twoServers stableSort true⟩]

def isCached : Output → Bool
  | .cached _ _ => true
  | .handed _ _ => false

/-- The first of the two is answered from the cache. -/
theorem coherent_sample : ∃ tr, tr.map (fun r => r.out.any isCached) = [false, false, true, false] ∧
    Coherent sampleConf tr := by
  have hexec : ∃ tr s, exec step (init sampleConf) sampleEvents = some (tr, s) ∧
      tr.map (fun r => r.out.any isCached) = [false, false, true, false] ∧ tr.map StepRec.ev = sampleEvents := by
    refine ⟨_, _, rfl, ?_, rfl⟩
    decide
  obtain ⟨tr, s, htr, hcached, hevents⟩ := hexec
  refine ⟨tr, hcached, coherent_of_run (run_of_exec htr) ?_⟩
  intro r hr d dns order late hev
  have hmem : r.ev ∈ sampleEvents := hevents ▸ List.mem_map_of_mem hr
  have hd : d = sampleDestination := by
    simp only [sampleEvents, List.mem_cons, List.not_mem_nil, or_false] at hmem
    rcases hmem with h | h | h | h <;> rw [h] at hev <;> cases hev <;> rfl
  rw [hd]
  exact plain_sample

end DnsCache

end OverSip
