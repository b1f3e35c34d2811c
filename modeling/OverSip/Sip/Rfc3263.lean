import OverSip.Lib.Buckets
import OverSip.Sip.Connections
import Mathlib.Algebra.GroupWithZero.Nat

/-!
# The resolution of a URI

`Query#resolve` (`rfc3263.rb`) asks the DNS for the targets of a URI and hands them, or an error, to the
callbacks of its client. A `Dns` is the set of answers; `resolve` gives the queries and the calls of the
callbacks in their order. `Client#rfc3263_succeeded` makes of a result the targets that are tried.

`do_dns` sets the callbacks when `resolve` has returned, which is when the fiber waits for the first
answer, or before the fiber begins when all fibers of the pool are busy. A callback that is called before
is `nil`, and the call is lost (`handed`).
-/

namespace OverSip

namespace Rfc3263

/-! ## Results -/

structure Target where
  transport : Option Transport
  ip : String
  ipType : IpType
  port : Option Nat
deriving DecidableEq, Repr

structure SrvWeightTarget where
  weight : Nat
  targets : List Target
deriving DecidableEq, Repr

/-- An array of the entries of each priority. -/
abbrev SrvTargets := List (List SrvWeightTarget)

inductive MultiEntry
  | target (t : Target)
  | srvTargets (s : SrvTargets)
deriving DecidableEq, Repr

structure MultiTargets where
  entries : List MultiEntry
  hasSrvWeightTargets : Bool
deriving DecidableEq, Repr

/-- What the success callback can be given. -/
inductive Result
  | target (t : Target)
  | srvTargets (s : SrvTargets)
  | multiTargets (m : MultiTargets)
  /-- A plain array. -/
  | array (entries : List SrvWeightTarget)
deriving DecidableEq, Repr

inductive Rfc3263Error
  | noDns
  | unsupportedScheme
  | unsupportedTransport
  | noIpv4
  | noIpv6
  | domainNotFound
deriving DecidableEq, Repr

/-! ## The DNS -/

structure SrvRecord where
  priority : Nat
  weight : Nat
  port : Nat
  domain : String
deriving DecidableEq, Repr

structure NaptrRecord where
  order : Nat
  preference : Nat
  flags : String
  service : String
  replacement : String
deriving DecidableEq, Repr

/-- The answers, `none` where a query fails. -/
structure Dns where
  /-- The answers to the queries A and AAAA. -/
  address : IpType → String → Option (List String)
  srv : String → Option String → Option String → Option (List SrvRecord)
  naptr : String → Option (List NaptrRecord)

inductive DnsQuery
  | address (ipType : IpType) (domain : String)
  | srv (domain : String) (service protocol : Option String)
  | naptr (domain : String)
deriving DecidableEq, Repr

/-! ## The configuration of a proxy -/

/-- A proxy of `proxies.conf` after `post_process`. -/
structure ProxyConf where
  useDns : Bool
  useNaptr : Bool
  useSrv : Bool
  forceTransportPreference : Bool
  transportPreference : List Transport
  ipTypePreference : List IpType
  naptr_of_srv : useNaptr = true → useSrv = true
  choices : ∀ t ∈ transportPreference, t = .tls ∨ t = .tcp ∨ t = .udp
  nodup : ipTypePreference.Nodup

/-- A proxy of `proxies.conf` as it is read. -/
structure ProxyParams where
  useDns : Bool
  useNaptr : Bool
  useSrv : Bool
  forceTransportPreference : Bool
  transportPreference : List Transport
  ipTypePreference : List IpType
  choices : ∀ t ∈ transportPreference, t = .tls ∨ t = .tcp ∨ t = .udp

/-- What `post_process` reads of the section `sip` of `oversip.conf`. -/
structure SipConf where
  sipTls : Bool
  sipTcp : Bool
  sipUdp : Bool
  listenIpv4 : Bool
  listenIpv6 : Bool

theorem nodup_eraseDups {α : Type} [DecidableEq α] (l : List α) : l.eraseDups.Nodup := by
  induction hn : l.length using Nat.strongRecOn generalizing l with
  | ind n ih =>
    cases l with
    | nil => exact List.nodup_nil
    | cons a l =>
      have hle := List.length_filter_le (fun b => !b == a) l
      rw [List.length_cons] at hn
      rw [List.eraseDups_cons, List.nodup_cons]
      refine ⟨?_, ih _ (by omega) _ rfl⟩
      rw [List.mem_eraseDups, List.mem_filter]
      rintro ⟨_, hne⟩
      simp at hne

/-- `post_process` -/
def ProxyParams.postProcess (p : ProxyParams) (sip : SipConf) : ProxyConf where
  useDns := p.useDns
  useNaptr := p.useNaptr && p.useSrv
  useSrv := p.useSrv
  forceTransportPreference := p.forceTransportPreference
  transportPreference := p.transportPreference.eraseDups.filter fun t =>
    match t with
    | .tls => sip.sipTls
    | .tcp => sip.sipTcp
    | .udp => sip.sipUdp
    | .ws | .wss => true
  ipTypePreference := p.ipTypePreference.eraseDups.filter fun i =>
    match i with
    | .ipv4 => sip.listenIpv4
    | .ipv6 => sip.listenIpv6
  naptr_of_srv := fun h => (Bool.and_eq_true_iff.mp h).2
  choices := fun t ht => p.choices t (List.mem_eraseDups.mp (List.mem_of_mem_filter ht))
  nodup := (nodup_eraseDups _).filter _

namespace ProxyConf

variable (conf : ProxyConf)

def hasSipIpv4 : Bool := conf.ipTypePreference.contains .ipv4

def hasSipIpv6 : Bool := conf.ipTypePreference.contains .ipv6

def hasSipUdp : Bool := conf.transportPreference.contains .udp

def hasSipTcp : Bool := conf.transportPreference.contains .tcp

def hasSipTls : Bool := conf.transportPreference.contains .tls

end ProxyConf

/-! ## Queries -/

inductive UriScheme
  | sip | sips | other
deriving DecidableEq, Repr

inductive UriHostType
  | ipv4 | ipv6 | domain
deriving DecidableEq, Repr

/-- The `;transport` parameter of a URI. -/
inductive UriTransport
  | udp | tcp | tls | other
deriving DecidableEq, Repr

structure Query where
  uriScheme : UriScheme
  uriHost : String
  uriHostType : UriHostType
  uriPort : Option Nat
  uriTransport : Option UriTransport
deriving DecidableEq, Repr

/-- What a callback is called with. -/
inductive Handed
  | success (r : Result)
  | error (e : Rfc3263Error)
deriving DecidableEq, Repr

/-- What the fiber of a query does. -/
inductive QueryEvent
  | asks (q : DnsQuery)
  | calls (h : Handed)
deriving DecidableEq, Repr

/-- What `resolve` returns. `started` is `nil`: the fiber goes on. -/
inductive Resolved
  | target (t : Target)
  | error (e : Rfc3263Error)
  | started (events : List QueryEvent)
deriving DecidableEq, Repr

/-- What `naptrs.sort` gives. How it orders records that compare as equal is not specified. -/
structure NaptrSort where
  sort : List NaptrRecord → List NaptrRecord
  perm : ∀ l, (sort l).Perm l
  sorted : ∀ l, (sort l).Pairwise fun x y =>
    x.order < y.order ∨ x.order = y.order ∧ y.preference ≤ x.preference

/-! ## Handing over -/

def MultiEntry.result : MultiEntry → Result
  | .target t => .target t
  | .srvTargets s => .srvTargets s

/-- A `MultiTargets` of `Target`s. -/
def MultiTargets.ofTargets (ts : List Target) : MultiTargets :=
  { entries := ts.map .target, hasSrvWeightTargets := false }

/-- `targets[0]` if there is one entry, and otherwise `targets`. -/
def MultiTargets.handOver (m : MultiTargets) : Result :=
  match m.entries with
  | [e] => e.result
  | _ => .multiTargets m

/-- The same for `SrvTargets`, whose entries are plain arrays. -/
def SrvTargets.handOver (s : SrvTargets) : Result :=
  match s with
  | [g] => .array g
  | _ => .srvTargets s

/-- What `resolve_SRV` returns when it finds something. -/
inductive SrvResult
  | multiTargets (ts : List Target)
  | srvTargets (s : SrvTargets)
deriving DecidableEq, Repr

/-- The end of `resolve_SRV`: a single entry is unwrapped. -/
def SrvTargets.result : SrvTargets → Option SrvResult
  | [] => none
  | [[e]] => some (.multiTargets e.targets)
  | s => some (.srvTargets s)

def SrvResult.handOver : SrvResult → Result
  | .multiTargets ts => (MultiTargets.ofTargets ts).handOver
  | .srvTargets s => s.handOver

/-- `srv_targets << result` or `srv_targets.concat result`. -/
def MultiTargets.add (m : MultiTargets) : Option SrvResult → MultiTargets
  | none => m
  | some (.srvTargets s) => { entries := m.entries ++ [.srvTargets s], hasSrvWeightTargets := true }
  | some (.multiTargets ts) => { m with entries := m.entries ++ ts.map .target }

def MultiTargets.collect (results : List (Option SrvResult)) : MultiTargets :=
  results.foldl MultiTargets.add { entries := [], hasSrvWeightTargets := false }

/-! ## The resolution of names -/

def defaultPort (transport : Option Transport) (scheme : Option UriScheme) : Option Nat :=
  if transport = some .tls then some 5061
  else
    match scheme with
    | some .sip => some 5060
    | some .sips => some 5061
    | _ => none

/-- The service and the protocol that `sync_resolve_SRV` asks for. -/
def srvQuery (domain : String) (service : Option UriScheme) (protocol : Option Transport) : DnsQuery :=
  .srv domain
    (match service, protocol with
      | some .sip, some .tls => some "sips"
      | some .sip, _ => some "sip"
      | some .sips, _ => some "sips"
      | _, _ => none)
    (match protocol with
      | some .udp => some "udp"
      | some .tcp | some .tls => some "tcp"
      | _ => none)

/-- The SRV records that a query finds. -/
def Dns.srvs (dns : Dns) : DnsQuery → Option (List SrvRecord)
  | .srv domain service protocol => dns.srv domain service protocol
  | _ => none

section

variable (conf : ProxyConf) (dns : Dns)

/-- The hash `ips` of `resolve_A_AAAA`. -/
def ips (domain : String) : IpType → Option (List String)
  | .ipv4 => if conf.hasSipIpv4 then dns.address .ipv4 domain else none
  | .ipv6 => if conf.hasSipIpv6 then dns.address .ipv6 domain else none

/-- `resolve_A_AAAA`, with its queries. -/
def resolveAAaaa (transport : Option Transport) (domain : String) (port : Option Nat) :
    Option (List Target) × List DnsQuery :=
  let targets := conf.ipTypePreference.flatMap fun ipType =>
    ((ips conf dns domain ipType).getD []).map fun ip => ({ transport, ip, ipType, port } : Target)
  (if targets.isEmpty then none else some targets,
    (if conf.hasSipIpv4 then [.address .ipv4 domain] else []) ++
      (if conf.hasSipIpv6 then [.address .ipv6 domain] else []))

/-- The `SrvTargets` of some SRV records. -/
def srvTargets (transport : Option Transport) (srvs : List SrvRecord) : SrvTargets :=
  (Buckets.fill (srvs.map fun srv => (srv.priority,
    ((resolveAAaaa conf dns transport srv.domain srv.port).1.map (SrvWeightTarget.mk srv.weight)).toList))).compact

/-- `resolve_SRV`, with its queries. -/
def resolveSrv (domain : String) (scheme : Option UriScheme) (transport naptrTransport : Option Transport) :
    Option SrvResult × List DnsQuery :=
  let query := srvQuery domain scheme transport
  match dns.srvs query with
  | none =>
    if naptrTransport.isSome then (none, [query])
    else
      let (targets, queries) := resolveAAaaa conf dns transport domain (defaultPort transport scheme)
      (targets.map .multiTargets, query :: queries)
  | some srvs =>
    let transport := naptrTransport.or transport
    let queries := srvs.flatMap fun srv => (resolveAAaaa conf dns transport srv.domain srv.port).2
    ((srvTargets conf dns transport srvs).result, query :: queries)

/-! ## The fiber -/

/-- The A and AAAA queries for the host, and the call of a callback. -/
def askHost (transport : Option Transport) (host : String) (port : Option Nat) : List QueryEvent :=
  let (targets, queries) := resolveAAaaa conf dns transport host port
  queries.map .asks ++
    [.calls (match targets with
      | some ts => .success (MultiTargets.ofTargets ts).handOver
      | none => .error .domainNotFound)]

variable (q : Query)

/-- The transports that `continue_with_SRV` does not skip. -/
def srvTransports : List Transport :=
  conf.transportPreference.filter fun t =>
    !(decide (q.uriScheme = .sips) && (t == .udp || t == .tcp))

/-- The lookups of `continue_with_SRV`. -/
def srvLookups : List (Option SrvResult × List DnsQuery) :=
  (srvTransports conf q).map fun t => resolveSrv conf dns q.uriHost (some q.uriScheme) (some t) (some t)

/-- The end of `continue_with_SRV`, when there are no SRV targets. -/
def continueWithoutSrv : List QueryEvent :=
  match q.uriScheme with
  | .sip =>
    if conf.hasSipUdp then askHost conf dns (some .udp) q.uriHost (some 5060)
    else if conf.hasSipTcp then askHost conf dns (some .tcp) q.uriHost (some 5060)
    else [.calls (.error .unsupportedTransport)]
  | .sips | .other => askHost conf dns (some .tls) q.uriHost (some 5061)

/-- `continue_with_SRV` -/
def continueWithSrv : List QueryEvent :=
  let srvTargets := MultiTargets.collect ((srvLookups conf dns q).map (·.1))
  ((srvLookups conf dns q).flatMap (·.2)).map .asks ++
    if srvTargets.entries ≠ [] then [.calls (.success srvTargets.handOver)]
    else continueWithoutSrv conf dns q

/-- `TRANSPORT_TO_SERVICE` -/
def transportToService : Transport → Option String
  | .tls => some "SIPS+D2T"
  | .tcp => some "SIP+D2T"
  | .udp => some "SIP+D2U"
  | _ => none

/-- The NAPTR records that are kept. -/
def isSipNaptr (naptr : NaptrRecord) : Bool :=
  naptr.flags.toLower == "s" &&
    (conf.hasSipTls && naptr.service.toUpper == "SIPS+D2T" ||
      decide (q.uriScheme = .sip) && conf.hasSipTcp && naptr.service.toUpper == "SIP+D2T" ||
      decide (q.uriScheme = .sip) && conf.hasSipUdp && naptr.service.toUpper == "SIP+D2U")

def naptrTransport (naptr : NaptrRecord) : Option Transport :=
  if naptr.service.toUpper = "SIPS+D2T" then some .tls
  else if naptr.service.toUpper = "SIP+D2T" then some .tcp
  else if naptr.service.toUpper = "SIP+D2U" then some .udp
  else none

variable (order : NaptrSort)

def orderedNaptrs (naptrs : List NaptrRecord) : List NaptrRecord :=
  if conf.forceTransportPreference then
    conf.transportPreference.flatMap fun transport =>
      naptrs.filter fun naptr => some naptr.service.toUpper == transportToService transport
  else order.sort naptrs

/-- The lookups for the NAPTR records. -/
def naptrLookups (naptrs : List NaptrRecord) : List (Option SrvResult × List DnsQuery) :=
  (orderedNaptrs conf order naptrs).map fun naptr =>
    resolveSrv conf dns naptr.replacement none none (naptrTransport naptr)

/-- The NAPTR records for SIP are followed. -/
def followNaptrs (naptrs : List NaptrRecord) : List QueryEvent :=
  ((naptrLookups conf dns order naptrs).flatMap (·.2)).map .asks ++
    [.calls (.success (MultiTargets.collect ((naptrLookups conf dns order naptrs).map (·.1))).handOver)]

/-- What the fiber does. -/
def resolveDomain (dnsTransport : Option Transport) : List QueryEvent :=
  if q.uriPort.isSome then askHost conf dns dnsTransport q.uriHost q.uriPort
  else if q.uriTransport.isSome then
    if conf.useSrv then
      let (targets, queries) := resolveSrv conf dns q.uriHost (some q.uriScheme) dnsTransport none
      queries.map .asks ++
        [.calls (match targets with
          | some result => .success result.handOver
          | none => .error .domainNotFound)]
    else askHost conf dns dnsTransport q.uriHost (defaultPort dnsTransport (some q.uriScheme))
  else if !conf.useNaptr then
    if conf.useSrv then continueWithSrv conf dns q
    else
      match q.uriScheme with
      | .sip =>
        if conf.hasSipUdp then askHost conf dns (some .udp) q.uriHost (some 5060)
        else if conf.hasSipTcp then askHost conf dns (some .tcp) q.uriHost (some 5060)
        -- the error callback is called, and the fiber goes on without a transport and a port
        else .calls (.error .unsupportedTransport) :: askHost conf dns none q.uriHost none
      | .sips | .other => askHost conf dns (some .tls) q.uriHost (some 5061)
  else
    .asks (.naptr q.uriHost) ::
      match dns.naptr q.uriHost with
      | some naptrs =>
        let naptrs := naptrs.filter (isSipNaptr conf q)
        if naptrs.isEmpty then continueWithSrv conf dns q else followNaptrs conf dns order naptrs
      | none => continueWithSrv conf dns q

/-- The transport that the URI determines. -/
def selectTransport : Except Rfc3263Error (Option Transport) :=
  match q.uriTransport with
  | none =>
    if q.uriHostType ≠ .domain ∨ q.uriPort.isSome then
      match q.uriScheme with
      | .sip =>
        if conf.hasSipUdp then .ok (some .udp)
        else if conf.hasSipTcp then .ok (some .tcp)
        else .error .unsupportedTransport
      | .sips | .other => .ok (some .tls)
    else .ok none
  | some .udp =>
    if conf.hasSipUdp && decide (q.uriScheme = .sip) then .ok (some .udp)
    else .error .unsupportedTransport
  | some .tcp =>
    if q.uriScheme = .sips then
      if conf.hasSipTls then .ok (some .tls) else .error .unsupportedTransport
    else if conf.hasSipTcp then .ok (some .tcp)
    else .error .unsupportedTransport
  | some .tls => if conf.hasSipTls then .ok (some .tls) else .error .unsupportedTransport
  | some .other => .error .unsupportedTransport

def resolve : Resolved :=
  if !conf.useDns && decide (q.uriHostType = .domain) then .error .noDns
  else if q.uriScheme = .other ∨ q.uriScheme = .sips ∧ !conf.hasSipTls then .error .unsupportedScheme
  else
    match selectTransport conf q with
    | .error e => .error e
    | .ok dnsTransport =>
      let target := fun ipType : IpType =>
        Resolved.target { transport := dnsTransport, ip := q.uriHost, ipType
                          port := q.uriPort.or (defaultPort dnsTransport (some q.uriScheme)) }
      match q.uriHostType with
      | .ipv4 => if conf.hasSipIpv4 then target .ipv4 else .error .noIpv4
      | .ipv6 => if conf.hasSipIpv6 then target .ipv6 else .error .noIpv6
      | .domain => .started (resolveDomain conf dns q order dnsTransport)

end

/-- The calls that reach the client. `ready` says that its callbacks are set. -/
def handed : Bool → List QueryEvent → List Handed
  | _, [] => []
  | _, .asks _ :: events => handed true events
  | true, .calls h :: events => h :: handed true events
  | false, .calls _ :: events => handed false events

/-- The queries among the events. -/
def queriesOf (events : List QueryEvent) : List DnsQuery :=
  events.filterMap fun event =>
    match event with
    | .asks q => some q
    | .calls _ => none

/-- `do_dns`: the queries, and what the client is given. A target or an error that `resolve` returns is
passed on at once. -/
def doDns (ready : Bool) : Resolved → List DnsQuery × List Handed
  | .target t => ([], [.success (.target t)])
  | .error e => ([], [.error e])
  | .started events => (queriesOf events, handed ready events)

/-! ## The targets that are tried -/

/-- What `try_next_target` can find in `@target` or `@targets`. -/
inductive Tried
  | target (t : Target)
  /-- The `MultiTargets` of an entry. -/
  | targets (ts : List Target)
  | srvTargets (s : SrvTargets)
deriving DecidableEq, Repr

/-- The loop of `randomize_entries`: the entry that the random number picks, and the others. -/
def pickEntry : Nat → List SrvWeightTarget → Option (SrvWeightTarget × List SrvWeightTarget)
  | _, [] => none
  | rnd, e :: es =>
    if rnd < e.weight then some (e, es)
    else (pickEntry (rnd - e.weight) es).map fun p => (p.1, e :: p.2)

/-- `randomize_entries` for some random numbers. -/
inductive RandomizesEntries : List SrvWeightTarget → List Target → Prop
  | nil : RandomizesEntries [] []
  | pick {es rest : List SrvWeightTarget} {e : SrvWeightTarget} {rnd : Nat} {ts : List Target} :
      rnd < (es.map (·.weight)).sum → pickEntry rnd es = some (e, rest) → RandomizesEntries rest ts →
      RandomizesEntries es (e.targets ++ ts)

/-- `SrvTargets#randomize` for some random numbers and shuffles. -/
inductive Randomizes : SrvTargets → List Tried → Prop
  | nil : Randomizes [] []
  | single {e : SrvWeightTarget} {s : SrvTargets} {ts : List Tried} :
      Randomizes s ts → Randomizes ([e] :: s) (e.targets.map .target ++ ts)
  | several {g shuffled : List SrvWeightTarget} {s : SrvTargets} {picked : List Target} {ts : List Tried} :
      g.length ≠ 1 → RandomizesEntries (g.filter fun e => 0 < e.weight) picked →
      shuffled.Perm (g.filter fun e => e.weight = 0) → Randomizes s ts →
      -- `e[1]` of an entry of weight zero is its `MultiTargets`
      Randomizes (g :: s) (picked.map .target ++ (shuffled.map fun e => .targets e.targets) ++ ts)

/-- `MultiTargets#flatten`, when there are `SrvTargets` among the entries. -/
inductive Flattens : List MultiEntry → List Tried → Prop
  | nil : Flattens [] []
  | target {t : Target} {es : List MultiEntry} {ts : List Tried} :
      Flattens es ts → Flattens (.target t :: es) (.target t :: ts)
  | srvTargets {s : SrvTargets} {es : List MultiEntry} {us ts : List Tried} :
      Randomizes s us → Flattens es ts → Flattens (.srvTargets s :: es) (us ++ ts)

def MultiEntry.tried : MultiEntry → Tried
  | .target t => .target t
  | .srvTargets s => .srvTargets s

/-- `rfc3263_succeeded`: the targets that are tried one after the other. -/
inductive Rfc3263Succeeded : Result → List Tried → Prop
  | target {t : Target} : Rfc3263Succeeded (.target t) [.target t]
  | srvTargets {s : SrvTargets} {ts : List Tried} :
      Randomizes s ts → Rfc3263Succeeded (.srvTargets s) ts
  | flatten {m : MultiTargets} {ts : List Tried} : m.hasSrvWeightTargets = true →
      Flattens m.entries ts → Rfc3263Succeeded (.multiTargets m) ts
  | flat {m : MultiTargets} : m.hasSrvWeightTargets = false →
      Rfc3263Succeeded (.multiTargets m) (m.entries.map MultiEntry.tried)
  /-- No branch of the `case`. -/
  | array {es : List SrvWeightTarget} : Rfc3263Succeeded (.array es) []

end Rfc3263

end OverSip
