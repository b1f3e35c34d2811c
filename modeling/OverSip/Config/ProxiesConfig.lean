import OverSip.Config.Validations
import OverSip.Lib.Machine
import OverSip.Sip.Blacklist
import OverSip.Sip.DnsCache
import OverSip.Sip.NaptrOrder
import OverSip.Sip.RoutingHeaders

/-!
# The proxies of `proxies.conf`

`ProxiesConfig.load` with its tables and its `post_process`, and `Config.system_reload` as far as it reloads the
proxies. A loaded proxy is a `PublishedProxy`, which holds what the bounds of the tables promise to the code that
reads it: the timers, the times of the DNS cache and of the blacklist, and the preferences.

The values are checked as they stand in the file, so the parameters of a proxy are a table of YAML values first
(`Settings`); `postProcess` makes the proxy of them.
-/

namespace OverSip

namespace ProxiesConfig

open Rfc3263

/-! ## The tables -/

inductive Parameter
  | doRecordRouting
  | recordRouteAll
  | useDns
  | useDnsCache
  | dnsCacheTime
  | useBlacklist
  | blacklistTime
  | useNaptr
  | useSrv
  | transportPreference
  | forceTransportPreference
  | ipTypePreference
  | dnsFailoverOn503
  | timerB
  | timerC
  | timerF
  | callbackOnServerTlsHandshake
deriving DecidableEq, Repr

namespace Parameter

/-- The keys, in the order of `PROXY_CONFIG_VALIDATIONS`. -/
def all : List Parameter :=
  [.doRecordRouting, .recordRouteAll, .useDns, .useDnsCache, .dnsCacheTime, .useBlacklist, .blacklistTime,
    .useNaptr, .useSrv, .transportPreference, .forceTransportPreference, .ipTypePreference, .dnsFailoverOn503,
    .timerB, .timerC, .timerF, .callbackOnServerTlsHandshake]

theorem mem_all (p : Parameter) : p ∈ all := by
  cases p <;> decide

def name : Parameter → String
  | .doRecordRouting => "do_record_routing"
  | .recordRouteAll => "record_route_all"
  | .useDns => "use_dns"
  | .useDnsCache => "use_dns_cache"
  | .dnsCacheTime => "dns_cache_time"
  | .useBlacklist => "use_blacklist"
  | .blacklistTime => "blacklist_time"
  | .useNaptr => "use_naptr"
  | .useSrv => "use_srv"
  | .transportPreference => "transport_preference"
  | .forceTransportPreference => "force_transport_preference"
  | .ipTypePreference => "ip_type_preference"
  | .dnsFailoverOn503 => "dns_failover_on_503"
  | .timerB => "timer_B"
  | .timerC => "timer_C"
  | .timerF => "timer_F"
  | .callbackOnServerTlsHandshake => "callback_on_server_tls_handshake"

end Parameter

/-- `@proxy_configuration` -/
def proxyConfiguration : Parameter → YamlValue
  | .doRecordRouting => .bool true
  | .recordRouteAll => .bool false
  | .useDns => .bool true
  | .useDnsCache => .bool true
  | .dnsCacheTime => .int 300
  | .useBlacklist => .bool true
  | .blacklistTime => .int 10
  | .useNaptr => .bool true
  | .useSrv => .bool true
  | .transportPreference => .seq [.str "tls", .str "tcp", .str "udp"]
  | .forceTransportPreference => .bool false
  | .ipTypePreference => .seq [.str "ipv6", .str "ipv4"]
  | .dnsFailoverOn503 => .bool true
  | .timerB => .int 32
  | .timerC => .int 120
  | .timerF => .int 32
  | .callbackOnServerTlsHandshake => .bool true

def PROXY_CONFIG_VALIDATIONS : Parameter → List Validation
  | .doRecordRouting => [.boolean]
  | .recordRouteAll => [.boolean]
  | .useDns => [.boolean]
  | .useDnsCache => [.boolean]
  | .dnsCacheTime => [.fixnum, .greaterEqualThan 300]
  | .useBlacklist => [.boolean]
  | .blacklistTime => [.fixnum, .greaterEqualThan 2, .minorEqualThan 600]
  | .useNaptr => [.boolean]
  | .useSrv => [.boolean]
  | .transportPreference => [.choices ["tls", "tcp", "udp"], .multiValue, .nonEmpty]
  | .forceTransportPreference => [.boolean]
  | .ipTypePreference => [.choices ["ipv4", "ipv6"], .multiValue, .nonEmpty]
  | .dnsFailoverOn503 => [.boolean]
  | .timerB => [.fixnum, .greaterEqualThan 2, .minorEqualThan 64]
  | .timerC => [.fixnum, .greaterEqualThan 8, .minorEqualThan 180]
  | .timerF => [.fixnum, .greaterEqualThan 2, .minorEqualThan 64]
  | .callbackOnServerTlsHandshake => [.boolean]

/-- Every default passes the validations of its parameter. -/
theorem settled_proxyConfiguration (p : Parameter) :
    Settled (PROXY_CONFIG_VALIDATIONS p) (proxyConfiguration p) := by
  cases p
  case transportPreference =>
    exact ⟨_, rfl, by decide, by decide⟩
  case ipTypePreference =>
    exact ⟨_, rfl, by decide, by decide⟩
  all_goals
    show Passes _ _
    decide

/-- The parameters of a proxy, each as the file or the defaults give it. -/
structure Settings where
  value : Parameter → YamlValue
  settled : ∀ p, Settled (PROXY_CONFIG_VALIDATIONS p) (value p)

/-! ## Reading the file -/

inductive LoadError
  | notACollection
  | nameNotString (proxy : YamlValue)
  | parameter (proxy : String) (parameter : Parameter) (complaint : Complaint)
  /-- What stands for the parameters has no `[]`. -/
  | noIndex (proxy : String) (conf : YamlValue)

/-- The value of one parameter in the conf of a proxy. -/
def readSetting (proxy : String) (conf : YamlValue) (p : Parameter) : Except LoadError (Option YamlValue) :=
  match conf.index p.name with
  | none => .error (.noIndex proxy conf)
  | some values => (readParameter (PROXY_CONFIG_VALIDATIONS p) values).mapError (.parameter proxy p)

/-- What a proxy is given by the file: its name and the value of each parameter. -/
structure ReadProxy where
  name : String
  settings : Settings

/-- What the conf of a proxy says of a parameter, or the default. -/
def Chosen (conf : YamlValue) (p : Parameter) (v : YamlValue) : Prop :=
  ∃ values, conf.index p.name = some values ∧ Admissible (PROXY_CONFIG_VALIDATIONS p) values ∧
    v = (stored (PROXY_CONFIG_VALIDATIONS p) values).getD (proxyConfiguration p)

theorem settled_of_chosen {conf : YamlValue} {p : Parameter} {v : YamlValue} (h : Chosen conf p v) :
    Settled (PROXY_CONFIG_VALIDATIONS p) v := by
  obtain ⟨values, -, hadmissible, rfl⟩ := h
  cases hstored : stored (PROXY_CONFIG_VALIDATIONS p) values with
  | none => exact settled_proxyConfiguration p
  | some w => exact settled_of_stored hadmissible hstored

theorem readSetting_eq_ok_iff (proxy : String) (conf : YamlValue) (p : Parameter) (r : Option YamlValue) :
    readSetting proxy conf p = .ok r ↔
      ∃ values, conf.index p.name = some values ∧ Admissible (PROXY_CONFIG_VALIDATIONS p) values ∧
        r = stored (PROXY_CONFIG_VALIDATIONS p) values := by
  rw [readSetting]
  cases hindex : conf.index p.name with
  | none =>
    constructor
    · intro h
      cases h
    · rintro ⟨values, hvalues, -⟩
      cases hvalues
  | some values =>
    have hread : (readParameter (PROXY_CONFIG_VALIDATIONS p) values).mapError (LoadError.parameter proxy p) = .ok r ↔
        readParameter (PROXY_CONFIG_VALIDATIONS p) values = .ok r := by
      cases readParameter (PROXY_CONFIG_VALIDATIONS p) values with
      | ok a => exact ⟨fun h => congrArg Except.ok (Except.ok.inj h), fun h => congrArg Except.ok (Except.ok.inj h)⟩
      | error c =>
        constructor
        · intro h
          cases h
        · intro h
          cases h
    show (readParameter (PROXY_CONFIG_VALIDATIONS p) values).mapError _ = _ ↔ _
    rw [hread, readParameter_eq_ok_iff]
    constructor
    · intro h
      exact ⟨values, rfl, h⟩
    · rintro ⟨values', hvalues, h⟩
      rwa [Option.some.inj hvalues]

theorem settle_eq_ok_iff (proxy : String) (conf : YamlValue) (m : Parameter → YamlValue) :
    FirstError.settle (readSetting proxy conf) Parameter.all proxyConfiguration = .ok m ↔
      ∀ p, Chosen conf p (m p) := by
  rw [FirstError.settle_eq_ok_iff]
  constructor
  · rintro ⟨hread, rfl⟩ p
    obtain ⟨r, hr⟩ := hread p p.mem_all
    obtain ⟨values, hindex, hadmissible, hstored⟩ := (readSetting_eq_ok_iff proxy conf p r).mp hr
    refine ⟨values, hindex, hadmissible, ?_⟩
    show (if p ∈ Parameter.all then _ else _) = _
    rw [if_pos p.mem_all, FirstError.settled_of_ok hr, hstored]
  · intro h
    have hread (p : Parameter) : ∃ r, readSetting proxy conf p = .ok r ∧ m p = r.getD (proxyConfiguration p) := by
      obtain ⟨values, hindex, hadmissible, hm⟩ := h p
      exact ⟨_, (readSetting_eq_ok_iff proxy conf p _).mpr ⟨values, hindex, hadmissible, rfl⟩, hm⟩
    constructor
    · intro p _
      obtain ⟨r, hr, -⟩ := hread p
      exact ⟨r, hr⟩
    · funext p
      obtain ⟨r, hr, hm⟩ := hread p
      rw [if_pos p.mem_all, hm, FirstError.settled_of_ok hr]

/-- The loop over `PROXY_CONFIG_VALIDATIONS`. -/
def readConf (proxy : String) (conf : YamlValue) : Except LoadError Settings :=
  match h : FirstError.settle (readSetting proxy conf) Parameter.all proxyConfiguration with
  | .ok m => .ok ⟨m, fun p => settled_of_chosen ((settle_eq_ok_iff proxy conf m).mp h p)⟩
  | .error error => .error error

theorem readConf_eq_ok_iff (proxy : String) (conf : YamlValue) (s : Settings) :
    readConf proxy conf = .ok s ↔ ∀ p, Chosen conf p (s.value p) := by
  rw [← settle_eq_ok_iff proxy conf s.value, readConf]
  split
  · rename_i m hm
    constructor
    · intro h
      rw [← Except.ok.inj h]
      exact hm
    · intro h
      obtain rfl : m = s.value := Except.ok.inj (hm.symm.trans h)
      rfl
  · rename_i error herror
    constructor
    · intro h
      cases h
    · intro h
      cases herror.symm.trans h

theorem readConf_eq_error_iff (proxy : String) (conf : YamlValue) (e : LoadError) :
    readConf proxy conf = .error e ↔ FirstError.At (readSetting proxy conf) Parameter.all e := by
  rw [← FirstError.settle_eq_error_iff Parameter.all proxyConfiguration e, readConf]
  split
  · rename_i m hm
    constructor
    · intro h
      cases h
    · intro h
      cases hm.symm.trans h
  · rename_i error herror
    constructor
    · intro h
      rw [herror, Except.error.inj h]
    · intro h
      rw [Except.error.inj (herror.symm.trans h)]

/-- The body of the loop over the proxies. -/
def readProxy (e : YamlValue × YamlValue) : Except LoadError ReadProxy :=
  match e.1 with
  | .str proxy => (readConf proxy e.2).map (⟨proxy, ·⟩)
  | name => .error (.nameNotString name)

/-- `load`, up to its `post_process`. -/
def read (proxiesYaml : YamlValue) : Except LoadError (List ReadProxy) :=
  match proxiesYaml with
  | .map l => l.mapM readProxy
  | _ => .error .notACollection

/-! ## `post_process` -/

namespace Settings

variable (s : Settings)

/-- A parameter in a condition. -/
def flag (p : Parameter) : Bool :=
  match s.value p with
  | .null | .bool false => false
  | _ => true

/-- The number that a parameter is. -/
def number (p : Parameter) : ℕ :=
  match s.value p with
  | .int n => n.toNat
  | _ => 0

def asString : YamlValue → Option String
  | .str t => some t
  | _ => none

/-- The strings that a parameter lists. -/
def strings (p : Parameter) : List String := (s.value p).values.filterMap asString

def transport (t : String) : Option Transport :=
  if t = "tls" then some .tls else if t = "tcp" then some .tcp else if t = "udp" then some .udp else none

def ipType (t : String) : Option IpType :=
  if t = "ipv4" then some .ipv4 else if t = "ipv6" then some .ipv6 else none

theorem transport_mem {t : String} {x : Transport} (h : transport t = some x) : x = .tls ∨ x = .tcp ∨ x = .udp := by
  unfold transport at h
  split_ifs at h with htls htcp hudp
  · exact .inl (Option.some.inj h).symm
  · exact .inr (.inl (Option.some.inj h).symm)
  · exact .inr (.inr (Option.some.inj h).symm)

/-- What `post_process` reads of the preferences, its strings made symbols. -/
def proxyParams : ProxyParams where
  useDns := s.flag .useDns
  useNaptr := s.flag .useNaptr
  useSrv := s.flag .useSrv
  forceTransportPreference := s.flag .forceTransportPreference
  transportPreference := (s.strings .transportPreference).filterMap transport
  ipTypePreference := (s.strings .ipTypePreference).filterMap ipType
  choices := by
    intro x hx
    obtain ⟨t, -, ht⟩ := List.mem_filterMap.mp hx
    exact transport_mem ht

theorem passes {p : Parameter} (h : .multiValue ∉ PROXY_CONFIG_VALIDATIONS p) :
    Passes (PROXY_CONFIG_VALIDATIONS p) (s.value p) := by
  have hsettled := s.settled p
  rwa [Settled, if_neg h] at hsettled

/-- A parameter that is checked to be a Fixnum with a minimum. -/
theorem value_eq_number {p : Parameter} (minimum : ℕ) (hp : .multiValue ∉ PROXY_CONFIG_VALIDATIONS p)
    (hfixnum : .fixnum ∈ PROXY_CONFIG_VALIDATIONS p)
    (hminimum : .greaterEqualThan minimum ∈ PROXY_CONFIG_VALIDATIONS p) :
    s.value p = .int (s.number p) ∧ minimum ≤ s.number p := by
  have hholds := s.passes hp _ hfixnum
  have hge := s.passes hp _ hminimum
  rw [number]
  cases hvalue : s.value p with
  | int n =>
    rw [hvalue, Validation.greaterEqualThan_int] at hge
    have htoNat : (n.toNat : ℤ) = n := Int.toNat_of_nonneg (by omega)
    refine ⟨congrArg YamlValue.int htoNat.symm, ?_⟩
    show minimum ≤ n.toNat
    omega
  | _ =>
    rw [hvalue] at hholds
    cases hholds

/-- A number between the bounds of its parameter. -/
theorem number_between {p : Parameter} (minimum maximum : ℕ) (hp : .multiValue ∉ PROXY_CONFIG_VALIDATIONS p)
    (hfixnum : .fixnum ∈ PROXY_CONFIG_VALIDATIONS p)
    (hminimum : .greaterEqualThan minimum ∈ PROXY_CONFIG_VALIDATIONS p)
    (hmaximum : .minorEqualThan maximum ∈ PROXY_CONFIG_VALIDATIONS p) :
    minimum ≤ s.number p ∧ s.number p ≤ maximum := by
  obtain ⟨hvalue, hge⟩ := s.value_eq_number minimum hp hfixnum hminimum
  have hle := s.passes hp _ hmaximum
  rw [hvalue, Validation.minorEqualThan_int] at hle
  exact ⟨hge, by omega⟩

def timers : TransactionConf :=
  { timerB := some (s.number .timerB), timerC := some (s.number .timerC), timerF := some (s.number .timerF) }

theorem admitted_timers : s.timers.Admitted := by
  constructor
  · intro n hn
    rw [← Option.some.inj hn]
    exact s.number_between 2 64 (by decide) (by decide) (by decide) (by decide)
  · intro n hn
    rw [← Option.some.inj hn]
    exact s.number_between 8 180 (by decide) (by decide) (by decide) (by decide)
  · intro n hn
    rw [← Option.some.inj hn]
    exact s.number_between 2 64 (by decide) (by decide) (by decide) (by decide)

end Settings

/-- A proxy of `OverSIP.proxies`. Its DNS cache and its blacklist start empty. -/
structure PublishedProxy where
  name : String
  dnsCache : DnsCache.State
  blacklist : Blacklist.State
  recordRouting : RecordRouting
  timers : TransactionConf
  dnsFailoverOn503 : Bool
  callbackOnServerTlsHandshake : Bool
  admitted : timers.Admitted
  doRecordRouting_of_all : recordRouting.recordRouteAll = true → recordRouting.doRecordRouting = true

def postProcess (sip : SipConf) (p : ReadProxy) : PublishedProxy where
  name := p.name
  dnsCache := DnsCache.init
    { proxy := p.settings.proxyParams.postProcess sip
      useDnsCache := p.settings.flag .useDnsCache
      dnsCacheTime := p.settings.number .dnsCacheTime
      admitted := (p.settings.value_eq_number 300 (by decide) (by decide) (by decide)).2 }
  blacklist := Blacklist.init
    { useBlacklist := p.settings.flag .useBlacklist
      blacklistTime := p.settings.number .blacklistTime
      admitted := p.settings.number_between 2 600 (by decide) (by decide) (by decide) (by decide) }
  recordRouting :=
    { doRecordRouting := p.settings.flag .doRecordRouting
      recordRouteAll := p.settings.flag .recordRouteAll && p.settings.flag .doRecordRouting }
  timers := p.settings.timers
  dnsFailoverOn503 := p.settings.flag .dnsFailoverOn503
  callbackOnServerTlsHandshake := p.settings.flag .callbackOnServerTlsHandshake
  admitted := p.settings.admitted_timers
  doRecordRouting_of_all := fun h => (Bool.and_eq_true_iff.mp h).2

/-- `load`: the proxies it publishes, or what it raises. -/
def load (sip : SipConf) (proxiesYaml : YamlValue) : Except LoadError (List PublishedProxy) :=
  (read proxiesYaml).map (·.map (postProcess sip))

/-! ## What a document says of a proxy -/

def transportName : Transport → String
  | .udp => "udp"
  | .tcp => "tcp"
  | .tls => "tls"
  | .ws => "ws"
  | .wss => "wss"

def ipTypeName : IpType → String
  | .ipv4 => "ipv4"
  | .ipv6 => "ipv6"

/-- The listeners that `oversip.conf` asks for. -/
def supportsTransport (sip : SipConf) : Transport → Bool
  | .tls => sip.sipTls
  | .tcp => sip.sipTcp
  | .udp => sip.sipUdp
  | .ws | .wss => true

def supportsIpType (sip : SipConf) : IpType → Bool
  | .ipv4 => sip.listenIpv4
  | .ipv6 => sip.listenIpv6

/-- A list of texts. -/
def texts (l : List String) : YamlValue := .seq (l.map .str)

/-- A proxy is configured as its conf says, and by the defaults where it says nothing. -/
structure Configured (sip : SipConf) (conf : YamlValue) (P : PublishedProxy) : Prop where
  useDns : Chosen conf .useDns (.bool P.dnsCache.conf.proxy.useDns)
  useSrv : Chosen conf .useSrv (.bool P.dnsCache.conf.proxy.useSrv)
  useNaptr : ∃ b, Chosen conf .useNaptr (.bool b) ∧
    P.dnsCache.conf.proxy.useNaptr = (b && P.dnsCache.conf.proxy.useSrv)
  forceTransportPreference :
    Chosen conf .forceTransportPreference (.bool P.dnsCache.conf.proxy.forceTransportPreference)
  transportPreference : ∃ l : List Transport, Chosen conf .transportPreference (texts (l.map transportName)) ∧
    P.dnsCache.conf.proxy.transportPreference = l.eraseDups.filter (supportsTransport sip)
  ipTypePreference : ∃ l : List IpType, Chosen conf .ipTypePreference (texts (l.map ipTypeName)) ∧
    P.dnsCache.conf.proxy.ipTypePreference = l.eraseDups.filter (supportsIpType sip)
  useDnsCache : Chosen conf .useDnsCache (.bool P.dnsCache.conf.useDnsCache)
  dnsCacheTime : Chosen conf .dnsCacheTime (.int P.dnsCache.conf.dnsCacheTime)
  dnsCache : P.dnsCache = DnsCache.init P.dnsCache.conf
  useBlacklist : Chosen conf .useBlacklist (.bool P.blacklist.conf.useBlacklist)
  blacklistTime : Chosen conf .blacklistTime (.int P.blacklist.conf.blacklistTime)
  blacklist : P.blacklist = Blacklist.init P.blacklist.conf
  doRecordRouting : Chosen conf .doRecordRouting (.bool P.recordRouting.doRecordRouting)
  recordRouteAll : ∃ b, Chosen conf .recordRouteAll (.bool b) ∧
    P.recordRouting.recordRouteAll = (b && P.recordRouting.doRecordRouting)
  timerB : ∃ n : ℕ, Chosen conf .timerB (.int n) ∧ P.timers.timerBms = 1000 * n
  timerC : ∃ n : ℕ, Chosen conf .timerC (.int n) ∧ P.timers.timerCms = 1000 * n
  timerF : ∃ n : ℕ, Chosen conf .timerF (.int n) ∧ P.timers.timerFms = 1000 * n
  dnsFailoverOn503 : Chosen conf .dnsFailoverOn503 (.bool P.dnsFailoverOn503)
  callbackOnServerTlsHandshake :
    Chosen conf .callbackOnServerTlsHandshake (.bool P.callbackOnServerTlsHandshake)

namespace Settings

variable (s : Settings)

theorem value_eq_flag {p : Parameter} (h : PROXY_CONFIG_VALIDATIONS p = [.boolean]) :
    s.value p = .bool (s.flag p) := by
  have hpasses := s.settled p
  rw [h] at hpasses
  have hholds := hpasses .boolean List.mem_cons_self
  rw [flag]
  cases hvalue : s.value p with
  | bool b => cases b <;> rfl
  | _ =>
    rw [hvalue] at hholds
    cases hholds

theorem mem_of_choices {l : List String} {v : YamlValue} (h : (Validation.choices l).holds v = true) :
    ∃ t ∈ l, v = .str t := by
  cases v with
  | str t => exact ⟨t, List.contains_iff_mem.mp h, rfl⟩
  | _ => cases h

/-- A preference lists choices of its parameter. -/
theorem value_eq_texts {p : Parameter} {l : List String}
    (h : PROXY_CONFIG_VALIDATIONS p = [.choices l, .multiValue, .nonEmpty]) :
    s.value p = texts (s.strings p) ∧ ∀ t ∈ s.strings p, t ∈ l := by
  have hsettled := s.settled p
  have hmulti : Validation.multiValue ∈ PROXY_CONFIG_VALIDATIONS p := by
    rw [h]
    exact List.mem_cons_of_mem _ List.mem_cons_self
  rw [Settled, if_pos hmulti] at hsettled
  obtain ⟨values, hvalue, -, hpasses⟩ := hsettled
  -- a choice is a string, so that `strings` drops none
  have hstr : ∀ v ∈ values, ∃ t ∈ l, v = .str t := by
    intro v hv
    exact mem_of_choices (hpasses v hv _ (by rw [h]; exact List.mem_cons_self))
  rw [strings, hvalue, YamlValue.values]
  clear hvalue hpasses
  induction values with
  | nil => exact ⟨rfl, fun t ht => absurd ht List.not_mem_nil⟩
  | cons v values ih =>
    obtain ⟨hv, hvalues⟩ := List.forall_mem_cons.mp hstr
    obtain ⟨t, ht, rfl⟩ := hv
    obtain ⟨htexts, hmem⟩ := ih hvalues
    have hcons : (YamlValue.str t :: values).filterMap asString = t :: values.filterMap asString :=
      List.filterMap_cons_some rfl
    rw [hcons]
    constructor
    · rw [texts, List.map_cons, ← YamlValue.seq.inj htexts]
    · exact List.forall_mem_cons.mpr ⟨ht, hmem⟩

theorem map_filterMap_of_choices {α : Type} {symbol : String → Option α} {name : α → String} {l : List String}
    (h : ∀ t ∈ l, ∃ a, symbol t = some a ∧ name a = t) : (l.filterMap symbol).map name = l := by
  induction l with
  | nil => rfl
  | cons t l ih =>
    obtain ⟨⟨a, ha, hname⟩, hl⟩ := List.forall_mem_cons.mp h
    rw [List.filterMap_cons_some ha, List.map_cons, hname, ih hl]

theorem value_transportPreference :
    s.value .transportPreference = texts (s.proxyParams.transportPreference.map transportName) := by
  obtain ⟨hvalue, hmem⟩ := s.value_eq_texts (rfl : PROXY_CONFIG_VALIDATIONS .transportPreference = _)
  have hnames : (s.proxyParams.transportPreference.map transportName) = s.strings .transportPreference := by
    apply map_filterMap_of_choices
    intro t ht
    have hchoice := hmem t ht
    simp only [List.mem_cons, List.not_mem_nil, or_false] at hchoice
    rcases hchoice with rfl | rfl | rfl
    · exact ⟨.tls, rfl, rfl⟩
    · exact ⟨.tcp, rfl, rfl⟩
    · exact ⟨.udp, rfl, rfl⟩
  rw [hvalue, hnames]

theorem value_ipTypePreference :
    s.value .ipTypePreference = texts (s.proxyParams.ipTypePreference.map ipTypeName) := by
  obtain ⟨hvalue, hmem⟩ := s.value_eq_texts (rfl : PROXY_CONFIG_VALIDATIONS .ipTypePreference = _)
  have hnames : (s.proxyParams.ipTypePreference.map ipTypeName) = s.strings .ipTypePreference := by
    apply map_filterMap_of_choices
    intro t ht
    have hchoice := hmem t ht
    simp only [List.mem_cons, List.not_mem_nil, or_false] at hchoice
    rcases hchoice with rfl | rfl
    · exact ⟨.ipv4, rfl, rfl⟩
    · exact ⟨.ipv6, rfl, rfl⟩
  rw [hvalue, hnames]

end Settings

theorem configured_postProcess (sip : SipConf) {conf : YamlValue} {p : ReadProxy}
    (h : ∀ x, Chosen conf x (p.settings.value x)) : Configured sip conf (postProcess sip p) := by
  have hflag (x : Parameter) (hx : PROXY_CONFIG_VALIDATIONS x = [.boolean]) :
      Chosen conf x (.bool (p.settings.flag x)) := p.settings.value_eq_flag hx ▸ h x
  have hnumber (x : Parameter) (minimum : ℕ) (hx : .multiValue ∉ PROXY_CONFIG_VALIDATIONS x)
      (hfixnum : .fixnum ∈ PROXY_CONFIG_VALIDATIONS x)
      (hminimum : .greaterEqualThan minimum ∈ PROXY_CONFIG_VALIDATIONS x) :
      Chosen conf x (.int (p.settings.number x)) := (p.settings.value_eq_number minimum hx hfixnum hminimum).1 ▸ h x
  exact
    { useDns := hflag .useDns rfl
      useSrv := hflag .useSrv rfl
      useNaptr := ⟨_, hflag .useNaptr rfl, rfl⟩
      forceTransportPreference := hflag .forceTransportPreference rfl
      transportPreference := ⟨_, p.settings.value_transportPreference ▸ h .transportPreference, rfl⟩
      ipTypePreference := ⟨_, p.settings.value_ipTypePreference ▸ h .ipTypePreference, rfl⟩
      useDnsCache := hflag .useDnsCache rfl
      dnsCacheTime := hnumber .dnsCacheTime 300 (by decide) (by decide) (by decide)
      dnsCache := rfl
      useBlacklist := hflag .useBlacklist rfl
      blacklistTime := hnumber .blacklistTime 2 (by decide) (by decide) (by decide)
      blacklist := rfl
      doRecordRouting := hflag .doRecordRouting rfl
      recordRouteAll := ⟨_, hflag .recordRouteAll rfl, rfl⟩
      timerB := ⟨_, hnumber .timerB 2 (by decide) (by decide) (by decide), Nat.mul_comm _ _⟩
      timerC := ⟨_, hnumber .timerC 8 (by decide) (by decide) (by decide), Nat.mul_comm _ _⟩
      timerF := ⟨_, hnumber .timerF 2 (by decide) (by decide) (by decide), Nat.mul_comm _ _⟩
      dnsFailoverOn503 := hflag .dnsFailoverOn503 rfl
      callbackOnServerTlsHandshake := hflag .callbackOnServerTlsHandshake rfl }

/-! ## One load -/

/-- A document that is accepted. -/
def Acceptable (proxiesYaml : YamlValue) : Prop :=
  ∃ l, proxiesYaml = .map l ∧ ∀ e ∈ l, (∃ name, e.1 = .str name) ∧
    ∀ p, ∃ values, e.2.index (Parameter.name p) = some values ∧ Admissible (PROXY_CONFIG_VALIDATIONS p) values

/-- A document breaks the rule that an error names, at the place that the error names. -/
def LoadError.Justified (proxiesYaml : YamlValue) : LoadError → Prop
  | .notACollection => ∀ l, proxiesYaml ≠ .map l
  | .nameNotString proxy => ∃ l conf, proxiesYaml = .map l ∧ (proxy, conf) ∈ l ∧ ∀ s, proxy ≠ .str s
  | .parameter proxy p complaint =>
    ∃ l conf values, proxiesYaml = .map l ∧ (.str proxy, conf) ∈ l ∧ conf.index p.name = some values ∧
      complaint.Justified (PROXY_CONFIG_VALIDATIONS p) values
  | .noIndex proxy conf => ∃ l, proxiesYaml = .map l ∧ (.str proxy, conf) ∈ l ∧ ∀ key, conf.index key = none

/-- The published proxies are those of a document, in its order. -/
def Published (sip : SipConf) (proxiesYaml : YamlValue) (proxies : List PublishedProxy) : Prop :=
  ∃ l, proxiesYaml = .map l ∧ List.Forall₂ (fun e P => e.1 = .str P.name ∧ Configured sip e.2 P) l proxies

theorem readProxy_eq_ok_iff (e : YamlValue × YamlValue) (p : ReadProxy) :
    readProxy e = .ok p ↔ e.1 = .str p.name ∧ ∀ x, Chosen e.2 x (p.settings.value x) := by
  rw [← readConf_eq_ok_iff p.name e.2 p.settings]
  obtain ⟨name, conf⟩ := e
  cases name with
  | str proxy =>
    show (readConf proxy conf).map _ = _ ↔ _
    constructor
    · intro h
      cases hread : readConf proxy conf with
      | error error =>
        rw [hread] at h
        cases h
      | ok s =>
        rw [hread] at h
        rw [← Except.ok.inj h]
        exact ⟨rfl, hread⟩
    · rintro ⟨hname, hread⟩
      obtain rfl : proxy = p.name := YamlValue.str.inj hname
      show (readConf p.name conf).map _ = _
      rw [hread]
      rfl
  | _ =>
    constructor
    · intro h
      cases h
    · rintro ⟨hname, -⟩
      cases hname

theorem read_of_load {sip : SipConf} {proxiesYaml : YamlValue} {proxies : List PublishedProxy}
    (h : load sip proxiesYaml = .ok proxies) :
    ∃ l ps, proxiesYaml = .map l ∧ List.Forall₂ (fun e p => readProxy e = .ok p) l ps ∧
      proxies = ps.map (postProcess sip) := by
  unfold load at h
  cases hread : read proxiesYaml with
  | error e =>
    rw [hread] at h
    cases h
  | ok ps =>
    rw [hread] at h
    cases proxiesYaml with
    | map l => exact ⟨l, ps, rfl, (FirstError.mapM_eq_ok_iff readProxy l ps).mp hread, (Except.ok.inj h).symm⟩
    | _ => cases hread

theorem published_of_load {sip : SipConf} {proxiesYaml : YamlValue} {proxies : List PublishedProxy}
    (h : load sip proxiesYaml = .ok proxies) : Published sip proxiesYaml proxies := by
  obtain ⟨l, ps, rfl, hread, rfl⟩ := read_of_load h
  refine ⟨l, rfl, ?_⟩
  rw [List.forall₂_map_right_iff]
  refine List.Forall₂.imp ?_ hread
  intro e p hp
  obtain ⟨hname, hchosen⟩ := (readProxy_eq_ok_iff e p).mp hp
  exact ⟨hname, configured_postProcess sip hchosen⟩

theorem acceptable_of_load {sip : SipConf} {proxiesYaml : YamlValue} {proxies : List PublishedProxy}
    (h : load sip proxiesYaml = .ok proxies) : Acceptable proxiesYaml := by
  obtain ⟨l, ps, rfl, hread, -⟩ := read_of_load h
  refine ⟨l, rfl, ?_⟩
  intro e he
  obtain ⟨p, hp⟩ := FirstError.exists_of_forall₂ hread he
  obtain ⟨hname, hchosen⟩ := (readProxy_eq_ok_iff e p).mp hp
  refine ⟨⟨p.name, hname⟩, ?_⟩
  intro x
  obtain ⟨values, hindex, hadmissible, -⟩ := hchosen x
  exact ⟨values, hindex, hadmissible⟩

theorem justified_of_readConf {proxy : String} {conf : YamlValue} {error : LoadError}
    (h : readConf proxy conf = .error error) {l : List (YamlValue × YamlValue)}
    (hmem : (.str proxy, conf) ∈ l) : error.Justified (.map l) := by
  obtain ⟨before, p, after, -, -, hp⟩ := (readConf_eq_error_iff proxy conf error).mp h
  unfold readSetting at hp
  cases hindex : conf.index p.name with
  | none =>
    rw [hindex] at hp
    rw [← Except.error.inj hp]
    exact ⟨l, rfl, hmem, YamlValue.index_eq_none hindex⟩
  | some values =>
    rw [hindex] at hp
    cases hread : readParameter (PROXY_CONFIG_VALIDATIONS p) values with
    | ok r =>
      simp only [hread] at hp
      cases hp
    | error complaint =>
      simp only [hread] at hp
      rw [← Except.error.inj hp]
      exact ⟨l, conf, values, rfl, hmem, hindex, justified_of_readParameter hread⟩

theorem justified_of_load {sip : SipConf} {proxiesYaml : YamlValue} {error : LoadError}
    (h : load sip proxiesYaml = .error error) : error.Justified proxiesYaml := by
  unfold load at h
  cases hread : read proxiesYaml with
  | ok l =>
    rw [hread] at h
    cases h
  | error e =>
    rw [hread] at h
    obtain rfl : e = error := Except.error.inj h
    cases proxiesYaml with
    | map l =>
      obtain ⟨before, ⟨name, conf⟩, after, hl, -, herror⟩ := (FirstError.mapM_eq_error_iff readProxy l e).mp hread
      have hmem : (name, conf) ∈ l := hl ▸ List.mem_append_right before List.mem_cons_self
      cases name with
      | str proxy =>
        change (readConf proxy conf).map _ = _ at herror
        cases hconf : readConf proxy conf with
        | ok s =>
          rw [hconf] at herror
          cases herror
        | error error =>
          rw [hconf] at herror
          rw [← Except.error.inj herror]
          exact justified_of_readConf hconf hmem
      | _ =>
        rw [← Except.error.inj herror]
        exact ⟨l, conf, rfl, hmem, fun s hs => by cases hs⟩
    | _ =>
      rw [← Except.error.inj hread]
      intro l hl
      cases hl

/-- A justified error is about a document that is not accepted. -/
theorem LoadError.Justified.not_acceptable {proxiesYaml : YamlValue} {error : LoadError}
    (h : error.Justified proxiesYaml) : ¬ Acceptable proxiesYaml := by
  rintro ⟨l, hl, haccept⟩
  cases error with
  | notACollection => exact h l hl
  | nameNotString proxy =>
    obtain ⟨l', conf, hl', hmem, hname⟩ := h
    obtain rfl := YamlValue.map.inj (hl.symm.trans hl')
    obtain ⟨⟨name, hstr⟩, -⟩ := haccept _ hmem
    exact hname name hstr
  | parameter proxy p complaint =>
    obtain ⟨l', conf, values, hl', hmem, hindex, hcomplaint⟩ := h
    obtain rfl := YamlValue.map.inj (hl.symm.trans hl')
    obtain ⟨-, hall⟩ := haccept _ hmem
    obtain ⟨values', hindex', hadmissible⟩ := hall p
    obtain rfl := Option.some.inj (hindex.symm.trans hindex')
    exact hcomplaint.not_admissible hadmissible
  | noIndex proxy conf =>
    obtain ⟨l', hl', hmem, hindex⟩ := h
    obtain rfl := YamlValue.map.inj (hl.symm.trans hl')
    obtain ⟨-, hall⟩ := haccept _ hmem
    obtain ⟨values, hvalues, -⟩ := hall .useDns
    rw [hindex] at hvalues
    cases hvalues

/-- A document is accepted exactly when a load publishes proxies. -/
theorem acceptable_iff (sip : SipConf) (proxiesYaml : YamlValue) :
    Acceptable proxiesYaml ↔ ∃ proxies, load sip proxiesYaml = .ok proxies := by
  cases hload : load sip proxiesYaml with
  | error error =>
    refine iff_of_false (justified_of_load hload).not_acceptable ?_
    rintro ⟨proxies, h⟩
    cases h
  | ok proxies =>
    exact iff_of_true (acceptable_of_load hload) ⟨proxies, rfl⟩

end ProxiesConfig

end OverSip
