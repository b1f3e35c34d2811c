import OverSip.Config.ProxiesConfig

/-!
# Reloading the proxies

`Config.load` and `Config.system_reload` as far as they load `proxies.conf`, over any sequence of reloads. At the start
an error ends the process; a reload that fails is logged and leaves `OverSIP.proxies` alone. A file is the document
that `YAML.load_file` gives, none where it raises.
-/

namespace OverSip

namespace ProxiesConfig

open Rfc3263

/-! ## Texts of the errors -/

section texts

/- What Ruby itself says: the `inspect` of a value, and the message of the exception of its `[]`. -/
variable (inspect indexError : YamlValue → String)

mutual

/-- An element of an array that is joined. -/
def joinText : YamlValue → String
  | .seq l => joinTexts l
  | .null => ""
  | .bool b => toString b
  | .int n => toString n
  | .str s | .sym s => s
  | .scalar text _ => text
  | .map l => inspect (.map l)

/-- `value.join(", ")` -/
def joinTexts : List YamlValue → String
  | [] => ""
  | [v] => joinText v
  | v :: w :: l => joinText v ++ ", " ++ joinTexts (w :: l)

end

def humanizeValue : YamlValue → String
  | .bool true => "yes"
  | .bool false => "no"
  | .null => "null"
  | v => joinText inspect v

def complaintText : Complaint → String
  | .requiresValue => " requires a value"
  | .multipleValues => " does not allow multiple values"
  | .emptyValues => " does not allow empty values"
  | .invalidValue value validation =>
    " has invalid value '" ++ humanizeValue inspect value ++ "' (does not satisfy '" ++ validation.name ++
      "' validation requirement)"

/-- `e.message` -/
def LoadError.message : LoadError → String
  | .notACollection => "invalid proxies configuration file, it is not a collection"
  | .nameNotString proxy => "proxy name is not a string (" ++ inspect proxy ++ ")"
  | .parameter proxy p complaint => proxy ++ "[" ++ p.name ++ "]" ++ complaintText inspect complaint
  | .noIndex _ conf => indexError conf

/-- The message of an error of a parameter names the proxy and the parameter first. -/
theorem message_names (proxy : String) (p : Parameter) (complaint : Complaint) :
    (proxy ++ "[" ++ p.name ++ "]").toList <+:
      ((LoadError.parameter proxy p complaint).message inspect indexError).toList := by
  dsimp only [LoadError.message]
  generalize proxy ++ "[" ++ p.name ++ "]" = place
  rw [String.toList_append]
  exact List.prefix_append _ _

end texts

/-! ## The process -/

inductive Status
  | starting
  /-- The proxies as they are published. -/
  | running (proxies : List PublishedProxy)
  | terminated

inductive Event
  | start (file : Option YamlValue)
  /-- The signal HUP. -/
  | reload (file : Option YamlValue)

def Event.file : Event → Option YamlValue
  | .start file | .reload file => file

inductive Output
  | loaded
  | notRead
  /-- The message is logged. -/
  | rejected (error : LoadError)

/-- Load a file; the status after an error is given. -/
def loadFile (sip : SipConf) (file : Option YamlValue) (onError : Status) : Status × List Output :=
  match file with
  | none => (onError, [.notRead])
  | some proxiesYaml =>
    match load sip proxiesYaml with
    | .ok proxies => (.running proxies, [.loaded])
    | .error error => (onError, [.rejected error])

def step (sip : SipConf) : Status → Event → Option (Status × List Output)
  | .starting, .start file => some (loadFile sip file .terminated)
  | .running proxies, .reload file => some (loadFile sip file (.running proxies))
  | _, _ => none

/-! ## One step -/

/-- A file is not one that is accepted. -/
def Refused (file : Option YamlValue) : Prop := ∀ proxiesYaml, file = some proxiesYaml → ¬ Acceptable proxiesYaml

/-- What a step says of the file and does with the proxies. -/
structure Answered (sip : SipConf) (r : StepRec Status Event Output) : Prop where
  loaded : r.out = [.loaded] ↔ ∃ proxiesYaml, r.ev.file = some proxiesYaml ∧ Acceptable proxiesYaml
  rejected : ∀ error, .rejected error ∈ r.out → ∃ proxiesYaml, r.ev.file = some proxiesYaml ∧ error.Justified proxiesYaml
  published : ∀ proxies, r.out = [.loaded] → r.post = .running proxies →
    ∃ proxiesYaml, r.ev.file = some proxiesYaml ∧ Published sip proxiesYaml proxies
  kept : r.out ≠ [.loaded] → r.post = r.pre ∨ r.post = .terminated
  serves : ∀ proxies, r.pre = .running proxies → ∃ proxies', r.post = .running proxies'

theorem answered_loadFile {sip : SipConf} {s onError : Status} {e : Event} {p : Status × List Output}
    (hp : p = loadFile sip e.file onError) (honError : onError = s ∨ onError = .terminated)
    (hserves : ∀ proxies, s = .running proxies → onError = s) : Answered sip ⟨s, e, p.2, p.1⟩ := by
  have hkept (proxies : List PublishedProxy) (hs : s = .running proxies) :
      ∃ proxies', onError = .running proxies' := ⟨proxies, (hserves proxies hs).trans hs⟩
  unfold loadFile at hp
  cases hfile : e.file with
  | none =>
    rw [hfile] at hp
    subst hp
    refine ⟨iff_of_false ?_ ?_, ?_, ?_, fun _ => honError, hkept⟩
    · intro h
      cases List.singleton_inj.mp h
    · rintro ⟨proxiesYaml, h, -⟩
      cases hfile.symm.trans h
    · intro error h
      cases List.mem_singleton.mp h
    · intro proxies h
      cases List.singleton_inj.mp h
  | some proxiesYaml =>
    rw [hfile] at hp
    cases hload : load sip proxiesYaml with
    | ok proxies =>
      simp only [hload] at hp
      subst hp
      refine ⟨iff_of_true rfl ⟨proxiesYaml, hfile, acceptable_of_load hload⟩, ?_, ?_, fun h => absurd rfl h, ?_⟩
      · intro error h
        cases List.mem_singleton.mp h
      · intro proxies' _ hproxies
        obtain rfl := Status.running.inj hproxies
        exact ⟨proxiesYaml, hfile, published_of_load hload⟩
      · intro _ _
        exact ⟨proxies, rfl⟩
    | error error =>
      simp only [hload] at hp
      subst hp
      have hjustified := justified_of_load hload
      refine ⟨iff_of_false ?_ ?_, ?_, ?_, fun _ => honError, hkept⟩
      · intro h
        cases List.singleton_inj.mp h
      · rintro ⟨proxiesYaml', h, haccept⟩
        obtain rfl := Option.some.inj (hfile.symm.trans h)
        exact hjustified.not_acceptable haccept
      · intro error' h
        obtain rfl := Output.rejected.inj (List.mem_singleton.mp h)
        exact ⟨proxiesYaml, hfile, hjustified⟩
      · intro proxies h
        cases List.singleton_inj.mp h

theorem answered_step {sip : SipConf} {s s' : Status} {e : Event} {o : List Output}
    (h : step sip s e = some (s', o)) : Answered sip ⟨s, e, o, s'⟩ := by
  cases s with
  | starting =>
    cases e with
    | start file =>
      have hp : (s', o) = loadFile sip (Event.start file).file .terminated := (Option.some.inj h).symm
      exact answered_loadFile hp (.inr rfl) fun proxies hs => by cases hs
    | reload file => cases h
  | running proxies =>
    cases e with
    | start file => cases h
    | reload file =>
      have hp : (s', o) = loadFile sip (Event.reload file).file (.running proxies) := (Option.some.inj h).symm
      exact answered_loadFile hp (.inl rfl) fun _ _ => rfl
  | terminated => cases h

theorem Answered.refused {sip : SipConf} {r : StepRec Status Event Output} (h : Answered sip r)
    (hout : r.out ≠ [.loaded]) : Refused r.ev.file := by
  intro proxiesYaml hfile haccept
  exact hout (h.loaded.mpr ⟨proxiesYaml, hfile, haccept⟩)

/-! ## Runs -/

/-- The proxies are those of the last file that is accepted. -/
def InForce (sip : SipConf) (tr : List (StepRec Status Event Output)) (proxies : List PublishedProxy) : Prop :=
  ∃ before r after proxiesYaml, tr = before ++ r :: after ∧ r.ev.file = some proxiesYaml ∧
    Published sip proxiesYaml proxies ∧ ∀ x ∈ after, Refused x.ev.file

/-- **What is in force after any reloads.** Every file is answered for what it is, and the proxies of a process that runs
are those of the last file that is accepted, whatever else it was told to load since. -/
theorem inForce_of_run {sip : SipConf} {tr : List (StepRec Status Event Output)} {s : Status}
    (h : Run (step sip) .starting tr s) :
    (∀ r ∈ tr, Answered sip r) ∧ ∀ proxies, s = .running proxies → InForce sip tr proxies := by
  refine h.invariant (G := fun _ _ => True)
    (I := fun tr s => (∀ r ∈ tr, Answered sip r) ∧ ∀ proxies, s = .running proxies → InForce sip tr proxies) ?_ ?_
    fun _ _ => trivial
  · refine ⟨fun r hr => absurd hr List.not_mem_nil, ?_⟩
    intro proxies hs
    cases hs
  · intro tr s e s' o hI _ hstep
    obtain ⟨hall, hinForce⟩ := hI
    have hanswered := answered_step hstep
    constructor
    · intro r hr
      rcases List.mem_append.mp hr with hr | hr
      · exact hall r hr
      · obtain rfl := List.mem_singleton.mp hr
        exact hanswered
    · intro proxies hs'
      by_cases hout : o = [.loaded]
      · obtain ⟨proxiesYaml, hfile, hpublished⟩ := hanswered.published proxies hout hs'
        exact ⟨tr, _, [], proxiesYaml, rfl, hfile, hpublished, fun x hx => absurd hx List.not_mem_nil⟩
      · -- a file that is refused leaves the proxies as they are
        have hs : s' = s := by
          rcases hanswered.kept hout with hs | hs
          · exact hs
          · cases hs'.symm.trans hs
        obtain ⟨before, r, after, proxiesYaml, rfl, hfile, hpublished, hafter⟩ := hinForce proxies (hs.symm.trans hs')
        refine ⟨before, r, after ++ [⟨s, e, o, s'⟩], proxiesYaml, ?_, hfile, hpublished, ?_⟩
        · rw [List.append_assoc, List.cons_append]
        · intro x hx
          rcases List.mem_append.mp hx with hx | hx
          · exact hafter x hx
          · obtain rfl := List.mem_singleton.mp hx
            exact hanswered.refused hout

def sampleSip : SipConf where
  sipTls := false
  sipTcp := true
  sipUdp := true
  listenIpv4 := true
  listenIpv6 := false

/-- A proxy with a timer of its own. -/
def sampleProxies : YamlValue :=
  .map [(.str "default_proxy", .map [(.str "timer_B", .int 16), (.str "use_srv", .bool false)])]

/-- A value that is out of its bounds. -/
def sampleMistake : YamlValue := .map [(.str "default_proxy", .map [(.str "timer_B", .int 65)])]

theorem load_sampleProxies : ∃ proxies, load sampleSip sampleProxies = .ok proxies := ⟨_, rfl⟩

theorem load_sampleMistake : load sampleSip sampleMistake =
    .error (.parameter "default_proxy" .timerB (.invalidValue (.int 65) (.minorEqualThan 64))) := rfl

/-- A reload with a mistake leaves the proxies of the start. -/
theorem inForce_sample : ∃ proxies,
    InForce sampleSip
      [⟨.starting, .start (some sampleProxies), [.loaded], .running proxies⟩,
        ⟨.running proxies, .reload (some sampleMistake),
          [.rejected (.parameter "default_proxy" .timerB (.invalidValue (.int 65) (.minorEqualThan 64)))],
          .running proxies⟩]
      proxies := by
  obtain ⟨proxies, hload⟩ := load_sampleProxies
  have hstart : step sampleSip .starting (.start (some sampleProxies)) = some (.running proxies, [.loaded]) := by
    simp only [step, loadFile, hload]
  have hreload : step sampleSip (.running proxies) (.reload (some sampleMistake)) =
      some (.running proxies,
        [.rejected (.parameter "default_proxy" .timerB (.invalidValue (.int 65) (.minorEqualThan 64)))]) := by
    simp only [step, loadFile, load_sampleMistake]
  exact ⟨proxies, (inForce_of_run ((Run.nil.snoc hstart).snoc hreload)).2 proxies rfl⟩

end ProxiesConfig

end OverSip
