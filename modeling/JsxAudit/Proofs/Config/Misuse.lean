import JsxAudit.Config.Resolve
import JsxAudit.Proofs.Data.Keyed

/-!
How the resolution of a configuration ends.

The values that count are taken up in a fixed order: the service, the settings of the rules, the
patterns. The first bad one decides. It is refused with a message if it is looked at before it is
used; if it is used as something it is not, the resolution ends in a fault. `resolve_judged` says
of every file which of the two it is: a configuration comes out exactly of sound values, and a fault
exactly of misused ones.
-/

namespace JsxAudit.Config

open Audit Data

variable {α β : Type} {x : Except ConfigError α} {f : α → Except ConfigError β} {sound later : Prop}
  {misused misusedLater : Fault → Prop} {fields merged : Fields} {rule key name : String}
  {default : List String} {flag : Option String} {env : Provider.Environment}

/-! ### Judgements -/

/-- A step succeeds exactly on sound values, and ends in a fault exactly on misused ones. On all
others it ends in a message. -/
structure Judged (x : Except ConfigError α) (sound : Prop) (misused : Fault → Prop) : Prop where
  succeeds_iff : (∃ a, x = .ok a) ↔ sound
  faults_iff : ∀ fault, x = .error (.shape fault) ↔ misused fault

theorem judged_ok (a : α) (hsound : sound) (hnot : ∀ fault, ¬ misused fault) :
    Judged (.ok a) sound misused where
  succeeds_iff := ⟨fun _ => hsound, fun _ => ⟨a, rfl⟩⟩
  faults_iff fault := by simp [hnot fault]

theorem judged_fault {fault : Fault} (hsound : ¬ sound)
    (hmisused : ∀ other, misused other ↔ other = fault) :
    Judged (α := α) (.error (.shape fault)) sound misused where
  succeeds_iff := by simp [hsound]
  faults_iff other := by simp [hmisused, eq_comm]

theorem judged_message {e : ConfigError} (message : ∀ fault, e ≠ .shape fault) (hsound : ¬ sound)
    (hnot : ∀ fault, ¬ misused fault) : Judged (α := α) (.error e) sound misused where
  succeeds_iff := by simp [hsound]
  faults_iff fault := by simp [message fault, hnot fault]

theorem ok_bind (a : α) (f : α → Except ConfigError β) : (.ok a >>= f) = f a := rfl

/-- Values taken up later matter only where those before are sound. -/
theorem Judged.bind (hx : Judged x sound misused)
    (hf : ∀ a, x = .ok a → Judged (f a) later misusedLater) :
    Judged (x >>= f) (sound ∧ later)
      (fun fault => misused fault ∨ sound ∧ misusedLater fault) := by
  cases x with
  | error e =>
    have unsound : ¬ sound := by simpa using hx.succeeds_iff.symm
    refine ⟨?_, fun fault => ?_⟩
    · simp [unsound, Bind.bind, Except.bind]
    · simpa [unsound, Bind.bind, Except.bind] using hx.faults_iff fault
  | ok a =>
    have sound' : sound := hx.succeeds_iff.mp ⟨a, rfl⟩
    have unmisused (fault : Fault) : ¬ misused fault := by simpa using (hx.faults_iff fault).symm
    refine ⟨?_, fun fault => ?_⟩
    · simpa [sound', Bind.bind, Except.bind] using (hf a rfl).succeeds_iff
    · simpa [sound', unmisused fault, Bind.bind, Except.bind] using (hf a rfl).faults_iff fault

/-- What happens to a result afterwards does not matter if it cannot fail. -/
theorem Judged.map {g : α → β} (hx : Judged x sound misused) : Judged (g <$> x) sound misused := by
  refine ⟨?_, fun fault => ?_⟩
  · rw [← hx.succeeds_iff]
    cases x <;> simp [Functor.map, Except.map]
  · rw [← hx.faults_iff fault]
    cases x <;> simp [Functor.map, Except.map]

theorem Judged.congr {sound' : Prop} {misused' : Fault → Prop} (hx : Judged x sound misused)
    (hsound : sound ↔ sound') (hmisused : ∀ fault, misused fault ↔ misused' fault) :
    Judged x sound' misused' :=
  ⟨hx.succeeds_iff.trans hsound, fun fault => (hx.faults_iff fault).trans (hmisused fault)⟩

/-- Values taken up one by one, each of which is accepted or refused with a message. -/
theorem judged_mapM {ι : Type} {step : ι → Except ConfigError β} {Sound : ι → Prop}
    (items : List ι) (h : ∀ item, Judged (step item) (Sound item) fun _ => False) :
    Judged (items.mapM step) (∀ item ∈ items, Sound item) fun _ => False := by
  induction items with
  | nil => exact judged_ok [] (by simp) (by simp)
  | cons item rest ih =>
    rw [List.mapM_cons]
    have judged := (h item).bind fun b _ => ih.map (g := (b :: ·))
    exact judged.congr (by simp) (by simp)

/-! ### The service -/

/-- The value that names the service: that of the flag, else that of the file. -/
def named? (flag : Option String) (merged : Fields) : Option Value :=
  ((flag.filter (· != "")).map Value.str).or (given? merged "provider")

theorem named?_eq (flag : Option String) (merged : Fields) : named? flag merged =
    ((flag.filter (· != "")).map Value.str).or (given? merged "provider") := rfl

/-- If a service is named, there is one of the name. -/
def ProviderSound (flag : Option String) (merged : Fields) : Prop :=
  ∀ value, named? flag merged = some value → ∃ p : Provider, value = .str p.name

/-- Lists and tables cannot be looked up among names. -/
def HasParts : Value → Prop
  | .list _ | .table _ => True
  | _ => False

/-- What names the service cannot be looked up. -/
def ProviderMisused (flag : Option String) (merged : Fields) (fault : Fault) : Prop :=
  fault = .wrongType ∧ ∃ value, named? flag merged = some value ∧ HasParts value

theorem ofName?_name (p : Provider) : Provider.ofName? p.name = some p := by
  cases p <;> decide

theorem name_of_ofName? {p : Provider} (h : Provider.ofName? name = some p) : p.name = name := by
  simpa using List.find?_some h

theorem providerOf_judged (value : Value) :
    Judged (providerOf value) (∃ p : Provider, value = .str p.name)
      (fun fault => fault = .wrongType ∧ HasParts value) := by
  cases value with
  | str name =>
    simp only [providerOf]
    cases found : Provider.ofName? name with
    | some p => exact judged_ok p ⟨p, by rw [name_of_ofName? found]⟩ (by simp [HasParts])
    | none =>
      refine judged_message nofun ?_ (by simp [HasParts])
      rintro ⟨p, ⟨⟩⟩
      rw [ofName?_name] at found
      cases found
  | list items => exact judged_fault (by simp) (by simp [HasParts])
  | table fields => exact judged_fault (by simp) (by simp [HasParts])
  | null => exact judged_message nofun (by simp) (by simp [HasParts])
  | bool b => exact judged_message nofun (by simp) (by simp [HasParts])
  | int n => exact judged_message nofun (by simp) (by simp [HasParts])
  | float x => exact judged_message nofun (by simp) (by simp [HasParts])

theorem resolveProvider_judged (flag : Option String) (merged : Fields)
    (env : Provider.Environment) :
    Judged (resolveProvider flag merged env) (ProviderSound flag merged)
      (ProviderMisused flag merged) := by
  cases hname : named? flag merged with
  | none =>
    have detected : resolveProvider flag merged env = .ok (Provider.detect? env) := by
      simp only [resolveProvider, ← named?_eq, hname]
    rw [detected]
    exact judged_ok _ (by simp [ProviderSound, hname]) (by simp [ProviderMisused, hname])
  | some value =>
    have looked : resolveProvider flag merged env = (providerOf value).map some := by
      simp only [resolveProvider, ← named?_eq, hname]
    rw [looked]
    exact (providerOf_judged value).map.congr (by simp [ProviderSound, hname])
      (by simp [ProviderMisused, hname])

/-! ### The rules -/

/-- What a rule can be set to: its default, a level, or a table that has a level or none. -/
inductive IsSetting : Value → Prop
  | default : IsSetting .null
  | level (level : RuleLevel) : IsSetting (.str level.name)
  | table {fields : Fields} (level : ∀ value, Keyed.get? fields "level" = some value →
      ∃ level : RuleLevel, value.plain = level.name) : IsSetting (.table fields)

/-- The rules are given as a table of settings. -/
def RulesSound (merged : Fields) : Prop :=
  ∀ value, given? merged "rules" = some value → ∃ raw, value = .table raw ∧
    ∀ rule setting, Keyed.get? raw rule = some setting → IsSetting setting

/-- What is given for the rules is no table. A bad setting in a table is refused with a message. -/
def RulesMisused (merged : Fields) (fault : Fault) : Prop :=
  fault = .wrongType ∧ ∃ value, given? merged "rules" = some value ∧ ∀ raw, value ≠ .table raw

theorem level_ofName?_name (level : RuleLevel) : RuleLevel.ofName? level.name = some level := by
  cases level <;> rfl

theorem level_name_of_ofName? {level : RuleLevel} (h : RuleLevel.ofName? name = some level) :
    name = level.name := by
  unfold RuleLevel.ofName? at h
  split at h <;> cases h <;> rfl

/-- Every rule has a default that is a level. -/
theorem exists_defaultLevel (rule : String) :
    ∃ level : RuleLevel, defaultLevel rule = level.name := by
  have known : ∀ pair ∈ defaultLevels, (RuleLevel.ofName? pair.2).isSome := by decide
  unfold defaultLevel
  cases found : defaultLevels.lookup rule with
  | none => exact ⟨.warn, rfl⟩
  | some name =>
    have valid := known _ (Keyed.mem_of_lookup found)
    obtain ⟨level, hlevel⟩ := Option.isSome_iff_exists.mp valid
    exact ⟨level, level_name_of_ofName? hlevel⟩

theorem levelOf_judged (rule name : String) :
    Judged (levelOf rule name) (∃ level : RuleLevel, name = level.name) fun _ => False := by
  unfold levelOf
  cases found : RuleLevel.ofName? name with
  | some level => exact judged_ok level ⟨level, level_name_of_ofName? found⟩ (by simp)
  | none =>
    refine judged_message nofun ?_ (by simp)
    rintro ⟨level, rfl⟩
    rw [level_ofName?_name] at found
    cases found

/-- A setting is accepted or refused with a message, whatever it is. -/
theorem ruleConfig_judged (rule : String) (raw : Option Value) :
    Judged (ruleConfig rule raw) (∀ setting, raw = some setting → IsSetting setting)
      fun _ => False := by
  have byDefault : ∃ level : RuleLevel, defaultLevel rule = level.name := exists_defaultLevel rule
  cases raw with
  | none => exact (levelOf_judged rule _).map.congr (by simp [byDefault]) (by simp)
  | some setting =>
    simp only [Option.some.injEq, forall_eq']
    cases setting with
    | null =>
      exact (levelOf_judged rule _).map.congr (by simp [byDefault, IsSetting.default]) (by simp)
    | str name =>
      refine (levelOf_judged rule name).map.congr ⟨?_, ?_⟩ (by simp)
      · rintro ⟨level, rfl⟩
        exact .level level
      · rintro ⟨⟩
        exact ⟨_, rfl⟩
    | table fields =>
      refine (levelOf_judged rule _).map.congr ⟨?_, ?_⟩ (by simp)
      · intro valid
        refine .table fun value hvalue => ?_
        simpa [hvalue] using valid
      · rintro ⟨⟩
        rename_i valid
        cases hlevel : Keyed.get? fields "level" with
        | none => exact byDefault
        | some value => exact valid value hlevel
    | bool b => exact judged_message nofun nofun (by simp)
    | int n => exact judged_message nofun nofun (by simp)
    | float x => exact judged_message nofun nofun (by simp)
    | list items => exact judged_message nofun nofun (by simp)

theorem mem_ruleIds {raw : Fields} {setting : Value} (h : Keyed.get? raw rule = some setting) :
    rule ∈ ruleIds raw := by
  have mem : rule ∈ raw.map Prod.fst := List.mem_map_of_mem (Keyed.mem_of_lookup h)
  simp only [ruleIds, List.mem_append, List.mem_filter]
  by_cases known : rule ∈ defaultLevels.map Prod.fst
  · exact .inl known
  · exact .inr ⟨mem, by simpa using known⟩

theorem resolveRules_judged (raw : Fields) :
    Judged (resolveRules raw)
      (∀ rule setting, Keyed.get? raw rule = some setting → IsSetting setting)
      fun _ => False := by
  refine (judged_mapM (ruleIds raw) fun rule => (ruleConfig_judged rule _).map).congr
    ⟨fun valid rule setting h => valid rule (mem_ruleIds h) setting h,
      fun valid rule _ => valid rule⟩ (by simp)

theorem rules_judged (merged : Fields) :
    Judged (rawRules merged >>= resolveRules) (RulesSound merged) (RulesMisused merged) := by
  unfold rawRules
  cases hgiven : given? merged "rules" with
  | none =>
    rw [ok_bind]
    exact (resolveRules_judged []).congr (by simp [RulesSound, hgiven, Keyed.get?])
      (by simp [RulesMisused, hgiven])
  | some value =>
    cases value with
    | table raw =>
      rw [ok_bind]
      exact (resolveRules_judged raw).congr (by simp [RulesSound, hgiven])
        (by simp [RulesMisused, hgiven])
    | _ =>
      exact judged_fault (by simp [RulesSound, hgiven]) (by simp [RulesMisused, hgiven])

/-! ### The patterns -/

/-- Lists, texts and tables can be gone through. -/
def HasItems : Value → Prop
  | .list _ | .str _ | .table _ => True
  | _ => False

/-- The scanner is given as a table, with patterns that can be gone through. -/
def PatternsSound (merged : Fields) (key : String) : Prop :=
  ∀ value, given? merged "scanner" = some value → ∃ scanner, value = .table scanner ∧
    ∀ items, given? scanner key = some items → HasItems items

/-- What is given for the scanner is no table, or what is given for the patterns has no items. -/
def PatternsMisused (merged : Fields) (key : String) (fault : Fault) : Prop :=
  (fault = .noFields ∧
    ∃ value, given? merged "scanner" = some value ∧ ∀ scanner, value ≠ .table scanner) ∨
  (fault = .wrongType ∧ ∃ scanner items, given? merged "scanner" = some (.table scanner) ∧
    given? scanner key = some items ∧ ¬ HasItems items)

theorem itemsOf_judged (value : Value) :
    Judged (itemsOf value) (HasItems value) fun fault => fault = .wrongType ∧ ¬ HasItems value := by
  cases value with
  | list items => exact judged_ok _ trivial (by simp [HasItems])
  | str s => exact judged_ok _ trivial (by simp [HasItems])
  | table fields => exact judged_ok _ trivial (by simp [HasItems])
  | _ => exact judged_fault (by simp [HasItems]) (by simp [HasItems])

theorem patterns_judged (merged : Fields) (key : String) (default : List String) :
    Judged (patterns merged key default) (PatternsSound merged key)
      (PatternsMisused merged key) := by
  unfold patterns
  cases hgiven : given? merged "scanner" with
  | none =>
    exact judged_ok _ (by simp [PatternsSound, hgiven]) (by simp [PatternsMisused, hgiven])
  | some value =>
    cases value with
    | table scanner =>
      dsimp only
      cases hitems : given? scanner key with
      | none =>
        exact judged_ok _ (by simp [PatternsSound, hgiven, hitems])
          (by simp [PatternsMisused, hgiven, hitems])
      | some items =>
        exact (itemsOf_judged items).congr (by simp [PatternsSound, hgiven, hitems])
          (by simp [PatternsMisused, hgiven, hitems])
    | _ =>
      exact judged_fault (by simp [PatternsSound, hgiven]) (by simp [PatternsMisused, hgiven])

/-! ### The configuration -/

/-- All values that count are what they are taken for. -/
structure Sound (flags : Flags) (merged : Fields) : Prop where
  provider : ProviderSound flags.provider merged
  rules : RulesSound merged
  included : PatternsSound merged "include"
  excluded : PatternsSound merged "exclude"

/-- The first bad value is used as something that it is not. -/
inductive Misused (flags : Flags) (merged : Fields) (fault : Fault) : Prop
  | provider (misused : ProviderMisused flags.provider merged fault)
  | rules (provider : ProviderSound flags.provider merged) (misused : RulesMisused merged fault)
  | included (provider : ProviderSound flags.provider merged) (rules : RulesSound merged)
      (misused : PatternsMisused merged "include" fault)
  | excluded (provider : ProviderSound flags.provider merged) (rules : RulesSound merged)
      (included : PatternsSound merged "include") (misused : PatternsMisused merged "exclude" fault)

/-- How a resolution ends is told by the values, and does not depend on the environment. -/
theorem resolve_judged (file : Fields) (flags : Flags) (env : Provider.Environment) :
    Judged (resolve file flags env) (Sound flags (merge defaults file))
      (Misused flags (merge defaults file)) := by
  have settled (config : ResolvedConfig) : Judged (.ok config) True fun _ => False :=
    judged_ok config trivial (by simp)
  generalize hmerged : merge defaults file = merged
  have judged (make : Option Provider → List (String × RuleConfig) → List Value → List Value →
      ResolvedConfig) :=
    (resolveProvider_judged flags.provider merged env).bind fun provider _ =>
      (rules_judged merged).bind fun rules _ =>
        (patterns_judged merged "include" defaultInclude).bind fun included _ =>
          (patterns_judged merged "exclude" defaultExclude).bind fun excluded _ =>
            settled (make provider rules included excluded)
  simp only [bind_assoc] at judged
  unfold resolve
  rw [hmerged]
  refine (judged _).congr ⟨?_, ?_⟩ fun fault => ⟨?_, ?_⟩
  · rintro ⟨provider, rules, included, excluded, -⟩
    exact ⟨provider, rules, included, excluded⟩
  · rintro ⟨provider, rules, included, excluded⟩
    exact ⟨provider, rules, included, excluded, trivial⟩
  · rintro (misused | ⟨provider, misused | ⟨rules, misused | ⟨included, misused | ⟨-, ⟨⟩⟩⟩⟩⟩)
    · exact .provider misused
    · exact .rules provider misused
    · exact .included provider rules misused
    · exact .excluded provider rules included misused
  · rintro (misused | ⟨provider, misused⟩ | ⟨provider, rules, misused⟩ |
      ⟨provider, rules, included, misused⟩)
    · exact .inl misused
    · exact .inr ⟨provider, .inl misused⟩
    · exact .inr ⟨provider, .inr ⟨rules, .inl misused⟩⟩
    · exact .inr ⟨provider, .inr ⟨rules, .inr ⟨included, .inl misused⟩⟩⟩

end JsxAudit.Config
