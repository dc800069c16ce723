import JsxAudit.Rule.Registry
import JsxAudit.Proofs.Config.Merge
import JsxAudit.Proofs.Config.Misuse
import JsxAudit.Proofs.Data.Outcome

/-!
What wins in a configuration.

A resolved configuration is told by three sources. A flag wins over the file, and the file over what
is found or set by default (`Wins`). The setting of a rule says all about its entry (`Gives`): the
entry of a rule that the file does not set is the default one, and no setting of another rule
matters for it. `resolve_precedence` collects this for all files, flags and environments.
-/

namespace JsxAudit.Config

open Audit Data

variable {base file merged raw : Fields} {id key : String} {rules : List (String × RuleConfig)}
  {flags : Flags} {env : Provider.Environment} {c : ResolvedConfig}

/-! ### Settings of rules -/

/-- The fields that a file has in a table. -/
def tableAt (file : Fields) (key : String) : Fields :=
  match Keyed.get? file key with
  | some (.table fields) => fields
  | _ => []

/-- What a file says of a rule. -/
def setting? (file : Fields) (id : String) : Option Value :=
  Keyed.get? (tableAt file "rules") id

/-- The entry that a rule gets by its setting. A table overrides the options it names and the level
if it names one. -/
inductive Gives (id : String) (config : RuleConfig) : Option Value → Prop
  | unmentioned (level : config.level.name = defaultLevel id)
      (options : config.options = defaultOptions id) : Gives id config none
  | null (level : config.level.name = defaultLevel id)
      (options : config.options = defaultOptions id) : Gives id config (some .null)
  | name {name : String} (level : config.level.name = name)
      (options : config.options = defaultOptions id) : Gives id config (some (.str name))
  | table {fields : Fields}
      (level : config.level.name =
        ((Keyed.get? fields "level").map Value.plain).getD (defaultLevel id))
      (named : ∀ option value, option ≠ "level" → Keyed.get? fields option = some value →
        config.options.lookup option = some value.isTruthy)
      (others : ∀ option, option = "level" ∨ Keyed.get? fields option = none →
        config.options.lookup option = (defaultOptions id).lookup option) :
      Gives id config (some (.table fields))

theorem level_of_levelOf {name : String} {level : RuleLevel} (h : levelOf id name = .ok level) :
    level.name = name := by
  unfold levelOf at h
  split at h
  · rename_i found
    cases h
    exact (level_name_of_ofName? found).symm
  · cases h

/-- The options that a table names. -/
def namedOptions (fields : Fields) : Keyed Bool :=
  (fields.filter (·.1 ≠ "level")).map fun field => (field.1, field.2.isTruthy)

section namedOptions

variable {fields : Fields} (nodup : (fields.map (·.1)).Nodup) (options : Keyed Bool)
  (option : String)

theorem mem_namedOptions {option : String} {value : Bool} :
    (option, value) ∈ namedOptions fields ↔
      option ≠ "level" ∧ ∃ v, (option, v) ∈ fields ∧ v.isTruthy = value := by
  simp only [namedOptions, List.mem_map, List.mem_filter, Prod.exists, Prod.mk.injEq,
    decide_eq_true_eq]
  constructor
  · rintro ⟨_, v, ⟨mem, other⟩, rfl, same⟩
    exact ⟨other, v, mem, same⟩
  · rintro ⟨other, v, mem, same⟩
    exact ⟨option, v, ⟨mem, other⟩, rfl, same⟩

include nodup

theorem nodup_namedOptions : ((namedOptions fields).map (·.1)).Nodup := by
  have kept : ((fields.filter (·.1 ≠ "level")).map (·.1)).Nodup :=
    nodup.sublist (List.Sublist.map _ List.filter_sublist)
  simpa [namedOptions, Function.comp_def] using kept

theorem get?_namedOptions : Keyed.get? (namedOptions fields) option =
    if option = "level" then none else (Keyed.get? fields option).map Value.isTruthy := by
  refine Option.ext fun value => ⟨fun found => ?_, fun found => ?_⟩
  · obtain ⟨other, v, known, rfl⟩ := mem_namedOptions.mp (Keyed.mem_of_lookup found)
    rw [if_neg other, Keyed.get?_of_mem nodup known]
    rfl
  · split at found
    · cases found
    · rename_i other
      obtain ⟨v, known, rfl⟩ := Option.map_eq_some_iff.mp found
      exact Keyed.get?_of_mem (nodup_namedOptions nodup)
        (mem_namedOptions.mpr ⟨other, v, Keyed.mem_of_lookup known, rfl⟩)

/-- The options of a table are an update of the default ones. -/
theorem get?_options :
    Keyed.get? ((fields.filter (·.1 ≠ "level")).foldl
        (fun options (key, option) => Keyed.set key option.isTruthy options) options) option =
      if option = "level" then Keyed.get? options option
      else ((Keyed.get? fields option).map Value.isTruthy).or (Keyed.get? options option) := by
  have updated : (fields.filter (·.1 ≠ "level")).foldl
      (fun options (key, option) => Keyed.set key option.isTruthy options) options =
      Keyed.update options (namedOptions fields) := by
    rw [Keyed.update, namedOptions, List.foldl_map]
  rw [updated, Keyed.get?_update, Keyed.get?_reverse (nodup_namedOptions nodup),
    get?_namedOptions nodup]
  split <;> rfl

end namedOptions

/-- A setting that is accepted gives the rule its entry. -/
theorem gives_of_ruleConfig {setting : Option Value}
    (named : ∀ fields, setting = some (.table fields) → (fields.map (·.1)).Nodup)
    {config : RuleConfig} (h : ruleConfig id setting = .ok config) : Gives id config setting := by
  have level {name : String} {options : List (String × Bool)}
      (h : (do return ⟨← levelOf id name, options⟩) = Except.ok config) :
      config.level.name = name ∧ config.options = options := by
    cases found : levelOf id name with
    | error e =>
      rw [found] at h
      cases h
    | ok level =>
      rw [found] at h
      cases h
      exact ⟨level_of_levelOf found, rfl⟩
  cases setting with
  | none => exact .unmentioned (level h).1 (level h).2
  | some setting =>
    cases setting with
    | null => exact .null (level h).1 (level h).2
    | str name => exact .name (level h).1 (level h).2
    | table fields =>
      obtain ⟨level, options⟩ := level h
      have lookup (option : String) := get?_options (named fields rfl) (defaultOptions id) option
      rw [← options] at lookup
      refine .table level (fun option value other found => ?_) fun option none => ?_
      · have said := lookup option
        rw [if_neg other, found] at said
        exact said
      · refine (lookup option).trans ?_
        split
        · rfl
        · rename_i other
          rw [none.resolve_left other]
          rfl
    | _ => cases h

/-! ### Values of the file -/

theorem namedOnce_tableAt (named : Json.NamedOnce (.table file)) (key : String) :
    Json.NamedOnce (.table (tableAt file key)) := by
  unfold tableAt
  split
  · rename_i found
    exact named.get? found
  · exact .table nofun .nil

theorem given?_eq_some {value : Value} (h : Keyed.get? file key = some value) :
    given? file key = if value.isTruthy then some value else none := by
  rw [given?, h, Option.filter_some]

theorem given?_eq_none (h : Keyed.get? file key = none) : given? file key = none := by
  rw [given?, h, Option.filter_none]

/-- Where there is no table before, a value of the file counts if it is given, and otherwise it may
be the one before. -/
theorem given?_merge (nodup : (file.map (·.1)).Nodup)
    (plain : ∀ old, Keyed.get? base key ≠ some (.table old)) :
    given? (merge base file) key = given? file key ∨
      given? file key = none ∧ given? (merge base file) key = given? base key := by
  have found := get?_merge nodup base key
  cases said : Keyed.get? file key with
  | none =>
    rw [said] at found
    exact .inr ⟨given?_eq_none said, congrArg (Option.filter _) found⟩
  | some value =>
    rw [said] at found
    cases value with
    | null => exact .inr ⟨given?_eq_some said, congrArg (Option.filter _) found⟩
    | _ =>
      have top := found.trans (mergedValue_of_plain plain nofun)
      exact .inl (congrArg (Option.filter _) (top.trans said.symm))

theorem isTruthy_update {old : Fields} (filled : old ≠ []) (new : Fields) :
    (Value.table (Keyed.update old new)).isTruthy = true := by
  have names := Keyed.names_prefix_update old new
  rw [Value.isTruthy, Bool.not_eq_true', List.isEmpty_eq_false_iff]
  intro none
  rw [none, List.map_nil, List.prefix_nil, List.map_eq_nil_iff] at names
  exact filled names

/-- A table before has the fields of the file on top, unless the file has something else there. -/
theorem given?_merge_table (nodup : (file.map (·.1)).Nodup) {old : Fields} (filled : old ≠ [])
    (before : Keyed.get? base key = some (.table old)) :
    given? (merge base file) key = some (.table (Keyed.update old (tableAt file key))) ∨
      tableAt file key = [] ∧ (given? (merge base file) key = none ∨
        ∃ value, given? (merge base file) key = some value ∧ ∀ fields, value ≠ .table fields) := by
  have counts (new : Fields)
      (found : Keyed.get? (merge base file) key = some (.table (Keyed.update old new))) :
      given? (merge base file) key = some (.table (Keyed.update old new)) := by
    rw [given?_eq_some found, if_pos (isTruthy_update filled new)]
  have found := get?_merge nodup base key
  rw [before] at found
  unfold tableAt
  cases said : Keyed.get? file key with
  | none =>
    rw [said] at found
    exact .inl (counts [] found)
  | some value =>
    rw [said] at found
    cases value with
    | null => exact .inl (counts [] found)
    | table new => exact .inl (counts new found)
    | _ =>
      refine .inr ⟨rfl, ?_⟩
      rw [given?_eq_some found]
      split
      · exact .inr ⟨_, rfl, nofun⟩
      · exact .inl rfl

/-! ### The table of rules -/

/-- The settings of the rules without a file. -/
def defaultSettings : Fields :=
  defaultLevels.map fun (rule, level) => (rule, .str level)

/-- A default setting says what no setting says. -/
theorem ruleConfig_default (id : String) :
    ruleConfig id (Keyed.get? defaultSettings id) = ruleConfig id none := by
  cases found : Keyed.get? defaultSettings id with
  | none => rfl
  | some setting =>
    obtain ⟨⟨rule, level⟩, mem, same⟩ := List.mem_map.mp (Keyed.mem_of_lookup found)
    cases same
    have once : (defaultLevels.map (·.1)).Nodup := by decide
    have default : defaultLevel id = level := by
      rw [defaultLevel, ← Keyed.get?, Keyed.get?_of_mem once mem]
      rfl
    rw [ruleConfig, ruleConfig, default]

/-- The settings that count are those of the file, and for other rules the default ones. -/
structure RawOf (file raw : Fields) : Prop where
  nodup : (raw.map (·.1)).Nodup
  get? : ∀ id, Keyed.get? raw id = (setting? file id).or (Keyed.get? defaultSettings id) ∨
    Keyed.get? raw id = none ∧ setting? file id = none

theorem rawOf_of_rawRules (named : Json.NamedOnce (.table file))
    (h : rawRules (merge defaults file) = .ok raw) : RawOf file raw := by
  have once : (defaultSettings.map (·.1)).Nodup := by decide
  have before : Keyed.get? defaults "rules" = some (.table defaultSettings) := rfl
  unfold rawRules at h
  rcases given?_merge_table named.nodup (by decide) before with
    given | ⟨empty, none | ⟨value, other, plain⟩⟩
  · rw [given] at h
    cases h
    refine ⟨Keyed.nodup_update _ _ once, fun id => .inl ?_⟩
    rw [Keyed.get?_update, Keyed.get?_reverse (namedOnce_tableAt named _).nodup]
    rfl
  · rw [none] at h
    cases h
    exact ⟨.nil, fun id => .inr ⟨rfl, by rw [setting?, empty]; rfl⟩⟩
  · rw [other] at h
    cases value with
    | table fields => exact (plain fields rfl).elim
    | _ => cases h

/-- The setting of a rule in the file decides about its entry. -/
theorem RawOf.ruleConfig (h : RawOf file raw) (id : String) :
    ruleConfig id (Keyed.get? raw id) = ruleConfig id (setting? file id) := by
  rcases h.get? id with found | ⟨none, silent⟩
  · rw [found]
    cases setting? file id with
    | none => exact ruleConfig_default id
    | some setting => rfl
  · rw [none, silent]

/-- The rule is known, or the file mentions it. -/
def Listed (file : Fields) (id : String) : Prop :=
  id ∈ defaultLevels.map (·.1) ∨ (setting? file id).isSome = true

theorem RawOf.mem_ruleIds (h : RawOf file raw) : id ∈ ruleIds raw ↔ Listed file id := by
  have known : (Keyed.get? defaultSettings id).isSome = true ↔ id ∈ defaultLevels.map (·.1) := by
    rw [Keyed.get?_isSome_iff, defaultSettings, List.map_map]
    rfl
  have mentioned : id ∈ raw.map (·.1) → id ∈ defaultLevels.map (·.1) ∨
      (setting? file id).isSome = true := by
    rw [← Keyed.get?_isSome_iff, ← known]
    intro some
    rcases h.get? id with found | ⟨none, -⟩
    · rw [found, Option.isSome_or, Bool.or_eq_true] at some
      exact some.symm
    · rw [none] at some
      cases some
  have said : (setting? file id).isSome = true → id ∈ raw.map (·.1) := by
    rw [← Keyed.get?_isSome_iff]
    intro some
    rcases h.get? id with found | ⟨-, silent⟩
    · rw [found, Option.isSome_or, some, Bool.true_or]
    · rw [silent] at some
      cases some
  simp only [ruleIds, List.mem_append, List.mem_filter, Listed]
  constructor
  · rintro (known | ⟨mem, -⟩)
    · exact .inl known
    · exact mentioned mem
  · rintro (known | some)
    · exact .inl known
    · by_cases known : id ∈ defaultLevels.map (·.1)
      · exact .inl known
      · exact .inr ⟨said some, by simpa using known⟩

theorem nodup_ruleIds (h : (raw.map (·.1)).Nodup) : (ruleIds raw).Nodup := by
  have once : (defaultLevels.map Prod.fst).Nodup := by decide
  refine List.nodup_append.mpr ⟨once, h.sublist List.filter_sublist, ?_⟩
  intro a known b mem same
  have new := (List.mem_filter.mp mem).2
  rw [← same] at new
  simp only [Bool.not_eq_true', List.contains_eq_mem, decide_eq_false_iff_not] at new
  exact new known

/-- The entries are made one by one of the settings. -/
structure EntriesOf (file : Fields) (rules : List (String × RuleConfig)) : Prop where
  nodup : (rules.map (·.1)).Nodup
  entry : ∀ {id}, Listed file id →
    ∃ config, rules.lookup id = some config ∧ ruleConfig id (setting? file id) = .ok config
  absent : ∀ {id}, ¬ Listed file id → rules.lookup id = none

theorem entriesOf_of_resolveRules (h : RawOf file raw) (ran : resolveRules raw = .ok rules) :
    EntriesOf file rules := by
  have names : rules.map (·.1) = ruleIds raw := by
    have same : List.Forall₂ (fun id pair => id = pair.1) (ruleIds raw) rules :=
      (forall₂_of_mapM ran).imp fun id pair eq => by
        obtain ⟨config, -, eq⟩ := exists_of_bind_eq_ok eq
        cases eq
        rfl
    rw [← List.forall₂_map_right_iff, List.forall₂_eq_eq_eq] at same
    exact same.symm
  have each : ∀ pair ∈ rules, Config.ruleConfig pair.1 (setting? file pair.1) = .ok pair.2 := by
    intro pair mem
    obtain ⟨id, -, eq⟩ := exists_of_mem_mapM ran mem
    obtain ⟨config, found, eq⟩ := exists_of_bind_eq_ok eq
    cases eq
    exact h.ruleConfig id ▸ found
  have nodup : (rules.map (·.1)).Nodup := names ▸ nodup_ruleIds h.nodup
  refine ⟨nodup, fun {id} listed => ?_, fun {id} unlisted => ?_⟩
  · obtain ⟨pair, mem, rfl⟩ := List.mem_map.mp (names.symm ▸ h.mem_ruleIds.mpr listed)
    exact ⟨pair.2, Keyed.get?_of_mem nodup mem, each pair mem⟩
  · rw [← h.mem_ruleIds, ← names, ← Keyed.get?_isSome_iff, Option.not_isSome_iff_eq_none] at unlisted
    exact unlisted

/-- What the rule is set to in the end, also where there is no entry for it. -/
theorem EntriesOf.gives (h : EntriesOf file c.rules) (named : Json.NamedOnce (.table file))
    (id : String) : Gives id (c.rule id) (setting? file id) := by
  have inner (fields : Fields) (found : setting? file id = some (.table fields)) :
      (fields.map (·.1)).Nodup := by
    cases namedOnce_tableAt named "rules" with
    | table inner _ => exact (inner _ (Keyed.mem_of_lookup found)).nodup
  unfold ResolvedConfig.rule
  by_cases listed : Listed file id
  · obtain ⟨config, found, made⟩ := h.entry listed
    rw [found]
    exact gives_of_ruleConfig inner made
  · rw [h.absent listed]
    rw [Listed, not_or, Option.not_isSome_iff_eq_none] at listed
    obtain ⟨level, default⟩ := exists_defaultLevel id
    rw [listed.2, default, level_ofName?_name]
    exact .unmentioned default.symm rfl

/-- Entries depend on nothing but the setting of their own rule. -/
theorem EntriesOf.lookup_eq {file' : Fields} {rules' : List (String × RuleConfig)}
    (h : EntriesOf file rules) (h' : EntriesOf file' rules')
    (same : setting? file' id = setting? file id) : rules'.lookup id = rules.lookup id := by
  have listed_iff : Listed file' id ↔ Listed file id := by rw [Listed, same, Listed]
  by_cases listed : Listed file id
  · obtain ⟨config, found, made⟩ := h.entry listed
    obtain ⟨config', found', made'⟩ := h'.entry (listed_iff.mpr listed)
    rw [same, made] at made'
    cases made'
    rw [found, found']
  · rw [h.absent listed, h'.absent (listed_iff.not.mpr listed)]

/-! ### What wins -/

/-- A flag that is not given, or empty. -/
def Unset (flag : Option String) : Prop :=
  ∀ text, flag = some text → text = ""

/-- A flag that is not empty is taken, else the value that the file gives. -/
structure Wins (flag : Option String) (said : Option Value) (taken : Value → Prop)
    (otherwise : Prop) : Prop where
  byFlag : ∀ text, flag = some text → text ≠ "" → taken (.str text)
  byFile : Unset flag → ∀ value, said = some value → taken value
  byDefault : Unset flag → said = none → otherwise

theorem wins_of_first {flag : Option String} {said : Option Value} {taken : Value → Prop}
    {otherwise : Prop}
    (some : ∀ value, ((flag.filter (· != "")).map Value.str).or said = some value → taken value)
    (none : ((flag.filter (· != "")).map Value.str).or said = none → otherwise) :
    Wins flag said taken otherwise := by
  have unset (h : Unset flag) : flag.filter (· != "") = .none := by
    cases flag with
    | none => rfl
    | some text => rw [h text rfl, Option.filter_some]; rfl
  refine ⟨fun text given filled => some _ ?_, fun h value said => some _ ?_, fun h said => none ?_⟩
  · rw [given, Option.filter_some, if_pos (by simpa using filled)]
    rfl
  · rw [unset h, said]
    rfl
  · rw [unset h, said]
    rfl

theorem providerOf_eq_ok {value : Value} {p : Provider} (h : providerOf value = .ok p) :
    value = .str p.name := by
  cases value with
  | str name =>
    simp only [providerOf] at h
    split at h
    · rename_i found
      cases h
      rw [name_of_ofName? found]
    · cases h
  | _ => cases h

theorem wins_resolveProvider (nodup : (file.map (·.1)).Nodup) {flag : Option String}
    {provider : Option Provider}
    (h : resolveProvider flag (merge defaults file) env = .ok provider) :
    Wins flag (given? file "provider")
      (fun value => ∃ p, provider = some p ∧ value = .str p.name)
      (provider = Provider.detect? env) := by
  have before : Keyed.get? defaults "provider" = none := rfl
  have said : given? (merge defaults file) "provider" = given? file "provider" := by
    have plain : ∀ old, Keyed.get? defaults "provider" ≠ some (.table old) := by simp [before]
    rcases given?_merge nodup plain with same | ⟨none, same⟩
    · exact same
    · rw [same, none, given?_eq_none before]
  rw [resolveProvider, said] at h
  refine wins_of_first (fun value first => ?_) fun first => ?_
  · rw [first] at h
    dsimp only at h
    cases found : providerOf value with
    | error e =>
      rw [found] at h
      cases h
    | ok p =>
      rw [found] at h
      cases h
      exact ⟨p, rfl, providerOf_eq_ok found⟩
  · rw [first] at h
    cases h
    rfl

/-- The text that is there by default, if there is one, is the one that is taken in the end. -/
theorem wins_textOf (nodup : (file.map (·.1)).Nodup) (flag : Option String) {default : String}
    (before : Keyed.get? defaults key = none ∨ Keyed.get? defaults key = some (.str default)) :
    Wins flag (given? file key)
      (fun value => textOf flag (merge defaults file) key default = value.plain)
      (textOf flag (merge defaults file) key default = default) := by
  have plain : ∀ old, Keyed.get? defaults key ≠ some (.table old) := by
    rcases before with none | some
    · simp [none]
    · simp [some]
  have said : ((given? (merge defaults file) key).map Value.plain).getD default =
      ((given? file key).map Value.plain).getD default := by
    rcases given?_merge nodup plain with same | ⟨absent, same⟩
    · rw [same]
    · rw [same, absent]
      rcases before with none | some
      · rw [given?_eq_none none]
      · rw [given?_eq_some some]
        split <;> rfl
  have first : textOf flag (merge defaults file) key default =
      ((((flag.filter (· != "")).map Value.str).or (given? file key)).map Value.plain).getD
        default := by
    rw [textOf, said]
    cases flag.filter (· != "") <;> rfl
  refine wins_of_first (fun value some => ?_) fun none => ?_
  · rw [first, some]
    rfl
  · rw [first, none]
    rfl

/-- The patterns that a file gives the scanner. -/
def listed? (file : Fields) (key : String) : Option Value :=
  given? (tableAt file "scanner") key

/-- The patterns of the scanner without a file. -/
def defaultScanner : Fields :=
  [("include", texts defaultInclude), ("exclude", texts defaultExclude)]

/-- A value on top of a default one is taken if it is given. -/
theorem getD_given?_update {old new : Fields} (nodup : (new.map (·.1)).Nodup) {value : Value}
    (before : Keyed.get? old key = some value) :
    (given? (Keyed.update old new) key).getD value = (given? new key).getD value := by
  have found := Keyed.get?_update old new key
  rw [Keyed.get?_reverse nodup, before] at found
  cases said : Keyed.get? new key with
  | none =>
    rw [said, Option.none_or] at found
    rw [given?_eq_none said, given?_eq_some found]
    split <;> rfl
  | some top =>
    rw [said, Option.some_or] at found
    rw [given?_eq_some said, given?_eq_some found]

/-- Each of the two lists of patterns is taken from the file, or else it is the default one. -/
theorem itemsOf_listed? (named : Json.NamedOnce (.table file)) {default : List String}
    {items : List Value} (before : Keyed.get? defaultScanner key = some (texts default))
    (h : patterns (merge defaults file) key default = .ok items) :
    itemsOf ((listed? file key).getD (texts default)) = .ok items := by
  have table : Keyed.get? defaults "scanner" = some (.table defaultScanner) := rfl
  unfold patterns at h
  rcases given?_merge_table named.nodup (by simp [defaultScanner]) table with
    given | ⟨empty, none | ⟨value, other, plain⟩⟩
  · rw [given] at h
    rw [listed?, ← getD_given?_update (namedOnce_tableAt named _).nodup before, ← h]
    dsimp only
    split
    · rename_i none
      rw [none]
      rfl
    · rename_i some
      rw [some]
      rfl
  · rw [none] at h
    rwa [listed?, empty]
  · rw [other] at h
    cases value with
    | table fields => exact (plain fields rfl).elim
    | _ => cases h

theorem wins_patterns (named : Json.NamedOnce (.table file)) {default : List String}
    {items : List Value} (before : Keyed.get? defaultScanner key = some (texts default))
    (h : patterns (merge defaults file) key default = .ok items) :
    Wins none (listed? file key) (itemsOf · = .ok items) (items = default.map .str) := by
  have taken := itemsOf_listed? named before h
  refine wins_of_first (fun value some => ?_) fun none => ?_
  · rwa [show listed? file key = .some value from some] at taken
  · rw [show listed? file key = .none from none] at taken
    cases taken
    rfl

/-! ### The configuration -/

/-- A resolution that succeeds has gone through all its steps. -/
structure ResolvedFrom (merged : Fields) (flags : Flags) (env : Provider.Environment)
    (c : ResolvedConfig) : Prop where
  provider : resolveProvider flags.provider merged env = .ok c.provider
  rules : ∃ raw, rawRules merged = .ok raw ∧ resolveRules raw = .ok c.rules
  included : patterns merged "include" defaultInclude = .ok c.included
  excluded : patterns merged "exclude" defaultExclude = .ok c.excluded
  model : c.model = textOf flags.model merged "model"
    ((c.provider.map Provider.defaultModel).getD fallbackModel)
  locale : c.locale = textOf flags.locale merged "locale" defaultLocale
  cacheDir : c.cacheDir = textOf none merged "cache" defaultCacheDir
  flags : c.fix = flags.fix ∧ c.noAi = flags.noAi ∧ c.minScore = flags.minScore

theorem resolvedFrom_of_resolve (h : resolve file flags env = .ok c) :
    ResolvedFrom (merge defaults file) flags env c := by
  unfold resolve at h
  obtain ⟨provider, providerRan, h⟩ := exists_of_bind_eq_ok h
  obtain ⟨raw, rawRan, h⟩ := exists_of_bind_eq_ok h
  obtain ⟨rules, rulesRan, h⟩ := exists_of_bind_eq_ok h
  obtain ⟨included, includedRan, h⟩ := exists_of_bind_eq_ok h
  obtain ⟨excluded, excludedRan, h⟩ := exists_of_bind_eq_ok h
  cases h
  exact ⟨providerRan, ⟨raw, rawRan, rulesRan⟩, includedRan, excludedRan, rfl, rfl, rfl,
    rfl, rfl, rfl⟩

/-- What a configuration takes from where. -/
structure Precedence (file : Fields) (flags : Flags) (env : Provider.Environment)
    (c : ResolvedConfig) : Prop where
  /-- No rule has two entries, and every rule has one. -/
  once : (c.rules.map (·.1)).Nodup
  all : ∀ r ∈ Rule.all, r.id ∈ c.rules.map (·.1)
  rule : ∀ id, Gives id (c.rule id) (setting? file id)
  provider : Wins flags.provider (given? file "provider")
    (fun value => ∃ p, c.provider = some p ∧ value = .str p.name)
    (c.provider = Provider.detect? env)
  model : Wins flags.model (given? file "model") (c.model = ·.plain)
    (c.model = (c.provider.map Provider.defaultModel).getD fallbackModel)
  locale : Wins flags.locale (given? file "locale") (c.locale = ·.plain)
    (c.locale = defaultLocale)
  cacheDir : Wins none (given? file "cache") (c.cacheDir = ·.plain) (c.cacheDir = defaultCacheDir)
  included : Wins none (listed? file "include") (itemsOf · = .ok c.included)
    (c.included = defaultInclude.map .str)
  excluded : Wins none (listed? file "exclude") (itemsOf · = .ok c.excluded)
    (c.excluded = defaultExclude.map .str)
  flags : c.fix = flags.fix ∧ c.noAi = flags.noAi ∧ c.minScore = flags.minScore

theorem id_mem_defaultLevels {r : Rule} (h : r ∈ Rule.all) : r.id ∈ defaultLevels.map (·.1) := by
  have ids : ∀ id ∈ Rule.all.map Rule.id, id ∈ defaultLevels.map (·.1) := by decide
  exact ids _ (List.mem_map_of_mem h)

theorem entriesOf_of_resolve (named : Json.NamedOnce (.table file))
    (h : resolve file flags env = .ok c) : EntriesOf file c.rules := by
  obtain ⟨raw, rawRan, rulesRan⟩ := (resolvedFrom_of_resolve h).rules
  exact entriesOf_of_resolveRules (rawOf_of_rawRules named rawRan) rulesRan

theorem precedence_of_resolve (named : Json.NamedOnce (.table file))
    (h : resolve file flags env = .ok c) : Precedence file flags env c := by
  have nodup := named.nodup
  have entries := entriesOf_of_resolve named h
  have steps := resolvedFrom_of_resolve h
  exact {
    once := entries.nodup
    all := fun r mem => by
      obtain ⟨config, found, -⟩ := entries.entry (.inl (id_mem_defaultLevels mem))
      exact List.mem_map_of_mem (Keyed.mem_of_lookup found)
    rule := entries.gives named
    provider := wins_resolveProvider nodup steps.provider
    model := steps.model ▸ wins_textOf nodup flags.model (.inl rfl)
    locale := steps.locale ▸ wins_textOf nodup flags.locale (.inr rfl)
    cacheDir := steps.cacheDir ▸ wins_textOf nodup none (.inr rfl)
    included := wins_patterns named rfl steps.included
    excluded := wins_patterns named rfl steps.excluded
    flags := steps.flags }

/-- Whatever a file says, as long as its tables name each field once, a configuration takes its
values by precedence. A file with other settings of one rule leaves the entries of all other rules as
they are, with whatever flags and environment, and to merge a file once more changes nothing. -/
theorem resolve_precedence (named : Json.NamedOnce (.table file))
    (h : resolve file flags env = .ok c) :
    Precedence file flags env c ∧
      (∀ file' flags' env' c' id, Json.NamedOnce (.table file') →
        resolve file' flags' env' = .ok c' →
        (∀ other, other ≠ id → setting? file' other = setting? file other) →
        ∀ other, other ≠ id → c'.rules.lookup other = c.rules.lookup other) ∧
      ∀ base, merge (merge base file) file = merge base file := by
  refine ⟨precedence_of_resolve named h, fun file' flags' env' c' id named' h' same other ne => ?_,
    merge_merge named⟩
  have entries := entriesOf_of_resolve named h
  exact entries.lookup_eq (entriesOf_of_resolve named' h') (same other ne)

/-- An empty flag, a table of options without a level, and a second file that does not set the
rule. -/
theorem resolve_precedence_mixed :
    let others : Fields := [("heading-order", .str "off"), ("link-label", .null)]
    let rules : Fields := ("img-alt", .table [("fillAlt", .bool false)]) :: others
    let file : Fields := [("provider", .str "google"), ("locale", .str ""),
      ("scanner", .table [("include", .list [.str "src"])]), ("rules", .table rules)]
    let flags : Flags := { provider := some "", model := some "gpt-4o" }
    let env : Provider.Environment := [("OPENAI_API_KEY", "k")]
    ∃ c c', resolve file flags env = .ok c ∧ resolve [("rules", .table others)] {} [] = .ok c' ∧
      c.provider.map Provider.name = some "google" ∧ c.model = "gpt-4o" ∧ c.locale = "en" ∧
      .ok c.included = itemsOf (.list [.str "src"]) ∧ c.excluded = defaultExclude.map .str ∧
      (c.rule "img-alt").level.name = "fix" ∧
      (c.rule "img-alt").options.lookup "fillAlt" = some false ∧
      (∀ id, id ≠ "img-alt" → c'.rules.lookup id = c.rules.lookup id) ∧
      merge (merge defaults file) file = merge defaults file := by
  intro others rules file flags env
  have option : Json.NamedOnce (.table [("fillAlt", .bool false)]) :=
    .table (by simp [Json.NamedOnce.bool]) (by decide)
  have shared : Json.NamedOnce (.table others) :=
    .table (by simp [others, Json.NamedOnce.str, Json.NamedOnce.null]) (by decide)
  have all : Json.NamedOnce (.table rules) := by
    refine .table ?_ (by decide)
    simp [rules, others, option, Json.NamedOnce.str, Json.NamedOnce.null]
  have scanner : Json.NamedOnce (.table [("include", .list [.str "src"])]) :=
    .table (by simpa using .list (by simp [Json.NamedOnce.str])) (by decide)
  have named : Json.NamedOnce (.table file) :=
    .table (by simp [file, all, scanner, Json.NamedOnce.str]) (by decide)
  have named' : Json.NamedOnce (.table [("rules", .table others)]) :=
    .table (by simp [shared]) (by decide)
  have same : ∀ id, id ≠ "img-alt" →
      setting? [("rules", .table others)] id = setting? file id := by
    intro id ne
    have skipped : List.lookup id rules = List.lookup id others := by
      simp only [rules, List.lookup_cons, beq_eq_false_iff_ne.mpr ne]
    exact skipped.symm
  obtain ⟨c, ran⟩ : ∃ c, resolve file flags env = .ok c := ⟨_, rfl⟩
  obtain ⟨c', ran'⟩ : ∃ c', resolve [("rules", .table others)] {} [] = .ok c' := ⟨_, rfl⟩
  obtain ⟨precedence, apart, again⟩ := resolve_precedence named ran
  have empty : Unset flags.provider := fun text given => (Option.some.inj given).symm
  obtain ⟨p, provider, name⟩ := precedence.provider.byFile empty (.str "google") rfl
  have imgAlt : Gives "img-alt" (c.rule "img-alt") (some (.table [("fillAlt", .bool false)])) :=
    precedence.rule "img-alt"
  cases imgAlt with
  | table level named _ =>
    refine ⟨c, c', ran, ran', ?_, precedence.model.byFlag _ rfl (by decide),
      precedence.locale.byDefault nofun rfl,
      (precedence.included.byFile nofun (.list [.str "src"]) rfl).symm,
      precedence.excluded.byDefault nofun rfl, level,
      named "fillAlt" (.bool false) (by decide) rfl,
      apart _ {} [] c' "img-alt" named' ran' same, again defaults⟩
    rw [provider, Value.str.inj name]
    rfl

end JsxAudit.Config
