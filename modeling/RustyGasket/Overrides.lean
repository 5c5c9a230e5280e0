import RustyGasket.Config

/-!
# Which override table applies, and to what

`resolve` selects a table by the spelling of the environment it was given or by the
canonical name, and merges it into the flattened sections alone.
-/

namespace RustyGasket

/-- The text resolution parses: `GASKET_ENV`, or else the `env` field. -/
def environmentText (vars : ProcessEnv) (field : Option String) : String :=
  ((vars "GASKET_ENV").or field).getD "local"

/-- The override table of an environment, selected as `text`. -/
def selectedTable (environments : Sections) (text : String) (env : Environment) : Option Json :=
  (environments text).or (environments env.toText)

def applyOverrides (sections : Sections) : Option Json → Sections
  | some (.object obj) => overrideSections sections obj
  | _ => sections

theorem AppConfigDefinition.resolve_eq {vars : ProcessEnv} (definition : AppConfigDefinition)
    {env : Environment}
    (parsed : Environment.fromText (environmentText vars definition.env) = some env) :
    definition.resolve vars = .ok ⟨definition.name, env, definition.server,
      applyOverrides definition.extra (selectedTable definition.environments
        (environmentText vars definition.env) env)⟩ := by
  unfold environmentText at parsed
  simp only [resolve, parsed]
  rfl

/-- What an override makes of a section. -/
def mergedSection (existing : Option Json) (value : Json) : Json :=
  match existing with
  | some existing => Json.deepMergeJson existing value
  | none => value

theorem overrideSections_apply {obj : List (String × Json)} (distinct : (obj.map Prod.fst).Nodup)
    (sections : Sections) (key : String) :
    overrideSections sections obj key =
      ((Json.lookupField key obj).map (mergedSection (sections key))).or (sections key) := by
  induction obj generalizing sections with
  | nil => rfl
  | cons field rest ih =>
    obtain ⟨k, v⟩ := field
    rw [List.map_cons, List.nodup_cons] at distinct
    rw [overrideSections, ih distinct.2, Json.lookupField]
    by_cases same : k = key
    · subst same
      rw [if_pos rfl, Json.lookupField_eq_none.mpr distinct.1, Function.update_self]
      cases sections k <;> rfl
    · rw [if_neg same, Function.update_of_ne (Ne.symm same)]

/-- An override that names only sections which hold what it says already. -/
def Idle (sections : Sections) : Json → Prop
  | .object obj => ∀ key value, Json.lookupField key obj = some value →
      ∃ existing, sections key = some existing ∧ Json.deepMergeJson existing value = existing
  | _ => True

theorem applyOverrides_eq_self {sections : Sections} {override : Json}
    (wellFormed : override.WellFormed) :
    applyOverrides sections (some override) = sections ↔ Idle sections override := by
  cases override with
  | object obj =>
    have each := overrideSections_apply wellFormed.distinct sections
    constructor
    · intro unchanged key value found
      have now := congrFun unchanged key
      rw [applyOverrides, each key, found] at now
      cases before : sections key with
      | none => simp [before] at now
      | some existing =>
        refine ⟨existing, rfl, ?_⟩
        simpa [before, mergedSection] using now
    · intro idle
      funext key
      rw [applyOverrides, each key]
      cases found : Json.lookupField key obj with
      | none => rfl
      | some value =>
        obtain ⟨existing, before, same⟩ := idle key value found
        simp [before, mergedSection, same]
  | _ => exact ⟨fun _ => trivial, fun _ => rfl⟩

/-! ## Spellings of one environment -/

def oneTable (table : String) (override : Json) : Sections :=
  Function.update (fun _ => none) table (some override)

/-- The document with `env` set to `field` and its one override table named `table`. -/
def AppConfigDefinition.spelled (definition : AppConfigDefinition) (field : Option String)
    (table : String) (override : Json) : AppConfigDefinition :=
  { definition with env := field, environments := oneTable table override }

/-- What resolution makes of the environment and the sections. -/
def AppConfigDefinition.resolved (vars : ProcessEnv) (definition : AppConfigDefinition) :
    Except String (Environment × Sections) :=
  (definition.resolve vars).map fun config => (config.env, config.sections)

/-- A table is looked up under the spelling in use and under the canonical name. -/
def Reaches (text table : String) (env : Environment) : Prop := table = text ∨ table = env.toText

instance (text table : String) (env : Environment) : Decidable (Reaches text table env) :=
  inferInstanceAs (Decidable (_ ∨ _))

theorem selectedTable_oneTable (text table : String) (override : Json) (env : Environment) :
    selectedTable (oneTable table override) text env =
      if Reaches text table env then some override else none := by
  simp only [selectedTable, oneTable, Function.update_apply, Reaches]
  grind

theorem resolved_spelled {vars : ProcessEnv} {definition : AppConfigDefinition}
    {field : Option String} {table : String} {override : Json} {env : Environment}
    (parsed : Environment.fromText (environmentText vars field) = some env) :
    (definition.spelled field table override).resolved vars = .ok (env,
      if Reaches (environmentText vars field) table env then
        applyOverrides definition.extra (some override)
      else definition.extra) := by
  rw [AppConfigDefinition.resolved,
    AppConfigDefinition.resolve_eq (definition.spelled field table override) parsed]
  simp only [Except.map, AppConfigDefinition.spelled, selectedTable_oneTable]
  split <;> rfl

/-- **Spellings are interchangeable, exactly** where both reach their table or neither
does, or where the override changes nothing. The tables may have any names. -/
theorem spellings_interchange_iff {vars vars' : ProcessEnv} {field field' : Option String}
    {table table' : String} {env : Environment} (definition : AppConfigDefinition)
    {override : Json} (wellFormed : override.WellFormed)
    (s : Environment.fromText (environmentText vars field) = some env)
    (s' : Environment.fromText (environmentText vars' field') = some env) :
    (definition.spelled field table override).resolved vars =
        (definition.spelled field' table' override).resolved vars' ↔
      (Reaches (environmentText vars field) table env ↔
        Reaches (environmentText vars' field') table' env) ∨
      Idle definition.extra override := by
  rw [resolved_spelled s, resolved_spelled s', ← applyOverrides_eq_self wellFormed]
  simp only [Except.ok.injEq, Prod.mk.injEq, true_and]
  by_cases reached : Reaches (environmentText vars field) table env
  · by_cases reached' : Reaches (environmentText vars' field') table' env
    · simp [reached, reached']
    · simp [reached, reached']
  · by_cases reached' : Reaches (environmentText vars' field') table' env
    · simp only [reached, reached', if_false, if_true, false_iff, not_true_eq_false, false_or]
      exact eq_comm
    · simp [reached, reached']

/-- A table `prod` that replaces the pool size. -/
def poolOverride : Json := .object [("pool", .number "50")]

theorem poolOverride_wellFormed : poolOverride.WellFormed := .single "pool" (.number "50")

def gasketEnv (spelling : String) : ProcessEnv :=
  fun name => if name = "GASKET_ENV" then some spelling else none

theorem poolOverride_interchange :
    (((AppConfigDefinition.default (gasketEnv "prod")).spelled none "prod" poolOverride).resolved
        (gasketEnv "prod") =
      ((AppConfigDefinition.default (gasketEnv "prod")).spelled (some "production") "production"
        poolOverride).resolved (fun _ => none) ↔
      (Reaches "prod" "prod" .production ↔ Reaches "production" "production" .production) ∨
      Idle (fun _ => none) poolOverride) :=
  spellings_interchange_iff (AppConfigDefinition.default (gasketEnv "prod"))
    poolOverride_wellFormed (show Environment.fromText (environmentText (gasketEnv "prod") none) =
      some .production from rfl) rfl

/-- Selected as `production`, a table named `prod` is ignored. -/
theorem prodTable_ignored :
    Environment.fromText "production" = Environment.fromText "prod" ∧
    ((AppConfigDefinition.default fun _ => none).spelled none "prod" poolOverride).resolved
        (gasketEnv "production") ≠
      ((AppConfigDefinition.default fun _ => none).spelled none "prod" poolOverride).resolved
        (gasketEnv "prod") := by
  refine ⟨rfl, fun same => ?_⟩
  have pool : false = true := congrArg (fun result => match result with
    | .ok (_, sections) => ((sections : Sections) "pool").isSome
    | .error (_ : String) => false) same
  cases pool

end RustyGasket
