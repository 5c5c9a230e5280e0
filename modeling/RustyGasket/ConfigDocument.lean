import RustyGasket.Overrides

/-!
# Reading a configuration document

`AppConfigDefinition` takes four keys of a document apart and flattens the others
into `extra`. An override is merged after the split, so one that names any of the
four is kept as a section of that name and never read.
-/

namespace RustyGasket

/-- The table a TOML or YAML file holds. -/
structure Document where
  fields : List (String × Json)
  wellFormed : (Json.object fields).WellFormed

namespace Document

def get (doc : Document) (key : String) : Option Json := Json.lookupField key doc.fields

def merge (base override : Document) : Document where
  fields := Json.mergeFields base.fields override.fields base.fields
  wellFormed := Json.deepMergeJson_wellFormed base.wellFormed override.wellFormed

theorem mergedVal_eq (base : Document) (key : String) (value : Json) :
    Json.mergedVal base.fields (key, value) = mergedSection (base.get key) value := by
  rw [Json.mergedVal_eq, get]
  cases Json.lookupField key base.fields with
  | none => rfl
  | some existing => rfl

theorem get_merge (base override : Document) (key : String) :
    (base.merge override).get key =
      ((override.get key).map (mergedSection (base.get key))).or (base.get key) := by
  have merged := Json.lookupField_mergeFields base.fields
    override.wellFormed.distinct base.fields key
  simp only [mergedVal_eq] at merged
  exact merged

theorem get_merge_of_unnamed {base override : Document} {key : String}
    (unnamed : override.get key = none) : (base.merge override).get key = base.get key := by
  rw [get_merge, unnamed]
  rfl

end Document

/-! ## `Deserialize` -/

/-- The four keys with a field of their own. -/
def typedKeys : List String := ["name", "env", "server", "environments"]

/-- What the parser of a file format makes of a value that a field asks for. TOML and YAML
differ in the two. -/
structure Format where
  /-- A value where a `String` is wanted. -/
  text : Json → Option String
  /-- Whether a struct may stand as a list of its fields, with so many items too many. -/
  positional : (surplus : Nat) → Bool

/-- Only strings are strings, and what is left of a list is not looked at. YAML takes any
plain scalar for a string, and no list for a struct. -/
def Format.toml : Format := ⟨Json.asStr, fun _ => true⟩

section
variable (format : Format) (vars : ProcessEnv)

/-- A `String` field with a default. -/
def deserializeText (default : String) : Option Json → Option String
  | none => some default
  | some value => format.text value

def deserializeEnv : Option Json → Option (Option String)
  | none | some .null => some none
  | some value => (format.text value).map some

def deserializePort : Option Json → Option Nat
  | none => some (defaultPort vars)
  | some (.number text) => parseU16 text.toList
  | some _ => none

/-- By name, or by position. `tls` is skipped. -/
def ServerConfig.deserialize : Option Json → Option ServerConfig
  | none => some (.default vars)
  | some (.object fields) => do
    let host ← deserializeText format (defaultHost vars) (Json.lookupField "host" fields)
    let port ← deserializePort vars (Json.lookupField "port" fields)
    return ⟨host, port, none⟩
  | some (.array items) =>
    if format.positional (items.length - 2) then do
      let host ← deserializeText format (defaultHost vars) items[0]?
      let port ← deserializePort vars items[1]?
      return ⟨host, port, none⟩
    else none
  | some _ => none

def deserializeEnvironments : Option Json → Option Sections
  | none => some fun _ => none
  | some (.object fields) => some fun key => Json.lookupField key fields
  | some _ => none

def AppConfigDefinition.deserialize (doc : Document) : Option AppConfigDefinition := do
  let name ← deserializeText format "rusty-gasket-app" (doc.get "name")
  let env ← deserializeEnv format (doc.get "env")
  let server ← ServerConfig.deserialize format vars (doc.get "server")
  let environments ← deserializeEnvironments (doc.get "environments")
  return ⟨name, env, server, environments,
    fun key => if key ∈ typedKeys then none else doc.get key⟩

end

/-- The override object in force. -/
def AppConfigDefinition.selected (vars : ProcessEnv) (definition : AppConfigDefinition) :
    Option Json :=
  let text := environmentText vars definition.env
  (Environment.fromText text).bind (selectedTable definition.environments text)

/-- What a document says by itself, its override tables apart: the configuration an
override is to amount to, once merged into the document. -/
def AppConfig.typedReading (format : Format) (vars : ProcessEnv) (doc : Document) :
    Option AppConfig := do
  let definition ← AppConfigDefinition.deserialize format vars doc
  let env ← Environment.fromText (environmentText vars definition.env)
  return ⟨definition.name, env, definition.server, definition.extra⟩

/-- The typed fields come from the four keys, the sections from all others. -/
theorem AppConfigDefinition.deserialize_eq {format : Format} {vars : ProcessEnv} {doc : Document}
    {definition : AppConfigDefinition} (h : deserialize format vars doc = some definition)
    {other : Document} (same : ∀ key ∈ typedKeys, other.get key = doc.get key) :
    deserialize format vars other = some { definition with
      extra := fun key => if key ∈ typedKeys then none else other.get key } := by
  simp only [deserialize, same "name" (by decide), same "env" (by decide),
    same "server" (by decide), same "environments" (by decide)]
  simp only [deserialize, Option.bind_eq_bind, Option.bind_eq_some_iff, Option.pure_def] at h
  obtain ⟨name, hname, env, henv, server, hserver, environments, henvironments, made⟩ := h
  cases made
  simp only [hname, henv, hserver, henvironments]
  rfl

theorem AppConfigDefinition.deserialize_extra {format : Format} {vars : ProcessEnv}
    {doc : Document} {definition : AppConfigDefinition}
    (h : deserialize format vars doc = some definition) (key : String) :
    definition.extra key = if key ∈ typedKeys then none else doc.get key := by
  have again := deserialize_eq h (fun _ _ => rfl)
  rw [h] at again
  exact congrFun (congrArg AppConfigDefinition.extra (Option.some.inj again)) key

theorem AppConfig.typedReading_sections {format : Format} {vars : ProcessEnv} {doc : Document}
    {config : AppConfig} (h : typedReading format vars doc = some config) {key : String}
    (typed : key ∈ typedKeys) :
    config.sections key = none := by
  simp only [typedReading, Option.bind_eq_bind, Option.bind_eq_some_iff, Option.pure_def] at h
  obtain ⟨definition, read, env, -, made⟩ := h
  cases made
  exact (AppConfigDefinition.deserialize_extra read key).trans (if_pos typed)

/-- **The whole configuration takes an override in, exactly** when it names none of the
keys with a field of their own: `resolve` then returns the typed reading of the
document merged with it. -/
theorem resolve_typedReading_iff {format : Format} {vars : ProcessEnv} {doc override : Document}
    {definition : AppConfigDefinition} {config : AppConfig}
    (read : AppConfigDefinition.deserialize format vars doc = some definition)
    (selected : definition.selected vars = some (.object override.fields))
    (resolved : definition.resolve vars = .ok config) :
    AppConfig.typedReading format vars (doc.merge override) = some config ↔
      ∀ key ∈ typedKeys, override.get key = none := by
  obtain ⟨env, parsed, table⟩ := Option.bind_eq_some_iff.mp selected
  rw [AppConfigDefinition.resolve_eq definition parsed, table] at resolved
  cases resolved
  have sections := overrideSections_apply override.wellFormed.distinct definition.extra
  constructor
  · intro reading key typed
    have missing : overrideSections definition.extra override.fields key = none :=
      AppConfig.typedReading_sections reading typed
    rw [sections key] at missing
    exact Option.map_eq_none_iff.mp (Option.or_eq_none_iff.mp missing).1
  · intro unnamed
    have again := AppConfigDefinition.deserialize_eq read fun key typed =>
      Document.get_merge_of_unnamed (unnamed key typed)
    simp only [AppConfig.typedReading, again, Option.bind_eq_bind, Option.bind_some, parsed,
      Option.pure_def, Option.some.injEq, AppConfig.mk.injEq, true_and]
    funext key
    rw [applyOverrides, sections key, AppConfigDefinition.deserialize_extra read]
    by_cases typed : key ∈ typedKeys
    · rw [if_pos typed, if_pos typed]
      have absent : Json.lookupField key override.fields = none := unnamed key typed
      rw [absent]
      rfl
    · rw [if_neg typed, if_neg typed, Document.get_merge]
      rfl

/-! ## The documented example -/

def serverTable (host port : String) : Json :=
  .object [("host", .string host), ("port", .number port)]

/-- A server, and one override table for production. -/
def exampleDocument (override : Document) : Document where
  fields := [("environments", .object [("production", .object override.fields)]),
    ("server", serverTable "127.0.0.1" "8080")]
  wellFormed := .pair (by decide) (.single "production" override.wellFormed)
    (.pair (by decide) (.string "127.0.0.1") (.number "8080"))

def databaseOverride : Document where
  fields := [("database", .object [("max_connections", .number "50")])]
  wellFormed := .single "database" (.single "max_connections" (.number "50"))

def serverOverride : Document where
  fields := [("server", serverTable "0.0.0.0" "8443")]
  wellFormed := .single "server" (.pair (by decide) (.string "0.0.0.0") (.number "8443"))

theorem databaseOverride_typedReading : ∃ definition config,
    AppConfigDefinition.deserialize .toml (gasketEnv "production")
      (exampleDocument databaseOverride) = some definition ∧
    definition.resolve (gasketEnv "production") = .ok config ∧
    (AppConfig.typedReading .toml (gasketEnv "production")
        ((exampleDocument databaseOverride).merge databaseOverride) = some config ↔
      ∀ key ∈ typedKeys, databaseOverride.get key = none) :=
  ⟨_, _, rfl, rfl, resolve_typedReading_iff rfl rfl rfl⟩

/-- The documented override of the server: resolution keeps the base address, the
merged document reads as the overridden one. -/
theorem serverOverride_unread : ∃ definition config merged,
    AppConfigDefinition.deserialize .toml (gasketEnv "production")
      (exampleDocument serverOverride) = some definition ∧
    definition.selected (gasketEnv "production") = some (.object serverOverride.fields) ∧
    definition.resolve (gasketEnv "production") = .ok config ∧
    config.server = ⟨"127.0.0.1", 8080, none⟩ ∧
    AppConfig.typedReading .toml (gasketEnv "production")
      ((exampleDocument serverOverride).merge serverOverride) = some merged ∧
    merged.server = ⟨"0.0.0.0", 8443, none⟩ ∧ merged ≠ config := by
  refine ⟨_, _, _, rfl, rfl, rfl, rfl, rfl, rfl, ?_⟩
  intro same
  have ports : 8443 = 8080 := congrArg (fun config => config.server.port) same
  cases ports

end RustyGasket
