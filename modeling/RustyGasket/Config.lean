import Mathlib.Logic.Function.Basic
import RustyGasket.ForwardedFor
import RustyGasket.Json

/-!
# `AppConfigDefinition` and its resolution

The process environment is a parameter: `HOST` and `PORT` give the server's
defaults, and `GASKET_ENV` wins over the `env` field.
-/

namespace RustyGasket

inductive Environment
  | local_
  | devPrivate
  | development
  | test
  | staging
  | production
  deriving DecidableEq, Repr

/-- `Display`. -/
def Environment.toText : Environment → String
  | local_ => "local"
  | devPrivate => "dev-private"
  | development => "development"
  | test => "test"
  | staging => "staging"
  | production => "production"

/-- Deserialization, with the aliases. -/
def Environment.fromText : String → Option Environment
  | "local" => some local_
  | "dev-private" => some devPrivate
  | "devprivate" => some devPrivate
  | "development" => some development
  | "dev" => some development
  | "test" => some test
  | "staging" => some staging
  | "production" => some production
  | "prod" => some production
  | _ => none

/-- The variables `std::env::var` can read. -/
abbrev ProcessEnv := String → Option String

/-- `parse::<u16>()`: an optional plus sign and at least one digit. -/
def parseU16 (text : List Char) : Option Nat :=
  let digits := if text.head? = some '+' then text.tail else text
  if digits ≠ [] ∧ digits.all (·.isDigit) then
    let value := digits.foldl (fun n c => 10 * n + (c.toNat - '0'.toNat)) 0
    if value < UInt16.size then some value else none
  else none

structure TlsConfig where
  certPem : List UInt8
  keyPem : List UInt8
  deriving DecidableEq, Repr

/-- Without the `tls` feature `tls` is never set. -/
structure ServerConfig where
  host : String
  port : Nat
  tls : Option TlsConfig
  deriving DecidableEq, Repr

def defaultHost (vars : ProcessEnv) : String := (vars "HOST").getD "0.0.0.0"

def defaultPort (vars : ProcessEnv) : Nat :=
  ((vars "PORT").bind fun p => parseU16 p.toList).getD 8443

def ServerConfig.default (vars : ProcessEnv) : ServerConfig :=
  ⟨defaultHost vars, defaultPort vars, none⟩

/-- A `HashMap` of sections. -/
abbrev Sections := String → Option Json

structure AppConfigDefinition where
  name : String
  env : Option String
  server : ServerConfig
  environments : Sections
  extra : Sections

def AppConfigDefinition.default (vars : ProcessEnv) : AppConfigDefinition :=
  ⟨"rusty-gasket-app", none, .default vars, fun _ => none, fun _ => none⟩

structure AppConfig where
  name : String
  env : Environment
  server : ServerConfig
  sections : Sections

/-- The loop over the override object. -/
def overrideSections (sections : Sections) : List (String × Json) → Sections
  | [] => sections
  | (key, value) :: rest =>
    let section_ := match sections key with
      | some existing => Json.deepMergeJson existing value
      | none => value
    overrideSections (Function.update sections key (some section_)) rest

def AppConfigDefinition.resolve (vars : ProcessEnv) (definition : AppConfigDefinition) :
    Except String AppConfig :=
  let envStr := ((vars "GASKET_ENV").or definition.env).getD "local"
  match Environment.fromText envStr with
  | none => .error (s!"Unknown environment '{envStr}'. " ++
      "Valid values: local, dev-private, development, dev, test, staging, production, prod")
  | some env =>
    -- the override table may go by the raw spelling or by the canonical name
    let envOverrides := (definition.environments envStr).or (definition.environments env.toText)
    let sections := match envOverrides with
      | some (.object obj) => overrideSections definition.extra obj
      | _ => definition.extra
    .ok ⟨definition.name, env, definition.server, sections⟩

end RustyGasket
