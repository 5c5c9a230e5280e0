import RustyGasket.DurationText

/-!
# `CacheConfig` as JSON

What serializing a configuration writes, and what deserializing reads back. A TTL is
written in whole seconds, and what it has beyond them is lost; all else survives.
-/

namespace RustyGasket

inductive CacheAlgorithm
  | tinyLfu
  deriving DecidableEq, Repr

inductive CacheBackendKind
  | memory
  | redis
  | memcached
  deriving DecidableEq, Repr

structure RedisCacheConfig where
  url : String
  deriving DecidableEq, Repr

structure MemcachedCacheConfig where
  servers : List String
  deriving DecidableEq, Repr

structure MemoryBudget where
  bytes : UInt64
  deriving DecidableEq, Repr

structure CacheConfig where
  backend : CacheBackendKind
  algorithm : CacheAlgorithm
  maxMemory : MemoryBudget
  defaultTtl : CacheTtl
  space : String
  singleFlight : Bool
  redis : Option RedisCacheConfig
  memcached : Option MemcachedCacheConfig

def CacheConfig.default : CacheConfig where
  backend := .memory
  algorithm := .tinyLfu
  maxMemory := ⟨128 * 1024 * 1024⟩
  defaultTtl := .seconds 60
  space := "rusty-gasket"
  singleFlight := true
  redis := none
  memcached := none

/-! ## `Serialize` -/

def CacheAlgorithm.toText : CacheAlgorithm → String
  | tinyLfu => "tiny-lfu"

def CacheBackendKind.toText : CacheBackendKind → String
  | memory => "memory"
  | redis => "redis"
  | memcached => "memcached"

def CacheTtl.serialize (ttl : CacheTtl) : Json :=
  let secs := ttl.duration.secs
  .string s!"{secs}s"

def MemoryBudget.serialize (budget : MemoryBudget) : Json :=
  .number (toString budget.bytes.toNat)

def RedisCacheConfig.serialize (config : RedisCacheConfig) : Json :=
  .object [("url", .string config.url)]

def MemcachedCacheConfig.serialize (config : MemcachedCacheConfig) : Json :=
  .object [("servers", .array (config.servers.map .string))]

/-- The fields by name, as an object holds them. -/
def CacheConfig.serialize (config : CacheConfig) : Json := .object [
  ("algorithm", .string config.algorithm.toText),
  ("backend", .string config.backend.toText),
  ("default_ttl", config.defaultTtl.serialize),
  ("max_memory", config.maxMemory.serialize),
  ("memcached", config.memcached.elim .null MemcachedCacheConfig.serialize),
  ("namespace", .string config.space),
  ("redis", config.redis.elim .null RedisCacheConfig.serialize),
  ("single_flight", .bool config.singleFlight)]

/-! ## `Deserialize` -/

def readString : Json → Except DeError String
  | .string text => .ok text
  | _ => .error (.invalidType "a string")

def readBool : Json → Except DeError Bool
  | .bool value => .ok value
  | _ => .error (.invalidType "a boolean")

def readStrings : Json → Except DeError (List String)
  | .array items => items.mapM readString
  | _ => .error (.invalidType "a sequence")

def readOption {α : Type} (read : Json → Except DeError α) : Json → Except DeError (Option α)
  | .null => .ok none
  | value => (read value).map some

/-- A unit variant, alone or as the one key of an object. -/
def readVariant {α : Type} (fromText : String → Option α) (value : Json) : Except DeError α :=
  let variant (name : String) := match fromText name with
    | some a => .ok a
    | none => .error (.unknownVariant name)
  match value with
  | .string name => variant name
  | .object [(name, content)] => match variant name, content with
    | .ok a, .null => .ok a
    | .ok _, _ => .error (.invalidType "unit")
    | .error e, _ => .error e
  | .object _ => .error (.invalidType "map with a single key")
  | _ => .error (.invalidType "string or map")

/-- A struct of one field, by name or by position. -/
def readRecord {α : Type} (what field : String) (read : Json → Except DeError α) :
    Json → Except DeError α
  | .object fields => match Json.lookupField field fields with
    | some value => read value
    | none => .error (.missingField field)
  | .array [value] => read value
  | .array [] => .error (.invalidLength 0)
  | .array (value :: rest) => (read value).bind fun _ => .error (.invalidLength (rest.length + 1))
  | _ => .error (.invalidType what)

def CacheAlgorithm.fromText : String → Option CacheAlgorithm
  | "tiny-lfu" => some tinyLfu
  | _ => none

def CacheBackendKind.fromText : String → Option CacheBackendKind
  | "memory" => some memory
  | "redis" => some redis
  | "memcached" => some memcached
  | _ => none

def CacheAlgorithm.deserialize : Json → Except DeError CacheAlgorithm := readVariant fromText

def CacheBackendKind.deserialize : Json → Except DeError CacheBackendKind := readVariant fromText

def memoryUnit : String → Option Nat
  | "" | "b" | "byte" | "bytes" => some 1
  | "k" | "kb" => some 1000
  | "m" | "mb" => some 1000000
  | "g" | "gb" => some 1000000000
  | "kib" => some 1024
  | "mib" => some (1024 * 1024)
  | "gib" => some (1024 * 1024 * 1024)
  | _ => none

def parseMemoryBudget (value : List Char) : Except String UInt64 :=
  parseAmount "memory" (fun unit => (lowercase unit).filter (· ≠ ' ')) memoryUnit value

def MemoryBudget.deserialize (value : Json) : Except DeError MemoryBudget :=
  (deserializeAmount "a byte count or memory string such as '128 MiB'" id parseMemoryBudget
    value).map .mk

def RedisCacheConfig.deserialize (value : Json) : Except DeError RedisCacheConfig :=
  (readRecord "struct RedisCacheConfig" "url" readString value).map .mk

def MemcachedCacheConfig.deserialize (value : Json) : Except DeError MemcachedCacheConfig :=
  (readRecord "struct MemcachedCacheConfig" "servers" readStrings value).map .mk

/-- A field that may be left out. -/
def readField {α : Type} (default : α) (read : Json → Except DeError α) :
    Option Json → Except DeError α
  | some value => read value
  | none => .ok default

/-- `#[serde(default)]`: by name, or by position. Other names are ignored. -/
def CacheConfig.deserialize : Json → Except DeError CacheConfig
  | .object fields => do
    let field := fun key => Json.lookupField key fields
    let algorithm ← readField default.algorithm CacheAlgorithm.deserialize (field "algorithm")
    let backend ← readField default.backend CacheBackendKind.deserialize (field "backend")
    let defaultTtl ← readField default.defaultTtl CacheTtl.deserialize (field "default_ttl")
    let maxMemory ← readField default.maxMemory MemoryBudget.deserialize (field "max_memory")
    let memcached ← readField default.memcached (readOption MemcachedCacheConfig.deserialize)
      (field "memcached")
    let space ← readField default.space readString (field "namespace")
    let redis ← readField default.redis (readOption RedisCacheConfig.deserialize) (field "redis")
    let singleFlight ← readField default.singleFlight readBool (field "single_flight")
    return ⟨backend, algorithm, maxMemory, defaultTtl, space, singleFlight, redis, memcached⟩
  | .array items => do
    let backend ← readField default.backend CacheBackendKind.deserialize items[0]?
    let algorithm ← readField default.algorithm CacheAlgorithm.deserialize items[1]?
    let maxMemory ← readField default.maxMemory MemoryBudget.deserialize items[2]?
    let defaultTtl ← readField default.defaultTtl CacheTtl.deserialize items[3]?
    let space ← readField default.space readString items[4]?
    let singleFlight ← readField default.singleFlight readBool items[5]?
    let redis ← readField default.redis (readOption RedisCacheConfig.deserialize) items[6]?
    let memcached ← readField default.memcached (readOption MemcachedCacheConfig.deserialize)
      items[7]?
    if items.length ≤ 8 then
      return ⟨backend, algorithm, maxMemory, defaultTtl, space, singleFlight, redis, memcached⟩
    else throw (.invalidLength items.length)
  | _ => .error (.invalidType "struct CacheConfig")

/-! ## There and back -/

theorem CacheAlgorithm.deserialize_serialize (algorithm : CacheAlgorithm) :
    deserialize (.string algorithm.toText) = .ok algorithm := by
  cases algorithm
  rfl

theorem CacheBackendKind.deserialize_serialize (backend : CacheBackendKind) :
    deserialize (.string backend.toText) = .ok backend := by
  cases backend <;> rfl

theorem RedisCacheConfig.deserialize_serialize (config : RedisCacheConfig) :
    deserialize config.serialize = .ok config := rfl

theorem mapM_readString (texts : List String) :
    (texts.map Json.string).mapM readString = .ok texts := by
  induction texts with
  | nil => rfl
  | cons text rest ih =>
    rw [List.map_cons, List.mapM_cons, ih]
    rfl

theorem MemcachedCacheConfig.deserialize_serialize (config : MemcachedCacheConfig) :
    deserialize config.serialize = .ok config := by
  have servers : readRecord "struct MemcachedCacheConfig" "servers" readStrings config.serialize =
      (config.servers.map Json.string).mapM readString := rfl
  rw [deserialize, servers, mapM_readString]
  rfl

/-- `None` is written as null, which no value is. -/
theorem readOption_elim {α : Type} {read : Json → Except DeError α} {write : α → Json}
    (back : ∀ a, read (write a) = .ok a) (notNull : ∀ a, write a ≠ .null) (value : Option α) :
    readOption read (value.elim .null write) = .ok value := by
  cases value with
  | none => rfl
  | some a =>
    rw [Option.elim_some]
    unfold readOption
    split
    next null => exact absurd null (notNull a)
    next => rw [back]; rfl

theorem isWhitespace_of_isDigit {c : Char} (h : c.isDigit = true) : isWhitespace c = false := by
  have range : 48 ≤ c.toNat ∧ c.toNat ≤ 57 := by
    simpa [Char.isDigit, UInt32.le_iff_toNat_le] using h
  have notBlank : c ≠ ' ' := by
    rintro rfl
    cases h
  simp [isWhitespace, notBlank]
  omega

theorem toDigits_digits (n : Nat) : (Nat.toDigits 10 n).all Char.isDigit = true :=
  List.all_eq_true.mpr fun _ => Nat.isDigit_of_mem_toDigits (by decide) (by decide)

theorem parseU64_toDigits (n : UInt64) : parseU64 (Nat.toDigits 10 n.toNat) = some n := by
  have digits : Nat.toDigits 10 n.toNat ≠ [] ∧
      (Nat.toDigits 10 n.toNat).all Char.isDigit = true :=
    ⟨Nat.toDigits_ne_nil, toDigits_digits _⟩
  have bound : n.toNat ≤ U64_MAX := Nat.le_of_lt_succ n.toNat_lt
  simp only [parseU64, if_neg (unsigned_of_digits digits.2), if_pos digits,
    Nat.ofDigitChars_ten_toDigits, if_pos bound, UInt64.ofNat_toNat]

theorem MemoryBudget.deserialize_serialize (budget : MemoryBudget) :
    deserialize budget.serialize = .ok budget := by
  have integer : budget.serialize.asU64 = some budget.bytes := by
    have digits : (toString budget.bytes.toNat).toList = Nat.toDigits 10 budget.bytes.toNat :=
      Nat.toList_repr
    rw [serialize, Json.asU64, digits, if_neg (unsigned_of_digits (toDigits_digits _)),
      parseU64_toDigits]
  rw [deserialize, deserializeAmount, integer]
  rfl

/-- The TTL without what it has beyond whole seconds. -/
def CacheTtl.truncated (ttl : CacheTtl) : CacheTtl :=
  ⟨ttl.duration.secs, 0, ttl.duration.secs_lt, NANOS_PER_SEC_pos⟩

theorem CacheTtl.truncated_eq_iff (ttl : CacheTtl) :
    ttl.truncated = ttl ↔ ttl.duration.nanos = 0 := by
  obtain ⟨secs, nanos, _, _⟩ := ttl
  simp only [truncated, CacheTtl.mk.injEq, Duration.mk.injEq, true_and]
  exact eq_comm

/-- The number and the unit come apart where the digits end. -/
theorem parseDurationText_seconds (n : UInt64) :
    parseDurationText (Nat.toDigits 10 n.toNat ++ ['s']) = .ok (.fromSecs n) := by
  have digits := List.all_eq_true.mp (toDigits_digits n.toNat)
  have blank : ∀ c ∈ Nat.toDigits 10 n.toNat ++ ['s'], isWhitespace c = false := by
    intro c hc
    obtain digit | unit := List.mem_append.mp hc
    · exact isWhitespace_of_isDigit (digits c digit)
    · rw [List.mem_singleton.mp unit]
      rfl
  have number : (Nat.toDigits 10 n.toNat ++ ['s']).takeWhile Char.isDigit =
      Nat.toDigits 10 n.toNat := by
    rw [List.takeWhile_append_of_pos digits]
    simp
  have unit : (Nat.toDigits 10 n.toNat ++ ['s']).dropWhile Char.isDigit = ['s'] := by
    rw [List.dropWhile_append_of_pos digits]
    simp
  have parts : splitNumberAndUnit (Nat.toDigits 10 n.toNat ++ ['s']) =
      .ok (Nat.toDigits 10 n.toNat, ['s']) := by
    simp only [splitNumberAndUnit, number, unit, Nat.toDigits_ne_nil, if_false]
    rfl
  have amount : saturatingMul n 1 = n := by
    have bound : n.toNat ≤ U64_MAX := Nat.le_of_lt_succ n.toNat_lt
    rw [saturatingMul, Nat.mul_one, Nat.min_eq_left bound, UInt64.ofNat_toNat]
  have whole : parseAmount "duration" lowercase durationUnit (Nat.toDigits 10 n.toNat ++ ['s']) =
      .ok (saturatingMul n 1) := by
    have second : durationUnit (String.ofList (lowercase ['s'])) = some 1 := rfl
    rw [parseAmount, trim_of_none blank, parts]
    simp only [bind, Except.bind, parseU64_toDigits, second]
  rw [parseDurationText, whole, amount]
  rfl

theorem CacheTtl.deserialize_serialize (ttl : CacheTtl) :
    deserialize ttl.serialize = .ok ttl.truncated := by
  have number : (UInt64.ofNat ttl.duration.secs).toNat = ttl.duration.secs :=
    UInt64.toNat_ofNat_of_lt' ttl.duration.secs_lt
  have text : (s!"{ttl.duration.secs}s").toList =
      Nat.toDigits 10 (UInt64.ofNat ttl.duration.secs).toNat ++ ['s'] := by
    rw [number, String.toList_append]
    exact congrArg (· ++ ['s']) Nat.toList_repr
  have read : deserialize ttl.serialize =
      ((parseDurationText (s!"{ttl.duration.secs}s").toList).mapError .custom).map new := rfl
  rw [read, text, parseDurationText_seconds]
  simp only [Except.mapError, Except.map, Duration.fromSecs, number, truncated, new]

/-- A configuration comes back with its TTL in whole seconds. -/
theorem CacheConfig.deserialize_serialize (config : CacheConfig) :
    deserialize config.serialize =
      .ok { config with defaultTtl := config.defaultTtl.truncated } := by
  have memcached : readOption MemcachedCacheConfig.deserialize
      (config.memcached.elim .null MemcachedCacheConfig.serialize) = .ok config.memcached :=
    readOption_elim MemcachedCacheConfig.deserialize_serialize nofun _
  have redis : readOption RedisCacheConfig.deserialize
      (config.redis.elim .null RedisCacheConfig.serialize) = .ok config.redis :=
    readOption_elim RedisCacheConfig.deserialize_serialize nofun _
  simp [deserialize, serialize, Json.lookupField, readField,
    CacheAlgorithm.deserialize_serialize, CacheBackendKind.deserialize_serialize,
    CacheTtl.deserialize_serialize, MemoryBudget.deserialize_serialize, memcached, redis,
    readString, readBool, bind, Except.bind, pure, Except.pure]

/-- **A configuration survives the round trip exactly when** its default TTL is a whole
number of seconds. -/
theorem CacheConfig.roundTrip_iff (config : CacheConfig) :
    deserialize config.serialize = .ok config ↔ config.defaultTtl.duration.nanos = 0 := by
  rw [deserialize_serialize, ← CacheTtl.truncated_eq_iff]
  constructor
  · intro same
    exact congrArg CacheConfig.defaultTtl (Except.ok.inj same)
  · intro whole
    rw [whole]

/-- Half a second. -/
def halfSecond : CacheConfig :=
  { CacheConfig.default with defaultTtl := .new ⟨0, 500000000, by decide, by decide⟩ }

/-- It is written as `0s`, and comes back as a TTL that has passed at once. -/
theorem halfSecond_lost :
    halfSecond.serialize.get "default_ttl" = some (.string "0s") ∧
    CacheConfig.deserialize halfSecond.serialize =
      .ok { halfSecond with defaultTtl := .seconds 0 } ∧
    CacheConfig.deserialize halfSecond.serialize ≠ .ok halfSecond := by
  have lost : halfSecond.defaultTtl.truncated ≠ halfSecond.defaultTtl :=
    (CacheTtl.truncated_eq_iff _).not.mpr (by decide)
  refine ⟨rfl, CacheConfig.deserialize_serialize halfSecond, ?_⟩
  rw [CacheConfig.deserialize_serialize]
  intro same
  exact lost (congrArg CacheConfig.defaultTtl (Except.ok.inj same))

end RustyGasket
