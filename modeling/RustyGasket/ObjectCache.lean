import RustyGasket.CacheTtl
import RustyGasket.ExpiringStore
import RustyGasket.Fallible

/-!
# `ObjectCache` as a map

The typed calls of `ObjectCache` over the memory, Redis and memcached backends, one
after another, by any number of caches with their own namespaces. What they answer is
what a map from namespace and key parts to values would.

A write fails in both alike: with a panic where its `Instant` does not exist, with the
server's error where the server refuses it. What the `moka` map or a server evicts is
deleted in both at that moment. What concurrent calls see of each other is modelled
apart, and the servers can be reached.
-/

namespace RustyGasket.Caching

open CacheTtl ExpiringStore

/-- How a type is written and read. It is one whose values `serde_json` reads as it wrote
them, as a float is not always. -/
structure Codec (V : Type) where
  encode : V → Except String Bytes
  decode : Bytes → Except String V
  reads {v : V} {bytes : Bytes} : encode v = .ok bytes → decode bytes = .ok v

structure ObjectCache where
  space : String
  defaultTtl : Duration

/-! ## Backends -/

/-- How a call ends that has no result. -/
inductive Failure
  | returned (error : CacheError)
  | panicked
  deriving DecidableEq, Repr

/-- `CacheBackend`: keys and values are bytes, lifetimes durations. -/
abbrev CacheBackend (σ : Type) := Calls Failure σ Bytes Bytes Duration

abbrev Map := Store Bytes Bytes

/-- What a server answers to a write with so many seconds: it may refuse it. -/
abbrev Server := (now : Nat) → (key value : Bytes) → (seconds : Nat) → Except String Unit

/-- The end of an entry the server took. -/
def accepted (what : String) (answer : Except String Unit) (deadline : Nat) :
    Except Failure Nat :=
  match answer with
  | .ok () => .ok deadline
  | .error error => .error (.returned (.backend (what ++ " set failed: " ++ error)))

/-- `Instant::now() + ttl` panics beyond the last `Instant`. -/
def memoryDeadline (now : Nat) (_key _value : Bytes) (ttl : Duration) : Except Failure Nat :=
  if now + ttl.total < INSTANT_END then .ok (now + ttl.total) else .error .panicked

def redisDeadline (redis : Server) (now : Nat) (key value : Bytes) (ttl : Duration) :
    Except Failure Nat :=
  let seconds := redisSeconds ttl
  accepted "redis" (redis now key value seconds) (now + seconds * NANOS_PER_SEC)

/-- When memcached drops the entry, if the clock began `epoch` after the Unix epoch. -/
def memcachedDeadline (memcached : Server) (epoch now : Nat) (key value : Bytes)
    (ttl : Duration) : Except Failure Nat :=
  let exptime := memcachedExpiration ttl
  accepted "memcached" (memcached now key value exptime)
    (if exptime ≤ REALTIME_MAXDELTA then now + exptime * NANOS_PER_SEC
    else exptime * NANOS_PER_SEC - epoch)

def memoryCacheBackend : CacheBackend Map := lazy memoryDeadline

def redisCacheBackend (redis : Server) : CacheBackend Map := plain (redisDeadline redis)

/-- `connect` refuses an empty list of servers. -/
structure Servers where
  count : Nat
  some_server : 0 < count
  addressable : count < UInt64.size

/-- The index `server_for_key` computes. -/
def serverIndex (servers : Servers) (key : Bytes) : Nat :=
  (stableHash key % UInt64.ofNat servers.count).toNat

theorem serverIndex_lt (servers : Servers) (key : Bytes) :
    serverIndex servers key < servers.count := by
  have count : (UInt64.ofNat servers.count).toNat = servers.count :=
    Nat.mod_eq_of_lt servers.addressable
  rw [serverIndex, UInt64.toNat_mod, count]
  exact Nat.mod_lt _ servers.some_server

def serverForKey (servers : Servers) (key : Bytes) : Fin servers.count :=
  ⟨serverIndex servers key, serverIndex_lt servers key⟩

def memcachedCacheBackend (memcached : Server) (epoch : Nat) (servers : Servers) :
    CacheBackend (Fin servers.count → Map) :=
  checked (sharded (serverForKey servers) (plain (memcachedDeadline memcached epoch)))
    fun key => (validateMemcachedKey key).mapError .returned

/-! ## Calls -/

namespace ObjectCache

variable {σ V : Type} (backend : CacheBackend σ) (codec : Codec V) (cache : ObjectCache)

def get (s : σ) (now : Nat) (key : CacheKey) : σ × Except Failure (Option V) :=
  match namespacedKey cache.space key with
  | .error e => (s, .error (.returned e))
  | .ok key => match backend.get s now key with
    | (t, .error e) => (t, .error e)
    | (t, .ok none) => (t, .ok none)
    | (t, .ok (some bytes)) =>
      (t, ((codec.decode bytes).map some).mapError fun e => .returned (.decode e))

def setFor (s : σ) (now : Nat) (key : CacheKey) (ttl : Duration) (value : V) :
    σ × Except Failure Unit :=
  match namespacedKey cache.space key with
  | .error e => (s, .error (.returned e))
  | .ok key => match codec.encode value with
    | .error e => (s, .error (.returned (.encode e)))
    | .ok bytes => backend.set s now key bytes ttl

def set (s : σ) (now : Nat) (key : CacheKey) (value : V) : σ × Except Failure Unit :=
  setFor backend codec cache s now key cache.defaultTtl value

def delete (s : σ) (now : Nat) (key : CacheKey) : σ × Except Failure Unit :=
  match namespacedKey cache.space key with
  | .error e => (s, .error (.returned e))
  | .ok key => backend.delete s now key

/-- `load` is what the loader answers, if it is asked. -/
def getOrLoadWithoutSingleFlight (s : σ) (now : Nat) (key : CacheKey) (ttl : Duration)
    (load : Except String V) : σ × Except Failure V :=
  match get backend codec cache s now key with
  | (t, .error e) => (t, .error e)
  | (t, .ok (some value)) => (t, .ok value)
  | (t, .ok none) => match load with
    | .error e => (t, .error (.returned (.loader e)))
    | .ok value => match setFor backend codec cache t now key ttl value with
      | (u, .error e) => (u, .error e)
      | (u, .ok ()) => (u, .ok value)

end ObjectCache

/-- A key as its builder was given it. -/
structure Key where
  space : String
  area : String
  parts : List String
  deriving DecidableEq, Repr

def Key.cacheKey (key : Key) : CacheKey := .ofParts key.area key.parts

/-- A cache of the key's namespace. -/
def Key.cache (key : Key) (defaultTtl : Duration) : ObjectCache := ⟨key.space, defaultTtl⟩

theorem Key.cache_defaultTtl (key : Key) (defaultTtl : Duration) :
    (key.cache defaultTtl).defaultTtl = defaultTtl := rfl

inductive Op (V : Type)
  | get
  | set (value : V)
  | setFor (ttl : Duration) (value : V)
  | delete
  | getOrLoad (ttl : Duration) (load : Except String V)

/-- So long after the call before it, a cache with this default TTL and the key's
namespace is called. -/
structure Call (V : Type) where
  elapsed : Nat
  defaultTtl : Duration
  key : Key
  op : Op V

/-- What happens to a backend: a call, or the backend evicts what it likes. -/
inductive Event (V : Type)
  | call (call : Call V)
  | evict (gone : Bytes → Bool)

/-- What a call answers; the writes answer `none`. -/
abbrev Answer (V : Type) := Except Failure (Option V)

/-- One call. -/
def Call.run {σ V : Type} (backend : CacheBackend σ) (codec : Codec V) (call : Call V) (s : σ)
    (now : Nat) : σ × Answer V :=
  let cache := call.key.cache call.defaultTtl
  let key := call.key.cacheKey
  match call.op with
  | .get => cache.get backend codec s now key
  | .set value => (cache.set backend codec s now key value).map id (·.map fun _ => none)
  | .setFor ttl value =>
    (cache.setFor backend codec s now key ttl value).map id (·.map fun _ => none)
  | .delete => (cache.delete backend s now key).map id (·.map fun _ => none)
  | .getOrLoad ttl load =>
    (cache.getOrLoadWithoutSingleFlight backend codec s now key ttl load).map id (·.map some)

/-- The answers to the calls of a run. -/
def answers {σ V : Type} (backend : CacheBackend σ) (codec : Codec V) (s : σ) (now : Nat) :
    List (Event V) → List (Answer V)
  | [] => []
  | .call call :: rest =>
    let now := now + call.elapsed
    let (t, answer) := call.run backend codec s now
    answer :: answers backend codec t now rest
  | .evict gone :: rest => answers backend codec (backend.drop s gone) now rest

/-! ## The map -/

section
variable {V : Type} (deadline : Nat → Bytes → Bytes → Duration → Except Failure Nat)
  (codec : Codec V)

/-- The text a backend knows the key by. -/
def Key.text (key : Key) : Bytes := namespacedText key.space key.cacheKey

/-- A value written to the map, if its type can write it and the backend takes it. -/
def write (m : Store Key V) (now : Nat) (key : Key) (ttl : Duration) (value : V) :
    Store Key V × Except Failure Unit :=
  match codec.encode value with
  | .error e => (m, .error (.returned (.encode e)))
  | .ok bytes =>
    let taken := deadline now key.text bytes ttl
    (m.put key value taken, taken.map fun _ => ())

/-- What a call does to a map of values. A key that does not fit is refused. -/
def Call.spec (call : Call V) (m : Store Key V) (now : Nat) : Store Key V × Answer V :=
  match namespacedKey call.key.space call.key.cacheKey with
  | .error e => (m, .error (.returned e))
  | .ok _ => match call.op with
    | .get => (m, .ok (m.read now call.key))
    | .set value => (write deadline codec m now call.key call.defaultTtl value).map id
        (·.map fun _ => none)
    | .setFor ttl value => (write deadline codec m now call.key ttl value).map id
        (·.map fun _ => none)
    | .delete => (m.erase call.key, .ok none)
    | .getOrLoad ttl load => match m.read now call.key, load with
      | some value, _ => (m, .ok (some value))
      | none, .error e => (m, .error (.returned (.loader e)))
      | none, .ok value => (write deadline codec m now call.key ttl value).map id
          (·.map fun _ => some value)

def specAnswers (m : Store Key V) (now : Nat) : List (Event V) → List (Answer V)
  | [] => []
  | .call call :: rest =>
    let now := now + call.elapsed
    let (n, answer) := call.spec deadline codec m now
    answer :: specAnswers n now rest
  | .evict gone :: rest => specAnswers (m.without fun key => gone key.text) now rest

end

/-! ## Every backend is the map -/

theorem Key.text_injective : Function.Injective Key.text := by
  rintro ⟨space, area, parts⟩ ⟨space', area', parts'⟩ same
  simp only [Key.text, Key.cacheKey, namespacedText_ofParts] at same
  obtain ⟨rfl, rest⟩ := CacheKey.ofParts_injective (congrArg CacheKey.mk same)
  obtain ⟨rfl, rfl⟩ := List.cons.inj rest
  rfl

/-- The texts a server is asked for. -/
def Valid (text : Bytes) : Prop := validateMemcachedKey text = .ok ()

theorem Key.valid_of_ok {key : Key} {full : Bytes}
    (h : namespacedKey key.space key.cacheKey = .ok full) : full = key.text ∧ Valid key.text := by
  obtain rfl := namespacedKey_eq h
  refine ⟨rfl, ?_⟩
  rw [namespacedKey, validateBackendKey] at h
  obtain ⟨passed, valid, -⟩ := Fallible.map_ok h
  exact valid

section
variable {V : Type} {codec : Codec V}

/-- The bytes kept under the text of each key are those of the map's value. -/
def Written (codec : Codec V) (m : Map) (values : Store Key V) : Prop :=
  ∀ key, match values key with
    | none => m key.text = none
    | some entry => ∃ bytes, codec.encode entry.value = .ok bytes ∧
        m key.text = some ⟨bytes, entry.deadline⟩

theorem Written.read {m : Map} {values : Store Key V} (h : Written codec m values) (now : Nat)
    (key : Key) : match values.read now key with
      | none => m.read now key.text = none
      | some value =>
        ∃ bytes, codec.encode value = .ok bytes ∧ m.read now key.text = some bytes := by
  have kept := h key
  unfold Store.read
  cases stored : values key with
  | none =>
    simp only [stored] at kept
    simp [kept]
  | some entry =>
    simp only [stored] at kept
    obtain ⟨bytes, encoded, kept⟩ := kept
    by_cases expired : entry.deadline ≤ now
    · simp [kept, expired]
    · simp [kept, expired, encoded]

theorem Written.put {m : Map} {values : Store Key V} (h : Written codec m values) {key : Key}
    {value : V} {bytes : Bytes} (encoded : codec.encode value = .ok bytes)
    (taken : Except Failure Nat) :
    Written codec (m.put key.text bytes taken) (values.put key value taken) := by
  cases taken with
  | error => exact h
  | ok deadline =>
    intro other
    by_cases same : other = key
    · subst same
      simp [Store.put, Store.write, encoded]
    · have apart : other.text ≠ key.text := fun texts => same (Key.text_injective texts)
      simpa [Store.put, Store.write, same, apart] using h other

theorem Written.erase {m : Map} {values : Store Key V} (h : Written codec m values) (key : Key) :
    Written codec (m.erase key.text) (values.erase key) := by
  intro other
  by_cases same : other = key
  · subst same
    simp [Store.erase]
  · have apart : other.text ≠ key.text := fun texts => same (Key.text_injective texts)
    simpa [Store.erase, same, apart] using h other

theorem Written.without {m : Map} {values : Store Key V} (h : Written codec m values)
    (gone : Bytes → Bool) :
    Written codec (m.without gone) (values.without fun key => gone key.text) := by
  intro key
  unfold Store.without
  by_cases evicted : gone key.text = true
  · simp [evicted]
  · simpa [evicted] using h key

variable {σ : Type} {backend : CacheBackend σ}
  {deadline : Nat → Bytes → Bytes → Duration → Except Failure Nat} {R : Nat → σ → Map → Prop}

/-- The state stands for a map of bytes, and that for the map of values. -/
def Stands (codec : Codec V) (R : Nat → σ → Map → Prop) (now : Nat) (s : σ)
    (values : Store Key V) : Prop :=
  ∃ m, R now s m ∧ Written codec m values

variable {s : σ} {values : Store Key V} {now : Nat} {key : Key} (defaultTtl : Duration)

theorem get_spec (h : Refines backend Valid deadline R) (stands : Stands codec R now s values)
    {full : Bytes}
    (fits : namespacedKey key.space key.cacheKey = .ok full) :
    Stands codec R now ((key.cache defaultTtl).get backend codec s now key.cacheKey).1 values ∧
      ((key.cache defaultTtl).get backend codec s now key.cacheKey).2 =
        .ok (values.read now key) := by
  obtain ⟨rfl, valid⟩ := Key.valid_of_ok fits
  obtain ⟨m, related, written⟩ := stands
  obtain ⟨kept, answer⟩ := h.get valid related
  have reading := written.read now key
  simp only [ObjectCache.get, Key.cache, fits]
  cases call : backend.get s now key.text with
  | mk t found =>
    rw [call] at kept answer
    simp only at kept answer
    subst answer
    cases value : values.read now key with
    | none =>
      simp only [value] at reading
      rw [reading]
      exact ⟨⟨m, kept, written⟩, rfl⟩
    | some value' =>
      simp only [value] at reading
      obtain ⟨bytes, encoded, reading⟩ := reading
      rw [reading]
      simp only [codec.reads encoded]
      exact ⟨⟨m, kept, written⟩, rfl⟩

theorem setFor_spec (h : Refines backend Valid deadline R) (stands : Stands codec R now s values)
    {full : Bytes}
    (fits : namespacedKey key.space key.cacheKey = .ok full) (ttl : Duration) (value : V) :
    Stands codec R now ((key.cache defaultTtl).setFor backend codec s now key.cacheKey ttl value).1
        (write deadline codec values now key ttl value).1 ∧
      ((key.cache defaultTtl).setFor backend codec s now key.cacheKey ttl value).2 =
        (write deadline codec values now key ttl value).2 := by
  obtain ⟨rfl, valid⟩ := Key.valid_of_ok fits
  simp only [ObjectCache.setFor, Key.cache, fits, write]
  cases encoded : codec.encode value with
  | error e => exact ⟨stands, rfl⟩
  | ok bytes =>
    obtain ⟨m, related, written⟩ := stands
    obtain ⟨kept, answer⟩ := h.set bytes ttl valid related
    exact ⟨⟨_, kept, written.put encoded _⟩, answer⟩

theorem delete_spec (h : Refines backend Valid deadline R) (stands : Stands codec R now s values)
    {full : Bytes}
    (fits : namespacedKey key.space key.cacheKey = .ok full) :
    Stands codec R now ((key.cache defaultTtl).delete backend s now key.cacheKey).1
        (values.erase key) ∧
      ((key.cache defaultTtl).delete backend s now key.cacheKey).2 = .ok () := by
  obtain ⟨rfl, valid⟩ := Key.valid_of_ok fits
  obtain ⟨m, related, written⟩ := stands
  obtain ⟨kept, answer⟩ := h.delete valid related
  simp only [ObjectCache.delete, Key.cache, fits]
  exact ⟨⟨_, kept, written.erase key⟩, answer⟩

theorem getOrLoad_spec (h : Refines backend Valid deadline R) (stands : Stands codec R now s values)
    {full : Bytes}
    (fits : namespacedKey key.space key.cacheKey = .ok full) (ttl : Duration)
    (load : Except String V) :
    let result :=
      (key.cache defaultTtl).getOrLoadWithoutSingleFlight backend codec s now key.cacheKey ttl load
    match values.read now key, load with
    | some value, _ => Stands codec R now result.1 values ∧ result.2 = .ok value
    | none, .error e =>
      Stands codec R now result.1 values ∧ result.2 = .error (.returned (.loader e))
    | none, .ok value =>
      Stands codec R now result.1 (write deadline codec values now key ttl value).1 ∧
        result.2 = (write deadline codec values now key ttl value).2.map fun _ => value := by
  obtain ⟨kept, answer⟩ := get_spec defaultTtl h stands fits
  intro result
  simp only [result, ObjectCache.getOrLoadWithoutSingleFlight]
  cases call : (key.cache defaultTtl).get backend codec s now key.cacheKey with
  | mk t found =>
    rw [call] at kept answer
    simp only at kept answer
    subst answer
    cases value : values.read now key with
    | some value => exact ⟨kept, rfl⟩
    | none =>
      cases load with
      | error e => exact ⟨kept, rfl⟩
      | ok value =>
        obtain ⟨stored, outcome⟩ := setFor_spec defaultTtl h kept fits ttl value
        simp only
        cases second : (key.cache defaultTtl).setFor backend codec t now key.cacheKey ttl value with
        | mk u done =>
          rw [second] at stored outcome
          simp only at stored outcome
          rw [← outcome]
          cases done with
          | error e => exact ⟨stored, rfl⟩
          | ok done => exact ⟨stored, rfl⟩

/-- One call answers as the map, and its state goes on standing for the map. -/
theorem call_refines (h : Refines backend Valid deadline R) (call : Call V)
    (stands : Stands codec R now s values) :
    Stands codec R now (call.run backend codec s now).1 (call.spec deadline codec values now).1 ∧
      (call.run backend codec s now).2 = (call.spec deadline codec values now).2 := by
  cases fits : namespacedKey call.key.space call.key.cacheKey with
  | error e =>
    have refused : call.spec deadline codec values now = (values, .error (.returned e)) := by
      simp only [Call.spec, fits]
    have unmoved : call.run backend codec s now = (s, .error (.returned e)) := by
      cases op : call.op <;>
        simp [Call.run, op, ObjectCache.get, ObjectCache.set, ObjectCache.setFor,
          ObjectCache.delete, ObjectCache.getOrLoadWithoutSingleFlight, Key.cache, fits, Except.map]
    rw [refused, unmoved]
    exact ⟨stands, rfl⟩
  | ok full =>
    obtain ⟨elapsed, defaultTtl, key, op⟩ := call
    simp only at fits
    cases op with
    | get =>
      simp only [Call.run, Call.spec, fits]
      exact get_spec defaultTtl h stands fits
    | set value =>
      obtain ⟨stored, outcome⟩ := setFor_spec defaultTtl h stands fits defaultTtl value
      simp only [Call.run, Call.spec, ObjectCache.set, fits, Prod.map_fst, Prod.map_snd, id_eq]
      exact ⟨stored, by rw [Key.cache_defaultTtl, outcome]⟩
    | setFor ttl value =>
      obtain ⟨stored, outcome⟩ := setFor_spec defaultTtl h stands fits ttl value
      simp only [Call.run, Call.spec, fits, Prod.map_fst, Prod.map_snd, id_eq]
      exact ⟨stored, by rw [outcome]⟩
    | delete =>
      obtain ⟨stored, outcome⟩ := delete_spec defaultTtl h stands fits
      simp only [Call.run, Call.spec, fits, Prod.map_fst, Prod.map_snd, id_eq]
      exact ⟨stored, by rw [outcome]; rfl⟩
    | getOrLoad ttl load =>
      have result := getOrLoad_spec defaultTtl h stands fits ttl load
      simp only [Call.run, Call.spec, fits, Prod.map_fst, Prod.map_snd, id_eq]
      cases value : values.read now key with
      | some value =>
        simp only [value] at result
        exact ⟨result.1, by rw [result.2]; rfl⟩
      | none =>
        simp only [value] at result
        cases load with
        | error e => exact ⟨result.1, by rw [result.2]; rfl⟩
        | ok value =>
          refine ⟨result.1, ?_⟩
          rw [result.2]
          show Except.map some (Except.map (fun _ => value)
              (write deadline codec values now key ttl value).2) =
            Except.map (fun _ => some value) (write deadline codec values now key ttl value).2
          cases (write deadline codec values now key ttl value).2 <;> rfl

theorem answers_refine (h : Refines backend Valid deadline R) (events : List (Event V))
    (stands : Stands codec R now s values) :
    answers backend codec s now events = specAnswers deadline codec values now events := by
  induction events generalizing s values now with
  | nil => rfl
  | cons event rest ih =>
    obtain ⟨m, related, written⟩ := stands
    cases event with
    | evict gone =>
      rw [answers, specAnswers]
      exact ih ⟨_, h.drop gone related, written.without gone⟩
    | call call =>
      have later : Stands codec R (now + call.elapsed) s values :=
        ⟨m, h.later related (Nat.le_add_right _ _), written⟩
      obtain ⟨stands', same⟩ := call_refines h call later
      rw [answers, specAnswers]
      simp only
      rw [same, ih stands']

end

/-- Nothing is stored. -/
def empty : Map := fun _ => none

theorem written_empty {V : Type} (codec : Codec V) :
    Written codec empty (fun _ => none : Store Key V) := by
  intro key
  rfl

theorem memory_refines : Refines memoryCacheBackend Valid memoryDeadline Fresh :=
  (lazy_refines memoryDeadline).restrict fun _ _ => trivial

theorem redis_refines (redis : Server) :
    Refines (redisCacheBackend redis) Valid (redisDeadline redis) fun _ s m => s = m :=
  (plain_refines (redisDeadline redis)).restrict fun _ _ => trivial

theorem memcached_refines (memcached : Server) (epoch : Nat) (servers : Servers) :
    Refines (memcachedCacheBackend memcached epoch servers) Valid
      (memcachedDeadline memcached epoch)
      (Sharded (serverForKey servers) fun _ s m => s = m) := by
  have one : Refines _ Valid (memcachedDeadline memcached epoch) fun _ s m => s = m :=
    (plain_refines (memcachedDeadline memcached epoch)).restrict fun _ _ => trivial
  have shards := one.sharded (serverForKey servers)
  exact shards.checked fun key valid => congrArg (Except.mapError Failure.returned) valid

/-- **A cache is a map from namespace and key parts to values.** Whatever is called, by
caches of any namespaces and with any keys, values, lifetimes and pauses, and whatever is
evicted in between, each backend answers as the map whose entries expire at its deadlines
and from which an eviction deletes: the memory map although it forgets lazily, and
memcached however many servers the keys are spread over. A key that does not fit is
refused with the same error, a write fails with the same panic or the same server's
error, and both change nothing. -/
theorem object_cache_is_map {V : Type} (codec : Codec V) (events : List (Event V))
    (redis memcached : Server) (epoch : Nat) (servers : Servers) :
    answers memoryCacheBackend codec empty 0 events =
        specAnswers memoryDeadline codec (fun _ => none) 0 events ∧
    answers (redisCacheBackend redis) codec empty 0 events =
        specAnswers (redisDeadline redis) codec (fun _ => none) 0 events ∧
    answers (memcachedCacheBackend memcached epoch servers) codec (fun _ => empty) 0 events =
        specAnswers (memcachedDeadline memcached epoch) codec (fun _ => none) 0 events := by
  refine ⟨answers_refine memory_refines events ⟨empty, fun _ => .inl rfl, written_empty codec⟩,
    answers_refine (redis_refines redis) events ⟨empty, rfl, written_empty codec⟩,
    answers_refine (memcached_refines memcached epoch servers) events
      ⟨empty, ?_, written_empty codec⟩⟩
  intro server
  funext key
  simp [empty, part]

end RustyGasket.Caching
