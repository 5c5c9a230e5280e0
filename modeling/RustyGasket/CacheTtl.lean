import RustyGasket.MemoryBackend

/-!
# One TTL, three backends

Each backend turns a `Duration` into its own unit and width: the memory map into an
`Instant`, Redis into the seconds of `SETEX`, memcached into its `exptime`, which
counts from now up to thirty days and is a Unix time above. Times are in nanoseconds.
-/

namespace RustyGasket.CacheTtl

def NANOS_PER_SEC : Nat := 1000000000

/-- `std::time::Duration`. -/
structure Duration where
  secs : Nat
  nanos : Nat
  secs_lt : secs < UInt64.size
  nanos_lt : nanos < NANOS_PER_SEC

def Duration.total (ttl : Duration) : Nat := ttl.secs * NANOS_PER_SEC + ttl.nanos

/-- The first time an `Instant` cannot hold: its seconds are an `i64`. -/
def INSTANT_END : Nat := UInt64.size / 2 * NANOS_PER_SEC

structure Instant where
  nanos : Nat
  lt : nanos < INSTANT_END

/-! ## What each backend sends -/

/-- `ttl.as_duration().as_secs().max(1)`. -/
def wholeSeconds (ttl : Duration) : Nat := max ttl.secs 1

/-- The argument of `SETEX`, a `u64`. -/
def redisSeconds (ttl : Duration) : Nat := wholeSeconds ttl

def U32_MAX : Nat := 4294967295

/-- The `exptime`, by `.try_into().unwrap_or(u32::MAX)`. -/
def memcachedExpiration (ttl : Duration) : Nat :=
  if wholeSeconds ttl ≤ U32_MAX then wholeSeconds ttl else U32_MAX

/-- `Instant::now() + ttl.as_duration()`; beyond the last `Instant` it panics. -/
def memoryExpiresAt (now : Instant) (ttl : Duration) : Option Nat :=
  if now.nanos + ttl.total < INSTANT_END then some (now.nanos + ttl.total) else none

/-! ## How long it is kept -/

def setexKeeps (seconds elapsed : Nat) : Prop := elapsed < seconds * NANOS_PER_SEC

/-- Thirty days, in seconds. -/
def REALTIME_MAXDELTA : Nat := 60 * 60 * 24 * 30

/-- An `exptime` of zero is never, up to thirty days it counts from now, and above it is
a Unix time. -/
def exptimeKeeps (exptime unixNow elapsed : Nat) : Prop :=
  exptime = 0 ∨
    if exptime ≤ REALTIME_MAXDELTA then elapsed < exptime * NANOS_PER_SEC
    else unixNow + elapsed < exptime * NANOS_PER_SEC

/-- The memory backend sets a value, and a `get` reads it when so much time has passed. -/
def memoryKeeps (now : Instant) (ttl : Duration) (elapsed : Nat) : Prop :=
  memoryExpiresAt now ttl ≠ none ∧
    (Transition.exec (MemoryBackend.step fun _ => .set () [] ttl.total)
      ({ MemoryBackend.init with now := now.nanos } : MemoryBackend.State Unit Unit)
      [.run (), .run (), .tick elapsed]).bind (·.reading ()) = some []

inductive Backend
  | redis
  | memcached
  | memory
  deriving DecidableEq, Repr

/-- An entry set now is readable so much later. -/
def Backend.keeps (ttl : Duration) (now : Instant) (unixNow elapsed : Nat) : Backend → Prop
  | redis => setexKeeps (redisSeconds ttl) elapsed
  | memcached => exptimeKeeps (memcachedExpiration ttl) unixNow elapsed
  | memory => memoryKeeps now ttl elapsed

/-- Readable until the TTL has passed and not after it, up to whole seconds with a
minimum of one. -/
def Honours (ttl : Duration) (keeps : Nat → Prop) : Prop :=
  ∃ lifetime, (lifetime = ttl.total ∨ lifetime = wholeSeconds ttl * NANOS_PER_SEC) ∧
    ∀ elapsed, keeps elapsed ↔ elapsed < lifetime

theorem nanosPerSec_pos : 0 < NANOS_PER_SEC := by decide

theorem one_le_wholeSeconds (ttl : Duration) : 1 ≤ wholeSeconds ttl := Nat.le_max_right _ _

/-- What is kept at no time honours no TTL but zero. -/
theorem Honours.not_never {ttl : Duration} {keeps : Nat → Prop} (honours : Honours ttl keeps)
    (positive : 0 < ttl.total) : keeps 0 := by
  obtain ⟨lifetime, rounded, until_end⟩ := honours
  have whole := one_le_wholeSeconds ttl
  apply (until_end 0).mpr
  obtain rfl | rfl := rounded
  · exact positive
  · exact Nat.mul_pos whole nanosPerSec_pos

theorem redis_honours (ttl : Duration) (now : Instant) (unixNow : Nat) :
    Honours ttl (fun elapsed => Backend.redis.keeps ttl now unixNow elapsed) :=
  ⟨_, .inr rfl, fun _ => Iff.rfl⟩

/-- The memory backend's own steps: stamp, insert, and a reading later. -/
theorem memory_reading (start span elapsed : Nat) :
    (Transition.exec (MemoryBackend.step fun _ => .set () [] span)
      ({ MemoryBackend.init with now := start } : MemoryBackend.State Unit Unit)
      [.run (), .run (), .tick elapsed]).bind (·.reading ()) =
        if start + span ≤ start + elapsed then none else some [] := rfl

theorem memoryKeeps_iff (now : Instant) (ttl : Duration) (elapsed : Nat) :
    memoryKeeps now ttl elapsed ↔
      now.nanos + ttl.total < INSTANT_END ∧ elapsed < ttl.total := by
  rw [memoryKeeps, memory_reading, memoryExpiresAt]
  constructor
  · rintro ⟨held, read⟩
    constructor
    · by_contra late
      exact held (if_neg late)
    · by_contra late
      rw [if_pos (by omega)] at read
      cases read
  · rintro ⟨held, early⟩
    rw [if_pos held, if_neg (by omega)]
    exact ⟨Option.some_ne_none _, rfl⟩

theorem memory_honours_iff (ttl : Duration) (now : Instant) (unixNow : Nat) :
    Honours ttl (fun elapsed => Backend.memory.keeps ttl now unixNow elapsed) ↔
      now.nanos + ttl.total < INSTANT_END := by
  have start := now.lt
  constructor
  · intro honours
    by_contra late
    have kept := honours.not_never (by omega)
    exact late ((memoryKeeps_iff now ttl 0).mp kept).1
  · intro held
    refine ⟨ttl.total, .inl rfl, fun elapsed => ?_⟩
    simp only [Backend.keeps, memoryKeeps_iff]
    exact and_iff_right held

theorem memcachedExpiration_pos (ttl : Duration) : memcachedExpiration ttl ≠ 0 := by
  have whole := one_le_wholeSeconds ttl
  unfold memcachedExpiration U32_MAX
  split <;> omega

/-- The `exptime` counts from now exactly for a TTL of at most thirty days. -/
theorem memcachedExpiration_le_iff (ttl : Duration) :
    memcachedExpiration ttl ≤ REALTIME_MAXDELTA ↔ ttl.secs ≤ REALTIME_MAXDELTA := by
  unfold memcachedExpiration wholeSeconds U32_MAX REALTIME_MAXDELTA
  split <;> omega

theorem memcached_honours_iff (ttl : Duration) (now : Instant) :
    (∀ unixNow, Honours ttl (fun elapsed => Backend.memcached.keeps ttl now unixNow elapsed)) ↔
      ttl.secs ≤ REALTIME_MAXDELTA := by
  have nonzero := memcachedExpiration_pos ttl
  constructor
  · intro honours
    by_contra long
    have absolute := (memcachedExpiration_le_iff ttl).not.mpr long
    -- a clock that has already reached the `exptime`
    have kept := (honours (memcachedExpiration ttl * NANOS_PER_SEC)).not_never (by
      unfold Duration.total NANOS_PER_SEC
      unfold REALTIME_MAXDELTA at long
      omega)
    simp only [Backend.keeps, exptimeKeeps, nonzero, if_neg absolute, false_or] at kept
    omega
  · intro short unixNow
    have relative := (memcachedExpiration_le_iff ttl).mpr short
    have exact : memcachedExpiration ttl = wholeSeconds ttl := by
      unfold memcachedExpiration wholeSeconds U32_MAX
      unfold REALTIME_MAXDELTA at short
      rw [if_pos (by omega)]
    refine ⟨_, .inr rfl, fun elapsed => ?_⟩
    simp only [Backend.keeps, exptimeKeeps, nonzero, if_pos relative, false_or]
    rw [exact]

/-- **The backends honour a TTL, each at any time of the Unix clock, exactly when** it is
at most thirty days and the `Instant` it ends at exists. -/
theorem backends_honour_ttl_iff (ttl : Duration) (now : Instant) :
    (∀ backend unixNow,
      Honours ttl fun elapsed => Backend.keeps ttl now unixNow elapsed backend) ↔
      ttl.secs ≤ REALTIME_MAXDELTA ∧ now.nanos + ttl.total < INSTANT_END := by
  constructor
  · intro honours
    refine ⟨(memcached_honours_iff ttl now).mp (honours .memcached), ?_⟩
    exact (memory_honours_iff ttl now 0).mp (honours .memory 0)
  · rintro ⟨short, held⟩ backend unixNow
    cases backend with
    | redis => exact redis_honours ttl now unixNow
    | memcached => exact (memcached_honours_iff ttl now).mpr short unixNow
    | memory => exact (memory_honours_iff ttl now unixNow).mpr held

/-- Thirty days and a second. -/
def longTtl : Duration := ⟨REALTIME_MAXDELTA + 1, 0, by decide, by decide⟩

/-- At second 1760000000 of the Unix clock memcached drops the entry at once, and the
other two keep it for the whole TTL. -/
theorem long_ttl_dropped :
    ¬ Backend.memcached.keeps longTtl ⟨0, by decide⟩ (1760000000 * NANOS_PER_SEC) 0 ∧
    Backend.redis.keeps longTtl ⟨0, by decide⟩ (1760000000 * NANOS_PER_SEC)
      (REALTIME_MAXDELTA * NANOS_PER_SEC) ∧
    Backend.memory.keeps longTtl ⟨0, by decide⟩ (1760000000 * NANOS_PER_SEC)
      (REALTIME_MAXDELTA * NANOS_PER_SEC) := by
  refine ⟨?_, ?_, (memoryKeeps_iff _ _ _).mpr ⟨by decide, by decide⟩⟩
  · unfold Backend.keeps exptimeKeeps
    decide
  · unfold Backend.keeps setexKeeps
    decide

end RustyGasket.CacheTtl
