import RustyGasket.CacheTtl
import RustyGasket.Fallible
import RustyGasket.Http
import RustyGasket.Json

/-!
# Durations in configuration, and the clock they are added to

A TTL is a number of seconds or a text with a unit. The parser saturates at the last
`u64`, about twice the seconds an `Instant` can hold, and `MemoryCacheBackend::set` adds
what it made to the clock.
-/

namespace RustyGasket

def U64_MAX : Nat := 18446744073709551615

/-- `u64::saturating_mul`. -/
def saturatingMul (amount : UInt64) (factor : Nat) : UInt64 :=
  UInt64.ofNat (min (amount.toNat * factor) U64_MAX)

/-- `parse::<u64>()`: an optional plus sign and at least one digit. -/
def parseU64 (text : List Char) : Option UInt64 :=
  let digits := if text.head? = some '+' then text.tail else text
  if digits ≠ [] ∧ digits.all Char.isDigit then
    let value := Nat.ofDigitChars 10 digits 0
    if value ≤ U64_MAX then some (UInt64.ofNat value) else none
  else none

def splitNumberAndUnit (value : List Char) : Except String (List Char × List Char) :=
  let number := value.takeWhile Char.isDigit
  if number = [] then
    let value := String.ofList value
    .error s!"missing numeric value in '{value}'"
  else .ok (number, trim (value.dropWhile Char.isDigit))

/-- `parse_duration_text` and `parse_memory_budget`: a number and the factor of its unit. -/
def parseAmount (what : String) (normalize : List Char → List Char)
    (factorOf : String → Option Nat) (value : List Char) : Except String UInt64 := do
  let (number, unit) ← splitNumberAndUnit (trim value)
  let other := String.ofList (normalize unit)
  match parseU64 number, factorOf other with
  | none, _ =>
    let number := String.ofList number
    .error s!"invalid {what} amount '{number}'"
  | some _, none => .error s!"unsupported {what} unit '{other}'"
  | some amount, some factor => .ok (saturatingMul amount factor)

/-- The seconds of a unit. -/
def durationUnit : String → Option Nat
  | "" | "s" | "sec" | "secs" | "second" | "seconds" => some 1
  | "m" | "min" | "mins" | "minute" | "minutes" => some 60
  | "h" | "hr" | "hrs" | "hour" | "hours" => some (60 * 60)
  | _ => none

theorem CacheTtl.NANOS_PER_SEC_pos : 0 < NANOS_PER_SEC := by decide

/-- `Duration::from_secs`. -/
def CacheTtl.Duration.fromSecs (seconds : UInt64) : CacheTtl.Duration :=
  ⟨seconds.toNat, 0, seconds.toNat_lt, NANOS_PER_SEC_pos⟩

def parseDurationText (value : List Char) : Except String CacheTtl.Duration :=
  (parseAmount "duration" lowercase durationUnit value).map .fromSecs

/-! ## `CacheTtl` -/

structure CacheTtl where
  duration : CacheTtl.Duration

/-- What serde reports of a value it cannot read. -/
inductive DeError
  | invalidType (expected : String)
  | custom (message : String)
  | unknownVariant (name : String)
  | missingField (field : String)
  | invalidLength (length : Nat)
  deriving DecidableEq, Repr

/-- An integer that arrives at `visit_u64`. -/
def Json.asU64 : Json → Option UInt64
  | .number text => if text.toList.head? = some '+' then none else parseU64 text.toList
  | _ => none

/-- `deserialize_any` with a visitor for integers and texts. -/
def deserializeAmount {α : Type} (expecting : String) (ofInteger : UInt64 → α)
    (ofText : List Char → Except String α) (value : Json) : Except DeError α :=
  match value.asU64, value.asStr with
  | some integer, _ => .ok (ofInteger integer)
  | none, some text => (ofText text.toList).mapError .custom
  | none, none => .error (.invalidType expecting)

/-! ## What the parser accepts -/

theorem saturatingMul_toNat (amount : UInt64) (factor : Nat) :
    (saturatingMul amount factor).toNat = min (amount.toNat * factor) U64_MAX := by
  have bound : min (amount.toNat * factor) U64_MAX < UInt64.size := by
    unfold U64_MAX UInt64.size
    omega
  exact UInt64.toNat_ofNat_of_lt' bound

theorem splitNumberAndUnit_ok {value number unit : List Char}
    (h : splitNumberAndUnit value = .ok (number, unit)) :
    number = value.takeWhile Char.isDigit ∧ unit = trim (value.dropWhile Char.isDigit) := by
  simp only [splitNumberAndUnit] at h
  split at h
  · cases h
  · cases h
    exact ⟨rfl, rfl⟩

theorem unsigned_of_digits {text : List Char} (digits : text.all Char.isDigit = true) :
    text.head? ≠ some '+' := by
  intro plus
  have digit := List.all_eq_true.mp digits '+' (List.mem_of_mem_head? plus)
  cases digit

theorem parseU64_digits {text : List Char} {amount : UInt64} (digits : text.all Char.isDigit = true)
    (h : parseU64 text = some amount) : amount.toNat = Nat.ofDigitChars 10 text 0 := by
  simp only [parseU64, if_neg (unsigned_of_digits digits)] at h
  split at h
  · split at h
    next bound =>
      cases h
      apply UInt64.toNat_ofNat_of_lt'
      exact lt_of_le_of_lt bound (by decide)
    next => cases h
  · cases h

theorem parseAmount_ok {what : String} {normalize : List Char → List Char}
    {factorOf : String → Option Nat} {value : List Char} {result : UInt64}
    (h : parseAmount what normalize factorOf value = .ok result) :
    ∃ factor, factorOf (String.ofList (normalize
        (trim ((trim value).dropWhile Char.isDigit)))) = some factor ∧
      result.toNat = min (Nat.ofDigitChars 10 ((trim value).takeWhile Char.isDigit) 0 * factor)
        U64_MAX := by
  obtain ⟨⟨number, unit⟩, parts, h⟩ := Fallible.bind_ok h
  obtain ⟨rfl, rfl⟩ := splitNumberAndUnit_ok parts
  dsimp only at h
  split at h
  next => cases h
  next => cases h
  next amount factor parsed known =>
    cases h
    have exact_amount := parseU64_digits (List.all_takeWhile ..) parsed
    refine ⟨factor, known, ?_⟩
    rw [saturatingMul_toNat, exact_amount]

namespace CacheTtl

def new (duration : Duration) : CacheTtl := ⟨duration⟩

def seconds (seconds : UInt64) : CacheTtl := ⟨.fromSecs seconds⟩

def minutes (minutes : UInt64) : CacheTtl := ⟨.fromSecs (saturatingMul minutes 60)⟩

def deserialize (value : Json) : Except DeError CacheTtl :=
  (deserializeAmount "a duration in seconds or a string such as '30s', '5m', '1h'"
    Duration.fromSecs parseDurationText value).map new

/-! ## From the source of a TTL to the clock -/

/-- Where a TTL comes from. -/
inductive Source
  | config (value : Json)
  | new (duration : Duration)
  | seconds (seconds : UInt64)
  | minutes (minutes : UInt64)

def Source.ttl : Source → Except DeError CacheTtl
  | config value => deserialize value
  | new duration => .ok (CacheTtl.new duration)
  | seconds n => .ok (CacheTtl.seconds n)
  | minutes n => .ok (CacheTtl.minutes n)

/-- The number of a duration text times its unit, however large. -/
def askedSeconds (text : List Char) : Nat :=
  Nat.ofDigitChars 10 ((trim text).takeWhile Char.isDigit) 0 *
    (durationUnit (String.ofList
      (lowercase (trim ((trim text).dropWhile Char.isDigit))))).getD 0

/-- The nanoseconds a source asks for. -/
def Source.asked : Source → Nat
  | config value => match value.asU64, value.asStr with
    | some integer, _ => integer.toNat * NANOS_PER_SEC
    | none, some text => askedSeconds text.toList * NANOS_PER_SEC
    | none, none => 0
  | new duration => duration.total
  | seconds n => n.toNat * NANOS_PER_SEC
  | minutes n => n.toNat * 60 * NANOS_PER_SEC

theorem fromSecs_total (seconds : UInt64) :
    (Duration.fromSecs seconds).total = seconds.toNat * NANOS_PER_SEC :=
  Nat.add_zero _

theorem parseDurationText_total {text : List Char} {duration : Duration}
    (h : parseDurationText text = .ok duration) :
    duration.total = min (askedSeconds text) U64_MAX * NANOS_PER_SEC := by
  obtain ⟨seconds, parsed, rfl⟩ := Fallible.map_ok h
  obtain ⟨factor, known, amount⟩ := parseAmount_ok parsed
  rw [fromSecs_total, amount, askedSeconds, known]
  rfl

/-- Saturating makes no difference to the clock, which ends earlier. -/
theorem saturated_fits_iff (now : Instant) (seconds : Nat) :
    now.nanos + min seconds U64_MAX * NANOS_PER_SEC < INSTANT_END ↔
      now.nanos + seconds * NANOS_PER_SEC < INSTANT_END := by
  unfold U64_MAX INSTANT_END NANOS_PER_SEC UInt64.size
  omega

theorem memoryExpiresAt_fits_iff (now : Instant) (ttl : Duration) :
    memoryExpiresAt now ttl ≠ none ↔ now.nanos + ttl.total < INSTANT_END := by
  unfold memoryExpiresAt
  split <;> simp_all

/-- **A value can be stored exactly when** the instant of the set and the time its TTL
asks for stay within the seconds an `Instant` holds. -/
theorem ttl_storable_iff (source : Source) (ttl : CacheTtl) (made : source.ttl = .ok ttl)
    (now : Instant) :
    memoryExpiresAt now ttl.duration ≠ none ↔ now.nanos + source.asked < INSTANT_END := by
  rw [memoryExpiresAt_fits_iff]
  cases source with
  | config value =>
    obtain ⟨duration, read, rfl⟩ := Fallible.map_ok made
    simp only [deserializeAmount] at read
    split at read
    next integer whole =>
      cases read
      simp only [Source.asked, whole, new, fromSecs_total]
    next text other found =>
      have parsed := Fallible.mapError_ok read
      simp only [Source.asked, other, found, new, parseDurationText_total parsed]
      exact saturated_fits_iff now _
    next => cases read
  | new duration =>
    cases made
    rfl
  | seconds n =>
    cases made
    simp only [Source.asked, CacheTtl.seconds, fromSecs_total]
  | minutes n =>
    cases made
    simp only [Source.asked, CacheTtl.minutes, fromSecs_total, saturatingMul_toNat]
    exact saturated_fits_iff now _

theorem fiveMinutes_storable :
    memoryExpiresAt ⟨0, by decide⟩ (CacheTtl.minutes 5).duration ≠ none ∧
    (Source.config (.string "5m")).ttl = .ok (CacheTtl.minutes 5) := by
  have read : (Source.config (.string "5m")).ttl = .ok (CacheTtl.minutes 5) := by rfl
  refine ⟨(ttl_storable_iff _ _ read ⟨0, by decide⟩).mpr ?_, read⟩
  decide +kernel

/-- A TTL the configuration takes, and that no instant can be stored with. -/
theorem longestTtl_unstorable :
    (Source.config (.string "18446744073709551615s")).ttl =
      .ok (CacheTtl.seconds 18446744073709551615) ∧
    ∀ now, memoryExpiresAt now (CacheTtl.seconds 18446744073709551615).duration = none := by
  have read : (Source.config (.string "18446744073709551615s")).ttl =
      .ok (CacheTtl.seconds 18446744073709551615) := by rfl
  refine ⟨read, fun now => if_neg ?_⟩
  have total : (CacheTtl.seconds 18446744073709551615).duration.total =
      18446744073709551615 * NANOS_PER_SEC := fromSecs_total _
  rw [total]
  unfold INSTANT_END NANOS_PER_SEC UInt64.size
  omega

end CacheTtl

end RustyGasket
