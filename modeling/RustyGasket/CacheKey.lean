import Std.Data.String.ToNat
import RustyGasket.PrefixCode

/-!
# Cache keys

`CacheKey`, `encode_key_part`, `validate_memcached_key` and `stable_hash` of the
cache module. A Rust string stands here by its UTF-8 bytes, which is what the
encoder, the validator and the hash read.
-/

namespace RustyGasket

abbrev Bytes := List UInt8

/-- The UTF-8 bytes of a string. -/
def utf8 (s : String) : Bytes := s.toByteArray.data.toList

theorem utf8_injective : Function.Injective utf8 := by
  intro s t h
  apply String.toByteArray_inj.mp
  exact ByteArray.ext (Array.toList_inj.mp h)

/-- Wrapped errors stand by their display text. -/
inductive CacheError
  | invalidConfig (reason : String)
  | invalidKey (reason : String)
  | encode (error : String)
  | decode (error : String)
  | loader (error : String)
  | backend (reason : String)
  deriving DecidableEq, Repr

def MAX_MEMCACHED_KEY_BYTES : Nat := 250

def isAsciiAlphanumeric (byte : UInt8) : Bool :=
  (48 ≤ byte && byte ≤ 57) || (65 ≤ byte && byte ≤ 90) || (97 ≤ byte && byte ≤ 122)

/-- Bytes the encoder leaves alone: alphanumerics and `-`, `_`, `.`, `~`. -/
def isUnreserved (byte : UInt8) : Bool :=
  isAsciiAlphanumeric byte || byte == 45 || byte == 95 || byte == 46 || byte == 126

def hexDigit (value : UInt8) : UInt8 :=
  if value ≤ 9 then 48 + value else if value ≤ 15 then 65 + (value - 10) else 48

/-- One turn of the encoder's loop. -/
def encodeByte (byte : UInt8) : Bytes :=
  if isUnreserved byte then [byte] else [37, hexDigit (byte >>> 4), hexDigit (byte &&& 0x0f)]

def encodeKeyPart (value : Bytes) : Bytes := value.flatMap encodeByte

/-- The canonical key string. -/
structure CacheKey where
  text : Bytes
  deriving DecidableEq, Repr

namespace CacheKey

def new (area : String) : CacheKey := ⟨encodeKeyPart (utf8 area)⟩

/-- Push `:`, then the encoded part. -/
def part (key : CacheKey) (value : String) : CacheKey :=
  ⟨key.text ++ 58 :: encodeKeyPart (utf8 value)⟩

end CacheKey

def isAsciiWhitespace (byte : UInt8) : Bool :=
  byte == 32 || byte == 9 || byte == 10 || byte == 12 || byte == 13

def isAsciiControl (byte : UInt8) : Bool := byte ≤ 31 || byte == 127

def validateMemcachedKey (key : Bytes) : Except CacheError Unit :=
  if key.isEmpty then
    .error (.invalidKey "cache key cannot be empty")
  else if key.length > MAX_MEMCACHED_KEY_BYTES then
    .error (.invalidKey
      (s!"cache key is {key.length} bytes; " ++
        s!"maximum supported key length is {MAX_MEMCACHED_KEY_BYTES} bytes"))
  else if key.any fun byte => isAsciiWhitespace byte || isAsciiControl byte then
    .error (.invalidKey "cache key cannot contain whitespace or control characters")
  else
    .ok ()

def validateBackendKey (key : Bytes) : Except CacheError Unit := validateMemcachedKey key

/-- `ObjectCache::namespaced_key`. -/
def namespacedKey (space : String) (key : CacheKey) : Except CacheError Bytes :=
  let full := encodeKeyPart (utf8 space) ++ 58 :: key.text
  (validateBackendKey full).map fun _ => full

def FNV_OFFSET : UInt64 := 14695981039346656037

def FNV_PRIME : UInt64 := 1099511628211

/-- 64-bit FNV-1a with wrapping multiplication. -/
def stableHash (value : Bytes) : UInt64 :=
  value.foldl (fun hash byte => (hash ^^^ byte.toUInt64) * FNV_PRIME) FNV_OFFSET

/-! ## The encoding can be read back -/

theorem hexDigit_injective : ∀ a b : UInt8, a ≤ 15 → b ≤ 15 → hexDigit a = hexDigit b → a = b := by
  intro a b ha hb h
  simp only [hexDigit] at h
  grind

theorem toNat_high (byte : UInt8) : (byte >>> 4).toNat = byte.toNat / 16 := by
  simp [UInt8.toNat_shiftRight, Nat.shiftRight_eq_div_pow]

theorem toNat_low (byte : UInt8) : (byte &&& 0x0f).toNat = byte.toNat % 16 := by
  rw [UInt8.toNat_and]
  exact Nat.and_two_pow_sub_one_eq_mod _ 4

theorem nibbles {a b : UInt8} (hhi : a >>> 4 = b >>> 4) (hlo : a &&& 0x0f = b &&& 0x0f) :
    a = b := by
  have high := congrArg UInt8.toNat hhi
  have low := congrArg UInt8.toNat hlo
  rw [toNat_high, toNat_high] at high
  rw [toNat_low, toNat_low] at low
  apply UInt8.toNat_inj.mp
  omega

theorem high_le (byte : UInt8) : byte >>> 4 ≤ 15 := by
  have := byte.toNat_lt
  rw [UInt8.le_iff_toNat_le, toNat_high]
  change byte.toNat / 16 ≤ 15
  omega

theorem low_le (byte : UInt8) : byte &&& 0x0f ≤ 15 := by
  rw [UInt8.le_iff_toNat_le, toNat_low]
  change byte.toNat % 16 ≤ 15
  omega

theorem percent_reserved : isUnreserved 37 = false := by decide

/-- An escape starts with `%`, which stands for nothing itself. -/
theorem encodeByte_prefixFree : PrefixCode.PrefixFree encodeByte := by
  constructor
  · intro a
    simp only [encodeByte]
    split <;> simp
  · intro a b h
    simp only [encodeByte] at h
    split at h <;> split at h
    · simpa using h
    · rename_i ha hb
      have : a = 37 := by simpa using h
      simp [this, percent_reserved] at ha
    · simp at h
    · have h' : hexDigit (a >>> 4) = hexDigit (b >>> 4) ∧
          hexDigit (a &&& 0x0f) = hexDigit (b &&& 0x0f) := by simpa using h
      exact nibbles (hexDigit_injective _ _ (high_le a) (high_le b) h'.1)
        (hexDigit_injective _ _ (low_le a) (low_le b) h'.2)

theorem encodeKeyPart_injective : Function.Injective encodeKeyPart :=
  PrefixCode.flatMap_injective encodeByte_prefixFree

theorem hexDigit_ne_colon {value : UInt8} (h : value ≤ 15) : hexDigit value ≠ 58 := by
  simp only [hexDigit]
  grind

/-- The separator never occurs inside an encoded part. -/
theorem colon_not_mem_encodeKeyPart (value : Bytes) : (58 : UInt8) ∉ encodeKeyPart value := by
  intro h
  obtain ⟨byte, _, hb⟩ := List.mem_flatMap.mp h
  simp only [encodeByte] at hb
  split at hb
  · rename_i hu
    have : byte = 58 := (List.mem_singleton.mp hb).symm
    simp [this, isUnreserved, isAsciiAlphanumeric] at hu
  · have hhi := hexDigit_ne_colon (high_le byte)
    have hlo := hexDigit_ne_colon (low_le byte)
    simp [hhi.symm, hlo.symm] at hb

/-- The text of a key built from an area and further parts, each pushed in turn. -/
def CacheKey.ofParts (area : String) (parts : List String) : CacheKey :=
  parts.foldl CacheKey.part (.new area)

theorem CacheKey.foldl_part_text (key : CacheKey) (parts : List String) :
    (parts.foldl CacheKey.part key).text =
      key.text ++ PrefixCode.fields 58 (parts.map fun p => encodeKeyPart (utf8 p)) := by
  induction parts generalizing key with
  | nil => simp [PrefixCode.fields]
  | cons p ps ih => simp [ih, CacheKey.part, PrefixCode.fields]

/-- A key determines the area and the list of parts it was built from. -/
theorem CacheKey.ofParts_injective {area area' : String} {parts parts' : List String}
    (h : CacheKey.ofParts area parts = CacheKey.ofParts area' parts') :
    area = area' ∧ parts = parts' := by
  have text := congrArg CacheKey.text h
  simp only [CacheKey.ofParts, CacheKey.foldl_part_text, CacheKey.new] at text
  have fields : PrefixCode.fields 58 ((area :: parts).map fun p => encodeKeyPart (utf8 p)) =
      PrefixCode.fields 58 ((area' :: parts').map fun p => encodeKeyPart (utf8 p)) := by
    simpa [PrefixCode.fields] using text
  have clean : ∀ (names : List String),
      ∀ p ∈ names.map fun p => encodeKeyPart (utf8 p), 58 ∉ p := by
    intro names p hp
    obtain ⟨name, _, rfl⟩ := List.mem_map.mp hp
    exact colon_not_mem_encodeKeyPart _
  have encoded := PrefixCode.fields_injective (clean _) (clean _) fields
  have inj : Function.Injective fun p : String => encodeKeyPart (utf8 p) :=
    encodeKeyPart_injective.comp utf8_injective
  exact List.cons.inj (List.map_injective_iff.mpr inj encoded)

/-! ## Keys in a namespace -/

/-- What `namespacedKey` checks and returns. -/
def namespacedText (space : String) (key : CacheKey) : Bytes :=
  encodeKeyPart (utf8 space) ++ 58 :: key.text

theorem namespacedKey_of_valid {space : String} {key : CacheKey}
    (valid : validateMemcachedKey (namespacedText space key) = .ok ()) :
    namespacedKey space key = .ok (namespacedText space key) := by
  rw [namespacedKey, validateBackendKey]
  rw [namespacedText] at valid ⊢
  simp only [valid]
  rfl

theorem namespacedKey_eq {space : String} {key : CacheKey} {full : Bytes}
    (h : namespacedKey space key = .ok full) :
    full = namespacedText space key := by
  simp only [namespacedKey] at h
  cases hv : validateBackendKey (encodeKeyPart (utf8 space) ++ 58 :: key.text) with
  | error _ => rw [hv] at h; cases h
  | ok _ => rw [hv] at h; cases h; rfl

/-- A namespace is written like one more part in front. -/
theorem namespacedText_ofParts (space area : String) (parts : List String) :
    namespacedText space (.ofParts area parts) = (CacheKey.ofParts space (area :: parts)).text := by
  simp only [namespacedText, CacheKey.ofParts, CacheKey.foldl_part_text, CacheKey.new,
    PrefixCode.fields, List.map_cons, List.flatMap_cons, List.cons_append]

/-- A byte that prints: neither whitespace nor a control character. -/
def isGraphic (byte : UInt8) : Bool := ! (isAsciiWhitespace byte || isAsciiControl byte)

theorem isGraphic_of_range {byte : UInt8} (lower : 33 ≤ byte) (upper : byte ≤ 126) :
    isGraphic byte = true := by
  simp only [isGraphic, isAsciiWhitespace, isAsciiControl, Bool.not_eq_true', Bool.or_eq_false_iff,
    beq_eq_false_iff_ne, decide_eq_false_iff_not]
  grind

theorem hexDigit_graphic {value : UInt8} (h : value ≤ 15) : isGraphic (hexDigit value) = true := by
  apply isGraphic_of_range <;> simp only [hexDigit] <;> grind

theorem isUnreserved_graphic {byte : UInt8} (h : isUnreserved byte = true) :
    isGraphic byte = true := by
  simp only [isUnreserved, isAsciiAlphanumeric] at h
  apply isGraphic_of_range <;> grind

theorem encodeKeyPart_graphic (value : Bytes) :
    ∀ byte ∈ encodeKeyPart value, isGraphic byte = true := by
  intro byte hb
  obtain ⟨raw, -, hb⟩ := List.mem_flatMap.mp hb
  simp only [encodeByte] at hb
  split at hb
  · rename_i unreserved
    obtain rfl := List.mem_singleton.mp hb
    exact isUnreserved_graphic unreserved
  · simp only [List.mem_cons, List.not_mem_nil, or_false] at hb
    obtain rfl | rfl | rfl := hb
    · decide
    · exact hexDigit_graphic (high_le raw)
    · exact hexDigit_graphic (low_le raw)

theorem CacheKey.ofParts_graphic (area : String) (parts : List String) :
    ∀ byte ∈ (CacheKey.ofParts area parts).text, isGraphic byte = true := by
  intro byte hb
  simp only [CacheKey.ofParts, CacheKey.foldl_part_text, CacheKey.new, PrefixCode.fields,
    List.mem_append, List.mem_flatMap, List.mem_cons, List.mem_map] at hb
  obtain area | ⟨_, ⟨part, -, rfl⟩, rfl | part⟩ := hb
  · exact encodeKeyPart_graphic _ byte area
  · decide
  · exact encodeKeyPart_graphic _ byte part

theorem validateMemcachedKey_ok {key : Bytes} (nonempty : key ≠ [])
    (short : key.length ≤ MAX_MEMCACHED_KEY_BYTES) (graphic : ∀ byte ∈ key, isGraphic byte = true) :
    validateMemcachedKey key = .ok () := by
  rw [validateMemcachedKey, if_neg (by simpa using nonempty), if_neg (by omega), if_neg]
  rw [List.any_eq_true]
  rintro ⟨byte, hb, bad⟩
  have good := graphic byte hb
  rw [isGraphic, bad] at good
  cases good

/-- **Keys are injective and safe for the backends.** For all namespaces and all
nonempty lists of parts: equal keys in a namespace come from the same namespace and
the same parts, whether they are compared as written or as `namespaced_key` returns
them; and a key that is not too long is accepted. -/
theorem namespacedKey_injective_and_safe (space space' area area' : String)
    (parts parts' : List String) :
    (namespacedText space (.ofParts area parts) = namespacedText space' (.ofParts area' parts') →
      space = space' ∧ area :: parts = area' :: parts') ∧
    (∀ full, namespacedKey space (.ofParts area parts) = .ok full →
      namespacedKey space' (.ofParts area' parts') = .ok full →
      space = space' ∧ area :: parts = area' :: parts') ∧
    ((namespacedText space (.ofParts area parts)).length ≤ MAX_MEMCACHED_KEY_BYTES →
      validateMemcachedKey (namespacedText space (.ofParts area parts)) = .ok () ∧
        namespacedKey space (.ofParts area parts) =
          .ok (namespacedText space (.ofParts area parts))) := by
  have injective :
      namespacedText space (.ofParts area parts) = namespacedText space' (.ofParts area' parts') →
      space = space' ∧ area :: parts = area' :: parts' := by
    intro same
    rw [namespacedText_ofParts, namespacedText_ofParts] at same
    exact CacheKey.ofParts_injective (congrArg CacheKey.mk same)
  refine ⟨injective, fun full h h' => ?_, fun short => ?_⟩
  · exact injective ((namespacedKey_eq h).symm.trans (namespacedKey_eq h'))
  · have nonempty : namespacedText space (.ofParts area parts) ≠ [] := by
      simp [namespacedText]
    have valid := validateMemcachedKey_ok nonempty short (by
      rw [namespacedText_ofParts]
      exact CacheKey.ofParts_graphic space (area :: parts))
    exact ⟨valid, namespacedKey_of_valid valid⟩

end RustyGasket
