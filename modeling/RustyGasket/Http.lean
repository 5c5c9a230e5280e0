import Mathlib.Data.List.Induction
import RustyGasket.CacheKey

/-!
# Header values and header maps

The parts of the `http` crate the middleware reads: which bytes a header value
may hold, when it decodes with `to_str`, and lookups in a `HeaderMap`. Names are
lower case, as the crate stores them.
-/

namespace RustyGasket

/-- Tab, or anything from space up that is not DEL: bytes 0x80 to 0xFF included. -/
def isHeaderByte (b : UInt8) : Bool := (32 ≤ b && b != 127) || b == 9

/-- What `to_str` accepts: tab and visible ASCII. -/
def isVisibleAscii (b : UInt8) : Bool := (32 ≤ b && b < 127) || b == 9

structure HeaderValue where
  bytes : Bytes
  legal : ∀ b ∈ bytes, isHeaderByte b = true
  deriving DecidableEq

/-- Bytes checked one by one. -/
def HeaderValue.ofBytes (bytes : Bytes) (legal : bytes.all isHeaderByte = true) : HeaderValue :=
  ⟨bytes, List.all_eq_true.mp legal⟩

def asciiText (bytes : Bytes) : List Char := bytes.map fun b => Char.ofNat b.toNat

theorem forall_byte {P : UInt8 → Prop} (all : ∀ n < 256, P (UInt8.ofNat n)) (b : UInt8) :
    P b := by
  have at_b := all b.toNat b.toNat_lt
  rwa [UInt8.ofNat_toNat] at at_b

theorem toChar_injective : Function.Injective fun b : UInt8 => Char.ofNat b.toNat := by
  have read : ∀ b : UInt8, (Char.ofNat b.toNat).toNat = b.toNat := by
    apply forall_byte
    decide +kernel
  intro b b' same
  have numbers := congrArg Char.toNat same
  rw [read, read] at numbers
  exact UInt8.toNat_inj.mp numbers

theorem asciiText_injective : Function.Injective asciiText :=
  List.map_injective_iff.mpr toChar_injective

/-- `HeaderValue::to_str`. -/
def HeaderValue.toStr (v : HeaderValue) : Option (List Char) :=
  if v.bytes.all isVisibleAscii then some (asciiText v.bytes) else none

theorem isHeaderByte_of_visible {b : UInt8} (h : isVisibleAscii b = true) :
    isHeaderByte b = true := by
  revert h
  apply forall_byte (P := fun b => isVisibleAscii b = true → isHeaderByte b = true)
  decide +kernel

/-- `HeaderValue::from_bytes`. -/
def HeaderValue.fromBytes (bytes : Bytes) : Option HeaderValue :=
  if legal : bytes.all isHeaderByte = true then some (.ofBytes bytes legal) else none

/-- `HeaderValue::from_str`: text beyond ASCII is legal, though no `to_str` shows it. -/
def HeaderValue.fromStr (text : String) : Option HeaderValue := fromBytes (utf8 text)

theorem HeaderValue.fromBytes_bytes (value : HeaderValue) : fromBytes value.bytes = some value := by
  rw [fromBytes, dif_pos (List.all_eq_true.mpr value.legal)]
  rfl

theorem HeaderValue.fromStr_visible {text : String}
    (visible : (utf8 text).all isVisibleAscii = true) :
    ∃ line, fromStr text = some line ∧ line.bytes = utf8 text := by
  have legal : (utf8 text).all isHeaderByte = true :=
    List.all_eq_true.mpr fun b hb => isHeaderByte_of_visible (List.all_eq_true.mp visible b hb)
  exact ⟨.ofBytes (utf8 text) legal, dif_pos legal, rfl⟩

abbrev HeaderMap := List (String × HeaderValue)

namespace HeaderMap

def getAll (headers : HeaderMap) (name : String) : List HeaderValue :=
  (headers.filter (·.1 = name)).map (·.2)

def get (headers : HeaderMap) (name : String) : Option HeaderValue :=
  (headers.getAll name).head?

/-- All lines of `name` replaced by `lines`. -/
def setAll (headers : HeaderMap) (name : String) (lines : List HeaderValue) : HeaderMap :=
  headers.filter (·.1 ≠ name) ++ lines.map fun line => (name, line)

@[simp] theorem getAll_setAll (headers : HeaderMap) (name : String) (lines : List HeaderValue) :
    (headers.setAll name lines).getAll name = lines := by
  simp [getAll, setAll, List.filter_map, Function.comp_def]

theorem getAll_setAll_of_ne (headers : HeaderMap) {name other : String} (differs : other ≠ name)
    (lines : List HeaderValue) : (headers.setAll name lines).getAll other = headers.getAll other := by
  have kept : (headers.filter (·.1 ≠ name)).filter (·.1 = other) = headers.filter (·.1 = other) := by
    rw [List.filter_filter]
    apply List.filter_congr
    intro h _
    by_cases same : h.1 = other
    · simp [same, differs]
    · simp [same]
  have added : (lines.map fun line => (name, line)).filter (·.1 = other) = [] := by
    simp [List.filter_map, Function.comp_def, differs.symm]
  rw [getAll, setAll, List.filter_append, kept, added, List.append_nil, getAll]

/-- Lines inserted one after another: of each name the last one is left. -/
theorem getAll_foldl_setAll (lines : HeaderMap) (name : String) :
    HeaderMap.getAll (lines.foldl (fun headers h => setAll headers h.1 [h.2]) []) name =
      (lines.getAll name).getLast?.toList := by
  induction lines using List.reverseRecOn with
  | nil => rfl
  | append_singleton rest h ih =>
    rw [List.foldl_append, List.foldl_cons, List.foldl_nil]
    by_cases same : h.1 = name
    · subst same
      rw [getAll_setAll]
      simp [getAll]
    · rw [getAll_setAll_of_ne _ (Ne.symm same), ih]
      simp [getAll, same]

end HeaderMap

/-- The Unicode White_Space property, by which `str::trim` trims. -/
def isWhitespace (c : Char) : Bool :=
  c == ' ' || (9 ≤ c.toNat && c.toNat ≤ 13) || c.toNat == 0x85 || c.toNat == 0xa0 ||
    c.toNat == 0x1680 || (0x2000 ≤ c.toNat && c.toNat ≤ 0x200a) || c.toNat == 0x2028 ||
    c.toNat == 0x2029 || c.toNat == 0x202f || c.toNat == 0x205f || c.toNat == 0x3000

/-- In ASCII. -/
def lowercase (text : List Char) : List Char := text.map Char.toLower

def trim (s : List Char) : List Char :=
  ((s.dropWhile isWhitespace).reverse.dropWhile isWhitespace).reverse

theorem dropWhile_of_none {p : Char → Bool} {s : List Char} (h : ∀ c ∈ s, p c = false) :
    s.dropWhile p = s := by
  cases s with
  | nil => rfl
  | cons c rest => rw [List.dropWhile_cons, h c List.mem_cons_self, if_neg Bool.false_ne_true]

theorem trim_of_none {s : List Char} (h : ∀ c ∈ s, isWhitespace c = false) : trim s = s := by
  rw [trim, dropWhile_of_none h, dropWhile_of_none, List.reverse_reverse]
  exact fun c hc => h c (List.mem_reverse.mp hc)

end RustyGasket
