import RustyGasket.CacheConfig
import RustyGasket.CorrelationId

/-!
# The bodies of error responses, written and read back

`ErrorResponse` and `ProblemDetails` as the members of a JSON text, in the order they are
written; a text can name a member twice, where a `serde_json` map cannot. `serde_json`
writes every number as it is but may read a float as one of its neighbours, and it reads
no text that is nested too deep.
-/

namespace RustyGasket

abbrev Members := List (String × Json)

/-! ## Values, read again -/

/-- Each number of a text, and what is written of the number it is read as. Integers are
read exactly. -/
structure NumberReader where
  read : String → String
  integer : ∀ n, n < UInt64.size → read (toString n) = toString n

instance : Inhabited NumberReader := ⟨id, fun _ _ => rfl⟩

namespace Json

variable (reader : NumberReader)

mutual

/-- A value after it was written and read. -/
def reread : Json → Json
  | .null => .null
  | .bool value => .bool value
  | .number text => .number (reader.read text)
  | .string text => .string text
  | .array items => .array (rereadItems items)
  | .object fields => .object (rereadFields fields)
termination_by structural value => value

def rereadItems : List Json → List Json
  | [] => []
  | item :: rest => item.reread :: rereadItems rest
termination_by structural items => items

def rereadFields : List (String × Json) → List (String × Json)
  | [] => []
  | field :: rest => rereadField field :: rereadFields rest
termination_by structural fields => fields

def rereadField : String × Json → String × Json
  | (key, value) => (key, value.reread)
termination_by structural field => field

end

mutual

/-- The numbers in a value. -/
def numbers : Json → List String
  | .number text => [text]
  | .array items => itemNumbers items
  | .object fields => fieldNumbers fields
  | .null | .bool _ | .string _ => []
termination_by structural value => value

def itemNumbers : List Json → List String
  | [] => []
  | item :: rest => item.numbers ++ itemNumbers rest
termination_by structural items => items

def fieldNumbers : List (String × Json) → List String
  | [] => []
  | field :: rest => fieldNumber field ++ fieldNumbers rest
termination_by structural fields => fields

def fieldNumber : String × Json → List String
  | (_, value) => value.numbers
termination_by structural field => field

end

mutual

/-- How many arrays and objects are open at the deepest place. -/
def depth : Json → Nat
  | .array items => itemsDepth items + 1
  | .object fields => fieldsDepth fields + 1
  | .null | .bool _ | .number _ | .string _ => 0
termination_by structural value => value

def itemsDepth : List Json → Nat
  | [] => 0
  | item :: rest => max item.depth (itemsDepth rest)
termination_by structural items => items

def fieldsDepth : List (String × Json) → Nat
  | [] => 0
  | field :: rest => max (fieldDepth field) (fieldsDepth rest)
termination_by structural fields => fields

def fieldDepth : String × Json → Nat
  | (_, value) => value.depth
termination_by structural field => field

end

/-- Every one of them is read as it was written. -/
def Kept (numbers : List String) : Prop := ∀ text ∈ numbers, reader.read text = text

theorem kept_append {numbers more : List String} :
    Kept reader (numbers ++ more) ↔ Kept reader numbers ∧ Kept reader more :=
  List.forall_mem_append

mutual

/-- A value is read back if and only if its numbers are. -/
theorem reread_eq_self (value : Json) :
    value.reread reader = value ↔ Kept reader value.numbers := by
  cases value with
  | null | bool | string => simp [reread, numbers, Kept]
  | number text => simp [reread, numbers, Kept]
  | array items => rw [reread, numbers, ← rereadItems_eq_self items, array.injEq]
  | object fields => rw [reread, numbers, ← rereadFields_eq_self fields, object.injEq]

theorem rereadItems_eq_self (items : List Json) :
    rereadItems reader items = items ↔ Kept reader (itemNumbers items) := by
  cases items with
  | nil => simp [rereadItems, itemNumbers, Kept]
  | cons item rest =>
    rw [rereadItems, itemNumbers, kept_append, ← reread_eq_self item, ← rereadItems_eq_self rest,
      List.cons.injEq]

theorem rereadFields_eq_self (fields : List (String × Json)) :
    rereadFields reader fields = fields ↔ Kept reader (fieldNumbers fields) := by
  cases fields with
  | nil => simp [rereadFields, fieldNumbers, Kept]
  | cons field rest =>
    rw [rereadFields, fieldNumbers, kept_append, ← rereadField_eq_self field,
      ← rereadFields_eq_self rest, List.cons.injEq]

theorem rereadField_eq_self (field : String × Json) :
    rereadField reader field = field ↔ Kept reader (fieldNumber field) := by
  obtain ⟨key, value⟩ := field
  rw [rereadField, fieldNumber, ← reread_eq_self value, Prod.mk.injEq, eq_self, true_and]

end

mutual

theorem reread_depth (value : Json) : (value.reread reader).depth = value.depth := by
  cases value with
  | null | bool | string | number => rfl
  | array items => rw [reread, depth, depth, rereadItems_depth items]
  | object fields => rw [reread, depth, depth, rereadFields_depth fields]

theorem rereadItems_depth (items : List Json) :
    itemsDepth (rereadItems reader items) = itemsDepth items := by
  cases items with
  | nil => rfl
  | cons item rest =>
    rw [rereadItems, itemsDepth, itemsDepth, reread_depth item, rereadItems_depth rest]

theorem rereadFields_depth (fields : List (String × Json)) :
    fieldsDepth (rereadFields reader fields) = fieldsDepth fields := by
  cases fields with
  | nil => rfl
  | cons field rest =>
    rw [rereadFields, fieldsDepth, fieldsDepth, rereadField_depth field, rereadFields_depth rest]

theorem rereadField_depth (field : String × Json) :
    fieldDepth (rereadField reader field) = fieldDepth field := by
  obtain ⟨key, value⟩ := field
  rw [rereadField, fieldDepth, fieldDepth, reread_depth value]

end

theorem fieldsDepth_append (fields more : List (String × Json)) :
    fieldsDepth (fields ++ more) = max (fieldsDepth fields) (fieldsDepth more) := by
  induction fields with
  | nil => simp [fieldsDepth]
  | cons field rest ih => rw [List.cons_append, fieldsDepth, ih, fieldsDepth, Nat.max_assoc]

theorem fieldsDepth_le {fields : List (String × Json)} {limit : Nat} :
    fieldsDepth fields ≤ limit ↔ ∀ field ∈ fields, fieldDepth field ≤ limit := by
  induction fields with
  | nil => simp [fieldsDepth]
  | cons field rest ih => rw [fieldsDepth, Nat.max_le, ih, List.forall_mem_cons]

theorem rereadFields_append (fields more : List (String × Json)) :
    rereadFields reader (fields ++ more) =
      rereadFields reader fields ++ rereadFields reader more := by
  induction fields with
  | nil => rfl
  | cons field rest ih => rw [List.cons_append, rereadFields, ih, rereadFields, List.cons_append]

theorem rereadFields_names (fields : List (String × Json)) :
    (rereadFields reader fields).map Prod.fst = fields.map Prod.fst := by
  induction fields with
  | nil => rfl
  | cons field rest ih => rw [rereadFields, List.map_cons, List.map_cons, ih, rereadField]

end Json

/-- A `serde_json::Map`. -/
@[ext] structure JsonMap where
  fields : List (String × Json)
  sorted : fields.Pairwise fun a b => a.1 < b.1

namespace JsonMap

def empty : JsonMap := ⟨[], .nil⟩

def insert (map : JsonMap) (name : String) (value : Json) : JsonMap :=
  ⟨Json.insertField name value map.fields, Json.insertField_sorted map.sorted⟩

def names (map : JsonMap) : List String := map.fields.map Prod.fst

def numbers (map : JsonMap) : List String := Json.fieldNumbers map.fields

def depth (map : JsonMap) : Nat := Json.fieldsDepth map.fields

variable (reader : NumberReader)

/-- The names stay, and so does their order. -/
def reread (map : JsonMap) : JsonMap where
  fields := Json.rereadFields reader map.fields
  sorted := by
    have names := List.pairwise_map.mpr map.sorted
    rw [← Json.rereadFields_names reader] at names
    exact List.pairwise_map.mp names

theorem reread_names (map : JsonMap) : (map.reread reader).names = map.names :=
  Json.rereadFields_names reader map.fields

variable {reader}

theorem reread_eq_self {map : JsonMap} :
    map.reread reader = map ↔ ∀ number ∈ map.numbers, reader.read number = number := by
  rw [JsonMap.ext_iff]
  exact Json.rereadFields_eq_self reader map.fields

end JsonMap

inductive ReadError
  | duplicateField (name : String)
  | invalidValue
  | recursionLimitExceeded
  | de (error : DeError)
  deriving DecidableEq, Repr

/-! ## Problem details -/

structure ProblemDetails where
  problemType : String
  title : String
  status : UInt16
  detail : Option String
  instanceUri : Option String
  extensions : JsonMap

namespace ProblemDetails

def new (status : UInt16) (problemType title : String) : ProblemDetails :=
  ⟨problemType, title, status, none, none, .empty⟩

/-- The fields, and the extensions flattened after them. -/
def serialize (problem : ProblemDetails) : Members :=
  [("type", .string problem.problemType), ("title", .string problem.title),
    ("status", .number (toString problem.status.toNat))] ++
  (problem.detail.map fun text => ("detail", Json.string text)).toList ++
  (problem.instanceUri.map fun text => ("instance", Json.string text)).toList ++
  problem.extensions.fields

/-- The locals of the visitor: the fields read so far, and the members kept for the map. -/
structure Slots where
  problemType : Option String
  title : Option String
  status : Option UInt16
  detail : Option (Option String)
  instanceUri : Option (Option String)
  collected : Members

def noSlots : Slots := ⟨none, none, none, none, none, []⟩

def readText (value : Json) : Except ReadError String := (readString value).mapError .de

def readU16 (value : Json) : Except ReadError UInt16 :=
  match value.asU64 with
  | some n => if n.toNat < UInt16.size then .ok (.ofNat n.toNat) else .error .invalidValue
  | none => .error (.de (.invalidType "u16"))

def readOptionalText (value : Json) : Except ReadError (Option String) :=
  (readOption readString value).mapError .de

/-- A field can be read once. -/
def fill {α : Type} (name : String) (read : Json → Except ReadError α) (slot : Option α)
    (value : Json) : Except ReadError (Option α) :=
  if slot.isSome then .error (.duplicateField name) else (read value).map some

def readMember (slots : Slots) (member : String × Json) : Except ReadError Slots :=
  if member.1 = "type" then
    (fill "type" readText slots.problemType member.2).map fun slot =>
      { slots with problemType := slot }
  else if member.1 = "title" then
    (fill "title" readText slots.title member.2).map fun slot => { slots with title := slot }
  else if member.1 = "status" then
    (fill "status" readU16 slots.status member.2).map fun slot => { slots with status := slot }
  else if member.1 = "detail" then
    (fill "detail" readOptionalText slots.detail member.2).map fun slot =>
      { slots with detail := slot }
  else if member.1 = "instance" then
    (fill "instance" readOptionalText slots.instanceUri member.2).map fun slot =>
      { slots with instanceUri := slot }
  else .ok { slots with collected := slots.collected ++ [member] }

def readMembers (slots : Slots) : Members → Except ReadError Slots
  | [] => .ok slots
  | member :: rest => (readMember slots member).bind fun slots => readMembers slots rest

def required {α : Type} (name : String) : Option α → Except ReadError α
  | some value => .ok value
  | none => .error (.de (.missingField name))

/-- What was kept, as a map: a member named again replaces the one before. -/
def collect (members : Members) : JsonMap :=
  members.foldl (fun map member => map.insert member.1 member.2) .empty

def finish (slots : Slots) : Except ReadError ProblemDetails := do
  let problemType ← required "type" slots.problemType
  let title ← required "title" slots.title
  let status ← required "status" slots.status
  return ⟨problemType, title, status, slots.detail.getD none, slots.instanceUri.getD none,
    collect slots.collected⟩

def deserialize (members : Members) : Except ReadError ProblemDetails :=
  (readMembers noSlots members).bind finish

/-- What `serde_json` counts down from, the outermost object included. -/
def RECURSION_LIMIT : Nat := 128

/-- `serde_json::from_str`; of several errors another may be the first. -/
def fromStr (reader : NumberReader) (members : Members) : Except ReadError ProblemDetails :=
  if Json.fieldsDepth members + 1 < RECURSION_LIMIT then
    deserialize (Json.rereadFields reader members)
  else .error .recursionLimitExceeded

/-- The members that are fields. -/
def reserved : List String := ["type", "title", "status", "detail", "instance"]

/-- What was read before, or one of these members and none of the fields. -/
def Kept (members : Members) (slots : Slots) : Prop :=
  ∀ kept ∈ slots.collected, kept ∈ members ∧ kept.1 ∉ reserved

/-- What is kept for the map is a member and none of the fields. -/
theorem readMember_kept {members : Members} {slots slots' : Slots} {member : String × Json}
    (h : readMember slots member = .ok slots') (own : member ∈ members)
    (before : Kept members slots) : Kept members slots' := by
  unfold readMember at h
  split_ifs at h with isType isTitle isStatus isDetail isInstance
  · obtain ⟨slot, -, rfl⟩ := Fallible.map_ok h
    exact before
  · obtain ⟨slot, -, rfl⟩ := Fallible.map_ok h
    exact before
  · obtain ⟨slot, -, rfl⟩ := Fallible.map_ok h
    exact before
  · obtain ⟨slot, -, rfl⟩ := Fallible.map_ok h
    exact before
  · obtain ⟨slot, -, rfl⟩ := Fallible.map_ok h
    exact before
  · cases h
    intro kept listed
    obtain earlier | rfl := List.mem_append.mp listed |>.imp_right List.mem_singleton.mp
    · exact before kept earlier
    · refine ⟨own, ?_⟩
      simp only [reserved, List.mem_cons, List.not_mem_nil, or_false]
      tauto

theorem readMembers_kept {all members : Members} {slots slots' : Slots}
    (h : readMembers slots members = .ok slots') (own : members ⊆ all)
    (before : Kept all slots) : Kept all slots' := by
  induction members generalizing slots with
  | nil => cases h; exact before
  | cons member rest ih =>
    obtain ⟨first, others⟩ := List.cons_subset.mp own
    obtain ⟨next, read, h⟩ := Fallible.bind_ok h
    exact ih h others (readMember_kept read first before)

theorem mem_collect {members : Members} {field : String × Json}
    (h : field ∈ (collect members).fields) : field ∈ members := by
  have general : ∀ (members : Members) (map : JsonMap),
      field ∈ (members.foldl (fun map member => map.insert member.1 member.2) map).fields →
        field ∈ map.fields ∨ field ∈ members := by
    intro members
    induction members with
    | nil => exact fun _ => .inl
    | cons member rest ih =>
      intro map h
      obtain before | later := ih _ h
      · obtain rfl | old := Json.mem_insertField before
        · exact .inr List.mem_cons_self
        · exact .inl old
      · exact .inr (List.mem_cons_of_mem _ later)
  exact (general members .empty h).resolve_left nofun

/-- Every extension that was read is one of the members, and no field. -/
theorem deserialize_kept {members : Members} {problem : ProblemDetails}
    (h : deserialize members = .ok problem) :
    ∀ field ∈ problem.extensions.fields, field ∈ members ∧ field.1 ∉ reserved := by
  obtain ⟨slots, read, h⟩ := Fallible.bind_ok h
  have kept := readMembers_kept read (List.Subset.refl members) nofun
  intro field listed
  have collected : problem.extensions = collect slots.collected := by
    obtain ⟨_, -, h⟩ := Fallible.bind_ok h
    obtain ⟨_, -, h⟩ := Fallible.bind_ok h
    obtain ⟨_, -, h⟩ := Fallible.bind_ok h
    cases h
    rfl
  rw [collected] at listed
  exact kept field (mem_collect listed)

theorem readMembers_append {slots : Slots} (members more : Members) :
    readMembers slots (members ++ more) =
      (readMembers slots members).bind fun slots => readMembers slots more := by
  induction members generalizing slots with
  | nil => rfl
  | cons member rest ih =>
    rw [List.cons_append, readMembers, readMembers]
    cases readMember slots member with
    | error e => rfl
    | ok next => exact ih

theorem readMembers_extensions {slots : Slots} {members : Members}
    (free : ∀ member ∈ members, member.1 ∉ reserved) :
    readMembers slots members = .ok { slots with collected := slots.collected ++ members } := by
  induction members generalizing slots with
  | nil => rw [readMembers, List.append_nil]
  | cons member rest ih =>
    obtain ⟨other, others⟩ := List.forall_mem_cons.mp free
    simp only [reserved, List.mem_cons, List.not_mem_nil, or_false, not_or] at other
    obtain ⟨a, b, c, d, e⟩ := other
    have kept : readMember slots member =
        .ok { slots with collected := slots.collected ++ [member] } := by
      rw [readMember, if_neg a, if_neg b, if_neg c, if_neg d, if_neg e]
    rw [readMembers, kept, Except.bind, ih others]
    simp only [List.append_assoc, List.singleton_append]

/-- A member after all the others goes last. -/
theorem insertField_last {name : String} {value : Json} {fields : List (String × Json)}
    (last : ∀ field ∈ fields, field.1 < name) :
    Json.insertField name value fields = fields ++ [(name, value)] := by
  induction fields with
  | nil => rfl
  | cons field rest ih =>
    obtain ⟨first, others⟩ := List.forall_mem_cons.mp last
    have differs : field.1 ≠ name := by
      intro same
      rw [same] at first
      exact String.lt_irrefl _ first
    rw [Json.insertField, if_neg (String.lt_asymm first), if_neg differs, ih others]
    rfl

/-- Members in order of their names are collected as they are. -/
theorem foldl_insert {members : Members} (map : JsonMap)
    (sorted : (map.fields ++ members).Pairwise fun a b => a.1 < b.1) :
    (members.foldl (fun map member => map.insert member.1 member.2) map).fields =
      map.fields ++ members := by
  induction members generalizing map with
  | nil => exact (List.append_nil _).symm
  | cons member rest ih =>
    obtain ⟨-, -, before⟩ := List.pairwise_append.mp sorted
    have last : (map.insert member.1 member.2).fields = map.fields ++ [member] :=
      insertField_last fun field held => before field held member List.mem_cons_self
    rw [List.foldl_cons, ih _ (by rwa [last, List.append_assoc, List.singleton_append]), last,
      List.append_assoc, List.singleton_append]

theorem collect_fields (map : JsonMap) : collect map.fields = map :=
  JsonMap.ext ((foldl_insert .empty map.sorted).trans (List.nil_append _))

theorem readU16_status (status : UInt16) :
    readU16 (.number (toString status.toNat)) = .ok status := by
  have wide : status.toNat < UInt64.size := Nat.lt_trans status.toNat_lt (by decide)
  have value : (UInt64.ofNat status.toNat).toNat = status.toNat := UInt64.toNat_ofNat_of_lt' wide
  have integer : (Json.number (toString status.toNat)).asU64 = some (.ofNat status.toNat) := by
    have digits : (toString status.toNat).toList = Nat.toDigits 10 status.toNat := Nat.toList_repr
    have parsed := parseU64_toDigits (.ofNat status.toNat)
    rw [value] at parsed
    rw [Json.asU64, digits, if_neg (unsigned_of_digits (toDigits_digits _)), parsed]
  simp only [readU16, integer, value]
  rw [if_pos status.toNat_lt, UInt16.ofNat_toNat]

/-- The three fields that are always written have been read. -/
structure Filled (slots : Slots) : Prop where
  problemType : slots.problemType.isSome = true
  title : slots.title.isSome = true
  status : slots.status.isSome = true

/-- The fields are read back from what is written before the extensions. -/
theorem readMembers_fields (problem : ProblemDetails) :
    ∃ slots, readMembers noSlots ([("type", .string problem.problemType),
        ("title", .string problem.title), ("status", .number (toString problem.status.toNat))] ++
      (problem.detail.map fun text => ("detail", Json.string text)).toList ++
      (problem.instanceUri.map fun text => ("instance", Json.string text)).toList) = .ok slots ∧
    slots.collected = [] ∧ Filled slots ∧ ∀ members, finish { slots with collected := members } =
      .ok { problem with extensions := collect members } := by
  refine ⟨⟨some problem.problemType, some problem.title, some problem.status,
    problem.detail.map some, problem.instanceUri.map some, []⟩, ?_, rfl, ⟨rfl, rfl, rfl⟩,
    fun members => ?_⟩
  · obtain ⟨problemType, title, code, detail, instanceUri, extensions⟩ := problem
    have status : readU16 (.number code.toNat.repr) = .ok code := readU16_status code
    cases detail <;> cases instanceUri <;>
      simp [readMembers, readMember, fill, noSlots, readText, readString, readOptionalText,
        readOption, Except.mapError, status, Except.bind, Except.map]
  · cases problem.detail <;> cases problem.instanceUri <;> rfl

theorem readMember_filled {slots slots' : Slots} {member : String × Json} (filled : Filled slots)
    (h : readMember slots member = .ok slots') :
    Filled slots' ∧ member.1 ∉ ["type", "title", "status"] := by
  unfold readMember fill at h
  split_ifs at h with isType twice isTitle twice isStatus twice isDetail twice isInstance twice
  · cases h
  · exact absurd filled.problemType twice
  · cases h
  · exact absurd filled.title twice
  · cases h
  · exact absurd filled.status twice
  · cases h
  · obtain ⟨slot, -, rfl⟩ := Fallible.map_ok h
    exact ⟨⟨filled.problemType, filled.title, filled.status⟩, by simp [isType, isTitle, isStatus]⟩
  · cases h
  · obtain ⟨slot, -, rfl⟩ := Fallible.map_ok h
    exact ⟨⟨filled.problemType, filled.title, filled.status⟩, by simp [isType, isTitle, isStatus]⟩
  · cases h
    exact ⟨⟨filled.problemType, filled.title, filled.status⟩, by simp [isType, isTitle, isStatus]⟩

theorem readMembers_filled {slots slots' : Slots} {members : Members} (filled : Filled slots)
    (h : readMembers slots members = .ok slots') :
    ∀ member ∈ members, member.1 ∉ ["type", "title", "status"] := by
  induction members generalizing slots with
  | nil => exact nofun
  | cons member rest ih =>
    obtain ⟨next, read, h⟩ := Fallible.bind_ok h
    obtain ⟨filled', other⟩ := readMember_filled filled read
    exact List.forall_mem_cons.mpr ⟨other, ih filled' h⟩

/-- Writing and reading changes nothing in the fields, and in the extensions the numbers. -/
theorem reread_serialize (reader : NumberReader) (problem : ProblemDetails) :
    Json.rereadFields reader problem.serialize =
      { problem with extensions := problem.extensions.reread reader }.serialize := by
  have status : reader.read (toString problem.status.toNat) = toString problem.status.toNat :=
    reader.integer _ (Nat.lt_trans problem.status.toNat_lt (by decide))
  unfold serialize
  simp only [Json.rereadFields_append]
  congr 1
  congr 1
  · congr 1
    · simp only [Json.rereadFields, Json.rereadField, Json.reread, status]
    · cases problem.detail <;> rfl
  · cases problem.instanceUri <;> rfl

/-- No field is nested. -/
theorem serialize_depth (problem : ProblemDetails) :
    Json.fieldsDepth problem.serialize = problem.extensions.depth := by
  unfold serialize
  rw [Json.fieldsDepth_append, JsonMap.depth]
  cases problem.detail <;> cases problem.instanceUri <;>
    simp [Json.fieldsDepth, Json.fieldDepth, Json.depth]

theorem fromStr_free (reader : NumberReader) {problem : ProblemDetails}
    (free : ∀ name ∈ problem.extensions.names, name ∉ reserved)
    (shallow : problem.extensions.depth + 1 < RECURSION_LIMIT) :
    fromStr reader problem.serialize =
      .ok { problem with extensions := problem.extensions.reread reader } := by
  rw [fromStr, serialize_depth, if_pos shallow, reread_serialize]
  generalize again : { problem with extensions := problem.extensions.reread reader } = read
  have free' : ∀ name ∈ read.extensions.names, name ∉ reserved := by
    subst again
    rw [JsonMap.reread_names]
    exact free
  obtain ⟨slots, fields, none, -, finished⟩ := readMembers_fields read
  rw [deserialize, serialize, readMembers_append, fields, Except.bind,
    readMembers_extensions fun member held => free' member.1 (List.mem_map_of_mem held), none,
    List.nil_append, Except.bind, finished, collect_fields]

/-- What was read has no extension that was not among the members. -/
theorem fromStr_extensions {reader : NumberReader} {members : Members} {problem : ProblemDetails}
    (h : fromStr reader members = .ok problem) :
    (∀ name ∈ problem.extensions.names, name ∉ reserved) ∧
      problem.extensions.depth + 1 < RECURSION_LIMIT := by
  unfold fromStr at h
  split at h
  next shallow =>
    have kept := deserialize_kept h
    constructor
    · intro name listed
      obtain ⟨field, held, rfl⟩ := List.mem_map.mp listed
      exact (kept field held).2
    · refine Nat.lt_of_le_of_lt (Nat.succ_le_succ ?_) shallow
      rw [← Json.rereadFields_depth reader members]
      exact Json.fieldsDepth_le.mpr fun field held =>
        Json.fieldsDepth_le.mp le_rfl field (kept field held).1
  · cases h

/-- **Problem details come back exactly when** no extension is named like a field, none is
nested too deep and each number in them is read as it was written. Of what was read,
only a number can fail to come back. A problem whose extension is named like a field
that is always written cannot be read at all. -/
theorem problem_roundTrip_iff (reader : NumberReader) (problem : ProblemDetails) :
    (fromStr reader problem.serialize = .ok problem ↔
      (∀ name ∈ problem.extensions.names, name ∉ reserved) ∧
        problem.extensions.depth + 1 < RECURSION_LIMIT ∧
        ∀ number ∈ problem.extensions.numbers, reader.read number = number) ∧
    (∀ members, fromStr reader members = .ok problem →
      (fromStr reader problem.serialize = .ok problem ↔
        ∀ number ∈ problem.extensions.numbers, reader.read number = number)) ∧
    ((∃ name ∈ problem.extensions.names, name ∈ ["type", "title", "status"]) →
      ∀ other, fromStr reader problem.serialize ≠ .ok other) := by
  have back : (∀ name ∈ problem.extensions.names, name ∉ reserved) →
      problem.extensions.depth + 1 < RECURSION_LIMIT →
      (fromStr reader problem.serialize = .ok problem ↔
        ∀ number ∈ problem.extensions.numbers, reader.read number = number) := by
    intro free shallow
    rw [fromStr_free reader free shallow, Except.ok.injEq]
    constructor
    · intro same
      exact JsonMap.reread_eq_self.mp (congrArg extensions same)
    · intro kept
      rw [JsonMap.reread_eq_self.mpr kept]
  refine ⟨⟨?_, fun ⟨free, shallow, kept⟩ => (back free shallow).mpr kept⟩, ?_, ?_⟩
  · intro h
    obtain ⟨free, shallow⟩ := fromStr_extensions h
    exact ⟨free, shallow, (back free shallow).mp h⟩
  · intro members h
    obtain ⟨free, shallow⟩ := fromStr_extensions h
    exact back free shallow
  · rintro ⟨name, listed, always⟩ other h
    obtain ⟨slots, fields, -, filled, -⟩ := readMembers_fields
      { problem with extensions := problem.extensions.reread reader }
    rw [← JsonMap.reread_names reader] at listed
    obtain ⟨member, held, rfl⟩ := List.mem_map.mp listed
    unfold fromStr at h
    split at h
    · rw [reread_serialize] at h
      obtain ⟨final, read, -⟩ := Fallible.bind_ok h
      rw [serialize, readMembers_append, fields] at read
      exact readMembers_filled filled read member held always
    · cases h

end ProblemDetails

/-! ## The standard body -/

namespace ErrorCall

variable (crate : UuidCrate)

def missing {α : Type} (name : String) : Except ReadError α := .error (.de (.missingField name))

/-- A field, by its name. -/
def field {α : Type} (name : String) (read : Json → Except ReadError α)
    (absent : Except ReadError α) (fields : List (String × Json)) : Except ReadError α :=
  match Json.lookupField name fields with
  | some value => read value
  | none => absent

/-- A field, by its position. -/
def element {α : Type} (read : Json → Except ReadError α) (absent : Except ReadError α) :
    Option Json → Except ReadError α
  | some value => read value
  | none => absent

def short {α : Type} (length : Nat) : Except ReadError α := .error (.de (.invalidLength length))

/-- `Deserialize for ErrorDetail`. -/
def readDetail : Json → Except ReadError ErrorDetail
  | .object fields => do
    let issue ← field "issue" ProblemDetails.readText (missing "issue") fields
    let description ← field "description" ProblemDetails.readOptionalText (.ok none) fields
    return ⟨issue, description⟩
  | .array items => do
    let issue ← element ProblemDetails.readText (short 0) items[0]?
    let description ← element ProblemDetails.readOptionalText (short 1) items[1]?
    if items.length ≤ 2 then return ⟨issue, description⟩ else short items.length
  | _ => .error (.de (.invalidType "struct ErrorDetail"))

def readDetails : Json → Except ReadError (List ErrorDetail)
  | .array items => items.mapM readDetail
  | _ => .error (.de (.invalidType "a sequence"))

def readUuid (value : Json) : Except ReadError crate.Uuid :=
  match value.asStr.bind crate.parseStr with
  | some uuid => .ok uuid
  | none => .error .invalidValue

/-- `Deserialize for ErrorResponse`. -/
def fromJson : Json → Except ReadError (ErrorResponse crate)
  | .object fields => do
    let error ← field "error" ProblemDetails.readText (missing "error") fields
    let message ← field "message" ProblemDetails.readText (missing "message") fields
    let correlationId ← field "correlationId" (readUuid crate) (missing "correlationId") fields
    let details ← field "details" readDetails (.ok []) fields
    return ⟨error, message, correlationId, details⟩
  | .array items => do
    let error ← element ProblemDetails.readText (short 0) items[0]?
    let message ← element ProblemDetails.readText (short 1) items[1]?
    let correlationId ← element (readUuid crate) (short 2) items[2]?
    let details ← element readDetails (.ok []) items[3]?
    if items.length ≤ 4 then return ⟨error, message, correlationId, details⟩
    else short items.length
  | _ => .error (.de (.invalidType "struct ErrorResponse"))

theorem readDetail_toJson (detail : ErrorDetail) : readDetail detail.toJson = .ok detail := by
  obtain ⟨issue, description⟩ := detail
  cases description <;> rfl

theorem readDetails_toJson (details : List ErrorDetail) :
    readDetails (.array (details.map ErrorDetail.toJson)) = .ok details := by
  rw [readDetails]
  induction details with
  | nil => rfl
  | cons detail rest ih =>
    rw [List.map_cons, List.mapM_cons, ih, readDetail_toJson]
    rfl

theorem fromJson_toJson {crate : UuidCrate}
    (parses : ∀ uuid, crate.parseStr (crate.toText uuid) = some uuid) (body : ErrorResponse crate) :
    fromJson crate (toJson crate body) = .ok body := by
  obtain ⟨error, message, correlationId, details⟩ := body
  have uuid : readUuid crate (.string (crate.toText correlationId)) = .ok correlationId := by
    simp only [readUuid, Json.asStr, Option.bind_some, parses]
  have back := readDetails_toJson details
  cases details with
  | nil =>
    simp [toJson, fromJson, field, Json.lookupField, uuid, ProblemDetails.readText, readString,
      Except.mapError, bind, Except.bind, pure, Except.pure]
  | cons detail rest =>
    rw [List.map_cons] at back
    simp [toJson, fromJson, field, Json.lookupField, uuid, ProblemDetails.readText, readString,
      Except.mapError, bind, Except.bind, pure, Except.pure, back]

/-- **Every standard error response can be read back.** Its body gives the very value it
was written from, with the request's correlation ID; and where the response went through
`finalize_error_response`, the one header line has that ID too. -/
theorem respond_readBack {crate : UuidCrate}
    (parses : ∀ uuid, crate.parseStr (crate.toText uuid) = some uuid) (current : Option String)
    (generated : Nat) (call : ErrorCall) :
    ∃ body, fromJson crate (call.respond crate current generated).body = .ok body ∧
      toJson crate body = (call.respond crate current generated).body ∧
      body.correlationId = correlationId crate current generated ∧
      (call.isRejection = false →
        Carries (call.respond crate current generated) (crate.toText body.correlationId)) := by
  cases call with
  | errorIntoResponse error =>
    exact ⟨_, fromJson_toJson parses _, rfl, rfl, fun _ => finalizeErrorResponse_carries crate _ _⟩
  | quickErrorResponse status code message =>
    exact ⟨_, fromJson_toJson parses _, rfl, rfl, fun _ => finalizeErrorResponse_carries crate _ _⟩
  | quickErrorResponseWithDetails status code message details =>
    exact ⟨_, fromJson_toJson parses _, rfl, rfl, fun _ => finalizeErrorResponse_carries crate _ _⟩
  | rateLimitRejection wait => exact ⟨_, fromJson_toJson parses _, rfl, rfl, nofun⟩

/-- The two UUIDs print as they parse. -/
theorem notFound_readBack :
    ∃ body, fromJson twoUuids (notFound.respond twoUuids (some "order-7") 0).body = .ok body ∧
      body.correlationId = correlationId twoUuids (some "order-7") 0 := by
  have parses : ∀ uuid, twoUuids.parseStr (twoUuids.toText uuid) = some uuid :=
    fun uuid => dif_pos uuid.property
  obtain ⟨body, read, -, same, -⟩ := respond_readBack parses (some "order-7") 0 notFound
  exact ⟨body, read, same⟩

end ErrorCall

end RustyGasket
