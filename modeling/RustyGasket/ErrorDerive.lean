import RustyGasket.CorrelationId
import RustyGasket.Fallible

/-!
# `#[derive(ApiError)]`

The macro as a function from the enum a user writes to the code it expands to, and that
code's meaning. What `syn` hands over is the input: attributes with their arguments
parsed into keys and what follows them, up to the comma.
-/

namespace RustyGasket

namespace ErrorDerive

/-! ## The input -/

inductive Lit
  | str (value : String)
  | int (negative : Bool) (digits : Nat)
  | bool (value : Bool)
  | other
  deriving DecidableEq, Repr

/-- What follows a key, up to the comma. -/
inductive MetaRest
  | nothing
  | assigned (lit : Lit)
  /-- An equals sign alone. -/
  | assignedNothing
  /-- An equals sign, a literal if one is next, and more. -/
  | assignedMore (lit : Option Lit)
  /-- Something that does not start with an equals sign. -/
  | unassigned
  deriving DecidableEq, Repr

structure NestedMeta where
  path : String
  rest : MetaRest
  deriving DecidableEq, Repr

/-- Without parentheses there are no arguments. -/
structure Attribute where
  path : String
  args : Option (List NestedMeta)
  deriving DecidableEq, Repr

inductive Fields
  | unit
  | unnamed
  | named
  deriving DecidableEq, Repr

structure Variant where
  ident : String
  attrs : List Attribute
  fields : Fields
  deriving DecidableEq, Repr

/-- `variants` is none of a struct or a union. -/
structure DeriveInput where
  ident : String
  attrs : List Attribute
  variants : Option (List Variant)
  deriving DecidableEq, Repr

/-! ## The attributes -/

/-- The macro's own text, or an error of `syn` or `parse`. -/
inductive CompileError
  | own (text : String)
  | syn
  | parseInt
  deriving DecidableEq, Repr

structure VariantAttrs where
  code : String
  status : Nat
  expose : Option Bool
  deriving DecidableEq, Repr

/-- The locals of the loop over an attribute's arguments. -/
structure Keys where
  code : Option String
  status : Option Nat
  expose : Option Bool
  deriving DecidableEq, Repr

/-- `meta.value()?.parse::<Lit>()`. -/
def MetaRest.literal : MetaRest → Except CompileError Lit
  | .assigned lit | .assignedMore (some lit) => .ok lit
  | _ => .error .syn

/-- The comma is next once an equals sign and a literal, as far as they are there, have
been read; a literal that is not there takes nothing away. -/
def MetaRest.ended : MetaRest → Bool
  | .nothing | .assigned _ | .assignedNothing => true
  | .assignedMore _ | .unassigned => false

def base10ParseU16 (negative : Bool) (digits : Nat) : Except CompileError Nat :=
  if negative = false ∧ digits < UInt16.size then .ok digits else .error .parseInt

def readMeta (keys : Keys) (arg : NestedMeta) : Except CompileError Keys :=
  if arg.path = "code" then
    arg.rest.literal.bind fun
      | .str s => .ok { keys with code := some s }
      | _ => .error (.own "`code` must be a string literal, e.g. code = \"NOT_FOUND\"")
  else if arg.path = "status" then
    arg.rest.literal.bind fun
      | .int negative digits =>
        (base10ParseU16 negative digits).map fun status => { keys with status := some status }
      | _ => .error (.own "`status` must be an integer literal, e.g. status = 404")
  else if arg.path = "expose" then
    arg.rest.literal.bind fun
      | .bool b => .ok { keys with expose := some b }
      | _ => .error (.own "`expose` must be a bool literal, e.g. expose = true")
  else .error (.own "unknown #[api_error] key; expected one of: code, status, expose")

/-- The keys of one attribute; what the closure leaves behind has to be a comma. -/
def readMetas (keys : Keys) : List NestedMeta → Except CompileError Keys
  | [] => .ok keys
  | arg :: rest => (readMeta keys arg).bind fun keys =>
    if arg.rest.ended then readMetas keys rest else .error .syn

def Attribute.keys (attr : Attribute) : Except CompileError Keys :=
  match attr.args with
  | some metas => readMetas ⟨none, none, none⟩ metas
  | none => .error .syn

def parseApiErrorAttrs : List Attribute → Except CompileError (Option VariantAttrs)
  | [] => .ok none
  | attr :: rest =>
    if attr.path = "api_error" then
      attr.keys.bind fun keys =>
        match keys.code, keys.status with
        | some code, some status => .ok (some ⟨code, status, keys.expose⟩)
        | _, _ => parseApiErrorAttrs rest
    else parseApiErrorAttrs rest

/-- After the flag nothing is read. After any other key a failed read of the value is
dropped, so that an equals sign alone is passed too. -/
def skips (skip : Bool) : List NestedMeta → Except CompileError Bool
  | [] => .ok skip
  | arg :: rest =>
    if arg.path = "skip_into_response" then
      if arg.rest = .nothing then skips true rest else .error .syn
    else if arg.rest.ended then skips skip rest else .error .syn

def parseSkipIntoResponse (skip : Bool) : List Attribute → Except CompileError Bool
  | [] => .ok skip
  | attr :: rest =>
    if attr.path = "api_error" then
      match attr.args with
      | some metas => (skips skip metas).bind fun skip => parseSkipIntoResponse skip rest
      | none => .error .syn
    else parseSkipIntoResponse skip rest

/-! ## The expansion -/

structure Pattern where
  variant : String
  fields : Fields
  deriving DecidableEq, Repr

/-- An arm of a `match self`. -/
structure Arm (α : Type) where
  pattern : Pattern
  body : α
  deriving DecidableEq, Repr

/-- The three methods, and whether `IntoResponse` is implemented. A status stands for the
constant it is made into. -/
structure Expanded where
  name : String
  codeArms : List (Arm String)
  statusArms : List (Arm Nat)
  exposeArms : List (Arm Bool)
  intoResponse : Bool
  deriving DecidableEq, Repr

/-- The body of the loop: the attributes, once they are known to be good. -/
def checkVariant (variant : Variant) : Except CompileError VariantAttrs :=
  (parseApiErrorAttrs variant.attrs).bind fun
    | none =>
      .error (.own "Each variant must have #[api_error(code = \"...\", status = ...)]")
    | some attrs =>
      if 100 ≤ attrs.status ∧ attrs.status ≤ 999 then .ok attrs
      else
        let statusVal := attrs.status
        .error (.own s!"Invalid HTTP status code {statusVal}: must be 100-999")

def exposeVal (attrs : VariantAttrs) : Bool := attrs.expose.getD (attrs.status < 500)

/-- Each variant with its attributes, or the first error. -/
def checkVariants : List Variant → Except CompileError (List (Variant × VariantAttrs))
  | [] => .ok []
  | variant :: rest =>
    (checkVariant variant).bind fun attrs =>
      (checkVariants rest).map fun checked => (variant, attrs) :: checked

def arms {α : Type} (body : VariantAttrs → α) (checked : List (Variant × VariantAttrs)) :
    List (Arm α) :=
  checked.map fun (variant, attrs) => ⟨⟨variant.ident, variant.fields⟩, body attrs⟩

def derive (input : DeriveInput) : Except CompileError Expanded :=
  (parseSkipIntoResponse false input.attrs).bind fun skipIntoResponse =>
    match input.variants with
    | none => .error (.own "ApiError can only be derived for enums")
    | some variants => (checkVariants variants).map fun checked =>
      { name := input.ident
        codeArms := arms VariantAttrs.code checked
        statusArms := arms VariantAttrs.status checked
        exposeArms := arms exposeVal checked
        intoResponse := !skipIntoResponse }

/-! ## What the expansion means -/

/-- A value of the enum, with what it displays. -/
structure Value where
  variant : String
  fields : Fields
  text : String
  deriving DecidableEq, Repr

/-- The first arm that matches. -/
def evalMatch {α : Type} (arms : List (Arm α)) (value : Value) : Option α :=
  (arms.find? fun arm => arm.pattern = ⟨value.variant, value.fields⟩).map Arm.body

/-- `StatusCode::from_u16`. -/
def fromU16 (status : Nat) : Option Nat :=
  if 100 ≤ status ∧ status < 1000 then some status else none

/-- The value as its implementation shows it. A status that is no status does not
compile, and the derive leaves `details` at its default. -/
def Expanded.apiError (expanded : Expanded) (value : Value) : Option ApiError := do
  let errorCode ← evalMatch expanded.codeArms value
  let status ← evalMatch expanded.statusArms value
  let statusCode ← fromU16 status
  let exposeDetails ← evalMatch expanded.exposeArms value
  return ⟨errorCode, statusCode, exposeDetails, value.text, []⟩

/-! ## What the attributes say -/

def NestedMeta.code? (arg : NestedMeta) : Option String :=
  match arg.rest with
  | .assigned (.str s) => if arg.path = "code" then some s else none
  | _ => none

def NestedMeta.status? (arg : NestedMeta) : Option Nat :=
  match arg.rest with
  | .assigned (.int false digits) =>
    if arg.path = "status" ∧ digits < UInt16.size then some digits else none
  | _ => none

def NestedMeta.expose? (arg : NestedMeta) : Option Bool :=
  match arg.rest with
  | .assigned (.bool b) => if arg.path = "expose" then some b else none
  | _ => none

/-- It is one of the three keys, with a value of its type. -/
def NestedMeta.WellFormed (arg : NestedMeta) : Prop :=
  arg.code?.isSome ∨ arg.status?.isSome ∨ arg.expose?.isSome

/-- A well-formed attribute gives each key its last value. -/
structure Attribute.Means (attr : Attribute) (keys : Keys) : Prop where
  wellFormed : ∃ metas, attr.args = some metas ∧ (∀ arg ∈ metas, arg.WellFormed) ∧
    keys = ⟨(metas.filterMap NestedMeta.code?).getLast?,
      (metas.filterMap NestedMeta.status?).getLast?,
      (metas.filterMap NestedMeta.expose?).getLast?⟩

/-- A variant declares what its first complete attribute means; keys of different
attributes are not put together. -/
def Declares (attrs : List Attribute) (declared : VariantAttrs) : Prop :=
  ∃ before attr after, attrs = before ++ attr :: after ∧
    (∀ other ∈ before, other.path = "api_error" →
      ∃ keys, other.Means keys ∧ (keys.code = none ∨ keys.status = none)) ∧
    attr.path = "api_error" ∧
    attr.Means ⟨some declared.code, some declared.status, declared.expose⟩

theorem readMeta_ok_iff {keys keys' : Keys} {arg : NestedMeta} :
    readMeta keys arg = .ok keys' ∧ arg.rest.ended = true ↔ arg.WellFormed ∧
      keys' = ⟨arg.code?.or keys.code, arg.status?.or keys.status, arg.expose?.or keys.expose⟩ := by
  obtain ⟨path, rest⟩ := arg
  unfold readMeta NestedMeta.WellFormed NestedMeta.code? NestedMeta.status? NestedMeta.expose?
  cases rest with
  | assignedMore | unassigned => simp [MetaRest.ended]
  | nothing | assignedNothing =>
    simp only [MetaRest.literal, Except.bind]
    split_ifs <;> simp
  | assigned lit =>
    simp only [MetaRest.literal, MetaRest.ended, Except.bind, and_true]
    cases lit with
    | str text =>
      by_cases code : path = "code"
      · simp [code, eq_comm]
      · simp only [code, if_false]
        split_ifs <;> simp
    | int negative digits =>
      by_cases status : path = "status"
      · cases negative with
        | false =>
          by_cases fits : digits < UInt16.size
          · simp [status, base10ParseU16, fits, Except.map, eq_comm]
          · simp [status, base10ParseU16, fits, Except.map]
        | true => simp [status, base10ParseU16, Except.map]
      · cases negative <;> simp only [status, false_and, if_false] <;> split_ifs <;> simp
    | bool value =>
      by_cases expose : path = "expose"
      · simp [expose, eq_comm]
      · simp only [expose, if_false]
        split_ifs <;> simp
    | other => split_ifs <;> simp

/-- The last value among the first and the rest. -/
theorem getLast?_filterMap_cons {α β : Type} (f : α → Option β) (a : α) (rest : List α) :
    ((a :: rest).filterMap f).getLast? = ((rest.filterMap f).getLast?).or (f a) := by
  cases h : f a with
  | none => rw [List.filterMap_cons_none h, Option.or_none]
  | some b => rw [List.filterMap_cons_some h, ← List.singleton_append, List.getLast?_append]; rfl

theorem readMetas_ok_iff {keys keys' : Keys} {metas : List NestedMeta} :
    readMetas keys metas = .ok keys' ↔ (∀ arg ∈ metas, arg.WellFormed) ∧
      keys' = ⟨((metas.filterMap NestedMeta.code?).getLast?).or keys.code,
        ((metas.filterMap NestedMeta.status?).getLast?).or keys.status,
        ((metas.filterMap NestedMeta.expose?).getLast?).or keys.expose⟩ := by
  induction metas generalizing keys with
  | nil => simp [readMetas, eq_comm]
  | cons arg rest ih =>
    simp only [getLast?_filterMap_cons, Option.or_assoc, List.forall_mem_cons]
    constructor
    · intro h
      obtain ⟨next, read, h⟩ := Fallible.bind_ok h
      split at h
      next ended =>
        obtain ⟨good, rfl⟩ := readMeta_ok_iff.mp ⟨read, ended⟩
        obtain ⟨rest_good, rfl⟩ := ih.mp h
        exact ⟨⟨good, rest_good⟩, rfl⟩
      · cases h
    · rintro ⟨⟨good, rest_good⟩, rfl⟩
      obtain ⟨read, ended⟩ := readMeta_ok_iff.mpr ⟨good, rfl⟩
      rw [readMetas, read, Except.bind, if_pos ended]
      exact ih.mpr ⟨rest_good, rfl⟩

theorem Attribute.keys_ok_iff {attr : Attribute} {keys : Keys} :
    attr.keys = .ok keys ↔ attr.Means keys := by
  unfold Attribute.keys
  constructor
  · intro h
    split at h
    next metas args =>
      obtain ⟨good, rfl⟩ := readMetas_ok_iff.mp h
      simp only [Option.or_none]
      exact ⟨metas, args, good, rfl⟩
    · cases h
  · rintro ⟨metas, args, good, rfl⟩
    rw [args]
    exact readMetas_ok_iff.mpr ⟨good, by simp only [Option.or_none]⟩

theorem declares_cons {attr : Attribute} {rest : List Attribute} {declared : VariantAttrs} :
    Declares (attr :: rest) declared ↔
      (attr.path = "api_error" ∧
        attr.Means ⟨some declared.code, some declared.status, declared.expose⟩) ∨
      ((attr.path = "api_error" →
        ∃ keys, attr.Means keys ∧ (keys.code = none ∨ keys.status = none)) ∧
        Declares rest declared) := by
  constructor
  · rintro ⟨before, own, after, split, passed, path, means⟩
    cases before with
    | nil =>
      cases split
      exact .inl ⟨path, means⟩
    | cons first before =>
      cases split
      exact .inr ⟨passed attr List.mem_cons_self, before, own, after, rfl,
        fun other listed => passed other (List.mem_cons_of_mem _ listed), path, means⟩
  · rintro (⟨path, means⟩ | ⟨first, before, own, after, rfl, passed, path, means⟩)
    · exact ⟨[], attr, rest, rfl, nofun, path, means⟩
    · refine ⟨attr :: before, own, after, rfl, ?_, path, means⟩
      rintro other (_ | ⟨_, listed⟩)
      · exact first
      · exact passed other listed

theorem parseApiErrorAttrs_ok_iff {attrs : List Attribute} {declared : VariantAttrs} :
    parseApiErrorAttrs attrs = .ok (some declared) ↔ Declares attrs declared := by
  induction attrs with
  | nil =>
    constructor
    · intro h
      cases h
    · rintro ⟨before, attr, after, split, -⟩
      cases before <;> cases split
  | cons attr rest ih =>
    rw [declares_cons, parseApiErrorAttrs]
    by_cases path : attr.path = "api_error"
    · rw [if_pos path]
      constructor
      · intro h
        obtain ⟨keys, read, h⟩ := Fallible.bind_ok h
        have means := Attribute.keys_ok_iff.mp read
        obtain ⟨code, status, expose⟩ := keys
        cases code with
        | none => exact .inr ⟨fun _ => ⟨_, means, .inl rfl⟩, ih.mp h⟩
        | some code =>
          cases status with
          | none => exact .inr ⟨fun _ => ⟨_, means, .inr rfl⟩, ih.mp h⟩
          | some status =>
            cases h
            exact .inl ⟨path, means⟩
      · rintro (⟨-, means⟩ | ⟨passed, later⟩)
        · rw [Attribute.keys_ok_iff.mpr means]
          rfl
        · obtain ⟨⟨code, status, expose⟩, means, incomplete⟩ := passed path
          rw [Attribute.keys_ok_iff.mpr means]
          have next := ih.mpr later
          obtain rfl | rfl := incomplete
          · exact next
          · cases code <;> exact next
    · rw [if_neg path, ih]
      constructor
      · intro later
        exact .inr ⟨fun own => absurd own path, later⟩
      · rintro (⟨own, -⟩ | ⟨-, later⟩)
        · exact absurd own path
        · exact later

theorem checkVariant_ok_iff {variant : Variant} {attrs : VariantAttrs} :
    checkVariant variant = .ok attrs ↔
      Declares variant.attrs attrs ∧ 100 ≤ attrs.status ∧ attrs.status ≤ 999 := by
  rw [← parseApiErrorAttrs_ok_iff]
  constructor
  · intro h
    obtain ⟨found, parsed, h⟩ := Fallible.bind_ok h
    cases found with
    | none => cases h
    | some found =>
      simp only at h
      split at h
      next range =>
        cases h
        exact ⟨parsed, range⟩
      · cases h
  · rintro ⟨parsed, range⟩
    rw [checkVariant, parsed]
    exact if_pos range

/-- The pairs are the variants, in order, each with what it declares. -/
theorem checkVariants_ok_iff {variants : List Variant}
    {checked : List (Variant × VariantAttrs)} :
    checkVariants variants = .ok checked ↔ checked.map Prod.fst = variants ∧
      ∀ pair ∈ checked, Declares pair.1.attrs pair.2 ∧
        100 ≤ pair.2.status ∧ pair.2.status ≤ 999 := by
  induction variants generalizing checked with
  | nil =>
    constructor
    · intro h
      cases h
      exact ⟨rfl, nofun⟩
    · rintro ⟨none, -⟩
      rw [List.map_eq_nil_iff.mp none]
      rfl
  | cons variant rest ih =>
    constructor
    · intro h
      obtain ⟨attrs, own, h⟩ := Fallible.bind_ok h
      obtain ⟨others, later, rfl⟩ := Fallible.map_ok h
      obtain ⟨names, declared⟩ := ih.mp later
      exact ⟨congrArg (variant :: ·) names,
        List.forall_mem_cons.mpr ⟨checkVariant_ok_iff.mp own, declared⟩⟩
    · rintro ⟨names, declared⟩
      cases checked with
      | nil => cases names
      | cons pair others =>
        obtain ⟨first, attrs⟩ := pair
        obtain ⟨own, later⟩ := List.forall_mem_cons.mp declared
        obtain rfl : first = variant := (List.cons.inj names).1
        have others_named : others.map Prod.fst = rest := (List.cons.inj names).2
        rw [checkVariants, checkVariant_ok_iff.mpr own, Except.bind, ih.mpr ⟨others_named, later⟩]
        rfl

theorem checkVariants_total {variants : List Variant}
    (declared : ∀ variant ∈ variants, ∃ attrs, Declares variant.attrs attrs ∧
      100 ≤ attrs.status ∧ attrs.status ≤ 999) :
    ∃ checked, checkVariants variants = .ok checked := by
  induction variants with
  | nil => exact ⟨[], rfl⟩
  | cons variant rest ih =>
    obtain ⟨⟨attrs, own⟩, others⟩ := List.forall_mem_cons.mp declared
    obtain ⟨checked, later⟩ := ih others
    refine ⟨(variant, attrs) :: checked, ?_⟩
    rw [checkVariants, checkVariant_ok_iff.mpr own, Except.bind, later]
    rfl

/-- What may stand on the enum: a key alone, and any but the flag also with an equals
sign and at most a literal. -/
def NestedMeta.Passes (arg : NestedMeta) : Prop :=
  arg.rest = .nothing ∨
    arg.path ≠ "skip_into_response" ∧
      (arg.rest = .assignedNothing ∨ ∃ lit, arg.rest = .assigned lit)

theorem skips_ok_iff (skip : Bool) {skip' : Bool} {metas : List NestedMeta} :
    skips skip metas = .ok skip' ↔ (∀ arg ∈ metas, arg.Passes) ∧
      skip' = (skip || metas.any fun arg => arg.path = "skip_into_response") := by
  induction metas generalizing skip with
  | nil => simp [skips, eq_comm]
  | cons arg rest ih =>
    rw [skips, List.forall_mem_cons, List.any_cons]
    by_cases flag : arg.path = "skip_into_response"
    · rw [if_pos flag]
      by_cases alone : arg.rest = .nothing
      · rw [if_pos alone, ih]
        simp [NestedMeta.Passes, flag, alone]
      · rw [if_neg alone]
        simp [NestedMeta.Passes, flag, alone]
    · rw [if_neg flag]
      cases more : arg.rest <;> simp [ih, MetaRest.ended, NestedMeta.Passes, flag, more]

theorem parseSkipIntoResponse_ok_iff {skip skip' : Bool} {attrs : List Attribute} :
    parseSkipIntoResponse skip attrs = .ok skip' ↔
      (∀ attr ∈ attrs, attr.path = "api_error" →
        ∃ metas, attr.args = some metas ∧ ∀ arg ∈ metas, arg.Passes) ∧
      skip' = (skip || attrs.any fun attr => attr.path = "api_error" &&
        (attr.args.getD []).any fun arg => arg.path = "skip_into_response") := by
  induction attrs generalizing skip with
  | nil => simp [parseSkipIntoResponse, eq_comm]
  | cons attr rest ih =>
    rw [parseSkipIntoResponse, List.forall_mem_cons, List.any_cons]
    by_cases own : attr.path = "api_error"
    · rw [if_pos own]
      cases args : attr.args with
      | none => simp [own]
      | some metas =>
        constructor
        · intro h
          obtain ⟨next, read, h⟩ := Fallible.bind_ok h
          obtain ⟨passes, rfl⟩ := (skips_ok_iff _).mp read
          obtain ⟨others, rfl⟩ := ih.mp h
          refine ⟨⟨fun _ => ⟨metas, rfl, passes⟩, others⟩, ?_⟩
          simp [own, Bool.or_assoc]
        · rintro ⟨⟨first, others⟩, rfl⟩
          obtain ⟨_, ⟨⟩, passes⟩ := first own
          have read := (skips_ok_iff skip).mpr ⟨passes, rfl⟩
          simp only [read, Except.bind]
          refine ih.mpr ⟨others, ?_⟩
          simp [own, Bool.or_assoc]
    · rw [if_neg own, ih]
      simp [own]

/-- The derive went through: what was checked, and what was made of it. -/
theorem derive_ok {input : DeriveInput} {expanded : Expanded} (h : derive input = .ok expanded) :
    ∃ variants checked skip, input.variants = some variants ∧
      parseSkipIntoResponse false input.attrs = .ok skip ∧
      checkVariants variants = .ok checked ∧
      expanded = ⟨input.ident, arms VariantAttrs.code checked, arms VariantAttrs.status checked,
        arms exposeVal checked, !skip⟩ := by
  obtain ⟨skip, parsed, h⟩ := Fallible.bind_ok h
  split at h
  · cases h
  next variants enum =>
    obtain ⟨checked, good, rfl⟩ := Fallible.map_ok h
    exact ⟨variants, checked, skip, enum, parsed, good, rfl⟩

/-- **The derive accepts exactly the enums whose every variant declares a code and a
status of a response.** Besides, the keys in the attributes on the enum itself have to
be read up to the comma. -/
theorem derive_accepts_iff (input : DeriveInput) :
    (∃ expanded, derive input = .ok expanded) ↔
      (∀ attr ∈ input.attrs, attr.path = "api_error" →
        ∃ metas, attr.args = some metas ∧ ∀ arg ∈ metas, arg.Passes) ∧
      ∃ variants, input.variants = some variants ∧
        ∀ variant ∈ variants, ∃ declared, Declares variant.attrs declared ∧
          100 ≤ declared.status ∧ declared.status ≤ 999 := by
  constructor
  · rintro ⟨expanded, h⟩
    obtain ⟨variants, checked, skip, enum, parsed, good, -⟩ := derive_ok h
    refine ⟨(parseSkipIntoResponse_ok_iff.mp parsed).1, variants, enum, fun variant listed => ?_⟩
    obtain ⟨names, declared⟩ := checkVariants_ok_iff.mp good
    rw [← names] at listed
    obtain ⟨pair, member, rfl⟩ := List.mem_map.mp listed
    exact ⟨pair.2, declared pair member⟩
  · rintro ⟨passes, variants, enum, declared⟩
    obtain ⟨checked, good⟩ := checkVariants_total declared
    rw [derive, parseSkipIntoResponse_ok_iff.mpr ⟨passes, rfl⟩, enum]
    simp only [Except.bind, good]
    exact ⟨_, rfl⟩

/-! ## What a derived error shows -/

/-- An error's text is shown where the variant asks for it, or asks for nothing and is no
server error. -/
def Shown (declared : VariantAttrs) : Prop :=
  declared.expose = some true ∨ declared.expose = none ∧ declared.status < 500

theorem exposeVal_iff (declared : VariantAttrs) : exposeVal declared = true ↔ Shown declared := by
  unfold exposeVal Shown
  cases declared.expose <;> simp

instance (declared : VariantAttrs) : Decidable (Shown declared) :=
  decidable_of_iff _ (exposeVal_iff declared)

/-- The arm of a variant is the one its values reach. -/
theorem evalMatch_arms {α : Type} (body : VariantAttrs → α)
    {checked : List (Variant × VariantAttrs)}
    (distinct : (checked.map fun pair => pair.1.ident).Nodup) {pair : Variant × VariantAttrs}
    (listed : pair ∈ checked) {value : Value} (variant : value.variant = pair.1.ident)
    (fields : value.fields = pair.1.fields) :
    evalMatch (arms body checked) value = some (body pair.2) := by
  induction checked with
  | nil => cases listed
  | cons first rest ih =>
    obtain ⟨fresh, distinct⟩ := List.nodup_cons.mp distinct
    rw [arms, List.map_cons, evalMatch, List.find?_cons]
    obtain rfl | later := List.mem_cons.mp listed
    · rw [decide_eq_true (by rw [variant, fields])]
      rfl
    · have apart : first.1.ident ≠ value.variant := by
        intro same
        exact fresh (List.mem_map.mpr ⟨pair, later, (same.trans variant).symm⟩)
      rw [decide_eq_false fun same => apart (congrArg Pattern.variant same)]
      exact ih distinct later

/-- **A derived error answers as its variant declares.** Its response has the declared
status and code; the text is the error's own exactly where the variant shows it, and
otherwise the response is one and the same for every error of the variant. -/
theorem derived_response {input : DeriveInput} {expanded : Expanded}
    (derived : derive input = .ok expanded) {variants : List Variant}
    (enum : input.variants = some variants) (distinct : (variants.map Variant.ident).Nodup)
    {variant : Variant} (listed : variant ∈ variants) {value : Value}
    (own : value.variant = variant.ident) (fields : value.fields = variant.fields) :
    ∃ declared error, Declares variant.attrs declared ∧ expanded.apiError value = some error ∧
      ∀ crate current generated,
        (ErrorCall.errorIntoResponse error).respond crate current generated =
          ErrorCall.finalizeErrorResponse crate declared.status
            ⟨declared.code, if Shown declared then value.text else "Internal server error",
              ErrorCall.correlationId crate current generated, []⟩ := by
  obtain ⟨_, checked, skip, enum', -, good, rfl⟩ := derive_ok derived
  obtain rfl := Option.some.inj (enum.symm.trans enum')
  obtain ⟨names, declares⟩ := checkVariants_ok_iff.mp good
  rw [← names, List.map_map] at distinct
  rw [← names] at listed
  obtain ⟨pair, member, rfl⟩ := List.mem_map.mp listed
  obtain ⟨declared, low, high⟩ := declares pair member
  have status : fromU16 pair.2.status = some pair.2.status := if_pos ⟨low, by omega⟩
  refine ⟨pair.2, ⟨pair.2.code, pair.2.status, exposeVal pair.2, value.text, []⟩, declared, ?_, ?_⟩
  · simp only [Expanded.apiError, evalMatch_arms _ distinct member own fields, Option.bind_eq_bind,
      Option.bind_some, status, pure]
  · intro crate current generated
    by_cases shown : Shown pair.2
    · simp only [ErrorCall.respond, (exposeVal_iff _).mpr shown, if_true, shown]
    · have hidden : exposeVal pair.2 = false := by
        rw [Bool.eq_false_iff]
        exact fun exposed => shown ((exposeVal_iff _).mp exposed)
      simp only [ErrorCall.respond, hidden, Bool.false_eq_true, if_false, shown]

/-! ## The framework's own errors -/

def apiErrorAttr (code : String) (status : Nat) (more : List NestedMeta) : Attribute :=
  ⟨"api_error", some (⟨"code", .assigned (.str code)⟩ ::
    ⟨"status", .assigned (.int false status)⟩ :: more)⟩

/-- The `error` attributes are of another derive. -/
def frameworkError : DeriveInput where
  ident := "FrameworkError"
  attrs := []
  variants := some [
    ⟨"NotFound", [⟨"error", none⟩, apiErrorAttr "NOT_FOUND" 404 []], .unit⟩,
    ⟨"MethodNotAllowed", [⟨"error", none⟩, apiErrorAttr "METHOD_NOT_ALLOWED" 405 []], .unit⟩,
    ⟨"Internal", [⟨"error", none⟩, apiErrorAttr "INTERNAL_ERROR" 500
      [⟨"expose", .assigned (.bool false)⟩]], .unnamed⟩]

theorem frameworkError_response :
    ∃ expanded declared error, derive frameworkError = .ok expanded ∧
      expanded.apiError ⟨"Internal", .unnamed, "disk full"⟩ = some error ∧
      ∀ crate current generated,
        (ErrorCall.errorIntoResponse error).respond crate current generated =
          ErrorCall.finalizeErrorResponse crate declared.status
            ⟨declared.code, if Shown declared then "disk full" else "Internal server error",
              ErrorCall.correlationId crate current generated, []⟩ := by
  obtain ⟨expanded, derived⟩ : ∃ expanded, derive frameworkError = .ok expanded := ⟨_, rfl⟩
  obtain ⟨declared, error, -, shows', answers⟩ := @derived_response _ _ derived _ rfl (by decide)
    ⟨"Internal", [⟨"error", none⟩, apiErrorAttr "INTERNAL_ERROR" 500
      [⟨"expose", .assigned (.bool false)⟩]], .unnamed⟩ (by decide)
    ⟨"Internal", .unnamed, "disk full"⟩ rfl rfl
  exact ⟨expanded, declared, error, derived, shows', answers⟩

end ErrorDerive

end RustyGasket
