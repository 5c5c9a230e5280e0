import RustyGasket.Json

/-!
# `deep_merge_json`, path by path

What a merge has at a path of keys follows from what the overlay and the base have
there: the overlay's value, merged into the base's where both have one, and the
base's where the overlay does not reach.
-/

namespace RustyGasket.Json

/-- The value at a path of object keys. -/
def atPath (json : Json) : List String → Option Json
  | [] => some json
  | key :: rest => (json.get key).bind fun value => value.atPath rest

/-- A value that is no object replaces whatever it is merged into. -/
theorem deepMergeJson_of_not_object {overlay : Json} (h : overlay.isObject = false) (base : Json) :
    deepMergeJson base overlay = overlay := by
  cases overlay with
  | object _ => cases h
  | _ => rfl

/-- What is merged into a value that is no object is taken over whole. -/
theorem deepMergeJson_into_not_object {base : Json} (h : base.isObject = false) (overlay : Json) :
    deepMergeJson base overlay = overlay := by
  cases base with
  | object _ => cases h
  | _ => cases overlay <;> rfl

theorem get_eq_none {json : Json} (h : json.isObject = false) (key : String) :
    json.get key = none := by
  cases json with
  | object _ => cases h
  | _ => rfl

theorem WellFormed.get {json value : Json} (h : json.WellFormed) {key : String}
    (found : json.get key = some value) : value.WellFormed := by
  cases json with
  | object fields => exact h.lookup found
  | _ => cases found

/-- A key that the overlay names. -/
theorem get_merge_named {base overlay value : Json} (ho : overlay.WellFormed) {key : String}
    (named : overlay.get key = some value) : (deepMergeJson base overlay).get key =
      some ((base.get key).elim value fun existing => deepMergeJson existing value) := by
  cases object : base.isObject with
  | false =>
    rw [deepMergeJson_into_not_object object, named, get_eq_none object]
    rfl
  | true =>
    cases overlay with
    | object overlayMap =>
      cases base with
      | object baseMap =>
        rw [deepMergeJson, get, lookupField_mergeFields baseMap ho.distinct]
        rw [get] at named
        rw [named, Option.map_some, Option.some_or, mergedVal_eq, get]
      | _ => cases object
    | _ => cases named

/-- A key that the overlay does not name. -/
theorem get_merge_unnamed {base overlay : Json} (hb : base.isObject = true)
    (ho : overlay.WellFormed) (object : overlay.isObject = true) {key : String}
    (unnamed : overlay.get key = none) : (deepMergeJson base overlay).get key = base.get key := by
  cases overlay with
  | object overlayMap =>
    cases base with
    | object baseMap =>
      rw [deepMergeJson, get, lookupField_mergeFields baseMap ho.distinct]
      rw [get] at unnamed
      simp only [unnamed, Option.map_none, Option.none_or, get]
    | _ => cases hb
  | _ => cases object

/-- **At a path the overlay reaches** the merge has its value there, merged into what
the base has at that path. -/
theorem atPath_merge {base overlay value : Json} (ho : overlay.WellFormed) {path : List String}
    (reached : overlay.atPath path = some value) : (deepMergeJson base overlay).atPath path =
      some ((base.atPath path).elim value fun existing => deepMergeJson existing value) := by
  induction path generalizing base overlay with
  | nil =>
    cases reached
    rfl
  | cons key rest ih =>
    obtain ⟨next, named, further⟩ := Option.bind_eq_some_iff.mp reached
    rw [atPath, get_merge_named ho named, Option.bind_some, atPath]
    cases base.get key with
    | none => exact further
    | some existing => exact ih (ho.get named) further

/-- Above the path the two values are objects as far as the overlay goes. -/
def SharedAbove (base overlay : Json) (path : List String) : Prop :=
  ∀ above, above <+: path → above ≠ path → ∀ value, overlay.atPath above = some value →
    value.isObject = true ∧ ∃ existing, base.atPath above = some existing ∧
      existing.isObject = true

/-- **At a path the overlay does not reach** the merge has what the base has. -/
theorem atPath_merge_unreached {base overlay : Json} (ho : overlay.WellFormed)
    {path : List String} (unreached : overlay.atPath path = none)
    (shared : SharedAbove base overlay path) :
    (deepMergeJson base overlay).atPath path = base.atPath path := by
  induction path generalizing base overlay with
  | nil => cases unreached
  | cons key rest ih =>
    obtain ⟨object, existing, here, baseObject⟩ :=
      shared [] List.nil_prefix (List.cons_ne_nil key rest).symm overlay rfl
    cases here
    cases named : overlay.get key with
    | none => rw [atPath, get_merge_unnamed baseObject ho object named, atPath]
    | some value =>
      rw [atPath, named, Option.bind_some] at unreached
      have next : ∀ above, above <+: rest → above ≠ rest → ∀ value',
          value.atPath above = some value' → value'.isObject = true ∧
            ∃ existing, base.atPath (key :: above) = some existing ∧
              existing.isObject = true := by
        intro above before proper value' reached
        apply shared (key :: above) (List.cons_prefix_cons.mpr ⟨rfl, before⟩)
          (fun same => proper (List.cons.inj same).2)
        rw [atPath, named]
        exact reached
      rw [atPath, get_merge_named ho named, atPath]
      cases inBase : base.get key with
      | none =>
        -- the base would have to be an object at `[key]`, unless the path ends there
        cases rest with
        | nil => cases unreached
        | cons key' rest =>
          obtain ⟨-, _, missing, -⟩ :=
            next [] List.nil_prefix (List.cons_ne_nil key' rest).symm value rfl
          rw [atPath, inBase] at missing
          cases missing
      | some existing =>
        apply ih (ho.get named) unreached
        intro above before proper value' reached
        have objects := next above before proper value' reached
        rwa [atPath, inBase] at objects

/-! ## Merging again -/

theorem lookupField_of_lt {key : String} {fields : List (String × Json)}
    (later : ∀ field ∈ fields, key < field.1) : lookupField key fields = none := by
  apply lookupField_eq_none.mpr
  intro named
  obtain ⟨field, hf, rfl⟩ := List.mem_map.mp named
  exact String.lt_irrefl _ (later field hf)

/-- Inserting what is there already. -/
theorem insertField_self {key : String} {value : Json} {fields : List (String × Json)}
    (sorted : fields.Pairwise fun a b => a.1 < b.1)
    (found : lookupField key fields = some value) : insertField key value fields = fields := by
  induction fields with
  | nil => cases found
  | cons field rest ih =>
    obtain ⟨k, v⟩ := field
    obtain ⟨first, sortedRest⟩ := List.pairwise_cons.mp sorted
    rw [insertField]
    split
    next less =>
      rw [lookupField_of_lt] at found
      · cases found
      · intro field hf
        obtain rfl | later := List.mem_cons.mp hf
        · exact less
        · exact String.lt_trans less (first field later)
    next notLess =>
      rw [lookupField] at found
      split
      next same =>
        rw [if_pos same] at found
        cases found
        rw [same]
      next differ =>
        rw [if_neg differ] at found
        rw [ih sortedRest found]

theorem lookupField_of_mem {key : String} {value : Json} {fields : List (String × Json)}
    (distinct : (fields.map Prod.fst).Nodup) (member : (key, value) ∈ fields) :
    lookupField key fields = some value := by
  induction fields with
  | nil => cases member
  | cons field rest ih =>
    obtain ⟨k, v⟩ := field
    rw [List.map_cons, List.nodup_cons] at distinct
    rw [lookupField]
    obtain here | later := List.mem_cons.mp member
    · cases here
      exact if_pos rfl
    · have differ : k ≠ key := by
        rintro rfl
        exact distinct.1 (List.mem_map.mpr ⟨(k, value), later, rfl⟩)
      rw [if_neg differ, ih distinct.2 later]

/-- The loop changes nothing where the result has every merged value already. -/
theorem mergeFields_self {baseMap overlayMap merged : List (String × Json)}
    (sorted : merged.Pairwise fun a b => a.1 < b.1)
    (there : ∀ field ∈ overlayMap, lookupField field.1 merged = some (mergedVal baseMap field)) :
    mergeFields baseMap overlayMap merged = merged := by
  induction overlayMap with
  | nil => rfl
  | cons field rest ih =>
    obtain ⟨here, later⟩ := List.forall_mem_cons.mp there
    rw [mergeFields, insertField_self sorted here]
    exact ih later

theorem deepMergeJson_self {base : Json} (h : base.WellFormed) : deepMergeJson base base = base := by
  induction h with
  | object sorted each ih =>
    rename_i fields
    have distinct := (WellFormed.object sorted each).distinct
    rw [deepMergeJson, mergeFields_self sorted]
    rintro ⟨key, value⟩ member
    have found := lookupField_of_mem distinct member
    rw [found, mergedVal_eq, found]
    exact congrArg some (ih _ member).symm
  | _ => rfl

theorem deepMergeJson_again {base overlay : Json} (hb : base.WellFormed) (ho : overlay.WellFormed) :
    deepMergeJson (deepMergeJson base overlay) overlay = deepMergeJson base overlay := by
  induction ho generalizing base with
  | object sorted each ih =>
    rename_i overlayMap
    have ho := WellFormed.object sorted each
    cases base with
    | object baseMap =>
      have merged : (deepMergeJson (.object baseMap) (.object overlayMap)).WellFormed :=
        deepMergeJson_wellFormed hb ho
      rw [deepMergeJson] at merged ⊢
      cases merged with
      | object mergedSorted _ =>
        rw [deepMergeJson, mergeFields_self mergedSorted]
        rintro ⟨key, value⟩ member
        have named := lookupField_of_mem ho.distinct member
        have found : lookupField key (mergeFields baseMap overlayMap baseMap) =
            some (mergedVal baseMap (key, value)) := by
          rw [lookupField_mergeFields baseMap ho.distinct, named]
          rfl
        rw [found, mergedVal_eq (mergeFields baseMap overlayMap baseMap), found, mergedVal_eq,
          Option.elim_some]
        cases inBase : lookupField key baseMap with
        | none => exact congrArg some (deepMergeJson_self (each _ member)).symm
        | some existing => exact congrArg some (ih _ member (hb.lookup inBase)).symm
    | _ => exact deepMergeJson_self ho
  | _ => rfl

/-- A `serde_json::Value`, which has one field a key by construction. -/
structure Value where
  json : Json
  wellFormed : json.WellFormed

def Value.merge (base overlay : Value) : Value :=
  ⟨deepMergeJson base.json overlay.json,
    deepMergeJson_wellFormed base.wellFormed overlay.wellFormed⟩

/-- **`deep_merge_json` is the pointwise override, and idempotent.** -/
theorem merge_pointwise (base overlay : Value) :
    (∀ path value, overlay.json.atPath path = some value → value.isObject = false →
      (base.merge overlay).json.atPath path = some value) ∧
    (∀ path, overlay.json.atPath path = none → SharedAbove base.json overlay.json path →
      (base.merge overlay).json.atPath path = base.json.atPath path) ∧
    (∀ path value, overlay.json.atPath path = some value → value.isObject = true →
      (∀ existing, base.json.atPath path = some existing → existing.isObject = false) →
      (base.merge overlay).json.atPath path = some value) ∧
    (base.merge overlay).merge overlay = base.merge overlay ∧ base.merge base = base := by
  refine ⟨?_, ?_, ?_, ?_, ?_⟩
  · intro path value reached notObject
    rw [Value.merge, atPath_merge overlay.wellFormed reached]
    cases base.json.atPath path with
    | none => rfl
    | some existing =>
      rw [Option.elim_some, deepMergeJson_of_not_object notObject]
  · intro path unreached shared
    exact atPath_merge_unreached overlay.wellFormed unreached shared
  · intro path value reached _ noObject
    rw [Value.merge, atPath_merge overlay.wellFormed reached]
    cases inBase : base.json.atPath path with
    | none => rfl
    | some existing =>
      rw [Option.elim_some, deepMergeJson_into_not_object (noObject existing inBase)]
  · simp only [Value.merge, deepMergeJson_again base.wellFormed overlay.wellFormed]
  · simp only [Value.merge, deepMergeJson_self base.wellFormed]

end RustyGasket.Json
