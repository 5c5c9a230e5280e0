/-!
# JSON values and `deep_merge_json`

Merging leaves every field the overlay does not name as it is, and keeps objects
well formed.
-/

namespace RustyGasket

/-- A `serde_json::Value`. An object's fields are sorted by key, one field a key. -/
inductive Json
  | null
  | bool (value : Bool)
  | number (text : String)
  | string (text : String)
  | array (items : List Json)
  | object (fields : List (String × Json))

namespace Json

def lookupField (key : String) : List (String × Json) → Option Json
  | [] => none
  | (key', value) :: rest => if key' = key then some value else lookupField key rest

def get (key : String) : Json → Option Json
  | object fields => lookupField key fields
  | _ => none

def asStr : Json → Option String
  | string text => some text
  | _ => none

def isObject : Json → Bool
  | object _ => true
  | _ => false

/-- `BTreeMap::insert`. -/
def insertField (key : String) (value : Json) : List (String × Json) → List (String × Json)
  | [] => [(key, value)]
  | (key', value') :: rest =>
    if key < key' then (key, value) :: (key', value') :: rest
    else if key' = key then (key, value) :: rest
    else (key', value') :: insertField key value rest

mutual

def deepMergeJson (base : Json) : Json → Json
  | .object overlayMap => match base with
    | .object baseMap => .object (mergeFields baseMap overlayMap baseMap)
    | _ => .object overlayMap
  | overlay => overlay
termination_by structural overlay => overlay

/-- The loop over `overlay_map`. -/
def mergeFields (baseMap : List (String × Json)) :
    List (String × Json) → List (String × Json) → List (String × Json)
  | [], merged => merged
  | field :: rest, merged =>
    mergeFields baseMap rest (insertField field.1 (mergedVal baseMap field) merged)
termination_by structural fields => fields

def mergedVal (baseMap : List (String × Json)) : String × Json → Json
  | (key, overlayVal) => match lookupField key baseMap with
    | some baseVal => deepMergeJson baseVal overlayVal
    | none => overlayVal
termination_by structural field => field

end

theorem mergedVal_eq (baseMap : List (String × Json)) (key : String) (value : Json) :
    mergedVal baseMap (key, value) =
      (lookupField key baseMap).elim value fun existing => deepMergeJson existing value := by
  rw [mergedVal]
  cases lookupField key baseMap <;> rfl

theorem lookupField_insertField (key key' : String) (value : Json)
    (fields : List (String × Json)) :
    lookupField key' (insertField key value fields) =
      if key = key' then some value else lookupField key' fields := by
  induction fields with
  | nil => rfl
  | cons field rest ih =>
    obtain ⟨k, v⟩ := field
    simp only [insertField]
    split
    · rfl
    · split
      · rename_i same
        subst same
        simp only [lookupField]
        split <;> rfl
      · rename_i other
        simp only [lookupField, ih]
        grind

theorem mem_of_lookupField {key : String} {value : Json} {fields : List (String × Json)}
    (h : lookupField key fields = some value) : (key, value) ∈ fields := by
  induction fields with
  | nil => cases h
  | cons field rest ih =>
    obtain ⟨k, v⟩ := field
    simp only [lookupField] at h
    split at h
    next same =>
      cases h
      rw [same]
      exact List.mem_cons_self
    next => exact List.mem_cons_of_mem _ (ih h)

theorem lookupField_eq_none {key : String} {fields : List (String × Json)} :
    lookupField key fields = none ↔ key ∉ fields.map Prod.fst := by
  induction fields with
  | nil => simp [lookupField]
  | cons field rest ih =>
    obtain ⟨k, v⟩ := field
    simp only [lookupField, List.map_cons, List.mem_cons, not_or]
    split
    next same => simp [same]
    next other => simp [ih, Ne.symm other]

theorem lookupField_mergeFields (baseMap : List (String × Json))
    {overlayMap : List (String × Json)} (distinct : (overlayMap.map Prod.fst).Nodup) (merged : List (String × Json)) (key : String) :
    lookupField key (mergeFields baseMap overlayMap merged) =
      ((lookupField key overlayMap).map fun value => mergedVal baseMap (key, value)).or
        (lookupField key merged) := by
  induction overlayMap generalizing merged with
  | nil => rfl
  | cons field rest ih =>
    obtain ⟨k, v⟩ := field
    rw [List.map_cons, List.nodup_cons] at distinct
    rw [mergeFields, ih distinct.2, lookupField_insertField, lookupField]
    by_cases same : k = key
    · subst same
      simp [lookupField_eq_none.mpr distinct.1]
    · rw [if_neg same, if_neg same]

/-- One field a key, in order, at every depth. -/
inductive WellFormed : Json → Prop
  | null : WellFormed null
  | bool (value : Bool) : WellFormed (bool value)
  | number (text : String) : WellFormed (number text)
  | string (text : String) : WellFormed (string text)
  | array {items : List Json} : (∀ item ∈ items, WellFormed item) → WellFormed (array items)
  | object {fields : List (String × Json)} : fields.Pairwise (fun a b => a.1 < b.1) →
      (∀ field ∈ fields, WellFormed field.2) → WellFormed (object fields)

theorem mem_insertField {key : String} {value : Json} {field : String × Json}
    {fields : List (String × Json)} (h : field ∈ insertField key value fields) :
    field = (key, value) ∨ field ∈ fields := by
  induction fields with
  | nil => exact .inl (List.mem_singleton.mp h)
  | cons first rest ih =>
    obtain ⟨k, v⟩ := first
    simp only [insertField] at h
    split at h
    · exact List.mem_cons.mp h
    · split at h
      · obtain new | old := List.mem_cons.mp h
        · exact .inl new
        · exact .inr (List.mem_cons_of_mem _ old)
      · obtain new | old := List.mem_cons.mp h
        · exact .inr (new ▸ List.mem_cons_self)
        · exact (ih old).imp_right (List.mem_cons_of_mem _)

theorem insertField_sorted {key : String} {value : Json} {fields : List (String × Json)}
    (h : fields.Pairwise fun a b => a.1 < b.1) :
    (insertField key value fields).Pairwise fun a b => a.1 < b.1 := by
  induction fields with
  | nil => exact List.pairwise_singleton _ _
  | cons field rest ih =>
    obtain ⟨k, v⟩ := field
    obtain ⟨first, sorted⟩ := List.pairwise_cons.mp h
    simp only [insertField]
    split
    next less =>
      refine List.pairwise_cons.mpr ⟨?_, h⟩
      intro other ho
      obtain rfl | later := List.mem_cons.mp ho
      · exact less
      · exact String.lt_trans less (first other later)
    next notLess =>
      split
      next same =>
        subst same
        exact List.pairwise_cons.mpr ⟨first, sorted⟩
      next differ =>
        refine List.pairwise_cons.mpr ⟨?_, ih sorted⟩
        intro other ho
        obtain rfl | old := mem_insertField ho
        · apply Decidable.byContradiction
          intro notMore
          exact differ (String.le_antisymm (String.not_lt.mp notLess) (String.not_lt.mp notMore))
        · exact first other old

theorem WellFormed.distinct {fields : List (String × Json)} (h : (Json.object fields).WellFormed) :
    (fields.map Prod.fst).Nodup := by
  cases h with
  | object sorted _ =>
    apply List.pairwise_map.mpr
    apply sorted.imp
    intro a b less same
    rw [same] at less
    exact String.lt_irrefl _ less

theorem WellFormed.lookup {fields : List (String × Json)} (h : (Json.object fields).WellFormed)
    {key : String} {value : Json} (found : lookupField key fields = some value) :
    value.WellFormed := by
  cases h with
  | object _ each => exact each _ (mem_of_lookupField found)

theorem WellFormed.insert {fields : List (String × Json)} (h : (Json.object fields).WellFormed)
    (key : String) {value : Json} (hv : value.WellFormed) :
    (Json.object (insertField key value fields)).WellFormed := by
  cases h with
  | object sorted each =>
    refine .object (insertField_sorted sorted) ?_
    intro field hf
    obtain rfl | old := mem_insertField hf
    · exact hv
    · exact each field old

theorem WellFormed.single (key : String) {value : Json} (h : value.WellFormed) :
    (Json.object [(key, value)]).WellFormed := by
  refine .object (List.pairwise_singleton _ _) ?_
  intro field hf
  rw [List.mem_singleton.mp hf]
  exact h

theorem WellFormed.pair {key key' : String} {value value' : Json} (less : key < key')
    (h : value.WellFormed) (h' : value'.WellFormed) :
    (Json.object [(key, value), (key', value')]).WellFormed := by
  refine .object (List.pairwise_cons.mpr ⟨?_, List.pairwise_singleton _ _⟩) ?_
  · intro field hf
    rw [List.mem_singleton.mp hf]
    exact less
  · intro field hf
    simp only [List.mem_cons, List.not_mem_nil, or_false] at hf
    obtain rfl | rfl := hf
    · exact h
    · exact h'

/-- The loop over `overlay_map` keeps the object well formed. -/
theorem mergeFields_wellFormed {baseMap overlayMap merged : List (String × Json)}
    (h : (Json.object merged).WellFormed)
    (values : ∀ field ∈ overlayMap, (mergedVal baseMap field).WellFormed) :
    (Json.object (mergeFields baseMap overlayMap merged)).WellFormed := by
  induction overlayMap generalizing merged with
  | nil => exact h
  | cons field rest ih =>
    rw [mergeFields]
    apply ih (h.insert field.1 (values field List.mem_cons_self))
    intro other ho
    exact values other (List.mem_cons_of_mem _ ho)

/-- What is merged from well-formed values is well formed. -/
theorem deepMergeJson_wellFormed {base overlay : Json} (hb : base.WellFormed)
    (ho : overlay.WellFormed) : (deepMergeJson base overlay).WellFormed := by
  induction ho generalizing base with
  | null => exact .null
  | bool value => exact .bool value
  | number text => exact .number text
  | string text => exact .string text
  | array each _ => exact .array each
  | object sorted each ih =>
    cases base with
    | object baseMap =>
      rw [deepMergeJson]
      apply mergeFields_wellFormed hb
      intro field hf
      obtain ⟨key, value⟩ := field
      rw [mergedVal]
      cases found : lookupField key baseMap with
      | none => exact each _ hf
      | some baseVal => exact ih _ hf (hb.lookup found)
    | _ => exact .object sorted each

end Json

end RustyGasket
