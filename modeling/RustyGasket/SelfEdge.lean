import RustyGasket.TopologicalSort

/-!
# Subtracting from an in-degree

The sorter again, with the subtraction of a build that checks for overflow. The two
agree as long as no in-degree is zero when it is taken one from; that is where a
plugin that names itself is popped, since its self-edge was not counted.
-/

namespace RustyGasket

open PluginGraph

namespace PluginGraph

/-- The inner loop over `adj[node]`, stopped by an overflow. -/
def relaxChecked (s : Sorting) : List Nat → Option Sorting
  | [] => some s
  | neighbor :: rest =>
    if s.inDegree neighbor = 0 then none
    else
      let d := s.inDegree neighbor - 1
      relaxChecked { s with
        inDegree := Function.update s.inDegree neighbor d
        queue := if d = 0 then s.queue ++ [neighbor] else s.queue } rest

def drainChecked (adj : Adj) : Nat → Sorting → Option Sorting
  | 0, s => some s
  | fuel + 1, s => match s.queue with
    | [] => some s
    | node :: queue =>
      (relaxChecked { s with queue := queue, sorted := s.sorted ++ [node] }
        (adj node).elems).bind (drainChecked adj fuel)

def kahnChecked (adj : Adj) (n : Nat) : Option Sorting := drainChecked adj n (startSorting adj n)

end PluginGraph

/-- `topological_sort` in a build with overflow checks; `none` is the panic. -/
def topologicalSortChecked (plugins : List PluginHandle) : Option (Except String (List Nat)) :=
  match buildGraph plugins with
  | .error text => some (.error text)
  | .ok adj => (kahnChecked adj plugins.length).map (report plugins)

namespace PluginGraph

/-! ## Where it overflows -/

theorem relaxChecked_eq (s : Sorting) (l : List Nat) (nodup : l.Nodup) :
    relaxChecked s l = if ∀ v ∈ l, s.inDegree v ≠ 0 then some (relax s l) else none := by
  induction l generalizing s with
  | nil => simp [relaxChecked, relax]
  | cons neighbor rest ih =>
    obtain ⟨once, nodup⟩ := List.nodup_cons.mp nodup
    have others : ∀ d, (∀ v ∈ rest, Function.update s.inDegree neighbor d v ≠ 0) ↔
        ∀ v ∈ rest, s.inDegree v ≠ 0 := by
      intro d
      apply forall₂_congr
      intro v hv
      have other : v ≠ neighbor := by
        rintro rfl
        exact once hv
      rw [Function.update_of_ne other]
    rw [relaxChecked, relax]
    by_cases zero : s.inDegree neighbor = 0
    · rw [if_pos zero, if_neg]
      intro all
      exact all neighbor List.mem_cons_self zero
    · rw [if_neg zero, ih _ nodup]
      simp only [others, List.forall_mem_cons, ne_eq, zero, not_false_eq_true, true_and,
        wrappingPred, if_false]

variable {adj : Adj} {n : Nat}

/-- The successors of a popped index have it in their in-degrees, but for itself. -/
theorem Kept.popped_zero {s : Sorting} (h : Kept adj n s) {node : Nat} {queue : List Nat}
    (hq : s.queue = node :: queue) :
    (∀ v ∈ (adj node).elems, s.inDegree v ≠ 0) ↔ node ∉ adj node := by
  have inQueue : node ∈ s.queue := hq ▸ List.mem_cons_self
  have fresh : node ∉ s.sorted := h.queue_fresh inQueue
  have lt : node < n := h.range node (List.mem_append_right _ inQueue)
  constructor
  · intro counted self
    exact counted node self ((h.ready node lt fresh).mp inQueue)
  · intro noSelf v succ
    have edge : Proper adj node v := by
      refine ⟨?_, succ⟩
      rintro rfl
      exact noSelf succ
    have unsorted : v ∉ s.sorted := fun sorted => fresh (h.ordered.preds sorted edge)
    rw [h.count v unsorted]
    exact Finset.card_ne_zero_of_mem (mem_openPreds.mpr ⟨lt, edge, fresh⟩)

theorem sorted_subset_drain (adj : Adj) (fuel : Nat) (s : Sorting) :
    s.sorted ⊆ (drain adj fuel s).sorted := by
  induction fuel generalizing s with
  | zero => exact List.Subset.refl _
  | succ fuel ih =>
    rw [drain]
    split
    · exact List.Subset.refl _
    · rename_i node queue hq
      intro v hv
      apply ih
      rw [(relax_spec _ _ (adj node).nodup).1]
      exact List.mem_append_left _ hv

/-- The checked loop gets through exactly when it pops no index with a self-edge. -/
theorem drainChecked_eq (range : ∀ a b, b ∈ adj a → a < n ∧ b < n) (fuel : Nat) {s : Sorting}
    (h : Kept adj n s) (clean : ∀ v ∈ s.sorted, v ∉ adj v) :
    drainChecked adj fuel s =
      if ∀ v ∈ (drain adj fuel s).sorted, v ∉ adj v then some (drain adj fuel s) else none := by
  induction fuel generalizing s with
  | zero => rw [drain, if_pos clean, drainChecked]
  | succ fuel ih =>
    cases hq : s.queue with
    | nil => simp only [drainChecked, drain, hq, if_pos clean]
    | cons node queue =>
      have kept := h.pop range hq
      have sorted := (relax_spec { s with queue := queue, sorted := s.sorted ++ [node] }
        (adj node).elems (adj node).nodup).1
      simp only [drainChecked, drain, hq, relaxChecked_eq _ _ (adj node).nodup, h.popped_zero hq]
      -- the state after the pop
      generalize relax { s with queue := queue, sorted := s.sorted ++ [node] } (adj node).elems =
        popped at kept sorted
      by_cases self : node ∈ adj node
      · rw [if_neg (not_not.mpr self), Option.bind_none, if_neg]
        intro all
        apply all node _ self
        apply sorted_subset_drain
        rw [sorted]
        exact List.mem_append_right _ List.mem_cons_self
      · rw [if_pos self, Option.bind_some, ih kept]
        rw [sorted]
        intro v hv
        obtain old | new := List.mem_append.mp hv
        · exact clean v old
        · rw [List.mem_singleton.mp new]
          exact self

theorem kahnChecked_eq (range : ∀ a b, b ∈ adj a → a < n ∧ b < n) :
    kahnChecked adj n =
      if ∀ v ∈ (kahn adj n).sorted, v ∉ adj v then some (kahn adj n) else none := by
  apply drainChecked_eq range n start_kept
  intro v hv
  cases hv

/-! ## Errors other than a cycle -/

theorem head_append {a b : String} {c : Char} (h : a.toList.head? = some c) :
    (a ++ b).toList.head? = some c := by
  rw [String.toList_append, List.head?_append, h]
  rfl

theorem indexNames_error {l : List (PluginHandle × Nat)} {m : NameToIdx} {text : String}
    (h : indexNames m l = .error text) : text.toList.head? = some 'D' := by
  induction l generalizing m with
  | nil => cases h
  | cons x rest ih =>
    simp only [indexNames] at h
    split at h
    · cases h
      iterate 3 apply head_append
      rfl
    · exact ih h

theorem linkNames_error {nameToIdx : NameToIdx} {edge : Nat → Nat × Nat}
    {missing : String → String} {names : List String} {adj : Adj} {text : String}
    (h : linkNames nameToIdx edge missing names adj = .error text) :
    ∃ name, text = missing name := by
  induction names generalizing adj with
  | nil => cases h
  | cons name rest ih =>
    rw [linkNames] at h
    split at h
    · exact ih h
    · cases h
      exact ⟨name, rfl⟩

theorem linkPlugin_error {plugins : List PluginHandle} {nameToIdx : NameToIdx}
    {p : PluginHandle} {i : Nat} {adj : Adj} {text : String}
    (h : linkPlugin plugins nameToIdx p i adj = .error text) :
    text.toList.head? = some 'P' := by
  simp only [linkPlugin] at h
  split at h
  · cases h
    iterate 2 apply head_append
    rfl
  · obtain before | ⟨_, -, after⟩ := Fallible.bind_error h
    · obtain ⟨name, rfl⟩ := linkNames_error before
      iterate 4 apply head_append
      rfl
    · obtain ⟨name, rfl⟩ := linkNames_error after
      iterate 4 apply head_append
      rfl

theorem linkAll_error {plugins : List PluginHandle} {nameToIdx : NameToIdx}
    {l : List (PluginHandle × Nat)} {adj : Adj} {text : String}
    (h : linkAll plugins nameToIdx l adj = .error text) : text.toList.head? = some 'P' := by
  induction l generalizing adj with
  | nil => cases h
  | cons x rest ih =>
    obtain here | ⟨_, -, later⟩ := Fallible.bind_error h
    · exact linkPlugin_error here
    · exact ih later

/-- What goes wrong before the loop is not reported as a cycle. -/
theorem buildGraph_error {plugins : List PluginHandle} {text : String}
    (h : buildGraph plugins = .error text) (names : String) :
    text ≠ s!"Cycle detected in plugin ordering involving: {names}" := by
  rintro rfl
  have head : (s!"Cycle detected in plugin ordering involving: {names}").toList.head? =
      some 'C' := head_append rfl
  obtain names | ⟨_, -, edges⟩ := Fallible.bind_error h
  · exact absurd (head.symm.trans (indexNames_error names)) (by decide)
  · exact absurd (head.symm.trans (linkAll_error edges)) (by decide)

theorem report_short {plugins : List PluginHandle} {final : Sorting}
    (short : final.sorted.length ≠ plugins.length) :
    ∃ names : String, report plugins final =
      .error s!"Cycle detected in plugin ordering involving: {names}" :=
  ⟨_, if_pos short⟩

/-- A self-edge goes unpopped where a cycle leads to it. -/
theorem unpopped_iff {plugins : List PluginHandle} {adj : Adj}
    (h : buildGraph plugins = .ok adj) :
    (∀ v ∈ (kahn adj plugins.length).sorted, v ∉ adj v) ↔
      ∀ i p, plugins[i]? = some p → NamesItself p → ∃ u,
        Relation.TransGen (Edge plugins) u u ∧ Relation.ReflTransGen (Edge plugins) u i := by
  obtain ⟨-, represents, self⟩ := buildGraph_ok h
  rw [← proper_eq_edge represents]
  constructor
  · intro clean i p hp names
    have lt : i < plugins.length := (List.getElem?_eq_some_iff.mp hp).1
    apply (kahn_unsorted_iff represents.range lt).mp
    intro sorted
    exact clean i sorted ((self i).mpr ⟨p, hp, names⟩)
  · intro behind v sorted loop
    obtain ⟨p, hp, names⟩ := (self v).mp loop
    have lt : v < plugins.length := (List.getElem?_eq_some_iff.mp hp).1
    exact (kahn_unsorted_iff represents.range lt).mpr (behind v p hp names) sorted

end PluginGraph

/-- The checked build gives the unchecked one's answer, and a plugin that names itself
is reported as a cycle. -/
def SelfReferenceRejected (plugins : List PluginHandle) : Prop :=
  topologicalSortChecked plugins = some (topologicalSort plugins) ∧
    ((∃ p ∈ plugins, NamesItself p) → ∃ names : String, topologicalSort plugins =
      .error s!"Cycle detected in plugin ordering involving: {names}")

/-- **No in-degree underflows, and a self-reference is a cycle, exactly when** no plugin
names itself, or the declarations raise no other error and each plugin that names itself
lies on or behind a cycle of other edges. -/
theorem selfReferenceRejected_iff (plugins : List PluginHandle) :
    SelfReferenceRejected plugins ↔ (∀ p ∈ plugins, ¬ NamesItself p) ∨
      WellDeclared plugins ∧ ∀ i p, plugins[i]? = some p → NamesItself p → ∃ u,
        Relation.TransGen (Edge plugins) u u ∧ Relation.ReflTransGen (Edge plugins) u i := by
  rw [SelfReferenceRejected, topologicalSortChecked, topologicalSort_eq]
  cases built : buildGraph plugins with
  | error text =>
    have undeclared : ¬ WellDeclared plugins := by
      intro declared
      obtain ⟨adj, ok⟩ := buildGraph_total declared
      rw [built] at ok
      cases ok
    simp only [undeclared, false_and, or_false]
    constructor
    · rintro ⟨-, cycle⟩ p hp names
      obtain ⟨others, same⟩ := cycle ⟨p, hp, names⟩
      exact buildGraph_error built others (Except.error.inj same)
    · intro none
      exact ⟨rfl, fun ⟨p, hp, names⟩ => absurd names (none p hp)⟩
  | ok adj =>
    obtain ⟨declared, represents, self⟩ := buildGraph_ok built
    simp only [kahnChecked_eq represents.range, declared, true_and]
    rw [← unpopped_iff built]
    constructor
    · rintro ⟨same, -⟩
      right
      by_contra popped
      rw [if_neg popped] at same
      cases same
    · intro unpopped
      have clean : ∀ v ∈ (kahn adj plugins.length).sorted, v ∉ adj v := by
        obtain none | clean := unpopped
        · intro v _ loop
          obtain ⟨p, hp, names⟩ := (self v).mp loop
          exact none p (List.mem_of_getElem? hp) names
        · exact clean
      refine ⟨by rw [if_pos clean]; rfl, ?_⟩
      rintro ⟨p, hp, names⟩
      obtain ⟨i, hi⟩ := List.mem_iff_getElem?.mp hp
      apply report_short
      apply (kahn_short represents.range).mpr
      refine ⟨i, (List.getElem?_eq_some_iff.mp hi).1, fun sorted => ?_⟩
      exact clean i sorted ((self i).mpr ⟨p, hi, names⟩)

/-- A plugin that names itself in `before`. -/
def selfNaming : PluginHandle := ⟨"metrics", ⟨["metrics"], [], false, false⟩, []⟩

/-- It is accepted, and where subtraction is checked the sorter panics. -/
theorem self_reference_accepted :
    topologicalSort [selfNaming] = .ok [0] ∧ topologicalSortChecked [selfNaming] = none ∧
      ¬ SelfReferenceRejected [selfNaming] := by
  have accepted : topologicalSort [selfNaming] = .ok [0] := rfl
  have panics : topologicalSortChecked [selfNaming] = none := rfl
  refine ⟨accepted, panics, ?_⟩
  rintro ⟨same, -⟩
  rw [panics] at same
  cases same

end RustyGasket
