import RustyGasket.Kahn

/-!
# Which plugin lists `topological_sort` accepts, and the orders it returns
-/

namespace RustyGasket

namespace PluginGraph

/-- Everything before the in-degrees. -/
def buildGraph (plugins : List PluginHandle) : Except String Adj := do
  let nameToIdx ← indexNames (fun _ => none) plugins.zipIdx
  linkAll plugins nameToIdx plugins.zipIdx (fun _ => .empty)

/-- Everything after the loop. -/
def report (plugins : List PluginHandle) (final : Sorting) : Except String (List Nat) :=
  if final.sorted.length ≠ plugins.length then
    let names := ", ".intercalate (cycleNames plugins final.inDegree)
    .error s!"Cycle detected in plugin ordering involving: {names}"
  else .ok final.sorted

end PluginGraph

open PluginGraph

theorem topologicalSort_eq (plugins : List PluginHandle) : topologicalSort plugins =
    buildGraph plugins >>= fun adj => report plugins (kahn adj plugins.length) := by
  simp only [topologicalSort, buildGraph, report, bind, Except.bind]
  cases indexNames (fun _ => none) plugins.zipIdx with
  | error text => rfl
  | ok nameToIdx =>
    cases linkAll plugins nameToIdx plugins.zipIdx (fun _ => .empty) with
    | error text => rfl
    | ok adj => rfl

/-- What a list of plugin declarations needs for an order to exist. -/
structure Sortable (plugins : List PluginHandle) : Prop where
  names : (plugins.map (·.name)).Nodup
  notBoth : ∀ p ∈ plugins, ¬ (p.ordering.first = true ∧ p.ordering.last = true)
  before : ∀ p ∈ plugins, ∀ name ∈ p.ordering.before, name ∈ plugins.map (·.name)
  after : ∀ p ∈ plugins, ∀ name ∈ p.ordering.after, name ∈ plugins.map (·.name)
  acyclic : ∀ i, ¬ Relation.TransGen (Edge plugins) i i

/-- What the declarations need to raise no error of their own. -/
structure WellDeclared (plugins : List PluginHandle) : Prop where
  names : (plugins.map (·.name)).Nodup
  notBoth : ∀ p ∈ plugins, ¬ (p.ordering.first = true ∧ p.ordering.last = true)
  before : ∀ p ∈ plugins, ∀ name ∈ p.ordering.before, name ∈ plugins.map (·.name)
  after : ∀ p ∈ plugins, ∀ name ∈ p.ordering.after, name ∈ plugins.map (·.name)

theorem Sortable.declared {plugins : List PluginHandle} (h : Sortable plugins) :
    WellDeclared plugins :=
  ⟨h.names, h.notBoth, h.before, h.after⟩

/-- An order of all indices that respects every edge, and so puts every `first`
plugin before the others and every `last` plugin after them. -/
structure Sorts (plugins : List PluginHandle) (order : List Nat) : Prop where
  perm : order.Perm (List.range plugins.length)
  edges : ∀ i j, Edge plugins i j → order.idxOf i < order.idxOf j
  first : ∀ i j p q, plugins[i]? = some p → plugins[j]? = some q →
    p.ordering.first = true → q.ordering.first = false → order.idxOf i < order.idxOf j
  last : ∀ i j p q, plugins[i]? = some p → plugins[j]? = some q →
    p.ordering.last = false → q.ordering.last = true → order.idxOf i < order.idxOf j

theorem Sorts.of_edges {plugins : List PluginHandle} {order : List Nat}
    (perm : order.Perm (List.range plugins.length))
    (edges : ∀ i j, Edge plugins i j → order.idxOf i < order.idxOf j) : Sorts plugins order := by
  refine ⟨perm, edges, ?_, ?_⟩
  · intro i j p q hp hq first notFirst
    have distinct : i ≠ j := by
      rintro rfl
      rw [Option.some.inj (hp.symm.trans hq), notFirst] at first
      cases first
    exact edges i j ⟨distinct, p, q, hp, hq, Or.inr (Or.inr (Or.inl ⟨first, notFirst⟩))⟩
  · intro i j p q hp hq notLast last
    have distinct : i ≠ j := by
      rintro rfl
      rw [Option.some.inj (hp.symm.trans hq), last] at notLast
      cases notLast
    exact edges i j ⟨distinct, p, q, hp, hq, Or.inr (Or.inr (Or.inr ⟨last, notLast⟩))⟩

theorem proper_eq_edge {plugins : List PluginHandle} {adj : Adj} (h : Represents adj plugins) :
    Proper adj = Edge plugins := by
  funext i j
  refine propext ⟨fun e => (h.edge i j e.1).mp e.2, fun e => ⟨e.1, (h.edge i j e.1).mpr e⟩⟩

theorem registered_iff {plugins : List PluginHandle} {m : NameToIdx} (h : Indexes plugins m)
    (name : String) : (∃ j, m name = some j) ↔ name ∈ plugins.map (·.name) := by
  rw [List.mem_map]
  constructor
  · rintro ⟨j, hj⟩
    obtain ⟨p, hp, same⟩ := (h name j).mp hj
    exact ⟨p, List.mem_of_getElem? hp, same⟩
  · rintro ⟨p, hp, same⟩
    obtain ⟨j, hj⟩ := List.mem_iff_getElem?.mp hp
    exact ⟨j, (h name j).mpr ⟨p, hj, same⟩⟩

/-- The plugin names itself. -/
def NamesItself (p : PluginHandle) : Prop :=
  p.name ∈ p.ordering.before ∨ p.name ∈ p.ordering.after

theorem contributes_self {plugins : List PluginHandle} {m : NameToIdx} (h : Indexes plugins m)
    {i : Nat} : (∃ x ∈ plugins.zipIdx, Contributes plugins m x.1 x.2 i i) ↔
      ∃ p, plugins[i]? = some p ∧ NamesItself p := by
  rw [Indexes] at h
  simp only [Prod.exists, List.mem_zipIdx_iff_getElem?, Contributes, h, NamesItself]
  constructor
  · rintro ⟨p, j, hp, ⟨-, rfl, other, -⟩ | ⟨-, rfl, other, -⟩ | ⟨rfl, name, hn, q, hq, rfl⟩ |
      ⟨rfl, name, hn, q, hq, rfl⟩⟩
    · exact absurd rfl other
    · exact absurd rfl other
    · rw [hp] at hq
      cases hq
      exact ⟨p, hp, .inl hn⟩
    · rw [hp] at hq
      cases hq
      exact ⟨p, hp, .inr hn⟩
  · rintro ⟨p, hp, before | after⟩
    · exact ⟨p, i, hp, .inr (.inr (.inl ⟨rfl, p.name, before, p, hp, rfl⟩))⟩
    · exact ⟨p, i, hp, .inr (.inr (.inr ⟨rfl, p.name, after, p, hp, rfl⟩))⟩

/-- The graph that is built, its self-edges included. -/
theorem buildGraph_ok {plugins : List PluginHandle} {adj : Adj}
    (h : buildGraph plugins = .ok adj) : WellDeclared plugins ∧ Represents adj plugins ∧
      ∀ i, i ∈ adj i ↔ ∃ p, plugins[i]? = some p ∧ NamesItself p := by
  obtain ⟨m, hm, hadj⟩ := Fallible.bind_ok h
  have indexes := indexNames_indexes hm
  obtain ⟨all, edges⟩ := linkAll_ok hadj
  have declared : ∀ p ∈ plugins, Declared m p := by
    intro p hp
    obtain ⟨i, hi⟩ := List.mem_iff_getElem?.mp hp
    exact all (p, i) (List.mem_zipIdx_iff_getElem?.mpr hi)
  refine ⟨?_, linkAll_represents indexes hadj, ?_⟩
  · constructor
    · exact zipIdx_names plugins ▸ (indexNames_ok hm).1
    · exact fun p hp => (declared p hp).notBoth
    · exact fun p hp name hn => (registered_iff indexes name).mp ((declared p hp).before name hn)
    · exact fun p hp name hn => (registered_iff indexes name).mp ((declared p hp).after name hn)
  · intro i
    rw [edges, ← contributes_self indexes]
    exact or_iff_right (OrderedSet.not_mem_empty i)

theorem buildGraph_total {plugins : List PluginHandle} (h : WellDeclared plugins) :
    ∃ adj, buildGraph plugins = .ok adj := by
  obtain ⟨m, hm⟩ := indexNames_total (m := fun _ => none) (zipIdx_names plugins ▸ h.names)
    fun _ _ => rfl
  have indexes := indexNames_indexes hm
  have declared : ∀ x ∈ plugins.zipIdx, Declared m x.1 := by
    intro x hx
    have hp : x.1 ∈ plugins := List.mem_of_getElem? (List.mem_zipIdx_iff_getElem?.mp hx)
    exact ⟨h.notBoth _ hp,
      fun name hn => (registered_iff indexes name).mpr (h.before _ hp name hn),
      fun name hn => (registered_iff indexes name).mpr (h.after _ hp name hn)⟩
  obtain ⟨adj, hadj⟩ := linkAll_total plugins declared fun _ => .empty
  exact ⟨adj, by rw [buildGraph, hm]; exact hadj⟩

theorem topologicalSort_ok {plugins : List PluginHandle} {order : List Nat}
    (h : topologicalSort plugins = .ok order) : Sortable plugins ∧ Sorts plugins order := by
  rw [topologicalSort_eq] at h
  obtain ⟨adj, built, h⟩ := Fallible.bind_ok h
  obtain ⟨declared, represents, -⟩ := buildGraph_ok built
  rw [report] at h
  split at h
  · cases h
  · rename_i full
    rw [not_not] at full
    cases h
    have kept := kahn_kept represents.range
    have perm := kept.perm full
    have acyclic := (kahn_full_iff represents.range).mp full
    rw [proper_eq_edge represents] at acyclic
    refine ⟨⟨declared.names, declared.notBoth, declared.before, declared.after, acyclic⟩, ?_⟩
    apply Sorts.of_edges perm
    intro i j e
    rw [← proper_eq_edge represents] at e
    exact kept.ordered.idxOf_lt (List.nodup_append.mp kept.nodup).1
      (perm.mem_iff.mpr (List.mem_range.mpr (represents.range i j e.2).2)) e

theorem topologicalSort_total {plugins : List PluginHandle} (h : Sortable plugins) :
    ∃ order, topologicalSort plugins = .ok order := by
  obtain ⟨adj, built⟩ := buildGraph_total h.declared
  obtain ⟨-, represents, -⟩ := buildGraph_ok built
  have full := (kahn_full_iff represents.range).mpr (proper_eq_edge represents ▸ h.acyclic)
  refine ⟨(kahn adj plugins.length).sorted, ?_⟩
  rw [topologicalSort_eq, built]
  exact if_neg (not_not.mpr full)

/-- **Sound and complete.** The sorter accepts a list of plugins exactly when the
names are unique and registered, nobody is both first and last, and the edges
between distinct plugins are acyclic; what it returns is an order respecting them. -/
theorem topologicalSort_sound_complete (plugins : List PluginHandle) :
    ((∃ order, topologicalSort plugins = .ok order) ↔ Sortable plugins) ∧
      ∀ order, topologicalSort plugins = .ok order → Sorts plugins order :=
  ⟨⟨fun ⟨_, h⟩ => (topologicalSort_ok h).1, topologicalSort_total⟩,
    fun _ h => (topologicalSort_ok h).2⟩

end RustyGasket
