import RustyGasket.Fallible
import RustyGasket.OrderedSet
import RustyGasket.Topo

/-!
# `topological_sort` and the graph it builds

Plugin declarations become a directed graph on indices, sorted by Kahn's loop.
A plugin that names itself gets a self-edge, which the in-degrees do not count
and the loop still subtracts; `usize` subtraction wraps there.
-/

namespace RustyGasket

structure PluginOrdering where
  before : List String
  after : List String
  first : Bool
  last : Bool
  deriving DecidableEq, Repr

/-- What the sorter and the dependency check read of a plugin. -/
structure PluginHandle where
  name : String
  ordering : PluginOrdering
  dependencies : List String
  deriving DecidableEq, Repr

namespace PluginGraph

/-- `name_to_idx`. -/
abbrev NameToIdx := String → Option Nat

/-- `adj`: the successors of each index. -/
abbrev Adj := Nat → OrderedSet Nat

def Adj.link (adj : Adj) (e : Nat × Nat) : Adj :=
  Function.update adj e.1 ((adj e.1).insert e.2)

def indexNames (nameToIdx : NameToIdx) : List (PluginHandle × Nat) → Except String NameToIdx
  | [] => .ok nameToIdx
  | (plugin, i) :: rest =>
    let name := plugin.name
    match nameToIdx name with
    | some prev => .error (s!"Duplicate plugin name '{name}' registered at indices " ++
        s!"{prev} and {i}; plugin names must be unique")
    | none => indexNames (Function.update nameToIdx name (some i)) rest

/-- The loops over `ordering.before` and `ordering.after`: an edge for each name. -/
def linkNames (nameToIdx : NameToIdx) (edge : Nat → Nat × Nat) (missing : String → String) :
    List String → Adj → Except String Adj
  | [], adj => .ok adj
  | name :: rest, adj => match nameToIdx name with
    | some j => linkNames nameToIdx edge missing rest (adj.link (edge j))
    | none => .error (missing name)

def linkFirst (plugins : List PluginHandle) (i : Nat) (adj : Adj) : Adj :=
  plugins.zipIdx.foldl (fun adj x =>
    if x.2 ≠ i ∧ x.1.ordering.first = false then adj.link (i, x.2) else adj) adj

def linkLast (plugins : List PluginHandle) (i : Nat) (adj : Adj) : Adj :=
  plugins.zipIdx.foldl (fun adj x =>
    if x.2 ≠ i ∧ x.1.ordering.last = false then adj.link (x.2, i) else adj) adj

def linkBefore (nameToIdx : NameToIdx) (plugin : PluginHandle) (i : Nat) :
    Adj → Except String Adj :=
  let name := plugin.name
  linkNames nameToIdx (fun j => (i, j))
    (fun target => s!"Plugin '{name}' declares before='{target}', but no such plugin is registered")
    plugin.ordering.before

def linkAfter (nameToIdx : NameToIdx) (plugin : PluginHandle) (i : Nat) :
    Adj → Except String Adj :=
  let name := plugin.name
  linkNames nameToIdx (fun j => (j, i))
    (fun dep => s!"Plugin '{name}' declares after='{dep}', but no such plugin is registered")
    plugin.ordering.after

/-- The body of the loop over the plugins. -/
def linkPlugin (plugins : List PluginHandle) (nameToIdx : NameToIdx) (plugin : PluginHandle)
    (i : Nat) (adj : Adj) : Except String Adj := do
  let name := plugin.name
  if plugin.ordering.first && plugin.ordering.last then
    throw s!"Plugin '{name}' declares both first=true and last=true, which is contradictory"
  let adj := if plugin.ordering.first then linkFirst plugins i adj else adj
  let adj := if plugin.ordering.last then linkLast plugins i adj else adj
  let adj ← linkBefore nameToIdx plugin i adj
  linkAfter nameToIdx plugin i adj

def linkAll (plugins : List PluginHandle) (nameToIdx : NameToIdx) :
    List (PluginHandle × Nat) → Adj → Except String Adj
  | [], adj => .ok adj
  | (plugin, i) :: rest, adj => do
    let adj ← linkPlugin plugins nameToIdx plugin i adj
    linkAll plugins nameToIdx rest adj

/-- `d - 1` on `usize`. -/
def wrappingPred (d : Nat) : Nat := if d = 0 then UInt64.size - 1 else d - 1

/-- `in_degree` before the loop; a self-edge is not counted. -/
def countInDegree (adj : Adj) (n : Nat) : Nat → Nat :=
  (List.range n).foldl (fun inDegree i =>
    (adj i).elems.foldl (fun inDegree j =>
      if i ≠ j then Function.update inDegree j (inDegree j + 1) else inDegree) inDegree)
    fun _ => 0

structure Sorting where
  inDegree : Nat → Nat
  queue : List Nat
  sorted : List Nat

/-- The inner loop over `adj[node]`. -/
def relax (s : Sorting) : List Nat → Sorting
  | [] => s
  | neighbor :: rest =>
    let d := wrappingPred (s.inDegree neighbor)
    relax { s with
      inDegree := Function.update s.inDegree neighbor d
      queue := if d = 0 then s.queue ++ [neighbor] else s.queue } rest

/-- `while let Some(node) = queue.pop_front()`, for at most `fuel` pops. -/
def drain (adj : Adj) : Nat → Sorting → Sorting
  | 0, s => s
  | fuel + 1, s => match s.queue with
    | [] => s
    | node :: queue =>
      drain adj fuel (relax { s with queue := queue, sorted := s.sorted ++ [node] } (adj node).elems)

def startSorting (adj : Adj) (n : Nat) : Sorting :=
  let inDegree := countInDegree adj n
  ⟨inDegree, (List.range n).filter (fun i => inDegree i = 0), []⟩

/-- Each index is queued at most once, so `n` pops empty the queue. -/
def kahn (adj : Adj) (n : Nat) : Sorting := drain adj n (startSorting adj n)

/-- The names `cycle_nodes` lists: also a sorted plugin whose self-edge wrapped. -/
def cycleNames (plugins : List PluginHandle) (inDegree : Nat → Nat) : List String :=
  (plugins.zipIdx.filter (fun x => 0 < inDegree x.2)).map fun x => x.1.name

end PluginGraph

open PluginGraph in
def topologicalSort (plugins : List PluginHandle) : Except String (List Nat) := do
  let nameToIdx ← indexNames (fun _ => none) plugins.zipIdx
  let adj ← linkAll plugins nameToIdx plugins.zipIdx (fun _ => .empty)
  let final := kahn adj plugins.length
  if final.sorted.length ≠ plugins.length then
    let names := ", ".intercalate (cycleNames plugins final.inDegree)
    throw s!"Cycle detected in plugin ordering involving: {names}"
  else
    return final.sorted

namespace PluginGraph

/-- **The ordering relation**, on distinct plugins: `i` before `j`. -/
def Edge (plugins : List PluginHandle) (i j : Nat) : Prop :=
  i ≠ j ∧ ∃ p q, plugins[i]? = some p ∧ plugins[j]? = some q ∧
    (q.name ∈ p.ordering.before ∨ p.name ∈ q.ordering.after ∨
      (p.ordering.first = true ∧ q.ordering.first = false) ∨
      (q.ordering.last = true ∧ p.ordering.last = false))

/-- What the plugin at `i` adds to the graph. -/
def Contributes (plugins : List PluginHandle) (nameToIdx : NameToIdx) (p : PluginHandle)
    (i a b : Nat) : Prop :=
  (p.ordering.first = true ∧ a = i ∧ b ≠ i ∧
      ∃ q, plugins[b]? = some q ∧ q.ordering.first = false) ∨
    (p.ordering.last = true ∧ b = i ∧ a ≠ i ∧
      ∃ q, plugins[a]? = some q ∧ q.ordering.last = false) ∨
    (a = i ∧ ∃ name ∈ p.ordering.before, nameToIdx name = some b) ∨
    (b = i ∧ ∃ name ∈ p.ordering.after, nameToIdx name = some a)

/-- A plugin whose own declarations raise no error. -/
structure Declared (nameToIdx : NameToIdx) (p : PluginHandle) : Prop where
  notBoth : ¬ (p.ordering.first = true ∧ p.ordering.last = true)
  before : ∀ name ∈ p.ordering.before, ∃ j, nameToIdx name = some j
  after : ∀ name ∈ p.ordering.after, ∃ j, nameToIdx name = some j

theorem mem_link {adj : Adj} {e : Nat × Nat} {a b : Nat} :
    b ∈ adj.link e a ↔ b ∈ adj a ∨ e = (a, b) := by
  obtain ⟨i, j⟩ := e
  simp only [Adj.link, Function.update_apply]
  split
  · rename_i same
    subst same
    rw [OrderedSet.mem_insert, Prod.mk.injEq]
    tauto
  · rename_i other
    simp only [Prod.mk.injEq, Ne.symm other, false_and, or_false]

theorem mem_foldl_link {β : Type} (c : β → Prop) [DecidablePred c] (e : β → Nat × Nat)
    (l : List β) (adj : Adj) (a b : Nat) :
    b ∈ l.foldl (fun adj x => if c x then adj.link (e x) else adj) adj a ↔
      b ∈ adj a ∨ ∃ x ∈ l, c x ∧ e x = (a, b) := by
  induction l generalizing adj with
  | nil => simp
  | cons x rest ih =>
    rw [List.foldl_cons, ih]
    by_cases hx : c x
    · simp only [hx, if_true, mem_link, List.mem_cons, exists_eq_or_imp, true_and, or_assoc]
    · simp only [hx, if_false, List.mem_cons, exists_eq_or_imp, false_and, false_or]

theorem mem_linkFirst {plugins : List PluginHandle} {i : Nat} {adj : Adj} {a b : Nat} :
    b ∈ linkFirst plugins i adj a ↔ b ∈ adj a ∨
      (a = i ∧ b ≠ i ∧ ∃ q, plugins[b]? = some q ∧ q.ordering.first = false) := by
  rw [linkFirst, mem_foldl_link (fun x : PluginHandle × Nat =>
    x.2 ≠ i ∧ x.1.ordering.first = false) fun x => (i, x.2)]
  simp only [Prod.exists, List.mem_zipIdx_iff_getElem?, Prod.mk.injEq]
  constructor
  · rintro (h | ⟨q, j, hq, ⟨hj, first⟩, rfl, rfl⟩)
    · exact Or.inl h
    · exact Or.inr ⟨rfl, hj, q, hq, first⟩
  · rintro (h | ⟨rfl, hb, q, hq, first⟩)
    · exact Or.inl h
    · exact Or.inr ⟨q, b, hq, ⟨hb, first⟩, rfl, rfl⟩

theorem mem_linkLast {plugins : List PluginHandle} {i : Nat} {adj : Adj} {a b : Nat} :
    b ∈ linkLast plugins i adj a ↔ b ∈ adj a ∨
      (b = i ∧ a ≠ i ∧ ∃ q, plugins[a]? = some q ∧ q.ordering.last = false) := by
  rw [linkLast, mem_foldl_link (fun x : PluginHandle × Nat =>
    x.2 ≠ i ∧ x.1.ordering.last = false) fun x => (x.2, i)]
  simp only [Prod.exists, List.mem_zipIdx_iff_getElem?, Prod.mk.injEq]
  constructor
  · rintro (h | ⟨q, j, hq, ⟨hj, last⟩, rfl, rfl⟩)
    · exact Or.inl h
    · exact Or.inr ⟨rfl, hj, q, hq, last⟩
  · rintro (h | ⟨rfl, ha, q, hq, last⟩)
    · exact Or.inl h
    · exact Or.inr ⟨q, a, hq, ⟨ha, last⟩, rfl, rfl⟩

/-- Every name resolved, and the edges added are exactly theirs. -/
theorem linkNames_ok {nameToIdx : NameToIdx} {edge : Nat → Nat × Nat} {missing : String → String}
    {names : List String} {adj adj' : Adj}
    (h : linkNames nameToIdx edge missing names adj = .ok adj') :
    (∀ name ∈ names, ∃ j, nameToIdx name = some j) ∧ ∀ a b, b ∈ adj' a ↔ b ∈ adj a ∨
      ∃ name ∈ names, ∃ j, nameToIdx name = some j ∧ edge j = (a, b) := by
  induction names generalizing adj with
  | nil => cases h; simp
  | cons name rest ih =>
    rw [linkNames] at h
    split at h
    · rename_i j hj
      obtain ⟨found, edges⟩ := ih h
      refine ⟨List.forall_mem_cons.mpr ⟨⟨j, hj⟩, found⟩, fun a b => ?_⟩
      simp only [edges, mem_link, List.mem_cons, exists_eq_or_imp, hj, Option.some.injEq,
        exists_eq_left', or_assoc]
    · cases h

theorem linkNames_total {nameToIdx : NameToIdx} {edge : Nat → Nat × Nat}
    {missing : String → String} {names : List String} (adj : Adj)
    (found : ∀ name ∈ names, ∃ j, nameToIdx name = some j) :
    ∃ adj', linkNames nameToIdx edge missing names adj = .ok adj' := by
  induction names generalizing adj with
  | nil => exact ⟨adj, rfl⟩
  | cons name rest ih =>
    obtain ⟨⟨j, hj⟩, found⟩ := List.forall_mem_cons.mp found
    simp only [linkNames, hj]
    exact ih _ found

theorem linkPlugin_ok {plugins : List PluginHandle} {nameToIdx : NameToIdx} {p : PluginHandle}
    {i : Nat} {adj adj' : Adj} (h : linkPlugin plugins nameToIdx p i adj = .ok adj') :
    Declared nameToIdx p ∧
      ∀ a b, b ∈ adj' a ↔ b ∈ adj a ∨ Contributes plugins nameToIdx p i a b := by
  simp only [linkPlugin] at h
  split at h
  · cases h
  · rename_i both
    obtain ⟨adj₁, h₁, h₂⟩ := Fallible.bind_ok h
    obtain ⟨before, edges₁⟩ := linkNames_ok h₁
    obtain ⟨after, edges₂⟩ := linkNames_ok h₂
    refine ⟨⟨by simpa using both, before, after⟩, fun a b => ?_⟩
    rw [edges₂, edges₁]
    have hlast : ∀ adj : Adj, b ∈ (if p.ordering.last then linkLast plugins i adj else adj) a ↔
        b ∈ adj a ∨ (p.ordering.last = true ∧ b = i ∧ a ≠ i ∧
          ∃ q, plugins[a]? = some q ∧ q.ordering.last = false) := by
      intro adj
      split <;> simp_all [mem_linkLast]
    have hfirst : b ∈ (if p.ordering.first then linkFirst plugins i adj else adj) a ↔
        b ∈ adj a ∨ (p.ordering.first = true ∧ a = i ∧ b ≠ i ∧
          ∃ q, plugins[b]? = some q ∧ q.ordering.first = false) := by
      split <;> simp_all [mem_linkFirst]
    rw [hlast, hfirst, Contributes]
    simp only [Prod.mk.injEq]
    grind

theorem linkPlugin_total (plugins : List PluginHandle) {nameToIdx : NameToIdx} {p : PluginHandle}
    (h : Declared nameToIdx p) (i : Nat) (adj : Adj) :
    ∃ adj', linkPlugin plugins nameToIdx p i adj = .ok adj' := by
  have both : ¬ (p.ordering.first && p.ordering.last) = true := by simpa using h.notBoth
  simp only [linkPlugin, both]
  generalize (if p.ordering.last = true then _ else _ : Adj) = adj₀
  obtain ⟨adj₁, h₁⟩ : ∃ adj', linkBefore nameToIdx p i adj₀ = .ok adj' :=
    linkNames_total adj₀ h.before
  obtain ⟨adj₂, h₂⟩ : ∃ adj', linkAfter nameToIdx p i adj₁ = .ok adj' :=
    linkNames_total adj₁ h.after
  exact ⟨adj₂, by rw [h₁]; exact h₂⟩

theorem linkAll_ok {plugins : List PluginHandle} {nameToIdx : NameToIdx}
    {l : List (PluginHandle × Nat)} {adj adj' : Adj}
    (h : linkAll plugins nameToIdx l adj = .ok adj') :
    (∀ x ∈ l, Declared nameToIdx x.1) ∧
      ∀ a b, b ∈ adj' a ↔ b ∈ adj a ∨ ∃ x ∈ l, Contributes plugins nameToIdx x.1 x.2 a b := by
  induction l generalizing adj with
  | nil => cases h; simp
  | cons x rest ih =>
    obtain ⟨adj₁, h₁, h₂⟩ := Fallible.bind_ok h
    obtain ⟨declared, edges⟩ := linkPlugin_ok h₁
    obtain ⟨all, edges'⟩ := ih h₂
    refine ⟨List.forall_mem_cons.mpr ⟨declared, all⟩, fun a b => ?_⟩
    simp only [edges', edges, List.mem_cons, exists_eq_or_imp, or_assoc]

theorem linkAll_total (plugins : List PluginHandle) {nameToIdx : NameToIdx}
    {l : List (PluginHandle × Nat)} (h : ∀ x ∈ l, Declared nameToIdx x.1) (adj : Adj) :
    ∃ adj', linkAll plugins nameToIdx l adj = .ok adj' := by
  induction l generalizing adj with
  | nil => exact ⟨adj, rfl⟩
  | cons x rest ih =>
    obtain ⟨declared, all⟩ := List.forall_mem_cons.mp h
    obtain ⟨adj₁, h₁⟩ := linkPlugin_total plugins declared x.2 adj
    obtain ⟨adj₂, h₂⟩ := ih all adj₁
    exact ⟨adj₂, by simp only [linkAll, h₁]; exact h₂⟩

theorem indexNames_ok {m m' : NameToIdx} {l : List (PluginHandle × Nat)}
    (h : indexNames m l = .ok m') :
    (l.map fun x => x.1.name).Nodup ∧ (∀ x ∈ l, m x.1.name = none) ∧
      ∀ name j, m' name = some j ↔ m name = some j ∨ ∃ x ∈ l, x.1.name = name ∧ x.2 = j := by
  induction l generalizing m with
  | nil => cases h; simp
  | cons x rest ih =>
    simp only [indexNames] at h
    split at h
    · cases h
    · rename_i fresh
      obtain ⟨nodup, free, entries⟩ := ih h
      have other : ∀ y ∈ rest, y.1.name ≠ x.1.name := by
        intro y hy same
        have := free y hy
        rw [same, Function.update_self] at this
        cases this
      refine ⟨?_, List.forall_mem_cons.mpr ⟨fresh, fun y hy => ?_⟩, fun name j => ?_⟩
      · refine List.nodup_cons.mpr ⟨fun hx => ?_, nodup⟩
        obtain ⟨y, hy, same⟩ := List.mem_map.mp hx
        exact other y hy same
      · have := free y hy
        rwa [Function.update_of_ne (other y hy)] at this
      · rw [entries, Function.update_apply]
        by_cases same : name = x.1.name
        · subst same
          simp [fresh]
        · simp [same, Ne.symm same]

theorem indexNames_total {m : NameToIdx} {l : List (PluginHandle × Nat)}
    (nodup : (l.map fun x => x.1.name).Nodup) (free : ∀ x ∈ l, m x.1.name = none) :
    ∃ m', indexNames m l = .ok m' := by
  induction l generalizing m with
  | nil => exact ⟨m, rfl⟩
  | cons x rest ih =>
    obtain ⟨fresh, free⟩ := List.forall_mem_cons.mp free
    obtain ⟨hx, nodup⟩ := List.nodup_cons.mp nodup
    simp only [indexNames, fresh]
    refine ih nodup fun y hy => ?_
    have other : y.1.name ≠ x.1.name := fun same => hx (List.mem_map.mpr ⟨y, hy, same⟩)
    rw [Function.update_of_ne other]
    exact free y hy

theorem zipIdx_names (plugins : List PluginHandle) :
    (plugins.zipIdx.map fun x => x.1.name) = plugins.map (·.name) := by
  rw [← Function.comp_def (f := PluginHandle.name), ← List.map_map, List.zipIdx_map_fst]

/-- `name_to_idx` finds exactly the registered names, each at its own index. -/
def Indexes (plugins : List PluginHandle) (nameToIdx : NameToIdx) : Prop :=
  ∀ name j, nameToIdx name = some j ↔ ∃ p, plugins[j]? = some p ∧ p.name = name

theorem indexNames_indexes {plugins : List PluginHandle} {m : NameToIdx}
    (h : indexNames (fun _ => none) plugins.zipIdx = .ok m) : Indexes plugins m := by
  intro name j
  rw [(indexNames_ok h).2.2]
  simp only [Prod.exists, List.mem_zipIdx_iff_getElem?, reduceCtorEq, false_or]
  constructor
  · rintro ⟨p, i, hp, rfl, rfl⟩
    exact ⟨p, hp, rfl⟩
  · rintro ⟨p, hp, rfl⟩
    exact ⟨p, j, hp, rfl, rfl⟩

/-- Off the diagonal, the contributions of all plugins are the ordering relation. -/
theorem contributes_iff_edge {plugins : List PluginHandle} {m : NameToIdx}
    (h : Indexes plugins m) {a b : Nat} (distinct : a ≠ b) :
    (∃ x ∈ plugins.zipIdx, Contributes plugins m x.1 x.2 a b) ↔ Edge plugins a b := by
  rw [Indexes] at h
  simp only [Prod.exists, List.mem_zipIdx_iff_getElem?, Contributes, h]
  constructor
  · rintro ⟨p, i, hp, ⟨first, rfl, -, q, hq, hf⟩ | ⟨last, rfl, -, q, hq, hl⟩ |
      ⟨rfl, name, hn, q, hq, rfl⟩ | ⟨rfl, name, hn, q, hq, rfl⟩⟩
    · exact ⟨distinct, p, q, hp, hq, Or.inr (Or.inr (Or.inl ⟨first, hf⟩))⟩
    · exact ⟨distinct, q, p, hq, hp, Or.inr (Or.inr (Or.inr ⟨last, hl⟩))⟩
    · exact ⟨distinct, p, q, hp, hq, Or.inl hn⟩
    · exact ⟨distinct, q, p, hq, hp, Or.inr (Or.inl hn)⟩
  · rintro ⟨-, p, q, hp, hq, hn | hn | ⟨first, hf⟩ | ⟨last, hl⟩⟩
    · exact ⟨p, a, hp, Or.inr (Or.inr (Or.inl ⟨rfl, q.name, hn, q, hq, rfl⟩))⟩
    · exact ⟨q, b, hq, Or.inr (Or.inr (Or.inr ⟨rfl, p.name, hn, p, hp, rfl⟩))⟩
    · exact ⟨p, a, hp, Or.inl ⟨first, rfl, Ne.symm distinct, q, hq, hf⟩⟩
    · exact ⟨q, b, hq, Or.inr (Or.inl ⟨last, rfl, distinct, p, hp, hl⟩)⟩

theorem contributes_range {plugins : List PluginHandle} {m : NameToIdx}
    (h : Indexes plugins m) {a b : Nat}
    (hx : ∃ x ∈ plugins.zipIdx, Contributes plugins m x.1 x.2 a b) :
    a < plugins.length ∧ b < plugins.length := by
  have lt : ∀ {i : Nat} {p : PluginHandle}, plugins[i]? = some p → i < plugins.length :=
    fun hp => (List.getElem?_eq_some_iff.mp hp).1
  rw [Indexes] at h
  simp only [Prod.exists, List.mem_zipIdx_iff_getElem?, Contributes, h] at hx
  obtain ⟨p, i, hp, ⟨-, rfl, -, q, hq, -⟩ | ⟨-, rfl, -, q, hq, -⟩ | ⟨rfl, -, -, q, hq, -⟩ |
    ⟨rfl, -, -, q, hq, -⟩⟩ := hx
  · exact ⟨lt hp, lt hq⟩
  · exact ⟨lt hq, lt hp⟩
  · exact ⟨lt hp, lt hq⟩
  · exact ⟨lt hq, lt hp⟩

/-- What `adj` holds once all declarations are in. -/
structure Represents (adj : Adj) (plugins : List PluginHandle) : Prop where
  edge : ∀ a b, a ≠ b → (b ∈ adj a ↔ Edge plugins a b)
  range : ∀ a b, b ∈ adj a → a < plugins.length ∧ b < plugins.length

theorem linkAll_represents {plugins : List PluginHandle} {m : NameToIdx} {adj : Adj}
    (h : Indexes plugins m)
    (hl : linkAll plugins m plugins.zipIdx (fun _ => .empty) = .ok adj) :
    Represents adj plugins := by
  obtain ⟨-, edges⟩ := linkAll_ok hl
  constructor
  · intro a b distinct
    rw [edges, ← contributes_iff_edge h distinct]
    simp
  · intro a b hb
    rw [edges] at hb
    exact contributes_range h (hb.resolve_left (OrderedSet.not_mem_empty b))

end PluginGraph

end RustyGasket
