import RustyGasket.Lifecycle

/-!
# The trace of `build`

Validation and sorting call nothing. After them `build` calls `init`, `configure`
and `prepare` in sorted order; a failing `prepare` ends it with the shutdown of the
plugins before the failing one, last prepared first.
-/

namespace RustyGasket

variable {H : Host}

/-- The plugins pass validation and can be sorted. -/
structure Accepted (plugins : List (Plugin H)) : Prop where
  dependencies : ∀ p ∈ plugins, ∀ dep ∈ p.dependencies, dep ∈ plugins.map (·.name)
  sortable : Sortable (plugins.map (·.toPluginHandle))

/-- The plugins in an order that respects their declarations. -/
structure SortedFrom (plugins sorted : List (Plugin H)) : Prop where
  perm : sorted.Perm plugins
  names : (sorted.map (·.name)).Nodup
  order : ∃ order, Sorts (plugins.map (·.toPluginHandle)) order ∧
    sorted = order.filterMap (plugins[·]?)

/-! ## The calls of each phase -/

def initialized (ctx : InitContext H) (plugins : List (Plugin H)) : InitContext H :=
  plugins.foldl (fun ctx p => p.init ctx) ctx

def initCalls (plugins : List (Plugin H)) : List Call := plugins.map fun p => ⟨p.name, .init⟩

/-- Each plugin is given the configuration the one before it returned. -/
def configureCalls (config : AppConfig) (plugins : List (Plugin H)) : List Call :=
  List.zipWith (fun config p => ⟨p.name, .configure config⟩)
    (plugins.scanl (fun config p => p.configure config) config) plugins

def configured (config : AppConfig) (plugins : List (Plugin H)) : AppConfig :=
  plugins.foldl (fun config p => p.configure config) config

/-- The prepare context after `plugins`, whatever they returned. -/
def contextAfter (ctx : PrepareContext H) (plugins : List (Plugin H)) : PrepareContext H :=
  plugins.foldl (fun ctx p => (p.prepare ctx).2) ctx

/-- What each `prepare` returns when those before it have run. -/
def prepareResults (ctx : PrepareContext H) : List (Plugin H) → List HookResult
  | [] => []
  | p :: rest => (p.prepare ctx).1 :: prepareResults (p.prepare ctx).2 rest

def prepareCalls (ctx : PrepareContext H) (plugins : List (Plugin H)) : List Call :=
  List.zipWith (fun p result => ⟨p.name, .prepare result⟩) plugins (prepareResults ctx plugins)

def shutdownCalls (ctx : ShutdownContext H) (plugins : List (Plugin H)) : List Call :=
  plugins.map fun p => ⟨p.name, .shutdown (p.shutdown ctx)⟩

/-- `k` is the first index whose `prepare` fails, and `e` is its error. -/
structure FailsAt (ctx : PrepareContext H) (plugins : List (Plugin H)) (k : Nat) (e : String) :
    Prop where
  before : ∀ i < k, (prepareResults ctx plugins)[i]? = some (.ok ())
  failed : (prepareResults ctx plugins)[k]? = some (.error e)

theorem FailsAt.tail {ctx : PrepareContext H} {p : Plugin H} {rest : List (Plugin H)} {k : Nat}
    {e : String} (h : FailsAt ctx (p :: rest) (k + 1) e) :
    (p.prepare ctx).1 = .ok () ∧ FailsAt (p.prepare ctx).2 rest k e :=
  ⟨Option.some.inj (h.before 0 (Nat.succ_pos k)),
    ⟨fun i hi => h.before (i + 1) (Nat.succ_lt_succ hi), h.failed⟩⟩

theorem shutdownEach_eq (ctx : ShutdownContext H) (plugins : List (Plugin H)) :
    Traced.forEach (Plugin.callShutdown ctx) plugins = ⟨(), shutdownCalls ctx plugins⟩ :=
  Traced.forEach_log _ plugins

namespace GasketAppBuilder

/-! ## Validation and sorting -/

theorem checkDuplicates_ok_iff (seen names : List String) :
    checkDuplicates seen names = .ok () ↔ names.Nodup ∧ ∀ name ∈ names, name ∉ seen := by
  induction names generalizing seen with
  | nil => simp [checkDuplicates]
  | cons name rest ih =>
    unfold checkDuplicates
    by_cases dup : name ∈ seen
    · simp [dup]
    · rw [if_neg dup, ih, List.nodup_cons]
      constructor
      · rintro ⟨nodup, unseen⟩
        refine ⟨⟨fun h => unseen name h (List.mem_cons_self ..), nodup⟩, ?_⟩
        intro n hn
        obtain rfl | hn := List.mem_cons.mp hn
        · exact dup
        · intro h
          exact unseen n hn (List.mem_cons_of_mem _ h)
      · rintro ⟨⟨first, nodup⟩, unseen⟩
        refine ⟨nodup, ?_⟩
        intro n hn h
        obtain rfl | h := List.mem_cons.mp h
        · exact first hn
        · exact unseen n (List.mem_cons_of_mem _ hn) h

theorem checkDependenciesOf_ok_iff (pluginNames : List String) (name : String)
    (deps : List String) :
    checkDependenciesOf pluginNames name deps = .ok () ↔ ∀ dep ∈ deps, dep ∈ pluginNames := by
  induction deps with
  | nil => simp [checkDependenciesOf]
  | cons dep rest ih =>
    unfold checkDependenciesOf
    by_cases present : dep ∈ pluginNames
    · simp [ih, present]
    · simp [present]

theorem checkDependencies_ok_iff (pluginNames : List String) (plugins : List (Plugin H)) :
    checkDependencies pluginNames plugins = .ok () ↔
      ∀ p ∈ plugins, ∀ dep ∈ p.dependencies, dep ∈ pluginNames := by
  induction plugins with
  | nil => simp [checkDependencies]
  | cons p rest ih =>
    have first := checkDependenciesOf_ok_iff pluginNames p.name p.dependencies
    rw [checkDependencies, List.forall_mem_cons, ← first, ← ih]
    cases checkDependenciesOf pluginNames p.name p.dependencies with
    | ok u => simp [bind, Except.bind]
    | error e => simp [bind, Except.bind]

/-- Taking each index once picks the plugins of the order. -/
theorem takeSorted_eq {plugins : List (Plugin H)} {old : List (Option (Plugin H))}
    {order : List Nat} (distinct : order.Nodup)
    (left : ∀ idx ∈ order, old[idx]? = plugins[idx]?.map some) :
    takeSorted old order = order.filterMap (plugins[·]?) := by
  induction order generalizing old with
  | nil => rfl
  | cons idx rest ih =>
    obtain ⟨fresh, distinct⟩ := List.nodup_cons.mp distinct
    have here := left idx (List.mem_cons_self ..)
    rw [takeSorted, here]
    cases found : plugins[idx]? with
    | none =>
      simp only [Option.map_none, List.filterMap_cons, found]
      exact ih distinct fun i hi => left i (List.mem_cons_of_mem _ hi)
    | some p =>
      simp only [Option.map_some, List.filterMap_cons, found]
      congr 1
      apply ih distinct
      intro i hi
      have other : idx ≠ i := fun same => fresh (same ▸ hi)
      rw [List.getElem?_set_ne other, left i (List.mem_cons_of_mem _ hi)]

theorem filterMap_range_getElem? {α : Type} (l : List α) :
    (List.range l.length).filterMap (l[·]?) = l := by
  induction l using List.reverseRecOn with
  | nil => rfl
  | append_singleton l a ih =>
    have kept : (List.range l.length).filterMap ((l ++ [a])[·]?) =
        (List.range l.length).filterMap (l[·]?) :=
      List.filterMap_congr fun i hi => List.getElem?_append_left (List.mem_range.mp hi)
    rw [List.length_append, List.length_singleton, List.range_succ, List.filterMap_append, kept, ih]
    simp

theorem sortedFrom_of_sorts {plugins : List (Plugin H)} {order : List Nat}
    (accepted : Accepted plugins) (sorts : Sorts (plugins.map (·.toPluginHandle)) order) :
    SortedFrom plugins (takeSorted (plugins.map some) order) := by
  have range : order.Perm (List.range plugins.length) := List.length_map _ ▸ sorts.perm
  have picked : takeSorted (plugins.map some) order = order.filterMap (plugins[·]?) :=
    takeSorted_eq (range.nodup_iff.mpr List.nodup_range) fun idx _ => List.getElem?_map
  have perm : (order.filterMap (plugins[·]?)).Perm plugins :=
    (range.filterMap _).trans (.of_eq (filterMap_range_getElem? plugins))
  have names : (plugins.map (·.name)).Nodup := by
    have := accepted.sortable.names
    rwa [List.map_map] at this
  rw [picked]
  exact ⟨perm, (perm.map _).nodup_iff.mpr names, order, sorts, rfl⟩

theorem arrange_ok {plugins sorted : List (Plugin H)} (h : arrange plugins = .ok sorted) :
    Accepted plugins ∧ SortedFrom plugins sorted := by
  obtain ⟨⟨⟩, _, h⟩ := Fallible.bind_ok h
  obtain ⟨⟨⟩, dependencies, h⟩ := Fallible.bind_ok h
  obtain ⟨order, sort, h⟩ := Fallible.bind_ok h
  cases h
  obtain ⟨sortable, sorts⟩ := topologicalSort_ok sort
  have accepted : Accepted plugins := ⟨(checkDependencies_ok_iff _ _).mp dependencies, sortable⟩
  exact ⟨accepted, sortedFrom_of_sorts accepted sorts⟩

theorem arrange_total {plugins : List (Plugin H)} (h : Accepted plugins) :
    ∃ sorted, arrange plugins = .ok sorted := by
  have names := h.sortable.names
  rw [List.map_map] at names
  have unique := (checkDuplicates_ok_iff [] (plugins.map (·.name))).mpr ⟨names, by simp⟩
  have dependencies := (checkDependencies_ok_iff _ _).mpr h.dependencies
  obtain ⟨order, sort⟩ := topologicalSort_total h.sortable
  exact ⟨_, by simp only [arrange, unique, dependencies, sort, bind, Except.bind]; rfl⟩

/-! ## The phases -/

theorem initEach_eq (ctx : InitContext H) (plugins : List (Plugin H)) :
    Traced.foldEach Plugin.callInit ctx plugins = ⟨initialized ctx plugins, initCalls plugins⟩ := by
  induction plugins generalizing ctx with
  | nil => rfl
  | cons p rest ih =>
    rw [Traced.foldEach_cons, Plugin.callInit]
    ext1
    · rw [Traced.value_bind, Traced.value_log, ih]
      rfl
    · rw [Traced.events_bind, Traced.value_log, ih]
      rfl

theorem configureEach_eq (config : AppConfig) (plugins : List (Plugin H)) :
    Traced.foldEach Plugin.callConfigure config plugins =
      ⟨configured config plugins, configureCalls config plugins⟩ :=
  Traced.foldEach_log _ _ config plugins

theorem prepareFrom_prepared (plugins : List (Plugin H)) {rest : List (Plugin H)}
    {ctx : PrepareContext H} (n : Nat) (h : ∀ result ∈ prepareResults ctx rest, result = .ok ()) :
    prepareFrom plugins n ctx rest = ⟨.ok (contextAfter ctx rest), prepareCalls ctx rest⟩ := by
  induction rest generalizing ctx n with
  | nil => rfl
  | cons p rest ih =>
    rw [prepareResults, List.forall_mem_cons] at h
    have later := ih (n + 1) h.2
    ext1
    · simp [prepareFrom, Plugin.callPrepare, h.1, later, contextAfter]
    · simp [prepareFrom, Plugin.callPrepare, h.1, later, prepareCalls, prepareResults]

/-- The rollback takes exactly the plugins counted so far. -/
theorem prepareFrom_failed (plugins : List (Plugin H)) {rest : List (Plugin H)}
    {ctx : PrepareContext H} {k : Nat} {e : String} (n : Nat) (h : FailsAt ctx rest k e) :
    prepareFrom plugins n ctx rest =
      ⟨.error e, prepareCalls ctx (rest.take (k + 1)) ++
        shutdownCalls ⟨(contextAfter ctx (rest.take (k + 1))).extensions⟩
          (plugins.take (n + k)).reverse⟩ := by
  induction rest generalizing ctx k n with
  | nil => cases h.failed
  | cons p rest ih =>
    cases k with
    | zero =>
      have failed : (p.prepare ctx).1 = .error e := Option.some.inj h.failed
      ext1
      · simp [prepareFrom, Plugin.callPrepare, failed]
      · simp [prepareFrom, Plugin.callPrepare, shutdownEach_eq, prepareCalls, prepareResults,
          contextAfter, failed]
    | succ k =>
      obtain ⟨prepared, later⟩ := h.tail
      have later := ih (n + 1) later
      rw [Nat.add_right_comm] at later
      ext1
      · simp [prepareFrom, Plugin.callPrepare, prepared, later]
      · simp [prepareFrom, Plugin.callPrepare, prepared, later, prepareCalls, prepareResults,
          contextAfter, Nat.add_assoc]

/-- What the first `prepare` is given. -/
def firstContext (config : AppConfig) (sorted : List (Plugin H)) : PrepareContext H :=
  ⟨configured config sorted, H.noExtensions⟩

/-- The app `build` returns when every `prepare` succeeds. -/
def builtApp (builder : GasketAppBuilder H) (config : AppConfig) (sorted : List (Plugin H)) :
    ServedApp H where
  plugins := sorted
  actions := (initialized ⟨[]⟩ sorted).actions
  config := configured config sorted
  extensions := (contextAfter (firstContext config sorted) sorted).extensions
  requestBodyLimit := builder.requestBodyLimit
  namedAuth := builder.namedAuth

/-- How `build` goes once the plugins are sorted. -/
structure Lifecycle (vars : ProcessEnv) (builder : GasketAppBuilder H) (sorted : List (Plugin H))
    (built : Traced Call (Except String (ServedApp H))) : Prop where
  unresolved : ∀ e, builder.resolveConfig vars = .error e →
    built = ⟨.error e, initCalls sorted⟩
  prepared : ∀ config, builder.resolveConfig vars = .ok config →
    (∀ result ∈ prepareResults (firstContext config sorted) sorted, result = .ok ()) →
    built = ⟨.ok (builtApp builder config sorted),
      initCalls sorted ++ configureCalls config sorted ++
        prepareCalls (firstContext config sorted) sorted⟩
  rolledBack : ∀ config, builder.resolveConfig vars = .ok config →
    ∀ k e, FailsAt (firstContext config sorted) sorted k e →
    built = ⟨.error e, initCalls sorted ++ configureCalls config sorted ++
      prepareCalls (firstContext config sorted) (sorted.take (k + 1)) ++
      shutdownCalls
        ⟨(contextAfter (firstContext config sorted) (sorted.take (k + 1))).extensions⟩
        (sorted.take k).reverse⟩

theorem build_lifecycle (vars : ProcessEnv) {builder : GasketAppBuilder H}
    {sorted : List (Plugin H)} (arranged : arrange builder.plugins = .ok sorted) :
    Lifecycle vars builder sorted (builder.build vars) := by
  constructor
  · intro e unresolved
    ext1 <;> simp [build, arranged, unresolved, initEach_eq]
  · intro config resolved prepared
    have phase := prepareFrom_prepared sorted 0 prepared
    rw [firstContext] at phase
    ext1 <;>
      simp [build, arranged, resolved, configureEach_eq, phase, initEach_eq, firstContext, builtApp]
  · intro config resolved k e fails
    have phase := prepareFrom_failed sorted 0 fails
    rw [firstContext, Nat.zero_add] at phase
    ext1 <;>
      simp [build, arranged, resolved, configureEach_eq, phase, initEach_eq, firstContext]

/-- **Prepare failure rolls back exactly.** Rejected plugins have no hook run.
Accepted ones are sorted, and `build` calls `init` and `configure` on all, `prepare`
up to the first failure at `k`, and then `shutdown` on `k - 1` down to `0`, whatever
these return. -/
theorem build_rolls_back (vars : ProcessEnv) (builder : GasketAppBuilder H) :
    (¬ Accepted builder.plugins → ∃ e, builder.build vars = ⟨.error e, []⟩) ∧
    (Accepted builder.plugins → ∃ sorted, SortedFrom builder.plugins sorted ∧
      Lifecycle vars builder sorted (builder.build vars)) := by
  constructor
  · intro rejected
    cases arranged : arrange builder.plugins with
    | error e => exact ⟨e, by rw [build, arranged]; rfl⟩
    | ok sorted => exact absurd (arrange_ok arranged).1 rejected
  · intro accepted
    obtain ⟨sorted, arranged⟩ := arrange_total accepted
    exact ⟨sorted, (arrange_ok arranged).2, build_lifecycle vars arranged⟩

end GasketAppBuilder

end RustyGasket
