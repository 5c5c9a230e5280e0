import Mathlib.Data.List.Induction
import RustyGasket.Router

/-!
# Which wrappers each route ends up under
-/

namespace RustyGasket

variable {Route Layer Chain : Type}

/-- `GasketAppBuilder::auth_chain`, once per registration. -/
def registerChains (registrations : List (String × Chain)) : String → Option Chain :=
  registrations.foldl (fun namedAuth r => Function.update namedAuth r.1 (some r.2)) fun _ => none

/-- The chain registered last under a name. -/
def lastRegistered (registrations : List (String × Chain)) (name : String) : Option Chain :=
  ((registrations.filter (·.1 = name)).getLast?).map (·.2)

theorem registerChains_eq (registrations : List (String × Chain)) (name : String) :
    registerChains registrations name = lastRegistered registrations name := by
  induction registrations using List.reverseRecOn with
  | nil => rfl
  | append_singleton rest r ih =>
    rw [registerChains, List.foldl_append, lastRegistered, List.filter_append]
    by_cases same : r.1 = name
    · simp [same]
    · simp only [List.foldl_cons, List.foldl_nil, Function.update_of_ne (Ne.symm same),
        List.filter_singleton, same, decide_false, cond_false, List.append_nil]
      exact ih

theorem lastRegistered_eq_none {registrations : List (String × Chain)} {name : String} :
    lastRegistered registrations name = none ↔ name ∉ registrations.map (·.1) := by
  simp only [lastRegistered, Option.map_eq_none_iff, List.getLast?_eq_none_iff,
    List.filter_eq_nil_iff, decide_eq_true_eq, List.mem_map, not_exists, not_and]

namespace GasketApp

variable (app : GasketApp Route Layer Chain)

def bySlot (slot : MiddlewareSlot) : List (TaggedLayer Layer) :=
  app.contributedLayers.filter (·.slot = slot)

/-- Every layer that is not transport security: slots in ascending order, and in
each slot by plugin, then by position within the plugin. -/
def innerLayers : List (TaggedLayer Layer) :=
  [.logging, .authentication, .rateLimit, .transaction, .custom].flatMap app.bySlot

/-- **The stack of a route group**, outermost first. -/
def stack (chain : String → Option Chain) : RouteGroup → List (Wrapper Layer Chain)
  | .bare => []
  | .public_ => (app.bySlot .transportSecurity).map (.layer ·.layer) ++
      [.bodyLimit app.requestBodyLimit, .logging]
  | .protected_ => (app.bySlot .transportSecurity).map (.layer ·.layer) ++
      [.bodyLimit app.requestBodyLimit, .logging] ++ app.innerLayers.map (.layer ·.layer)
  | .protectedWith name => (app.bySlot .transportSecurity).map (.layer ·.layer) ++
      [.bodyLimit app.requestBodyLimit, .logging] ++ (chain name).toList.map .auth ++
      (app.innerLayers.filter (·.slot ≠ .authentication)).map (.layer ·.layer)

theorem collectLayers_eq :
    app.collectLayers = app.bySlot .transportSecurity ++ app.innerLayers := by
  have bucket : ∀ slot : MiddlewareSlot,
      (app.contributedLayers.filter fun l => l.slot.discriminant = slot.discriminant) =
        app.bySlot slot := by
    refine fun slot => List.filter_congr fun l _ => ?_
    cases l.slot <;> cases slot <;> rfl
  have ascending : [0, 10, 20, 30, 40, 50].Pairwise (· < ·) := by decide
  rw [collectLayers, StableSort.sortByKey_eq_flatMap _ ascending fun l _ => by
    cases l.slot <;> decide]
  simp only [innerLayers, List.flatMap_cons, List.flatMap_nil, ← bucket]
  rfl

theorem slot_of_mem_bySlot {app : GasketApp Route Layer Chain} {slot : MiddlewareSlot}
    {l : TaggedLayer Layer} (h : l ∈ app.bySlot slot) : l.slot = slot := by
  simpa using (List.mem_filter.mp h).2

theorem partition_eq :
    app.partitionTransportLayers = (app.bySlot .transportSecurity, app.innerLayers) := by
  have inner : ∀ l ∈ app.innerLayers, l.slot ≠ .transportSecurity := by
    intro l hl
    obtain ⟨slot, hs, hl⟩ := List.mem_flatMap.mp hl
    rw [slot_of_mem_bySlot hl]
    rintro rfl
    exact absurd hs (by decide)
  have transport : ∀ l ∈ app.bySlot .transportSecurity, l.slot = .transportSecurity :=
    fun l hl => slot_of_mem_bySlot hl
  rw [partitionTransportLayers, collectLayers_eq, List.filter_append, List.filter_append,
    List.filter_eq_self.mpr (by simpa using transport),
    List.filter_eq_nil_iff.mpr (by simpa using inner),
    List.filter_eq_nil_iff.mpr (by simpa using transport),
    List.filter_eq_self.mpr (by simpa using inner), List.append_nil, List.nil_append]

/-- What a tagged route must come out as. -/
def expected (chain : String → Option Chain) (t : TaggedRoute Route Layer Chain) :
    Router Route Layer Chain :=
  t.router.wrap (app.stack chain t.group)

/-- The routes collected so far, each under the stack of its group. -/
def assemble (chain : String → Option Chain) (b : Buckets Route Layer Chain) :
    Router Route Layer Chain :=
  b.bare ++ (b.public_.wrap (app.stack chain .public_) ++
    (b.protected_.wrap (app.stack chain .protected_) ++
      b.named.flatMap fun x => x.2.wrap (app.stack chain (.protectedWith x.1))))

theorem mergeNamed_perm (f : String → List (Wrapper Layer Chain)) (name : String)
    (router : Router Route Layer Chain) (l : List (String × Router Route Layer Chain)) :
    ((mergeNamed name router l).flatMap fun x => x.2.wrap (f x.1)).Perm
      ((l.flatMap fun x => x.2.wrap (f x.1)) ++ router.wrap (f name)) := by
  induction l with
  | nil => simp [mergeNamed]
  | cons x rest ih =>
    rw [mergeNamed]
    split
    · rename_i same
      subst same
      simp only [List.flatMap_cons, Router.merge, Router.wrap_append, List.append_assoc]
      exact List.Perm.append_left _ List.perm_append_comm
    · simp only [List.flatMap_cons, List.append_assoc]
      exact List.Perm.append_left _ ih

theorem place_perm (chain : String → Option Chain) (b : Buckets Route Layer Chain)
    (t : TaggedRoute Route Layer Chain) :
    (app.assemble chain (b.place t)).Perm (app.assemble chain b ++ app.expected chain t) := by
  obtain ⟨group, router⟩ := t
  cases group with
  | bare =>
    simp only [assemble, expected, Buckets.place, Router.merge, stack, Router.wrap_nil,
      List.append_assoc]
    refine List.Perm.append_left _ (List.perm_append_comm.trans ?_)
    simp only [List.append_assoc]
    exact List.Perm.refl _
  | public_ =>
    simp only [assemble, expected, Buckets.place, Router.merge, Router.wrap_append,
      List.append_assoc]
    refine List.Perm.append_left _ (List.Perm.append_left _ (List.perm_append_comm.trans ?_))
    simp only [List.append_assoc]
    exact List.Perm.refl _
  | protected_ =>
    simp only [assemble, expected, Buckets.place, Router.merge, Router.wrap_append,
      List.append_assoc]
    exact List.Perm.append_left _ (List.Perm.append_left _
      (List.Perm.append_left _ List.perm_append_comm))
  | protectedWith name =>
    simp only [assemble, expected, Buckets.place, List.append_assoc]
    exact List.Perm.append_left _ (List.Perm.append_left _ (List.Perm.append_left _
      (mergeNamed_perm (fun name => app.stack chain (.protectedWith name)) name router b.named)))

theorem place_all_perm (chain : String → Option Chain) (ts : List (TaggedRoute Route Layer Chain))
    (b : Buckets Route Layer Chain) :
    (app.assemble chain (ts.foldl Buckets.place b)).Perm
      (app.assemble chain b ++ ts.flatMap (app.expected chain)) := by
  induction ts generalizing b with
  | nil => simp
  | cons t rest ih =>
    apply (ih (b.place t)).trans
    rw [List.flatMap_cons, ← List.append_assoc]
    exact (app.place_perm chain b t).append_right _

theorem mergeNamed_names (name : String) (router : Router Route Layer Chain)
    (l : List (String × Router Route Layer Chain)) (other : String) :
    other ∈ (mergeNamed name router l).map (·.1) ↔ other ∈ l.map (·.1) ∨ other = name := by
  induction l with
  | nil => simp [mergeNamed]
  | cons x rest ih =>
    rw [mergeNamed]
    split
    · rename_i same
      simp only [List.map_cons, List.mem_cons, same]
      tauto
    · rw [List.map_cons, List.map_cons, List.mem_cons, List.mem_cons, ih]
      tauto

theorem place_names (ts : List (TaggedRoute Route Layer Chain)) (b : Buckets Route Layer Chain)
    (name : String) : name ∈ (ts.foldl Buckets.place b).named.map (·.1) ↔
      name ∈ b.named.map (·.1) ∨ ∃ t ∈ ts, t.group = .protectedWith name := by
  induction ts generalizing b with
  | nil => simp
  | cons t rest ih =>
    rw [List.foldl_cons, ih]
    have head : name ∈ (b.place t).named.map (·.1) ↔
        name ∈ b.named.map (·.1) ∨ t.group = .protectedWith name := by
      rw [Buckets.place]
      split
      · simp_all
      · simp_all
      · simp_all
      · rename_i other group
        rw [mergeNamed_names, group, RouteGroup.protectedWith.injEq, eq_comm (a := name)]
    rw [head, List.exists_mem_cons_iff, or_assoc]

/-- The panic text for a name without a chain. -/
def missingChain (name : String) : String :=
  s!"no auth chain registered for ProtectedWith(\"{name}\")"

/-- Inside the transport layers, what wraps the routes of a named group. -/
def namedStack (chain : Option Chain) : List (Wrapper Layer Chain) :=
  [.bodyLimit app.requestBodyLimit, .logging] ++ chain.toList.map .auth ++
    (app.innerLayers.filter (·.slot ≠ .authentication)).map (.layer ·.layer)

theorem applyNamed_ok {l : List (String × Router Route Layer Chain)}
    {r r' : Router Route Layer Chain} (h : app.applyNamedProtectedRouters l r = .ok r') :
    (∀ x ∈ l, app.namedAuth x.1 ≠ none) ∧
      r' = r ++ l.flatMap fun x => x.2.wrap (app.namedStack (app.namedAuth x.1)) := by
  induction l generalizing r with
  | nil => cases h; simp
  | cons x rest ih =>
    simp only [applyNamedProtectedRouters] at h
    split at h
    · cases h
    · rename_i namedState found
      obtain ⟨registered, rfl⟩ := ih h
      refine ⟨List.forall_mem_cons.mpr ⟨by simp [found], registered⟩, ?_⟩
      simp [partition_eq, Router.applyReversed_eq_wrap, Router.layer_eq_wrap, Router.merge,
        namedStack, found]

theorem applyNamed_error {l : List (String × Router Route Layer Chain)} {text : String}
    {r : Router Route Layer Chain} (h : app.applyNamedProtectedRouters l r = .error text) :
    ∃ x ∈ l, app.namedAuth x.1 = none ∧ text = missingChain x.1 := by
  induction l generalizing r with
  | nil => cases h
  | cons x rest ih =>
    simp only [applyNamedProtectedRouters] at h
    split at h
    · rename_i missing
      cases h
      exact ⟨x, List.mem_cons_self, missing, rfl⟩
    · obtain ⟨y, hy, rest⟩ := ih h
      exact ⟨y, List.mem_cons_of_mem _ hy, rest⟩

/-- **Every collected route comes out exactly once, under the stack of its group.** -/
theorem buildRouter_perm {order : IterOrder (String × Router Route Layer Chain)}
    {router : Router Route Layer Chain} (h : app.buildRouter order = .ok router) :
    router.Perm (app.collectRoutes.flatMap (app.expected app.namedAuth)) := by
  simp only [buildRouter] at h
  cases named : app.applyNamedProtectedRouters _ _ with
  | error text => rw [named] at h; cases h
  | ok instrumented =>
    rw [named] at h
    cases h
    obtain ⟨-, rfl⟩ := app.applyNamed_ok named
    have collected := app.place_all_perm app.namedAuth app.collectRoutes ⟨[], [], [], []⟩
    have start : app.assemble app.namedAuth ⟨[], [], [], []⟩ = [] := rfl
    rw [start, List.nil_append] at collected
    refine List.Perm.trans ?_ collected
    generalize app.collectRoutes.foldl Buckets.place ⟨[], [], [], []⟩ = b
    have visited := ((order.perm b.named).flatMap_right fun x =>
      x.2.wrap (app.stack app.namedAuth (.protectedWith x.1)))
    simp only [partition_eq, Router.applyReversed_eq_wrap, Router.layer_eq_wrap, Router.merge,
      Router.wrap_append, Router.wrap_wrap, Router.wrap_flatMap, List.nil_append]
    simp only [assemble, stack, namedStack, List.append_assoc] at visited ⊢
    exact List.Perm.append_left _ (List.Perm.append_left _ (List.Perm.append_left _ visited))

theorem buildRouter_error {order : IterOrder (String × Router Route Layer Chain)} {text : String}
    (h : app.buildRouter order = .error text) :
    ∃ t ∈ app.collectRoutes, ∃ name, t.group = .protectedWith name ∧
      app.namedAuth name = none ∧ text = missingChain name := by
  simp only [buildRouter] at h
  cases named : app.applyNamedProtectedRouters _ _ with
  | ok instrumented => rw [named] at h; cases h
  | error text' =>
    rw [named] at h
    cases h
    obtain ⟨x, hx, missing, rfl⟩ := app.applyNamed_error named
    have hn := List.mem_map_of_mem (f := (·.1)) ((order.perm _).mem_iff.mp hx)
    rw [place_names] at hn
    obtain ⟨t, ht, group⟩ := hn.resolve_left (by simp)
    exact ⟨t, ht, x.1, group, missing, rfl⟩

/-- A name without a chain stops the build. -/
theorem buildRouter_registered {order : IterOrder (String × Router Route Layer Chain)}
    {router : Router Route Layer Chain} (h : app.buildRouter order = .ok router)
    {t : TaggedRoute Route Layer Chain} (ht : t ∈ app.collectRoutes) {name : String}
    (group : t.group = .protectedWith name) : app.namedAuth name ≠ none := by
  simp only [buildRouter] at h
  cases named : app.applyNamedProtectedRouters _ _ with
  | error text => rw [named] at h; cases h
  | ok instrumented =>
    have hn := (place_names app.collectRoutes ⟨[], [], [], []⟩ name).mpr
      (Or.inr ⟨t, ht, group⟩)
    obtain ⟨x, hx, rfl⟩ := List.mem_map.mp hn
    exact (app.applyNamed_ok named).1 x ((order.perm _).mem_iff.mpr hx)

/-- **Exact layer stacks.** For any contributions, registrations and visiting order:
the router holds every contributed route once, wrapped by exactly the stack of its
group, a named chain being the one registered last; and the build panics, naming
the chain, exactly when a named group has none. -/
theorem buildRouter_stacks (plugins : List (Contribution Route Layer Chain)) (limit : Nat)
    (registrations : List (String × Chain))
    (order : IterOrder (String × Router Route Layer Chain)) :
    let app : GasketApp Route Layer Chain := ⟨plugins, limit, registerChains registrations⟩
    (∀ router, app.buildRouter order = .ok router →
      router.Perm (app.collectRoutes.flatMap fun t =>
        t.router.wrap (app.stack (lastRegistered registrations) t.group))) ∧
    (∀ text, app.buildRouter order = .error text →
      ∃ t ∈ app.collectRoutes, ∃ name, t.group = .protectedWith name ∧
        name ∉ registrations.map (·.1) ∧ text = missingChain name) ∧
    ((∃ t ∈ app.collectRoutes, ∃ name, t.group = .protectedWith name ∧
      name ∉ registrations.map (·.1)) → ∃ text, app.buildRouter order = .error text) := by
  intro app
  have last : app.namedAuth = lastRegistered registrations := funext (registerChains_eq _)
  refine ⟨fun router h => ?_, fun text h => ?_, ?_⟩
  · have perm := app.buildRouter_perm h
    rwa [last] at perm
  · obtain ⟨t, ht, name, group, missing, rfl⟩ := app.buildRouter_error h
    rw [last, lastRegistered_eq_none] at missing
    exact ⟨t, ht, name, group, missing, rfl⟩
  · rintro ⟨t, ht, name, group, missing⟩
    cases h : app.buildRouter order with
    | error text => exact ⟨text, rfl⟩
    | ok router =>
      refine absurd ?_ (app.buildRouter_registered h ht group)
      rw [last, lastRegistered_eq_none]
      exact missing

end GasketApp

end RustyGasket
