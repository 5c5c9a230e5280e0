import Mathlib.Data.List.Perm.Basic
import Mathlib.Logic.Function.Basic
import RustyGasket.StableSort

/-!
# `build_router` and its layer stacks

A router is the list of its routes, each under the wrappers applied so far,
outermost first: `layer` wraps every route already in the router and `merge` is
union. The named routers sit in a `HashMap`, so they are visited in some order.
-/

namespace RustyGasket

inductive MiddlewareSlot
  | transportSecurity
  | logging
  | authentication
  | rateLimit
  | transaction
  | custom
  deriving DecidableEq, Repr

def MiddlewareSlot.discriminant : MiddlewareSlot → Nat
  | transportSecurity => 0
  | logging => 10
  | authentication => 20
  | rateLimit => 30
  | transaction => 40
  | custom => 50

def DEFAULT_REQUEST_BODY_LIMIT : Nat := 8 * 1024 * 1024

inductive RouteGroup
  | bare
  | public_
  | protected_
  | protectedWith (name : String)
  deriving DecidableEq, Repr

section
variable (Route Layer Chain : Type)

/-- What `Router::layer` can put around a route. -/
inductive Wrapper
  | layer (layer : Layer)
  | logging
  | bodyLimit (bytes : Nat)
  | auth (chain : Chain)
  deriving DecidableEq, Repr

/-- An `axum::Router`: its routes with their wrappers, outermost first. -/
abbrev Router := List (Route × List (Wrapper Layer Chain))

structure TaggedLayer where
  slot : MiddlewareSlot
  layer : Layer
  deriving DecidableEq, Repr

structure TaggedRoute where
  group : RouteGroup
  router : Router Route Layer Chain

/-- What a plugin contributes to the router. -/
structure Contribution where
  layers : List (TaggedLayer Layer)
  routes : List (TaggedRoute Route Layer Chain)

structure GasketApp where
  plugins : List (Contribution Route Layer Chain)
  requestBodyLimit : Nat
  namedAuth : String → Option Chain

end

/-- The order in which a `HashMap` yields its entries. -/
structure IterOrder (α : Type) where
  iter : List α → List α
  perm : ∀ l, (iter l).Perm l

variable {Route Layer Chain : Type}

namespace Router

def layer (router : Router Route Layer Chain) (w : Wrapper Layer Chain) :
    Router Route Layer Chain :=
  router.map fun x => (x.1, w :: x.2)

def merge (router other : Router Route Layer Chain) : Router Route Layer Chain :=
  router ++ other

/-- `for tagged_layer in layers.into_iter().rev() { router = layer.apply(router) }`. -/
def applyReversed (layers : List (TaggedLayer Layer)) (router : Router Route Layer Chain) :
    Router Route Layer Chain :=
  layers.reverse.foldl (fun router tagged => layer router (.layer tagged.layer)) router

/-- All of `ws` around every route, the head outermost. -/
def wrap (ws : List (Wrapper Layer Chain)) (router : Router Route Layer Chain) :
    Router Route Layer Chain :=
  router.map fun x => (x.1, ws ++ x.2)

@[simp] theorem wrap_nil (router : Router Route Layer Chain) : wrap [] router = router := by
  simp [wrap]

@[simp] theorem wrap_append (ws : List (Wrapper Layer Chain)) (r r' : Router Route Layer Chain) :
    wrap ws (r ++ r') = wrap ws r ++ wrap ws r' :=
  List.map_append

@[simp] theorem wrap_wrap (ws ws' : List (Wrapper Layer Chain)) (r : Router Route Layer Chain) :
    wrap ws (wrap ws' r) = wrap (ws ++ ws') r := by
  simp [wrap, Function.comp_def]

theorem wrap_flatMap {β : Type} (ws : List (Wrapper Layer Chain)) (l : List β)
    (f : β → Router Route Layer Chain) : wrap ws (l.flatMap f) = l.flatMap fun b => wrap ws (f b) :=
  List.map_flatMap

theorem layer_eq_wrap (r : Router Route Layer Chain) (w : Wrapper Layer Chain) :
    layer r w = wrap [w] r := rfl

/-- Applying in reverse leaves the first layer outermost. -/
theorem applyReversed_eq_wrap (layers : List (TaggedLayer Layer))
    (r : Router Route Layer Chain) :
    applyReversed layers r = wrap (layers.map fun l => .layer l.layer) r := by
  induction layers with
  | nil => simp [applyReversed]
  | cons l rest ih =>
    rw [applyReversed, List.reverse_cons, List.foldl_append] at *
    rw [ih]
    simp [layer_eq_wrap]

end Router

/-- The four groups of routes while `build_router` collects them. -/
structure Buckets (Route Layer Chain : Type) where
  bare : Router Route Layer Chain
  public_ : Router Route Layer Chain
  protected_ : Router Route Layer Chain
  named : List (String × Router Route Layer Chain)

/-- `named_routers.entry(name).or_default()` merged with one more router. -/
def mergeNamed (name : String) (router : Router Route Layer Chain) :
    List (String × Router Route Layer Chain) → List (String × Router Route Layer Chain)
  | [] => [(name, router)]
  | (name', entry) :: rest =>
    if name' = name then (name', entry.merge router) :: rest
    else (name', entry) :: mergeNamed name router rest

def Buckets.place (b : Buckets Route Layer Chain) (tagged : TaggedRoute Route Layer Chain) :
    Buckets Route Layer Chain :=
  match tagged.group with
  | .bare => { b with bare := b.bare.merge tagged.router }
  | .public_ => { b with public_ := b.public_.merge tagged.router }
  | .protected_ => { b with protected_ := b.protected_.merge tagged.router }
  | .protectedWith name => { b with named := mergeNamed name tagged.router b.named }

namespace GasketApp

variable (app : GasketApp Route Layer Chain)

def contributedLayers : List (TaggedLayer Layer) := app.plugins.flatMap (·.layers)

/-- `sort_by_key` is stable. -/
def collectLayers : List (TaggedLayer Layer) :=
  StableSort.sortByKey (fun l => l.slot.discriminant) app.contributedLayers

def collectRoutes : List (TaggedRoute Route Layer Chain) := app.plugins.flatMap (·.routes)

def partitionTransportLayers : List (TaggedLayer Layer) × List (TaggedLayer Layer) :=
  (app.collectLayers.filter (·.slot = .transportSecurity),
    app.collectLayers.filter (·.slot ≠ .transportSecurity))

/-- A missing chain is a panic, here an error with the panic's text. -/
def applyNamedProtectedRouters : List (String × Router Route Layer Chain) →
    Router Route Layer Chain → Except String (Router Route Layer Chain)
  | [], router => .ok router
  | (name, subRouter) :: rest, router => match app.namedAuth name with
    | none => .error s!"no auth chain registered for ProtectedWith(\"{name}\")"
    | some namedState =>
      let protectedLayers := app.partitionTransportLayers.2
      let subRouter := subRouter.applyReversed
        (protectedLayers.filter (·.slot ≠ .authentication))
      let subRouter := subRouter.layer (.auth namedState)
      let subRouter := (subRouter.layer .logging).layer (.bodyLimit app.requestBodyLimit)
      applyNamedProtectedRouters rest (router.merge subRouter)

def buildRouter (order : IterOrder (String × Router Route Layer Chain)) :
    Except String (Router Route Layer Chain) := do
  let buckets := app.collectRoutes.foldl Buckets.place ⟨[], [], [], []⟩
  let loggedPublic := (buckets.public_.layer .logging).layer (.bodyLimit app.requestBodyLimit)
  let (transportLayers, protectedLayers) := app.partitionTransportLayers
  let protectedRouter := buckets.protected_.applyReversed protectedLayers
  let protectedRouter :=
    (protectedRouter.layer .logging).layer (.bodyLimit app.requestBodyLimit)
  let instrumented := (Router.merge [] loggedPublic).merge protectedRouter
  let instrumented ← app.applyNamedProtectedRouters (order.iter buckets.named) instrumented
  let instrumented := instrumented.applyReversed transportLayers
  return (Router.merge [] buckets.bare).merge instrumented

end GasketApp

end RustyGasket
