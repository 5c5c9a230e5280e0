import RustyGasket.Config
import RustyGasket.Router
import RustyGasket.TopologicalSort
import RustyGasket.Traced

/-!
# `GasketAppBuilder::build` and the hooks it runs

Each hook of a plugin runs at most once in the life of an app, so a hook is a
function from what it is given to what it does. `build` is traced: its events are
the hooks it called, in order.
-/

namespace RustyGasket

/-- The types an application brings along. -/
structure Host where
  Extensions : Type
  /-- `http::Extensions::new()`. -/
  noExtensions : Extensions
  Action : Type
  Route : Type
  Layer : Type
  Chain : Type

/-- What a fallible hook returns; an error is its display text. -/
abbrev HookResult := Except String Unit

section
variable (H : Host)

/-- The registered actions. -/
structure InitContext where
  actions : List (String × H.Action)

structure PrepareContext where
  config : AppConfig
  extensions : H.Extensions

/-- What layers and routes are computed from. -/
structure RouteContext where
  config : AppConfig
  extensions : H.Extensions

structure ReadyContext where
  config : AppConfig
  extensions : H.Extensions
  localAddr : SocketAddr

structure ShutdownContext where
  extensions : H.Extensions

/-- A plugin with its hooks. -/
structure Plugin extends PluginHandle where
  init : InitContext H → InitContext H
  configure : AppConfig → AppConfig
  prepare : PrepareContext H → HookResult × PrepareContext H
  ready : ReadyContext H → HookResult
  shutdown : ShutdownContext H → HookResult
  layers : RouteContext H → List (TaggedLayer H.Layer)
  routes : RouteContext H → List (TaggedRoute H.Route H.Layer H.Chain)

/-- What `build` returns, the app as it is served. -/
structure ServedApp where
  plugins : List (Plugin H)
  actions : List (String × H.Action)
  config : AppConfig
  extensions : H.Extensions
  requestBodyLimit : Nat
  namedAuth : String → Option H.Chain

structure GasketAppBuilder where
  plugins : List (Plugin H)
  configDef : Option AppConfigDefinition
  requestBodyLimit : Nat
  namedAuth : String → Option H.Chain

end

variable {H : Host}

/-- `register_action`. -/
def InitContext.registerAction (ctx : InitContext H) (name : String) (action : H.Action) :
    Except String (InitContext H) :=
  if (ctx.actions.map (·.1)).contains name then
    .error s!"Action '{name}' already registered by another plugin"
  else .ok ⟨(name, action) :: ctx.actions⟩

/-! ## Calls -/

inductive Hook
  | init
  /-- Called with this configuration. -/
  | configure (config : AppConfig)
  | prepare (result : HookResult)
  | ready (result : HookResult)
  | shutdown (result : HookResult)

structure Call where
  plugin : String
  hook : Hook

namespace Plugin

def callInit (ctx : InitContext H) (p : Plugin H) : Traced Call (InitContext H) :=
  .log ⟨p.name, .init⟩ (p.init ctx)

def callConfigure (config : AppConfig) (p : Plugin H) : Traced Call AppConfig :=
  .log ⟨p.name, .configure config⟩ (p.configure config)

def callPrepare (ctx : PrepareContext H) (p : Plugin H) :
    Traced Call (HookResult × PrepareContext H) :=
  .log ⟨p.name, .prepare (p.prepare ctx).1⟩ (p.prepare ctx)

def callReady (ctx : ReadyContext H) (p : Plugin H) : Traced Call HookResult :=
  .log ⟨p.name, .ready (p.ready ctx)⟩ (p.ready ctx)

/-- A failed shutdown is logged and forgotten. -/
def callShutdown (ctx : ShutdownContext H) (p : Plugin H) : Traced Call Unit :=
  .log ⟨p.name, .shutdown (p.shutdown ctx)⟩ ()

end Plugin

/-! ## `build` -/

namespace GasketAppBuilder

def checkDuplicates (seen : List String) : List String → Except String Unit
  | [] => .ok ()
  | name :: rest =>
    if name ∈ seen then .error s!"Duplicate plugin name: '{name}'"
    else checkDuplicates (name :: seen) rest

/-- The inner loop, over one plugin's dependencies. -/
def checkDependenciesOf (pluginNames : List String) (name : String) :
    List String → Except String Unit
  | [] => .ok ()
  | dep :: rest =>
    if dep ∈ pluginNames then checkDependenciesOf pluginNames name rest
    else .error s!"Plugin '{name}' requires missing dependency '{dep}'"

def checkDependencies (pluginNames : List String) : List (Plugin H) → Except String Unit
  | [] => .ok ()
  | plugin :: rest => do
    checkDependenciesOf pluginNames plugin.name plugin.dependencies
    checkDependencies pluginNames rest

/-- `old_plugins[idx].take()` for each index of the order. -/
def takeSorted (oldPlugins : List (Option (Plugin H))) : List Nat → List (Plugin H)
  | [] => []
  | idx :: rest => match oldPlugins[idx]? with
    | some (some p) => p :: takeSorted (oldPlugins.set idx none) rest
    | _ => takeSorted oldPlugins rest

/-- Phase 0 and phase 0.5. -/
def arrange (plugins : List (Plugin H)) : Except String (List (Plugin H)) := do
  let pluginNames := plugins.map (·.name)
  checkDuplicates [] pluginNames
  checkDependencies pluginNames plugins
  let sortedIndices ← topologicalSort (plugins.map (·.toPluginHandle))
  return takeSorted (plugins.map some) sortedIndices

/-- Phase 3: the first failure rolls back the plugins before it, in reverse. -/
def prepareFrom (plugins : List (Plugin H)) :
    Nat → PrepareContext H → List (Plugin H) → Traced Call (Except String (PrepareContext H))
  | _, ctx, [] => pure (.ok ctx)
  | preparedCount, ctx, plugin :: rest => do
    let (result, ctx) ← plugin.callPrepare ctx
    match result with
    | .ok () => prepareFrom plugins (preparedCount + 1) ctx rest
    | .error e =>
      Traced.forEach (Plugin.callShutdown ⟨ctx.extensions⟩) (plugins.take preparedCount).reverse
      pure (.error e)

def resolveConfig (vars : ProcessEnv) (builder : GasketAppBuilder H) : Except String AppConfig :=
  (builder.configDef.getD (.default vars)).resolve vars

def build (vars : ProcessEnv) (builder : GasketAppBuilder H) :
    Traced Call (Except String (ServedApp H)) :=
  match arrange builder.plugins with
  | .error e => pure (.error e)
  | .ok plugins => do
    let initCtx ← Traced.foldEach Plugin.callInit ⟨[]⟩ plugins
    match builder.resolveConfig vars with
    | .error e => pure (.error e)
    | .ok config =>
      let config ← Traced.foldEach Plugin.callConfigure config plugins
      match ← prepareFrom plugins 0 ⟨config, H.noExtensions⟩ plugins with
      | .error e => pure (.error e)
      | .ok prepareCtx => pure (.ok
        { plugins := plugins
          actions := initCtx.actions
          config := config
          extensions := prepareCtx.extensions
          requestBodyLimit := builder.requestBodyLimit
          namedAuth := builder.namedAuth })

end GasketAppBuilder

end RustyGasket
