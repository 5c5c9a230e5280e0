import RustyGasket.BuildTrace

/-!
# `server::run` and the exits before its shutdown

`run` reaches `shutdown` only past the listener, every `ready` hook and a server
that stopped without an error. Each earlier return leaves the prepared plugins up,
where `build` shuts them down when a later `prepare` fails.
-/

namespace RustyGasket

variable {H : Host}

/-- What `run` asks of the operating system and of the TLS stack. -/
structure Net (H : Host) where
  bind : IpAddr → Nat → Except String Unit
  localAddr : Except String SocketAddr
  /-- `axum::serve` until the shutdown signal. -/
  serve : Router H.Route H.Layer H.Chain → Except String Unit
  Certs : Type
  Key : Type
  TlsServer : Type
  certs : List UInt8 → Except String Certs
  privateKey : List UInt8 → Except String (Option Key)
  serverConfig : Certs → Key → Except String TlsServer
  intoStd : Except String Unit
  serveRustls : TlsServer → Router H.Route H.Layer H.Chain → Except String Unit

/-- How a call into the server ends. -/
inductive Exit
  | returned (result : Except String Unit)
  | panicked (message : String)

def Exit.failed (error : String) : Exit := .returned (.error error)

/-- `parse::<IpAddr>()`. -/
def parseIpAddr (text : String) : Except String IpAddr :=
  match Reading.all readIpAddr text.toList with
  | some ip => .ok ip
  | none => .error "invalid IP address syntax"

namespace ServedApp

variable (app : ServedApp H)

def routeContext : RouteContext H := ⟨app.config, app.extensions⟩

/-- What `build_router` collects from the plugins. -/
def assembly : GasketApp H.Route H.Layer H.Chain where
  plugins := app.plugins.map fun p => ⟨p.layers app.routeContext, p.routes app.routeContext⟩
  requestBodyLimit := app.requestBodyLimit
  namedAuth := app.namedAuth

def ready (localAddr : SocketAddr) : Traced Call (Except String Unit) :=
  Traced.tryEach (Plugin.callReady ⟨app.config, app.extensions, localAddr⟩) app.plugins

def shutdown : Traced Call Unit :=
  Traced.forEach (Plugin.callShutdown ⟨app.extensions⟩) app.plugins.reverse

end ServedApp

/-- The order in which `build_router` visits the named routers. -/
abbrev NamedOrder (H : Host) := IterOrder (String × Router H.Route H.Layer H.Chain)

namespace Server

def serveTls (net : Net H) (router : Router H.Route H.Layer H.Chain) (tls : TlsConfig) :
    Except String Unit := do
  let certs ← net.certs tls.certPem
  match ← net.privateKey tls.keyPem with
  | none => throw "no private key found in the TLS key PEM"
  | some key =>
    let server ← net.serverConfig certs key
    net.intoStd
    net.serveRustls server router

/-- `run` up to the listener's local address. -/
def listen (net : Net H) (order : NamedOrder H) (app : ServedApp H) :
    Except Exit (Router H.Route H.Layer H.Chain × SocketAddr) := do
  let ip ← (parseIpAddr app.config.server.host).mapError .failed
  let router ← (app.assembly.buildRouter order).mapError .panicked
  (net.bind ip app.config.server.port).mapError .failed
  let localAddr ← net.localAddr.mapError .failed
  return (router, localAddr)

/-- The TLS path when `tls` is set, else the plain one. -/
def serveUntilStopped (net : Net H) (app : ServedApp H)
    (router : Router H.Route H.Layer H.Chain) : Except String Unit :=
  match app.config.server.tls with
  | some tls => serveTls net router tls
  | none => net.serve router

def run (net : Net H) (order : NamedOrder H) (app : ServedApp H) : Traced Call Exit :=
  match listen net order app with
  | .error exit => pure exit
  | .ok (router, localAddr) => do
    match ← app.ready localAddr with
    | .error e => pure (.failed e)
    | .ok () => match serveUntilStopped net app router with
      | .error e => pure (.failed e)
      | .ok () => do
        app.shutdown
        pure (.returned (.ok ()))

/-- `build`, and `run` on what it built. -/
def launch (vars : ProcessEnv) (net : Net H) (order : NamedOrder H)
    (builder : GasketAppBuilder H) : Traced Call Exit := do
  match ← builder.build vars with
  | .error e => pure (.failed e)
  | .ok app => run net order app

end Server

/-! ## Who was prepared and who was shut down -/

/-- The plugin of a `prepare` that succeeded. -/
def Call.prepared? (call : Call) : Option String :=
  match call.hook with
  | .prepare (.ok ()) => some call.plugin
  | _ => none

def Call.shutDown? (call : Call) : Option String :=
  match call.hook with
  | .shutdown _ => some call.plugin
  | _ => none

/-- Neither a successful `prepare` nor a `shutdown`. -/
def Call.Neutral (call : Call) : Prop := call.prepared? = none ∧ call.shutDown? = none

def preparedNames (calls : List Call) : List String := calls.filterMap Call.prepared?

def shutDownNames (calls : List Call) : List String := calls.filterMap Call.shutDown?

/-- Every prepared plugin has been shut down once, the last prepared first. -/
def CleanedUp (calls : List Call) : Prop := shutDownNames calls = (preparedNames calls).reverse

@[simp] theorem preparedNames_append (calls calls' : List Call) :
    preparedNames (calls ++ calls') = preparedNames calls ++ preparedNames calls' :=
  List.filterMap_append

@[simp] theorem shutDownNames_append (calls calls' : List Call) :
    shutDownNames (calls ++ calls') = shutDownNames calls ++ shutDownNames calls' :=
  List.filterMap_append

theorem preparedNames_neutral {calls : List Call} (h : ∀ call ∈ calls, call.Neutral) :
    preparedNames calls = [] :=
  List.filterMap_eq_nil_iff.mpr fun call hc => (h call hc).1

theorem shutDownNames_neutral {calls : List Call} (h : ∀ call ∈ calls, call.Neutral) :
    shutDownNames calls = [] :=
  List.filterMap_eq_nil_iff.mpr fun call hc => (h call hc).2

theorem initCalls_neutral (plugins : List (Plugin H)) :
    ∀ call ∈ initCalls plugins, call.Neutral := by
  intro call hc
  obtain ⟨p, -, rfl⟩ := List.mem_map.mp hc
  exact ⟨rfl, rfl⟩

theorem configureCalls_neutral (config : AppConfig) (plugins : List (Plugin H)) :
    ∀ call ∈ configureCalls config plugins, call.Neutral := by
  induction plugins generalizing config with
  | nil => simp [configureCalls]
  | cons p rest ih =>
    rw [configureCalls, List.scanl_cons, List.zipWith_cons_cons, List.forall_mem_cons]
    exact ⟨⟨rfl, rfl⟩, ih (p.configure config)⟩

theorem ready_neutral (app : ServedApp H) (localAddr : SocketAddr) :
    ∀ call ∈ (app.ready localAddr).events, call.Neutral := by
  refine Traced.tryEach_events fun p _ call hc => ?_
  rw [List.mem_singleton.mp hc]
  exact ⟨rfl, rfl⟩

@[simp] theorem preparedNames_shutdownCalls (ctx : ShutdownContext H) (plugins : List (Plugin H)) :
    preparedNames (shutdownCalls ctx plugins) = [] := by
  simp [preparedNames, shutdownCalls, List.filterMap_map, Call.prepared?, Function.comp_def]

@[simp] theorem shutDownNames_shutdownCalls (ctx : ShutdownContext H) (plugins : List (Plugin H)) :
    shutDownNames (shutdownCalls ctx plugins) = plugins.map (·.name) := by
  simp [shutDownNames, shutdownCalls, List.filterMap_map, Call.shutDown?, Function.comp_def]

@[simp] theorem shutDownNames_prepareCalls (ctx : PrepareContext H) (plugins : List (Plugin H)) :
    shutDownNames (prepareCalls ctx plugins) = [] := by
  induction plugins generalizing ctx with
  | nil => rfl
  | cons p rest ih => exact ih (p.prepare ctx).2

theorem preparedNames_prepareCalls {ctx : PrepareContext H} {plugins : List (Plugin H)}
    (h : ∀ result ∈ prepareResults ctx plugins, result = .ok ()) :
    preparedNames (prepareCalls ctx plugins) = plugins.map (·.name) := by
  induction plugins generalizing ctx with
  | nil => rfl
  | cons p rest ih =>
    rw [prepareResults, List.forall_mem_cons] at h
    have later := ih h.2
    simp only [preparedNames, prepareCalls] at later
    simp [preparedNames, prepareCalls, prepareResults, Call.prepared?, h.1, later]

theorem preparedNames_failed {ctx : PrepareContext H} {plugins : List (Plugin H)} {k : Nat}
    {e : String} (h : FailsAt ctx plugins k e) :
    preparedNames (prepareCalls ctx (plugins.take (k + 1))) = (plugins.take k).map (·.name) := by
  induction plugins generalizing ctx k with
  | nil => cases h.failed
  | cons p rest ih =>
    cases k with
    | zero =>
      have failed : (p.prepare ctx).1 = .error e := Option.some.inj h.failed
      simp [preparedNames, prepareCalls, prepareResults, Call.prepared?, failed]
    | succ k =>
      obtain ⟨prepared, tail⟩ := h.tail
      have later := ih tail
      simp only [preparedNames, prepareCalls] at later
      simp [preparedNames, prepareCalls, prepareResults, Call.prepared?, prepared, later]

/-! ## Every exit -/

theorem prepared_or_fails (ctx : PrepareContext H) (plugins : List (Plugin H)) :
    (∀ result ∈ prepareResults ctx plugins, result = .ok ()) ∨
      ∃ k e, FailsAt ctx plugins k e := by
  induction plugins generalizing ctx with
  | nil => exact .inl (by simp [prepareResults])
  | cons p rest ih =>
    cases h : (p.prepare ctx).1 with
    | error e =>
      exact .inr ⟨0, e, fun i hi => absurd hi (Nat.not_lt_zero i), congrArg some h⟩
    | ok u =>
      obtain prepared | ⟨k, e, fails⟩ := ih (p.prepare ctx).2
      · rw [prepareResults, List.forall_mem_cons]
        exact .inl ⟨h, prepared⟩
      · refine .inr ⟨k + 1, e, ?_, fails.failed⟩
        rintro (_ | i) hi
        · exact congrArg some h
        · exact fails.before i (Nat.lt_of_succ_lt_succ hi)

namespace Server

open GasketAppBuilder

/-- The builder's plugins are accepted, its configuration resolves, every `prepare`
succeeds, and `app` is what comes out. -/
def Builds (vars : ProcessEnv) (builder : GasketAppBuilder H) (app : ServedApp H) : Prop :=
  ∃ sorted config, arrange builder.plugins = .ok sorted ∧
    builder.resolveConfig vars = .ok config ∧
    (∀ result ∈ prepareResults (firstContext config sorted) sorted, result = .ok ()) ∧
    app = builtApp builder config sorted

theorem build_of_builds {vars : ProcessEnv} {builder : GasketAppBuilder H} {app : ServedApp H}
    (h : Builds vars builder app) :
    (builder.build vars).value = .ok app ∧
      preparedNames (builder.build vars).events = app.plugins.map (·.name) ∧
      shutDownNames (builder.build vars).events = [] := by
  obtain ⟨sorted, config, arranged, resolved, prepared, rfl⟩ := h
  rw [(build_lifecycle vars arranged).prepared config resolved prepared]
  refine ⟨rfl, ?_, ?_⟩
  · simp [preparedNames_neutral (initCalls_neutral sorted),
      preparedNames_neutral (configureCalls_neutral config sorted),
      preparedNames_prepareCalls prepared, builtApp]
  · simp [shutDownNames_neutral (initCalls_neutral sorted),
      shutDownNames_neutral (configureCalls_neutral config sorted)]

/-- A `build` that fails has cleaned up. -/
theorem build_fails {vars : ProcessEnv} {builder : GasketAppBuilder H}
    (h : ∀ app, ¬ Builds vars builder app) :
    (∃ e, (builder.build vars).value = .error e) ∧ CleanedUp (builder.build vars).events := by
  cases arranged : arrange builder.plugins with
  | error e =>
    rw [build, arranged]
    exact ⟨⟨e, rfl⟩, rfl⟩
  | ok sorted =>
    have lifecycle := build_lifecycle vars arranged
    have inits := initCalls_neutral sorted
    cases resolved : builder.resolveConfig vars with
    | error e =>
      rw [lifecycle.unresolved e resolved, CleanedUp]
      exact ⟨⟨e, rfl⟩, by rw [preparedNames_neutral inits, shutDownNames_neutral inits]; rfl⟩
    | ok config =>
      have configures := configureCalls_neutral config sorted
      obtain prepared | ⟨k, e, fails⟩ := prepared_or_fails (firstContext config sorted) sorted
      · exact absurd ⟨sorted, config, arranged, resolved, prepared, rfl⟩ (h _)
      · rw [lifecycle.rolledBack config resolved k e fails, CleanedUp]
        refine ⟨⟨e, rfl⟩, ?_⟩
        simp [preparedNames_neutral inits, shutDownNames_neutral inits,
          preparedNames_neutral configures, shutDownNames_neutral configures,
          preparedNames_failed fails]

/-- Nothing goes wrong between the last `prepare` and the shutdown. -/
structure Serves (net : Net H) (order : NamedOrder H) (app : ServedApp H)
    (router : Router H.Route H.Layer H.Chain) (localAddr : SocketAddr) : Prop where
  bound : ∃ ip, parseIpAddr app.config.server.host = .ok ip ∧
    net.bind ip app.config.server.port = .ok ()
  routed : app.assembly.buildRouter order = .ok router
  address : net.localAddr = .ok localAddr
  ready : ∀ p ∈ app.plugins, p.ready ⟨app.config, app.extensions, localAddr⟩ = .ok ()
  stopped : serveUntilStopped net app router = .ok ()

/-- `build_router` panics, so `run` does not return. -/
def RoutesPanic (order : NamedOrder H) (app : ServedApp H) : Prop :=
  (∃ ip, parseIpAddr app.config.server.host = .ok ip) ∧
    ∃ message, app.assembly.buildRouter order = .error message

variable {net : Net H} {order : NamedOrder H} {app : ServedApp H}

theorem listen_ok {router : Router H.Route H.Layer H.Chain} {localAddr : SocketAddr} :
    listen net order app = .ok (router, localAddr) ↔
      (∃ ip, parseIpAddr app.config.server.host = .ok ip ∧
        net.bind ip app.config.server.port = .ok ()) ∧
      app.assembly.buildRouter order = .ok router ∧ net.localAddr = .ok localAddr := by
  rw [listen]
  cases parseIpAddr app.config.server.host with
  | error e => simp [Except.mapError, bind, Except.bind]
  | ok ip =>
    cases app.assembly.buildRouter order with
    | error e => simp [Except.mapError, bind, Except.bind]
    | ok router' =>
      cases h : net.bind ip app.config.server.port with
      | error e => simp [Except.mapError, bind, Except.bind, h]
      | ok u =>
        cases net.localAddr <;> simp [Except.mapError, bind, Except.bind, h, pure, Except.pure]

theorem listen_panicked (net : Net H) (order : NamedOrder H) (app : ServedApp H) :
    (∃ message, listen net order app = .error (.panicked message)) ↔
      RoutesPanic order app := by
  rw [listen, RoutesPanic]
  cases parseIpAddr app.config.server.host with
  | error e => simp [Except.mapError, bind, Except.bind, Exit.failed]
  | ok ip =>
    cases app.assembly.buildRouter order with
    | error e => simp [Except.mapError, bind, Except.bind]
    | ok router' =>
      cases h : net.bind ip app.config.server.port with
      | error e => simp [Except.mapError, bind, Except.bind, h, Exit.failed]
      | ok u =>
        cases net.localAddr <;>
          simp [Except.mapError, bind, Except.bind, h, pure, Except.pure, Exit.failed]

theorem run_serves {router : Router H.Route H.Layer H.Chain} {localAddr : SocketAddr}
    (h : Serves net order app router localAddr) :
    run net order app = ⟨.returned (.ok ()),
      (app.ready localAddr).events ++ shutdownCalls ⟨app.extensions⟩ app.plugins.reverse⟩ := by
  have listening := listen_ok.mpr ⟨h.bound, h.routed, h.address⟩
  have ready : (app.ready localAddr).value = .ok () := (Traced.tryEach_ok_iff _ _).mpr h.ready
  ext1 <;> simp [run, listening, ready, h.stopped, ServedApp.shutdown, shutdownEach_eq]

/-- Short of that, `run` shuts nothing down. -/
theorem run_stops_early (h : ∀ router localAddr, ¬ Serves net order app router localAddr) :
    (∀ call ∈ (run net order app).events, call.Neutral) ∧
      ((∃ message, (run net order app).value = .panicked message) ↔ RoutesPanic order app) := by
  rw [← listen_panicked net order app]
  cases listening : listen net order app with
  | error exit =>
    rw [run, listening]
    simp
  | ok reached =>
    obtain ⟨router, localAddr⟩ := reached
    have neutral := ready_neutral app localAddr
    rw [run, listening]
    cases ready : (app.ready localAddr).value with
    | error e => simpa [ready, Exit.failed] using neutral
    | ok u =>
      cases stopped : serveUntilStopped net app router with
      | error e => simpa [ready, stopped, Exit.failed] using neutral
      | ok u' =>
        obtain ⟨bound, routed, address⟩ := listen_ok.mp listening
        exact absurd ⟨bound, routed, address, (Traced.tryEach_ok_iff _ _).mp ready, stopped⟩
          (h router localAddr)

/-- Whenever the computation returns, its calls have cleaned up. -/
def CleansUp (t : Traced Call Exit) : Prop :=
  ∀ result, t.value = .returned result → CleanedUp t.events

theorem run_cleansUp_iff {before : List Call}
    (prepared : preparedNames before = app.plugins.map (·.name))
    (noneYet : shutDownNames before = []) :
    CleansUp ⟨(run net order app).value, before ++ (run net order app).events⟩ ↔
      app.plugins = [] ∨ RoutesPanic order app ∨
        ∃ router localAddr, Serves net order app router localAddr := by
  by_cases serves : ∃ router localAddr, Serves net order app router localAddr
  · obtain ⟨router, localAddr, h⟩ := serves
    have neutral := ready_neutral app localAddr
    refine iff_of_true ?_ (.inr (.inr ⟨router, localAddr, h⟩))
    intro result _
    simp [CleanedUp, run_serves h, prepared, noneYet, preparedNames_neutral neutral,
      shutDownNames_neutral neutral]
  · obtain ⟨neutral, panics⟩ := run_stops_early
      fun router localAddr (h : Serves net order app router localAddr) =>
        serves ⟨router, localAddr, h⟩
    have cleaned : CleanedUp (before ++ (run net order app).events) ↔ app.plugins = [] := by
      simp [CleanedUp, prepared, noneYet, preparedNames_neutral neutral,
        shutDownNames_neutral neutral]
    rw [← panics, or_iff_left serves]
    cases exit : (run net order app).value with
    | returned result =>
      simp [CleansUp, cleaned]
    | panicked message =>
      simp [CleansUp]

/-- **Where the shutdown is reached.** What `build` and `run` leave when they return
is cleaned up exactly when the build fails, there is no plugin, or the host parses,
the listener binds and has an address, every `ready` succeeds and the server stops
without an error. A panic of `build_router` does not return. -/
theorem launch_cleansUp_iff (vars : ProcessEnv) (net : Net H) (order : NamedOrder H)
    (builder : GasketAppBuilder H) :
    CleansUp (launch vars net order builder) ↔
      ∀ app, Builds vars builder app → app.plugins = [] ∨ RoutesPanic order app ∨
        ∃ router localAddr, Serves net order app router localAddr := by
  by_cases builds : ∃ app, Builds vars builder app
  · obtain ⟨app, h⟩ := builds
    obtain ⟨built, prepared, noneYet⟩ := build_of_builds h
    have launched : launch vars net order builder = ⟨(run net order app).value,
        (builder.build vars).events ++ (run net order app).events⟩ := by
      ext1 <;> simp [launch, built]
    rw [launched, run_cleansUp_iff prepared noneYet]
    refine ⟨fun good app' h' => ?_, fun good => good app h⟩
    have same := (build_of_builds h').1.symm.trans built
    rwa [Except.ok.inj same]
  · obtain ⟨⟨e, failed⟩, cleaned⟩ := build_fails fun app h => builds ⟨app, h⟩
    refine iff_of_true ?_ fun app h => absurd ⟨app, h⟩ builds
    have launched : launch vars net order builder = ⟨.failed e, (builder.build vars).events⟩ := by
      ext1 <;> simp [launch, failed]
    rw [launched]
    exact fun result _ => cleaned

instance (calls : List Call) : Decidable (CleanedUp calls) :=
  inferInstanceAs (Decidable (_ = _))

abbrev plainHost : Host := ⟨Unit, (), Unit, Unit, Unit, Unit⟩

/-- A pool that opens and closes, and nothing else. -/
def poolPlugin : Plugin plainHost where
  name := "pool"
  ordering := ⟨[], [], false, false⟩
  dependencies := []
  init := id
  configure := id
  prepare := fun ctx => (.ok (), ctx)
  ready := fun _ => .ok ()
  shutdown := fun _ => .ok ()
  layers := fun _ => []
  routes := fun _ => []

def poolBuilder : GasketAppBuilder plainHost :=
  ⟨[poolPlugin], none, DEFAULT_REQUEST_BODY_LIMIT, fun _ => none⟩

def idleNet : Net plainHost :=
  ⟨fun _ _ => .ok (), .ok ⟨.v4 [127, 0, 0, 1], 8443⟩, fun _ => .ok (), Unit, Unit, Unit,
    fun _ => .ok (), fun _ => .ok (some ()), fun _ _ => .ok (), .ok (), fun _ _ => .ok ()⟩

/-- With `HOST=localhost` the pool stays open. -/
theorem localhost_leaves_pool_open :
    ¬ CleansUp (launch (fun name => if name = "HOST" then some "localhost" else none) idleNet
      ⟨id, fun l => .refl l⟩ poolBuilder) := by
  intro clean
  exact absurd (clean (.error "invalid IP address syntax") rfl) (by decide)

end Server

end RustyGasket
