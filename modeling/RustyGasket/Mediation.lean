import RustyGasket.BasicAuth
import RustyGasket.Guards
import RustyGasket.Middleware
import RustyGasket.NamedAuth

/-!
# No way around authentication

The wrappers of a built router as layers around its handlers. Those of plugins do anything a
layer can: answer themselves, or call what is inside, again and with other requests. What
they cannot do is reach a protected handler but through its chain.
-/

namespace RustyGasket

variable {Route Layer Response : Type}

/-- `auth_middleware` as a layer. -/
def authLayer (state : AuthMiddlewareState) (correlationId : AuthRequest → String)
    (rejected : ErrorReply → Response) : Middleware.Layer AuthRequest Response := fun request =>
  match (authMiddleware state (correlationId request) id request).reply with
  | .ofHandler seen => .call seen .respond
  | .ofError reply => .respond (rejected reply)

def Reply.response (rejected : ErrorReply → Response) : Reply Response → Response
  | .ofHandler response => response
  | .ofError reply => rejected reply

/-- What the wrappers around a handler do. -/
structure WrapperSemantics (Layer Response : Type) where
  layer : Layer → Middleware.Layer AuthRequest Response
  logging : Middleware.Layer AuthRequest Response
  bodyLimit : (bytes : Nat) → Middleware.Layer AuthRequest Response
  correlationId : AuthRequest → String
  rejected : ErrorReply → Response

namespace WrapperSemantics

def wrapper (m : WrapperSemantics Layer Response) :
    Wrapper Layer AuthMiddlewareState → Middleware.Layer AuthRequest Response
  | .layer layer => m.layer layer
  | .logging => m.logging
  | .bodyLimit bytes => m.bodyLimit bytes
  | .auth chain => authLayer chain m.correlationId m.rejected

end WrapperSemantics

/-! ## The middleware as a layer -/

section
variable (state : AuthMiddlewareState) (correlationId : AuthRequest → String)
  (rejected : ErrorReply → Response) (service : AuthRequest → Response) (request : AuthRequest)

/-- Around any service it answers as the middleware does, and runs it on the same request. -/
theorem authLayer_eq :
    (authLayer state correlationId rejected request).answer service =
      (authMiddleware state (correlationId request) service request).reply.response rejected ∧
    (authLayer state correlationId rejected request).calls service =
      (authMiddleware state (correlationId request) service request).handled.toList := by
  cases answer : (state.chain.authenticate request.headers request.uri).2 with
  | error error =>
    simp only [authLayer, authMiddleware, answer]
    exact ⟨rfl, rfl⟩
  | ok identity =>
    simp only [authLayer, authMiddleware, answer]
    exact ⟨rfl, rfl⟩

end

/-- A request that carries what a chain said. -/
def CarriesVerdict (request : AuthRequest) : Verdict → Prop
  | .authenticated identity =>
    ∃ ctx, request.extensions.authContext = some ctx ∧ ctx.identity = some identity
  | .anonymous => ∃ ctx, request.extensions.authContext = some ctx ∧ ctx.identity = none
  | .failed _ => False

theorem authLayer_passes {state : AuthMiddlewareState} {correlationId : AuthRequest → String}
    {rejected : ErrorReply → Response} {seen passed : AuthRequest}
    (h : Middleware.Passes (authLayer state correlationId rejected) seen passed) :
    CarriesVerdict passed (state.chain.verdict seen.headers seen.uri) := by
  obtain ⟨service, called⟩ := h
  rw [(authLayer_eq state correlationId rejected service seen).2, Option.mem_toList] at called
  have reports := reports_verdict state (correlationId seen) seen service
  cases verdict : state.chain.verdict seen.headers seen.uri with
  | authenticated identity =>
    rw [verdict] at reports
    obtain ⟨seen', ctx, handled, -, context, ⟨known, -⟩, -⟩ := reports.handled
    cases called.symm.trans handled
    exact ⟨ctx, context, known⟩
  | anonymous =>
    rw [verdict] at reports
    obtain ⟨seen', ctx, handled, -, context, ⟨unknown, -⟩, -⟩ := reports.handled
    cases called.symm.trans handled
    exact ⟨ctx, context, unknown⟩
  | failed error =>
    rw [verdict] at reports
    cases called.symm.trans reports.handled

/-- The layer leaves the auth context of what it passes on alone. -/
def KeepsContext (layer : Middleware.Layer AuthRequest Response) : Prop :=
  ∀ seen passed, Middleware.Passes layer seen passed →
    passed.extensions.authContext = seen.extensions.authContext

/-- Under these wrappers a handler runs only for what the chain let through. What it said is
in the request the handler gets, if no wrapper further in has put something else there. -/
def Mediated (m : WrapperSemantics Layer Response) (state : AuthMiddlewareState)
    (wrappers : List (Wrapper Layer AuthMiddlewareState)) : Prop :=
  ∃ outer gate inner, wrappers = outer ++ gate :: inner ∧
    m.wrapper gate = m.wrapper (.auth state) ∧
    ∀ handler request, ∀ run ∈ Middleware.runs handler (wrappers.map m.wrapper) request,
      ∃ seen, run.way[outer.length]? = some seen ∧
        (∀ error, state.chain.verdict seen.headers seen.uri ≠ .failed error) ∧
        ((∀ w ∈ inner, KeepsContext (m.wrapper w)) →
          CarriesVerdict run.own (state.chain.verdict seen.headers seen.uri))

theorem CarriesVerdict.of_context {passed own : AuthRequest} {verdict : Verdict}
    (h : CarriesVerdict passed verdict)
    (same : own.extensions.authContext = passed.extensions.authContext) :
    CarriesVerdict own verdict := by
  cases verdict with
  | authenticated identity =>
    rw [CarriesVerdict, same]
    exact h
  | anonymous =>
    rw [CarriesVerdict, same]
    exact h
  | failed error => exact h

theorem mediated_split (m : WrapperSemantics Layer Response) {state : AuthMiddlewareState}
    (outer inner : List (Wrapper Layer AuthMiddlewareState))
    {gate : Wrapper Layer AuthMiddlewareState} (auth : m.wrapper gate = m.wrapper (.auth state)) :
    Mediated m state (outer ++ gate :: inner) := by
  refine ⟨outer, gate, inner, rfl, auth, fun handler request run made => ?_⟩
  rw [List.map_append, List.map_cons] at made
  obtain ⟨seen, passed, passes, here, later, inside, own⟩ := Middleware.runs_through made
  rw [List.length_map] at here
  rw [auth] at passes
  have carries := authLayer_passes passes
  refine ⟨seen, here, ?_, fun keep => ?_⟩
  · intro error failed
    rw [failed] at carries
    exact carries
  · apply carries.of_context
    rw [own]
    refine Middleware.runs_keep (P := fun request =>
      request.extensions.authContext = passed.extensions.authContext) ?_ rfl inside
    intro layer listed seen' passed' passes' before
    obtain ⟨w, own, rfl⟩ := List.mem_map.mp listed
    exact (keep w own seen' passed' passes').trans before

/-! ## The router that is built -/

/-- How the handlers of a group are protected. -/
def GroupMediated (app : GasketApp Route Layer AuthMiddlewareState)
    (m : WrapperSemantics Layer Response)
    (wrappers : List (Wrapper Layer AuthMiddlewareState)) : RouteGroup → Prop
  | .protectedWith name => ∃ state, app.namedAuth name = some state ∧ Mediated m state wrappers
  | .protected_ => ∀ l ∈ app.contributedLayers, l.slot = .authentication →
      ∀ state, m.layer l.layer = m.wrapper (.auth state) → Mediated m state wrappers
  | .public_ | .bare => True

/-- **There is no way around authentication.** Whatever the plugins contribute and their
layers do: every route of the router that is built was contributed to a group; if that is a
`ProtectedWith` group, its handler runs only for requests that the chain registered under
that name let through, and if it is `Protected`, only for those that every authentication
layer let through; and the handler gets the verdict with them, unless a layer further in
replaces it. -/
theorem no_way_around (app : GasketApp Route Layer AuthMiddlewareState)
    (m : WrapperSemantics Layer Response)
    (order : IterOrder (String × Router Route Layer AuthMiddlewareState)) :
    ∀ router, app.buildRouter order = .ok router → ∀ entry ∈ router,
      ∃ t ∈ app.collectRoutes, (∃ own ∈ t.router, own.1 = entry.1) ∧
        GroupMediated app m entry.2 t.group := by
  intro router built entry listed
  have collected := (app.buildRouter_perm built).mem_iff.mp listed
  obtain ⟨t, contributed, placed⟩ := List.mem_flatMap.mp collected
  obtain ⟨own, routed, rfl⟩ := List.mem_map.mp placed
  refine ⟨t, contributed, ⟨own, routed, rfl⟩, ?_⟩
  cases group : t.group with
  | bare | public_ => trivial
  | protectedWith name =>
    have registered := app.buildRouter_registered built contributed group
    obtain ⟨state, chain⟩ := Option.ne_none_iff_exists'.mp registered
    refine ⟨state, chain, ?_⟩
    have split : app.stack app.namedAuth (.protectedWith name) ++ own.2 =
        ((app.bySlot .transportSecurity).map (.layer ·.layer) ++
          [.bodyLimit app.requestBodyLimit, .logging]) ++ .auth state ::
        ((app.bySlot .logging).map (.layer ·.layer) ++ app.afterAuthentication ++ own.2) := by
      simp [app.stack_named chain]
    rw [split]
    exact mediated_split m _ _ rfl
  | protected_ =>
    intro l listed slot state auth
    have placed : l ∈ app.bySlot .authentication :=
      List.mem_filter.mpr ⟨listed, decide_eq_true slot⟩
    obtain ⟨before, after, inSlot⟩ := List.append_of_mem placed
    have split : app.stack app.namedAuth .protected_ ++ own.2 =
        (app.beforeAuthentication ++ before.map (.layer ·.layer)) ++ .layer l.layer ::
        (after.map (.layer ·.layer) ++ app.afterAuthentication ++ own.2) := by
      simp [app.stack_protected, inSlot]
    rw [split]
    exact mediated_split m _ _ auth

/-! ## Two named chains -/

def closedState : AuthMiddlewareState := ⟨⟨[], .reject⟩, true⟩

def staffBackend : BasicAuthBackend := .new "ops" "correct horse"

def staffState : AuthMiddlewareState := ⟨⟨[staffBackend.toAuthBackend], .reject⟩, true⟩

/-- A layer that tries everything twice. -/
def retryPlugin : Contribution String String AuthMiddlewareState where
  layers := [⟨.custom, "retry"⟩]
  routes := [⟨.protectedWith "closed", [("/vault", [])]⟩,
    ⟨.protectedWith "staff", [("/admin", [])]⟩]

/-- The chain `closed` lets nobody in, the chain `staff` who has the password. -/
def gatedApp : GasketApp String String AuthMiddlewareState :=
  ⟨[retryPlugin], DEFAULT_REQUEST_BODY_LIMIT,
    registerChains [("closed", closedState), ("staff", staffState)]⟩

def retrying : WrapperSemantics String Nat where
  layer := fun _ request => .call request fun _ => .call request .respond
  logging := fun request => .call request .respond
  bodyLimit := fun _ request => .call request .respond
  correlationId := fun _ => ""
  rejected := ErrorReply.status

/-- With the credentials of `staffBackend`. -/
def staffRequest : AuthRequest where
  headers := [("authorization",
    .ofBytes (utf8 "Basic b3BzOmNvcnJlY3QgaG9yc2U=") (by decide +kernel))]
  uri := "/admin"
  extensions := ⟨none, none, none, none, none⟩

def adminWrappers : List (Wrapper String AuthMiddlewareState) :=
  [.bodyLimit DEFAULT_REQUEST_BODY_LIMIT, .logging, .auth staffState, .layer "retry"]

theorem retrying_keeps {w : Wrapper String AuthMiddlewareState} (plain : ∀ state, w ≠ .auth state) :
    KeepsContext (retrying.wrapper w) := by
  rintro seen passed ⟨service, called⟩
  cases w with
  | layer => obtain same | same := List.mem_pair.mp called <;> rw [same]
  | logging | bodyLimit => rw [List.mem_singleton.mp called]
  | auth state => exact absurd rfl (plain state)

/-- What lets through only what a chain does is no plain wrapper. -/
theorem retrying_gate {gate : Wrapper String AuthMiddlewareState}
    (auth : retrying.wrapper gate = retrying.wrapper (.auth staffState)) :
    ∃ state, gate = .auth state := by
  have stopped : (retrying.wrapper (.auth staffState) ⟨[], "/admin", staffRequest.extensions⟩).calls
      (fun _ => 200) = [] := by rfl
  rw [← auth] at stopped
  cases gate with
  | layer | logging | bodyLimit => cases stopped
  | auth state => exact ⟨state, rfl⟩

/-- Nothing behind `closed` ever runs; behind `staff` the request runs, with the verdict. -/
theorem gates_open_and_closed :
    ∃ router, gatedApp.buildRouter ⟨id, fun _ => .refl _⟩ = .ok router ∧
      router.map (·.1) = ["/vault", "/admin"] ∧
      (∀ entry ∈ router, entry.1 = "/vault" → ∀ handler request,
        Middleware.runs handler (entry.2.map retrying.wrapper) request = []) ∧
      ∀ entry ∈ router, entry.1 = "/admin" →
        (Middleware.runs (fun _ => 200) (entry.2.map retrying.wrapper) staffRequest).length = 2 ∧
        ∀ run ∈ Middleware.runs (fun _ => 200) (entry.2.map retrying.wrapper) staffRequest,
          CarriesVerdict run.own (.authenticated staffBackend.identity) := by
  have built : gatedApp.buildRouter ⟨id, fun _ => .refl _⟩ = .ok [("/vault",
      [.bodyLimit DEFAULT_REQUEST_BODY_LIMIT, .logging, .auth closedState, .layer "retry"]),
      ("/admin", adminWrappers)] := by rfl
  have guarded := no_way_around gatedApp retrying ⟨id, fun _ => .refl _⟩ _ built
  refine ⟨_, built, rfl, ?_, ?_⟩
  · intro entry listed vault handler request
    obtain ⟨t, contributed, ⟨own, routed, same⟩, mediated⟩ := guarded entry listed
    have group : t.group = .protectedWith "closed" := by
      rw [vault] at same
      rcases List.mem_pair.mp contributed with rfl | rfl
      · rfl
      · cases List.mem_singleton.mp routed
        exact absurd same (by decide)
    rw [group] at mediated
    obtain ⟨state, found, outer, gate, inner, -, -, through⟩ := mediated
    cases found
    refine List.eq_nil_iff_forall_not_mem.mpr fun run made => ?_
    obtain ⟨seen, -, admitted, -⟩ := through handler request run made
    exact admitted _ rfl
  · intro entry listed admin
    obtain ⟨t, contributed, ⟨own, routed, same⟩, mediated⟩ := guarded entry listed
    have wrapped : entry.2 = adminWrappers := by
      rcases List.mem_pair.mp listed with rfl | rfl
      · exact absurd admin (by decide)
      · rfl
    have group : t.group = .protectedWith "staff" := by
      rw [admin] at same
      rcases List.mem_pair.mp contributed with rfl | rfl
      · cases List.mem_singleton.mp routed
        exact absurd same (by decide)
      · rfl
    rw [group, wrapped] at mediated
    rw [wrapped]
    obtain ⟨state, found, outer, gate, inner, split, auth, through⟩ := mediated
    cases found
    obtain ⟨state, rfl⟩ := retrying_gate auth
    have inside : inner = [.layer "retry"] := by
      rcases outer with _ | ⟨a, _ | ⟨b, _ | ⟨c, outer⟩⟩⟩
      · cases split
      · cases split
      · cases split
        rfl
      · simp [adminWrappers, List.cons_eq_append_iff] at split
    have verdicts : ∀ run ∈ Middleware.runs (fun _ => 200) (adminWrappers.map retrying.wrapper)
        staffRequest, ∀ seen ∈ run.way, staffState.chain.verdict seen.headers seen.uri =
          .authenticated staffBackend.identity := by decide +kernel
    refine ⟨by decide +kernel, fun run made => ?_⟩
    obtain ⟨seen, here, -, carries⟩ := through _ staffRequest run made
    rw [← verdicts run made seen (List.mem_of_getElem? here)]
    apply carries
    intro w own
    rw [inside, List.mem_singleton] at own
    rw [own]
    exact retrying_keeps nofun

end RustyGasket
