import RustyGasket.AuthMiddleware
import RustyGasket.CorrelationId

/-!
# Guards behind the middleware

The extractors a handler names in its signature run one after another on the auth
context the middleware left, and the first rejection is the response.
-/

namespace RustyGasket

def authRequired : ErrorCall := .quickErrorResponse 401 "AUTHENTICATION_REQUIRED"
  "Missing or invalid credentials. Authentication is required for this endpoint."

/-- `IntoResponse for AuthorizationRequired`. -/
def authorizationRequired (code message : String) : ErrorCall :=
  .quickErrorResponse 403 code message

/-- `Authenticated::from_request_parts`, which `CurrentUser` calls. -/
def extractIdentity (extensions : Extensions) : Except ErrorCall Identity :=
  match extensions.authContext with
  | none => .error authRequired
  | some ctx => match ctx.identity with
    | some identity => .ok identity
    | none => .error authRequired

def optionalIdentity (extensions : Extensions) : Option Identity :=
  extensions.authContext.bind (·.identity)

inductive Guard
  | authenticated
  | currentUser
  | requireScope (scope : String)
  | serviceAccount
  | superuserOnly
  deriving DecidableEq, Repr

namespace Guard

/-- What the guard asks of an identity. -/
def admits (identity : Identity) : Guard → Bool
  | authenticated | currentUser => true
  | requireScope scope => identity.scopes.contains scope
  | serviceAccount => identity.serviceAccount
  | superuserOnly => identity.privileged

def rejection : Guard → ErrorCall
  | authenticated | currentUser => authRequired
  | requireScope scope =>
    authorizationRequired "MISSING_SCOPE" s!"Missing required scope '{scope}'."
  | serviceAccount =>
    authorizationRequired "SERVICE_ACCOUNT_REQUIRED" "This endpoint requires a service account."
  | superuserOnly =>
    authorizationRequired "SUPERUSER_REQUIRED" "This endpoint requires a privileged identity."

/-- `from_request_parts`. -/
def extract (extensions : Extensions) (guard : Guard) : Except ErrorCall Identity :=
  match extractIdentity extensions with
  | .error required => .error required
  | .ok identity => if guard.admits identity then .ok identity else .error guard.rejection

end Guard

/-- A handler behind its extractors: they run in order, and the body runs if none of
them rejects. -/
def guarded {Response : Type} (body : List Identity → AuthRequest → Response)
    (guards : List Guard) (request : AuthRequest) : Except ErrorCall Response :=
  (guards.mapM (Guard.extract request.extensions)).map fun identities => body identities request

/-! ## Running the guards -/

namespace Guard

variable {Response : Type}

/-- The first guard that does not admit the identity. -/
def firstRefusal (identity : Identity) (guards : List Guard) : Option Guard :=
  guards.find? fun guard => !guard.admits identity

theorem mapM_extract_of_identity {extensions : Extensions} {identity : Identity}
    (known : extractIdentity extensions = .ok identity) (guards : List Guard) :
    guards.mapM (extract extensions) = match firstRefusal identity guards with
      | some guard => .error guard.rejection
      | none => .ok (guards.map fun _ => identity) := by
  induction guards with
  | nil => rfl
  | cons guard rest ih =>
    cases admitted : guard.admits identity with
    | false =>
      have refused : firstRefusal identity (guard :: rest) = some guard := by
        simp [firstRefusal, admitted]
      have rejects : extract extensions guard = .error guard.rejection := by
        simp [extract, known, admitted]
      rw [List.mapM_cons, rejects, refused]
      rfl
    | true =>
      have later : firstRefusal identity (guard :: rest) = firstRefusal identity rest := by
        simp [firstRefusal, admitted]
      have passes : extract extensions guard = .ok identity := by
        simp [extract, known, admitted]
      rw [List.mapM_cons, passes, ih, later]
      cases firstRefusal identity rest with
      | some refused => rfl
      | none => rfl

theorem firstRefusal_eq_none {identity : Identity} {guards : List Guard} :
    firstRefusal identity guards = none ↔ ∀ guard ∈ guards, guard.admits identity = true := by
  simp [firstRefusal]

/-- Who is known and refused is refused with 403. -/
theorem rejection_of_refusal {identity : Identity} {guards : List Guard} {guard : Guard}
    (refused : firstRefusal identity guards = some guard) :
    ∃ code message, guard.rejection = authorizationRequired code message := by
  have refuses := List.find?_some refused
  cases guard with
  | authenticated | currentUser => cases refuses
  | requireScope | serviceAccount | superuserOnly => exact ⟨_, _, rfl⟩

theorem mapM_extract_of_none {extensions : Extensions}
    (unknown : extractIdentity extensions = .error authRequired) {guards : List Guard}
    (some_guard : guards ≠ []) : guards.mapM (extract extensions) = .error authRequired := by
  cases guards with
  | nil => exact absurd rfl some_guard
  | cons guard rest =>
    rw [List.mapM_cons, extract, unknown]
    rfl

end Guard

section
variable {Response : Type} (state : AuthMiddlewareState) (correlationId : String)
  (body : List Identity → AuthRequest → Response) (guard : Guard) (rest : List Guard)
  (request : AuthRequest)

/-- A request to a handler with at least one guard, behind the middleware. -/
def protectedPass : Pass (Except ErrorCall Response) :=
  authMiddleware state correlationId (guarded body (guard :: rest)) request

theorem guarded_of_identity {seen : AuthRequest} {ctx : AuthContext} {identity : Identity}
    (context : seen.extensions.authContext = some ctx) (known : ctx.identity = some identity) :
    guarded body (guard :: rest) seen = match Guard.firstRefusal identity (guard :: rest) with
      | some refused => .error refused.rejection
      | none => .ok (body ((guard :: rest).map fun _ => identity) seen) := by
  have extracted : extractIdentity seen.extensions = .ok identity := by
    rw [extractIdentity, context]
    simp only [known]
  rw [guarded, Guard.mapM_extract_of_identity extracted]
  cases Guard.firstRefusal identity (guard :: rest) <;> rfl

theorem guarded_of_none {seen : AuthRequest}
    (unknown : optionalIdentity seen.extensions = none) :
    guarded body (guard :: rest) seen = .error authRequired := by
  have extracted : extractIdentity seen.extensions = .error authRequired := by
    unfold extractIdentity
    cases context : seen.extensions.authContext with
    | none => rfl
    | some ctx =>
      rw [optionalIdentity, context] at unknown
      simp only [Option.bind_some] at unknown
      simp only [unknown]
  rw [guarded, Guard.mapM_extract_of_none extracted (List.cons_ne_nil _ _)]
  rfl

/-- The reply, by the verdict of the chain. -/
def ProtectedReply (pass : Pass (Except ErrorCall Response)) : Verdict → Prop
  | .authenticated identity => ∃ seen, pass.handled = some seen ∧ pass.reply = .ofHandler
      (match Guard.firstRefusal identity (guard :: rest) with
      | some refused => .error refused.rejection
      | none => .ok (body ((guard :: rest).map fun _ => identity) seen))
  | .anonymous => pass.reply = .ofHandler (.error authRequired)
  | .failed error => ∃ reply, pass.reply = .ofError reply ∧ reply.status = error.statusCode

/-- What the middleware reports is the chain's verdict. -/
theorem reports_verdict (next : AuthRequest → Response) :
    AuthMiddleware.Reports state next request (authMiddleware state correlationId next request)
      (state.chain.verdict request.headers request.uri) := by
  rw [← AuthChain.authenticate_verdict]
  cases answer : (state.chain.authenticate request.headers request.uri).2 with
  | error => exact AuthMiddleware.authMiddleware_failed state correlationId next request answer
  | ok identity =>
    cases identity with
    | some =>
      exact AuthMiddleware.authMiddleware_authenticated state correlationId next request answer
    | none => exact AuthMiddleware.authMiddleware_anonymous state correlationId next request answer

theorem protectedPass_reply :
    ProtectedReply body guard rest (protectedPass state correlationId body guard rest request)
      (state.chain.verdict request.headers request.uri) := by
  have reports := reports_verdict state correlationId request (guarded body (guard :: rest))
  cases verdict : state.chain.verdict request.headers request.uri with
  | authenticated identity =>
    rw [verdict] at reports
    obtain ⟨seen, ctx, handled, reply, context, ⟨known, -⟩, -⟩ := reports.handled
    refine ⟨seen, handled, ?_⟩
    rw [protectedPass, reply, guarded_of_identity body guard rest context known]
  | anonymous =>
    rw [verdict] at reports
    obtain ⟨seen, ctx, handled, reply, context, ⟨unknown, -⟩, -⟩ := reports.handled
    have none_known : optionalIdentity seen.extensions = none := by
      rw [optionalIdentity, context]
      exact unknown
    rw [ProtectedReply, protectedPass, reply, guarded_of_none body guard rest none_known]
  | failed error =>
    rw [verdict] at reports
    obtain ⟨reply, given, status, -⟩ := reports.reply
    exact ⟨reply, given, status⟩

namespace ProtectedReply

variable {body guard rest}
variable {pass : Pass (Except ErrorCall Response)} {verdict : Verdict}

/-- The body ran for a known identity that no guard refused. -/
theorem ok_iff (h : ProtectedReply body guard rest pass verdict) (response : Response) :
    pass.reply = .ofHandler (.ok response) ↔
      ∃ identity seen, verdict = .authenticated identity ∧
        (∀ g ∈ guard :: rest, g.admits identity = true) ∧ pass.handled = some seen ∧
        response = body ((guard :: rest).map fun _ => identity) seen := by
  cases verdict with
  | authenticated identity =>
    obtain ⟨seen, handled, reply⟩ := h
    rw [reply, handled]
    cases refusal : Guard.firstRefusal identity (guard :: rest) with
    | some refused =>
      constructor
      · intro given
        cases given
      · rintro ⟨identity', seen', same, admitted, -⟩
        cases same
        rw [Guard.firstRefusal_eq_none.mpr admitted] at refusal
        cases refusal
    | none =>
      have admitted := Guard.firstRefusal_eq_none.mp refusal
      constructor
      · intro given
        cases given
        exact ⟨identity, seen, rfl, admitted, rfl, rfl⟩
      · rintro ⟨identity', seen', same, -, ran, rfl⟩
        cases same
        cases ran
        rfl
  | anonymous =>
    have reply : pass.reply = .ofHandler (.error authRequired) := h
    rw [reply]
    constructor
    · intro given
      cases given
    · rintro ⟨identity, seen, other, -⟩
      cases other
  | failed error =>
    obtain ⟨failure, reply, -⟩ := h
    rw [reply]
    constructor
    · intro given
      cases given
    · rintro ⟨identity, seen, other, -⟩
      cases other

/-- The guards answer the anonymous with 401, and with 403 whom the first of them refuses. -/
theorem error_iff (h : ProtectedReply body guard rest pass verdict) (call : ErrorCall) :
    pass.reply = .ofHandler (.error call) ↔
      verdict = .anonymous ∧ call = authRequired ∨
      ∃ identity refused code message, verdict = .authenticated identity ∧
        Guard.firstRefusal identity (guard :: rest) = some refused ∧
        call = refused.rejection ∧ call = authorizationRequired code message := by
  cases verdict with
  | authenticated identity =>
    obtain ⟨seen, handled, reply⟩ := h
    rw [reply]
    cases refusal : Guard.firstRefusal identity (guard :: rest) with
    | some refused =>
      obtain ⟨code, message, rejection⟩ := Guard.rejection_of_refusal refusal
      constructor
      · intro given
        cases given
        exact .inr ⟨identity, refused, code, message, rfl, refusal, rfl, rejection⟩
      · rintro (⟨other, -⟩ | ⟨identity', refused', code', message', same, first, rfl, -⟩)
        · cases other
        · cases same
          rw [refusal] at first
          cases first
          rfl
    | none =>
      constructor
      · intro given
        cases given
      · rintro (⟨other, -⟩ | ⟨identity', refused', code', message', same, first, -⟩)
        · cases other
        · cases same
          rw [refusal] at first
          cases first
  | anonymous =>
    have reply : pass.reply = .ofHandler (.error authRequired) := h
    rw [reply]
    constructor
    · intro given
      cases given
      exact .inl ⟨rfl, rfl⟩
    · rintro (⟨-, rfl⟩ | ⟨identity', refused', code', message', other, -⟩)
      · rfl
      · cases other
  | failed error =>
    obtain ⟨failure, reply, -⟩ := h
    rw [reply]
    constructor
    · intro given
      cases given
    · rintro (⟨other, -⟩ | ⟨identity', refused', code', message', other, -⟩)
      · cases other
      · cases other

end ProtectedReply

/-- **A guarded body runs for exactly the callers all its guards admit.** For any chain,
any guards in any order and any request, the body runs if and only if the chain
authenticated an identity that every guard admits, and it is given that identity; a
rejection is 401 for exactly the anonymous and 403, of the first guard that refuses, for
exactly the known; and where no middleware left an auth context every guard rejects. -/
theorem protected_runs_iff :
    (∀ response, (protectedPass state correlationId body guard rest request).reply =
        .ofHandler (.ok response) ↔
      ∃ identity seen, state.chain.verdict request.headers request.uri = .authenticated identity ∧
        (∀ g ∈ guard :: rest, g.admits identity = true) ∧
        (protectedPass state correlationId body guard rest request).handled = some seen ∧
        response = body ((guard :: rest).map fun _ => identity) seen) ∧
    (∀ call, (protectedPass state correlationId body guard rest request).reply =
        .ofHandler (.error call) ↔
      state.chain.verdict request.headers request.uri = .anonymous ∧ call = authRequired ∨
      ∃ identity refused code message,
        state.chain.verdict request.headers request.uri = .authenticated identity ∧
        Guard.firstRefusal identity (guard :: rest) = some refused ∧
        call = refused.rejection ∧ call = authorizationRequired code message) ∧
    (request.extensions.authContext = none →
      guarded body (guard :: rest) request = .error authRequired) := by
  have reply := protectedPass_reply state correlationId body guard rest request
  refine ⟨reply.ok_iff, reply.error_iff, ?_⟩
  intro absent
  apply guarded_of_none
  rw [optionalIdentity, absent]
  rfl

end

end RustyGasket
