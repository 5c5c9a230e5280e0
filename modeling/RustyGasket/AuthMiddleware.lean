import RustyGasket.LengthCap

/-!
# `auth_middleware` and the five places it reports to

One verdict reaches the audit log, the logging context, the auth context, the rate
limiter's subject and the response. The inner handler and the audit logger are the
caller's.
-/

namespace RustyGasket

structure AuthSummary where
  clientId : String
  clientIp : String
  userId : String
  authMethod : String
  authResult : String
  isPrivileged : Bool
  deriving DecidableEq, Repr

/-- An `OnceLock`: only the first `set` has an effect. -/
structure LoggingContext where
  inner : Option AuthSummary
  deriving DecidableEq, Repr

def LoggingContext.set (ctx : LoggingContext) (summary : AuthSummary) : LoggingContext :=
  match ctx.inner with
  | none => ⟨some summary⟩
  | some _ => ctx

inductive AuthAuditOutcome
  | success
  | anonymous
  | denied (reason : String)
  | error (error : String)
  deriving DecidableEq, Repr

structure AuthAuditEvent where
  requestId : String
  clientIp : String
  authMethod : Option String
  subject : Option String
  outcome : AuthAuditOutcome
  deriving DecidableEq, Repr

inductive AuthResult
  | authenticated (method : String)
  | anonymous
  | failed (reason : FailedReason)
  deriving DecidableEq

structure AuthContext where
  identity : Option Identity
  clientIp : String
  requestId : String
  authResult : AuthResult
  deriving DecidableEq

/-- The request extensions the middleware reads or writes. -/
structure Extensions where
  requestId : Option String
  connectInfo : Option SocketAddr
  loggingContext : Option LoggingContext
  rateLimitSubject : Option RateLimitSubject
  authContext : Option AuthContext
  deriving DecidableEq

structure AuthRequest where
  headers : HeaderMap
  uri : String
  extensions : Extensions

/-- `quick_error_response`: its JSON body and the auth context put on the response. -/
structure ErrorReply where
  status : Nat
  error : String
  message : String
  correlationId : String
  authContext : AuthContext
  deriving DecidableEq

/-- What the caller of the middleware gets back. -/
inductive Reply (Response : Type)
  | ofHandler (response : Response)
  | ofError (reply : ErrorReply)

structure AuthMiddlewareState where
  chain : AuthChain
  auditLogger : Bool

/-- Everything one pass through the middleware does. -/
structure Pass (Response : Type) where
  called : List String
  audit : List AuthAuditEvent
  logging : Option LoggingContext
  /-- The request the inner handler ran on, if it ran. -/
  handled : Option AuthRequest
  reply : Reply Response

namespace AuthMiddleware

def headerText (headers : HeaderMap) (name : String) : Option (List Char) :=
  (headers.get name).bind HeaderValue.toStr

def nonEmpty (text : List Char) : Option (List Char) := if text = [] then none else some text

def extractClientIp (request : AuthRequest) : String :=
  let realIp := (headerText request.headers "x-real-ip").bind fun val => nonEmpty (trim val)
  let forwarded := (headerText request.headers X_FORWARDED_FOR).bind fun val =>
    ((val.splitOn ',').head?).bind fun first => nonEmpty (trim first)
  match realIp.or forwarded with
  | some ip => String.ofList ip
  | none => (request.extensions.connectInfo.map (·.ip.toText)).getD "unknown"

/-- The audit event of the failure path. -/
def failureEvent (requestId clientIp : String) (error : AuthError) : AuthAuditEvent where
  requestId := requestId
  clientIp := clientIp
  authMethod := none
  subject := none
  outcome := match error with
    | .backendError _ | .configuration _ => .error error.toText
    | _ => .denied error.toText

def failureSummary (clientIp : String) (error : AuthError) : AuthSummary where
  clientId := ""
  clientIp := clientIp
  userId := "unknown"
  authMethod := "unknown"
  authResult := "failed:" ++ error.category
  isPrivileged := false

/-- `audit_success_or_anonymous`. -/
def successEvent (requestId clientIp : String) : Option Identity → AuthAuditEvent
  | some id => ⟨requestId, clientIp, some id.authMethod, some id.subject, .success⟩
  | none => ⟨requestId, clientIp, none, none, .anonymous⟩

def buildSuccessSummary (clientIp : String) : Option Identity → AuthSummary
  | some id =>
    ⟨id.subject, clientIp, id.subject, id.authMethod, "authenticated:" ++ id.authMethod,
      id.privileged⟩
  | none => ⟨"", clientIp, "anonymous", "none", "anonymous", false⟩

def intoResponse (correlationId : String) (error : AuthError) (ctx : AuthContext) : ErrorReply :=
  ⟨error.statusCode, error.errorCode, error.message, correlationId, ctx⟩

def logEvent (state : AuthMiddlewareState) (event : AuthAuditEvent) : List AuthAuditEvent :=
  if state.auditLogger then [event] else []

end AuthMiddleware

open AuthMiddleware in
/-- `correlationId` is the current request id or a fresh UUID. -/
def authMiddleware {Response : Type} (state : AuthMiddlewareState) (correlationId : String)
    (next : AuthRequest → Response) (request : AuthRequest) : Pass Response :=
  let requestId := request.extensions.requestId.getD ""
  let clientIp := extractClientIp request
  let (called, answer) := state.chain.authenticate request.headers request.uri
  match answer with
  | .error error =>
    let ctx : AuthContext := ⟨none, clientIp, requestId, .failed (.new error.toText)⟩
    { called := called
      audit := logEvent state (failureEvent requestId clientIp error)
      logging := request.extensions.loggingContext.map (·.set (failureSummary clientIp error))
      handled := none
      reply := .ofError (intoResponse correlationId error ctx) }
  | .ok identity =>
    let logging := request.extensions.loggingContext.map
      (·.set (buildSuccessSummary clientIp identity))
    let subject := match identity with
      | some id => some (RateLimitSubject.new id.subject)
      | none => request.extensions.rateLimitSubject
    let authResult := match identity with
      | some id => .authenticated id.authMethod
      | none => .anonymous
    let request := { request with
      extensions := { request.extensions with
        loggingContext := logging
        rateLimitSubject := subject
        authContext := some ⟨identity, clientIp, requestId, authResult⟩ } }
    { called := called
      audit := logEvent state (successEvent requestId clientIp identity)
      logging := logging
      handled := some request
      reply := .ofHandler (next request) }

namespace AuthMiddleware

variable {Response : Type}

/-! ## Agreement -/

/-- The one audit event, when a logger is set. -/
def Audited (state : AuthMiddlewareState) (pass : Pass Response)
    (describes : AuthAuditEvent → Prop) : Prop :=
  if state.auditLogger then ∃ event, pass.audit = [event] ∧ describes event else pass.audit = []

/-- An unset logging context ends up with a summary; a set one keeps its own. -/
def Logged (request : AuthRequest) (pass : Pass Response) (describes : AuthSummary → Prop) : Prop :=
  match request.extensions.loggingContext with
  | none => pass.logging = none
  | some ⟨none⟩ => ∃ summary, pass.logging = some ⟨some summary⟩ ∧ describes summary
  | some ⟨some earlier⟩ => pass.logging = some ⟨some earlier⟩

/-- The handler ran on the request with this auth context and rate-limit subject,
and the reply is the handler's. -/
def Handled (next : AuthRequest → Response) (pass : Pass Response)
    (describes : AuthContext → Prop) (subject : Option RateLimitSubject → Prop) : Prop :=
  ∃ seen ctx, pass.handled = some seen ∧ pass.reply = .ofHandler (next seen) ∧
    seen.extensions.authContext = some ctx ∧ describes ctx ∧
    subject seen.extensions.rateLimitSubject

/-- All channels report `identity`; the rate limiter's subject is all of the identity's
that fits its cap. -/
structure ReportsAuthenticated (state : AuthMiddlewareState) (next : AuthRequest → Response)
    (request : AuthRequest) (identity : Identity) (pass : Pass Response) : Prop where
  audit : Audited state pass fun event => event.outcome = .success ∧
    event.subject = some identity.subject ∧ event.authMethod = some identity.authMethod
  logging : Logged request pass fun summary => summary.userId = identity.subject ∧
    summary.clientId = identity.subject ∧ summary.authMethod = identity.authMethod ∧
    summary.authResult = "authenticated:" ++ identity.authMethod ∧
    summary.isPrivileged = identity.privileged
  handled : Handled next pass
    (fun ctx => ctx.identity = some identity ∧
      ctx.authResult = .authenticated identity.authMethod)
    fun subject => ∃ kept, subject = some kept ∧ kept = .new identity.subject ∧
      LongestPrefix MAX_RATE_LIMIT_SUBJECT_LEN identity.subject.toList kept.text

/-- All channels report anonymous access; the rate-limit subject is whatever the
request arrived with. -/
structure ReportsAnonymous (state : AuthMiddlewareState) (next : AuthRequest → Response)
    (request : AuthRequest) (pass : Pass Response) : Prop where
  audit : Audited state pass fun event => event.outcome = .anonymous ∧
    event.subject = none ∧ event.authMethod = none
  logging : Logged request pass fun summary => summary.userId = "anonymous" ∧
    summary.clientId = "" ∧ summary.authMethod = "none" ∧ summary.authResult = "anonymous" ∧
    summary.isPrivileged = false
  handled : Handled next pass
    (fun ctx => ctx.identity = none ∧ ctx.authResult = .anonymous)
    fun subject => subject = request.extensions.rateLimitSubject

/-- All channels report `error`, and the handler does not run. -/
structure ReportsFailed (state : AuthMiddlewareState) (request : AuthRequest) (error : AuthError)
    (pass : Pass Response) : Prop where
  handled : pass.handled = none
  reply : ∃ reply, pass.reply = .ofError reply ∧ reply.status = error.statusCode ∧
    reply.error = error.errorCode ∧ reply.message = error.message ∧
    reply.authContext.identity = none ∧
    reply.authContext.authResult = .failed (.new error.toText)
  audit : Audited state pass fun event => event.subject = none ∧ event.authMethod = none ∧
    (event.outcome = .denied error.toText ∧ (error.statusCode = 401 ∨ error.statusCode = 403) ∨
      event.outcome = .error error.toText ∧ error.statusCode = 500)
  logging : Logged request pass fun summary => summary.userId = "unknown" ∧
    summary.clientId = "" ∧ summary.authMethod = "unknown" ∧
    summary.authResult = "failed:" ++ error.category ∧ summary.isPrivileged = false

/-- **One verdict in every channel.** -/
def Reports (state : AuthMiddlewareState) (next : AuthRequest → Response) (request : AuthRequest)
    (pass : Pass Response) : Verdict → Prop
  | .authenticated identity => ReportsAuthenticated state next request identity pass
  | .anonymous => ReportsAnonymous state next request pass
  | .failed error => ReportsFailed state request error pass

theorem audited_logEvent {state : AuthMiddlewareState} {pass : Pass Response}
    {event : AuthAuditEvent} {describes : AuthAuditEvent → Prop}
    (h : pass.audit = logEvent state event) (d : describes event) :
    Audited state pass describes := by
  unfold Audited
  rw [h]
  unfold logEvent
  by_cases logger : state.auditLogger = true
  · rw [if_pos logger, if_pos logger]
    exact ⟨event, rfl, d⟩
  · rw [if_neg logger, if_neg logger]

theorem logged_set {request : AuthRequest} {pass : Pass Response} {summary : AuthSummary}
    {describes : AuthSummary → Prop}
    (h : pass.logging = request.extensions.loggingContext.map (·.set summary))
    (d : describes summary) : Logged request pass describes := by
  unfold Logged
  rw [h]
  cases request.extensions.loggingContext with
  | none => rfl
  | some ctx =>
    obtain ⟨inner⟩ := ctx
    cases inner with
    | none => exact ⟨summary, rfl, d⟩
    | some earlier => rfl

/-- Denied exactly with 401 or 403, an error exactly with 500. -/
theorem failureEvent_outcome (requestId clientIp : String) (error : AuthError) :
    ((failureEvent requestId clientIp error).outcome = .denied error.toText ∧
      (error.statusCode = 401 ∨ error.statusCode = 403)) ∨
    ((failureEvent requestId clientIp error).outcome = .error error.toText ∧
      error.statusCode = 500) := by
  cases error <;> simp [failureEvent, AuthError.statusCode]

variable (state : AuthMiddlewareState) (correlationId : String) (next : AuthRequest → Response)
  (request : AuthRequest)

theorem authMiddleware_called :
    (authMiddleware state correlationId next request).called =
      (state.chain.authenticate request.headers request.uri).1 := by
  cases h : (state.chain.authenticate request.headers request.uri).2 <;>
    simp only [authMiddleware, h]

theorem authMiddleware_failed {error : AuthError}
    (h : (state.chain.authenticate request.headers request.uri).2 = .error error) :
    ReportsFailed state request error (authMiddleware state correlationId next request) := by
  simp only [authMiddleware, h]
  constructor
  · rfl
  · exact ⟨_, rfl, rfl, rfl, rfl, rfl, rfl⟩
  · exact audited_logEvent rfl ⟨rfl, rfl, failureEvent_outcome _ _ error⟩
  · exact logged_set rfl ⟨rfl, rfl, rfl, rfl, rfl⟩

theorem authMiddleware_authenticated {identity : Identity}
    (h : (state.chain.authenticate request.headers request.uri).2 = .ok (some identity)) :
    ReportsAuthenticated state next request identity
      (authMiddleware state correlationId next request) := by
  simp only [authMiddleware, h]
  constructor
  · exact audited_logEvent rfl ⟨rfl, rfl, rfl⟩
  · exact logged_set rfl ⟨rfl, rfl, rfl, rfl, rfl⟩
  · exact ⟨_, _, rfl, rfl, rfl, ⟨rfl, rfl⟩, _, rfl, rfl, floor_longest _ _⟩

theorem authMiddleware_anonymous
    (h : (state.chain.authenticate request.headers request.uri).2 = .ok none) :
    ReportsAnonymous state next request (authMiddleware state correlationId next request) := by
  simp only [authMiddleware, h]
  constructor
  · exact audited_logEvent rfl ⟨rfl, rfl, rfl⟩
  · exact logged_set rfl ⟨rfl, rfl, rfl, rfl, rfl⟩
  · exact ⟨_, _, rfl, rfl, rfl, ⟨rfl, rfl⟩, rfl⟩

/-- **The chain and everything it publishes agree.** For any backends, fallback,
logger, handler and request: the backends called are those up to the deciding one,
the handler runs unless the verdict is a failure, and every channel reports the
verdict. -/
theorem authMiddleware_agrees :
    (authMiddleware state correlationId next request).called =
      (state.chain.backends.take
        ((state.chain.silent request.headers request.uri).length + 1)).map (·.name) ∧
    ((authMiddleware state correlationId next request).handled ≠ none ↔
      ∀ error, state.chain.verdict request.headers request.uri ≠ .failed error) ∧
    Reports state next request (authMiddleware state correlationId next request)
      (state.chain.verdict request.headers request.uri) := by
  constructor
  · rw [authMiddleware_called]
    unfold AuthChain.authenticate AuthChain.silent
    apply AuthChain.tryBackends_called
  · rw [← AuthChain.authenticate_verdict]
    cases h : (state.chain.authenticate request.headers request.uri).2 with
    | error error =>
      have reports := authMiddleware_failed state correlationId next request h
      have unhandled := reports.handled
      exact ⟨by simp [unhandled, Verdict.ofAnswer], reports⟩
    | ok identity =>
      cases identity with
      | some identity =>
        have reports := authMiddleware_authenticated state correlationId next request h
        obtain ⟨seen, ctx, handled, -⟩ := reports.handled
        exact ⟨by simp [handled, Verdict.ofAnswer], reports⟩
      | none =>
        have reports := authMiddleware_anonymous state correlationId next request h
        obtain ⟨seen, ctx, handled, -⟩ := reports.handled
        exact ⟨by simp [handled, Verdict.ofAnswer], reports⟩

/-- A layer in front has keyed the request to a tenant. -/
def keyedRequest : AuthRequest where
  headers := []
  uri := "/"
  extensions := ⟨some "r-1", none, some ⟨none⟩, some (.new "tenant-7"), none⟩

def openState : AuthMiddlewareState := ⟨⟨[], .allowAnonymous⟩, true⟩

/-- The audit log and the auth context say anonymous, and the handler's request is
still keyed to a subject: the middleware replaces a subject and never removes one. -/
theorem keyed_anonymous :
    let pass := authMiddleware openState "c-1" (fun _ => ()) keyedRequest
    keyedRequest.extensions.loggingContext = some ⟨none⟩ ∧
    openState.chain.verdict keyedRequest.headers keyedRequest.uri = .anonymous ∧
    pass.audit.map (·.outcome) = [.anonymous] ∧
    ∃ seen, pass.handled = some seen ∧
      seen.extensions.authContext.map (·.authResult) = some .anonymous ∧
      seen.extensions.rateLimitSubject = some (.new "tenant-7") :=
  ⟨rfl, by decide, rfl, _, rfl, rfl, rfl⟩

end AuthMiddleware

end RustyGasket
