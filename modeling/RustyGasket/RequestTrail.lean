import RustyGasket.Guards
import RustyGasket.PlainText

/-!
# The trail of one request

`logging_middleware` around `auth_middleware` around a guarded handler. One ID is chosen at the
door and is in the span, the audit log, the auth context, the response and, where it is a
UUID, in the body of every rejection.
-/

namespace RustyGasket

/-- A request at the door, with the route it was matched to. -/
structure RoutedRequest where
  method : String
  path : String
  matchedPath : Option String
  request : AuthRequest

/-- The span `http_request`, when it is closed. -/
structure RequestSpan where
  requestId : String
  method : String
  path : String
  matchedPath : String
  auth : Option AuthSummary
  status : Nat
  durationMs : Nat
  env : String
  userAgent : String
  deriving DecidableEq, Repr

variable {crate : UuidCrate}

/-- The request as the middlewares inside see it. -/
def inScope (id : RequestId) (request : AuthRequest) : AuthRequest :=
  { request with
    extensions := { request.extensions with
      loggingContext := some ⟨none⟩
      requestId := some id.text } }

/-- `next` runs with the ID in the task-local, and leaves what it put in the context. -/
def loggingMiddleware (crate : UuidCrate) (generated durationMs : Nat) (env : String)
    (next : RequestId → AuthRequest → ErrorCall.Response × Option LoggingContext)
    (routed : RoutedRequest) : ErrorCall.Response × RequestSpan :=
  let requestId := getOrGenerateRequestId crate routed.request.headers generated
  let userAgent := ((routed.request.headers.get "user-agent").bind HeaderValue.toStr).getD []
  let (response, loggingCtx) := next requestId (inScope requestId routed.request)
  let response := { response with
    headers := ErrorCall.insertText response.headers "x-request-id" requestId.text }
  (response,
    { requestId := requestId.text
      method := routed.method
      path := routed.path
      matchedPath := routed.matchedPath.getD "unknown"
      auth := loggingCtx.bind (·.inner)
      status := response.status
      durationMs := durationMs
      env := env
      userAgent := String.ofList userAgent })

/-- What becomes of a reply of the auth middleware. -/
def respondTo (crate : UuidCrate) (id : RequestId) (generated : Nat) :
    Reply (Except ErrorCall ErrorCall.Response) → ErrorCall.Response
  | .ofHandler (.ok response) => response
  | .ofHandler (.error call) => call.respond crate (some id.text) generated
  | .ofError reply =>
    (ErrorCall.quickErrorResponse reply.status reply.error reply.message).respond crate
      (some id.text) generated

section
variable (crate) (state : AuthMiddlewareState)
  (body : List Identity → AuthRequest → ErrorCall.Response) (guard : Guard) (rest : List Guard)

/-- The pass of a request with an ID through the auth middleware. -/
def guardedPass (generated : Nat) (id : RequestId) (request : AuthRequest) :
    Pass (Except ErrorCall ErrorCall.Response) :=
  protectedPass state (crate.toText (ErrorCall.correlationId crate (some id.text) generated)) body
    guard rest request

def guardedService (generated : Nat) (id : RequestId) (request : AuthRequest) :
    ErrorCall.Response × Option LoggingContext :=
  let pass := guardedPass crate state body guard rest generated id request
  (respondTo crate id generated pass.reply, pass.logging)

end

/-! ## The ID in a header -/

theorem requestIdByte_plain : ∀ b : UInt8, isRequestIdByte b = true →
    isPlain (Char.ofNat b.toNat) = true ∧ isVisibleAscii b = true := by
  apply forall_byte
  decide +kernel

theorem RequestId.bytes (id : RequestId) : ∀ b ∈ utf8 id.text, isRequestIdByte b = true := by
  have valid := id.valid
  rw [isValidRequestId, Bool.and_eq_true, Bool.and_eq_true] at valid
  exact List.all_eq_true.mp valid.2

theorem RequestId.visible (id : RequestId) : (utf8 id.text).all isVisibleAscii = true :=
  List.all_eq_true.mpr fun b hb => (requestIdByte_plain b (id.bytes b hb)).2

/-- A request that brings an ID given out before keeps it. -/
theorem RequestId.kept (id : RequestId) {line : HeaderValue} (bytes : line.bytes = utf8 id.text)
    (headers : HeaderMap) (generated : Nat) :
    getOrGenerateRequestId crate (("x-request-id", line) :: headers) generated = id := by
  have text : String.ofList (asciiText (utf8 id.text)) = id.text :=
    ofList_asciiText fun b hb => (requestIdByte_plain b (id.bytes b hb)).1
  have sent : (HeaderMap.get (("x-request-id", line) :: headers) "x-request-id").bind
      HeaderValue.toStr = some (asciiText (utf8 id.text)) := by
    have first : HeaderMap.get (("x-request-id", line) :: headers) "x-request-id" = some line := by
      simp [HeaderMap.get, HeaderMap.getAll]
    rw [first, Option.bind_some, HeaderValue.toStr, bytes, if_pos id.visible]
  have valid : isValidRequestId (String.ofList (asciiText (utf8 id.text))) = true :=
    text.symm ▸ id.valid
  rw [getOrGenerateRequestId_sent crate generated sent valid]
  obtain ⟨own, valid'⟩ := id
  simp only [RequestId.mk.injEq]
  exact text

/-! ## The channels -/

theorem authMiddleware_requestId {Response : Type} (state : AuthMiddlewareState)
    (correlationId : String) (next : AuthRequest → Response) (request : AuthRequest) {id : String}
    (known : request.extensions.requestId = some id) :
    (∀ event ∈ (authMiddleware state correlationId next request).audit, event.requestId = id) ∧
    ∀ seen, (authMiddleware state correlationId next request).handled = some seen →
      seen.extensions.requestId = some id ∧
      ∃ ctx, seen.extensions.authContext = some ctx ∧ ctx.requestId = id := by
  have logged (event : AuthAuditEvent) (own : event.requestId = id) :
      ∀ other ∈ AuthMiddleware.logEvent state event, other.requestId = id := by
    intro other listed
    rw [AuthMiddleware.logEvent] at listed
    split at listed
    · exact List.mem_singleton.mp listed ▸ own
    · cases listed
  cases answer : (state.chain.authenticate request.headers request.uri).2 with
  | error error =>
    simp only [authMiddleware, answer, known, Option.getD_some]
    refine ⟨logged _ rfl, fun seen handled => ?_⟩
    cases handled
  | ok identity =>
    simp only [authMiddleware, answer, known, Option.getD_some]
    refine ⟨logged _ ?_, ?_⟩
    · cases identity <;> rfl
    · rintro _ ⟨⟩
      exact ⟨rfl, _, rfl, rfl⟩

/-- What a summary says of the verdict. -/
def Summarizes (summary : AuthSummary) : Verdict → Prop
  | .authenticated identity => summary.userId = identity.subject ∧
      summary.authMethod = identity.authMethod ∧
      summary.authResult = "authenticated:" ++ identity.authMethod ∧
      summary.isPrivileged = identity.privileged
  | .anonymous => summary.userId = "anonymous" ∧ summary.authResult = "anonymous" ∧
      summary.isPrivileged = false
  | .failed error => summary.userId = "unknown" ∧
      summary.authResult = "failed:" ++ error.category ∧ summary.isPrivileged = false

/-- A context that comes in empty goes out with the verdict. -/
theorem logging_summarizes {Response : Type} (state : AuthMiddlewareState)
    (correlationId : String) (next : AuthRequest → Response) (request : AuthRequest)
    (empty : request.extensions.loggingContext = some ⟨none⟩) :
    ∃ summary, (authMiddleware state correlationId next request).logging = some ⟨some summary⟩ ∧
      Summarizes summary (state.chain.verdict request.headers request.uri) := by
  have reports := reports_verdict state correlationId request next
  cases verdict : state.chain.verdict request.headers request.uri with
  | authenticated identity =>
    rw [verdict] at reports
    have logged := reports.logging
    rw [AuthMiddleware.Logged, empty] at logged
    obtain ⟨summary, left, user, -, method, result, privileged⟩ := logged
    exact ⟨summary, left, user, method, result, privileged⟩
  | anonymous =>
    rw [verdict] at reports
    have logged := reports.logging
    rw [AuthMiddleware.Logged, empty] at logged
    obtain ⟨summary, left, user, -, -, result, privileged⟩ := logged
    exact ⟨summary, left, user, result, privileged⟩
  | failed error =>
    rw [verdict] at reports
    have logged := reports.logging
    rw [AuthMiddleware.Logged, empty] at logged
    obtain ⟨summary, left, user, -, -, result, privileged⟩ := logged
    exact ⟨summary, left, user, result, privileged⟩

/-- A response under an ID: one line has it, the rest is as it was. -/
structure Stamps (id : RequestId) (own response : ErrorCall.Response) : Prop where
  header : (response.headers.getAll "x-request-id").map (·.bytes) = [utf8 id.text]
  status : response.status = own.status
  body : response.body = own.body
  others : ∀ name, name ≠ "x-request-id" →
    response.headers.getAll name = own.headers.getAll name

theorem stamps_insertText (id : RequestId) (own : ErrorCall.Response) :
    Stamps id own { own with headers := ErrorCall.insertText own.headers "x-request-id" id.text } where
  header := ErrorCall.insertText_visible id.visible
  status := rfl
  body := rfl
  others _ differs := ErrorCall.insertText_other differs _

theorem Stamps.carries {id : RequestId} {own response : ErrorCall.Response} {text : String}
    (h : Stamps id own response) (carries : ErrorCall.Carries own text) :
    ErrorCall.Carries response text :=
  ⟨h.body ▸ carries.body, by rw [h.others _ (by decide)]; exact carries.header⟩

/-- Every reply that is not the handler's own is an error response of the framework. -/
theorem respondTo_carries (id : RequestId) (generated : Nat)
    {reply : Reply (Except ErrorCall ErrorCall.Response)}
    (rejected : ∀ own, reply ≠ .ofHandler (.ok own))
    (finalized : ∀ call, reply = .ofHandler (.error call) → call.isRejection = false) :
    ErrorCall.Carries (respondTo crate id generated reply)
      (crate.toText (ErrorCall.correlationId crate (some id.text) generated)) := by
  cases reply with
  | ofHandler result =>
    cases result with
    | ok own => exact absurd rfl (rejected own)
    | error call => exact ErrorCall.respond_carries crate _ _ (finalized call rfl)
  | ofError reply =>
    exact ErrorCall.respond_carries crate (some id.text) generated (by rfl :
      (ErrorCall.quickErrorResponse reply.status reply.error reply.message).isRejection = false)

theorem guard_finalized (guard : Guard) : guard.rejection.isRejection = false := by
  cases guard <;> rfl

section
variable (state : AuthMiddlewareState) (correlationId : String)
  (body : List Identity → AuthRequest → ErrorCall.Response) (guard : Guard) (rest : List Guard)
  (request : AuthRequest)

theorem protectedPass_finalized {call : ErrorCall}
    (replied : (protectedPass state correlationId body guard rest request).reply =
      .ofHandler (.error call)) : call.isRejection = false := by
  have reply := protectedPass_reply state correlationId body guard rest request
  obtain ⟨-, rfl⟩ | ⟨identity, refused, code, message, -, -, rfl, -⟩ :=
    (reply.error_iff call).mp replied
  · rfl
  · exact guard_finalized refused

end

/-- What a request leaves behind, under one ID. -/
structure OneTrail (crate : UuidCrate) (id : RequestId) (later : Nat) (verdict : Verdict)
    (pass : Pass (Except ErrorCall ErrorCall.Response)) (response : ErrorCall.Response)
    (span : RequestSpan) : Prop where
  span_id : span.requestId = id.text
  span_status : span.status = response.status
  span_auth : ∃ summary, span.auth = some summary ∧ Summarizes summary verdict
  audit : ∀ event ∈ pass.audit, event.requestId = id.text
  handled : ∀ seen, pass.handled = some seen → seen.extensions.requestId = some id.text ∧
    ∃ ctx, seen.extensions.authContext = some ctx ∧ ctx.requestId = id.text
  stamped : ∃ own, Stamps id own response ∧
    ∀ handlers, pass.reply = .ofHandler (.ok handlers) → own = handlers
  rejected : (∀ own, pass.reply ≠ .ofHandler (.ok own)) → ErrorCall.Carries response
    (crate.toText (ErrorCall.correlationId crate (some id.text) later))
  kept : ∀ line ∈ response.headers.getAll "x-request-id", ∀ headers generated,
    getOrGenerateRequestId crate (("x-request-id", line) :: headers) generated = id

/-- **One ID goes through everything a request leaves behind.** For any request, chain, guards
and handler: the ID chosen at the door is the span's, the audit log's, the auth
context's and the response's only `X-Request-ID`, whatever the handler set there; the span
has the response's status and the chain's verdict; a rejection carries the ID in its body
and header when it is a UUID; a request that sends the response's ID back, or on, keeps it. -/
theorem request_trail (state : AuthMiddlewareState)
    (body : List Identity → AuthRequest → ErrorCall.Response) (guard : Guard) (rest : List Guard)
    (generated later durationMs : Nat) (env : String) (routed : RoutedRequest) :
    OneTrail crate (getOrGenerateRequestId crate routed.request.headers generated) later
      (state.chain.verdict routed.request.headers routed.request.uri)
      (guardedPass crate state body guard rest later
        (getOrGenerateRequestId crate routed.request.headers generated)
        (inScope (getOrGenerateRequestId crate routed.request.headers generated) routed.request))
      (loggingMiddleware crate generated durationMs env
        (guardedService crate state body guard rest later) routed).1
      (loggingMiddleware crate generated durationMs env
        (guardedService crate state body guard rest later) routed).2 := by
  generalize chosen : getOrGenerateRequestId crate routed.request.headers generated = id
  have channels := authMiddleware_requestId state
    (crate.toText (ErrorCall.correlationId crate (some id.text) later))
    (guarded body (guard :: rest)) (inScope id routed.request) rfl
  have logging := logging_summarizes state
    (crate.toText (ErrorCall.correlationId crate (some id.text) later))
    (guarded body (guard :: rest)) (inScope id routed.request) rfl
  have stamps := stamps_insertText id
    (respondTo crate id later
      (guardedPass crate state body guard rest later id (inScope id routed.request)).reply)
  simp only [loggingMiddleware, chosen, guardedService]
  refine
    { span_id := rfl
      span_status := rfl
      span_auth := ?_
      audit := channels.1
      handled := channels.2
      stamped := ⟨_, stamps, ?_⟩
      rejected := ?_
      kept := ?_ }
  · obtain ⟨summary, left, summarizes⟩ := logging
    exact ⟨summary, by rw [guardedPass, protectedPass, left, Option.bind_some], summarizes⟩
  · intro handlers replied
    rw [replied, respondTo]
  · intro rejected
    apply stamps.carries
    apply respondTo_carries id later rejected
    intro call replied
    exact protectedPass_finalized state _ body guard rest _ replied
  · intro line listed headers generated
    have bytes : line.bytes ∈ [utf8 id.text] :=
      stamps.header ▸ List.mem_map_of_mem (f := (·.bytes)) listed
    exact id.kept (List.mem_singleton.mp bytes) headers generated

end RustyGasket
