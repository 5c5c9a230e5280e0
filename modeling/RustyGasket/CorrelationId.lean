import RustyGasket.Http
import RustyGasket.Json

/-!
# One request, one correlation ID

A request ID is any short token, a correlation ID is a UUID. Where the one is no UUID
each error response draws a fresh one, so two responses of one request differ and
neither leads back to the request's log lines. The rate limiter builds its response
itself and leaves the header out.
-/

namespace RustyGasket

/-! ## Request IDs -/

def isLowerHexDigit (byte : UInt8) : Bool := (48 ≤ byte && byte ≤ 57) || (97 ≤ byte && byte ≤ 102)

/-- Groups of 8, 4, 4, 4 and 12 digits. -/
def isHyphenated (text : Bytes) : Bool :=
  text.length == 36 && text.zipIdx.all fun (byte, i) =>
    if i ∈ [8, 13, 18, 23] then byte == 45 else isLowerHexDigit byte

/-- What the framework uses of the `uuid` crate. `nowV7` is given how many the process
has generated. -/
structure UuidCrate where
  Uuid : Type
  parseStr : String → Option Uuid
  nowV7 : Nat → Uuid
  /-- `Display`, also the text it serializes to. -/
  toText : Uuid → String
  toText_hyphenated : ∀ uuid, isHyphenated (utf8 (toText uuid)) = true
  nowV7_fresh : ∀ n, toText (nowV7 n) ≠ toText (nowV7 (n + 1))

def MAX_REQUEST_ID_LEN : Nat := 128

def isRequestIdByte (byte : UInt8) : Bool :=
  isAsciiAlphanumeric byte || byte == 46 || byte == 95 || byte == 45

def isValidRequestId (text : String) : Bool :=
  !(utf8 text).isEmpty && (utf8 text).length ≤ MAX_REQUEST_ID_LEN && (utf8 text).all isRequestIdByte

/-- The task-local `CURRENT_REQUEST_ID` of a request. -/
structure RequestId where
  text : String
  valid : isValidRequestId text = true
  deriving DecidableEq

theorem isHyphenated_bytes {text : Bytes} (h : isHyphenated text = true) {b : UInt8}
    (hb : b ∈ text) : b = 45 ∨ isLowerHexDigit b = true := by
  obtain ⟨-, digits⟩ := Bool.and_eq_true_iff.mp h
  obtain ⟨i, hi⟩ := List.mem_iff_getElem?.mp hb
  have digit := List.all_eq_true.mp digits (b, i) (List.mem_zipIdx_iff_getElem?.mpr hi)
  dsimp only at digit
  split at digit
  · exact .inl (eq_of_beq digit)
  · exact .inr digit

theorem isRequestIdByte_of_hex {b : UInt8} (h : b = 45 ∨ isLowerHexDigit b = true) :
    isRequestIdByte b = true ∧ isVisibleAscii b = true := by
  revert h
  apply forall_byte (P := fun b => b = 45 ∨ isLowerHexDigit b = true →
    isRequestIdByte b = true ∧ isVisibleAscii b = true)
  decide +kernel

/-- A generated ID passes the check that a client's has to pass. -/
theorem isValidRequestId_hyphenated {text : String} (h : isHyphenated (utf8 text) = true) :
    isValidRequestId text = true := by
  have length : (utf8 text).length = 36 := eq_of_beq (Bool.and_eq_true_iff.mp h).1
  have notEmpty : (utf8 text).isEmpty = false := by
    cases bytes : utf8 text with
    | nil =>
      rw [bytes] at length
      cases length
    | cons => rfl
  have each : (utf8 text).all isRequestIdByte = true :=
    List.all_eq_true.mpr fun b hb => (isRequestIdByte_of_hex (isHyphenated_bytes h hb)).1
  simp [isValidRequestId, notEmpty, length, each, MAX_REQUEST_ID_LEN]

def RequestId.generate (crate : UuidCrate) (generated : Nat) : RequestId :=
  ⟨_, isValidRequestId_hyphenated (crate.toText_hyphenated (crate.nowV7 generated))⟩

/-- What `logging_middleware` puts in scope for the request's task. -/
def getOrGenerateRequestId (crate : UuidCrate) (headers : HeaderMap) (generated : Nat) :
    RequestId :=
  match (headers.get "x-request-id").bind HeaderValue.toStr with
  | none => .generate crate generated
  | some text =>
    if valid : isValidRequestId (String.ofList text) = true then ⟨_, valid⟩
    else .generate crate generated

/-- An ID the client sends is the request's, once it is accepted. -/
theorem getOrGenerateRequestId_sent (crate : UuidCrate) {headers : HeaderMap} {text : List Char}
    (generated : Nat) (sent : (headers.get "x-request-id").bind HeaderValue.toStr = some text)
    (valid : isValidRequestId (String.ofList text) = true) :
    getOrGenerateRequestId crate headers generated = ⟨String.ofList text, valid⟩ := by
  rw [getOrGenerateRequestId, sent]
  exact dif_pos valid

/-! ## Error responses -/

structure ErrorDetail where
  issue : String
  description : Option String
  deriving DecidableEq, Repr

def ErrorDetail.toJson (detail : ErrorDetail) : Json :=
  .object ((detail.description.map fun text => ("description", Json.string text)).toList ++
    [("issue", .string detail.issue)])

structure ErrorResponse (crate : UuidCrate) where
  error : String
  message : String
  correlationId : crate.Uuid
  details : List ErrorDetail

/-- What `error_into_response` asks of an `ApiError`. -/
structure ApiError where
  errorCode : String
  statusCode : Nat
  exposeDetails : Bool
  text : String
  details : List ErrorDetail
  deriving DecidableEq, Repr

/-- A call that builds a standardized error response. -/
inductive ErrorCall
  | errorIntoResponse (error : ApiError)
  | quickErrorResponse (status : Nat) (code message : String)
  | quickErrorResponseWithDetails (status : Nat) (code message : String)
      (details : List ErrorDetail)
  /-- The rate limiter's, with the seconds to wait. -/
  | rateLimitRejection (wait : UInt64)
  deriving DecidableEq, Repr

namespace ErrorCall

structure Response where
  status : Nat
  headers : HeaderMap
  body : Json

variable (crate : UuidCrate)

def toJson (body : ErrorResponse crate) : Json :=
  let details := if body.details = [] then []
    else [("details", .array (body.details.map ErrorDetail.toJson))]
  .object (("correlationId", .string (crate.toText body.correlationId)) :: details ++
    [("error", .string body.error), ("message", .string body.message)])

/-- `(status, Json(body)).into_response()`. -/
def jsonResponse (status : Nat) (body : ErrorResponse crate) : Response where
  status := status
  headers := [("content-type", .ofBytes (utf8 "application/json") (by decide +kernel))]
  body := toJson crate body

def insertText (headers : HeaderMap) (name text : String) : HeaderMap :=
  match HeaderValue.fromStr text with
  | some value => headers.setAll name [value]
  | none => headers

def finalizeErrorResponse (status : Nat) (body : ErrorResponse crate) : Response :=
  let response := jsonResponse crate status body
  { response with
    headers := insertText response.headers "x-correlation-id" (crate.toText body.correlationId) }

/-- The current request's ID if it is a UUID, else a new one. -/
def correlationId (current : Option String) (generated : Nat) : crate.Uuid :=
  (current.bind crate.parseStr).getD (crate.nowV7 generated)

def respond (current : Option String) (generated : Nat) : ErrorCall → Response
  | errorIntoResponse error =>
    let (message, details) := if error.exposeDetails then (error.text, error.details)
      else ("Internal server error", [])
    finalizeErrorResponse crate error.statusCode
      ⟨error.errorCode, message, correlationId crate current generated, details⟩
  | quickErrorResponse status code message =>
    finalizeErrorResponse crate status ⟨code, message, correlationId crate current generated, []⟩
  | quickErrorResponseWithDetails status code message details =>
    finalizeErrorResponse crate status
      ⟨code, message, correlationId crate current generated, details⟩
  | rateLimitRejection wait =>
    let response := jsonResponse crate 429
      ⟨"RATE_LIMIT_EXCEEDED", "Too many requests", correlationId crate current generated, []⟩
    let retryAfter := toString (min (wait.toNat + 1) (UInt64.size - 1))
    { response with headers := insertText response.headers "retry-after" retryAfter }

def isRejection : ErrorCall → Bool
  | rateLimitRejection _ => true
  | _ => false

/-- The body and the one header line have the text. -/
structure Carries (response : Response) (text : String) : Prop where
  body : response.body.get "correlationId" = some (.string text)
  header : (response.headers.getAll "x-correlation-id").map (·.bytes) = [utf8 text]

theorem insertText_visible {headers : HeaderMap} {name text : String}
    (visible : (utf8 text).all isVisibleAscii = true) :
    ((insertText headers name text).getAll name).map (·.bytes) = [utf8 text] := by
  obtain ⟨line, legal, bytes⟩ := HeaderValue.fromStr_visible visible
  rw [insertText, legal]
  simp only [HeaderMap.getAll_setAll, List.map_cons, List.map_nil, bytes]

theorem insertText_other {headers : HeaderMap} {name other : String} (differs : other ≠ name)
    (text : String) : (insertText headers name text).getAll other = headers.getAll other := by
  unfold insertText
  split
  · exact HeaderMap.getAll_setAll_of_ne headers differs _
  · rfl

theorem toText_visible (uuid : crate.Uuid) :
    (utf8 (crate.toText uuid)).all isVisibleAscii = true :=
  List.all_eq_true.mpr fun _ hb =>
    (isRequestIdByte_of_hex (isHyphenated_bytes (crate.toText_hyphenated uuid) hb)).2

theorem finalizeErrorResponse_carries (status : Nat) (body : ErrorResponse crate) :
    Carries (finalizeErrorResponse crate status body) (crate.toText body.correlationId) :=
  ⟨rfl, insertText_visible (toText_visible crate body.correlationId)⟩

/-- Every constructor but the rate limiter's goes through `finalize_error_response`. -/
theorem respond_carries (current : Option String) (generated : Nat) {call : ErrorCall}
    (finalized : call.isRejection = false) :
    Carries (call.respond crate current generated)
      (crate.toText (correlationId crate current generated)) := by
  cases call with
  | errorIntoResponse | quickErrorResponse | quickErrorResponseWithDetails =>
    exact finalizeErrorResponse_carries crate _ _
  | rateLimitRejection => cases finalized

theorem rejection_carries_none (current : Option String) (generated : Nat) {call : ErrorCall}
    (rejection : call.isRejection = true) :
    (call.respond crate current generated).headers.getAll "x-correlation-id" = [] := by
  cases call with
  | rateLimitRejection wait => exact insertText_other (by decide) _
  | errorIntoResponse | quickErrorResponse | quickErrorResponseWithDetails => cases rejection

theorem Carries.unique {response : Response} {text other : String} (h : Carries response text)
    (h' : Carries response other) : text = other := by
  have same := h.body.symm.trans h'.body
  cases same
  rfl

/-- All responses of the request's task carry one text, however many UUIDs the process
has generated when each is built. -/
def OneCorrelationId (id : RequestId) (calls : List ErrorCall) : Prop :=
  ∃ text, ∀ call ∈ calls, ∀ generated, Carries (call.respond crate (some id.text) generated) text

/-- **One request has one correlation ID exactly when** its ID is a UUID and none of its
error responses is the rate limiter's, or it has no error response. -/
theorem oneCorrelationId_iff (id : RequestId) (calls : List ErrorCall) :
    OneCorrelationId crate id calls ↔ calls = [] ∨
      (crate.parseStr id.text ≠ none ∧ ∀ call ∈ calls, call.isRejection = false) := by
  constructor
  · rintro ⟨text, carried⟩
    cases calls with
    | nil => exact .inl rfl
    | cons first rest =>
      right
      have finalized : ∀ call ∈ first :: rest, call.isRejection = false := by
        intro call member
        by_contra rejection
        have header := (carried call member 0).header
        rw [rejection_carries_none crate _ _ (Bool.not_eq_false _ ▸ rejection)] at header
        cases header
      refine ⟨fun unparsed => ?_, finalized⟩
      have fresh : ∀ n, text = crate.toText (crate.nowV7 n) := by
        intro n
        have own := respond_carries crate (some id.text) n (finalized first List.mem_cons_self)
        rw [correlationId, Option.bind_some, unparsed, Option.getD_none] at own
        exact (carried first List.mem_cons_self n).unique own
      exact crate.nowV7_fresh 0 ((fresh 0).symm.trans (fresh 1))
  · rintro (rfl | ⟨parsed, finalized⟩)
    · exact ⟨"", nofun⟩
    · obtain ⟨uuid, parsed⟩ := Option.ne_none_iff_exists'.mp parsed
      refine ⟨crate.toText uuid, fun call member generated => ?_⟩
      have own := respond_carries crate (some id.text) generated (finalized call member)
      rwa [correlationId, Option.bind_some, parsed, Option.getD_some] at own

end ErrorCall

/-! ## An ID that is no UUID -/

def firstUuid : String := "019734a2-1234-7000-8000-abcdef012345"

def secondUuid : String := "019734a2-1235-7000-8000-abcdef012345"

/-- The crate on hyphenated texts, with two UUIDs in turn. -/
def twoUuids : UuidCrate where
  Uuid := { text : String // isHyphenated (utf8 text) = true }
  parseStr := fun text => if h : isHyphenated (utf8 text) = true then some ⟨text, h⟩ else none
  nowV7 := fun n => if n % 2 = 0 then ⟨firstUuid, by decide +kernel⟩
    else ⟨secondUuid, by decide +kernel⟩
  toText := fun uuid => uuid.val
  toText_hyphenated := fun uuid => uuid.property
  nowV7_fresh := by
    intro n
    obtain even | odd := Nat.mod_two_eq_zero_or_one n
    · rw [if_pos even, if_neg (by omega)]
      decide
    · rw [if_neg (by omega), if_pos (by omega)]
      decide

def orderHeaders : HeaderMap := [("x-request-id", .ofBytes (utf8 "order-7") (by decide +kernel))]

def notFound : ErrorCall := .quickErrorResponse 404 "NOT_FOUND" "Not found"

/-- Two error responses of the request `order-7` carry two UUIDs. -/
theorem order_uncorrelated :
    (getOrGenerateRequestId twoUuids orderHeaders 0).text = "order-7" ∧
    ErrorCall.Carries (notFound.respond twoUuids (some "order-7") 0) firstUuid ∧
    ErrorCall.Carries (notFound.respond twoUuids (some "order-7") 1) secondUuid ∧
    ¬ ErrorCall.OneCorrelationId twoUuids (getOrGenerateRequestId twoUuids orderHeaders 0)
      [notFound, notFound] := by
  have first : ErrorCall.Carries (notFound.respond twoUuids (some "order-7") 0) firstUuid :=
    ErrorCall.respond_carries twoUuids (some "order-7") 0 rfl
  have second : ErrorCall.Carries (notFound.respond twoUuids (some "order-7") 1) secondUuid :=
    ErrorCall.respond_carries twoUuids (some "order-7") 1 rfl
  have header : (orderHeaders.get "x-request-id").bind HeaderValue.toStr =
      some "order-7".toList := by decide +kernel
  have sent : (getOrGenerateRequestId twoUuids orderHeaders 0).text = "order-7" := by
    rw [getOrGenerateRequestId_sent twoUuids 0 header (by decide +kernel)]
    exact String.ofList_toList
  refine ⟨sent, first, second, ?_⟩
  rintro ⟨text, carried⟩
  rw [sent] at carried
  have one := (carried notFound List.mem_cons_self 0).unique first
  have two := (carried notFound List.mem_cons_self 1).unique second
  exact absurd (one.symm.trans two) (by decide)

end RustyGasket
