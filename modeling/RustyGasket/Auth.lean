import RustyGasket.ForwardedFor

/-!
# Identities, verdicts and the authentication chain

`AuthError`, `Identity`, the bounded strings built from them, and `AuthChain`,
whose first backend with an opinion decides.
-/

namespace RustyGasket

/-- A wrapped backend error stands by its display text. -/
inductive AuthError
  | missingCredentials (reason : String)
  | invalidCredentials (reason : String)
  | tokenExpired
  | tokenValidation (reason : String)
  | authorizationDenied (reason : String)
  | backendError (error : String)
  | configuration (reason : String)
  deriving DecidableEq, Repr

namespace AuthError

/-- `Display`. -/
def toText : AuthError → String
  | missingCredentials reason => s!"Missing credentials: {reason}"
  | invalidCredentials reason => s!"Invalid credentials: {reason}"
  | tokenExpired => "Token expired"
  | tokenValidation reason => s!"Token validation failed: {reason}"
  | authorizationDenied reason => s!"Authorization denied: {reason}"
  | backendError error => s!"Backend error: {error}"
  | configuration reason => s!"Configuration error: {reason}"

def statusCode : AuthError → Nat
  | missingCredentials _ | invalidCredentials _ | tokenExpired | tokenValidation _ => 401
  | authorizationDenied _ => 403
  | backendError _ | configuration _ => 500

def errorCode : AuthError → String
  | missingCredentials _ => "MISSING_CREDENTIALS"
  | invalidCredentials _ => "INVALID_CREDENTIALS"
  | tokenExpired => "TOKEN_EXPIRED"
  | tokenValidation _ => "TOKEN_VALIDATION_FAILED"
  | authorizationDenied _ => "AUTHORIZATION_DENIED"
  | backendError _ => "AUTH_BACKEND_ERROR"
  | configuration _ => "AUTH_CONFIGURATION_ERROR"

def category : AuthError → String
  | missingCredentials _ => "missing_credentials"
  | invalidCredentials _ => "invalid_credentials"
  | tokenExpired => "token_expired"
  | tokenValidation _ => "token_validation"
  | authorizationDenied _ => "authorization_denied"
  | backendError _ => "backend_error"
  | configuration _ => "configuration_error"

/-- The client-facing message. -/
def message (error : AuthError) : String :=
  if 400 ≤ error.statusCode ∧ error.statusCode < 500 then
    match error with
    | missingCredentials _ => "Missing credentials"
    | invalidCredentials _ => "Invalid credentials"
    | tokenExpired => "Token expired"
    | tokenValidation _ => "Token validation failed"
    | authorizationDenied _ => "Authorization denied"
    | backendError _ | configuration _ => "Authentication failed"
  else "Internal authentication error"

end AuthError

/-- A verified caller; the typed attribute map is left out. -/
structure Identity where
  subject : String
  authMethod : String
  displayName : Option String
  scopes : List String
  serviceAccount : Bool
  privileged : Bool
  deriving DecidableEq, Repr

/-- `str::len`, in bytes. -/
def textLength : List Char → Nat
  | [] => 0
  | c :: rest => c.utf8Size + textLength rest

theorem textLength_append (text text' : List Char) :
    textLength (text ++ text') = textLength text + textLength text' := by
  induction text with
  | nil => simp [textLength]
  | cons c rest ih =>
    rw [List.cons_append, textLength, textLength, ih]
    omega

/-- `char::is_control`, the Unicode category Cc. -/
def isControl (c : Char) : Bool := c.toNat ≤ 0x1f || (0x7f ≤ c.toNat && c.toNat ≤ 0x9f)

def MAX_FAILED_REASON_LEN : Nat := 512

def MAX_RATE_LIMIT_SUBJECT_LEN : Nat := 256

/-- The loop of `FailedReason::new`: control characters are dropped, and the first
character that would not fit ends it. -/
def sanitizeReason (sanitized : List Char) : List Char → List Char
  | [] => sanitized
  | c :: rest =>
    if textLength sanitized + c.utf8Size > MAX_FAILED_REASON_LEN then sanitized
    else sanitizeReason (if isControl c then sanitized else sanitized ++ [c]) rest

/-- The longest prefix of whole characters within `limit` bytes. -/
def floorCharBoundary (limit : Nat) : List Char → List Char
  | [] => []
  | c :: rest =>
    if c.utf8Size ≤ limit then c :: floorCharBoundary (limit - c.utf8Size) rest else []

theorem floorCharBoundary_prefix (limit : Nat) (text : List Char) :
    floorCharBoundary limit text <+: text := by
  induction text generalizing limit with
  | nil => exact List.prefix_rfl
  | cons c rest ih =>
    unfold floorCharBoundary
    by_cases fits : c.utf8Size ≤ limit
    · rw [if_pos fits, List.prefix_cons_inj]
      apply ih
    · rw [if_neg fits]
      exact List.nil_prefix

theorem floorCharBoundary_length (limit : Nat) (text : List Char) :
    textLength (floorCharBoundary limit text) ≤ limit := by
  induction text generalizing limit with
  | nil => exact Nat.zero_le _
  | cons c rest ih =>
    unfold floorCharBoundary
    by_cases fits : c.utf8Size ≤ limit
    · have later := ih (limit - c.utf8Size)
      rw [if_pos fits, textLength]
      omega
    · rw [if_neg fits]
      exact Nat.zero_le _

theorem floorCharBoundary_of_le (limit : Nat) (text : List Char) (h : textLength text ≤ limit) :
    floorCharBoundary limit text = text := by
  induction text generalizing limit with
  | nil => rfl
  | cons c rest ih =>
    rw [textLength] at h
    have fits : c.utf8Size ≤ limit := by omega
    have later : textLength rest ≤ limit - c.utf8Size := by omega
    unfold floorCharBoundary
    rw [if_pos fits, ih _ later]

theorem sanitizeReason_bounded (sanitized text : List Char)
    (h : textLength sanitized ≤ MAX_FAILED_REASON_LEN ∧ ∀ c ∈ sanitized, isControl c = false) :
    textLength (sanitizeReason sanitized text) ≤ MAX_FAILED_REASON_LEN ∧
      ∀ c ∈ sanitizeReason sanitized text, isControl c = false := by
  induction text generalizing sanitized with
  | nil => exact h
  | cons c rest ih =>
    unfold sanitizeReason
    by_cases full : textLength sanitized + c.utf8Size > MAX_FAILED_REASON_LEN
    · rw [if_pos full]
      exact h
    · rw [if_neg full]
      apply ih
      by_cases control : isControl c = true
      · rw [if_pos control]
        exact h
      · rw [if_neg control]
        have grown : textLength (sanitized ++ [c]) = textLength sanitized + c.utf8Size := by
          simp [textLength_append, textLength]
        have fits : textLength (sanitized ++ [c]) ≤ MAX_FAILED_REASON_LEN := by omega
        refine ⟨fits, ?_⟩
        intro d hd
        obtain hd | hd := List.mem_append.mp hd
        · exact h.2 d hd
        · rw [List.mem_singleton.mp hd]
          exact Bool.eq_false_iff.mpr control

/-- Short and free of control characters. -/
structure FailedReason where
  text : List Char
  bounded : textLength text ≤ MAX_FAILED_REASON_LEN
  plain : ∀ c ∈ text, isControl c = false
  deriving DecidableEq

def FailedReason.new (reason : String) : FailedReason :=
  have kept := sanitizeReason_bounded [] reason.toList ⟨Nat.zero_le _, by simp⟩
  ⟨sanitizeReason [] reason.toList, kept.1, kept.2⟩

/-- A subject cut to the cap of the rate limiter's keys. -/
structure RateLimitSubject where
  text : List Char
  bounded : textLength text ≤ MAX_RATE_LIMIT_SUBJECT_LEN
  deriving DecidableEq

def RateLimitSubject.new (subject : String) : RateLimitSubject :=
  ⟨floorCharBoundary MAX_RATE_LIMIT_SUBJECT_LEN subject.toList, floorCharBoundary_length _ _⟩

/-! ## The chain -/

inductive UnauthenticatedPolicy
  | reject
  | allowAnonymous
  deriving DecidableEq, Repr

/-- `Ok(Some(identity))`, `Ok(None)` or an error. -/
abbrev Answer := Except AuthError (Option Identity)

structure AuthBackend where
  name : String
  authenticate : HeaderMap → String → Answer

structure AuthChain where
  backends : List AuthBackend
  fallback : UnauthenticatedPolicy

namespace AuthChain

/-- The loop over the backends, with the names of those it called. -/
def tryBackends (headers : HeaderMap) (uri : String) (otherwise : Answer) :
    List AuthBackend → List String × Answer
  | [] => ([], otherwise)
  | backend :: rest => match backend.authenticate headers uri with
    | .ok (some identity) => ([backend.name], .ok (some identity))
    | .ok none =>
      let (called, answer) := tryBackends headers uri otherwise rest
      (backend.name :: called, answer)
    | .error error => ([backend.name], .error error)

def authenticate (chain : AuthChain) (headers : HeaderMap) (uri : String) :
    List String × Answer :=
  tryBackends headers uri (match chain.fallback with
    | .allowAnonymous => .ok none
    | .reject => .error (.missingCredentials "No valid credentials provided")) chain.backends

/-- How many backends have no opinion before the first that has one. -/
def silent (chain : AuthChain) (headers : HeaderMap) (uri : String) : List AuthBackend :=
  chain.backends.takeWhile fun b => b.authenticate headers uri = .ok none

end AuthChain

/-- What the chain decides about a request. -/
inductive Verdict
  | authenticated (identity : Identity)
  | anonymous
  | failed (error : AuthError)
  deriving DecidableEq, Repr

def Verdict.ofAnswer : Answer → Verdict
  | .ok (some identity) => authenticated identity
  | .ok none => anonymous
  | .error error => failed error

/-- **The deciding answer**: the first that is not `Ok(None)`, else the fallback. -/
def AuthChain.verdict (chain : AuthChain) (headers : HeaderMap) (uri : String) : Verdict :=
  match chain.backends.find? fun b => b.authenticate headers uri ≠ .ok none with
  | some backend => .ofAnswer (backend.authenticate headers uri)
  | none => match chain.fallback with
    | .allowAnonymous => .anonymous
    | .reject => .failed (.missingCredentials "No valid credentials provided")

theorem AuthChain.tryBackends_verdict (headers : HeaderMap) (uri : String) (otherwise : Answer)
    (backends : List AuthBackend) :
    (tryBackends headers uri otherwise backends).2 =
      match backends.find? fun b => b.authenticate headers uri ≠ .ok none with
      | some backend => backend.authenticate headers uri
      | none => otherwise := by
  induction backends with
  | nil => rfl
  | cons backend rest ih =>
    unfold tryBackends
    cases answer : backend.authenticate headers uri with
    | error error => simp [answer]
    | ok identity =>
      cases identity with
      | some identity => simp [answer]
      | none => simp [answer, ih]

/-- No backend after the deciding one is called. -/
theorem AuthChain.tryBackends_called (headers : HeaderMap) (uri : String) (otherwise : Answer)
    (backends : List AuthBackend) :
    (tryBackends headers uri otherwise backends).1 =
      (backends.take ((backends.takeWhile fun b =>
        b.authenticate headers uri = .ok none).length + 1)).map (·.name) := by
  induction backends with
  | nil => rfl
  | cons backend rest ih =>
    unfold tryBackends
    cases answer : backend.authenticate headers uri with
    | error error => simp [answer]
    | ok identity =>
      cases identity with
      | some identity => simp [answer]
      | none => simp [answer, ih]

theorem AuthChain.authenticate_verdict (chain : AuthChain) (headers : HeaderMap) (uri : String) :
    Verdict.ofAnswer (chain.authenticate headers uri).2 = chain.verdict headers uri := by
  unfold authenticate verdict
  rw [tryBackends_verdict]
  cases chain.backends.find? fun b => b.authenticate headers uri ≠ .ok none with
  | some backend => rfl
  | none => cases chain.fallback <;> rfl

end RustyGasket
