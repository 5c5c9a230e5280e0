import RustyGasket.Auth
import RustyGasket.Fallible
import RustyGasket.JsonWebToken

/-!
# `JwtBackend`

The builder, the two places that assemble a `Validation`, token extraction and
`authenticate`. How the key store answers for a `kid` is the caller's.
-/

namespace RustyGasket

abbrev ClaimsMapper := Json → Except AuthError Identity

inductive TokenSource
  | bearerHeader
  | cookie (name : String)
  | header (name : String)
  deriving DecidableEq, Repr

inductive StaticKeySource
  | hmac (secret : List UInt8)
  | rsaPem (pem : List UInt8)
  | ecPem (pem : List UInt8)
  deriving DecidableEq, Repr

/-- Durations are in nanoseconds. -/
structure JwtBackendBuilder where
  staticKey : Option StaticKeySource
  jwksUrl : Option String
  algorithm : Algorithm
  tokenSource : TokenSource
  claimsMapper : Option ClaimsMapper
  audience : Option String
  issuer : Option String
  validateExp : Bool
  validateNbf : Bool
  leewaySecs : Nat
  jwksCacheTtl : Nat
  jwksTimeout : Nat
  jwksMaxBodySize : Nat
  jwksAllowedAlgorithms : Option (List Algorithm)
  jwksAllowHttp : Bool

/-- What `build_jwks_resolver` asks of the URL and HTTP crates. -/
structure JwksClient where
  /-- The scheme and the host. -/
  parseUrl : String → Except String (String × Option String)
  /-- A string as `{:?}` prints it. -/
  debug : String → String
  buildClient : Nat → Except String Unit

section
variable (lib : JsonWebToken)

structure StaticKey where
  key : lib.DecodingKey
  validation : Validation

/-- The settings of the store. -/
structure JwksKeyStore where
  url : String
  cacheTtl : Nat
  maxBodySize : Nat
  allowedAlgorithms : List Algorithm
  audience : Option String
  issuer : Option String
  validateExp : Bool
  validateNbf : Bool
  leewaySecs : Nat
  deriving DecidableEq, Repr

structure PreparedKey where
  key : lib.DecodingKey
  algorithm : Algorithm

inductive KeyResolver
  | static (key : StaticKey lib)
  | jwks (store : JwksKeyStore)

structure JwtBackend where
  keyResolver : KeyResolver lib
  tokenSource : TokenSource
  claimsMapper : ClaimsMapper

end

/-! ## Claims -/

/-- `str::split_whitespace`. -/
def splitWhitespace (text : List Char) : List (List Char) :=
  (text.splitOnP isWhitespace).filter (· ≠ [])

/-- A set of scopes, each once. -/
def scopeClaims (claims : Json) : List String :=
  match (claims.get "scope").bind Json.asStr with
  | some scope => ((splitWhitespace scope.toList).map String.ofList).dedup
  | none => []

def mapStandardClaims (authMethod : String) (claims : Json) : Except AuthError Identity :=
  match (claims.get "sub").bind Json.asStr with
  | none => .error (.tokenValidation "Missing 'sub' claim")
  | some subject => .ok
    { subject := subject
      authMethod := authMethod
      displayName := (claims.get "name").bind Json.asStr
      scopes := scopeClaims claims
      serviceAccount := false
      privileged := false }

def standardClaimsMapper : ClaimsMapper := mapStandardClaims "jwt"

/-! ## The builder -/

namespace JwtBackendBuilder

def new : JwtBackendBuilder where
  staticKey := none
  jwksUrl := none
  algorithm := .HS256
  tokenSource := .bearerHeader
  claimsMapper := none
  audience := none
  issuer := none
  validateExp := true
  validateNbf := true
  leewaySecs := 0
  jwksCacheTtl := 300 * 1000000000
  jwksTimeout := 10 * 1000000000
  jwksMaxBodySize := 1024 * 1024
  jwksAllowedAlgorithms := none
  jwksAllowHttp := false

def defaultJwksAlgorithms : List Algorithm :=
  [.RS256, .RS384, .RS512, .PS256, .PS384, .PS512, .ES256, .ES384, .EdDSA]

def buildValidation (b : JwtBackendBuilder) : Validation :=
  let validation := Validation.new b.algorithm
  let validation := { validation with
    validateExp := b.validateExp
    validateNbf := b.validateNbf
    leeway := b.leewaySecs }
  let validation := if b.validateExp = false then
    { validation with requiredSpecClaims := validation.requiredSpecClaims.erase "exp" }
    else validation
  let validation := match b.audience with
    | some aud => { validation with aud := some [aud] }
    | none => validation
  match b.issuer with
  | some iss => { validation with iss := some [iss] }
  | none => validation

variable (lib : JsonWebToken)

/-- One kind of static key: the algorithms it goes with, and its parser. -/
def staticKeyOf (b : JwtBackendBuilder) (algorithms : List Algorithm) (kind : String)
    (key : Except AuthError lib.DecodingKey) : Except AuthError (KeyResolver lib) :=
  if b.algorithm ∈ algorithms then
    key.map fun key => .static ⟨key, b.buildValidation⟩
  else
    let algorithm := b.algorithm.toText
    .error (.configuration s!"Algorithm {algorithm} is incompatible with {kind}")

def invalidPem (kind : String) (e : JwtError) : AuthError :=
  let reason := e.text
  .configuration s!"Invalid {kind} PEM: {reason}"

def buildStaticResolver (b : JwtBackendBuilder) :
    StaticKeySource → Except AuthError (KeyResolver lib)
  | .hmac secret =>
    b.staticKeyOf lib [.HS256, .HS384, .HS512] "HMAC secret" (.ok (lib.fromSecret secret))
  | .rsaPem pem =>
    b.staticKeyOf lib [.RS256, .RS384, .RS512, .PS256, .PS384, .PS512] "RSA PEM key"
      ((lib.fromRsaPem pem).mapError (invalidPem "RSA"))
  | .ecPem pem =>
    b.staticKeyOf lib [.ES256, .ES384] "EC PEM key"
      ((lib.fromEcPem pem).mapError (invalidPem "EC"))

/-- The scheme check. -/
def checkScheme (client : JwksClient) (allowHttp : Bool) (url : String) :
    String → Except AuthError Unit
  | "https" => .ok ()
  | "http" =>
    let got := client.debug url
    if allowHttp then .ok () else .error (.configuration
      s!"JWKS URL must use https:// (got {got}); call jwks_allow_http(true) to opt out")
  | other =>
    let got := client.debug other
    .error (.configuration s!"JWKS URL scheme must be http or https (got {got})")

def buildJwksResolver (client : JwksClient) (b : JwtBackendBuilder) (url : String) :
    Except AuthError (KeyResolver lib) := do
  let got := client.debug url
  let (scheme, host) ← (client.parseUrl url).mapError fun e =>
    .configuration s!"JWKS URL is not a valid absolute URL ({e}); got {got}"
  if host.all (· = "") then
    throw (.configuration s!"JWKS URL has no host: {got}")
  checkScheme client b.jwksAllowHttp url scheme
  (client.buildClient b.jwksTimeout).mapError fun e =>
    .configuration s!"Failed to build JWKS HTTP client: {e}"
  let allowedAlgorithms := b.jwksAllowedAlgorithms.getD defaultJwksAlgorithms
  if allowedAlgorithms = [] then
    throw (.configuration "JWKS allowed_algorithms must not be empty")
  return .jwks
    { url := url
      cacheTtl := b.jwksCacheTtl
      maxBodySize := b.jwksMaxBodySize
      allowedAlgorithms := allowedAlgorithms
      audience := b.audience
      issuer := b.issuer
      validateExp := b.validateExp
      validateNbf := b.validateNbf
      leewaySecs := b.leewaySecs }

def buildResolver (client : JwksClient) (b : JwtBackendBuilder) :
    Except AuthError (KeyResolver lib) :=
  match b.staticKey, b.jwksUrl with
  | none, none => .error (.configuration
    "JWT key source is required (call hmac_secret, rsa_pem, ec_pem, or jwks_url)")
  | some _, some _ => .error (.configuration
    "JWT backend cannot use both a static key and a JWKS URL")
  | some source, none => b.buildStaticResolver lib source
  | none, some url => b.buildJwksResolver lib client url

def build (client : JwksClient) (b : JwtBackendBuilder) : Except AuthError (JwtBackend lib) :=
  (b.buildResolver lib client).map fun keyResolver =>
    { keyResolver := keyResolver
      tokenSource := b.tokenSource
      claimsMapper := b.claimsMapper.getD standardClaimsMapper }

end JwtBackendBuilder

/-! ## Requests -/

/-- The prefix is compared without regard to ASCII case. -/
def extractBearerToken (headerValue : List Char) : Option (List Char) :=
  if lowercase (headerValue.take 7) = "bearer ".toList then some (headerValue.drop 7) else none

def stripBearerPrefix (text : List Char) : List Char :=
  let trimmed := text.dropWhile isWhitespace
  if 7 ≤ trimmed.length ∧ lowercase (trimmed.take 6) = "bearer".toList ∧
      (trimmed[6]? = some ' ' ∨ trimmed[6]? = some '\t') then
    (trimmed.drop 7).dropWhile isWhitespace
  else trimmed

/-- The loop over the cookie pairs; a second match gives up. -/
def findCookie (cookiePrefix : List Char) (found : Option (List Char)) :
    List (List Char) → Option (List Char)
  | [] => found
  | pair :: rest =>
    if cookiePrefix <+: trim pair then
      match found with
      | some _ => none
      | none => findCookie cookiePrefix (some ((trim pair).drop cookiePrefix.length)) rest
    else findCookie cookiePrefix found rest

def TokenSource.extractToken (source : TokenSource) (headers : HeaderMap) : Option String :=
  (match source with
  | bearerHeader =>
    ((headers.get "authorization").bind HeaderValue.toStr).bind extractBearerToken
  | cookie name => do
    let cookies ← (headers.get "cookie").bind HeaderValue.toStr
    findCookie (name.toList ++ ['=']) none (cookies.splitOn ';')
  | header name =>
    -- a `HeaderName` is lower case
    ((headers.get (String.ofList (lowercase name.toList))).bind HeaderValue.toStr).map
      stripBearerPrefix).map String.ofList

section
variable {lib : JsonWebToken}

/-- How a key store answers for a `kid`. -/
abbrev FindKey (lib : JsonWebToken) := String → Except AuthError (PreparedKey lib)

/-- The `Validation` of the JWKS path, for the key's algorithm. -/
def JwksKeyStore.validation (store : JwksKeyStore) (algorithm : Algorithm) : Validation :=
  let validation := Validation.new algorithm
  let validation := { validation with
    validateExp := store.validateExp
    validateNbf := store.validateNbf
    leeway := store.leewaySecs }
  let validation := if store.validateExp = false then
    { validation with requiredSpecClaims := validation.requiredSpecClaims.erase "exp" }
    else validation
  let validation := match store.audience with
    | some aud => { validation with aud := some [aud] }
    | none => validation
  match store.issuer with
  | some iss => { validation with iss := some [iss] }
  | none => validation

def JwksKeyStore.resolveKey (store : JwksKeyStore) (findKey : FindKey lib) (token : String) :
    Except AuthError (lib.DecodingKey × Validation) := do
  let header ← (lib.decodeHeader token).mapError fun e =>
    let reason := e.text
    .tokenValidation s!"Invalid JWT header: {reason}"
  let alg := header.alg.toText
  match header.kid with
  | none => throw (.tokenValidation "JWT missing 'kid' header")
  | some kid =>
    if header.alg ∉ store.allowedAlgorithms then
      throw (.tokenValidation s!"Algorithm {alg} is not in the JWKS allow-list")
    let prepared ← findKey kid
    let keyAlg := prepared.algorithm.toText
    if prepared.algorithm ≠ header.alg then
      throw (.tokenValidation s!"JWT alg {alg} does not match JWKS key alg {keyAlg}")
    return (prepared.key, store.validation prepared.algorithm)

/-- A token that gets as far as the lookup of its key. -/
structure JwksKeyStore.Asks (store : JwksKeyStore) (lib : JsonWebToken) (token : String)
    (header : Header) (kid : String) : Prop where
  decoded : lib.decodeHeader token = .ok header
  named : header.kid = some kid
  allowed : header.alg ∈ store.allowedAlgorithms

/-- `resolve_key` from the lookup on. -/
theorem JwksKeyStore.Asks.resolveKey {store : JwksKeyStore} {token : String} {header : Header}
    {kid : String} (asks : store.Asks lib token header kid) (findKey : FindKey lib) :
    store.resolveKey findKey token = (do
      let prepared ← findKey kid
      let alg := header.alg.toText
      let keyAlg := prepared.algorithm.toText
      if prepared.algorithm ≠ header.alg then
        throw (.tokenValidation s!"JWT alg {alg} does not match JWKS key alg {keyAlg}")
      return (prepared.key, store.validation prepared.algorithm)) := by
  have allowed : ¬ header.alg ∉ store.allowedAlgorithms := not_not.mpr asks.allowed
  simp only [JwksKeyStore.resolveKey, asks.decoded, Except.mapError, bind, Except.bind, asks.named,
    if_neg allowed]

theorem JwksKeyStore.resolveKey_ok {store : JwksKeyStore} {findKey : FindKey lib} {token : String}
    {key : lib.DecodingKey} {validation : Validation} :
    store.resolveKey findKey token = .ok (key, validation) ↔ ∃ header kid,
      store.Asks lib token header kid ∧ findKey kid = .ok ⟨key, header.alg⟩ ∧
        validation = store.validation header.alg := by
  constructor
  · intro h
    obtain ⟨header, decoded, h⟩ := Fallible.bind_ok h
    have decoded := Fallible.mapError_ok decoded
    cases named : header.kid with
    | none =>
      simp only [named] at h
      cases h
    | some kid =>
      simp only [named] at h
      split at h
      next => cases h
      next allowed =>
        obtain ⟨prepared, found, h⟩ := Fallible.bind_ok h
        split at h
        next => cases h
        next same =>
          rw [ne_eq, not_not] at same
          cases h
          refine ⟨header, kid, ⟨decoded, named, not_not.mp allowed⟩, ?_, by rw [same]⟩
          rw [found, ← same]
  · rintro ⟨header, kid, asks, found, rfl⟩
    rw [asks.resolveKey, found]
    exact if_neg (fun differs => differs rfl)

def decodeJwtError (e : JwtError) : AuthError :=
  let reason := e.text
  match e.kind with
  | .expiredSignature => .tokenExpired
  | .invalidToken | .invalidSignature => .invalidCredentials s!"Invalid JWT: {reason}"
  | .other => .tokenValidation s!"JWT validation failed: {reason}"

/-- The key and the `Validation` a token is decoded with. -/
def KeyResolver.resolve (findKey : FindKey lib) (token : String) :
    KeyResolver lib → Except AuthError (lib.DecodingKey × Validation)
  | static key => .ok (key.key, key.validation)
  | jwks store => store.resolveKey findKey token

def JwtBackend.authenticate (backend : JwtBackend lib) (findKey : FindKey lib) (now : Nat)
    (headers : HeaderMap) (_uri : String) : Answer :=
  match backend.tokenSource.extractToken headers with
  | none => .ok none
  | some token => do
    let (key, validation) ← backend.keyResolver.resolve findKey token
    let claims ← (lib.decode token key validation now).mapError decodeJwtError
    let identity ← backend.claimsMapper claims
    return some identity

/-- One of the chain's backends. -/
def JwtBackend.toAuthBackend (backend : JwtBackend lib) (findKey : FindKey lib) (now : Nat) :
    AuthBackend :=
  ⟨"jwt", backend.authenticate findKey now⟩

end

end RustyGasket
