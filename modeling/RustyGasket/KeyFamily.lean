import RustyGasket.JwtClaims
import RustyGasket.KeyFreshness

/-!
# Which algorithm goes with which key

What a `JwtBackendBuilder` builds, and under which algorithm a token is verified with which
key: never with the algorithm of another kind of key, whatever the token's header says.
-/

namespace RustyGasket

inductive KeyFamily
  | hmac
  | rsa
  | ec
  | ed
  deriving DecidableEq, Repr

def Algorithm.family : Algorithm → KeyFamily
  | HS256 | HS384 | HS512 => .hmac
  | RS256 | RS384 | RS512 | PS256 | PS384 | PS512 => .rsa
  | ES256 | ES384 => .ec
  | EdDSA => .ed

namespace Algorithm

theorem family_hmac (a : Algorithm) : a ∈ [HS256, HS384, HS512] ↔ a.family = .hmac := by
  cases a <;> decide

theorem family_rsa (a : Algorithm) :
    a ∈ [RS256, RS384, RS512, PS256, PS384, PS512] ↔ a.family = .rsa := by
  cases a <;> decide

theorem family_ec (a : Algorithm) : a ∈ [ES256, ES384] ↔ a.family = .ec := by
  cases a <;> decide

end Algorithm

variable {lib : JsonWebToken}

namespace StaticKeySource

def family : StaticKeySource → KeyFamily
  | hmac _ => .hmac
  | rsaPem _ => .rsa
  | ecPem _ => .ec

/-- The key the crate reads from the source. -/
def Reads (lib : JsonWebToken) : StaticKeySource → lib.DecodingKey → Prop
  | hmac secret, key => lib.fromSecret secret = key
  | rsaPem pem, key => lib.fromRsaPem pem = .ok key
  | ecPem pem, key => lib.fromEcPem pem = .ok key

end StaticKeySource

namespace JwtBackendBuilder

variable {b : JwtBackendBuilder} {client : JwksClient}

theorem staticKeyOf_ok_iff {algorithms : List Algorithm} {kind : String}
    {key : Except AuthError lib.DecodingKey} {resolver : KeyResolver lib} :
    b.staticKeyOf lib algorithms kind key = .ok resolver ↔
      b.algorithm ∈ algorithms ∧ ∃ own, key = .ok own ∧
        resolver = .static ⟨own, b.buildValidation⟩ := by
  rw [staticKeyOf]
  by_cases compatible : b.algorithm ∈ algorithms
  · rw [if_pos compatible]
    constructor
    · intro h
      obtain ⟨own, read, rfl⟩ := Fallible.map_ok h
      exact ⟨compatible, own, read, rfl⟩
    · rintro ⟨-, own, rfl, rfl⟩
      rfl
  · rw [if_neg compatible]
    exact ⟨nofun, fun h => absurd h.1 compatible⟩

/-- A static key is built for an algorithm of its own family only. -/
theorem buildStaticResolver_ok_iff {source : StaticKeySource} {resolver : KeyResolver lib} :
    b.buildStaticResolver lib source = .ok resolver ↔ b.algorithm.family = source.family ∧
      ∃ key, source.Reads lib key ∧ resolver = .static ⟨key, b.buildValidation⟩ := by
  cases source with
  | hmac secret =>
    rw [buildStaticResolver, staticKeyOf_ok_iff]
    refine and_congr ?_ ?_
    · exact Algorithm.family_hmac b.algorithm
    · simp [StaticKeySource.Reads]
  | rsaPem pem =>
    rw [buildStaticResolver, staticKeyOf_ok_iff]
    refine and_congr ?_ ?_
    · exact Algorithm.family_rsa b.algorithm
    · simp only [Fallible.mapError_ok_iff, StaticKeySource.Reads]
  | ecPem pem =>
    rw [buildStaticResolver, staticKeyOf_ok_iff]
    refine and_congr ?_ ?_
    · exact Algorithm.family_ec b.algorithm
    · simp only [Fallible.mapError_ok_iff, StaticKeySource.Reads]

/-- What a JWKS endpoint has to be like. -/
structure JwksUsable (b : JwtBackendBuilder) (client : JwksClient) (url : String) : Prop where
  url : ∃ scheme host, client.parseUrl url = .ok (scheme, some host) ∧ host ≠ "" ∧
    (scheme = "https" ∨ scheme = "http" ∧ b.jwksAllowHttp = true)
  client : client.buildClient b.jwksTimeout = .ok ()
  algorithms : b.jwksAllowedAlgorithms ≠ some []

def jwksStore (b : JwtBackendBuilder) (url : String) : JwksKeyStore where
  url := url
  cacheTtl := b.jwksCacheTtl
  maxBodySize := b.jwksMaxBodySize
  allowedAlgorithms := b.jwksAllowedAlgorithms.getD defaultJwksAlgorithms
  audience := b.audience
  issuer := b.issuer
  validateExp := b.validateExp
  validateNbf := b.validateNbf
  leewaySecs := b.leewaySecs

theorem checkScheme_ok_iff {allowHttp : Bool} {url scheme : String} :
    checkScheme client allowHttp url scheme = .ok () ↔
      scheme = "https" ∨ scheme = "http" ∧ allowHttp = true := by
  unfold checkScheme
  split
  next => simp
  next => cases allowHttp <;> simp
  next notHttps notHttp =>
    refine ⟨nofun, fun h => ?_⟩
    obtain https | ⟨http, -⟩ := h
    · exact (notHttps https).elim
    · exact (notHttp http).elim

theorem buildJwksResolver_ok_iff {url : String} {resolver : KeyResolver lib} :
    b.buildJwksResolver lib client url = .ok resolver ↔
      b.JwksUsable client url ∧ resolver = .jwks (b.jwksStore url) := by
  constructor
  · intro h
    obtain ⟨⟨scheme, host⟩, parsed, h⟩ := Fallible.bind_ok h
    have parsed := Fallible.mapError_ok parsed
    simp only at h
    split at h
    next => cases h
    next hosted =>
      obtain ⟨⟨⟩, secure, h⟩ := Fallible.bind_ok h
      obtain ⟨⟨⟩, connects, h⟩ := Fallible.bind_ok h
      have connects := Fallible.mapError_ok connects
      split at h
      next => cases h
      next some_algorithm =>
        cases h
        refine ⟨⟨?_, connects, ?_⟩, rfl⟩
        · cases host with
          | none => exact absurd rfl hosted
          | some host =>
            refine ⟨scheme, host, parsed, ?_, checkScheme_ok_iff.mp secure⟩
            rintro rfl
            exact hosted rfl
        · intro empty
          rw [empty] at some_algorithm
          exact some_algorithm rfl
  · rintro ⟨⟨⟨scheme, host, parsed, hosted, secure⟩, connects, some_algorithm⟩, rfl⟩
    have algorithms : b.jwksAllowedAlgorithms.getD defaultJwksAlgorithms ≠ [] := by
      cases restricted : b.jwksAllowedAlgorithms with
      | none => exact List.cons_ne_nil _ _
      | some algorithms =>
        rintro rfl
        exact some_algorithm restricted
    have named : ¬ (some host).all (· = "") = true := by simpa using hosted
    simp only [buildJwksResolver, parsed, Except.mapError, bind, Except.bind, if_neg named,
      checkScheme_ok_iff.mpr secure, connects, if_neg algorithms]
    rfl

/-- Where the builder's tokens get their keys. -/
def Resolves (b : JwtBackendBuilder) (lib : JsonWebToken) (client : JwksClient)
    (resolver : KeyResolver lib) : Prop :=
  (∃ source key, b.staticKey = some source ∧ b.jwksUrl = none ∧
    b.algorithm.family = source.family ∧ source.Reads lib key ∧
    resolver = .static ⟨key, b.buildValidation⟩) ∨
  ∃ url, b.staticKey = none ∧ b.jwksUrl = some url ∧ b.JwksUsable client url ∧
    resolver = .jwks (b.jwksStore url)

theorem buildResolver_ok_iff {resolver : KeyResolver lib} :
    b.buildResolver lib client = .ok resolver ↔ b.Resolves lib client resolver := by
  rw [buildResolver, Resolves]
  cases static : b.staticKey with
  | none =>
    cases remote : b.jwksUrl with
    | none => simp
    | some url => simp [buildJwksResolver_ok_iff]
  | some source =>
    cases remote : b.jwksUrl with
    | none => simp [buildStaticResolver_ok_iff]
    | some url => simp

/-- **What a builder accepts.** A static key alone that the crate can read, with an algorithm
of its family; or an endpoint alone with a host, over HTTPS unless told otherwise, for at
least one algorithm. -/
theorem builds_iff (b : JwtBackendBuilder) (client : JwksClient) :
    (∃ backend, b.build lib client = .ok backend) ↔
      (∃ source key, b.staticKey = some source ∧ b.jwksUrl = none ∧
        b.algorithm.family = source.family ∧ source.Reads lib key) ∨
      ∃ url, b.staticKey = none ∧ b.jwksUrl = some url ∧ b.JwksUsable client url := by
  constructor
  · rintro ⟨backend, built⟩
    obtain ⟨resolver, resolved, rfl⟩ := Fallible.map_ok built
    obtain ⟨source, key, static, alone, family, reads, -⟩ | ⟨url, alone, remote, usable, -⟩ :=
      buildResolver_ok_iff.mp resolved
    · exact .inl ⟨source, key, static, alone, family, reads⟩
    · exact .inr ⟨url, alone, remote, usable⟩
  · intro accepted
    obtain ⟨resolver, resolves⟩ : ∃ resolver, b.Resolves lib client resolver := by
      obtain ⟨source, key, static, alone, family, reads⟩ | ⟨url, alone, remote, usable⟩ := accepted
      · exact ⟨_, .inl ⟨source, key, static, alone, family, reads, rfl⟩⟩
      · exact ⟨_, .inr ⟨url, alone, remote, usable, rfl⟩⟩
    exact ⟨_, by rw [build, buildResolver_ok_iff.mpr resolves]; rfl⟩

end JwtBackendBuilder

/-! ## What a token is verified with -/

/-- A token is decoded only under the algorithm of its header, and only if the validation
lists it. -/
def JsonWebToken.Pins (lib : JsonWebToken) : Prop :=
  ∀ token key validation now claims, lib.decode token key validation now = .ok claims →
    ∃ header, lib.decodeHeader token = .ok header ∧ header.alg ∈ validation.algorithms

theorem buildValidation_algorithms (b : JwtBackendBuilder) :
    b.buildValidation.algorithms = [b.algorithm] := by
  unfold JwtBackendBuilder.buildValidation
  cases b.validateExp <;> cases b.audience <;> cases b.issuer <;> rfl

/-- The keys a run of the key store has answered with. -/
def Jwks.AnswersOf {crate : JwkLibrary lib} {Caller : Type} (kid : Caller → String)
    (s : Jwks.State crate Caller) (findKey : FindKey lib) : Prop :=
  ∀ k key, findKey k = .ok key →
    ∃ c origin, kid c = k ∧ (s.pc c).answer = some (.ok key, origin)

/-- The key was read from a JWK of that `kid` and algorithm, in a document that was fetched. -/
def Jwks.PublishedAs {crate : JwkLibrary lib} {Caller : Type} (store : JwksKeyStore)
    (s : Jwks.State crate Caller) (kid : String) (key : PreparedKey lib) : Prop :=
  ∃ c origin snapshot jwk, Jwks.Source store s c origin snapshot ∧
    Jwks.Publishes snapshot.document kid key jwk

/-- What stands behind a token that is accepted. -/
def VerifiedWith {crate : JwkLibrary lib} {Caller : Type} (b : JwtBackendBuilder)
    (s : Jwks.State crate Caller) (header : Header) (key : lib.DecodingKey) : Prop :=
  match b.staticKey, b.jwksUrl with
  | some source, none => source.Reads lib key ∧ header.alg = b.algorithm ∧
      header.alg.family = source.family
  | none, some url => ∃ kid, header.kid = some kid ∧
      Jwks.PublishedAs (b.jwksStore url) s kid ⟨key, header.alg⟩ ∧
      header.alg ∈ b.jwksAllowedAlgorithms.getD JwtBackendBuilder.defaultJwksAlgorithms ∧
      (b.jwksAllowedAlgorithms = none → header.alg.family ≠ .hmac)
  | _, _ => False

theorem default_not_hmac :
    ∀ a ∈ JwtBackendBuilder.defaultJwksAlgorithms, a.family ≠ .hmac := by
  intro a
  cases a <;> decide

/-- **No token is verified under the algorithm of another kind of key.** With a static key it
is the algorithm the builder names, of that key's own family. With an endpoint, and in
every run of its key store, it is the one the JWK with the token's `kid` was published
for, and with the default algorithms never HMAC. -/
theorem verified_in_family {crate : JwkLibrary lib} {Caller : Type} [DecidableEq Caller]
    {b : JwtBackendBuilder} {client : JwksClient} {backend : JwtBackend lib}
    (pins : lib.Pins) (built : b.build lib client = .ok backend) {kid : Caller → String}
    {run : List (Jwks.Label Caller)} {s : Jwks.State crate Caller}
    (reached : Transition.exec (Jwks.step (b.jwksStore (b.jwksUrl.getD "")) kid)
      (Jwks.init crate Caller) run = some s)
    {findKey : FindKey lib} (answers : Jwks.AnswersOf kid s findKey) {now : Nat}
    {headers : HeaderMap} {uri : String} {identity : Identity}
    (authenticated : backend.authenticate findKey now headers uri = .ok (some identity)) :
    ∃ token header key validation claims, b.tokenSource.extractToken headers = some token ∧
      lib.decodeHeader token = .ok header ∧ lib.decode token key validation now = .ok claims ∧
      VerifiedWith b s header key := by
  obtain ⟨resolver, resolved, rfl⟩ := Fallible.map_ok built
  obtain ⟨token, key, validation, claims, extracted, resolves, decoded, -⟩ :=
    authenticate_decoded authenticated
  obtain ⟨header, heads, listed⟩ := pins token key validation now claims decoded
  refine ⟨token, header, key, validation, claims, extracted, heads, decoded, ?_⟩
  rw [VerifiedWith]
  obtain ⟨source, own, static, alone, family, reads, rfl⟩ |
    ⟨url, alone, remote, usable, rfl⟩ := JwtBackendBuilder.buildResolver_ok_iff.mp resolved
  · simp only [static, alone]
    cases resolves
    rw [buildValidation_algorithms, List.mem_singleton] at listed
    exact ⟨reads, listed, listed.symm ▸ family⟩
  · simp only [alone, remote]
    rw [remote, Option.getD_some] at reached
    obtain ⟨header', kid', asks, found, -⟩ := JwksKeyStore.resolveKey_ok.mp resolves
    cases heads.symm.trans asks.decoded
    obtain ⟨c, origin, rfl, answered⟩ := answers kid' _ found
    obtain ⟨snapshot, source, held⟩ := ((Jwks.reached_sound reached).decided answered).source
    obtain ⟨jwk, publishes⟩ := Jwks.PreparedJwks.publishes held
    refine ⟨kid c, asks.named, ⟨c, origin, snapshot, jwk, source, publishes⟩, asks.allowed, ?_⟩
    intro unrestricted
    have allowed := asks.allowed
    rw [JwtBackendBuilder.jwksStore, unrestricted, Option.getD_none] at allowed
    exact default_not_hmac header.alg allowed

/-! ## Two tokens and an endpoint -/

/-- The endpoint of a builder that has none. -/
def noJwks : JwkLibrary twoTokens where
  Jwk := Unit
  keyId := fun _ => none
  keyAlgorithm := fun _ => none
  fromJwk := fun _ => .error ⟨.other, "InvalidKeyFormat"⟩
  fromSlice := fun _ => .ok []

/-- Signed with ES256 under the key `key-1`. -/
def anaToken : String :=
  "eyJhbGciOiJFUzI1NiIsInR5cCI6IkpXVCIsImtpZCI6ImtleS0xIn0" ++
  ".eyJzdWIiOiJhbmEiLCJleHAiOjQxMDI0NDQ4MDB9" ++
  ".ul0kO262sUA8_ZIRJFuaYUESJp4173v8UnDnOAIIIp4BVx_aoBUtFYFv6yRkkwPVKmBEKNNxfx80ZPOvBUywww"

def anaClaims : Json := .object [("exp", .number "4102444800"), ("sub", .string "ana")]

def anaHeaders : HeaderMap :=
  [("authorization", .ofBytes (utf8 ("Bearer " ++ anaToken)) (by decide +kernel))]

/-- The coordinates of the public key. -/
def anaKey : String × String :=
  ("afJ07UP8QMkXcmaAiFIwUhcfdp2PV6SWsLqX48G9n5g", "ikq1tFKIZ_yjv8OYEvnEZlY93_fej5vE417G7k9CuuM")

/-- The crate on that token. -/
def oneToken : JsonWebToken where
  DecodingKey := String × String
  fromSecret := fun _ => ("", "")
  fromRsaPem := fun _ => .error ⟨.other, "InvalidKeyFormat"⟩
  fromEcPem := fun _ => .error ⟨.other, "InvalidKeyFormat"⟩
  decodeHeader := fun token =>
    if token = anaToken then .ok ⟨.ES256, some "key-1"⟩
    else .error ⟨.invalidToken, "InvalidToken"⟩
  decode := fun token key validation now =>
    if token ≠ anaToken then .error ⟨.invalidToken, "InvalidToken"⟩
    else if .ES256 ∉ validation.algorithms then .error ⟨.other, "InvalidAlgorithm"⟩
    else if key ≠ anaKey then .error ⟨.invalidSignature, "InvalidSignature"⟩
    else if validation.accepts now (registered decimalSeconds anaClaims) then .ok anaClaims
    else .error ⟨.other, "rejected claims"⟩
  toSeconds := decimalSeconds
  decode_accepts := by
    intro token key validation now claims h _
    split_ifs at h with _ _ _ accepted
    cases h
    exact accepted

/-- A JWK of the curve P-256. -/
structure EcJwk where
  kid : String
  alg : String
  x : String
  y : String
  deriving DecidableEq

def anaJwk : EcJwk := ⟨"key-1", "ES256", anaKey.1, anaKey.2⟩

/-- The endpoint's document, with that key alone. -/
def jwksBody : Bytes :=
  utf8 ("\x7b\"keys\":[\x7b\"kty\":\"EC\",\"crv\":\"P-256\",\"kid\":\"key-1\",\"alg\":\"ES256\"," ++
    "\"x\":\"afJ07UP8QMkXcmaAiFIwUhcfdp2PV6SWsLqX48G9n5g\"," ++
    "\"y\":\"ikq1tFKIZ_yjv8OYEvnEZlY93_fej5vE417G7k9CuuM\"\x7d]\x7d")

def oneJwk : JwkLibrary oneToken where
  Jwk := EcJwk
  keyId := fun jwk => some jwk.kid
  keyAlgorithm := fun jwk => some jwk.alg
  fromJwk := fun jwk => .ok (jwk.x, jwk.y)
  fromSlice := fun body => if body = jwksBody then .ok [anaJwk] else .error "expected value"

def endpointBuilder : JwtBackendBuilder :=
  { JwtBackendBuilder.new with jwksUrl := some "https://issuer.example/jwks.json" }

def endpointClient : JwksClient where
  parseUrl := fun _ => .ok ("https", some "issuer.example")
  debug := id
  buildClient := fun _ => .ok ()

def endpointBackend : JwtBackend oneToken where
  keyResolver := .jwks Jwks.defaultStore
  tokenSource := .bearerHeader
  claimsMapper := standardClaimsMapper

def anaFindKey : FindKey oneToken := fun kid =>
  if kid = "key-1" then .ok ⟨anaKey, .ES256⟩ else .error (Jwks.kidNotFound kid)

/-- One lookup of `key-1`, and the fetch it spawns. -/
def fetchRun : List (Jwks.Label Unit) :=
  [.run (), .run (), .run (), .run (), .run (), .task 0 .start,
    .task 0 (.respond (.response 200 "200 OK" [.ok jwksBody])), .task 0 .prepare, .task 0 .publish,
    .run (), .run ()]

/-- The key the lookup was answered with. -/
def answeredKey (s : Jwks.State oneJwk Unit) : Option ((String × String) × Algorithm) :=
  match (s.pc ()).answer with
  | some (.ok key, _) => some (key.key, key.algorithm)
  | _ => none

/-- Alice's token is verified under HMAC, with the secret; Ana's with the key that the endpoint
publishes for ES256. -/
theorem tokens_in_family :
    (∃ token header key validation claims,
      twoTokens.decodeHeader token = .ok header ∧
      twoTokens.decode token key validation 1700000000 = .ok claims ∧
      header.alg.family = .hmac ∧ utf8 "your-secret-key" = key) ∧
    ∃ s token header key kid,
      Transition.exec (Jwks.step Jwks.defaultStore fun _ => "key-1") (Jwks.init oneJwk Unit)
        fetchRun = some s ∧
      oneToken.decodeHeader token = .ok header ∧ header.kid = some kid ∧
      Jwks.PublishedAs Jwks.defaultStore s kid ⟨key, header.alg⟩ ∧ header.alg.family ≠ .hmac := by
  constructor
  · have pins : twoTokens.Pins := by
      intro token key validation now claims decoded
      simp only [twoTokens] at decoded ⊢
      split at decoded
      · cases decoded
      next signed =>
        rw [signed]
        refine ⟨_, rfl, ?_⟩
        split_ifs at decoded with unlisted
        exact unlisted
    have silent : Jwks.AnswersOf (fun _ => "") (Jwks.init noJwks Unit) audienceFindKey := by
      intro kid key found
      cases found
    have built : audienceBuilder.build twoTokens offlineClient = .ok audienceBackend := by rfl
    have authenticated : audienceBackend.authenticate audienceFindKey 1700000000 aliceHeaders "/" =
        .ok (some (jwtIdentity "alice")) := by decide +kernel
    have reached : Transition.exec
        (Jwks.step (audienceBuilder.jwksStore (audienceBuilder.jwksUrl.getD "")) fun _ => "")
        (Jwks.init noJwks Unit) [] = some (Jwks.init noJwks Unit) := by rfl
    obtain ⟨token, header, key, validation, claims, -, heads, decoded, reads, -, family⟩ :=
      verified_in_family pins built reached silent authenticated
    exact ⟨token, header, key, validation, claims, heads, decoded, family, reads⟩
  · have pins : oneToken.Pins := by
      intro token key validation now claims decoded
      simp only [oneToken] at decoded ⊢
      split_ifs at decoded with known listed
      rw [if_pos (not_not.mp known)]
      exact ⟨_, rfl, listed⟩
    have ran : (Transition.exec (Jwks.step Jwks.defaultStore fun _ => "key-1")
        (Jwks.init oneJwk Unit) fetchRun).bind answeredKey = some (anaKey, .ES256) := by
      decide +kernel
    obtain ⟨s, reached, answered⟩ := Option.bind_eq_some_iff.mp ran
    have answers : Jwks.AnswersOf (fun _ => "key-1") s anaFindKey := by
      intro kid key found
      unfold anaFindKey at found
      split_ifs at found with named
      cases found
      unfold answeredKey at answered
      split at answered
      next key origin decided =>
        obtain ⟨key, algorithm⟩ := key
        obtain ⟨rfl, rfl⟩ := Prod.mk.inj (Option.some.inj answered)
        exact ⟨(), origin, named.symm, decided⟩
      next => cases answered
    have built : endpointBuilder.build oneToken endpointClient = .ok endpointBackend := by rfl
    have authenticated : endpointBackend.authenticate anaFindKey 1700000000 anaHeaders "/" =
        .ok (some (jwtIdentity "ana")) := by decide +kernel
    obtain ⟨token, header, key, -, -, -, heads, -, kid, named, published, -, family⟩ :=
      verified_in_family pins built reached answers authenticated
    exact ⟨s, token, header, key, kid, reached, heads, named, published, family rfl⟩

end RustyGasket
