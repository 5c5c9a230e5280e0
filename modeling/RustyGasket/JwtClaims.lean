import RustyGasket.Fallible
import RustyGasket.Jwt

/-!
# Which claims an authenticated token carries

Only `exp` is ever required. An audience or an issuer that is configured is compared
when the token's claim can be read, and a token without it goes through.
-/

namespace RustyGasket

variable {lib : JsonWebToken}

/-- The claim checks of a `Validation`, without the algorithms. -/
def Validation.claimChecks (v : Validation) : Validation := { v with algorithms := [] }

theorem Validation.accepts_claimChecks (v : Validation) (now : Nat) (c : Registered) :
    v.claimChecks.accepts now c = v.accepts now c := rfl

namespace JwtBackendBuilder

/-- The builder's settings on claims. -/
structure SameSettings (b b' : JwtBackendBuilder) : Prop where
  audience : b.audience = b'.audience
  issuer : b.issuer = b'.issuer
  validateExp : b.validateExp = b'.validateExp
  validateNbf : b.validateNbf = b'.validateNbf
  leewaySecs : b.leewaySecs = b'.leewaySecs

theorem SameSettings.refl (b : JwtBackendBuilder) : SameSettings b b := ⟨rfl, rfl, rfl, rfl, rfl⟩

/-- The checks a builder stands for. -/
def claimChecks (b : JwtBackendBuilder) : Validation where
  algorithms := []
  requiredSpecClaims := if b.validateExp then ["exp"] else []
  validateExp := b.validateExp
  validateNbf := b.validateNbf
  leeway := b.leewaySecs
  aud := b.audience.map fun aud => [aud]
  iss := b.issuer.map fun iss => [iss]

theorem SameSettings.claimChecks {b b' : JwtBackendBuilder} (h : SameSettings b b') :
    b.claimChecks = b'.claimChecks := by
  simp only [JwtBackendBuilder.claimChecks, h.audience, h.issuer, h.validateExp, h.validateNbf,
    h.leewaySecs]

theorem buildValidation_claimChecks (b : JwtBackendBuilder) :
    b.buildValidation.claimChecks = b.claimChecks := by
  unfold buildValidation claimChecks
  cases b.validateExp <;> cases b.audience <;> cases b.issuer <;> rfl

end JwtBackendBuilder

theorem JwksKeyStore.validation_claimChecks {store : JwksKeyStore} {b : JwtBackendBuilder}
    (audience : store.audience = b.audience) (issuer : store.issuer = b.issuer)
    (exp : store.validateExp = b.validateExp) (nbf : store.validateNbf = b.validateNbf)
    (leeway : store.leewaySecs = b.leewaySecs) (algorithm : Algorithm) :
    (store.validation algorithm).claimChecks = b.claimChecks := by
  unfold JwksKeyStore.validation JwtBackendBuilder.claimChecks
  rw [← audience, ← issuer, ← exp, ← nbf, ← leeway]
  cases store.validateExp <;> cases store.audience <;> cases store.issuer <;> rfl

/-- What a resolver checks, whatever the token. -/
def KeyResolver.Checks (resolver : KeyResolver lib) (checks : Validation) : Prop :=
  match resolver with
  | static key => key.validation.claimChecks = checks
  | jwks store => ∀ algorithm, (store.validation algorithm).claimChecks = checks

namespace JwtBackendBuilder

theorem staticKeyOf_checks {b : JwtBackendBuilder} {algorithms : List Algorithm} {kind : String}
    {key : Except AuthError lib.DecodingKey} {resolver : KeyResolver lib}
    (h : b.staticKeyOf lib algorithms kind key = .ok resolver) : resolver.Checks b.claimChecks := by
  unfold staticKeyOf at h
  by_cases compatible : b.algorithm ∈ algorithms
  · rw [if_pos compatible] at h
    obtain ⟨key, -, rfl⟩ := Fallible.map_ok h
    exact buildValidation_claimChecks b
  · rw [if_neg compatible] at h
    cases h

theorem buildJwksResolver_checks {client : JwksClient} {b : JwtBackendBuilder} {url : String}
    {resolver : KeyResolver lib} (h : b.buildJwksResolver lib client url = .ok resolver) :
    resolver.Checks b.claimChecks := by
  obtain ⟨⟨scheme, host⟩, -, h⟩ := Fallible.bind_ok h
  simp only at h
  split at h
  · cases h
  obtain ⟨⟨⟩, -, h⟩ := Fallible.bind_ok h
  obtain ⟨⟨⟩, -, h⟩ := Fallible.bind_ok h
  split at h
  · cases h
  · cases h
    exact JwksKeyStore.validation_claimChecks rfl rfl rfl rfl rfl

/-- Both kinds of key lead to the builder's claim checks. -/
theorem build_checks {client : JwksClient} {b : JwtBackendBuilder} {backend : JwtBackend lib}
    (h : b.build lib client = .ok backend) :
    backend.keyResolver.Checks b.claimChecks ∧ backend.tokenSource = b.tokenSource ∧
      backend.claimsMapper = b.claimsMapper.getD standardClaimsMapper := by
  obtain ⟨resolver, resolved, rfl⟩ := Fallible.map_ok h
  refine ⟨?_, rfl, rfl⟩
  unfold buildResolver at resolved
  split at resolved
  · cases resolved
  · cases resolved
  · rename_i source _ _
    cases source <;> exact staticKeyOf_checks resolved
  · exact buildJwksResolver_checks resolved

end JwtBackendBuilder

theorem KeyResolver.resolve_checks {resolver : KeyResolver lib} {checks : Validation}
    (h : resolver.Checks checks) {findKey : FindKey lib} {token : String} {key : lib.DecodingKey}
    {validation : Validation} (resolved : resolver.resolve findKey token = .ok (key, validation)) :
    validation.claimChecks = checks := by
  cases resolver with
  | static key => cases resolved; exact h
  | jwks store =>
    obtain ⟨header, kid, -, -, rfl⟩ := JwksKeyStore.resolveKey_ok.mp resolved
    exact h header.alg

/-! ## What authentication guarantees -/

/-- The token's claims meet the settings. -/
structure Enforced (b : JwtBackendBuilder) (now : Nat) (c : Registered) : Prop where
  audience : ∀ aud, b.audience = some aud → ∃ names, c.aud = .parsed names ∧ aud ∈ names.toList
  issuer : ∀ iss, b.issuer = some iss → c.iss = .parsed (.single iss)
  unexpired : b.validateExp = true → ∃ exp, c.exp = .parsed exp ∧ now ≤ exp + b.leewaySecs

/-- The token carries what the settings compare, in a form that is compared: an
`aud` that is a string or a list of strings, an `iss` that is a string. -/
structure Comparable (b : JwtBackendBuilder) (claims : Json) (c : Registered) : Prop where
  audience : b.audience.isSome → c.aud.isParsed = true
  issuer : b.issuer.isSome → ∃ iss, c.iss = .parsed (.single iss)
  object : b.validateExp = true → claims.isObject = true

theorem get_of_not_object {claims : Json} (h : claims.isObject ≠ true) (key : String) :
    claims.get key = none := by
  cases claims with
  | object fields => exact absurd rfl h
  | _ => rfl

theorem isParsed_iff {α : Type} {r : TryParse α} :
    r.isParsed = true ↔ ∃ value, r = .parsed value := by
  cases r <;> simp [TryParse.isParsed]

/-- What the claim checks of a builder say of a token that passes them. -/
theorem accepts_claimChecks {b : JwtBackendBuilder} {now : Nat} {c : Registered}
    (h : b.claimChecks.accepts now c = true) :
    (b.validateExp = true → ∃ exp, c.exp = .parsed exp ∧ now ≤ exp + b.leewaySecs) ∧
    (∀ iss names, b.issuer = some iss → c.iss = .parsed names → iss ∈ names.toList) ∧
    (∀ aud names, b.audience = some aud → c.aud = .parsed names → aud ∈ names.toList) := by
  simp only [Validation.accepts, JwtBackendBuilder.claimChecks, Bool.and_eq_true] at h
  obtain ⟨⟨⟨⟨required, unexpired⟩, -⟩, issuer⟩, audience⟩ := h
  refine ⟨?_, ?_, ?_⟩
  · intro on
    obtain ⟨exp, carried⟩ : ∃ exp, c.exp = .parsed exp := by
      rw [on] at required
      exact isParsed_iff.mp (by simpa [Registered.has] using required)
    rw [on, carried] at unexpired
    exact ⟨exp, carried, of_decide_eq_true unexpired⟩
  · intro iss names configured carried
    simpa [configured, carried, TryParse.all, Names.meets] using issuer
  · intro aud names configured carried
    simpa [configured, carried, TryParse.all, Names.meets] using audience

theorem enforced_iff_comparable {b : JwtBackendBuilder} {now : Nat} {claims : Json}
    (passes : claims.isObject = true →
      b.claimChecks.accepts now (registered lib.toSeconds claims) = true) :
    Enforced b now (registered lib.toSeconds claims) ↔
      Comparable b claims (registered lib.toSeconds claims) := by
  constructor
  · intro h
    constructor
    · intro configured
      obtain ⟨aud, expected⟩ := Option.isSome_iff_exists.mp configured
      obtain ⟨names, carried, -⟩ := h.audience aud expected
      apply isParsed_iff.mpr
      exact ⟨names, carried⟩
    · intro configured
      obtain ⟨iss, expected⟩ := Option.isSome_iff_exists.mp configured
      exact ⟨iss, h.issuer iss expected⟩
    · intro on
      obtain ⟨exp, carried, -⟩ := h.unexpired on
      by_contra other
      simp [registered, get_of_not_object other, readTime] at carried
  · intro h
    by_cases object : claims.isObject = true
    · obtain ⟨unexpired, issuer, audience⟩ := accepts_claimChecks (passes object)
      refine ⟨?_, ?_, unexpired⟩
      · intro aud configured
        have parsed := h.audience (by rw [configured]; rfl)
        obtain ⟨names, carried⟩ := isParsed_iff.mp parsed
        have expected := audience aud names configured carried
        exact ⟨names, carried, expected⟩
      · intro iss configured
        obtain ⟨iss', carried⟩ := h.issuer (by rw [configured]; rfl)
        have expected : iss ∈ [iss'] := issuer iss _ configured carried
        have same : iss = iss' := List.mem_singleton.mp expected
        rw [same, carried]
    · -- nothing is carried, so nothing may be configured
      constructor
      · intro aud configured
        have carried := h.audience (by rw [configured]; rfl)
        simp [registered, get_of_not_object object, readNames, TryParse.isParsed] at carried
      · intro iss configured
        obtain ⟨iss', carried⟩ := h.issuer (by rw [configured]; rfl)
        simp [registered, get_of_not_object object, readNames] at carried
      · intro on
        exact absurd (h.object on) object

theorem authenticate_decoded {backend : JwtBackend lib} {findKey : FindKey lib} {now : Nat}
    {headers : HeaderMap} {uri : String} {identity : Identity}
    (h : backend.authenticate findKey now headers uri = .ok (some identity)) :
    ∃ token key validation claims, backend.tokenSource.extractToken headers = some token ∧
      backend.keyResolver.resolve findKey token = .ok (key, validation) ∧
      lib.decode token key validation now = .ok claims ∧
      backend.claimsMapper claims = .ok identity := by
  unfold JwtBackend.authenticate at h
  cases extracted : backend.tokenSource.extractToken headers with
  | none =>
    rw [extracted] at h
    cases h
  | some token =>
    rw [extracted] at h
    obtain ⟨⟨key, validation⟩, resolved, h⟩ := Fallible.bind_ok h
    obtain ⟨claims, decoded, h⟩ := Fallible.bind_ok h
    obtain ⟨identity', mapped, h⟩ := Fallible.bind_ok h
    cases h
    have decoded := Fallible.mapError_ok decoded
    exact ⟨token, key, validation, claims, rfl, resolved, decoded, mapped⟩

/-! ## Two tokens -/

def aliceToken : String :=
  "eyJhbGciOiJIUzI1NiIsInR5cCI6IkpXVCJ9" ++
  ".eyJzdWIiOiJhbGljZSIsImF1ZCI6Im15LWFwaSIsImV4cCI6NDEwMjQ0NDgwMH0" ++
  ".jFE15q7S5Zx6zu4Fezg2WtTfvvhq9DLONdsHkxpCGW8"

def malloryToken : String :=
  "eyJhbGciOiJIUzI1NiIsInR5cCI6IkpXVCJ9" ++
  ".eyJzdWIiOiJtYWxsb3J5IiwiZXhwIjo0MTAyNDQ0ODAwfQ" ++
  ".3MUgizmfEaH8Y3qXR97mY0ODL0Q8X3Ky-fBvoTWm1yI"

/-- The payloads of the two tokens; the second has no `aud`. -/
def signedClaims (token : String) : Option Json :=
  if token = aliceToken then some (.object
    [("aud", .string "my-api"), ("exp", .number "4102444800"), ("sub", .string "alice")])
  else if token = malloryToken then some (.object
    [("exp", .number "4102444800"), ("sub", .string "mallory")])
  else none

/-- Decimal digits only. -/
def decimalSeconds : Json → Option Nat
  | .number text => if text.toList.all Char.isDigit then
      some (text.toList.foldl (fun n c => 10 * n + (c.toNat - '0'.toNat)) 0) else none
  | _ => none

/-- The crate on the two tokens, signed with HS256 under one secret. -/
def twoTokens : JsonWebToken where
  DecodingKey := List UInt8
  fromSecret := id
  fromRsaPem := fun _ => .error ⟨.other, "InvalidKeyFormat"⟩
  fromEcPem := fun _ => .error ⟨.other, "InvalidKeyFormat"⟩
  decodeHeader := fun token => match signedClaims token with
    | some _ => .ok ⟨.HS256, none⟩
    | none => .error ⟨.invalidToken, "InvalidToken"⟩
  decode := fun token key validation now => match signedClaims token with
    | none => .error ⟨.invalidToken, "InvalidToken"⟩
    | some claims =>
      if .HS256 ∉ validation.algorithms then .error ⟨.other, "InvalidAlgorithm"⟩
      else if key ≠ utf8 "your-secret-key" then .error ⟨.invalidSignature, "InvalidSignature"⟩
      else if validation.accepts now (registered decimalSeconds claims) then .ok claims
      else .error ⟨.other, "rejected claims"⟩
  toSeconds := decimalSeconds
  decode_accepts := by
    intro token key validation now claims h _
    split at h
    · cases h
    · split_ifs at h with _ _ accepted
      cases h
      exact accepted

/-- The builder of the documentation's first example, without the issuer. -/
def audienceBuilder : JwtBackendBuilder :=
  { JwtBackendBuilder.new with
    staticKey := some (.hmac (utf8 "your-secret-key"))
    audience := some "my-api" }

def offlineClient : JwksClient := ⟨fun _ => .error "offline", id, fun _ => .error "offline"⟩

def audienceBackend : JwtBackend twoTokens where
  keyResolver := .static ⟨utf8 "your-secret-key", audienceBuilder.buildValidation⟩
  tokenSource := .bearerHeader
  claimsMapper := standardClaimsMapper

def audienceFindKey : FindKey twoTokens := fun kid => .error (.tokenValidation kid)

def aliceHeaders : HeaderMap :=
  [("authorization", .ofBytes (utf8 ("Bearer " ++ aliceToken)) (by decide +kernel))]

def malloryHeaders : HeaderMap :=
  [("authorization", .ofBytes (utf8 ("Bearer " ++ malloryToken)) (by decide +kernel))]

def jwtIdentity (subject : String) : Identity := ⟨subject, "jwt", none, [], false, false⟩

/-- **What an authenticated token carries.** It was decoded under the builder's own
claim checks, the same for a static key and for JWKS, and it meets the configured
audience, issuer and expiry exactly when it carries them in a form that is compared. -/
theorem authenticate_enforced_iff (client : JwksClient) (b : JwtBackendBuilder)
    (backend : JwtBackend lib) (built : b.build lib client = .ok backend) (findKey : FindKey lib)
    (now : Nat) (headers : HeaderMap) (uri : String) (identity : Identity)
    (authenticated : backend.authenticate findKey now headers uri = .ok (some identity)) :
    ∃ token key validation claims, b.tokenSource.extractToken headers = some token ∧
      lib.decode token key validation now = .ok claims ∧
      (b.claimsMapper.getD standardClaimsMapper) claims = .ok identity ∧
      (Enforced b now (registered lib.toSeconds claims) ↔
        Comparable b claims (registered lib.toSeconds claims)) ∧
      ∀ (b' : JwtBackendBuilder) (backend' : JwtBackend lib), b.SameSettings b' →
        b'.build lib client = .ok backend' →
        ∀ findKey' token' key' validation',
          backend'.keyResolver.resolve findKey' token' = .ok (key', validation') →
          validation'.claimChecks = validation.claimChecks := by
  obtain ⟨checks, source, mapper⟩ := JwtBackendBuilder.build_checks built
  obtain ⟨token, key, validation, claims, extracted, resolved, decoded, mapped⟩ :=
    authenticate_decoded authenticated
  have same := KeyResolver.resolve_checks checks resolved
  refine ⟨token, key, validation, claims, source ▸ extracted, decoded, mapper ▸ mapped, ?_, ?_⟩
  · apply enforced_iff_comparable
    intro object
    have accepted := lib.decode_accepts decoded object
    rw [← same, Validation.accepts_claimChecks]
    exact accepted
  · intro b' backend' settings built' findKey' token' key' validation' resolved'
    obtain ⟨checks', -, -⟩ := JwtBackendBuilder.build_checks built'
    rw [KeyResolver.resolve_checks checks' resolved', same, settings.claimChecks]

theorem alice_enforced_iff : ∃ token key validation claims,
    twoTokens.decode token key validation 1700000000 = .ok claims ∧
    (Enforced audienceBuilder 1700000000 (registered decimalSeconds claims) ↔
      Comparable audienceBuilder claims (registered decimalSeconds claims)) := by
  obtain ⟨token, key, validation, claims, -, decoded, -, enforced, -⟩ :=
    authenticate_enforced_iff offlineClient audienceBuilder audienceBackend rfl audienceFindKey
      1700000000 aliceHeaders "/" (jwtIdentity "alice") (by decide +kernel)
  exact ⟨token, key, validation, claims, decoded, enforced⟩

/-- A token without an `aud` authenticates against a configured audience. -/
theorem mallory_authenticates :
    audienceBuilder.audience = some "my-api" ∧
    audienceBuilder.build twoTokens offlineClient = .ok audienceBackend ∧
    audienceBackend.authenticate audienceFindKey 1700000000 malloryHeaders "/" =
      .ok (some (jwtIdentity "mallory")) ∧
    ∃ claims, signedClaims malloryToken = some claims ∧
      ¬ Enforced audienceBuilder 1700000000 (registered decimalSeconds claims) := by
  refine ⟨rfl, rfl, by decide +kernel, _, rfl, fun h => ?_⟩
  obtain ⟨names, carried, -⟩ := h.audience "my-api" rfl
  cases carried

end RustyGasket
