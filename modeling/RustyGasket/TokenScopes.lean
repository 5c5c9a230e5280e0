import Mathlib.Data.List.Dedup
import RustyGasket.Guards
import RustyGasket.Jwt
import RustyGasket.Words

/-!
# From a token's `scope` claim to a guarded handler

The two mappers of claims, the words of the claim and the guards that ask for them.
-/

namespace RustyGasket

inductive ClientIdClaim
  | ignore
  | preserve
  deriving DecidableEq, Repr

/-- Kept on the identity as a typed attribute. -/
structure OAuthTokenClaims where
  clientId : Option String
  deriving DecidableEq, Repr

structure OAuthClaimsMapper where
  authMethod : String
  clientId : ClientIdClaim
  deriving DecidableEq, Repr

namespace OAuthClaimsMapper

def new : OAuthClaimsMapper := ⟨"oauth-jwt", .preserve⟩

/-- The identity, with the attribute it comes with. -/
def mapClaims (mapper : OAuthClaimsMapper) (claims : Json) :
    Except AuthError (Identity × Option OAuthTokenClaims) :=
  let clientId := match mapper.clientId with
    | .ignore => none
    | .preserve => (claims.get "client_id").bind Json.asStr
  let oauthClaims := if mapper.clientId = .preserve then some ⟨clientId⟩ else none
  (mapStandardClaims mapper.authMethod claims).map fun identity => (identity, oauthClaims)

/-- What authorization sees of it. -/
def toClaimsMapper (mapper : OAuthClaimsMapper) : ClaimsMapper :=
  fun claims => (mapper.mapClaims claims).map Prod.fst

theorem toClaimsMapper_eq (mapper : OAuthClaimsMapper) :
    mapper.toClaimsMapper = mapStandardClaims mapper.authMethod := by
  funext claims
  rw [toClaimsMapper, mapClaims]
  cases mapStandardClaims mapper.authMethod claims <;> rfl

end OAuthClaimsMapper

inductive BuiltInMapper
  | standard
  | oauth (mapper : OAuthClaimsMapper)
  deriving DecidableEq, Repr

namespace BuiltInMapper

def toClaimsMapper : BuiltInMapper → ClaimsMapper
  | standard => standardClaimsMapper
  | oauth mapper => mapper.toClaimsMapper

theorem toClaimsMapper_eq (mapper : BuiltInMapper) :
    ∃ authMethod, mapper.toClaimsMapper = mapStandardClaims authMethod := by
  cases mapper with
  | standard => exact ⟨_, rfl⟩
  | oauth mapper => exact ⟨_, mapper.toClaimsMapper_eq⟩

end BuiltInMapper

/-! ## The scopes of some claims -/

/-- The claims grant a scope: it is a word of their `scope` text. -/
def Grants (claims : Json) (scope : String) : Prop :=
  ∃ text, claims.get "scope" = some (.string text) ∧
    Words.IsWord isWhitespace scope.toList text.toList

theorem asStr_eq_some {value : Option Json} {text : String} :
    value.bind Json.asStr = some text ↔ value = some (.string text) := by
  constructor
  · intro h
    obtain ⟨json, rfl, read⟩ := Option.bind_eq_some_iff.mp h
    cases json <;> cases read
    rfl
  · rintro rfl
    rfl

theorem mem_splitWhitespace {word text : List Char} :
    word ∈ splitWhitespace text ↔ Words.IsWord isWhitespace word text :=
  Words.mem_words_iff

theorem mem_scopeClaims {claims : Json} {scope : String} :
    scope ∈ scopeClaims claims ↔ Grants claims scope := by
  unfold scopeClaims Grants
  cases read : (claims.get "scope").bind Json.asStr with
  | none =>
    refine ⟨nofun, ?_⟩
    rintro ⟨text, carried, -⟩
    rw [asStr_eq_some.mpr carried] at read
    cases read
  | some text =>
    rw [asStr_eq_some.mp read]
    simp only [List.mem_dedup, List.mem_map, mem_splitWhitespace]
    constructor
    · rintro ⟨word, own, rfl⟩
      exact ⟨text, rfl, by rwa [String.toList_ofList]⟩
    · rintro ⟨_, ⟨⟩, own⟩
      exact ⟨scope.toList, own, String.ofList_toList⟩

theorem mapStandardClaims_ok {authMethod : String} {claims : Json} {identity : Identity}
    (h : mapStandardClaims authMethod claims = .ok identity) :
    claims.get "sub" = some (.string identity.subject) ∧
      ∀ scope, (Guard.requireScope scope).admits identity = true ↔ Grants claims scope := by
  unfold mapStandardClaims at h
  cases read : (claims.get "sub").bind Json.asStr with
  | none =>
    rw [read] at h
    cases h
  | some subject =>
    rw [read] at h
    cases h
    refine ⟨asStr_eq_some.mp read, fun scope => ?_⟩
    rw [Guard.admits, List.contains_iff_mem, mem_scopeClaims]

theorem mapStandardClaims_total {claims : Json} {subject : String}
    (carried : claims.get "sub" = some (.string subject)) (authMethod : String) :
    ∃ identity, mapStandardClaims authMethod claims = .ok identity ∧
      identity.subject = subject := by
  unfold mapStandardClaims
  rw [asStr_eq_some.mpr carried]
  exact ⟨_, rfl, rfl⟩

/-! ## A handler that asks for scopes -/

/-- A chain of one backend authenticates whom the backend does. -/
theorem single_verdict {backend : AuthBackend} {fallback : UnauthenticatedPolicy}
    {headers : HeaderMap} {uri : String} {identity : Identity} :
    AuthChain.verdict ⟨[backend], fallback⟩ headers uri = .authenticated identity ↔
      backend.authenticate headers uri = .ok (some identity) := by
  unfold AuthChain.verdict
  by_cases silent : backend.authenticate headers uri = .ok none
  · rw [List.find?_cons_of_neg (by simp [silent]), List.find?_nil, silent]
    cases fallback <;> simp
  · rw [List.find?_cons_of_pos (by simp [silent])]
    dsimp only
    cases answer : backend.authenticate headers uri with
    | error => simp [Verdict.ofAnswer]
    | ok found =>
      cases found with
      | none => exact absurd answer silent
      | some => simp [Verdict.ofAnswer]

section
variable {lib : JsonWebToken} (resolver : KeyResolver lib) (source : TokenSource)
  (mapper : BuiltInMapper) (findKey : FindKey lib) (now : Nat) (fallback : UnauthenticatedPolicy)
  (auditLogger : Bool)

/-- The middleware of an app whose one backend is a JWT backend. -/
def jwtState : AuthMiddlewareState where
  chain := ⟨[JwtBackend.toAuthBackend ⟨resolver, source, mapper.toClaimsMapper⟩ findKey now],
    fallback⟩
  auditLogger := auditLogger

/-- The request carries a token that the key it names verifies, with these claims. -/
def Verified (headers : HeaderMap) (claims : Json) : Prop :=
  ∃ token key validation, source.extractToken headers = some token ∧
    resolver.resolve findKey token = .ok (key, validation) ∧
    lib.decode token key validation now = .ok claims

variable {resolver source mapper findKey now fallback auditLogger}

theorem jwt_verdict {headers : HeaderMap} {uri : String} {identity : Identity} :
    (jwtState resolver source mapper findKey now fallback auditLogger).chain.verdict headers uri =
        .authenticated identity ↔
      ∃ claims, Verified resolver source findKey now headers claims ∧
        mapper.toClaimsMapper claims = .ok identity := by
  rw [jwtState, single_verdict, JwtBackend.toAuthBackend]
  dsimp only [JwtBackend.authenticate]
  constructor
  · intro h
    cases extracted : source.extractToken headers with
    | none =>
      rw [extracted] at h
      cases h
    | some token =>
      rw [extracted] at h
      obtain ⟨⟨key, validation⟩, resolved, h⟩ := Fallible.bind_ok h
      obtain ⟨claims, decoded, h⟩ := Fallible.bind_ok h
      obtain ⟨identity', mapped, h⟩ := Fallible.bind_ok h
      cases h
      exact ⟨claims, ⟨token, key, validation, extracted, resolved,
        Fallible.mapError_ok decoded⟩, mapped⟩
  · rintro ⟨claims, ⟨token, key, validation, extracted, resolved, decoded⟩, mapped⟩
    simp only [extracted, resolved, decoded, Except.mapError, mapped, bind, Except.bind, pure,
      Except.pure]

/-- **Behind JWT authentication a handler runs for the scopes in the token.** With guards for
any scopes, whatever the fallback, it runs if and only if the request's token is verified
and its claims name a subject and, word for word, every scope asked for. -/
theorem scoped_runs_iff {Response : Type} (correlationId : String)
    (body : List Identity → AuthRequest → Response) (scope : String) (scopes : List String)
    (request : AuthRequest) :
    (∃ response, (protectedPass (jwtState resolver source mapper findKey now fallback auditLogger)
        correlationId body (.requireScope scope) (scopes.map .requireScope) request).reply =
        .ofHandler (.ok response)) ↔
      ∃ claims subject, Verified resolver source findKey now request.headers claims ∧
        claims.get "sub" = some (.string subject) ∧ ∀ s ∈ scope :: scopes, Grants claims s := by
  obtain ⟨authMethod, maps⟩ := mapper.toClaimsMapper_eq
  have verdicts := @jwt_verdict lib resolver source mapper findKey now fallback auditLogger
    request.headers request.uri
  have reply := protectedPass_reply
    (jwtState resolver source mapper findKey now fallback auditLogger) correlationId body
    (.requireScope scope) (scopes.map .requireScope) request
  have admitted (identity : Identity) :
      (∀ g ∈ Guard.requireScope scope :: scopes.map .requireScope, g.admits identity = true) ↔
      ∀ s ∈ scope :: scopes, (Guard.requireScope s).admits identity = true := by
    rw [← List.map_cons, List.forall_mem_map]
  rw [maps] at verdicts
  constructor
  · rintro ⟨response, ran⟩
    obtain ⟨identity, seen, verdict, admits, -, -⟩ := (reply.ok_iff response).mp ran
    obtain ⟨claims, verified, mapped⟩ := verdicts.mp verdict
    obtain ⟨carried, grants⟩ := mapStandardClaims_ok mapped
    refine ⟨claims, identity.subject, verified, carried, ?_⟩
    intro s asked
    exact (grants s).mp ((admitted identity).mp admits s asked)
  · rintro ⟨claims, subject, verified, carried, granted⟩
    obtain ⟨identity, mapped, -⟩ := mapStandardClaims_total carried authMethod
    have grants := (mapStandardClaims_ok mapped).2
    have verdict := verdicts.mpr ⟨claims, verified, mapped⟩
    obtain ⟨seen, handled, -⟩ := verdict ▸ reply
    refine ⟨_, (reply.ok_iff _).mpr ⟨identity, seen, verdict, ?_, handled, rfl⟩⟩
    apply (admitted identity).mpr
    intro s asked
    exact (grants s).mpr (granted s asked)

end

/-- Words joined by spaces are read back. -/
theorem words_issued {scopes : List String}
    (well : ∀ scope ∈ scopes, scope ≠ "" ∧ ∀ c ∈ scope.toList, isWhitespace c = false) :
    Words.words isWhitespace (" ".intercalate scopes).toList = scopes.map String.toList := by
  rw [String.toList_intercalate]
  apply Words.words_intercalate rfl
  intro part own
  obtain ⟨issued, listed, rfl⟩ := List.mem_map.mp own
  obtain ⟨some_char, unbroken⟩ := well issued listed
  exact ⟨fun none => some_char (String.toList_eq_nil_iff.mp none), unbroken⟩

/-- **Scopes are granted as issued if and only if each is a word.** Issued means joined by
spaces in the claim, in any claims with a subject. -/
theorem issued_granted_iff (mapper : BuiltInMapper) (scopes : List String) :
    (∀ claims subject, claims.get "sub" = some (.string subject) →
      claims.get "scope" = some (.string (" ".intercalate scopes)) →
      ∃ identity, mapper.toClaimsMapper claims = .ok identity ∧
        ∀ scope, (Guard.requireScope scope).admits identity = true ↔ scope ∈ scopes) ↔
    ∀ scope ∈ scopes, scope ≠ "" ∧ ∀ c ∈ scope.toList, isWhitespace c = false := by
  obtain ⟨authMethod, maps⟩ := mapper.toClaimsMapper_eq
  rw [maps]
  constructor
  · intro same scope issued
    obtain ⟨identity, mapped, granted⟩ := same (.object
      [("scope", .string (" ".intercalate scopes)), ("sub", .string "")]) "" rfl rfl
    obtain ⟨text, -, word⟩ :=
      ((mapStandardClaims_ok mapped).2 scope).mp ((granted scope).mpr issued)
    exact ⟨fun empty => word.some_char (by rw [empty]; rfl), word.unbroken⟩
  · intro well claims subject carried issued
    obtain ⟨identity, mapped, -⟩ := mapStandardClaims_total carried authMethod
    refine ⟨identity, mapped, fun scope => ((mapStandardClaims_ok mapped).2 scope).trans ?_⟩
    have read := words_issued well
    rw [Grants, issued]
    constructor
    · rintro ⟨_, ⟨⟩, word⟩
      rw [← Words.mem_words_iff, read] at word
      obtain ⟨listed, member, same⟩ := List.mem_map.mp word
      exact String.toList_inj.mp same ▸ member
    · intro member
      refine ⟨_, rfl, ?_⟩
      rw [← Words.mem_words_iff, read]
      exact List.mem_map_of_mem member

end RustyGasket
