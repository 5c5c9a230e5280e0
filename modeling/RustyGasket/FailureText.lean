import RustyGasket.AuthMiddleware
import RustyGasket.KeyFreshness

/-!
# The texts of the JWT backend's failures

What the backend says itself names an algorithm, or a `kid` that `sanitize_for_log`
has cut. What `jsonwebtoken` and a failed fetch say goes into the text as it is, and
from there to the audit logger.
-/

namespace RustyGasket

/-- No character that could start a line of its own. -/
def NoControl (text : String) : Prop := ∀ c ∈ text.toList, isControl c = false

instance (text : String) : Decidable (NoControl text) :=
  decidable_of_iff (text.toList.all (!isControl ·) = true) (by simp [NoControl])

theorem noControl_append {text text' : String} :
    NoControl (text ++ text') ↔ NoControl text ∧ NoControl text' := by
  simp only [NoControl, String.toList_append, List.mem_append, or_imp, forall_and]

/-- A fixed label in front. -/
theorem noControl_label {label text : String} (plain : NoControl label) :
    NoControl (label ++ text) ↔ NoControl text := by
  rw [noControl_append, and_iff_right plain]

theorem noControl_between {left text right : String} (plain : NoControl left)
    (plain' : NoControl right) : NoControl (left ++ text ++ right) ↔ NoControl text := by
  rw [noControl_append, and_iff_left plain', noControl_label plain]

theorem Algorithm.toText_noControl (algorithm : Algorithm) : NoControl algorithm.toText := by
  cases algorithm <;> decide

def AuthError.Plain (error : AuthError) : Prop := NoControl error.toText

instance (error : AuthError) : Decidable error.Plain :=
  inferInstanceAs (Decidable (NoControl error.toText))

theorem plain_tokenValidation {reason : String} :
    (AuthError.tokenValidation reason).Plain ↔ NoControl reason :=
  noControl_label (by decide)

theorem plain_invalidCredentials {reason : String} :
    (AuthError.invalidCredentials reason).Plain ↔ NoControl reason :=
  noControl_label (by decide)

/-- `decode_jwt_error` drops the text of an expired signature alone. -/
theorem decodeJwtError_plain (e : JwtError) :
    (decodeJwtError e).Plain ↔ (e.kind ≠ .expiredSignature → NoControl e.text) := by
  unfold decodeJwtError
  cases e.kind with
  | expiredSignature =>
    have expired : AuthError.tokenExpired.Plain := by decide
    exact iff_of_true expired (fun differs => absurd rfl differs)
  | invalidToken | invalidSignature =>
    simp only [plain_invalidCredentials, ne_eq, reduceCtorEq, not_false_iff, forall_const]
    exact noControl_label (by decide)
  | other =>
    simp only [plain_tokenValidation, ne_eq, reduceCtorEq, not_false_iff, forall_const]
    exact noControl_label (by decide)

/-! ## Lookups -/

namespace Jwks

variable {lib : JsonWebToken} {crate : JwkLibrary lib} {Caller : Type}

theorem sanitizeForLog_noControl (text : String) : NoControl (sanitizeForLog text) := by
  intro c member
  rw [sanitizeForLog, String.toList_ofList] at member
  have kept := List.of_mem_filter (List.mem_of_mem_take member)
  rwa [Bool.not_eq_true'] at kept

theorem kidNotFound_plain (kid : String) : (kidNotFound kid).Plain := by
  rw [kidNotFound, plain_tokenValidation]
  exact (noControl_between (by decide) (by decide)).mpr (sanitizeForLog_noControl kid)

/-- What a task that is over came to. -/
def Phase.outcome : Phase crate → Option (Except AuthError (PreparedJwks crate))
  | .finished result => some result
  | .aborted error => some (.error (.backendError s!"JWKS fetch task did not complete: {error}"))
  | _ => none

theorem Phase.join_outcome {kid : String} {phase : Phase crate} {result : Found lib}
    (h : phase.join kid = some result) :
    ∃ outcome, phase.outcome = some outcome ∧ result = outcome.bind (·.find kid) := by
  cases phase with
  | finished outcome =>
    refine ⟨outcome, rfl, ?_⟩
    cases outcome <;> exact (Option.some.inj h).symm
  | aborted error => exact ⟨_, rfl, (Option.some.inj h).symm⟩
  | spawned | fetching | fetched | prepared => cases h

/-- The snapshot or the failed fetch that an answer came from. -/
def Origin.outcome (s : State crate Caller) :
    Origin crate → Option (Except AuthError (PreparedJwks crate))
  | .cached snapshot _ => some (.ok snapshot)
  | .awaited id => (s.tasks id).bind fun task => task.phase.outcome

/-- An answered call of `find_key`, in a run of any calls and tasks. -/
structure Lookup (crate : JwkLibrary lib) (Caller : Type) [DecidableEq Caller]
    (store : JwksKeyStore) (kid : String) where
  kids : Caller → String
  run : List (Label Caller)
  state : State crate Caller
  reached : Transition.exec (step store kids) (init crate Caller) run = some state
  caller : Caller
  asked : kids caller = kid
  result : Found lib
  origin : Origin crate
  answered : (state.pc caller).answer = some (result, origin)

namespace Lookup

variable [DecidableEq Caller] {store : JwksKeyStore} {kid : String}

def outcome (lookup : Lookup crate Caller store kid) :
    Option (Except AuthError (PreparedJwks crate)) :=
  lookup.origin.outcome lookup.state

theorem exists_outcome (lookup : Lookup crate Caller store kid) :
    ∃ outcome, lookup.outcome = some outcome ∧ lookup.result = outcome.bind (·.find kid) := by
  have decided := (reached_sound lookup.reached).decided lookup.answered
  rw [Lookup.outcome]
  cases origin : lookup.origin with
  | cached snapshot checkedAt =>
    rw [origin, Decided, lookup.asked] at decided
    exact ⟨.ok snapshot, rfl, decided.2.2.2⟩
  | awaited id =>
    rw [origin, Decided, lookup.asked] at decided
    obtain ⟨task, present, -, joined⟩ := decided
    rw [Origin.outcome, present]
    exact Phase.join_outcome joined

/-- A missing `kid` is plain: what may not be is why a fetch failed. -/
theorem result_plain (lookup : Lookup crate Caller store kid) :
    Fallible.ErrorsMeet AuthError.Plain lookup.result ↔
      ∀ error, lookup.outcome = some (.error error) → error.Plain := by
  obtain ⟨outcome, came, answer⟩ := lookup.exists_outcome
  rw [answer, came]
  cases outcome with
  | error error => simp [Except.bind, Fallible.ErrorsMeet]
  | ok snapshot =>
    refine iff_of_true ?_ fun error failed => by cases failed
    change Fallible.ErrorsMeet _ (snapshot.find kid)
    cases held : snapshot.keys kid with
    | some key =>
      rw [PreparedJwks.find, held]
      trivial
    | none =>
      rw [PreparedJwks.find, held]
      exact kidNotFound_plain kid

/-- A key that is found is the snapshot's. -/
theorem result_ok (lookup : Lookup crate Caller store kid) {key : PreparedKey lib} :
    lookup.result = .ok key ↔
      ∃ snapshot, lookup.outcome = some (.ok snapshot) ∧ snapshot.keys kid = some key := by
  obtain ⟨outcome, came, answer⟩ := lookup.exists_outcome
  rw [answer, came]
  cases outcome with
  | error error => simp [Except.bind]
  | ok snapshot =>
    change snapshot.find kid = .ok key ↔ _
    simp [PreparedJwks.find_ok]

end Lookup

end Jwks

/-! ## Requests -/

section
variable {lib : JsonWebToken} {crate : JwkLibrary lib} {Caller : Type} [DecidableEq Caller]

abbrev Jwks.Lookups (crate : JwkLibrary lib) (Caller : Type) [DecidableEq Caller] :=
  ∀ store kid, Lookup crate Caller store kid

/-- How a backend's key store answers; a static key asks none. -/
def KeyResolver.findKey (lookups : Jwks.Lookups crate Caller) : KeyResolver lib → FindKey lib
  | static _ => fun kid => .error (Jwks.kidNotFound kid)
  | jwks store => fun kid => (lookups store kid).result

namespace JwtBackend

/-- `authenticate` of a token up to the claims mapper. -/
def verify (backend : JwtBackend lib) (findKey : FindKey lib) (now : Nat) (token : String) :
    Except AuthError Json := do
  let (key, validation) ← backend.keyResolver.resolve findKey token
  (lib.decode token key validation now).mapError decodeJwtError

theorem authenticate_of_verify {backend : JwtBackend lib} {findKey : FindKey lib} {now : Nat}
    {headers : HeaderMap} {token : String} {error : AuthError} (uri : String)
    (extracted : backend.tokenSource.extractToken headers = some token)
    (failed : backend.verify findKey now token = .error error) :
    backend.authenticate findKey now headers uri = .error error := by
  unfold authenticate
  rw [extracted]
  obtain unresolved | ⟨resolved, found, undecoded⟩ := Fallible.bind_error failed
  · simp only [unresolved, bind, Except.bind]
  · simp only [found, undecoded, bind, Except.bind]

end JwtBackend

/-- What `jsonwebtoken` says of a token it does not decode, past expiry. -/
def DecodePlain (lib : JsonWebToken) (token : String) (now : Nat) (key : lib.DecodingKey)
    (validation : Validation) : Prop :=
  ∀ e, lib.decode token key validation now = .error e → e.kind ≠ .expiredSignature →
    NoControl e.text

/-- What the texts that a key store's failures take over may hold. -/
structure JwksKeyStore.PlainTexts (store : JwksKeyStore) (lookups : Jwks.Lookups crate Caller)
    (now : Nat) (token : String) : Prop where
  header : ∀ e, lib.decodeHeader token = .error e → NoControl e.text
  fetch : ∀ header kid error, store.Asks lib token header kid →
    (lookups store kid).outcome = some (.error error) → error.Plain
  decode : ∀ header kid snapshot key, store.Asks lib token header kid →
    (lookups store kid).outcome = some (.ok snapshot) →
    snapshot.keys kid = some ⟨key, header.alg⟩ →
    DecodePlain lib token now key (store.validation header.alg)

/-- The condition on a token. -/
def KeyResolver.PlainTexts (lookups : Jwks.Lookups crate Caller) (now : Nat) (token : String) :
    KeyResolver lib → Prop
  | static key => DecodePlain lib token now key.key key.validation
  | jwks store => store.PlainTexts lookups now token

theorem decode_plain {token : String} {now : Nat} {key : lib.DecodingKey}
    {validation : Validation} :
    Fallible.ErrorsMeet AuthError.Plain
        ((lib.decode token key validation now).mapError decodeJwtError) ↔
      DecodePlain lib token now key validation := by
  rw [Fallible.errorsMeet_mapError, Fallible.errorsMeet_iff]
  simp only [decodeJwtError_plain]
  rfl

/-- The backend's own checks say nothing that is not plain. -/
theorem resolveKey_plain {store : JwksKeyStore} {findKey : FindKey lib} {token : String} :
    Fallible.ErrorsMeet AuthError.Plain (store.resolveKey findKey token) ↔
      (∀ e, lib.decodeHeader token = .error e → NoControl e.text) ∧
      ∀ header kid, store.Asks lib token header kid →
        Fallible.ErrorsMeet AuthError.Plain (findKey kid) := by
  unfold JwksKeyStore.resolveKey
  rw [Fallible.errorsMeet_bind, Fallible.errorsMeet_mapError, Fallible.errorsMeet_iff]
  have labelled : ∀ e : JwtError,
      (AuthError.tokenValidation ("Invalid JWT header: " ++ e.text)).Plain ↔ NoControl e.text :=
    fun e => plain_tokenValidation.trans (noControl_label (by decide))
  refine and_congr (forall₂_congr fun e _ => labelled e) ?_
  constructor
  · intro h header kid asks
    have later := h header (by rw [asks.decoded]; rfl)
    simp only [asks.named, if_neg (not_not.mpr asks.allowed)] at later
    exact (Fallible.errorsMeet_bind.mp later).1
  · intro h header decoded
    have decoded := Fallible.mapError_ok decoded
    cases named : header.kid with
    | none => exact plain_tokenValidation.mpr (by decide)
    | some kid =>
      dsimp only
      split
      next =>
        refine plain_tokenValidation.mpr ?_
        exact (noControl_between (by decide) (by decide)).mpr header.alg.toText_noControl
      next allowed =>
        have asks : store.Asks lib token header kid := ⟨decoded, named, not_not.mp allowed⟩
        refine Fallible.errorsMeet_bind.mpr ⟨h header kid asks, fun prepared _ => ?_⟩
        split
        next =>
          refine plain_tokenValidation.mpr (noControl_append.mpr ⟨?_, ?_⟩)
          · exact (noControl_between (by decide) (by decide)).mpr header.alg.toText_noControl
          · exact prepared.algorithm.toText_noControl
        next => trivial

theorem verify_plain (lookups : Jwks.Lookups crate Caller) (backend : JwtBackend lib) (now : Nat)
    (token : String) :
    Fallible.ErrorsMeet AuthError.Plain
        (backend.verify (backend.keyResolver.findKey lookups) now token) ↔
      backend.keyResolver.PlainTexts lookups now token := by
  simp only [JwtBackend.verify, Fallible.errorsMeet_bind, decode_plain, Prod.forall]
  cases backend.keyResolver with
  | static key =>
    constructor
    · rintro ⟨-, decoded⟩
      exact decoded key.key key.validation rfl
    · intro plain
      refine ⟨trivial, fun _ _ same => ?_⟩
      cases same
      exact plain
  | jwks store =>
    change Fallible.ErrorsMeet _ (store.resolveKey _ token) ∧
      (∀ key validation, store.resolveKey _ token = .ok (key, validation) → _) ↔ _
    simp only [resolveKey_plain, JwksKeyStore.resolveKey_ok]
    constructor
    · rintro ⟨⟨header, asked⟩, decoded⟩
      refine ⟨header, ?_, ?_⟩
      · intro header kid error asks
        exact (lookups store kid).result_plain.mp (asked header kid asks) error
      · intro header kid snapshot key asks came held
        have found := (lookups store kid).result_ok.mpr ⟨snapshot, came, held⟩
        exact decoded key _ ⟨header, kid, asks, found, rfl⟩
    · intro plain
      refine ⟨⟨plain.header, fun header kid asks => ?_⟩, ?_⟩
      · exact (lookups store kid).result_plain.mpr fun error => plain.fetch header kid error asks
      · rintro key _ ⟨header, kid, asks, found, rfl⟩
        obtain ⟨snapshot, came, held⟩ := (lookups store kid).result_ok.mp found
        exact plain.decode header kid snapshot key asks came held

/-! ## The audit logger -/

/-- The text an event gives for a refusal. -/
def AuthAuditOutcome.reason : AuthAuditOutcome → Option String
  | .success | .anonymous => none
  | .denied text | .error text => some text

theorem AuthChain.tryBackends_silent {headers : HeaderMap} {uri : String} (otherwise : Answer)
    {before : List AuthBackend} (silent : ∀ b ∈ before, b.authenticate headers uri = .ok none)
    (rest : List AuthBackend) :
    (tryBackends headers uri otherwise (before ++ rest)).2 =
      (tryBackends headers uri otherwise rest).2 := by
  have none : before.find? (fun b => b.authenticate headers uri ≠ .ok none) = none :=
    List.find?_eq_none.mpr fun b member => by simp [silent b member]
  rw [tryBackends_verdict, tryBackends_verdict, List.find?_append, none, Option.none_or]

/-- What a failed chain has the logger write. -/
theorem AuthMiddleware.audit_reason {Response : Type} {state : AuthMiddlewareState}
    {request : AuthRequest} {error : AuthError} (correlationId : String)
    (next : AuthRequest → Response) (logger : state.auditLogger = true)
    (failed : (state.chain.authenticate request.headers request.uri).2 = .error error) :
    (authMiddleware state correlationId next request).audit.map (·.outcome.reason) =
      [some error.toText] := by
  have audited := (authMiddleware_failed state correlationId next request failed).audit
  rw [Audited, if_pos logger] at audited
  obtain ⟨event, one, -, -, ⟨denied, -⟩ | ⟨wrong, -⟩⟩ := audited
  · rw [one, List.map_singleton, denied]
    rfl
  · rw [one, List.map_singleton, wrong]
    rfl

section
variable {Response : Type} (backend : JwtBackend lib) (lookups : Jwks.Lookups crate Caller)
  (now : Nat) (correlationId : String) (next : AuthRequest → Response) (request : AuthRequest)

/-- What the middleware does when the backends before this one have no opinion. -/
def JwtBackend.pass (before after : List AuthBackend) (fallback : UnauthenticatedPolicy) :
    Pass Response :=
  let findKey := backend.keyResolver.findKey lookups
  let chain := ⟨before ++ backend.toAuthBackend findKey now :: after, fallback⟩
  authMiddleware ⟨chain, true⟩ correlationId next request

variable {backend lookups now correlationId next request} in
/-- A token that the backend fails is reported in one event, with the error's text. -/
theorem JwtBackend.pass_reason {before after : List AuthBackend}
    {fallback : UnauthenticatedPolicy} {token : String} {error : AuthError}
    (silent : ∀ b ∈ before, b.authenticate request.headers request.uri = .ok none)
    (extracted : backend.tokenSource.extractToken request.headers = some token)
    (failed : backend.verify (backend.keyResolver.findKey lookups) now token = .error error) :
    (backend.pass lookups now correlationId next request before after fallback).audit.map
      (·.outcome.reason) = [some error.toText] := by
  apply AuthMiddleware.audit_reason _ _ rfl
  rw [AuthChain.authenticate, AuthChain.tryBackends_silent _ silent]
  have answer := authenticate_of_verify request.uri extracted failed
  unfold AuthChain.tryBackends
  simp only [toAuthBackend, answer]

/-- Where the backend's own code fails a token, the logger gets no control character,
whatever else is in the chain. -/
def JwtBackend.OwnReasonsPlain : Prop :=
  ∀ before after fallback token error,
    (∀ b ∈ before, b.authenticate request.headers request.uri = .ok none) →
    backend.tokenSource.extractToken request.headers = some token →
    backend.verify (backend.keyResolver.findKey lookups) now token = .error error →
    ∀ reason, some reason ∈ (backend.pass lookups now correlationId next request before after
      fallback).audit.map (·.outcome.reason) → NoControl reason

variable {backend lookups now correlationId next request} in
/-- The backend alone in the chain. -/
theorem JwtBackend.OwnReasonsPlain.plain
    (h : backend.OwnReasonsPlain lookups now correlationId next request) {token : String}
    {error : AuthError} (extracted : backend.tokenSource.extractToken request.headers = some token)
    (failed : backend.verify (backend.keyResolver.findKey lookups) now token = .error error) :
    error.Plain := by
  have first := List.forall_mem_nil fun b : AuthBackend =>
    b.authenticate request.headers request.uri = .ok none
  apply h [] [] .reject token error first extracted failed
  rw [pass_reason first extracted failed]
  exact List.mem_singleton_self _

/-- **The reasons are plain exactly when** what the libraries say of the token and of
the fetch is: the texts of `jsonwebtoken`'s errors, and of a failed fetch that this
request awaited. -/
theorem ownReasonsPlain_iff :
    backend.OwnReasonsPlain lookups now correlationId next request ↔
      ∀ token, backend.tokenSource.extractToken request.headers = some token →
        backend.keyResolver.PlainTexts lookups now token := by
  constructor
  · intro h token extracted
    rw [← verify_plain, Fallible.errorsMeet_iff]
    intro error failed
    exact h.plain extracted failed
  · intro h before after fallback token error silent extracted failed
    have plain := Fallible.errorsMeet_iff.mp ((verify_plain lookups backend now token).mpr
      (h token extracted)) error failed
    intro reason given
    rw [JwtBackend.pass_reason silent extracted failed] at given
    cases List.mem_singleton.mp given
    exact plain

end

end

/-! ## A forged line -/

/-- Its header is an object whose `alg` is `RS256`, a line feed and `ok`. -/
def forgedToken : String := "eyJhbGciOiJSUzI1Nlxub2sifQ.e30.x"

/-- What the crate says of an algorithm it does not know. -/
def unknownVariant (variant : String) : JwtError where
  kind := .other
  text := "JSON error: unknown variant `" ++ variant ++ "`, expected one of `HS256`, `HS384`, " ++
    "`HS512`, `ES256`, `ES384`, `RS256`, `RS384`, `RS512`, `PS256`, `PS384`, `PS512`, `EdDSA` " ++
    "at line 1 column 18"

theorem unknownVariant_echoes {variant : String} (h : NoControl (unknownVariant variant).text) :
    NoControl variant := by
  simp only [unknownVariant, noControl_append] at h
  exact h.1.1.1.2

def echoingTokens : JsonWebToken :=
  { Jwks.plainTokens with
    decodeHeader := fun token => if token = forgedToken then .error (unknownVariant "RS256\nok")
      else .error ⟨.invalidToken, "InvalidToken"⟩ }

def noKeys : JwkLibrary echoingTokens where
  Jwk := Empty
  keyId := nofun
  keyAlgorithm := nofun
  fromJwk := nofun
  fromSlice := fun _ => .ok []

/-- Each is the only call of its run, and its fetch is cancelled. -/
def cancelledLookups : Jwks.Lookups noKeys Unit := fun _ kid =>
  { kids := fun _ => kid
    run := [.run (), .run (), .run (), .run (), .run (), .task 0 (.abort "task 1 was cancelled"),
      .run ()]
    state := _
    reached := rfl
    caller := ()
    asked := rfl
    result := _
    origin := _
    answered := rfl }

def forgedRequest : AuthRequest where
  headers := [("authorization", .ofBytes (utf8 ("Bearer " ++ forgedToken)) (by decide +kernel))]
  uri := "/"
  extensions := ⟨some "r-1", none, none, none, none⟩

def forgedBackend : JwtBackend echoingTokens :=
  ⟨.jwks Jwks.defaultStore, .bearerHeader, standardClaimsMapper⟩

/-- The line feed of the token's header is in what the logger gets. -/
theorem forged_line :
    forgedBackend.tokenSource.extractToken forgedRequest.headers = some forgedToken ∧
    (forgedBackend.pass cancelledLookups 0 "c-1" (fun _ => ()) forgedRequest [] []
      .reject).audit.map (·.outcome.reason) = [some ("Token validation failed: " ++
        ("Invalid JWT header: " ++ (unknownVariant "RS256\nok").text))] ∧
    ¬ forgedBackend.OwnReasonsPlain cancelledLookups 0 "c-1" (fun _ => ()) forgedRequest := by
  have extracted : forgedBackend.tokenSource.extractToken forgedRequest.headers =
      some forgedToken := by decide +kernel
  have failed : forgedBackend.verify (forgedBackend.keyResolver.findKey cancelledLookups) 0
      forgedToken = .error (.tokenValidation
        ("Invalid JWT header: " ++ (unknownVariant "RS256\nok").text)) := rfl
  refine ⟨extracted, JwtBackend.pass_reason (List.forall_mem_nil _) extracted failed, ?_⟩
  intro plain
  have text := plain_tokenValidation.mp (plain.plain extracted failed)
  have variant := unknownVariant_echoes ((noControl_label (by decide)).mp text)
  exact absurd variant (by decide)

end RustyGasket
