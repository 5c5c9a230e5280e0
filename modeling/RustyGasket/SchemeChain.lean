import RustyGasket.BasicAuth
import RustyGasket.FirstOpinion
import RustyGasket.Jwt

/-!
# Chains of header credentials

`StaticBearerBackend`, and what becomes of it in a chain with `JwtBackend`s that read
the bearer header and with `BasicAuthBackend`s. A request carries one `Authorization`
credential at most, and every backend of its scheme has an opinion on it.
-/

namespace RustyGasket

structure StaticBearerBackend where
  token : String
  subject : String
  serviceAccount : Bool
  privileged : Bool
  deriving DecidableEq, Repr

namespace StaticBearerBackend

def new (token : String) : StaticBearerBackend where
  token := token
  subject := "static-bearer"
  serviceAccount := false
  privileged := false

def identity (backend : StaticBearerBackend) : Identity where
  subject := backend.subject
  authMethod := "static-bearer"
  displayName := none
  scopes := []
  serviceAccount := backend.serviceAccount
  privileged := backend.privileged

def authenticate (backend : StaticBearerBackend) (headers : HeaderMap) (_uri : String) : Answer :=
  match headers.get "authorization" with
  | none => .ok none
  | some header => match header.toStr.bind extractBearerToken with
    | none => .ok none
    | some token =>
      if BasicAuthBackend.sameBytes (String.ofList token) backend.token then
        .ok (some backend.identity)
      else .error (.invalidCredentials "static bearer token mismatch")

/-- One of the chain's backends. -/
def toAuthBackend (backend : StaticBearerBackend) : AuthBackend :=
  ⟨"static-bearer", backend.authenticate⟩

end StaticBearerBackend

inductive Scheme
  | bearer
  | basic
  deriving DecidableEq, Repr

/-- The request has a credential of the scheme, good or bad. -/
def Scheme.Presented (headers : HeaderMap) : Scheme → Prop
  | bearer => ∃ token,
      ((headers.get "authorization").bind HeaderValue.toStr).bind extractBearerToken = some token
  | basic => ∃ username password, BasicAuthBackend.Presents headers username password

theorem lowercase_take (n : Nat) (text : List Char) :
    lowercase (text.take n) = (lowercase text).take n := by
  rw [lowercase, lowercase, List.map_take]

/-- No request presents both. -/
theorem Scheme.exclusive {headers : HeaderMap} {k k' : Scheme} (h : k.Presented headers)
    (h' : k'.Presented headers) : k = k' := by
  have differ (token : List Char) (username password : String)
      (bearer : ((headers.get "authorization").bind HeaderValue.toStr).bind extractBearerToken =
        some token) : ¬ BasicAuthBackend.Presents headers username password := by
    rintro ⟨line, text, first, shown, scheme, -⟩
    rw [first, Option.bind_some, shown, Option.bind_some, extractBearerToken] at bearer
    split at bearer
    next prefixed =>
      have six : (lowercase (text.take 7)).take 6 = lowercase (text.take 6) := by
        rw [← lowercase_take, List.take_take]
        rfl
      rw [prefixed, scheme] at six
      have apart : "bearer ".toList.take 6 ≠ "basic ".toList := by decide +kernel
      exact apart six
    next => cases bearer
  cases k with
  | bearer =>
    obtain ⟨token, bearer⟩ := h
    cases k' with
    | bearer => rfl
    | basic =>
      obtain ⟨username, password, basic⟩ := h'
      exact absurd basic (differ token username password bearer)
  | basic =>
    obtain ⟨username, password, basic⟩ := h
    cases k' with
    | bearer =>
      obtain ⟨token, bearer⟩ := h'
      exact absurd basic (differ token username password bearer)
    | basic => rfl

/-- The backend has an opinion on every request with a credential of its scheme, and on
no other. -/
def AuthBackend.Judges (backend : AuthBackend) (k : Scheme) : Prop :=
  ∀ headers uri, backend.authenticate headers uri ≠ .ok none ↔ k.Presented headers

theorem StaticBearerBackend.judges (backend : StaticBearerBackend) :
    backend.toAuthBackend.Judges .bearer := by
  intro headers uri
  show backend.authenticate headers uri ≠ .ok none ↔ _
  unfold authenticate Scheme.Presented
  cases headers.get "authorization" with
  | none => simp
  | some line =>
    simp only [Option.bind_some]
    cases line.toStr.bind extractBearerToken with
    | none => simp
    | some token =>
      by_cases same : BasicAuthBackend.sameBytes (String.ofList token) backend.token
      · simp [same]
      · simp [same]

theorem BasicAuthBackend.judges (backend : BasicAuthBackend) :
    backend.toAuthBackend.Judges .basic := by
  intro headers uri
  show backend.authenticate headers uri ≠ .ok none ↔ _
  constructor
  · intro opinion
    by_contra absent
    rw [Scheme.Presented] at absent
    exact opinion (backend.authenticate_unpresented
      (fun username password presents => absent ⟨username, password, presents⟩) uri)
  · rintro ⟨username, password, presents⟩
    rw [backend.authenticate_presented presents]
    split <;> nofun

section
variable {lib : JsonWebToken}

theorem JwtBackend.judges (backend : JwtBackend lib) (findKey : FindKey lib) (now : Nat)
    (source : backend.tokenSource = .bearerHeader) :
    (backend.toAuthBackend findKey now).Judges .bearer := by
  intro headers uri
  show backend.authenticate findKey now headers uri ≠ .ok none ↔ _
  unfold authenticate TokenSource.extractToken Scheme.Presented
  rw [source]
  simp only
  cases ((headers.get "authorization").bind HeaderValue.toStr).bind extractBearerToken with
  | none => simp
  | some token =>
    refine ⟨fun _ => ⟨token, rfl⟩, fun _ => ?_⟩
    intro silent
    simp only [Option.map_some] at silent
    obtain ⟨⟨key, validation⟩, -, silent⟩ := Fallible.bind_ok silent
    obtain ⟨claims, -, silent⟩ := Fallible.bind_ok silent
    obtain ⟨identity, -, silent⟩ := Fallible.bind_ok silent
    cases silent

variable (lib)

/-- A backend that reads the `Authorization` header. -/
inductive SchemeBackend
  | jwt (backend : JwtBackend lib) (findKey : FindKey lib) (now : Nat)
      (source : backend.tokenSource = .bearerHeader)
  | staticBearer (backend : StaticBearerBackend)
  | basicAuth (backend : BasicAuthBackend)

variable {lib}

namespace SchemeBackend

def scheme : SchemeBackend lib → Scheme
  | jwt _ _ _ _ | staticBearer _ => .bearer
  | basicAuth _ => .basic

def toAuthBackend : SchemeBackend lib → AuthBackend
  | jwt backend findKey now _ => backend.toAuthBackend findKey now
  | staticBearer backend => backend.toAuthBackend
  | basicAuth backend => backend.toAuthBackend

theorem judges (backend : SchemeBackend lib) : backend.toAuthBackend.Judges backend.scheme := by
  cases backend with
  | jwt backend findKey now source => exact backend.judges findKey now source
  | staticBearer backend => exact backend.judges
  | basicAuth backend => exact backend.judges

/-- What the backend says, if it says anything. -/
def opinion (headers : HeaderMap) (uri : String) (backend : SchemeBackend lib) : Option Verdict :=
  let answer := backend.toAuthBackend.authenticate headers uri
  if answer ≠ .ok none then some (.ofAnswer answer) else none

theorem opinion_isSome (headers : HeaderMap) (uri : String) (backend : SchemeBackend lib) :
    (backend.opinion headers uri).isSome ↔ backend.scheme.Presented headers := by
  rw [← backend.judges headers uri, opinion]
  by_cases silent : backend.toAuthBackend.authenticate headers uri = .ok none
  · simp [silent]
  · simp [silent]

/-- A chain of such backends. -/
def chain (backends : List (SchemeBackend lib)) (fallback : UnauthenticatedPolicy) : AuthChain :=
  ⟨backends.map toAuthBackend, fallback⟩

theorem chain_verdict (backends : List (SchemeBackend lib)) (fallback : UnauthenticatedPolicy)
    (headers : HeaderMap) (uri : String) :
    (chain backends fallback).verdict headers uri =
      (backends.findSome? (opinion headers uri)).getD (match fallback with
        | .allowAnonymous => .anonymous
        | .reject => .failed (.missingCredentials "No valid credentials provided")) := by
  unfold chain AuthChain.verdict
  simp only
  induction backends with
  | nil => rfl
  | cons backend rest ih =>
    rw [List.map_cons, List.find?_cons, List.findSome?_cons, opinion]
    by_cases silent : backend.toAuthBackend.authenticate headers uri = .ok none
    · rw [if_neg (not_not.mpr silent), decide_eq_false (not_not.mpr silent)]
      exact ih
    · rw [if_pos silent, decide_eq_true silent]
      rfl

/-- **Only the first of each scheme counts.** In a chain of any bearer and Basic
backends, in any order, the verdict on every request is that of the first bearer and the
first Basic backend, whichever of the two is asked first. -/
theorem verdict_of_firsts (backends : List (SchemeBackend lib)) (fallback : UnauthenticatedPolicy)
    (headers : HeaderMap) (uri : String) :
    (chain backends fallback).verdict headers uri =
        (chain (FirstOpinion.firsts scheme [.bearer, .basic] backends) fallback).verdict
          headers uri ∧
      (chain backends fallback).verdict headers uri =
        (chain (FirstOpinion.firsts scheme [.basic, .bearer] backends) fallback).verdict
          headers uri := by
  have either : ∀ order : List Scheme, (∀ k, k ∈ order) →
      (chain backends fallback).verdict headers uri =
        (chain (FirstOpinion.firsts scheme order backends) fallback).verdict headers uri := by
    intro order complete
    rw [chain_verdict, chain_verdict,
      FirstOpinion.findSome?_firsts (opinion_isSome headers uri) (fun _ _ => Scheme.exclusive)
        complete backends]
  exact ⟨either _ fun k => by cases k <;> decide, either _ fun k => by cases k <;> decide⟩

end SchemeBackend

end

end RustyGasket
