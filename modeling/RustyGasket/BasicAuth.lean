import RustyGasket.Auth
import RustyGasket.Base64
import RustyGasket.PlainText

/-!
# `BasicAuthBackend`

One user name and password, presented as `Basic` and the Base64 of `user:password`.
Which header maps present which pair is said once, by `Presents`, and the backend's
answer is read off it.
-/

namespace RustyGasket

/-- `general_purpose::STANDARD`. -/
def standardAlphabet : Base64.Alphabet Char where
  symbols := ['A', 'B', 'C', 'D', 'E', 'F', 'G', 'H', 'I', 'J', 'K', 'L', 'M', 'N', 'O', 'P',
    'Q', 'R', 'S', 'T', 'U', 'V', 'W', 'X', 'Y', 'Z', 'a', 'b', 'c', 'd', 'e', 'f',
    'g', 'h', 'i', 'j', 'k', 'l', 'm', 'n', 'o', 'p', 'q', 'r', 's', 't', 'u', 'v',
    'w', 'x', 'y', 'z', '0', '1', '2', '3', '4', '5', '6', '7', '8', '9', '+', '/']
  pad := '='
  size := rfl
  distinct := by decide +kernel
  apart := by decide +kernel

/-- `String::from_utf8`. -/
def fromUtf8 (bytes : Bytes) : Option String := String.fromUTF8? ⟨bytes.toArray⟩

theorem fromUtf8_eq_some_iff (bytes : Bytes) (text : String) :
    fromUtf8 bytes = some text ↔ utf8 text = bytes := by
  unfold fromUtf8 String.fromUTF8?
  constructor
  · intro h
    split at h
    next valid =>
      cases h
      rfl
    next => cases h
  · rintro rfl
    have valid : ByteArray.IsValidUTF8 ⟨(utf8 text).toArray⟩ := text.isValidUTF8
    rw [dif_pos valid]
    rfl

/-- `str::split_once`. -/
def splitOnce (sep : Char) : List Char → Option (List Char × List Char)
  | [] => none
  | c :: rest =>
    if c = sep then some ([], rest) else (splitOnce sep rest).map fun x => (c :: x.1, x.2)

theorem splitOnce_eq_some_iff {sep : Char} {text before after : List Char} :
    splitOnce sep text = some (before, after) ↔ text = before ++ sep :: after ∧ sep ∉ before := by
  induction text generalizing before with
  | nil => simp [splitOnce]
  | cons c rest ih =>
    unfold splitOnce
    by_cases found : c = sep
    · subst found
      rw [if_pos rfl]
      cases before with
      | nil => simp [eq_comm]
      | cons d before =>
        simp only [Option.some.injEq, Prod.mk.injEq, reduceCtorEq, false_and, List.cons_append,
          List.cons.injEq, List.mem_cons, not_or, false_iff, not_and]
        grind
    · rw [if_neg found]
      cases before with
      | nil => simp [found]
      | cons d before =>
        simp only [Option.map_eq_some_iff, Prod.exists, Prod.mk.injEq, List.cons.injEq,
          List.cons_append, List.mem_cons, not_or]
        grind

def extractBasicCredentials (headerValue : List Char) : Option (String × String) :=
  if lowercase (headerValue.take 6) = "basic ".toList then do
    let decoded ← Base64.decode standardAlphabet (trim (headerValue.drop 6))
    let decoded ← fromUtf8 decoded
    let (username, password) ← splitOnce ':' decoded.toList
    return (String.ofList username, String.ofList password)
  else none

structure BasicAuthBackend where
  username : String
  password : String
  subject : String
  serviceAccount : Bool
  privileged : Bool
  deriving DecidableEq, Repr

namespace BasicAuthBackend

def new (username password : String) : BasicAuthBackend where
  username := username
  password := password
  subject := "basic-auth"
  serviceAccount := false
  privileged := false

def identity (backend : BasicAuthBackend) : Identity where
  subject := backend.subject
  authMethod := "basic-auth"
  displayName := none
  scopes := []
  serviceAccount := backend.serviceAccount
  privileged := backend.privileged

/-- The length check and `ct_eq`. -/
def sameBytes (presented expected : String) : Bool :=
  (utf8 presented).length == (utf8 expected).length && utf8 presented == utf8 expected

def mismatch : AuthError := .invalidCredentials "basic auth credential mismatch"

def authenticate (backend : BasicAuthBackend) (headers : HeaderMap) (_uri : String) : Answer :=
  match headers.get "authorization" with
  | none => .ok none
  | some header => match header.toStr.bind extractBasicCredentials with
    | none => .ok none
    | some (username, password) =>
      let userOk := sameBytes username backend.username
      let passOk := sameBytes password backend.password
      if userOk && passOk then .ok (some backend.identity) else .error mismatch

/-- One of the chain's backends. -/
def toAuthBackend (backend : BasicAuthBackend) : AuthBackend :=
  ⟨"basic-auth", backend.authenticate⟩

theorem sameBytes_iff {presented expected : String} :
    sameBytes presented expected = true ↔ presented = expected := by
  unfold sameBytes
  rw [Bool.and_eq_true, beq_iff_eq, beq_iff_eq]
  constructor
  · rintro ⟨-, same⟩
    exact utf8_injective same
  · rintro rfl
    exact ⟨rfl, rfl⟩

/-! ## Which requests present which pair -/

/-- The text of a credential, before the encoding. -/
def credentialText (username password : String) : String := username ++ ":" ++ password

/-- How the pair is written in a header, after the scheme. -/
def payload (username password : String) : List Char :=
  Base64.encode standardAlphabet (utf8 (credentialText username password))

/-- The first `Authorization` line is visible ASCII, of the scheme `Basic` in any case,
and the rest of it between white space the canonical writing of the pair. -/
def Presents (headers : HeaderMap) (username password : String) : Prop :=
  ∃ line text, headers.get "authorization" = some line ∧ line.toStr = some text ∧
    lowercase (text.take 6) = "basic ".toList ∧
    trim (text.drop 6) = payload username password ∧ ':' ∉ username.toList

theorem extractBasicCredentials_eq_some_iff {text : List Char} {username password : String} :
    extractBasicCredentials text = some (username, password) ↔
      lowercase (text.take 6) = "basic ".toList ∧
      trim (text.drop 6) = payload username password ∧ ':' ∉ username.toList := by
  unfold extractBasicCredentials payload credentialText
  by_cases scheme : lowercase (text.take 6) = "basic ".toList
  · rw [if_pos scheme]
    constructor
    · intro h
      obtain ⟨bytes, decoded, h⟩ := Option.bind_eq_some_iff.mp h
      obtain ⟨whole, valid, h⟩ := Option.bind_eq_some_iff.mp h
      obtain ⟨⟨user, pass⟩, split, h⟩ := Option.bind_eq_some_iff.mp h
      cases h
      obtain ⟨joined, free⟩ := splitOnce_eq_some_iff.mp split
      refine ⟨scheme, ?_, by simpa using free⟩
      rw [(Base64.decode_eq_some_iff _ _ _).mp decoded, ← (fromUtf8_eq_some_iff _ _).mp valid]
      have same : whole = String.ofList user ++ ":" ++ String.ofList pass := by
        apply String.toList_inj.mp
        simp [joined]
      rw [same]
    · rintro ⟨-, written, free⟩
      rw [written, Base64.decode_encode]
      have valid := (fromUtf8_eq_some_iff _ (username ++ ":" ++ password)).mpr rfl
      have split : splitOnce ':' (username ++ ":" ++ password).toList =
          some (username.toList, password.toList) := by
        apply splitOnce_eq_some_iff.mpr
        exact ⟨by simp, free⟩
      simp only [bind, Option.bind_some, valid, split, pure, String.ofList_toList]
  · rw [if_neg scheme]
    constructor
    · nofun
    · rintro ⟨other, -⟩
      exact absurd other scheme

/-- A request presents one pair at most. -/
theorem Presents.unique {headers : HeaderMap} {u p u' p' : String} (h : Presents headers u p)
    (h' : Presents headers u' p') : u = u' ∧ p = p' := by
  obtain ⟨line, text, first, shown, pair⟩ := h
  obtain ⟨line', text', first', shown', pair'⟩ := h'
  rw [first] at first'
  cases first'
  rw [shown] at shown'
  cases shown'
  have same := (extractBasicCredentials_eq_some_iff.mpr pair).symm.trans
    (extractBasicCredentials_eq_some_iff.mpr pair')
  cases same
  exact ⟨rfl, rfl⟩

theorem presents_iff {headers : HeaderMap} {line : HeaderValue} {username password : String}
    (first : headers.get "authorization" = some line) :
    Presents headers username password ↔
      line.toStr.bind extractBasicCredentials = some (username, password) := by
  rw [Option.bind_eq_some_iff]
  simp only [extractBasicCredentials_eq_some_iff]
  constructor
  · rintro ⟨line', text, first', shown, pair⟩
    rw [first] at first'
    cases first'
    exact ⟨text, shown, pair⟩
  · rintro ⟨text, shown, pair⟩
    exact ⟨line, text, first, shown, pair⟩

theorem authenticate_presented (backend : BasicAuthBackend) {headers : HeaderMap}
    {username password : String} (presents : Presents headers username password) (uri : String) :
    backend.authenticate headers uri =
      if (username, password) = (backend.username, backend.password) then
        .ok (some backend.identity) else .error mismatch := by
  have ⟨line, _, first, _⟩ := presents
  have presented := (presents_iff first).mp presents
  unfold authenticate
  simp only [first, presented, Bool.and_eq_true, sameBytes_iff, Prod.mk.injEq]

theorem authenticate_unpresented (backend : BasicAuthBackend) {headers : HeaderMap}
    (absent : ∀ username password, ¬ Presents headers username password) (uri : String) :
    backend.authenticate headers uri = .ok none := by
  unfold authenticate
  cases first : headers.get "authorization" with
  | none => rfl
  | some line =>
    cases presented : line.toStr.bind extractBasicCredentials with
    | none => simp only [presented]
    | some pair => exact absurd ((presents_iff first).mpr presented) (absent pair.1 pair.2)

/-- What an answer says of the request. -/
def Judged (backend : BasicAuthBackend) (headers : HeaderMap) : Answer → Prop
  | .ok (some identity) => identity = backend.identity ∧
      Presents headers backend.username backend.password
  | .ok none => ∀ username password, ¬ Presents headers username password
  | .error error => error = mismatch ∧ ∃ username password,
      Presents headers username password ∧
        (username, password) ≠ (backend.username, backend.password)

/-- **The answer is the presented pair's.** For every backend and all headers: the
backend accepts exactly its own pair, rejects exactly every other pair, and passes on
every request that presents none; what presents a pair is its canonical writing only. -/
theorem authenticate_judges (backend : BasicAuthBackend) (headers : HeaderMap) (uri : String) :
    Judged backend headers (backend.authenticate headers uri) := by
  by_cases presented : ∃ username password, Presents headers username password
  · obtain ⟨username, password, presents⟩ := presented
    rw [authenticate_presented backend presents]
    split
    next same =>
      cases same
      exact ⟨rfl, presents⟩
    next differs => exact ⟨rfl, username, password, presents, differs⟩
  · have absent : ∀ username password, ¬ Presents headers username password :=
      fun username password presents => presented ⟨username, password, presents⟩
    rw [authenticate_unpresented backend absent]
    exact absent

/-! ## Writing the header -/

theorem standardAlphabet_plain {c : Char} (h : c ∈ standardAlphabet.symbols ∨ c = '=') :
    isPlain c = true ∧ isWhitespace c = false := by
  have all : ('=' :: standardAlphabet.symbols).all
      (fun c => isPlain c && !isWhitespace c) = true := by
    decide +kernel
  have member : c ∈ '=' :: standardAlphabet.symbols := by
    obtain symbol | rfl := h
    · exact List.mem_cons_of_mem _ symbol
    · exact List.mem_cons_self
  have both := List.all_eq_true.mp all c member
  rw [Bool.and_eq_true, Bool.not_eq_true'] at both
  exact both

/-- What a client sends. -/
def headerText (username password : String) : List Char :=
  "Basic ".toList ++ payload username password

theorem headerText_plain (username password : String) :
    ∀ c ∈ headerText username password, isPlain c = true := by
  intro c hc
  obtain scheme | written := List.mem_append.mp hc
  · have all : "Basic ".toList.all isPlain = true := by decide +kernel
    exact List.all_eq_true.mp all c scheme
  · exact (standardAlphabet_plain (Base64.mem_encode standardAlphabet written)).1

theorem presents_headerText {headers : HeaderMap} {line : HeaderValue} {username password : String}
    (first : headers.get "authorization" = some line)
    (shown : line.toStr = some (headerText username password)) (free : ':' ∉ username.toList) :
    Presents headers username password := by
  have long : "Basic ".toList.length = 6 := by decide +kernel
  have scheme : lowercase "Basic ".toList = "basic ".toList := by decide +kernel
  refine ⟨line, _, first, shown, ?_, ?_, free⟩
  · exact (congrArg lowercase (List.take_left' long)).trans scheme
  · refine (congrArg trim (List.drop_left' long)).trans (trim_of_none fun c hc => ?_)
    exact (standardAlphabet_plain (Base64.mem_encode standardAlphabet hc)).2

/-- A written header is judged by the pair it was written for. -/
theorem authenticate_headerText {username password : String} (free : ':' ∉ username.toList)
    (uri : String) : ∃ line,
      HeaderValue.fromStr (String.ofList (headerText username password)) = some line ∧
      ∀ rest : HeaderMap, ∀ other : BasicAuthBackend,
        other.authenticate (("authorization", line) :: rest) uri =
          if (username, password) = (other.username, other.password) then
            .ok (some other.identity) else .error mismatch := by
  obtain ⟨line, legal, shown⟩ := fromStr_plain (headerText_plain username password)
  refine ⟨line, legal, fun rest other => ?_⟩
  have first : HeaderMap.get (("authorization", line) :: rest) "authorization" = some line := by
    simp [HeaderMap.get, HeaderMap.getAll]
  exact authenticate_presented other (presents_headerText first shown free) uri

/-- Nothing presents a user name with a colon. -/
theorem colon_free_of_accepted {backend : BasicAuthBackend} {headers : HeaderMap} {uri : String}
    {identity : Identity} (accepted : backend.authenticate headers uri = .ok (some identity)) :
    ':' ∉ backend.username.toList := by
  by_cases presented : ∃ username password, Presents headers username password
  · obtain ⟨username, password, presents⟩ := presented
    rw [authenticate_presented backend presents] at accepted
    split at accepted
    next same =>
      cases same
      obtain ⟨line, text, -, -, -, -, free⟩ := presents
      exact free
    next => cases accepted
  · rw [authenticate_unpresented backend fun username password presents =>
      presented ⟨username, password, presents⟩] at accepted
    cases accepted

/-- **Exactly the pairs without a colon in the user name can be used.** A backend whose
user name has one never accepts anybody. For any other, the header a client writes for
its pair is legal and is accepted by it, and rejected by every backend with another
pair, whatever characters the pair has. -/
theorem usable_iff_colon_free (backend : BasicAuthBackend) (uri : String) :
    ((∃ headers identity, backend.authenticate headers uri = .ok (some identity)) ↔
      ':' ∉ backend.username.toList) ∧
    (':' ∉ backend.username.toList → ∃ line,
      HeaderValue.fromStr (String.ofList (headerText backend.username backend.password)) =
        some line ∧
      ∀ rest : HeaderMap, ∀ other : BasicAuthBackend,
        other.authenticate (("authorization", line) :: rest) uri =
          if (backend.username, backend.password) = (other.username, other.password) then
            .ok (some other.identity) else .error mismatch) := by
  refine ⟨⟨?_, ?_⟩, fun free => authenticate_headerText free uri⟩
  · rintro ⟨headers, identity, accepted⟩
    exact colon_free_of_accepted accepted
  · intro free
    obtain ⟨line, -, answers⟩ := authenticate_headerText free uri
    refine ⟨[("authorization", line)], backend.identity, ?_⟩
    rw [answers [] backend, if_pos rfl]

end BasicAuthBackend

end RustyGasket
