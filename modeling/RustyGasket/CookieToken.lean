import RustyGasket.Jwt

/-!
# Cookie tokens over several lines

A client may send its cookies on several `Cookie` lines. Duplicates are refused over
the pairs of the first line alone: a second pair on a later line is not seen, nor is a
token that stands there.
-/

namespace RustyGasket

/-- The one item of a list. -/
def single {α : Type} : List α → Option α
  | [value] => some value
  | _ => none

theorem single_eq_some {α : Type} {values : List α} {value : α} :
    single values = some value ↔ values = [value] := by
  match values with
  | [] => simp [single]
  | [other] => simp [single]
  | _ :: _ :: _ => simp [single]

/-- The text of a pair after `name=`. -/
def namedValue (cookiePrefix pair : List Char) : Option (List Char) :=
  if cookiePrefix <+: trim pair then some ((trim pair).drop cookiePrefix.length) else none

/-- What the pairs of a line have for the cookie, in order. -/
def cookieValues (name : String) (line : HeaderValue) : List (List Char) :=
  ((asciiText line.bytes).splitOn ';').filterMap (namedValue (name.toList ++ ['=']))

def firstValues (name : String) (headers : HeaderMap) : List (List Char) :=
  (headers.getAll "cookie").head?.toList.flatMap (cookieValues name)

def laterValues (name : String) (headers : HeaderMap) : List (List Char) :=
  (headers.getAll "cookie").tail.flatMap (cookieValues name)

/-- The token of the one pair with the cookie's name in the whole request, and none
when there are more. -/
def ReadsWholeRequest (name : String) (headers : HeaderMap) : Prop :=
  ∀ token, (TokenSource.cookie name).extractToken headers = some token ↔
    (headers.getAll "cookie").flatMap (cookieValues name) = [token.toList]

/-- The loop keeps the one match, with what was found before it. -/
theorem findCookie_eq (cookiePrefix : List Char) (found : Option (List Char))
    (pairs : List (List Char)) : findCookie cookiePrefix found pairs =
      single (found.toList ++ pairs.filterMap (namedValue cookiePrefix)) := by
  induction pairs generalizing found with
  | nil => cases found <;> rfl
  | cons pair rest ih =>
    unfold findCookie
    rw [List.filterMap_cons, namedValue]
    by_cases named : cookiePrefix <+: trim pair
    · rw [if_pos named, if_pos named]
      cases found with
      | none => exact ih _
      | some earlier => rfl
    · rw [if_neg named, if_neg named]
      exact ih found

theorem HeaderValue.toStr_of_visible {line : HeaderValue}
    (visible : line.bytes.all isVisibleAscii = true) : line.toStr = some (asciiText line.bytes) :=
  if_pos visible

/-- Only the first line is read. -/
theorem extractToken_cookie (name : String) (headers : HeaderMap)
    (visible : ∀ line ∈ headers.getAll "cookie", line.bytes.all isVisibleAscii = true) :
    (TokenSource.cookie name).extractToken headers =
      (single (firstValues name headers)).map String.ofList := by
  simp only [TokenSource.extractToken, HeaderMap.get, firstValues]
  cases lines : headers.getAll "cookie" with
  | nil => rfl
  | cons first later =>
    have decodes := HeaderValue.toStr_of_visible (visible first (lines ▸ List.mem_cons_self))
    simp only [List.head?_cons, Option.bind_some, decodes, Option.bind_eq_bind, findCookie_eq,
      Option.toList_none, List.nil_append, Option.toList_some, List.flatMap_cons, List.flatMap_nil,
      List.append_nil, cookieValues]

/-- Reading the first part alone makes no difference. -/
theorem single_append_iff {α : Type} (first later : List α) :
    (∀ value, single first = some value ↔ single (first ++ later) = some value) ↔
      later = [] ∨ 2 ≤ first.length ∨ first = [] ∧ 2 ≤ later.length := by
  match first, later with
  | [], [] => simp
  | [], [value] =>
    simp only [List.nil_append, single, reduceCtorEq, false_iff]
    constructor
    · intro none
      exact absurd rfl (none value)
    · simp
  | [], _ :: _ :: _ => simp [single]
  | [value], [] => simp
  | [value], other :: _ =>
    simp only [List.cons_append, List.nil_append, single, reduceCtorEq, iff_false]
    constructor
    · intro none
      exact absurd rfl (none value)
    · simp
  | _ :: _ :: _, _ => simp [single]

/-- **The whole request is read exactly when** no line after the first has a pair with
the cookie's name, or the first has several, or the first has none and the later ones
have several. -/
theorem readsWholeRequest_iff (name : String) (headers : HeaderMap)
    (visible : ∀ line ∈ headers.getAll "cookie", line.bytes.all isVisibleAscii = true) :
    ReadsWholeRequest name headers ↔
      laterValues name headers = [] ∨ 2 ≤ (firstValues name headers).length ∨
        firstValues name headers = [] ∧ 2 ≤ (laterValues name headers).length := by
  have split : (headers.getAll "cookie").flatMap (cookieValues name) =
      firstValues name headers ++ laterValues name headers := by
    unfold firstValues laterValues
    cases headers.getAll "cookie" <;> simp
  rw [← single_append_iff, ← split, ReadsWholeRequest]
  simp only [extractToken_cookie name headers visible, single_eq_some, Option.map_eq_some_iff]
  constructor
  · intro reads value
    have whole := reads (String.ofList value)
    rw [String.toList_ofList] at whole
    rw [← whole]
    constructor
    · intro found
      exact ⟨value, found, rfl⟩
    · rintro ⟨value', found, same⟩
      rw [← String.ofList_injective same]
      exact found
  · intro reads token
    rw [← reads token.toList]
    constructor
    · rintro ⟨value, found, rfl⟩
      rw [String.toList_ofList]
      exact found
    · intro found
      exact ⟨token.toList, found, String.ofList_toList⟩

/-- Two lines of the application, the token on the first. -/
def twoLines : HeaderMap :=
  [("cookie", .ofBytes (utf8 "theme=dark; auth_token=genuine") (by decide +kernel)),
    ("cookie", .ofBytes (utf8 "session=s1; lang=en") (by decide +kernel))]

theorem twoLines_readsWholeRequest : ReadsWholeRequest "auth_token" twoLines :=
  (readsWholeRequest_iff "auth_token" twoLines (by decide +kernel)).mpr (.inl (by decide +kernel))

/-- One line planted by a sibling site, one of the application. -/
def splitCookies : HeaderMap :=
  [("cookie", .ofBytes (utf8 "auth_token=planted") (by decide +kernel)),
    ("cookie", .ofBytes (utf8 "theme=dark; auth_token=genuine") (by decide +kernel))]

/-- Two pairs name the token, and the planted one is taken. -/
theorem duplicate_over_lines :
    (HeaderMap.getAll splitCookies "cookie").flatMap (cookieValues "auth_token") =
      ["planted".toList, "genuine".toList] ∧
    (TokenSource.cookie "auth_token").extractToken splitCookies = some "planted" ∧
    ¬ ReadsWholeRequest "auth_token" splitCookies := by
  have twice : (HeaderMap.getAll splitCookies "cookie").flatMap (cookieValues "auth_token") =
      ["planted".toList, "genuine".toList] := by decide +kernel
  have taken : (TokenSource.cookie "auth_token").extractToken splitCookies = some "planted" := by
    decide +kernel
  refine ⟨twice, taken, fun reads => ?_⟩
  have once := (reads "planted").mp taken
  rw [twice] at once
  cases once

end RustyGasket
