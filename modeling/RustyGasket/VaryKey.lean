import RustyGasket.CacheIsolation

/-!
# Which variants the key tells apart

Of a vary header the key holds the text of the first line, and an empty part where
there is none. A header that is absent, empty or no text on its first line reads
the same, and what stands on further lines is not read.
-/

namespace RustyGasket.ResponseCache

/-- The same variant of the same resource: every vary header has the same lines. -/
structure SameVariant (policy : ResponseCachePolicy) (r r' : Request) : Prop where
  method : r.method = r'.method
  target : target r = target r'
  lines : ∀ header ∈ policy.varyHeaders, r.headers.getAll header = r'.headers.getAll header

/-- Nothing to read on a first line: it is missing, no text, or empty. -/
def Silent (lines : List HeaderValue) : Prop :=
  ∀ value, lines.head? = some value → value.toStr = none ∨ value.bytes = []

/-- Both begin with the same line of text, or both with nothing to read. -/
def Alike (lines lines' : List HeaderValue) : Prop :=
  (∃ value, lines.head? = some value ∧ lines'.head? = some value ∧ value.toStr.isSome = true) ∨
    Silent lines ∧ Silent lines'

def firstText (lines : List HeaderValue) : List Char := (lines.head?.bind HeaderValue.toStr).getD []

theorem varyReading_eq (request : Request) (header : String) :
    varyReading request header = String.ofList (firstText (request.headers.getAll header)) := rfl

theorem toStr_eq_some {value : HeaderValue} {text : List Char} (h : value.toStr = some text) :
    text = asciiText value.bytes := by
  rw [HeaderValue.toStr] at h
  split at h
  · exact (Option.some.inj h).symm
  · cases h

/-- A value is determined by its text. -/
theorem toStr_inj {value value' : HeaderValue} {text : List Char} (h : value.toStr = some text)
    (h' : value'.toStr = some text) : value = value' := by
  have bytes := asciiText_injective ((toStr_eq_some h).symm.trans (toStr_eq_some h'))
  cases value; cases value'
  cases bytes
  rfl

theorem firstText_eq_nil {lines : List HeaderValue} : firstText lines = [] ↔ Silent lines := by
  rw [firstText, Silent]
  cases lines.head? with
  | none => simp
  | some value =>
    simp only [Option.bind_some, Option.some.injEq, forall_eq']
    cases read : value.toStr with
    | none => simp
    | some text => simp [toStr_eq_some read, asciiText]

theorem firstText_ne_nil {lines : List HeaderValue} (h : firstText lines ≠ []) :
    ∃ value, lines.head? = some value ∧ value.toStr = some (firstText lines) := by
  rw [firstText] at h ⊢
  cases first : lines.head? with
  | none => simp [first] at h
  | some value =>
    cases read : value.toStr with
    | none => simp [first, read] at h
    | some text => exact ⟨value, rfl, by simp [read]⟩

theorem firstText_eq_iff {lines lines' : List HeaderValue} :
    firstText lines = firstText lines' ↔ Alike lines lines' := by
  constructor
  · intro same
    by_cases nothing : firstText lines = []
    · exact .inr ⟨firstText_eq_nil.mp nothing, firstText_eq_nil.mp (same ▸ nothing)⟩
    · obtain ⟨value, first, read⟩ := firstText_ne_nil nothing
      obtain ⟨value', first', read'⟩ := firstText_ne_nil (same ▸ nothing)
      rw [← same] at read'
      obtain rfl := toStr_inj read read'
      exact .inl ⟨value, first, first', by rw [read]; rfl⟩
  · rintro (⟨value, first, first', -⟩ | ⟨silent, silent'⟩)
    · rw [firstText, firstText, first, first']
    · rw [firstText_eq_nil.mpr silent, firstText_eq_nil.mpr silent']

theorem varyReading_eq_iff (r r' : Request) (header : String) :
    varyReading r header = varyReading r' header ↔
      Alike (r.headers.getAll header) (r'.headers.getAll header) := by
  rw [varyReading_eq, varyReading_eq, String.ofList_inj, firstText_eq_iff]

/-- The parts of a public key after its area. -/
def publicParts (policy : ResponseCachePolicy) (request : Request) : List String :=
  [request.method, target request, "public"] ++
    policy.varyHeaders.flatMap fun header => [header, varyReading request header]

theorem responseCacheKey_public {policy : ResponseCachePolicy} (scope : policy.scope = .public_)
    (request : Request) : responseCacheKey policy request =
      .ok (CacheKey.ofParts "response" (publicParts policy request)) := by
  simp only [responseCacheKey, scope, foldl_vary]
  rfl

/-- **What a public key tells.** Method and target, and of each vary header its first
line as far as it is text. -/
theorem public_keys_eq_iff {policy : ResponseCachePolicy} (scope : policy.scope = .public_)
    (r r' : Request) : responseCacheKey policy r = responseCacheKey policy r' ↔
      r.method = r'.method ∧ target r = target r' ∧ ∀ header ∈ policy.varyHeaders,
        Alike (r.headers.getAll header) (r'.headers.getAll header) := by
  simp only [← varyReading_eq_iff]
  rw [responseCacheKey_public scope, responseCacheKey_public scope, Except.ok.injEq]
  constructor
  · intro same
    have parts := (CacheKey.ofParts_injective same).2
    simp only [publicParts, List.cons_append, List.nil_append, List.cons.injEq, true_and] at parts
    obtain ⟨method, target, vary⟩ := parts
    exact ⟨method, target, flatMap_readings.mp vary⟩
  · rintro ⟨method, target, vary⟩
    rw [publicParts, publicParts, method, target, flatMap_readings.mpr vary]

/-- **Public keys separate variants, up to what they read.** For a public policy with
any vary headers and any two requests: equal keys mean the same variant if and only if
the requests differ in method, target or visibly in a vary header, or have the same
lines of all of them. -/
theorem public_key_separates_iff (maxBodyBytes : Nat) (varyHeaders : List String)
    (r r' : Request) :
    let policy : ResponseCachePolicy := ⟨.public_, maxBodyBytes, varyHeaders⟩
    (responseCacheKey policy r = responseCacheKey policy r' → SameVariant policy r r') ↔
      r.method ≠ r'.method ∨ target r ≠ target r' ∨
      (∃ header ∈ varyHeaders,
        ¬ Alike (r.headers.getAll header) (r'.headers.getAll header)) ∨
      ∀ header ∈ varyHeaders, r.headers.getAll header = r'.headers.getAll header := by
  intro policy
  rw [public_keys_eq_iff rfl]
  constructor
  · intro separates
    by_contra! unseen
    obtain ⟨method, target, alike, header, hh, differ⟩ := unseen
    exact differ ((separates ⟨method, target, alike⟩).lines header hh)
  · rintro seen ⟨method, target, alike⟩
    obtain differ | differ | ⟨header, hh, differ⟩ | lines := seen
    · exact absurd method differ
    · exact absurd target differ
    · exact absurd (alike header hh) differ
    · exact ⟨method, target, lines⟩

/-- `GET /news` with the given lines of `accept-language`. -/
def newsRequest (languages : List HeaderValue) : Request where
  method := "GET"
  pathAndQuery := some "/news"
  path := "/news"
  headers := languages.map fun language => ("accept-language", language)

/-- Without the header and with an empty one the key is the same. -/
theorem absent_reads_as_empty :
    responseCacheKey ⟨.public_, 100, ["accept-language"]⟩ (newsRequest []) =
      responseCacheKey ⟨.public_, 100, ["accept-language"]⟩
        (newsRequest [.ofBytes [] (by decide)]) ∧
    ¬ SameVariant ⟨.public_, 100, ["accept-language"]⟩ (newsRequest [])
      (newsRequest [.ofBytes [] (by decide)]) := by
  refine ⟨rfl, fun same => ?_⟩
  have lines := same.lines "accept-language" List.mem_cons_self
  exact absurd lines (by decide)

end RustyGasket.ResponseCache
