import RustyGasket.CorrelationId

/-!
# `Pagination`

The extractor bounds the limit on both sides and the page from below only, so the
offset is bounded by the page a client asks for.
-/

namespace RustyGasket

def DEFAULT_PAGE_SIZE : UInt64 := 50

def MAX_PAGE_SIZE : UInt64 := 500

structure ValidationError where
  field : String
  message : String
  deriving DecidableEq, Repr

/-- `ValidationErrors`, as `into_error_details` hands them on. -/
def intoErrorDetails (errors : List ValidationError) : List ErrorDetail :=
  errors.map fun error => ⟨error.field, some error.message⟩

def validationErrorResponse (errors : List ValidationError) : ErrorCall :=
  .quickErrorResponseWithDetails 400 "VALIDATION_ERROR" "Request validation failed."
    (intoErrorDetails errors)

def standardBadRequest (code message : String) : ErrorCall := .quickErrorResponse 400 code message

structure RawPagination where
  page : Option UInt64
  limit : Option UInt64
  deriving DecidableEq, Repr

/-- What the extractor's checks leave. `usize` has 64 bits. -/
structure Pagination where
  page : UInt64
  limit : UInt64
  page_pos : 1 ≤ page.toNat
  limit_pos : 1 ≤ limit.toNat
  limit_le : limit.toNat ≤ 500
  deriving DecidableEq

namespace Pagination

theorem pos_of_ne_zero {n : UInt64} (h : n ≠ 0) : 1 ≤ n.toNat :=
  Nat.pos_of_ne_zero fun zero => h (UInt64.toNat_inj.mp zero)

/-- `limit.min(MAX_PAGE_SIZE)`. -/
def cap (limit : UInt64) : UInt64 := if limit ≤ MAX_PAGE_SIZE then limit else MAX_PAGE_SIZE

theorem cap_le (limit : UInt64) : (cap limit).toNat ≤ 500 := by
  unfold cap
  split
  next within => exact UInt64.le_iff_toNat_le.mp within
  next => exact Nat.le_refl 500

/-- `parse` is `axum`'s `Query`. -/
def fromRequestParts (parse : String → Option RawPagination) (query : Option String) :
    Except ErrorCall Pagination :=
  match parse (query.getD "") with
  | none => .error (standardBadRequest "INVALID_QUERY" "Query parameters are invalid.")
  | some raw =>
    let page := raw.page.getD 1
    if page_zero : page = 0 then
      .error (validationErrorResponse [⟨"page", "page must be at least 1"⟩])
    else
      let limit := cap (raw.limit.getD DEFAULT_PAGE_SIZE)
      if limit_zero : limit = 0 then
        .error (validationErrorResponse [⟨"limit", "limit must be at least 1"⟩])
      else .ok ⟨page, limit, pos_of_ne_zero page_zero, pos_of_ne_zero limit_zero, cap_le _⟩

/-- `offset` without overflow checks. -/
def offset (p : Pagination) : UInt64 := (p.page - 1) * p.limit

def checkedSub (a b : UInt64) : Option UInt64 := if b ≤ a then some (a - b) else none

def checkedMul (a b : UInt64) : Option UInt64 :=
  if a.toNat * b.toNat < UInt64.size then some (a * b) else none

/-- `offset` with overflow checks; `none` is the panic. -/
def offsetChecked (p : Pagination) : Option UInt64 :=
  (checkedSub p.page 1).bind fun before => checkedMul before p.limit

/-- The offset is the same number with and without overflow checks, and it is
`(page - 1) * limit`. -/
def OffsetExact (p : Pagination) : Prop :=
  p.offsetChecked = some p.offset ∧ p.offset.toNat = (p.page.toNat - 1) * p.limit.toNat

theorem one_le_page (p : Pagination) : (1 : UInt64) ≤ p.page :=
  UInt64.le_iff_toNat_le.mpr p.page_pos

theorem before_toNat (p : Pagination) : (p.page - 1).toNat = p.page.toNat - 1 :=
  UInt64.toNat_sub_of_le _ _ p.one_le_page

/-- The subtraction never underflows. -/
theorem offsetChecked_eq (p : Pagination) : p.offsetChecked = checkedMul (p.page - 1) p.limit := by
  rw [offsetChecked, checkedSub, if_pos p.one_le_page, Option.bind_some]

theorem offsetExact_iff_fits (p : Pagination) :
    p.OffsetExact ↔ (p.page.toNat - 1) * p.limit.toNat < UInt64.size := by
  rw [OffsetExact, offsetChecked_eq, checkedMul, before_toNat]
  constructor
  · rintro ⟨checked, -⟩
    by_contra overflow
    rw [if_neg overflow] at checked
    cases checked
  · intro fits
    refine ⟨if_pos fits, ?_⟩
    rw [offset, UInt64.toNat_mul, before_toNat]
    exact Nat.mod_eq_of_lt fits

/-- What the extractor accepts, from the query's own numbers. -/
theorem fromRequestParts_ok {parse : String → Option RawPagination} {query : Option String}
    {p : Pagination} (accepted : fromRequestParts parse query = .ok p) :
    ∃ raw, parse (query.getD "") = some raw ∧ p.page = raw.page.getD 1 ∧
      p.limit = cap (raw.limit.getD DEFAULT_PAGE_SIZE) := by
  unfold fromRequestParts at accepted
  split at accepted
  next => cases accepted
  next raw parsed =>
    dsimp only at accepted
    split_ifs at accepted
    cases accepted
    exact ⟨raw, parsed, rfl, rfl⟩

def USIZE_MAX : Nat := 18446744073709551615

/-- **An accepted query's offset is exact exactly when** the page asked for is at most one
more than the number of whole limits in the last `usize`. -/
theorem offsetExact_iff (parse : String → Option RawPagination) (query : Option String)
    (raw : RawPagination) (parsed : parse (query.getD "") = some raw) (p : Pagination)
    (accepted : fromRequestParts parse query = .ok p) :
    p.OffsetExact ↔ (raw.page.getD 1).toNat ≤
      USIZE_MAX / (cap (raw.limit.getD DEFAULT_PAGE_SIZE)).toNat + 1 := by
  obtain ⟨raw', parsed', page, limit⟩ := fromRequestParts_ok accepted
  cases parsed.symm.trans parsed'
  have positive := p.limit_pos
  have fits : (p.page.toNat - 1) * p.limit.toNat < UInt64.size ↔
      p.page.toNat - 1 ≤ USIZE_MAX / p.limit.toNat := by
    rw [Nat.le_div_iff_mul_le positive]
    exact Nat.lt_succ_iff
  rw [offsetExact_iff_fits, fits, ← page, ← limit]
  exact Nat.sub_le_iff_le_add

/-- `Query` on two query strings. -/
def twoQueries (query : String) : Option RawPagination :=
  if query = "page=2&limit=9999" then some ⟨some 2, some 9999⟩
  else if query = "page=36893488147419105&limit=500" then some ⟨some 36893488147419105, some 500⟩
  else none

def secondPage : Pagination := ⟨2, 500, by decide, by decide, by decide⟩

theorem secondPage_exact : secondPage.OffsetExact :=
  (offsetExact_iff twoQueries (some "page=2&limit=9999") ⟨some 2, some 9999⟩ (by decide +kernel)
    secondPage (by decide +kernel)).mpr (by decide +kernel)

def farPage : Pagination := ⟨36893488147419105, 500, by decide, by decide, by decide⟩

/-- An accepted page whose offset panics with overflow checks, and without them is 384. -/
theorem farPage_wraps :
    fromRequestParts twoQueries (some "page=36893488147419105&limit=500") = .ok farPage ∧
    farPage.offsetChecked = none ∧ farPage.offset = 384 ∧ ¬ farPage.OffsetExact := by
  have panics : farPage.offsetChecked = none := by decide +kernel
  refine ⟨by decide +kernel, panics, by decide +kernel, ?_⟩
  rintro ⟨checked, -⟩
  rw [panics] at checked
  cases checked

end Pagination

end RustyGasket
