import Mathlib.Data.List.TakeWhile
import RustyGasket.ErrorBody
import RustyGasket.Pagination
import RustyGasket.PlainText

/-!
# What the extractors tell a client

`IdempotencyKey` and `Validated` in front of a handler. What they refuse a request for can
be read back from the response, validation errors and all.
-/

namespace RustyGasket

def MAX_IDEMPOTENCY_KEY_LENGTH : Nat := 255

/-- `u8::is_ascii_graphic`. -/
def isAsciiGraphic (b : UInt8) : Bool := 33 ≤ b && b ≤ 126

def isIdempotencyKey (key : String) : Bool :=
  !(utf8 key).isEmpty && (utf8 key).length ≤ MAX_IDEMPOTENCY_KEY_LENGTH &&
    (utf8 key).all isAsciiGraphic

/-- The key, with what was checked of it. -/
structure IdempotencyKey where
  text : String
  valid : isIdempotencyKey text = true
  deriving DecidableEq

def missingIdempotencyKeyResponse : ErrorCall :=
  .quickErrorResponse 400 "IDEMPOTENCY_KEY_REQUIRED"
    "Idempotency-Key header is required for this endpoint."

def invalidIdempotencyKeyResponse : ErrorCall :=
  .quickErrorResponse 400 "INVALID_IDEMPOTENCY_KEY"
    "Idempotency-Key header must be visible ASCII text between 1 and 255 characters."

def IdempotencyKey.fromRequestParts (headers : HeaderMap) : Except ErrorCall IdempotencyKey :=
  match headers.get "idempotency-key" with
  | none => .error missingIdempotencyKeyResponse
  | some line => match line.toStr with
    | none => .error invalidIdempotencyKeyResponse
    | some text =>
      let key := String.ofList (trim text)
      if valid : isIdempotencyKey key = true then .ok ⟨key, valid⟩
      else .error invalidIdempotencyKeyResponse

section
variable {T : Type} (parse : Bytes → Option T) (validate : T → Except (List ValidationError) Unit)

end

/-! ## Which keys are accepted -/

namespace IdempotencyKey

theorem graphic (key : IdempotencyKey) : ∀ b ∈ utf8 key.text, isAsciiGraphic b = true := by
  have valid := key.valid
  rw [isIdempotencyKey, Bool.and_eq_true] at valid
  exact List.all_eq_true.mp valid.2

end IdempotencyKey

/-! ## What a client is told -/

/-- Why a request does not reach the handler. -/
inductive Reason
  | missingKey
  | invalidKey
  | invalidJson
  | invalid (errors : List ValidationError)
  deriving DecidableEq, Repr

namespace Reason

/-- What a client makes of an error response. -/
def read {crate : UuidCrate} (body : ErrorResponse crate) : Option Reason :=
  match body.error with
  | "IDEMPOTENCY_KEY_REQUIRED" => some .missingKey
  | "INVALID_IDEMPOTENCY_KEY" => some .invalidKey
  | "INVALID_JSON" => some .invalidJson
  | "VALIDATION_ERROR" => some (.invalid (body.details.map fun detail =>
      ⟨detail.issue, detail.description.getD ""⟩))
  | _ => none

variable {T : Type} (parse : Bytes → Option T) (validate : T → Except (List ValidationError) Unit)

/-- The call that answers for it. -/
def call : Reason → ErrorCall
  | missingKey => missingIdempotencyKeyResponse
  | invalidKey => invalidIdempotencyKeyResponse
  | invalidJson => standardBadRequest "INVALID_JSON" "Request body is not valid JSON."
  | invalid errors => validationErrorResponse errors

end Reason

end RustyGasket
