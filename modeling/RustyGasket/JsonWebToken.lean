import RustyGasket.Http
import RustyGasket.Json

/-!
# What the JWT backend uses of `jsonwebtoken`

The crate is a parameter. Of its `decode` only this is assumed: a token it accepts
passes the claim checks of the `Validation` it was given. A claim is required only
when `required_spec_claims` names it, and `aud` and `iss` are compared with the
expected values only when the token carries them.
-/

namespace RustyGasket

inductive Algorithm
  | HS256 | HS384 | HS512
  | RS256 | RS384 | RS512
  | PS256 | PS384 | PS512
  | ES256 | ES384
  | EdDSA
  deriving DecidableEq, Repr

/-- `Debug`, the variant's name. -/
def Algorithm.toText : Algorithm → String
  | HS256 => "HS256"
  | HS384 => "HS384"
  | HS512 => "HS512"
  | RS256 => "RS256"
  | RS384 => "RS384"
  | RS512 => "RS512"
  | PS256 => "PS256"
  | PS384 => "PS384"
  | PS512 => "PS512"
  | ES256 => "ES256"
  | ES384 => "ES384"
  | EdDSA => "EdDSA"

structure Validation where
  algorithms : List Algorithm
  requiredSpecClaims : List String
  validateExp : Bool
  validateNbf : Bool
  leeway : Nat
  aud : Option (List String)
  iss : Option (List String)
  deriving DecidableEq, Repr

def Validation.new (algorithm : Algorithm) : Validation where
  algorithms := [algorithm]
  requiredSpecClaims := ["exp"]
  validateExp := true
  validateNbf := false
  leeway := 60
  aud := none
  iss := none

/-! ## Registered claims -/

inductive TryParse (α : Type)
  | parsed (value : α)
  | failedToParse
  | notPresent
  deriving DecidableEq, Repr

namespace TryParse

variable {α : Type}

/-- Holds of the value, if there is one. -/
def all (p : α → Bool) : TryParse α → Bool
  | parsed value => p value
  | _ => true

def isParsed : TryParse α → Bool
  | parsed _ => true
  | _ => false

end TryParse

/-- An `aud` or `iss` claim: one string or a list of them. -/
inductive Names
  | single (name : String)
  | multiple (names : List String)
  deriving DecidableEq, Repr

def Names.toList : Names → List String
  | single name => [name]
  | multiple names => names

/-- One of the names is expected. -/
def Names.meets (names : Names) (expected : List String) : Bool :=
  names.toList.any (· ∈ expected)

def readNames : Option Json → TryParse Names
  | none => .notPresent
  | some .null => .notPresent
  | some (.string name) => .parsed (.single name)
  | some (.array items) => match items.mapM Json.asStr with
    | some names => .parsed (.multiple names)
    | none => .failedToParse
  | some _ => .failedToParse

def readName : Option Json → TryParse String
  | none => .notPresent
  | some .null => .notPresent
  | some (.string name) => .parsed name
  | some _ => .failedToParse

/-- `toSeconds` reads a numeric date. -/
def readTime (toSeconds : Json → Option Nat) : Option Json → TryParse Nat
  | none => .notPresent
  | some .null => .notPresent
  | some value => match toSeconds value with
    | some seconds => .parsed seconds
    | none => .failedToParse

structure Registered where
  exp : TryParse Nat
  nbf : TryParse Nat
  sub : TryParse String
  iss : TryParse Names
  aud : TryParse Names
  deriving DecidableEq, Repr

def registered (toSeconds : Json → Option Nat) (claims : Json) : Registered where
  exp := readTime toSeconds (claims.get "exp")
  nbf := readTime toSeconds (claims.get "nbf")
  sub := readName (claims.get "sub")
  iss := readNames (claims.get "iss")
  aud := readNames (claims.get "aud")

/-- Whether a claim that may be required is there; other names are ignored. -/
def Registered.has (c : Registered) (name : String) : Bool :=
  match name with
  | "exp" => c.exp.isParsed
  | "nbf" => c.nbf.isParsed
  | "sub" => c.sub.isParsed
  | "iss" => c.iss.isParsed
  | "aud" => c.aud.isParsed
  | _ => true

/-- The claim checks. -/
def Validation.accepts (v : Validation) (now : Nat) (c : Registered) : Bool :=
  v.requiredSpecClaims.all c.has &&
  (!v.validateExp || c.exp.all fun exp => now ≤ exp + v.leeway) &&
  (!v.validateNbf || c.nbf.all fun nbf => nbf ≤ now + v.leeway) &&
  (v.iss.all fun expected => c.iss.all (·.meets expected)) &&
  (v.aud.all fun expected => c.aud.all (·.meets expected))

/-! ## The crate -/

structure Header where
  alg : Algorithm
  kid : Option String
  deriving DecidableEq, Repr

inductive ErrorKind
  | invalidToken
  | invalidSignature
  | expiredSignature
  | other
  deriving DecidableEq, Repr

/-- An error of the crate with its display text. -/
structure JwtError where
  kind : ErrorKind
  text : String
  deriving DecidableEq, Repr

structure JsonWebToken where
  DecodingKey : Type
  fromSecret : List UInt8 → DecodingKey
  fromRsaPem : List UInt8 → Except JwtError DecodingKey
  fromEcPem : List UInt8 → Except JwtError DecodingKey
  decodeHeader : String → Except JwtError Header
  /-- Decoding at a time, in seconds since the epoch. -/
  decode : String → DecodingKey → Validation → Nat → Except JwtError Json
  toSeconds : Json → Option Nat
  /-- A payload that is not an object may be read in other ways. -/
  decode_accepts : ∀ {token key validation now claims},
    decode token key validation now = .ok claims → claims.isObject = true →
    validation.accepts now (registered toSeconds claims) = true

end RustyGasket
