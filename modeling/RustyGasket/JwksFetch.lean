import Mathlib.Logic.Function.Basic
import RustyGasket.CacheKey
import RustyGasket.Jwt

/-!
# `fetch_jwks` and `prepare_jwks`

What a fetch makes of a reply, and what a document's keys become. A snapshot carries
the document it was prepared from, so a key that is found leads back to the JWK that
was published.
-/

namespace RustyGasket

/-- `FromStr`. -/
def Algorithm.fromText : String → Option Algorithm
  | "HS256" => some HS256
  | "HS384" => some HS384
  | "HS512" => some HS512
  | "RS256" => some RS256
  | "RS384" => some RS384
  | "RS512" => some RS512
  | "PS256" => some PS256
  | "PS384" => some PS384
  | "PS512" => some PS512
  | "ES256" => some ES256
  | "ES384" => some ES384
  | "EdDSA" => some EdDSA
  | _ => none

/-- What `jsonwebtoken` has for JWKs. `keyAlgorithm` is the display text. -/
structure JwkLibrary (lib : JsonWebToken) where
  Jwk : Type
  keyId : Jwk → Option String
  keyAlgorithm : Jwk → Option String
  fromJwk : Jwk → Except JwtError lib.DecodingKey
  /-- Deserialization of a `JwkSet`. -/
  fromSlice : Bytes → Except String (List Jwk)

namespace Jwks

/-- What `send` and the reads of the body come to. -/
inductive Reply
  | failed (error : String)
  | response (status : Nat) (statusText : String) (chunks : List (Except String Bytes))
  deriving Repr

/-- The loop over the chunks. -/
def readBody (maxBodySize : Nat) (body : Bytes) :
    List (Except String Bytes) → Except AuthError Bytes
  | [] => .ok body
  | .error error :: _ => .error (.backendError error)
  | .ok chunk :: rest =>
    if maxBodySize < body.length + chunk.length then
      .error (.backendError s!"JWKS response exceeds maximum body size of {maxBodySize} bytes")
    else readBody maxBodySize (body ++ chunk) rest

variable {lib : JsonWebToken} (crate : JwkLibrary lib)

def fetchJwks (maxBodySize : Nat) : Reply → Except AuthError (List crate.Jwk)
  | .failed error => .error (.backendError error)
  | .response status statusText chunks =>
    if 200 ≤ status ∧ status < 300 then do
      let body ← readBody maxBodySize [] chunks
      (crate.fromSlice body).mapError .backendError
    else .error (.backendError s!"JWKS endpoint returned HTTP {statusText}")

/-- The body of the loop over the document; a key that cannot be used is skipped. -/
def prepareKey (jwk : crate.Jwk) : Option (String × PreparedKey lib) := do
  let kid ← crate.keyId jwk
  let algorithm ← (crate.keyAlgorithm jwk).bind Algorithm.fromText
  let key ← (crate.fromJwk jwk).toOption
  return (kid, ⟨key, algorithm⟩)

/-- A later key of a `kid` replaces an earlier one. -/
def prepareKeys (keys : String → Option (PreparedKey lib)) :
    List crate.Jwk → String → Option (PreparedKey lib)
  | [] => keys
  | jwk :: rest => match prepareKey crate jwk with
    | some (kid, key) => prepareKeys (Function.update keys kid (some key)) rest
    | none => prepareKeys keys rest

/-- `document` is a history variable. -/
structure PreparedJwks where
  fetchedAt : Nat
  keys : String → Option (PreparedKey lib)
  document : List crate.Jwk
  prepared : keys = prepareKeys crate (fun _ => none) document

def prepareJwks (now : Nat) (jwks : List crate.Jwk) : PreparedJwks crate :=
  ⟨now, prepareKeys crate (fun _ => none) jwks, jwks, rfl⟩

variable {crate}

/-- What the document says of a key it publishes under `kid`. -/
structure Publishes (document : List crate.Jwk) (kid : String) (key : PreparedKey lib)
    (jwk : crate.Jwk) : Prop where
  listed : jwk ∈ document
  kid : crate.keyId jwk = some kid
  algorithm : (crate.keyAlgorithm jwk).bind Algorithm.fromText = some key.algorithm
  key : crate.fromJwk jwk = .ok key.key

theorem prepareKey_publishes {jwk : crate.Jwk} {kid : String} {key : PreparedKey lib}
    (h : prepareKey crate jwk = some (kid, key)) : Publishes [jwk] kid key jwk := by
  simp only [prepareKey, Option.bind_eq_bind, Option.pure_def] at h
  obtain ⟨id, hid, h⟩ := Option.bind_eq_some_iff.mp h
  obtain ⟨algorithm, halg, h⟩ := Option.bind_eq_some_iff.mp h
  obtain ⟨decoding, hkey, made⟩ := Option.bind_eq_some_iff.mp h
  cases made
  refine ⟨List.mem_singleton_self jwk, hid, halg, ?_⟩
  cases found : crate.fromJwk jwk with
  | error error => simp [found, Except.toOption] at hkey
  | ok value =>
    simp only [found, Except.toOption, Option.some.injEq] at hkey
    rw [hkey]

theorem prepareKeys_publishes {document : List crate.Jwk}
    {keys : String → Option (PreparedKey lib)} {kid : String} {key : PreparedKey lib}
    (h : prepareKeys crate keys document kid = some key) :
    keys kid = some key ∨ ∃ jwk, Publishes document kid key jwk := by
  induction document generalizing keys with
  | nil => exact .inl h
  | cons jwk rest ih =>
    have later : ∀ {jwk'}, Publishes rest kid key jwk' → Publishes (jwk :: rest) kid key jwk' :=
      fun p => ⟨List.mem_cons_of_mem _ p.listed, p.kid, p.algorithm, p.key⟩
    simp only [prepareKeys] at h
    cases prepared : prepareKey crate jwk with
    | none =>
      rw [prepared] at h
      exact (ih h).imp_right fun ⟨jwk', p⟩ => ⟨jwk', later p⟩
    | some entry =>
      obtain ⟨kid', key'⟩ := entry
      rw [prepared] at h
      obtain before | ⟨jwk', p⟩ := ih h
      · rw [Function.update_apply] at before
        by_cases same : kid = kid'
        · rw [if_pos same] at before
          cases before
          subst same
          have p := prepareKey_publishes prepared
          exact .inr ⟨jwk, List.mem_cons_self, p.kid, p.algorithm, p.key⟩
        · rw [if_neg same] at before
          exact .inl before
      · exact .inr ⟨jwk', later p⟩

/-- Every key of a snapshot was published, under its `kid` and with its algorithm. -/
theorem PreparedJwks.publishes {snapshot : PreparedJwks crate} {kid : String}
    {key : PreparedKey lib} (h : snapshot.keys kid = some key) :
    ∃ jwk, Publishes snapshot.document kid key jwk := by
  rw [snapshot.prepared] at h
  obtain absent | published := prepareKeys_publishes h
  · cases absent
  · exact published

/-! ## A key set that rotates -/

def plainTokens : JsonWebToken where
  DecodingKey := String
  fromSecret := fun _ => ""
  fromRsaPem := fun _ => .error ⟨.other, "InvalidKeyFormat"⟩
  fromEcPem := fun _ => .error ⟨.other, "InvalidKeyFormat"⟩
  decodeHeader := fun _ => .error ⟨.invalidToken, "InvalidToken"⟩
  decode := fun _ _ _ _ => .error ⟨.invalidToken, "InvalidToken"⟩
  toSeconds := fun _ => none
  decode_accepts := nofun

/-- A JWK is its `kid`. The set holds `old` and `new`, and then `new` alone. -/
def rotatingKeys : JwkLibrary plainTokens where
  Jwk := String
  keyId := some
  keyAlgorithm := fun _ => some "RS256"
  fromJwk := .ok
  fromSlice := fun body =>
    if body = utf8 "old new" then .ok ["old", "new"]
    else if body = utf8 "new" then .ok ["new"]
    else .error "expected value"

def defaultStore : JwksKeyStore where
  url := "https://issuer.example/jwks.json"
  cacheTtl := 300 * 1000000000
  maxBodySize := 1024 * 1024
  allowedAlgorithms := JwtBackendBuilder.defaultJwksAlgorithms
  audience := none
  issuer := none
  validateExp := true
  validateNbf := true
  leewaySecs := 0

end Jwks

end RustyGasket
