import RustyGasket.Http
import RustyGasket.Transition

/-!
# Whole-response caching

`response_cache_middleware` over one `ObjectCache`, for any number of concurrent
requests. A request takes two steps: up to the handler, where it looks its key up,
and from the handler's response on, where it may store it. Expiry, eviction and
failures of the backend are part of the label.
-/

namespace RustyGasket

/-- What the cache reads of a request. -/
structure Request where
  method : String
  pathAndQuery : Option String
  path : String
  headers : HeaderMap

/-- A response; `body` is `none` where reading it fails. -/
structure Response where
  status : Nat
  headers : HeaderMap
  body : Option Bytes

inductive ResponseCacheScope
  | public_
  | perAuthorization
  deriving DecidableEq, Repr

structure ResponseCachePolicy where
  scope : ResponseCacheScope
  maxBodyBytes : Nat
  varyHeaders : List String
  deriving DecidableEq, Repr

structure CachedHttpResponse where
  status : Nat
  headers : List (String × Bytes)
  body : Bytes
  deriving DecidableEq, Repr

namespace ResponseCache

def isCacheableMethod (method : String) : Bool := method == "GET" || method == "HEAD"

/-- A vary header as the key reads it: undecodable or absent is empty. -/
def varyReading (request : Request) (header : String) : String :=
  String.ofList (((request.headers.get header).bind HeaderValue.toStr).getD [])

def target (request : Request) : String := request.pathAndQuery.getD request.path

def responseCacheKey (policy : ResponseCachePolicy) (request : Request) :
    Except CacheError CacheKey := do
  let key := ((CacheKey.new "response").part request.method).part (target request)
  let key ← match policy.scope with
    | .public_ => .ok (key.part "public")
    | .perAuthorization => match request.headers.get "authorization" with
      | none =>
        .error (.invalidKey "per-authorization response caching requires Authorization")
      | some value => .ok (key.part (toString (stableHash value.bytes).toNat))
  return policy.varyHeaders.foldl
    (fun key header => (key.part header).part (varyReading request header)) key

def isCacheableResponseHeader (name : String) : Bool :=
  ! ["connection", "keep-alive", "proxy-authenticate", "proxy-authorization", "te", "trailer",
    "transfer-encoding", "upgrade", "set-cookie"].contains name

def toAsciiLowercase (c : Char) : Char :=
  if 'A' ≤ c ∧ c ≤ 'Z' then Char.ofNat (c.toNat + 32) else c

def forbidsStore (headers : HeaderMap) : Bool :=
  ((headers.get "cache-control").bind HeaderValue.toStr).any fun value =>
    decide (['n', 'o', '-', 's', 't', 'o', 'r', 'e'] <:+: value.map toAsciiLowercase)

def shouldStoreResponse (status : Nat) (headers : HeaderMap) (bodySize : Nat)
    (policy : ResponseCachePolicy) : Bool :=
  (200 ≤ status && status < 300) && bodySize ≤ policy.maxBodyBytes && !forbidsStore headers &&
    (headers.getAll "set-cookie").isEmpty

/-- The headers that decode; a decoded value has the bytes it was decoded from. -/
def cacheableResponseHeaders (headers : HeaderMap) : List (String × Bytes) :=
  (headers.filter fun h => isCacheableResponseHeader h.1).filterMap fun h =>
    h.2.toStr.map fun _ => (h.1, h.2.bytes)

inductive CacheStatus
  | hit
  | miss
  | bypass
  deriving DecidableEq, Repr

def CacheStatus.value : CacheStatus → HeaderValue
  | hit => .ofBytes [72, 73, 84] (by decide)
  | miss => .ofBytes [77, 73, 83, 83] (by decide)
  | bypass => .ofBytes [66, 89, 80, 65, 83, 83] (by decide)

def markCacheStatus (response : Response) (status : CacheStatus) : Response :=
  { response with headers := response.headers.setAll "x-cache" [status.value] }

def cachedResponse (cached : CachedHttpResponse) (status : CacheStatus) : Response :=
  let code := if 100 ≤ cached.status ∧ cached.status ≤ 999 then cached.status else 200
  -- `from_str` of the text these are the bytes of
  let headers : HeaderMap := cached.headers.foldl (fun headers h =>
    match HeaderValue.fromBytes h.2 with
    | some value => HeaderMap.setAll headers h.1 [value]
    | none => headers) []
  markCacheStatus ⟨code, headers, some cached.body⟩ status

/-! ## Concurrent requests over one cache -/

/-- A stored response and, as a history variable, the request it was stored for. -/
structure Entry (Id : Type) where
  cached : CachedHttpResponse
  owner : Id

inductive Phase (Id : Type)
  | arriving
  /-- The handler runs; on a bypass there is no key. -/
  | handler (key : Option CacheKey)
  | fresh (response : Response)
  | hit (entry : Entry Id) (response : Response)

structure World (Id : Type) where
  phase : Id → Phase Id
  store : Bytes → Option (Entry Id)

def World.init {Id : Type} : World Id := ⟨fun _ => .arriving, fun _ => none⟩

/-- What the backend and the decoder make of a read. -/
inductive Answer
  | held
  | missing
  | failed (error : CacheError)

inductive Action
  /-- Up to the handler, or to the answer when the cache has one. -/
  | arrive (answer : Answer)
  /-- From the handler's response on; its body may fail to collect, and the
  backend may fail to write. -/
  | respond (status : Nat) (headers : HeaderMap) (body : Option Bytes) (written : Bool)

variable {Id : Type}

/-- `ObjectCache::get`. -/
def cacheGet (world : World Id) (space : String) (key : CacheKey) (answer : Answer) :
    Except CacheError (Option (Entry Id)) := do
  let full ← namespacedKey space key
  match answer with
  | .held => return world.store full
  | .missing => return none
  | .failed error => throw error

/-- The store after `ObjectCache::set_for`. -/
def cacheSet (store : Bytes → Option (Entry Id)) (space : String) (key : CacheKey)
    (entry : Entry Id) (written : Bool) : Bytes → Option (Entry Id) :=
  match namespacedKey space key with
  | .ok full => if written then Function.update store full (some entry) else store
  | .error _ => store

variable [DecidableEq Id] (space : String) (policy : ResponseCachePolicy) (requests : Id → Request)

def World.goto (world : World Id) (id : Id) (phase : Phase Id) : World Id :=
  { world with phase := Function.update world.phase id phase }

/-- The phase `response_cache_middleware` reaches before it calls the handler. -/
def beforeHandler (world : World Id) (request : Request) (answer : Answer) : Phase Id :=
  if isCacheableMethod request.method then
    match responseCacheKey policy request with
    | .error _ => .handler none
    | .ok key => match cacheGet world space key answer with
      | .ok (some entry) => .hit entry (cachedResponse entry.cached .hit)
      | _ => .handler (some key)
  else .handler none

def step (world : World Id) : Id × Action → Option (World Id)
  | (id, .arrive answer) => match world.phase id with
    | .arriving => some (world.goto id (beforeHandler space policy world (requests id) answer))
    | _ => none
  | (id, .respond status headers body written) => match world.phase id with
    | .handler none => some (world.goto id
        (.fresh (markCacheStatus ⟨status, headers, body⟩ .bypass)))
    | .handler (some key) => match body with
      | none => some (world.goto id (.fresh (markCacheStatus ⟨status, headers, some []⟩ .bypass)))
      | some bytes =>
        if shouldStoreResponse status headers bytes.length policy then
          let cached := ⟨status, cacheableResponseHeaders headers, bytes⟩
          some { world.goto id (.fresh (markCacheStatus ⟨status, headers, some bytes⟩ .miss)) with
            store := cacheSet world.store space key ⟨cached, id⟩ written }
        else some (world.goto id (.fresh (markCacheStatus ⟨status, headers, some bytes⟩ .bypass)))
    | _ => none

end ResponseCache

end RustyGasket
