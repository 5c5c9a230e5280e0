import RustyGasket.ResponseCache

/-!
# When `PerAuthorization` keeps callers apart

The key holds a 64-bit digest of the credential, not the credential. Everything
around the digest is read back exactly, so two callers share a key if and only if
their digests collide and the rest of their requests agrees.
-/

namespace RustyGasket.ResponseCache

/-- The `Authorization` value, as bytes. -/
def authorization (request : Request) : Option Bytes :=
  (request.headers.get "authorization").map (·.bytes)

/-- **What the key sees.** Some part of it differs between the two requests. -/
def ToldApart (policy : ResponseCachePolicy) (r r' : Request) : Prop :=
  (authorization r).map stableHash ≠ (authorization r').map stableHash ∨
    r.method ≠ r'.method ∨ target r ≠ target r' ∨
    ∃ header ∈ policy.varyHeaders, varyReading r header ≠ varyReading r' header

/-- The parts of a per-authorization key after its area. -/
def keyParts (policy : ResponseCachePolicy) (request : Request) (credential : Bytes) :
    List String :=
  [request.method, target request, toString (stableHash credential).toNat] ++
    policy.varyHeaders.flatMap fun header => [header, varyReading request header]

theorem foldl_vary (reading : String → String) (headers : List String) (key : CacheKey) :
    headers.foldl (fun key header => (key.part header).part (reading header)) key =
      (headers.flatMap fun header => [header, reading header]).foldl CacheKey.part key := by
  induction headers generalizing key with
  | nil => rfl
  | cons header rest ih => exact ih _

theorem responseCacheKey_eq {policy : ResponseCachePolicy}
    (scope : policy.scope = .perAuthorization) {request : Request} {credential : Bytes}
    (h : authorization request = some credential) :
    responseCacheKey policy request =
      .ok (CacheKey.ofParts "response" (keyParts policy request credential)) := by
  obtain ⟨value, hv, rfl⟩ := Option.map_eq_some_iff.mp h
  simp only [responseCacheKey, scope, hv, foldl_vary]
  rfl

theorem responseCacheKey_credential {policy : ResponseCachePolicy}
    (scope : policy.scope = .perAuthorization) {request : Request} {key : CacheKey}
    (h : responseCacheKey policy request = .ok key) :
    ∃ credential, authorization request = some credential := by
  cases hv : request.headers.get "authorization" with
  | none => simp only [responseCacheKey, scope, hv] at h; cases h
  | some value => exact ⟨value.bytes, by rw [authorization, hv]; rfl⟩

theorem flatMap_readings {f g : String → String} {headers : List String} :
    ((headers.flatMap fun header => [header, f header]) =
      headers.flatMap fun header => [header, g header]) ↔
    ∀ header ∈ headers, f header = g header := by
  induction headers with
  | nil => simp
  | cons header rest ih =>
    simp only [List.flatMap_cons, List.cons_append, List.nil_append, List.cons.injEq,
      true_and, ih, List.forall_mem_cons]

/-- **Isolation of the key, exactly.** -/
theorem keys_differ_iff {policy : ResponseCachePolicy} (scope : policy.scope = .perAuthorization)
    {r r' : Request} {a a' : Bytes} (ha : authorization r = some a)
    (ha' : authorization r' = some a') :
    responseCacheKey policy r ≠ responseCacheKey policy r' ↔ ToldApart policy r r' := by
  rw [responseCacheKey_eq scope ha, responseCacheKey_eq scope ha', ToldApart, ha, ha',
    Option.map_some, Option.map_some, ← not_iff_not]
  simp only [not_or, not_exists, not_and, not_not, Option.some.injEq, ne_eq, Except.ok.injEq]
  constructor
  · intro h
    have parts := (CacheKey.ofParts_injective h).2
    simp only [keyParts, List.cons_append, List.nil_append, List.cons.injEq] at parts
    obtain ⟨method, target, digest, vary⟩ := parts
    refine ⟨UInt64.toNat_inj.mp (Nat.repr_injective digest), method, target, ?_⟩
    exact flatMap_readings.mp vary
  · rintro ⟨digest, method, target, vary⟩
    rw [keyParts, keyParts, digest, method, target, flatMap_readings.mpr vary]

/-! ## Whole histories -/

variable {Id : Type}

/-- No answer from the cache was stored for a caller with another credential. -/
def NoCross (requests : Id → Request) (world : World Id) : Prop :=
  ∀ id entry response, world.phase id = .hit entry response →
    authorization (requests id) = authorization (requests entry.owner)

/-- Keys in use are the keys of the requests that use them. -/
structure Keyed (space : String) (policy : ResponseCachePolicy) (requests : Id → Request)
    (world : World Id) : Prop where
  handler : ∀ id key, world.phase id = .handler (some key) →
    responseCacheKey policy (requests id) = .ok key
  stored : ∀ full entry, world.store full = some entry →
    ∃ key, responseCacheKey policy (requests entry.owner) = .ok key ∧
      namespacedKey space key = .ok full

theorem namespacedKey_inj {space : String} {key key' : CacheKey} {full : Bytes}
    (h : namespacedKey space key = .ok full) (h' : namespacedKey space key' = .ok full) :
    key = key' := by
  have text := (namespacedKey_eq h).symm.trans (namespacedKey_eq h')
  have := List.cons.inj (List.append_cancel_left text)
  cases key; cases key'
  exact congrArg CacheKey.mk this.2

theorem cacheGet_some {world : World Id} {space : String} {key : CacheKey} {answer : Answer}
    {entry : Entry Id} (h : cacheGet world space key answer = .ok (some entry)) :
    ∃ full, namespacedKey space key = .ok full ∧ world.store full = some entry := by
  simp only [cacheGet] at h
  cases hk : namespacedKey space key with
  | error _ => rw [hk] at h; cases h
  | ok full =>
    rw [hk] at h
    cases answer with
    | held => exact ⟨full, rfl, Except.ok.inj h⟩
    | missing => cases h
    | failed _ => cases h

variable {space : String} {policy : ResponseCachePolicy} {requests : Id → Request}

/-- The phase before the handler uses the request's own key. -/
theorem beforeHandler_key {world : World Id} {request : Request} {answer : Answer}
    {key : CacheKey} (h : beforeHandler space policy world request answer = .handler (some key)) :
    responseCacheKey policy request = .ok key := by
  simp only [beforeHandler] at h
  split at h
  · split at h
    · cases h
    · rename_i hk
      split at h
      · cases h
      · cases h; exact hk
  · cases h

/-- What is answered from the cache was stored under the request's own key. -/
theorem beforeHandler_hit {world : World Id} {request : Request} {answer : Answer}
    {entry : Entry Id} {response : Response}
    (h : beforeHandler space policy world request answer = .hit entry response) :
    isCacheableMethod request.method = true ∧ ∃ key full,
      responseCacheKey policy request = .ok key ∧
      namespacedKey space key = .ok full ∧ world.store full = some entry := by
  simp only [beforeHandler] at h
  split at h
  · rename_i cacheable
    split at h
    · cases h
    · rename_i key hk
      split at h
      · rename_i hg
        cases h
        obtain ⟨full, hfull, hs⟩ := cacheGet_some hg
        exact ⟨cacheable, key, full, hk, hfull, hs⟩
      · cases h
  · cases h

theorem cacheSet_some {store : Bytes → Option (Entry Id)} {key : CacheKey} {entry entry' : Entry Id}
    {written : Bool} {full : Bytes}
    (h : cacheSet store space key entry written full = some entry') :
    store full = some entry' ∨ (namespacedKey space key = .ok full ∧ entry' = entry) := by
  rw [cacheSet] at h
  cases hk : namespacedKey space key with
  | error _ => rw [hk] at h; exact Or.inl h
  | ok full' =>
    simp only [hk] at h
    split at h
    · rw [Function.update_apply] at h
      split at h
      · rename_i same
        subst same
        exact Or.inr ⟨rfl, (Option.some.inj h).symm⟩
      · exact Or.inl h
    · exact Or.inl h

variable [DecidableEq Id]

theorem goto_phase (world : World Id) (id : Id) (phase : Phase Id) (other : Id) :
    (world.goto id phase).phase other = if other = id then phase else world.phase other := by
  simp only [World.goto, Function.update_apply]

/-- What a step can do: let a request go up to its handler, or answer it from the
handler and perhaps store the answer under the key looked up before. -/
theorem step_cases {world next : World Id} {id : Id} {action : Action}
    (h : step space policy requests world (id, action) = some next) :
    (∃ answer, next = world.goto id (beforeHandler space policy world (requests id) answer)) ∨
    ∃ response, (next = world.goto id (.fresh response)) ∨
      ∃ key cached written, world.phase id = .handler (some key) ∧
        next = { world.goto id (.fresh response) with
          store := cacheSet world.store space key ⟨cached, id⟩ written } := by
  cases action with
  | arrive answer =>
    simp only [step] at h
    split at h
    · exact Or.inl ⟨answer, (Option.some.inj h).symm⟩
    · cases h
  | respond status headers body written =>
    simp only [step] at h
    split at h
    · exact Or.inr ⟨_, Or.inl (Option.some.inj h).symm⟩
    · rename_i key hp
      split at h
      · exact Or.inr ⟨_, Or.inl (Option.some.inj h).symm⟩
      · split at h
        · exact Or.inr ⟨_, Or.inr ⟨key, _, written, hp, (Option.some.inj h).symm⟩⟩
        · exact Or.inr ⟨_, Or.inl (Option.some.inj h).symm⟩
    · cases h

/-- Only the request that moved can have come to a new key. -/
theorem Keyed.goto {world : World Id} (h : Keyed space policy requests world) {id : Id}
    {phase : Phase Id}
    (own : ∀ key, phase = .handler (some key) → responseCacheKey policy (requests id) = .ok key) :
    ∀ other key, (world.goto id phase).phase other = .handler (some key) →
      responseCacheKey policy (requests other) = .ok key := by
  intro other key hk
  rw [goto_phase] at hk
  by_cases same : other = id
  · rw [if_pos same] at hk
    rw [same]
    exact own key hk
  · rw [if_neg same] at hk
    exact h.handler other key hk

theorem Keyed.step {world next : World Id} (h : Keyed space policy requests world) {id : Id}
    {action : Action} (hs : step space policy requests world (id, action) = some next) :
    Keyed space policy requests next := by
  have fresh : ∀ (response : Response) key, (Phase.fresh response : Phase Id) =
      .handler (some key) → responseCacheKey policy (requests id) = .ok key := by
    intro response key hk
    cases hk
  obtain ⟨answer, rfl⟩ | ⟨response, rfl | ⟨key, cached, written, hp, rfl⟩⟩ := step_cases hs
  · refine ⟨h.goto ?_, h.stored⟩
    intro key hk
    exact beforeHandler_key hk
  · exact ⟨h.goto (fresh response), h.stored⟩
  · refine ⟨h.goto (fresh response), ?_⟩
    intro full entry he
    obtain old | ⟨hk, rfl⟩ := cacheSet_some he
    · exact h.stored full entry old
    · exact ⟨key, h.handler id key hp, hk⟩

/-- A request the cache can serve: its method and its key are both accepted. -/
def Cacheable (space : String) (policy : ResponseCachePolicy) (request : Request) : Prop :=
  isCacheableMethod request.method = true ∧ ∃ key full,
    responseCacheKey policy request = .ok key ∧ namespacedKey space key = .ok full

/-- The key tells every cacheable request from those of other callers. -/
def Separated (space : String) (policy : ResponseCachePolicy) (requests : Id → Request) : Prop :=
  ∀ i j, Cacheable space policy (requests i) →
    authorization (requests i) ≠ authorization (requests j) →
    ToldApart policy (requests i) (requests j)

theorem NoCross.goto {world : World Id} (h : NoCross requests world) {id : Id}
    {phase : Phase Id}
    (own : ∀ entry response, phase = .hit entry response →
      authorization (requests id) = authorization (requests entry.owner)) :
    NoCross requests (world.goto id phase) := by
  intro other entry response hp
  rw [goto_phase] at hp
  by_cases same : other = id
  · rw [if_pos same] at hp
    rw [same]
    exact own entry response hp
  · rw [if_neg same] at hp
    exact h other entry response hp

theorem NoCross.step {world next : World Id} (h : NoCross requests world)
    (keyed : Keyed space policy requests world) (scope : policy.scope = .perAuthorization)
    (separated : Separated space policy requests) {id : Id} {action : Action}
    (hs : step space policy requests world (id, action) = some next) : NoCross requests next := by
  have fresh : ∀ response : Response, ∀ (entry : Entry Id) response', Phase.fresh response =
      .hit entry response' →
      authorization (requests id) = authorization (requests entry.owner) := by
    intro response entry response' hp
    cases hp
  obtain ⟨answer, rfl⟩ | ⟨response, rfl | ⟨_, _, _, _, rfl⟩⟩ := step_cases hs
  · apply h.goto
    intro entry response hp
    obtain ⟨cacheable, key, full, hk, hfull, hstore⟩ := beforeHandler_hit hp
    obtain ⟨key', hk', hfull'⟩ := keyed.stored full entry hstore
    obtain rfl := namespacedKey_inj hfull hfull'
    obtain ⟨a, ha⟩ := responseCacheKey_credential scope hk
    obtain ⟨b, hb⟩ := responseCacheKey_credential scope hk'
    by_contra differ
    have apart := separated id entry.owner ⟨cacheable, key, full, hk, hfull⟩ differ
    have keys := (keys_differ_iff scope ha hb).mpr apart
    exact keys (hk.trans hk'.symm)
  · exact h.goto (fresh response)
  · exact h.goto (fresh response)

/-- **No answer crosses callers told apart**, in any history of requests and
stored responses. -/
theorem noCross_run (scope : policy.scope = .perAuthorization)
    (separated : Separated space policy requests) (run : List (Id × Action)) :
    Transition.Always (step space policy requests) (NoCross requests) World.init run := by
  have start : Keyed space policy requests World.init ∧ NoCross requests World.init :=
    ⟨⟨fun _ _ h => by simp [World.init] at h, fun _ _ h => by simp [World.init] at h⟩,
      fun _ _ _ h => by simp [World.init] at h⟩
  have inv : Transition.Always (step space policy requests) (fun world =>
      Keyed space policy requests world ∧ NoCross requests world) World.init run := by
    apply Transition.always_of_preserved
    · rintro world ⟨id, action⟩ next ⟨keyed, noCross⟩ hs
      exact ⟨keyed.step hs, noCross.step keyed scope separated hs⟩
    · exact start
  exact inv.mono fun _ hi => hi.2

/-- The shortest history in which `i` is served what was stored for `j`. -/
def crossing (i j : Id) : List (Id × Action) :=
  [(j, .arrive .missing), (j, .respond 200 [] (some []) true), (i, .arrive .held)]

theorem crossing_crosses (scope : policy.scope = .perAuthorization) {i j : Id}
    (cacheable : Cacheable space policy (requests i))
    (differ : authorization (requests i) ≠ authorization (requests j))
    (together : ¬ ToldApart policy (requests i) (requests j)) :
    ¬ Transition.Always (step space policy requests) (NoCross requests) World.init
      (crossing i j) := by
  obtain ⟨method, key, full, hk, hfull⟩ := cacheable
  have distinct : i ≠ j := fun same => differ (by rw [same])
  obtain ⟨a, ha⟩ := responseCacheKey_credential scope hk
  have same := together
  simp only [ToldApart, not_or, not_not] at same
  obtain ⟨digest, sameMethod, -⟩ := same
  rw [ha, Option.map_some] at digest
  obtain ⟨b, hb, -⟩ := Option.map_eq_some_iff.mp digest.symm
  have hk' : responseCacheKey policy (requests j) = .ok key := by
    rw [← hk]
    exact (not_not.mp fun ne => together ((keys_differ_iff scope ha hb).mp ne)).symm
  have stores : shouldStoreResponse 200 [] 0 policy = true := by
    simp [shouldStoreResponse, forbidsStore, HeaderMap.get, HeaderMap.getAll]
  let asked : World Id := World.init.goto j (.handler (some key))
  let cached : CachedHttpResponse := ⟨200, [], []⟩
  let stored : World Id :=
    { asked.goto j (.fresh (markCacheStatus ⟨200, [], some []⟩ .miss)) with
      store := Function.update (fun _ => none) full (some ⟨cached, j⟩) }
  let served : World Id := stored.goto i (.hit ⟨cached, j⟩ (cachedResponse cached .hit))
  have ask : step space policy requests World.init (j, .arrive .missing) = some asked := by
    simp only [step, World.init, beforeHandler, ← sameMethod, method, if_true, hk', cacheGet, hfull]
    rfl
  have store : step space policy requests asked (j, .respond 200 [] (some []) true) =
      some stored := by
    have phase : asked.phase j = .handler (some key) := by simp [asked, goto_phase]
    simp only [step, phase, List.length_nil, stores, if_true, cacheSet, hfull]
    rfl
  have serve : step space policy requests stored (i, .arrive .held) = some served := by
    have phase : stored.phase i = .arriving := by
      change (asked.goto j _).phase i = _
      simp only [goto_phase, if_neg distinct, asked]
      rfl
    have get : cacheGet stored space key .held = .ok (some ⟨cached, j⟩) := by
      simp only [cacheGet, hfull, stored]
      exact congrArg Except.ok (Function.update_self _ _ _)
    simp only [step, phase, beforeHandler, method, if_true, hk, get]
    rfl
  intro h
  have ends : Transition.exec (step space policy requests) World.init (crossing i j) =
      some served := by
    simp only [crossing, Transition.exec, ask, store, serve, Option.bind_some]
  exact differ (h.last ends i ⟨cached, j⟩ _ (by simp [served, goto_phase]; rfl))

/-- **`PerAuthorization` isolates callers exactly as far as the key sees.** Two
requests with different credentials get different keys if and only if the digests,
the methods, the targets or the vary headers differ; and no history crosses callers
if and only if the key tells apart every request the cache can serve. -/
theorem perAuthorization_isolates_iff (maxBodyBytes : Nat) (varyHeaders : List String) :
    let policy : ResponseCachePolicy := ⟨.perAuthorization, maxBodyBytes, varyHeaders⟩
    (∀ r r' a a', authorization r = some a → authorization r' = some a' → a ≠ a' →
      (responseCacheKey policy r ≠ responseCacheKey policy r' ↔ ToldApart policy r r')) ∧
    ∀ (Id : Type) [DecidableEq Id] (space : String) (requests : Id → Request),
      (∀ run, Transition.Always (step space policy requests) (NoCross requests) World.init run) ↔
        Separated space policy requests := by
  intro policy
  refine ⟨fun r r' a a' ha ha' _ => keys_differ_iff rfl ha ha', fun Id _ space requests => ?_⟩
  constructor
  · intro h i j cacheable differ
    by_contra together
    exact crossing_crosses rfl cacheable differ together (h (crossing i j))
  · exact fun separated run => noCross_run rfl separated run

/-- `GET /account` with the credential `Bearer sECG_jC_VEB` (`true`) or
`Bearer KMO6R9cvudN` (`false`), whose digests are both 12186960144512061882. -/
def collidingRequest (first : Bool) : Request where
  method := "GET"
  pathAndQuery := some "/account"
  path := "/account"
  headers := [("authorization",
    if first then .ofBytes
      [66, 101, 97, 114, 101, 114, 32, 115, 69, 67, 71, 95, 106, 67, 95, 86, 69, 66] (by decide)
    else .ofBytes
      [66, 101, 97, 114, 101, 114, 32, 75, 77, 79, 54, 82, 57, 99, 118, 117, 100, 78] (by decide))]

theorem collision_crosses :
    authorization (collidingRequest true) ≠ authorization (collidingRequest false) ∧
    responseCacheKey ⟨.perAuthorization, 100, []⟩ (collidingRequest true) =
      responseCacheKey ⟨.perAuthorization, 100, []⟩ (collidingRequest false) ∧
    ¬ Transition.Always (step "rusty-gasket" ⟨.perAuthorization, 100, []⟩ collidingRequest)
      (NoCross collidingRequest) World.init (crossing true false) := by
  have differ : authorization (collidingRequest true) ≠ authorization (collidingRequest false) := by
    decide
  have together : ¬ ToldApart ⟨.perAuthorization, 100, []⟩ (collidingRequest true)
      (collidingRequest false) := by
    simp only [ToldApart, not_or, not_not]
    exact ⟨by decide, rfl, rfl, by simp⟩
  have key : responseCacheKey ⟨.perAuthorization, 100, []⟩ (collidingRequest true) =
      .ok (CacheKey.ofParts "response" ["GET", "/account", "12186960144512061882"]) := by
    rw [responseCacheKey_eq rfl (show authorization (collidingRequest true) = some _ from rfl)]
    exact congrArg (fun digest => Except.ok (CacheKey.ofParts "response"
      ["GET", "/account", digest])) (by decide)
  have served : Cacheable "rusty-gasket" ⟨.perAuthorization, 100, []⟩ (collidingRequest true) :=
    ⟨by decide, _, _, key, show namespacedKey _ _ = .ok (encodeKeyPart (utf8 "rusty-gasket") ++
      58 :: (CacheKey.ofParts "response" ["GET", "/account", "12186960144512061882"]).text) by
        decide⟩
  refine ⟨differ, ?_, crossing_crosses rfl served differ together⟩
  by_contra distinct
  exact together ((keys_differ_iff rfl rfl rfl).mp distinct)

end RustyGasket.ResponseCache
