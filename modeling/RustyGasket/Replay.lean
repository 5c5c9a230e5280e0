import RustyGasket.Transparency

/-!
# What a hit replays

An entry keeps the headers that decode as text, as a list. A hit puts them into a
header map with `insert`, one after another, so of a repeated name the last line is
left. What it should replay is the response the entry's own request got, marked `MISS`.
-/

namespace RustyGasket.ResponseCache

def isHopByHop (name : String) : Bool :=
  ["connection", "keep-alive", "proxy-authenticate", "proxy-authorization", "te", "trailer",
    "transfer-encoding", "upgrade"].contains name

/-- The headers a client of the origin sees. -/
def EndToEnd (name : String) : Prop := isHopByHop name = false ∧ name ≠ "x-cache"

structure Replays (delivered hit : Response) : Prop where
  status : hit.status = delivered.status
  body : hit.body = delivered.body
  headers : ∀ name, EndToEnd name → hit.headers.getAll name = delivered.headers.getAll name

/-- At most one line of each header, and that one is text. -/
def Plain (headers : HeaderMap) : Prop :=
  ∀ name, EndToEnd name → (headers.getAll name).length ≤ 1 ∧
    ∀ value ∈ headers.getAll name, value.toStr.isSome = true

/-- The headers an entry keeps. -/
def keptHeaders (headers : HeaderMap) : HeaderMap :=
  headers.filter fun h => isCacheableResponseHeader h.1 && h.2.toStr.isSome

theorem cacheableResponseHeaders_eq (headers : HeaderMap) :
    cacheableResponseHeaders headers = (keptHeaders headers).map fun h => (h.1, h.2.bytes) := by
  induction headers with
  | nil => rfl
  | cons h rest ih =>
    rw [cacheableResponseHeaders, keptHeaders] at *
    cases cacheable : isCacheableResponseHeader h.1 with
    | false => simpa [cacheable] using ih
    | true =>
      cases text : h.2.toStr with
      | none => simpa [cacheable, text] using ih
      | some _ => simpa [cacheable, text] using ih

/-- Of each name a hit has the last line that decodes. -/
theorem hit_getAll (status : Nat) (headers : HeaderMap) (bytes : Bytes) {name : String}
    (other : name ≠ "x-cache") :
    (cachedResponse ⟨status, cacheableResponseHeaders headers, bytes⟩ .hit).headers.getAll name =
      ((keptHeaders headers).getAll name).getLast?.toList := by
  rw [cachedResponse, markCacheStatus, HeaderMap.getAll_setAll_of_ne _ other,
    cacheableResponseHeaders_eq, List.foldl_map]
  simp only [HeaderValue.fromBytes_bytes]
  exact HeaderMap.getAll_foldl_setAll _ _

theorem keptHeaders_getAll (headers : HeaderMap) {name : String}
    (cacheable : isCacheableResponseHeader name = true) :
    (keptHeaders headers).getAll name = (headers.getAll name).filter (·.toStr.isSome) := by
  rw [keptHeaders, HeaderMap.getAll, HeaderMap.getAll, List.filter_map, List.filter_filter,
    List.filter_filter]
  congr 1
  apply List.filter_congr
  intro h _
  by_cases same : h.1 = name
  · simp [same, cacheable]
  · simp [same]

theorem getAll_filter_nil {headers : HeaderMap} {name : String}
    (absent : headers.getAll name = []) (p : String × HeaderValue → Bool) :
    HeaderMap.getAll (headers.filter p) name = [] := by
  rw [HeaderMap.getAll, List.map_eq_nil_iff, List.filter_eq_nil_iff] at *
  intro h kept
  exact absent h (List.mem_of_mem_filter kept)

/-- Nothing of a list is lost in its last good element exactly when that is all of it. -/
theorem getLast_filter_eq {α : Type} (p : α → Bool) (l : List α) :
    (l.filter p).getLast?.toList = l ↔ l.length ≤ 1 ∧ ∀ x ∈ l, p x = true := by
  constructor
  · intro whole
    have short : l.length ≤ 1 := by
      rw [← whole]
      cases (l.filter p).getLast? <;> simp
    refine ⟨short, fun x hx => ?_⟩
    rw [← whole, Option.mem_toList] at hx
    exact List.of_mem_filter (List.mem_of_getLast? hx)
  · rintro ⟨short, good⟩
    rw [List.filter_eq_self.mpr good]
    match l, short with
    | [], _ => rfl
    | [x], _ => rfl

/-- `set-cookie` is left out like the hop-by-hop headers, and keeps a response out of
the cache. -/
theorem endToEnd_cacheable {name : String} (endToEnd : EndToEnd name) :
    isCacheableResponseHeader name = true ∨ name = "set-cookie" := by
  have hop := endToEnd.1
  by_cases cookie : name = "set-cookie"
  · exact .inr cookie
  · simp_all [isHopByHop, isCacheableResponseHeader]

theorem replays_iff_plain {status : Nat} {headers : HeaderMap} {bytes : Bytes}
    {policy : ResponseCachePolicy}
    (stored : shouldStoreResponse status headers bytes.length policy = true) :
    Replays (markCacheStatus ⟨status, headers, some bytes⟩ .miss)
        (cachedResponse ⟨status, cacheableResponseHeaders headers, bytes⟩ .hit) ↔
      Plain (markCacheStatus ⟨status, headers, some bytes⟩ .miss).headers := by
  simp only [shouldStoreResponse, Bool.and_eq_true, decide_eq_true_eq] at stored
  obtain ⟨⟨⟨⟨lower, upper⟩, -⟩, -⟩, noCookie⟩ := stored
  have delivered : ∀ name, EndToEnd name →
      (markCacheStatus ⟨status, headers, some bytes⟩ .miss).headers.getAll name =
        headers.getAll name :=
    fun name endToEnd => HeaderMap.getAll_setAll_of_ne headers endToEnd.2 _
  have lines : ∀ name, EndToEnd name →
      (cachedResponse ⟨status, cacheableResponseHeaders headers, bytes⟩ .hit).headers.getAll name =
        ((headers.getAll name).filter (·.toStr.isSome)).getLast?.toList := by
    intro name endToEnd
    rw [hit_getAll _ _ _ endToEnd.2]
    obtain cacheable | rfl := endToEnd_cacheable endToEnd
    · rw [keptHeaders_getAll headers cacheable]
    · have none : headers.getAll "set-cookie" = [] := List.isEmpty_iff.mp noCookie
      have kept := getAll_filter_nil none fun h =>
        isCacheableResponseHeader h.1 && h.2.toStr.isSome
      rw [none, keptHeaders, kept]
      rfl
  constructor
  · intro replays name endToEnd
    have same := replays.headers name endToEnd
    rw [lines name endToEnd, delivered name endToEnd] at same
    rw [delivered name endToEnd]
    exact (getLast_filter_eq _ _).mp same
  · intro plain
    refine ⟨?_, rfl, fun name endToEnd => ?_⟩
    · simp only [cachedResponse, markCacheStatus]
      exact if_pos ⟨by omega, by omega⟩
    · have short := plain name endToEnd
      rw [delivered name endToEnd] at short ⊢
      rw [lines name endToEnd]
      exact (getLast_filter_eq _ _).mpr short

/-! ## Where the entries come from -/

variable {Id : Type}

/-- The entry was made from an acceptable response, with which its own request was
answered. -/
def Origin (ok : Nat → HeaderMap → Bytes → Prop) (world : World Id) (entry : Entry Id) : Prop :=
  ∃ status headers bytes, ok status headers bytes ∧
    entry.cached = ⟨status, cacheableResponseHeaders headers, bytes⟩ ∧
    world.phase entry.owner = .fresh (markCacheStatus ⟨status, headers, some bytes⟩ .miss)

structure Provenance (ok : Nat → HeaderMap → Bytes → Prop) (world : World Id) : Prop where
  stored : ∀ full entry, world.store full = some entry → Origin ok world entry
  hits : ∀ id entry response, world.phase id = .hit entry response →
    Origin ok world entry ∧ response = cachedResponse entry.cached .hit

/-- What the step hands to the cache is acceptable. -/
def Keeps (policy : ResponseCachePolicy) (ok : Nat → HeaderMap → Bytes → Prop)
    (world : World Id) : Id × StreamAction → Prop
  | (_, .arrive _) => True
  | (id, .respond handler _) => ∀ key, world.phase id = .handler key →
      ∀ kept, (afterHandler policy key handler).2 = some kept →
        ok handler.status handler.headers kept.2.body

theorem Provenance.init (ok : Nat → HeaderMap → Bytes → Prop) :
    Provenance ok (World.init : World Id) where
  stored _ _ he := by cases he
  hits _ _ _ hp := by cases hp

theorem afterHandler_kept {policy : ResponseCachePolicy} {key : Option CacheKey}
    {handler : StreamedResponse} {kept : CacheKey × CachedHttpResponse}
    (h : (afterHandler policy key handler).2 = some kept) :
    ∃ bytes, handler.body.collect = some bytes ∧
      shouldStoreResponse handler.status handler.headers bytes.length policy = true ∧
      kept.2 = ⟨handler.status, cacheableResponseHeaders handler.headers, bytes⟩ ∧
      (afterHandler policy key handler).1.collected =
        markCacheStatus ⟨handler.status, handler.headers, some bytes⟩ .miss := by
  cases key with
  | none => cases h
  | some key =>
    cases read : handler.body.collect with
    | none => rw [afterHandler_failed read] at h; cases h
    | some bytes =>
      cases stored : shouldStoreResponse handler.status handler.headers bytes.length policy with
      | false => rw [afterHandler_skipped read stored] at h; cases h
      | true =>
        rw [afterHandler_stored read stored] at h ⊢
        cases h
        refine ⟨bytes, rfl, stored, rfl, ?_⟩
        rw [StreamedResponse.mark_collected, StreamedResponse.collected,
          BodyStream.collect_ofBytes]

theorem keeps_storable {policy : ResponseCachePolicy} (world : World Id) (label : Id × StreamAction) :
    Keeps policy (fun status headers bytes =>
      shouldStoreResponse status headers bytes.length policy = true) world label := by
  obtain ⟨id, action⟩ := label
  cases action with
  | arrive answer => trivial
  | respond handler written =>
    intro key _ kept h
    obtain ⟨bytes, -, stored, cached, -⟩ := afterHandler_kept h
    rw [cached]
    exact stored

variable {space : String}

theorem beforeHandler_response {policy : ResponseCachePolicy}
    {world : World Id} {request : Request} {answer : Answer} {entry : Entry Id}
    {response : Response}
    (h : beforeHandler space policy world request answer = .hit entry response) :
    response = cachedResponse entry.cached .hit := by
  simp only [beforeHandler] at h
  split at h
  · split at h
    · cases h
    · split at h
      · cases h; rfl
      · cases h
  · cases h

theorem keep_some {store : Bytes → Option (Entry Id)} {id : Id} {written : Bool}
    {kept : Option (CacheKey × CachedHttpResponse)} {full : Bytes} {entry : Entry Id}
    (h : keep space store id written kept full = some entry) :
    store full = some entry ∨ ∃ key cached, kept = some (key, cached) ∧ entry = ⟨cached, id⟩ := by
  cases kept with
  | none => exact .inl h
  | some kept =>
    obtain old | ⟨-, rfl⟩ := cacheSet_some h
    · exact .inl old
    · exact .inr ⟨kept.1, kept.2, rfl, rfl⟩

variable [DecidableEq Id] {policy : ResponseCachePolicy} {requests : Id → Request}

theorem serve_arrive {world next : World Id} {id : Id} {answer : Answer}
    (h : serve space policy requests world (id, .arrive answer) = some next) :
    world.phase id = .arriving ∧
      next = world.goto id (beforeHandler space policy world (requests id) answer) := by
  simp only [serve, StreamAction.collected, step] at h
  split at h
  · rename_i phase
    exact ⟨phase, (Option.some.inj h).symm⟩
  · cases h

/-- A response that is out stays as it is. -/
theorem serve_fresh {world next : World Id} {label : Id × StreamAction} {id : Id}
    {response : Response} (h : serve space policy requests world label = some next)
    (out : world.phase id = .fresh response) : next.phase id = .fresh response := by
  obtain ⟨mover, action⟩ := label
  cases action with
  | arrive answer =>
    obtain ⟨phase, rfl⟩ := serve_arrive h
    rw [goto_phase, if_neg, out]
    rintro rfl
    rw [out] at phase
    cases phase
  | respond handler written =>
    obtain ⟨key, phase, -, others, -⟩ := serve_respond h
    rw [others, out]
    rintro rfl
    rw [out] at phase
    cases phase

variable {ok : Nat → HeaderMap → Bytes → Prop}

theorem Origin.serve {world next : World Id} {label : Id × StreamAction} {entry : Entry Id}
    (origin : Origin ok world entry)
    (h : serve space policy requests world label = some next) : Origin ok next entry := by
  obtain ⟨status, headers, bytes, good, cached, out⟩ := origin
  exact ⟨status, headers, bytes, good, cached, serve_fresh h out⟩

theorem Provenance.serve {world next : World Id} {label : Id × StreamAction}
    (known : Provenance ok world) (keeps : Keeps policy ok world label)
    (h : serve space policy requests world label = some next) : Provenance ok next := by
  have old : ∀ {entry}, Origin ok world entry → Origin ok next entry :=
    fun origin => origin.serve h
  obtain ⟨mover, action⟩ := label
  cases action with
  | arrive answer =>
    obtain ⟨-, moved⟩ := serve_arrive h
    constructor
    · intro full entry he
      rw [moved] at he
      exact old (known.stored full entry he)
    · intro id entry response hit
      rw [moved, goto_phase] at hit
      split at hit
      · obtain ⟨-, _, full, -, -, found⟩ := beforeHandler_hit hit
        exact ⟨old (known.stored full entry found), beforeHandler_response hit⟩
      · obtain ⟨origin, same⟩ := known.hits id entry response hit
        exact ⟨old origin, same⟩
  | respond handler written =>
    obtain ⟨key, phase, sent, others, store⟩ := serve_respond h
    constructor
    · intro full entry he
      rw [store] at he
      obtain before | ⟨_, cached, kept, rfl⟩ := keep_some he
      · exact old (known.stored full entry before)
      · have good := keeps key phase _ kept
        obtain ⟨bytes, -, -, rfl, response⟩ := afterHandler_kept kept
        rw [response] at sent
        exact ⟨handler.status, handler.headers, bytes, good, rfl, sent⟩
    · intro id entry response hit
      by_cases same : id = mover
      · rw [same, sent] at hit
        cases hit
      · rw [others id same] at hit
        obtain ⟨origin, response⟩ := known.hits id entry response hit
        exact ⟨old origin, response⟩

/-- **A hit replays the response it was stored from exactly when that is plain.** In
every state of every run, for every request answered from the cache: the entry's own
request was answered with a response marked `MISS`, and the hit has its status, its
body and its values of every end-to-end header if and only if that response has at
most one line of each, and text in it. -/
theorem hit_replays_iff_plain (space : String) (policy : ResponseCachePolicy)
    (requests : Id → Request) (run : List (Id × StreamAction)) :
    Transition.Always (serve space policy requests)
      (fun world => ∀ id entry response, world.phase id = .hit entry response →
        ∃ delivered, world.phase entry.owner = .fresh delivered ∧
          delivered.headers.getAll "x-cache" = [CacheStatus.miss.value] ∧
          (Replays delivered response ↔ Plain delivered.headers)) World.init run := by
  have known : Transition.Always (serve space policy requests) (Provenance fun status headers bytes =>
      shouldStoreResponse status headers bytes.length policy = true) World.init run := by
    apply Transition.always_of_preserved _ (Provenance.init _)
    intro world label next known h
    exact known.serve (keeps_storable world label) h
  apply known.mono
  intro world known id entry response hit
  obtain ⟨⟨status, headers, bytes, stored, cached, out⟩, rfl⟩ := known.hits id entry response hit
  refine ⟨_, out, HeaderMap.getAll_setAll _ _ _, ?_⟩
  rw [cached]
  exact replays_iff_plain stored

/-- `Accept-Encoding` and `Origin`, on two lines of `vary`. -/
def varyLines : List HeaderValue :=
  [.ofBytes [65, 99, 99, 101, 112, 116, 45, 69, 110, 99, 111, 100, 105, 110, 103] (by decide),
    .ofBytes [79, 114, 105, 103, 105, 110] (by decide)]

def varyResponse : StreamedResponse :=
  ⟨200, varyLines.map fun line => ("vary", line), .empty⟩

/-- The first request (`false`) is answered by the handler, the second from the cache. -/
def varyRun : List (Bool × StreamAction) :=
  [(false, .arrive .missing), (false, .respond varyResponse true), (true, .arrive .held)]

/-- The hit has lost the first of the two lines. -/
theorem repeated_header_lost :
    ∃ world entry delivered response,
      Transition.exec (serve "rusty-gasket" ⟨.public_, 100, []⟩ fun _ => reportRequest)
        World.init varyRun = some world ∧
      world.phase false = .fresh delivered ∧ world.phase true = .hit entry response ∧
      entry.owner = false ∧ delivered.headers.getAll "vary" = varyLines ∧
      response.headers.getAll "vary" = varyLines.drop 1 ∧ ¬ Replays delivered response := by
  refine ⟨_, _, _, _, rfl, rfl, rfl, rfl, rfl, rfl, ?_⟩
  intro replays
  have lines := replays.headers "vary" ⟨by decide, by decide⟩
  exact absurd lines (by decide)

end RustyGasket.ResponseCache
