import RustyGasket.CacheIsolation

/-!
# What the cache does to a response it did not answer

`response_cache_middleware` from the handler on, with the body as the stream it is:
chunks, and perhaps an error after them. Reading the stream is what `step` has as
the body of a response; this is the same system with the streams put back.
-/

namespace RustyGasket.ResponseCache

/-- A body as it is read: what it yields, and whether it ends in an error. -/
structure BodyStream where
  chunks : List Bytes
  fails : Bool
  deriving DecidableEq, Repr

namespace BodyStream

def empty : BodyStream := ⟨[], false⟩

def ofBytes (bytes : Bytes) : BodyStream := ⟨[bytes], false⟩

def content (body : BodyStream) : Bytes := body.chunks.flatten

/-- `body.collect().await`, to bytes. -/
def collect (body : BodyStream) : Option Bytes :=
  if body.fails then none else some body.content

@[simp] theorem content_empty : empty.content = [] := rfl

@[simp] theorem content_ofBytes (bytes : Bytes) : (ofBytes bytes).content = bytes := by
  simp [content, ofBytes]

@[simp] theorem collect_empty : empty.collect = some [] := rfl

@[simp] theorem collect_ofBytes (bytes : Bytes) : (ofBytes bytes).collect = some bytes := by
  simp [collect, ofBytes, content]

theorem collect_eq_some {body : BodyStream} {bytes : Bytes} :
    body.collect = some bytes ↔ body.fails = false ∧ body.content = bytes := by
  rw [collect]
  cases body.fails <;> simp

theorem collect_eq_none {body : BodyStream} : body.collect = none ↔ body.fails = true := by
  rw [collect]
  cases body.fails <;> simp

end BodyStream

structure StreamedResponse where
  status : Nat
  headers : HeaderMap
  body : BodyStream

def StreamedResponse.collected (response : StreamedResponse) : Response :=
  ⟨response.status, response.headers, response.body.collect⟩

def StreamedResponse.mark (response : StreamedResponse) (status : CacheStatus) :
    StreamedResponse :=
  { response with headers := response.headers.setAll "x-cache" [status.value] }

@[simp] theorem StreamedResponse.mark_collected (response : StreamedResponse)
    (status : CacheStatus) :
    (response.mark status).collected = markCacheStatus response.collected status := rfl

/-- The middleware once the handler has responded: what it sends on, and what it
hands to the cache. Without a key the response goes through as it is. -/
def afterHandler (policy : ResponseCachePolicy) (key : Option CacheKey)
    (handler : StreamedResponse) :
    StreamedResponse × Option (CacheKey × CachedHttpResponse) :=
  match key with
  | none => (handler.mark .bypass, none)
  | some key => match handler.body.collect with
    | none => ({ handler with body := .empty }.mark .bypass, none)
    | some bytes =>
      let response := { handler with body := .ofBytes bytes }
      if shouldStoreResponse handler.status handler.headers bytes.length policy then
        (response.mark .miss,
          some (key, ⟨handler.status, cacheableResponseHeaders handler.headers, bytes⟩))
      else (response.mark .bypass, none)

section
variable {policy : ResponseCachePolicy} {key : CacheKey} {handler : StreamedResponse}

theorem afterHandler_failed (read : handler.body.collect = none) :
    afterHandler policy (some key) handler =
      ({ handler with body := .empty }.mark .bypass, none) := by
  simp only [afterHandler, read]

theorem afterHandler_stored {bytes : Bytes} (read : handler.body.collect = some bytes)
    (stored : shouldStoreResponse handler.status handler.headers bytes.length policy = true) :
    afterHandler policy (some key) handler = ({ handler with body := .ofBytes bytes }.mark .miss,
      some (key, ⟨handler.status, cacheableResponseHeaders handler.headers, bytes⟩)) := by
  simp only [afterHandler, read, stored, ↓reduceIte]

theorem afterHandler_skipped {bytes : Bytes} (read : handler.body.collect = some bytes)
    (skipped : shouldStoreResponse handler.status handler.headers bytes.length policy = false) :
    afterHandler policy (some key) handler =
      ({ handler with body := .ofBytes bytes }.mark .bypass, none) := by
  simp only [afterHandler, read, skipped, Bool.false_eq_true, ↓reduceIte]

end

inductive StreamAction
  | arrive (answer : Answer)
  | respond (handler : StreamedResponse) (written : Bool)

def StreamAction.collected : StreamAction → Action
  | arrive answer => .arrive answer
  | respond handler written =>
    .respond handler.status handler.headers handler.body.collect written

variable {Id : Type} [DecidableEq Id] (space : String) (policy : ResponseCachePolicy)
  (requests : Id → Request)

def serve (world : World Id) (label : Id × StreamAction) : Option (World Id) :=
  step space policy requests world (label.1, label.2.collected)

/-- The store after what `afterHandler` hands to the cache. -/
def keep (store : Bytes → Option (Entry Id)) (id : Id) (written : Bool) :
    Option (CacheKey × CachedHttpResponse) → Bytes → Option (Entry Id)
  | none => store
  | some (key, cached) => cacheSet store space key ⟨cached, id⟩ written

variable {space policy requests}

/-- **A step from the handler on** is `afterHandler`, in every state of the cache and
whatever becomes of the write. -/
theorem serve_respond {world next : World Id} {id : Id} {handler : StreamedResponse}
    {written : Bool}
    (h : serve space policy requests world (id, .respond handler written) = some next) :
    ∃ key, world.phase id = .handler key ∧
      next.phase id = .fresh (afterHandler policy key handler).1.collected ∧
      (∀ other, other ≠ id → next.phase other = world.phase other) ∧
      next.store = keep space world.store id written (afterHandler policy key handler).2 := by
  have moved : ∀ response : Response, (world.goto id (.fresh response)).phase id =
      .fresh response := by
    intro response
    rw [goto_phase, if_pos rfl]
  have others : ∀ (response : Response) other, other ≠ id →
      (world.goto id (.fresh response)).phase other = world.phase other := by
    intro response other differs
    rw [goto_phase, if_neg differs]
  simp only [serve, StreamAction.collected, step] at h
  split at h
  · rename_i phase
    cases h
    exact ⟨none, phase, moved _, others _, rfl⟩
  · rename_i key phase
    refine ⟨some key, phase, ?_⟩
    split at h
    · rename_i read
      cases h
      rw [afterHandler_failed read]
      exact ⟨moved _, others _, rfl⟩
    · rename_i bytes read
      split at h
      · rename_i stored
        cases h
        rw [afterHandler_stored read stored, StreamedResponse.mark_collected,
          StreamedResponse.collected, BodyStream.collect_ofBytes]
        exact ⟨moved _, others _, rfl⟩
      · rename_i skipped
        cases h
        rw [afterHandler_skipped read (by simpa using skipped), StreamedResponse.mark_collected,
          StreamedResponse.collected, BodyStream.collect_ofBytes]
        exact ⟨moved _, others _, rfl⟩
  · cases h

/-! ## Transparency -/

/-- The response sent on is the handler's, `x-cache` aside: the same status and
headers, the same bytes, and a failure where the handler's body fails, which is
then not kept either. -/
structure Delivered (handler : StreamedResponse)
    (sent : StreamedResponse × Option (CacheKey × CachedHttpResponse)) : Prop where
  status : sent.1.status = handler.status
  headers : sent.1.headers.filter (·.1 ≠ "x-cache") = handler.headers.filter (·.1 ≠ "x-cache")
  content : sent.1.body.content = handler.body.content
  ending : sent.1.body.fails = handler.body.fails
  unkept : handler.body.fails = true → sent.2 = none

theorem mark_headers (response : StreamedResponse) (status : CacheStatus) :
    (response.mark status).headers.filter (·.1 ≠ "x-cache") =
      response.headers.filter (·.1 ≠ "x-cache") := by
  simp [StreamedResponse.mark, HeaderMap.setAll]

/-- The one exit that is not transparent is the failed read of a body. -/
theorem delivered_iff (policy : ResponseCachePolicy) (key : Option CacheKey)
    (handler : StreamedResponse) :
    Delivered handler (afterHandler policy key handler) ↔
      (handler.body.fails = true → key = none) := by
  cases key with
  | none =>
    refine ⟨fun _ _ => rfl, fun _ => ⟨rfl, mark_headers _ _, rfl, rfl, fun _ => rfl⟩⟩
  | some key =>
    cases read : handler.body.collect with
    | none =>
      have fails := BodyStream.collect_eq_none.mp read
      rw [afterHandler_failed read]
      constructor
      · intro delivered
        exact absurd (delivered.ending.trans fails) Bool.false_ne_true
      · intro bypasses
        exact absurd (bypasses fails) (Option.some_ne_none key)
    | some bytes =>
      obtain ⟨whole, content⟩ := BodyStream.collect_eq_some.mp read
      have body : (BodyStream.ofBytes bytes).content = handler.body.content := by
        rw [BodyStream.content_ofBytes, content]
      have unfailed : ∀ {p : Prop}, handler.body.fails = true → p := by
        intro p fails
        rw [whole] at fails
        cases fails
      refine ⟨fun _ => unfailed, fun _ => ?_⟩
      cases stored : shouldStoreResponse handler.status handler.headers bytes.length policy with
      | true =>
        rw [afterHandler_stored read stored]
        exact ⟨rfl, mark_headers _ _, body, whole.symm, unfailed⟩
      | false =>
        rw [afterHandler_skipped read stored]
        exact ⟨rfl, mark_headers _ _, body, whole.symm, fun _ => rfl⟩

/-- A step that answers from the handler delivers the handler's response. -/
def Transparent (policy : ResponseCachePolicy) (world : World Id) : Id × StreamAction → Prop
  | (_, .arrive _) => True
  | (id, .respond handler _) => ∀ key, world.phase id = .handler key →
      Delivered handler (afterHandler policy key handler)

/-- A body that fails belongs to a request that goes past the cache. -/
def Collected (world : World Id) : Id × StreamAction → Prop
  | (_, .arrive _) => True
  | (id, .respond handler _) => handler.body.fails = true → world.phase id = .handler none

theorem transparent_iff_collected {world next : World Id} {label : Id × StreamAction}
    (h : serve space policy requests world label = some next) :
    Transparent policy world label ↔ Collected world label := by
  obtain ⟨id, action⟩ := label
  cases action with
  | arrive answer => exact Iff.rfl
  | respond handler written =>
    obtain ⟨key, phase, -⟩ := serve_respond h
    simp only [Transparent, Collected, phase, Phase.handler.injEq, forall_eq', delivered_iff]

/-- **Transparent when it does not hit.** What a step from the handler sends on and
keeps is what `afterHandler` says, from every state of the cache; and a run delivers
every response that is not a hit as the handler made it, and keeps no failed one, if
and only if no body fails on a request the cache has a key for. -/
theorem transparent_unless_hit (space : String) (policy : ResponseCachePolicy)
    (requests : Id → Request) (world : World Id) (run : List (Id × StreamAction)) :
    (∀ (before after : World Id) id handler written,
      serve space policy requests before (id, .respond handler written) = some after →
      ∃ key, before.phase id = .handler key ∧
        after.phase id = .fresh (afterHandler policy key handler).1.collected ∧
        after.store = keep space before.store id written (afterHandler policy key handler).2) ∧
    (Transition.Along (serve space policy requests) (Transparent policy) world run ↔
      Transition.Along (serve space policy requests) Collected world run) := by
  refine ⟨fun before after id handler written h => ?_, ?_⟩
  · obtain ⟨key, phase, sent, -, kept⟩ := serve_respond h
    exact ⟨key, phase, sent, kept⟩
  · apply Transition.along_congr (I := fun _ => True) (fun _ _ _ _ _ => trivial) ?_ trivial
    intro before label after _ h
    exact transparent_iff_collected h

def reportRequest : Request where
  method := "GET"
  pathAndQuery := some "/report"
  path := "/report"
  headers := []

/-- A report whose body breaks off after four bytes. -/
def brokenReport : StreamedResponse := ⟨200, [], ⟨[[112, 97, 114, 116]], true⟩⟩

def brokenRun : List (Unit × StreamAction) :=
  [((), .arrive .missing), ((), .respond brokenReport true)]

/-- The report that broke off is delivered as a complete empty response with status 200. -/
theorem broken_report_delivered :
    (Transition.exec (serve "rusty-gasket" ⟨.public_, 100, []⟩ fun _ => reportRequest)
      World.init brokenRun).map (·.phase ()) =
        some (.fresh ⟨200, [("x-cache", CacheStatus.bypass.value)], some []⟩) ∧
    ¬ Transition.Along (serve "rusty-gasket" ⟨.public_, 100, []⟩ fun _ => reportRequest)
      (Transparent ⟨.public_, 100, []⟩) World.init brokenRun := by
  refine ⟨rfl, ?_⟩
  intro transparent
  have delivered := ((transparent _ rfl).2 _ rfl).1 _ rfl
  exact Bool.false_ne_true delivered.ending

end RustyGasket.ResponseCache
