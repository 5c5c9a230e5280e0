import RustyGasket.Replay

/-!
# Responses that must not be kept

What a response says about being stored is a matter of bytes on any `Cache-Control`
line. The middleware reads the first line, and that as text.
-/

namespace RustyGasket.ResponseCache

def lowerByte (b : UInt8) : UInt8 := if 65 ≤ b ∧ b ≤ 90 then b + 32 else b

/-- The bytes of `no-store`. -/
def noStore : Bytes := [110, 111, 45, 115, 116, 111, 114, 101]

/-- The value contains `no-store`, in any letter case. -/
def SaysNoStore (value : HeaderValue) : Prop := noStore <:+: value.bytes.map lowerByte

/-- A response that must not be stored: its `Cache-Control` forbids it, it sets a
cookie, it is no success, or it is too large. -/
def Forbidden (policy : ResponseCachePolicy) (status : Nat) (headers : HeaderMap)
    (size : Nat) : Prop :=
  (∃ value ∈ headers.getAll "cache-control", SaysNoStore value) ∨
    headers.getAll "set-cookie" ≠ [] ∨ ¬ (200 ≤ status ∧ status < 300) ∨
    policy.maxBodyBytes < size

/-! ## Reading the first line as text -/

theorem lowerByte_toChar (b : UInt8) :
    Char.ofNat (lowerByte b).toNat = toAsciiLowercase (Char.ofNat b.toNat) := by
  apply forall_byte (P := fun b => Char.ofNat (lowerByte b).toNat =
    toAsciiLowercase (Char.ofNat b.toNat))
  decide +kernel

theorem infix_map_of_injective {α β : Type} {f : α → β} (injective : Function.Injective f)
    {l l' : List α} : l.map f <:+: l'.map f ↔ l <:+: l' := by
  constructor
  · intro h
    obtain ⟨part, inside, same⟩ := List.infix_map_iff.mp h
    rwa [List.map_injective_iff.mpr injective same]
  · exact fun h => h.map f

theorem asciiText_lower (bytes : Bytes) :
    (asciiText bytes).map toAsciiLowercase = asciiText (bytes.map lowerByte) := by
  simp only [asciiText, List.map_map]
  apply List.map_congr_left
  intro b _
  exact (lowerByte_toChar b).symm

/-- On text the search in characters is the search in bytes. -/
theorem text_saysNoStore (value : HeaderValue) :
    ['n', 'o', '-', 's', 't', 'o', 'r', 'e'] <:+: (asciiText value.bytes).map toAsciiLowercase ↔
      SaysNoStore value := by
  have word : (['n', 'o', '-', 's', 't', 'o', 'r', 'e'] : List Char) = asciiText noStore := by
    decide
  rw [asciiText_lower, word]
  exact infix_map_of_injective toChar_injective

/-- The first `Cache-Control` line is text and says so. -/
def FirstLineForbids (headers : HeaderMap) : Prop :=
  ∃ value, headers.get "cache-control" = some value ∧ value.toStr.isSome = true ∧
    SaysNoStore value

theorem forbidsStore_iff (headers : HeaderMap) :
    forbidsStore headers = true ↔ FirstLineForbids headers := by
  rw [forbidsStore, FirstLineForbids]
  cases headers.get "cache-control" with
  | none => simp
  | some value =>
    simp only [Option.bind_some, Option.some.injEq, exists_eq_left']
    rw [HeaderValue.toStr]
    split
    · simpa using text_saysNoStore value
    · simp

theorem shouldStoreResponse_iff {status : Nat} {headers : HeaderMap} {size : Nat}
    {policy : ResponseCachePolicy} : shouldStoreResponse status headers size policy = true ↔
      (200 ≤ status ∧ status < 300) ∧ size ≤ policy.maxBodyBytes ∧ ¬ FirstLineForbids headers ∧
        headers.getAll "set-cookie" = [] := by
  rw [← forbidsStore_iff]
  simp [shouldStoreResponse, and_assoc]

/-! ## Histories -/

variable {Id : Type} {policy : ResponseCachePolicy}

/-- A step whose response is forbidden hands nothing to the cache. -/
def Unstored (policy : ResponseCachePolicy) (world : World Id) : Id × StreamAction → Prop
  | (_, .arrive _) => True
  | (id, .respond handler _) => ∀ key, world.phase id = .handler key →
      Forbidden policy handler.status handler.headers handler.body.content.length →
      (afterHandler policy key handler).2 = none

/-- `no-store` stands on some line, and the first line as text does not have it. -/
def Overlooked (headers : HeaderMap) : Prop :=
  (∃ value ∈ headers.getAll "cache-control", SaysNoStore value) ∧ ¬ FirstLineForbids headers

/-- No whole response of a request with a key has an overlooked `no-store` as the only
thing against it. -/
def Caught (policy : ResponseCachePolicy) (world : World Id) : Id × StreamAction → Prop
  | (_, .arrive _) => True
  | (id, .respond handler _) => world.phase id ≠ .handler none → handler.body.fails = false →
      200 ≤ handler.status ∧ handler.status < 300 →
      handler.body.content.length ≤ policy.maxBodyBytes →
      handler.headers.getAll "set-cookie" = [] → ¬ Overlooked handler.headers

theorem afterHandler_unkept {key : CacheKey} {handler : StreamedResponse} :
    (afterHandler policy (some key) handler).2 = none ↔ (handler.body.fails = false →
      shouldStoreResponse handler.status handler.headers handler.body.content.length policy =
        false) := by
  cases read : handler.body.collect with
  | none =>
    rw [afterHandler_failed read]
    simp [BodyStream.collect_eq_none.mp read]
  | some bytes =>
    obtain ⟨whole, rfl⟩ := BodyStream.collect_eq_some.mp read
    cases stored : shouldStoreResponse handler.status handler.headers
      handler.body.content.length policy with
    | true => simp [afterHandler_stored read stored, whole]
    | false => simp [afterHandler_skipped read stored]

/-- What is kept although forbidden has its `no-store` overlooked. -/
theorem unkept_iff (policy : ResponseCachePolicy) (key : CacheKey) (handler : StreamedResponse) :
    (Forbidden policy handler.status handler.headers handler.body.content.length →
        (afterHandler policy (some key) handler).2 = none) ↔
      (handler.body.fails = false → 200 ≤ handler.status ∧ handler.status < 300 →
        handler.body.content.length ≤ policy.maxBodyBytes →
        handler.headers.getAll "set-cookie" = [] → ¬ Overlooked handler.headers) := by
  rw [afterHandler_unkept, ← Bool.not_eq_true (shouldStoreResponse _ _ _ _),
    shouldStoreResponse_iff, Forbidden, Overlooked]
  constructor
  · rintro unstored whole success small noCookie ⟨line, unread⟩
    exact unstored (.inl line) whole ⟨success, small, unread, noCookie⟩
  · rintro caught forbidden whole ⟨success, small, unread, noCookie⟩
    obtain line | cookie | failed | large := forbidden
    · exact caught whole success small noCookie ⟨line, unread⟩
    · exact cookie noCookie
    · exact failed success
    · omega

theorem Unstored.keeps {world : World Id} {label : Id × StreamAction}
    (unstored : Unstored policy world label) :
    Keeps policy (fun status headers bytes => ¬ Forbidden policy status headers bytes.length)
      world label := by
  obtain ⟨id, action⟩ := label
  cases action with
  | arrive answer => trivial
  | respond handler written =>
    intro key phase kept h forbidden
    obtain ⟨bytes, read, -, cached, -⟩ := afterHandler_kept h
    obtain ⟨-, rfl⟩ := BodyStream.collect_eq_some.mp read
    rw [cached] at forbidden
    rw [unstored key phase forbidden] at h
    cases h

variable [DecidableEq Id] {space : String} {requests : Id → Request}

theorem unstored_iff_caught {world next : World Id} {label : Id × StreamAction}
    (h : serve space policy requests world label = some next) :
    Unstored policy world label ↔ Caught policy world label := by
  obtain ⟨id, action⟩ := label
  cases action with
  | arrive answer => exact Iff.rfl
  | respond handler written =>
    obtain ⟨key, phase, -⟩ := serve_respond h
    cases key with
    | none => simp [Unstored, Caught, phase, afterHandler]
    | some key =>
      simp only [Unstored, Caught, phase, Phase.handler.injEq, forall_eq', ne_eq, reduceCtorEq,
        not_false_eq_true, true_implies]
      exact unkept_iff policy key handler

/-- **Forbidden responses are not stored, unless their `no-store` is overlooked.** A run
hands no forbidden response to the cache if and only if it has no whole response whose
`no-store` the first line, as text, does not show while nothing else speaks against it.
From the empty cache on, such a run has no entry and no hit made from a forbidden
response. -/
theorem forbidden_unstored_iff_caught (space : String) (policy : ResponseCachePolicy)
    (requests : Id → Request) (run : List (Id × StreamAction)) :
    (∀ (before after : World Id) id handler written,
      serve space policy requests before (id, .respond handler written) = some after →
      ∃ key, before.phase id = .handler key ∧
        after.store = keep space before.store id written (afterHandler policy key handler).2) ∧
    (∀ world, Transition.Along (serve space policy requests) (Unstored policy) world run ↔
      Transition.Along (serve space policy requests) (Caught policy) world run) ∧
    (Transition.Along (serve space policy requests) (Caught policy) World.init run →
      Transition.Always (serve space policy requests)
        (Provenance fun status headers bytes => ¬ Forbidden policy status headers bytes.length)
        World.init run) := by
  have same : ∀ world : World Id,
      Transition.Along (serve space policy requests) (Unstored policy) world run ↔
        Transition.Along (serve space policy requests) (Caught policy) world run := by
    intro world
    apply Transition.along_congr (I := fun _ => True) (fun _ _ _ _ _ => trivial) ?_ trivial
    intro before label after _ h
    exact unstored_iff_caught h
  refine ⟨fun before after id handler written h => ?_, same, fun caught => ?_⟩
  · obtain ⟨key, phase, -, -, kept⟩ := serve_respond h
    exact ⟨key, phase, kept⟩
  · apply Transition.Along.always ?_ ((same _).mpr caught) (Provenance.init _)
    intro world label next known unstored h
    exact known.serve unstored.keeps h

/-- `max-age=60` and `no-store`, on two lines of `cache-control`. -/
def statementResponse : StreamedResponse where
  status := 200
  headers := [
    ("cache-control", .ofBytes [109, 97, 120, 45, 97, 103, 101, 61, 54, 48] (by decide)),
    ("cache-control", .ofBytes noStore (by decide))]
  body := .ofBytes [49, 48, 48]

def statementRun : List (Bool × StreamAction) :=
  [(false, .arrive .missing), (false, .respond statementResponse true), (true, .arrive .held)]

/-- The second line forbids storing; the second request is answered with the stored body. -/
theorem second_line_overlooked :
    ∃ world entry response,
      Forbidden ⟨.public_, 100, []⟩ statementResponse.status statementResponse.headers
        statementResponse.body.content.length ∧
      Transition.exec (serve "rusty-gasket" ⟨.public_, 100, []⟩ fun _ => reportRequest)
        World.init statementRun = some world ∧
      world.phase true = .hit entry response ∧ entry.owner = false ∧
      response.body = some [49, 48, 48] := by
  refine ⟨_, _, _, ?_, rfl, rfl, rfl, rfl⟩
  exact .inl ⟨.ofBytes noStore (by decide), by decide, ⟨[], [], by decide⟩⟩

end RustyGasket.ResponseCache
