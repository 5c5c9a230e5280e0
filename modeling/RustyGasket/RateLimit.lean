import RustyGasket.AuthMiddleware
import RustyGasket.CacheTtl
import RustyGasket.CorrelationId
import RustyGasket.KeyedCells
import RustyGasket.PlainText
import RustyGasket.Transition

/-!
# `rate_limit_middleware`

Any number of clients before one limiter, and the cleanup task that visits its keys, one at a
time and whenever it gets to them. A check and its reading of the clock are one step; the
clock is read again for the time to wait.
-/

namespace RustyGasket

structure NonZeroU32 where
  value : UInt32
  nonzero : value ≠ 0
  deriving DecidableEq, Repr

structure RateLimitConfig where
  enabled : Bool
  requestsPerMinute : NonZeroU32
  burstSize : NonZeroU32
  exemptKeys : List String

def RateLimitConfig.default : RateLimitConfig := ⟨true, ⟨60, by decide⟩, ⟨10, by decide⟩, []⟩

/-- `Quota::per_minute(..).allow_burst(..)`. -/
structure Quota where
  perMinute : NonZeroU32
  burst : NonZeroU32

def RateLimitConfig.quota (config : RateLimitConfig) : Quota :=
  ⟨config.requestsPerMinute, config.burstSize⟩

/-- The `governor` crate: `check_key` on the cell of a key, with the earliest time at which a
refused one could conform, and the cells that `retain_recent` keeps. -/
structure Governor where
  Cell : Type
  check : Quota → Option Cell → (now : Nat) → Except UInt64 Cell
  isRecent : Quota → Cell → (now : Nat) → Bool

/-- What its documentation promises. -/
structure Governor.Documented (governor : Governor) : Prop where
  /-- Without conforming requests in the meantime. -/
  earliestPossible : ∀ {quota cell now earliest later},
    governor.check quota cell now = .error earliest → earliest.toNat ≤ later →
    ∃ next, governor.check quota cell later = .ok next
  /-- What is not kept is indistinguishable from a fresh state. -/
  retainRecent : ∀ quota, KeyedCells.Discards (governor.check quota) fun cell now =>
    !governor.isRecent quota cell now

namespace Quota

def interval (quota : Quota) : Nat := 60 * CacheTtl.NANOS_PER_SEC / quota.perMinute.value.toNat

/-- A burst may come before the time it would arrive at the rate. -/
def earliest (quota : Quota) (arrival : Nat) : UInt64 := UInt64.ofNat
  (min (arrival - quota.interval * (quota.burst.value.toNat - 1)) (UInt64.size - 1))

theorem earliest_le_arrival (quota : Quota) (arrival : Nat) :
    (quota.earliest arrival).toNat ≤ arrival := by
  rw [earliest, UInt64.toNat_ofNat']
  apply Nat.le_trans (Nat.mod_le _ _)
  omega

end Quota

/-- The generic cell rate algorithm: a cell is when the next request would arrive at the rate. -/
def gcra : Governor where
  Cell := Nat
  check quota cell now := match cell with
    | none => .ok (now + quota.interval)
    | some arrival => if now < (quota.earliest arrival).toNat then .error (quota.earliest arrival)
      else .ok (max arrival now + quota.interval)
  isRecent _ arrival now := now < arrival

theorem gcra_documented : gcra.Documented where
  earliestPossible := by
    intro quota cell now earliest later refused reached
    cases cell with
    | none => cases refused
    | some arrival =>
      simp only [gcra] at refused ⊢
      split at refused
      next =>
        cases refused
        rw [if_neg (Nat.not_lt.mpr reached)]
        exact ⟨_, rfl⟩
      next => cases refused
  retainRecent := by
    intro quota (arrival : Nat) now spent later reached
    have past : arrival ≤ now := by simpa [gcra] using spent
    have conforms : ¬ later < (quota.earliest arrival).toNat := by
      have early := quota.earliest_le_arrival arrival
      omega
    simp only [gcra]
    rw [if_neg conforms, Nat.max_eq_right (Nat.le_trans past reached)]

/-! ## Keys -/

def ClientIdKey.extractKey (request : AuthRequest) : Option String :=
  request.extensions.rateLimitSubject.map fun subject => String.ofList subject.text

/-! ## The middleware -/

/-- Any `RateLimitKey` extracts the key. -/
structure RateLimitState where
  config : RateLimitConfig
  keyExtractor : AuthRequest → Option String

namespace RateLimit

variable {governor : Governor}

/-- `wait_time_from(start).as_secs()`. -/
def waitSecs (earliest : UInt64) (start : Nat) : UInt64 :=
  UInt64.ofNat ((earliest.toNat - start) / CacheTtl.NANOS_PER_SEC)

/-- The response, or none where the request goes on; the clock is read again at `start`. -/
def verdict {Cell : Type} (start : Nat) : Except UInt64 Cell → Option ErrorCall
  | .ok _ => none
  | .error earliest => some (.rateLimitRejection (waitSecs earliest start))

/-- Without a response where it calls `next.run(request)`. -/
def rateLimitMiddleware (state : RateLimitState)
    (cells : KeyedCells.Store String governor.Cell) (now delay : Nat) (request : AuthRequest) :
    Option ErrorCall × KeyedCells.Store String governor.Cell :=
  if state.config.enabled then
    match state.keyExtractor request with
    | none => (none, cells)
    | some key =>
      if state.config.exemptKeys.contains key then (none, cells)
      else
        let (answer, cells) := cells.attempt (governor.check state.config.quota) key now
        (verdict (now + delay) answer, cells)
  else (none, cells)

/-- A request that was answered, or let through. -/
structure Entry where
  key : Option String
  now : Nat
  delay : Nat
  answer : Option ErrorCall

/-- `log` is a history variable. -/
structure State (governor : Governor) where
  now : Nat
  cells : KeyedCells.Store String governor.Cell
  log : List Entry

def init : State governor := ⟨0, fun _ => none, []⟩

inductive Label
  | tick (elapsed : Nat)
  | request (request : AuthRequest) (delay : Nat)
  /-- A pass of the cleanup task, begun earlier, gets to a key. -/
  | cleanup (key : String) (started : Nat)

def State.serve (state : RateLimitState) (s : State governor) (request : AuthRequest)
    (delay : Nat) : State governor :=
  let (answer, cells) := rateLimitMiddleware state s.cells s.now delay request
  ⟨s.now, cells, s.log ++ [⟨state.keyExtractor request, s.now, delay, answer⟩]⟩

def step (state : RateLimitState) (s : State governor) : Label → Option (State governor)
  | .tick elapsed => some { s with now := s.now + elapsed }
  | .request request delay => some (s.serve state request delay)
  | .cleanup key started =>
    if started ≤ s.now then some
      { s with
        cells := s.cells.discard (fun cell now => !governor.isRecent state.config.quota cell now)
          key started }
    else none

/-! ## A key's own cell -/

def limits (state : RateLimitState) (key : String) : Bool :=
  state.config.enabled && !state.config.exemptKeys.contains key

/-- When a key was checked. -/
def checked (state : RateLimitState) (log : List Entry) (key : String) : List Nat :=
  (log.filter fun e => decide (e.key = some key) && limits state key).map (·.now)

/-- The cell that a key's own requests leave, with nobody else's and nothing thrown away. -/
def ownCell (governor : Governor) (state : RateLimitState) (log : List Entry) (key : String) :
    Option governor.Cell :=
  KeyedCells.cellAfter (governor.check state.config.quota) none (checked state log key)

/-- A limited key is answered by its own cell, and every other request let through. -/
def Answered (governor : Governor) (state : RateLimitState) (earlier : List Entry) (e : Entry) :
    Prop :=
  (∀ key, e.key = some key → limits state key = true → e.answer = verdict (e.now + e.delay)
    (governor.check state.config.quota (ownCell governor state earlier key) e.now)) ∧
  ((∀ key, e.key = some key → limits state key = false) → e.answer = none)

structure Sound (state : RateLimitState) (s : State governor) : Prop where
  mirrors : s.cells.Mirrors (governor.check state.config.quota) s.now (checked state s.log)
  answered : ∀ earlier e later, s.log = earlier ++ e :: later → Answered governor state earlier e

variable {state : RateLimitState} {s t : State governor}

theorem checked_append (log : List Entry) (e : Entry) (key : String) :
    checked state (log ++ [e]) key =
      if e.key = some key ∧ limits state key = true then checked state log key ++ [e.now]
      else checked state log key := by
  rw [checked, List.filter_append, List.map_append]
  by_cases own : e.key = some key ∧ limits state key = true
  · rw [if_pos own, List.filter_cons_of_pos (by simp [own])]
    rfl
  · rw [if_neg own, List.filter_cons_of_neg (by simpa using own)]
    exact List.append_nil _

theorem checked_unlimited {log : List Entry} {e : Entry}
    (free : ∀ key, e.key = some key → limits state key = false) :
    checked state (log ++ [e]) = checked state log := by
  funext key
  rw [checked_append, if_neg]
  rintro ⟨own, limited⟩
  rw [free key own] at limited
  cases limited

theorem checked_limited {log : List Entry} {e : Entry} {key : String} (own : e.key = some key)
    (limited : limits state key = true) :
    checked state (log ++ [e]) =
      Function.update (checked state log) key (checked state log key ++ [e.now]) := by
  funext other
  rw [checked_append, own]
  by_cases same : other = key
  · subst same
    rw [if_pos ⟨rfl, limited⟩, Function.update_self]
  · rw [if_neg fun h => same (Option.some.inj h.1).symm, Function.update_of_ne same]

/-! ## One step -/

theorem middleware_limited {cells : KeyedCells.Store String governor.Cell} {now delay : Nat}
    {request : AuthRequest} {key : String} (extracted : state.keyExtractor request = some key)
    (limited : limits state key = true) :
    rateLimitMiddleware state cells now delay request =
      (verdict (now + delay) (governor.check state.config.quota (cells key) now),
        (cells.attempt (governor.check state.config.quota) key now).2) := by
  rw [limits, Bool.and_eq_true, Bool.not_eq_true'] at limited
  simp only [rateLimitMiddleware, limited, extracted, if_true]
  rfl

theorem middleware_unlimited {cells : KeyedCells.Store String governor.Cell} {now delay : Nat}
    {request : AuthRequest}
    (free : ∀ key, state.keyExtractor request = some key → limits state key = false) :
    rateLimitMiddleware state cells now delay request = (none, cells) := by
  rw [rateLimitMiddleware]
  cases extracted : state.keyExtractor request with
  | none => simp
  | some key =>
    have exempt := free key extracted
    rw [limits] at exempt
    cases enabled : state.config.enabled with
    | false => simp
    | true =>
      rw [enabled, Bool.true_and, Bool.not_eq_false'] at exempt
      simp only [exempt, if_true]

theorem init_sound : Sound state (init : State governor) where
  mirrors := KeyedCells.Store.Mirrors.empty 0
  answered earlier e later none_logged := by
    cases earlier <;> cases none_logged

/-- What is logged last is answered, and what was logged before stays so. -/
theorem Sound.logged (h : Sound state s) {e : Entry} (own : Answered governor state s.log e) :
    ∀ earlier other later, s.log ++ [e] = earlier ++ other :: later →
      Answered governor state earlier other := by
  intro earlier other later split
  obtain ⟨part, rfl, rest⟩ | ⟨part, before, rest⟩ := List.append_eq_append_iff.mp split
  · obtain ⟨rfl, only⟩ | ⟨_, -, more⟩ := List.cons_eq_append_iff.mp rest
    · obtain ⟨rfl, -⟩ := List.cons.inj only
      rwa [List.append_nil]
    · cases List.append_ne_nil_of_right_ne_nil _ (List.cons_ne_nil other later) more.symm
  · cases part with
    | nil =>
      obtain ⟨rfl, -⟩ := List.cons.inj rest
      rw [List.append_nil] at before
      exact before ▸ own
    | cons first part =>
      obtain ⟨rfl, -⟩ := List.cons.inj rest
      exact h.answered earlier other part before

theorem Sound.serve (h : Sound state s) (request : AuthRequest) (delay : Nat) :
    Sound state (s.serve state request delay) := by
  by_cases limited : ∃ key, state.keyExtractor request = some key ∧ limits state key = true
  · obtain ⟨key, extracted, limited⟩ := limited
    rw [State.serve, middleware_limited extracted limited]
    constructor
    · rw [checked_limited extracted limited]
      exact h.mirrors.attempt
    · refine h.logged ⟨?_, ?_⟩
      · intro other own _
        obtain rfl := Option.some.inj (extracted.symm.trans own)
        exact congrArg (verdict (s.now + delay)) (h.mirrors.answer key)
      · intro free
        rw [free key extracted] at limited
        cases limited
  · have free : ∀ key, state.keyExtractor request = some key → limits state key = false := by
      intro key extracted
      rw [Bool.eq_false_iff]
      exact fun own => limited ⟨key, extracted, own⟩
    rw [State.serve, middleware_unlimited free]
    constructor
    · rw [checked_unlimited free]
      exact h.mirrors
    · refine h.logged ⟨?_, fun _ => rfl⟩
      intro key extracted own
      rw [free key extracted] at own
      cases own

theorem step_sound (documented : governor.Documented) {a : Label} (h : Sound state s)
    (hs : step state s a = some t) : Sound state t := by
  cases a with
  | tick elapsed =>
    cases hs
    exact ⟨h.mirrors.later (Nat.le_add_right _ _), h.answered⟩
  | request request delay =>
    cases hs
    exact h.serve request delay
  | cleanup key started =>
    rw [step] at hs
    split at hs
    next begun =>
      cases hs
      exact ⟨h.mirrors.discard (documented.retainRecent _) begun, h.answered⟩
    next => cases hs

theorem run_sound (documented : governor.Documented) {run : List Label}
    (hs : Transition.exec (step state) init run = some s) : Sound state s :=
  Transition.exec_preserved (fun _ _ _ h hs => step_sound documented h hs) init_sound hs

/-- **Every client has a limiter of its own.** Whatever requests others send, in whatever
order, and whenever the cleanup gets to which key: a limited request is answered by what its
own key's earlier requests have left of one cell, and any other request is let through. -/
theorem clients_isolated (documented : governor.Documented) {run : List Label}
    (hs : Transition.exec (step state) init run = some s) :
    ∀ earlier e later, s.log = earlier ++ e :: later → Answered governor state earlier e :=
  (run_sound documented hs).answered

/-- One request a second, and nothing beyond it. -/
def onePerSecond : RateLimitState :=
  ⟨{ RateLimitConfig.default with burstSize := ⟨1, by decide⟩ }, ClientIdKey.extractKey⟩

def requestOf (subject : String) : AuthRequest :=
  ⟨[], "/", ⟨none, none, none, some (.new subject), none⟩⟩

/-- Alice is refused her second request, and comes back. -/
def aliceRun : List Label :=
  [.request (requestOf "alice") 0, .request (requestOf "bob") 0, .request (requestOf "alice") 500,
    .cleanup "bob" 0, .tick 1000000500, .request (requestOf "alice") 0]

def served (subject : String) : Entry := ⟨some subject, 0, 0, none⟩

def aliceRefused : Entry := ⟨some "alice", 0, 500, some (.rateLimitRejection 0)⟩

def aliceBack : Entry := ⟨some "alice", 1000000500, 0, none⟩

theorem aliceRun_logged : ∃ s, Transition.exec (step onePerSecond) (init : State gcra) aliceRun =
    some s ∧ s.log = [served "alice", served "bob", aliceRefused, aliceBack] :=
  ⟨_, rfl, rfl⟩

/-- Bob's request is not among those of Alice's cell. -/
theorem aliceRun_isolated :
    Answered gcra onePerSecond [served "alice", served "bob"] aliceRefused := by
  obtain ⟨s, ran, logged⟩ := aliceRun_logged
  exact clients_isolated gcra_documented ran _ _ [aliceBack] logged

/-! ## Coming back -/

theorem verdict_none {Cell : Type} {start : Nat} {answer : Except UInt64 Cell} :
    verdict start answer = none ↔ ∃ next, answer = .ok next := by
  cases answer <;> simp [verdict]

theorem verdict_some {Cell : Type} {start : Nat} {answer : Except UInt64 Cell} {call : ErrorCall} :
    verdict start answer = some call ↔ ∃ earliest, answer = .error earliest ∧
      call = .rateLimitRejection (waitSecs earliest start) := by
  cases answer with
  | ok next => simp [verdict]
  | error earliest => simp [verdict, eq_comm]

/-- Who is refused has a key that is limited. -/
theorem Answered.limited {earlier : List Entry} {e : Entry}
    (h : Answered governor state earlier e) {key : String} (own : e.key = some key)
    (refused : e.answer ≠ none) : limits state key = true := by
  by_contra free
  apply refused
  apply h.2
  intro other same
  obtain rfl := Option.some.inj (own.symm.trans same)
  exact Bool.eq_false_iff.mpr free

/-- Requests that are refused, and those of others, leave the cell as it was. -/
theorem ownCell_refused (h : Sound state s) {key : String} {earlier between later : List Entry}
    (split : s.log = earlier ++ (between ++ later))
    (refused : ∀ e ∈ between, e.key = some key → e.answer ≠ none) :
    ownCell governor state (earlier ++ between) key = ownCell governor state earlier key := by
  induction between generalizing earlier with
  | nil => rw [List.append_nil]
  | cons e between ih =>
    have moved : s.log = (earlier ++ [e]) ++ (between ++ later) := by
      rw [split, List.append_assoc]
      rfl
    have rest := ih moved fun other listed => refused other (List.mem_cons_of_mem _ listed)
    rw [List.append_assoc, List.singleton_append] at rest
    rw [rest, ownCell, checked_append]
    split
    next own =>
      have answered := h.answered earlier e (between ++ later) split
      have answer := answered.1 key own.1 own.2
      obtain ⟨call, called⟩ := Option.ne_none_iff_exists'.mp (refused e List.mem_cons_self own.1)
      obtain ⟨earliest, error, -⟩ := verdict_some.mp (answer.symm.trans called)
      rw [KeyedCells.cellAfter_append]
      rw [ownCell] at error
      rw [error]
      rfl
    next => rfl

/-- The seconds a client is told to wait. -/
def retryAfter (wait : UInt64) : Nat := min (wait.toNat + 1) (UInt64.size - 1)

theorem earliest_le (earliest : UInt64) (start : Nat) :
    earliest.toNat ≤ start + retryAfter (waitSecs earliest start) * CacheTtl.NANOS_PER_SEC := by
  have bound : earliest.toNat < 18446744073709551616 := earliest.toNat_lt
  have secs : (waitSecs earliest start).toNat =
      (earliest.toNat - start) / CacheTtl.NANOS_PER_SEC := by
    rw [waitSecs, UInt64.toNat_ofNat']
    apply Nat.mod_eq_of_lt
    apply Nat.lt_of_le_of_lt (Nat.div_le_self _ _)
    omega
  rw [retryAfter, secs]
  simp only [CacheTtl.NANOS_PER_SEC, UInt64.size] at *
  omega

theorem respond_retryAfter (crate : UuidCrate) (current : Option String) (generated : Nat)
    (wait : UInt64) : ∃ line,
    ((ErrorCall.rateLimitRejection wait).respond crate current generated).headers.getAll
      "retry-after" = [line] ∧ line.toStr = some (toString (retryAfter wait)).toList := by
  have plain : ∀ c ∈ Nat.toDigits 10 (retryAfter wait), isPlain c = true := by
    intro c listed
    have digit := Nat.isDigit_of_mem_toDigits (by decide) (by decide) listed
    simp only [Char.isDigit, Bool.and_eq_true, decide_eq_true_eq] at digit
    rw [isPlain, Bool.and_eq_true, decide_eq_true_eq, decide_eq_true_eq]
    simp only [UInt32.le_iff_toNat_le, ge_iff_le] at digit
    change _ ≤ c.toNat ∧ c.toNat ≤ _ at digit
    simp at digit
    omega
  obtain ⟨line, legal, shown⟩ := fromStr_plain plain
  refine ⟨line, ?_, ?_⟩
  · have text : toString (retryAfter wait) = String.ofList (Nat.toDigits 10 (retryAfter wait)) := by
      rfl
    rw [ErrorCall.respond, ErrorCall.insertText, ← retryAfter, text, legal]
    exact HeaderMap.getAll_setAll _ _ _
  · rw [shown, ← Nat.toList_repr]
    rfl

/-- **Who comes back in time is let through.** The seconds in the `Retry-After` of a refused
client are enough: its next request after them goes on, whatever it was refused in between
and whatever others did. -/
theorem retry_after_honoured (documented : governor.Documented) {run : List Label}
    (hs : Transition.exec (step state) init run = some s) {key : String}
    {earlier between later : List Entry} {refused back : Entry} {call : ErrorCall}
    (split : s.log = earlier ++ refused :: (between ++ back :: later))
    (own : refused.key = some key) (again : back.key = some key)
    (told : refused.answer = some call)
    (others : ∀ e ∈ between, e.key = some key → e.answer ≠ none)
    (crate : UuidCrate) (current : Option String) (generated : Nat) :
    (call.respond crate current generated).status = 429 ∧ ∃ line secs,
      (call.respond crate current generated).headers.getAll "retry-after" = [line] ∧
      line.toStr = some (toString secs).toList ∧
      (refused.now + refused.delay + secs * CacheTtl.NANOS_PER_SEC ≤ back.now →
        back.answer = none) := by
  have sound := run_sound documented hs
  have answered := sound.answered earlier refused _ split
  have limited := answered.limited own (by rw [told]; exact Option.some_ne_none _)
  obtain ⟨earliest, error, rfl⟩ := verdict_some.mp ((answered.1 key own limited).symm.trans told)
  obtain ⟨line, sent, shown⟩ := respond_retryAfter crate current generated
    (waitSecs earliest (refused.now + refused.delay))
  refine ⟨rfl, line, _, sent, shown, fun waited => ?_⟩
  have held : ownCell governor state (earlier ++ refused :: between) key =
      ownCell governor state earlier key := by
    apply ownCell_refused sound (by rw [split, List.cons_append])
    intro e listed
    cases listed with
    | head => intro _; rw [told]; exact Option.some_ne_none _
    | tail _ listed => exact others e listed
  have last := sound.answered (earlier ++ refused :: between) back later (by rw [split]; simp)
  rw [last.1 key again limited, held, verdict_none]
  exact documented.earliestPossible error (Nat.le_trans (earliest_le _ _) waited)

/-- One second is enough for Alice. -/
theorem aliceRun_honoured : ∃ line secs,
    ((ErrorCall.rateLimitRejection 0).respond twoUuids none 0).headers.getAll "retry-after" =
      [line] ∧ line.toStr = some (toString secs).toList ∧
    (500 + secs * CacheTtl.NANOS_PER_SEC ≤ 1000000500 → aliceBack.answer = none) := by
  obtain ⟨s, ran, logged⟩ := aliceRun_logged
  have split : s.log = [served "alice", served "bob"] ++ aliceRefused :: ([] ++ aliceBack :: []) :=
    logged
  obtain ⟨-, line, secs, sent, shown, honoured⟩ := retry_after_honoured gcra_documented ran split
    rfl rfl rfl (fun _ listed => absurd listed List.not_mem_nil) twoUuids none 0
  refine ⟨line, secs, sent, shown, fun enough => honoured ?_⟩
  exact Nat.le_trans (Nat.le_of_eq (by rw [aliceRefused, Nat.zero_add])) enough

end RateLimit

end RustyGasket
