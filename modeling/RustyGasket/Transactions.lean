import RustyGasket.Auth
import RustyGasket.Pairing
import RustyGasket.Transition

/-!
# One database transaction per request

`transaction_middleware`, `RequestTransaction` and `DbTx`, for any number of requests
over one pool of connections. Every step is one request's; which connection the pool
lends, what the database answers and when a future is dropped is left open.

Of `sqlx` the model has what its documentation promises: `begin` lends a connection
nobody else has, `commit` consumes the transaction, and a transaction dropped before
that is rolled back; either way the connection is the pool's again. A setting made with
`set_config(.., true)` lasts until the end of the transaction, a session variable as
long as the connection.
-/

namespace RustyGasket.RequestTx

inductive ResolvedBackend
  | postgres
  | mySql
  deriving DecidableEq, Repr

def isKept (c : Char) : Bool := c.isAlphanum || c == '-'

def sanitizeRequestId (id : List Char) : List Char := (id.filter isKept).take 55

/-- The correlation value. -/
def appName (requestId : List Char) : List Char := "gasket|".toList ++ sanitizeRequestId requestId

/-- What a connection has been told about who is using it. -/
structure Session where
  applicationName : Option (List Char)
  gasketRequestId : Option (List Char)
  deriving DecidableEq, Repr

/-- The correlation statement. -/
def Session.correlate (session : Session) (value : List Char) : ResolvedBackend → Session
  | .postgres => { session with applicationName := some value }
  | .mySql => { session with gasketRequestId := some value }

/-- The end of a transaction. -/
def Session.finish (session : Session) : Session := { session with applicationName := none }

/-- What the query log shows of a statement on the connection. -/
def Session.tag (session : Session) : ResolvedBackend → Option (List Char)
  | .postgres => session.applicationName
  | .mySql => session.gasketRequestId

/-- Where a request's future is in the middleware; `correlating` owns a transaction. -/
inductive Stage (Conn : Type)
  | waiting
  | correlating (tx : Conn)
  /-- In `next.run(request)`, or past it. -/
  | running
  /-- Answered with `DATABASE_ERROR`. -/
  | refused
  | dropped
  deriving DecidableEq, Repr

def Stage.tx {Conn : Type} : Stage Conn → Option Conn
  | correlating tx => some tx
  | _ => none

/-- The mutex behind the `Arc`, and how many clones of that are alive. A transaction
stands by its connection. -/
structure RequestTransaction (Conn : Type) where
  handles : Nat
  poisoned : Bool
  inner : Option Conn
  deriving DecidableEq, Repr

namespace RequestTransaction

variable {Conn : Type}

def new (tx : Conn) : RequestTransaction Conn := ⟨1, false, some tx⟩

def take (cell : RequestTransaction Conn) : Option Conn × RequestTransaction Conn :=
  if cell.poisoned then (none, cell) else (cell.inner, { cell with inner := none })

end RequestTransaction

inductive Settlement
  | committed
  | rolledBack
  /-- `commit` returned an error. -/
  | commitFailed
  deriving DecidableEq, Repr

/-- `begun`, `extracted` and `settled` are history variables: the transactions begun
for the request, the successful extractions, and how its transactions ended. -/
structure RequestState (Conn : Type) where
  stage : Stage Conn
  cell : Option (RequestTransaction Conn)
  /-- The `DbTx` values that are alive. -/
  dbTx : List Conn
  begun : Nat
  extracted : Nat
  settled : List Settlement
  deriving DecidableEq, Repr

namespace RequestState

variable {Conn : Type}

def arriving : RequestState Conn := ⟨.waiting, none, [], 0, 0, []⟩

def inner (r : RequestState Conn) : Option Conn := r.cell.bind (·.inner)

def handles (r : RequestState Conn) : Nat := (r.cell.map (·.handles)).getD 0

/-- The transactions that are open, wherever they are kept. -/
def openTx (r : RequestState Conn) : List Conn :=
  r.stage.tx.toList ++ r.inner.toList ++ r.dbTx

end RequestState

/-- `seen` is a history variable: the statements run in a `DbTx`, each with the tag it
was logged under. `owner` is whom the pool has lent a connection to. -/
structure State (Req Conn : Type) where
  request : Req → RequestState Conn
  owner : Conn → Option Req
  session : Conn → Session
  seen : List (Req × Option (List Char))

variable {Req Conn : Type}

def init : State Req Conn := ⟨fun _ => .arriving, fun _ => none, fun _ => ⟨none, none⟩, []⟩

inductive Label (Req Conn : Type)
  | begin (r : Req) (conn : Conn)
  | beginFails (r : Req)
  | correlate (r : Req) (ok : Bool)
  /-- The future is dropped while it is in the middleware's own code. -/
  | drop (r : Req)
  | clone (r : Req)
  | forget (r : Req)
  | extract (r : Req)
  | statement (r : Req)
  | commit (r : Req) (ok : Bool)
  | dropTx (r : Req)
  deriving DecidableEq, Repr

section
variable [DecidableEq Req] [DecidableEq Conn]

def State.put (s : State Req Conn) (r : Req) (next : RequestState Conn) : State Req Conn :=
  { s with request := Function.update s.request r next }

/-- The transaction on `conn` ends, and the request goes on as `next`. -/
def State.settle (s : State Req Conn) (r : Req) (conn : Conn) (how : Settlement)
    (next : RequestState Conn) : State Req Conn where
  request := Function.update s.request r { next with settled := how :: next.settled }
  owner := Function.update s.owner conn none
  session := Function.update s.session conn (s.session conn).finish
  seen := s.seen

/-- The pool lends `conn`, and a transaction begins on it. -/
def State.lend (s : State Req Conn) (r : Req) (conn : Conn) (next : RequestState Conn) :
    State Req Conn where
  request := Function.update s.request r { next with begun := next.begun + 1 }
  owner := Function.update s.owner conn (some r)
  session := s.session
  seen := s.seen

/-- The connection is told `value`. -/
def State.track (s : State Req Conn) (r : Req) (conn : Conn) (value : List Char)
    (backend : ResolvedBackend) (next : RequestState Conn) : State Req Conn where
  request := Function.update s.request r next
  owner := s.owner
  session := Function.update s.session conn ((s.session conn).correlate value backend)
  seen := s.seen

/-- `begin` of the pool, for a request that awaits it. -/
def begin (s : State Req Conn) (r : Req) (conn : Conn) : Option (State Req Conn) :=
  let now := s.request r
  match now.stage, s.owner conn with
  | .waiting, none => some (s.lend r conn { now with stage := .correlating conn })
  | _, _ => none

/-- The second half of `begin_tracked_transaction`, and what the middleware does with it. -/
def correlate (backend : ResolvedBackend) (requestId : Option (List Char)) (s : State Req Conn)
    (r : Req) (ok : Bool) : Option (State Req Conn) :=
  let now := s.request r
  match now.stage, ok with
  | .correlating conn, true => some (s.track r conn (appName (requestId.getD [])) backend
      { now with stage := .running, cell := some (.new conn) })
  | .correlating conn, false => some (s.settle r conn .rolledBack { now with stage := .refused })
  | _, _ => none

def drop (s : State Req Conn) (r : Req) : Option (State Req Conn) :=
  let now := s.request r
  match now.stage with
  | .waiting => some (s.put r { now with stage := .dropped })
  | .correlating conn => some (s.settle r conn .rolledBack { now with stage := .dropped })
  | _ => none

def clone (s : State Req Conn) (r : Req) : Option (State Req Conn) :=
  let now := s.request r
  match now.cell with
  | some ⟨handles + 1, poisoned, inner⟩ =>
    some (s.put r { now with cell := some ⟨handles + 2, poisoned, inner⟩ })
  | _ => none

/-- One handle is dropped; the last one takes what is in the cell with it. -/
def forget (s : State Req Conn) (r : Req) : Option (State Req Conn) :=
  let now := s.request r
  match now.cell with
  | some ⟨1, poisoned, some conn⟩ =>
    some (s.settle r conn .rolledBack { now with cell := some ⟨0, poisoned, none⟩ })
  | some ⟨handles + 1, poisoned, inner⟩ =>
    some (s.put r { now with cell := some ⟨handles, poisoned, inner⟩ })
  | _ => none

/-- `DbTx::from_request_parts`, through one of the handles. -/
def extract (s : State Req Conn) (r : Req) : Option (State Req Conn) :=
  let now := s.request r
  match now.cell with
  | some ⟨handles + 1, poisoned, inner⟩ =>
    match RequestTransaction.take ⟨handles + 1, poisoned, inner⟩ with
    | (some conn, cell) => some (s.put r
      { now with cell := some cell, dbTx := conn :: now.dbTx, extracted := now.extracted + 1 })
    | (none, cell) => some (s.put r { now with cell := some cell })
  | _ => none

def statement (backend : ResolvedBackend) (s : State Req Conn) (r : Req) :
    Option (State Req Conn) :=
  match (s.request r).dbTx with
  | conn :: _ => some { s with seen := (r, (s.session conn).tag backend) :: s.seen }
  | [] => none

/-- A `DbTx` is used up. -/
def finish (s : State Req Conn) (r : Req) (how : Settlement) : Option (State Req Conn) :=
  let now := s.request r
  match now.dbTx with
  | conn :: rest => some (s.settle r conn how { now with dbTx := rest })
  | [] => none

def step (backend : ResolvedBackend) (requestId : Req → Option (List Char)) (s : State Req Conn) :
    Label Req Conn → Option (State Req Conn)
  | .begin r conn => begin s r conn
  | .beginFails r => match (s.request r).stage with
    | .waiting => some (s.put r { s.request r with stage := .refused })
    | _ => none
  | .correlate r ok => correlate backend (requestId r) s r ok
  | .drop r => drop s r
  | .clone r => clone s r
  | .forget r => forget s r
  | .extract r => extract s r
  | .statement r => statement backend s r
  | .commit r ok => finish s r (if ok then .committed else .commitFailed)
  | .dropTx r => finish s r .rolledBack

end

/-! ## The life of a request's transaction -/

/-- How a request can stand, with the transaction that is open for it. -/
inductive Stands : RequestState Conn → Option Conn → Prop
  | waiting : Stands .arriving none
  | correlating {conn} : Stands ⟨.correlating conn, none, [], 1, 0, []⟩ (some conn)
  | kept {conn handles} : Stands ⟨.running, some ⟨handles + 1, false, some conn⟩, [], 1, 0, []⟩
      (some conn)
  | taken {conn handles} : Stands ⟨.running, some ⟨handles, false, none⟩, [conn], 1, 1, []⟩
      (some conn)
  /-- The handler used its `DbTx` up. -/
  | used {handles how} : Stands ⟨.running, some ⟨handles, false, none⟩, [], 1, 1, [how]⟩ none
  /-- Nobody extracted it. -/
  | forgotten : Stands ⟨.running, some ⟨0, false, none⟩, [], 1, 0, [.rolledBack]⟩ none
  /-- No connection, or no correlation. -/
  | refused : Stands ⟨.refused, none, [], 0, 0, []⟩ none
  | uncorrelated : Stands ⟨.refused, none, [], 1, 0, [.rolledBack]⟩ none
  /-- Dropped before the transaction began, or between that and the correlation. -/
  | left : Stands ⟨.dropped, none, [], 0, 0, []⟩ none
  | abandoned : Stands ⟨.dropped, none, [], 1, 0, [.rolledBack]⟩ none

theorem Stands.openTx {r : RequestState Conn} {live : Option Conn} (h : Stands r live) :
    r.openTx = live.toList := by
  cases h <;> rfl

/-- The transaction of `r` whose correlation statement has run. -/
def RequestState.tracked (r : RequestState Conn) : List Conn := r.inner.toList ++ r.dbTx

theorem Stands.tracked {r : RequestState Conn} {live : Option Conn} (h : Stands r live) {conn : Conn}
    (held : conn ∈ r.tracked) : live = some conn ∧ r.stage = .running := by
  cases h with
  | kept | taken =>
    rw [List.mem_singleton.mp held]
    exact ⟨rfl, rfl⟩
  | _ => cases held

/-- Nothing is begun twice, taken twice, lost or settled twice. -/
structure SettlesOnce (r : RequestState Conn) : Prop where
  begun : r.begun ≤ 1
  accounted : r.openTx.length + r.settled.length = r.begun
  extracted : r.extracted ≤ 1
  /-- Only a handler that extracted the transaction has it committed. -/
  chosen : .committed ∈ r.settled ∨ .commitFailed ∈ r.settled → r.extracted = 1
  refused : r.stage = .refused → r.extracted = 0 ∧ r.openTx = []
  unpoisoned : ∀ cell ∈ r.cell, cell.poisoned = false
  /-- With the last handle and the last `DbTx` the transaction is gone. -/
  released : r.stage.tx = none → r.handles = 0 → r.dbTx = [] → r.openTx = []

theorem Stands.settlesOnce {r : RequestState Conn} {live : Option Conn} (h : Stands r live) :
    SettlesOnce r := by
  constructor
  · cases h <;> simp [RequestState.arriving]
  · rw [h.openTx]
    cases h <;> rfl
  · cases h <;> simp [RequestState.arriving]
  · cases h <;> simp [RequestState.arriving]
  · intro refused
    rw [h.openTx]
    cases h <;> first | exact ⟨rfl, rfl⟩ | cases refused
  · cases h <;> simp [RequestState.arriving]
  · intro notBeginning noHandle noTx
    rw [h.openTx]
    cases h with
    | correlating => cases notBeginning
    | kept => cases noHandle
    | taken => cases noTx
    | _ => rfl

/-- The invariant, for the open transactions `live`: each request stands in one of the
ways above, the connections lent are those of `live`, and a tracked transaction carries
its request's tag. -/
structure Sound (backend : ResolvedBackend) (requestId : Req → Option (List Char))
    (live : Req → Option Conn) (s : State Req Conn) : Prop where
  stands : ∀ r, Stands (s.request r) (live r)
  paired : Paired live s.owner
  tagged : ∀ r, ∀ conn ∈ (s.request r).tracked,
    (s.session conn).tag backend = some (appName ((requestId r).getD []))
  seen : ∀ r tag, (r, tag) ∈ s.seen → tag = some (appName ((requestId r).getD []))

theorem sound_init (backend : ResolvedBackend) (requestId : Req → Option (List Char)) :
    Sound backend requestId (fun _ => none) (init : State Req Conn) where
  stands _ := .waiting
  paired := .empty
  tagged _ _ held := by cases held
  seen _ _ logged := by cases logged

section
variable {backend : ResolvedBackend} {requestId : Req → Option (List Char)}
  {live : Req → Option Conn} {s t : State Req Conn} {r : Req} {conn : Conn}

/-- Where the request stands, with its parts named. -/
theorem Sound.here (h : Sound backend requestId live s) (r : Req) :
    ∃ now held, s.request r = now ∧ live r = held ∧ Stands now held :=
  ⟨_, _, rfl, rfl, h.stands r⟩

/-- No request but `r` has a transaction on `conn`. -/
theorem Sound.elsewhere (h : Sound backend requestId live s) {other : Req} {conn' : Conn}
    (held : live r = some conn) (differs : other ≠ r) (held' : conn' ∈ (s.request other).tracked) :
    conn' ≠ conn := by
  rintro rfl
  exact differs (h.paired.same_holder ((h.stands other).tracked held').1 held)

theorem statement_sound (h : Sound backend requestId live s) (he : statement backend s r = some t) :
    Sound backend requestId live t := by
  unfold statement at he
  cases tx : (s.request r).dbTx with
  | nil => simp [tx] at he
  | cons conn rest =>
    simp only [tx, Option.some.injEq] at he
    subst he
    have tracked : conn ∈ (s.request r).tracked := by simp [RequestState.tracked, tx]
    refine ⟨h.stands, h.paired, h.tagged, ?_⟩
    intro r' tag logged
    obtain first | earlier := List.mem_cons.mp logged
    · cases first
      exact h.tagged r conn tracked
    · exact h.seen r' tag earlier

variable [DecidableEq Req]

/-- A step that opens and ends nothing. -/
theorem Sound.put (h : Sound backend requestId live s) {next : RequestState Conn}
    {held : Option Conn} (before : live r = held) (after : Stands next held)
    (tracked : ∀ conn ∈ next.tracked, conn ∈ (s.request r).tracked) :
    Sound backend requestId live (s.put r next) where
  stands other := by
    by_cases same : other = r
    · subst same
      simpa [State.put, before] using after
    · simpa [State.put, same] using h.stands other
  paired := h.paired
  tagged other conn held := by
    by_cases same : other = r
    · subst same
      simp only [State.put, Function.update_self] at held
      exact h.tagged other conn (tracked conn held)
    · simp only [State.put, Function.update_of_ne same] at held
      exact h.tagged other conn held
  seen := h.seen

theorem clone_sound (h : Sound backend requestId live s) (he : clone s r = some t) :
    Sound backend requestId live t := by
  obtain ⟨now, held, hr, hl, stands⟩ := h.here r
  unfold clone at he
  cases stands with
  | @kept conn handles =>
    simp only [hr, Option.some.injEq] at he
    subst he
    exact h.put hl .kept (fun _ held => hr ▸ held)
  | @taken conn handles =>
    cases handles with
    | zero => simp [hr] at he
    | succ handles =>
      simp only [hr, Option.some.injEq] at he
      subst he
      exact h.put hl .taken (fun _ held => hr ▸ held)
  | @used handles how =>
    cases handles with
    | zero => simp [hr] at he
    | succ handles =>
      simp only [hr, Option.some.injEq] at he
      subst he
      exact h.put hl .used nofun
  | _ => simp [hr, RequestState.arriving] at he

theorem extract_sound (h : Sound backend requestId live s) (he : extract s r = some t) :
    Sound backend requestId live t := by
  obtain ⟨now, held, hr, hl, stands⟩ := h.here r
  unfold extract at he
  cases stands with
  | @kept conn handles =>
    simp only [hr, RequestTransaction.take, Bool.false_eq_true, if_false, Option.some.injEq] at he
    subst he
    exact h.put hl .taken (fun _ held => hr ▸ held)
  | @taken conn handles =>
    cases handles with
    | zero => simp [hr] at he
    | succ handles =>
      simp only [hr, RequestTransaction.take, Bool.false_eq_true, if_false, Option.some.injEq] at he
      subst he
      exact h.put hl .taken (fun _ held => hr ▸ held)
  | @used handles how =>
    cases handles with
    | zero => simp [hr] at he
    | succ handles =>
      simp only [hr, RequestTransaction.take, Bool.false_eq_true, if_false, Option.some.injEq] at he
      subst he
      exact h.put hl .used nofun
  | _ => simp [hr, RequestState.arriving] at he

variable [DecidableEq Conn]

/-- The pool lends `conn`. -/
theorem Sound.lend (h : Sound backend requestId live s) {next : RequestState Conn}
    (before : live r = none) (free : s.owner conn = none)
    (after : Stands { next with begun := next.begun + 1 } (some conn))
    (untracked : next.tracked = []) :
    Sound backend requestId (Function.update live r (some conn)) (s.lend r conn next) where
  stands other := by
    by_cases same : other = r
    · subst same
      simpa [State.lend] using after
    · simpa [State.lend, same] using h.stands other
  paired := h.paired.take before free
  tagged other conn' held := by
    by_cases same : other = r
    · subst same
      simp only [State.lend, Function.update_self] at held
      have tracked : conn' ∈ next.tracked := held
      rw [untracked] at tracked
      cases tracked
    · simp only [State.lend, Function.update_of_ne same] at held
      exact h.tagged other conn' held
  seen := h.seen

/-- The transaction of `r` ends. -/
theorem Sound.settle (h : Sound backend requestId live s) {next : RequestState Conn}
    {how : Settlement} (before : live r = some conn)
    (after : Stands { next with settled := how :: next.settled } none) :
    Sound backend requestId (Function.update live r none) (s.settle r conn how next) where
  stands other := by
    by_cases same : other = r
    · subst same
      simpa [State.settle] using after
    · simpa [State.settle, same] using h.stands other
  paired := h.paired.release before
  tagged other conn' held := by
    by_cases same : other = r
    · subst same
      simp only [State.settle, Function.update_self] at held
      cases (after.tracked held).1
    · simp only [State.settle, Function.update_of_ne same] at held
      have differs := h.elsewhere before same held
      simpa only [State.settle, Function.update_of_ne differs] using h.tagged other conn' held
  seen := h.seen

/-- The correlation statement has run. -/
theorem Sound.track (h : Sound backend requestId live s) {next : RequestState Conn}
    (before : live r = some conn) (after : Stands next (some conn)) :
    Sound backend requestId live
      (s.track r conn (appName ((requestId r).getD [])) backend next) where
  stands other := by
    by_cases same : other = r
    · subst same
      simpa [State.track, before] using after
    · simpa [State.track, same] using h.stands other
  paired := h.paired
  tagged other conn' held := by
    by_cases same : other = r
    · subst same
      simp only [State.track, Function.update_self] at held ⊢
      obtain rfl := Option.some.inj (after.tracked held).1
      rw [Function.update_self]
      cases backend <;> rfl
    · simp only [State.track, Function.update_of_ne same] at held
      have differs := h.elsewhere before same held
      simpa only [State.track, Function.update_of_ne differs] using h.tagged other conn' held
  seen := h.seen

theorem begin_sound (h : Sound backend requestId live s) (he : begin s r conn = some t) :
    ∃ live, Sound backend requestId live t := by
  obtain ⟨now, held, hr, hl, stands⟩ := h.here r
  unfold begin at he
  cases free : s.owner conn with
  | some other => cases stands <;> simp [hr, free] at he
  | none =>
    cases stands with
    | waiting =>
      simp only [hr, free, RequestState.arriving, Option.some.injEq] at he
      subst he
      exact ⟨_, h.lend hl free .correlating rfl⟩
    | _ => simp [hr] at he

theorem correlate_sound (h : Sound backend requestId live s) {ok : Bool}
    (he : correlate backend (requestId r) s r ok = some t) :
    ∃ live, Sound backend requestId live t := by
  obtain ⟨now, held, hr, hl, stands⟩ := h.here r
  unfold correlate at he
  cases stands with
  | correlating =>
    cases ok with
    | true =>
      simp only [hr, Option.some.injEq] at he
      subst he
      exact ⟨_, h.track hl .kept⟩
    | false =>
      simp only [hr, Option.some.injEq] at he
      subst he
      exact ⟨_, h.settle hl .uncorrelated⟩
  | _ => simp [hr, RequestState.arriving] at he

theorem drop_sound (h : Sound backend requestId live s) (he : drop s r = some t) :
    ∃ live, Sound backend requestId live t := by
  obtain ⟨now, held, hr, hl, stands⟩ := h.here r
  unfold drop at he
  cases stands with
  | waiting =>
    simp only [hr, RequestState.arriving, Option.some.injEq] at he
    subst he
    exact ⟨_, h.put hl .left nofun⟩
  | correlating =>
    simp only [hr, Option.some.injEq] at he
    subst he
    exact ⟨_, h.settle hl .abandoned⟩
  | _ => simp [hr] at he

theorem forget_sound (h : Sound backend requestId live s) (he : forget s r = some t) :
    ∃ live, Sound backend requestId live t := by
  obtain ⟨now, held, hr, hl, stands⟩ := h.here r
  unfold forget at he
  cases stands with
  | @kept conn handles =>
    cases handles with
    | zero =>
      simp only [hr, Option.some.injEq] at he
      subst he
      exact ⟨_, h.settle hl .forgotten⟩
    | succ handles =>
      simp only [hr, Option.some.injEq] at he
      subst he
      exact ⟨_, h.put hl .kept (fun _ held => hr ▸ held)⟩
  | @taken conn handles =>
    cases handles with
    | zero => simp [hr] at he
    | succ handles =>
      simp only [hr, Option.some.injEq] at he
      subst he
      exact ⟨_, h.put hl .taken (fun _ held => hr ▸ held)⟩
  | @used handles how =>
    cases handles with
    | zero => simp [hr] at he
    | succ handles =>
      simp only [hr, Option.some.injEq] at he
      subst he
      exact ⟨_, h.put hl .used nofun⟩
  | _ => simp [hr, RequestState.arriving] at he

theorem finish_sound (h : Sound backend requestId live s) {how : Settlement}
    (he : finish s r how = some t) : ∃ live, Sound backend requestId live t := by
  obtain ⟨now, held, hr, hl, stands⟩ := h.here r
  unfold finish at he
  cases stands with
  | taken =>
    simp only [hr, Option.some.injEq] at he
    subst he
    exact ⟨_, h.settle hl .used⟩
  | _ => simp [hr, RequestState.arriving] at he

/-- Every step keeps the invariant. -/
theorem step_sound {label : Label Req Conn} (h : ∃ live, Sound backend requestId live s)
    (he : step backend requestId s label = some t) : ∃ live, Sound backend requestId live t := by
  obtain ⟨live, h⟩ := h
  cases label with
  | begin r conn => exact begin_sound h he
  | beginFails r =>
    obtain ⟨now, held, hr, hl, stands⟩ := h.here r
    simp only [step] at he
    cases stands with
    | waiting =>
      simp only [hr, RequestState.arriving, Option.some.injEq] at he
      subst he
      exact ⟨_, h.put hl .refused nofun⟩
    | _ => simp [hr] at he
  | correlate r ok => exact correlate_sound h he
  | drop r => exact drop_sound h he
  | clone r => exact ⟨_, clone_sound h he⟩
  | forget r => exact forget_sound h he
  | extract r => exact ⟨_, extract_sound h he⟩
  | statement r => exact ⟨_, statement_sound h he⟩
  | commit r ok => exact finish_sound h he
  | dropTx r => exact finish_sound h he

theorem run_sound (backend : ResolvedBackend) (requestId : Req → Option (List Char))
    (run : List (Label Req Conn)) :
    Transition.Always (step backend requestId) (fun s => ∃ live, Sound backend requestId live s)
      init run :=
  Transition.always_of_preserved (fun _ _ _ h he => step_sound h he)
    ⟨_, sound_init backend requestId⟩ run

/-! ## What a request can count on -/

/-- **Every transaction is settled exactly once.** For any pool, any requests and any
interleaving: in every state, each request has begun at most one transaction, and that is
in one place or has ended once, committed only through a `DbTx`; the connections the pool
has lent are those of the open transactions, one each. -/
theorem transactions_settle_once (backend : ResolvedBackend) (requestId : Req → Option (List Char))
    (run : List (Label Req Conn)) :
    Transition.Always (step backend requestId)
      (fun s => (∀ r, SettlesOnce (s.request r)) ∧
        ∀ conn r, s.owner conn = some r ↔ conn ∈ (s.request r).openTx) init run := by
  apply (run_sound backend requestId run).mono
  rintro s ⟨live, h⟩
  refine ⟨fun r => (h.stands r).settlesOnce, fun conn r => ?_⟩
  rw [(h.stands r).openTx, Option.mem_toList, ← h.paired r conn]

theorem sanitizeRequestId_kept (id : List Char) : ∀ c ∈ sanitizeRequestId id, isKept c = true := by
  intro c hc
  exact List.of_mem_filter (List.mem_of_mem_take hc)

theorem isKept_ascii {c : Char} (h : isKept c = true) : c.utf8Size = 1 := by
  have alphanum_small : c.isAlphanum = true → c.val ≤ 127 := by
    intro h
    obtain h | digit := Bool.or_eq_true_iff.mp h
    · obtain upper | lower := Bool.or_eq_true_iff.mp h
      · exact Nat.le_trans (of_decide_eq_true upper).2 (by decide)
      · exact Nat.le_trans (of_decide_eq_true (Bool.and_eq_true_iff.mp lower).2) (by decide)
    · exact Nat.le_trans (of_decide_eq_true (Bool.and_eq_true_iff.mp digit).2) (by decide)
  have small : c.val ≤ 127 := by
    obtain alphanum | dash := Bool.or_eq_true_iff.mp h
    · exact alphanum_small alphanum
    · rw [eq_of_beq dash]
      decide
  exact Char.utf8Size_eq_one_iff.mpr small

theorem textLength_kept {text : List Char} (h : ∀ c ∈ text, isKept c = true) :
    textLength text = text.length := by
  induction text with
  | nil => rfl
  | cons c rest ih =>
    have one := isKept_ascii (h c List.mem_cons_self)
    have more := ih fun d hd => h d (List.mem_cons_of_mem _ hd)
    rw [textLength, one, more, List.length_cons, Nat.add_comm]

theorem textLength_gasket : textLength "gasket|".toList = 7 := by decide +kernel

/-- It fits a column of 64 bytes, its terminator included. -/
theorem appName_length (requestId : List Char) : textLength (appName requestId) ≤ 62 := by
  have short : (sanitizeRequestId requestId).length ≤ 55 := List.length_take_le _ _
  calc textLength (appName requestId)
      = textLength "gasket|".toList + textLength (sanitizeRequestId requestId) :=
        textLength_append _ _
    _ = 7 + (sanitizeRequestId requestId).length := by
        rw [textLength_gasket, textLength_kept (sanitizeRequestId_kept requestId)]
    _ ≤ 62 := by omega

/-- A tag that can be told apart from other writers and quoted anywhere. -/
structure PlainTag (tag : List Char) : Prop where
  short : textLength tag ≤ 62
  plain : ∃ id, tag = "gasket|".toList ++ id ∧ ∀ c ∈ id, isKept c = true

/-- **Statements are logged under their own request.** Whatever the clients sent as
request IDs, whichever connections the requests were lent one after another and however
the correlation statements of others ended: a statement run in a `DbTx` shows the tag of
its own request, and that is plain. -/
theorem statements_correlated (backend : ResolvedBackend) (requestId : Req → Option (List Char))
    (run : List (Label Req Conn)) :
    Transition.Always (step backend requestId)
      (fun s => ∀ r tag, (r, tag) ∈ s.seen →
        ∃ text, tag = some text ∧ text = appName ((requestId r).getD []) ∧ PlainTag text)
      init run := by
  apply (run_sound backend requestId run).mono
  rintro s ⟨live, h⟩ r tag logged
  exact ⟨_, h.seen r tag logged, rfl, appName_length _, _, rfl, sanitizeRequestId_kept _⟩

end

end RustyGasket.RequestTx
