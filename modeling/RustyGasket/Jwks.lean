import RustyGasket.JwksFetch
import RustyGasket.Transition

/-!
# `JwksKeyStore::find_key`

Any number of calls, each for its own `kid`, and the fetches they spawn. A lookup
loads the snapshot in one step and asks for its age in another. A fetch runs as a
task of its own: it outlives the call that awaits it, may end before or after any
other, or be aborted. Time passes between steps.
-/

namespace RustyGasket.Jwks

variable {lib : JsonWebToken} (crate : JwkLibrary lib) (Caller : Type)

/-- Identity of a spawned task, by order of spawning. -/
abbrev TaskId := Nat

inductive Phase
  | spawned
  /-- Awaiting the reply, since the first poll at `startedAt`. -/
  | fetching (startedAt : Nat)
  | fetched (startedAt : Nat) (document : List crate.Jwk)
  | prepared (startedAt : Nat) (snapshot : PreparedJwks crate)
  | finished (result : Except AuthError (PreparedJwks crate))
  /-- Panicked, or cancelled by the runtime. -/
  | aborted (error : String)

/-- `owner` is a history variable. -/
structure Task where
  owner : Caller
  phase : Phase crate

/-- Which lookup or fetch decided an answer; a history variable. -/
inductive Origin
  | cached (snapshot : PreparedJwks crate) (checkedAt : Nat)
  | awaited (task : TaskId)

abbrev Found (lib : JsonWebToken) := Except AuthError (PreparedKey lib)

/-- Where a call stands; `again` in the lookup under the permit. -/
inductive Pc
  | idle
  /-- In `cache_lookup`, has not loaded the snapshot. -/
  | load (again : Bool)
  /-- Has loaded `snapshot`, has not asked for its age. -/
  | check (again : Bool) (snapshot : PreparedJwks crate)
  /-- Awaiting `self.fetch_lock.acquire()`. -/
  | acquire
  /-- Holds the permit, has not spawned its fetch. -/
  | elected
  /-- Holds the permit, awaiting the task. -/
  | awaiting (task : TaskId)
  /-- Holds the permit, is about to return. -/
  | release (result : Found lib) (origin : Origin crate)
  | done (result : Found lib) (origin : Origin crate)
  | dropped

/-- A snapshot that was stored, with the start of its fetch. -/
structure Publication where
  startedAt : Nat
  snapshot : PreparedJwks crate

/-- `published` is a history variable, the newest first. -/
structure State where
  pc : Caller → Pc crate
  /-- Who has the one permit of `fetch_lock`. -/
  permit : Option Caller
  cached : Option (PreparedJwks crate)
  tasks : TaskId → Option (Task crate Caller)
  next : TaskId
  now : Nat
  published : List (Publication crate)

def init : State crate Caller := ⟨fun _ => .idle, none, none, fun _ => none, 0, 0, []⟩

inductive TaskEvent
  | start
  | respond (reply : Reply)
  | prepare
  | publish
  | abort (error : String)

inductive Label (Caller : Type)
  | tick (elapsed : Nat)
  | run (c : Caller)
  | drop (c : Caller)
  | task (id : TaskId) (event : TaskEvent)

variable {crate} {Caller}

namespace Pc

/-- In the section the permit guards. -/
def holds : Pc crate → Bool
  | load true | check true _ | elected | awaiting _ | release _ _ => true
  | _ => false

def answer : Pc crate → Option (Found lib × Origin crate)
  | release result origin | done result origin => some (result, origin)
  | _ => none

/-- A stale lookup goes on to the permit, or to the fetch. -/
def stale : Bool → Pc crate
  | false => acquire
  | true => elected

/-- A lookup that found a fresh snapshot returns. -/
def fresh (result : Found lib) (origin : Origin crate) : Bool → Pc crate
  | false => done result origin
  | true => release result origin

end Pc

namespace Phase

/-- Still running. -/
def live : Phase crate → Bool
  | finished _ | aborted _ => false
  | _ => true

def startedAt : Phase crate → Option Nat
  | fetching startedAt | fetched startedAt _ | prepared startedAt _ => some startedAt
  | _ => none

end Phase

def sanitizeForLog (text : String) : String :=
  String.ofList ((text.toList.filter fun c => !isControl c).take 128)

def kidNotFound (kid : String) : AuthError :=
  let kid := sanitizeForLog kid
  .tokenValidation s!"Key '{kid}' not found in JWKS"

/-- What a snapshot answers for a `kid`. -/
def PreparedJwks.find (snapshot : PreparedJwks crate) (kid : String) : Found lib :=
  match snapshot.keys kid with
  | some key => .ok key
  | none => .error (kidNotFound kid)

/-- What the awaited task says to the call, when it is over. -/
def Phase.join (kid : String) : Phase crate → Option (Found lib)
  | .finished (.ok snapshot) => some (snapshot.find kid)
  | .finished (.error error) => some (.error error)
  | .aborted error => some (.error (.backendError s!"JWKS fetch task did not complete: {error}"))
  | _ => none

def State.setTask (s : State crate Caller) (id : TaskId) (task : Task crate Caller) :
    State crate Caller :=
  { s with tasks := Function.update s.tasks id (some task) }

theorem setTask_tasks (s : State crate Caller) (id other : TaskId) (task : Task crate Caller) :
    (s.setTask id task).tasks other = if other = id then some task else s.tasks other := by
  simp only [State.setTask, Function.update_apply]

section
variable {s : State crate Caller} {id other : TaskId} {task after : Task crate Caller}

@[simp] theorem setTask_tasks_self : (s.setTask id task).tasks id = some task := by
  rw [setTask_tasks, if_pos rfl]

theorem setTask_tasks_of_ne (differs : other ≠ id) :
    (s.setTask id task).tasks other = s.tasks other := by
  rw [setTask_tasks, if_neg differs]

/-- What the tasks are after one of them moves. -/
theorem setTask_cases (h : (s.setTask id task).tasks other = some after) :
    (other = id ∧ after = task) ∨ (other ≠ id ∧ s.tasks other = some after) := by
  obtain ⟨same, moved⟩ | unmoved := Transition.update_cases (· = some after) h
  · exact .inl ⟨same, (Option.some.inj moved).symm⟩
  · exact .inr unmoved

end

variable [DecidableEq Caller]

def State.goto (s : State crate Caller) (c : Caller) (pc : Pc crate) : State crate Caller :=
  { s with pc := Function.update s.pc c pc }

section
variable (s : State crate Caller) (c d : Caller) (pc : Pc crate)

theorem goto_pc : (s.goto c pc).pc d = if d = c then pc else s.pc d := by
  simp only [State.goto, Function.update_apply]

@[simp] theorem goto_pc_self : (s.goto c pc).pc c = pc := by simp [goto_pc]

variable {s c d pc}

theorem goto_pc_of_ne (other : d ≠ c) : (s.goto c pc).pc d = s.pc d := by
  rw [goto_pc, if_neg other]

/-- Where a call is after a move: the mover where it went, the others where they were. -/
theorem goto_cases (P : Pc crate → Prop) (h : P ((s.goto c pc).pc d)) :
    d = c ∧ P pc ∨ d ≠ c ∧ P (s.pc d) :=
  Transition.update_cases P h

end

/-- One step of `find_key`. -/
def runCaller (store : JwksKeyStore) (kid : Caller → String) (s : State crate Caller) (c : Caller) :
    Option (State crate Caller) :=
  match s.pc c with
  | .idle => some (s.goto c (.load false))
  | .load again => match s.cached with
    | none => some (s.goto c (.stale again))
    | some snapshot => some (s.goto c (.check again snapshot))
  | .check again snapshot =>
    if store.cacheTtl ≤ s.now - snapshot.fetchedAt then some (s.goto c (.stale again))
    else some (s.goto c (.fresh (snapshot.find (kid c)) (.cached snapshot s.now) again))
  | .acquire => match s.permit with
    | none => some { s.goto c (.load true) with permit := some c }
    | some _ => none
  | .elected => some { (s.goto c (.awaiting s.next)).setTask s.next ⟨c, .spawned⟩ with
      next := s.next + 1 }
  | .awaiting id => ((s.tasks id).bind fun task => task.phase.join (kid c)).map fun result =>
      s.goto c (.release result (.awaited id))
  | .release result origin => some { s.goto c (.done result origin) with permit := none }
  | _ => none

/-- Dropping a call at an await; a permit goes with it, a task does not. -/
def dropCaller (s : State crate Caller) (c : Caller) : Option (State crate Caller) :=
  match s.pc c with
  | .acquire => some (s.goto c .dropped)
  | .awaiting _ => some { s.goto c .dropped with permit := none }
  | _ => none

/-- One step of the spawned task. -/
def runTask (store : JwksKeyStore) (s : State crate Caller) (id : TaskId)
    (task : Task crate Caller) (event : TaskEvent) : Option (State crate Caller) :=
  match event, task.phase with
  | .start, .spawned => some (s.setTask id { task with phase := .fetching s.now })
  | .respond reply, .fetching startedAt => match fetchJwks crate store.maxBodySize reply with
    | .ok document => some (s.setTask id { task with phase := .fetched startedAt document })
    | .error error => some (s.setTask id { task with phase := .finished (.error error) })
  | .prepare, .fetched startedAt document =>
    some (s.setTask id { task with phase := .prepared startedAt (prepareJwks crate s.now document) })
  | .publish, .prepared startedAt snapshot =>
    some { s.setTask id { task with phase := .finished (.ok snapshot) } with
      cached := some snapshot
      published := ⟨startedAt, snapshot⟩ :: s.published }
  | .abort error, phase =>
    if phase.live then some (s.setTask id { task with phase := .aborted error }) else none
  | _, _ => none

def step (store : JwksKeyStore) (kid : Caller → String) (s : State crate Caller) :
    Label Caller → Option (State crate Caller)
  | .tick elapsed => some { s with now := s.now + elapsed }
  | .run c => runCaller store kid s c
  | .drop c => dropCaller s c
  | .task id event => (s.tasks id).bind fun task => runTask store s id task event

/-- What a step can do, by the call or the task that takes it. -/
inductive Effect (store : JwksKeyStore) (kid : Caller → String) (s : State crate Caller) :
    Label Caller → State crate Caller → Prop
  | tick {elapsed} : Effect store kid s (.tick elapsed) { s with now := s.now + elapsed }
  | call {c} : s.pc c = .idle → Effect store kid s (.run c) (s.goto c (.load false))
  | empty {c again} : s.pc c = .load again → s.cached = none →
      Effect store kid s (.run c) (s.goto c (.stale again))
  | load {c again snapshot} : s.pc c = .load again → s.cached = some snapshot →
      Effect store kid s (.run c) (s.goto c (.check again snapshot))
  | stale {c again snapshot} : s.pc c = .check again snapshot →
      store.cacheTtl ≤ s.now - snapshot.fetchedAt →
      Effect store kid s (.run c) (s.goto c (.stale again))
  | fresh {c again snapshot} : s.pc c = .check again snapshot →
      s.now - snapshot.fetchedAt < store.cacheTtl →
      Effect store kid s (.run c)
        (s.goto c (.fresh (snapshot.find (kid c)) (.cached snapshot s.now) again))
  | acquire {c} : s.pc c = .acquire → s.permit = none →
      Effect store kid s (.run c) { s.goto c (.load true) with permit := some c }
  | spawn {c} : s.pc c = .elected →
      Effect store kid s (.run c)
        { (s.goto c (.awaiting s.next)).setTask s.next ⟨c, .spawned⟩ with next := s.next + 1 }
  | join {c id task result} : s.pc c = .awaiting id → s.tasks id = some task →
      task.phase.join (kid c) = some result →
      Effect store kid s (.run c) (s.goto c (.release result (.awaited id)))
  | release {c result origin} : s.pc c = .release result origin →
      Effect store kid s (.run c) { s.goto c (.done result origin) with permit := none }
  | dropWaiting {c} : s.pc c = .acquire → Effect store kid s (.drop c) (s.goto c .dropped)
  | dropLeading {c id} : s.pc c = .awaiting id →
      Effect store kid s (.drop c) { s.goto c .dropped with permit := none }
  | start {id task} : s.tasks id = some task → task.phase = .spawned →
      Effect store kid s (.task id .start) (s.setTask id { task with phase := .fetching s.now })
  | fetched {id task startedAt reply document} : s.tasks id = some task →
      task.phase = .fetching startedAt → fetchJwks crate store.maxBodySize reply = .ok document →
      Effect store kid s (.task id (.respond reply))
        (s.setTask id { task with phase := .fetched startedAt document })
  | failed {id task startedAt reply error} : s.tasks id = some task →
      task.phase = .fetching startedAt → fetchJwks crate store.maxBodySize reply = .error error →
      Effect store kid s (.task id (.respond reply))
        (s.setTask id { task with phase := .finished (.error error) })
  | prepare {id task startedAt document} : s.tasks id = some task →
      task.phase = .fetched startedAt document →
      Effect store kid s (.task id .prepare) (s.setTask id
        { task with phase := .prepared startedAt (prepareJwks crate s.now document) })
  | publish {id task startedAt snapshot} : s.tasks id = some task →
      task.phase = .prepared startedAt snapshot →
      Effect store kid s (.task id .publish)
        { s.setTask id { task with phase := .finished (.ok snapshot) } with
          cached := some snapshot
          published := ⟨startedAt, snapshot⟩ :: s.published }
  | abort {id task error} : s.tasks id = some task → task.phase.live = true →
      Effect store kid s (.task id (.abort error))
        (s.setTask id { task with phase := .aborted error })

theorem runCaller_effect {store : JwksKeyStore} {kid : Caller → String} {s t : State crate Caller}
    {c : Caller} (h : runCaller store kid s c = some t) : Effect store kid s (.run c) t := by
  unfold runCaller at h
  split at h
  next hpc => cases h; exact .call hpc
  next again hpc =>
    split at h
    next absent => cases h; exact .empty hpc absent
    next snapshot present => cases h; exact .load hpc present
  next again snapshot hpc =>
    split at h
    next old => cases h; exact .stale hpc old
    next young => cases h; exact .fresh hpc (by omega)
  next hpc =>
    split at h
    next free => cases h; exact .acquire hpc free
    next => cases h
  next hpc => cases h; exact .spawn hpc
  next id hpc =>
    obtain ⟨result, joined, rfl⟩ := Option.map_eq_some_iff.mp h
    obtain ⟨task, present, ended⟩ := Option.bind_eq_some_iff.mp joined
    exact .join hpc present ended
  next hpc => cases h; exact .release hpc
  next => cases h

theorem runTask_effect {store : JwksKeyStore} {kid : Caller → String} {s t : State crate Caller}
    {id : TaskId} {task : Task crate Caller} {event : TaskEvent} (present : s.tasks id = some task)
    (h : runTask store s id task event = some t) : Effect store kid s (.task id event) t := by
  unfold runTask at h
  split at h
  next phase => cases h; exact .start present phase
  next reply startedAt phase =>
    split at h
    next document parsed => cases h; exact .fetched present phase parsed
    next error refused => cases h; exact .failed present phase refused
  next phase => cases h; exact .prepare present phase
  next phase => cases h; exact .publish present phase
  next error phase =>
    split at h
    next live => cases h; exact .abort present live
    next => cases h
  next => cases h

theorem step_effect {store : JwksKeyStore} {kid : Caller → String} {s t : State crate Caller}
    {label : Label Caller} (h : step store kid s label = some t) : Effect store kid s label t := by
  cases label with
  | tick elapsed =>
    cases h
    exact .tick
  | run c => exact runCaller_effect h
  | drop c =>
    simp only [step, dropCaller] at h
    split at h
    next hpc => cases h; exact .dropWaiting hpc
    next hpc => cases h; exact .dropLeading hpc
    next => cases h
  | task id event =>
    obtain ⟨task, present, moved⟩ := Option.bind_eq_some_iff.mp h
    exact runTask_effect present moved

end RustyGasket.Jwks
