import RustyGasket.RwLock
import RustyGasket.Tally
import RustyGasket.Transition

/-!
# `AwsSecretsProvider::get_secret_inner`

Any number of calls, each on its own secret name, over one provider. A step is an
acquire or a release of the in-flight map's lock, one access to the map or to a
strong count inside it, one read or write of the cache, the grant of a permit, an
answer of AWS, or the drop of a local. A future can be dropped at its awaits; its
permit and its semaphore then go one after the other. Time passes between steps.
-/

namespace RustyGasket.AwsSecrets

variable {Caller : Type}

/-- Identity of an `Arc<Semaphore>`, by order of allocation. -/
abbrev SemaphoreId := Nat

/-- A cached value with the instant it was fetched, in nanoseconds. -/
structure CachedSecret where
  value : String
  fetchedAt : Nat
  deriving DecidableEq, Repr

/-- What the SDK answers to `get_secret_value`. -/
inductive Response
  | secret (secretString : Option String)
  | resourceNotFound
  | failed (error : String)
  deriving DecidableEq, Repr

abbrev Outcome := Except String (Option String)

/-- How a call goes on once its permit and its semaphore are dropped. -/
inductive Exit
  | prune (outcome : Outcome)
  | finish (outcome : Outcome)
  | cancel
  deriving DecidableEq, Repr

inductive Pc
  | idle
  /-- Awaiting `self.cache.read()`, before any lock is taken. -/
  | readCache
  /-- Awaiting `self.inflight.read()`. -/
  | lookup
  /-- Holds the read guard, has not upgraded the entry. -/
  | reading
  | readFound (sem : SemaphoreId)
  | readMissed
  /-- Awaiting `self.inflight.write()` to create a semaphore. -/
  | create
  /-- Holds the write guard, has not upgraded the entry again. -/
  | writing
  | vacant
  | writeFound (sem : SemaphoreId)
  /-- Awaiting `semaphore.acquire()`. -/
  | acquire (sem : SemaphoreId)
  /-- Holds the permit, awaiting `self.cache.read()`. -/
  | recheck (sem : SemaphoreId)
  /-- Holds the permit, about to send the request. -/
  | missed (sem : SemaphoreId)
  /-- Awaiting the answer of AWS. -/
  | fetching (sem : SemaphoreId)
  /-- Awaiting `self.cache.write()`. -/
  | storing (sem : SemaphoreId) (value : String)
  /-- Dropping the permit, when it still has it, and then the semaphore. -/
  | leave (sem : SemaphoreId) (permit : Bool) (exit : Exit)
  /-- In `prune_inflight`, awaiting `self.inflight.write()`. -/
  | prune (outcome : Outcome)
  | pruning (outcome : Outcome)
  /-- Has compared the strong count with zero. -/
  | counted (outcome : Outcome) (dead : Bool)
  | pruned (outcome : Outcome)
  | done (outcome : Outcome)
  | dropped
  deriving DecidableEq, Repr

namespace Pc

/-- The semaphore a call has a strong reference to. -/
def holds : Pc → Option SemaphoreId
  | readFound sem | writeFound sem | acquire sem | recheck sem | missed sem | fetching sem
  | storing sem _ | leave sem _ _ => some sem
  | _ => none

/-- The semaphore a call has the permit of. -/
def permit : Pc → Option SemaphoreId
  | recheck sem | missed sem | fetching sem | storing sem _ | leave sem true _ => some sem
  | _ => none

/-- The guard of the in-flight map's lock a call has. -/
def guard : Pc → Option GuardMode
  | reading | readFound _ | readMissed => some .read
  | writing | vacant | writeFound _ | pruning _ | counted _ _ | pruned _ => some .write
  | _ => none

/-- Found the entry dead or absent under the write guard, and is to act on it. -/
def claims : Pc → Bool
  | vacant | counted _ true => true
  | _ => false

/-- Has a strong reference, or is to prune the entry. -/
def attends : Pc → Bool
  | prune _ | pruning _ | counted _ true => true
  | pc => pc.holds.isSome

/-- Missed again under the permit. -/
def isMissed : Pc → Bool
  | missed _ => true
  | _ => false

def inProgress : Pc → Bool
  | idle | done _ | dropped => false
  | _ => true

theorem permit_holds {pc : Pc} {sem : SemaphoreId} (h : pc.permit = some sem) :
    pc.holds = some sem := by
  cases pc with
  | leave sem' permit exit => cases permit <;> first | exact h | cases h
  | _ => first | exact h | cases h

theorem attends_inProgress {pc : Pc} (h : pc.attends = true) : pc.inProgress = true := by
  cases pc <;> first | rfl | cases h

theorem attends_of_holds {pc : Pc} {sem : SemaphoreId} (h : pc.holds = some sem) :
    pc.attends = true := by
  cases pc <;> first | rfl | cases h

theorem claims_guard {pc : Pc} (h : pc.claims = true) : pc.guard = some .write := by
  cases pc <;> first | rfl | cases h

end Pc

structure State (Caller : Type) where
  pc : Caller → Pc
  clock : Nat
  cache : String → Option CachedSecret
  /-- The weak references of the map. -/
  inflight : String → Option SemaphoreId
  lock : RwLock Caller
  strong : SemaphoreId → Nat
  permits : SemaphoreId → Nat
  next : SemaphoreId

def init : State Caller :=
  ⟨fun _ => .idle, 0, fun _ => none, fun _ => none, .free, fun _ => 0, fun _ => 0, 0⟩

inductive Action
  | call
  | readCache
  | acquireRead
  /-- `map.get(key).and_then(Weak::upgrade)`. -/
  | upgrade
  | releaseRead
  | acquireWrite
  | create
  | releaseWrite
  | acquire
  | send
  | respond (response : Response)
  | insert
  | releasePermit
  | dropSemaphore
  | countStrong
  | remove
  | drop
  deriving DecidableEq, Repr

inductive Label (Caller : Type)
  | tick (elapsed : Nat)
  | act (c : Caller) (a : Action)
  deriving DecidableEq, Repr

/-- An entry inside its time to live. -/
def State.readCache (s : State Caller) (cacheTtl : Nat) (key : String) : Option String :=
  match s.cache key with
  | some cached => if s.clock - cached.fetchedAt < cacheTtl then some cached.value else none
  | none => none

/-- The semaphore of the entry, while somebody has a strong reference to it. -/
def State.upgrade (s : State Caller) (key : String) : Option SemaphoreId :=
  match s.inflight key with
  | some sem => if 0 < s.strong sem then some sem else none
  | none => none

/-- `map.get(key).is_some_and(|weak| weak.strong_count() == 0)`. -/
def State.isDead (s : State Caller) (key : String) : Bool :=
  match s.inflight key with
  | some sem => s.strong sem == 0
  | none => false

/-- What `fetch_secret_from_aws` makes of an answer that stores nothing. -/
def Response.outcome (key : String) : Response → Outcome
  | secret (some value) => .ok (some value)
  | secret none => .error s!"Secret '{key}' has no string value"
  | resourceNotFound => .ok none
  | failed error => .error s!"AWS Secrets Manager error for '{key}': {error}"

variable [DecidableEq Caller]

def State.goto (s : State Caller) (c : Caller) (pc : Pc) : State Caller :=
  { s with pc := Function.update s.pc c pc }

def State.takeStrong (s : State Caller) (sem : SemaphoreId) : State Caller :=
  { s with strong := Function.update s.strong sem (s.strong sem + 1) }

/-- Where a future goes that is dropped at an await. -/
def Pc.cancelled : Pc → Option Pc
  | .readCache | .lookup | .create | .prune _ => some .dropped
  | .acquire sem => some (.leave sem false .cancel)
  | .recheck sem | .fetching sem | .storing sem _ => some (.leave sem true .cancel)
  | _ => none

def Exit.next : Exit → Pc
  | prune outcome => .prune outcome
  | finish outcome => .done outcome
  | cancel => .dropped

def act (key : Caller → String) (cacheTtl : Nat) (s : State Caller) (c : Caller) :
    Action → Option (State Caller)
  | .call => match s.pc c with
    | .idle => some (s.goto c .readCache)
    | _ => none
  | .readCache => match s.pc c, s.readCache cacheTtl (key c) with
    | .readCache, some value => some (s.goto c (.done (.ok (some value))))
    | .readCache, none => some (s.goto c .lookup)
    | .recheck sem, some value => some (s.goto c (.leave sem true (.finish (.ok (some value)))))
    | .recheck sem, none => some (s.goto c (.missed sem))
    | _, _ => none
  | .acquireRead => match s.pc c with
    | .lookup => (s.lock.acquireRead c).map fun lock => { s.goto c .reading with lock := lock }
    | _ => none
  | .upgrade => match s.pc c, s.upgrade (key c) with
    | .reading, some sem => some ((s.goto c (.readFound sem)).takeStrong sem)
    | .reading, none => some (s.goto c .readMissed)
    | .writing, some sem => some ((s.goto c (.writeFound sem)).takeStrong sem)
    | .writing, none => some (s.goto c .vacant)
    | _, _ => none
  | .releaseRead => match s.pc c with
    | .readFound sem => some { s.goto c (.acquire sem) with lock := s.lock.releaseRead c }
    | .readMissed => some { s.goto c .create with lock := s.lock.releaseRead c }
    | _ => none
  | .acquireWrite => match s.pc c with
    | .create => (s.lock.acquireWrite c).map fun lock => { s.goto c .writing with lock := lock }
    | .prune outcome =>
      (s.lock.acquireWrite c).map fun lock => { s.goto c (.pruning outcome) with lock := lock }
    | _ => none
  | .create => match s.pc c with
    | .vacant => some { s.goto c (.writeFound s.next) with
        inflight := Function.update s.inflight (key c) (some s.next)
        strong := Function.update s.strong s.next 1
        permits := Function.update s.permits s.next 1
        next := s.next + 1 }
    | _ => none
  | .releaseWrite => match s.pc c with
    | .writeFound sem => some { s.goto c (.acquire sem) with lock := s.lock.releaseWrite }
    | .pruned outcome => some { s.goto c (.done outcome) with lock := s.lock.releaseWrite }
    | _ => none
  | .acquire => match s.pc c with
    | .acquire sem => if 0 < s.permits sem then
        some { s.goto c (.recheck sem) with
          permits := Function.update s.permits sem (s.permits sem - 1) }
      else none
    | _ => none
  | .send => match s.pc c with
    | .missed sem => some (s.goto c (.fetching sem))
    | _ => none
  | .respond response => match s.pc c with
    | .fetching sem => match response with
      | .secret (some value) => some (s.goto c (.storing sem value))
      | response => some (s.goto c (.leave sem true (.prune (response.outcome (key c)))))
    | _ => none
  | .insert => match s.pc c with
    | .storing sem value => some { s.goto c (.leave sem true (.prune (.ok (some value)))) with
        cache := Function.update s.cache (key c) (some ⟨value, s.clock⟩) }
    | _ => none
  | .releasePermit => match s.pc c with
    | .leave sem true exit => some { s.goto c (.leave sem false exit) with
        permits := Function.update s.permits sem (s.permits sem + 1) }
    | _ => none
  | .dropSemaphore => match s.pc c with
    | .leave sem false exit => some { s.goto c exit.next with
        strong := Function.update s.strong sem (s.strong sem - 1) }
    | _ => none
  | .countStrong => match s.pc c with
    | .pruning outcome => some (s.goto c (.counted outcome (s.isDead (key c))))
    | _ => none
  | .remove => match s.pc c with
    | .counted outcome true => some { s.goto c (.pruned outcome) with
        inflight := Function.update s.inflight (key c) none }
    | .counted outcome false => some (s.goto c (.pruned outcome))
    | _ => none
  | .drop => (s.pc c).cancelled.map (s.goto c)

def step (key : Caller → String) (cacheTtl : Nat) (s : State Caller) :
    Label Caller → Option (State Caller)
  | .tick elapsed => some { s with clock := s.clock + elapsed }
  | .act c a => act key cacheTtl s c a

section
variable (s : State Caller) (c d : Caller) (pc : Pc)

theorem goto_pc : (s.goto c pc).pc d = if d = c then pc else s.pc d := by
  simp only [State.goto, Function.update_apply]

@[simp] theorem goto_pc_self : (s.goto c pc).pc c = pc := by simp [goto_pc]

/-- A role of the callers changes at the caller that moves. -/
theorem role_goto {β : Type} (role : Pc → β) :
    (fun d => role ((s.goto c pc).pc d)) = Function.update (fun d => role (s.pc d)) c (role pc) := by
  funext d
  rw [goto_pc, Function.update_apply]
  split <;> rfl

/-- A role that the move keeps. -/
theorem role_goto_same {β : Type} (role : Pc → β) (same : role pc = role (s.pc c)) :
    (fun d => role ((s.goto c pc).pc d)) = fun d => role (s.pc d) := by
  rw [role_goto, same, Function.update_eq_self]

variable {s c d pc}

theorem goto_pc_of_ne (other : d ≠ c) : (s.goto c pc).pc d = s.pc d := by
  rw [goto_pc, if_neg other]

/-- Where a caller is after a move: the mover where it went, the others where they were. -/
theorem goto_cases (P : Pc → Prop) (h : P ((s.goto c pc).pc d)) :
    d = c ∧ P pc ∨ d ≠ c ∧ P (s.pc d) :=
  Transition.update_cases P h

end

/-! ## What a step can do -/

/-- A move that keeps the references of a call, its duty to prune and its claim. -/
structure Keeps (pc pc' : Pc) : Prop where
  holds : pc'.holds = pc.holds
  permit : pc'.permit = pc.permit
  attends : pc'.attends = pc.attends
  claims : pc'.claims = false
  missed : pc'.isMissed = false

inductive Effect (key : Caller → String) (cacheTtl : Nat) (s : State Caller) (c : Caller) :
    Action → State Caller → Prop
  | move {a pc} : Keeps (s.pc c) pc → pc.guard = (s.pc c).guard →
      Effect key cacheTtl s c a (s.goto c pc)
  | miss {sem} : s.pc c = .recheck sem → s.readCache cacheTtl (key c) = none →
      Effect key cacheTtl s c .readCache (s.goto c (.missed sem))
  | abandon {outcome} : s.pc c = .prune outcome →
      Effect key cacheTtl s c .drop (s.goto c .dropped)
  | readLock {a pc lock} : Keeps (s.pc c) pc → (s.pc c).guard = none → pc.guard = some .read →
      s.lock.acquireRead c = some lock →
      Effect key cacheTtl s c a { s.goto c pc with lock := lock }
  | writeLock {a pc lock} : Keeps (s.pc c) pc → pc.guard = some .write →
      s.lock.acquireWrite c = some lock →
      Effect key cacheTtl s c a { s.goto c pc with lock := lock }
  | readUnlock {a pc} : Keeps (s.pc c) pc → (s.pc c).guard = some .read → pc.guard = none →
      Effect key cacheTtl s c a { s.goto c pc with lock := s.lock.releaseRead c }
  | writeUnlock {a pc} : Keeps (s.pc c) pc → (s.pc c).guard = some .write → pc.guard = none →
      Effect key cacheTtl s c a { s.goto c pc with lock := s.lock.releaseWrite }
  | upgrade {pc sem} : (s.pc c).holds = none → (s.pc c).permit = none → (s.pc c).guard ≠ none →
      s.upgrade (key c) = some sem → pc.holds = some sem → pc.permit = none →
      pc.guard = (s.pc c).guard → pc.claims = false → pc.isMissed = false →
      Effect key cacheTtl s c .upgrade ((s.goto c pc).takeStrong sem)
  | vacate : s.pc c = .writing → s.upgrade (key c) = none →
      Effect key cacheTtl s c .upgrade (s.goto c .vacant)
  | create : s.pc c = .vacant → Effect key cacheTtl s c .create { s.goto c (.writeFound s.next) with
      inflight := Function.update s.inflight (key c) (some s.next)
      strong := Function.update s.strong s.next 1
      permits := Function.update s.permits s.next 1
      next := s.next + 1 }
  | acquire {sem} : s.pc c = .acquire sem → 0 < s.permits sem →
      Effect key cacheTtl s c .acquire { s.goto c (.recheck sem) with
        permits := Function.update s.permits sem (s.permits sem - 1) }
  | insert {sem value} : s.pc c = .storing sem value →
      Effect key cacheTtl s c .insert { s.goto c (.leave sem true (.prune (.ok (some value)))) with
        cache := Function.update s.cache (key c) (some ⟨value, s.clock⟩) }
  | releasePermit {sem exit} : s.pc c = .leave sem true exit →
      Effect key cacheTtl s c .releasePermit { s.goto c (.leave sem false exit) with
        permits := Function.update s.permits sem (s.permits sem + 1) }
  | dropSemaphore {sem exit} : s.pc c = .leave sem false exit →
      Effect key cacheTtl s c .dropSemaphore { s.goto c exit.next with
        strong := Function.update s.strong sem (s.strong sem - 1) }
  | count {outcome} : s.pc c = .pruning outcome →
      Effect key cacheTtl s c .countStrong (s.goto c (.counted outcome (s.isDead (key c))))
  | remove {outcome} : s.pc c = .counted outcome true →
      Effect key cacheTtl s c .remove { s.goto c (.pruned outcome) with
        inflight := Function.update s.inflight (key c) none }

theorem act_effect {key : Caller → String} {cacheTtl : Nat} {s t : State Caller} {c : Caller}
    {a : Action} (h : act key cacheTtl s c a = some t) : Effect key cacheTtl s c a t := by
  have keeps : ∀ {pc pc' : Pc}, s.pc c = pc → pc'.holds = pc.holds → pc'.permit = pc.permit →
      pc'.attends = pc.attends → pc'.claims = false → pc'.isMissed = false →
      Keeps (s.pc c) pc' := by
    rintro pc pc' rfl
    exact Keeps.mk
  cases a with
  | call =>
    cases hpc : s.pc c <;> simp [act, hpc] at h
    subst h
    exact .move (keeps hpc rfl rfl rfl rfl rfl) (by rw [hpc]; rfl)
  | readCache =>
    simp only [act] at h
    split at h <;> cases h <;> rename_i hpc hread
    · exact .move (keeps hpc rfl rfl rfl rfl rfl) (by rw [hpc]; rfl)
    · exact .move (keeps hpc rfl rfl rfl rfl rfl) (by rw [hpc]; rfl)
    · exact .move (keeps hpc rfl rfl rfl rfl rfl) (by rw [hpc]; rfl)
    · exact .miss hpc hread
  | acquireRead =>
    cases hpc : s.pc c <;> simp [act, hpc] at h
    obtain ⟨lock, taken, rfl⟩ := h
    exact .readLock (keeps hpc rfl rfl rfl rfl rfl) (by rw [hpc]; rfl) rfl taken
  | upgrade =>
    simp only [act] at h
    split at h <;> cases h <;> rename_i hpc hup
    · exact .upgrade (by rw [hpc]; rfl) (by rw [hpc]; rfl) (by rw [hpc]; nofun) hup rfl rfl
        (by rw [hpc]; rfl) rfl rfl
    · exact .move (keeps hpc rfl rfl rfl rfl rfl) (by rw [hpc]; rfl)
    · exact .upgrade (by rw [hpc]; rfl) (by rw [hpc]; rfl) (by rw [hpc]; nofun) hup rfl rfl
        (by rw [hpc]; rfl) rfl rfl
    · exact .vacate hpc hup
  | releaseRead =>
    cases hpc : s.pc c <;> simp [act, hpc] at h
    all_goals
      subst h
      exact .readUnlock (keeps hpc rfl rfl rfl rfl rfl) (by rw [hpc]; rfl) rfl
  | acquireWrite =>
    cases hpc : s.pc c <;> simp [act, hpc] at h
    all_goals
      obtain ⟨lock, taken, rfl⟩ := h
      exact .writeLock (keeps hpc rfl rfl rfl rfl rfl) rfl taken
  | create =>
    cases hpc : s.pc c <;> simp [act, hpc] at h
    subst h
    exact .create hpc
  | releaseWrite =>
    cases hpc : s.pc c <;> simp [act, hpc] at h
    all_goals
      subst h
      exact .writeUnlock (keeps hpc rfl rfl rfl rfl rfl) (by rw [hpc]; rfl) rfl
  | acquire =>
    cases hpc : s.pc c <;> simp [act, hpc] at h
    obtain ⟨free, rfl⟩ := h
    exact .acquire hpc free
  | send =>
    cases hpc : s.pc c <;> simp [act, hpc] at h
    subst h
    exact .move (keeps hpc rfl rfl rfl rfl rfl) (by rw [hpc]; rfl)
  | respond response =>
    cases hpc : s.pc c <;> simp [act, hpc] at h
    split at h <;> cases h
    all_goals exact .move (keeps hpc rfl rfl rfl rfl rfl) (by rw [hpc]; rfl)
  | insert =>
    cases hpc : s.pc c <;> simp [act, hpc] at h
    subst h
    exact .insert hpc
  | releasePermit =>
    simp only [act] at h
    split at h <;> cases h
    exact .releasePermit ‹_›
  | dropSemaphore =>
    simp only [act] at h
    split at h <;> cases h
    exact .dropSemaphore ‹_›
  | countStrong =>
    cases hpc : s.pc c <;> simp [act, hpc] at h
    subst h
    exact .count hpc
  | remove =>
    simp only [act] at h
    split at h <;> cases h <;> rename_i hpc
    · exact .remove hpc
    · exact .move (keeps hpc rfl rfl rfl rfl rfl) (by rw [hpc]; rfl)
  | drop =>
    cases hpc : s.pc c <;> simp [act, hpc, Pc.cancelled] at h
    case prune outcome =>
      subst h
      exact .abandon hpc
    all_goals
      subst h
      exact .move (keeps hpc rfl rfl rfl rfl rfl) (by rw [hpc]; rfl)

end RustyGasket.AwsSecrets
