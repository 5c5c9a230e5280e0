import Mathlib.Logic.Function.Basic
import RustyGasket.CacheKey
import RustyGasket.Transition

/-!
# `ObjectCache::get_or_load` with single flight

Any number of callers, each one call of `get_or_load` on its own key, run on a
multi-threaded runtime. A step is one lock acquire or release, one body of a
locked block, one creation of a `notified()` future, or the end of one await.
What an await returns is part of the label, so backends and loaders may answer
anything. A label may also drop a caller's future at an await point, or make its
loader panic.
-/

namespace RustyGasket.SingleFlight

variable {Caller Key Val : Type}

/-- Identity of an `Arc<Notify>`, by order of allocation. -/
abbrev NotifyId := Nat

/-- Where a call stands. A leader keeps no handle to the `Notify` it inserted;
its constructors carry the identity only so that statements can name it. -/
inductive Pc (Val : Type)
  | idle
  /-- Awaiting `self.get(key)`. -/
  | get
  /-- Awaiting `self.in_flight.lock()`. -/
  | lock
  /-- Holds the guard, has not looked its key up. -/
  | locked
  /-- Holds the guard, `wait_for_leader = Some(n)`. -/
  | cloned (n : NotifyId)
  /-- Holds the guard, inserted `n`, `wait_for_leader = None`. -/
  | inserted (n : NotifyId)
  /-- Guard released, `n.notified()` not created yet. -/
  | follow (n : NotifyId)
  /-- Awaiting the `notified()` future of `n`. -/
  | wait (n : NotifyId) (woken : Bool)
  /-- Awaiting `load()`. -/
  | load (n : NotifyId)
  /-- Awaiting `self.set_for(key, ttl, &value)`. -/
  | store (n : NotifyId) (value : Val)
  /-- In `finish_in_flight`, awaiting `self.in_flight.lock()`. -/
  | finish (n : NotifyId) (result : Except CacheError Val)
  /-- In `finish_in_flight`, holds the guard. -/
  | finishLocked (n : NotifyId) (result : Except CacheError Val)
  /-- Removed what the map held for the key, still holds the guard. -/
  | removed (notify : Option NotifyId) (result : Except CacheError Val)
  /-- Guard released, `notify_waiters` not called yet. -/
  | notify (notify : Option NotifyId) (result : Except CacheError Val)
  | done (result : Except CacheError Val)
  /-- Cancelled at an await point, or unwound by a panic. -/
  | dropped
  deriving DecidableEq, Repr

namespace Pc

/-- The `Notify` of a follower, from the clone to the end of its wait. -/
def follows : Pc Val → Option NotifyId
  | cloned n | follow n | wait n _ => some n
  | _ => none

/-- The `Notify` of a leader whose entry it has inserted and not yet removed. -/
def leads : Pc Val → Option NotifyId
  | inserted n | load n | store n _ | finish n _ | finishLocked n _ => some n
  | _ => none

/-- The `Notify` a leader has taken out of the map and not yet notified. -/
def pending : Pc Val → Option NotifyId
  | removed m _ | notify m _ => m
  | _ => none

def inSection : Pc Val → Bool
  | locked | cloned _ | inserted _ | finishLocked _ _ | removed _ _ => true
  | _ => false

/-- Await points: the only places where a future can be dropped. -/
def awaits : Pc Val → Bool
  | get | lock | wait _ _ | load _ | store _ _ | finish _ _ => true
  | _ => false

/-- What `notify_waiters` on `m` does to one caller. -/
def wake (m : NotifyId) : Pc Val → Pc Val
  | wait n woken => wait n (woken || n == m)
  | pc => pc

@[simp] theorem follows_wake (m : NotifyId) (pc : Pc Val) : (pc.wake m).follows = pc.follows := by
  cases pc <;> rfl

@[simp] theorem leads_wake (m : NotifyId) (pc : Pc Val) : (pc.wake m).leads = pc.leads := by
  cases pc <;> rfl

@[simp] theorem pending_wake (m : NotifyId) (pc : Pc Val) : (pc.wake m).pending = pc.pending := by
  cases pc <;> rfl

@[simp] theorem inSection_wake (m : NotifyId) (pc : Pc Val) :
    (pc.wake m).inSection = pc.inSection := by
  cases pc <;> rfl

theorem wake_eq_wait (m n : NotifyId) (pc : Pc Val) :
    pc.wake m = wait n false ↔ pc = wait n false ∧ n ≠ m := by
  cases pc <;> simp [wake]
  grind

theorem wake_eq_cloned (m n : NotifyId) (pc : Pc Val) : pc.wake m = cloned n ↔ pc = cloned n := by
  cases pc <;> simp [wake]

end Pc

/-- `notified` is a history variable: the identities `notify_waiters` ran on. -/
structure State (Caller Key Val : Type) where
  pc : Caller → Pc Val
  inFlight : Key → Option NotifyId
  guard : Option Caller
  next : NotifyId
  notified : List NotifyId

def init : State Caller Key Val := ⟨fun _ => .idle, fun _ => none, none, 0, []⟩

inductive Action (Val : Type)
  | call
  /-- `self.get(key)` returned: a backend, key or decode error, a hit or a miss. -/
  | got (result : Except CacheError (Option Val))
  | acquire
  /-- The locked block: clone the entry of the key, or insert one. -/
  | lookup
  | release
  | notified
  | resume
  | loaded (result : Except String Val)
  | stored (result : Except CacheError Unit)
  | remove
  | notifyWaiters
  | drop
  | panic
  deriving DecidableEq, Repr

variable [DecidableEq Caller]

def State.goto (s : State Caller Key Val) (c : Caller) (pc : Pc Val) : State Caller Key Val :=
  { s with pc := Function.update s.pc c pc }

section
variable (s : State Caller Key Val) (c d : Caller) (pc : Pc Val)

theorem goto_pc : (s.goto c pc).pc d = if d = c then pc else s.pc d := by
  simp only [State.goto, Function.update_apply]

@[simp] theorem goto_pc_self : (s.goto c pc).pc c = pc := by simp [goto_pc]

@[simp] theorem goto_inFlight : (s.goto c pc).inFlight = s.inFlight := rfl

@[simp] theorem goto_guard : (s.goto c pc).guard = s.guard := rfl

@[simp] theorem goto_next : (s.goto c pc).next = s.next := rfl

@[simp] theorem goto_notified : (s.goto c pc).notified = s.notified := rfl

variable {s c d pc}

theorem goto_pc_of_ne (other : d ≠ c) : (s.goto c pc).pc d = s.pc d := by
  rw [goto_pc, if_neg other]

/-- Where a caller is after a move: the mover where it went, the others where they were. -/
theorem goto_cases (P : Pc Val → Prop) (h : P ((s.goto c pc).pc d)) :
    d = c ∧ P pc ∨ d ≠ c ∧ P (s.pc d) :=
  Transition.update_cases P h

end

/-- `notify_waiters` on the entry taken out of the map, when there was one: it
wakes the futures that exist now and stores no permit for later ones. -/
def State.notifyWaiters (s : State Caller Key Val) : Option NotifyId → State Caller Key Val
  | none => s
  | some m => { s with pc := fun d => (s.pc d).wake m, notified := m :: s.notified }

variable [DecidableEq Key]

def step (key : Caller → Key) (s : State Caller Key Val) :
    Caller × Action Val → Option (State Caller Key Val)
  | (c, .call) => match s.pc c with
    | .idle => some (s.goto c .get)
    | _ => none
  | (c, .got result) => match s.pc c with
    | .get => match result with
      | .ok (some value) => some (s.goto c (.done (.ok value)))
      | .ok none => some (s.goto c .lock)
      | .error error => some (s.goto c (.done (.error error)))
    | _ => none
  | (c, .acquire) =>
    if s.guard = none then
      match s.pc c with
      | .lock => some { s.goto c .locked with guard := some c }
      | .finish n result => some { s.goto c (.finishLocked n result) with guard := some c }
      | _ => none
    else none
  | (c, .lookup) => match s.pc c with
    | .locked => match s.inFlight (key c) with
      | some n => some (s.goto c (.cloned n))
      | none => some { s.goto c (.inserted s.next) with
          inFlight := Function.update s.inFlight (key c) (some s.next), next := s.next + 1 }
    | _ => none
  | (c, .release) => match s.pc c with
    | .cloned n => some { s.goto c (.follow n) with guard := none }
    | .inserted n => some { s.goto c (.load n) with guard := none }
    | .removed m result => some { s.goto c (.notify m result) with guard := none }
    | _ => none
  | (c, .notified) => match s.pc c with
    | .follow n => some (s.goto c (.wait n false))
    | _ => none
  | (c, .resume) => match s.pc c with
    | .wait _ true => some (s.goto c .get)
    | _ => none
  | (c, .loaded result) => match s.pc c with
    | .load n => match result with
      | .ok value => some (s.goto c (.store n value))
      | .error error => some (s.goto c (.finish n (.error (.loader error))))
    | _ => none
  | (c, .stored result) => match s.pc c with
    | .store n value => match result with
      | .ok () => some (s.goto c (.finish n (.ok value)))
      | .error error => some (s.goto c (.finish n (.error error)))
    | _ => none
  | (c, .remove) => match s.pc c with
    | .finishLocked _ result => some { s.goto c (.removed (s.inFlight (key c)) result) with
        inFlight := Function.update s.inFlight (key c) none }
    | _ => none
  | (c, .notifyWaiters) => match s.pc c with
    | .notify m result => some ((s.goto c (.done result)).notifyWaiters m)
    | _ => none
  | (c, .drop) => if (s.pc c).awaits then some (s.goto c .dropped) else none
  | (c, .panic) => match s.pc c with
    | .load _ => some (s.goto c .dropped)
    | _ => none

theorem step_gone {key : Caller → Key} {s t : State Caller Key Val} {c : Caller}
    {a : Action Val} (ha : a = .drop ∨ a = .panic) (h : step key s (c, a) = some t) :
    t = s.goto c .dropped := by
  obtain rfl | rfl := ha
  · simp only [step] at h
    split at h
    · cases h; rfl
    · cases h
  · simp only [step] at h
    split at h
    · cases h; rfl
    · cases h

/-- The steps grouped by what they do to the shared map and to the three roles
a caller can have. -/
inductive Effect (key : Caller → Key) (s : State Caller Key Val) (c : Caller) :
    Action Val → State Caller Key Val → Prop
  /-- Moves outside the lock that keep the caller's role. -/
  | move {a pc} : (s.pc c).follows = none → (s.pc c).pending = none →
      pc.follows = none → pc.leads = (s.pc c).leads → pc.pending = none →
      (s.pc c).inSection = false → pc.inSection = false → Effect key s c a (s.goto c pc)
  | acquire {a pc} : s.guard = none → (s.pc c).follows = none → (s.pc c).pending = none →
      pc.follows = none → pc.leads = (s.pc c).leads → pc.pending = none →
      pc.inSection = true → Effect key s c a { s.goto c pc with guard := some c }
  | clone {n} : s.pc c = .locked → s.inFlight (key c) = some n →
      Effect key s c .lookup (s.goto c (.cloned n))
  | insert : s.pc c = .locked → s.inFlight (key c) = none →
      Effect key s c .lookup { s.goto c (.inserted s.next) with
        inFlight := Function.update s.inFlight (key c) (some s.next), next := s.next + 1 }
  | release {a pc} : (s.pc c).inSection = true → pc.inSection = false →
      pc.follows = (s.pc c).follows → pc.leads = (s.pc c).leads →
      pc.pending = (s.pc c).pending → (∀ n, pc ≠ .wait n false) →
      Effect key s c a { s.goto c pc with guard := none }
  | notified {n} : s.pc c = .follow n → Effect key s c .notified (s.goto c (.wait n false))
  | resume {n} : s.pc c = .wait n true → Effect key s c .resume (s.goto c .get)
  | remove {n r} : s.pc c = .finishLocked n r →
      Effect key s c .remove { s.goto c (.removed (s.inFlight (key c)) r) with
        inFlight := Function.update s.inFlight (key c) none }
  | notify {m r} : s.pc c = .notify m r →
      Effect key s c .notifyWaiters ((s.goto c (.done r)).notifyWaiters m)
  | drop : (s.pc c).awaits = true → Effect key s c .drop (s.goto c .dropped)
  | panic {n} : s.pc c = .load n → Effect key s c .panic (s.goto c .dropped)

theorem step_effect {key : Caller → Key} {s t : State Caller Key Val} {c : Caller}
    {a : Action Val} (h : step key s (c, a) = some t) : Effect key s c a t := by
  cases a with
  | call =>
    cases hpc : s.pc c <;> simp [step, hpc] at h
    subst h
    refine .move ?_ ?_ ?_ ?_ ?_ ?_ ?_ <;> first | rw [hpc]; rfl | rfl
  | got result =>
    cases hpc : s.pc c <;> simp [step, hpc] at h
    split at h <;> (simp at h; subst h)
    all_goals refine .move ?_ ?_ ?_ ?_ ?_ ?_ ?_ <;> first | rw [hpc]; rfl | rfl
  | acquire =>
    simp only [step] at h
    split at h
    · rename_i free
      cases hpc : s.pc c <;> simp [hpc] at h
      all_goals
        subst h
        refine .acquire free ?_ ?_ ?_ ?_ ?_ ?_ <;> first | rw [hpc]; rfl | rfl
    · cases h
  | lookup =>
    cases hpc : s.pc c <;> simp [step, hpc] at h
    split at h <;> (simp at h; subst h)
    · exact .clone hpc ‹_›
    · exact .insert hpc ‹_›
  | release =>
    cases hpc : s.pc c <;> simp [step, hpc] at h
    all_goals
      subst h
      refine .release ?_ ?_ ?_ ?_ ?_ (by simp) <;> first | rw [hpc]; rfl | rfl
  | notified =>
    cases hpc : s.pc c <;> simp [step, hpc] at h
    subst h
    exact .notified hpc
  | resume =>
    cases hpc : s.pc c <;> simp [step, hpc] at h
    rename_i n woken
    cases woken <;> simp at h
    subst h
    exact .resume hpc
  | loaded result =>
    cases hpc : s.pc c <;> simp [step, hpc] at h
    cases result <;> simp at h <;> subst h
    all_goals refine .move ?_ ?_ ?_ ?_ ?_ ?_ ?_ <;> first | rw [hpc]; rfl | rfl
  | stored result =>
    cases hpc : s.pc c <;> simp [step, hpc] at h
    cases result <;> simp at h <;> subst h
    all_goals refine .move ?_ ?_ ?_ ?_ ?_ ?_ ?_ <;> first | rw [hpc]; rfl | rfl
  | remove =>
    cases hpc : s.pc c <;> simp [step, hpc] at h
    subst h
    exact .remove hpc
  | notifyWaiters =>
    cases hpc : s.pc c <;> simp [step, hpc] at h
    subst h
    exact .notify hpc
  | drop =>
    simp only [step] at h
    split at h
    · cases h; exact .drop ‹_›
    · cases h
  | panic =>
    cases hpc : s.pc c <;> simp [step, hpc] at h
    subst h
    exact .panic hpc

end RustyGasket.SingleFlight
