import Mathlib.Logic.Function.Basic
import RustyGasket.CacheKey
import RustyGasket.Transition

/-!
# `MemoryCacheBackend`

Any number of `get`, `set` and `delete` calls over one map, which is linearizable
and evicts nothing. A step is one access to the map or one reading of the clock. A
future can be dropped at the accesses it awaits, and time passes between steps.

A `get` that read an expired value invalidates its key in a later step, whatever
the map holds for it by then.
-/

namespace RustyGasket.MemoryBackend

variable {Op Key : Type}

structure StoredCacheValue where
  bytes : Bytes
  expiresAt : Nat
  deriving DecidableEq, Repr

inductive Request (Key : Type)
  | get (key : Key)
  | set (key : Key) (value : Bytes) (ttl : Nat)
  | delete (key : Key)
  deriving DecidableEq, Repr

inductive Pc
  | idle
  /-- A `get` that has read `value` and is to look at the clock. `newest` is a
  history variable: the newest value of the key at the read. -/
  | check (value : StoredCacheValue) (newest : Option StoredCacheValue)
  /-- A `get` that found its value expired, awaiting `self.cache.invalidate(key)`. -/
  | invalidate
  /-- A `set` awaiting `self.cache.insert(key, value)`. -/
  | insert (value : StoredCacheValue)
  | done (result : Option Bytes)
  | dropped
  deriving DecidableEq, Repr

def Pc.awaits : Pc → Bool
  | invalidate | insert _ => true
  | _ => false

/-- What a `get` decided to return, when, and the newest value at its read. -/
structure Answer where
  newest : Option StoredCacheValue
  decidedAt : Nat
  result : Option Bytes
  deriving DecidableEq, Repr

/-- `newest` and `answers` are history variables: the value of the last `set` of a
key to take effect, unless a `delete` has since, and what the `get`s answered. -/
structure State (Op Key : Type) where
  pc : Op → Pc
  store : Key → Option StoredCacheValue
  now : Nat
  newest : Key → Option StoredCacheValue
  answers : List Answer

def init : State Op Key := ⟨fun _ => .idle, fun _ => none, 0, fun _ => none, []⟩

inductive Label (Op : Type)
  | tick (elapsed : Nat)
  | run (op : Op)
  | drop (op : Op)
  deriving DecidableEq, Repr

/-- What a `get` of the key that ran now would return. -/
def State.reading (s : State Op Key) (key : Key) : Option Bytes :=
  (s.store key).bind fun value => if value.expiresAt ≤ s.now then none else some value.bytes

variable [DecidableEq Op]

def State.goto (s : State Op Key) (op : Op) (pc : Pc) : State Op Key :=
  { s with pc := Function.update s.pc op pc }

/-- Where a call is after a move: the mover where it went, the others where they were. -/
theorem goto_cases {s : State Op Key} {op other : Op} {pc : Pc} (P : Pc → Prop)
    (h : P ((s.goto op pc).pc other)) : other = op ∧ P pc ∨ other ≠ op ∧ P (s.pc other) :=
  Transition.update_cases P h

def State.answer (s : State Op Key) (op : Op) (pc : Pc) (newest : Option StoredCacheValue)
    (result : Option Bytes) : State Op Key :=
  { s.goto op pc with answers := ⟨newest, s.now, result⟩ :: s.answers }

variable [DecidableEq Key]

def get (s : State Op Key) (op : Op) (key : Key) : Option (State Op Key) :=
  match s.pc op with
  | .idle => match s.store key with
    | none => some (s.answer op (.done none) (s.newest key) none)
    | some value => some (s.goto op (.check value (s.newest key)))
  | .check value newest =>
    if value.expiresAt ≤ s.now then some (s.answer op .invalidate newest none)
    else some (s.answer op (.done (some value.bytes)) newest (some value.bytes))
  | .invalidate =>
    some { s.goto op (.done none) with store := Function.update s.store key none }
  | _ => none

def set (s : State Op Key) (op : Op) (key : Key) (value : Bytes) (ttl : Nat) :
    Option (State Op Key) :=
  match s.pc op with
  | .idle => some (s.goto op (.insert ⟨value, s.now + ttl⟩))
  | .insert stored => some { s.goto op (.done none) with
      store := Function.update s.store key (some stored)
      newest := Function.update s.newest key (some stored) }
  | _ => none

def delete (s : State Op Key) (op : Op) (key : Key) : Option (State Op Key) :=
  match s.pc op with
  | .idle => some { s.goto op (.done none) with
      store := Function.update s.store key none
      newest := Function.update s.newest key none }
  | _ => none

def step (request : Op → Request Key) (s : State Op Key) : Label Op → Option (State Op Key)
  | .tick elapsed => some { s with now := s.now + elapsed }
  | .run op => match request op with
    | .get key => get s op key
    | .set key value ttl => set s op key value ttl
    | .delete key => delete s op key
  | .drop op => if (s.pc op).awaits then some (s.goto op .dropped) else none

/-- What a step can do, by the call that takes it and where that call stood. -/
inductive Effect (request : Op → Request Key) (s : State Op Key) :
    Label Op → State Op Key → Prop
  | tick {elapsed} : Effect request s (.tick elapsed) { s with now := s.now + elapsed }
  | miss {op key} : request op = .get key → s.pc op = .idle → s.store key = none →
      Effect request s (.run op) (s.answer op (.done none) (s.newest key) none)
  | read {op key value} : request op = .get key → s.pc op = .idle → s.store key = some value →
      Effect request s (.run op) (s.goto op (.check value (s.newest key)))
  | expired {op key value newest} : request op = .get key → s.pc op = .check value newest →
      value.expiresAt ≤ s.now → Effect request s (.run op) (s.answer op .invalidate newest none)
  | live {op key value newest} : request op = .get key → s.pc op = .check value newest →
      s.now < value.expiresAt →
      Effect request s (.run op) (s.answer op (.done (some value.bytes)) newest (some value.bytes))
  | invalidate {op key} : request op = .get key → s.pc op = .invalidate →
      Effect request s (.run op)
        { s.goto op (.done none) with store := Function.update s.store key none }
  | stamp {op key value ttl} : request op = .set key value ttl → s.pc op = .idle →
      Effect request s (.run op) (s.goto op (.insert ⟨value, s.now + ttl⟩))
  | insert {op key value ttl stored} : request op = .set key value ttl →
      s.pc op = .insert stored →
      Effect request s (.run op) { s.goto op (.done none) with
        store := Function.update s.store key (some stored)
        newest := Function.update s.newest key (some stored) }
  | delete {op key} : request op = .delete key → s.pc op = .idle →
      Effect request s (.run op) { s.goto op (.done none) with
        store := Function.update s.store key none
        newest := Function.update s.newest key none }
  | drop {op} : (s.pc op).awaits = true → Effect request s (.drop op) (s.goto op .dropped)

theorem step_effect {request : Op → Request Key} {s t : State Op Key} {label : Label Op}
    (h : step request s label = some t) : Effect request s label t := by
  cases label with
  | tick elapsed =>
    cases h
    exact .tick
  | drop op =>
    simp only [step, Option.ite_none_right_eq_some, Option.some.injEq] at h
    obtain ⟨awaits, rfl⟩ := h
    exact .drop awaits
  | run op =>
    simp only [step] at h
    cases hr : request op with
    | get key =>
      simp only [hr, get] at h
      split at h
      next hpc =>
        split at h <;> cases h
        next hk => exact .miss hr hpc hk
        next hk => exact .read hr hpc hk
      next value newest hpc =>
        split at h <;> cases h
        next late => exact .expired hr hpc late
        next early => exact .live hr hpc (by omega)
      next hpc =>
        cases h
        exact .invalidate hr hpc
      next => cases h
    | set key value ttl =>
      simp only [hr, set] at h
      split at h <;> cases h
      next hpc => exact .stamp hr hpc
      next hpc => exact .insert hr hpc
    | delete key =>
      simp only [hr, delete] at h
      split at h <;> cases h
      next hpc => exact .delete hr hpc

end RustyGasket.MemoryBackend
