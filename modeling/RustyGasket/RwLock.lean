import Mathlib.Data.List.Nodup
import Mathlib.Logic.Function.Basic

/-!
# A readers-writer lock

Many readers or one writer. `Guarded` ties a lock to the guards its users hold,
and the four operations keep it.
-/

inductive GuardMode
  | read
  | write
  deriving DecidableEq, Repr

structure RwLock (τ : Type*) where
  readers : List τ
  writer : Option τ

namespace RwLock

variable {τ : Type*}

def free : RwLock τ := ⟨[], none⟩

def acquireRead (lock : RwLock τ) (c : τ) : Option (RwLock τ) :=
  if lock.writer.isNone then some { lock with readers := c :: lock.readers } else none

def acquireWrite (lock : RwLock τ) (c : τ) : Option (RwLock τ) :=
  if lock.writer.isNone ∧ lock.readers.isEmpty then some { lock with writer := some c } else none

def releaseRead [DecidableEq τ] (lock : RwLock τ) (c : τ) : RwLock τ :=
  { lock with readers := lock.readers.erase c }

def releaseWrite (lock : RwLock τ) : RwLock τ := { lock with writer := none }

/-- The lock records exactly the guards that are held, and a writer is alone. -/
structure Guarded (lock : RwLock τ) (guard : τ → Option GuardMode) : Prop where
  nodup : lock.readers.Nodup
  reader : ∀ c, c ∈ lock.readers ↔ guard c = some .read
  writer : ∀ c, lock.writer = some c ↔ guard c = some .write
  alone : lock.writer ≠ none → lock.readers = []

theorem free_guarded : Guarded (free : RwLock τ) fun _ => none := by
  constructor <;> simp [free]

/-- Whoever writes holds the only guard. -/
theorem Guarded.exclusive {lock : RwLock τ} {guard : τ → Option GuardMode}
    (h : Guarded lock guard) {c d : τ} (hc : guard c = some .write) (hd : guard d ≠ none) :
    d = c := by
  have writer := (h.writer c).mpr hc
  obtain ⟨mode, hm⟩ := Option.ne_none_iff_exists'.mp hd
  cases mode with
  | read =>
    have none_reads := h.alone (by rw [writer]; nofun)
    have reads := (h.reader d).mpr hm
    rw [none_reads] at reads
    cases reads
  | write =>
    have second := (h.writer d).mpr hm
    exact Option.some.inj (second.symm.trans writer)

variable [DecidableEq τ] {lock lock' : RwLock τ} {guard : τ → Option GuardMode} {c : τ}

theorem Guarded.acquireRead (h : Guarded lock guard) (idle : guard c = none)
    (ha : lock.acquireRead c = some lock') :
    Guarded lock' (Function.update guard c (some .read)) := by
  unfold RwLock.acquireRead at ha
  split at ha
  · rename_i free
    cases ha
    have absent : c ∉ lock.readers := by
      rw [h.reader, idle]
      nofun
    refine ⟨List.nodup_cons.mpr ⟨absent, h.nodup⟩, ?_, ?_, ?_⟩
    · intro d
      by_cases same : d = c
      · simp [same]
      · simp [same, h.reader]
    · intro d
      by_cases same : d = c
      · simp [same, Option.isNone_iff_eq_none.mp free]
      · simp [same, h.writer]
    · intro writing
      exact absurd (Option.isNone_iff_eq_none.mp free) writing
  · cases ha

theorem Guarded.acquireWrite (h : Guarded lock guard) (ha : lock.acquireWrite c = some lock') :
    Guarded lock' (Function.update guard c (some .write)) := by
  unfold RwLock.acquireWrite at ha
  split at ha
  · rename_i free
    cases ha
    have unread : lock.readers = [] := List.isEmpty_iff.mp free.2
    have unwritten : lock.writer = none := Option.isNone_iff_eq_none.mp free.1
    refine ⟨h.nodup, ?_, ?_, fun _ => unread⟩
    · intro d
      by_cases same : d = c
      · simp [same, unread]
      · simp [same, h.reader]
    · intro d
      by_cases same : d = c
      · simp [same]
      · have other := h.writer d
        rw [unwritten] at other
        simp only [Function.update_of_ne same, ← other, Option.some.injEq]
        exact ⟨fun e => absurd e.symm same, nofun⟩
  · cases ha

theorem Guarded.releaseRead (h : Guarded lock guard) (reads : guard c = some .read) :
    Guarded (lock.releaseRead c) (Function.update guard c none) := by
  refine ⟨h.nodup.erase c, ?_, ?_, ?_⟩
  · intro d
    by_cases same : d = c
    · subst same
      simp [RwLock.releaseRead, h.nodup.not_mem_erase]
    · simp [RwLock.releaseRead, List.mem_erase_of_ne same, same, h.reader]
  · intro d
    by_cases same : d = c
    · subst same
      have silent : lock.writer ≠ some d := by
        rw [Ne, h.writer, reads]
        nofun
      simpa [RwLock.releaseRead] using silent
    · simp [RwLock.releaseRead, same, h.writer]
  · intro writing
    rw [RwLock.releaseRead, h.alone writing]
    rfl

theorem Guarded.releaseWrite (h : Guarded lock guard) (writes : guard c = some .write) :
    Guarded lock.releaseWrite (Function.update guard c none) := by
  have writer := (h.writer c).mpr writes
  refine ⟨h.nodup, ?_, ?_, ?_⟩
  · intro d
    by_cases same : d = c
    · subst same
      have none_reads := h.alone (by rw [writer]; nofun)
      simp [RwLock.releaseWrite, none_reads]
    · simp [RwLock.releaseWrite, same, h.reader]
  · intro d
    by_cases same : d = c
    · simp [RwLock.releaseWrite, same]
    · have other : guard d ≠ some .write := fun hd => same (h.exclusive writes (by rw [hd]; nofun))
      simpa [RwLock.releaseWrite, same] using other
  · intro writing
    exact absurd rfl writing

end RwLock
