import RustyGasket.Journal
import RustyGasket.Simulation

/-!
# The sharded log sink

`ShardedLineWriter` and `WriteDrain`: events formatted chunk by chunk on any threads, the
sink's rings between them and its drain workers, and the workers at one locked writer.
A step is one call of `Write`, one of the sink, or one of the underlying writer; which
shard a line goes to, when the sink sheds, how much of a line the writer takes at once,
where it fails and where it panics is left open.

Of `sharded_sink` the model has what the configuration's documentation promises: a ring
of `ring_capacity` records for each shard, first in first out, and a worker for each that
drains at most `drain_batch` at a time. A worker in which the writer panics is over, as
`shutdown` reports it, and a poisoned mutex is locked like any other.
-/

namespace RustyGasket

/-- A fully formatted log line awaiting write. -/
abbrev LogLine := List UInt8

structure ShardedSinkConfig where
  enabled : Bool
  shards : Nat
  ringCapacity : Nat
  drainBatch : Nat
  idleSleepMicros : Nat
  shutdownTimeoutSecs : Option Nat
  deriving DecidableEq, Repr

/-- What the sink is spawned with, in microseconds. -/
structure SinkConfig where
  name : String
  shards : Nat
  ringCapacity : Nat
  drainBatch : Nat
  idleSleep : Nat
  shutdownTimeout : Option Nat
  deriving DecidableEq, Repr

namespace ShardedSinkConfig

def default : ShardedSinkConfig where
  enabled := false
  shards := 1
  ringCapacity := 8192
  drainBatch := 256
  idleSleepMicros := 100
  shutdownTimeoutSecs := some 5

def toSinkConfig (cfg : ShardedSinkConfig) (name : String) : SinkConfig where
  name
  shards := max cfg.shards 1
  ringCapacity := max cfg.ringCapacity 1
  drainBatch := max cfg.drainBatch 1
  idleSleep := max cfg.idleSleepMicros 1
  shutdownTimeout := cfg.shutdownTimeoutSecs.map (· * 1000000)

end ShardedSinkConfig

namespace ShardedLog

/-- A drain worker: parked, before the mutex with its batch, inside `write_all` with the
lines after it, before the flush, or gone with a panic. -/
inductive Worker
  | idle
  | locking (batch : List LogLine)
  | writing (line : LogLine) (done : Nat) (rest : List LogLine)
  | flushing
  | panicked
  deriving DecidableEq, Repr

namespace Worker

/-- The loop over the batch goes to its next line. -/
def next : List LogLine → Worker
  | [] => .flushing
  | line :: rest => .writing line 0 rest

/-- The lines it has that are not done with. -/
def pending : Worker → List LogLine
  | .idle | .flushing | .panicked => []
  | .locking batch => batch
  | .writing line _ rest => line :: rest

/-- What it has written of a line. -/
def begun : Worker → List UInt8
  | .writing line done _ => line.take done
  | _ => []

/-- Between `lock` and the guard's drop. -/
def holds : Worker → Bool
  | .writing _ _ _ | .flushing => true
  | _ => false

end Worker

/-- `writer` is the `ShardedLineWriter` of an event that is being formatted. -/
structure State (Event Shard : Type) where
  writer : Event → Option (List UInt8)
  ring : Shard → List LogLine
  worker : Shard → Worker
  lock : Option Shard
  output : List UInt8

inductive Label (Event Shard : Type)
  | makeWriter (event : Event)
  | write (event : Event) (bytes : List UInt8)
  /-- `Drop`, with `push`'s shard and answer. -/
  | drop (event : Event) (shard : Shard) (accepted : Bool)
  | take (shard : Shard) (count : Nat)
  | lock (shard : Shard)
  /-- The writer takes some bytes of the line. -/
  | advance (shard : Shard) (count : Nat)
  /-- `write_all` is through. -/
  | finish (shard : Shard)
  /-- `write_all` gives up. -/
  | fail (shard : Shard)
  | flush (shard : Shard)
  /-- The writer panics: the batch goes, the guard, and the worker. -/
  | panic (shard : Shard)
  deriving DecidableEq, Repr

variable {Event Shard : Type}

def init : State Event Shard := ⟨fun _ => none, fun _ => [], fun _ => .idle, none, []⟩

section
variable [DecidableEq Event] [DecidableEq Shard]

namespace State

def setWriter (s : State Event Shard) (event : Event) (buf : Option (List UInt8)) :
    State Event Shard :=
  { s with writer := Function.update s.writer event buf }

def setWorker (s : State Event Shard) (shard : Shard) (worker : Worker) : State Event Shard :=
  { s with worker := Function.update s.worker shard worker }

def setRing (s : State Event Shard) (shard : Shard) (lines : List LogLine) : State Event Shard :=
  { s with ring := Function.update s.ring shard lines }

/-- An empty buffer is not pushed; a record is taken while its ring has room. -/
def dropWriter (cfg : SinkConfig) (s : State Event Shard) (event : Event) (shard : Shard)
    (accepted : Bool) : Option (State Event Shard) :=
  match s.writer event with
  | none => none
  | some buf =>
    if buf = [] ∨ accepted = false then some (s.setWriter event none)
    else if (s.ring shard).length < cfg.ringCapacity then
      some ((s.setWriter event none).setRing shard (s.ring shard ++ [buf]))
    else none

end State

def step (cfg : SinkConfig) (s : State Event Shard) :
    Label Event Shard → Option (State Event Shard)
  | .makeWriter event =>
    match s.writer event with
    | none => some (s.setWriter event (some []))
    | some _ => none
  | .write event bytes =>
    match s.writer event with
    | none => none
    | some buf => some (s.setWriter event (some (buf ++ bytes)))
  | .drop event shard accepted => s.dropWriter cfg event shard accepted
  | .take shard count =>
    match s.worker shard with
    | .idle =>
      if 0 < count ∧ count ≤ cfg.drainBatch ∧ count ≤ (s.ring shard).length then
        some ((s.setWorker shard (.locking ((s.ring shard).take count))).setRing shard
          ((s.ring shard).drop count))
      else none
    | _ => none
  | .lock shard =>
    match s.worker shard, s.lock with
    | .locking batch, none => some ({ s with lock := some shard }.setWorker shard (.next batch))
    | _, _ => none
  | .advance shard count =>
    match s.worker shard with
    | .writing line done rest =>
      if 0 < count ∧ done + count ≤ line.length then
        some ({ s with output := s.output ++ (line.drop done).take count }.setWorker shard
          (.writing line (done + count) rest))
      else none
    | _ => none
  | .finish shard =>
    match s.worker shard with
    | .writing line done rest =>
      if done = line.length then some (s.setWorker shard (.next rest)) else none
    | _ => none
  | .fail shard =>
    match s.worker shard with
    | .writing line done rest =>
      if done < line.length then some (s.setWorker shard (.next rest)) else none
    | _ => none
  | .flush shard =>
    match s.worker shard with
    | .flushing => some ({ s with lock := none }.setWorker shard .idle)
    | _ => none
  | .panic shard =>
    match s.worker shard with
    | .writing _ _ _ | .flushing => some ({ s with lock := none }.setWorker shard .panicked)
    | _ => none

end

/-! ## The journal it keeps -/

/-- How much of a line the writer took. -/
inductive Written
  | whole
  | cut (kept : Nat)
  deriving DecidableEq, Repr

def bytes (entry : Entry Shard LogLine Written) : List UInt8 :=
  match entry.outcome with
  | .whole => entry.record
  | .cut kept => entry.record.take kept

/-- What a step does to the journal: a line enters it when the writer is through with it. -/
def effect (s : State Event Shard) : Label Event Shard → List (Journal.Label Shard LogLine Written)
  | .drop event shard true =>
    match s.writer event with
    | some buf => if buf = [] then [] else [.offer shard buf]
    | none => []
  | .finish shard => [.enter shard .whole]
  | .fail shard =>
    match s.worker shard with
    | .writing _ done _ => [.enter shard (.cut done)]
    | _ => []
  | .panic shard =>
    match s.worker shard with
    | .writing _ done rest => .enter shard (.cut done) :: rest.map fun _ => .lose shard
    | _ => []
  | _ => []

/-- What the worker at the mutex has written of its line. -/
def State.begun (s : State Event Shard) : List UInt8 :=
  match s.lock with
  | none => []
  | some shard => (s.worker shard).begun

/-- The output is the journal's lines and the line being written; the queues are the
rings, after what the workers have taken. -/
structure Refines (s : State Event Shard) (j : Journal Shard LogLine Written) : Prop where
  output : s.output = j.entries.flatMap bytes ++ s.begun
  queued : ∀ shard, j.queued shard = (s.worker shard).pending ++ s.ring shard
  locked : ∀ shard, (s.worker shard).holds = true ↔ s.lock = some shard

namespace Worker

@[simp] theorem pending_next (batch : List LogLine) : (next batch).pending = batch := by
  cases batch <;> rfl

@[simp] theorem begun_next (batch : List LogLine) : (next batch).begun = [] := by
  cases batch with
  | nil => rfl
  | cons => rfl

@[simp] theorem holds_next (batch : List LogLine) : (next batch).holds = true := by
  cases batch <;> rfl

end Worker

theorem begun_of_lock {s : State Event Shard} {shard : Shard} (h : s.lock = some shard) :
    s.begun = (s.worker shard).begun := by
  simp only [State.begun, h]

theorem begun_of_free {s : State Event Shard} (h : s.lock = none) : s.begun = [] := by
  simp only [State.begun, h]

theorem begun_of_not_holds {worker : Worker} (h : worker.holds = false) : worker.begun = [] := by
  cases worker with
  | writing => cases h
  | idle | locking | flushing | panicked => rfl

/-- Only a panic loses lines. -/
theorem lost_by {s : State Event Shard} {label : Label Event Shard} {shard : Shard}
    (h : .lose shard ∈ effect s label) : label = .panic shard := by
  unfold effect at h
  split at h
  · split at h
    · split at h <;> simp at h
    · cases h
  · simp at h
  · split at h <;> simp at h
  · split at h
    · simp only [List.mem_cons, reduceCtorEq, List.mem_map, Journal.Label.lose.injEq,
        false_or] at h
      obtain ⟨-, -, rfl⟩ := h
      rfl
    · cases h
  · cases h

/-- Only a failure cuts one. -/
theorem entered_by {s : State Event Shard} {label : Label Event Shard} {shard : Shard}
    {outcome : Written} (h : .enter shard outcome ∈ effect s label) :
    outcome = .whole ∨ label = .fail shard ∨ label = .panic shard := by
  unfold effect at h
  split at h
  · split at h
    · split at h <;> simp at h
    · cases h
  · simp only [List.mem_singleton, Journal.Label.enter.injEq] at h
    exact .inl h.2
  · split at h
    · simp only [List.mem_singleton, Journal.Label.enter.injEq] at h
      exact .inr (.inl (congrArg _ h.1.symm))
    · cases h
  · split at h
    · simp only [List.mem_cons, Journal.Label.enter.injEq, List.mem_map, reduceCtorEq, and_false,
        exists_false, or_false] at h
      exact .inr (.inr (congrArg _ h.1.symm))
    · cases h
  · cases h

theorem Refines.only {s : State Event Shard} {j : Journal Shard LogLine Written} (h : Refines s j)
    {shard : Shard} (holds : (s.worker shard).holds = true) :
    ∀ other, s.lock = some other → other = shard := by
  intro other taken
  rw [(h.locked shard).mp holds] at taken
  exact (Option.some.inj taken).symm

section
variable [DecidableEq Shard]

theorem begun_setWorker {s : State Event Shard} {shard : Shard} (aside : s.lock ≠ some shard)
    (worker : Worker) : (s.setWorker shard worker).begun = s.begun := by
  unfold State.begun
  cases taken : s.lock with
  | none => simp only [State.setWorker, taken]
  | some other =>
    have apart : other ≠ shard := by
      rintro rfl
      exact aside taken
    simp only [State.setWorker, taken, Function.update_of_ne apart]

/-- A step of the worker at the mutex, or of the one that takes it. -/
theorem Refines.put {s : State Event Shard} {j : Journal Shard LogLine Written} (h : Refines s j)
    {shard : Shard} (only : ∀ other, s.lock = some other → other = shard) (worker : Worker)
    (lock : Option Shard) (locked : lock = if worker.holds then some shard else none)
    {output : List UInt8} {entries : List (Entry Shard LogLine Written)}
    (written : output = entries.flatMap bytes ++ worker.begun) :
    Refines ({ s with lock, output }.setWorker shard worker)
      ⟨Function.update j.queued shard (worker.pending ++ s.ring shard), entries⟩ where
  output := by
    cases held : worker.holds with
    | true =>
      rw [held, if_pos rfl] at locked
      rw [begun_of_lock locked]
      simp only [State.setWorker, Function.update_self, written]
    | false =>
      rw [held, if_neg Bool.false_ne_true] at locked
      rw [begun_of_free locked]
      rw [begun_of_not_holds held] at written
      exact written
  queued other := by
    by_cases here : other = shard
    · subst here
      simp only [State.setWorker, Function.update_self]
    · simp only [State.setWorker, Function.update_of_ne here]
      exact h.queued other
  locked other := by
    by_cases here : other = shard
    · subst here
      simp only [State.setWorker, Function.update_self, locked]
      cases worker.holds <;> simp
    · simp only [State.setWorker, Function.update_of_ne here, h.locked other, locked]
      constructor
      · intro taken
        exact absurd (only other taken) here
      · intro taken
        split at taken
        · cases taken
          exact absurd rfl here
        · cases taken

/-- A step of the worker at the mutex after which it has the same lines to write. -/
theorem Refines.proceed {s : State Event Shard} {j : Journal Shard LogLine Written}
    (h : Refines s j) {shard : Shard} (only : ∀ other, s.lock = some other → other = shard)
    {worker : Worker} (same : worker.pending = (s.worker shard).pending) {lock : Option Shard}
    (locked : lock = if worker.holds then some shard else none) {output : List UInt8}
    (written : output = j.entries.flatMap bytes ++ worker.begun) :
    Refines ({ s with lock, output }.setWorker shard worker) j := by
  have put := h.put only worker lock locked written
  rw [same, ← h.queued shard, Function.update_eq_self] at put
  exact put

/-- The worker at the mutex is through with a line, as far as it came. -/
theorem Refines.enter {s : State Event Shard} {j : Journal Shard LogLine Written} (h : Refines s j)
    {shard : Shard} {line : LogLine} {done : Nat} {rest : List LogLine}
    (writing : s.worker shard = .writing line done rest) (outcome : Written)
    (came : bytes (⟨shard, line, outcome⟩ : Entry Shard LogLine Written) = line.take done) :
    s.output = (j.entries ++ [Entry.mk shard line outcome]).flatMap bytes ∧
    Journal.step j (.enter shard outcome) = some
      ⟨Function.update j.queued shard (rest ++ s.ring shard),
        j.entries ++ [⟨shard, line, outcome⟩]⟩ := by
  have head : j.queued shard = line :: (rest ++ s.ring shard) := by
    rw [h.queued shard, writing]
    rfl
  refine ⟨?_, Journal.step_enter head outcome⟩
  have locked : s.lock = some shard := (h.locked shard).mp (by rw [writing]; rfl)
  rw [h.output, begun_of_lock locked, writing, List.flatMap_append, List.flatMap_singleton, came]
  rfl

/-- The worker at the mutex drops its guard. -/
theorem Refines.release {s : State Event Shard} {j : Journal Shard LogLine Written}
    (h : Refines s j) {shard : Shard} (flushing : s.worker shard = .flushing) {worker : Worker}
    (nothing : worker.pending = []) (aside : worker.holds = false) :
    Refines ({ s with lock := none }.setWorker shard worker) j := by
  have holds : (s.worker shard).holds = true := by rw [flushing]; rfl
  apply h.proceed (h.only holds)
  · rw [flushing, nothing, Worker.pending]
  · rw [aside, if_neg Bool.false_ne_true]
  · rw [h.output, begun_of_lock ((h.locked shard).mp holds), flushing, begun_of_not_holds aside]
    rfl

/-- A worker takes a batch out of its ring. -/
theorem Refines.take {s : State Event Shard} {j : Journal Shard LogLine Written}
    (h : Refines s j) {shard : Shard} (idle : s.worker shard = .idle) (count : Nat) :
    Refines ((s.setWorker shard (.locking ((s.ring shard).take count))).setRing shard
      ((s.ring shard).drop count)) j := by
  have aside : s.lock ≠ some shard := by
    intro taken
    have holds := (h.locked shard).mpr taken
    rw [idle] at holds
    cases holds
  refine ⟨h.output.trans (congrArg _ (begun_setWorker aside _).symm), ?_, ?_⟩
  · intro other
    by_cases here : other = shard
    · subst here
      simp only [State.setRing, State.setWorker, Function.update_self, h.queued other, idle,
        Worker.pending, List.nil_append, List.take_append_drop]
    · simp only [State.setRing, State.setWorker, Function.update_of_ne here]
      exact h.queued other
  · intro other
    by_cases here : other = shard
    · subst here
      simp only [State.setRing, State.setWorker, Function.update_self, Worker.holds, aside,
        reduceCtorEq]
    · simp only [State.setRing, State.setWorker, Function.update_of_ne here]
      exact h.locked other

theorem Refines.lock {s : State Event Shard} {j : Journal Shard LogLine Written}
    (h : Refines s j) {shard : Shard} {batch : List LogLine}
    (locking : s.worker shard = .locking batch) (free : s.lock = none) :
    Refines ({ s with lock := some shard }.setWorker shard (.next batch)) j := by
  apply h.proceed (by simp [free])
  · rw [locking, Worker.pending_next, Worker.pending]
  · rw [Worker.holds_next, if_pos rfl]
  · rw [h.output, begun_of_free free, Worker.begun_next]

theorem Refines.advance {s : State Event Shard} {j : Journal Shard LogLine Written}
    (h : Refines s j) {shard : Shard} {line : LogLine} {done : Nat} {rest : List LogLine}
    (writing : s.worker shard = .writing line done rest) (count : Nat) :
    Refines ({ s with output := s.output ++ (line.drop done).take count }.setWorker shard
      (.writing line (done + count) rest)) j := by
  have holds : (s.worker shard).holds = true := by rw [writing]; rfl
  have locked := (h.locked shard).mp holds
  apply h.proceed (h.only holds)
  · rw [writing, Worker.pending, Worker.pending]
  · exact locked
  · rw [h.output, begun_of_lock locked, writing, List.append_assoc, Worker.begun, Worker.begun,
      List.take_add]

/-- The worker goes on to its next line, written whole or cut. -/
theorem Refines.leave {s : State Event Shard} {j : Journal Shard LogLine Written}
    (h : Refines s j) {shard : Shard} {line : LogLine} {done : Nat} {rest : List LogLine}
    (writing : s.worker shard = .writing line done rest) (outcome : Written)
    (came : bytes (⟨shard, line, outcome⟩ : Entry Shard LogLine Written) = line.take done) :
    ∃ j', Transition.exec Journal.step j [.enter shard outcome] = some j' ∧
      Refines (s.setWorker shard (.next rest)) j' := by
  have holds : (s.worker shard).holds = true := by rw [writing]; rfl
  obtain ⟨written, enters⟩ := h.enter writing outcome came
  have put := h.put (h.only holds) (.next rest) s.lock (by simp [(h.locked shard).mp holds])
    (written.trans (by rw [Worker.begun_next, List.append_nil]))
  rw [Worker.pending_next] at put
  refine ⟨_, ?_, put⟩
  rw [Transition.exec, enters]
  rfl

/-- A panic in the middle of a line loses the rest of the batch. -/
theorem Refines.panic {s : State Event Shard} {j : Journal Shard LogLine Written}
    (h : Refines s j) {shard : Shard} {line : LogLine} {done : Nat} {rest : List LogLine}
    (writing : s.worker shard = .writing line done rest) :
    ∃ j', Transition.exec Journal.step j (effect s (.panic shard : Label Event Shard)) = some j' ∧
      Refines ({ s with lock := none }.setWorker shard .panicked) j' := by
  have holds : (s.worker shard).holds = true := by rw [writing]; rfl
  obtain ⟨written, enters⟩ := h.enter writing (.cut done) rfl
  have put := h.put (h.only holds) .panicked none rfl (written.trans (List.append_nil _).symm)
  refine ⟨_, ?_, put⟩
  have loses := Journal.exec_lose
    (j := ⟨Function.update j.queued shard (rest ++ s.ring shard),
      j.entries ++ [⟨shard, line, .cut done⟩]⟩) (Function.update_self _ _ _)
  simp only [effect, writing, Transition.exec, enters, Option.bind_some, loses,
    Function.update_idem, Worker.pending, List.nil_append]

end

section
variable [DecidableEq Event] [DecidableEq Shard]

theorem State.dropWriter_cases {cfg : SinkConfig} {s s' : State Event Shard} {event : Event}
    {shard : Shard} {accepted : Bool} (h : s.dropWriter cfg event shard accepted = some s') :
    effect s (.drop event shard accepted) = [] ∧ s' = s.setWriter event none ∨
    ∃ buf, effect s (.drop event shard accepted) = [.offer shard buf] ∧
      (s.ring shard).length < cfg.ringCapacity ∧
      s' = (s.setWriter event none).setRing shard (s.ring shard ++ [buf]) := by
  unfold State.dropWriter at h
  split at h
  · cases h
  next buf open' =>
    split at h
    next unpushed =>
      cases h
      refine .inl ⟨?_, rfl⟩
      cases accepted with
      | false => rfl
      | true => simp only [effect, open', if_pos (unpushed.resolve_right nofun)]
    next pushed =>
      split at h
      next room =>
        cases h
        refine .inr ⟨buf, ?_, room, rfl⟩
        obtain ⟨full, taken⟩ := not_or.mp pushed
        rw [Bool.not_eq_false] at taken
        subst taken
        simp only [effect, open', if_neg full]
      · cases h

/-- A record is pushed. -/
theorem Refines.offer {s : State Event Shard} {j : Journal Shard LogLine Written}
    (h : Refines s j) (event : Event) (shard : Shard) (buf : LogLine) :
    Refines ((s.setWriter event none).setRing shard (s.ring shard ++ [buf]))
      { j with queued := Function.update j.queued shard (j.queued shard ++ [buf]) } where
  output := h.output
  queued other := by
    by_cases here : other = shard
    · subst here
      simp only [State.setRing, State.setWriter, Function.update_self, h.queued other,
        List.append_assoc]
    · simp only [State.setRing, State.setWriter, Function.update_of_ne here]
      exact h.queued other
  locked := h.locked

/-- Every step of the sink is a run of the journal. -/
theorem step_follows {cfg : SinkConfig} {s s' : State Event Shard}
    {j : Journal Shard LogLine Written} {label : Label Event Shard} (h : Refines s j)
    (hs : step cfg s label = some s') :
    ∃ j', Transition.exec Journal.step j (effect s label) = some j' ∧ Refines s' j' := by
  cases label with
  | makeWriter event =>
    simp only [step] at hs
    split at hs
    · cases hs
      exact ⟨j, rfl, h.output, h.queued, h.locked⟩
    · cases hs
  | write event bytes =>
    simp only [step] at hs
    split at hs
    · cases hs
    · cases hs
      exact ⟨j, rfl, h.output, h.queued, h.locked⟩
  | drop event shard accepted =>
    obtain ⟨quiet, rfl⟩ | ⟨buf, offers, -, rfl⟩ := State.dropWriter_cases hs
    · exact ⟨j, by rw [quiet]; rfl, h.output, h.queued, h.locked⟩
    · exact ⟨_, by rw [offers]; rfl, h.offer event shard buf⟩
  | take shard count =>
    simp only [step] at hs
    split at hs
    next idle =>
      split at hs
      · cases hs
        exact ⟨j, rfl, h.take idle count⟩
      · cases hs
    · cases hs
  | lock shard =>
    simp only [step] at hs
    split at hs
    next batch locking free =>
      cases hs
      exact ⟨j, rfl, h.lock locking free⟩
    · cases hs
  | advance shard count =>
    simp only [step] at hs
    split at hs
    next line done rest writing =>
      split at hs
      · cases hs
        exact ⟨j, rfl, h.advance writing count⟩
      · cases hs
    · cases hs
  | finish shard =>
    simp only [step] at hs
    split at hs
    next line done rest writing =>
      split at hs
      next whole =>
        cases hs
        have came : bytes (⟨shard, line, .whole⟩ : Entry Shard LogLine Written) =
            line.take done := by
          rw [whole, List.take_length]
          rfl
        exact h.leave writing .whole came
      · cases hs
    · cases hs
  | fail shard =>
    simp only [step] at hs
    split at hs
    next line done rest writing =>
      split at hs
      · cases hs
        simp only [effect, writing]
        exact h.leave writing (.cut done) rfl
      · cases hs
    · cases hs
  | flush shard =>
    simp only [step] at hs
    split at hs
    next flushing =>
      cases hs
      exact ⟨j, rfl, h.release flushing rfl rfl⟩
    · cases hs
  | panic shard =>
    simp only [step] at hs
    split at hs
    next line done rest writing =>
      cases hs
      exact h.panic writing
    next flushing =>
      cases hs
      refine ⟨j, ?_, h.release flushing rfl rfl⟩
      simp only [effect, flushing, Transition.exec]
    · cases hs

/-- The lines a run pushes into a shard's ring. -/
def pushed (cfg : SinkConfig) (run : List (Label Event Shard)) (shard : Shard) : List LogLine :=
  Journal.offered shard (Transition.trace (step cfg) effect init run)

end

theorem init_refines : Refines (init : State Event Shard) Journal.empty :=
  ⟨rfl, fun _ => rfl, fun _ => by simp [init, Worker.holds]⟩

/-- The lines of a shard that no writer is through with. -/
def State.waiting (s : State Event Shard) (shard : Shard) : List LogLine :=
  (s.worker shard).pending ++ s.ring shard

/-! ## What is written -/

section
variable [DecidableEq Event]

/-- **The output is whole lines, each written once and in its shard's order.** However
many events are formatted at once, and however their lines wait, are batched and race for
the writer: the output is one line after another and what is written of the next; the
lines of a shard, and after them those that wait, are among what was pushed into its
ring, in order and as often; with at most one shard configured that is the order of the
whole output. Without a panic no line pushed is missing, and without an error none is
cut. -/
theorem lines_intact {cfg : ShardedSinkConfig} {name : String}
    {run : List (Label Event (Fin (cfg.toSinkConfig name).shards))}
    {s : State Event (Fin (cfg.toSinkConfig name).shards)}
    (h : Transition.exec (step (cfg.toSinkConfig name)) init run = some s) :
    ∃ entries : List (Entry (Fin (cfg.toSinkConfig name).shards) LogLine Written),
      s.output = entries.flatMap bytes ++ s.begun ∧
      (∀ shard, (Journal.delivered shard entries ++ s.waiting shard).Sublist
        (pushed (cfg.toSinkConfig name) run shard)) ∧
      (cfg.shards ≤ 1 → ∀ shard, Journal.delivered shard entries = entries.map Entry.record) ∧
      ((∀ shard, .panic shard ∉ run) → ∀ shard,
        Journal.delivered shard entries ++ s.waiting shard =
          pushed (cfg.toSinkConfig name) run shard) ∧
      ((∀ shard, .panic shard ∉ run ∧ .fail shard ∉ run) →
        ∀ entry ∈ entries, entry.outcome = .whole) := by
  obtain ⟨j, hj, refines⟩ := Transition.exec_trace (R := Refines)
    (fun _ _ _ _ related hs => step_follows related hs) init_refines h
  refine ⟨j.entries, refines.output, fun shard => ?_, fun single shard => ?_, fun calm shard => ?_,
    fun calm entry listed => ?_⟩
  · rw [State.waiting, ← refines.queued shard]
    exact Journal.delivered_sublist hj shard
  · have one : (cfg.toSinkConfig name).shards = 1 := Nat.max_eq_right single
    have : Subsingleton (Fin (cfg.toSinkConfig name).shards) := by
      rw [one]
      infer_instance
    exact Journal.delivered_all shard j.entries
  · rw [State.waiting, ← refines.queued shard]
    refine Journal.delivered_eq hj (fun other told => ?_) shard
    obtain ⟨label, listed, t, told⟩ := Transition.mem_trace told
    exact calm other (lost_by told ▸ listed)
  · obtain before | told := Journal.exec_outcome hj listed
    · cases before
    · obtain ⟨label, listed, t, told⟩ := Transition.mem_trace told
      obtain whole | rfl | rfl := entered_by told
      · exact whole
      · exact absurd listed (calm _).2
      · exact absurd listed (calm _).1

end

/-- Two shards. -/
def twoShards : ShardedSinkConfig := { ShardedSinkConfig.default with shards := 2 }

/-- Two events are formatted at once; the second one's worker panics inside its line. -/
def panickedRun : List (Label Nat (Fin (twoShards.toSinkConfig "log").shards)) :=
  [.makeWriter 0, .makeWriter 1, .write 0 [97], .write 1 [98, 99], .write 0 [10],
    .drop 0 ⟨0, by decide⟩ true, .drop 1 ⟨1, by decide⟩ true, .take ⟨0, by decide⟩ 1,
    .take ⟨1, by decide⟩ 1, .lock ⟨1, by decide⟩, .advance ⟨1, by decide⟩ 1, .panic ⟨1, by decide⟩,
    .lock ⟨0, by decide⟩, .advance ⟨0, by decide⟩ 2, .finish ⟨0, by decide⟩]

theorem panickedRun_intact :
    ∃ s, Transition.exec (step (twoShards.toSinkConfig "log")) init panickedRun = some s ∧
      s.output = [98, 97, 10] ∧
      ∃ entries : List (Entry (Fin (twoShards.toSinkConfig "log").shards) LogLine Written),
        s.output = entries.flatMap bytes ++ s.begun := by
  have reached : (Transition.exec (step (twoShards.toSinkConfig "log")) init panickedRun).map
      State.output = some [98, 97, 10] := by
    decide +kernel
  obtain ⟨s, hs, output⟩ := Option.map_eq_some_iff.mp reached
  obtain ⟨entries, written, -⟩ := lines_intact hs
  exact ⟨s, hs, output, entries, written⟩

/-! ## What can still be written -/

/-- No worker is past the end of its line. -/
def Within (s : State Event Shard) : Prop :=
  ∀ shard line done rest, s.worker shard = .writing line done rest → done ≤ line.length

theorem Worker.next_within {batch rest : List LogLine} {line : LogLine} {done : Nat}
    (h : next batch = .writing line done rest) : done ≤ line.length := by
  cases batch with
  | nil => cases h
  | cons => cases h; exact Nat.zero_le _

section
variable [DecidableEq Event] [DecidableEq Shard]

omit [DecidableEq Event] in
theorem Within.setWorker {s : State Event Shard} (h : Within s) {shard : Shard} {worker : Worker}
    (within : ∀ line done rest, worker = .writing line done rest → done ≤ line.length) :
    Within (s.setWorker shard worker) := by
  intro other
  by_cases here : other = shard
  · subst here
    simp only [State.setWorker, Function.update_self]
    exact within
  · simp only [State.setWorker, Function.update_of_ne here]
    exact h other

theorem step_within {cfg : SinkConfig} {s s' : State Event Shard} {label : Label Event Shard}
    (h : Within s) (hs : step cfg s label = some s') : Within s' := by
  cases label with
  | makeWriter event | write event bytes =>
    simp only [step] at hs
    split at hs <;> cases hs
    exact h
  | drop event shard accepted =>
    obtain ⟨-, rfl⟩ | ⟨buf, -, -, rfl⟩ := State.dropWriter_cases hs
    · exact h
    · exact h
  | take shard count =>
    simp only [step] at hs
    split at hs
    · split at hs
      · cases hs
        exact h.setWorker nofun
      · cases hs
    · cases hs
  | lock shard =>
    simp only [step] at hs
    split at hs
    next batch locking _ =>
      cases hs
      have taken : Within { s with lock := some shard } := h
      exact taken.setWorker fun _ _ _ => Worker.next_within
    · cases hs
  | advance shard count =>
    simp only [step] at hs
    split at hs
    next line done rest writing =>
      split at hs
      next room =>
        cases hs
        have written : Within { s with output := s.output ++ (line.drop done).take count } := h
        refine written.setWorker ?_
        rintro _ _ _ ⟨⟩
        exact room.2
      · cases hs
    · cases hs
  | finish shard | fail shard =>
    simp only [step] at hs
    split at hs
    next line done rest writing =>
      split at hs
      · cases hs
        exact h.setWorker fun _ _ _ => Worker.next_within
      · cases hs
    · cases hs
  | flush shard | panic shard =>
    simp only [step] at hs
    split at hs <;> cases hs
    all_goals
      have free : Within { s with lock := none } := h
      exact free.setWorker nofun

end

/-- A step of a drain worker that goes well. -/
def Label.drains : Label Event Shard → Bool
  | .take _ _ | .lock _ | .advance _ _ | .finish _ | .flush _ => true
  | _ => false

theorem Worker.next_ne_panicked (batch : List LogLine) : next batch ≠ .panicked := by
  cases batch <;> simp [next]

section
variable [DecidableEq Event] [DecidableEq Shard]

/-- The drain workers alone can go from one state to another. -/
def Drains (cfg : SinkConfig) (s t : State Event Shard) : Prop :=
  ∃ run : List (Label Event Shard), run.all Label.drains = true ∧
    Transition.exec (step cfg) s run = some t

theorem Drains.refl (cfg : SinkConfig) (s : State Event Shard) : Drains cfg s s := ⟨[], rfl, rfl⟩

theorem Drains.trans {cfg : SinkConfig} {s t u : State Event Shard} (h : Drains cfg s t)
    (h' : Drains cfg t u) : Drains cfg s u := by
  obtain ⟨run, drains, reached⟩ := h
  obtain ⟨rest, drains', reached'⟩ := h'
  refine ⟨run ++ rest, by rw [List.all_append, drains, drains']; rfl, ?_⟩
  rw [Transition.exec_append, reached]
  exact reached'

theorem Drains.one {cfg : SinkConfig} {s t : State Event Shard} (label : Label Event Shard)
    (drains : label.drains = true) (hs : step cfg s label = some t) : Drains cfg s t :=
  ⟨[label], by simp [drains], by simp [Transition.exec, hs]⟩

omit [DecidableEq Event] [DecidableEq Shard] in
/-- What drains has lines written whole, and no others. -/
theorem drains_effect {s : State Event Shard} {label : Label Event Shard}
    {told : Journal.Label Shard LogLine Written} (drains : label.drains = true)
    (h : told ∈ effect s label) : ∃ shard, told = .enter shard .whole := by
  cases label with
  | makeWriter | write | drop | fail | panic => cases drains
  | take | lock | advance | flush => cases h
  | finish shard => exact ⟨shard, List.mem_singleton.mp h⟩

/-- A worker that drains is not gone before or after, and moves nothing of the others. -/
theorem drains_moves {cfg : SinkConfig} {s t : State Event Shard} {label : Label Event Shard}
    (drains : label.drains = true) (hs : step cfg s label = some t) :
    ∃ shard, s.worker shard ≠ .panicked ∧ t.worker shard ≠ .panicked ∧
      ∀ other, other ≠ shard → t.worker other = s.worker other ∧ t.ring other = s.ring other := by
  have moved : ∀ {shard : Shard} {before after : Worker} {t : State Event Shard},
      s.worker shard = before → t.worker = Function.update s.worker shard after →
      before ≠ .panicked → after ≠ .panicked →
      (∀ other, other ≠ shard → t.ring other = s.ring other) →
      ∃ shard, s.worker shard ≠ .panicked ∧ t.worker shard ≠ .panicked ∧
        ∀ other, other ≠ shard → t.worker other = s.worker other ∧ t.ring other = s.ring other := by
    intro shard before after t own moves live live' rings
    refine ⟨shard, own ▸ live, ?_, fun other apart => ⟨?_, rings other apart⟩⟩
    · rw [moves, Function.update_self]
      exact live'
    · rw [moves, Function.update_of_ne apart]
  cases label with
  | makeWriter | write | drop | fail | panic => cases drains
  | take shard count =>
    simp only [step] at hs
    split at hs
    next idle =>
      split at hs
      · cases hs
        exact moved idle rfl (by simp) (by simp) fun other apart => Function.update_of_ne apart ..
      · cases hs
    · cases hs
  | lock shard =>
    simp only [step] at hs
    split at hs
    next batch locking _ =>
      cases hs
      exact moved locking rfl (by simp) (Worker.next_ne_panicked batch) fun _ _ => rfl
    · cases hs
  | advance shard count =>
    simp only [step] at hs
    split at hs
    next line done rest writing =>
      split at hs
      · cases hs
        exact moved writing rfl (by simp) (by simp) fun _ _ => rfl
      · cases hs
    · cases hs
  | finish shard =>
    simp only [step] at hs
    split at hs
    next line done rest writing =>
      split at hs
      · cases hs
        exact moved writing rfl (by simp) (Worker.next_ne_panicked rest) fun _ _ => rfl
      · cases hs
    · cases hs
  | flush shard =>
    simp only [step] at hs
    split at hs
    next flushing =>
      cases hs
      exact moved flushing rfl (by simp) (by simp) fun _ _ => rfl
    · cases hs

/-- While the workers drain, the same ones are gone, and their lines stay. -/
theorem Drains.panicked {cfg : SinkConfig} {s t : State Event Shard} (h : Drains cfg s t)
    (shard : Shard) :
    (t.worker shard = .panicked ↔ s.worker shard = .panicked) ∧
      (s.worker shard = .panicked → t.ring shard = s.ring shard) := by
  obtain ⟨run, drains, reached⟩ := h
  induction run generalizing s with
  | nil =>
    cases reached
    exact ⟨Iff.rfl, fun _ => rfl⟩
  | cons label rest ih =>
    obtain ⟨first, others⟩ := Bool.and_eq_true_iff.mp drains
    obtain ⟨u, hu, hrest⟩ := Option.bind_eq_some_iff.mp reached
    obtain ⟨same, ring⟩ := ih others hrest
    obtain ⟨acting, live, live', apart⟩ := drains_moves first hu
    by_cases here : shard = acting
    · subst here
      exact ⟨same.trans (iff_of_false live' live), fun gone => absurd gone live⟩
    · obtain ⟨worker, ring'⟩ := apart shard here
      rw [worker] at same ring
      exact ⟨same, fun gone => (ring gone).trans ring'⟩

/-- A worker at the mutex can write the line it is at. -/
theorem write_line (cfg : SinkConfig) {s : State Event Shard} {shard : Shard} {line : LogLine}
    {done : Nat} {rest : List LogLine} (writing : s.worker shard = .writing line done rest)
    (within : done ≤ line.length) :
    ∃ output, Drains cfg s ({ s with output }.setWorker shard (.next rest)) := by
  obtain rfl | more := Nat.eq_or_lt_of_le within
  · refine ⟨s.output, .one (.finish shard) rfl ?_⟩
    simp only [step, writing, if_true]
  · let output := s.output ++ (line.drop done).take (line.length - done)
    let full := { s with output }.setWorker shard (.writing line line.length rest)
    have advances : step cfg s (.advance shard (line.length - done)) = some full := by
      simp only [step, writing, Nat.add_sub_cancel' within]
      exact if_pos ⟨Nat.sub_pos_of_lt more, Nat.le_refl _⟩
    have finishes : step cfg full (.finish shard) =
        some ({ s with output }.setWorker shard (.next rest)) := by
      simp only [step, full, State.setWorker, Function.update_self, if_true, Function.update_idem]
    exact ⟨output, (Drains.one _ rfl advances).trans (.one _ rfl finishes)⟩

/-- And the lines after it, and leave. -/
theorem write_out (cfg : SinkConfig) {shard : Shard} {batch : List LogLine}
    {s : State Event Shard} (next : s.worker shard = .next batch) :
    ∃ output, Drains cfg s ({ s with lock := none, output }.setWorker shard .idle) := by
  induction batch generalizing s with
  | nil =>
    exact ⟨s.output, .one (.flush shard) rfl (by simp only [step, next, Worker.next])⟩
  | cons line rest ih =>
    obtain ⟨output, writes⟩ := write_line cfg next (Nat.zero_le _)
    obtain ⟨output', leaves⟩ := ih (s := { s with output }.setWorker shard (.next rest))
      (Function.update_self _ _ _)
    simp only [State.setWorker, Function.update_idem] at leaves
    exact ⟨output', writes.trans leaves⟩

/-- With the mutex free, a worker can write what it has taken. -/
theorem write_batch (cfg : SinkConfig) {s : State Event Shard} {shard : Shard}
    {batch : List LogLine} (free : s.lock = none) (locking : s.worker shard = .locking batch) :
    ∃ output, Drains cfg s ({ s with lock := none, output }.setWorker shard .idle) := by
  have locks : step cfg s (.lock shard) =
      some ({ s with lock := some shard }.setWorker shard (.next batch)) := by
    simp only [step, locking, free]
  obtain ⟨output, leaves⟩ := write_out cfg
    (s := { s with lock := some shard }.setWorker shard (.next batch)) (Function.update_self _ _ _)
  simp only [State.setWorker, Function.update_idem] at leaves
  exact ⟨output, (Drains.one _ rfl locks).trans leaves⟩

/-- And then its ring, a line at a time: a batch is never of no lines. -/
theorem write_ring (cfg : SinkConfig) (some_batch : 0 < cfg.drainBatch) {shard : Shard}
    {lines : List LogLine} {s : State Event Shard} (ring : s.ring shard = lines)
    (free : s.lock = none) (idle : s.worker shard = .idle) :
    ∃ output, Drains cfg s ({ s with output }.setRing shard []) := by
  induction lines generalizing s with
  | nil =>
    refine ⟨s.output, ?_⟩
    rw [State.setRing, ← ring, Function.update_eq_self]
    exact .refl cfg s
  | cons line rest ih =>
    have takes : step cfg s (.take shard 1) =
        some ((s.setWorker shard (.locking [line])).setRing shard rest) := by
      simp only [step, idle, ring, List.take_succ_cons, List.take_zero, List.drop_succ_cons,
        List.drop_zero]
      exact if_pos ⟨Nat.one_pos, some_batch, Nat.succ_le_succ (Nat.zero_le _)⟩
    obtain ⟨output, writes⟩ := write_batch cfg
      (s := (s.setWorker shard (.locking [line])).setRing shard rest) free
      (Function.update_self _ _ _)
    have back : Drains cfg s ({ s with output }.setRing shard rest) := by
      have same : Function.update s.worker shard .idle = s.worker := by
        rw [← idle, Function.update_eq_self]
      simp only [State.setRing, State.setWorker, Function.update_idem, same] at writes takes ⊢
      rw [← free] at writes
      exact (Drains.one _ rfl takes).trans writes
    obtain ⟨output', writes'⟩ := ih (s := { s with output }.setRing shard rest)
      (Function.update_self _ _ _) free idle
    simp only [State.setRing, Function.update_idem] at writes'
    exact ⟨output', back.trans writes'⟩

/-- Nobody is at the mutex. -/
def Free (s : State Event Shard) : Prop :=
  s.lock = none ∧ ∀ shard, (s.worker shard).holds = false

omit [DecidableEq Event] in
theorem Free.idle {s : State Event Shard}
    (h : ∀ shard, (s.worker shard).holds = true ↔ s.lock = some shard)
    {shard : Shard} (only : ∀ other, s.lock = some other → other = shard) (output : List UInt8) :
    Free ({ s with lock := none, output }.setWorker shard .idle) := by
  refine ⟨rfl, fun other => ?_⟩
  by_cases here : other = shard
  · subst here
    simp only [State.setWorker, Function.update_self, Worker.holds]
  · simp only [State.setWorker, Function.update_of_ne here]
    rw [Bool.eq_false_iff]
    intro holds
    exact here (only other ((h other).mp holds))

/-- Whoever is at the mutex can leave it. -/
theorem free_mutex {cfg : SinkConfig} {s : State Event Shard} {j : Journal Shard LogLine Written}
    (within : Within s) (refines : Refines s j) : ∃ t, Drains cfg s t ∧ Free t := by
  cases taken : s.lock with
  | none =>
    refine ⟨s, .refl cfg s, taken, fun shard => ?_⟩
    rw [Bool.eq_false_iff]
    intro holds
    rw [(refines.locked shard).mp holds] at taken
    cases taken
  | some shard =>
    have holds := (refines.locked shard).mpr taken
    have free := Free.idle refines.locked (refines.only holds)
    cases worker : s.worker shard with
    | idle | locking | panicked =>
      rw [worker] at holds
      cases holds
    | flushing =>
      have next : s.worker shard = .next [] := worker
      obtain ⟨output, leaves⟩ := write_out cfg next
      exact ⟨_, leaves, free output⟩
    | writing line done rest =>
      obtain ⟨output, writes⟩ := write_line cfg worker (within shard line done rest worker)
      obtain ⟨output', leaves⟩ := write_out cfg
        (s := { s with output }.setWorker shard (.next rest)) (Function.update_self _ _ _)
      simp only [State.setWorker, Function.update_idem] at leaves
      exact ⟨_, writes.trans leaves, free output'⟩

/-- A shard can be emptied by its worker, and the others stay as they are. -/
theorem empty_shard {cfg : SinkConfig} (some_batch : 0 < cfg.drainBatch) {s : State Event Shard}
    (free : Free s) {shard : Shard} (live : s.worker shard ≠ .panicked) :
    ∃ t, Drains cfg s t ∧ Free t ∧ t.waiting shard = [] ∧
      ∀ other, other ≠ shard → t.waiting other = s.waiting other := by
  have served : ∃ output, Drains cfg s ({ s with lock := none, output }.setWorker shard .idle) := by
    cases worker : s.worker shard with
    | idle =>
      refine ⟨s.output, ?_⟩
      rw [State.setWorker, ← worker, Function.update_eq_self, ← free.1]
      exact .refl cfg s
    | locking batch => exact write_batch cfg free.1 worker
    | flushing | writing =>
      have holds := free.2 shard
      rw [worker] at holds
      cases holds
    | panicked => exact absurd worker live
  obtain ⟨output, serves⟩ := served
  have free' : Free ({ s with lock := none, output }.setWorker shard .idle) := by
    refine ⟨rfl, fun other => ?_⟩
    by_cases here : other = shard
    · subst here
      simp only [State.setWorker, Function.update_self, Worker.holds]
    · simp only [State.setWorker, Function.update_of_ne here]
      exact free.2 other
  obtain ⟨output', empties⟩ := write_ring cfg some_batch
    (s := { s with lock := none, output }.setWorker shard .idle) rfl rfl
    (Function.update_self _ _ _)
  refine ⟨_, serves.trans empties, ⟨rfl, free'.2⟩, ?_, fun other apart => ?_⟩
  · simp only [State.waiting, State.setRing, State.setWorker, Function.update_self, Worker.pending,
      List.append_nil]
  · simp only [State.waiting, State.setRing, State.setWorker, Function.update_of_ne apart]

theorem empty_shards {cfg : SinkConfig} (some_batch : 0 < cfg.drainBatch) (shards : List Shard)
    {s : State Event Shard} (free : Free s) :
    ∃ t, Drains cfg s t ∧ Free t ∧ ∀ shard, s.worker shard ≠ .panicked →
      shard ∈ shards ∨ s.waiting shard = [] → t.waiting shard = [] := by
  induction shards generalizing s with
  | nil => exact ⟨s, .refl cfg s, free, fun shard _ h => h.resolve_left nofun⟩
  | cons shard shards ih =>
    by_cases gone : s.worker shard = .panicked
    · obtain ⟨t, drains, free', emptied⟩ := ih free
      refine ⟨t, drains, free', fun other live h => emptied other live ?_⟩
      refine h.imp_left fun listed => (List.mem_cons.mp listed).resolve_left ?_
      rintro rfl
      exact live gone
    · obtain ⟨t, drains, free', emptied, kept⟩ := empty_shard some_batch free gone
      obtain ⟨u, drains', free'', rest⟩ := ih free'
      refine ⟨u, drains.trans drains', free'', fun other live h => rest other ?_ ?_⟩
      · exact fun gone' => live ((drains.panicked other).1.mp gone')
      · by_cases here : other = shard
        · exact .inr (here ▸ emptied)
        · rw [kept other here]
          exact h.imp_left fun listed => (List.mem_cons.mp listed).resolve_left here

/-- The drain workers alone can write what waits for them: after what was written, the
line at hand included, come the lines of the shards whose worker is not gone, each whole
and in its shard's order, and then nothing waits there. -/
def Writable (cfg : SinkConfig) (s : State Event Shard) : Prop :=
  ∃ t before, ∃ more : List (Entry Shard LogLine Written), Drains cfg s t ∧
    s.output = before ++ s.begun ∧ t.output = before ++ more.flatMap Entry.record ∧
    ∀ shard,
      if s.worker shard = .panicked then
        Journal.delivered shard more = [] ∧ t.waiting shard = s.waiting shard
      else Journal.delivered shard more = s.waiting shard ∧ t.waiting shard = []

theorem Refines.writable {cfg : SinkConfig} (some_batch : 0 < cfg.drainBatch) (shards : List Shard)
    (all : ∀ shard, shard ∈ shards) {s : State Event Shard} {j : Journal Shard LogLine Written}
    (h : Refines s j) (within : Within s) : Writable cfg s := by
  obtain ⟨t, leaves, free⟩ := free_mutex within h
  obtain ⟨u, empties, free', emptied⟩ := empty_shards some_batch shards free
  have drains := leaves.trans empties
  have ⟨run, good, reached⟩ := drains
  obtain ⟨j', journal, related⟩ := Transition.exec_trace (R := Refines)
    (fun _ _ _ _ related hs => step_follows related hs) h reached
  have whole : ∀ told ∈ Transition.trace (step cfg) effect s run,
      ∃ shard, told = .enter shard .whole := by
    intro told listed
    obtain ⟨label, member, at_state, told⟩ := Transition.mem_trace listed
    exact drains_effect (List.all_eq_true.mp good label member) told
  obtain ⟨more, entries, made, queued⟩ := Journal.exec_enter journal fun told listed => by
    obtain ⟨shard, rfl⟩ := whole told listed
    exact ⟨shard, .whole, rfl⟩
  refine ⟨u, j.entries.flatMap bytes, more, drains, h.output, ?_, fun shard => ?_⟩
  · rw [related.output, entries, begun_of_free free'.1, List.append_nil, List.flatMap_append]
    congr 1
    refine List.flatMap_congr fun entry listed => ?_
    obtain ⟨shard, told⟩ := whole _ (made entry listed)
    have outcome : entry.outcome = .whole := (Journal.Label.enter.inj told).2
    rw [bytes, outcome]
  · have split := queued shard
    rw [h.queued shard, related.queued shard] at split
    split_ifs with gone
    · have stays : u.waiting shard = s.waiting shard := by
        obtain ⟨worker, ring⟩ := drains.panicked shard
        rw [State.waiting, State.waiting, worker.mpr gone, gone, ring gone]
      refine ⟨?_, stays⟩
      rw [← State.waiting, ← State.waiting, stays] at split
      exact List.self_eq_append_left.mp split
    · have nothing : u.waiting shard = [] := by
        apply emptied shard ?_ (.inl (all shard))
        exact fun gone' => gone ((leaves.panicked shard).1.mp gone')
      rw [← State.waiting, ← State.waiting, nothing, List.append_nil] at split
      exact ⟨split.symm, nothing⟩

/-- **What waits can always be written.** Whatever was configured, and whatever was pushed,
cut, lost or left half-written by a panic: as long as its worker is not gone, the lines
of a shard can all be written by the workers alone. -/
theorem backlog_writable (cfg : ShardedSinkConfig) (name : String)
    (run : List (Label Event (Fin (cfg.toSinkConfig name).shards))) :
    Transition.Always (step (cfg.toSinkConfig name)) (Writable (cfg.toSinkConfig name)) init
      run := by
  have sound : Transition.Always (step (cfg.toSinkConfig name))
      (fun s => Within s ∧ ∃ j, Refines s j) init run := by
    refine Transition.always_of_preserved ?_ ⟨nofun, Journal.empty, init_refines⟩ run
    rintro s label t ⟨within, j, refines⟩ hs
    obtain ⟨j', -, refines'⟩ := step_follows refines hs
    exact ⟨step_within within hs, j', refines'⟩
  apply sound.mono
  rintro s ⟨within, j, refines⟩
  have some_batch : 0 < (cfg.toSinkConfig name).drainBatch := Nat.le_max_right _ _
  exact refines.writable some_batch (List.finRange _) List.mem_finRange within

end

end ShardedLog

end RustyGasket
