import Mathlib.Data.Nat.Notation
import Mathlib.Tactic.SplitIfs
import RustyGasket.Transition

/-!
# `SchedulerPlugin`

Any number of `prepare` and `shutdown` calls, and the job loops they spawn and abort. A
step is what a worker does with a loop, or time passing; when a worker takes a loop up,
how far one poll of it gets and how long a run takes is left open. All times are in the
range of `Instant`.

A `tokio` interval ticks first at once and then each period after the tick before,
however late that was taken; of a zero period it panics. `JoinHandle::abort` asks: a
loop that is being polled goes on to where its poll ends, and one that is not is dropped
when a worker takes it up.
-/

namespace RustyGasket.Scheduler

structure ScheduledJob where
  name : String
  interval : Nat
  deriving DecidableEq, Repr

/-- Where a job loop is. A deadline is that of the tick to come. -/
inductive Phase
  | spawned
  /-- Awaiting the tick that starts nothing. -/
  | first (deadline : Nat)
  | waiting (deadline : Nat)
  /-- Awaiting the job. -/
  | running (deadline : Nat)
  | panicked
  | aborted
  deriving DecidableEq, Repr

/-- `born` is when the interval was made, and `starts` the times of the runs so far,
the last one first. -/
structure Task where
  job : ScheduledJob
  phase : Phase
  born : Nat
  starts : List Nat
  /-- A worker is in a poll of the loop. -/
  polled : Bool
  /-- The loop has been asked to abort. -/
  aborting : Bool
  deriving DecidableEq, Repr

/-- What a worker does with a loop, and the job in it. -/
inductive Event
  | take
  | advance
  | finish (ok : Bool)
  | panic
  | park
  deriving DecidableEq, Repr

namespace Task

def spawn (job : ScheduledJob) : Task := ⟨job, .spawned, 0, [], false, false⟩

def alive (task : Task) : Bool :=
  match task.phase with
  | .panicked | .aborted => false
  | _ => true

/-- A worker takes the loop up: a poll of it begins, or it is dropped. -/
def take (task : Task) : Option Task :=
  if task.alive = true ∧ task.polled = false then
    if task.aborting then some { task with phase := .aborted }
    else some { task with polled := true }
  else none

/-- The loop gets past its await, where it can. -/
def advance (task : Task) (now : Nat) : Option Task :=
  match task.phase with
  | .spawned =>
    if task.job.interval = 0 then some { task with phase := .panicked, polled := false }
    else some { task with phase := .first now, born := now }
  | .first deadline =>
    if deadline ≤ now then some { task with phase := .waiting (deadline + task.job.interval) }
    else none
  | .waiting deadline =>
    if deadline ≤ now then some
      { task with
        phase := .running (deadline + task.job.interval)
        starts := now :: task.starts }
    else none
  | _ => none

/-- The job returns; an error is logged. -/
def finish (task : Task) (_ok : Bool) : Option Task :=
  match task.phase with
  | .running deadline => some { task with phase := .waiting deadline }
  | _ => none

/-- The job panics, and the loop with it. -/
def panic (task : Task) : Option Task :=
  match task.phase with
  | .running _ => some { task with phase := .panicked, polled := false }
  | _ => none

/-- The poll ends at an await; a loop that is to abort is dropped there. -/
def park (task : Task) : Option Task :=
  match task.phase with
  | .first _ | .waiting _ | .running _ =>
    if task.aborting then some { task with phase := .aborted, polled := false }
    else some { task with polled := false }
  | _ => none

/-- Only a poll moves the loop. -/
def on (task : Task) (now : Nat) (event : Event) : Option Task :=
  match event with
  | .take => task.take
  | .advance => if task.polled then task.advance now else none
  | .finish ok => if task.polled then task.finish ok else none
  | .panic => if task.polled then task.panic else none
  | .park => if task.polled then task.park else none

/-- `JoinHandle::abort`. -/
def abort (task : Task) : Task := if task.alive then { task with aborting := true } else task

end Task

/-- Tasks are numbered as they are spawned. -/
structure State where
  now : Nat
  task : Nat → Option Task
  spawned : Nat
  handles : List Nat
  poisoned : Bool

def init : State := ⟨0, fun _ => none, 0, [], false⟩

inductive Label
  | tick (elapsed : Nat)
  | prepare
  | shutdown
  | loop (id : Nat) (event : Event)
  deriving DecidableEq, Repr

namespace State

def put (s : State) (id : Nat) (task : Task) : State :=
  { s with task := Function.update s.task id (some task) }

/-- The loop over the jobs, with the numbers of the tasks spawned. -/
def spawnAll (s : State) : List ScheduledJob → State × List Nat
  | [] => (s, [])
  | job :: rest =>
    let (t, ids) := ({ s.put s.spawned (.spawn job) with spawned := s.spawned + 1 }).spawnAll rest
    (t, s.spawned :: ids)

def abortAll (s : State) (ids : List Nat) : State :=
  { s with task := fun id => if id ∈ ids then (s.task id).map Task.abort else s.task id }

/-- With the answer's error. -/
def prepare (s : State) (jobs : List ScheduledJob) : State × Except String Unit :=
  let (t, newHandles) := s.spawnAll jobs
  if t.poisoned then
    (t.abortAll newHandles, .error "scheduler handle store is unavailable")
  else ({ t with handles := t.handles ++ newHandles }, .ok ())

def shutdown (s : State) : State :=
  if s.poisoned then s else { s.abortAll s.handles with handles := [] }

end State

def step (jobs : List ScheduledJob) (s : State) : Label → Option State
  | .tick elapsed => some { s with now := s.now + elapsed }
  | .prepare => some (s.prepare jobs).1
  | .shutdown => some s.shutdown
  | .loop id event =>
    (s.task id).bind fun task => (task.on s.now event).map fun next => s.put id next

/-- What an event makes of a loop. -/
inductive Task.Effect (task : Task) (now : Nat) : Event → Task → Prop
  | drop : task.alive = true → task.polled = false → task.aborting = true →
      Effect task now .take { task with phase := .aborted }
  | take : task.alive = true → task.polled = false → task.aborting = false →
      Effect task now .take { task with polled := true }
  | zero : task.polled = true → task.phase = .spawned → task.job.interval = 0 →
      Effect task now .advance { task with phase := .panicked, polled := false }
  | begin : task.polled = true → task.phase = .spawned → 0 < task.job.interval →
      Effect task now .advance { task with phase := .first now, born := now }
  | first {deadline} : task.polled = true → task.phase = .first deadline → deadline ≤ now →
      Effect task now .advance { task with phase := .waiting (deadline + task.job.interval) }
  | start {deadline} : task.polled = true → task.phase = .waiting deadline → deadline ≤ now →
      Effect task now .advance
        { task with
          phase := .running (deadline + task.job.interval)
          starts := now :: task.starts }
  | finish {ok deadline} : task.polled = true → task.phase = .running deadline →
      Effect task now (.finish ok) { task with phase := .waiting deadline }
  | panic {deadline} : task.polled = true → task.phase = .running deadline →
      Effect task now .panic { task with phase := .panicked, polled := false }
  | parkDropped : task.polled = true → task.alive = true → task.aborting = true →
      Effect task now .park { task with phase := .aborted, polled := false }
  | park : task.polled = true → task.alive = true → task.aborting = false →
      Effect task now .park { task with polled := false }

/-- A poll ends where the loop awaits something. -/
theorem Task.park_cases {task next : Task} (h : task.park = some next) : task.alive = true ∧
    (task.aborting = true ∧ next = { task with phase := .aborted, polled := false } ∨
      task.aborting = false ∧ next = { task with polled := false }) := by
  unfold Task.park at h
  unfold Task.alive
  cases stage : task.phase with
  | first | waiting | running =>
    simp only [stage] at h
    refine ⟨rfl, ?_⟩
    split_ifs at h with aborting
    · cases h
      exact .inl ⟨aborting, rfl⟩
    · cases h
      exact .inr ⟨Bool.eq_false_iff.mpr aborting, rfl⟩
  | spawned | panicked | aborted => simp [stage] at h

theorem Task.on_effect {task next : Task} {now : Nat} {event : Event}
    (h : task.on now event = some next) : task.Effect now event next := by
  cases event with
  | take =>
    simp only [Task.on, Task.take] at h
    split_ifs at h with free aborting
    · cases h
      exact .drop free.1 free.2 aborting
    · cases h
      exact .take free.1 free.2 (Bool.eq_false_iff.mpr aborting)
  | advance =>
    simp only [Task.on] at h
    split_ifs at h with polled
    unfold Task.advance at h
    split at h
    next stage =>
      split_ifs at h with zero
      · cases h
        exact .zero polled stage zero
      · cases h
        exact .begin polled stage (Nat.pos_of_ne_zero zero)
    next deadline stage =>
      split_ifs at h with reached
      cases h
      exact .first polled stage reached
    next deadline stage =>
      split_ifs at h with reached
      cases h
      exact .start polled stage reached
    next => cases h
  | finish ok =>
    simp only [Task.on] at h
    split_ifs at h with polled
    unfold Task.finish at h
    split at h
    next deadline stage =>
      cases h
      exact .finish polled stage
    next => cases h
  | panic =>
    simp only [Task.on] at h
    split_ifs at h with polled
    unfold Task.panic at h
    split at h
    next deadline stage =>
      cases h
      exact .panic polled stage
    next => cases h
  | park =>
    simp only [Task.on] at h
    split_ifs at h with polled
    obtain ⟨alive, ⟨aborting, rfl⟩ | ⟨unasked, rfl⟩⟩ := Task.park_cases h
    · exact .parkDropped polled alive aborting
    · exact .park polled alive unasked

/-! ## One loop -/

/-- Each run at its own tick or after it. -/
def OnTicks (born interval : Nat) : List Nat → Prop
  | [] => True
  | start :: earlier =>
    born + (earlier.length + 1) * interval ≤ start ∧ OnTicks born interval earlier

/-- The tick to come is the one after those of the runs so far. -/
def Task.due (task : Task) : Nat := task.born + (task.starts.length + 1) * task.job.interval

/-- What holds of a loop at a time. -/
structure Task.Sound (now : Nat) (task : Task) : Prop where
  ticks : OnTicks task.born task.job.interval task.starts
  past : ∀ start ∈ task.starts, start ≤ now
  born : task.born ≤ now
  phase : match task.phase with
    | .spawned => task.starts = []
    | .first deadline => deadline = task.born ∧ task.starts = [] ∧ 0 < task.job.interval
    | .waiting deadline | .running deadline => deadline = task.due ∧ 0 < task.job.interval
    | .panicked | .aborted => task.job.interval = 0 → task.starts = []

theorem Task.Sound.later {now now' : Nat} {task : Task} (h : task.Sound now) (le : now ≤ now') :
    task.Sound now' :=
  ⟨h.ticks, fun start hs => Nat.le_trans (h.past start hs) le, Nat.le_trans h.born le, h.phase⟩

theorem Task.Sound.still {now : Nat} {task : Task} (h : task.Sound now)
    (zero : task.job.interval = 0) : task.starts = [] := by
  have phase := h.phase
  cases stage : task.phase <;> simp only [stage] at phase
  · exact phase
  · exact phase.2.1
  · exact absurd phase.2 (by omega)
  · exact absurd phase.2 (by omega)
  · exact phase zero
  · exact phase zero

theorem spawn_sound (job : ScheduledJob) (now : Nat) : (Task.spawn job).Sound now :=
  ⟨trivial, nofun, Nat.zero_le _, rfl⟩

theorem Task.Sound.abort {now : Nat} {task : Task} (h : task.Sound now) : task.abort.Sound now := by
  unfold Task.abort
  split
  · exact ⟨h.ticks, h.past, h.born, h.phase⟩
  · exact h

theorem Task.Sound.on {now : Nat} {task next : Task} {event : Event} (h : task.Sound now)
    (step : task.on now event = some next) : next.Sound now := by
  have phase := h.phase
  cases Task.on_effect step with
  | take | park => exact ⟨h.ticks, h.past, h.born, phase⟩
  | drop | zero | panic | parkDropped => exact ⟨h.ticks, h.past, h.born, h.still⟩
  | begin _ stage positive =>
    simp only [stage] at phase
    refine ⟨?_, h.past, Nat.le_refl _, rfl, phase, positive⟩
    simp only [phase]
    trivial
  | first _ stage =>
    simp only [stage] at phase
    obtain ⟨rfl, none_yet, positive⟩ := phase
    refine ⟨h.ticks, h.past, h.born, ?_, positive⟩
    simp [Task.due, none_yet]
  | start _ stage reached =>
    simp only [stage] at phase
    obtain ⟨rfl, positive⟩ := phase
    refine ⟨⟨reached, h.ticks⟩, ?_, h.born, ?_, positive⟩
    · intro start hs
      obtain rfl | earlier := List.mem_cons.mp hs
      · exact Nat.le_refl _
      · exact h.past start earlier
    · simp only [Task.due, List.length_cons, Nat.add_mul, Nat.one_mul]
      omega
  | finish _ stage =>
    simp only [stage] at phase
    exact ⟨h.ticks, h.past, h.born, phase⟩

/-- Whoever moved was alive, and no move asks to abort or takes that back. -/
theorem Task.on_asked {now : Nat} {task next : Task} {event : Event}
    (step : task.on now event = some next) :
    task.alive = true ∧ next.aborting = task.aborting := by
  cases Task.on_effect step with
  | drop alive | take alive => exact ⟨alive, rfl⟩
  | parkDropped _ alive | park _ alive => exact ⟨alive, rfl⟩
  | zero _ stage | begin _ stage | first _ stage | start _ stage | finish _ stage
  | panic _ stage => exact ⟨by simp [Task.alive, stage], rfl⟩

/-- The loop is over, or is to be dropped before it would be polled again. -/
def Task.Stopped (task : Task) : Prop :=
  task.alive = false ∨ task.aborting = true ∧ task.polled = false

theorem Task.Stopped.on {now : Nat} {task next : Task} {event : Event} (h : task.Stopped)
    (step : task.on now event = some next) : next.Stopped ∧ next.starts = task.starts := by
  obtain ⟨alive, -⟩ := Task.on_asked step
  obtain ⟨aborting, unpolled⟩ := h.resolve_left (by simp [alive])
  cases Task.on_effect step with
  | drop => exact ⟨.inl rfl, rfl⟩
  | take _ _ unasked => simp [aborting] at unasked
  | parkDropped polled | park polled | zero polled | begin polled | first polled | start polled
  | finish polled | panic polled => simp [unpolled] at polled

theorem Task.Stopped.abort {task : Task} (h : task.Stopped) : task.abort.Stopped := by
  unfold Task.abort
  split
  next alive => exact .inr ⟨rfl, (h.resolve_left (by simp [alive])).2⟩
  next => exact h

/-! ## All of them -/

/-- The loops are sound, and every one that is alive has been asked to abort or can be: its
handle is stored, or among `extra`. -/
structure Held (extra : List Nat) (s : State) : Prop where
  tasks : ∀ id task, s.task id = some task → task.Sound s.now
  fresh : ∀ id, s.spawned ≤ id → s.task id = none
  held : ∀ id task, s.task id = some task → task.alive = true → task.aborting = false →
    id ∈ s.handles ∨ id ∈ extra
  unpoisoned : s.poisoned = false

abbrev Sound : State → Prop := Held []

theorem sound_init : Sound init :=
  ⟨nofun, fun _ _ => rfl, nofun, rfl⟩

/-- One task in the place of another that can be aborted if it can, or in a free place
whose number is extra. -/
theorem Held.put {extra extra' : List Nat} {s : State} (h : Held extra s) {id : Nat} {task : Task}
    (sound : task.Sound s.now) (old : id < s.spawned)
    (held : task.alive = true → task.aborting = false → id ∈ s.handles ∨ id ∈ extra')
    (more : ∀ other ∈ extra, other ∈ extra') : Held extra' (s.put id task) where
  tasks other task' found := by
    by_cases same : other = id
    · subst same
      simp only [State.put, Function.update_self, Option.some.injEq] at found
      exact found ▸ sound
    · simp only [State.put, Function.update_of_ne same] at found
      exact h.tasks other task' found
  fresh other late := by
    have differs : other ≠ id := by
      rintro rfl
      exact absurd old (Nat.not_lt.mpr late)
    simp only [State.put, Function.update_of_ne differs]
    exact h.fresh other late
  held other task' found alive unasked := by
    by_cases same : other = id
    · subst same
      simp only [State.put, Function.update_self, Option.some.injEq] at found
      exact held (found ▸ alive) (found ▸ unasked)
    · simp only [State.put, Function.update_of_ne same] at found
      exact (h.held other task' found alive unasked).imp_right (more other)
  unpoisoned := h.unpoisoned

theorem Held.grow {extra : List Nat} {s : State} (h : Held extra s) :
    Held extra { s with spawned := s.spawned + 1 } :=
  ⟨h.tasks, fun id late => h.fresh id (Nat.le_of_succ_le late), h.held, h.unpoisoned⟩

theorem Held.spawnAll {extra : List Nat} {s : State} (h : Held extra s) (jobs : List ScheduledJob) :
    Held (extra ++ (s.spawnAll jobs).2) (s.spawnAll jobs).1 := by
  induction jobs generalizing extra s with
  | nil => simpa [State.spawnAll] using h
  | cons job rest ih =>
    have spawned : Held (extra ++ [s.spawned])
        { s.put s.spawned (.spawn job) with spawned := s.spawned + 1 } :=
      h.grow.put (spawn_sound job s.now) (Nat.lt_succ_self _) (fun _ _ => .inr (by simp))
        (fun other hs => List.mem_append_left _ hs)
    have later := ih spawned
    rw [List.append_assoc, List.singleton_append] at later
    exact later

theorem Held.prepare {s : State} (h : Sound s) (jobs : List ScheduledJob) :
    Sound (s.prepare jobs).1 := by
  have spawned := h.spawnAll jobs
  have stored : (s.prepare jobs).1 =
      { (s.spawnAll jobs).1 with
        handles := (s.spawnAll jobs).1.handles ++ (s.spawnAll jobs).2 } := by
    simp [State.prepare, spawned.unpoisoned]
  rw [stored]
  refine ⟨spawned.tasks, spawned.fresh, fun id task found alive unasked => .inl ?_,
    spawned.unpoisoned⟩
  simpa using spawned.held id task found alive unasked

theorem shutdown_task {s : State} (unpoisoned : s.poisoned = false) (id : Nat) :
    s.shutdown.task id = if id ∈ s.handles then (s.task id).map Task.abort else s.task id := by
  simp only [State.shutdown, unpoisoned, Bool.false_eq_true, if_false, State.abortAll]

theorem abort_asks {task : Task} (alive : task.abort.alive = true) :
    task.abort.aborting = true := by
  unfold Task.abort at alive ⊢
  split
  · rfl
  next ended =>
    rw [if_neg ended] at alive
    exact absurd alive ended

/-- Whatever is alive has been asked to abort once every handle is aborted. -/
theorem Held.shutdown_asks {s : State} (h : Sound s) {id : Nat} {task : Task}
    (found : s.shutdown.task id = some task) (alive : task.alive = true) :
    task.aborting = true := by
  rw [shutdown_task h.unpoisoned] at found
  split at found
  next =>
    obtain ⟨before, -, rfl⟩ := Option.map_eq_some_iff.mp found
    exact abort_asks alive
  next unstored =>
    by_contra unasked
    exact (h.held id task found alive (Bool.eq_false_iff.mpr unasked)).elim unstored
      List.not_mem_nil

theorem Held.shutdown {s : State} (h : Sound s) : Sound s.shutdown where
  tasks id task found := by
    have later : s.shutdown.now = s.now := by
      simp only [State.shutdown, h.unpoisoned, Bool.false_eq_true, if_false, State.abortAll]
    rw [shutdown_task h.unpoisoned] at found
    rw [later]
    split at found
    next =>
      obtain ⟨before, hbefore, rfl⟩ := Option.map_eq_some_iff.mp found
      exact (h.tasks id before hbefore).abort
    next => exact h.tasks id task found
  fresh id late := by
    have none_yet : s.task id = none := by
      simp only [State.shutdown, h.unpoisoned, Bool.false_eq_true, if_false, State.abortAll] at late
      exact h.fresh id late
    rw [shutdown_task h.unpoisoned, none_yet, Option.map_none, ite_self]
  held id task found alive unasked := by
    rw [h.shutdown_asks found alive] at unasked
    cases unasked
  unpoisoned := by
    simp only [State.shutdown, h.unpoisoned, Bool.false_eq_true, if_false, State.abortAll]

theorem Held.loop {s t : State} (h : Sound s) {jobs : List ScheduledJob} {id : Nat} {event : Event}
    (he : step jobs s (.loop id event) = some t) : Sound t := by
  obtain ⟨task, found, moves⟩ := Option.bind_eq_some_iff.mp he
  obtain ⟨next, moved, rfl⟩ := Option.map_eq_some_iff.mp moves
  obtain ⟨alive, same⟩ := Task.on_asked moved
  refine h.put ((h.tasks id task found).on moved) ?_
    (fun _ unasked => h.held id task found alive (same ▸ unasked)) (fun _ other => other)
  by_contra late
  rw [h.fresh id (Nat.not_lt.mp late)] at found
  cases found

theorem step_sound {jobs : List ScheduledJob} {s t : State} {label : Label} (h : Sound s)
    (he : step jobs s label = some t) : Sound t := by
  cases label with
  | tick elapsed =>
    cases he
    exact ⟨fun id task found => (h.tasks id task found).later (Nat.le_add_right _ _), h.fresh,
      h.held, h.unpoisoned⟩
  | prepare =>
    cases he
    exact h.prepare jobs
  | shutdown =>
    cases he
    exact h.shutdown
  | loop id event => exact h.loop he

/-! ## After an abort -/

theorem spawnAll_task (s : State) (jobs : List ScheduledJob) {id : Nat} (old : id < s.spawned) :
    (s.spawnAll jobs).1.task id = s.task id := by
  induction jobs generalizing s with
  | nil => rfl
  | cons job rest ih =>
    rw [State.spawnAll]
    refine (ih _ (Nat.lt_succ_of_lt old)).trans ?_
    exact Function.update_of_ne (Nat.ne_of_lt old) _ _

/-- The loop is stopped and has made these runs. -/
def StoppedAfter (id : Nat) (starts : List Nat) (s : State) : Prop :=
  ∃ task, s.task id = some task ∧ task.Stopped ∧ task.starts = starts

theorem StoppedAfter.step {jobs : List ScheduledJob} {s t : State} {label : Label} {id : Nat}
    {starts : List Nat} (h : StoppedAfter id starts s) (sound : Sound s)
    (he : step jobs s label = some t) : StoppedAfter id starts t := by
  obtain ⟨task, found, stopped, rfl⟩ := h
  cases label with
  | tick elapsed =>
    cases he
    exact ⟨task, found, stopped, rfl⟩
  | prepare =>
    cases he
    have old : id < s.spawned := by
      by_contra late
      rw [sound.fresh id (Nat.not_lt.mp late)] at found
      cases found
    refine ⟨task, ?_, stopped, rfl⟩
    have unpoisoned := (Held.spawnAll sound jobs).unpoisoned
    simp only [State.prepare, unpoisoned, Bool.false_eq_true, if_false]
    rw [spawnAll_task s jobs old, found]
  | shutdown =>
    cases he
    by_cases stored : id ∈ s.handles
    · refine ⟨task.abort, ?_, stopped.abort, ?_⟩
      · rw [shutdown_task sound.unpoisoned, if_pos stored, found, Option.map_some]
      · unfold Task.abort
        split <;> rfl
    · refine ⟨task, ?_, stopped, rfl⟩
      rw [shutdown_task sound.unpoisoned, if_neg stored, found]
  | loop other event =>
    obtain ⟨moving, present, moves⟩ := Option.bind_eq_some_iff.mp he
    obtain ⟨next, moved, rfl⟩ := Option.map_eq_some_iff.mp moves
    by_cases same : id = other
    · subst same
      obtain rfl := Option.some.inj (found.symm.trans present)
      obtain ⟨stays, starts⟩ := stopped.on moved
      exact ⟨next, Function.update_self .., stays, starts⟩
    · exact ⟨task, (Function.update_of_ne same ..).trans found, stopped, rfl⟩

/-! ## What a job can count on -/

theorem OnTicks.length {born interval now : Nat} {starts : List Nat}
    (h : OnTicks born interval starts) (past : ∀ start ∈ starts, start ≤ now) (le : born ≤ now) :
    born + starts.length * interval ≤ now := by
  cases starts with
  | nil => simpa using le
  | cons start earlier => exact Nat.le_trans h.1 (past start List.mem_cons_self)

end RustyGasket.Scheduler
