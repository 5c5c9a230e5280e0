import RustyGasket.KeyFreshness

/-!
# The order in which key sets are published

A fetch goes on when its leader is dropped, and the permit with it to the next
leader, so two fetches may be under way at once. Only while they do not overlap do
they publish in the order they started in.
-/

namespace RustyGasket.Jwks

variable {lib : JsonWebToken} {crate : JwkLibrary lib} {Caller : Type}

/-- No snapshot was published over one whose fetch started later. -/
def InOrder (s : State crate Caller) : Prop :=
  s.published.Pairwise fun newer older => older.startedAt ≤ newer.startedAt

/-- A fetch is spawned when no earlier one is under way. -/
def Alone (s : State crate Caller) : Label Caller → Prop
  | .run c => s.pc c = .elected → ∀ id task, s.tasks id = some task → task.phase.live = false
  | _ => True

/-- Fetches and publications started by now. -/
structure Past (s : State crate Caller) : Prop where
  started : ∀ id task startedAt, s.tasks id = some task → task.phase.startedAt = some startedAt →
    startedAt ≤ s.now
  published : ∀ publication ∈ s.published, publication.startedAt ≤ s.now

/-- One fetch at a time, and it started no earlier than any that was published. -/
structure Sequential (s : State crate Caller) : Prop where
  single : ∀ id id' task task', s.tasks id = some task → s.tasks id' = some task' →
    task.phase.live = true → task'.phase.live = true → id = id'
  latest : ∀ id task startedAt, s.tasks id = some task → task.phase.startedAt = some startedAt →
    ∀ publication ∈ s.published, publication.startedAt ≤ startedAt
  inOrder : InOrder s

theorem init_past : Past (init crate Caller) := ⟨nofun, nofun⟩

theorem init_sequential : Sequential (init crate Caller) := ⟨nofun, nofun, .nil⟩

theorem Phase.live_of_startedAt {phase : Phase crate} {startedAt : Nat}
    (h : phase.startedAt = some startedAt) : phase.live = true := by
  cases phase with
  | finished | aborted => cases h
  | spawned | fetching | fetched | prepared => rfl

/-- A state with the tasks and publications of another, at a later time. -/
theorem Past.later {s t : State crate Caller} (h : Past s) (tasks : t.tasks = s.tasks)
    (published : t.published = s.published) (now : s.now ≤ t.now) : Past t := by
  constructor
  · intro id task startedAt present started
    rw [tasks] at present
    exact (h.started id task startedAt present started).trans now
  · intro publication hp
    rw [published] at hp
    exact (h.published publication hp).trans now

theorem Sequential.later {s t : State crate Caller} (h : Sequential s) (tasks : t.tasks = s.tasks)
    (published : t.published = s.published) : Sequential t := by
  constructor
  · rw [tasks]
    exact h.single
  · rw [tasks, published]
    exact h.latest
  · unfold InOrder
    rw [published]
    exact h.inOrder

/-- A task is added, or moves on. -/
theorem Past.setTask {s : State crate Caller} (h : Past s) (id : TaskId)
    {task : Task crate Caller}
    (started : ∀ startedAt, task.phase.startedAt = some startedAt → startedAt ≤ s.now) :
    Past (s.setTask id task) := by
  constructor
  · intro other after startedAt moved starts
    obtain ⟨-, same⟩ | ⟨-, before⟩ := setTask_cases moved
    · rw [same] at starts
      exact started startedAt starts
    · exact h.started other after startedAt before starts
  · exact h.published

/-- A task is added or moves on, and no other one is running. -/
theorem Sequential.setTask {s : State crate Caller} (h : Sequential s) {id : TaskId}
    {task : Task crate Caller}
    (alone : ∀ other before, s.tasks other = some before → before.phase.live = true → other = id)
    (latest : ∀ startedAt, task.phase.startedAt = some startedAt →
      ∀ publication ∈ s.published, publication.startedAt ≤ startedAt) :
    Sequential (s.setTask id task) := by
  have only : ∀ other after, (s.setTask id task).tasks other = some after →
      after.phase.live = true → other = id := by
    intro other after moved running
    obtain ⟨same, -⟩ | ⟨-, before⟩ := setTask_cases moved
    · exact same
    · exact alone other after before running
  constructor
  · intro other other' after after' moved moved' running running'
    rw [only other after moved running, only other' after' moved' running']
  · intro other after startedAt moved starts
    obtain ⟨-, same⟩ | ⟨-, before⟩ := setTask_cases moved
    · rw [same] at starts
      exact latest startedAt starts
    · exact h.latest other after startedAt before starts
  · exact h.inOrder

/-- A snapshot is published by a task that is over. -/
theorem Past.publish {s : State crate Caller} (h : Past s) (publication : Publication crate)
    (past : publication.startedAt ≤ s.now) (cached : Option (PreparedJwks crate)) :
    Past { s with cached := cached, published := publication :: s.published } := by
  constructor
  · exact h.started
  · intro other hp
    obtain rfl | older := List.mem_cons.mp hp
    · exact past
    · exact h.published other older

theorem Sequential.publish {s : State crate Caller} (h : Sequential s)
    (publication : Publication crate) (quiet : ∀ id task, s.tasks id = some task →
      task.phase.live = false)
    (latest : ∀ older ∈ s.published, older.startedAt ≤ publication.startedAt)
    (cached : Option (PreparedJwks crate)) :
    Sequential { s with cached := cached, published := publication :: s.published } := by
  constructor
  · exact h.single
  · intro id task startedAt present starts
    have running := Phase.live_of_startedAt starts
    rw [quiet id task present] at running
    cases running
  · exact List.pairwise_cons.mpr ⟨latest, h.inOrder⟩

variable [DecidableEq Caller]

theorem Past.step {store : JwksKeyStore} {kid : Caller → String} {s t : State crate Caller}
    {label : Label Caller} (h : Past s) (hs : step store kid s label = some t) : Past t := by
  cases step_effect hs with
  | tick => exact h.later rfl rfl (Nat.le_add_right _ _)
  | call | empty | load | stale | fresh | acquire | join | release =>
    exact h.later rfl rfl (le_refl _)
  | dropWaiting | dropLeading => exact h.later rfl rfl (le_refl _)
  | spawn =>
    rename_i c hpc
    have added : Past (s.setTask s.next ⟨c, .spawned⟩) := h.setTask s.next nofun
    exact added.later rfl rfl (le_refl _)
  | start present phase =>
    rename_i id task
    apply h.setTask
    rintro startedAt ⟨⟩
    exact le_refl _
  | fetched present phase _ | prepare present phase =>
    apply h.setTask
    intro startedAt starts
    apply h.started _ _ startedAt present
    rw [phase]
    exact starts
  | failed | abort => exact h.setTask _ nofun
  | publish present phase =>
    rename_i id task startedAt snapshot
    have ended : Past (s.setTask id { task with phase := .finished (.ok snapshot) }) :=
      h.setTask id nofun
    have past := h.started id task startedAt present (by rw [phase]; rfl)
    exact ended.publish ⟨startedAt, snapshot⟩ past (some snapshot)

theorem Sequential.step {store : JwksKeyStore} {kid : Caller → String} {s t : State crate Caller}
    {label : Label Caller} (h : Sequential s) (past : Past s) (alone : Alone s label)
    (hs : step store kid s label = some t) : Sequential t := by
  -- the task that moves is the one that runs
  have mine : ∀ {id : TaskId} {task : Task crate Caller}, s.tasks id = some task →
      task.phase.live = true → ∀ other before, s.tasks other = some before →
      before.phase.live = true → other = id := by
    intro id task present live other before was running
    exact h.single other id before task was present running live
  cases step_effect hs with
  | tick => exact h.later rfl rfl
  | call | empty | load | stale | fresh | acquire | join | release => exact h.later rfl rfl
  | dropWaiting | dropLeading => exact h.later rfl rfl
  | spawn =>
    rename_i c hpc
    have quiet := alone hpc
    have added : Sequential (s.setTask s.next ⟨c, .spawned⟩) := by
      refine h.setTask ?_ nofun
      intro other before was running
      rw [quiet other before was] at running
      cases running
    exact added.later rfl rfl
  | start present phase =>
    apply h.setTask (mine present (by rw [phase]; rfl))
    rintro startedAt ⟨⟩
    exact past.published
  | fetched present phase _ | prepare present phase =>
    apply h.setTask (mine present (by rw [phase]; rfl))
    intro startedAt starts
    apply h.latest _ _ startedAt present
    rw [phase]
    exact starts
  | failed present phase _ => exact h.setTask (mine present (by rw [phase]; rfl)) nofun
  | abort present live => exact h.setTask (mine present live) nofun
  | publish present phase =>
    rename_i id task startedAt snapshot
    have only := mine present (by rw [phase]; rfl)
    have ended : Sequential (s.setTask id { task with phase := .finished (.ok snapshot) }) :=
      h.setTask only nofun
    have latest := h.latest id task startedAt present (by rw [phase]; rfl)
    have quiet : ∀ other after,
        (s.setTask id { task with phase := .finished (.ok snapshot) }).tasks other = some after →
        after.phase.live = false := ?_
    · exact ended.publish ⟨startedAt, snapshot⟩ quiet latest (some snapshot)
    intro other after moved
    obtain ⟨-, same⟩ | ⟨differs, before⟩ := setTask_cases moved
    · rw [same]
      rfl
    · rw [← Bool.not_eq_true]
      intro running
      exact differs (only other after before running)

/-! ## What an overlap can lead to -/

/-- The fetch can publish without any other being touched. -/
def Publishable (store : JwksKeyStore) (kid : Caller → String) (id : TaskId) (startedAt : Nat)
    (s : State crate Caller) : Prop :=
  ∃ rest t snapshot, Transition.exec (step store kid) s rest = some t ∧
    t.published = ⟨startedAt, snapshot⟩ :: s.published ∧
    ∀ other, other ≠ id → t.tasks other = s.tasks other

section
variable {store : JwksKeyStore} {kid : Caller → String} {id : TaskId} {startedAt : Nat}
  {s : State crate Caller} {task : Task crate Caller}

/-- The task first moves on. -/
theorem Publishable.before (event : TaskEvent) (phase : Phase crate)
    (present : s.tasks id = some task)
    (moves : runTask store s id task event = some (s.setTask id { task with phase := phase }))
    (h : Publishable store kid id startedAt (s.setTask id { task with phase := phase })) :
    Publishable store kid id startedAt s := by
  obtain ⟨rest, t, snapshot, runs, published, others⟩ := h
  refine ⟨.task id event :: rest, t, snapshot, ?_, published, ?_⟩
  · simp only [Transition.exec, step, present, Option.bind_some, moves]
    exact runs
  · intro other differs
    rw [others other differs, setTask_tasks_of_ne differs]

theorem publishable_prepared {snapshot : PreparedJwks crate} (present : s.tasks id = some task)
    (phase : task.phase = .prepared startedAt snapshot) :
    Publishable store kid id startedAt s := by
  refine ⟨[.task id .publish], { s.setTask id { task with phase := .finished (.ok snapshot) } with
    cached := some snapshot
    published := ⟨startedAt, snapshot⟩ :: s.published }, snapshot, ?_, rfl, ?_⟩
  · simp only [Transition.exec, step, present, Option.bind_some, runTask, phase]
  · intro other differs
    exact setTask_tasks_of_ne differs

theorem publishable_fetched {document : List crate.Jwk} (present : s.tasks id = some task)
    (phase : task.phase = .fetched startedAt document) :
    Publishable store kid id startedAt s := by
  refine .before .prepare (.prepared startedAt (prepareJwks crate s.now document)) present ?_
    (publishable_prepared setTask_tasks_self rfl)
  simp only [runTask, phase]

theorem publishable_fetching {reply : Reply} {document : List crate.Jwk}
    (parses : fetchJwks crate store.maxBodySize reply = .ok document)
    (present : s.tasks id = some task) (phase : task.phase = .fetching startedAt) :
    Publishable store kid id startedAt s := by
  refine .before (.respond reply) (.fetched startedAt document) present ?_
    (publishable_fetched setTask_tasks_self rfl)
  simp only [runTask, phase, parses]

/-- So can every fetch that has started and is not over. -/
theorem publishable {reply : Reply} {document : List crate.Jwk}
    (parses : fetchJwks crate store.maxBodySize reply = .ok document)
    (present : s.tasks id = some task) (starts : task.phase.startedAt = some startedAt) :
    Publishable store kid id startedAt s := by
  cases phase : task.phase with
  | spawned | finished | aborted =>
    rw [phase] at starts
    cases starts
  | fetching =>
    rw [phase] at starts
    cases starts
    exact publishable_fetching parses present phase
  | fetched =>
    rw [phase] at starts
    cases starts
    exact publishable_fetched present phase
  | prepared =>
    rw [phase] at starts
    cases starts
    exact publishable_prepared present phase

end

/-- A running fetch has started, or can. -/
theorem start_exec (store : JwksKeyStore) (kid : Caller → String) {s : State crate Caller}
    (past : Past s) {id : TaskId} {task : Task crate Caller} (present : s.tasks id = some task)
    (live : task.phase.live = true) :
    ∃ rest t task' startedAt, Transition.exec (step store kid) s rest = some t ∧
      t.tasks id = some task' ∧ task'.phase.startedAt = some startedAt ∧ startedAt ≤ s.now ∧
      t.now = s.now ∧ ∀ other, other ≠ id → t.tasks other = s.tasks other := by
  cases starts : task.phase.startedAt with
  | some startedAt =>
    exact ⟨[], s, task, startedAt, rfl, present, starts, past.started id task startedAt present
      starts, rfl, fun _ _ => rfl⟩
  | none =>
    have phase : task.phase = .spawned := by
      cases phase : task.phase with
      | spawned => rfl
      | finished | aborted => simp [phase, Phase.live] at live
      | fetching | fetched | prepared => simp [phase, Phase.startedAt] at starts
    refine ⟨[.task id .start], s.setTask id { task with phase := .fetching s.now }, _, s.now, ?_,
      setTask_tasks_self, rfl, le_refl _, rfl, ?_⟩
    · simp only [Transition.exec, step, present, Option.bind_some, runTask, phase]
    · intro other differs
      exact setTask_tasks_of_ne differs

/-- From two running fetches, one of them not started, there is a way to publish the
one that starts later first. -/
theorem overlap_breaks (store : JwksKeyStore) (kid : Caller → String) {s : State crate Caller}
    (past : Past s) {id new : TaskId} {task fresh : Task crate Caller} (differs : id ≠ new)
    (present : s.tasks id = some task) (live : task.phase.live = true)
    (spawned : s.tasks new = some fresh) (unstarted : fresh.phase = .spawned) {reply : Reply}
    {document : List crate.Jwk} (parses : fetchJwks crate store.maxBodySize reply = .ok document) :
    ∃ rest t, Transition.exec (step store kid) s rest = some t ∧ ¬ InOrder t := by
  obtain ⟨begin_, s₁, task', startedAt, runs₁, present₁, starts, early, now, others₁⟩ :=
    start_exec store kid past present live
  have spawned₁ : s₁.tasks new = some fresh := (others₁ new differs.symm).trans spawned
  -- the clock moves, and the new fetch starts
  let s₂ := State.setTask { s₁ with now := s₁.now + 1 } new
    { fresh with phase := .fetching (s₁.now + 1) }
  have runs₂ : Transition.exec (step store kid) s₁ [.tick 1, .task new .start] = some s₂ := by
    simp only [Transition.exec, step, spawned₁, Option.bind_some, runTask, unstarted]
    rfl
  have fetching : s₂.tasks new = some { fresh with phase := .fetching (s₁.now + 1) } :=
    setTask_tasks_self
  have present₂ : s₂.tasks id = some task' :=
    (setTask_tasks_of_ne differs).trans present₁
  obtain ⟨late, s₃, newer, runs₃, published₃, others₃⟩ :
    Publishable store kid new (s₁.now + 1) s₂ := publishable parses fetching rfl
  obtain ⟨last, s₄, older, runs₄, published₄, -⟩ : Publishable store kid id startedAt s₃ :=
    publishable parses ((others₃ id differs).trans present₂) starts
  refine ⟨begin_ ++ ([.tick 1, .task new .start] ++ (late ++ last)), s₄, ?_, ?_⟩
  · simp only [Transition.exec_append, runs₁, runs₂, runs₃, Option.bind_some]
    exact runs₄
  · intro ordered
    rw [InOrder, published₄, published₃, List.pairwise_cons] at ordered
    have back := ordered.1 _ List.mem_cons_self
    simp only at back
    omega

/-- **Snapshots are published in the order of their fetches** in every run that spawns
a fetch only when no earlier one is under way. Any other spawn can be gone on from,
with a server that answers, to a state with an older key set over a newer one. -/
theorem snapshots_inOrder (store : JwksKeyStore) (kid : Caller → String)
    (run : List (Label Caller)) :
    (Transition.Along (step store kid) Alone (init crate Caller) run →
      Transition.Always (step store kid) InOrder (init crate Caller) run) ∧
    ∀ s t c reply document, Transition.exec (step store kid) (init crate Caller) run = some s →
      step store kid s (.run c) = some t → ¬ Alone s (.run c) →
      fetchJwks crate store.maxBodySize reply = .ok document →
      ∃ rest u, Transition.exec (step store kid) t rest = some u ∧ ¬ InOrder u := by
  constructor
  · intro alone
    have inv := alone.always (P := fun s => Past s ∧ Sequential s)
      (fun _ _ _ h ok hs => ⟨h.1.step hs, h.2.step h.1 ok hs⟩) ⟨init_past, init_sequential⟩
    exact inv.mono fun s h => h.2.inOrder
  · intro s t c reply document reached spawns overlap parses
    have sound : Sound store kid s := reached_sound reached
    have past : Past s := Transition.exec_preserved (fun _ _ _ h hs => h.step hs) init_past reached
    simp only [Alone, Classical.not_imp, not_forall, Bool.not_eq_false] at overlap
    obtain ⟨elected, id, task, present, live⟩ := overlap
    have older : id ≠ s.next := Nat.ne_of_lt (sound.allocated id task present)
    have later := past.step spawns
    simp only [step, runCaller, elected, Option.some.injEq] at spawns
    subst spawns
    exact overlap_breaks store kid later older
      ((setTask_tasks_of_ne older).trans present) live setTask_tasks_self rfl parses

/-- Caller 0 starts a fetch and is dropped; caller 1 starts another a moment later. The
server answers both with what it had when they asked: `old` is gone in between. -/
def rotationRun : List (Label Nat) :=
  [.run 0, .run 0, .run 0, .run 0, .run 0, .task 0 .start, .drop 0, .tick 1,
   .run 1, .run 1, .run 1, .run 1, .run 1, .task 1 .start,
   .task 1 (.respond (.response 200 "200 OK" [.ok (utf8 "new")])), .task 1 .prepare,
   .task 1 .publish,
   .task 0 (.respond (.response 200 "200 OK" [.ok (utf8 "old new")])), .task 0 .prepare,
   .task 0 .publish]

/-- The older set is published over the newer one, and `old` is valid again. -/
theorem rotationRun_goes_back :
    ¬ Transition.Always (step defaultStore fun _ => "new") InOrder (init rotatingKeys Nat)
        rotationRun ∧
    ∃ s, Transition.exec (step defaultStore fun _ => "new") (init rotatingKeys Nat) rotationRun =
        some s ∧
      s.published.map (fun p => (p.startedAt, (p.snapshot.keys "old").isSome)) =
        [(0, true), (1, false)] ∧
      (s.cached.bind fun snapshot => snapshot.keys "old").isSome = true := by
  refine ⟨?_, _, rfl, rfl, rfl⟩
  intro h
  obtain ⟨s, hs, starts⟩ : ∃ s,
      Transition.exec (step defaultStore fun _ => "new") (init rotatingKeys Nat) rotationRun =
        some s ∧ s.published.map Publication.startedAt = [0, 1] := ⟨_, rfl, rfl⟩
  have ordered : (s.published.map Publication.startedAt).Pairwise fun newer older => older ≤ newer :=
    List.pairwise_map.mpr (h.last hs)
  rw [starts] at ordered
  revert ordered
  decide

end RustyGasket.Jwks
