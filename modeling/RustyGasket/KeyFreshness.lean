import RustyGasket.Jwks

/-!
# Which snapshot answers a lookup

Every answer of `find_key` is what a published snapshot said that was young enough
when its age was asked, or what the task the call spawned came to.
-/

namespace RustyGasket.Jwks

variable {lib : JsonWebToken} {crate : JwkLibrary lib} {Caller : Type}

/-- The snapshot was stored at some point. -/
def Published (s : State crate Caller) (snapshot : PreparedJwks crate) : Prop :=
  ∃ publication ∈ s.published, publication.snapshot = snapshot

/-- The snapshot an answer came from: one a lookup found young enough, or that of the
fetch this call awaited. -/
def Source (store : JwksKeyStore) (s : State crate Caller) (c : Caller) :
    Origin crate → PreparedJwks crate → Prop
  | .cached found checkedAt, snapshot => found = snapshot ∧ Published s snapshot ∧
      checkedAt ≤ s.now ∧ checkedAt - snapshot.fetchedAt < store.cacheTtl
  | .awaited id, snapshot => s.tasks id = some ⟨c, .finished (.ok snapshot)⟩

/-- What holds of every answered call. -/
structure Answers (store : JwksKeyStore) (kid : Caller → String) (s : State crate Caller) :
    Prop where
  fresh : ∀ c key origin, (s.pc c).answer = some (.ok key, origin) →
    ∃ snapshot, Source store s c origin snapshot ∧ snapshot.keys (kid c) = some key
  missing : ∀ c result snapshot checkedAt,
    (s.pc c).answer = some (result, .cached snapshot checkedAt) → snapshot.keys (kid c) = none →
    result = .error (kidNotFound (kid c)) ∧ ∀ id task, s.tasks id = some task → task.owner ≠ c
  resolved : ∀ c result origin token header, (s.pc c).answer = some (result, origin) →
    lib.decodeHeader token = .ok header → header.kid = some (kid c) →
    ∀ key validation, store.resolveKey (fun _ => result) token = .ok (key, validation) →
    header.alg ∈ store.allowedAlgorithms ∧ validation = store.validation header.alg ∧
      ∃ snapshot jwk, Source store s c origin snapshot ∧
        Publishes snapshot.document (kid c) ⟨key, header.alg⟩ jwk

/-! ## The invariant -/

/-- Calls that have spawned a fetch, or were dropped. -/
def Pc.spawned : Pc crate → Bool
  | awaiting _ | release _ (.awaited _) | done _ (.awaited _) | dropped => true
  | _ => false

/-- How an answer was decided. -/
def Decided (store : JwksKeyStore) (kid : Caller → String) (s : State crate Caller) (c : Caller)
    (result : Found lib) : Origin crate → Prop
  | .cached snapshot checkedAt => Published s snapshot ∧ checkedAt ≤ s.now ∧
      checkedAt - snapshot.fetchedAt < store.cacheTtl ∧ result = snapshot.find (kid c)
  | .awaited id => ∃ task, s.tasks id = some task ∧ task.owner = c ∧
      task.phase.join (kid c) = some result

/-- What a call relies on where it stands. -/
def Justified (store : JwksKeyStore) (kid : Caller → String) (s : State crate Caller)
    (c : Caller) : Pc crate → Prop
  | .check _ snapshot => Published s snapshot
  | .awaiting id => ∃ task, s.tasks id = some task ∧ task.owner = c
  | .release result origin | .done result origin => Decided store kid s c result origin
  | _ => True

structure Sound (store : JwksKeyStore) (kid : Caller → String) (s : State crate Caller) :
    Prop where
  cached : ∀ snapshot, s.cached = some snapshot → Published s snapshot
  allocated : ∀ id task, s.tasks id = some task → id < s.next
  owned : ∀ id task, s.tasks id = some task → (s.pc task.owner).spawned = true
  callers : ∀ c, Justified store kid s c (s.pc c)

theorem init_sound (store : JwksKeyStore) (kid : Caller → String) :
    Sound store kid (init crate Caller) := by
  constructor
  · nofun
  · nofun
  · nofun
  · intro c
    trivial

/-- What no step undoes: publications, tasks with their owners, and what ended tasks
came to. -/
structure Extends (s t : State crate Caller) : Prop where
  now : s.now ≤ t.now
  published : ∀ publication ∈ s.published, publication ∈ t.published
  tasks : ∀ id task, s.tasks id = some task →
    ∃ task', t.tasks id = some task' ∧ task'.owner = task.owner ∧
      (task.phase.live = false → task' = task)

theorem Extends.ofEq {s t : State crate Caller} (now : s.now ≤ t.now)
    (published : t.published = s.published) (tasks : t.tasks = s.tasks) : Extends s t := by
  refine ⟨now, ?_, ?_⟩
  · intro publication hp
    rw [published]
    exact hp
  · intro id task present
    exact ⟨task, by rw [tasks, present], rfl, fun _ => rfl⟩

/-- A task that is still running moves on, or a new one is added. -/
theorem Extends.ofTask {s t : State crate Caller} {id : TaskId} {task : Task crate Caller}
    (now : t.now = s.now) (published : ∀ publication ∈ s.published, publication ∈ t.published)
    (tasks : t.tasks = (s.setTask id task).tasks)
    (running : ∀ before, s.tasks id = some before →
      before.phase.live = true ∧ task.owner = before.owner) : Extends s t := by
  refine ⟨le_of_eq now.symm, published, ?_⟩
  intro other before present
  rw [tasks]
  by_cases same : other = id
  · subst same
    rw [setTask_tasks_self]
    obtain ⟨live, owner⟩ := running before present
    refine ⟨task, rfl, owner, ?_⟩
    rw [live]
    nofun
  · rw [setTask_tasks_of_ne same]
    exact ⟨before, present, rfl, fun _ => rfl⟩

theorem Phase.live_of_join {kid : String} {phase : Phase crate} {result : Found lib}
    (h : phase.join kid = some result) : phase.live = false := by
  cases phase with
  | finished | aborted => rfl
  | spawned | fetching | fetched | prepared => cases h

theorem Published.mono {s t : State crate Caller} (ext : Extends s t)
    {snapshot : PreparedJwks crate} (h : Published s snapshot) : Published t snapshot := by
  obtain ⟨publication, hp, same⟩ := h
  exact ⟨publication, ext.published publication hp, same⟩

theorem Justified.mono {store : JwksKeyStore} {kid : Caller → String} {s t : State crate Caller}
    (ext : Extends s t) {c : Caller} {pc : Pc crate} (h : Justified store kid s c pc) :
    Justified store kid t c pc := by
  have decided : ∀ {result origin}, Decided store kid s c result origin →
      Decided store kid t c result origin := by
    intro result origin hd
    cases origin with
    | cached snapshot checkedAt =>
      exact ⟨hd.1.mono ext, hd.2.1.trans ext.now, hd.2.2⟩
    | awaited id =>
      obtain ⟨task, present, owner, joined⟩ := hd
      obtain ⟨task', present', -, same⟩ := ext.tasks id task present
      rw [same (Phase.live_of_join joined)] at present'
      exact ⟨task, present', owner, joined⟩
  cases pc with
  | check again snapshot => exact Published.mono ext h
  | awaiting id =>
    obtain ⟨task, present, owner⟩ := h
    obtain ⟨task', present', owner', -⟩ := ext.tasks id task present
    exact ⟨task', present', owner'.trans owner⟩
  | release result origin => exact decided h
  | done result origin => exact decided h
  | idle | load | acquire | elected | dropped => trivial

/-- The calls stay where they are. -/
theorem Sound.ofTask {store : JwksKeyStore} {kid : Caller → String} {s t : State crate Caller}
    (h : Sound store kid s) (ext : Extends s t) (pc : t.pc = s.pc) (next : t.next = s.next)
    (cached : ∀ snapshot, t.cached = some snapshot → Published t snapshot)
    (tasks : ∀ id task, t.tasks id = some task →
      ∃ before, s.tasks id = some before ∧ task.owner = before.owner) : Sound store kid t := by
  constructor
  · exact cached
  · intro id task present
    obtain ⟨before, was, -⟩ := tasks id task present
    rw [next]
    exact h.allocated id before was
  · intro id task present
    obtain ⟨before, was, owner⟩ := tasks id task present
    rw [pc, owner]
    exact h.owned id before was
  · intro c
    rw [pc]
    exact (h.callers c).mono ext

/-- A running task moves on, without a publication. -/
theorem Sound.setTask {store : JwksKeyStore} {kid : Caller → String} {s : State crate Caller}
    (h : Sound store kid s) {id : TaskId} {task : Task crate Caller} (phase : Phase crate)
    (present : s.tasks id = some task) (live : task.phase.live = true) :
    Sound store kid (s.setTask id { task with phase := phase }) := by
  have ext : Extends s (s.setTask id { task with phase := phase }) := by
    refine .ofTask rfl (fun _ hp => hp) rfl ?_
    intro before was
    rw [present] at was
    cases was
    exact ⟨live, rfl⟩
  refine h.ofTask ext rfl rfl (fun snapshot hs => (h.cached snapshot hs).mono ext) ?_
  intro other after moved
  obtain ⟨rfl, rfl⟩ | ⟨-, before⟩ := setTask_cases moved
  · exact ⟨task, present, rfl⟩
  · exact ⟨after, before, rfl⟩

/-! ## From the invariant to the answers -/

theorem Sound.decided {store : JwksKeyStore} {kid : Caller → String} {s : State crate Caller}
    (h : Sound store kid s) {c : Caller} {result : Found lib} {origin : Origin crate}
    (answered : (s.pc c).answer = some (result, origin)) :
    Decided store kid s c result origin := by
  have justified := h.callers c
  cases hpc : s.pc c with
  | release | done =>
    rw [hpc] at answered justified
    cases answered
    exact justified
  | _ => simp [hpc, Pc.answer] at answered

/-- A call that a lookup answered owns no task. -/
theorem Sound.unspawned {store : JwksKeyStore} {kid : Caller → String} {s : State crate Caller}
    (h : Sound store kid s) {c : Caller} {result : Found lib} {snapshot : PreparedJwks crate}
    {checkedAt : Nat} (answered : (s.pc c).answer = some (result, .cached snapshot checkedAt))
    (id : TaskId) (task : Task crate Caller) (present : s.tasks id = some task) :
    task.owner ≠ c := by
  rintro rfl
  have spawned := h.owned id task present
  cases hpc : s.pc task.owner with
  | release | done =>
    rw [hpc] at answered spawned
    cases answered
    cases spawned
  | _ => simp [hpc, Pc.answer] at answered

theorem PreparedJwks.find_ok {snapshot : PreparedJwks crate} {kid : String}
    {key : PreparedKey lib} : snapshot.find kid = .ok key ↔ snapshot.keys kid = some key := by
  cases found : snapshot.keys kid <;> simp [PreparedJwks.find, found]

theorem Phase.join_ok {phase : Phase crate} {kid : String} {key : PreparedKey lib}
    (h : phase.join kid = some (.ok key)) :
    ∃ snapshot, phase = .finished (.ok snapshot) ∧ snapshot.keys kid = some key := by
  cases phase with
  | finished result =>
    cases result with
    | ok snapshot => exact ⟨snapshot, rfl, PreparedJwks.find_ok.mp (Option.some.inj h)⟩
    | error error => cases h
  | aborted error => cases h
  | spawned | fetching | fetched | prepared => cases h

/-- A key that is returned is in the snapshot the answer came from. -/
theorem Decided.source {store : JwksKeyStore} {kid : Caller → String} {s : State crate Caller}
    {c : Caller} {key : PreparedKey lib} {origin : Origin crate}
    (h : Decided store kid s c (.ok key) origin) :
    ∃ snapshot, Source store s c origin snapshot ∧ snapshot.keys (kid c) = some key := by
  cases origin with
  | cached snapshot checkedAt =>
    obtain ⟨published, past, young, found⟩ := h
    exact ⟨snapshot, ⟨rfl, published, past, young⟩, PreparedJwks.find_ok.mp found.symm⟩
  | awaited id =>
    obtain ⟨task, present, owner, joined⟩ := h
    obtain ⟨snapshot, phase, found⟩ := Phase.join_ok joined
    refine ⟨snapshot, ?_, found⟩
    rw [Source, present, ← owner, ← phase]

theorem Sound.answers {store : JwksKeyStore} {kid : Caller → String} {s : State crate Caller}
    (h : Sound store kid s) : Answers store kid s := by
  constructor
  · intro c key origin answered
    exact (h.decided answered).source
  · intro c result snapshot checkedAt answered absent
    refine ⟨?_, h.unspawned answered⟩
    obtain ⟨-, -, -, found⟩ := h.decided answered
    rw [found, PreparedJwks.find, absent]
  · intro c result origin token header answered decoded named key validation resolved
    obtain ⟨header', kid', asks, found, validated⟩ := JwksKeyStore.resolveKey_ok.mp resolved
    cases decoded.symm.trans asks.decoded
    rw [found] at answered
    obtain ⟨snapshot, source, held⟩ := (h.decided answered).source
    obtain ⟨jwk, publishes⟩ := PreparedJwks.publishes held
    exact ⟨asks.allowed, validated, snapshot, jwk, source, publishes⟩

/-! ## Every step keeps the invariant -/

variable [DecidableEq Caller]

/-- One call moves, and no task does. -/
theorem Sound.ofCaller {store : JwksKeyStore} {kid : Caller → String} {s t : State crate Caller}
    (h : Sound store kid s) {c : Caller} {pc : Pc crate} (moved : t.pc = (s.goto c pc).pc)
    (cached : t.cached = s.cached) (tasks : t.tasks = s.tasks) (next : t.next = s.next)
    (now : s.now ≤ t.now) (published : t.published = s.published)
    (spawned : (s.pc c).spawned = true → pc.spawned = true)
    (justified : Justified store kid s c pc) : Sound store kid t := by
  have ext : Extends s t := .ofEq now published tasks
  constructor
  · intro snapshot present
    rw [cached] at present
    exact (h.cached snapshot present).mono ext
  · rw [tasks, next]
    exact h.allocated
  · intro id task present
    rw [tasks] at present
    have before := h.owned id task present
    rw [moved]
    by_cases same : task.owner = c
    · rw [same] at before
      rw [same, goto_pc_self]
      exact spawned before
    · rw [goto_pc_of_ne same]
      exact before
  · intro d
    rw [moved]
    by_cases same : d = c
    · rw [same, goto_pc_self]
      exact justified.mono ext
    · rw [goto_pc_of_ne same]
      exact (h.callers d).mono ext

/-- A call spawns its fetch. -/
theorem Sound.spawn {store : JwksKeyStore} {kid : Caller → String} {s : State crate Caller}
    (h : Sound store kid s) (c : Caller) :
    Sound store kid { (s.goto c (.awaiting s.next)).setTask s.next ⟨c, .spawned⟩ with
      next := s.next + 1 } := by
  have unused : s.tasks s.next = none := by
    by_contra used
    obtain ⟨task, present⟩ := Option.ne_none_iff_exists'.mp used
    exact absurd (h.allocated _ task present) (Nat.lt_irrefl _)
  have ext : Extends s { (s.goto c (.awaiting s.next)).setTask s.next ⟨c, .spawned⟩ with
      next := s.next + 1 } := by
    refine .ofTask rfl (fun _ hp => hp)
      (show _ = (s.setTask s.next ⟨c, .spawned⟩).tasks from rfl) ?_
    intro before present
    rw [unused] at present
    cases present
  constructor
  · intro snapshot present
    exact (h.cached snapshot present).mono ext
  · intro id task present
    change id < s.next + 1
    obtain ⟨rfl, -⟩ | ⟨-, before⟩ := setTask_cases (s := s) present
    · exact Nat.lt_succ_self _
    · exact Nat.lt_succ_of_lt (h.allocated id task before)
  · intro id task present
    change ((s.goto c (.awaiting s.next)).pc task.owner).spawned = true
    by_cases mine : task.owner = c
    · rw [mine, goto_pc_self]
      rfl
    · rw [goto_pc_of_ne mine]
      obtain ⟨-, rfl⟩ | ⟨-, before⟩ := setTask_cases (s := s) present
      · exact absurd rfl mine
      · exact h.owned id task before
  · intro d
    change Justified store kid _ d ((s.goto c (.awaiting s.next)).pc d)
    by_cases same : d = c
    · rw [same, goto_pc_self]
      exact ⟨⟨c, .spawned⟩, setTask_tasks_self, rfl⟩
    · rw [goto_pc_of_ne same]
      exact (h.callers d).mono ext

theorem Sound.step {store : JwksKeyStore} {kid : Caller → String} {s t : State crate Caller}
    {label : Label Caller} (h : Sound store kid s) (hs : step store kid s label = some t) :
    Sound store kid t := by
  cases step_effect hs with
  | tick =>
    rename_i elapsed
    have ext : Extends s { s with now := s.now + elapsed } :=
      .ofEq (Nat.le_add_right _ _) rfl rfl
    exact h.ofTask ext rfl rfl (fun snapshot hs => (h.cached snapshot hs).mono ext)
      fun id task present => ⟨task, present, rfl⟩
  | call hpc =>
    exact h.ofCaller rfl rfl rfl rfl (le_refl _) rfl (by rw [hpc]; nofun) trivial
  | empty hpc absent =>
    rename_i c again
    refine h.ofCaller rfl rfl rfl rfl (le_refl _) rfl (by rw [hpc]; nofun) ?_
    cases again <;> trivial
  | load hpc present =>
    exact h.ofCaller rfl rfl rfl rfl (le_refl _) rfl (by rw [hpc]; nofun) (h.cached _ present)
  | stale hpc old =>
    rename_i c again snapshot
    refine h.ofCaller rfl rfl rfl rfl (le_refl _) rfl (by rw [hpc]; nofun) ?_
    cases again <;> trivial
  | fresh hpc young =>
    rename_i c again snapshot
    refine h.ofCaller rfl rfl rfl rfl (le_refl _) rfl (by rw [hpc]; nofun) ?_
    have loaded := h.callers c
    rw [hpc] at loaded
    cases again <;> exact ⟨loaded, le_refl _, young, rfl⟩
  | acquire hpc _ =>
    exact h.ofCaller rfl rfl rfl rfl (le_refl _) rfl (by rw [hpc]; nofun) trivial
  | spawn _ => exact h.spawn _
  | join hpc present joined =>
    rename_i c id task result
    refine h.ofCaller rfl rfl rfl rfl (le_refl _) rfl (fun _ => rfl) ?_
    have mine := h.callers c
    rw [hpc] at mine
    obtain ⟨task', present', owner⟩ := mine
    rw [present] at present'
    cases present'
    exact ⟨task, present, owner, joined⟩
  | release hpc =>
    rename_i c result origin
    have decided := h.callers c
    rw [hpc] at decided
    refine h.ofCaller rfl rfl rfl rfl (le_refl _) rfl ?_ decided
    rw [hpc]
    cases origin <;> exact id
  | dropWaiting _ => exact h.ofCaller rfl rfl rfl rfl (le_refl _) rfl (fun _ => rfl) trivial
  | dropLeading _ => exact h.ofCaller rfl rfl rfl rfl (le_refl _) rfl (fun _ => rfl) trivial
  | start present phase => exact h.setTask _ present (by rw [phase]; rfl)
  | fetched present phase _ => exact h.setTask _ present (by rw [phase]; rfl)
  | failed present phase _ => exact h.setTask _ present (by rw [phase]; rfl)
  | prepare present phase => exact h.setTask _ present (by rw [phase]; rfl)
  | abort present live => exact h.setTask _ present live
  | publish present phase =>
    rename_i id task startedAt snapshot
    have moved := h.setTask (.finished (.ok snapshot)) present (by rw [phase]; rfl)
    have grown : Extends (s.setTask id { task with phase := .finished (.ok snapshot) })
        { s.setTask id { task with phase := .finished (.ok snapshot) } with
          cached := some snapshot
          published := ⟨startedAt, snapshot⟩ :: s.published } :=
      ⟨le_refl _, fun _ hp => List.mem_cons_of_mem _ hp, fun _ task present =>
        ⟨task, present, rfl, fun _ => rfl⟩⟩
    refine moved.ofTask grown rfl rfl ?_ fun id task present => ⟨task, present, rfl⟩
    intro stored hs
    cases hs
    exact ⟨_, List.mem_cons_self, rfl⟩

theorem reached_sound {store : JwksKeyStore} {kid : Caller → String} {run : List (Label Caller)}
    {s : State crate Caller}
    (reached : Transition.exec (Jwks.step store kid) (init crate Caller) run = some s) :
    Sound store kid s :=
  Transition.exec_preserved (fun _ _ _ h hs => h.step hs) (init_sound store kid) reached

/-- **Keys are fresh, pinned and published, and unknown kids cost nothing**: in every
state of every run, and a lookup that finds its `kid` missing from a fresh snapshot can
always go on, answers at once and adds no fetch. -/
theorem keys_fresh (store : JwksKeyStore) (kid : Caller → String) (run : List (Label Caller)) :
    Transition.Always (step store kid) (Answers store kid) (init crate Caller) run ∧
    ∀ (s : State crate Caller) c again snapshot, s.pc c = .check again snapshot →
      s.now - snapshot.fetchedAt < store.cacheTtl → snapshot.keys (kid c) = none →
      ∃ t, step store kid s (.run c) = some t ∧
        (t.pc c).answer = some (.error (kidNotFound (kid c)), .cached snapshot s.now) ∧
        t.tasks = s.tasks := by
  constructor
  · have sound : Transition.Always (step store kid) (Sound store kid) (init crate Caller) run :=
      Transition.always_of_preserved (fun _ _ _ h hs => h.step hs) (init_sound store kid) run
    exact sound.mono fun s h => h.answers
  · intro s c again snapshot hpc young absent
    have fresh : ¬ store.cacheTtl ≤ s.now - snapshot.fetchedAt := by omega
    have found : step store kid s (.run c) =
        some (s.goto c (.fresh (snapshot.find (kid c)) (.cached snapshot s.now) again)) := by
      simp only [step, runCaller, hpc, if_neg fresh]
    refine ⟨_, found, ?_, rfl⟩
    rw [goto_pc_self, PreparedJwks.find, absent]
    cases again <;> rfl

end RustyGasket.Jwks
