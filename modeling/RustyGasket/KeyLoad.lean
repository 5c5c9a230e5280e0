import Mathlib.Data.Set.Basic
import RustyGasket.Jwks

/-!
# How many fetches a burst spawns

The permit is the leader's: a leader that is cancelled, or whose fetch fails, gives
it to the next call with the key set as stale as before. Each such lead costs one
more fetch.
-/

namespace RustyGasket.Jwks

variable {lib : JsonWebToken} {crate : JwkLibrary lib} {Caller : Type}

/-- Came to a key set, which it published. -/
def Phase.succeeded : Phase crate → Bool
  | finished (.ok _) => true
  | _ => false

def Pc.isElected : Pc crate → Bool
  | elected => true
  | _ => false

/-- Awaiting a fetch that has not come to a key set. -/
def State.unresolved (s : State crate Caller) (c : Caller) : Bool :=
  match s.pc c with
  | .awaiting id => !(s.tasks id).any fun task => task.phase.succeeded
  | _ => false

/-- The step spawns a fetch. -/
def spawns (s : State crate Caller) : Label Caller → Bool
  | .run c => (s.pc c).isElected
  | _ => false

/-- The step ends a lead that came to no key set: the leader is dropped, or learns
that its fetch failed. -/
def wastes (s : State crate Caller) : Label Caller → Bool
  | .run c | .drop c => s.unresolved c
  | _ => false

/-- Whether a lead is under way. -/
def State.leads (s : State crate Caller) : Nat :=
  match s.permit with
  | some c => (s.unresolved c).toNat
  | none => 0

theorem leads_le (s : State crate Caller) : s.leads ≤ 1 := by
  unfold State.leads
  cases s.permit with
  | none => exact Nat.zero_le 1
  | some c => exact Bool.toNat_le _

def Label.publishes : Label Caller → Bool
  | .task _ .publish => true
  | _ => false

def Label.caller : Label Caller → Option Caller
  | .run c | .drop c => some c
  | _ => none

/-- The permit is with the call in the section, if there is one. -/
def Guarded (s : State crate Caller) : Prop := ∀ c, (s.pc c).holds = true → s.permit = some c

theorem init_guarded : Guarded (init crate Caller) := nofun

theorem unresolved_of_pc {s : State crate Caller} {c : Caller}
    (h : ∀ id, s.pc c ≠ .awaiting id) : s.unresolved c = false := by
  unfold State.unresolved
  split
  next id hpc => exact absurd hpc (h id)
  next => rfl

theorem unresolved_awaiting {s : State crate Caller} {c : Caller} {id : TaskId}
    (hpc : s.pc c = .awaiting id) :
    s.unresolved c = !(s.tasks id).any fun task => task.phase.succeeded := by
  simp only [State.unresolved, hpc]

/-- Nothing about a lead changes with the call and its task. -/
theorem unresolved_congr {s t : State crate Caller} {c : Caller} (pc : t.pc c = s.pc c)
    (tasks : ∀ id, s.pc c = .awaiting id → t.tasks id = s.tasks id) :
    t.unresolved c = s.unresolved c := by
  unfold State.unresolved
  rw [pc]
  split
  next id hpc => rw [tasks id hpc]
  next => rfl

theorem leads_congr {s t : State crate Caller} (permit : t.permit = s.permit)
    (each : ∀ c, t.unresolved c = s.unresolved c) : t.leads = s.leads := by
  unfold State.leads
  rw [permit]
  cases s.permit with
  | none => rfl
  | some c => exact congrArg Bool.toNat (each c)

theorem Phase.not_succeeded_of_live {phase : Phase crate} (h : phase.live = true) :
    phase.succeeded = false := by
  cases phase with
  | finished => cases h
  | _ => rfl

/-- A running task that comes to no key set yet leaves every lead as it is. -/
theorem leads_setTask {s : State crate Caller} {id : TaskId} {task : Task crate Caller}
    {phase : Phase crate} (present : s.tasks id = some task) (live : task.phase.live = true)
    (unfinished : phase.succeeded = false) :
    (s.setTask id { task with phase := phase }).leads = s.leads := by
  have each : ∀ c, (s.setTask id { task with phase := phase }).unresolved c = s.unresolved c := by
    intro c
    by_cases mine : s.pc c = .awaiting id
    · rw [unresolved_awaiting mine, unresolved_awaiting (s := s.setTask id _) mine,
        setTask_tasks_self, present, Option.any_some, Option.any_some, unfinished,
        Phase.not_succeeded_of_live live]
    · refine unresolved_congr rfl ?_
      intro other awaits
      apply setTask_tasks_of_ne
      rintro rfl
      exact mine awaits
  exact leads_congr rfl each

theorem leads_of_permit {s : State crate Caller} {c : Caller} (h : s.permit = some c) :
    s.leads = (s.unresolved c).toNat := by
  simp only [State.leads, h]

theorem leads_of_free {s : State crate Caller} (h : s.permit = none) : s.leads = 0 := by
  simp only [State.leads, h]

variable [DecidableEq Caller]

/-- A call that awaits no fetch before or after leaves every lead as it is. -/
theorem leads_goto {s : State crate Caller} {c : Caller} {pc : Pc crate}
    (before : s.unresolved c = false) (after : ∀ id, pc ≠ .awaiting id) :
    (s.goto c pc).leads = s.leads := by
  have each : ∀ d, (s.goto c pc).unresolved d = s.unresolved d := by
    intro d
    by_cases same : d = c
    · rw [same, before]
      apply unresolved_of_pc
      rw [goto_pc_self]
      exact after
    · apply unresolved_congr
      · exact goto_pc_of_ne same
      · exact fun _ _ => rfl
  exact leads_congr rfl each

/-- The holder of the permit awaits the fetch it has just spawned. -/
theorem leads_spawn {s : State crate Caller} {c : Caller} (mine : s.permit = some c) :
    ((s.goto c (.awaiting s.next)).setTask s.next ⟨c, .spawned⟩).leads = 1 := by
  let t := (s.goto c (.awaiting s.next)).setTask s.next ⟨c, .spawned⟩
  have permit : t.permit = some c := mine
  have awaits : t.pc c = .awaiting s.next := goto_pc_self s c _
  have spawned : t.tasks s.next = some ⟨c, .spawned⟩ := setTask_tasks_self
  change t.leads = 1
  rw [leads_of_permit permit, unresolved_awaiting awaits, spawned]
  rfl

/-- The holder of the permit awaits no fetch any more. -/
theorem leads_join {s : State crate Caller} {c : Caller} {pc : Pc crate} (mine : s.permit = some c)
    (after : ∀ id, pc ≠ .awaiting id) : (s.goto c pc).leads = 0 := by
  have permit : (s.goto c pc).permit = some c := mine
  have resolved : (s.goto c pc).unresolved c = false := by
    apply unresolved_of_pc
    rw [goto_pc_self]
    exact after
  rw [leads_of_permit permit, resolved]
  rfl

theorem Guarded.step {store : JwksKeyStore} {kid : Caller → String} {s t : State crate Caller}
    {label : Label Caller} (h : Guarded s) (hs : step store kid s label = some t) :
    Guarded t := by
  have moved : ∀ {c : Caller} {pc : Pc crate}, (pc.holds = true → (s.pc c).holds = true) →
      ∀ d, ((s.goto c pc).pc d).holds = true → s.permit = some d := by
    intro c pc keeps d holds
    obtain ⟨rfl, here⟩ | ⟨-, before⟩ := goto_cases (·.holds = true) holds
    · exact h d (keeps here)
    · exact h d before
  -- nobody but the one that leaves is in the section
  have leaves : ∀ {c : Caller} {pc : Pc crate}, (s.pc c).holds = true → pc.holds = false →
      ∀ d, ((s.goto c pc).pc d).holds = true → False := by
    intro c pc held left d holds
    obtain ⟨-, here⟩ | ⟨other, before⟩ := goto_cases (·.holds = true) holds
    · rw [left] at here
      cases here
    · have mine := h c held
      rw [h d before] at mine
      exact other (Option.some.inj mine)
  cases step_effect hs with
  | tick => exact h
  | call | dropWaiting => exact moved nofun
  | empty hpc absent =>
    rename_i c again
    apply moved
    rw [hpc]
    cases again <;> exact id
  | load hpc present =>
    rename_i c again snapshot
    apply moved
    rw [hpc]
    cases again <;> exact id
  | stale hpc old | fresh hpc young =>
    rename_i c again snapshot
    apply moved
    rw [hpc]
    cases again <;> exact id
  | spawn hpc => exact moved fun _ => by rw [hpc]; rfl
  | join hpc => exact moved fun _ => by rw [hpc]; rfl
  | acquire hpc free =>
    rename_i c
    intro d holds
    obtain ⟨rfl, -⟩ | ⟨-, before⟩ := goto_cases (·.holds = true) holds
    · rfl
    · have held := h d before
      rw [free] at held
      cases held
  | release hpc => exact fun d holds => (leaves (by rw [hpc]; rfl) rfl d holds).elim
  | dropLeading hpc => exact fun d holds => (leaves (by rw [hpc]; rfl) rfl d holds).elim
  | start | fetched | failed | prepare | publish | abort => exact h

/-- A spawn begins a lead, and what wastes a lead ends it; short of a publication
nothing else does either. -/
theorem leads_balance {store : JwksKeyStore} {kid : Caller → String} {s t : State crate Caller}
    {label : Label Caller} (guarded : Guarded s) (quiet : label.publishes = false)
    (hs : step store kid s label = some t) :
    s.leads + (spawns s label).toNat = t.leads + (wastes s label).toNat := by
  -- a call that neither spawns nor awaits
  have idle : ∀ {c : Caller} {pc : Pc crate}, (∀ id, s.pc c ≠ .awaiting id) →
      (s.pc c).isElected = false → (∀ id, pc ≠ .awaiting id) →
      s.leads + (spawns s (.run c)).toNat = (s.goto c pc).leads + (wastes s (.run c)).toNat := by
    intro c pc unawaited unelected after
    have resolved := unresolved_of_pc unawaited
    rw [leads_goto resolved after, spawns, unelected, wastes, resolved]
  cases step_effect hs with
  | tick => rfl
  | call hpc => exact idle (by rw [hpc]; nofun) (by rw [hpc]; rfl) nofun
  | empty hpc absent =>
    rename_i c again
    refine idle (by rw [hpc]; nofun) (by rw [hpc]; rfl) ?_
    cases again <;> nofun
  | load hpc present => exact idle (by rw [hpc]; nofun) (by rw [hpc]; rfl) nofun
  | stale hpc old | fresh hpc young =>
    rename_i c again snapshot
    refine idle (by rw [hpc]; nofun) (by rw [hpc]; rfl) ?_
    cases again <;> nofun
  | acquire hpc free =>
    rename_i c
    have resolved : s.unresolved c = false := unresolved_of_pc (by rw [hpc]; nofun)
    have spawned : spawns s (.run c) = false := by rw [spawns, hpc]; rfl
    have after : (s.goto c (.load true)).unresolved c = false :=
      unresolved_of_pc (by rw [goto_pc_self]; nofun)
    rw [leads_of_free free, spawned, wastes, resolved]
    exact congrArg (fun unresolved => unresolved.toNat + 0) after.symm
  | spawn hpc =>
    rename_i c
    have mine := guarded c (by rw [hpc]; rfl)
    have resolved : s.unresolved c = false := unresolved_of_pc (by rw [hpc]; nofun)
    have spawned : spawns s (.run c) = true := by rw [spawns, hpc]; rfl
    rw [leads_of_permit mine, resolved, spawned, wastes, resolved]
    exact congrArg (fun leads => leads + 0) (leads_spawn mine).symm
  | join hpc present joined =>
    rename_i c id task result
    have mine := guarded c (by rw [hpc]; rfl)
    have spawned : spawns s (.run c) = false := by rw [spawns, hpc]; rfl
    have after : (s.goto c (.release result (.awaited id))).leads = 0 := leads_join mine nofun
    rw [leads_of_permit mine, after, spawned, wastes]
    exact Nat.add_comm _ _
  | release hpc =>
    rename_i c result origin
    have mine := guarded c (by rw [hpc]; rfl)
    have resolved : s.unresolved c = false := unresolved_of_pc (by rw [hpc]; nofun)
    have spawned : spawns s (.run c) = false := by rw [spawns, hpc]; rfl
    rw [leads_of_permit mine, leads_of_free rfl, spawned, wastes, resolved]
    rfl
  | dropWaiting hpc =>
    rename_i c
    have resolved : s.unresolved c = false := unresolved_of_pc (by rw [hpc]; nofun)
    have wasted : wastes s (.drop c) = false := resolved
    rw [leads_goto resolved (show ∀ id, Pc.dropped ≠ .awaiting id from nofun), wasted]
    rfl
  | dropLeading hpc =>
    rename_i c id
    have mine := guarded c (by rw [hpc]; rfl)
    rw [leads_of_permit mine, leads_of_free rfl]
    exact Nat.add_comm _ _
  | start present phase => exact (leads_setTask present (by rw [phase]; rfl) rfl).symm
  | fetched present phase => exact (leads_setTask present (by rw [phase]; rfl) rfl).symm
  | failed present phase => exact (leads_setTask present (by rw [phase]; rfl) rfl).symm
  | prepare present phase => exact (leads_setTask present (by rw [phase]; rfl) rfl).symm
  | abort present live => exact (leads_setTask present live rfl).symm
  | publish => cases quiet

/-! ## Bursts -/

variable (crate) in
/-- A stretch of a run in which no snapshot is published. -/
structure Burst (store : JwksKeyStore) (kid : Caller → String) where
  start : State crate Caller
  run : List (Label Caller)
  final : State crate Caller
  earlier : List (Label Caller)
  reached : Transition.exec (step store kid) (init crate Caller) earlier = some start
  runs : Transition.exec (step store kid) start run = some final
  unpublished : ∀ label ∈ run, label.publishes = false

section
variable {store : JwksKeyStore} {kid : Caller → String}

def Burst.fetches (b : Burst crate store kid) : Nat :=
  Transition.count (step store kid) spawns b.start b.run

def Burst.wasted (b : Burst crate store kid) : Nat :=
  Transition.count (step store kid) wastes b.start b.run

theorem Burst.balance (b : Burst crate store kid) :
    b.start.leads + b.fetches = b.final.leads + b.wasted := by
  have guarded : Guarded b.start :=
    Transition.exec_preserved (P := Guarded) (fun _ _ _ h hs => h.step hs) init_guarded b.reached
  exact Transition.count_balance (I := Guarded) (fun _ _ _ h hs => h.step hs)
    (fun _ _ _ h quiet hs => leads_balance h quiet hs) guarded b.unpublished b.runs

theorem Burst.fetches_le (b : Burst crate store kid) : b.fetches ≤ b.wasted + 1 := by
  have balance := b.balance
  have last := leads_le b.final
  omega

theorem Burst.wasted_le (b : Burst crate store kid) : b.wasted ≤ b.fetches + 1 := by
  have balance := b.balance
  have first := leads_le b.start
  omega

/-- **Upstream load is bounded exactly when the wasted leads are**: a burst spawns at
most one fetch more than it wastes leads. -/
theorem fetches_bounded_iff (bursts : Set (Burst crate store kid)) :
    ((∃ C, ∀ b ∈ bursts, b.fetches ≤ C) ↔ ∃ K, ∀ b ∈ bursts, b.wasted ≤ K) ∧
    ∀ b ∈ bursts, b.fetches ≤ b.wasted + 1 := by
  refine ⟨⟨?_, ?_⟩, fun b _ => b.fetches_le⟩
  · rintro ⟨C, bounded⟩
    refine ⟨C + 1, fun b hb => ?_⟩
    have fetches := bounded b hb
    have wasted := b.wasted_le
    omega
  · rintro ⟨K, bounded⟩
    refine ⟨K + 1, fun b hb => ?_⟩
    have wasted := bounded b hb
    have fetches := b.fetches_le
    omega

/-! ## A storm of cancelled leaders -/

/-- A call finds no snapshot and waits for the permit. -/
def arrive (c : Caller) : List (Label Caller) := [.run c, .run c]

/-- It takes the lead, spawns a fetch and is dropped. -/
def lead (c : Caller) : List (Label Caller) := [.run c, .run c, .run c, .drop c]

variable (store kid)

/-- A lookup without a snapshot. -/
theorem load_empty {s : State crate Caller} (again : Bool) (empty : s.cached = none) {c : Caller}
    (hpc : s.pc c = .load again) : step store kid s (.run c) = some (s.goto c (.stale again)) := by
  simp only [step, runCaller, hpc, empty]

theorem arrive_exec {s : State crate Caller} (empty : s.cached = none) {callers : List Caller}
    (distinct : callers.Nodup) (idle : ∀ c ∈ callers, s.pc c = .idle) :
    ∃ t, Transition.exec (step store kid) s (callers.flatMap arrive) = some t ∧
      t.cached = none ∧ t.permit = s.permit ∧ (∀ c ∈ callers, t.pc c = .acquire) ∧
      ∀ d ∉ callers, t.pc d = s.pc d := by
  induction callers generalizing s with
  | nil => exact ⟨s, rfl, empty, rfl, nofun, fun _ _ => rfl⟩
  | cons c rest ih =>
    obtain ⟨new, distinct⟩ := List.nodup_cons.mp distinct
    have first : Transition.exec (step store kid) s (arrive c) =
        some ((s.goto c (.load false)).goto c .acquire) := by
      have called : step store kid s (.run c) = some (s.goto c (.load false)) := by
        simp only [step, runCaller, idle c List.mem_cons_self]
      have looked : step store kid (s.goto c (.load false)) (.run c) =
          some ((s.goto c (.load false)).goto c .acquire) :=
        load_empty store kid (s := s.goto c (.load false)) false empty (goto_pc_self s c _)
      simp only [arrive, Transition.exec, called, Option.bind_some, looked]
    have others : ∀ d, d ≠ c → ((s.goto c (.load false)).goto c .acquire).pc d = s.pc d := by
      intro d other
      rw [goto_pc_of_ne other, goto_pc_of_ne other]
    obtain ⟨t, runs, stillEmpty, permit, waiting, unmoved⟩ :=
      ih (s := (s.goto c (.load false)).goto c .acquire) empty distinct fun d hd => by
        rw [others d (by rintro rfl; exact new hd)]
        exact idle d (List.mem_cons_of_mem _ hd)
    refine ⟨t, ?_, stillEmpty, permit, ?_, ?_⟩
    · rw [List.flatMap_cons, Transition.exec_append, first]
      exact runs
    · intro d hd
      obtain rfl | later := List.mem_cons.mp hd
      · rw [unmoved d new, goto_pc_self]
      · exact waiting d later
    · intro d hd
      rw [List.mem_cons, not_or] at hd
      rw [unmoved d hd.2, others d hd.1]

theorem lead_exec {s : State crate Caller} (empty : s.cached = none) (free : s.permit = none)
    {callers : List Caller} (distinct : callers.Nodup)
    (waiting : ∀ c ∈ callers, s.pc c = .acquire) :
    ∃ t, Transition.exec (step store kid) s (callers.flatMap lead) = some t ∧
      Transition.count (step store kid) spawns s (callers.flatMap lead) = callers.length := by
  induction callers generalizing s with
  | nil => exact ⟨s, rfl, rfl⟩
  | cons c rest ih =>
    obtain ⟨new, distinct⟩ := List.nodup_cons.mp distinct
    -- the four states the call passes
    let held := { s.goto c (.load true) with permit := some c }
    let elected := held.goto c .elected
    let awaiting := { (elected.goto c (.awaiting s.next)).setTask s.next ⟨c, .spawned⟩ with
      next := s.next + 1 }
    let left := { awaiting.goto c .dropped with permit := none }
    have acquired : step store kid s (.run c) = some held := by
      simp only [step, runCaller, waiting c List.mem_cons_self, free]
      rfl
    have held_pc : held.pc c = .load true := goto_pc_self s c _
    have looked : step store kid held (.run c) = some elected :=
      load_empty store kid (s := held) true empty held_pc
    have elected_pc : elected.pc c = .elected := goto_pc_self held c _
    have spawned : step store kid elected (.run c) = some awaiting := by
      simp only [step, runCaller, elected_pc]
      rfl
    have dropped : step store kid awaiting (.drop c) = some left := by
      have hpc : awaiting.pc c = .awaiting s.next := goto_pc_self elected c _
      simp only [step, dropCaller, hpc]
      rfl
    have others : ∀ d, d ≠ c → left.pc d = s.pc d := by
      intro d other
      change (((((s.goto c _).goto c _).goto c _).goto c _).pc d) = s.pc d
      simp only [goto_pc_of_ne other]
    obtain ⟨t, runs, counted⟩ := ih (s := left) empty rfl distinct fun d hd => by
      rw [others d (by rintro rfl; exact new hd)]
      exact waiting d (List.mem_cons_of_mem _ hd)
    have first : Transition.exec (step store kid) s (lead c) = some left := by
      simp only [lead, Transition.exec, acquired, looked, spawned, dropped, Option.bind_some]
    have one : Transition.count (step store kid) spawns s (lead c) = 1 := by
      simp only [lead, Transition.count, acquired, looked, spawned, dropped, spawns,
        waiting c List.mem_cons_self, held_pc, elected_pc]
      rfl
    refine ⟨t, ?_, ?_⟩
    · rw [List.flatMap_cons, Transition.exec_append, first]
      exact runs
    · rw [List.flatMap_cons, Transition.count_append first, one, counted, List.length_cons,
        Nat.add_comm]

end

/-- Callers `0, …, n - 1` find no snapshot, wait for the permit, and are dropped one
after the other once they lead. -/
def storm (n : Nat) : List (Label Nat) :=
  (List.range n).flatMap arrive ++ (List.range n).flatMap lead

theorem storm_unpublished (n : Nat) (label : Label Nat) (h : label ∈ storm n) :
    label.publishes = false := by
  simp only [storm, List.mem_append, List.mem_flatMap, arrive, lead, List.mem_cons,
    List.not_mem_nil, or_false] at h
  rcases h with ⟨c, -, rfl | rfl⟩ | ⟨c, -, rfl | rfl | rfl | rfl⟩ <;> rfl

theorem storm_callers {n : Nat} {label : Label Nat} (h : label ∈ storm n) {c : Nat}
    (acts : label.caller = some c) : c < n := by
  simp only [storm, List.mem_append, List.mem_flatMap, List.mem_range, arrive, lead,
    List.mem_cons, List.not_mem_nil, or_false] at h
  rcases h with ⟨d, below, rfl | rfl⟩ | ⟨d, below, rfl | rfl | rfl | rfl⟩ <;>
    cases acts <;> exact below

variable (crate) in
theorem storm_spawns (store : JwksKeyStore) (kid : Nat → String) (n : Nat) :
    ∃ b : Burst crate store kid, b.start = init crate Nat ∧ b.run = storm n ∧ n ≤ b.fetches := by
  obtain ⟨s, arrived, empty, free, waiting, -⟩ := arrive_exec store kid
    (s := init crate Nat) rfl (List.nodup_range (n := n)) fun _ _ => rfl
  obtain ⟨t, led, counted⟩ := lead_exec store kid empty free (List.nodup_range (n := n)) waiting
  have runs : Transition.exec (step store kid) (init crate Nat) (storm n) = some t := by
    rw [storm, Transition.exec_append, arrived]
    exact led
  refine ⟨⟨_, storm n, t, [], rfl, runs, storm_unpublished n⟩, rfl, rfl, ?_⟩
  change n ≤ Transition.count (step store kid) spawns (init crate Nat) (storm n)
  rw [storm, Transition.count_append arrived, counted, List.length_range]
  exact Nat.le_add_left _ _

/-- However many fetches are allowed, one more cancelled leader spawns another. -/
theorem storm_unbounded : ¬ ∃ C, ∀ n,
    ∀ b : Burst rotatingKeys defaultStore (fun _ : Nat => "new"),
      b.start = init rotatingKeys Nat → (∀ label ∈ b.run, ∀ c, label.caller = some c → c < n) →
      b.fetches ≤ C := by
  rintro ⟨C, bounded⟩
  obtain ⟨b, fromInit, runs, many⟩ :=
    storm_spawns rotatingKeys defaultStore (fun _ => "new") (C + 1)
  have few := bounded (C + 1) b fromInit ?_
  · omega
  · intro label hl c acts
    rw [runs] at hl
    exact storm_callers hl acts

end RustyGasket.Jwks
