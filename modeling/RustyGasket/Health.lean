import Mathlib.Data.List.FinRange
import Mathlib.Order.Bounds.Basic
import RustyGasket.Simulation
import RustyGasket.Timeout

/-!
# Health probes

`healthcheck_with_contributors`, any number of probes at once and all their checks in any
order. What the contributors answer, the clock and the environment are in the labels.
-/

namespace RustyGasket

inductive HealthStatus
  | healthy
  | degraded
  | error
  deriving DecidableEq, Repr

structure ComponentHealth where
  name : String
  status : HealthStatus
  deriving DecidableEq, Repr

structure AppBuildInfo where
  version : String
  buildDate : String
  deriving DecidableEq, Repr

/-- What the build leaves in the binary. -/
structure BuiltInfo where
  pkgVersion : String
  rustcVersion : String
  profile : String
  gitCommitHashShort : Option String
  builtTimeUtc : String
  /-- `GASKET_BUILD_TIME_EPOCH`. -/
  buildTimeEpoch : Option String
  deriving DecidableEq, Repr

structure ServiceStatus where
  status : String
  version : String
  buildDate : String
  pkgVersion : String
  rustcVersion : String
  rustcProfile : String
  hostname : String
  uptimeSeconds : Nat
  components : List ComponentHealth
  deriving DecidableEq, Repr

/-- The plugin's contributors by their names, in the order they were registered. -/
structure HealthPlugin where
  contributors : List String
  appInfo : Option AppBuildInfo
  deriving DecidableEq, Repr

namespace Health

/-- Five seconds, in nanoseconds like every time here. -/
def healthCheckTimeout : Nat := 5 * 1000000000

/-- What the environment has under `HOSTNAME` and `HOST`. -/
structure Environment where
  hostname : Option String
  host : Option String
  deriving DecidableEq, Repr

def Environment.getHostname (env : Environment) : String :=
  (env.hostname.or env.host).getD "unknown"

def bakedBuildTime (built : BuiltInfo) : String :=
  match built.buildTimeEpoch with
  | some epoch => "@" ++ epoch
  | none => built.builtTimeUtc

def serviceStatusBase (built : BuiltInfo) (appInfo : Option AppBuildInfo) (elapsed : Nat)
    (hostname : String) : ServiceStatus where
  status := "ok"
  version := match appInfo with
    | some info => info.version
    | none => built.gitCommitHashShort.getD "unknown"
  buildDate := match appInfo with
    | some info => info.buildDate
    | none => bakedBuildTime built
  pkgVersion := built.pkgVersion
  rustcVersion := built.rustcVersion
  rustcProfile := built.profile
  hostname := hostname
  uptimeSeconds := elapsed / 1000000000
  components := []

/-! ## One report -/

/-- One turn of the loop over the results. -/
def tell (overall : HealthStatus) : HealthStatus → HealthStatus
  | .error => .error
  | .degraded => if overall = .error then overall else .degraded
  | .healthy => overall

def statusText : HealthStatus → String
  | .healthy => "ok"
  | .degraded => "degraded"
  | .error => "error"

def httpStatus : HealthStatus → Nat
  | .healthy | .degraded => 200
  | .error => 503

def overallOf (results : List ComponentHealth) : HealthStatus :=
  results.foldl (fun overall component => tell overall component.status) .healthy

def report (base : ServiceStatus) (results : List ComponentHealth) : Nat × ServiceStatus :=
  (httpStatus (overallOf results),
    { base with
      status := statusText (overallOf results)
      components := base.components ++ results })

/-- From fine to failing. -/
def severity : HealthStatus → Nat
  | .healthy => 0
  | .degraded => 1
  | .error => 2

theorem severity_injective : Function.Injective severity := by
  intro a b same
  cases a <;> cases b <;> first | rfl | cases same

instance : LinearOrder HealthStatus := .lift' severity severity_injective

theorem tell_eq_max (overall status : HealthStatus) : tell overall status = max overall status := by
  cases overall <;> cases status <;> rfl

theorem healthy_le (status : HealthStatus) : .healthy ≤ status :=
  Nat.zero_le (severity status)

theorem foldl_tell_isLUB (results : List ComponentHealth) (overall : HealthStatus) :
    IsLUB {status | status = overall ∨ status ∈ results.map ComponentHealth.status}
      (results.foldl (fun overall component => tell overall component.status) overall) := by
  induction results generalizing overall with
  | nil =>
    constructor
    · rintro status (rfl | listed)
      · exact le_refl _
      · cases listed
    · exact fun bound above => above (.inl rfl)
  | cons component rest ih =>
    rw [List.foldl_cons, tell_eq_max]
    obtain ⟨above, least⟩ := ih (max overall component.status)
    constructor
    · rintro status (rfl | listed)
      · exact le_trans (le_max_left _ _) (above (.inl rfl))
      · obtain _ | ⟨_, later⟩ := listed
        · exact le_trans (le_max_right _ _) (above (.inl rfl))
        · exact above (.inr later)
    · intro bound bounds
      refine least ?_
      rintro status (rfl | later)
      · exact max_le (bounds (.inl rfl)) (bounds (.inr List.mem_cons_self))
      · exact bounds (.inr (List.mem_cons_of_mem _ later))

/-- The overall status is the worst of the components'. -/
theorem overallOf_isLUB (results : List ComponentHealth) :
    IsLUB {status | status ∈ results.map ComponentHealth.status} (overallOf results) := by
  obtain ⟨above, least⟩ := foldl_tell_isLUB results .healthy
  refine ⟨fun status listed => above (.inr listed), fun bound bounds => least ?_⟩
  rintro status (rfl | listed)
  · exact healthy_le bound
  · exact bounds listed

theorem httpStatus_eq_iff (status : HealthStatus) : httpStatus status = 503 ↔ status = .error := by
  cases status <;> decide

/-- The worst is an error where one is. -/
theorem isLUB_error_iff {ι : Type} {statuses : ι → HealthStatus} {worst : HealthStatus}
    (h : IsLUB (Set.range statuses) worst) : worst = .error ↔ ∃ i, statuses i = .error := by
  have error_top (status : HealthStatus) (above : .error ≤ status) : status = .error := by
    revert above
    cases status <;> decide
  constructor
  · rintro rfl
    by_contra none
    have bound : HealthStatus.error ≤ .degraded := h.2 (by
      rintro _ ⟨i, rfl⟩
      have not_error := not_exists.mp none i
      cases told : statuses i with
      | healthy | degraded => decide
      | error => exact absurd told not_error)
    exact absurd bound (by decide)
  · rintro ⟨i, failed⟩
    exact error_top worst (failed ▸ h.1 ⟨i, rfl⟩)

/-! ## Many probes -/

inductive Phase (n : Nat)
  | idle
  | checking (base : ServiceStatus) (checks : Fin n → Timeout HealthStatus)
  | answered (status : Nat) (body : ServiceStatus)
  /-- Cancelled, or gone in a check's panic. -/
  | dropped

structure State (Probe : Type) (n : Nat) where
  now : Nat
  /-- `START_TIME`. -/
  startTime : Option Nat
  /-- `HOSTNAME`. -/
  hostname : Option String
  phase : Probe → Phase n

inductive Label (Probe : Type) (n : Nat)
  | wait (nanos : Nat)
  | ask (probe : Probe) (env : Environment)
  | poll (probe : Probe) (contributor : Fin n) (answer : PollAnswer HealthStatus)
  | answer (probe : Probe)
  | drop (probe : Probe)

/-- `unwrap_or(HealthStatus::Error)`, once the check has settled. -/
def settled (check : Timeout HealthStatus) : Option HealthStatus :=
  match check with
  | .done result => some (result.getD .error)
  | _ => none

theorem settled_eq_some {check : Timeout HealthStatus} {status : HealthStatus}
    (h : settled check = some status) :
    ∃ result, check = .done result ∧ status = result.getD .error := by
  cases check with
  | fresh | waiting => cases h
  | done result => exact ⟨result, rfl, (Option.some.inj h).symm⟩

section
variable {Probe : Type} [DecidableEq Probe] (plugin : HealthPlugin) (built : BuiltInfo)

abbrev Checks := Fin plugin.contributors.length → Timeout HealthStatus

/-- `join_all`: in order, when all have settled. -/
def joinAll (checks : Checks plugin) : Option (List ComponentHealth) :=
  (List.finRange plugin.contributors.length).mapM fun i =>
    (settled (checks i)).map fun status => ⟨plugin.contributors.get i, status⟩

def State.setPhase {n : Nat} (s : State Probe n) (probe : Probe) (phase : Phase n) :
    State Probe n :=
  { s with phase := Function.update s.phase probe phase }

def State.start {n : Nat} (s : State Probe n) : Nat := s.startTime.getD s.now

def State.host {n : Nat} (s : State Probe n) (env : Environment) : String :=
  s.hostname.getD env.getHostname

def step (s : State Probe plugin.contributors.length) :
    Label Probe plugin.contributors.length → Option (State Probe plugin.contributors.length)
  | .wait nanos => some { s with now := s.now + nanos }
  | .ask probe env => match s.phase probe with
    | .idle =>
      let base := serviceStatusBase built plugin.appInfo (s.now - s.start) (s.host env)
      some ({ s with startTime := some s.start, hostname := some (s.host env) }.setPhase probe
        (.checking base fun _ => .fresh))
    | _ => none
  | .poll probe i answer => match s.phase probe with
    | .checking base checks =>
      (Transition.family (Timeout.step healthCheckTimeout) checks (i, ⟨s.now, answer⟩)).map
        fun checks => s.setPhase probe (.checking base checks)
    | _ => none
  | .answer probe => match s.phase probe with
    | .checking base checks => (joinAll plugin checks).map fun results =>
      s.setPhase probe (.answered (report base results).1 (report base results).2)
    | _ => none
  | .drop probe => match s.phase probe with
    | .checking _ _ => some (s.setPhase probe .dropped)
    | _ => none

def init (n : Nat) : State Probe n := ⟨0, none, none, fun _ => .idle⟩

/-- The polls of a probe's checks, as the run makes them. -/
def polled (probe : Probe) (s : State Probe plugin.contributors.length) :
    Label Probe plugin.contributors.length →
    List (Fin plugin.contributors.length × Poll HealthStatus)
  | .poll other i answer => if other = probe then [(i, ⟨s.now, answer⟩)] else []
  | _ => []

def polls (run : List (Label Probe plugin.contributors.length)) (probe : Probe)
    (i : Fin plugin.contributors.length) : List (Poll HealthStatus) :=
  Transition.ownLabels i (Transition.trace (step plugin built) (polled plugin probe)
    (init plugin.contributors.length) run)

/-- The checks of a probe, in a state that a run of theirs has come to. -/
def Follows : Phase plugin.contributors.length → Checks plugin → Prop
  | .idle, checks => checks = fun _ => .fresh
  | .checking base own, checks => own = checks ∧ base.components = []
  | .answered status body, checks => ∃ base results, base.components = [] ∧
      joinAll plugin checks = some results ∧ (status, body) = report base results
  | .dropped, _ => True

theorem setPhase_self {n : Nat} (s : State Probe n) (probe : Probe) (phase : Phase n) :
    (s.setPhase probe phase).phase probe = phase :=
  Function.update_self _ _ _

theorem setPhase_of_ne {n : Nat} (s : State Probe n) {probe other : Probe} (apart : probe ≠ other)
    (phase : Phase n) : (s.setPhase other phase).phase probe = s.phase probe :=
  Function.update_of_ne apart _ _

variable {plugin built}

theorem step_follows (probe : Probe) {s s' : State Probe plugin.contributors.length}
    {checks : Checks plugin} {label : Label Probe plugin.contributors.length}
    (follows : Follows plugin (s.phase probe) checks) (hs : step plugin built s label = some s') :
    ∃ checks', Transition.exec (Transition.family (Timeout.step healthCheckTimeout)) checks
        (polled plugin probe s label) = some checks' ∧ Follows plugin (s'.phase probe) checks' := by
  cases label with
  | wait nanos =>
    cases hs
    exact ⟨checks, rfl, follows⟩
  | ask other env =>
    simp only [step] at hs
    split at hs
    next idle =>
      cases hs
      refine ⟨checks, rfl, ?_⟩
      by_cases here : probe = other
      · subst here
        rw [idle] at follows
        rw [setPhase_self]
        exact ⟨follows.symm, rfl⟩
      · rwa [setPhase_of_ne _ here]
    · cases hs
  | poll other i answer =>
    simp only [step] at hs
    split at hs
    next base own checking =>
      obtain ⟨next, moved, rfl⟩ := Option.map_eq_some_iff.mp hs
      by_cases here : probe = other
      · subst here
        rw [checking] at follows
        obtain ⟨rfl, fresh⟩ := follows
        refine ⟨next, ?_, ?_⟩
        · rw [polled, if_pos rfl, Transition.exec, moved]
          rfl
        · rw [setPhase_self]
          exact ⟨rfl, fresh⟩
      · refine ⟨checks, ?_, ?_⟩
        · rw [polled, if_neg (Ne.symm here)]
          rfl
        · rwa [setPhase_of_ne _ here]
    · cases hs
  | answer other =>
    simp only [step] at hs
    split at hs
    next base own checking =>
      obtain ⟨results, joined, rfl⟩ := Option.map_eq_some_iff.mp hs
      refine ⟨checks, rfl, ?_⟩
      by_cases here : probe = other
      · subst here
        rw [checking] at follows
        obtain ⟨rfl, fresh⟩ := follows
        rw [setPhase_self]
        exact ⟨base, results, fresh, joined, rfl⟩
      · rwa [setPhase_of_ne _ here]
    · cases hs
  | drop other =>
    simp only [step] at hs
    split at hs
    next base own checking =>
      cases hs
      refine ⟨checks, rfl, ?_⟩
      by_cases here : probe = other
      · subst here
        rw [setPhase_self]
        trivial
      · rwa [setPhase_of_ne _ here]
    · cases hs

omit [DecidableEq Probe] in
theorem map_of_mapM {α β : Type} {f : α → Option β} {l : List α} {results : List β}
    (h : l.mapM f = some results) : l.map f = results.map some := by
  induction l generalizing results with
  | nil =>
    cases h
    rfl
  | cons a rest ih =>
    rw [List.mapM_cons] at h
    obtain ⟨b, found, h⟩ := Option.bind_eq_some_iff.mp h
    obtain ⟨later, others, h⟩ := Option.bind_eq_some_iff.mp h
    cases h
    rw [List.map_cons, found, ih others, List.map_cons]

omit [DecidableEq Probe] in
theorem joinAll_eq_some {checks : Checks plugin} {results : List ComponentHealth}
    (h : joinAll plugin checks = some results) :
    ∃ statuses : Fin plugin.contributors.length → HealthStatus,
      (∀ i, settled (checks i) = some (statuses i)) ∧
      results = List.ofFn fun i => ⟨plugin.contributors.get i, statuses i⟩ := by
  have each := map_of_mapM h
  have settles : ∀ i, ∃ status, settled (checks i) = some status := by
    intro i
    have listed := List.mem_map_of_mem (f := fun i => (settled (checks i)).map fun status =>
      (⟨plugin.contributors.get i, status⟩ : ComponentHealth)) (List.mem_finRange i)
    rw [each] at listed
    obtain ⟨component, -, same⟩ := List.mem_map.mp listed
    obtain ⟨status, found, -⟩ := Option.map_eq_some_iff.mp same.symm
    exact ⟨status, found⟩
  choose statuses found using settles
  refine ⟨statuses, found, ?_⟩
  simp only [found, Option.map_some] at each
  rw [List.ofFn_eq_map]
  refine List.map_injective_iff.mpr (Option.some_injective _) ?_
  rw [← each, List.map_map]
  rfl

/-- **A probe reports what its checks came to.** However the checks of any number of probes
are interleaved, an answered probe has one component for each contributor, in the order
they were registered: what the check told at its last poll, all before it having found it
pending, or an error, and then five seconds had passed since its first. The text is that
of the worst of these, and the response is 503 exactly when one of them is an error. -/
theorem probe_reports {run : List (Label Probe plugin.contributors.length)}
    {s : State Probe plugin.contributors.length}
    (h : Transition.exec (step plugin built) (init plugin.contributors.length) run = some s)
    {probe : Probe} {status : Nat} {body : ServiceStatus}
    (answered : s.phase probe = .answered status body) :
    ∃ (statuses : Fin plugin.contributors.length → HealthStatus) (worst : HealthStatus),
      (∀ i, ∃ result, Timeout.Settles healthCheckTimeout (polls plugin built run probe i) result ∧
        statuses i = result.getD .error) ∧
      body.components = List.ofFn (fun i => ⟨plugin.contributors.get i, statuses i⟩) ∧
      IsLUB (Set.range statuses) worst ∧ body.status = statusText worst ∧
      (status = 503 ↔ ∃ i, statuses i = .error) := by
  have fresh : Follows plugin ((init plugin.contributors.length : State Probe _).phase probe)
      fun _ => .fresh := rfl
  obtain ⟨checks, made, follows⟩ := Transition.exec_trace
    (fun _ _ _ _ related hs => step_follows probe related hs) fresh h
  rw [answered] at follows
  obtain ⟨base, results, fresh, joined, same⟩ := follows
  obtain ⟨statuses, found, rfl⟩ := joinAll_eq_some joined
  cases same
  have told : {status | status ∈ (List.ofFn fun i =>
      (⟨plugin.contributors.get i, statuses i⟩ : ComponentHealth)).map ComponentHealth.status} =
      Set.range statuses := by
    ext status
    simp [List.mem_ofFn]
  have worst := overallOf_isLUB (List.ofFn fun i => ⟨plugin.contributors.get i, statuses i⟩)
  rw [told] at worst
  refine ⟨statuses, _, fun i => ?_, ?_, worst, rfl, ?_⟩
  · obtain ⟨result, done, same⟩ := settled_eq_some (found i)
    have own := Transition.exec_family made i
    rw [done] at own
    exact ⟨result, Timeout.exec_settles own, same⟩
  · rw [fresh, List.nil_append]
  · exact (httpStatus_eq_iff _).trans (isLUB_error_iff worst)

/-- A database that answers and a queue that does not. -/
def twoContributors : HealthPlugin := ⟨["db", "queue"], none⟩

def someBuild : BuiltInfo := ⟨"0.1.0", "1.90", "release", some "a1b2c3d", "Thu", none⟩

def hungRun : List (Label Unit 2) :=
  [.ask () ⟨some "pod-1", none⟩, .poll () 0 (.ready .healthy), .poll () 1 .pending,
    .wait 5000000001, .poll () 1 .elapsed, .answer ()]

def hungBody : ServiceStatus :=
  (report (serviceStatusBase someBuild none 0 "pod-1") [⟨"db", .healthy⟩, ⟨"queue", .error⟩]).2

theorem hungRun_reports : ∃ i result,
    Timeout.Settles healthCheckTimeout (polls twoContributors someBuild hungRun () i) result ∧
    result.getD .error = .error := by
  have reached : (Transition.exec (step twoContributors someBuild) (init 2) hungRun).map
      (fun s => s.phase ()) = some (.answered 503 hungBody) := rfl
  obtain ⟨s, hs, answered⟩ := Option.map_eq_some_iff.mp reached
  obtain ⟨statuses, worst, settles, -, -, -, failing⟩ := probe_reports hs answered
  obtain ⟨i, failed⟩ := failing.mp rfl
  obtain ⟨result, settled, same⟩ := settles i
  exact ⟨i, result, settled, same.symm.trans failed⟩

end

/-! ## The clock and the host -/

structure Asked (Probe : Type) where
  probe : Probe
  time : Nat
  env : Environment

section
variable {Probe : Type} [DecidableEq Probe] (plugin : HealthPlugin) (built : BuiltInfo)

def asks (s : State Probe plugin.contributors.length) :
    Label Probe plugin.contributors.length → List (Asked Probe)
  | .ask probe env => [⟨probe, s.now, env⟩]
  | _ => []

/-- The probes of a run, in the order they were asked. -/
def asked (run : List (Label Probe plugin.contributors.length)) : List (Asked Probe) :=
  Transition.trace (step plugin built) (asks plugin) (init plugin.contributors.length) run

/-- What a body says of the time and the host is as of the first probe. -/
def Stamped (log : List (Asked Probe)) (probe : Probe) (body : ServiceStatus) : Prop :=
  ∃ first own, log.head? = some first ∧ own ∈ log ∧ own.probe = probe ∧ first.time ≤ own.time ∧
    body.uptimeSeconds = (own.time - first.time) / 1000000000 ∧
    body.hostname = first.env.getHostname

def StampedPhase (log : List (Asked Probe)) (probe : Probe) :
    Phase plugin.contributors.length → Prop
  | .checking body _ | .answered _ body => Stamped log probe body
  | _ => True

structure Logged (s : State Probe plugin.contributors.length) (log : List (Asked Probe)) :
    Prop where
  start : s.startTime = log.head?.map Asked.time
  host : s.hostname = log.head?.map fun ask => ask.env.getHostname
  past : ∀ ask ∈ log, ask.time ≤ s.now
  stamped : ∀ probe, StampedPhase plugin log probe (s.phase probe)

variable {plugin built}

omit [DecidableEq Probe] in
theorem Stamped.extend {log : List (Asked Probe)} {probe : Probe} {body : ServiceStatus}
    (h : Stamped log probe body) (ask : Asked Probe) : Stamped (log ++ [ask]) probe body := by
  obtain ⟨first, own, head, listed, rest⟩ := h
  exact ⟨first, own, by rw [List.head?_append, head]; rfl, List.mem_append_left _ listed, rest⟩

omit [DecidableEq Probe] in
theorem StampedPhase.extend {log : List (Asked Probe)} {probe : Probe}
    {phase : Phase plugin.contributors.length} (h : StampedPhase plugin log probe phase)
    (ask : Asked Probe) : StampedPhase plugin (log ++ [ask]) probe phase := by
  cases phase with
  | checking | answered => exact Stamped.extend h ask
  | idle | dropped => trivial

theorem Logged.setPhase {s : State Probe plugin.contributors.length} {log : List (Asked Probe)}
    (h : Logged plugin s log) {probe : Probe} {phase : Phase plugin.contributors.length}
    (stamped : StampedPhase plugin log probe phase) :
    Logged plugin (s.setPhase probe phase) log where
  start := h.start
  host := h.host
  past := h.past
  stamped other := by
    by_cases here : other = probe
    · subst here
      rwa [setPhase_self]
    · rw [setPhase_of_ne s here]
      exact h.stamped other

omit [DecidableEq Probe] in
/-- The first probe fixes what later ones start from. -/
theorem Logged.ask {s : State Probe plugin.contributors.length} {log : List (Asked Probe)}
    (h : Logged plugin s log) (probe : Probe) (env : Environment) :
    Logged plugin { s with startTime := some s.start, hostname := some (s.host env) }
        (log ++ [⟨probe, s.now, env⟩]) ∧
      Stamped (log ++ [⟨probe, s.now, env⟩]) probe
        (serviceStatusBase built plugin.appInfo (s.now - s.start) (s.host env)) := by
  have head (own : Asked Probe) : (log ++ [own]).head? = some (log.head?.getD own) := by
    cases log <;> rfl
  have start : s.start = (log.head?.getD (⟨probe, s.now, env⟩ : Asked Probe)).time := by
    rw [State.start, h.start]
    cases log <;> rfl
  have host :
      s.host env = (log.head?.getD (⟨probe, s.now, env⟩ : Asked Probe)).env.getHostname := by
    rw [State.host, h.host]
    cases log <;> rfl
  have past : s.start ≤ s.now := by
    rw [start]
    cases log with
    | nil => exact le_refl _
    | cons first => exact h.past first List.mem_cons_self
  refine ⟨⟨by rw [head, start]; rfl, by rw [head, host]; rfl, fun other listed => ?_,
    fun other => (h.stamped other).extend _⟩, ?_⟩
  · obtain earlier | last := List.mem_append.mp listed
    · exact h.past other earlier
    · exact List.mem_singleton.mp last ▸ le_refl s.now
  · exact ⟨_, _, head _, List.mem_append_right _ List.mem_cons_self, rfl, start ▸ past,
      by rw [← start]; rfl, host⟩

theorem step_logged {s s' : State Probe plugin.contributors.length} {log : List (Asked Probe)}
    {label : Label Probe plugin.contributors.length} (h : Logged plugin s log)
    (hs : step plugin built s label = some s') :
    ∃ log', Transition.exec (fun log ask => some (log ++ [ask])) log (asks plugin s label) =
      some log' ∧ Logged plugin s' log' := by
  cases label with
  | wait nanos =>
    cases hs
    exact ⟨log, rfl, h.start, h.host, fun ask listed => Nat.le_add_right_of_le (h.past ask listed),
      h.stamped⟩
  | ask probe env =>
    simp only [step] at hs
    split at hs
    · cases hs
      obtain ⟨logged, stamped⟩ := h.ask probe env
      exact ⟨_, rfl, logged.setPhase stamped⟩
    · cases hs
  | poll probe i answer =>
    simp only [step] at hs
    split at hs
    next base own checking =>
      obtain ⟨next, -, rfl⟩ := Option.map_eq_some_iff.mp hs
      have stamped := h.stamped probe
      rw [checking] at stamped
      exact ⟨log, rfl, h.setPhase stamped⟩
    · cases hs
  | answer probe =>
    simp only [step] at hs
    split at hs
    next base own checking =>
      obtain ⟨results, -, rfl⟩ := Option.map_eq_some_iff.mp hs
      have stamped := h.stamped probe
      rw [checking] at stamped
      exact ⟨log, rfl, h.setPhase stamped⟩
    · cases hs
  | drop probe =>
    simp only [step] at hs
    split at hs
    · cases hs
      exact ⟨log, rfl, h.setPhase trivial⟩
    · cases hs

omit [DecidableEq Probe] in
theorem init_logged : Logged plugin (init plugin.contributors.length) ([] : List (Asked Probe)) :=
  ⟨rfl, rfl, nofun, fun _ => trivial⟩

theorem exec_log {α : Type} (log told : List α) :
    Transition.exec (fun log a => some (log ++ [a])) log told = some (log ++ told) := by
  induction told generalizing log with
  | nil => rw [List.append_nil]; rfl
  | cons a rest ih => rw [Transition.exec, Option.bind_some, ih, List.append_assoc]; rfl

/-- **Uptime counts from the first probe.** In every run, what an answered probe reports is
the whole seconds from when the first probe of all was asked to when it was, and the host
name the first one found; the first reports zero, however long the process has run. -/
theorem uptime_from_first_probe {run : List (Label Probe plugin.contributors.length)}
    {s : State Probe plugin.contributors.length}
    (h : Transition.exec (step plugin built) (init plugin.contributors.length) run = some s)
    {probe : Probe} {status : Nat} {body : ServiceStatus}
    (answered : s.phase probe = .answered status body) :
    Stamped (asked plugin built run) probe body := by
  obtain ⟨log, told, logged⟩ := Transition.exec_trace
    (fun _ _ _ _ related hs => step_logged related hs) init_logged h
  obtain rfl := Option.some.inj ((exec_log [] _).symm.trans told)
  have stamped := logged.stamped probe
  rw [answered] at stamped
  exact stamped

/-- Asked a minute after the process started, and again after another. -/
def laterRun : List (Label Bool 0) :=
  [.wait 60000000000, .ask false ⟨none, some "host-7"⟩, .answer false, .wait 60000000000,
    .ask true ⟨some "renamed", none⟩, .answer true]

def laterBody : ServiceStatus := serviceStatusBase someBuild none 60000000000 "host-7"

theorem laterRun_uptime : laterBody.uptimeSeconds = 60 ∧
    Stamped (asked ⟨[], none⟩ someBuild laterRun) true laterBody := by
  have reached : (Transition.exec (step ⟨[], none⟩ someBuild) (init 0) laterRun).map
      (fun s => s.phase true) = some (.answered 200 laterBody) := rfl
  obtain ⟨s, hs, answered⟩ := Option.map_eq_some_iff.mp reached
  exact ⟨rfl, uptime_from_first_probe hs answered⟩

end

end Health

end RustyGasket
