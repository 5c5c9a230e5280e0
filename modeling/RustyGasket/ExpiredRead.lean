import RustyGasket.MemoryBackend

/-!
# What an expired read destroys

A `get` decides on the value it read and invalidates by key. The value it takes out
of the map is the one it decided on, or one stored since.
-/

namespace RustyGasket.MemoryBackend

variable {Op Key : Type}

/-- An unexpired newest value is what a `get` of its key would return, and what every
`get` returned that read after it was stored and answered before it expired. -/
structure Kept (s : State Op Key) : Prop where
  held : ∀ k v, s.newest k = some v → s.now < v.expiresAt → s.reading k = some v.bytes
  answered : ∀ a ∈ s.answers, ∀ v, a.newest = some v → a.decidedAt < v.expiresAt →
    a.result = some v.bytes

/-- What the map holds of a key, and what a `get` took from it, was the newest value. -/
structure Sound (s : State Op Key) : Prop where
  store : ∀ k v, s.store k = some v → s.newest k = some v
  check : ∀ op v newest, s.pc op = .check v newest → newest = some v

/-- A `get` that goes to invalidate its key finds nothing there but an expired value. -/
def Guarded (request : Op → Request Key) (s : State Op Key) : Label Op → Prop
  | .run op => match s.pc op, request op with
    | .invalidate, .get key => ∀ v, s.store key = some v → v.expiresAt ≤ s.now
    | _, _ => True
  | _ => True

theorem init_sound : Sound (init : State Op Key) := ⟨nofun, nofun⟩

theorem init_kept : Kept (init : State Op Key) := ⟨nofun, nofun⟩

theorem reading_of_store {s : State Op Key} {k : Key} {v : StoredCacheValue}
    (hk : s.store k = some v) (live : s.now < v.expiresAt) : s.reading k = some v.bytes := by
  have unexpired : ¬ v.expiresAt ≤ s.now := by omega
  simp only [State.reading, hk, Option.bind_some, if_neg unexpired]

/-- An unexpired newest value is in the map. -/
theorem Kept.store {s : State Op Key} (h : Kept s) (sound : Sound s) {k : Key}
    {v : StoredCacheValue} (hk : s.newest k = some v) (live : s.now < v.expiresAt) :
    s.store k = some v := by
  have read := h.held k v hk live
  cases found : s.store k with
  | none => simp [State.reading, found] at read
  | some w =>
    have same := sound.store k w found
    rw [hk] at same
    exact same.symm

/-- A step that leaves the map, the newest values and the answers, while time passes. -/
theorem Kept.later {s t : State Op Key} (h : Kept s) (sound : Sound s) (store : t.store = s.store)
    (newest : t.newest = s.newest) (now : s.now ≤ t.now) (answers : t.answers = s.answers) :
    Kept t := by
  constructor
  · intro k v hk live
    rw [newest] at hk
    have before := h.store sound hk (by omega)
    exact reading_of_store (by rw [store, before]) live
  · rw [answers]
    exact h.answered

section
variable [DecidableEq Key]

/-- Two maps that agree on a key still do when both are written at the same one. -/
theorem update_agree {f g : Key → Option StoredCacheValue} {k : Key} {v : StoredCacheValue}
    (h : f k = some v → g k = some v) (key : Key) (value : Option StoredCacheValue)
    (hk : Function.update f key value k = some v) : Function.update g key value k = some v := by
  rw [Function.update_apply] at hk ⊢
  by_cases same : k = key
  · rw [if_pos same] at hk ⊢
    exact hk
  · rw [if_neg same] at hk ⊢
    exact h hk

/-- A `set` or a `delete` that takes effect. -/
theorem Kept.written {s t : State Op Key} (h : Kept s) (sound : Sound s) (key : Key)
    (value : Option StoredCacheValue) (store : t.store = Function.update s.store key value)
    (newest : t.newest = Function.update s.newest key value) (now : t.now = s.now)
    (answers : t.answers = s.answers) : Kept t := by
  constructor
  · intro k v hk live
    rw [newest] at hk
    refine reading_of_store ?_ live
    rw [store]
    refine update_agree (fun before => ?_) key value hk
    exact h.store sound before (now ▸ live)
  · rw [answers]
    exact h.answered

end

variable [DecidableEq Op]

/-- One call moves. -/
theorem Sound.moved {s t : State Op Key} (h : Sound s) {op : Op} {pc : Pc}
    (hpc : t.pc = (s.goto op pc).pc) (store : ∀ k v, t.store k = some v → t.newest k = some v)
    (check : ∀ v newest, pc = .check v newest → newest = some v) : Sound t := by
  constructor
  · exact store
  · intro other v newest checks
    rw [hpc] at checks
    obtain ⟨-, here⟩ | ⟨-, before⟩ := goto_cases (· = .check v newest) checks
    · exact check v newest here
    · exact h.check other v newest before

/-- A `get` that answers. -/
theorem Kept.answer {s : State Op Key} (h : Kept s) (op : Op) (pc : Pc)
    {newest : Option StoredCacheValue} {result : Option Bytes}
    (right : ∀ v, newest = some v → s.now < v.expiresAt → result = some v.bytes) :
    Kept (s.answer op pc newest result) := by
  constructor
  · exact h.held
  · intro a ha v hv live
    obtain rfl | older := List.mem_cons.mp ha
    · exact right v hv live
    · exact h.answered a older v hv live

variable [DecidableEq Key]

theorem Sound.step {request : Op → Request Key} {s t : State Op Key} {label : Label Op}
    (h : Sound s) (hs : step request s label = some t) : Sound t := by
  cases step_effect hs with
  | tick => exact ⟨h.store, h.check⟩
  | miss | expired | live | stamp => exact h.moved rfl h.store nofun
  | drop => exact h.moved rfl h.store nofun
  | read _ _ hk =>
    apply h.moved rfl h.store
    rintro v newest ⟨⟩
    exact h.store _ _ hk
  | invalidate =>
    refine h.moved rfl ?_ nofun
    intro k v hk
    obtain ⟨-, gone⟩ | ⟨-, before⟩ := Transition.update_cases (· = some v) hk
    · cases gone
    · exact h.store k v before
  | insert => exact h.moved rfl (fun k v => update_agree (h.store k v) _ _) nofun
  | delete => exact h.moved rfl (fun k v => update_agree (h.store k v) _ _) nofun

theorem Kept.step {request : Op → Request Key} {s t : State Op Key} {label : Label Op}
    (h : Kept s) (sound : Sound s) (guarded : Guarded request s label)
    (hs : step request s label = some t) : Kept t := by
  cases step_effect hs with
  | tick => exact h.later sound rfl rfl (Nat.le_add_right _ _) rfl
  | read | stamp => exact h.later sound rfl rfl (le_refl _) rfl
  | drop => exact h.later sound rfl rfl (le_refl _) rfl
  | miss _ _ hk =>
    apply h.answer
    intro v hv live
    have present := h.store sound hv live
    rw [hk] at present
    cases present
  | expired _ hpc late =>
    apply h.answer
    intro v hv live
    have same := sound.check _ _ _ hpc
    rw [hv] at same
    cases same
    omega
  | live _ hpc _ =>
    apply h.answer
    intro v hv _
    have same := sound.check _ _ _ hpc
    rw [hv] at same
    cases same
    rfl
  | invalidate hr hpc =>
    rename_i op key
    simp only [Guarded, hpc, hr] at guarded
    constructor
    · intro k v hk live
      have present := h.store sound hk live
      have other : k ≠ key := by
        rintro rfl
        have expired := guarded v present
        change s.now < v.expiresAt at live
        omega
      refine reading_of_store ?_ live
      change Function.update s.store key none k = some v
      rw [Function.update_of_ne other]
      exact present
    · exact h.answered
  | insert => exact h.written sound _ _ rfl rfl rfl rfl
  | delete => exact h.written sound _ _ rfl rfl rfl rfl

/-- What a `get` takes out of the map unexpired is then missing. -/
theorem unguarded_breaks {request : Op → Request Key} {s t : State Op Key} {label : Label Op}
    (sound : Sound s) (unguarded : ¬ Guarded request s label)
    (hs : step request s label = some t) : ¬ Kept t := by
  intro kept
  cases step_effect hs with
  | tick => exact unguarded trivial
  | drop => exact unguarded trivial
  | invalidate hr hpc =>
    rename_i op key
    simp only [Guarded, hpc, hr, not_forall] at unguarded
    obtain ⟨v, present, unexpired⟩ := unguarded
    have live : s.now < v.expiresAt := by omega
    have read := kept.held key v (sound.store key v present) live
    simp [State.reading] at read
  | miss hr hpc | read hr hpc | expired hr hpc | live hr hpc | stamp hr hpc | insert hr hpc
  | delete hr hpc =>
    apply unguarded
    simp only [Guarded, hpc, hr]

/-- **An expired read destroys no newer write, exactly in the runs** in which no `get`
invalidates its key while the map holds an unexpired value for it. -/
theorem newerWrite_kept_iff (request : Op → Request Key) (run : List (Label Op)) :
    Transition.Always (step request) Kept init run ↔
      Transition.Along (step request) (Guarded request) init run := by
  constructor
  · intro h
    exact h.along (fun _ _ _ sound _ hs => Sound.step sound hs)
      (fun _ _ _ sound unguarded hs => unguarded_breaks sound unguarded hs) init_sound
  · intro h
    have inv := h.always (P := fun s => Sound s ∧ Kept s)
      (fun _ _ _ hi guarded hs => ⟨hi.1.step hs, hi.2.step hi.1 guarded hs⟩)
      ⟨init_sound, init_kept⟩
    exact inv.mono fun s hi => hi.2

/-- Calls 0 and 2 set the key, call 1 gets it. -/
def requests : Nat → Request String
  | 1 => .get "k"
  | 2 => .set "k" [1] 300
  | _ => .set "k" [0] 1

/-- Call 1 reads the value of call 0, which expires. Call 2 stores a new one before
call 1 invalidates the key. -/
def staleRun : List (Label Nat) :=
  [.run 0, .run 0, .run 1, .tick 1, .run 1, .run 2, .run 2, .run 1]

theorem staleRun_destroys :
    ¬ Transition.Always (step requests) Kept init staleRun := by
  intro h
  obtain ⟨s, hs, stored, early, read⟩ : ∃ s,
      Transition.exec (step requests) init staleRun = some s ∧
      s.newest "k" = some ⟨[1], 301⟩ ∧ s.now = 1 ∧ s.reading "k" = none :=
    ⟨_, rfl, rfl, rfl, rfl⟩
  have kept := (h.last hs).held "k" _ stored (by rw [early]; decide)
  rw [read] at kept
  cases kept

end RustyGasket.MemoryBackend
