import RustyGasket.Leadership

/-!
# How often a cold key is loaded

`get_or_load` over a backend that neither fails nor forgets, on keys nobody else
writes and with no caller cancelled. What a loader answers is all that is left
open. A caller that missed does not look at the backend again when it takes the
lead, so a value stored in between is loaded a second time.
-/

namespace RustyGasket.SingleFlight

variable {Caller Key Val : Type}

/-- `loaded` is a history variable: the loaders that completed, with their values. -/
structure Backed (Caller Key Val : Type) where
  flight : State Caller Key Val
  backend : Key → Option Val
  loaded : List (Caller × Val)

def Backed.cold : Backed Caller Key Val := ⟨init, fun _ => none, []⟩

inductive BackedAction (Val : Type)
  | call
  | get
  | acquire
  | lookup
  | release
  | notified
  | resume
  | loaded (result : Except String Val)
  | store
  | remove
  | notifyWaiters
  deriving DecidableEq, Repr

/-- The step of the caller, with the backend's answer filled in. -/
def BackedAction.action (found : Option Val) : BackedAction Val → Action Val
  | call => .call
  | get => .got (.ok found)
  | acquire => .acquire
  | lookup => .lookup
  | release => .release
  | notified => .notified
  | resume => .resume
  | loaded result => .loaded result
  | store => .stored (.ok ())
  | remove => .remove
  | notifyWaiters => .notifyWaiters

/-- What a caller that has its result is about to return. -/
def Pc.returns : Pc Val → Option (Except CacheError Val)
  | finish _ result | finishLocked _ result | removed _ result | notify _ result
  | done result => some result
  | _ => none

/-- Leading, with no value yet. -/
def Pc.unloaded : Pc Val → Bool
  | inserted _ | load _ => true
  | _ => false

theorem Pc.unloaded_wake (m : NotifyId) (pc : Pc Val) : (pc.wake m).unloaded = pc.unloaded := by
  cases pc <;> rfl

theorem Pc.returns_wake (m : NotifyId) (pc : Pc Val) : (pc.wake m).returns = pc.returns := by
  cases pc <;> rfl

theorem Pc.wake_eq_store (m n : NotifyId) (value : Val) (pc : Pc Val) :
    pc.wake m = store n value ↔ pc = store n value := by
  cases pc <;> simp [wake]

/-- No caller comes by a value or starts or ends storing one. -/
structure Quiet (s t : State Caller Key Val) : Prop where
  store : ∀ d n value, t.pc d = .store n value ↔ s.pc d = .store n value
  returns : ∀ d value, (t.pc d).returns = some (.ok value) → (s.pc d).returns = some (.ok value)

theorem Quiet.notify {s t : State Caller Key Val} (h : Quiet s t) (m : Option NotifyId) :
    Quiet s (t.notifyWaiters m) := by
  cases m with
  | none => exact h
  | some m =>
    constructor
    · intro d n value
      change (t.pc d).wake m = .store n value ↔ _
      rw [Pc.wake_eq_store]
      exact h.store d n value
    · intro d value
      change ((t.pc d).wake m).returns = _ → _
      rw [Pc.returns_wake]
      exact h.returns d value

/-- Every value about is one a loader of the key completed with. -/
structure Sourced (key : Caller → Key) (s : Backed Caller Key Val) : Prop where
  backend : ∀ k value, s.backend k = some value → ∃ d, key d = k ∧ (d, value) ∈ s.loaded
  store : ∀ c n value, s.flight.pc c = .store n value → (c, value) ∈ s.loaded
  returns : ∀ c value, (s.flight.pc c).returns = some (.ok value) →
    ∃ d, key d = key c ∧ (d, value) ∈ s.loaded

theorem cold_sourced (key : Caller → Key) : Sourced key (Backed.cold : Backed Caller Key Val) := by
  constructor <;> simp [Backed.cold, init, Pc.returns]

variable [DecidableEq Caller]

/-- One caller moves from and to positions without a value. -/
theorem quiet_goto {s t : State Caller Key Val} {c : Caller} {pc : Pc Val}
    (moved : t.pc = (s.goto c pc).pc) (before : ∀ n value, s.pc c ≠ .store n value)
    (after : ∀ n value, pc ≠ .store n value)
    (returns : ∀ value, pc.returns = some (.ok value) → (s.pc c).returns = some (.ok value)) :
    Quiet s t := by
  constructor
  · intro d n value
    rw [moved, goto_pc]
    by_cases same : d = c
    · rw [if_pos same, same]
      exact ⟨fun h => absurd h (after n value), fun h => absurd h (before n value)⟩
    · rw [if_neg same]
  · intro d value
    rw [moved, goto_pc]
    by_cases same : d = c
    · rw [if_pos same, same]
      exact returns value
    · rw [if_neg same]
      exact id

/-- One caller moves; what it has, and what the backend takes, a loader of the key
completed with. -/
theorem Sourced.goto {key : Caller → Key} {s t : Backed Caller Key Val} (h : Sourced key s)
    {c : Caller} {pc : Pc Val} (moved : t.flight = s.flight.goto c pc)
    (more : ∀ load ∈ s.loaded, load ∈ t.loaded)
    (backend : ∀ k value, t.backend k = some value →
      s.backend k = some value ∨ k = key c ∧ (c, value) ∈ s.loaded)
    (store : ∀ n value, pc = .store n value → (c, value) ∈ t.loaded)
    (returns : ∀ value, pc.returns = some (.ok value) →
      ∃ d, key d = key c ∧ (d, value) ∈ s.loaded) : Sourced key t := by
  constructor
  · intro k value hk
    obtain before | ⟨rfl, loaded⟩ := backend k value hk
    · obtain ⟨d, hd, hm⟩ := h.backend k value before
      exact ⟨d, hd, more _ hm⟩
    · exact ⟨c, rfl, more _ loaded⟩
  · intro d n value hd
    rw [moved] at hd
    obtain ⟨rfl, here⟩ | ⟨-, before⟩ := goto_cases (· = .store n value) hd
    · exact store n value here
    · exact more _ (h.store d n value before)
  · intro d value hd
    rw [moved] at hd
    have source : ∃ d', key d' = key d ∧ (d', value) ∈ s.loaded := by
      obtain ⟨rfl, here⟩ | ⟨-, before⟩ := goto_cases (·.returns = some (.ok value)) hd
      · exact returns value here
      · exact h.returns d value before
    obtain ⟨d', hd', hm⟩ := source
    exact ⟨d', hd', more _ hm⟩

variable [DecidableEq Key]

def Backed.step (key : Caller → Key) (s : Backed Caller Key Val) :
    Caller × BackedAction Val → Option (Backed Caller Key Val)
  | (c, b) =>
    (SingleFlight.step key s.flight (c, b.action (s.backend (key c)))).map fun flight =>
      { flight := flight
        backend := match b, s.flight.pc c with
          | .store, .store _ value => Function.update s.backend (key c) (some value)
          | _, _ => s.backend
        loaded := match b with
          | .loaded (.ok value) => (c, value) :: s.loaded
          | _ => s.loaded }

/-- What a step does to the backend, the history and the callers that have a value. -/
inductive Backed.Effect (key : Caller → Key) (s : Backed Caller Key Val) (c : Caller) :
    BackedAction Val → Backed Caller Key Val → Prop
  | hit {value} : s.flight.pc c = .get → s.backend (key c) = some value →
      Effect key s c .get { s with flight := s.flight.goto c (.done (.ok value)) }
  | loaded {n value} : s.flight.pc c = .load n →
      Effect key s c (.loaded (.ok value)) { s with
        flight := s.flight.goto c (.store n value), loaded := (c, value) :: s.loaded }
  | stored {n value} : s.flight.pc c = .store n value →
      Effect key s c .store { s with
        flight := s.flight.goto c (.finish n (.ok value))
        backend := Function.update s.backend (key c) (some value) }
  | quiet {b flight} : Quiet s.flight flight → (∀ value, b ≠ .loaded (.ok value)) →
      Effect key s c b { s with flight := flight }

theorem Backed.step_effect {key : Caller → Key} {s t : Backed Caller Key Val} {c : Caller}
    {b : BackedAction Val} (h : Backed.step key s (c, b) = some t) : Effect key s c b t := by
  obtain ⟨flight, hf, rfl⟩ := Option.map_eq_some_iff.mp h
  cases b with
  | get =>
    cases hpc : s.flight.pc c <;> simp [SingleFlight.step, BackedAction.action, hpc] at hf
    cases found : s.backend (key c) <;> simp only [found] at hf <;> cases hf
    · exact .quiet (quiet_goto rfl (by simp [hpc]) (by simp) (by simp [Pc.returns])) (by simp)
    · exact .hit hpc found
  | loaded result =>
    cases hpc : s.flight.pc c <;> simp [SingleFlight.step, BackedAction.action, hpc] at hf
    cases result <;> cases hf
    · exact .quiet (quiet_goto rfl (by simp [hpc]) (by simp) (by simp [Pc.returns])) (by simp)
    · exact .loaded hpc
  | store =>
    cases hpc : s.flight.pc c <;> simp [SingleFlight.step, BackedAction.action, hpc] at hf
    subst hf
    exact .stored hpc
  | notifyWaiters =>
    cases hpc : s.flight.pc c <;> simp [SingleFlight.step, BackedAction.action, hpc] at hf
    subst hf
    refine .quiet (Quiet.notify (quiet_goto rfl ?_ ?_ ?_) _) (by simp)
    · simp [hpc]
    · simp
    · simp [hpc, Pc.returns]
  | lookup =>
    cases hpc : s.flight.pc c <;> simp [SingleFlight.step, BackedAction.action, hpc] at hf
    split at hf <;> simp at hf <;> subst hf
    all_goals exact .quiet (quiet_goto rfl (by simp [hpc]) (by simp) (by simp [Pc.returns])) (by simp)
  | resume =>
    cases hpc : s.flight.pc c <;> simp [SingleFlight.step, BackedAction.action, hpc] at hf
    split at hf <;> simp at hf
    subst hf
    exact .quiet (quiet_goto rfl (by simp [hpc]) (by simp) (by simp [Pc.returns])) (by simp)
  | call | acquire | release | notified | remove =>
    cases hpc : s.flight.pc c <;> simp [SingleFlight.step, BackedAction.action, hpc] at hf
    all_goals
      first | subst hf | obtain ⟨-, rfl⟩ := hf
      refine .quiet (quiet_goto rfl ?_ ?_ ?_) (by simp)
      all_goals simp [hpc, Pc.returns]

/-! ## One load -/

/-- At most one loader completes for each key, and whoever returns a value returns
the one a loader of the key completed with. -/
structure LoadedOnce (key : Caller → Key) (s : Backed Caller Key Val) : Prop where
  once : ∀ k, (s.loaded.filter fun load => key load.1 = k).length ≤ 1
  value : ∀ c value, s.flight.pc c = .done (.ok value) → ∃ d, key d = key c ∧ (d, value) ∈ s.loaded

/-- A loader completes only while the backend holds nothing for its key. -/
def Needed (key : Caller → Key) (s : Backed Caller Key Val) : Caller × BackedAction Val → Prop
  | (c, .loaded (.ok _)) => s.backend (key c) = none
  | _ => True

theorem Sourced.step {key : Caller → Key} {s t : Backed Caller Key Val} (h : Sourced key s)
    {c : Caller} {b : BackedAction Val} (e : Backed.Effect key s c b t) : Sourced key t := by
  cases e with
  | hit hpc found =>
    refine h.goto rfl (fun _ hl => hl) (fun _ _ hk => .inl hk) nofun ?_
    intro value returned
    cases returned
    exact h.backend (key c) _ found
  | loaded hpc =>
    refine h.goto rfl (fun _ hl => List.mem_cons_of_mem _ hl) (fun _ _ hk => .inl hk) ?_ nofun
    intro n value stores
    cases stores
    exact List.mem_cons_self
  | stored hpc =>
    have source := h.store c _ _ hpc
    refine h.goto rfl (fun _ hl => hl) ?_ nofun ?_
    · intro k value hk
      obtain ⟨same, new⟩ | ⟨-, before⟩ := Transition.update_cases (· = some value) hk
      · cases new
        exact .inr ⟨same, source⟩
      · exact .inl before
    · intro value returned
      cases returned
      exact ⟨c, rfl, source⟩
  | quiet still _ =>
    refine ⟨h.backend, ?_, ?_⟩
    · intro d n value hd
      exact h.store d n value ((still.store d n value).mp hd)
    · intro d value hd
      exact h.returns d value (still.returns d value hd)

/-- Where every load was needed, what was loaded is stored or about to be. -/
structure Single (key : Caller → Key) (s : Backed Caller Key Val) : Prop where
  kept : ∀ c value, (c, value) ∈ s.loaded →
    s.backend (key c) ≠ none ∨ ∃ n, s.flight.pc c = .store n value
  once : ∀ k, (s.loaded.filter fun load => key load.1 = k).length ≤ 1

theorem Single.step {key : Caller → Key} {s t : Backed Caller Key Val} (h : Single key s)
    (led : Led key s.flight) {c : Caller} {b : BackedAction Val} (needed : Needed key s (c, b))
    (e : Backed.Effect key s c b t) : Single key t := by
  cases e with
  | hit hpc _ =>
    refine ⟨?_, h.once⟩
    intro d value hd
    apply (h.kept d value hd).imp_right
    rintro ⟨n, hn⟩
    have other : d ≠ c := by rintro rfl; rw [hpc] at hn; cases hn
    exact ⟨n, (goto_pc_of_ne other).trans hn⟩
  | loaded hpc =>
    rename_i n value
    have leader : (s.flight.pc c).leads = some n := by rw [hpc]; rfl
    -- whoever loaded this key before would still lead it, as the caller does
    have first : ∀ load ∈ s.loaded, key load.1 ≠ key c := by
      rintro ⟨d, earlier⟩ hd same
      obtain stored | ⟨m, hm⟩ := h.kept d earlier hd
      · exact stored (same ▸ needed)
      · have leads : (s.flight.pc d).leads = some m := by rw [hm]; rfl
        rw [led.sole_leader leads leader same, hpc] at hm
        cases hm
    constructor
    · intro d earlier hd
      obtain new | old := List.mem_cons.mp hd
      · cases new
        exact .inr ⟨n, goto_pc_self ..⟩
      · apply (h.kept d earlier old).imp_right
        rintro ⟨m, hm⟩
        have other : d ≠ c := by rintro rfl; exact first (d, earlier) old rfl
        exact ⟨m, (goto_pc_of_ne other).trans hm⟩
    · intro k
      by_cases same : key c = k
      · have none_before : (s.loaded.filter fun load => key load.1 = k) = [] := by
          rw [List.filter_eq_nil_iff]
          intro load hl
          simpa [← same] using first load hl
        simp [same, none_before]
      · simpa [List.filter_cons, same] using h.once k
  | stored hpc =>
    refine ⟨?_, h.once⟩
    intro d value hd
    by_cases same : key d = key c
    · left
      simp [same]
    · simp only [Function.update_of_ne same]
      apply (h.kept d value hd).imp_right
      rintro ⟨n, hn⟩
      have other : d ≠ c := by rintro rfl; exact same rfl
      exact ⟨n, (goto_pc_of_ne other).trans hn⟩
  | quiet still _ =>
    refine ⟨?_, h.once⟩
    intro d value hd
    apply (h.kept d value hd).imp_right
    rintro ⟨n, hn⟩
    exact ⟨n, (still.store d n value).mpr hn⟩

/-- The flight of a backed run keeps what every flight keeps. -/
theorem Backed.step_led {key : Caller → Key} {s t : Backed Caller Key Val}
    {cb : Caller × BackedAction Val} (h : Led key s.flight)
    (hs : Backed.step key s cb = some t) : Led key t.flight := by
  obtain ⟨c, b⟩ := cb
  obtain ⟨flight, hf, rfl⟩ := Option.map_eq_some_iff.mp hs
  exact h.step (SingleFlight.step_effect hf)

/-- A load of a key that has its value is a second one. -/
theorem unneeded_breaks {key : Caller → Key} {s t : Backed Caller Key Val} (h : Sourced key s)
    {cb : Caller × BackedAction Val} (unneeded : ¬ Needed key s cb)
    (hs : Backed.step key s cb = some t) : ¬ LoadedOnce key t := by
  obtain ⟨c, b⟩ := cb
  have e := Backed.step_effect hs
  intro single
  cases e with
  | loaded hpc =>
    obtain ⟨earlier, found⟩ := Option.ne_none_iff_exists'.mp unneeded
    obtain ⟨d, hd, hm⟩ := h.backend (key c) earlier found
    have twice := single.once (key c)
    have before : (d, earlier) ∈ s.loaded.filter fun load => key load.1 = key c := by
      simp [hm, hd]
    have some_before := List.length_pos_of_mem before
    simp only [List.filter_cons, decide_true, if_true, List.length_cons] at twice
    omega
  | hit | stored => exact unneeded trivial
  | quiet _ noLoad =>
    cases b with
    | loaded result =>
      cases result with
      | ok value => exact noLoad value rfl
      | error _ => exact unneeded trivial
    | _ => exact unneeded trivial

/-- **Single flight loads once, exactly.** On cold keys, over a backend that keeps
what it is given, one loader at most completes for each key in every state of a
run, and every value returned is its value, if and only if no loader of the run
completes when the backend already holds a value for its key. -/
theorem loadedOnce_iff_needed (key : Caller → Key) (run : List (Caller × BackedAction Val)) :
    Transition.Always (Backed.step key) (LoadedOnce key) .cold run ↔
      Transition.Along (Backed.step key) (Needed key) .cold run := by
  constructor
  · intro h
    refine h.along (I := Sourced key) ?_ (fun _ _ _ sourced late hs => unneeded_breaks sourced late hs)
      (cold_sourced key)
    exact fun s cb t sourced _ hs => sourced.step (Backed.step_effect hs)
  · intro h
    have inv := h.always
      (P := fun s => Led key s.flight ∧ Sourced key s ∧ Single key s)
      (fun s cb t hi needed hs => ⟨Backed.step_led hi.1 hs, hi.2.1.step (Backed.step_effect hs),
        hi.2.2.step hi.1 needed (Backed.step_effect hs)⟩)
      ⟨init_led key, cold_sourced key, by constructor <;> simp [Backed.cold]⟩
    refine inv.mono fun s hi => ⟨hi.2.2.once, ?_⟩
    intro c value hc
    exact hi.2.1.returns c value (by rw [hc]; rfl)

/-! ## Where the second load comes from -/

/-- Whoever takes the lead does so while the backend holds nothing for the key. -/
def Prompt (key : Caller → Key) (s : Backed Caller Key Val) : Caller × BackedAction Val → Prop
  | (c, .lookup) => s.flight.inFlight (key c) = none → s.backend (key c) = none
  | _ => True

theorem Pc.advance_unloaded {pc pc' : Pc Val} {a : Action Val} (h : pc.advance a = some pc') :
    pc'.unloaded = false := by
  cases a <;> simp only [Pc.advance] at h
  all_goals first | (split at h <;> cases h <;> rfl) | cases h

/-- The steps of one caller leave the others where they are, or wake them. -/
theorem unloaded_other {key : Caller → Key} {s t : State Caller Key Val} {c d : Caller}
    {a : Action Val} (other : d ≠ c) (e : SingleFlight.Effect key s c a t) :
    (t.pc d).unloaded = (s.pc d).unloaded := by
  have stays : ∀ pc, (s.goto c pc).pc d = s.pc d := fun pc => goto_pc_of_ne other
  cases e with
  | notify hpc =>
    rename_i m r
    cases m with
    | none => exact congrArg Pc.unloaded (stays _)
    | some m =>
      change (((s.goto c (.done r)).pc d).wake m).unloaded = _
      rw [Pc.unloaded_wake, stays]
  | _ => exact congrArg Pc.unloaded (stays _)

theorem unloaded_step {key : Caller → Key} {s t : State Caller Key Val} {c d : Caller}
    {a : Action Val} (h : step key s (c, a) = some t) (hd : (t.pc d).unloaded = true) :
    (s.pc d).unloaded = true ∨ (d = c ∧ a = .lookup ∧ s.inFlight (key c) = none) := by
  by_cases same : d = c
  · subst same
    cases private_ : a.shared with
    | false =>
      rw [step_advance key s d private_] at h
      obtain ⟨pc, moved, rfl⟩ := Option.map_eq_some_iff.mp h
      rw [goto_pc_self, Pc.advance_unloaded moved] at hd
      cases hd
    | true =>
      cases a with
      | acquire =>
        cases hpc : s.pc d <;> simp [step, hpc] at h
        all_goals
          obtain ⟨-, rfl⟩ := h
          simp [Pc.unloaded] at hd
      | lookup =>
        cases hpc : s.pc d <;> simp [step, hpc] at h
        split at h <;> simp at h <;> subst h
        · simp [Pc.unloaded] at hd
        · exact .inr ⟨rfl, rfl, ‹_›⟩
      | release =>
        cases hpc : s.pc d <;> simp [step, hpc] at h <;> subst h
        · simp [Pc.unloaded] at hd
        · exact .inl rfl
        · simp [Pc.unloaded] at hd
      | remove =>
        cases hpc : s.pc d <;> simp [step, hpc] at h
        subst h
        simp [Pc.unloaded] at hd
      | notifyWaiters =>
        cases hpc : s.pc d <;> simp [step, hpc] at h
        rename_i m result
        subst h
        have done : ((s.goto d (.done result)).pc d).unloaded = false := by
          rw [goto_pc_self]
          rfl
        cases m with
        | none => cases done.symm.trans hd
        | some m =>
          change (((s.goto d (.done result)).pc d).wake m).unloaded = true at hd
          rw [Pc.unloaded_wake, done] at hd
          cases hd
      | _ => cases private_
  · left
    rw [← unloaded_other same (step_effect h)]
    exact hd

/-- Whoever leads without a value leads a key without a value. -/
def Clear (key : Caller → Key) (s : Backed Caller Key Val) : Prop :=
  ∀ c, (s.flight.pc c).unloaded = true → s.backend (key c) = none

theorem Clear.step {key : Caller → Key} {s t : Backed Caller Key Val} (h : Clear key s)
    (led : Led key s.flight) {c : Caller} {b : BackedAction Val} (prompt : Prompt key s (c, b))
    (hs : Backed.step key s (c, b) = some t) : Clear key t := by
  intro d hd
  have e := Backed.step_effect hs
  obtain ⟨flight, hf, same⟩ := Option.map_eq_some_iff.mp hs
  have moved : t.flight = flight := by rw [← same]
  rw [moved] at hd
  obtain already | ⟨rfl, lookup, vacant⟩ := unloaded_step hf hd
  · have none_before := h d already
    cases e with
    | stored hpc =>
      rename_i n value
      have other : key d ≠ key c := by
        intro same_key
        obtain ⟨m, leads⟩ : ∃ m, (s.flight.pc d).leads = some m := by
          cases hd : s.flight.pc d <;> simp [hd, Pc.unloaded] at already
          all_goals exact ⟨_, rfl⟩
        have leader : (s.flight.pc c).leads = some n := by rw [hpc]; rfl
        rw [led.sole_leader leads leader same_key, hpc] at already
        cases already
      simp only [Function.update_of_ne other, none_before]
    | hit | loaded | quiet => exact none_before
  · cases b with
    | lookup =>
      cases e with
      | quiet => exact prompt vacant
    | _ => cases lookup

/-- No key is loaded twice where no caller takes the lead after a value is stored. -/
theorem needed_of_prompt {key : Caller → Key} {run : List (Caller × BackedAction Val)}
    (h : Transition.Along (Backed.step key) (Prompt key) .cold run) :
    Transition.Along (Backed.step key) (Needed key) .cold run := by
  refine h.weaken (I := fun s => Led key s.flight ∧ Clear key s) ?_ ?_ ⟨init_led key, ?_⟩
  · intro s cb t hi prompt hs
    exact ⟨Backed.step_led hi.1 hs, hi.2.step hi.1 prompt hs⟩
  · rintro s ⟨c, b⟩ t hi _ hs
    cases Backed.step_effect hs with
    | loaded hpc => exact hi.2 c (by rw [hpc]; rfl)
    | hit | stored => trivial
    | quiet _ noLoad =>
      cases b with
      | loaded result =>
        cases result with
        | ok value => exact absurd rfl (noLoad value)
        | error _ => trivial
      | _ => trivial
  · intro c hc
    cases hc

/-- Caller 1 misses before caller 0 stores, and looks the key up after caller 0
has removed its entry. -/
def lateRun : List (Nat × BackedAction Bool) :=
  [(0, .call), (1, .call), (1, .get), (0, .get), (0, .acquire), (0, .lookup), (0, .release),
   (0, .loaded (.ok false)), (0, .store), (0, .acquire), (0, .remove), (0, .release),
   (0, .notifyWaiters), (1, .acquire), (1, .lookup), (1, .release), (1, .loaded (.ok true))]

theorem lateRun_loads_twice :
    ¬ Transition.Always (Backed.step fun _ : Nat => ()) (LoadedOnce fun _ => ()) .cold lateRun := by
  intro h
  obtain ⟨s, hs, loads⟩ : ∃ s,
      Transition.exec (Backed.step fun _ : Nat => ()) .cold lateRun = some s ∧
      s.loaded = [(1, true), (0, false)] := ⟨_, rfl, rfl⟩
  have once := (h.last hs).once ()
  rw [loads] at once
  revert once
  decide

end RustyGasket.SingleFlight
