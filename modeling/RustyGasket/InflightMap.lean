import RustyGasket.SecretFetch

/-!
# Which entries of the in-flight map go away

`prune_inflight` runs at the end of a call that went through a fetch. A call that
finds the cache filled under its permit, or that is dropped, lets its semaphore go
without it, and leaves a dead entry when it was the last to hold one.
-/

namespace RustyGasket.AwsSecrets

variable {Caller : Type}

/-- A key nobody is calling for has no entry, so the map is no larger than the set
of keys with a call in progress. -/
structure Evicted (key : Caller → String) (s : State Caller) : Prop where
  clean : ∀ k, (∀ c, key c = k → (s.pc c).inProgress = false) → s.inflight k = none
  bounded : Set.encard {k | ∃ sem, s.inflight k = some sem} ≤
    Set.encard {k | ∃ c, key c = k ∧ (s.pc c).inProgress = true}

/-- Every entry has a call of its key that holds its semaphore or is to prune it. -/
def Attended (key : Caller → String) (s : State Caller) : Prop :=
  ∀ k sem, s.inflight k = some sem → ∃ c, key c = k ∧ (s.pc c).attends = true

/-- A call that lets go of the semaphore on a way that does not prune, or is dropped
while it waits to prune, leaves another call that attends the key. -/
def Handed (key : Caller → String) (s : State Caller) : Label Caller → Prop
  | .act c .dropSemaphore => match s.pc c with
    | .leave _ false (.prune _) => True
    | _ => ∃ d, d ≠ c ∧ key d = key c ∧ (s.pc d).attends = true
  | .act c .drop => match s.pc c with
    | .prune _ => s.inflight (key c) = none ∨ ∃ d, d ≠ c ∧ key d = key c ∧ (s.pc d).attends = true
    | _ => True
  | _ => True

theorem Attended.evicted {key : Caller → String} {s : State Caller} (h : Attended key s) :
    Evicted key s := by
  have busy : ∀ k sem, s.inflight k = some sem → ∃ c, key c = k ∧ (s.pc c).inProgress = true := by
    intro k sem hk
    obtain ⟨c, hc, attends⟩ := h k sem hk
    exact ⟨c, hc, Pc.attends_inProgress attends⟩
  constructor
  · intro k quiet
    cases entry : s.inflight k with
    | none => rfl
    | some sem =>
      obtain ⟨c, hc, progress⟩ := busy k sem entry
      rw [quiet c hc] at progress
      cases progress
  · apply Set.encard_le_encard
    rintro k ⟨sem, hk⟩
    exact busy k sem hk

theorem init_attended (key : Caller → String) : Attended key (init : State Caller) := nofun

/-- A step that keeps the entries and every attending call. -/
theorem Attended.keep {key : Caller → String} {s t : State Caller} (h : Attended key s)
    (inflight : ∀ k sem, t.inflight k = some sem → ∃ sem', s.inflight k = some sem')
    (attends : ∀ d, (s.pc d).attends = true → (t.pc d).attends = true) : Attended key t := by
  intro k sem hk
  obtain ⟨sem', hk'⟩ := inflight k sem hk
  obtain ⟨c, hc, attending⟩ := h k sem' hk'
  exact ⟨c, hc, attends c attending⟩

variable [DecidableEq Caller]

/-- A caller that moves and attends no less. -/
theorem attends_goto {s : State Caller} {c : Caller} {pc : Pc}
    (keeps : (s.pc c).attends = true → pc.attends = true) (d : Caller)
    (h : (s.pc d).attends = true) : ((s.goto c pc).pc d).attends = true := by
  by_cases same : d = c
  · rw [same, goto_pc_self]
    exact keeps (same ▸ h)
  · rw [goto_pc_of_ne same]
    exact h

/-- A caller that moves leaves the others as they are. -/
theorem attends_other {s : State Caller} {c d : Caller} {pc : Pc} (other : d ≠ c)
    (h : (s.pc d).attends = true) : ((s.goto c pc).pc d).attends = true := by
  rw [goto_pc_of_ne other]
  exact h

/-- A call that stops attending, when another one of its key goes on. -/
theorem Attended.hand {key : Caller → String} {s t : State Caller} (h : Attended key s)
    {c : Caller} {pc : Pc} (moved : t.pc = (s.goto c pc).pc) (inflight : t.inflight = s.inflight)
    (handed : s.inflight (key c) = none ∨
      ∃ d, d ≠ c ∧ key d = key c ∧ (s.pc d).attends = true) : Attended key t := by
  intro k sem hk
  rw [inflight] at hk
  simp only [moved]
  obtain ⟨e, he, attends⟩ := h k sem hk
  by_cases same : e = c
  · subst same
    obtain gone | ⟨d, other, hd, attending⟩ := handed
    · rw [he, hk] at gone
      cases gone
    · exact ⟨d, hd.trans he, attends_other other attending⟩
  · exact ⟨e, he, attends_other same attends⟩

theorem Attended.act {key : Caller → String} {cacheTtl : Nat} {s t : State Caller}
    (h : Attended key s) (sound : Sound key s) {c : Caller} {a : Action}
    (handed : Handed key s (.act c a)) (e : Effect key cacheTtl s c a t) : Attended key t := by
  have same_entries : ∀ {t : State Caller}, t.inflight = s.inflight →
      ∀ k sem, t.inflight k = some sem → ∃ sem', s.inflight k = some sem' := by
    intro t same k sem hk
    exact ⟨sem, by rw [← same, hk]⟩
  cases e with
  | move keeps _ =>
    exact h.keep (same_entries rfl) (attends_goto fun ha => by rw [keeps.attends, ha])
  | readLock keeps _ _ _ | writeLock keeps _ _ | readUnlock keeps _ _ | writeUnlock keeps _ _ =>
    exact h.keep (same_entries rfl) (attends_goto fun ha => by rw [keeps.attends, ha])
  | miss hpc _ => exact h.keep (same_entries rfl) (attends_goto fun _ => rfl)
  | abandon hpc =>
    simp only [Handed, hpc] at handed
    exact h.hand rfl rfl handed
  | upgrade _ _ _ _ holds _ _ _ _ =>
    exact h.keep (same_entries rfl) (attends_goto fun _ => Pc.attends_of_holds holds)
  | vacate hpc _ =>
    refine h.keep (same_entries rfl) (attends_goto ?_)
    rw [hpc]
    nofun
  | create hpc =>
    intro k sem hk
    obtain ⟨rfl, -⟩ | ⟨-, before⟩ := Transition.update_cases (· = some sem) hk
    · exact ⟨c, rfl, congrArg Pc.attends (goto_pc_self s c _)⟩
    · obtain ⟨d, hd, attends⟩ := h k sem before
      exact ⟨d, hd, attends_goto (fun _ => rfl) d attends⟩
  | acquire hpc _ => exact h.keep (same_entries rfl) (attends_goto fun _ => rfl)
  | insert hpc => exact h.keep (same_entries rfl) (attends_goto fun _ => rfl)
  | releasePermit hpc => exact h.keep (same_entries rfl) (attends_goto fun _ => rfl)
  | dropSemaphore hpc =>
    rename_i sem exit
    cases exit with
    | prune outcome => exact h.keep (same_entries rfl) (attends_goto fun _ => rfl)
    | finish outcome | cancel =>
      simp only [Handed, hpc] at handed
      exact h.hand rfl rfl (.inr handed)
  | count hpc =>
    rename_i outcome
    cases dead : s.isDead (key c) with
    | true => exact h.keep (same_entries rfl) (attends_goto fun _ => rfl)
    | false =>
      apply h.hand rfl rfl
      -- a strong count above zero is some other call's
      cases entry : s.inflight (key c) with
      | none => exact .inl rfl
      | some i =>
        right
        simp only [State.isDead, entry, beq_eq_false_iff_ne] at dead
        obtain ⟨d, holds⟩ : ∃ d, (s.pc d).holds = some i := by
          by_contra none_holds
          simp only [not_exists] at none_holds
          have none_counted : Tally (fun d => (s.pc d).holds) i 0 := Tally.zero none_holds
          exact dead ((sound.strong i).eq none_counted)
        have entry' := sound.held d i holds
        refine ⟨d, ?_, sound.apart _ _ i entry' entry, Pc.attends_of_holds holds⟩
        rintro rfl
        rw [hpc] at holds
        cases holds
  | remove hpc =>
    intro k sem hk
    obtain ⟨-, gone⟩ | ⟨apart, before⟩ := Transition.update_cases (· = some sem) hk
    · cases gone
    · obtain ⟨d, hd, attends⟩ := h k sem before
      have other : d ≠ c := by
        rintro rfl
        exact apart hd.symm
      exact ⟨d, hd, attends_other other attends⟩

theorem Attended.step {key : Caller → String} {cacheTtl : Nat} {s t : State Caller}
    (h : Attended key s) (sound : Sound key s) {label : Label Caller} (handed : Handed key s label)
    (hs : step key cacheTtl s label = some t) : Attended key t := by
  cases label with
  | tick elapsed =>
    cases hs
    exact h
  | act c a => exact h.act sound handed (act_effect hs)

/-- What a call leaves that goes without handing its entry on: a dead entry. -/
theorem unhanded_breaks {key : Caller → String} {cacheTtl : Nat} {s t : State Caller}
    (sound : Sound key s) {label : Label Caller} (unhanded : ¬ Handed key s label)
    (hs : step key cacheTtl s label = some t) : ¬ Attended key t := by
  cases label with
  | tick elapsed => exact absurd trivial unhanded
  | act c a =>
    intro h
    -- the only call that could attend the entry afterwards is one that did before
    have refute : ∀ (pc : Pc) {sem}, pc.attends = false → t.pc = (s.goto c pc).pc →
        t.inflight (key c) = some sem →
        (¬ ∃ d, d ≠ c ∧ key d = key c ∧ (s.pc d).attends = true) → False := by
      intro pc sem gone moved entry alone
      obtain ⟨d, hd, attends⟩ := h (key c) sem entry
      rw [moved] at attends
      obtain ⟨-, here⟩ | ⟨other, before⟩ := goto_cases (·.attends = true) attends
      · rw [gone] at here
        cases here
      · exact alone ⟨d, other, hd, before⟩
    cases a with
    | dropSemaphore =>
      simp only [step, act] at hs
      split at hs <;> cases hs
      rename_i sem exit hpc
      have entry := sound.held c sem (by rw [hpc]; rfl)
      simp only [Handed, hpc] at unhanded
      cases exit with
      | prune outcome => exact unhanded trivial
      | finish outcome => exact refute (.done outcome) rfl rfl entry unhanded
      | cancel => exact refute .dropped rfl rfl entry unhanded
    | drop =>
      cases hpc : s.pc c <;> simp [Handed, hpc] at unhanded
      simp only [step, act, hpc, Pc.cancelled, Option.map_some, Option.some.injEq] at hs
      obtain ⟨present, alone⟩ := unhanded
      obtain ⟨sem, entry⟩ := Option.ne_none_iff_exists'.mp present
      subst hs
      apply refute .dropped rfl rfl entry
      rintro ⟨d, other, hd, attends⟩
      exact absurd attends (by simpa using alone d other hd)
    | _ => exact unhanded trivial

/-- **The in-flight map sheds its entries, exactly.** In every run in which each
call that goes without pruning leaves another that attends its key, a key nobody is
calling for has no entry. Any other run reaches a state with an entry that nobody
holds and nobody is to prune. -/
theorem inflight_evicted (key : Caller → String) (cacheTtl : Nat) (run : List (Label Caller)) :
    (Transition.Along (step key cacheTtl) (Handed key) init run →
      Transition.Always (step key cacheTtl) (Evicted key) init run) ∧
    (Transition.Always (step key cacheTtl) (Attended key) init run ↔
      Transition.Along (step key cacheTtl) (Handed key) init run) := by
  have attended : Transition.Along (step key cacheTtl) (Handed key) init run →
      Transition.Always (step key cacheTtl) (Attended key) init run := by
    intro h
    have inv := h.always (P := fun s => Sound key s ∧ Attended key s)
      (fun _ _ _ hi handed hs => ⟨hi.1.step hs, hi.2.step hi.1 handed hs⟩)
      ⟨init_sound key, init_attended key⟩
    exact inv.mono fun s hi => hi.2
  refine ⟨?_, ?_, attended⟩
  · intro h
    exact (attended h).mono fun s hs => hs.evicted
  · intro h
    exact h.along (I := Sound key) (fun _ _ _ sound _ hs => sound.step hs)
      (fun _ _ _ sound unhanded hs => unhanded_breaks sound unhanded hs) (init_sound key)

/-- A call with nobody else about, which misses and fetches. -/
def missRun (c : Nat) : List (Label Nat) :=
  [.act c .call, .act c .readCache, .act c .acquireRead, .act c .upgrade, .act c .releaseRead,
   .act c .acquireWrite, .act c .upgrade, .act c .create, .act c .releaseWrite, .act c .acquire,
   .act c .readCache, .act c .send]

/-- The rest of a call that was answered, from its permit on. -/
def pruneRun (c : Nat) : List (Label Nat) :=
  [.act c .dropSemaphore, .act c .acquireWrite, .act c .countStrong, .act c .remove,
   .act c .releaseWrite]

/-- Caller 1 waits for the permit while caller 0 fetches, and finds the cache filled:
it drops the last reference after caller 0 has looked at the count. -/
def secondCheckRun : List (Label Nat) :=
  missRun 0 ++
  [.act 1 .call, .act 1 .readCache, .act 1 .acquireRead, .act 1 .upgrade, .act 1 .releaseRead,
   .act 0 (.respond (.secret (some "hunter2"))), .act 0 .insert, .act 0 .releasePermit] ++
  pruneRun 0 ++
  [.act 1 .acquire, .act 1 .readCache, .act 1 .releasePermit, .act 1 .dropSemaphore]

theorem secondCheckRun_leaks :
    ¬ Transition.Always (step (fun _ => "db") 300) (Evicted fun _ => "db") init secondCheckRun := by
  intro h
  obtain ⟨s, hs, entry, ended⟩ : ∃ s,
      Transition.exec (step (fun _ => "db") 300) init secondCheckRun = some s ∧
      s.inflight "db" = some 0 ∧ ∀ c, (s.pc c).inProgress = false := by
    refine ⟨_, rfl, rfl, fun c => ?_⟩
    by_cases first : c = 0
    · subst first; rfl
    · by_cases second : c = 1
      · subst second; rfl
      · simp only [State.goto, State.takeStrong, Function.update_of_ne first,
          Function.update_of_ne second]
        rfl
  have gone := (h.last hs).clean "db" fun c _ => ended c
  rw [entry] at gone
  cases gone

end RustyGasket.AwsSecrets
