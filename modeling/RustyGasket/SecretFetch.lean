import RustyGasket.AwsSecrets

/-!
# One semaphore, one permit and one fetch for each secret

The map's lock is what makes an upgrade, a creation and a prune see one another:
a call that found an entry dead under the write guard acts on it before anybody
can upgrade it. `Sound` is the invariant; it ties the lock, the strong counts and
the permits to where the calls are.
-/

namespace RustyGasket.AwsSecrets

variable {Caller : Type}

/-- The lock, the counts and the entries agree with what the calls hold. -/
structure Sound (key : Caller → String) (s : State Caller) : Prop where
  guards : s.lock.Guarded fun c => (s.pc c).guard
  strong : ∀ i, Tally (fun c => (s.pc c).holds) i (s.strong i)
  permits : ∀ i, i < s.next →
    s.permits i ≤ 1 ∧ Tally (fun c => (s.pc c).permit) i (1 - s.permits i)
  entry_lt : ∀ k i, s.inflight k = some i → i < s.next
  apart : ∀ k k' i, s.inflight k = some i → s.inflight k' = some i → k = k'
  held : ∀ c i, (s.pc c).holds = some i → s.inflight (key c) = some i
  unheld : ∀ c d, (s.pc c).claims = true → key d = key c → (s.pc d).holds = none

theorem init_sound (key : Caller → String) : Sound key (init : State Caller) := by
  refine ⟨RwLock.free_guarded, ?_, ?_, ?_, ?_, ?_, ?_⟩
  · intro i
    exact Tally.zero nofun
  · intro i hi
    exact absurd hi (Nat.not_lt_zero i)
  · nofun
  · nofun
  · nofun
  · nofun

theorem Sound.held_lt {key : Caller → String} {s : State Caller} (h : Sound key s) {c : Caller}
    {i : SemaphoreId} (hc : (s.pc c).holds = some i) : i < s.next :=
  h.entry_lt (key c) i (h.held c i hc)

/-- An entry that cannot be upgraded is held by nobody. -/
theorem Sound.unheld_of_dead {key : Caller → String} {s : State Caller} (h : Sound key s)
    {k : String} (dead : ∀ i, s.inflight k = some i → s.strong i = 0) {d : Caller}
    (hd : key d = k) : (s.pc d).holds = none := by
  cases holds : (s.pc d).holds with
  | none => rfl
  | some i =>
    have entry := h.held d i holds
    rw [hd] at entry
    have count := h.strong i
    rw [dead i entry] at count
    exact absurd holds (count.none d)

theorem dead_of_upgrade {s : State Caller} {k : String} (h : s.upgrade k = none)
    (i : SemaphoreId) (hi : s.inflight k = some i) : s.strong i = 0 := by
  simp only [State.upgrade, hi] at h
  split at h
  · cases h
  · omega

theorem dead_of_isDead {s : State Caller} {k : String} (h : s.isDead k = true)
    (i : SemaphoreId) (hi : s.inflight k = some i) : s.strong i = 0 := by
  simpa only [State.isDead, hi, beq_iff_eq] using h

theorem upgrade_eq_some {s : State Caller} {k : String} {i : SemaphoreId}
    (h : s.upgrade k = some i) : s.inflight k = some i := by
  unfold State.upgrade at h
  split at h
  · split at h
    · cases h
      assumption
    · cases h
  · cases h

/-- Whoever has a guard excludes the call that acts on a dead entry. -/
theorem Sound.sole_claim {key : Caller → String} {s : State Caller} (h : Sound key s)
    {c d : Caller} (guard : (s.pc c).guard ≠ none) (claims : (s.pc d).claims = true) : c = d :=
  h.guards.exclusive (Pc.claims_guard claims) guard

/-- A permit of a key's semaphore is alone. -/
theorem Sound.sole_permit {key : Caller → String} {s : State Caller} (h : Sound key s)
    {c d : Caller} {i j : SemaphoreId} (hc : (s.pc c).permit = some i)
    (hd : (s.pc d).permit = some j) (same : key c = key d) : c = d := by
  have entry := h.held c i (Pc.permit_holds hc)
  rw [same, h.held d j (Pc.permit_holds hd)] at entry
  cases entry
  obtain ⟨-, count⟩ := h.permits i (h.held_lt (Pc.permit_holds hc))
  exact count.unique (Nat.sub_le 1 _) hc hd

/-- The cache holds no entry for the key that is younger than its time to live. -/
def Stale (cacheTtl : Nat) (s : State Caller) (k : String) : Prop :=
  ∀ cached, s.cache k = some cached → cacheTtl ≤ s.clock - cached.fetchedAt

theorem stale_of_readCache {cacheTtl : Nat} {s : State Caller} {k : String}
    (h : s.readCache cacheTtl k = none) : Stale cacheTtl s k := by
  intro cached found
  simp only [State.readCache, found] at h
  split at h
  · cases h
  · omega

variable [DecidableEq Caller]

/-- After a move to a place without the claim, whoever has it had it before. -/
theorem claims_goto {s : State Caller} {c d : Caller} {pc : Pc} (claims : pc.claims = false)
    (hd : ((s.goto c pc).pc d).claims = true) : d ≠ c ∧ (s.pc d).claims = true := by
  obtain ⟨-, here⟩ | ⟨other, before⟩ := goto_cases (·.claims = true) hd
  · rw [claims] at here
    cases here
  · exact ⟨other, before⟩

/-- A move that leaves the counts and the map alone. -/
theorem Sound.move {key : Caller → String} {s t : State Caller} (h : Sound key s) {c : Caller}
    {pc : Pc} (moved : t.pc = (s.goto c pc).pc) (strong : t.strong = s.strong)
    (permits : t.permits = s.permits) (inflight : t.inflight = s.inflight)
    (next : t.next = s.next) (holds : pc.holds = (s.pc c).holds)
    (permit : pc.permit = (s.pc c).permit)
    (guards : t.lock.Guarded (Function.update (fun d => (s.pc d).guard) c pc.guard))
    (claims : pc.claims = true → ∀ d, key d = key c → (s.pc d).holds = none) : Sound key t := by
  have same_holds : ∀ d, (t.pc d).holds = (s.pc d).holds := by
    intro d
    rw [moved]
    exact congrFun (role_goto_same s c pc Pc.holds holds) d
  have same_permit : (fun d => (t.pc d).permit) = fun d => (s.pc d).permit := by
    rw [moved]
    exact role_goto_same s c pc Pc.permit permit
  refine ⟨?_, ?_, ?_, ?_, ?_, ?_, ?_⟩
  · rw [moved, role_goto s c pc Pc.guard]
    exact guards
  · intro i
    rw [strong]
    simp only [same_holds]
    exact h.strong i
  · intro i hi
    rw [next] at hi
    rw [permits, same_permit]
    exact h.permits i hi
  · rw [inflight, next]
    exact h.entry_lt
  · rw [inflight]
    exact h.apart
  · intro d i hd
    rw [inflight]
    exact h.held d i (same_holds d ▸ hd)
  · intro c' d hc hd
    rw [same_holds]
    rw [moved] at hc
    obtain ⟨rfl, here⟩ | ⟨-, before⟩ := goto_cases (·.claims = true) hc
    · exact claims here d hd
    · exact h.unheld c' d before hd

theorem Sound.upgrade {key : Caller → String} {s : State Caller} (h : Sound key s) {c : Caller}
    {pc : Pc} {sem : SemaphoreId} (empty : (s.pc c).holds = none)
    (permit : pc.permit = (s.pc c).permit) (guarded : (s.pc c).guard ≠ none)
    (entry : s.inflight (key c) = some sem) (holds : pc.holds = some sem)
    (guard : pc.guard = (s.pc c).guard) (claims : pc.claims = false) :
    Sound key ((s.goto c pc).takeStrong sem) := by
  refine ⟨?_, ?_, ?_, h.entry_lt, h.apart, ?_, ?_⟩
  · rw [show ((s.goto c pc).takeStrong sem).pc = (s.goto c pc).pc from rfl,
      role_goto_same s c pc Pc.guard guard]
    exact h.guards
  · intro i
    change Tally (fun d => ((s.goto c pc).pc d).holds) i
      (Function.update s.strong sem (s.strong sem + 1) i)
    rw [role_goto s c pc Pc.holds, holds]
    exact Tally.take h.strong empty (h.strong sem) i
  · intro i hi
    rw [show ((s.goto c pc).takeStrong sem).pc = (s.goto c pc).pc from rfl,
      role_goto_same s c pc Pc.permit permit]
    exact h.permits i hi
  · intro d i hd
    obtain ⟨rfl, here⟩ | ⟨-, before⟩ := goto_cases (·.holds = some i) hd
    · rw [holds] at here
      cases here
      exact entry
    · exact h.held d i before
  · intro c' d hc hd
    obtain ⟨other, before⟩ := claims_goto claims hc
    exact absurd (h.sole_claim guarded before).symm other

theorem Sound.create {key : Caller → String} {s : State Caller} (h : Sound key s) {c : Caller}
    (hpc : s.pc c = .vacant) : Sound key { s.goto c (.writeFound s.next) with
      inflight := Function.update s.inflight (key c) (some s.next)
      strong := Function.update s.strong s.next 1
      permits := Function.update s.permits s.next 1
      next := s.next + 1 } := by
  have unheld : ∀ d, key d = key c → (s.pc d).holds = none :=
    fun d hd => h.unheld c d (by rw [hpc]; rfl) hd
  have fresh : ∀ d, (s.pc d).holds ≠ some s.next :=
    fun d hd => Nat.lt_irrefl _ (h.held_lt hd)
  have old : ∀ {k i}, s.inflight k = some i → i ≠ s.next :=
    fun hi => Nat.ne_of_lt (h.entry_lt _ _ hi)
  refine ⟨?_, ?_, ?_, ?_, ?_, ?_, ?_⟩
  · have guards := h.guards
    rw [← role_goto_same s c (.writeFound s.next) Pc.guard (by rw [hpc]; rfl)] at guards
    exact guards
  · intro i
    change Tally (fun d => ((s.goto c _).pc d).holds) i (Function.update s.strong s.next 1 i)
    rw [role_goto s c _ Pc.holds]
    exact Tally.take h.strong (by rw [hpc]; rfl) (Tally.zero fresh) i
  · intro i hi
    have permit := role_goto_same s c (.writeFound s.next) Pc.permit (by rw [hpc]; rfl)
    change Function.update s.permits s.next 1 i ≤ 1 ∧
      Tally (fun d => ((s.goto c _).pc d).permit) i (1 - Function.update s.permits s.next 1 i)
    rw [permit]
    by_cases same : i = s.next
    · rw [same, Function.update_self]
      exact ⟨Nat.le_refl 1, Tally.zero fun d hd => fresh d (Pc.permit_holds hd)⟩
    · rw [Function.update_of_ne same]
      exact h.permits i (Nat.lt_of_le_of_ne (Nat.le_of_lt_succ hi) same)
  · intro k i hk
    change i < s.next + 1
    obtain ⟨-, new⟩ | ⟨-, before⟩ := Transition.update_cases (· = some i) hk
    · cases new
      exact Nat.lt_succ_self _
    · exact Nat.lt_succ_of_lt (h.entry_lt k i before)
  · intro k k' i hk hk'
    obtain ⟨rfl, new⟩ | ⟨-, before⟩ := Transition.update_cases (· = some i) hk
    · obtain ⟨rfl, -⟩ | ⟨-, before'⟩ := Transition.update_cases (· = some i) hk'
      · rfl
      · exact absurd (Option.some.inj new).symm (old before')
    · obtain ⟨-, new'⟩ | ⟨-, before'⟩ := Transition.update_cases (· = some i) hk'
      · exact absurd (Option.some.inj new').symm (old before)
      · exact h.apart k k' i before before'
  · intro d i hd
    change Function.update s.inflight (key c) (some s.next) (key d) = some i
    obtain ⟨rfl, here⟩ | ⟨-, before⟩ := goto_cases (·.holds = some i) hd
    · rw [Function.update_self]
      exact here
    · have apart : key d ≠ key c := by
        intro same_key
        rw [unheld d same_key] at before
        cases before
      rw [Function.update_of_ne apart]
      exact h.held d i before
  · intro c' d hc hd
    obtain ⟨other, before⟩ := claims_goto rfl hc
    exact absurd (h.sole_claim (by rw [hpc]; nofun) before).symm other

/-- The permit changes hands; what the calls hold stays. -/
theorem Sound.regrant {key : Caller → String} {s : State Caller} (h : Sound key s) {c : Caller}
    {pc : Pc} {permits : SemaphoreId → Nat} (holds : pc.holds = (s.pc c).holds)
    (guard : pc.guard = (s.pc c).guard) (claims : pc.claims = false)
    (counts : ∀ i, i < s.next → permits i ≤ 1 ∧
      Tally (Function.update (fun d => (s.pc d).permit) c pc.permit) i (1 - permits i)) :
    Sound key { s.goto c pc with permits := permits } := by
  have same_holds : ∀ d, ((s.goto c pc).pc d).holds = (s.pc d).holds :=
    fun d => congrFun (role_goto_same s c pc Pc.holds holds) d
  refine ⟨?_, ?_, ?_, h.entry_lt, h.apart, ?_, ?_⟩
  · have guards := h.guards
    rw [← role_goto_same s c pc Pc.guard guard] at guards
    exact guards
  · intro i
    change Tally (fun d => ((s.goto c pc).pc d).holds) i (s.strong i)
    simp only [same_holds]
    exact h.strong i
  · intro i hi
    change permits i ≤ 1 ∧ Tally (fun d => ((s.goto c pc).pc d).permit) i (1 - permits i)
    rw [role_goto s c pc Pc.permit]
    exact counts i hi
  · intro d i hd
    exact h.held d i ((same_holds d).symm.trans hd)
  · intro c' d hc hd
    change ((s.goto c pc).pc d).holds = none
    rw [same_holds]
    exact h.unheld c' d (claims_goto claims hc).2 hd

theorem Sound.acquire {key : Caller → String} {s : State Caller} (h : Sound key s) {c : Caller}
    {sem : SemaphoreId} (hpc : s.pc c = .acquire sem) (free : 0 < s.permits sem) :
    Sound key { s.goto c (.recheck sem) with
      permits := Function.update s.permits sem (s.permits sem - 1) } := by
  apply h.regrant (by rw [hpc]; rfl) (by rw [hpc]; rfl) rfl
  intro i hi
  obtain ⟨few, count⟩ := h.permits i hi
  have before : (fun d => (s.pc d).permit) c ≠ some i := by
    simp only [hpc]
    nofun
  by_cases same : i = sem
  · subst same
    rw [Function.update_self]
    have one : s.permits i = 1 := by omega
    rw [one] at count ⊢
    exact ⟨Nat.zero_le 1, count.enter before⟩
  · rw [Function.update_of_ne same]
    refine ⟨few, count.other before ?_⟩
    intro other
    exact same (Option.some.inj other).symm

theorem Sound.releasePermit {key : Caller → String} {s : State Caller} (h : Sound key s)
    {c : Caller} {sem : SemaphoreId} {exit : Exit} (hpc : s.pc c = .leave sem true exit) :
    Sound key { s.goto c (.leave sem false exit) with
      permits := Function.update s.permits sem (s.permits sem + 1) } := by
  apply h.regrant (by rw [hpc]; rfl) (by rw [hpc]; rfl) rfl
  intro i hi
  obtain ⟨few, count⟩ := h.permits i hi
  by_cases same : i = sem
  · subst same
    have before : (fun d => (s.pc d).permit) c = some i := by
      simp only [hpc]
      rfl
    have taken : s.permits i = 0 := by
      have some_hold := count.pos before
      omega
    rw [Function.update_self]
    rw [taken] at count ⊢
    exact ⟨Nat.le_refl 1, count.leave before nofun⟩
  · have before : (fun d => (s.pc d).permit) c ≠ some i := by
      simp only [hpc]
      intro other
      exact same (Option.some.inj other).symm
    rw [Function.update_of_ne same]
    exact ⟨few, count.other before nofun⟩

theorem Sound.dropSemaphore {key : Caller → String} {s : State Caller} (h : Sound key s)
    {c : Caller} {sem : SemaphoreId} {exit : Exit} (hpc : s.pc c = .leave sem false exit) :
    Sound key { s.goto c exit.next with
      strong := Function.update s.strong sem (s.strong sem - 1) } := by
  have empty : exit.next.holds = none := by cases exit <;> rfl
  have shrinks : ∀ d, ((s.goto c exit.next).pc d).holds = none ∨
      ((s.goto c exit.next).pc d).holds = (s.pc d).holds := by
    intro d
    by_cases same : d = c
    · rw [same, goto_pc_self]
      exact .inl empty
    · rw [goto_pc_of_ne same]
      exact .inr rfl
  refine ⟨?_, ?_, ?_, h.entry_lt, h.apart, ?_, ?_⟩
  · have guards := h.guards
    rw [← role_goto_same s c exit.next Pc.guard (by rw [hpc]; cases exit <;> rfl)] at guards
    exact guards
  · intro i
    change Tally (fun d => ((s.goto c exit.next).pc d).holds) i
      (Function.update s.strong sem (s.strong sem - 1) i)
    rw [role_goto s c exit.next Pc.holds, empty]
    exact Tally.release h.strong (by rw [hpc]; rfl) i
  · intro i hi
    change s.permits i ≤ 1 ∧ Tally (fun d => ((s.goto c exit.next).pc d).permit) i (1 - s.permits i)
    rw [role_goto_same s c exit.next Pc.permit (by rw [hpc]; cases exit <;> rfl)]
    exact h.permits i hi
  · intro d i hd
    obtain none_held | same := shrinks d
    · change ((s.goto c exit.next).pc d).holds = some i at hd
      rw [none_held] at hd
      cases hd
    · exact h.held d i (same.symm.trans hd)
  · intro c' d hc hd
    have unclaimed : exit.next.claims = false := by cases exit <;> rfl
    obtain none_held | same := shrinks d
    · exact none_held
    · exact same.trans (h.unheld c' d (claims_goto unclaimed hc).2 hd)

theorem Sound.remove {key : Caller → String} {s : State Caller} (h : Sound key s) {c : Caller}
    {outcome : Outcome} (hpc : s.pc c = .counted outcome true) :
    Sound key { s.goto c (.pruned outcome) with
      inflight := Function.update s.inflight (key c) none } := by
  have same_holds : ∀ d, ((s.goto c (.pruned outcome)).pc d).holds = (s.pc d).holds :=
    fun d => congrFun (role_goto_same s c (.pruned outcome) Pc.holds (by rw [hpc]; rfl)) d
  have unheld : ∀ d, key d = key c → (s.pc d).holds = none :=
    fun d hd => h.unheld c d (by rw [hpc]; rfl) hd
  have kept : ∀ {k i}, Function.update s.inflight (key c) none k = some i →
      s.inflight k = some i := by
    intro k i hk
    obtain ⟨-, gone⟩ | ⟨-, before⟩ := Transition.update_cases (· = some i) hk
    · cases gone
    · exact before
  refine ⟨?_, ?_, ?_, ?_, ?_, ?_, ?_⟩
  · have guards := h.guards
    rw [← role_goto_same s c (.pruned outcome) Pc.guard (by rw [hpc]; rfl)] at guards
    exact guards
  · intro i
    change Tally (fun d => ((s.goto c (.pruned outcome)).pc d).holds) i (s.strong i)
    simp only [same_holds]
    exact h.strong i
  · intro i hi
    have permit := role_goto_same s c (.pruned outcome) Pc.permit (by rw [hpc]; rfl)
    change s.permits i ≤ 1 ∧
      Tally (fun d => ((s.goto c (.pruned outcome)).pc d).permit) i (1 - s.permits i)
    rw [permit]
    exact h.permits i hi
  · intro k i hk
    exact h.entry_lt k i (kept hk)
  · intro k k' i hk hk'
    exact h.apart k k' i (kept hk) (kept hk')
  · intro d i hd
    have holds : (s.pc d).holds = some i := (same_holds d).symm.trans hd
    have apart : key d ≠ key c := by
      intro same_key
      rw [unheld d same_key] at holds
      cases holds
    change Function.update s.inflight (key c) none (key d) = some i
    rw [Function.update_of_ne apart]
    exact h.held d i holds
  · intro c' d hc hd
    change ((s.goto c (.pruned outcome)).pc d).holds = none
    rw [same_holds]
    exact h.unheld c' d (claims_goto rfl hc).2 hd

theorem Sound.act {key : Caller → String} {cacheTtl : Nat} {s t : State Caller}
    (h : Sound key s) {c : Caller} {a : Action} (e : Effect key cacheTtl s c a t) :
    Sound key t := by
  have unclaimed : ∀ {pc : Pc}, pc.claims = false →
      pc.claims = true → ∀ d, key d = key c → (s.pc d).holds = none := by
    intro pc hf ht
    rw [hf] at ht
    cases ht
  have same_guard : ∀ {pc : Pc}, pc.guard = (s.pc c).guard →
      s.lock.Guarded (Function.update (fun d => (s.pc d).guard) c pc.guard) := by
    intro pc same
    rw [same, Function.update_eq_self]
    exact h.guards
  cases e with
  | move keeps guard =>
    exact h.move rfl rfl rfl rfl rfl keeps.holds keeps.permit (same_guard guard)
      (unclaimed keeps.claims)
  | miss hpc _ =>
    exact h.move rfl rfl rfl rfl rfl (by rw [hpc]; rfl) (by rw [hpc]; rfl)
      (same_guard (by rw [hpc]; rfl)) (unclaimed rfl)
  | abandon hpc =>
    exact h.move rfl rfl rfl rfl rfl (by rw [hpc]; rfl) (by rw [hpc]; rfl)
      (same_guard (by rw [hpc]; rfl)) (unclaimed rfl)
  | readLock keeps idle reads taken =>
    refine h.move rfl rfl rfl rfl rfl keeps.holds keeps.permit ?_ (unclaimed keeps.claims)
    rw [reads]
    exact h.guards.acquireRead idle taken
  | writeLock keeps writes taken =>
    refine h.move rfl rfl rfl rfl rfl keeps.holds keeps.permit ?_ (unclaimed keeps.claims)
    rw [writes]
    exact h.guards.acquireWrite taken
  | readUnlock keeps reads idle =>
    refine h.move rfl rfl rfl rfl rfl keeps.holds keeps.permit ?_ (unclaimed keeps.claims)
    rw [idle]
    exact h.guards.releaseRead reads
  | writeUnlock keeps writes idle =>
    refine h.move rfl rfl rfl rfl rfl keeps.holds keeps.permit ?_ (unclaimed keeps.claims)
    rw [idle]
    exact h.guards.releaseWrite writes
  | upgrade empty permit guarded found holds permit' guard claims _ =>
    exact h.upgrade empty (permit'.trans permit.symm) guarded (upgrade_eq_some found) holds guard
      claims
  | vacate hpc gone =>
    refine h.move rfl rfl rfl rfl rfl (by rw [hpc]; rfl) (by rw [hpc]; rfl)
      (same_guard (by rw [hpc]; rfl)) ?_
    intro _ d hd
    exact h.unheld_of_dead (dead_of_upgrade gone) hd
  | create hpc => exact h.create hpc
  | acquire hpc free => exact h.acquire hpc free
  | insert hpc =>
    exact h.move rfl rfl rfl rfl rfl (by rw [hpc]; rfl) (by rw [hpc]; rfl)
      (same_guard (by rw [hpc]; rfl)) (unclaimed rfl)
  | releasePermit hpc => exact h.releasePermit hpc
  | dropSemaphore hpc => exact h.dropSemaphore hpc
  | count hpc =>
    refine h.move rfl rfl rfl rfl rfl (by rw [hpc]; rfl) (by rw [hpc]; rfl)
      (same_guard (by rw [hpc]; rfl)) ?_
    intro claims d hd
    cases dead : s.isDead (key c) with
    | true => exact h.unheld_of_dead (dead_of_isDead dead) hd
    | false =>
      rw [dead] at claims
      cases claims
  | remove hpc => exact h.remove hpc

theorem Sound.step {key : Caller → String} {cacheTtl : Nat} {s t : State Caller}
    (h : Sound key s) {label : Label Caller} (hs : step key cacheTtl s label = some t) :
    Sound key t := by
  cases label with
  | tick elapsed =>
    cases hs
    exact ⟨h.guards, h.strong, h.permits, h.entry_lt, h.apart, h.held, h.unheld⟩
  | act c a => exact h.act (act_effect hs)

/-! ## What is fetched -/

/-- Every strong reference for a key is to the semaphore its entry points to, and
no two calls fetch one key at a time. -/
structure FetchExclusion (key : Caller → String) (s : State Caller) : Prop where
  one_semaphore : ∀ c sem, (s.pc c).holds = some sem → s.inflight (key c) = some sem
  one_fetch : ∀ c d sem sem', s.pc c = .fetching sem → s.pc d = .fetching sem' →
    key c = key d → c = d

/-- A request is sent only for a key whose cached value is stale or absent. -/
def StartsStale (key : Caller → String) (cacheTtl : Nat) (s : State Caller) :
    Label Caller → Prop
  | .act c .send => Stale cacheTtl s (key c)
  | _ => True

/-- Whoever is about to send has just found the cache stale, and it still is. -/
def SendsStale (key : Caller → String) (cacheTtl : Nat) (s : State Caller) : Prop :=
  ∀ c sem, s.pc c = .missed sem → Stale cacheTtl s (key c)

/-- Only the second look at the cache leads to a request. -/
theorem missed_act {key : Caller → String} {cacheTtl : Nat} {s t : State Caller} {c d : Caller}
    {a : Action} {sem : SemaphoreId} (e : Effect key cacheTtl s c a t)
    (hd : t.pc d = .missed sem) :
    s.pc d = .missed sem ∨ (d = c ∧ s.readCache cacheTtl (key c) = none) := by
  have settled : ∀ {pc : Pc}, pc.isMissed = false → t.pc = (s.goto c pc).pc →
      s.pc d = .missed sem := by
    intro pc other moved
    rw [moved] at hd
    obtain ⟨-, here⟩ | ⟨-, before⟩ := goto_cases (· = .missed sem) hd
    · rw [here] at other
      cases other
    · exact before
  cases e with
  | move keeps _ => exact .inl (settled keeps.missed rfl)
  | miss hpc stale =>
    obtain ⟨same, -⟩ | ⟨-, before⟩ := goto_cases (· = .missed sem) hd
    · exact .inr ⟨same, stale⟩
    · exact .inl before
  | readLock keeps _ _ _ => exact .inl (settled keeps.missed rfl)
  | writeLock keeps _ _ => exact .inl (settled keeps.missed rfl)
  | readUnlock keeps _ _ => exact .inl (settled keeps.missed rfl)
  | writeUnlock keeps _ _ => exact .inl (settled keeps.missed rfl)
  | upgrade _ _ _ _ _ _ _ _ missed => exact .inl (settled missed rfl)
  | dropSemaphore =>
    rename_i sem' exit hpc
    exact .inl (settled (by cases exit <;> rfl) rfl)
  | abandon | vacate | create | acquire | insert | releasePermit | count | remove =>
    exact .inl (settled rfl rfl)

theorem SendsStale.step {key : Caller → String} {cacheTtl : Nat} {s t : State Caller}
    (h : SendsStale key cacheTtl s) (sound : Sound key s) {label : Label Caller}
    (hs : step key cacheTtl s label = some t) : SendsStale key cacheTtl t := by
  intro d sem hd
  cases label with
  | tick elapsed =>
    cases hs
    intro cached found
    exact Nat.le_trans (h d sem hd cached found) (Nat.sub_le_sub_right (Nat.le_add_right ..) _)
  | act c a =>
    have e := act_effect hs
    have before : Stale cacheTtl s (key d) := by
      obtain missed | ⟨rfl, stale⟩ := missed_act e hd
      · exact h d sem missed
      · exact stale_of_readCache stale
    cases e with
    | insert hpc =>
      have apart : key d ≠ key c := by
        intro same
        have missed : s.pc d = .missed sem := by
          obtain ⟨-, here⟩ | ⟨-, before⟩ := goto_cases (· = .missed sem) hd
          · cases here
          · exact before
        have alone : d = c :=
          sound.sole_permit (by rw [missed]; rfl) (by rw [hpc]; rfl) same
        rw [alone, hpc] at missed
        cases missed
      intro cached found
      change Function.update s.cache (key c) _ (key d) = some cached at found
      rw [Function.update_of_ne apart] at found
      exact before cached found
    | _ => exact before

/-- **Fetches exclude one another.** In every run of any calls on any keys, with any
answers and cancellations: all strong references for a key are to the semaphore of
its entry, at most one request for a key is under way, and none is sent while the
cache has a fresh value. -/
theorem fetches_exclusive (key : Caller → String) (cacheTtl : Nat) (run : List (Label Caller)) :
    Transition.Always (step key cacheTtl) (FetchExclusion key) init run ∧
      Transition.Along (step key cacheTtl) (StartsStale key cacheTtl) init run := by
  have sends : SendsStale key cacheTtl (init : State Caller) := nofun
  constructor
  · have sound : Transition.Always (step key cacheTtl) (Sound key) init run :=
      Transition.always_of_preserved (fun _ _ _ h hs => h.step hs) (init_sound key) run
    refine sound.mono fun s h => ⟨h.held, ?_⟩
    intro c d sem sem' hc hd same
    exact h.sole_permit (by rw [hc]; rfl) (by rw [hd]; rfl) same
  · refine Transition.along_of_invariant (I := fun s => Sound key s ∧ SendsStale key cacheTtl s)
      (fun _ _ _ h hs => ⟨h.1.step hs, h.2.step h.1 hs⟩) ?_ ⟨init_sound key, sends⟩ run
    rintro s (_ | ⟨c, a⟩) t h hs
    · trivial
    · cases a with
      | send =>
        cases hpc : s.pc c <;> simp [step, act, hpc] at hs
        exact h.2 c _ hpc
      | _ => trivial

end RustyGasket.AwsSecrets
