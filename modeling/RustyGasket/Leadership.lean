import Mathlib.Tactic.CasesM
import RustyGasket.Orphan

/-!
# Who leads each key, and what one key can see of another

The map and its lock are shared by all keys. A key sees of the others only which
identities they have used up: `Seen` relates a run to the part of it that the
callers of one key take, up to the names of the `Notify`s.
-/

namespace RustyGasket.SingleFlight

variable {Caller Key Val : Type}

namespace Pc

def inProgress : Pc Val → Bool
  | idle | done _ | dropped => false
  | _ => true

def rename (f : NotifyId → NotifyId) : Pc Val → Pc Val
  | idle => idle
  | get => get
  | lock => lock
  | locked => locked
  | cloned n => cloned (f n)
  | inserted n => inserted (f n)
  | follow n => follow (f n)
  | wait n woken => wait (f n) woken
  | load n => load (f n)
  | store n value => store (f n) value
  | finish n result => finish (f n) result
  | finishLocked n result => finishLocked (f n) result
  | removed m result => removed (m.map f) result
  | notify m result => notify (m.map f) result
  | done result => done result
  | dropped => dropped

/-- The identities a caller holds. -/
def refers (pc : Pc Val) (n : NotifyId) : Prop :=
  pc.follows = some n ∨ pc.leads = some n ∨ pc.pending = some n

theorem leads_inProgress {pc : Pc Val} {n : NotifyId} (h : pc.leads = some n) :
    pc.inProgress = true := by
  cases pc <;> first | rfl | cases h

theorem awaits_rename (f : NotifyId → NotifyId) (pc : Pc Val) :
    (pc.rename f).awaits = pc.awaits := by
  cases pc <;> rfl

theorem rename_congr {f g : NotifyId → NotifyId} {pc : Pc Val}
    (h : ∀ n, pc.refers n → f n = g n) : pc.rename f = pc.rename g := by
  have options : ∀ m : Option NotifyId, (∀ n, m = some n → f n = g n) → m.map f = m.map g := by
    intro m hm
    cases m with
    | none => rfl
    | some n => exact congrArg some (hm n rfl)
  cases pc with
  | cloned n | follow n | wait n _ => simp only [rename, h n (.inl rfl)]
  | inserted n | load n | store n _ | finish n _ | finishLocked n _ =>
    simp only [rename, h n (.inr (.inl rfl))]
  | removed m _ | notify m _ =>
    simp only [rename, options m fun n hn => h n (.inr (.inr hn))]
  | _ => rfl

/-- Waking commutes with a renaming that keeps the woken identity apart. -/
theorem wake_rename {f : NotifyId → NotifyId} {m : NotifyId} {pc : Pc Val}
    (h : ∀ n, pc.refers n → f n = f m → n = m) :
    (pc.rename f).wake (f m) = (pc.wake m).rename f := by
  cases pc with
  | wait n woken =>
    have same : (f n == f m) = (n == m) := by
      rw [Bool.eq_iff_iff, beq_iff_eq, beq_iff_eq]
      exact ⟨h n (.inl rfl), congrArg f⟩
    simp only [rename, wake, same]
  | _ => rfl

theorem wake_of_apart {m : NotifyId} {pc : Pc Val} (h : ¬ pc.refers m) : pc.wake m = pc := by
  cases pc with
  | wait n woken =>
    have other : (n == m) = false := by
      rw [beq_eq_false_iff_ne]
      rintro rfl
      exact h (.inl rfl)
    simp only [wake, other, Bool.or_false]
  | _ => rfl

/-- The steps that move one caller and touch nothing shared. -/
def advance (pc : Pc Val) : Action Val → Option (Pc Val)
  | .call => if pc matches idle then some get else none
  | .got result => match pc, result with
    | get, .ok (some value) => some (done (.ok value))
    | get, .ok none => some lock
    | get, .error error => some (done (.error error))
    | _, _ => none
  | .notified => match pc with
    | follow n => some (wait n false)
    | _ => none
  | .resume => match pc with
    | wait _ true => some get
    | _ => none
  | .loaded result => match pc, result with
    | load n, .ok value => some (store n value)
    | load n, .error error => some (finish n (.error (.loader error)))
    | _, _ => none
  | .stored result => match pc, result with
    | store n value, .ok () => some (finish n (.ok value))
    | store n _, .error error => some (finish n (.error error))
    | _, _ => none
  | .drop => if pc.awaits then some dropped else none
  | .panic => match pc with
    | load _ => some dropped
    | _ => none
  | _ => none

theorem advance_rename (f : NotifyId → NotifyId) (pc : Pc Val) (a : Action Val) :
    (pc.rename f).advance a = (pc.advance a).map (rename f) := by
  cases a with
  | got result => rcases result with _ | _ | _ <;> cases pc <;> rfl
  | loaded result | stored result => cases result <;> cases pc <;> rfl
  | resume => rcases pc with _ | _ | _ | _ | _ | _ | _ | ⟨_, _ | _⟩ <;> rfl
  | drop =>
    simp only [advance, awaits_rename]
    split <;> rfl
  | _ => cases pc <;> rfl

theorem advance_refers {pc pc' : Pc Val} {a : Action Val} (h : pc.advance a = some pc')
    {n : NotifyId} (refers : pc'.refers n) : pc.refers n := by
  cases a with
  | notified | loaded result | stored result =>
    revert h
    simp only [advance]
    split <;> intro h <;> cases h <;> exact refers
  | _ =>
    have none_held : pc'.follows = none ∧ pc'.leads = none ∧ pc'.pending = none := by
      revert h
      simp only [advance]
      first | (split <;> intro h <;> cases h <;> exact ⟨rfl, rfl, rfl⟩) | nofun
    obtain follows | leads | pending := refers
    · rw [none_held.1] at follows; cases follows
    · rw [none_held.2.1] at leads; cases leads
    · rw [none_held.2.2] at pending; cases pending

theorem refers_wake {m n : NotifyId} {pc : Pc Val} : (pc.wake m).refers n ↔ pc.refers n := by
  simp only [refers, follows_wake, leads_wake, pending_wake]

end Pc

/-- Leadership of every key: one leader at a time, who finds its own entry when it
finishes; and no entry once nobody is at work on the key. -/
structure Leadership (key : Caller → Key) (s : State Caller Key Val) : Prop where
  exclusive : ∀ c d m n, (s.pc c).leads = some m → (s.pc d).leads = some n →
    key c = key d → c = d
  own : ∀ c n result, s.pc c = .finishLocked n result → s.inFlight (key c) = some n
  clean : ∀ k, (∀ c, key c = k → (s.pc c).inProgress = false) → s.inFlight k = none

theorem Led.leadership {key : Caller → Key} {s : State Caller Key Val} (led : Led key s)
    (owned : NoOrphan key s) : Leadership key s := by
  constructor
  · intro c d m n hc hd same
    exact led.sole_leader hc hd same
  · intro c n result hpc
    exact led.leads_entry c n (by rw [hpc]; rfl)
  · intro k quiet
    cases entry : s.inFlight k with
    | none => rfl
    | some n =>
      obtain ⟨l, hl, leads⟩ := owned.entry k n entry
      have busy := Pc.leads_inProgress leads
      rw [quiet l hl] at busy
      cases busy

/-- The identities in use at a key: in its entry or held by its callers. -/
def Used (key : Caller → Key) (s : State Caller Key Val) (k : Key) (n : NotifyId) : Prop :=
  s.inFlight k = some n ∨ ∃ c, key c = k ∧ (s.pc c).refers n

/-- No identity is in use at two keys, and none before it is allocated. -/
structure Apart (key : Caller → Key) (s : State Caller Key Val) : Prop where
  one_key : ∀ k k' n, Used key s k n → Used key s k' n → k = k'
  lt : ∀ k n, Used key s k n → n < s.next

theorem init_apart (key : Caller → Key) : Apart key (init : State Caller Key Val) := by
  have unused : ∀ k n, ¬ Used key (init : State Caller Key Val) k n := by
    rintro k n (entry | ⟨c, -, follows | leads | pending⟩)
    · cases entry
    · cases follows
    · cases leads
    · cases pending
  exact ⟨fun k _ n h => absurd h (unused k n), fun k n h => absurd h (unused k n)⟩

/-- A step that brings no new identity into use. -/
theorem Apart.shrink {key : Caller → Key} {s t : State Caller Key Val} (h : Apart key s)
    (next : t.next = s.next) (used : ∀ k n, Used key t k n → Used key s k n) : Apart key t := by
  constructor
  · intro k k' n hk hk'
    exact h.one_key k k' n (used k n hk) (used k' n hk')
  · intro k n hk
    rw [next]
    exact h.lt k n (used k n hk)

theorem used_notify {key : Caller → Key} {s : State Caller Key Val} (m : Option NotifyId)
    (k : Key) (n : NotifyId) (h : Used key (s.notifyWaiters m) k n) : Used key s k n := by
  cases m with
  | none => exact h
  | some m =>
    obtain entry | ⟨d, hd, refers⟩ := h
    · exact .inl entry
    · exact .inr ⟨d, hd, Pc.refers_wake.mp refers⟩

theorem Used.mono {key : Caller → Key} {s : State Caller Key Val} {c : Caller} {pc : Pc Val}
    (follows : ∀ n, pc.follows = some n → (s.pc c).follows = some n)
    (leads : ∀ n, pc.leads = some n → (s.pc c).leads = some n)
    (pending : ∀ n, pc.pending = some n → (s.pc c).pending = some n) (n : NotifyId)
    (h : pc.refers n) : Used key s (key c) n := by
  refine .inr ⟨c, rfl, ?_⟩
  obtain h | h | h := h
  · exact .inl (follows n h)
  · exact .inr (.inl (leads n h))
  · exact .inr (.inr (pending n h))

section
variable [DecidableEq Key]

/-- `s'` shows of `s` what the callers of `k` did, with identities renamed by `f`. -/
structure Seen (key : Caller → Key) (k : Key) (f : NotifyId → NotifyId)
    (s s' : State Caller Key Val) : Prop where
  pc : ∀ c, key c = k → s'.pc c = (s.pc c).rename f
  others : ∀ c, key c ≠ k → s'.pc c = .idle
  entry : s'.inFlight k = (s.inFlight k).map f
  guard : s'.guard = s.guard.filter fun c => key c = k
  injective : ∀ m n, Used key s k m → Used key s k n → f m = f n → m = n
  lt : ∀ n, Used key s k n → f n < s'.next

theorem init_seen (key : Caller → Key) (k : Key) :
    Seen key k id (init : State Caller Key Val) init := by
  constructor
  · intro c _; rfl
  · intro c _; rfl
  · rfl
  · rfl
  · intro m n _ _ same; exact same
  · intro n h
    exact absurd ((init_apart key).lt k n h) (Nat.not_lt_zero n)

/-- What leaves the callers, the entry and the lock of `k` alone goes unseen. -/
theorem Seen.unseen {key : Caller → Key} {k : Key} {f : NotifyId → NotifyId}
    {s s' t : State Caller Key Val} (h : Seen key k f s s')
    (pc : ∀ d, key d = k → t.pc d = s.pc d) (entry : t.inFlight k = s.inFlight k)
    (guard : (t.guard.filter fun c => key c = k) = s.guard.filter fun c => key c = k) :
    Seen key k f t s' := by
  have used : ∀ n, Used key t k n → Used key s k n := by
    rintro n (he | ⟨d, hd, refers⟩)
    · exact .inl (entry ▸ he)
    · exact .inr ⟨d, hd, pc d hd ▸ refers⟩
  constructor
  · intro d hd
    rw [pc d hd, h.pc d hd]
  · exact h.others
  · rw [entry, h.entry]
  · rw [guard, h.guard]
  · intro m n hm hn
    exact h.injective m n (used m hm) (used n hn)
  · intro n hn
    exact h.lt n (used n hn)

/-- Waking the followers of an identity the key has in use. -/
theorem Seen.notify {key : Caller → Key} {k : Key} {f : NotifyId → NotifyId}
    {s s' : State Caller Key Val} (h : Seen key k f s s') {m : NotifyId}
    (fresh : ∀ n, Used key s k n → f n = f m → n = m) :
    Seen key k f (s.notifyWaiters (some m)) (s'.notifyWaiters (some (f m))) := by
  have used : ∀ n, Used key (s.notifyWaiters (some m)) k n → Used key s k n :=
    used_notify (some m) k
  constructor
  · intro d hd
    change (s'.pc d).wake (f m) = ((s.pc d).wake m).rename f
    rw [h.pc d hd]
    apply Pc.wake_rename
    intro n refers
    exact fresh n (.inr ⟨d, hd, refers⟩)
  · intro d hd
    change (s'.pc d).wake (f m) = .idle
    rw [h.others d hd]
    rfl
  · exact h.entry
  · exact h.guard
  · intro m n hm hn
    exact h.injective m n (used m hm) (used n hn)
  · intro n hn
    exact h.lt n (used n hn)

end

variable [DecidableEq Caller]

/-- A move of one caller that holds only what its key had in use. -/
theorem used_goto {key : Caller → Key} {s : State Caller Key Val} {c : Caller} {pc : Pc Val}
    {guard : Option Caller} (held : ∀ n, pc.refers n → Used key s (key c) n) (k : Key)
    (n : NotifyId) (h : Used key { s.goto c pc with guard := guard } k n) : Used key s k n := by
  obtain entry | ⟨d, hd, refers⟩ := h
  · exact .inl entry
  · obtain ⟨rfl, here⟩ | ⟨-, before⟩ := goto_cases (·.refers n) refers
    · exact hd ▸ held n here
    · exact .inr ⟨d, hd, before⟩

/-- A caller makes the same move in both runs. -/
theorem rename_goto {key : Caller → Key} {k : Key} {f : NotifyId → NotifyId}
    {s s' : State Caller Key Val} {c : Caller} {pc pc' : Pc Val}
    (h : ∀ d, key d = k → s'.pc d = (s.pc d).rename f) (renamed : pc' = pc.rename f) (d : Caller)
    (hd : key d = k) : (s'.goto c pc').pc d = ((s.goto c pc).pc d).rename f := by
  by_cases same : d = c
  · rw [same, goto_pc_self, goto_pc_self, renamed]
  · rw [goto_pc_of_ne same, goto_pc_of_ne same, h d hd]

/-- The callers of other keys stay out of the key's own run. -/
theorem idle_goto {key : Caller → Key} {k : Key} {s : State Caller Key Val} {c : Caller}
    {pc : Pc Val} (h : ∀ d, key d ≠ k → s.pc d = .idle) (mine : key c = k) (d : Caller)
    (hd : key d ≠ k) : (s.goto c pc).pc d = .idle := by
  have other : d ≠ c := by
    rintro rfl
    exact hd mine
  rw [goto_pc_of_ne other, h d hd]

variable [DecidableEq Key]

theorem used_remove {key : Caller → Key} {s : State Caller Key Val} {c : Caller}
    {r : Except CacheError Val} (k : Key) (n : NotifyId)
    (h : Used key { s.goto c (.removed (s.inFlight (key c)) r) with
      inFlight := Function.update s.inFlight (key c) none } k n) : Used key s k n := by
  obtain entry | ⟨d, hd, refers⟩ := h
  · obtain ⟨-, gone⟩ | ⟨-, before⟩ := Transition.update_cases (· = some n) entry
    · cases gone
    · exact .inl before
  · obtain ⟨rfl, follows | leads | pending⟩ | ⟨-, before⟩ := goto_cases (·.refers n) refers
    · cases follows
    · cases leads
    · exact .inl (hd ▸ pending)
    · exact .inr ⟨d, hd, before⟩

/-- An insertion brings the next identity into use, at the caller's key. -/
theorem used_insert {key : Caller → Key} {s : State Caller Key Val} {c : Caller} (k : Key)
    (n : NotifyId)
    (h : Used key { s.goto c (.inserted s.next) with
      inFlight := Function.update s.inFlight (key c) (some s.next), next := s.next + 1 } k n) :
    Used key s k n ∨ (k = key c ∧ n = s.next) := by
  obtain entry | ⟨d, hd, refers⟩ := h
  · obtain ⟨same, new⟩ | ⟨-, before⟩ := Transition.update_cases (· = some n) entry
    · exact .inr ⟨same, (Option.some.inj new).symm⟩
    · exact .inl (.inl before)
  · obtain ⟨rfl, follows | leads | pending⟩ | ⟨-, before⟩ := goto_cases (·.refers n) refers
    · cases follows
    · exact .inr ⟨hd.symm, (Option.some.inj leads).symm⟩
    · cases pending
    · exact .inl (.inr ⟨d, hd, before⟩)

theorem Apart.insert {key : Caller → Key} {s : State Caller Key Val} (h : Apart key s)
    {c : Caller} :
    Apart key { s.goto c (.inserted s.next) with
      inFlight := Function.update s.inFlight (key c) (some s.next), next := s.next + 1 } := by
  constructor
  · intro k k' n hk hk'
    obtain old | ⟨rfl, rfl⟩ := used_insert k n hk
    · obtain old' | ⟨-, fresh⟩ := used_insert k' n hk'
      · exact h.one_key k k' n old old'
      · exact absurd (h.lt k n old) (by rw [fresh]; exact Nat.lt_irrefl _)
    · obtain old' | ⟨rfl, -⟩ := used_insert k' s.next hk'
      · exact absurd (h.lt k' s.next old') (Nat.lt_irrefl _)
      · rfl
  · intro k n hk
    change n < s.next + 1
    obtain old | ⟨-, rfl⟩ := used_insert k n hk
    · exact Nat.lt_succ_of_lt (h.lt k n old)
    · exact Nat.lt_succ_self _

theorem Apart.step {key : Caller → Key} {s t : State Caller Key Val} (h : Apart key s)
    {c : Caller} {a : Action Val} (e : Effect key s c a t) : Apart key t := by
  cases e with
  | move _ _ follows leads pending _ _ =>
    refine h.shrink rfl (used_goto (Used.mono ?_ ?_ ?_))
    · simp [follows]
    · simp [leads]
    · simp [pending]
  | acquire _ _ _ follows leads pending _ =>
    refine h.shrink rfl (used_goto (Used.mono ?_ ?_ ?_))
    · simp [follows]
    · simp [leads]
    · simp [pending]
  | clone hpc found =>
    refine h.shrink rfl (used_goto ?_)
    rintro n (follows | leads | pending)
    · cases follows
      exact .inl found
    · cases leads
    · cases pending
  | insert hpc hn => exact h.insert
  | release _ _ follows leads pending _ =>
    refine h.shrink rfl (used_goto (Used.mono ?_ ?_ ?_))
    · simp [follows]
    · simp [leads]
    · simp [pending]
  | notified hpc =>
    refine h.shrink rfl (used_goto (Used.mono ?_ ?_ ?_))
    · simp [hpc, Pc.follows]
    · nofun
    · nofun
  | resume hpc => refine h.shrink rfl (used_goto (Used.mono ?_ ?_ ?_)) <;> nofun
  | remove hpc => exact h.shrink rfl used_remove
  | notify hpc =>
    rename_i m r
    have next : ((s.goto c (.done r)).notifyWaiters m).next = s.next := by cases m <;> rfl
    apply h.shrink next
    intro k n hk
    refine used_goto (Used.mono ?_ ?_ ?_) k n (used_notify m k n hk) <;> nofun
  | drop _ => refine h.shrink rfl (used_goto (Used.mono ?_ ?_ ?_)) <;> nofun
  | panic _ => refine h.shrink rfl (used_goto (Used.mono ?_ ?_ ?_)) <;> nofun

/-! ## One key's part of a run -/

/-- The steps of another key's callers go unseen. -/
theorem Seen.step_unseen {key : Caller → Key} {k : Key} {f : NotifyId → NotifyId}
    {s s' t : State Caller Key Val} (h : Seen key k f s s') (led : Led key s)
    (apart : Apart key s) {c : Caller} (other : key c ≠ k) {a : Action Val}
    (e : Effect key s c a t) : Seen key k f t s' := by
  have stays : ∀ pc d, key d = k → (s.goto c pc).pc d = s.pc d := by
    intro pc d hd
    apply goto_pc_of_ne
    rintro rfl
    exact other hd
  have hidden : (some c).filter (fun d => decide (key d = k)) = none :=
    Option.filter_some_neg (decide_eq_false other)
  cases e with
  | move | clone | notified | resume | drop | panic => exact h.unseen (stays _) rfl rfl
  | acquire free =>
    refine h.unseen (stays _) rfl ?_
    rw [free]
    exact hidden
  | insert =>
    refine h.unseen (stays _) ?_ rfl
    exact Function.update_of_ne (Ne.symm other) _ _
  | release inside =>
    refine h.unseen (stays _) rfl ?_
    rw [led.section_guard c inside, hidden]
    rfl
  | remove =>
    refine h.unseen (stays _) ?_ rfl
    exact Function.update_of_ne (Ne.symm other) _ _
  | notify hpc =>
    rename_i m r
    cases m with
    | none => exact h.unseen (stays _) rfl rfl
    | some m =>
      refine h.unseen ?_ rfl rfl
      intro d hd
      change ((s.goto c (.done r)).pc d).wake m = s.pc d
      rw [stays _ d hd]
      apply Pc.wake_of_apart
      intro refers
      refine other (apart.one_key (key c) k m (.inr ⟨c, rfl, ?_⟩) (.inr ⟨d, hd, refers⟩))
      rw [hpc]
      exact .inr (.inr rfl)

/-- A move of one of the key's callers, within what the key has in use. -/
theorem Seen.move {key : Caller → Key} {k : Key} {f : NotifyId → NotifyId}
    {s s' : State Caller Key Val} (h : Seen key k f s s') {c : Caller} (mine : key c = k)
    {pc : Pc Val} (held : ∀ n, pc.refers n → Used key s k n) {guard guard' : Option Caller}
    (hg : guard' = guard.filter fun c => key c = k) :
    Seen key k f { s.goto c pc with guard := guard }
      { s'.goto c (pc.rename f) with guard := guard' } := by
  have used : ∀ n, Used key { s.goto c pc with guard := guard } k n → Used key s k n :=
    used_goto (mine ▸ held) k
  constructor
  · exact rename_goto h.pc rfl
  · exact idle_goto h.others mine
  · exact h.entry
  · exact hg
  · intro m n hm hn
    exact h.injective m n (used m hm) (used n hn)
  · intro n hn
    exact h.lt n (used n hn)

theorem Seen.remove {key : Caller → Key} {k : Key} {f : NotifyId → NotifyId}
    {s s' : State Caller Key Val} (h : Seen key k f s s') {c : Caller} (mine : key c = k)
    (r : Except CacheError Val) :
    Seen key k f
      { s.goto c (.removed (s.inFlight (key c)) r) with
        inFlight := Function.update s.inFlight (key c) none }
      { s'.goto c (.removed (s'.inFlight (key c)) r) with
        inFlight := Function.update s'.inFlight (key c) none } := by
  have renamed : (Pc.removed (s.inFlight (key c)) r).rename f =
      .removed (s'.inFlight (key c)) r := by
    rw [Pc.rename, mine, h.entry]
  have used : ∀ n, Used key { s.goto c (.removed (s.inFlight (key c)) r) with
      inFlight := Function.update s.inFlight (key c) none } k n → Used key s k n :=
    used_remove k
  constructor
  · exact rename_goto h.pc renamed.symm
  · exact idle_goto h.others mine
  · change Function.update s'.inFlight (key c) none k =
      (Function.update s.inFlight (key c) none k).map f
    rw [mine, Function.update_self, Function.update_self]
    rfl
  · exact h.guard
  · intro m n hm hn
    exact h.injective m n (used m hm) (used n hn)
  · intro n hn
    exact h.lt n (used n hn)

/-- The two insertions allocate what may be two different identities. -/
theorem Seen.insert {key : Caller → Key} {k : Key} {f : NotifyId → NotifyId}
    {s s' : State Caller Key Val} (h : Seen key k f s s') (apart : Apart key s) {c : Caller}
    (mine : key c = k) :
    Seen key k (Function.update f s.next s'.next)
      { s.goto c (.inserted s.next) with
        inFlight := Function.update s.inFlight (key c) (some s.next), next := s.next + 1 }
      { s'.goto c (.inserted s'.next) with
        inFlight := Function.update s'.inFlight (key c) (some s'.next), next := s'.next + 1 } := by
  have old : ∀ n, Used key s k n → Function.update f s.next s'.next n = f n := by
    intro n hn
    exact Function.update_of_ne (Nat.ne_of_lt (apart.lt k n hn)) _ _
  have new : Function.update f s.next s'.next s.next = s'.next := Function.update_self ..
  have used : ∀ n, Used key { s.goto c (.inserted s.next) with
      inFlight := Function.update s.inFlight (key c) (some s.next), next := s.next + 1 } k n →
      Used key s k n ∨ n = s.next := by
    intro n hn
    exact (used_insert k n hn).imp_right fun fresh => fresh.2
  constructor
  · apply rename_goto
    · intro d hd
      rw [h.pc d hd]
      apply Pc.rename_congr
      intro n refers
      exact (old n (.inr ⟨d, hd, refers⟩)).symm
    · rw [Pc.rename, new]
  · exact idle_goto h.others mine
  · change Function.update s'.inFlight (key c) (some s'.next) k =
      (Function.update s.inFlight (key c) (some s.next) k).map _
    rw [mine, Function.update_self, Function.update_self, Option.map_some, new]
  · exact h.guard
  · intro m n hm hn same
    obtain hm | rfl := used m hm
    · rw [old m hm] at same
      obtain hn | rfl := used n hn
      · rw [old n hn] at same
        exact h.injective m n hm hn same
      · rw [new] at same
        exact absurd (h.lt m hm) (by rw [same]; exact Nat.lt_irrefl _)
    · rw [new] at same
      obtain hn | rfl := used n hn
      · rw [old n hn] at same
        exact absurd (h.lt n hn) (by rw [← same]; exact Nat.lt_irrefl _)
      · rfl
  · intro n hn
    change _ < s'.next + 1
    obtain hn | rfl := used n hn
    · rw [old n hn]
      exact Nat.lt_succ_of_lt (h.lt n hn)
    · rw [new]
      exact Nat.lt_succ_self _

def Action.shared : Action Val → Bool
  | .acquire | .lookup | .release | .remove | .notifyWaiters => true
  | _ => false

theorem step_advance (key : Caller → Key) (s : State Caller Key Val) (c : Caller) {a : Action Val}
    (h : a.shared = false) : step key s (c, a) = ((s.pc c).advance a).map (s.goto c) := by
  cases a with
  | acquire | lookup | release | remove | notifyWaiters => cases h
  | got result =>
    cases hpc : s.pc c <;> rcases result with _ | _ | _ <;> simp only [step, hpc] <;> rfl
  | loaded result | stored result =>
    cases hpc : s.pc c <;> cases result <;> simp only [step, hpc] <;> rfl
  | resume =>
    cases hpc : s.pc c with
    | wait n woken => cases woken <;> simp only [step, hpc] <;> rfl
    | _ => simp only [step, hpc]; rfl
  | drop =>
    simp only [step, Pc.advance]
    split <;> rfl
  | _ => cases hpc : s.pc c <;> simp only [step, hpc] <;> rfl

/-- What a caller of the key does next, it does the same way without the others. -/
theorem Seen.step_seen {key : Caller → Key} {k : Key} {f : NotifyId → NotifyId}
    {s s' t : State Caller Key Val} (h : Seen key k f s s') (apart : Apart key s) {c : Caller}
    (mine : key c = k) {a : Action Val}
    (hs : step key s (c, a) = some t) :
    ∃ t', step key s' (c, a) = some t' ∧ ∃ f', Seen key k f' t t' := by
  have held : ∀ n, (s.pc c).refers n → Used key s k n := fun n hn => .inr ⟨c, mine, hn⟩
  have pc' : s'.pc c = (s.pc c).rename f := h.pc c mine
  have entry' : s'.inFlight (key c) = (s.inFlight (key c)).map f := by rw [mine, h.entry]
  have kept : some c = (some c).filter fun d => decide (key d = k) := by
    rw [Option.filter_some_pos]
    exact decide_eq_true mine
  cases private_ : a.shared with
  | false =>
    rw [step_advance key s c private_] at hs
    obtain ⟨pc, moved, rfl⟩ := Option.map_eq_some_iff.mp hs
    refine ⟨s'.goto c (pc.rename f), ?_, f, ?_⟩
    · rw [step_advance key s' c private_, pc', Pc.advance_rename, moved]
      rfl
    · exact h.move mine (fun n hn => held n (Pc.advance_refers moved hn)) h.guard
  | true =>
    cases a with
    | acquire =>
      simp only [step] at hs
      split at hs
      · rename_i free
        have free' : s'.guard = none := by rw [h.guard, free]; rfl
        cases hpc : s.pc c <;> simp only [hpc] at hs <;> cases hs
        all_goals
          rw [hpc] at pc' held
          refine ⟨_, by simp only [step, if_pos free', pc', Pc.rename]; rfl, f, ?_⟩
          refine h.move mine ?_ kept
          exact held
      · cases hs
    | lookup =>
      cases hpc : s.pc c <;> simp only [step, hpc] at hs <;> try cases hs
      rw [hpc] at pc'
      cases found : s.inFlight (key c) with
      | some n =>
        simp only [found] at hs entry'
        cases hs
        refine ⟨_, by simp only [step, pc', Pc.rename, entry', Option.map_some]; rfl, f, ?_⟩
        refine h.move mine ?_ h.guard
        rintro m (follows | leads | pending)
        · cases follows
          exact .inl (mine ▸ found)
        · cases leads
        · cases pending
      | none =>
        simp only [found] at hs entry'
        cases hs
        refine ⟨_, by simp only [step, pc', Pc.rename, entry', Option.map_none]; rfl,
          Function.update f s.next s'.next, ?_⟩
        exact h.insert apart mine
    | release =>
      cases hpc : s.pc c <;> simp only [step, hpc] at hs <;> cases hs
      all_goals
        rw [hpc] at pc' held
        refine ⟨_, by simp only [step, pc', Pc.rename]; rfl, f, ?_⟩
        refine h.move mine ?_ rfl
        exact held
    | remove =>
      cases hpc : s.pc c <;> simp only [step, hpc] at hs <;> cases hs
      rw [hpc] at pc'
      refine ⟨_, by simp only [step, pc', Pc.rename]; rfl, f, ?_⟩
      exact h.remove mine _
    | notifyWaiters =>
      cases hpc : s.pc c <;> simp only [step, hpc] at hs <;> cases hs
      rename_i m result
      rw [hpc] at pc' held
      refine ⟨_, by simp only [step, pc', Pc.rename]; rfl, f, ?_⟩
      have idle : Seen key k f (s.goto c (.done result)) (s'.goto c (.done result)) :=
        h.move mine (by rintro n (h | h | h) <;> cases h) h.guard
      cases m with
      | none => exact idle
      | some m =>
        apply idle.notify
        intro n hn same
        have used : Used key s k n :=
          used_goto (by rintro n (h | h | h) <;> cases h) k n hn
        exact h.injective n m used (held m (.inr (.inr rfl))) same
    | _ => cases private_

/-- **Keys do not influence one another.** The callers of one key go through the
same run, up to the names of the `Notify`s, when all other callers are left out. -/
theorem seen_alone (key : Caller → Key) (k : Key) {run : List (Caller × Action Val)}
    {s : State Caller Key Val} (h : Transition.exec (step key) init run = some s) :
    ∃ s', Transition.exec (step key) init (run.filter fun ca => key ca.1 = k) = some s' ∧
      ∃ f, Seen key k f s s' := by
  have project := Transition.exec_project
    (R := fun s s' => Led key s ∧ Apart key s ∧ ∃ f, Seen key k f s s')
    (fun ca => key ca.1 = k) ?_ ?_ ⟨init_led key, init_apart key, id, init_seen key k⟩ h
  · obtain ⟨s', hs', -, -, seen⟩ := project
    exact ⟨s', hs', seen⟩
  · rintro s s' ⟨c, a⟩ t ⟨led, apart, f, seen⟩ mine hs
    obtain ⟨t', ht', seen'⟩ := seen.step_seen apart (by simpa using mine) hs
    have e := step_effect hs
    exact ⟨t', ht', led.step e, apart.step e, seen'⟩
  · rintro s s' ⟨c, a⟩ t ⟨led, apart, f, seen⟩ other hs
    have e := step_effect hs
    exact ⟨led.step e, apart.step e, f, seen.step_unseen led apart (by simpa using other) e⟩

/-- Neither a cancellation nor a panic. -/
def Action.orderly : Action Val → Bool
  | .drop | .panic => false
  | _ => true

theorem undisturbed_of_orderly {key : Caller → Key} {s : State Caller Key Val}
    {run : List (Caller × Action Val)} (orderly : ∀ ca ∈ run, ca.2.orderly = true) :
    Transition.Along (step key) Undisturbed s run := by
  induction run generalizing s with
  | nil => trivial
  | cons ca rest ih =>
    intro t _
    refine ⟨?_, ih fun ca' h => orderly ca' (List.mem_cons_of_mem _ h)⟩
    have first := orderly ca List.mem_cons_self
    obtain ⟨c, a⟩ := ca
    cases a with
    | drop | panic => cases first
    | _ => trivial

/-- **Leadership is exclusive and cleans up.** In every state of an orderly run one
caller at most leads each key, it finishes with its own entry in the map, and a key
nobody works on has no entry; and each key's callers are oblivious of the others. -/
theorem leadership_exclusive (key : Caller → Key) (run : List (Caller × Action Val))
    (orderly : ∀ ca ∈ run, ca.2.orderly = true) :
    Transition.Always (step key) (Leadership key) init run ∧
      ∀ k s, Transition.exec (step key) init run = some s →
        ∃ s', Transition.exec (step key) init (run.filter fun ca => key ca.1 = k) = some s' ∧
          ∃ f, Seen key k f s s' := by
  constructor
  · have undisturbed : Transition.Along (step key) Undisturbed init run :=
      undisturbed_of_orderly orderly
    have owned := owned_of_undisturbed undisturbed
    exact owned.mono fun s hs => hs.1.leadership hs.2
  · intro k s hs
    exact seen_alone key k hs

/-- Two callers that lead a key each, one while the other holds the lock of the map. -/
def twoKeysRun : List (Bool × Action Unit) :=
  [(false, .call), (true, .call), (false, .got (.ok none)), (true, .got (.ok none)),
   (false, .acquire), (false, .lookup), (false, .release), (true, .acquire), (true, .lookup),
   (false, .loaded (.error "no row")), (true, .release), (false, .acquire), (false, .remove),
   (false, .release), (false, .notifyWaiters)]

theorem twoKeysRun_leadership :
    (∀ ca ∈ twoKeysRun, ca.2.orderly = true) ∧
      Transition.Always (step id) (Leadership id) init twoKeysRun ∧
        ∀ k s, Transition.exec (step id) init twoKeysRun = some s →
          ∃ s', Transition.exec (step id) init (twoKeysRun.filter fun ca => id ca.1 = k) = some s' ∧
            ∃ f, Seen id k f s s' :=
  ⟨by decide, leadership_exclusive id twoKeysRun (by decide)⟩

end RustyGasket.SingleFlight
