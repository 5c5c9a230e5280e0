import RustyGasket.SingleFlight

/-!
# Where every `Notify` of the single-flight map is

A `Notify` is in the map, or taken out by a leader that has not notified it yet,
or notified. A follower asleep on one of the first two will be woken; a follower
asleep on the last kind never is, because `notify_waiters` stores no permit.
-/

namespace RustyGasket.SingleFlight

variable {Caller Key Val : Type}

/-- Every allocated `Notify` is accounted for exactly once. -/
structure Accounted (key : Caller → Key) (s : State Caller Key Val) : Prop where
  entry_lt : ∀ k n, s.inFlight k = some n → n < s.next
  follows_lt : ∀ c n, (s.pc c).follows = some n → n < s.next
  pending_lt : ∀ c n, (s.pc c).pending = some n → n < s.next
  notified_lt : ∀ n ∈ s.notified, n < s.next
  entry_once : ∀ k k' n, s.inFlight k = some n → s.inFlight k' = some n → k = k'
  follows_key : ∀ c k n, (s.pc c).follows = some n → s.inFlight k = some n → k = key c
  entry_unnotified : ∀ k n, s.inFlight k = some n → n ∉ s.notified
  pending_unnotified : ∀ c n, (s.pc c).pending = some n → n ∉ s.notified
  pending_out : ∀ c k n, (s.pc c).pending = some n → s.inFlight k ≠ some n
  pending_once : ∀ c d n, (s.pc c).pending = some n → (s.pc d).pending = some n → c = d
  somewhere : ∀ n, n < s.next →
    n ∈ s.notified ∨ (∃ k, s.inFlight k = some n) ∨ ∃ c, (s.pc c).pending = some n

theorem init_accounted (key : Caller → Key) :
    Accounted key (init : State Caller Key Val) := by
  constructor <;> simp [init, Pc.follows, Pc.pending]

/-- Whoever sleeps on a `notified()` future holds a `Notify` that is still the
entry of its key, or that a leader took out and has not notified yet; never one
whose leader has finished. -/
def NoLostWakeup (key : Caller → Key) (s : State Caller Key Val) : Prop :=
  ∀ c n, s.pc c = .wait n false →
    n ∉ s.notified ∧ (s.inFlight (key c) = some n ∨ ∃ l, (s.pc l).pending = some n)

/-- A follower that creates its `notified()` future does so before
`notify_waiters` has run on the `Notify` it cloned. -/
def Timely (s : State Caller Key Val) : Caller × Action Val → Prop
  | (c, .notified) => ∀ n, s.pc c = .follow n → n ∉ s.notified
  | _ => True

def AsleepUnnotified (s : State Caller Key Val) : Prop :=
  ∀ c n, s.pc c = .wait n false → n ∉ s.notified

theorem Accounted.noLostWakeup {key : Caller → Key} {s : State Caller Key Val}
    (h : Accounted key s) (awake : AsleepUnnotified s) : NoLostWakeup key s := by
  intro c n hc
  have follows : (s.pc c).follows = some n := by rw [hc]; rfl
  refine ⟨awake c n hc, ?_⟩
  obtain hn | ⟨k, hk⟩ | hl := h.somewhere n (h.follows_lt c n follows)
  · exact absurd hn (awake c n hc)
  · exact Or.inl (h.follows_key c k n follows hk ▸ hk)
  · exact Or.inr hl

/-- Steps that move no `Notify` and create no follower keep the account. -/
theorem Accounted.frame {key : Caller → Key} {s t : State Caller Key Val} (h : Accounted key s)
    (map : t.inFlight = s.inFlight) (next : t.next = s.next) (notified : t.notified = s.notified)
    (pending : ∀ d, (t.pc d).pending = (s.pc d).pending)
    (follows : ∀ d n, (t.pc d).follows = some n → (s.pc d).follows = some n) :
    Accounted key t := by
  obtain ⟨h1, h2, h3, h4, h5, h6, h7, h8, h9, h10, h11⟩ := h
  constructor <;> simp only [map, next, notified, pending]
  · exact h1
  · exact fun c n hc => h2 c n (follows c n hc)
  · exact h3
  · exact h4
  · exact h5
  · exact fun c k n hc => h6 c k n (follows c n hc)
  · exact h7
  · exact h8
  · exact h9
  · exact h10
  · exact h11

theorem Pc.awaits_pending {pc : Pc Val} (h : pc.awaits = true) : pc.pending = none := by
  cases pc <;> first | rfl | simp [Pc.awaits] at h

variable [DecidableEq Caller]

theorem Accounted.goto {key : Caller → Key} {s : State Caller Key Val} (h : Accounted key s)
    {c : Caller} {pc : Pc Val} (pending : pc.pending = (s.pc c).pending)
    (follows : ∀ n, pc.follows = some n → (s.pc c).follows = some n) (guard : Option Caller) :
    Accounted key { s.goto c pc with guard := guard } := by
  refine h.frame rfl rfl rfl ?_ ?_
  · intro d
    change ((s.goto c pc).pc d).pending = _
    rw [goto_pc]
    split <;> simp_all
  · intro d n
    change ((s.goto c pc).pc d).follows = _ → _
    rw [goto_pc]
    split <;> simp_all

theorem Accounted.clone {key : Caller → Key} {s : State Caller Key Val} (h : Accounted key s)
    {c : Caller} {n : NotifyId} (hpc : s.pc c = .locked) (hn : s.inFlight (key c) = some n) :
    Accounted key (s.goto c (.cloned n)) := by
  obtain ⟨h1, h2, h3, h4, h5, h6, h7, h8, h9, h10, h11⟩ := h
  constructor <;>
    simp only [goto_pc, goto_inFlight, goto_next, goto_notified] <;>
    grind [Pc.follows, Pc.pending]

theorem Accounted.notify {key : Caller → Key} {s : State Caller Key Val} (h : Accounted key s)
    {c : Caller} {m : Option NotifyId} {r : Except CacheError Val} (hpc : s.pc c = .notify m r) :
    Accounted key ((s.goto c (.done r)).notifyWaiters m) := by
  cases m with
  | none =>
    refine h.goto ?_ ?_ s.guard
    · rw [hpc]; rfl
    · simp [Pc.follows]
  | some m =>
    obtain ⟨h1, h2, h3, h4, h5, h6, h7, h8, h9, h10, h11⟩ := h
    constructor <;>
      simp only [State.notifyWaiters, goto_pc, goto_inFlight, goto_next, goto_notified,
        Pc.follows_wake, Pc.pending_wake] <;>
      grind [Pc.follows, Pc.pending]

variable [DecidableEq Key]

theorem Accounted.insert {key : Caller → Key} {s : State Caller Key Val} (h : Accounted key s)
    {c : Caller} (hpc : s.pc c = .locked) (hn : s.inFlight (key c) = none) :
    Accounted key { s.goto c (.inserted s.next) with
      inFlight := Function.update s.inFlight (key c) (some s.next), next := s.next + 1 } := by
  obtain ⟨h1, h2, h3, h4, h5, h6, h7, h8, h9, h10, h11⟩ := h
  constructor <;>
    simp only [goto_pc, goto_notified, Function.update_apply] <;>
    grind [Pc.follows, Pc.pending]

theorem Accounted.remove {key : Caller → Key} {s : State Caller Key Val} (h : Accounted key s)
    {c : Caller} {n : NotifyId} {r : Except CacheError Val} (hpc : s.pc c = .finishLocked n r) :
    Accounted key { s.goto c (.removed (s.inFlight (key c)) r) with
      inFlight := Function.update s.inFlight (key c) none } := by
  obtain ⟨h1, h2, h3, h4, h5, h6, h7, h8, h9, h10, h11⟩ := h
  constructor <;>
    simp only [goto_pc, goto_next, goto_notified, Function.update_apply] <;>
    grind [Pc.follows, Pc.pending]

theorem Accounted.step {key : Caller → Key} {s t : State Caller Key Val} (h : Accounted key s)
    {c : Caller} {a : Action Val} (e : Effect key s c a t) : Accounted key t := by
  cases e with
  | move hf hp hf' _ hp' _ _ => exact h.goto (by rw [hp, hp']) (by simp [hf']) s.guard
  | acquire _ hf hp hf' _ hp' _ => exact h.goto (by rw [hp, hp']) (by simp [hf']) (some c)
  | clone hpc hn => exact h.clone hpc hn
  | insert hpc hn => exact h.insert hpc hn
  | release _ _ hf _ hp _ => exact h.goto hp (by simp [hf]) none
  | notified hpc => exact h.goto (by rw [hpc]; rfl) (by simp [hpc, Pc.follows]) s.guard
  | resume hpc => exact h.goto (by rw [hpc]; rfl) (by simp [Pc.follows]) s.guard
  | remove hpc => exact h.remove hpc
  | notify hpc => exact h.notify hpc
  | drop hw => exact h.goto (by rw [Pc.awaits_pending hw]; rfl) (by simp [Pc.follows]) s.guard
  | panic hpc => exact h.goto (by rw [hpc]; rfl) (by simp [Pc.follows]) s.guard

theorem AsleepUnnotified.step {key : Caller → Key} {s t : State Caller Key Val}
    (h : AsleepUnnotified s) {c : Caller} {a : Action Val} (timely : Timely s (c, a))
    (e : Effect key s c a t) : AsleepUnnotified t := by
  intro d n hd
  cases e with
  | move _ _ hf _ _ _ _ | acquire _ _ _ hf _ _ _ =>
    obtain ⟨-, here⟩ | ⟨-, before⟩ := goto_cases (· = .wait n false) hd
    · rw [here] at hf
      cases hf
    · exact h d n before
  | release _ _ _ _ _ hw =>
    obtain ⟨-, here⟩ | ⟨-, before⟩ := goto_cases (· = .wait n false) hd
    · exact absurd here (hw n)
    · exact h d n before
  | notified hpc =>
    obtain ⟨-, here⟩ | ⟨-, before⟩ := goto_cases (· = .wait n false) hd
    · cases here
      exact timely n hpc
    · exact h d n before
  | notify hpc =>
    rename_i m r
    cases m with
    | none =>
      obtain ⟨-, here⟩ | ⟨-, before⟩ := goto_cases (· = .wait n false) hd
      · cases here
      · exact h d n before
    | some m =>
      simp only [State.notifyWaiters, Pc.wake_eq_wait] at hd
      simp only [State.notifyWaiters, goto_notified, List.mem_cons, not_or]
      refine ⟨hd.2, ?_⟩
      obtain ⟨-, here⟩ | ⟨-, before⟩ := goto_cases (· = .wait n false) hd.1
      · cases here
      · exact h d n before
  | clone | insert | resume | remove | drop | panic =>
    obtain ⟨-, here⟩ | ⟨-, before⟩ := goto_cases (· = .wait n false) hd
    · cases here
    · exact h d n before

theorem late_breaks {key : Caller → Key} {s t : State Caller Key Val} {ca : Caller × Action Val}
    (late : ¬ Timely s ca) (hs : step key s ca = some t) : ¬ NoLostWakeup key t := by
  obtain ⟨c, a⟩ := ca
  cases a with
  | notified =>
    simp only [Timely, not_forall, not_not] at late
    obtain ⟨n, hpc, hn⟩ := late
    simp only [step, hpc, Option.some.injEq] at hs
    subst hs
    intro h
    exact (h c n (goto_pc_self s c _)).1 hn
  | _ => exact absurd trivial late

/-- **No lost wake-up, exactly.** In a run of any callers, with any outcomes and
also under cancellation, nobody sleeps on a finished leader's `Notify` if and only
if every follower created its future before that `Notify` was notified. -/
theorem noLostWakeup_iff_timely (key : Caller → Key) (run : List (Caller × Action Val)) :
    Transition.Always (step key) (NoLostWakeup key) init run ↔
      Transition.Along (step key) Timely init run := by
  constructor
  · intro h
    refine h.along (I := Accounted key) ?_ (fun _ _ _ _ late hs => late_breaks late hs)
      (init_accounted key)
    exact fun s a t hi _ hs => hi.step (step_effect hs)
  · intro h
    have inv := h.always (P := fun s => Accounted key s ∧ AsleepUnnotified s)
      (fun s a t hi ok hs => ⟨hi.1.step (step_effect hs), hi.2.step ok (step_effect hs)⟩)
      ⟨init_accounted key, by intro c n hc; cases hc⟩
    exact inv.mono fun s hi => hi.1.noLostWakeup hi.2

/-- One key, two callers. Caller 1 clones the entry and releases the lock; before
it calls `notified()`, caller 0 loads, stores, removes the entry and notifies. -/
def gapRun : List (Nat × Action Unit) :=
  [(0, .call), (0, .got (.ok none)), (0, .acquire), (0, .lookup), (0, .release),
   (1, .call), (1, .got (.ok none)), (1, .acquire), (1, .lookup), (1, .release),
   (0, .loaded (.ok ())), (0, .stored (.ok ())), (0, .acquire), (0, .remove), (0, .release),
   (0, .notifyWaiters), (1, .notified)]

theorem gapRun_loses_wakeup :
    ¬ Transition.Always (step fun _ : Nat => ()) (NoLostWakeup fun _ => ()) init gapRun := by
  intro h
  obtain ⟨s, hs, asleep, done⟩ : ∃ s,
      Transition.exec (step fun _ : Nat => ()) init gapRun = some s ∧
      s.pc 1 = .wait 0 false ∧ 0 ∈ s.notified := ⟨_, rfl, rfl, by decide⟩
  exact (h.last hs 1 0 asleep).1 done

/-- Another caller's step, or one of its own that is not a drop, leaves a
sleeper on a notified `Notify` asleep. -/
theorem asleep_step {key : Caller → Key} {s t : State Caller Key Val} (h : Accounted key s)
    {c d : Caller} {n : NotifyId} {a : Action Val} (asleep : s.pc c = .wait n false)
    (gone : n ∈ s.notified) (kept : (d, a) ≠ (c, .drop)) (e : Effect key s d a t) :
    t.pc c = .wait n false ∧ n ∈ t.notified := by
  have other : c ≠ d := by
    rintro rfl
    cases e <;> simp_all [Pc.follows, Pc.inSection]
  cases e with
  | notify hpc =>
    rename_i m r
    cases m with
    | none => exact ⟨by simp only [State.notifyWaiters, goto_pc, if_neg other, asleep], gone⟩
    | some m =>
      have hm : m ∉ s.notified := h.pending_unnotified d m (by rw [hpc]; rfl)
      simp only [State.notifyWaiters, goto_pc, if_neg other, asleep, Pc.wake_eq_wait,
        goto_notified]
      exact ⟨⟨trivial, fun hn => hm (hn ▸ gone)⟩, List.mem_cons_of_mem _ gone⟩
  | _ => exact ⟨by simp only [State.goto, Function.update_of_ne other, asleep], gone⟩

/-- Such a follower never runs again: whatever anybody does next, it stays asleep
until its own future is dropped. -/
theorem lost_forever (key : Caller → Key) {s t : State Caller Key Val} (h : Accounted key s)
    {c : Caller} {n : NotifyId} (asleep : s.pc c = .wait n false) (gone : n ∈ s.notified)
    (run : List (Caller × Action Val)) (kept : (c, .drop) ∉ run)
    (he : Transition.exec (step key) s run = some t) : t.pc c = .wait n false := by
  induction run generalizing s with
  | nil => cases he; exact asleep
  | cons a rest ih =>
    obtain ⟨u, hu, hr⟩ := Option.bind_eq_some_iff.mp he
    have e := step_effect hu
    have still := asleep_step h asleep gone (fun ha => kept (ha ▸ List.mem_cons_self)) e
    exact ih (h.step e) still.1 still.2 (fun hm => kept (List.mem_cons_of_mem _ hm)) hr

end RustyGasket.SingleFlight
