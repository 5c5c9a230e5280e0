import RustyGasket.SingleFlight

/-!
# Who owns each entry of the single-flight map

`finish_in_flight` is an ordinary statement after the leader's awaits, not a drop
guard. A leader that is dropped or unwound before it leaves its entry behind.
-/

namespace RustyGasket.SingleFlight

variable {Caller Key Val : Type}

/-- Every entry belongs to a live caller of its key that has not yet removed it,
so no caller of the key is about to follow a leader that is gone. -/
structure NoOrphan (key : Caller → Key) (s : State Caller Key Val) : Prop where
  entry : ∀ k n, s.inFlight k = some n → ∃ l, key l = k ∧ (s.pc l).leads = some n
  follower : ∀ c n, s.pc c = .cloned n → ∃ l, key l = key c ∧ (s.pc l).leads = some n

/-- A caller that leads is neither dropped nor unwound. -/
def Undisturbed (s : State Caller Key Val) : Caller × Action Val → Prop
  | (c, .drop) | (c, .panic) => (s.pc c).leads = none
  | _ => True

/-- The map lock and the identities of leaders, whatever is cancelled. -/
structure Led (key : Caller → Key) (s : State Caller Key Val) : Prop where
  section_guard : ∀ c, (s.pc c).inSection = true → s.guard = some c
  entry_lt : ∀ k n, s.inFlight k = some n → n < s.next
  leads_entry : ∀ c n, (s.pc c).leads = some n → s.inFlight (key c) = some n
  leads_once : ∀ c d n, (s.pc c).leads = some n → (s.pc d).leads = some n → c = d
  cloned_entry : ∀ c n, s.pc c = .cloned n → s.inFlight (key c) = some n

theorem init_led (key : Caller → Key) : Led key (init : State Caller Key Val) := by
  constructor <;> simp [init, Pc.inSection, Pc.leads]

theorem Led.noOrphan {key : Caller → Key} {s : State Caller Key Val} (h : Led key s)
    (entry : ∀ k n, s.inFlight k = some n → ∃ l, key l = k ∧ (s.pc l).leads = some n) :
    NoOrphan key s :=
  ⟨entry, fun c n hc => entry (key c) n (h.cloned_entry c n hc)⟩

theorem Led.notify {key : Caller → Key} {s : State Caller Key Val} (h : Led key s)
    (m : Option NotifyId) : Led key (s.notifyWaiters m) := by
  cases m with
  | none => exact h
  | some m =>
    obtain ⟨h1, h2, h3, h4, h5⟩ := h
    constructor <;>
      simp only [State.notifyWaiters, Pc.inSection_wake, Pc.leads_wake, Pc.wake_eq_cloned]
    exacts [h1, h2, h3, h4, h5]

theorem NoOrphan.notify {key : Caller → Key} {s : State Caller Key Val} (h : NoOrphan key s)
    (m : Option NotifyId) : NoOrphan key (s.notifyWaiters m) := by
  cases m with
  | none => exact h
  | some m =>
    obtain ⟨h1, h2⟩ := h
    constructor <;> simp only [State.notifyWaiters, Pc.leads_wake, Pc.wake_eq_cloned]
    exacts [h1, h2]

/-- A step that keeps the map and the role of its caller keeps every owner. -/
theorem NoOrphan.frame {key : Caller → Key} {s t : State Caller Key Val} (h : NoOrphan key s)
    (map : t.inFlight = s.inFlight) (leads : ∀ d, (t.pc d).leads = (s.pc d).leads) (k : Key)
    (n : NotifyId) (hn : t.inFlight k = some n) : ∃ l, key l = k ∧ (t.pc l).leads = some n := by
  obtain ⟨l, hl, hleads⟩ := h.entry k n (map ▸ hn)
  exact ⟨l, hl, by rw [leads, hleads]⟩

/-- The caller in the locked section is alone there. -/
theorem Led.alone {key : Caller → Key} {s : State Caller Key Val} (h : Led key s) {c d : Caller}
    (hc : (s.pc c).inSection = true) (hd : (s.pc d).inSection = true) : d = c := by
  have guards := (h.section_guard d hd).symm.trans (h.section_guard c hc)
  exact Option.some.inj guards

/-- A key has one leader at a time. -/
theorem Led.sole_leader {key : Caller → Key} {s : State Caller Key Val} (h : Led key s)
    {c d : Caller} {m n : NotifyId} (hc : (s.pc c).leads = some m) (hd : (s.pc d).leads = some n)
    (same : key c = key d) : c = d := by
  have entry := h.leads_entry c m hc
  rw [same, h.leads_entry d n hd] at entry
  cases entry
  exact h.leads_once c d m hc hd

variable [DecidableEq Caller]

theorem goto_leads {s : State Caller Key Val} {c : Caller} {pc : Pc Val}
    (h : pc.leads = (s.pc c).leads) (d : Caller) : ((s.goto c pc).pc d).leads = (s.pc d).leads := by
  rw [goto_pc]
  split <;> simp_all

/-- A caller that moves without touching the map, to a role it may have. -/
theorem Led.goto {key : Caller → Key} {s : State Caller Key Val} (h : Led key s) {c : Caller}
    {pc : Pc Val} {guard : Option Caller}
    (section_ : ∀ d, ((s.goto c pc).pc d).inSection = true → guard = some d)
    (leads : ∀ m, pc.leads = some m → (s.pc c).leads = some m)
    (cloned : ∀ m, pc = .cloned m → s.inFlight (key c) = some m) :
    Led key { s.goto c pc with guard := guard } := by
  have led : ∀ d m, ((s.goto c pc).pc d).leads = some m → (s.pc d).leads = some m := by
    intro d m hd
    obtain ⟨rfl, here⟩ | ⟨-, before⟩ := goto_cases (·.leads = some m) hd
    · exact leads m here
    · exact before
  constructor
  · exact section_
  · exact h.entry_lt
  · intro d m hd
    exact h.leads_entry d m (led d m hd)
  · intro d e m hd he
    exact h.leads_once d e m (led d m hd) (led e m he)
  · intro d m hd
    obtain ⟨rfl, here⟩ | ⟨-, before⟩ := goto_cases (· = .cloned m) hd
    · exact cloned m here
    · exact h.cloned_entry d m before

/-- The same for a move that ends outside the locked section. -/
theorem Led.leave {key : Caller → Key} {s : State Caller Key Val} (h : Led key s) {c : Caller}
    {pc : Pc Val} (outside : pc.inSection = false)
    (leads : ∀ m, pc.leads = some m → (s.pc c).leads = some m) : Led key (s.goto c pc) := by
  have section_ : ∀ d, ((s.goto c pc).pc d).inSection = true → s.guard = some d := by
    intro d hd
    obtain ⟨-, here⟩ | ⟨-, before⟩ := goto_cases (·.inSection = true) hd
    · rw [outside] at here
      cases here
    · exact h.section_guard d before
  apply h.goto section_ leads
  intro m hm
  rw [hm] at outside
  cases outside

variable [DecidableEq Key]

/-- Removing an entry takes it from its leader, which no one else can have cloned. -/
theorem Led.remove {key : Caller → Key} {s : State Caller Key Val} (h : Led key s) {c : Caller}
    {n : NotifyId} {r : Except CacheError Val} (hpc : s.pc c = .finishLocked n r) :
    Led key { s.goto c (.removed (s.inFlight (key c)) r) with
      inFlight := Function.update s.inFlight (key c) none } := by
  have inside : (s.pc c).inSection = true := by rw [hpc]; rfl
  have leader : (s.pc c).leads = some n := by rw [hpc]; rfl
  have entry := h.leads_entry c n leader
  have kept : ∀ k m, Function.update s.inFlight (key c) none k = some m →
      k ≠ key c ∧ s.inFlight k = some m := by
    intro k m hk
    obtain ⟨-, gone⟩ | ⟨other, before⟩ := Transition.update_cases (· = some m) hk
    · cases gone
    · exact ⟨other, before⟩
  have others : ∀ {d : Caller}, d ≠ c → ∀ {m}, s.inFlight (key d) = some m →
      ((s.pc d).leads = some m ∨ s.pc d = .cloned m) →
      Function.update s.inFlight (key c) none (key d) = some m := by
    intro d distinct m hm role
    have apart : key d ≠ key c := by
      intro same
      obtain leads | cloned := role
      · exact distinct (h.sole_leader leads leader same)
      · exact distinct (h.alone inside (by rw [cloned]; rfl))
    rw [Function.update_of_ne apart]
    exact hm
  constructor
  · intro d hd
    obtain ⟨rfl, -⟩ | ⟨-, before⟩ := goto_cases (·.inSection = true) hd
    · exact h.section_guard d inside
    · exact h.section_guard d before
  · intro k m hk
    exact h.entry_lt k m (kept k m hk).2
  · intro d m hd
    obtain ⟨-, here⟩ | ⟨other, before⟩ := goto_cases (·.leads = some m) hd
    · cases here
    · exact others other (h.leads_entry d m before) (.inl before)
  · intro d e m hd he
    obtain ⟨-, here⟩ | ⟨-, first⟩ := goto_cases (·.leads = some m) hd
    · cases here
    · obtain ⟨-, here⟩ | ⟨-, second⟩ := goto_cases (·.leads = some m) he
      · cases here
      · exact h.leads_once d e m first second
  · intro d m hd
    obtain ⟨-, here⟩ | ⟨other, before⟩ := goto_cases (· = .cloned m) hd
    · cases here
    · exact others other (h.cloned_entry d m before) (.inr before)

theorem Led.insert {key : Caller → Key} {s : State Caller Key Val} (h : Led key s) {c : Caller}
    (hpc : s.pc c = .locked) (hn : s.inFlight (key c) = none) :
    Led key { s.goto c (.inserted s.next) with
      inFlight := Function.update s.inFlight (key c) (some s.next), next := s.next + 1 } := by
  obtain ⟨h1, h2, h3, h4, h5⟩ := h
  constructor <;>
    simp only [goto_pc, goto_guard, Function.update_apply] <;>
    grind [Pc.inSection, Pc.leads]

theorem Led.step {key : Caller → Key} {s t : State Caller Key Val} (h : Led key s)
    {c : Caller} {a : Action Val} (e : Effect key s c a t) : Led key t := by
  cases e with
  | move _ _ _ leads _ _ outside => exact h.leave outside fun m hm => leads ▸ hm
  | acquire free _ _ follows leads _ _ =>
    apply h.goto
    · intro d hd
      obtain ⟨rfl, -⟩ | ⟨-, before⟩ := goto_cases (·.inSection = true) hd
      · rfl
      · rw [h.section_guard d before] at free
        cases free
    · intro m hm
      exact leads ▸ hm
    · intro m hm
      rw [hm] at follows
      cases follows
  | clone hpc found =>
    have inside : (s.pc c).inSection = true := by rw [hpc]; rfl
    apply h.goto
    · intro d hd
      obtain ⟨rfl, -⟩ | ⟨-, before⟩ := goto_cases (·.inSection = true) hd
      · exact h.section_guard d inside
      · exact h.section_guard d before
    · intro m hm
      cases hm
    · intro m hm
      cases hm
      exact found
  | insert hpc hn => exact h.insert hpc hn
  | release inside outside _ leads _ _ =>
    apply h.goto
    · intro d hd
      obtain ⟨-, here⟩ | ⟨other, before⟩ := goto_cases (·.inSection = true) hd
      · rw [outside] at here
        cases here
      · exact absurd (h.alone inside before) other
    · intro m hm
      exact leads ▸ hm
    · intro m hm
      rw [hm] at outside
      cases outside
  | notified hpc => exact h.leave rfl nofun
  | resume hpc => exact h.leave rfl nofun
  | remove hpc => exact h.remove hpc
  | notify hpc =>
    apply Led.notify
    exact h.leave rfl nofun
  | drop _ => exact h.leave rfl nofun
  | panic hpc => exact h.leave rfl nofun

theorem NoOrphan.step {key : Caller → Key} {s t : State Caller Key Val} (h : NoOrphan key s)
    (led : Led key s) {c : Caller} {a : Action Val} (kept : Undisturbed s (c, a))
    (e : Effect key s c a t) : NoOrphan key t := by
  apply (led.step e).noOrphan
  cases e with
  | move _ _ _ hl _ _ _ => exact h.frame rfl (goto_leads hl)
  | acquire _ _ _ _ hl _ _ => exact h.frame rfl (goto_leads hl)
  | clone hpc _ => exact h.frame rfl (goto_leads (by rw [hpc]; rfl))
  | release _ _ _ hl _ _ => exact h.frame rfl (goto_leads hl)
  | notified hpc => exact h.frame rfl (goto_leads (by rw [hpc]; rfl))
  | resume hpc => exact h.frame rfl (goto_leads (by rw [hpc]; rfl))
  | drop _ => exact h.frame rfl (goto_leads (Eq.symm kept))
  | panic _ => exact h.frame rfl (goto_leads (Eq.symm kept))
  | notify hpc =>
    rename_i m r
    refine h.frame (by cases m <;> rfl) fun d => ?_
    have kept : ((s.goto c (.done r)).pc d).leads = (s.pc d).leads :=
      goto_leads (by rw [hpc]; rfl) d
    cases m with
    | none => exact kept
    | some m => simp only [State.notifyWaiters, Pc.leads_wake, kept]
  | insert hpc hn =>
    intro k n hk
    simp only [Function.update_apply] at hk
    split at hk
    · rename_i same
      exact ⟨c, same.symm, by simpa [Pc.leads] using hk⟩
    · obtain ⟨l, hl, leads⟩ := h.entry k n hk
      refine ⟨l, hl, ?_⟩
      have other : l ≠ c := by rintro rfl; simp [hpc, Pc.leads] at leads
      change ((s.goto c _).pc l).leads = some n
      rw [goto_pc_of_ne other, leads]
  | remove hpc =>
    intro k n hk
    simp only [Function.update_apply] at hk
    split at hk
    · cases hk
    · rename_i other
      obtain ⟨l, rfl, leads⟩ := h.entry k n hk
      have hlc : l ≠ c := by rintro rfl; exact other rfl
      refine ⟨l, rfl, ?_⟩
      change ((s.goto c _).pc l).leads = some n
      rw [goto_pc_of_ne hlc, leads]

/-- What a leader leaves behind when it disappears has no owner. -/
theorem disturbed_breaks {key : Caller → Key} {s t : State Caller Key Val} (led : Led key s)
    {ca : Caller × Action Val} (disturbed : ¬ Undisturbed s ca) (hs : step key s ca = some t) :
    ¬ NoOrphan key t := by
  obtain ⟨c, a⟩ := ca
  have gone : (s.pc c).leads ≠ none ∧ t = s.goto c .dropped := by
    cases a with
    | drop => exact ⟨disturbed, step_gone (Or.inl rfl) hs⟩
    | panic => exact ⟨disturbed, step_gone (Or.inr rfl) hs⟩
    | _ => exact absurd trivial disturbed
  obtain ⟨leading, rfl⟩ := gone
  obtain ⟨n, hn⟩ := Option.ne_none_iff_exists'.mp leading
  intro h
  obtain ⟨l, -, hl⟩ := h.entry (key c) n (led.leads_entry c n hn)
  obtain ⟨-, here⟩ | ⟨other, before⟩ := goto_cases (·.leads = some n) hl
  · cases here
  · exact absurd (led.leads_once l c n before hn) other

/-- While no leader is dropped or unwound, every entry has its owner. -/
theorem owned_of_undisturbed {key : Caller → Key} {run : List (Caller × Action Val)}
    (h : Transition.Along (step key) Undisturbed init run) :
    Transition.Always (step key) (fun s => Led key s ∧ NoOrphan key s) init run :=
  h.always
    (fun _ _ _ hi ok hs => ⟨hi.1.step (step_effect hs), hi.2.step hi.1 ok (step_effect hs)⟩)
    ⟨init_led key, (init_led key).noOrphan (by simp [init])⟩

/-- **No orphaned entry, exactly.** Over every run, with any future dropped at any
await and any loader panicking, each entry has a live owner in every state if and
only if no leader was dropped or unwound between its insertion and its removal. -/
theorem noOrphan_iff_undisturbed (key : Caller → Key) (run : List (Caller × Action Val)) :
    Transition.Always (step key) (NoOrphan key) init run ↔
      Transition.Along (step key) Undisturbed init run := by
  constructor
  · intro h
    refine h.along (I := Led key) ?_ (fun _ _ _ led ok hs => disturbed_breaks led ok hs)
      (init_led key)
    exact fun s a t led _ hs => led.step (step_effect hs)
  · intro h
    exact (owned_of_undisturbed h).mono fun s hi => hi.2

/-- A leader that is dropped while its loader runs, as by a request timeout. -/
def timeoutRun : List (Nat × Action Unit) :=
  [(0, .call), (0, .got (.ok none)), (0, .acquire), (0, .lookup), (0, .release), (0, .drop)]

theorem timeoutRun_orphans :
    ¬ Transition.Always (step fun _ : Nat => ()) (NoOrphan fun _ => ()) init timeoutRun := by
  intro h
  obtain ⟨s, hs, entry, gone⟩ : ∃ s,
      Transition.exec (step fun _ : Nat => ()) init timeoutRun = some s ∧
      s.inFlight () = some 0 ∧ ∀ c, (s.pc c).leads = none := by
    refine ⟨_, rfl, rfl, fun c => ?_⟩
    by_cases hc : c = 0
    · subst hc; rfl
    · simp only [goto_pc, if_neg hc]
      rfl
  obtain ⟨l, -, hl⟩ := (h.last hs).entry () 0 entry
  rw [gone] at hl
  cases hl

/-- An entry no caller of its key leads. -/
def Orphaned (key : Caller → Key) (k : Key) (n : NotifyId) (s : State Caller Key Val) : Prop :=
  s.inFlight k = some n ∧ ∀ c, key c = k → (s.pc c).leads = none

theorem Orphaned.step {key : Caller → Key} {s t : State Caller Key Val} {k : Key} {n : NotifyId}
    (h : Orphaned key k n s) {c : Caller} {a : Action Val} (e : Effect key s c a t) :
    Orphaned key k n t := by
  obtain ⟨entry, gone⟩ := h
  cases e with
  | notify hpc =>
    rename_i m r
    cases m <;> constructor <;> simp only [State.notifyWaiters, goto_pc, goto_inFlight,
      Pc.leads_wake] <;> grind [Pc.leads]
  | _ =>
    constructor <;> simp only [goto_pc, goto_inFlight, Function.update_apply] <;>
      grind [Pc.leads]

/-- An orphaned entry is never removed: from then on every caller of the key that
looks it up becomes a follower of the `Notify` nobody will notify. -/
theorem orphaned_forever (key : Caller → Key) {s : State Caller Key Val} {k : Key} {n : NotifyId}
    (h : Orphaned key k n s) (run : List (Caller × Action Val)) :
    Transition.Always (step key) (Orphaned key k n) s run :=
  Transition.always_of_preserved (fun _ _ _ hi hs => hi.step (step_effect hs)) h run

end RustyGasket.SingleFlight
