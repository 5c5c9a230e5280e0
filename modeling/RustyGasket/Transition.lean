import Mathlib.Logic.Function.Basic

/-!
# Runs of a labelled transition system

A system is a partial step function: `step s a` is the state after label `a`, or
`none` where `a` is not enabled in `s`. A run is a list of labels, so one list
fixes both the interleaving and every outcome the environment chose.

* `exec`: the state a run ends in;
* `Always P`: every state the run passes satisfies `P`;
* `Along ok`: every step the run takes is taken from a state where `ok` allows it;
* `always_of_preserved`: the invariant rule;
* `Along.always`: the same under a condition on the steps;
* `Always.along`: the converse, where a step outside the condition breaks `P`;
* `Along.weaken`: a condition that implies another in every invariant state;
* `along_of_invariant`: what every step out of an invariant state meets;
* `along_congr`: two conditions that every step out of an invariant state tells the same of;
* `exec_project`: a relation that some labels keep in step, and the others keep
  without the second system moving, carries a run to its projection;
* `count p`: the steps of the run that `p` picks;
* `count_balance`: a level that one kind of step raises and another lowers;
* `update_cases`: in a state that is a function, what holds after one point moves.
-/

namespace Transition

variable {σ α : Type*}

/-- The state a run of labels ends in, when each label is enabled in turn. -/
def exec (step : σ → α → Option σ) (s : σ) : List α → Option σ
  | [] => some s
  | a :: rest => (step s a).bind fun t => exec step t rest

/-- Every state of the run satisfies `P`, the first and the last included. -/
def Always (step : σ → α → Option σ) (P : σ → Prop) (s : σ) : List α → Prop
  | [] => P s
  | a :: rest => P s ∧ ∀ t, step s a = some t → Always step P t rest

/-- Every step of the run is taken from a state in which `ok` allows its label. -/
def Along (step : σ → α → Option σ) (ok : σ → α → Prop) (s : σ) : List α → Prop
  | [] => True
  | a :: rest => ∀ t, step s a = some t → ok s a ∧ Along step ok t rest

/-- How many steps of the run `p` picks. -/
def count (step : σ → α → Option σ) (p : σ → α → Bool) (s : σ) : List α → Nat
  | [] => 0
  | a :: rest => match step s a with
    | some t => (p s a).toNat + count step p t rest
    | none => 0

theorem Always.head {step : σ → α → Option σ} {P : σ → Prop} {s : σ} {run : List α}
    (h : Always step P s run) : P s := by
  cases run with
  | nil => exact h
  | cons a rest => exact h.1

theorem Always.mono {step : σ → α → Option σ} {P Q : σ → Prop} (hpq : ∀ s, P s → Q s)
    {s : σ} {run : List α} (h : Always step P s run) : Always step Q s run := by
  induction run generalizing s with
  | nil => exact hpq s h
  | cons a rest ih => exact ⟨hpq s h.1, fun t ht => ih (h.2 t ht)⟩

/-- The last state of a run is one of the states it passes. -/
theorem Always.last {step : σ → α → Option σ} {P : σ → Prop} {s t : σ} {run : List α}
    (h : Always step P s run) (he : exec step s run = some t) : P t := by
  induction run generalizing s with
  | nil => cases he; exact h
  | cons a rest ih =>
    obtain ⟨u, hu, hr⟩ := Option.bind_eq_some_iff.mp he
    exact ih (h.2 u hu) hr

/-- **The invariant rule, under a condition.** What allowed steps preserve holds in every state of
a run whose steps are all allowed. -/
theorem Along.always {step : σ → α → Option σ} {ok : σ → α → Prop} {P : σ → Prop}
    (preserves : ∀ s a t, P s → ok s a → step s a = some t → P t)
    {s : σ} {run : List α} (h : Along step ok s run) (hs : P s) : Always step P s run := by
  induction run generalizing s with
  | nil => exact hs
  | cons a rest ih =>
    refine ⟨hs, fun t ht => ?_⟩
    obtain ⟨hok, hrest⟩ := h t ht
    exact ih hrest (preserves s a t hs hok ht)

/-- The converse: where leaving the condition in an invariant state breaks the
property in the next one, a run that keeps the property kept the condition. -/
theorem Always.along {step : σ → α → Option σ} {ok : σ → α → Prop} {I P : σ → Prop}
    (preserves : ∀ s a t, I s → ok s a → step s a = some t → I t)
    (breaks : ∀ s a t, I s → ¬ ok s a → step s a = some t → ¬ P t)
    {s : σ} {run : List α} (h : Always step P s run) (hs : I s) : Along step ok s run := by
  induction run generalizing s with
  | nil => trivial
  | cons a rest ih =>
    intro t ht
    have next := h.2 t ht
    by_cases hok : ok s a
    · exact ⟨hok, ih next (preserves s a t hs hok ht)⟩
    · exact absurd next.head (breaks s a t hs hok ht)

/-- A condition on the steps gives another one through an invariant it keeps. -/
theorem Along.weaken {step : σ → α → Option σ} {ok ok' : σ → α → Prop} {I : σ → Prop}
    (preserves : ∀ s a t, I s → ok s a → step s a = some t → I t)
    (implies : ∀ s a t, I s → ok s a → step s a = some t → ok' s a)
    {s : σ} {run : List α} (h : Along step ok s run) (hs : I s) : Along step ok' s run := by
  induction run generalizing s with
  | nil => trivial
  | cons a rest ih =>
    intro t ht
    obtain ⟨hok, hrest⟩ := h t ht
    exact ⟨implies s a t hs hok ht, ih hrest (preserves s a t hs hok ht)⟩

/-- **The projection rule.** Where `keep` labels can be matched and the other
labels go unseen, the kept labels of a run are a run from every related state. -/
theorem exec_project {step : σ → α → Option σ} {R : σ → σ → Prop} (keep : α → Bool)
    (seen : ∀ s s' a t, R s s' → keep a = true → step s a = some t →
      ∃ t', step s' a = some t' ∧ R t t')
    (unseen : ∀ s s' a t, R s s' → keep a = false → step s a = some t → R t s')
    {s s' t : σ} {run : List α} (hr : R s s') (he : exec step s run = some t) :
    ∃ t', exec step s' (run.filter keep) = some t' ∧ R t t' := by
  induction run generalizing s s' with
  | nil => cases he; exact ⟨s', rfl, hr⟩
  | cons a rest ih =>
    obtain ⟨u, hu, hrest⟩ := Option.bind_eq_some_iff.mp he
    cases kept : keep a with
    | true =>
      obtain ⟨u', hu', related⟩ := seen s s' a u hr kept hu
      obtain ⟨t', ht', final⟩ := ih related hrest
      refine ⟨t', ?_, final⟩
      simp only [List.filter_cons_of_pos kept, exec, hu', Option.bind_some, ht']
    | false =>
      obtain ⟨t', ht', final⟩ := ih (unseen s s' a u hr kept hu) hrest
      refine ⟨t', ?_, final⟩
      rw [List.filter_cons_of_neg (by simp [kept])]
      exact ht'

/-- A condition that every step out of an invariant state meets holds along every run. -/
theorem along_of_invariant {step : σ → α → Option σ} {ok : σ → α → Prop} {I : σ → Prop}
    (preserves : ∀ s a t, I s → step s a = some t → I t)
    (meets : ∀ s a t, I s → step s a = some t → ok s a) {s : σ} (hs : I s) (run : List α) :
    Along step ok s run := by
  induction run generalizing s with
  | nil => trivial
  | cons a rest ih =>
    intro t ht
    exact ⟨meets s a t hs ht, ih (preserves s a t hs ht)⟩

/-- Where every step out of an invariant state meets both conditions or neither, so does
every run. -/
theorem along_congr {step : σ → α → Option σ} {ok ok' : σ → α → Prop} {I : σ → Prop}
    (preserves : ∀ s a t, I s → step s a = some t → I t)
    (same : ∀ s a t, I s → step s a = some t → (ok s a ↔ ok' s a)) {s : σ} (hs : I s)
    (run : List α) : Along step ok s run ↔ Along step ok' s run := by
  constructor
  · intro h
    exact h.weaken (fun s a t hi _ => preserves s a t hi)
      (fun s a t hi hok ht => (same s a t hi ht).mp hok) hs
  · intro h
    exact h.weaken (fun s a t hi _ => preserves s a t hi)
      (fun s a t hi hok ht => (same s a t hi ht).mpr hok) hs

/-- An invariant state leads to invariant states. -/
theorem exec_preserved {step : σ → α → Option σ} {P : σ → Prop}
    (preserves : ∀ s a t, P s → step s a = some t → P t) {s t : σ} {run : List α} (hs : P s)
    (he : exec step s run = some t) : P t := by
  induction run generalizing s with
  | nil => cases he; exact hs
  | cons a rest ih =>
    obtain ⟨u, hu, hrest⟩ := Option.bind_eq_some_iff.mp he
    exact ih (preserves s a u hs hu) hrest

/-- **The balance rule.** Where every step raises a level by what `p` counts and
lowers it by what `q` counts, so does a run. -/
theorem count_balance {step : σ → α → Option σ} {p q : σ → α → Bool} {I : σ → Prop}
    {ok : α → Prop} {level : σ → Nat} (preserves : ∀ s a t, I s → step s a = some t → I t)
    (balance : ∀ s a t, I s → ok a → step s a = some t →
      level s + (p s a).toNat = level t + (q s a).toNat)
    {s t : σ} {run : List α} (hs : I s) (hok : ∀ a ∈ run, ok a)
    (he : exec step s run = some t) :
    level s + count step p s run = level t + count step q s run := by
  induction run generalizing s with
  | nil => cases he; rfl
  | cons a rest ih =>
    obtain ⟨u, hu, hrest⟩ := Option.bind_eq_some_iff.mp he
    have first := balance s a u hs (hok a List.mem_cons_self) hu
    have later := ih (preserves s a u hs hu) (fun b hb => hok b (List.mem_cons_of_mem _ hb)) hrest
    simp only [count, hu]
    omega

theorem exec_append {step : σ → α → Option σ} {s : σ} (run rest : List α) :
    exec step s (run ++ rest) = (exec step s run).bind fun t => exec step t rest := by
  induction run generalizing s with
  | nil => rfl
  | cons a run ih =>
    simp only [List.cons_append, exec]
    cases step s a with
    | none => rfl
    | some t => exact ih

theorem count_append {step : σ → α → Option σ} {p : σ → α → Bool} {s t : σ} {run : List α}
    (he : exec step s run = some t) (rest : List α) :
    count step p s (run ++ rest) = count step p s run + count step p t rest := by
  induction run generalizing s with
  | nil => cases he; exact (Nat.zero_add _).symm
  | cons a run ih =>
    obtain ⟨u, hu, hrest⟩ := Option.bind_eq_some_iff.mp he
    simp only [List.cons_append, count, hu, ih hrest, Nat.add_assoc]

/-- What every step preserves holds in every state of every run. -/
theorem always_of_preserved {step : σ → α → Option σ} {P : σ → Prop}
    (preserves : ∀ s a t, P s → step s a = some t → P t) {s : σ} (hs : P s) (run : List α) :
    Always step P s run := by
  induction run generalizing s with
  | nil => exact hs
  | cons a rest ih => exact ⟨hs, fun t ht => ih (preserves s a t hs ht)⟩

/-- What holds somewhere after one point has moved holds of the new value there, or
held elsewhere before. -/
theorem update_cases {ι β : Type*} [DecidableEq ι] {f : ι → β} {c d : ι} {v : β} (P : β → Prop)
    (h : P (Function.update f c v d)) : d = c ∧ P v ∨ d ≠ c ∧ P (f d) := by
  by_cases same : d = c
  · subst same
    rw [Function.update_self] at h
    exact .inl ⟨rfl, h⟩
  · rw [Function.update_of_ne same] at h
    exact .inr ⟨same, h⟩

end Transition
