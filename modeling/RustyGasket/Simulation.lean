import RustyGasket.Transition

/-!
# Runs that another system follows

Where every step of a system tells the labels a second one takes to keep up with it,
the labels a whole run tells are a run of the second.

* `trace`: what a run tells, step by step;
* `mem_trace`: it was told by one of its steps;
* `exec_trace`: the simulation rule;
* `family`: many copies of a system, each moving by labels of its own;
* `exec_family`: each copy makes the run of its labels.
-/

namespace Transition

variable {σ τ α β : Type*}

def trace (step : σ → α → Option σ) (effect : σ → α → List β) (s : σ) : List α → List β
  | [] => []
  | a :: rest => match step s a with
    | some t => effect s a ++ trace step effect t rest
    | none => []

theorem trace_cons {step : σ → α → Option σ} {effect : σ → α → List β} {s t : σ} {a : α}
    (ht : step s a = some t) (rest : List α) :
    trace step effect s (a :: rest) = effect s a ++ trace step effect t rest := by
  simp only [trace, ht]

theorem mem_trace {step : σ → α → Option σ} {effect : σ → α → List β} {s : σ} {run : List α} {b : β}
    (h : b ∈ trace step effect s run) : ∃ a ∈ run, ∃ t, b ∈ effect t a := by
  induction run generalizing s with
  | nil => cases h
  | cons a rest ih =>
    cases ht : step s a with
    | none =>
      simp only [trace, ht] at h
      cases h
    | some t =>
      rw [trace_cons ht] at h
      obtain now | later := List.mem_append.mp h
      · exact ⟨a, List.mem_cons_self, s, now⟩
      · obtain ⟨a', listed, told⟩ := ih later
        exact ⟨a', List.mem_cons_of_mem _ listed, told⟩

/-- **The simulation rule.** A relation that the steps of the one and the labels they tell
keep, carries a run of the one to a run of the other. -/
theorem exec_trace {step : σ → α → Option σ} {spec : τ → β → Option τ} {effect : σ → α → List β}
    {R : σ → τ → Prop}
    (follows : ∀ s t a s', R s t → step s a = some s' →
      ∃ t', exec spec t (effect s a) = some t' ∧ R s' t')
    {s s' : σ} {t : τ} {run : List α} (hr : R s t) (he : exec step s run = some s') :
    ∃ t', exec spec t (trace step effect s run) = some t' ∧ R s' t' := by
  induction run generalizing s t with
  | nil => cases he; exact ⟨t, rfl, hr⟩
  | cons a rest ih =>
    obtain ⟨u, hu, hrest⟩ := Option.bind_eq_some_iff.mp he
    obtain ⟨v, hv, related⟩ := follows s t a u hr hu
    obtain ⟨t', ht', final⟩ := ih related hrest
    refine ⟨t', ?_, final⟩
    rw [trace_cons hu, exec_append, hv]
    exact ht'

section
variable {ι : Type*} [DecidableEq ι]

def family (step : σ → α → Option σ) (s : ι → σ) (label : ι × α) : Option (ι → σ) :=
  (step (s label.1) label.2).map (Function.update s label.1)

def ownLabels (i : ι) (run : List (ι × α)) : List α :=
  run.filterMap fun label => if label.1 = i then some label.2 else none

theorem ownLabels_cons (i : ι) (label : ι × α) (rest : List (ι × α)) :
    ownLabels i (label :: rest) =
      if label.1 = i then label.2 :: ownLabels i rest else ownLabels i rest := by
  by_cases own : label.1 = i <;> simp [ownLabels, own]

theorem exec_family {step : σ → α → Option σ} {s t : ι → σ} {run : List (ι × α)}
    (h : exec (family step) s run = some t) (i : ι) :
    exec step (s i) (ownLabels i run) = some (t i) := by
  induction run generalizing s with
  | nil =>
    cases h
    rfl
  | cons label rest ih =>
    obtain ⟨u, moved, later⟩ := Option.bind_eq_some_iff.mp h
    obtain ⟨v, hv, rfl⟩ := Option.map_eq_some_iff.mp moved
    have own := ih later
    by_cases here : label.1 = i
    · subst here
      rw [Function.update_self] at own
      rw [ownLabels_cons, if_pos rfl, exec, hv]
      exact own
    · rw [Function.update_of_ne (Ne.symm here)] at own
      rw [ownLabels_cons, if_neg here]
      exact own

end

end Transition
