import Mathlib.Data.List.Basic

/-!
# Computations that log what they do

A traced computation is its value with the events logged on the way to it. Three
loops run one over a list: `foldEach` threads an accumulator, `forEach` goes on
whatever each element returns, and `tryEach` stops at the first error.
-/

/-- A value and the events on the way to it. -/
@[ext]
structure Traced (ε α : Type) where
  value : α
  events : List ε

namespace Traced

variable {ε α β σ E : Type}

instance : Monad (Traced ε) where
  pure a := ⟨a, []⟩
  bind m f := ⟨(f m.value).value, m.events ++ (f m.value).events⟩

def log (event : ε) (value : α) : Traced ε α := ⟨value, [event]⟩

@[simp] theorem value_log (event : ε) (a : α) : (log event a).value = a := rfl

@[simp] theorem events_log (event : ε) (a : α) : (log event a).events = [event] := rfl

@[simp] theorem value_pure (a : α) : (pure a : Traced ε α).value = a := rfl

@[simp] theorem events_pure (a : α) : (pure a : Traced ε α).events = [] := rfl

@[simp] theorem value_bind (m : Traced ε α) (f : α → Traced ε β) :
    (m >>= f).value = (f m.value).value := rfl

@[simp] theorem events_bind (m : Traced ε α) (f : α → Traced ε β) :
    (m >>= f).events = m.events ++ (f m.value).events := rfl

def foldEach (f : σ → β → Traced ε σ) : σ → List β → Traced ε σ
  | s, [] => pure s
  | s, b :: rest => do
    let s ← f s b
    foldEach f s rest

def forEach (f : β → Traced ε Unit) : List β → Traced ε Unit
  | [] => pure ()
  | b :: rest => do
    f b
    forEach f rest

def tryEach (f : β → Traced ε (Except E Unit)) : List β → Traced ε (Except E Unit)
  | [] => pure (.ok ())
  | b :: rest => do
    match ← f b with
    | .ok () => tryEach f rest
    | .error e => pure (.error e)

theorem foldEach_cons (f : σ → β → Traced ε σ) (s : σ) (b : β) (rest : List β) :
    foldEach f s (b :: rest) = f s b >>= fun s => foldEach f s rest := rfl

/-- A fold that logs one event a step logs them along the accumulators. -/
theorem foldEach_log (next : σ → β → σ) (event : σ → β → ε) (s : σ) (l : List β) :
    foldEach (fun s b => log (event s b) (next s b)) s l =
      ⟨l.foldl next s, List.zipWith event (l.scanl next s) l⟩ := by
  induction l generalizing s with
  | nil => rfl
  | cons b rest ih =>
    rw [foldEach_cons]
    ext1
    · rw [value_bind, value_log, ih]
      rfl
    · rw [events_bind, value_log, ih, List.scanl_cons]
      rfl

theorem forEach_log (event : β → ε) (l : List β) :
    forEach (fun b => log (event b) ()) l = ⟨(), l.map event⟩ := by
  induction l with
  | nil => rfl
  | cons b rest ih =>
    rw [forEach, ih]
    rfl

theorem tryEach_ok_iff (f : β → Traced ε (Except E Unit)) (l : List β) :
    (tryEach f l).value = .ok () ↔ ∀ b ∈ l, (f b).value = .ok () := by
  induction l with
  | nil => simp [tryEach]
  | cons b rest ih =>
    rw [tryEach, value_bind]
    cases h : (f b).value with
    | ok u => simp [h, ih]
    | error e => simp [h]

/-- Whatever holds of the events of each element holds along the loop. -/
theorem tryEach_events {f : β → Traced ε (Except E Unit)} {P : ε → Prop} {l : List β}
    (h : ∀ b ∈ l, ∀ e ∈ (f b).events, P e) : ∀ e ∈ (tryEach f l).events, P e := by
  induction l with
  | nil => simp [tryEach]
  | cons b rest ih =>
    intro e he
    rw [tryEach, events_bind, List.mem_append] at he
    obtain he | he := he
    · exact h b (List.mem_cons_self ..) e he
    · cases hb : (f b).value with
      | ok u =>
        rw [hb] at he
        exact ih (fun b' hb' => h b' (List.mem_cons_of_mem _ hb')) e he
      | error err =>
        rw [hb] at he
        cases he

end Traced
