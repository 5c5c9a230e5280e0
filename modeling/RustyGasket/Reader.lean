import Mathlib.Logic.Basic

/-!
# Readers over a list of tokens

A reader takes tokens off the front of its input or fails; a failed reader has
consumed nothing, so `<|>` tries the alternative on the same input.

`Eats P r` says that whatever `r` takes satisfies `P`, token by token, so text a
reader consumes whole consists of tokens that satisfy `P`.
-/

namespace Reading

/-- A reader of `τ`s. -/
abbrev Reader (τ : Type) := StateT (List τ) Option

variable {τ α β : Type} {P : τ → Prop}

def token : Reader τ τ
  | [] => none
  | t :: rest => some (t, rest)

/-- The longest prefix of tokens that `f` maps to a value, with the values. -/
def spanSome (f : τ → Option α) : Reader τ (List α)
  | [] => some ([], [])
  | t :: rest => match f t with
    | none => some ([], t :: rest)
    | some a => (spanSome f rest).map fun x => (a :: x.1, x.2)

/-- Reading `s` whole. -/
def all (r : Reader τ α) (s : List τ) : Option α :=
  match r s with
  | some (a, []) => some a
  | _ => none

def Eats (P : τ → Prop) (r : Reader τ α) : Prop :=
  ∀ s a rest, r s = some (a, rest) → ∃ front, s = front ++ rest ∧ ∀ t ∈ front, P t

theorem Eats.pure (a : α) : Eats P (pure a : Reader τ α) := by
  intro s b rest h
  cases h
  exact ⟨[], rfl, by simp⟩

theorem Eats.failure : Eats P (failure : Reader τ α) := by
  intro s a rest h
  cases h

theorem Eats.bind {r : Reader τ α} {f : α → Reader τ β} (hr : Eats P r) (hf : ∀ a, Eats P (f a)) :
    Eats P (r >>= f) := by
  intro s b rest h
  obtain ⟨⟨a, mid⟩, hm, hb⟩ := Option.bind_eq_some_iff.mp h
  obtain ⟨front, rfl, hfront⟩ := hr s a mid hm
  obtain ⟨back, rfl, hback⟩ := hf a mid b rest hb
  exact ⟨front ++ back, by simp, fun t ht => (List.mem_append.mp ht).elim (hfront t) (hback t)⟩

theorem Eats.orElse {r r' : Reader τ α} (hr : Eats P r) (hr' : Eats P r') :
    Eats P (r <|> r') := by
  intro s a rest h
  change (r s).orElse (fun _ => r' s) = _ at h
  cases hrs : r s with
  | none => rw [hrs] at h; exact hr' s a rest h
  | some x => rw [hrs] at h; cases h; exact hr s a rest hrs

theorem Eats.ite {c : Prop} [Decidable c] {r r' : Reader τ α} (hr : c → Eats P r)
    (hr' : ¬ c → Eats P r') : Eats P (if c then r else r') := by
  split
  · exact hr ‹_›
  · exact hr' ‹_›

/-- A token checked before anything else is done with it. -/
theorem Eats.token {f : τ → Reader τ β} (hf : ∀ t, P t → Eats P (f t))
    (hbad : ∀ t, ¬ P t → f t = Alternative.failure) : Eats P (token >>= f) := by
  intro s b rest h
  cases s with
  | nil => cases h
  | cons t s =>
    have h' : f t s = some (b, rest) := h
    by_cases ht : P t
    · obtain ⟨front, rfl, hfront⟩ := hf t ht s b rest h'
      exact ⟨t :: front, rfl, List.forall_mem_cons.mpr ⟨ht, hfront⟩⟩
    · rw [hbad t ht] at h'
      cases h'

theorem Eats.spanSome {f : τ → Option α} (hf : ∀ t a, f t = some a → P t) :
    Eats P (spanSome f) := by
  intro s as rest h
  induction s generalizing as with
  | nil => cases h; exact ⟨[], rfl, by simp⟩
  | cons t s ih =>
    rw [Reading.spanSome] at h
    split at h
    · cases h; exact ⟨[], rfl, by simp⟩
    · rename_i a ha
      obtain ⟨⟨as', rest'⟩, hs, he⟩ := Option.map_eq_some_iff.mp h
      cases he
      obtain ⟨front, rfl, hfront⟩ := ih as' hs
      exact ⟨t :: front, rfl, List.forall_mem_cons.mpr ⟨hf t a ha, hfront⟩⟩

/-- Text read whole consists of tokens the reader eats. -/
theorem Eats.all {r : Reader τ α} (h : Eats P r) {s : List τ} {a : α} (hs : all r s = some a) :
    ∀ t ∈ s, P t := by
  rw [Reading.all] at hs
  split at hs
  · rename_i b he
    obtain ⟨front, rfl, hfront⟩ := h s b [] he
    simpa using hfront
  · cases hs

end Reading
