/-!
# Taking apart an `Except`

From what a composed computation returned, what its parts returned. And what is known
of an error, through a composition.
-/

namespace Fallible

variable {ε ε' α β : Type}

theorem bind_ok {x : Except ε α} {f : α → Except ε β} {b : β} (h : (x >>= f) = .ok b) :
    ∃ a, x = .ok a ∧ f a = .ok b := by
  cases x with
  | error e => cases h
  | ok a => exact ⟨a, rfl, h⟩

theorem bind_error {x : Except ε α} {f : α → Except ε β} {e : ε} (h : (x >>= f) = .error e) :
    x = .error e ∨ ∃ a, x = .ok a ∧ f a = .error e := by
  cases x with
  | error e' =>
    cases h
    exact .inl rfl
  | ok a => exact .inr ⟨a, rfl, h⟩

theorem map_ok {x : Except ε α} {f : α → β} {b : β} (h : x.map f = .ok b) :
    ∃ a, x = .ok a ∧ f a = b := by
  cases x with
  | error e => cases h
  | ok a => exact ⟨a, rfl, Except.ok.inj h⟩

theorem mapError_ok {x : Except ε α} {f : ε → ε'} {a : α} (h : x.mapError f = .ok a) :
    x = .ok a := by
  cases x with
  | error e => cases h
  | ok a' => exact congrArg Except.ok (Except.ok.inj h)

theorem mapError_ok_iff {x : Except ε α} {f : ε → ε'} {a : α} :
    x.mapError f = .ok a ↔ x = .ok a := by
  refine ⟨mapError_ok, ?_⟩
  rintro rfl
  rfl

/-- The error, where there is one, meets `P`. -/
def ErrorsMeet (P : ε → Prop) : Except ε α → Prop
  | .error e => P e
  | .ok _ => True

theorem errorsMeet_iff {P : ε → Prop} {x : Except ε α} :
    ErrorsMeet P x ↔ ∀ e, x = .error e → P e := by
  cases x with
  | error e => simp [ErrorsMeet]
  | ok a => simp [ErrorsMeet]

theorem errorsMeet_bind {P : ε → Prop} {x : Except ε α} {f : α → Except ε β} :
    ErrorsMeet P (x >>= f) ↔ ErrorsMeet P x ∧ ∀ a, x = .ok a → ErrorsMeet P (f a) := by
  cases x with
  | error e => exact ⟨fun h => ⟨h, nofun⟩, fun h => h.1⟩
  | ok a => exact ⟨fun h => ⟨trivial, fun _ same => by cases same; exact h⟩, fun h => h.2 a rfl⟩

theorem errorsMeet_mapError {P : ε' → Prop} {x : Except ε α} {f : ε → ε'} :
    ErrorsMeet P (x.mapError f) ↔ ErrorsMeet (fun e => P (f e)) x := by
  cases x <;> exact Iff.rfl

end Fallible
