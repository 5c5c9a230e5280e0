import Mathlib.Logic.Function.Basic

/-!
# Who holds which thing

Two partial maps that are each other's converse: what each holder has, and who
has each thing. Nobody has two things and nothing has two holders; one holder
takes or gives back one thing at a time.

* `Paired.take`, `Paired.release`: both sides of a change;
* `Paired.same_holder`: a thing has one holder.
-/

/-- `f` and `g` are each other's converse. -/
def Paired {α β : Type*} (f : α → Option β) (g : β → Option α) : Prop :=
  ∀ a b, f a = some b ↔ g b = some a

namespace Paired

variable {α β : Type*} {f : α → Option β} {g : β → Option α} {a a' : α} {b : β}

theorem empty : Paired (fun _ : α => (none : Option β)) fun _ => none := by
  intro a b
  constructor <;> nofun

theorem same_holder (h : Paired f g) (ha : f a = some b) (ha' : f a' = some b) : a = a' := by
  have held := (h a b).mp ha
  rw [(h a' b).mp ha'] at held
  exact (Option.some.inj held).symm

variable [DecidableEq α] [DecidableEq β]

/-- `a`, which has nothing, takes `b`, which nobody has. -/
theorem take (h : Paired f g) (idle : f a = none) (free : g b = none) :
    Paired (Function.update f a (some b)) (Function.update g b (some a)) := by
  intro c d
  by_cases ca : c = a
  · subst ca
    rw [Function.update_self]
    by_cases db : d = b
    · subst db
      simp
    · rw [Function.update_of_ne db]
      constructor
      · intro same
        exact absurd (Option.some.inj same).symm db
      · intro held
        rw [(h c d).mpr held] at idle
        cases idle
  · rw [Function.update_of_ne ca]
    by_cases db : d = b
    · subst db
      rw [Function.update_self]
      constructor
      · intro held
        rw [(h c d).mp held] at free
        cases free
      · intro same
        exact absurd (Option.some.inj same).symm ca
    · rw [Function.update_of_ne db]
      exact h c d

/-- `a` gives back what it has. -/
theorem release (h : Paired f g) (held : f a = some b) :
    Paired (Function.update f a none) (Function.update g b none) := by
  intro c d
  by_cases ca : c = a
  · subst ca
    rw [Function.update_self]
    by_cases db : d = b
    · subst db
      rw [Function.update_self]
      constructor <;> nofun
    · rw [Function.update_of_ne db]
      constructor
      · nofun
      · intro other
        have same := held.symm.trans ((h c d).mpr other)
        exact absurd (Option.some.inj same).symm db
  · rw [Function.update_of_ne ca]
    by_cases db : d = b
    · subst db
      rw [Function.update_self]
      constructor
      · intro other
        exact absurd (h.same_holder other held) ca
      · nofun
    · rw [Function.update_of_ne db]
      exact h c d

end Paired
