import Mathlib.Data.Set.Card

/-!
# How many hold what

A role gives each participant at most one thing it holds. `Tally role i n` says
that `n` of them hold `i`; one participant changes its role at a time.

* `Tally.enter`, `Tally.leave`, `Tally.other`: what a change does to the number;
* `Tally.take`, `Tally.release`: what it does to all of them;
* `Tally.none`, `Tally.pos`: whether anybody holds it;
* `Tally.eq`: there is one number;
* `Tally.unique`: at most one does.
-/

/-- `n` participants hold `i`. -/
def Tally {τ ι : Type*} (role : τ → Option ι) (i : ι) (n : ℕ) : Prop :=
  Set.encard {c | role c = some i} = n

namespace Tally

variable {τ ι : Type*} {role : τ → Option ι} {i : ι} {n : ℕ} {c d : τ}

theorem eq {m : ℕ} (h : Tally role i n) (h' : Tally role i m) : n = m := by
  have same : (n : ℕ∞) = m := h.symm.trans h'
  exact_mod_cast same

theorem zero (h : ∀ c, role c ≠ some i) : Tally role i 0 := by
  rw [Tally, Nat.cast_zero, Set.encard_eq_zero, Set.eq_empty_iff_forall_notMem]
  exact h

theorem none (h : Tally role i 0) (c : τ) : role c ≠ some i := by
  rw [Tally, Nat.cast_zero, Set.encard_eq_zero, Set.eq_empty_iff_forall_notMem] at h
  exact h c

theorem pos (h : Tally role i n) (hc : role c = some i) : 0 < n := by
  obtain rfl | hn := Nat.eq_zero_or_pos n
  · exact absurd hc (h.none c)
  · exact hn

theorem unique (h : Tally role i n) (one : n ≤ 1) (hc : role c = some i) (hd : role d = some i) :
    c = d := by
  have few : Set.encard {c | role c = some i} ≤ 1 := by
    rw [h]
    exact_mod_cast one
  exact Set.encard_le_one_iff.mp few c d hc hd

variable [DecidableEq τ] {r : Option ι}

theorem enter (h : Tally role i n) (before : role c ≠ some i) :
    Tally (Function.update role c (some i)) i (n + 1) := by
  have grown : {d | Function.update role c (some i) d = some i} =
      insert c {d | role d = some i} := by
    ext d
    by_cases same : d = c
    · simp [same]
    · simp [same]
  have outside : c ∉ {d | role d = some i} := before
  rw [Tally, grown, Set.encard_insert_of_notMem outside, h]
  rfl

theorem other (h : Tally role i n) (before : role c ≠ some i) (after : r ≠ some i) :
    Tally (Function.update role c r) i n := by
  have unchanged : {d | Function.update role c r d = some i} = {d | role d = some i} := by
    ext d
    by_cases same : d = c
    · subst same
      simp [before, after]
    · simp [same]
  rw [Tally, unchanged, h]

theorem leave (h : Tally role i n) (before : role c = some i) (after : r ≠ some i) :
    Tally (Function.update role c r) i (n - 1) := by
  have left : Function.update role c r c ≠ some i := by
    rw [Function.update_self]
    exact after
  have finite : Set.encard {d | Function.update role c r d = some i} ≠ ⊤ := by
    have smaller : {d | Function.update role c r d = some i} ⊆ {d | role d = some i} := by
      intro d hd
      by_cases same : d = c
      · subst same
        exact absurd hd left
      · simpa [same] using hd
    have bound := Set.encard_le_encard smaller
    rw [h] at bound
    exact ne_top_of_le_ne_top (ENat.natCast_ne_top n) bound
  obtain ⟨m, hm⟩ := ENat.ne_top_iff_exists.mp finite
  have remaining : Tally (Function.update role c r) i m := hm.symm
  have restored := remaining.enter left
  rw [Function.update_idem, ← before, Function.update_eq_self] at restored
  have count : (n : ℕ∞) = (m + 1 : ℕ) := h.symm.trans restored
  have same_count : n = m + 1 := by exact_mod_cast count
  rw [same_count]
  exact remaining

variable [DecidableEq ι] {count : ι → ℕ} {j : ι}

/-- One who holds nothing takes `j`, which `n` hold. -/
theorem take (h : ∀ i, Tally role i (count i)) (empty : role c = Option.none) (hj : Tally role j n)
    (i : ι) : Tally (Function.update role c (some j)) i (Function.update count j (n + 1) i) := by
  by_cases same : i = j
  · subst same
    rw [Function.update_self]
    exact hj.enter (by rw [empty]; nofun)
  · rw [Function.update_of_ne same]
    apply (h i).other
    · rw [empty]
      nofun
    · intro other
      exact same (Option.some.inj other).symm

/-- One who holds `j` lets go of it. -/
theorem release (h : ∀ i, Tally role i (count i)) (before : role c = some j) (i : ι) :
    Tally (Function.update role c Option.none) i (Function.update count j (count j - 1) i) := by
  by_cases same : i = j
  · subst same
    rw [Function.update_self]
    exact (h i).leave before nofun
  · rw [Function.update_of_ne same]
    apply (h i).other
    · rw [before]
      intro other
      exact same (Option.some.inj other).symm
    · nofun

end Tally
