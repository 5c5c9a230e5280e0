import Mathlib.Data.List.Perm.Basic
import Mathlib.Data.Finset.Basic
import Mathlib.Logic.Relation
import Mathlib.Order.WellFounded
import Mathlib.Data.Fintype.EquivFin
import Mathlib.Data.List.Basic

/-!
# Topological orders of a finite relation

* `Ordered`: every element of the list comes after all its predecessors;
* `Ordered.idxOf_lt`, `Ordered.ancestors`, `Ordered.acyclic`: what such a list says about
  the relation;
* `exists_cycle`: a finite set in which everybody has a predecessor holds a cycle.
-/

namespace Topo

variable {α : Type*} {edge : α → α → Prop}

/-- Each element is listed after every one of its predecessors. -/
def Ordered (edge : α → α → Prop) (l : List α) : Prop :=
  ∀ xs v ys, l = xs ++ v :: ys → ∀ u, edge u v → u ∈ xs

theorem ordered_nil : Ordered edge [] := by
  intro xs v ys h
  simp at h

theorem Ordered.concat {l : List α} {v : α} (h : Ordered edge l)
    (preds : ∀ u, edge u v → u ∈ l) : Ordered edge (l ++ [v]) := by
  intro xs w ys eq u hu
  obtain rfl | ⟨ys', z, rfl⟩ := List.eq_nil_or_concat ys
  · obtain ⟨rfl, hw⟩ := List.append_inj' eq rfl
    cases hw
    exact preds u hu
  · rw [List.concat_eq_append, ← List.cons_append, ← List.append_assoc] at eq
    exact h xs w ys' (List.append_inj' eq rfl).1 u hu

theorem Ordered.preds {l : List α} (h : Ordered edge l) {u v : α} (hv : v ∈ l)
    (e : edge u v) : u ∈ l := by
  obtain ⟨xs, ys, rfl⟩ := List.append_of_mem hv
  exact List.mem_append_left _ (h xs v ys rfl u e)

theorem Ordered.idxOf_lt [DecidableEq α] {l : List α} (h : Ordered edge l) (nodup : l.Nodup)
    {u v : α} (hv : v ∈ l) (e : edge u v) : l.idxOf u < l.idxOf v := by
  obtain ⟨xs, ys, rfl⟩ := List.append_of_mem hv
  have hu : u ∈ xs := h xs v ys rfl u e
  have hvxs : v ∉ xs := fun hx => (List.nodup_append.mp nodup).2.2 v hx v List.mem_cons_self rfl
  rw [List.idxOf_append_of_mem hu, List.idxOf_append_of_notMem hvxs]
  have := List.idxOf_lt_length_of_mem hu
  omega

/-- With an element all that lead to it are listed. -/
theorem Ordered.ancestors {l : List α} (h : Ordered edge l) {u v : α} (hv : v ∈ l)
    (path : Relation.ReflTransGen edge u v) : u ∈ l := by
  induction path with
  | refl => exact hv
  | tail _ e ih => exact ih (h.preds hv e)

/-- Nothing listed lies on a cycle. -/
theorem Ordered.off_cycle [DecidableEq α] {l : List α} (h : Ordered edge l) (nodup : l.Nodup)
    {v : α} (hv : v ∈ l) : ¬ Relation.TransGen edge v v := by
  have lt : ∀ u w, Relation.TransGen edge u w → w ∈ l → l.idxOf u < l.idxOf w := by
    intro u w path hw
    induction path with
    | single e => exact h.idxOf_lt nodup hw e
    | tail _ e ih => exact lt_trans (ih (h.preds hw e)) (h.idxOf_lt nodup hw e)
  exact fun path => lt_irrefl _ (lt v v path hv)

/-- A relation all of whose targets can be listed in order has no cycle. -/
theorem Ordered.acyclic [DecidableEq α] {l : List α} (h : Ordered edge l) (nodup : l.Nodup)
    (targets : ∀ u v, edge u v → v ∈ l) (v : α) : ¬ Relation.TransGen edge v v := by
  intro path
  obtain ⟨u, -, e⟩ := Relation.TransGen.tail'_iff.mp path
  exact h.off_cycle nodup (targets u v e) path

/-- A non-empty finite set in which every element has a predecessor holds a cycle. -/
theorem exists_cycle (s : Finset α) (nonempty : s.Nonempty)
    (preds : ∀ v ∈ s, ∃ u ∈ s, edge u v) : ∃ v ∈ s, Relation.TransGen edge v v := by
  by_contra none
  let r : s → s → Prop := fun u v => Relation.TransGen edge u.1 v.1
  have trans : IsTrans s r := ⟨fun _ _ _ h h' => h.trans h'⟩
  have irrefl : Std.Irrefl r := ⟨fun v h => none ⟨v.1, v.2, h⟩⟩
  have wf : WellFounded r := Finite.wellFounded_of_trans_of_irrefl r
  obtain ⟨v, hv⟩ := nonempty
  obtain ⟨m, -, least⟩ := wf.has_min Set.univ ⟨⟨v, hv⟩, trivial⟩
  obtain ⟨u, hu, e⟩ := preds m.1 m.2
  exact least ⟨u, hu⟩ trivial (Relation.TransGen.single e)

end Topo
