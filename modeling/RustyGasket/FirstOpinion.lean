import Mathlib.Data.List.Basic

/-!
# Whoever has an opinion first

A list of deciders is asked in order, and the first with an opinion decides. Where the
deciders fall into classes, a question is for one class at most, and all of a class have
an opinion on it or none has, then only the first of each class counts.

* `findSome?_eq_find?`: the decision is that of the first in the class asked;
* `findSome?_congr`: lists with the same first of each class decide alike;
* `findSome?_firsts`: so does the list of these, in any order of the classes.
-/

namespace FirstOpinion

variable {α β κ : Type*} [DecidableEq κ] {cls : α → κ} {opinion : α → Option β}
  {applies : κ → Prop}

theorem findSome?_eq_find? (decides : ∀ a, (opinion a).isSome ↔ applies (cls a))
    (exclusive : ∀ k k', applies k → applies k' → k = k') {k : κ} (asked : applies k)
    (list : List α) : list.findSome? opinion = (list.find? (cls · = k)).bind opinion := by
  induction list with
  | nil => rfl
  | cons a rest ih =>
    by_cases member : cls a = k
    · have some_opinion := (decides a).mpr (member ▸ asked)
      obtain ⟨b, hb⟩ := Option.isSome_iff_exists.mp some_opinion
      simp [member, hb]
    · have no_opinion : opinion a = none := by
        rw [← Option.not_isSome_iff_eq_none]
        intro other
        exact member (exclusive _ _ ((decides a).mp other) asked)
      simp [member, no_opinion, ih]

omit [DecidableEq κ] in
theorem findSome?_eq_none (decides : ∀ a, (opinion a).isSome ↔ applies (cls a))
    (unasked : ∀ k, ¬ applies k) (list : List α) : list.findSome? opinion = none := by
  rw [List.findSome?_eq_none_iff]
  intro a _
  rw [← Option.not_isSome_iff_eq_none]
  exact fun other => unasked _ ((decides a).mp other)

/-- Lists with the same first of each class decide alike. -/
theorem findSome?_congr (decides : ∀ a, (opinion a).isSome ↔ applies (cls a))
    (exclusive : ∀ k k', applies k → applies k' → k = k') {list list' : List α}
    (same : ∀ k, list.find? (cls · = k) = list'.find? (cls · = k)) :
    list.findSome? opinion = list'.findSome? opinion := by
  by_cases asked : ∃ k, applies k
  · obtain ⟨k, asked⟩ := asked
    rw [findSome?_eq_find? decides exclusive asked, findSome?_eq_find? decides exclusive asked,
      same k]
  · rw [not_exists] at asked
    rw [findSome?_eq_none decides asked, findSome?_eq_none decides asked]

/-- The first of each of the classes. -/
def firsts (cls : α → κ) (order : List κ) (list : List α) : List α :=
  order.flatMap fun k => (list.find? (cls · = k)).toList

theorem find?_toList (k k' : κ) (list : List α) :
    (list.find? (cls · = k)).toList.find? (cls · = k') =
      if k = k' then list.find? (cls · = k') else none := by
  cases found : list.find? (cls · = k) with
  | none =>
    by_cases same : k = k'
    · subst same
      simp [found]
    · simp [same]
  | some a =>
    have member := List.find?_some found
    rw [decide_eq_true_eq] at member
    by_cases same : k = k'
    · subst same
      simp [found, member]
    · simp [member, same]

theorem find?_firsts {order : List κ} {k : κ} (listed : k ∈ order) (list : List α) :
    (firsts cls order list).find? (cls · = k) = list.find? (cls · = k) := by
  induction order with
  | nil => cases listed
  | cons k' rest ih =>
    rw [firsts, List.flatMap_cons, List.find?_append, find?_toList]
    by_cases same : k' = k
    · subst same
      rw [if_pos rfl]
      cases found : list.find? (cls · = k') with
      | none =>
        rw [Option.none_or, List.find?_eq_none]
        intro a ha member
        obtain ⟨j, -, hj⟩ := List.mem_flatMap.mp ha
        exact (List.find?_eq_none.mp found) a (List.mem_of_find?_eq_some (Option.mem_toList.mp hj)) member
      | some a => rfl
    · rw [if_neg same, Option.none_or]
      exact ih ((List.mem_cons.mp listed).resolve_left (Ne.symm same))

theorem findSome?_firsts (decides : ∀ a, (opinion a).isSome ↔ applies (cls a))
    (exclusive : ∀ k k', applies k → applies k' → k = k') {order : List κ}
    (complete : ∀ k, k ∈ order) (list : List α) :
    list.findSome? opinion = (firsts cls order list).findSome? opinion :=
  findSome?_congr decides exclusive fun k => (find?_firsts (complete k) list).symm

end FirstOpinion
