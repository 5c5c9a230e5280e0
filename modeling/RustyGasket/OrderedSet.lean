import Mathlib.Data.List.Sort
import Mathlib.Order.Lattice

/-!
# Finite sets iterated in ascending order

A set is the strictly ascending list of its elements, so two sets with the same
elements are equal and every traversal visits each element once.
-/

/-- A finite set over a linear order, as the list its iterator yields. -/
structure OrderedSet (α : Type*) [LinearOrder α] where
  elems : List α
  sorted : elems.Pairwise (· < ·)

namespace OrderedSet

variable {α : Type*} [LinearOrder α]

def empty : OrderedSet α := ⟨[], List.Pairwise.nil⟩

instance : Membership α (OrderedSet α) := ⟨fun s a => a ∈ s.elems⟩

instance (a : α) (s : OrderedSet α) : Decidable (a ∈ s) :=
  inferInstanceAs (Decidable (a ∈ s.elems))

theorem mem_def {a : α} {s : OrderedSet α} : a ∈ s ↔ a ∈ s.elems := Iff.rfl

@[simp] theorem not_mem_empty (a : α) : a ∉ (empty : OrderedSet α) := by
  simp [mem_def, empty]

theorem nodup (s : OrderedSet α) : s.elems.Nodup :=
  s.sorted.imp fun h => ne_of_lt h

/-- Insertion at the element's place; an element already there is kept. -/
def insertList (a : α) : List α → List α
  | [] => [a]
  | b :: rest => if a < b then a :: b :: rest else if a = b then b :: rest else
      b :: insertList a rest

theorem mem_insertList {a b : α} {l : List α} : b ∈ insertList a l ↔ b = a ∨ b ∈ l := by
  induction l with
  | nil => simp [insertList]
  | cons c rest ih =>
    rw [insertList]
    split
    · simp
    · split
      · rename_i _ same
        subst same
        simp
      · rw [List.mem_cons, ih, List.mem_cons]
        tauto

theorem insertList_sorted {a : α} {l : List α} (h : l.Pairwise (· < ·)) :
    (insertList a l).Pairwise (· < ·) := by
  induction l with
  | nil => simp [insertList]
  | cons b rest ih =>
    obtain ⟨hb, hrest⟩ := List.pairwise_cons.mp h
    rw [insertList]
    split
    · rename_i lt
      refine List.pairwise_cons.mpr ⟨fun c hc => ?_, h⟩
      obtain rfl | hc := List.mem_cons.mp hc
      · exact lt
      · exact lt_trans lt (hb c hc)
    · split
      · exact h
      · rename_i nlt ne
        refine List.pairwise_cons.mpr ⟨fun c hc => ?_, ih hrest⟩
        obtain rfl | hc := mem_insertList.mp hc
        · exact lt_of_le_of_ne (not_lt.mp nlt) (Ne.symm ne)
        · exact hb c hc

def insert (s : OrderedSet α) (a : α) : OrderedSet α :=
  ⟨insertList a s.elems, insertList_sorted s.sorted⟩

@[simp] theorem mem_insert {s : OrderedSet α} {a b : α} : b ∈ s.insert a ↔ b = a ∨ b ∈ s :=
  mem_insertList

end OrderedSet
