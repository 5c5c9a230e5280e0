import Mathlib.Data.List.Infix
import Mathlib.Logic.Function.Basic

/-!
# Codes that can be read back

Two ways of writing a list as one word, and when the word determines the list:

* `flatMap_injective`: letter by letter, when no code word is empty and none is
  a proper prefix of another;
* `fields_injective`: as fields behind a separator that occurs in no field.
-/

namespace PrefixCode

variable {α β : Type*}

/-- No code word begins another one, and none is empty. -/
structure PrefixFree (code : α → List β) : Prop where
  nonempty : ∀ a, code a ≠ []
  unique : ∀ a b, code a <+: code b → a = b

theorem PrefixFree.head {code : α → List β} (h : PrefixFree code) {a b : α} {s t : List β}
    (e : code a ++ s = code b ++ t) : a = b := by
  obtain p | p := List.prefix_or_prefix_of_prefix ⟨s, rfl⟩ ⟨t, e.symm⟩
  · exact h.unique a b p
  · exact (h.unique b a p).symm

/-- A word written in a prefix-free code has one reading. -/
theorem flatMap_injective {code : α → List β} (h : PrefixFree code) :
    Function.Injective fun word : List α => word.flatMap code := by
  intro u v e
  induction u generalizing v with
  | nil =>
    cases v with
    | nil => rfl
    | cons b v =>
      have hb : code b = [] := (List.append_eq_nil_iff.mp e.symm).1
      exact absurd hb (h.nonempty b)
  | cons a u ih =>
    cases v with
    | nil =>
      have ha : code a = [] := (List.append_eq_nil_iff.mp e).1
      exact absurd ha (h.nonempty a)
    | cons b v =>
      have e' : code a ++ u.flatMap code = code b ++ v.flatMap code := by
        simpa only [List.flatMap_cons] using e
      obtain rfl := h.head e'
      rw [ih (List.append_cancel_left e')]

/-- Fields, each behind the separator. -/
def fields (sep : β) (parts : List (List β)) : List β :=
  parts.flatMap fun part => sep :: part

theorem field_end {sep : β} {u v s t : List β} (hu : sep ∉ u) (hv : sep ∉ v)
    (hs : s = [] ∨ s.head? = some sep) (ht : t = [] ∨ t.head? = some sep)
    (e : u ++ s = v ++ t) : u = v ∧ s = t := by
  induction u generalizing v with
  | nil =>
    cases v with
    | nil => exact ⟨rfl, e⟩
    | cons b v =>
      have hb : s.head? = some b := by simp at e; simp [e]
      obtain rfl | hs := hs
      · simp at hb
      · have : b = sep := Option.some.inj (hb.symm.trans hs)
        exact absurd (this ▸ List.mem_cons_self) hv
  | cons a u ih =>
    cases v with
    | nil =>
      have ha : t.head? = some a := by simp at e; simp [← e]
      obtain rfl | ht := ht
      · simp at ha
      · have : a = sep := Option.some.inj (ha.symm.trans ht)
        exact absurd (this ▸ List.mem_cons_self) hu
    | cons b v =>
      obtain ⟨rfl, e'⟩ := List.cons.inj e
      have next := ih (fun h => hu (List.mem_cons_of_mem _ h))
        (fun h => hv (List.mem_cons_of_mem _ h)) e'
      exact ⟨by rw [next.1], next.2⟩

theorem fields_head (sep : β) (parts : List (List β)) :
    fields sep parts = [] ∨ (fields sep parts).head? = some sep := by
  cases parts with
  | nil => exact Or.inl rfl
  | cons p ps => exact Or.inr rfl

/-- Fields free of the separator can be told apart again. -/
theorem fields_injective {sep : β} {ps qs : List (List β)}
    (hp : ∀ p ∈ ps, sep ∉ p) (hq : ∀ q ∈ qs, sep ∉ q)
    (e : fields sep ps = fields sep qs) : ps = qs := by
  induction ps generalizing qs with
  | nil =>
    cases qs with
    | nil => rfl
    | cons q qs => simp [fields] at e
  | cons p ps ih =>
    cases qs with
    | nil => simp [fields] at e
    | cons q qs =>
      have e' : p ++ fields sep ps = q ++ fields sep qs := by simpa [fields] using e
      obtain ⟨rfl, hrest⟩ := field_end (hp p List.mem_cons_self) (hq q List.mem_cons_self)
        (fields_head sep ps) (fields_head sep qs) e'
      rw [ih (fun x hx => hp x (List.mem_cons_of_mem _ hx))
        (fun x hx => hq x (List.mem_cons_of_mem _ hx)) hrest]

end PrefixCode
