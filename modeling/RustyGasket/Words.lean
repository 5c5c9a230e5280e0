import Mathlib.Data.List.Basic

/-!
# The words of a text

The longest stretches of a text without a blank, and texts made of given words.
-/

namespace Words

variable {α : Type} {blank : α → Bool}

def words (blank : α → Bool) (text : List α) : List (List α) :=
  (text.splitOnP blank).filter (· ≠ [])

/-- A stretch without a blank, with a blank or the text's end on either side. -/
structure IsWord (blank : α → Bool) (word text : List α) : Prop where
  some_char : word ≠ []
  unbroken : ∀ c ∈ word, blank c = false
  whole : ∃ before after, text = before ++ (word ++ after) ∧
    (∀ c ∈ before.getLast?, blank c = true) ∧ ∀ c ∈ after.head?, blank c = true

/-! ## At a blank a text falls apart -/

theorem words_append_blank {block rest : List α} {sep : α} (sep_blank : blank sep = true) :
    words blank (block ++ sep :: rest) = words blank block ++ words blank rest := by
  rw [words, List.splitOnP_append_cons _ _ sep_blank, List.filter_append]
  rfl

theorem IsWord.append_blank {word block rest : List α} {sep : α} (sep_blank : blank sep = true) :
    IsWord blank word (block ++ sep :: rest) ↔
      IsWord blank word block ∨ IsWord blank word rest := by
  constructor
  · rintro ⟨some_char, unbroken, before, after, split, left, right⟩
    have outside : sep ∉ word := fun inside =>
      absurd sep_blank (Bool.eq_false_iff.mp (unbroken sep inside))
    obtain ⟨lead, rfl, rest_split⟩ | ⟨tail, rfl, word_split⟩ := List.append_eq_append_iff.mp split
    · cases lead with
      | nil =>
        obtain ⟨c, word, rfl⟩ := List.exists_cons_of_ne_nil some_char
        rw [List.nil_append, List.cons_append, List.cons.injEq] at rest_split
        exact absurd (rest_split.1 ▸ List.mem_cons_self) outside
      | cons _ lead =>
        rw [List.cons_append, List.cons.injEq] at rest_split
        refine .inr ⟨some_char, unbroken, lead, after, rest_split.2, fun c last => ?_, right⟩
        refine left c ?_
        rw [List.getLast?_append_cons, List.getLast?_cons, Option.mem_def.mp last]
        rfl
    · obtain ⟨tail', rfl, rfl⟩ | ⟨inner, rfl, rest_split⟩ :=
        List.append_eq_append_iff.mp word_split
      · refine .inl ⟨some_char, unbroken, before, tail', rfl, left, fun c first => right c ?_⟩
        rw [List.head?_append, Option.mem_def.mp first]
        rfl
      · cases inner with
        | nil =>
          rw [List.append_nil] at some_char unbroken ⊢
          exact .inl ⟨some_char, unbroken, before, [], by rw [List.append_nil], left, nofun⟩
        | cons =>
          rw [List.cons_append, List.cons.injEq] at rest_split
          exact absurd (rest_split.1 ▸ by simp) outside
  · rintro (⟨some_char, unbroken, before, after, rfl, left, right⟩ |
      ⟨some_char, unbroken, before, after, rfl, left, right⟩)
    · refine ⟨some_char, unbroken, before, after ++ sep :: rest, by simp, left, fun c first => ?_⟩
      cases after with
      | nil =>
        cases first
        exact sep_blank
      | cons => exact right c first
    · refine ⟨some_char, unbroken, block ++ sep :: before, after, by simp, fun c last => ?_, right⟩
      rw [List.getLast?_append_cons, List.getLast?_cons] at last
      cases front : before.getLast? with
      | none =>
        rw [front] at last
        cases last
        exact sep_blank
      | some =>
        rw [front] at last
        exact left c (front.trans last)

/-! ## Without one it is a word -/

theorem words_of_unbroken {block : List α} (unbroken : ∀ c ∈ block, blank c = false) :
    words blank block = if block = [] then [] else [block] := by
  rw [words, List.splitOnP_eq_singleton unbroken]
  split <;> simp_all

theorem IsWord.of_unbroken {word block : List α} (unbroken : ∀ c ∈ block, blank c = false) :
    IsWord blank word block ↔ word = block ∧ block ≠ [] := by
  constructor
  · rintro ⟨some_char, -, before, after, rfl, left, right⟩
    have no_front : before = [] := by
      cases last : before.getLast? with
      | none => exact List.getLast?_eq_none_iff.mp last
      | some c =>
        have inside := List.mem_append_left (word ++ after) (List.mem_of_getLast? last)
        exact nomatch (unbroken c inside).symm.trans (left c last)
    have no_back : after = [] := by
      cases after with
      | nil => rfl
      | cons c => exact nomatch (unbroken c (by simp)).symm.trans (right c rfl)
    subst no_front no_back
    simpa using some_char
  · rintro ⟨rfl, some_char⟩
    exact ⟨some_char, unbroken, [], [], by simp, nofun, nofun⟩

/-- By the text, with what has been read since the last blank. -/
theorem mem_words_append {word text : List α} (block : List α)
    (unbroken : ∀ c ∈ block, blank c = false) :
    word ∈ words blank (block ++ text) ↔ IsWord blank word (block ++ text) := by
  induction text generalizing block with
  | nil =>
    rw [List.append_nil, words_of_unbroken unbroken, IsWord.of_unbroken unbroken]
    split <;> simp_all
  | cons c rest ih =>
    cases read : blank c with
    | true =>
      have own := ih [] nofun
      rw [List.nil_append] at own
      rw [words_append_blank read, IsWord.append_blank read, List.mem_append, own,
        words_of_unbroken unbroken, IsWord.of_unbroken unbroken]
      split <;> simp_all
    | false =>
      rw [List.append_cons]
      refine ih (block ++ [c]) fun d inside => ?_
      obtain earlier | last := List.mem_append.mp inside
      · exact unbroken d earlier
      · exact List.mem_singleton.mp last ▸ read

theorem mem_words_iff {word text : List α} :
    word ∈ words blank text ↔ IsWord blank word text :=
  mem_words_append [] nofun

/-- Words with a blank between two are read back. -/
theorem words_intercalate {sep : α} (sep_blank : blank sep = true) {parts : List (List α)}
    (well : ∀ part ∈ parts, part ≠ [] ∧ ∀ c ∈ part, blank c = false) :
    words blank (List.intercalate [sep] parts) = parts := by
  induction parts with
  | nil => simp [words]
  | cons part rest ih =>
    obtain ⟨⟨some_char, unbroken⟩, later⟩ := List.forall_mem_cons.mp well
    have own : words blank part = [part] := by rw [words_of_unbroken unbroken, if_neg some_char]
    cases rest with
    | nil => rw [List.intercalate_singleton, own]
    | cons next rest =>
      rw [List.intercalate_cons_cons, List.append_assoc, List.singleton_append,
        words_append_blank sep_blank, own, ih later, List.singleton_append]

end Words
