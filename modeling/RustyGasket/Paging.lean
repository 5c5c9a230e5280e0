import Mathlib.Data.List.Basic
import Mathlib.Order.Lattice

/-!
# A changing set, listed page by page

Each page is of the set as it is when the page is asked for: what comes after a cursor up
to the page's own, in order. In between the set changes in any way.

* `Pages.sorted`: the listing is in order, so nothing is listed twice;
* `Pages.there`: what is listed was there when it was;
* `Pages.complete`: what was there all the time is listed;
* `Answers.closer`: each page that is not the last leaves fewer keys to come.
-/

structure Page (Key : Type) where
  keys : List Key
  next : Option Key
  deriving DecidableEq, Repr

namespace Page

variable {Key : Type}

def keysOf (pages : List (Page Key)) : List Key := pages.flatMap Page.keys

variable [LinearOrder Key]

def After (cursor : Option Key) (key : Key) : Prop := ∀ c ∈ cursor, c < key

/-- A page of a set from a cursor. A key left out comes after the page's cursor. -/
structure Answers (present : Key → Prop) (cursor : Option Key) (page : Page Key) : Prop where
  sorted : page.keys.Pairwise (· < ·)
  there : ∀ key ∈ page.keys, present key
  after : ∀ key ∈ page.keys, After cursor key
  upTo : ∀ key ∈ page.keys, ∀ next ∈ page.next, key ≤ next
  onward : ∀ next ∈ page.next, After cursor next
  gapless : ∀ key, present key → After cursor key → key ∉ page.keys →
    ∃ next ∈ page.next, next < key

/-- The pages of one listing, each of the set at its own time. -/
inductive Pages (present : Nat → Key → Prop) : Nat → Option Key → List (Page Key) → Prop
  | last {time cursor page} (answers : Answers (present time) cursor page)
      (whole : page.next = none) : Pages present time cursor [page]
  | more {time cursor page next rest} (answers : Answers (present time) cursor page)
      (goesOn : page.next = some next) (later : Pages present (time + 1) (some next) rest) :
      Pages present time cursor (page :: rest)

variable {present : Nat → Key → Prop} {time : Nat} {cursor : Option Key} {page : Page Key}
  {pages : List (Page Key)}

theorem After.some_iff {next key : Key} : After (some next) key ↔ next < key := by
  simp [After]

theorem After.trans {next key : Key} (h : After cursor next) (later : next < key) :
    After cursor key :=
  fun c hc => lt_trans (h c hc) later

/-- A last page is of all that is to come. -/
theorem Answers.ofLast {present : Key → Prop} {keys : List Key} (sorted : keys.Pairwise (· < ·))
    (own : ∀ key, key ∈ keys ↔ present key ∧ After cursor key) :
    Answers present cursor ⟨keys, none⟩ where
  sorted := sorted
  there key listed := ((own key).mp listed).1
  after key listed := ((own key).mp listed).2
  upTo _ _ := nofun
  onward := nofun
  gapless key there after out := absurd ((own key).mpr ⟨there, after⟩) out

namespace Pages

theorem after (h : Pages present time cursor pages) : ∀ key ∈ keysOf pages, After cursor key := by
  induction h with
  | last answers =>
    intro key listed
    exact answers.after key (by simpa [keysOf] using listed)
  | more answers goesOn _ ih =>
    intro key listed
    obtain own | other := List.mem_append.mp listed
    · exact answers.after key own
    · exact (answers.onward _ goesOn).trans (After.some_iff.mp (ih key other))

theorem sorted (h : Pages present time cursor pages) : (keysOf pages).Pairwise (· < ·) := by
  induction h with
  | last answers => simpa [keysOf] using answers.sorted
  | more answers goesOn later ih =>
    refine List.pairwise_append.mpr ⟨answers.sorted, ih, fun own ho other hr => ?_⟩
    exact lt_of_le_of_lt (answers.upTo own ho _ goesOn) (After.some_iff.mp (later.after other hr))

theorem there (h : Pages present time cursor pages) :
    ∀ key ∈ keysOf pages, ∃ i < pages.length, present (time + i) key := by
  induction h with
  | last answers =>
    intro key listed
    exact ⟨0, Nat.one_pos, answers.there key (by simpa [keysOf] using listed)⟩
  | more answers _ _ ih =>
    intro key listed
    obtain own | other := List.mem_append.mp listed
    · exact ⟨0, Nat.succ_pos _, answers.there key own⟩
    · obtain ⟨i, bound, there⟩ := ih key other
      exact ⟨i + 1, Nat.succ_lt_succ bound, by rwa [Nat.add_assoc, Nat.add_comm 1] at there⟩

theorem complete (h : Pages present time cursor pages) {key : Key} (after : After cursor key)
    (there : ∀ i < pages.length, present (time + i) key) : key ∈ keysOf pages := by
  induction h with
  | last answers whole =>
    by_contra out
    obtain ⟨next, goesOn, -⟩ :=
      answers.gapless key (there 0 Nat.one_pos) after (by simpa [keysOf] using out)
    exact nomatch whole.symm.trans goesOn
  | @more time cursor page next rest answers goesOn _ ih =>
    by_cases listed : key ∈ page.keys
    · exact List.mem_append_left _ listed
    · obtain ⟨_, own, below⟩ := answers.gapless key (there 0 (Nat.succ_pos _)) after listed
      obtain rfl := Option.some.inj (goesOn.symm.trans own)
      refine List.mem_append_right _ (ih (After.some_iff.mpr below) fun i bound => ?_)
      have later := there (i + 1) (Nat.succ_lt_succ bound)
      rwa [← Nat.add_assoc, Nat.add_right_comm] at later

end Pages

/-- Of some names, those after a cursor. -/
def toCome (names : List Key) (cursor : Option Key) : List Key :=
  names.filter fun name => cursor.all (· < name)

theorem toCome_length_le {names : List Key} : (toCome names cursor).length ≤ names.length :=
  List.length_filter_le _ _

theorem toCome_onward {names : List Key} {next : Key} (onward : After cursor next) :
    toCome names (some next) = (toCome names cursor).filter (next < ·) := by
  rw [toCome, toCome, List.filter_filter]
  refine List.filter_congr fun name _ => ?_
  by_cases later : next < name
  · have : After cursor name := onward.trans later
    cases cursor <;> simp_all [After]
  · simp [later]

theorem Answers.closer {present : Key → Prop} (answers : Answers present cursor page)
    {names : List Key} (named : ∀ key, present key → key ∈ names) {next : Key}
    (goesOn : page.next = some next) (some_key : page.keys ≠ []) :
    (toCome names (some next)).length < (toCome names cursor).length := by
  obtain ⟨key, listed⟩ := List.exists_mem_of_ne_nil _ some_key
  rw [toCome_onward (answers.onward next goesOn)]
  refine List.length_filter_lt_length_iff_exists.mpr ⟨key, ?_, ?_⟩
  · have after := answers.after key listed
    refine List.mem_filter.mpr ⟨named key (answers.there key listed), ?_⟩
    cases cursor <;> simp_all [After]
  · have upTo := answers.upTo key listed next goesOn
    simp [upTo]

end Page
