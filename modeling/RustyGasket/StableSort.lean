import Mathlib.Data.List.Sort

/-!
# Stable sorting by a key

A stable sort keeps each key's elements in their original order, so its result
is the concatenation of the key's buckets, taken in ascending order of the keys.
-/

namespace StableSort

variable {α κ : Type*} [LinearOrder κ] (key : α → κ)

def sortByKey (l : List α) : List α := l.insertionSort fun a b => key a ≤ key b

theorem sortByKey_perm (l : List α) : (sortByKey key l).Perm l :=
  List.perm_insertionSort _ l

theorem sortByKey_pairwise (l : List α) :
    (sortByKey key l).Pairwise fun a b => key a ≤ key b := by
  have total : Std.Total fun a b : α => key a ≤ key b := ⟨fun a b => le_total (key a) (key b)⟩
  have trans : IsTrans α fun a b => key a ≤ key b := ⟨fun _ _ _ => le_trans⟩
  exact List.pairwise_insertionSort _ l

/-- **Stability**: sorting does not reorder the elements of one key. -/
theorem filter_sortByKey (k : κ) (l : List α) :
    (sortByKey key l).filter (fun a => key a = k) = l.filter fun a => key a = k := by
  have total : Std.Total fun a b : α => key a ≤ key b := ⟨fun a b => le_total (key a) (key b)⟩
  have trans : IsTrans α fun a b => key a ≤ key b := ⟨fun _ _ _ => le_trans⟩
  have same : (l.filter fun a => key a = k).Pairwise fun a b => key a ≤ key b := by
    refine List.pairwise_iff_forall_sublist.mpr fun {a b} sub => ?_
    have ha := (List.mem_filter.mp (sub.subset (List.mem_cons_self))).2
    have hb := (List.mem_filter.mp (sub.subset (List.mem_cons_of_mem _ List.mem_cons_self))).2
    rw [decide_eq_true_eq] at ha hb
    rw [ha, hb]
  have sub : (l.filter fun a => key a = k).Sublist
      ((sortByKey key l).filter fun a => key a = k) := by
    have := (List.sublist_insertionSort same List.filter_sublist).filter fun a => key a = k
    simpa only [sortByKey, List.filter_filter, Bool.and_self] using this
  exact (sub.eq_of_length ((sortByKey_perm key l).filter _).length_eq.symm).symm

theorem sorted_split {k : κ} {l : List α} (sorted : l.Pairwise fun a b => key a ≤ key b)
    (least : ∀ a ∈ l, k ≤ key a) :
    l = l.filter (fun a => key a = k) ++ l.filter fun a => key a ≠ k := by
  induction l with
  | nil => rfl
  | cons a rest ih =>
    obtain ⟨ha, sorted⟩ := List.pairwise_cons.mp sorted
    have ih := ih sorted fun b hb => least b (List.mem_cons_of_mem _ hb)
    by_cases same : key a = k
    · simp only [List.filter_cons, same, ne_eq, decide_true, if_true, not_true_eq_false,
        decide_false, Bool.false_eq_true, if_false, List.cons_append]
      exact congrArg _ ih
    · have above : ∀ b ∈ a :: rest, key b ≠ k := by
        intro b hb eq
        have lt : k < key a := lt_of_le_of_ne (least a List.mem_cons_self) (Ne.symm same)
        obtain rfl | hb := List.mem_cons.mp hb
        · exact same eq
        · exact absurd (ha b hb) (by rw [eq]; exact not_le.mpr lt)
      rw [List.filter_eq_nil_iff.mpr (by simpa using above), List.nil_append,
        List.filter_eq_self.mpr (by simpa using above)]

theorem sorted_eq_flatMap {ks : List κ} (ascending : ks.Pairwise (· < ·)) {l : List α}
    (sorted : l.Pairwise fun a b => key a ≤ key b) (keys : ∀ a ∈ l, key a ∈ ks) :
    l = ks.flatMap fun k => l.filter fun a => key a = k := by
  induction ks generalizing l with
  | nil => exact List.eq_nil_iff_forall_not_mem.mpr fun a ha => List.not_mem_nil (keys a ha)
  | cons k rest ih =>
    obtain ⟨hk, ascending⟩ := List.pairwise_cons.mp ascending
    have least : ∀ a ∈ l, k ≤ key a := by
      intro a ha
      obtain same | later := List.mem_cons.mp (keys a ha)
      · exact same.ge
      · exact (hk _ later).le
    have tail := ih ascending (sorted.sublist List.filter_sublist)
      (l := l.filter fun a => key a ≠ k) fun a ha => by
        obtain ⟨ha, ne⟩ := List.mem_filter.mp ha
        exact (List.mem_cons.mp (keys a ha)).resolve_left (by simpa using ne)
    have buckets : (rest.flatMap fun k' => (l.filter fun a => key a ≠ k).filter
        fun a => key a = k') = rest.flatMap fun k' => l.filter fun a => key a = k' := by
      refine List.flatMap_congr fun k' hk' => ?_
      rw [List.filter_filter]
      refine List.filter_congr fun a _ => ?_
      have ne : k' ≠ k := (hk k' hk').ne'
      by_cases same : key a = k' <;> simp [same, ne]
    calc l = l.filter (fun a => key a = k) ++ l.filter (fun a => key a ≠ k) :=
          sorted_split key sorted least
      _ = _ := by rw [tail, buckets, List.flatMap_cons]

/-- A stable sort concatenates the buckets of the keys. -/
theorem sortByKey_eq_flatMap {ks : List κ} (ascending : ks.Pairwise (· < ·)) {l : List α}
    (keys : ∀ a ∈ l, key a ∈ ks) :
    sortByKey key l = ks.flatMap fun k => l.filter fun a => key a = k := by
  have sorted := sorted_eq_flatMap key ascending (sortByKey_pairwise key l)
    fun a ha => keys a ((sortByKey_perm key l).mem_iff.mp ha)
  simpa only [filter_sortByKey] using sorted

end StableSort
