import Mathlib.Data.Finset.Card
import Mathlib.Data.Finset.Range
import RustyGasket.PluginGraph

/-!
# Kahn's loop on the plugin graph

The in-degree of an index not sorted yet is the number of its predecessors not
sorted yet, itself left out. So the queue holds exactly the indices whose
predecessors are all sorted, and what the loop leaves over contains a cycle.
-/

namespace RustyGasket.PluginGraph

/-- `adj` without its self-edges. -/
def Proper (adj : Adj) (i j : Nat) : Prop := i ≠ j ∧ j ∈ adj i

/-- The predecessors of `v` the loop has not sorted. -/
def openPreds (adj : Adj) (n : Nat) (sorted : List Nat) (v : Nat) : Finset Nat :=
  (Finset.range n).filter fun u => (u ≠ v ∧ v ∈ (adj u).elems) ∧ u ∉ sorted

/-- The loop invariant. -/
structure Kept (adj : Adj) (n : Nat) (s : Sorting) : Prop where
  nodup : (s.sorted ++ s.queue).Nodup
  range : ∀ v ∈ s.sorted ++ s.queue, v < n
  ordered : Topo.Ordered (Proper adj) s.sorted
  count : ∀ v, v ∉ s.sorted → s.inDegree v = (openPreds adj n s.sorted v).card
  ready : ∀ v < n, v ∉ s.sorted → (v ∈ s.queue ↔ s.inDegree v = 0)

theorem countRow (i v : Nat) (l : List Nat) (nodup : l.Nodup) (inDegree : Nat → Nat) :
    l.foldl (fun inDegree j =>
      if i ≠ j then Function.update inDegree j (inDegree j + 1) else inDegree) inDegree v =
    inDegree v + if i ≠ v ∧ v ∈ l then 1 else 0 := by
  induction l generalizing inDegree with
  | nil => simp
  | cons j rest ih =>
    obtain ⟨hj, nodup⟩ := List.nodup_cons.mp nodup
    rw [List.foldl_cons, ih nodup]
    by_cases same : v = j
    · subst same
      by_cases hi : i = v <;> simp [hi, hj]
    · by_cases hi : i = j <;> simp [hi, same]

theorem countInDegree_eq (adj : Adj) (n v : Nat) :
    countInDegree adj n v = (openPreds adj n [] v).card := by
  induction n with
  | zero => rfl
  | succ n ih =>
    have prev : (List.range n).foldl (fun inDegree i => (adj i).elems.foldl (fun inDegree j =>
        if i ≠ j then Function.update inDegree j (inDegree j + 1) else inDegree) inDegree)
        (fun _ => 0) v = (openPreds adj n [] v).card := ih
    rw [countInDegree, List.range_succ, List.foldl_append, List.foldl_cons, List.foldl_nil,
      countRow n v _ (adj n).nodup, prev, openPreds, openPreds, Finset.range_add_one,
      Finset.filter_insert]
    simp only [List.not_mem_nil, not_false_eq_true, and_true]
    split
    · rw [Finset.card_insert_of_notMem (by simp)]
    · rfl

theorem wrappingPred_eq_zero {d : Nat} : wrappingPred d = 0 ↔ d = 1 := by
  unfold wrappingPred
  by_cases zero : d = 0
  · have wrapped : UInt64.size - 1 ≠ 0 := by decide
    rw [if_pos zero]
    omega
  · rw [if_neg zero]
    omega

theorem relax_spec (s : Sorting) (l : List Nat) (nodup : l.Nodup) :
    (relax s l).sorted = s.sorted ∧
    (∀ v, (relax s l).inDegree v =
      if v ∈ l then wrappingPred (s.inDegree v) else s.inDegree v) ∧
    (relax s l).queue = s.queue ++ l.filter fun v => s.inDegree v = 1 := by
  induction l generalizing s with
  | nil => simp [relax]
  | cons j rest ih =>
    obtain ⟨hj, nodup⟩ := List.nodup_cons.mp nodup
    obtain ⟨sorted, inDegree, queue⟩ := ih { s with
      inDegree := Function.update s.inDegree j (wrappingPred (s.inDegree j))
      queue := if wrappingPred (s.inDegree j) = 0 then s.queue ++ [j] else s.queue } nodup
    refine ⟨sorted, fun v => ?_, ?_⟩
    · rw [relax, inDegree]
      by_cases same : v = j
      · subst same
        simp [hj]
      · simp [same]
    · have rest_eq : (rest.filter fun v =>
          Function.update s.inDegree j (wrappingPred (s.inDegree j)) v = 1) =
          rest.filter fun v => s.inDegree v = 1 := by
        refine List.filter_congr fun v hv => ?_
        have other : v ≠ j := fun same => hj (same ▸ hv)
        rw [Function.update_of_ne other]
      rw [relax, queue, rest_eq]
      simp only [wrappingPred_eq_zero, List.filter_cons, decide_eq_true_eq]
      split <;> simp

variable {adj : Adj} {n : Nat}

theorem mem_openPreds {sorted : List Nat} {u v : Nat} :
    u ∈ openPreds adj n sorted v ↔ u < n ∧ Proper adj u v ∧ u ∉ sorted := by
  rw [openPreds, Finset.mem_filter, Finset.mem_range]
  rfl

/-- Sorting `node` removes it, and nothing else, from the open predecessors. -/
theorem openPreds_concat (sorted : List Nat) (node v : Nat) :
    openPreds adj n (sorted ++ [node]) v = (openPreds adj n sorted v).erase node := by
  ext u
  simp only [Finset.mem_erase, mem_openPreds, List.mem_append, List.mem_singleton]
  tauto

theorem start_kept : Kept adj n (startSorting adj n) := by
  constructor
  · simpa [startSorting] using List.nodup_range.filter _
  · intro v hv
    simp only [startSorting, List.nil_append, List.mem_filter, List.mem_range] at hv
    exact hv.1
  · exact Topo.ordered_nil
  · exact fun v _ => countInDegree_eq adj n v
  · intro v hv _
    simp [startSorting, hv]

theorem Kept.queue_fresh {s : Sorting} (h : Kept adj n s) {v : Nat} (hv : v ∈ s.queue) :
    v ∉ s.sorted :=
  fun hs => (List.nodup_append.mp h.nodup).2.2 v hs v hv rfl

/-- A popped index has all its predecessors sorted. -/
theorem Kept.preds {s : Sorting} (h : Kept adj n s)
    (range : ∀ a b, b ∈ adj a → a < n ∧ b < n) {node : Nat} {queue : List Nat}
    (hq : s.queue = node :: queue) (u : Nat) (e : Proper adj u node) : u ∈ s.sorted := by
  have inQueue : node ∈ s.queue := hq ▸ List.mem_cons_self
  have fresh : node ∉ s.sorted := h.queue_fresh inQueue
  have lt : node < n := h.range node (List.mem_append_right _ inQueue)
  have zero : (openPreds adj n s.sorted node).card = 0 := by
    rw [← h.count node fresh]
    exact (h.ready node lt fresh).mp inQueue
  by_contra hu
  have : u ∈ openPreds adj n s.sorted node := mem_openPreds.mpr ⟨(range u node e.2).1, e, hu⟩
  rw [Finset.card_eq_zero.mp zero] at this
  cases this

theorem Kept.pop {s : Sorting} (h : Kept adj n s) (range : ∀ a b, b ∈ adj a → a < n ∧ b < n)
    {node : Nat} {queue : List Nat} (hq : s.queue = node :: queue) :
    Kept adj n (relax { s with queue := queue, sorted := s.sorted ++ [node] }
      (adj node).elems) := by
  have inQueue : node ∈ s.queue := hq ▸ List.mem_cons_self
  have fresh : node ∉ s.sorted := h.queue_fresh inQueue
  have lt : node < n := h.range node (List.mem_append_right _ inQueue)
  have zero : s.inDegree node = 0 := (h.ready node lt fresh).mp inQueue
  have ordered : Topo.Ordered (Proper adj) (s.sorted ++ [node]) :=
    h.ordered.concat (h.preds range hq)
  have counted : ∀ v, v ∉ s.sorted ++ [node] → v ∈ adj node →
      node ∈ openPreds adj n s.sorted v := by
    intro v hv succ
    simp only [List.mem_append, List.mem_singleton, not_or] at hv
    exact mem_openPreds.mpr ⟨lt, ⟨Ne.symm hv.2, succ⟩, fresh⟩
  have one_fresh : ∀ v, v ∈ adj node → s.inDegree v = 1 → v ∉ s.sorted ++ [node] := by
    intro v succ one hv
    obtain hs | hv := List.mem_append.mp hv
    · have distinct : node ≠ v := fun same => fresh (same ▸ hs)
      exact fresh (h.ordered.preds hs ⟨distinct, succ⟩)
    · rw [List.mem_singleton.mp hv, zero] at one
      cases one
  obtain ⟨hsorted, hdeg, hqueue⟩ := relax_spec
    { s with queue := queue, sorted := s.sorted ++ [node] } (adj node).elems (adj node).nodup
  have mem_ready : ∀ v, v ∈ ((adj node).elems.filter fun v => s.inDegree v = 1) ↔
      v ∈ adj node ∧ s.inDegree v = 1 := by
    intro v
    rw [List.mem_filter, decide_eq_true_eq]
    rfl
  have split : s.sorted ++ [node] ++ (queue ++ (adj node).elems.filter fun v => s.inDegree v = 1) =
      (s.sorted ++ s.queue) ++ (adj node).elems.filter fun v => s.inDegree v = 1 := by
    simp [hq]
  constructor
  · rw [hsorted, hqueue, split]
    refine List.Nodup.append h.nodup ((adj node).nodup.filter _) fun v old new => ?_
    obtain ⟨succ, one⟩ := (mem_ready v).mp new
    have hv := one_fresh v succ one
    simp only [List.mem_append, List.mem_singleton, not_or] at hv
    have waiting : v ∈ s.queue := (List.mem_append.mp old).resolve_left hv.1
    have := (h.ready v (h.range v old) hv.1).mp waiting
    omega
  · rw [hsorted, hqueue, split]
    intro v hv
    obtain old | new := List.mem_append.mp hv
    · exact h.range v old
    · exact (range node v ((mem_ready v).mp new).1).2
  · rw [hsorted]
    exact ordered
  · rw [hsorted]
    intro v hv
    have hv' : v ∉ s.sorted := fun hs => hv (List.mem_append_left _ hs)
    rw [hdeg, openPreds_concat, h.count v hv']
    split
    · rename_i succ
      have open_node := counted v hv succ
      have := Finset.card_pos.mpr ⟨node, open_node⟩
      rw [Finset.card_erase_of_mem open_node, wrappingPred, if_neg (by omega)]
    · rename_i succ
      rw [Finset.erase_eq_of_notMem fun open_node => succ (mem_openPreds.mp open_node).2.1.2]
  · rw [hsorted, hqueue]
    intro v lt hv
    have hv' : v ∉ s.sorted ∧ v ≠ node := by simpa using hv
    rw [hdeg, List.mem_append, mem_ready]
    have old : v ∈ queue ↔ s.inDegree v = 0 := by
      rw [← h.ready v lt hv'.1, hq, List.mem_cons]
      simp [hv'.2]
    split
    · rename_i succ
      have := Finset.card_pos.mpr ⟨node, counted v hv succ⟩
      rw [← h.count v hv'.1] at this
      simp only [wrappingPred_eq_zero, old]
      exact ⟨fun hd => by omega, fun one => Or.inr ⟨succ, one⟩⟩
    · rename_i succ
      rw [old]
      exact ⟨fun hd => hd.resolve_right fun hs => succ hs.1, Or.inl⟩

theorem drain_kept (range : ∀ a b, b ∈ adj a → a < n ∧ b < n) (fuel : Nat) {s : Sorting}
    (h : Kept adj n s) : Kept adj n (drain adj fuel s) := by
  induction fuel generalizing s with
  | zero => exact h
  | succ fuel ih =>
    rw [drain]
    split
    · exact h
    · exact ih (h.pop range ‹_›)

theorem Kept.length_le {s : Sorting} (h : Kept adj n s) :
    s.sorted.length + s.queue.length ≤ n := by
  have sub : s.sorted ++ s.queue ⊆ List.range n := fun v hv => List.mem_range.mpr (h.range v hv)
  simpa using (List.subperm_of_subset h.nodup sub).length_le

/-- The loop ends: every pop sorts one more index, and there are only `n`. -/
theorem drain_empties (range : ∀ a b, b ∈ adj a → a < n ∧ b < n) (fuel : Nat) {s : Sorting}
    (h : Kept adj n s) (enough : n ≤ s.sorted.length + fuel) : (drain adj fuel s).queue = [] := by
  induction fuel generalizing s with
  | zero =>
    have := h.length_le
    exact List.length_eq_zero_iff.mp (by rw [drain]; omega)
  | succ fuel ih =>
    rw [drain]
    split
    · assumption
    · rename_i node queue hq
      apply ih (h.pop range hq)
      rw [(relax_spec _ _ (adj node).nodup).1, List.length_append, List.length_singleton]
      omega

theorem kahn_kept (range : ∀ a b, b ∈ adj a → a < n ∧ b < n) : Kept adj n (kahn adj n) :=
  drain_kept range n start_kept

theorem kahn_empties (range : ∀ a b, b ∈ adj a → a < n ∧ b < n) : (kahn adj n).queue = [] :=
  drain_empties range n start_kept (by simp [startSorting])

/-- A full run lists every index. -/
theorem Kept.perm {s : Sorting} (h : Kept adj n s) (full : s.sorted.length = n) :
    s.sorted.Perm (List.range n) := by
  have nodup : s.sorted.Nodup := (List.nodup_append.mp h.nodup).1
  have sub : s.sorted ⊆ List.range n := fun v hv =>
    List.mem_range.mpr (h.range v (List.mem_append_left _ hv))
  exact (List.subperm_of_subset nodup sub).perm_of_length_le (by simp [full])

/-- What the loop leaves over waits for another one left over. -/
theorem kahn_waiting (range : ∀ a b, b ∈ adj a → a < n ∧ b < n) {v : Nat} (lt : v < n)
    (unsorted : v ∉ (kahn adj n).sorted) : ∃ u < n, u ∉ (kahn adj n).sorted ∧ Proper adj u v := by
  have h : Kept adj n (kahn adj n) := kahn_kept range
  have waiting : (kahn adj n).inDegree v ≠ 0 := by
    rw [ne_eq, ← h.ready v lt unsorted, kahn_empties range]
    exact List.not_mem_nil
  rw [h.count v unsorted] at waiting
  obtain ⟨u, hu⟩ := Finset.card_pos.mp (Nat.pos_of_ne_zero waiting)
  obtain ⟨ult, e, ufresh⟩ := mem_openPreds.mp hu
  exact ⟨u, ult, ufresh, e⟩

/-- **What the loop sorts**: the indices that no cycle leads to. -/
theorem kahn_unsorted_iff (range : ∀ a b, b ∈ adj a → a < n ∧ b < n) {v : Nat} (lt : v < n) :
    v ∉ (kahn adj n).sorted ↔
      ∃ u, Relation.TransGen (Proper adj) u u ∧ Relation.ReflTransGen (Proper adj) u v := by
  classical
  have h : Kept adj n (kahn adj n) := kahn_kept range
  constructor
  · intro unsorted
    -- the unsorted ancestors of `v`, of which each has another one before it
    obtain ⟨u, hu, cycle⟩ := Topo.exists_cycle
      ((Finset.range n).filter fun u =>
        u ∉ (kahn adj n).sorted ∧ Relation.ReflTransGen (Proper adj) u v)
      ⟨v, by simp only [Finset.mem_filter, Finset.mem_range]; exact ⟨lt, unsorted, .refl⟩⟩
      (by
        intro w hw
        simp only [Finset.mem_filter, Finset.mem_range] at hw ⊢
        obtain ⟨wlt, wfresh, path⟩ := hw
        obtain ⟨u, ult, ufresh, e⟩ := kahn_waiting range wlt wfresh
        exact ⟨u, ⟨ult, ufresh, path.head e⟩, e⟩)
    exact ⟨u, cycle, (Finset.mem_filter.mp hu).2.2⟩
  · rintro ⟨u, cycle, path⟩ sorted
    have nodup := (List.nodup_append.mp h.nodup).1
    exact h.ordered.off_cycle nodup (h.ordered.ancestors sorted path) cycle

theorem kahn_short (range : ∀ a b, b ∈ adj a → a < n ∧ b < n) :
    (kahn adj n).sorted.length ≠ n ↔ ∃ v < n, v ∉ (kahn adj n).sorted := by
  have h : Kept adj n (kahn adj n) := kahn_kept range
  constructor
  · intro short
    by_contra! all
    have sub : List.range n ⊆ (kahn adj n).sorted := fun v hv => all v (List.mem_range.mp hv)
    have le := (List.subperm_of_subset List.nodup_range sub).length_le
    have le' := h.length_le
    rw [List.length_range] at le
    omega
  · rintro ⟨v, lt, unsorted⟩ full
    exact unsorted ((h.perm full).mem_iff.mpr (List.mem_range.mpr lt))

/-- What the loop leaves over holds a cycle. -/
theorem kahn_cycle (range : ∀ a b, b ∈ adj a → a < n ∧ b < n)
    (short : (kahn adj n).sorted.length ≠ n) : ∃ v, Relation.TransGen (Proper adj) v v := by
  obtain ⟨v, lt, unsorted⟩ := (kahn_short range).mp short
  obtain ⟨u, cycle, -⟩ := (kahn_unsorted_iff range lt).mp unsorted
  exact ⟨u, cycle⟩

/-- **Kahn's loop is complete**: it sorts every index exactly when there is no cycle. -/
theorem kahn_full_iff (range : ∀ a b, b ∈ adj a → a < n ∧ b < n) :
    (kahn adj n).sorted.length = n ↔ ∀ v, ¬ Relation.TransGen (Proper adj) v v := by
  have h : Kept adj n (kahn adj n) := kahn_kept range
  constructor
  · intro full
    refine h.ordered.acyclic (List.nodup_append.mp h.nodup).1 fun u v e => ?_
    exact (h.perm full).mem_iff.mpr (List.mem_range.mpr (range u v e.2).2)
  · intro acyclic
    by_contra short
    obtain ⟨v, path⟩ := kahn_cycle range short
    exact acyclic v path

end RustyGasket.PluginGraph
