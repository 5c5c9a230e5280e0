import Mathlib.Logic.Function.Basic

/-!
# Stores whose entries expire

What a store of entries with deadlines is for, as a map and a clock, and what it takes
for calls with a state of their own to behave as one. A store may refuse a write, and it
may drop entries of itself at any time.

* `Refines`: each call answers as the map and keeps the relation to it;
* `plain_refines`: a map that never forgets;
* `lazy_refines`: one that drops an expired entry when it is asked for it;
* `Refines.sharded`: any number of stores, each key in the one it is routed to;
* `Refines.checked`: a check in front of every call.
-/

namespace ExpiringStore

variable {ε σ K V τ ι : Type*}

structure Entry (V : Type*) where
  value : V
  deadline : Nat
  deriving DecidableEq, Repr

/-- The map: what was last written under each key, expired or not. -/
abbrev Store (K V : Type*) := K → Option (Entry V)

namespace Store

/-- What the key reads as at a time. -/
def read (m : Store K V) (now : Nat) (k : K) : Option V :=
  (m k).bind fun e => if e.deadline ≤ now then none else some e.value

variable [DecidableEq K]

def write (m : Store K V) (k : K) (v : V) (deadline : Nat) : Store K V :=
  Function.update m k (some ⟨v, deadline⟩)

def erase (m : Store K V) (k : K) : Store K V := Function.update m k none

/-- A write that may be refused. -/
def put (m : Store K V) (k : K) (v : V) : Except ε Nat → Store K V
  | .ok deadline => m.write k v deadline
  | .error _ => m

omit [DecidableEq K] in
/-- What is left when some entries are dropped. -/
def without (m : Store K V) (gone : K → Bool) : Store K V := fun k => if gone k then none else m k

end Store

/-- A store as it is called: with its state, the time and what the caller passes. What it
drops of itself is not the caller's to say. -/
structure Calls (ε σ K V τ : Type*) where
  get : σ → Nat → K → σ × Except ε (Option V)
  set : σ → Nat → K → V → τ → σ × Except ε Unit
  delete : σ → Nat → K → σ × Except ε Unit
  drop : σ → (K → Bool) → σ

/-- On valid keys the calls answer as the map does, where a `τ` passed now means a
deadline or a refusal, and time passing breaks nothing. -/
structure Refines [DecidableEq K] (calls : Calls ε σ K V τ) (valid : K → Prop)
    (deadline : Nat → K → V → τ → Except ε Nat) (R : Nat → σ → Store K V → Prop) : Prop where
  get {now : Nat} {s : σ} {m : Store K V} {k : K} : valid k → R now s m →
    R now (calls.get s now k).1 m ∧ (calls.get s now k).2 = .ok (m.read now k)
  set {now : Nat} {s : σ} {m : Store K V} {k : K} (v : V) (ttl : τ) : valid k → R now s m →
    R now (calls.set s now k v ttl).1 (m.put k v (deadline now k v ttl)) ∧
      (calls.set s now k v ttl).2 = (deadline now k v ttl).map fun _ => ()
  delete {now : Nat} {s : σ} {m : Store K V} {k : K} : valid k → R now s m →
    R now (calls.delete s now k).1 (m.erase k) ∧ (calls.delete s now k).2 = .ok ()
  drop {now : Nat} {s : σ} {m : Store K V} (gone : K → Bool) : R now s m →
    R now (calls.drop s gone) (m.without gone)
  later {now now' : Nat} {s : σ} {m : Store K V} : R now s m → now ≤ now' → R now' s m

theorem Refines.restrict [DecidableEq K] {calls : Calls ε σ K V τ} {valid valid' : K → Prop}
    {deadline : Nat → K → V → τ → Except ε Nat} {R : Nat → σ → Store K V → Prop}
    (h : Refines calls valid deadline R) (fewer : ∀ k, valid' k → valid k) :
    Refines calls valid' deadline R where
  get ok := h.get (fewer _ ok)
  set v ttl ok := h.set v ttl (fewer _ ok)
  delete ok := h.delete (fewer _ ok)
  drop := h.drop
  later := h.later

section
variable [DecidableEq K] (deadline : Nat → K → V → τ → Except ε Nat)

/-- A server that keeps entries until they are replaced. -/
def plain : Calls ε (Store K V) K V τ where
  get s now k := (s, .ok (s.read now k))
  set s now k v ttl := (s.put k v (deadline now k v ttl), (deadline now k v ttl).map fun _ => ())
  delete s _ k := (s.erase k, .ok ())
  drop s gone := s.without gone

theorem plain_refines :
    Refines (plain deadline) (fun _ => True) deadline fun _ s m => s = m where
  get _ same := ⟨same, by rw [← same]; rfl⟩
  set _ _ _ same := ⟨by rw [← same]; rfl, rfl⟩
  delete _ same := ⟨by rw [← same]; rfl, rfl⟩
  drop _ same := by rw [← same]; rfl
  later same _ := same

/-- An expired entry is dropped by the `get` that finds it. -/
def lazy : Calls ε (Store K V) K V τ where
  get s now k := match s k with
    | none => (s, .ok none)
    | some e => if e.deadline ≤ now then (s.erase k, .ok none) else (s, .ok (some e.value))
  set s now k v ttl := (s.put k v (deadline now k v ttl), (deadline now k v ttl).map fun _ => ())
  delete s _ k := (s.erase k, .ok ())
  drop s gone := s.without gone

/-- All that is missing has expired. -/
def Fresh (now : Nat) (s m : Store K V) : Prop :=
  ∀ k, s k = m k ∨ s k = none ∧ ∃ e, m k = some e ∧ e.deadline ≤ now

omit [DecidableEq K] in
theorem Fresh.read {now : Nat} {s m : Store K V} (h : Fresh now s m) (k : K) :
    s.read now k = m.read now k := by
  unfold Store.read
  obtain same | ⟨missing, e, stored, expired⟩ := h k
  · rw [same]
  · rw [missing, stored, Option.bind_none, Option.bind_some, if_pos expired]

theorem Fresh.update {now : Nat} {s m : Store K V} (h : Fresh now s m) (k : K)
    (entry : Option (Entry V)) :
    Fresh now (Function.update s k entry) (Function.update m k entry) := by
  intro j
  by_cases same : j = k
  · subst same
    simp
  · simpa [same] using h j

omit [DecidableEq K] in
theorem Fresh.without {now : Nat} {s m : Store K V} (h : Fresh now s m) (gone : K → Bool) :
    Fresh now (s.without gone) (m.without gone) := by
  intro k
  unfold Store.without
  by_cases dropped : gone k = true
  · simp [dropped]
  · simpa [dropped] using h k

theorem lazy_refines : Refines (lazy deadline) (fun _ => True) deadline Fresh where
  get {now s m k} _ h := by
    have reads := h.read k
    cases stored : s k with
    | none =>
      have missing : s.read now k = none := by simp [Store.read, stored]
      simp only [lazy, stored]
      exact ⟨h, by rw [← reads, missing]⟩
    | some e =>
      simp only [lazy, stored]
      by_cases expired : e.deadline ≤ now
      · rw [if_pos expired]
        have missing : s.read now k = none := by simp [Store.read, stored, expired]
        refine ⟨fun j => ?_, by rw [← reads, missing]⟩
        by_cases same : j = k
        · subst same
          right
          refine ⟨by simp [Store.erase], ?_⟩
          obtain kept | ⟨gone, -⟩ := h j
          · exact ⟨e, kept ▸ stored, expired⟩
          · rw [stored] at gone
            cases gone
        · simpa [Store.erase, same] using h j
      · rw [if_neg expired]
        have live : s.read now k = some e.value := by simp [Store.read, stored, expired]
        exact ⟨h, by rw [← reads, live]⟩
  set {now _ _ k} v ttl _ h := by
    refine ⟨?_, rfl⟩
    cases accepted : deadline now k v ttl with
    | error => simpa only [lazy, accepted, Store.put] using h
    | ok =>
      simp only [lazy, accepted, Store.put]
      exact h.update _ _
  delete _ h := ⟨h.update _ _, rfl⟩
  drop gone h := h.without gone
  later {now now' s m} h le := by
    intro k
    obtain same | ⟨missing, e, stored, expired⟩ := h k
    · exact .inl same
    · exact .inr ⟨missing, e, stored, Nat.le_trans expired le⟩

end

section
variable [DecidableEq ι] (route : K → ι) (calls : Calls ε σ K V τ)

/-- One store for each shard, and each call to the shard of its key. -/
def sharded : Calls ε (ι → σ) K V τ where
  get s now k :=
    let (t, answer) := calls.get (s (route k)) now k
    (Function.update s (route k) t, answer)
  set s now k v ttl :=
    let (t, answer) := calls.set (s (route k)) now k v ttl
    (Function.update s (route k) t, answer)
  delete s now k :=
    let (t, answer) := calls.delete (s (route k)) now k
    (Function.update s (route k) t, answer)
  drop s gone i := calls.drop (s i) gone

/-- The keys of one shard. -/
def part (m : Store K V) (i : ι) : Store K V := fun k => if route k = i then m k else none

/-- Each shard holds the keys routed to it. -/
def Sharded (R : Nat → σ → Store K V → Prop) (now : Nat) (s : ι → σ) (m : Store K V) : Prop :=
  ∀ i, R now (s i) (part route m i)

theorem part_read (m : Store K V) (now : Nat) (k : K) :
    (part route m (route k)).read now k = m.read now k := by
  simp [Store.read, part]

variable [DecidableEq K]

theorem part_update (m : Store K V) (k : K) (entry : Option (Entry V)) (i : ι) :
    part route (Function.update m k entry) i =
      if i = route k then Function.update (part route m i) k entry else part route m i := by
  by_cases here : i = route k
  · subst here
    rw [if_pos rfl]
    funext j
    by_cases same : j = k
    · subst same
      simp [part]
    · simp [part, same]
  · rw [if_neg here]
    funext j
    by_cases same : j = k
    · subst same
      simp [part, Ne.symm here]
    · simp [part, same]

theorem Sharded.update {R : Nat → σ → Store K V → Prop} {now : Nat} {s : ι → σ} {m : Store K V}
    (h : Sharded route R now s m) {k : K} {entry : Option (Entry V)} {t : σ}
    (ht : R now t (Function.update (part route m (route k)) k entry)) :
    Sharded route R now (Function.update s (route k) t) (Function.update m k entry) := by
  intro i
  rw [part_update]
  by_cases here : i = route k
  · subst here
    rw [if_pos rfl, Function.update_self]
    exact ht
  · rw [if_neg here, Function.update_of_ne here]
    exact h i

omit [DecidableEq K] in
/-- A shard moved, and stands for the same keys. -/
theorem Sharded.same {R : Nat → σ → Store K V → Prop} {now : Nat} {s : ι → σ} {m : Store K V}
    (h : Sharded route R now s m) {i : ι} {t : σ} (ht : R now t (part route m i)) :
    Sharded route R now (Function.update s i t) m := by
  intro j
  by_cases here : j = i
  · subst here
    rw [Function.update_self]
    exact ht
  · rw [Function.update_of_ne here]
    exact h j

omit [DecidableEq K] in
theorem part_without (m : Store K V) (gone : K → Bool) (i : ι) :
    part route (m.without gone) i = (part route m i).without gone := by
  funext k
  simp only [part, Store.without]
  by_cases here : route k = i
  · rw [if_pos here, if_pos here]
  · rw [if_neg here, if_neg here, ite_self]

variable {calls} {valid : K → Prop} {deadline : Nat → K → V → τ → Except ε Nat}
  {R : Nat → σ → Store K V → Prop}

theorem Refines.sharded (h : Refines calls valid deadline R) :
    Refines (sharded route calls) valid deadline (Sharded route R) where
  get {now s m k} ok related := by
    obtain ⟨kept, answer⟩ := h.get ok (related (route k))
    exact ⟨related.same route kept, by rw [part_read] at answer; exact answer⟩
  set {now s m k} v ttl ok related := by
    obtain ⟨written, answer⟩ := h.set v ttl ok (related (route k))
    refine ⟨?_, answer⟩
    cases accepted : deadline now k v ttl with
    | error =>
      rw [accepted] at written
      exact related.same route written
    | ok =>
      rw [accepted] at written
      exact related.update route written
  delete {now s m k} ok related := by
    obtain ⟨erased, answer⟩ := h.delete ok (related (route k))
    exact ⟨related.update route erased, answer⟩
  drop gone related i := by
    rw [part_without]
    exact h.drop gone (related i)
  later related le i := h.later (related i) le

variable (check : K → Except ε Unit) (calls)

/-- The call is made if the key passes. -/
def checked : Calls ε σ K V τ where
  get s now k := match check k with
    | .ok () => calls.get s now k
    | .error e => (s, .error e)
  set s now k v ttl := match check k with
    | .ok () => calls.set s now k v ttl
    | .error e => (s, .error e)
  delete s now k := match check k with
    | .ok () => calls.delete s now k
    | .error e => (s, .error e)
  drop := calls.drop

variable {calls} {check}

theorem Refines.checked (h : Refines calls valid deadline R)
    (passes : ∀ k, valid k → check k = .ok ()) :
    Refines (checked calls check) valid deadline R where
  get ok related := by
    simp only [ExpiringStore.checked, passes _ ok]
    exact h.get ok related
  set v ttl ok related := by
    simp only [ExpiringStore.checked, passes _ ok]
    exact h.set v ttl ok related
  delete ok related := by
    simp only [ExpiringStore.checked, passes _ ok]
    exact h.delete ok related
  drop := h.drop
  later := h.later

end

end ExpiringStore
