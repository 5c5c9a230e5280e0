import Mathlib.Logic.Function.Basic

/-!
# One cell for each key

A try at a key is answered by that key's cell, which moves on if the try succeeds; and a cell
that answers as a new one would is thrown away some time.

* `cellAfter`: the cell that some tries at one key leave;
* `Behaves`: a cell that answers like another from now on;
* `Store.Mirrors`: every key's cell behaves like the one its own tries leave.
-/

namespace KeyedCells

variable {Key Cell Refusal : Type}

/-- The cell after a try; `none` is a new one. -/
def after (cell : Option Cell) : Except Refusal Cell → Option Cell
  | .ok next => some next
  | .error _ => cell

section
variable (reply : Option Cell → Nat → Except Refusal Cell)

def cellAfter (cell : Option Cell) (times : List Nat) : Option Cell :=
  times.foldl (fun cell now => after cell (reply cell now)) cell

def Behaves (now : Nat) (cell other : Option Cell) : Prop :=
  ∀ later, now ≤ later → reply cell later = reply other later

/-- What is thrown away at some time behaves like a new cell from then on. -/
def Discards (spent : Cell → Nat → Bool) : Prop :=
  ∀ cell now, spent cell now = true → Behaves reply now (some cell) none

end

abbrev Store (Key Cell : Type) := Key → Option Cell

namespace Store

variable [DecidableEq Key]

def attempt (reply : Option Cell → Nat → Except Refusal Cell) (store : Store Key Cell) (key : Key)
    (now : Nat) : Except Refusal Cell × Store Key Cell :=
  let answer := reply (store key) now
  (answer, Function.update store key (after (store key) answer))

def discard (spent : Cell → Nat → Bool) (store : Store Key Cell) (key : Key) (now : Nat) :
    Store Key Cell :=
  Function.update store key ((store key).filter fun cell => !spent cell now)

end Store

variable {reply : Option Cell → Nat → Except Refusal Cell} {spent : Cell → Nat → Bool}

/-! ## One cell -/

theorem cellAfter_append (cell : Option Cell) (times : List Nat) (now : Nat) :
    cellAfter reply cell (times ++ [now]) =
      after (cellAfter reply cell times) (reply (cellAfter reply cell times) now) := by
  rw [cellAfter, List.foldl_append]
  rfl

namespace Behaves

variable {now time : Nat} {cell other : Option Cell}

theorem refl (now : Nat) (cell : Option Cell) : Behaves reply now cell cell := fun _ _ => rfl

theorem later (h : Behaves reply now cell other) (le : now ≤ time) :
    Behaves reply time cell other := fun further reached => h further (Nat.le_trans le reached)

/-- A try that succeeds makes the two one, and a refused one leaves them. -/
theorem after (h : Behaves reply now cell other) :
    Behaves reply now (after cell (reply cell now)) (after other (reply other now)) := by
  rw [h now (Nat.le_refl _)]
  cases reply other now with
  | ok next => exact refl now _
  | error refusal => exact h

theorem discard (discards : Discards reply spent) {started : Nat} (le : started ≤ now)
    (h : Behaves reply now cell other) :
    Behaves reply now (cell.filter fun cell => !spent cell started) other := by
  cases cell with
  | none => exact h
  | some held =>
    cases gone : spent held started with
    | false =>
      rw [Option.filter_some_pos (by simp [gone])]
      exact h
    | true =>
      rw [Option.filter_some_neg (by simp [gone])]
      intro time reached
      rw [← discards held started gone time (Nat.le_trans le reached)]
      exact h time reached

end Behaves

/-! ## A store of them -/

namespace Store

variable [DecidableEq Key] {now time : Nat} {store : Store Key Cell} {times : Key → List Nat}

/-- `times` are the tries at each key so far. -/
def Mirrors (reply : Option Cell → Nat → Except Refusal Cell) (now : Nat)
    (store : Store Key Cell) (times : Key → List Nat) : Prop :=
  ∀ key, Behaves reply now (store key) (cellAfter reply none (times key))

namespace Mirrors

omit [DecidableEq Key] in
theorem empty (now : Nat) : Mirrors reply now (fun _ : Key => none) fun _ => [] :=
  fun _ => Behaves.refl now none

omit [DecidableEq Key] in
theorem later (h : Mirrors reply now store times) (le : now ≤ time) :
    Mirrors reply time store times := fun key => (h key).later le

omit [DecidableEq Key] in
/-- A try is answered as if its key had been the only one, and nothing thrown away. -/
theorem answer (h : Mirrors reply now store times) (key : Key) :
    reply (store key) now = reply (cellAfter reply none (times key)) now :=
  h key now (Nat.le_refl _)

theorem attempt {key : Key} (h : Mirrors reply now store times) :
    Mirrors reply now (store.attempt reply key now).2
      (Function.update times key (times key ++ [now])) := by
  intro other
  by_cases same : other = key
  · subst same
    simp only [Store.attempt, Function.update_self, cellAfter_append]
    exact (h other).after
  · simp only [Store.attempt, Function.update_of_ne same]
    exact h other

theorem discard (discards : Discards reply spent) {started : Nat} (le : started ≤ now)
    {key : Key} (h : Mirrors reply now store times) :
    Mirrors reply now (store.discard spent key started) times := by
  intro other
  by_cases same : other = key
  · subst same
    rw [Store.discard, Function.update_self]
    exact (h other).discard discards le
  · rw [Store.discard, Function.update_of_ne same]
    exact h other

end Mirrors

end Store

end KeyedCells
