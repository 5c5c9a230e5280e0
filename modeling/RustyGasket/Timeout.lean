import RustyGasket.Transition

/-!
# A computation under a time limit

Poll by poll: the limit counts from the first poll, the computation is asked before the
clock, and who polls late may still be told in time.
-/

/-- What a poll is told; that the time has elapsed only once it has. -/
inductive PollAnswer (α : Type)
  | ready (value : α)
  | pending
  | elapsed
  deriving DecidableEq, Repr

structure Poll (α : Type) where
  now : Nat
  answer : PollAnswer α
  deriving DecidableEq, Repr

inductive Timeout (α : Type)
  | fresh
  | waiting (deadline : Nat)
  /-- With no value where the time elapsed. -/
  | done (result : Option α)
  deriving DecidableEq, Repr

namespace Timeout

variable {α : Type}

def settle (deadline : Nat) (poll : Poll α) : Option (Timeout α) :=
  match poll.answer with
  | .ready value => some (done (some value))
  | .pending => some (waiting deadline)
  | .elapsed => if deadline ≤ poll.now then some (done none) else none

def step (limit : Nat) (t : Timeout α) (poll : Poll α) : Option (Timeout α) :=
  match t with
  | fresh => settle (poll.now + limit) poll
  | waiting deadline => settle deadline poll
  | done _ => none

/-- The last poll, of a wait that ends at a deadline. -/
def Ends (deadline : Nat) (poll : Poll α) : Option α → Prop
  | some value => poll.answer = .ready value
  | none => poll.answer = .elapsed ∧ deadline ≤ poll.now

/-- What the polls of one wait came to: all but the last found it pending, and the last
told its value, or that the limit had passed since the first. -/
def Settles (limit : Nat) (polls : List (Poll α)) (result : Option α) : Prop :=
  ∃ waits last first, polls = waits ++ [last] ∧ (∀ poll ∈ waits, poll.answer = .pending) ∧
    polls.head? = some first ∧ Ends (first.now + limit) last result

theorem step_done (limit : Nat) (result : Option α) (polls : List (Poll α)) {t : Timeout α}
    (h : Transition.exec (step limit) (done result) polls = some t) :
    polls = [] ∧ t = done result := by
  cases polls with
  | nil => exact ⟨rfl, (Option.some.inj h).symm⟩
  | cons => cases h

theorem settle_ends {deadline : Nat} {poll : Poll α} {t : Timeout α}
    (h : settle deadline poll = some t) :
    poll.answer = .pending ∧ t = waiting deadline ∨
      ∃ result, t = done result ∧ Ends deadline poll result := by
  unfold settle at h
  cases answer : poll.answer with
  | ready value =>
    rw [answer] at h
    exact .inr ⟨some value, (Option.some.inj h).symm, answer⟩
  | pending =>
    rw [answer] at h
    exact .inl ⟨rfl, (Option.some.inj h).symm⟩
  | elapsed =>
    rw [answer] at h
    obtain ⟨passed, same⟩ := Option.ite_none_right_eq_some.mp h
    exact .inr ⟨none, (Option.some.inj same).symm, answer, passed⟩

theorem exec_waiting {limit deadline : Nat} {polls : List (Poll α)} {result : Option α}
    (h : Transition.exec (step limit) (waiting deadline) polls = some (done result)) :
    ∃ waits last, polls = waits ++ [last] ∧ (∀ poll ∈ waits, poll.answer = .pending) ∧
      Ends deadline last result := by
  induction polls with
  | nil => cases h
  | cons poll rest ih =>
    obtain ⟨t, moved, later⟩ := Option.bind_eq_some_iff.mp h
    obtain ⟨pending, rfl⟩ | ⟨result', rfl, ends⟩ := settle_ends moved
    · obtain ⟨waits, last, rfl, waited, ends⟩ := ih later
      exact ⟨poll :: waits, last, rfl, List.forall_mem_cons.mpr ⟨pending, waited⟩, ends⟩
    · obtain ⟨rfl, same⟩ := step_done limit result' rest later
      cases same
      exact ⟨[], poll, rfl, nofun, ends⟩

theorem exec_settles {limit : Nat} {polls : List (Poll α)} {result : Option α}
    (h : Transition.exec (step limit) fresh polls = some (done result)) :
    Settles limit polls result := by
  cases polls with
  | nil => cases h
  | cons first rest =>
    obtain ⟨t, moved, later⟩ := Option.bind_eq_some_iff.mp h
    obtain ⟨pending, rfl⟩ | ⟨result', rfl, ends⟩ := settle_ends moved
    · obtain ⟨waits, last, rfl, waited, ends⟩ := exec_waiting later
      exact ⟨first :: waits, last, first, rfl, List.forall_mem_cons.mpr ⟨pending, waited⟩, rfl,
        ends⟩
    · obtain ⟨rfl, same⟩ := step_done limit result' rest later
      cases same
      exact ⟨[], first, first, rfl, nofun, rfl, ends⟩

end Timeout
