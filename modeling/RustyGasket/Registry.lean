import Mathlib.Data.List.Basic

/-!
# A registry that keeps what came first

Clients come one after another, and what a client claims next may depend on whether it was
granted what it claimed before.

* `Settles.get`: a key has the value of the first claim to it;
* `Settles.granted`: a claim is granted exactly when it is the first to its key;
* `runAll_settles`: both hold of what any clients claim.
-/

/-- The claims that were granted, the newest first. -/
abbrev Registry (Key Value : Type) := List (Key × Value)

namespace Registry

inductive Client (Key Value : Type)
  | done
  | claim (key : Key) (value : Value) (next : (granted : Bool) → Client Key Value)

structure Claim (Key Value : Type) where
  key : Key
  value : Value
  granted : Bool

variable {Key Value Owner : Type} [DecidableEq Key]

def get (r : Registry Key Value) (key : Key) : Option Value :=
  (r.find? (·.1 = key)).map Prod.snd

theorem get_cons (key other : Key) (value : Value) (r : Registry Key Value) :
    get ((key, value) :: r) other = if key = other then some value else r.get other := by
  by_cases same : key = other
  · simp [get, same]
  · simp [get, same]

namespace Client

def run : Client Key Value → Registry Key Value → Registry Key Value
  | done, r => r
  | claim key value next, r => match r.get key with
    | none => (next true).run ((key, value) :: r)
    | some _ => (next false).run r

def claims : Client Key Value → Registry Key Value → List (Claim Key Value)
  | done, _ => []
  | claim key value next, r => match r.get key with
    | none => ⟨key, value, true⟩ :: (next true).claims ((key, value) :: r)
    | some _ => ⟨key, value, false⟩ :: (next false).claims r

end Client

/-! ## What is granted -/

/-- The value of the first claim to a key. -/
def first (claims : List (Claim Key Value)) (key : Key) : Option Value :=
  (claims.find? (·.key = key)).map Claim.value

/-- What some claims make of a registry. -/
structure Settles (r : Registry Key Value) (claims : List (Claim Key Value))
    (after : Registry Key Value) : Prop where
  get : ∀ key, after.get key = (r.get key).or (first claims key)
  granted : ∀ earlier claim later, claims = earlier ++ claim :: later →
    (claim.granted = true ↔ r.get claim.key = none ∧ ∀ other ∈ earlier, other.key ≠ claim.key)

theorem Settles.nil (r : Registry Key Value) : Settles r [] r where
  get key := by rw [first, List.find?_nil, Option.map_none, Option.or_none]
  granted earlier claim later none_made := by
    cases earlier <;> cases none_made

theorem first_append (earlier later : List (Claim Key Value)) (key : Key) :
    first (earlier ++ later) key = (first earlier key).or (first later key) := by
  rw [first, List.find?_append, Option.map_or]
  rfl

theorem first_eq_none {claims : List (Claim Key Value)} {key : Key} :
    first claims key = none ↔ ∀ claim ∈ claims, claim.key ≠ key := by
  simp [first]

theorem Settles.append {r s t : Registry Key Value} {earlier later : List (Claim Key Value)}
    (h : Settles r earlier s) (k : Settles s later t) : Settles r (earlier ++ later) t where
  get key := by rw [k.get, h.get, first_append, Option.or_assoc]
  granted before claim after split := by
    obtain ⟨part, rfl, rest⟩ | ⟨part, rfl, rest⟩ := List.append_eq_append_iff.mp split
    · rw [k.granted part claim after rest, h.get, Option.or_eq_none_iff, first_eq_none]
      constructor
      · rintro ⟨⟨free, unclaimed⟩, others⟩
        refine ⟨free, fun other made => ?_⟩
        obtain own | own := List.mem_append.mp made
        · exact unclaimed other own
        · exact others other own
      · rintro ⟨free, others⟩
        exact ⟨⟨free, fun other made => others other (List.mem_append_left _ made)⟩,
          fun other made => others other (List.mem_append_right _ made)⟩
    · cases part with
      | nil =>
        rw [k.granted [] claim after rest.symm, h.get, Option.or_eq_none_iff, first_eq_none,
          List.append_nil]
        exact ⟨fun free => free.1, fun free => ⟨free, nofun⟩⟩
      | cons _ part =>
        obtain ⟨rfl, rfl⟩ := List.cons.inj rest
        exact h.granted before claim part rfl

theorem Settles.granting {r : Registry Key Value} {key : Key} (value : Value)
    (free : r.get key = none) : Settles r [⟨key, value, true⟩] ((key, value) :: r) where
  get other := by
    rw [get_cons]
    by_cases same : key = other
    · subst same
      simp [first, free]
    · simp [first, same]
  granted earlier claim later split := by
    obtain ⟨rfl, only⟩ | ⟨_, -, more⟩ := List.cons_eq_append_iff.mp split
    · obtain ⟨rfl, -⟩ := List.cons.inj only
      exact ⟨fun _ => ⟨free, nofun⟩, fun _ => rfl⟩
    · cases List.append_ne_nil_of_right_ne_nil _ (List.cons_ne_nil claim later) more.symm

theorem Settles.refusing {r : Registry Key Value} {key : Key} (value : Value)
    (taken : r.get key ≠ none) : Settles r [⟨key, value, false⟩] r where
  get other := by
    by_cases same : key = other
    · subst same
      obtain ⟨held, holds⟩ := Option.ne_none_iff_exists'.mp taken
      rw [holds, Option.some_or]
    · simp [first, same]
  granted earlier claim later split := by
    obtain ⟨rfl, only⟩ | ⟨_, -, more⟩ := List.cons_eq_append_iff.mp split
    · obtain ⟨rfl, -⟩ := List.cons.inj only
      exact ⟨nofun, fun free => absurd free.1 taken⟩
    · cases List.append_ne_nil_of_right_ne_nil _ (List.cons_ne_nil claim later) more.symm

theorem Client.settles (c : Client Key Value) (r : Registry Key Value) :
    Settles r (c.claims r) (c.run r) := by
  induction c generalizing r with
  | done => exact .nil r
  | claim key value next ih =>
    cases held : r.get key with
    | none =>
      simp only [claims, run, held]
      exact (Settles.granting value held).append (ih true _)
    | some _ =>
      simp only [claims, run, held]
      exact (Settles.refusing value (held ▸ Option.some_ne_none _)).append (ih false r)

/-! ## One client after another -/

def runAll (clients : List (Client Key Value)) (r : Registry Key Value) : Registry Key Value :=
  clients.foldl (fun r c => c.run r) r

def claimsAll : List (Client Key Value) → Registry Key Value → List (Claim Key Value)
  | [], _ => []
  | c :: rest, r => c.claims r ++ claimsAll rest (c.run r)

theorem runAll_settles (clients : List (Client Key Value)) (r : Registry Key Value) :
    Settles r (claimsAll clients r) (runAll clients r) := by
  induction clients generalizing r with
  | nil => exact .nil r
  | cons c rest ih => exact (c.settles r).append (ih (c.run r))

end Registry
