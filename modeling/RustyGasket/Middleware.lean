import Mathlib.Data.List.Basic

/-!
# Layers around a handler

A layer answers a request. On the way it may call what it is around, any number of times and
with requests of its own making, and go on by what it is answered.

* `runs_through`: every run of the handler is let through by each layer, in their order;
* `runs_keep`: what every layer keeps of its requests holds of what the handler gets.
-/

namespace Middleware

variable {Request Response : Type}

/-- What a layer does with one request. -/
inductive Handling (Request Response : Type)
  | respond (response : Response)
  | call (request : Request) (next : Response → Handling Request Response)

namespace Handling

variable (service : Request → Response)

def answer : Handling Request Response → Response
  | respond response => response
  | call request next => (next (service request)).answer

/-- The calls to the service it is around. -/
def calls : Handling Request Response → List Request
  | respond _ => []
  | call request next => request :: (next (service request)).calls

end Handling

abbrev Layer (Request Response : Type) := Request → Handling Request Response

/-- A handler under layers, the head outermost. -/
def serve (handler : Request → Response) : List (Layer Request Response) → Request → Response
  | [], request => handler request
  | layer :: rest, request => (layer request).answer (serve handler rest)

/-- A run of the handler: the requests on the way to it, one for each layer, and its own. -/
structure Run (Request : Type) where
  way : List Request
  own : Request

/-- The runs of the handler that one request leads to. -/
def runs (handler : Request → Response) :
    List (Layer Request Response) → Request → List (Run Request)
  | [], request => [⟨[], request⟩]
  | layer :: rest, request => ((layer request).calls (serve handler rest)).flatMap fun inner =>
    (runs handler rest inner).map fun run => ⟨request :: run.way, run.own⟩

/-- Around some service, the layer calls it for this request. -/
def Passes (layer : Layer Request Response) (seen passed : Request) : Prop :=
  ∃ service, passed ∈ (layer seen).calls service

variable {handler : Request → Response} {layer gate : Layer Request Response}
  {layers outer inner : List (Layer Request Response)} {request : Request} {run : Run Request}

theorem mem_runs_cons (h : run ∈ runs handler (layer :: layers) request) :
    ∃ passed, Passes layer request passed ∧ ∃ later ∈ runs handler layers passed,
      run = ⟨request :: later.way, later.own⟩ := by
  obtain ⟨passed, called, made⟩ := List.mem_flatMap.mp h
  obtain ⟨later, own, rfl⟩ := List.mem_map.mp made
  exact ⟨passed, ⟨_, called⟩, later, own, rfl⟩

/-- A layer in between saw a request on the way and let one through. -/
theorem runs_through (h : run ∈ runs handler (outer ++ gate :: inner) request) :
    ∃ seen passed, Passes gate seen passed ∧ run.way[outer.length]? = some seen ∧
      ∃ later ∈ runs handler inner passed, run.own = later.own := by
  induction outer generalizing request run with
  | nil =>
    obtain ⟨passed, passes, later, made, rfl⟩ := mem_runs_cons h
    exact ⟨request, passed, passes, rfl, later, made, rfl⟩
  | cons layer rest ih =>
    obtain ⟨_, -, later, made, rfl⟩ := mem_runs_cons h
    obtain ⟨seen, passed, passes, here, own⟩ := ih made
    exact ⟨seen, passed, passes, here, own⟩

theorem runs_keep {P : Request → Prop}
    (keep : ∀ layer ∈ layers, ∀ seen passed, Passes layer seen passed → P seen → P passed)
    (start : P request) (h : run ∈ runs handler layers request) : P run.own := by
  induction layers generalizing request run with
  | nil =>
    cases List.mem_singleton.mp h
    exact start
  | cons layer rest ih =>
    obtain ⟨passed, passes, later, made, rfl⟩ := mem_runs_cons h
    have on := keep layer List.mem_cons_self request passed passes start
    have kept : P later.own :=
      ih (fun other listed => keep other (List.mem_cons_of_mem _ listed)) on made
    exact kept

end Middleware
