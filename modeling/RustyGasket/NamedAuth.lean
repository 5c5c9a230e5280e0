import RustyGasket.LayerStacks

/-!
# Where the named chain sits

A `Protected` route runs its layers in slot order, the Authentication layers
between those of the earlier and those of the later slots. A named chain stands
for these layers; the two stacks are built by different code.
-/

namespace RustyGasket

variable {Route Layer Chain : Type}

namespace GasketApp

variable (app : GasketApp Route Layer Chain)

/-- What a protected route runs before the Authentication slot. -/
def beforeAuthentication : List (Wrapper Layer Chain) :=
  (app.bySlot .transportSecurity).map (.layer ·.layer) ++
    [.bodyLimit app.requestBodyLimit, .logging] ++
    (app.innerLayers.filter fun l =>
      l.slot.discriminant < MiddlewareSlot.authentication.discriminant).map (.layer ·.layer)

/-- What a protected route runs after the Authentication slot. -/
def afterAuthentication : List (Wrapper Layer Chain) :=
  (app.innerLayers.filter fun l =>
    MiddlewareSlot.authentication.discriminant < l.slot.discriminant).map (.layer ·.layer)

/-- The layers of one slot pass a test on slots together or not at all. -/
theorem bySlot_filter (p : MiddlewareSlot → Prop) [DecidablePred p] (slot : MiddlewareSlot) :
    (app.bySlot slot).filter (fun l => p l.slot) = if p slot then app.bySlot slot else [] := by
  split
  · rename_i kept
    apply List.filter_eq_self.mpr
    intro l hl
    simpa [slot_of_mem_bySlot hl] using kept
  · rename_i dropped
    apply List.filter_eq_nil_iff.mpr
    intro l hl
    simpa [slot_of_mem_bySlot hl] using dropped

theorem innerLayers_filter (p : MiddlewareSlot → Prop) [DecidablePred p] :
    app.innerLayers.filter (fun l => p l.slot) =
      [.logging, .authentication, .rateLimit, .transaction, .custom].flatMap fun slot =>
        if p slot then app.bySlot slot else [] := by
  rw [innerLayers, List.filter_flatMap]
  apply List.flatMap_congr
  intro slot _
  exact app.bySlot_filter p slot

theorem earlier_eq : (app.innerLayers.filter fun l =>
    l.slot.discriminant < MiddlewareSlot.authentication.discriminant) = app.bySlot .logging := by
  rw [app.innerLayers_filter (·.discriminant < MiddlewareSlot.authentication.discriminant)]
  simp [MiddlewareSlot.discriminant]

theorem later_eq : (app.innerLayers.filter fun l =>
    MiddlewareSlot.authentication.discriminant < l.slot.discriminant) =
      app.bySlot .rateLimit ++ (app.bySlot .transaction ++ app.bySlot .custom) := by
  rw [app.innerLayers_filter (MiddlewareSlot.authentication.discriminant < ·.discriminant)]
  simp [MiddlewareSlot.discriminant]

/-- A named group drops exactly the Authentication layers. -/
theorem notAuthentication_eq : app.innerLayers.filter (·.slot ≠ .authentication) =
    app.bySlot .logging ++
      (app.bySlot .rateLimit ++ (app.bySlot .transaction ++ app.bySlot .custom)) := by
  rw [app.innerLayers_filter (· ≠ .authentication)]
  simp

/-- The Authentication layers of a protected route, in their position. -/
theorem stack_protected (chain : String → Option Chain) :
    app.stack chain .protected_ = app.beforeAuthentication ++
      (app.bySlot .authentication).map (.layer ·.layer) ++ app.afterAuthentication := by
  rw [stack, beforeAuthentication, afterAuthentication, earlier_eq, later_eq, innerLayers]
  simp

/-- The named chain comes before every other plugin layer that is not transport
security, those of the Logging slot included. -/
theorem stack_named {chain : String → Option Chain} {name : String} {state : Chain}
    (registered : chain name = some state) :
    app.stack chain (.protectedWith name) = (app.bySlot .transportSecurity).map (.layer ·.layer) ++
      [.bodyLimit app.requestBodyLimit, .logging, .auth state] ++
      (app.bySlot .logging).map (.layer ·.layer) ++ app.afterAuthentication := by
  rw [stack, afterAuthentication, later_eq, notAuthentication_eq, registered]
  simp

/-- The chain stands in the slot's place when nothing of an earlier slot is there
to be overtaken. -/
theorem stack_named_in_place {chain : String → Option Chain} {name : String} {state : Chain}
    (registered : chain name = some state) :
    app.stack chain (.protectedWith name) =
        app.beforeAuthentication ++ [.auth state] ++ app.afterAuthentication ↔
      app.bySlot .logging = [] := by
  rw [app.stack_named registered, beforeAuthentication, earlier_eq]
  cases app.bySlot .logging with
  | nil => simp
  | cons l rest => simp

/-- **Named auth in the Authentication slot's place.** Every router that is built
holds each route under the stack of its group. In the stack of a protected route the
Authentication layers stand between the earlier and the later slots; the stack of a
named group is that stack with the chain instead of these layers exactly when no
plugin contributes a layer to the Logging slot. -/
theorem named_chain_in_place (plugins : List (Contribution Route Layer Chain)) (limit : Nat)
    (registrations : List (String × Chain)) (name : String) (state : Chain)
    (registered : lastRegistered registrations name = some state) :
    let app : GasketApp Route Layer Chain := ⟨plugins, limit, registerChains registrations⟩
    (∀ order router, app.buildRouter order = .ok router →
      router.Perm (app.collectRoutes.flatMap fun t =>
        t.router.wrap (app.stack app.namedAuth t.group))) ∧
    app.stack app.namedAuth .protected_ = app.beforeAuthentication ++
      (app.bySlot .authentication).map (.layer ·.layer) ++ app.afterAuthentication ∧
    (app.stack app.namedAuth (.protectedWith name) =
        app.beforeAuthentication ++ [.auth state] ++ app.afterAuthentication ↔
      app.bySlot .logging = []) := by
  intro app
  have found : app.namedAuth name = some state := by
    rw [← registered]
    exact registerChains_eq registrations name
  refine ⟨fun order router built => app.buildRouter_perm built, ?_, ?_⟩
  · exact app.stack_protected app.namedAuth
  · exact app.stack_named_in_place found

/-- A session layer in the Authentication slot, the given layers, an account page and
a route for partners. -/
def partnerPlugin (layers : List (TaggedLayer String)) : Contribution String String String where
  layers := ⟨.authentication, "session"⟩ :: layers
  routes := [⟨.protected_, [("/account", [])]⟩, ⟨.protectedWith "partner", [("/partner", [])]⟩]

def partnerApp (layers : List (TaggedLayer String)) : GasketApp String String String :=
  ⟨[partnerPlugin layers], DEFAULT_REQUEST_BODY_LIMIT, registerChains [("partner", "mtls")]⟩

theorem named_chain_in_place_partner :
    let app := partnerApp [⟨.rateLimit, "limiter"⟩]
    app.stack app.namedAuth (.protectedWith "partner") =
      app.beforeAuthentication ++ [.auth "mtls"] ++ app.afterAuthentication :=
  (named_chain_in_place [partnerPlugin [⟨.rateLimit, "limiter"⟩]] DEFAULT_REQUEST_BODY_LIMIT
    [("partner", "mtls")] "partner" "mtls" (by decide)).2.2.mpr (by decide)

/-- A request-id layer of the Logging slot runs before the authentication of the account
page, and behind the chain of the partner route. -/
theorem named_chain_overtakes :
    let app := partnerApp [⟨.logging, "request-id"⟩]
    app.buildRouter ⟨id, fun _ => .refl _⟩ = .ok
      [("/account", [.bodyLimit DEFAULT_REQUEST_BODY_LIMIT, .logging, .layer "request-id",
          .layer "session"]),
        ("/partner", [.bodyLimit DEFAULT_REQUEST_BODY_LIMIT, .logging, .auth "mtls",
          .layer "request-id"])] ∧
    app.stack app.namedAuth (.protectedWith "partner") ≠
      app.beforeAuthentication ++ [.auth "mtls"] ++ app.afterAuthentication := by
  refine ⟨rfl, ?_⟩
  decide

end GasketApp

end RustyGasket
