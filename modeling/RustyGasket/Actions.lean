import RustyGasket.Registry
import RustyGasket.Server

/-!
# Named actions

`register_action` in the `init` hooks, and `invoke_action` and `invoke` on the app that was
built. A hook may go on when a name is taken, so `build` does not fail for it.
-/

namespace RustyGasket

/-- `std::any`: the types of values, with their names. -/
structure AnyTypes where
  Ty : Type
  decEq : DecidableEq Ty
  denote : Ty → Type
  typeName : Ty → String

/-- A `Box<dyn Any + Send>`. -/
structure BoxedAny (any : AnyTypes) where
  ty : any.Ty
  value : any.denote ty

abbrev ActionArgs (any : AnyTypes) := List (BoxedAny any)

/-- What the future of an action comes to. -/
abbrev ActionResult (any : AnyTypes) := Except String (BoxedAny any)

variable {any : AnyTypes} {H : Host}

def BoxedAny.downcast (boxed : BoxedAny any) (ty : any.Ty) : Option (any.denote ty) :=
  match any.decEq boxed.ty ty with
  | isTrue same => some (same ▸ boxed.value)
  | isFalse _ => none

theorem BoxedAny.downcast_eq_some {boxed : BoxedAny any} {ty : any.Ty} {value : any.denote ty} :
    boxed.downcast ty = some value ↔ boxed = ⟨ty, value⟩ := by
  obtain ⟨own, held⟩ := boxed
  rw [downcast]
  cases any.decEq own ty with
  | isTrue same =>
    subst same
    simp
  | isFalse differs => simp [differs]

theorem BoxedAny.downcast_eq_none {boxed : BoxedAny any} {ty : any.Ty} (differs : boxed.ty ≠ ty) :
    boxed.downcast ty = none := by
  rw [downcast]
  cases any.decEq boxed.ty ty with
  | isTrue same => exact absurd same differs
  | isFalse _ => rfl

namespace ServedApp

variable (app : ServedApp H) (call : H.Action → ActionArgs any → ActionResult any)

def invokeAction (name : String) (args : ActionArgs any) : Except String (ActionResult any) :=
  match Registry.get app.actions name with
  | some action => .ok (call action args)
  | none => .error s!"Action '{name}' not found"

def invoke (ty : any.Ty) (name : String) (args : ActionArgs any) :
    Except String (any.denote ty) := do
  let result ← app.invokeAction call name args
  let boxed ← result
  match boxed.downcast ty with
  | some value => return value
  | none =>
    let expected := any.typeName ty
    throw s!"Action '{name}' returned a different type than {expected}"

end ServedApp

/-! ## Hooks that register -/

/-- An `init` hook that does nothing to its context but register actions, as it likes. -/
abbrev Registrations (H : Host) := Registry.Client String H.Action

/-- The hook. Of an error, the text is the same whenever the name is. -/
def Registrations.init : Registrations H → InitContext H → InitContext H
  | .done, ctx => ctx
  | .claim name action next, ctx => match ctx.registerAction name action with
    | .ok ctx => init (next true) ctx
    | .error _ => init (next false) ctx

/-- The names the hook tries, in order, and whether each was registered. -/
def Registrations.tried : Registrations H → InitContext H → List (Registry.Claim String H.Action)
  | .done, _ => []
  | .claim name action next, ctx => match ctx.registerAction name action with
    | .ok ctx => ⟨name, action, true⟩ :: tried (next true) ctx
    | .error _ => ⟨name, action, false⟩ :: tried (next false) ctx

theorem registerAction_eq (ctx : InitContext H) (name : String) (action : H.Action) :
    ctx.registerAction name action = if Registry.get ctx.actions name = none then
      .ok ⟨(name, action) :: ctx.actions⟩
      else .error s!"Action '{name}' already registered by another plugin" := by
  have taken : (ctx.actions.map (·.1)).contains name = true ↔
      Registry.get ctx.actions name ≠ none := by
    simp [Registry.get]
  rw [InitContext.registerAction]
  by_cases free : Registry.get ctx.actions name = none
  · rw [if_pos free, if_neg (fun held => taken.mp held free)]
  · rw [if_neg free, if_pos (taken.mpr free)]

theorem Registrations.init_actions (hook : Registrations H) (ctx : InitContext H) :
    (hook.init ctx).actions = Registry.Client.run hook ctx.actions := by
  induction hook generalizing ctx with
  | done => rfl
  | claim name action next ih =>
    rw [init, registerAction_eq, Registry.Client.run]
    cases held : Registry.get ctx.actions name with
    | none => exact ih true _
    | some _ => exact ih false ctx

theorem Registrations.tried_eq (hook : Registrations H) (ctx : InitContext H) :
    hook.tried ctx = Registry.Client.claims hook ctx.actions := by
  induction hook generalizing ctx with
  | done => rfl
  | claim name action next ih =>
    rw [tried, registerAction_eq, Registry.Client.claims]
    cases held : Registry.get ctx.actions name with
    | none => exact congrArg (_ :: ·) (ih true _)
    | some _ => exact congrArg (_ :: ·) (ih false ctx)

theorem initialized_actions {hooks : String → Registrations H} {plugins : List (Plugin H)}
    (hooked : ∀ p ∈ plugins, p.init = (hooks p.name).init) (ctx : InitContext H) :
    (initialized ctx plugins).actions =
      Registry.runAll (plugins.map fun p => hooks p.name) ctx.actions := by
  induction plugins generalizing ctx with
  | nil => rfl
  | cons p rest ih =>
    have later := ih (fun q hq => hooked q (List.mem_cons_of_mem p hq)) (p.init ctx)
    rw [hooked p List.mem_cons_self, Registrations.init_actions] at later
    rw [initialized, List.foldl_cons, hooked p List.mem_cons_self]
    exact later

/-- What the hooks try, one plugin after another, each in the context the last one left. -/
def registrationsFrom (hooks : String → Registrations H) :
    List (Plugin H) → InitContext H → List (Registry.Claim String H.Action)
  | [], _ => []
  | p :: rest, ctx => (hooks p.name).tried ctx ++ registrationsFrom hooks rest (p.init ctx)

/-- The registrations tried, in order, with whether each succeeded. -/
def registrations (hooks : String → Registrations H) (plugins : List (Plugin H)) :
    List (Registry.Claim String H.Action) :=
  registrationsFrom hooks plugins ⟨[]⟩

theorem registrationsFrom_eq {hooks : String → Registrations H} {plugins : List (Plugin H)}
    (hooked : ∀ p ∈ plugins, p.init = (hooks p.name).init) (ctx : InitContext H) :
    registrationsFrom hooks plugins ctx =
      Registry.claimsAll (plugins.map fun p => hooks p.name) ctx.actions := by
  induction plugins generalizing ctx with
  | nil => rfl
  | cons p rest ih =>
    have later := ih (fun q hq => hooked q (List.mem_cons_of_mem p hq)) (p.init ctx)
    rw [hooked p List.mem_cons_self, Registrations.init_actions] at later
    rw [registrationsFrom, hooked p List.mem_cons_self, Registrations.tried_eq, later]
    rfl

/-! ## The app that is served -/

theorem Server.builds_of_build {vars : ProcessEnv} {builder : GasketAppBuilder H}
    {app : ServedApp H} (built : (builder.build vars).value = .ok app) :
    Server.Builds vars builder app := by
  by_contra other
  by_cases builds : ∃ app', Server.Builds vars builder app'
  · obtain ⟨app', builds⟩ := builds
    cases built.symm.trans (Server.build_of_builds builds).1
    exact other builds
  · obtain ⟨⟨e, failed⟩, -⟩ := Server.build_fails (not_exists.mp builds)
    cases built.symm.trans failed

/-- Invoking a name calls this action. -/
structure Invokes (app : ServedApp H) (call : H.Action → ActionArgs any → ActionResult any)
    (name : String) (action : H.Action) : Prop where
  ok_iff : ∀ ty args value, app.invoke call ty name args = .ok value ↔
    call action args = .ok ⟨ty, value⟩
  failed : ∀ ty args e, call action args = .error e → app.invoke call ty name args = .error e
  mistyped : ∀ ty args boxed, call action args = .ok boxed → boxed.ty ≠ ty →
    app.invoke call ty name args =
      .error ("Action '" ++ name ++ "' returned a different type than " ++ any.typeName ty)

theorem invokes_of_get {app : ServedApp H} {call : H.Action → ActionArgs any → ActionResult any}
    {name : String} {action : H.Action} (held : Registry.get app.actions name = some action) :
    Invokes app call name action := by
  have invoked (ty : any.Ty) (args : ActionArgs any) : app.invoke call ty name args =
      (call action args).bind fun boxed => match boxed.downcast ty with
        | some value => .ok value
        | none => .error ("Action '" ++ name ++ "' returned a different type than " ++
            any.typeName ty) := by
    rw [ServedApp.invoke, ServedApp.invokeAction, held]
    rfl
  constructor
  · intro ty args value
    rw [invoked]
    cases called : call action args with
    | error e => exact ⟨nofun, nofun⟩
    | ok boxed =>
      rw [Except.ok.injEq, ← BoxedAny.downcast_eq_some]
      cases found : boxed.downcast ty <;> simp [Except.bind, found]
  · intro ty args e called
    rw [invoked, called]
    rfl
  · intro ty args boxed called differs
    rw [invoked, called]
    simp only [Except.bind, BoxedAny.downcast_eq_none differs]

/-- **A name invokes the action it was registered for first.** Whatever hooks go on to do
when a name is taken: a registration succeeds exactly when it is the first for its name, in
the order the plugins are sorted in; invoking the name calls that action ever after, and no
other name can be invoked. -/
theorem invokes_first {vars : ProcessEnv} {builder : GasketAppBuilder H}
    {hooks : String → Registrations H} {app : ServedApp H}
    (hooked : ∀ p ∈ builder.plugins, p.init = (hooks p.name).init)
    (built : (builder.build vars).value = .ok app)
    (call : H.Action → ActionArgs any → ActionResult any) :
    SortedFrom builder.plugins app.plugins ∧
    (∀ earlier claim later, registrations hooks app.plugins = earlier ++ claim :: later →
      (claim.granted = true ↔ ∀ other ∈ earlier, other.key ≠ claim.key)) ∧
    (∀ name action, Registry.first (registrations hooks app.plugins) name = some action →
      Invokes app call name action) ∧
    ∀ name, (∀ claim ∈ registrations hooks app.plugins, claim.key ≠ name) →
      ∀ ty args, app.invoke call ty name args = .error ("Action '" ++ name ++ "' not found") := by
  obtain ⟨sorted, config, arranged, -, -, rfl⟩ := Server.builds_of_build built
  obtain ⟨-, sortedFrom⟩ := GasketAppBuilder.arrange_ok arranged
  have hookedSorted : ∀ p ∈ sorted, p.init = (hooks p.name).init :=
    fun p listed => hooked p (sortedFrom.perm.mem_iff.mp listed)
  have settles := Registry.runAll_settles (sorted.map fun p => hooks p.name) []
  have actions := initialized_actions hookedSorted ⟨[]⟩
  rw [← registrationsFrom_eq hookedSorted ⟨[]⟩] at settles
  have held (name : String) :
      Registry.get (GasketAppBuilder.builtApp builder config sorted).actions name =
        Registry.first (registrations hooks sorted) name := by
    rw [GasketAppBuilder.builtApp, actions, settles.get]
    rfl
  refine ⟨sortedFrom, ?_, ?_, ?_⟩
  · intro earlier claim later split
    rw [settles.granted earlier claim later split]
    exact ⟨fun free => free.2, fun free => ⟨rfl, free⟩⟩
  · intro name action first
    exact invokes_of_get ((held name).trans first)
  · intro name unclaimed ty args
    have absent := (held name).trans (Registry.first_eq_none.mpr unclaimed)
    rw [ServedApp.invoke, ServedApp.invokeAction, absent]
    rfl

/-! ## Two plugins, one name -/

def numbers : AnyTypes := ⟨Unit, inferInstance, fun _ => Nat, fun _ => "u64"⟩

abbrev numberHost : Host :=
  ⟨Unit, (), ActionArgs numbers → ActionResult numbers, Unit, Unit, Unit⟩

def answering (n : Nat) : ActionArgs numbers → ActionResult numbers := fun _ => .ok ⟨(), n⟩

def calling : numberHost.Action → ActionArgs numbers → ActionResult numbers := id

/-- Both want `refresh`; `audit` has another name at hand. -/
def refreshHooks : String → Registrations numberHost
  | "users" => .claim "refresh" (answering 1) fun _ => .done
  | "audit" => .claim "refresh" (answering 2) fun granted =>
    if granted then .done else .claim "audit:refresh" (answering 3) fun _ => .done
  | _ => .done

def refreshPlugin (name : String) (after : List String) : Plugin numberHost where
  name := name
  ordering := ⟨[], after, false, false⟩
  dependencies := []
  init := (refreshHooks name).init
  configure := id
  prepare := fun ctx => (.ok (), ctx)
  ready := fun _ => .ok ()
  shutdown := fun _ => .ok ()
  layers := fun _ => []
  routes := fun _ => []

def refreshBuilder : GasketAppBuilder numberHost :=
  ⟨[refreshPlugin "audit" ["users"], refreshPlugin "users" []], none, DEFAULT_REQUEST_BODY_LIMIT,
    fun _ => none⟩

theorem refresh_invokes_users :
    ∃ app, (refreshBuilder.build fun _ => none).value = .ok app ∧
      app.invoke calling () "refresh" [] = .ok (1 : Nat) ∧
      app.invoke calling () "audit:refresh" [] = .ok (3 : Nat) ∧
      app.invoke calling () "users:refresh" [] = .error "Action 'users:refresh' not found" := by
  have hooked : ∀ p ∈ refreshBuilder.plugins, p.init = (refreshHooks p.name).init := by
    simp [refreshBuilder, refreshPlugin]
  have built : (refreshBuilder.build fun _ => none).value = .ok (GasketAppBuilder.builtApp
      refreshBuilder _ [refreshPlugin "users" [], refreshPlugin "audit" ["users"]]) := rfl
  obtain ⟨-, -, invokes, missing⟩ := invokes_first hooked built calling
  exact ⟨_, built, ((invokes "refresh" _ rfl).ok_iff () [] _).mpr rfl,
    ((invokes "audit:refresh" _ rfl).ok_iff () [] _).mpr rfl,
    missing "users:refresh" (by decide) () []⟩

end RustyGasket
