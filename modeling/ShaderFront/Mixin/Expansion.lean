import ShaderFront.Mixin.Context

/-!
# Expanding mixins

How programs run. Running a generator is a structural run of its program; an expansion that it asks
for runs one level deeper, and only as many levels as the limit allows. So every expansion ends,
whatever the generators call.
-/

namespace ShaderFront

/-- What an expansion is given: the registry and the limit on nesting. -/
structure Setting where
  registry : Registry
  maxDepth : Nat

/-- How many generators may be nested by default. -/
def defaultMaxDepth : Nat := 64

/-- An expansion of a mixin with arguments into the active tree. -/
abbrev Call := Tree → String → List ParamValue → Context → Outcome × Context

/-- The first argument that is neither unset nor of its key's kind. -/
def badArgument? : List ParamKey → List ParamValue → Option MixinFault
  | key :: keys, value :: values =>
    match value.kind? with
    | some kind =>
      if kind = key.kind then badArgument? keys values
      else some (.argumentType key.name key.kind kind)
    | none => badArgument? keys values
  | _, _ => none

/-- The scope that the arguments of a call make, if there are any. -/
def Generator.bindArguments (g : Generator) (args : List ParamValue) :
    Except MixinFault (Option Parameters) :=
  if args.isEmpty then .ok none
  else if g.params.length < args.length then
    .error (.tooManyArguments g.params.length args.length)
  else
    match badArgument? g.params args with
    | some fault => .error fault
    | none => .ok (some (.ofList (g.params.zip args)))

namespace Op

variable (setting : Setting) (call : Call)

/-- Expands the mixin that a value names. -/
def runMixinValue (target : Tree) (value : ParamValue) (c : Context) : Outcome × Context :=
  if value.isUnset then ((.error (c.fail (.missingParameter "<value>")), target), c)
  else
    match value.mixinName? with
    | some name => call target name [] c
    | none => ((.error (c.fail (.notAMixin value.display)), target), c)

/-- Expands the mixin that a parameter names. -/
def runMixinParam (target : Tree) (key : ParamKey) (c : Context) : Outcome × Context :=
  let value := c.param key
  if value.isUnset then ((.error (c.fail (.missingParameter key.name)), target), c)
  else runMixinValue call target value c

/-- One operation, given how expansions run. -/
def run : (o : Op) → Context → o.Answer × Context
  | .param key, c => (c.param key, c)
  | .setParam key value, c => ((), c.setParam key value)
  | .pushParams p, c => ((), c.pushParams p)
  | .popParams, c => c.popParams
  | .parameterDepth, c => (c.scopes.length, c)
  | .mixin target name args, c => call target name args c
  | .mixinValue target value, c => runMixinValue call target value c
  | .mixinParam target key, c => runMixinParam call target key c
  | .openSlot kind slot child, c => ((), c.openSlot kind slot child)
  | .closeSlot target, c => c.closeSlot target
  | .active target, c => (c.active target, c)
  | .editActive target edit, c => c.setActive target (edit (c.active target))
  | .discard, c => ((), { c with discarded := true })
  | .isDiscarded, c => (c.discarded, c)
  | .depth, c => (c.depth, c)
  | .slotPath, c => (c.slotPath, c)
  | .checkBalanced, c => (c.checkBalanced, c)
  | .maxDepth, c => (setting.maxDepth, c)
  | .mixinNames, c => (setting.registry.names, c)
  | .observe o, c => ((), c.observe o)

end Op

namespace Program

variable (setting : Setting) (call : Call) {α β : Type}

/-- Runs a program, given how expansions run. -/
def run : Program α → Context → α × Context
  | .pure a, c => (a, c)
  | .op o next, c =>
    let (answer, c) := o.run setting call c
    (next answer).run c

theorem run_bind (p : Program α) (f : α → Program β) (c : Context) :
    (p.bind f).run setting call c =
      (f (p.run setting call c).1).run setting call (p.run setting call c).2 := by
  induction p generalizing c with
  | pure a => rfl
  | op o next ih => exact ih _ _

end Program

namespace Expansion

variable (setting : Setting)

/-- Runs a generator on a tree in a frame of its own. It must have closed every slot it opened,
unless it failed or the expansion was discarded. -/
def invoke (call : Call) (g : Generator) (target : Tree) (c : Context) : Outcome × Context :=
  let ((result, tree), after) := (g.body.run.run target).run setting call (c.enter g.name)
  let result := match result, after.frame.slots with
    | .ok _, s :: _ =>
      if after.discarded then .ok ()
      else .error ⟨g.name, after.slotPath, .unbalanced s.label⟩
    | result, _ => result
  ((result, tree), after.leave)

/-- Runs a generator on the active tree. -/
def invokeActive (call : Call) (g : Generator) (target : Tree) (c : Context) :
    Outcome × Context :=
  let ((result, tree), after) := invoke setting call g (c.active target) c
  let (target, after) := after.setActive target tree
  ((result, target), after)

/-- Expands a mixin. `within` is how expansions one level deeper run, or nothing if there is no
deeper level. Scopes that a generator leaves open close with it. -/
def dispatch (within : Option Call) : Call := fun target name args c =>
  if c.discarded then ((.ok (), target), c)
  else
    match setting.registry.get? name with
    | none => ((.error ⟨name, c.slotPath, .unknown⟩, target), c)
    | some g =>
      match within with
      | none => ((.error ⟨name, c.slotPath, .recursionLimit setting.maxDepth⟩, target), c)
      | some call =>
        match g.bindArguments args with
        | .error fault => ((.error ⟨g.name, c.slotPath, fault⟩, target), c)
        | .ok bound =>
          let entered := match bound with
            | some p => c.pushParams p
            | none => c
          let (outcome, after) := invokeActive setting call g target entered
          (outcome, after.keepScopes c.scopes.length)

/-- Expands a mixin with so many levels left. -/
def expand : (levels : Nat) → Call
  | 0 => dispatch setting none
  | levels + 1 => dispatch setting (some (expand levels))

/-- How expansions run in a context, which has used up one level for each running generator. -/
def callIn (c : Context) : Call := expand setting (setting.maxDepth - c.depth)

/-- Runs a program that builds a tree. -/
def build {α : Type} (g : Generation α) (target : Tree) (c : Context) :
    (Except MixinError α × Tree) × Context :=
  (g.run.run target).run setting (callIn setting c) c

end Expansion
end ShaderFront
