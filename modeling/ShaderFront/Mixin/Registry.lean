import ShaderFront.Mixin.Program

/-!
# The registry of mixins

A generator builds the tree of one mixin; its parameters receive the arguments of a call in order.
A registry holds generators under different names and does not change once it is built. One registry
may be installed for everyone, and the first one stays.
-/

namespace ShaderFront

/-- A mixin by its name, with the parameters that take its arguments and what builds its tree. -/
structure Generator where
  name : String
  params : List ParamKey := []
  body : Generation Unit

namespace Generator

def inspect (g : Generator) : String :=
  let params := ", ".intercalate (g.params.map (·.inspect))
  s!"FnGenerator \x7b name: {Text.quoted g.name}, params: [{params}], .. \x7d"

end Generator

/-- Why a generator or a registry was turned down. -/
inductive RegistryError where
  | duplicate (name : String)
  | alreadyInstalled
  deriving DecidableEq, Repr

namespace RegistryError

def message : RegistryError → String
  | .duplicate name => s!"mixin `{name}` is already registered"
  | .alreadyInstalled => "a mixin registry is already installed"

end RegistryError

/-- Generators in the order in which they were registered. -/
structure Registry where
  generators : List Generator := []
  deriving Inhabited

namespace Registry

/-- The generator of a name. -/
def get? (r : Registry) (name : String) : Option Generator :=
  r.generators.find? (·.name == name)

def contains (r : Registry) (name : String) : Bool := (r.get? name).isSome

/-- Adds a generator, unless its name is taken. -/
def register (r : Registry) (g : Generator) : Except RegistryError Registry :=
  if r.contains g.name then .error (.duplicate g.name) else .ok ⟨r.generators ++ [g]⟩

/-- Adds generators in order, up to the first whose name is taken. -/
def registerAll (r : Registry) : List Generator → Except RegistryError Registry
  | [] => .ok r
  | g :: rest => do
    let r ← r.register g
    r.registerAll rest

/-- The registered names in order. -/
def names (r : Registry) : List String := sortTexts (r.generators.map (·.name))

def size (r : Registry) : Nat := r.generators.length

def inspect (r : Registry) : String :=
  let names := ", ".intercalate (r.names.map Text.quoted)
  s!"MixinRegistry \x7b mixins: [{names}] \x7d"

theorem get?_name {r : Registry} {name : String} {g : Generator} (h : r.get? name = some g) :
    g.name = name := by
  simpa using List.find?_some h

end Registry

/-- The registry that was installed for everyone, if any. -/
structure Installation where
  registry : Option Registry := none

namespace Installation

/-- Installs a registry, unless there is one. -/
def install (i : Installation) (r : Registry) : Except RegistryError (Registry × Installation) :=
  match i.registry with
  | some _ => .error .alreadyInstalled
  | none => .ok (r, ⟨some r⟩)

end Installation
end ShaderFront
