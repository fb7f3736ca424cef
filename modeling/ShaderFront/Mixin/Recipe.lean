import ShaderFront.Mixin.Expansion

/-!
# Recipes

The outcome of expanding one mixin from scratch: the tree, and the parameters it was expanded with.
A discarded expansion has no tree.
-/

namespace ShaderFront

/-- What is handed on of an expansion. -/
structure Recipe where
  name : String
  tree : Tree
  /-- The parameters by name. -/
  parameters : List (String × ParamValue)
  discarded : Bool
  deriving Inhabited

namespace Recipe

/-- The text of a recipe: its name, its parameters and its tree. -/
def display (r : Recipe) : String :=
  let mark := if r.discarded then " (discarded)" else ""
  let bindings := r.parameters.map fun (name, value) => s!"  {name} = {value.display}\n"
  s!"mixin {r.name}{mark}\n{String.join bindings}{r.tree.display}"

/-- Expands a mixin, with what the generators noted down on the way. -/
def compile (setting : Setting) (name : String) (p : Parameters) :
    Except MixinError Recipe × List Observation :=
  let start := Context.start p
  let ((result, tree), c) := Expansion.callIn setting start .empty name [] start
  let recipe := do
    result
    c.checkBalanced
    return ⟨name, if c.discarded then .empty else tree, p.toList, c.discarded⟩
  (recipe, c.observations)

end Recipe
end ShaderFront
