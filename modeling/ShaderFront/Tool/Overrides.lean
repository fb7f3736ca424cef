import ShaderFront.Mixin.Bindings

/-!
# Parameter overrides

Bindings typed as `key=value`. The key has to be declared, and its kind says how the value is read.
The first text that is wrong ends the reading; of two values for one key the later counts.
-/

namespace ShaderFront

inductive OverrideError where
  | malformed (text : String)
  | unknown (name : String)
  | invalid (name : String) (kind : ParamKind) (value : String)
  deriving DecidableEq, Repr

namespace OverrideError

def message : OverrideError → String
  | .malformed text => s!"expected `key=value`, got `{text}`"
  | .unknown name => s!"unknown parameter `{name}`"
  | .invalid name kind value => s!"parameter `{name}` expects {kind.name}, got `{value}`"

end OverrideError

namespace Overrides

/-- The texts before and after the first equals sign. -/
def split? (text : String) : Option (String × String) :=
  let cs := text.toList
  match cs.dropWhile (· != '=') with
  | [] => none
  | _ :: value => some (String.ofList (cs.takeWhile (· != '=')), String.ofList value)

/-- The binding a text makes. -/
def binding (keys : KeyTable) (text : String) : Except OverrideError (ParamKey × ParamValue) :=
  match split? text with
  | none => .error (.malformed text)
  | some (name, value) =>
    let name := Text.trim name
    match keys.find? name with
    | none => .error (.unknown name)
    | some key =>
      match key.kind.parse? value with
      | none => .error (.invalid name key.kind value)
      | some v => .ok (key, v)

/-- Adds the bindings of texts in order. -/
def addAll (keys : KeyTable) (p : Parameters) : List String → Except OverrideError Parameters
  | [] => .ok p
  | text :: rest => do
    let (key, value) ← binding keys text
    addAll keys (p.set key value) rest

def parse (keys : KeyTable) (texts : List String) : Except OverrideError Parameters :=
  addAll keys {} texts

end Overrides
end ShaderFront
