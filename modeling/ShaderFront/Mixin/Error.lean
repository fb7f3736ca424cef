import ShaderFront.Mixin.Parameter

/-!
# Errors of an expansion

An expansion stops at its first error. Each error names the mixin it is about and the path of slots
that were open when it arose.
-/

namespace ShaderFront

/-- What went wrong in an expansion. -/
inductive MixinFault where
  /-- No generator has the name. -/
  | unknown
  /-- A generator ended with a slot still open. -/
  | unbalanced (slot : String)
  /-- A generator closed a slot it had not opened. -/
  | popWithoutPush
  /-- A parameter that names a mixin has no value. -/
  | missingParameter (key : String)
  /-- A value that should name a mixin does not. -/
  | notAMixin (found : String)
  | tooManyArguments (expected found : Nat)
  | argumentType (key : String) (expected found : ParamKind)
  /-- Mixins were nested too deeply. -/
  | recursionLimit (limit : Nat)
  deriving DecidableEq, Repr

/-- A fault, the mixin it is about, and the path of slots that were open. -/
structure MixinError where
  mixin : String
  path : String
  fault : MixinFault
  deriving DecidableEq, Repr

namespace MixinError

/-- What is said about the mixin. -/
def predicate : MixinFault → String
  | .unknown => ""
  | .unbalanced slot => s!" returned with composition `{slot}` still open"
  | .popWithoutPush => " popped a composition it never pushed"
  | .missingParameter key => s!" requires parameter `{key}`"
  | .notAMixin found => s!" expected a mixin name but found {found}"
  | .tooManyArguments expected found =>
    s!" takes {expected} argument(s) but {found} were given"
  | .argumentType key expected found =>
    s!" argument `{key}` expects {expected.name}, found {found.name}"
  | .recursionLimit limit => s!" exceeded the expansion depth limit of {limit}"

/-- The text of an error. An unknown mixin is the subject of its own sentence. -/
def message (e : MixinError) : String :=
  let subject := match e.fault with
    | .unknown => s!"unknown mixin `{e.mixin}`"
    | _ => s!"mixin `{e.mixin}`"
  s!"{subject}{predicate e.fault} at {e.path}"

end MixinError
end ShaderFront
