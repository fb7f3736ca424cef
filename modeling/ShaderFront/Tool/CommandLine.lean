import ShaderFront.Diagnostic.Pages
import ShaderFront.Tool.Config
import ShaderFront.Tool.Effects
import ShaderFront.Tool.Overrides

/-!
# The command line

What the program answers to its arguments: the texts for standard output and standard error, and
the exit code.
-/

namespace ShaderFront

/-- What a command prints, on which output, and its exit code. -/
structure Response where
  output : String := ""
  errors : String := ""
  exitCode : Nat := 0
  deriving DecidableEq, Repr

/-- Why an effect could not be expanded. -/
inductive ExpandError where
  | key (conflict : KeyConflict)
  | environment (error : EnvError)
  | override (error : OverrideError)
  | mixin (error : MixinError)
  deriving DecidableEq, Repr

namespace ExpandError

def message : ExpandError → String
  | .key e => e.message
  | .environment e => e.message
  | .override e => e.message
  | .mixin e => e.message

end ExpandError

namespace Effects

/-- Expands an effect: with keys that were declared before, the environment, and overrides. -/
def expand (declared : KeyTable) (lookup : String → Option String) (name : String)
    (overrides : List String) : Except ExpandError Recipe := do
  let keys ← (declare declared).mapError .key
  let config ← (Config.ofEnvironment lookup).mapError .environment
  let p ← (Overrides.parse keys overrides).mapError .override
  (Recipe.compile ⟨registry, config.maxDepth⟩ name p).1.mapError .mixin

end Effects

namespace CommandLine

/-- Lines, each with its end. -/
def lines (texts : List String) : String := String.join (texts.map (· ++ "\n"))

def usage : String :=
  lines
    ["Lumen shader front end",
      "",
      "Usage: lumenc <command> [options]",
      "",
      "Commands:",
      "  mixins                      List the demo mixins",
      "  params                      List declared parameter keys and their types",
      "  expand <mixin> [k=v...]     Expand a mixin and print the recipe",
      "  explain <code>              Explain an error code (e.g., E2001)",
      "  help                        Show this message",
      "",
      "Environment:",
      "  RUST_LOG                    Enable tracing output (e.g., lumen_mixin=trace)",
      "  LUMEN_ERROR_LIMIT           Errors rendered per run (0 = unlimited)",
      "  LUMEN_MAX_MIXIN_DEPTH       Nested mixin expansions allowed"]

/-- A response that only complains. -/
def failure (texts : List String) : Response := { errors := lines texts, exitCode := 1 }

/-- A mixin with the number of its arguments. -/
def mixinLine (g : Generator) : String :=
  match g.params.length with
  | 0 => g.name
  | 1 => s!"{g.name} (1 argument)"
  | n => s!"{g.name} ({n} arguments)"

def mixins : Response :=
  let found := Effects.registry.names.filterMap Effects.registry.get?
  { output := lines (found.map mixinLine) }

def params : Response :=
  match Effects.declare {} with
  | .error e => failure [s!"error: {e.message}"]
  | .ok keys =>
    { output := lines ((keys.names.filterMap keys.find?).map (·.display)) }

def expand (lookup : String → Option String) : List String → Response
  | [] =>
    failure ["Usage: lumenc expand <mixin> [key=value...]",
      "Example: lumenc expand ToneMapEffect ColorTransform.Shader=ToneMapAces"]
  | name :: overrides =>
    match Effects.expand {} lookup name overrides with
    | .ok recipe => { output := recipe.display }
    | .error e => failure [s!"error: {e.message}"]

def explain : List String → Response
  | [] => failure ["Usage: lumenc explain <ERROR_CODE>", "Example: lumenc explain E2001"]
  | text :: _ =>
    match Code.read? text with
    | some code => { output := code.page ++ "\n" }
    | none =>
      failure [s!"Unknown error code: {text}", "",
        "Codes look like E2001 (errors), W2001 (warnings) or I0001 (notes)."]

/-- The answer to the arguments after the name of the program. -/
def run (lookup : String → Option String) : List String → Response
  | [] => { output := usage }
  | command :: rest =>
    if command = "mixins" then mixins
    else if command = "params" then params
    else if command = "expand" then expand lookup rest
    else if command = "explain" ∨ command = "--explain" then explain rest
    else if command = "help" ∨ command = "--help" ∨ command = "-h" then { output := usage }
    else { failure [s!"Unknown command: {command}", ""] with output := usage }

end CommandLine
end ShaderFront
