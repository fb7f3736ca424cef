import ShaderFront.Analysis.Analyzer
import ShaderFront.Diagnostic.Sink
import ShaderFront.Mixin.Expansion
import ShaderFront.Text.Blank

/-!
# Configuration

Defaults of all parts, two of which the environment may change.
-/

namespace ShaderFront

/-- A variable of the environment that is not a number. -/
structure EnvError where
  variableName : String
  value : String
  deriving DecidableEq, Repr

namespace EnvError

def message (e : EnvError) : String :=
  s!"{e.variableName} must be a non-negative integer, got `{e.value}`"

end EnvError

structure Config where
  errorLimit : Nat := defaultErrorLimit
  analysis : AnalysisConfig := {}
  maxDepth : Nat := defaultMaxDepth
  deriving DecidableEq, Repr

namespace Config

/-- How many errors are reported; zero stands for no limit. -/
def errorLimitVariable : String := "LUMEN_ERROR_LIMIT"

/-- How many mixins may be nested. -/
def maxDepthVariable : String := "LUMEN_MAX_MIXIN_DEPTH"

/-- Reads a count of 64 bits. -/
def readCount? (text : String) : Option Nat := Text.readBelow? UInt64.size (Text.trim text)

/-- The count in a variable, or the given one if the variable is not set. -/
def countOr (lookup : String → Option String) (variableName : String) (otherwise : Nat) :
    Except EnvError Nat :=
  match lookup variableName with
  | none => .ok otherwise
  | some text =>
    match readCount? text with
    | some n => .ok n
    | none => .error ⟨variableName, text⟩

/-- The defaults, changed by the environment. -/
def ofEnvironment (lookup : String → Option String) : Except EnvError Config := do
  let errorLimit ← countOr lookup errorLimitVariable defaultErrorLimit
  let maxDepth ← countOr lookup maxDepthVariable defaultMaxDepth
  return { errorLimit := errorLimit, maxDepth := maxDepth }

end Config
end ShaderFront
