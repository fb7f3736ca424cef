import ShaderFront.Tool.CommandLine

/-!
# The program

Reads the environment, answers the arguments and ends with the exit code.
-/

open ShaderFront

/-- Runs a command line, prints its texts and ends with its exit code. -/
def main (args : List String) : IO UInt32 := do
  let errorLimit ← IO.getEnv Config.errorLimitVariable
  let maxDepth ← IO.getEnv Config.maxDepthVariable
  let lookup := fun name =>
    if name = Config.errorLimitVariable then errorLimit
    else if name = Config.maxDepthVariable then maxDepth
    else none
  let response := CommandLine.run lookup args
  IO.print response.output
  IO.eprint response.errors
  return response.exitCode.toUInt32
