import ShaderFront.Diagnostic.Machine
import ShaderFront.Diagnostic.Terminal
import ShaderFront.Tool.Config

/-!
# Checking a unit

An analysis with the record of its diagnostics, and the report of such a record.
-/

namespace ShaderFront

/-- What a check leaves: the unit as it was changed, and what was found. -/
structure CheckOutput where
  analysis : Analysis
  sink : DiagnosticSink

namespace CheckOutput

def succeeded (o : CheckOutput) : Bool := o.sink.hasErrors?.isNone

end CheckOutput

/-- Analyses a unit on a fresh record. -/
def checkUnit (u : ShaderUnit) (config : Config) : Except Fault CheckOutput := do
  let analysis ← analyze u config.analysis
  return ⟨analysis, DiagnosticSink.emitAll {} analysis.diagnostics⟩

/-- How findings are shown. -/
inductive ReportFormat where
  | terminal
  | machine
  deriving DecidableEq, Repr

/-- The report of a record within the limit on errors, without colors. -/
def renderReport (s : DiagnosticSink) (files : SourceFiles) (config : Config) :
    ReportFormat → String
  | .terminal => Terminal.report files false config.errorLimit s
  | .machine => Machine.report files config.errorLimit s

end ShaderFront
