import ShaderFront.Diagnostic.Code
import ShaderFront.Source.Span

/-!
# Diagnostics

A diagnostic has a code, a severity, a message, labelled spans and further remarks. It is put
together part by part; parts keep the order in which they were added.
-/

namespace ShaderFront

inductive Severity where
  | error
  | warning
  | info
  deriving DecidableEq, Repr, Inhabited

namespace Severity

def text : Severity → String
  | .error => "error"
  | .warning => "warning"
  | .info => "info"

/-- Errors come before warnings, and warnings before notes. -/
def rank : Severity → Nat
  | .error => 0
  | .warning => 1
  | .info => 2

end Severity

/-- A span with a remark, which may be empty. -/
structure Label where
  span : Span
  message : String
  primary : Bool
  deriving DecidableEq, Repr, Inhabited

/-- A report about the source. Labels, notes and suggestions are shown in their order. -/
structure Diagnostic where
  code : Code
  severity : Severity
  message : String := ""
  labels : List Label := []
  notes : List String := []
  suggestions : List String := []
  deriving DecidableEq, Repr, Inhabited

namespace Diagnostic

/-- Adds a primary label. -/
def withLabel (d : Diagnostic) (span : Span) (message : String) : Diagnostic :=
  { d with labels := d.labels ++ [⟨span, message, true⟩] }

/-- Adds a primary label without a remark. -/
def withSpan (d : Diagnostic) (span : Span) : Diagnostic := d.withLabel span ""

/-- Adds a label that only explains. -/
def withSecondary (d : Diagnostic) (span : Span) (message : String) : Diagnostic :=
  { d with labels := d.labels ++ [⟨span, message, false⟩] }

def withNote (d : Diagnostic) (note : String) : Diagnostic :=
  { d with notes := d.notes ++ [note] }

def withSuggestion (d : Diagnostic) (suggestion : String) : Diagnostic :=
  { d with suggestions := d.suggestions ++ [suggestion] }

/-- A diagnostic with a message at one place. -/
def located (severity : Severity) (code : Code) (span : Span) (message : String) : Diagnostic :=
  { code := code, severity := severity, message := message, labels := [⟨span, "", true⟩] }

/-- The span of the first primary label. -/
def primarySpan? (d : Diagnostic) : Option Span :=
  (d.labels.find? (·.primary)).map (·.span)

def isError (d : Diagnostic) : Bool := d.severity == .error

def isWarning (d : Diagnostic) : Bool := d.severity == .warning

/-- How a label is marked: primary ones point at their place. -/
def marker (primary : Bool) : String := if primary then "-->" else "   "

/-- The text of a diagnostic on its own, without file names. -/
def display (d : Diagnostic) : String :=
  let label (l : Label) : String :=
    let place := s!"\n  {marker l.primary} {l.span.inspect}"
    if l.message.isEmpty then place else s!"{place}: {l.message}"
  s!"{d.severity.text} [{d.code.text}]: {d.message}"
    ++ String.join (d.labels.map label)
    ++ String.join (d.notes.map fun n => s!"\n  = note: {n}")
    ++ String.join (d.suggestions.map fun s => s!"\n  = help: {s}")

theorem primarySpan?_located (severity : Severity) (code : Code) (span : Span) (message : String) :
    (Diagnostic.located severity code span message).primarySpan? = some span := rfl

end Diagnostic
end ShaderFront
