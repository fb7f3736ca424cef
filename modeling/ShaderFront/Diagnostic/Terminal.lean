import ShaderFront.Diagnostic.Sink
import ShaderFront.Source.Files

/-!
# Reports for a terminal

A report is a row of pieces of text, some of which have a color. Without colors the pieces are
joined; with colors each coloured piece stands between the escape that turns its color on and the
one that turns it off. What is written otherwise does not depend on colors.
-/

namespace ShaderFront

/-- Colors by what they are used for. -/
inductive Color where
  | error
  | warning
  | info
  | help
  | bold
  | secondary
  deriving DecidableEq, Repr

namespace Color

/-- The parameters of the escape that turns a color on. -/
def code : Color → String
  | .error => "1;31"
  | .warning => "1;33"
  | .info => "1;36"
  | .help => "1;32"
  | .bold => "1"
  | .secondary => "1;34"

def ofSeverity : Severity → Color
  | .error => .error
  | .warning => .warning
  | .info => .info

end Color

/-- When to use colors. -/
inductive ColorMode where
  | auto
  | always
  | never
  deriving DecidableEq, Repr

namespace ColorMode

/-- Whether colors are used; only the automatic mode asks what the output is. -/
def useColors : ColorMode → (isTerminal : Bool) → Bool
  | .auto, isTerminal => isTerminal
  | .always, _ => true
  | .never, _ => false

end ColorMode

/-- A piece of a report. -/
structure Piece where
  color : Option Color
  text : String
  deriving DecidableEq, Repr

namespace Piece

def plain (text : String) : Piece := ⟨none, text⟩

def colored (color : Color) (text : String) : Piece := ⟨some color, text⟩

/-- An escape that sets how text is shown. -/
def escape (code : String) : String := s!"\x1b[{code}m"

/-- A piece with its color, if colors are on and it has one. -/
def render (colors : Bool) (p : Piece) : String :=
  match p.color with
  | some color => if colors then escape color.code ++ p.text ++ escape "0" else p.text
  | none => p.text

end Piece

namespace Terminal

/-- The text of a row of pieces. -/
def renderPieces (colors : Bool) (pieces : List Piece) : String :=
  String.join (pieces.map (·.render colors))

/-- A line with the place of a label and its remark, if it has one. -/
def labelPieces (files : SourceFiles) (l : Label) : List Piece :=
  let place := Piece.plain s!"  {Diagnostic.marker l.primary} {files.location l.span}"
  if l.message.isEmpty then [place, .plain "\n"]
  else
    [place, .plain ": ", .colored (if l.primary then .error else .secondary) l.message,
      .plain "\n"]

/-- A line for a note or a suggestion. -/
def remarkPieces (color : Color) (word remark : String) : List Piece :=
  [.plain "  = ", .colored color word, .plain s!": {remark}\n"]

/-- A diagnostic: a header, its labels and remarks, and an empty line. -/
def pieces (files : SourceFiles) (d : Diagnostic) : List Piece :=
  [.colored (.ofSeverity d.severity) d.severity.text, .colored .bold s!"[{d.code.text}]",
    .plain s!": {d.message} ({d.code.name})\n"]
    ++ d.labels.flatMap (labelPieces files)
    ++ d.notes.flatMap (remarkPieces .bold "note")
    ++ d.suggestions.flatMap (remarkPieces .help "help")
    ++ [.plain "\n"]

def plural (count : Nat) : String := if count = 1 then "" else "s"

/-- The closing line, if there was an error or a warning. -/
def summaryPieces (errors warnings : Nat) : List Piece :=
  if 0 < errors then
    let before := if errors = 1 then "previous error" else s!"{errors} previous errors"
    let emitted :=
      if 0 < warnings then s!"; {warnings} warning{plural warnings} emitted" else ""
    [.colored .error "error", .plain s!": aborting due to {before}{emitted}\n"]
  else if 0 < warnings then
    [.colored .warning "warning", .plain s!": {warnings} warning{plural warnings} emitted\n"]
  else []

/-- A whole report: the records within the limit, then a count of all errors and warnings. -/
def report (files : SourceFiles) (colors : Bool) (limit : Nat) (s : DiagnosticSink) : String :=
  renderPieces colors
    ((s.reportable limit).flatMap (pieces files) ++ summaryPieces s.errorCount s.warningCount)

end Terminal
end ShaderFront
