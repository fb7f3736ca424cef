import ShaderFront.Diagnostic.Sink
import ShaderFront.Json.Escape
import ShaderFront.Source.Files

/-!
# Reports for other programs

A report as one JSON array with an object for each diagnostic. Lists and objects are spread over
lines and indented by two spaces a level. All control characters in texts are escaped.
-/

namespace ShaderFront

namespace Json

/-- The escaped form of a text that may hold any control character. -/
def plainText (s : String) : Json :=
  .string (escape (fun c => c.toNat < 0x20 || (0x7f ≤ c.toNat && c.toNat ≤ 0x9f)) s)

/-- Two blanks for each level. -/
def indentation (level : Nat) : List Char := List.replicate (2 * level) ' '

mutual

/-- The text of a tree over several lines, the first of which is already indented. -/
def layOut (level : Nat) : Json → List Char → List Char
  | .array items, rest => '[' :: '\n' :: layOutItems level items (indentation level ++ ']' :: rest)
  | .object members, rest =>
    '\x7b' :: '\n' :: layOutMembers level members (indentation level ++ '\x7d' :: rest)
  | leaf, rest => leaf.renderTo rest

/-- The items of an array, one level further in, each ending its line. -/
def layOutItems (level : Nat) : List Json → List Char → List Char
  | [], rest => rest
  | [item], rest => indentation (level + 1) ++ layOut (level + 1) item ('\n' :: rest)
  | item :: items, rest =>
    indentation (level + 1) ++ layOut (level + 1) item (',' :: '\n' :: layOutItems level items rest)

/-- The members of an object, one level further in, each ending its line. -/
def layOutMembers (level : Nat) : List (List Char × Json) → List Char → List Char
  | [], rest => rest
  | [(key, value)], rest =>
    indentation (level + 1) ++ quote key (':' :: ' ' :: layOut (level + 1) value ('\n' :: rest))
  | (key, value) :: members, rest =>
    indentation (level + 1) ++ quote key (':' :: ' ' ::
      layOut (level + 1) value (',' :: '\n' :: layOutMembers level members rest))

end

/-- An object with fixed names, which need no escapes. -/
def ofFields (fields : List (String × Json)) : Json :=
  .object (fields.map fun (name, value) => (name.toList, value))

end Json

namespace Label

/-- A label with its file and positions, spelled out. -/
def toJson (files : SourceFiles) (l : Label) : Json :=
  .ofFields
    [("file", .plainText (files.pathText l.span.file)),
      ("line", .ofNat l.span.start.line),
      ("column", .ofNat l.span.start.column),
      ("end_line", .ofNat l.span.stop.line),
      ("end_column", .ofNat l.span.stop.column),
      ("message", .plainText l.message),
      ("primary", .bool l.primary)]

end Label

namespace Diagnostic

/-- A diagnostic with all its parts, empty ones included. -/
def toJson (files : SourceFiles) (d : Diagnostic) : Json :=
  .ofFields
    [("code", .plainText d.code.text),
      ("name", .plainText d.code.name),
      ("severity", .plainText d.severity.text),
      ("message", .plainText d.message),
      ("labels", .array (d.labels.map (·.toJson files))),
      ("notes", .array (d.notes.map .plainText)),
      ("suggestions", .array (d.suggestions.map .plainText))]

end Diagnostic

namespace Machine

/-- The objects of a report after its opening bracket, with commas between them. -/
def objects : List Json → List Char → List Char
  | [], rest => rest
  | [j], rest => Json.indentation 1 ++ j.layOut 1 rest
  | j :: js, rest => Json.indentation 1 ++ j.layOut 1 (',' :: '\n' :: objects js rest)

/-- A whole report: the records within the limit. -/
def report (files : SourceFiles) (limit : Nat) (s : DiagnosticSink) : String :=
  String.ofList ('[' :: '\n' ::
    objects ((s.reportable limit).map (·.toJson files)) ['\n', ']', '\n'])

end Machine
end ShaderFront
