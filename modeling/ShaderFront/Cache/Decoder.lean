import ShaderFront.Json.Reader

/-!
# Reading cache files

A decoder reads a value of one type from a JSON tree, or refuses it. Arrays and objects may be
nested to a fixed depth; members that nobody asks for are skipped at any depth. A record may be
written as an object, with its fields in any order and each exactly once, or as an array of its
fields. A choice is written as an object with one member, its name, or as its name alone if it
carries nothing.

These decoders are part of one JSON library, the one in use (`Cache.library`). What holds of cache
files whichever library is used does not rest on them.
-/

namespace ShaderFront.Cache

/-- Reads a value, given how many levels of nesting are left. -/
abbrev Decoder (α : Type) := Nat → Json → Option α

/-- How many levels of arrays and objects are read. -/
def maxNesting : Nat := 127

/-- One level deeper. -/
def enter : Nat → Option Nat
  | 0 => none
  | depth + 1 => some depth

namespace Decoder

variable {α β γ δ : Type}

/-- A string; it is refused if an escape in it is. -/
def text : Decoder String
  | _, .string lexeme => Json.unescape? lexeme
  | _, _ => none

def bool : Decoder Bool
  | _, .bool b => some b
  | _, _ => none

/-- A number, given how its lexeme is read. -/
def number (read? : List Char → Option α) : Decoder α
  | _, .number lexeme => read? lexeme
  | _, _ => none

/-- The items of an array, with the depth at which they are read. -/
def items (depth : Nat) : Json → Option (Nat × List Json)
  | .array items => (enter depth).map (·, items)
  | _ => none

/-- The members of an object by their names, with the depth at which they are read. -/
def members (depth : Nat) : Json → Option (Nat × List (String × Json))
  | .object members => do
    let depth ← enter depth
    let named ← members.mapM fun (key, value) => (Json.unescape? key).map (·, value)
    return (depth, named)
  | _ => none

/-- An array of two items. -/
def pair (first : Decoder α) (second : Decoder β) : Decoder (α × β) := fun depth j => do
  match ← items depth j with
  | (depth, [a, b]) => return (← first depth a, ← second depth b)
  | _ => none

/-- The value of a field that is given exactly once. -/
def field? (fields : List (String × Json)) (name : String) : Option Json :=
  match fields.filter (·.1 == name) with
  | [(_, value)] => some value
  | _ => none

/-- The values of the fields of a record in the order of `names`. -/
def record (names : List String) (depth : Nat) (j : Json) : Option (Nat × List Json) :=
  match j with
  | .array _ => do
    let (depth, values) ← items depth j
    if values.length = names.length then return (depth, values) else none
  | _ => do
    let (depth, fields) ← members depth j
    return (depth, ← names.mapM (field? fields))

/-- A choice: its name, and what it carries with the depth at which that is read. -/
def choice (depth : Nat) (j : Json) : Option (String × Option (Nat × Json)) :=
  match j with
  | .string lexeme => (Json.unescape? lexeme).map (·, none)
  | _ => do
    match ← members depth j with
    | (depth, [(name, value)]) => return (name, some (depth, value))
    | _ => none

/-- A choice that carries nothing: its name, also with an explicit null. -/
def plainChoice (read? : String → Option α) : Decoder α := fun depth j => do
  match ← choice depth j with
  | (name, none) => read? name
  | (name, some (_, .null)) => read? name
  | _ => none

end Decoder

/-- Reads a whole text. -/
def Decoder.run {α : Type} (d : Decoder α) (text : String) : Option α :=
  (Json.read? text).bind (d maxNesting)

/-- The written form of a text: only quotes, backslashes and the controls of ASCII are escaped. -/
def textLexeme (s : String) : List Char :=
  s.toList.flatMap fun c =>
    if c = '\x08' then ['\\', 'b']
    else if c = '\x0c' then ['\\', 'f']
    else Json.escapeChar (fun c => c.toNat < 0x20) c

/-- A string with its escapes. -/
def textJson (s : String) : Json := .string (textLexeme s)

/-- A choice that carries something. -/
def choiceJson (name : String) (value : Json) : Json := .object [(name.toList, value)]

/-- A choice that carries nothing. -/
def nameJson (name : String) : Json := .string name.toList

end ShaderFront.Cache
