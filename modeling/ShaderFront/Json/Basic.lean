/-!
# JSON texts

A `Json` is the syntax tree of a JSON text. Its leaves are lexemes: the characters of a number, and
the characters of a string between its quotes with the escapes still in place. What a lexeme
denotes is settled where it is used, because readers differ in which numbers and strings they
accept. Rendering is compact, with the members of an object in the order given.
-/

namespace ShaderFront

/-- A JSON value. Numbers and strings are kept as they are written. -/
inductive Json where
  | null
  | bool (value : Bool)
  | number (lexeme : List Char)
  | string (lexeme : List Char)
  | array (items : List Json)
  | object (members : List (List Char × Json))
  deriving Inhabited

namespace Json

/-- A string lexeme in its quotes, followed by `rest`. -/
def quote (lexeme rest : List Char) : List Char :=
  '"' :: lexeme ++ '"' :: rest

mutual

/-- The text of a tree, followed by `rest`. -/
def renderTo : Json → List Char → List Char
  | .null, rest => "null".toList ++ rest
  | .bool true, rest => "true".toList ++ rest
  | .bool false, rest => "false".toList ++ rest
  | .number lexeme, rest => lexeme ++ rest
  | .string lexeme, rest => quote lexeme rest
  | .array [], rest => '[' :: ']' :: rest
  | .array (item :: items), rest => '[' :: renderTo item (renderItems items rest)
  | .object [], rest => '\x7b' :: '\x7d' :: rest
  | .object ((key, value) :: members), rest =>
    '\x7b' :: quote key (':' :: renderTo value (renderMembers members rest))

/-- The items of an array after the first, and the closing bracket. -/
def renderItems : List Json → List Char → List Char
  | [], rest => ']' :: rest
  | item :: items, rest => ',' :: renderTo item (renderItems items rest)

/-- The members of an object after the first, and the closing brace. -/
def renderMembers : List (List Char × Json) → List Char → List Char
  | [], rest => '\x7d' :: rest
  | (key, value) :: members, rest =>
    ',' :: quote key (':' :: renderTo value (renderMembers members rest))

end

/-- The text without blanks. -/
def render (j : Json) : String :=
  String.ofList (j.renderTo [])

/-- A natural number. -/
def ofNat (n : Nat) : Json := .number (toString n).toList

end Json
end ShaderFront
