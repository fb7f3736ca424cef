import ShaderFront.Json.Escape

/-!
# Reading JSON texts

The grammar of JSON, without a limit on nesting. A reader takes the characters that are left and
gives the tree it read with the characters after it. Number and string lexemes are checked for
their form only.
-/

namespace ShaderFront.Json

/-- The blanks of the grammar. -/
def isSpace (c : Char) : Bool := c = ' ' || c = '\t' || c = '\n' || c = '\r'

def skipSpace (cs : List Char) : List Char := cs.dropWhile isSpace

/-- What is left of `cs` after the characters of `word`. -/
def skipWord? : List Char → List Char → Option (List Char)
  | [], cs => some cs
  | w :: word, c :: cs => if w = c then skipWord? word cs else none
  | _ :: _, [] => none

/-- One or more digits. -/
def readDigits? (cs : List Char) : Option (List Char × List Char) :=
  let digits := cs.takeWhile Char.isDigit
  if digits.isEmpty then none else some (digits, cs.dropWhile Char.isDigit)

/-- The digits before the point: a zero alone, or digits that do not start with zero. -/
def readWhole? (cs : List Char) : Option (List Char × List Char) := do
  let (digits, rest) ← readDigits? cs
  if digits.head? = some '0' ∧ digits.length ≠ 1 then none
  return (digits, rest)

/-- The point and the digits after it, if there is a point. -/
def readPlaces? (cs : List Char) : Option (List Char × List Char) :=
  match cs with
  | '.' :: rest => (readDigits? rest).map fun (digits, rest) => ('.' :: digits, rest)
  | _ => some ([], cs)

/-- The exponent mark, sign and digits, if there is an exponent. -/
def readPower? (cs : List Char) : Option (List Char × List Char) :=
  match cs with
  | [] => some ([], [])
  | mark :: rest =>
    if mark = 'e' ∨ mark = 'E' then
      match rest with
      | [] => none
      | sign :: more =>
        if sign = '+' ∨ sign = '-' then
          (readDigits? more).map fun (digits, rest) => (mark :: sign :: digits, rest)
        else (readDigits? rest).map fun (digits, rest) => (mark :: digits, rest)
    else some ([], cs)

/-- A number lexeme. -/
def readNumber? (cs : List Char) : Option (List Char × List Char) := do
  let (sign, cs) := match cs with
    | '-' :: rest => (['-'], rest)
    | _ => ([], cs)
  let (whole, cs) ← readWhole? cs
  let (places, cs) ← readPlaces? cs
  let (power, cs) ← readPower? cs
  return (sign ++ whole ++ places ++ power, cs)

/-- A string lexeme up to its closing quote. Escapes must have a known letter, and four digits where
the letter asks for them; controls must be escaped. -/
def readString? : List Char → Option (List Char × List Char)
  | [] => none
  | '"' :: rest => some ([], rest)
  | '\\' :: 'u' :: a :: b :: c :: d :: rest =>
    if (codeUnit? a b c d).isSome then
      (readString? rest).map fun (l, rest) => ('\\' :: 'u' :: a :: b :: c :: d :: l, rest)
    else none
  | '\\' :: e :: rest =>
    if (shortEscape? e).isSome then
      (readString? rest).map fun (l, rest) => ('\\' :: e :: l, rest)
    else none
  | c :: rest =>
    if c = '\\' ∨ c.toNat < 0x20 then none
    else (readString? rest).map fun (l, rest) => (c :: l, rest)

mutual

/-- One value, after any white space. At most two steps go by without reading a character, so twice
as much fuel as there are characters is enough. -/
def readValue? : Nat → List Char → Option (Json × List Char)
  | 0, _ => none
  | fuel + 1, cs =>
    match skipSpace cs with
    | [] => none
    | c :: rest =>
      if c = '"' then (readString? rest).map fun (l, rest) => (.string l, rest)
      else if c = '[' then
        match skipSpace rest with
        | ']' :: rest => some (.array [], rest)
        | rest => (readItems? fuel rest).map fun (items, rest) => (.array items, rest)
      else if c = '\x7b' then
        match skipSpace rest with
        | '\x7d' :: rest => some (.object [], rest)
        | rest => (readMembers? fuel rest).map fun (members, rest) => (.object members, rest)
      else if c = 'n' then (skipWord? "ull".toList rest).map fun rest => (.null, rest)
      else if c = 't' then (skipWord? "rue".toList rest).map fun rest => (.bool true, rest)
      else if c = 'f' then (skipWord? "alse".toList rest).map fun rest => (.bool false, rest)
      else (readNumber? (c :: rest)).map fun (l, rest) => (.number l, rest)

/-- The items of an array and its closing bracket. -/
def readItems? : Nat → List Char → Option (List Json × List Char)
  | 0, _ => none
  | fuel + 1, cs => do
    let (item, rest) ← readValue? fuel cs
    match skipSpace rest with
    | ',' :: rest =>
      let (items, rest) ← readItems? fuel rest
      return (item :: items, rest)
    | ']' :: rest => return ([item], rest)
    | _ => none

/-- The members of an object and its closing brace. -/
def readMembers? : Nat → List Char → Option (List (List Char × Json) × List Char)
  | 0, _ => none
  | fuel + 1, cs => do
    let '"' :: rest := skipSpace cs | none
    let (key, rest) ← readString? rest
    let ':' :: rest := skipSpace rest | none
    let (value, rest) ← readValue? fuel rest
    match skipSpace rest with
    | ',' :: rest =>
      let (members, rest) ← readMembers? fuel rest
      return ((key, value) :: members, rest)
    | '\x7d' :: rest => return ([(key, value)], rest)
    | _ => none

end

/-- Reads a text that holds one value and white space. -/
def read? (s : String) : Option Json := do
  let cs := s.toList
  let (value, rest) ← readValue? (2 * cs.length + 1) cs
  if (skipSpace rest).isEmpty then return value else none

end ShaderFront.Json
