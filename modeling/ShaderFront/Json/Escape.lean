import ShaderFront.Json.Basic
import ShaderFront.Text.Quoted

/-!
# String lexemes

Between the quotes of a JSON string a character stands for itself or is escaped. `unescape?` reads
every legal lexeme whose escapes denote Unicode text; a surrogate escape without its partner
denotes none. `escape` writes with the short escapes where JSON has one and a four-digit escape for
the other characters that a writer chooses to escape.
-/

namespace ShaderFront.Json

/-- Two hexadecimal digits after two zeros, for characters below U+0100. -/
def escapeByCode (c : Char) : List Char :=
  let digits := Text.hex c.toNat
  '\\' :: 'u' :: List.replicate (4 - digits.length) '0' ++ digits

/-- The escaped form of a character, given which of those without a short escape are escaped. -/
def escapeChar (coded : Char → Bool) (c : Char) : List Char :=
  if c = '"' then ['\\', '"']
  else if c = '\\' then ['\\', '\\']
  else if c = '\n' then ['\\', 'n']
  else if c = '\r' then ['\\', 'r']
  else if c = '\t' then ['\\', 't']
  else if coded c then escapeByCode c
  else [c]

/-- The lexeme of a text. -/
def escape (coded : Char → Bool) (s : String) : List Char :=
  s.toList.flatMap (escapeChar coded)

def hexDigit? (c : Char) : Option Nat :=
  if '0' ≤ c ∧ c ≤ '9' then some (c.toNat - 48)
  else if 'a' ≤ c ∧ c ≤ 'f' then some (c.toNat - 87)
  else if 'A' ≤ c ∧ c ≤ 'F' then some (c.toNat - 55)
  else none

/-- The unit that four hexadecimal digits denote. -/
def codeUnit? (a b c d : Char) : Option Nat := do
  let a ← hexDigit? a
  let b ← hexDigit? b
  let c ← hexDigit? c
  let d ← hexDigit? d
  return ((a * 16 + b) * 16 + c) * 16 + d

/-- The character that the escape with this letter denotes. -/
def shortEscape? (c : Char) : Option Char :=
  if c = '"' then some '"'
  else if c = '\\' then some '\\'
  else if c = '/' then some '/'
  else if c = 'b' then some '\x08'
  else if c = 'f' then some '\x0c'
  else if c = 'n' then some '\n'
  else if c = 'r' then some '\r'
  else if c = 't' then some '\t'
  else none

/-- The character of a pair of surrogate units. -/
def surrogatePair? (high low : Nat) : Option Char :=
  if 0xDC00 ≤ low ∧ low ≤ 0xDFFF then
    some (Char.ofNat (0x10000 + (high - 0xD800) * 0x400 + (low - 0xDC00)))
  else none

/-- The text of a lexeme. -/
def unescapeChars? : List Char → Option (List Char)
  | [] => some []
  | '\\' :: 'u' :: a :: b :: c :: d :: rest =>
    match codeUnit? a b c d with
    | none => none
    | some unit =>
      if unit < 0xD800 ∨ 0xDFFF < unit then (unescapeChars? rest).map (Char.ofNat unit :: ·)
      else if 0xDC00 ≤ unit then none
      else match rest with
        | '\\' :: 'u' :: a :: b :: c :: d :: rest =>
          match (codeUnit? a b c d).bind (surrogatePair? unit) with
          | none => none
          | some c => (unescapeChars? rest).map (c :: ·)
        | _ => none
  | '\\' :: e :: rest =>
    match shortEscape? e with
    | none => none
    | some c => (unescapeChars? rest).map (c :: ·)
  | c :: rest => if c = '\\' then none else (unescapeChars? rest).map (c :: ·)

/-- The text of a string lexeme, if all its escapes are. -/
def unescape? (lexeme : List Char) : Option String :=
  (unescapeChars? lexeme).map String.ofList

end ShaderFront.Json
