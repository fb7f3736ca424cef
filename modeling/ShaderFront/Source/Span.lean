/-!
# Positions in source files

A `Span` is a stretch of one file between two positions. Positions are ordered by line and then by
column; spans of different files are never merged and never contain each other.
-/

namespace ShaderFront

/-- A line and a column, counted from one; zeros stand for generated code. -/
structure Position where
  line : Nat
  column : Nat
  deriving DecidableEq, Repr, Inhabited

namespace Position

/-- The reading order of a file. -/
def before (a b : Position) : Bool :=
  a.line < b.line || (a.line == b.line && a.column < b.column)

def atMost (a b : Position) : Bool := !b.before a

def earlier (a b : Position) : Position := if b.before a then b else a

def later (a b : Position) : Position := if b.before a then a else b

def text (p : Position) : String := s!"{p.line}:{p.column}"

def inspect (p : Position) : String := s!"LineCol \x7b line: {p.line}, column: {p.column} \x7d"

theorem before_irrefl (a : Position) : a.before a = false := by
  simp [before]

end Position

/-- The file of code that no file contains. -/
def syntheticFile : Nat := 4294967295

def inspectFile (file : Nat) : String :=
  if file = syntheticFile then "FileId::SYNTHETIC" else s!"FileId({file})"

/-- A stretch of a file, from its first position to its last. -/
structure Span where
  file : Nat
  start : Position
  stop : Position
  deriving DecidableEq, Repr, Inhabited

namespace Span

/-- The span of generated code. -/
def dummy : Span := ⟨syntheticFile, ⟨0, 0⟩, ⟨0, 0⟩⟩

/-- An empty span at one position. -/
def point (file line column : Nat) : Span := ⟨file, ⟨line, column⟩, ⟨line, column⟩⟩

def isDummy (s : Span) : Bool := s == dummy

/-- The least span that covers both; the first one if they lie in different files. -/
def merge (a b : Span) : Span :=
  if a.file = b.file then ⟨a.file, a.start.earlier b.start, a.stop.later b.stop⟩ else a

/-- The second span lies within the first one, in the same file. -/
def contains (a b : Span) : Bool :=
  a.file == b.file && a.start.atMost b.start && b.stop.atMost a.stop

/-- Where a span starts. -/
def text (s : Span) : String := s.start.text

/-- The span as it stands in a dump. -/
def inspect (s : Span) : String := s!"{inspectFile s.file}@{s.start.text}..{s.stop.text}"

theorem merge_self (s : Span) : s.merge s = s := by
  simp [merge, Position.earlier, Position.later, Position.before_irrefl]

end Span
end ShaderFront
