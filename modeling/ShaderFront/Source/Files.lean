import ShaderFront.Source.Span

/-!
# Source files

The paths of the files a unit came from, numbered in the order they were added.
-/

namespace ShaderFront

/-- Paths under their numbers. -/
structure SourceFiles where
  paths : Array String := #[]
  deriving Inhabited

namespace SourceFiles

/-- Adds a path and gives its number. -/
def add (files : SourceFiles) (path : String) : SourceFiles × Nat :=
  (⟨files.paths.push path⟩, files.paths.size)

def ofList (paths : List String) : SourceFiles := ⟨paths.toArray⟩

/-- The path of a file that was added. -/
def path? (files : SourceFiles) (file : Nat) : Option String := files.paths[file]?

/-- The path of a file, or a placeholder if the file is not known. -/
def pathText (files : SourceFiles) (file : Nat) : String :=
  (files.path? file).getD "<unknown>"

/-- Where a span starts: path, line and column. -/
def location (files : SourceFiles) (s : Span) : String :=
  s!"{files.pathText s.file}:{s.text}"

theorem path?_add (files : SourceFiles) (path : String) :
    (files.add path).1.path? (files.add path).2 = some path := by
  simp [add, path?]

end SourceFiles
end ShaderFront
