import ShaderFront.Types.Ty

/-!
# Lexical scopes

A scope is a row of name tables, the innermost first. The first binding of a name in a table stays;
an inner table hides outer ones. A name may be bound without a type: it is then declared, and
nothing more is known about it.
-/

namespace ShaderFront

/-- The names of one scope with what they are bound to. -/
abbrev Bindings := List (String × Option Ty)

namespace Bindings

/-- What a name is bound to: the type of a variable, or nothing if it has no usable type. -/
def find? (b : Bindings) (name : String) : Option (Option Ty) := b.lookup name

def has (b : Bindings) (name : String) : Bool := (b.find? name).isSome

end Bindings

/-- The innermost table of names, and those around it from the inside to the globals. -/
structure Scope where
  inner : Bindings := []
  outer : List Bindings := []
  deriving DecidableEq, Repr, Inhabited

namespace Scope

/-- A scope inside another one. -/
def child (s : Scope) : Scope := ⟨[], s.inner :: s.outer⟩

/-- The scope around this one, unless it is the outermost. -/
def parent? (s : Scope) : Option Scope :=
  match s.outer with
  | [] => none
  | b :: rest => some ⟨b, rest⟩

/-- Whether the name is bound in the innermost table. -/
def hasLocal (s : Scope) (name : String) : Bool := s.inner.has name

/-- Binds a name in the innermost table, unless it is bound there. -/
def bind? (s : Scope) (name : String) (type : Option Ty) : Option Scope :=
  if s.hasLocal name then none else some { s with inner := (name, type) :: s.inner }

/-- The binding of a name in the innermost table that has one. -/
def lookup? (s : Scope) (name : String) : Option (Option Ty) :=
  (s.inner :: s.outer).findSome? (·.find? name)

/-- How many scopes lie around this one. -/
def depth (s : Scope) : Nat := s.outer.length

/-- The scope around this one; the outermost is its own. -/
def leave (s : Scope) : Scope := s.parent?.getD s

@[simp] theorem parent?_child (s : Scope) : s.child.parent? = some s := rfl

@[simp] theorem leave_child (s : Scope) : s.child.leave = s := rfl

@[simp] theorem depth_child (s : Scope) : s.child.depth = s.depth + 1 := by
  simp [depth, child]

/-- A name that is bound is added to the innermost table. -/
theorem eq_of_bind? {s t : Scope} {name : String} {type : Option Ty}
    (h : s.bind? name type = some t) : t = ⟨(name, type) :: s.inner, s.outer⟩ := by
  unfold bind? at h
  split at h
  · cases h
  · cases h
    rfl

theorem lookup?_bind?_self {s t : Scope} {name : String} {type : Option Ty}
    (h : s.bind? name type = some t) : t.lookup? name = some type := by
  rw [eq_of_bind? h]
  simp [lookup?, Bindings.find?, List.findSome?]

theorem lookup?_bind?_ne {s t : Scope} {name other : String} {type : Option Ty}
    (h : s.bind? name type = some t) (ho : other ≠ name) : t.lookup? other = s.lookup? other := by
  have hb : (other == name) = false := by simpa using ho
  rw [eq_of_bind? h]
  simp [lookup?, Bindings.find?, List.findSome?, List.lookup_cons, hb]

theorem lookup?_child (s : Scope) (name : String) : s.child.lookup? name = s.lookup? name := by
  simp [lookup?, child, Bindings.find?, List.findSome?]

end Scope
end ShaderFront
