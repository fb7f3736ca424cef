import ShaderFront.Mixin.Parameter

/-!
# Declared keys

A key table holds the parameters that have been declared. A name has one kind for ever: declaring it
again with that kind gives the same key, and with another kind it is refused.
-/

namespace ShaderFront

/-- A name was declared with one kind before and is wanted with another. -/
structure KeyConflict where
  name : String
  declared : ParamKind
  requested : ParamKind
  deriving DecidableEq, Repr

namespace KeyConflict

def message (c : KeyConflict) : String :=
  s!"parameter `{c.name}` is declared as {c.declared.name}, not {c.requested.name}"

end KeyConflict

/-- Declared keys, the first one first. -/
structure KeyTable where
  keys : List ParamKey := []
  deriving DecidableEq, Repr, Inhabited

/-- Texts in the order of their code points. -/
def sortTexts (texts : List String) : List String := texts.mergeSort fun a b => !(b < a)

namespace KeyTable

def find? (t : KeyTable) (name : String) : Option ParamKey := t.keys.find? (·.name == name)

/-- Declares a name with a kind. A conflict leaves the table as it is. -/
def declare (t : KeyTable) (name : String) (kind : ParamKind) :
    Except KeyConflict (ParamKey × KeyTable) :=
  match t.find? name with
  | some key =>
    if key.kind = kind then .ok (key, t) else .error ⟨name, key.kind, kind⟩
  | none => .ok (⟨name, kind⟩, ⟨t.keys ++ [⟨name, kind⟩]⟩)

/-- Declares keys in order, up to the first conflict. -/
def declareAll (t : KeyTable) : List (String × ParamKind) → Except KeyConflict KeyTable
  | [] => .ok t
  | (name, kind) :: rest => do
    let (_, t) ← t.declare name kind
    t.declareAll rest

/-- The declared names in order. -/
def names (t : KeyTable) : List String := sortTexts (t.keys.map (·.name))

def size (t : KeyTable) : Nat := t.keys.length

theorem find?_name {t : KeyTable} {name : String} {key : ParamKey} (h : t.find? name = some key) :
    key.name = name := by
  simpa using List.find?_some h

end KeyTable
end ShaderFront
