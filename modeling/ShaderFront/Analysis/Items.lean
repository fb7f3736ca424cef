import ShaderFront.Analysis.Finding
import ShaderFront.Syntax.Arena

/-!
# Collected items

Before any body is checked the structs, synonyms and function signatures of a unit are collected in
the order of the items. The types written in an item may therefore name only what is declared above
it, while a body may name anything. A second definition of a name is reported and left out.
-/

namespace ShaderFront

/-- A struct; a field whose type could not be resolved has none. -/
structure StructInfo where
  name : String
  fields : List (String × Option Ty)
  span : Span
  deriving DecidableEq, Repr

namespace StructInfo

/-- What is known about a field, if there is one of that name. -/
def field? (s : StructInfo) (name : String) : Option (Option Ty) := s.fields.lookup name

end StructInfo

/-- The resolved signature of a function. -/
structure FunctionSig where
  name : String
  params : List (String × Option Ty)
  returns : Option Ty
  span : Span
  deriving DecidableEq, Repr

/-- What the items of a unit define, each name once and in the order of definition. -/
structure ItemTable where
  structs : List StructInfo := []
  synonyms : List (String × Ty) := []
  functions : List FunctionSig := []
  deriving DecidableEq, Repr, Inhabited

namespace ItemTable

def struct? (t : ItemTable) (name : String) : Option StructInfo :=
  t.structs.find? (·.name == name)

def function? (t : ItemTable) (name : String) : Option FunctionSig :=
  t.functions.find? (·.name == name)

/-- The type of a name: built in, a struct, or a synonym of what it was defined as. -/
def type? (t : ItemTable) (name : String) : Option Ty :=
  match Ty.ofBuiltinName? name with
  | some ty => some ty
  | none =>
    if (t.struct? name).isSome then some (.struct name)
    else (t.synonyms.lookup name).map (.synonym name)

/-- The type of a written type, reported if its name is unknown. -/
def resolve (t : ItemTable) (written : WrittenType) : Reported (Option Ty) :=
  .orReject (t.type? written.name) (.unknownType written.name) written.span

/-- Resolves the types of parameters in order. -/
def resolveParams (t : ItemTable) : List Field → Reported (List (String × Option Ty))
  | [] => pure []
  | p :: rest => do
    let ty ← t.resolve p.type
    let others ← t.resolveParams rest
    return (p.name, ty) :: others

/-- Resolves the types of fields in order; `done` holds the fields before them. A field whose name
was used before is left out. -/
def resolveFields (t : ItemTable) (done : List (String × Option Ty)) :
    List Field → Reported (List (String × Option Ty))
  | [] => pure done
  | f :: rest =>
    if (done.lookup f.name).isSome then do
      .find (.duplicate .fields f.name) f.span
      t.resolveFields done rest
    else do
      let ty ← t.resolve f.type
      t.resolveFields (done ++ [(f.name, ty)]) rest

/-- The first function of a name stays; a later one is reported and left out. -/
def addFunction (t : ItemTable) (f : Function) : Reported ItemTable :=
  if (t.function? f.name).isSome then do
    .find (.duplicate .functions f.name) f.span
    return t
  else do
    let params ← t.resolveParams f.params
    let returns ← t.resolve f.returns
    return { t with functions := t.functions ++ [⟨f.name, params, returns, f.span⟩] }

/-- Structs and synonyms share their names with each other and with the built-in types. The fields
of a struct may name the structs above it, and not the struct itself. -/
def addStruct (t : ItemTable) (s : StructDef) : Reported ItemTable :=
  if (t.type? s.name).isSome then do
    .find (.duplicate .types s.name) s.span
    return t
  else do
    let fields ← t.resolveFields [] s.fields
    return { t with structs := t.structs ++ [⟨s.name, fields, s.span⟩] }

/-- A synonym stands for the type that its target names at this point. Without one it is left out.
-/
def addTypedef (t : ItemTable) (d : Typedef) : Reported ItemTable :=
  if (t.type? d.name).isSome then do
    .find (.duplicate .types d.name) d.span
    return t
  else do
    match ← t.resolve d.target with
    | some target => return { t with synonyms := t.synonyms ++ [(d.name, target)] }
    | none => return t

/-- Adds an item. Globals are not collected: they are bound where they are declared. -/
def addItem (t : ItemTable) : Item → Reported ItemTable
  | .function f => t.addFunction f
  | .struct s => t.addStruct s
  | .typedef d => t.addTypedef d
  | .global _ => pure t

/-- Items see what the items above them define. -/
def addItems (t : ItemTable) : List Item → Reported ItemTable
  | [] => pure t
  | item :: rest => do
    let t ← t.addItem item
    t.addItems rest

/-- The items of a unit. -/
def collect (u : ShaderUnit) : Reported ItemTable := ItemTable.addItems {} u.items

end ItemTable
end ShaderFront
