import ShaderFront.Cache.Decoder
import ShaderFront.Cache.Number
import ShaderFront.Mixin.Recipe

/-!
# Recipes in cache files

Parameter values, trees and recipes. Records are written as objects with all their fields in a fixed
order. Slots are written as objects with a member for each name.
-/

namespace ShaderFront.Cache

def kindName : ParamKind → String := ParamKind.inspect

def kindOfName? (s : String) : Option ParamKind := ParamKind.all.find? fun k => kindName k == s

def kindJson (k : ParamKind) : Json := nameJson (kindName k)

def decodeKind : Decoder ParamKind := Decoder.plainChoice kindOfName?

/-- A value is a choice of its kind. -/
def valueJson : ParamValue → Json
  | .unset => nameJson "Unset"
  | .bool b => choiceJson "Bool" (.bool b)
  | .int n => choiceJson "Int" (.number (toString n.toInt).toList)
  | .uint n => choiceJson "UInt" (.ofNat n.toNat)
  | .float x => choiceJson "Float" (binary64 x)
  | .string s => choiceJson "Str" (textJson s)
  | .mixin name => choiceJson "Mixin" (textJson name)

/-- What a choice carries is read as its kind is. -/
def decodeValue : Decoder ParamValue := fun depth j => do
  match ← Decoder.choice depth j with
  | ("Unset", none) => return .unset
  | (_, none) => none
  | (name, some (depth, value)) =>
    match name with
    | "Unset" => match value with | .null => some .unset | _ => none
    | "Bool" => (Decoder.bool depth value).map .bool
    | "Int" => (Decoder.number readInt64? depth value).map .int
    | "UInt" => (Decoder.number readUInt64? depth value).map .uint
    | "Float" => (Decoder.number readBinary64? depth value).map .float
    | "Str" => (Decoder.text depth value).map .string
    | "Mixin" => (Decoder.text depth value).map .mixin
    | _ => none

/-- All items of an array, each read by the same decoder. -/
def decodeList {α : Type} (d : Decoder α) : Decoder (List α) := fun depth j => do
  let (depth, items) ← Decoder.items depth j
  items.mapM (d depth)

def classJson (c : ClassRef) : Json :=
  .object [("name".toList, textJson c.name), ("generic_args".toList, .array (c.args.map textJson))]

def decodeClass : Decoder ClassRef := fun depth j => do
  match ← Decoder.record ["name", "generic_args"] depth j with
  | (depth, [name, args]) =>
    return ⟨← Decoder.text depth name, ← decodeList Decoder.text depth args⟩
  | _ => none

def defineJson (d : String × String) : Json := .array [textJson d.1, textJson d.2]

mutual

/-- Slots are written in the order of their names, in which a tree keeps them. -/
def treeJson : Tree → Json
  | ⟨classes, defines, slots, arrays⟩ =>
    .object
      [("classes".toList, .array (classes.map classJson)),
        ("macros".toList, .array (defines.map defineJson)),
        ("compositions".toList, .object (slotsJson slots)),
        ("composition_arrays".toList, .object (arraysJson arrays))]

def slotsJson : List (String × Tree) → List (List Char × Json)
  | [] => []
  | (name, t) :: rest => (textLexeme name, treeJson t) :: slotsJson rest

def arraysJson : List (String × List Tree) → List (List Char × Json)
  | [] => []
  | (name, items) :: rest => (textLexeme name, .array (itemsJson items)) :: arraysJson rest

def itemsJson : List Tree → List Json
  | [] => []
  | t :: rest => treeJson t :: itemsJson rest

end

/-- The members of an object as slots in the order of their names; of two with one name the later
counts. -/
def decodeSlots {α : Type} (d : Decoder α) : Decoder (List (String × α)) := fun depth j => do
  let (depth, members) ← Decoder.members depth j
  let values ← members.mapM fun (name, value) => (d depth value).map (name, ·)
  return values.foldl (fun slots (name, a) => Tree.alter name (fun _ => a) slots) []

/-- The fields of a tree in their order. -/
def treeFields : List String := ["classes", "macros", "compositions", "composition_arrays"]

/-- Reads a tree. Each child nests two levels or more, so the levels left bound its depth. -/
def decodeTreeWithin : (levels : Nat) → Decoder Tree
  | 0 => fun _ _ => none
  | levels + 1 => fun depth j => do
    match ← Decoder.record treeFields depth j with
    | (depth, [classes, defines, slots, arrays]) =>
      return ⟨← decodeList decodeClass depth classes,
        ← decodeList (Decoder.pair Decoder.text Decoder.text) depth defines,
        ← decodeSlots (decodeTreeWithin levels) depth slots,
        ← decodeSlots (decodeList (decodeTreeWithin levels)) depth arrays⟩
    | _ => none

def decodeTree : Decoder Tree := decodeTreeWithin maxNesting

/-- A binding is written as a pair. -/
def bindingJson (b : String × ParamValue) : Json := .array [textJson b.1, valueJson b.2]

def recipeJson (r : Recipe) : Json :=
  .object
    [("name".toList, textJson r.name), ("tree".toList, treeJson r.tree),
      ("parameters".toList, .array (r.parameters.map bindingJson)),
      ("discarded".toList, .bool r.discarded)]

def decodeRecipe : Decoder Recipe := fun depth j => do
  match ← Decoder.record ["name", "tree", "parameters", "discarded"] depth j with
  | (depth, [name, tree, parameters, discarded]) =>
    return ⟨← Decoder.text depth name, ← decodeTree depth tree,
      ← decodeList (Decoder.pair Decoder.text decodeValue) depth parameters,
      ← Decoder.bool depth discarded⟩
  | _ => none

end ShaderFront.Cache
