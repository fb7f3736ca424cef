import ShaderFront.Mixin.Keys

/-!
# Mixin trees

What an expansion yields: shader classes in order, preprocessor definitions in order, and child
trees in named slots. A slot holds one tree, or a list of trees. Classes and definitions may repeat,
since later ones override earlier ones. Slots are kept in the order of their names.
-/

namespace ShaderFront

/-- A shader class with its generic arguments. -/
structure ClassRef where
  name : String
  args : List String := []
  deriving DecidableEq, Repr, Inhabited

namespace ClassRef

def display (c : ClassRef) : String :=
  if c.args.isEmpty then c.name else c.name ++ "<" ++ ", ".intercalate c.args ++ ">"

end ClassRef

/-- A tree with its children in slots. The operations keep slots strictly ordered by name. -/
structure Tree where
  classes : List ClassRef
  defines : List (String × String)
  slots : List (String × Tree)
  arrays : List (String × List Tree)
  deriving Inhabited

namespace Tree

def empty : Tree := ⟨[], [], [], []⟩

def addClass (t : Tree) (c : ClassRef) : Tree := { t with classes := t.classes ++ [c] }

def addClasses (t : Tree) (cs : List ClassRef) : Tree := { t with classes := t.classes ++ cs }

def addDefine (t : Tree) (name value : String) : Tree :=
  { t with defines := t.defines ++ [(name, value)] }

/-- Changes the value of a name in a list kept in the order of names. -/
def alter {α : Type} (name : String) (f : Option α → α) :
    List (String × α) → List (String × α)
  | [] => [(name, f none)]
  | (n, a) :: rest =>
    if n = name then (n, f (some a)) :: rest
    else if name < n then (name, f none) :: (n, a) :: rest
    else (n, a) :: alter name f rest

/-- Puts a child into a single slot, in place of the one before. -/
def setSlot (t : Tree) (name : String) (child : Tree) : Tree :=
  { t with slots := alter name (fun _ => child) t.slots }

/-- Appends a child to an array slot. -/
def pushItem (t : Tree) (name : String) (child : Tree) : Tree :=
  { t with arrays := alter name (fun items => items.getD [] ++ [child]) t.arrays }

/-- The child in a single slot. -/
def slot? (t : Tree) (name : String) : Option Tree := t.slots.lookup name

/-- The children in an array slot. -/
def array? (t : Tree) (name : String) : Option (List Tree) := t.arrays.lookup name

def classNames (t : Tree) : List String := t.classes.map (·.name)

def isEmpty (t : Tree) : Bool :=
  t.classes.isEmpty && t.defines.isEmpty && t.slots.isEmpty && t.arrays.isEmpty

mutual

/-- The number of classes in a tree and in all slots below it. -/
def classCount : Tree → Nat
  | ⟨classes, _, slots, arrays⟩ => classes.length + slotsCount slots + arraysCount arrays

/-- The number of classes in single slots. -/
def slotsCount : List (String × Tree) → Nat
  | [] => 0
  | (_, t) :: rest => t.classCount + slotsCount rest

def arraysCount : List (String × List Tree) → Nat
  | [] => 0
  | (_, items) :: rest => itemsCount items + arraysCount rest

/-- The number of classes in a list of trees. -/
def itemsCount : List Tree → Nat
  | [] => 0
  | t :: rest => t.classCount + itemsCount rest

end

mutual

/-- Equality of trees. -/
def same : Tree → Tree → Bool
  | ⟨cs, ds, slots, arrays⟩, ⟨cs', ds', slots', arrays'⟩ =>
    cs == cs' && ds == ds' && sameSlots slots slots' && sameArrays arrays arrays'

def sameSlots : List (String × Tree) → List (String × Tree) → Bool
  | [], [] => true
  | (n, t) :: rest, (n', t') :: rest' => n == n' && t.same t' && sameSlots rest rest'
  | _, _ => false

def sameArrays : List (String × List Tree) → List (String × List Tree) → Bool
  | [], [] => true
  | (n, ts) :: rest, (n', ts') :: rest' => n == n' && sameItems ts ts' && sameArrays rest rest'
  | _, _ => false

def sameItems : List Tree → List Tree → Bool
  | [], [] => true
  | t :: rest, t' :: rest' => t.same t' && sameItems rest rest'
  | _, _ => false

end

/-! ## Display -/

/-- Two blanks for each level. -/
def pad (depth : Nat) : String := String.ofList (List.replicate (2 * depth) ' ')

/-- The lines of a child in braces after its label, given the lines of what it holds. -/
def braced (depth : Nat) (label : String) (child : Tree) (inner : List String) : List String :=
  if child.isEmpty then [s!"{pad depth}{label} \x7b\x7d"]
  else s!"{pad depth}{label} \x7b" :: inner ++ [pad depth ++ "\x7d"]

mutual

/-- The lines of a tree: its classes, its definitions, then its slots, indented. -/
def lines (depth : Nat) : Tree → List String
  | ⟨classes, defines, slots, arrays⟩ =>
    classes.map (fun c => pad depth ++ c.display)
      ++ defines.map (fun (n, v) => s!"{pad depth}#define {n} {v}")
      ++ slotLines depth slots ++ arrayLines depth arrays

def slotLines (depth : Nat) : List (String × Tree) → List String
  | [] => []
  | (n, t) :: rest => braced depth n t (t.lines (depth + 1)) ++ slotLines depth rest

def arrayLines (depth : Nat) : List (String × List Tree) → List String
  | [] => []
  | (n, items) :: rest => itemLines depth n 0 items ++ arrayLines depth rest

/-- The lines of array items, each under the name of the slot and its index. -/
def itemLines (depth : Nat) (name : String) (index : Nat) : List Tree → List String
  | [] => []
  | t :: rest =>
    braced depth s!"{name}[{index}]" t (t.lines (depth + 1))
      ++ itemLines depth name (index + 1) rest

end

/-- The text of a tree, line by line. -/
def display (t : Tree) : String := String.join ((t.lines 0).map (· ++ "\n"))

/-! ## Slots after a change -/

theorem lookup_alter_const {α : Type} (name : String) (child : α) (entries : List (String × α)) :
    (alter name (fun _ => child) entries).lookup name = some child := by
  induction entries with
  | nil => simp [alter]
  | cons entry rest ih =>
    obtain ⟨n, a⟩ := entry
    by_cases hn : n = name
    · simp [alter, hn]
    · have hn' : (name == n) = false := by simpa using fun h => hn h.symm
      by_cases hb : name < n
      · simp [alter, hn, hb]
      · simp [alter, hn, hb, List.lookup_cons, hn', ih]

theorem lookup_alter_ne {α : Type} (name other : String) (f : Option α → α) (h : other ≠ name)
    (entries : List (String × α)) :
    (alter name f entries).lookup other = entries.lookup other := by
  have ho : (other == name) = false := by simpa using h
  induction entries with
  | nil => simp [alter, List.lookup_cons, ho]
  | cons entry rest ih =>
    obtain ⟨n, a⟩ := entry
    by_cases hn : n = name
    · simp [alter, hn, List.lookup_cons, ho]
    · by_cases hb : name < n
      · simp [alter, hn, hb, List.lookup_cons, ho]
      · simp [alter, hn, hb, List.lookup_cons, ih]

theorem slot?_setSlot_self (t : Tree) (name : String) (child : Tree) :
    (t.setSlot name child).slot? name = some child :=
  lookup_alter_const name child t.slots

theorem slot?_setSlot_ne (t : Tree) (name other : String) (child : Tree) (h : other ≠ name) :
    (t.setSlot name child).slot? other = t.slot? other :=
  lookup_alter_ne name other _ h t.slots

theorem array?_pushItem_ne (t : Tree) (name other : String) (child : Tree) (h : other ≠ name) :
    (t.pushItem name child).array? other = t.array? other :=
  lookup_alter_ne name other _ h t.arrays

end Tree
end ShaderFront
