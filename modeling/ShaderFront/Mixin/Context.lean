import ShaderFront.Mixin.Registry

/-!
# The context of an expansion

What changes while generators run: the scopes of parameters, a frame for each running generator, and
whether the expansion has been discarded. A frame holds the slots its generator has open; as long as
one is open, output goes to its content and not to the tree the generator builds. A generator may
close only its own slots and its own scopes.
-/

namespace ShaderFront

/-- A slot that was opened and not closed yet, with what it is filled with so far. -/
structure OpenSlot where
  name : String
  kind : SlotKind
  child : Tree

namespace OpenSlot

/-- How a slot stands in a path. -/
def label (s : OpenSlot) : String :=
  match s.kind with
  | .single => s.name
  | .array => s!"{s.name}[]"

/-- Puts the content of a slot into the tree around it. -/
def attach (s : OpenSlot) (t : Tree) : Tree :=
  match s.kind with
  | .single => t.setSlot s.name s.child
  | .array => t.pushItem s.name s.child

end OpenSlot

/-- A running generator: its open slots, innermost first, and how many scopes were open before it
started. -/
structure Frame where
  mixin : String
  slots : List OpenSlot := []
  scopeFloor : Nat

/-- The state of an expansion. Scopes and callers are listed innermost first. -/
structure Context where
  scopes : List Parameters
  frame : Frame
  callers : List Frame := []
  discarded : Bool := false
  observations : List Observation := []

namespace Context

/-- The state before the first expansion, with the outermost scope of parameters. -/
def start (p : Parameters) : Context := { scopes := [p], frame := ⟨"root", [], 1⟩ }

/-- How many generators are running. -/
def depth (c : Context) : Nat := c.callers.length

/-- The frames from the outermost to the innermost. -/
def frames (c : Context) : List Frame := (c.frame :: c.callers).reverse

/-- The open slots from the outermost to the innermost. -/
def openSlots (c : Context) : List OpenSlot := c.frames.flatMap (·.slots.reverse)

/-- The labels of all open slots on the way from the root. -/
def slotPath (c : Context) : String :=
  "root" ++ String.join (c.openSlots.map fun s => "/" ++ s.label)

/-- An error at this point about the running generator. -/
def fail (c : Context) (fault : MixinFault) : MixinError := ⟨c.frame.mixin, c.slotPath, fault⟩

/-! ## Parameters -/

/-- The value that the innermost scope with a binding of the key gives it. -/
def param (c : Context) (key : ParamKey) : ParamValue :=
  (c.scopes.findSome? (·.get? key)).getD .unset

/-- Binds a key in the innermost scope, whoever opened it. -/
def setParam (c : Context) (key : ParamKey) (value : ParamValue) : Context :=
  match c.scopes with
  | [] => c
  | p :: rest => { c with scopes := p.set key value :: rest }

def pushParams (c : Context) (p : Parameters) : Context := { c with scopes := p :: c.scopes }

/-- Closes the innermost scope, if the running generator opened it. -/
def popParams (c : Context) : Option Parameters × Context :=
  match c.scopes with
  | p :: rest =>
    if c.frame.scopeFloor < c.scopes.length then (some p, { c with scopes := rest })
    else (none, c)
  | [] => (none, c)

/-- Closes the innermost scopes until `size` are left. -/
def keepScopes (c : Context) (size : Nat) : Context :=
  { c with scopes := c.scopes.drop (c.scopes.length - size) }

/-! ## Slots -/

/-- Opens a slot of the running generator. What is written from now on goes to its content. -/
def openSlot (c : Context) (kind : SlotKind) (slot : String) (child : Tree) : Context :=
  { c with frame := { c.frame with slots := ⟨slot, kind, child⟩ :: c.frame.slots } }

/-- The active tree. -/
def active (c : Context) (target : Tree) : Tree :=
  match c.frame.slots with
  | s :: _ => s.child
  | [] => target

/-- Replaces the active tree. -/
def setActive (c : Context) (target new : Tree) : Tree × Context :=
  match c.frame.slots with
  | s :: rest =>
    (target, { c with frame := { c.frame with slots := { s with child := new } :: rest } })
  | [] => (new, c)

/-- Closes the innermost slot of the running generator. -/
def closeSlot (c : Context) (target : Tree) : Outcome × Context :=
  match c.frame.slots with
  | [] => ((.error (c.fail .popWithoutPush), target), c)
  | s :: rest =>
    let c := { c with frame := { c.frame with slots := rest } }
    let (target, c) := c.setActive target (s.attach (c.active target))
    ((.ok (), target), c)

/-- Whether the outermost frame has no slot open, unless the expansion was discarded. -/
def checkBalanced (c : Context) : Except MixinError Unit :=
  match c.frames.head?.bind (·.slots.head?) with
  | some s => if c.discarded then .ok () else .error (c.fail (.unbalanced s.label))
  | none => .ok ()

/-! ## Generators -/

/-- Starts a generator. -/
def enter (c : Context) (mixin : String) : Context :=
  { c with frame := ⟨mixin, [], c.scopes.length⟩, callers := c.frame :: c.callers }

/-- Ends the running generator. -/
def leave (c : Context) : Context :=
  match c.callers with
  | f :: rest => { c with frame := f, callers := rest }
  | [] => c

/-- Notes something down for the outside, which has no influence on the expansion. -/
def observe (c : Context) (o : Observation) : Context :=
  { c with observations := c.observations ++ [o] }

@[simp] theorem depth_enter (c : Context) (mixin : String) :
    (c.enter mixin).depth = c.depth + 1 := by
  simp [enter, depth]

@[simp] theorem leave_enter (c : Context) (mixin : String) : (c.enter mixin).leave = c := rfl

end Context
end ShaderFront
