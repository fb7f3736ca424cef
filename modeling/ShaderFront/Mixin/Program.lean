import ShaderFront.Mixin.Bindings
import ShaderFront.Mixin.Error
import ShaderFront.Mixin.Tree

/-!
# Generator programs

What a generator may do while it runs, as data. A `Program` is a finite tree of operations on the
context of an expansion: each operation has an answer, and the rest of the program depends on it.
The tree a generator builds is not part of the context; operations that write to it take it and
give it back.

A `Generation` is a program that builds a tree and may fail; what was built before a failure stays.
-/

namespace ShaderFront

/-- A slot holds one tree or a list of trees. -/
inductive SlotKind where
  | single
  | array
  deriving DecidableEq, Repr

/-- What a program notes down while it runs. -/
inductive Observation where
  | popped (bindings : Option Parameters)
  | read (key : ParamKey) (value : ParamValue)
  | raw (key : ParamKey) (value : ParamValue)
  | state (depth : Nat) (path : String) (parameterDepth : Nat) (discarded : Bool)
      (classes : List String)
  | balanced (error : Option MixinError)
  | limit (maxDepth mixins : Nat)
  | attempt (error : Option MixinError)

/-- Whether an operation succeeded, and the tree it was given as it is afterwards. -/
abbrev Outcome := Except MixinError Unit × Tree

/-- Operations on the context of an expansion. -/
inductive Op where
  /-- The value a key has in the innermost scope that binds it. -/
  | param (key : ParamKey)
  /-- Binds in the innermost scope. -/
  | setParam (key : ParamKey) (value : ParamValue)
  | pushParams (parameters : Parameters)
  /-- Closes the innermost scope that the running generator opened. -/
  | popParams
  | parameterDepth
  /-- Expands a mixin into the active tree. -/
  | mixin (target : Tree) (name : String) (args : List ParamValue)
  | mixinValue (target : Tree) (value : ParamValue)
  | mixinParam (target : Tree) (key : ParamKey)
  /-- Opens a slot with its first content. -/
  | openSlot (kind : SlotKind) (slot : String) (child : Tree)
  /-- Closes the innermost open slot into the tree around it. -/
  | closeSlot (target : Tree)
  /-- The active tree: the content of the innermost slot the running generator has open, or else
  the tree it builds. -/
  | active (target : Tree)
  /-- Changes the active tree. -/
  | editActive (target : Tree) (edit : Tree → Tree)
  | discard
  | isDiscarded
  | depth
  | slotPath
  | checkBalanced
  | maxDepth
  /-- The names of all registered mixins. -/
  | mixinNames
  | observe (observation : Observation)

/-- What an operation answers. -/
@[reducible] def Op.Answer : Op → Type
  | .param _ => ParamValue
  | .setParam .. | .pushParams _ | .openSlot .. | .discard | .observe _ => Unit
  | .popParams => Option Parameters
  | .parameterDepth | .depth | .maxDepth => Nat
  | .mixin .. | .mixinValue .. | .mixinParam .. | .closeSlot _ => Outcome
  | .active _ | .editActive .. => Tree
  | .isDiscarded => Bool
  | .slotPath => String
  | .checkBalanced => Except MixinError Unit
  | .mixinNames => List String

/-- A finite program over the operations. -/
inductive Program (α : Type) where
  | pure (value : α)
  | op (operation : Op) (next : operation.Answer → Program α)

namespace Program

variable {α β : Type}

/-- What follows a program goes on from its answer. -/
def bind : Program α → (α → Program β) → Program β
  | .pure a, f => f a
  | .op o next, f => .op o fun answer => (next answer).bind f

instance : Monad Program where
  pure := .pure
  bind := bind

/-- One operation. -/
def perform (o : Op) : Program o.Answer := .op o .pure

@[simp] theorem bind_pure_left (a : α) (f : α → Program β) :
    (Program.pure a).bind f = f a := rfl

theorem bind_pure_right (p : Program α) : p.bind .pure = p := by
  induction p with
  | pure a => rfl
  | op o next ih => simp only [bind]; congr 1; funext answer; exact ih answer

theorem bind_assoc {γ : Type} (p : Program α) (f : α → Program β) (g : β → Program γ) :
    (p.bind f).bind g = p.bind fun a => (f a).bind g := by
  induction p with
  | pure a => rfl
  | op o next ih => simp only [bind]; congr 1; funext answer; exact ih answer

end Program

/-- A program that builds a tree and may fail. -/
abbrev Generation (α : Type) := ExceptT MixinError (StateT Tree Program) α

namespace Generation

/-- An operation that does not touch the tree. -/
def ask (o : Op) : Generation o.Answer :=
  ExceptT.lift (StateT.lift (.perform o))

/-- Changes the tree that is being built. -/
def modify (f : Tree → Tree) : Generation Unit :=
  ExceptT.lift (StateT.modifyGet fun t => ((), f t))

/-- Runs a program on the tree that is being built. -/
def onTree (p : Tree → Program Outcome) : Generation Unit :=
  ExceptT.mk p

/-- Expands a mixin into the tree that is being built. -/
def mixin (name : String) (args : List ParamValue) : Generation Unit :=
  onTree fun t => .perform (.mixin t name args)

/-- Expands the mixin that a value names. -/
def mixinValue (value : ParamValue) : Generation Unit :=
  onTree fun t => .perform (.mixinValue t value)

/-- Expands the mixin that the value of a parameter names. -/
def mixinParam (key : ParamKey) : Generation Unit :=
  onTree fun t => .perform (.mixinParam t key)

/-- Closes the innermost slot of the running generator. -/
def closeSlot : Generation Unit := onTree fun t => .perform (.closeSlot t)

/-- Changes the active tree. -/
def editActive (f : Tree → Tree) : Generation Unit :=
  onTree fun t => (Program.perform (.editActive t f)).bind fun t => .pure (.ok (), t)

/-- Both succeed; otherwise the first failure. -/
def both : Except MixinError Unit → Except MixinError Unit → Except MixinError Unit
  | .ok _, second => second
  | first, _ => first

/-- Expands a mixin into a new slot. The slot is closed even if the expansion fails. -/
def compose (kind : SlotKind) (slot name : String) : Generation Unit :=
  onTree fun t =>
    (Program.perform (.openSlot kind slot .empty)).bind fun _ =>
      (Program.perform (.mixin t name [])).bind fun (expanded, t) =>
        (Program.perform (.closeSlot t)).bind fun (closed, t) =>
          .pure (both expanded closed, t)

end Generation
end ShaderFront
