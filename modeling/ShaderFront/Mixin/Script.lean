import ShaderFront.Mixin.Expansion

/-!
# Scripted generators

Generators written as lists of steps. A list of steps ends with the first step that fails. Steps
that look at the context note down what they saw.
-/

namespace ShaderFront

/-- What a scripted generator may do in one step. -/
inductive Step where
  | addClass (c : ClassRef)
  | addDefine (name value : String)
  | addActiveClass (c : ClassRef)
  | addActiveDefine (name value : String)
  /-- A class whose arguments are the values of parameters. -/
  | classFrom (name : String) (keys : List ParamKey)
  | mixin (name : String) (args : List ParamValue)
  /-- A mixin whose arguments are the values of parameters. -/
  | pass (name : String) (keys : List ParamKey)
  | mixinValue (value : ParamValue)
  | mixinParam (key : ParamKey)
  | compose (kind : SlotKind) (slot name : String)
  | openSlot (kind : SlotKind) (slot : String) (child : Tree)
  | closeSlot
  | discard
  | set (key : ParamKey) (value : ParamValue)
  | pushParams (parameters : Parameters)
  | popParams
  | read (key : ParamKey)
  | raw (key : ParamKey)
  | state
  | balanced
  | limit
  | ifTrue (key : ParamKey) (yes no : List Step)
  | ifPositive (key : ParamKey) (yes no : List Step)
  | decrement (key : ParamKey)
  | attempt (steps : List Step)
  deriving Inhabited

namespace Step

/-- The value of a parameter as one of its kind, or the default of that kind. -/
def readParam (key : ParamKey) : Generation ParamValue := do
  let value ← Generation.ask (.param key)
  return (value.read? key.kind).getD key.kind.default

/-- The value of an integer parameter. -/
def readInt (key : ParamKey) : Generation Int64 := do
  match ← readParam key with
  | .int n => return n
  | _ => return 0

/-- The value of a truth parameter. -/
def readBool (key : ParamKey) : Generation Bool := do
  match ← readParam key with
  | .bool b => return b
  | _ => return false

/-- The values of parameters in order. -/
def values : List ParamKey → Generation (List ParamValue)
  | [] => return []
  | key :: rest => do
    let value ← Generation.ask (.param key)
    let others ← values rest
    return value :: others

def note (o : Observation) : Generation Unit := Generation.ask (.observe o)

/-- The error of a failure. -/
def error? : Except MixinError Unit → Option MixinError
  | .ok _ => none
  | .error e => some e

/-- Notes down where the expansion is. -/
def noteState : Generation Unit := do
  let depth ← Generation.ask .depth
  let path ← Generation.ask .slotPath
  let parameterDepth ← Generation.ask .parameterDepth
  let discarded ← Generation.ask .isDiscarded
  let tree ← get
  note (.state depth path parameterDepth discarded tree.classNames)

mutual

/-- What a step does. -/
def generation : Step → Generation Unit
  | .addClass c => .modify (·.addClass c)
  | .addDefine name value => .modify (·.addDefine name value)
  | .addActiveClass c => .editActive (·.addClass c)
  | .addActiveDefine name value => .editActive (·.addDefine name value)
  | .classFrom name keys => do
    let args ← values keys
    Generation.modify (·.addClass ⟨name, args.map (·.display)⟩)
  | .mixin name args => .mixin name args
  | .pass name keys => do
    let args ← values keys
    Generation.mixin name args
  | .mixinValue value => .mixinValue value
  | .mixinParam key => .mixinParam key
  | .compose kind slot name => .compose kind slot name
  | .openSlot kind slot child => .ask (.openSlot kind slot child)
  | .closeSlot => .closeSlot
  | .discard => .ask .discard
  | .set key value => .ask (.setParam key value)
  | .pushParams p => .ask (.pushParams p)
  | .popParams => do
    let popped ← Generation.ask .popParams
    note (.popped popped)
  | .read key => do
    let value ← readParam key
    note (.read key value)
  | .raw key => do
    let value ← Generation.ask (.param key)
    note (.raw key value)
  | .state => noteState
  | .balanced => do
    let result ← Generation.ask .checkBalanced
    note (.balanced (error? result))
  | .limit => do
    let maxDepth ← Generation.ask .maxDepth
    let names ← Generation.ask .mixinNames
    note (.limit maxDepth names.length)
  | .ifTrue key yes no => do
    if ← readBool key then generations yes else generations no
  | .ifPositive key yes no => do
    if 0 < (← readInt key) then generations yes else generations no
  | .decrement key => do
    let n ← readInt key
    Generation.ask (.setParam key (.int (n - 1)))
  | .attempt steps => do
    let result ← ExceptT.lift (generations steps).run
    note (.attempt (error? result))

/-- What a list of steps does. -/
def generations : List Step → Generation Unit
  | [] => return ()
  | step :: rest => do
    generation step
    generations rest

end

end Step

/-- A generator that runs steps. -/
def Generator.scripted (name : String) (params : List ParamKey) (steps : List Step) : Generator :=
  ⟨name, params, Step.generations steps⟩

end ShaderFront
