import ShaderFront.Mixin.Expansion
import ShaderFront.Proofs.Mixin.Append

/-!
# Generators that only write

A `Writer` is a program that builds a tree without reading it. It may use every operation on the
context; the tree it builds occurs only as the tree that an edit, an expansion or the closing of a
slot is applied to, and of their answers it sees whether they succeeded. Trees it made itself are
its own affair: `ask` takes any operation over such trees, and answers with them.

Where an expansion stands shows in the path of open slots: as the answer of `slotPath`, in the path
of an error, and in `checkBalanced`, which looks at the outermost frame. `Similar` relates writers
that act alike when they are told different paths; a writer that is similar to itself acts alike
whatever the paths are.
-/

namespace ShaderFront

/-- A program that edits the active tree and asks for nothing that tells about it. -/
inductive Writer where
  | done (result : Except MixinError Unit)
  /-- Changes the tree that is being built. -/
  | edit (e : Edit) (next : Writer)
  /-- Changes the active tree. -/
  | editActive (e : Edit) (next : Writer)
  | mixin (name : String) (args : List ParamValue) (next : Except MixinError Unit → Writer)
  | mixinValue (value : ParamValue) (next : Except MixinError Unit → Writer)
  | mixinParam (key : ParamKey) (next : Except MixinError Unit → Writer)
  | closeSlot (next : Except MixinError Unit → Writer)
  | observe (observation : Observation) (next : Writer)
  /-- Any operation that does not touch the tree that is being built. -/
  | ask (operation : Op) (next : operation.Answer → Writer)

namespace Writer

/-- The program that builds on a tree. -/
def program : Writer → Tree → Program Outcome
  | .done result, t => .pure (result, t)
  | .edit e next, t => next.program (e.apply t)
  | .editActive e next, t => .op (.editActive t e.apply) fun t => next.program t
  | .mixin name args next, t => .op (.mixin t name args) fun (result, t) => (next result).program t
  | .mixinValue value next, t =>
    .op (.mixinValue t value) fun (result, t) => (next result).program t
  | .mixinParam key next, t => .op (.mixinParam t key) fun (result, t) => (next result).program t
  | .closeSlot next, t => .op (.closeSlot t) fun (result, t) => (next result).program t
  | .observe o next, t => .op (.observe o) fun _ => next.program t
  | .ask o next, t => .op o fun answer => (next answer).program t

/-- The generator that runs a writer. -/
def generation (w : Writer) : Generation Unit := ExceptT.mk w.program

end Writer

/-! ## Acting alike -/

section Alike

-- Whether both sides are told the same paths.
variable (paths : Prop)

/-- Errors that differ in their paths at most. -/
structure MixinError.Alike (e e' : MixinError) : Prop where
  mixin : e'.mixin = e.mixin
  fault : e'.fault = e.fault
  path : paths → e'.path = e.path

/-- Both succeed, or both fail with like errors. -/
def Outcome.Alike : Except MixinError Unit → Except MixinError Unit → Prop
  | .ok _, .ok _ => True
  | .error e, .error e' => e.Alike paths e'
  | _, _ => False

/-- Answers of one operation that differ in paths at most. -/
def Op.AnswersAlike : (o : Op) → o.Answer → o.Answer → Prop
  | .mixin .., a, a' | .mixinValue .., a, a' | .mixinParam .., a, a' | .closeSlot _, a, a' =>
    Outcome.Alike paths a.1 a'.1 ∧ a'.2 = a.2
  | .slotPath, a, a' => paths → a' = a
  | .checkBalanced, a, a' => paths → a' = a
  | _, a, a' => a' = a

/-- Writers that go on alike after like answers. -/
inductive Writer.Similar : Writer → Writer → Prop where
  | done {r r'} (result : Outcome.Alike paths r r') : Similar (.done r) (.done r')
  | edit {e w w'} (next : Similar w w') : Similar (.edit e w) (.edit e w')
  | editActive {e w w'} (next : Similar w w') : Similar (.editActive e w) (.editActive e w')
  | mixin {name args n n'} (next : ∀ r r', Outcome.Alike paths r r' → Similar (n r) (n' r')) :
      Similar (.mixin name args n) (.mixin name args n')
  | mixinValue {value n n'} (next : ∀ r r', Outcome.Alike paths r r' → Similar (n r) (n' r')) :
      Similar (.mixinValue value n) (.mixinValue value n')
  | mixinParam {key n n'} (next : ∀ r r', Outcome.Alike paths r r' → Similar (n r) (n' r')) :
      Similar (.mixinParam key n) (.mixinParam key n')
  | closeSlot {n n'} (next : ∀ r r', Outcome.Alike paths r r' → Similar (n r) (n' r')) :
      Similar (.closeSlot n) (.closeSlot n')
  | observe {o o' w w'} (told : paths → o' = o) (next : Similar w w') :
      Similar (.observe o w) (.observe o' w')
  | ask {o : Op} {n n'} (next : ∀ a a', o.AnswersAlike paths a a' → Similar (n a) (n' a')) :
      Similar (.ask o n) (.ask o n')

end Alike

/-- The program writes, and acts alike on paths that may differ. -/
def Generation.Writes (paths : Prop) (g : Generation Unit) : Prop :=
  ∃ w : Writer, w.Similar paths w ∧ g = w.generation

/-- Every generator writes, and acts alike on paths that may differ. -/
def Registry.Writes (paths : Prop) (r : Registry) : Prop :=
  ∀ g ∈ r.generators, g.body.Writes paths

/-- Every generator only writes, and paths of open slots make no difference to what it does. -/
def Registry.WritesOnly (r : Registry) : Prop := r.Writes False

theorem Outcome.Alike.eq {paths : Prop} {r r' : Except MixinError Unit}
    (h : Outcome.Alike paths r r') (told : paths) : r' = r := by
  cases r <;> cases r'
  · obtain ⟨hmixin, hfault, hpath⟩ := h
    rename_i e e'
    obtain ⟨mixin, path, fault⟩ := e
    obtain ⟨mixin', path', fault'⟩ := e'
    simp_all
  · exact h.elim
  · exact h.elim
  · rfl

theorem Op.answersAlike_true {o : Op} {a a' : o.Answer} (h : o.AnswersAlike True a a') :
    a' = a := by
  cases o with
  | mixin | mixinValue | mixinParam | closeSlot =>
    exact Prod.ext (h.1.eq trivial) h.2
  | slotPath | checkBalanced => exact h trivial
  | _ => exact h

/-- A writer that is told the same paths acts alike. -/
theorem Writer.similar_true (w : Writer) : w.Similar True w := by
  induction w with
  | done result =>
    refine .done ?_
    cases result
    · exact ⟨rfl, rfl, fun _ => rfl⟩
    · trivial
  | edit e next ih => exact .edit ih
  | editActive e next ih => exact .editActive ih
  | mixin name args next ih => exact .mixin fun r r' h => h.eq trivial ▸ ih r
  | mixinValue value next ih => exact .mixinValue fun r r' h => h.eq trivial ▸ ih r
  | mixinParam key next ih => exact .mixinParam fun r r' h => h.eq trivial ▸ ih r
  | closeSlot next ih => exact .closeSlot fun r r' h => h.eq trivial ▸ ih r
  | observe o next ih => exact .observe (fun _ => rfl) ih
  | ask o next ih => exact .ask fun a a' h => Op.answersAlike_true h ▸ ih a

/-! ## Building writers -/

namespace Writer

/-- Goes on with the result of a writer, be it a failure or not. -/
def resume : Writer → (Except MixinError Unit → Writer) → Writer
  | .done result, k => k result
  | .edit e next, k => .edit e (next.resume k)
  | .editActive e next, k => .editActive e (next.resume k)
  | .mixin name args next, k => .mixin name args fun r => (next r).resume k
  | .mixinValue value next, k => .mixinValue value fun r => (next r).resume k
  | .mixinParam key next, k => .mixinParam key fun r => (next r).resume k
  | .closeSlot next, k => .closeSlot fun r => (next r).resume k
  | .observe o next, k => .observe o (next.resume k)
  | .ask o next, k => .ask o fun answer => (next answer).resume k

/-- Goes on unless a writer fails. -/
def andThen (w next : Writer) : Writer :=
  w.resume fun
    | .ok _ => next
    | .error e => .done (.error e)

theorem program_resume (w : Writer) (k : Except MixinError Unit → Writer) (t : Tree) :
    (w.resume k).program t = (w.program t).bind fun (result, t) => (k result).program t := by
  induction w generalizing t with
  | done result => rfl
  | edit e next ih => exact ih _
  | editActive e next ih => exact congrArg (Program.op _) (funext fun t => ih t)
  | mixin name args next ih => exact congrArg (Program.op _) (funext fun out => ih _ _)
  | mixinValue value next ih => exact congrArg (Program.op _) (funext fun out => ih _ _)
  | mixinParam key next ih => exact congrArg (Program.op _) (funext fun out => ih _ _)
  | closeSlot next ih => exact congrArg (Program.op _) (funext fun out => ih _ _)
  | observe o next ih => exact congrArg (Program.op _) (funext fun _ => ih t)
  | ask o next ih => exact congrArg (Program.op _) (funext fun answer => ih answer t)

variable {paths : Prop}

theorem Similar.resume {w w' : Writer} (hw : w.Similar paths w')
    {k k' : Except MixinError Unit → Writer}
    (hk : ∀ r r', Outcome.Alike paths r r' → (k r).Similar paths (k' r')) :
    (w.resume k).Similar paths (w'.resume k') := by
  induction hw with
  | done result => exact hk _ _ result
  | edit next ih => exact .edit ih
  | editActive next ih => exact .editActive ih
  | mixin next ih => exact .mixin fun r r' h => ih r r' h
  | mixinValue next ih => exact .mixinValue fun r r' h => ih r r' h
  | mixinParam next ih => exact .mixinParam fun r r' h => ih r r' h
  | closeSlot next ih => exact .closeSlot fun r r' h => ih r r' h
  | observe told next ih => exact .observe told ih
  | ask next ih => exact .ask fun a a' h => ih a a' h

theorem Similar.andThen {w w' next next' : Writer} (hw : w.Similar paths w')
    (hnext : next.Similar paths next') : (w.andThen next).Similar paths (w'.andThen next') := by
  refine hw.resume fun r r' h => ?_
  cases r <;> cases r'
  · exact .done h
  · exact h.elim
  · exact h.elim
  · exact hnext

end Writer

end ShaderFront
