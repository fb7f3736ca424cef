import Mathlib.Tactic.Choose
import ShaderFront.Mixin.Script
import ShaderFront.Proofs.Mixin.Writer

/-!
# Scripted generators only write

The steps of a script write to the tree and never look at it, but for one: noting down where the
expansion is notes down the classes of the tree as well. A script without that step is a writer.
-/

namespace ShaderFront

instance : LawfulMonad Program := LawfulMonad.mk' Program
  (fun p => Program.bind_pure_right p) (fun _ _ => rfl) (fun p f g => Program.bind_assoc p f g)

namespace Generation

variable {paths : Prop}

theorem writes_pure : Writes paths (pure ()) := ⟨.done (.ok ()), .done trivial, rfl⟩

/-- A change of the tree is an edit. -/
theorem writes_modify (e : Edit) : (modify e.apply).Writes paths :=
  ⟨.edit e (.done (.ok ())), .edit (.done trivial), rfl⟩

theorem writes_editActive (e : Edit) : (editActive e.apply).Writes paths :=
  ⟨.editActive e (.done (.ok ())), .editActive (.done trivial), rfl⟩

theorem writes_mixin (name : String) (args : List ParamValue) : (mixin name args).Writes paths :=
  ⟨.mixin name args .done, .mixin fun _ _ h => .done h, rfl⟩

theorem writes_mixinValue (value : ParamValue) : (mixinValue value).Writes paths :=
  ⟨.mixinValue value .done, .mixinValue fun _ _ h => .done h, rfl⟩

theorem writes_mixinParam (key : ParamKey) : (mixinParam key).Writes paths :=
  ⟨.mixinParam key .done, .mixinParam fun _ _ h => .done h, rfl⟩

theorem writes_closeSlot : closeSlot.Writes paths :=
  ⟨.closeSlot .done, .closeSlot fun _ _ h => .done h, rfl⟩

/-- Of two results the first failure counts, so both are alike if each of them is. -/
theorem both_alike {r r' s s' : Except MixinError Unit} (h : Outcome.Alike paths r r')
    (k : Outcome.Alike paths s s') : Outcome.Alike paths (both r s) (both r' s') := by
  cases r <;> cases r'
  · exact h
  · exact h.elim
  · exact h.elim
  · exact k

theorem writes_compose (kind : SlotKind) (slot name : String) :
    (compose kind slot name).Writes paths := by
  refine ⟨.ask (.openSlot kind slot .empty) fun _ => .mixin name [] fun expanded =>
    .closeSlot fun closed => .done (both expanded closed), ?_, rfl⟩
  exact .ask fun _ _ _ => .mixin fun _ _ h => .closeSlot fun _ _ k => .done (both_alike h k)

/-- Asking for what both sides have the same. -/
theorem writes_ask (o : Op) (same : ∀ a a', o.AnswersAlike paths a a' → a' = a)
    {f : o.Answer → Generation Unit} (h : ∀ a, (f a).Writes paths) :
    (ask o >>= f).Writes paths := by
  choose w hw hf using h
  refine ⟨.ask o w, .ask fun a a' halike => ?_, ?_⟩
  · rw [same a a' halike]
    exact hw a
  · rw [funext hf]
    rfl

/-- Two writers one after the other. -/
theorem writes_bind {g h : Generation Unit} (hg : g.Writes paths) (hh : h.Writes paths) :
    (do g; h).Writes paths := by
  obtain ⟨w, hw, rfl⟩ := hg
  obtain ⟨next, hnext, rfl⟩ := hh
  refine ⟨w.andThen next, hw.andThen hnext, funext fun t => ?_⟩
  show _ = (w.andThen next).program t
  rw [Writer.andThen, Writer.program_resume]
  refine congrArg (Program.bind (w.program t)) (funext fun (result, t) => ?_)
  cases result <;> rfl

/-- Noting down how a writer ended, and going on. -/
theorem writes_attempt {g : Generation Unit} (hg : g.Writes paths)
    {f : Except MixinError Unit → Observation}
    (told : ∀ r r', Outcome.Alike paths r r' → paths → f r' = f r) :
    Writes paths (do let result ← ExceptT.lift g.run; ask (.observe (f result))) := by
  obtain ⟨w, hw, rfl⟩ := hg
  refine ⟨w.resume fun result => .observe (f result) (.done (.ok ())),
    hw.resume fun r r' h => .observe (told r r' h) (.done trivial), funext fun t => ?_⟩
  show _ = (w.resume _).program t
  rw [Writer.program_resume]
  exact Program.bind_assoc (w.program t) _ _

end Generation

namespace Step

mutual

/-- The step does not look at the tree. -/
def writes : Step → Bool
  | .state => false
  | .ifTrue _ yes no => writesAll yes && writesAll no
  | .ifPositive _ yes no => writesAll yes && writesAll no
  | .attempt steps => writesAll steps
  | _ => true

def writesAll : List Step → Bool
  | [] => true
  | step :: rest => writes step && writesAll rest

end

variable {paths : Prop}

/-- Reading parameters. -/
theorem writes_values {f : List ParamValue → Generation Unit} (h : ∀ args, (f args).Writes paths)
    (keys : List ParamKey) : Generation.Writes paths (values keys >>= f) := by
  induction keys generalizing f with
  | nil => exact h []
  | cons key rest ih =>
    have hrest (value : ParamValue) :
        Generation.Writes paths (values rest >>= fun others => f (value :: others)) :=
      ih fun others => h (value :: others)
    have hask := Generation.writes_ask (.param key) (fun _ _ h => h) hrest
    simpa only [values, bind_assoc, pure_bind] using hask

/-- A writer may go by the values of parameters. -/
theorem writes_readParam {f : ParamValue → Generation Unit} (h : ∀ value, (f value).Writes paths)
    (key : ParamKey) : Generation.Writes paths (readParam key >>= f) := by
  have hask := Generation.writes_ask (.param key) (fun _ _ h => h)
    fun value => h ((value.read? key.kind).getD key.kind.default)
  simpa only [readParam, bind_assoc, pure_bind] using hask

theorem writes_readInt {f : Int64 → Generation Unit} (h : ∀ n, (f n).Writes paths)
    (key : ParamKey) : Generation.Writes paths (readInt key >>= f) := by
  simp only [readInt, bind_assoc]
  refine writes_readParam (fun value => ?_) key
  cases value <;> exact h _

theorem writes_readBool {f : Bool → Generation Unit} (h : ∀ b, (f b).Writes paths)
    (key : ParamKey) : Generation.Writes paths (readBool key >>= f) := by
  simp only [readBool, bind_assoc]
  refine writes_readParam (fun value => ?_) key
  cases value <;> exact h _

theorem writes_note (o : Observation) : Generation.Writes paths (note o) :=
  ⟨.observe o (.done (.ok ())), .observe (fun _ => rfl) (.done trivial), rfl⟩

mutual

/-- A step writes if nothing in it looks at slots or failures. -/
theorem writes_generation (step : Step) (h : writes step = true) :
    (generation step).Writes paths := by
  cases step with
  | addClass c => exact Generation.writes_modify (.addClass c)
  | addDefine name value => exact Generation.writes_modify (.addDefine name value)
  | addActiveClass c => exact Generation.writes_editActive (.addClass c)
  | addActiveDefine name value => exact Generation.writes_editActive (.addDefine name value)
  | classFrom name keys =>
    exact writes_values
      (fun args => Generation.writes_modify (.addClass ⟨name, args.map (·.display)⟩)) keys
  | mixin name args => exact Generation.writes_mixin name args
  | pass name keys => exact writes_values (fun args => Generation.writes_mixin name args) keys
  | mixinValue value => exact Generation.writes_mixinValue value
  | mixinParam key => exact Generation.writes_mixinParam key
  | compose kind slot name => exact Generation.writes_compose kind slot name
  | openSlot kind slot child =>
    exact Generation.writes_ask (.openSlot kind slot child) (fun _ _ h => h)
      fun _ => Generation.writes_pure
  | closeSlot => exact Generation.writes_closeSlot
  | discard => exact Generation.writes_ask .discard (fun _ _ h => h) fun _ => Generation.writes_pure
  | set key value =>
    exact Generation.writes_ask (.setParam key value) (fun _ _ h => h)
      fun _ => Generation.writes_pure
  | pushParams p =>
    exact Generation.writes_ask (.pushParams p) (fun _ _ h => h)
      fun _ => Generation.writes_pure
  | popParams =>
    exact Generation.writes_ask .popParams (fun _ _ h => h)
      fun popped => writes_note (.popped popped)
  | read key => exact writes_readParam (fun value => writes_note (.read key value)) key
  | raw key =>
    exact Generation.writes_ask (.param key) (fun _ _ h => h)
      fun value => writes_note (.raw key value)
  | state => exact absurd h (by simp [writes])
  | balanced =>
    exact ⟨.ask .checkBalanced fun result => .observe (.balanced (error? result)) (.done (.ok ())),
      .ask fun _ _ told => .observe (fun hp => by rw [told hp]) (.done trivial), rfl⟩
  | limit =>
    exact Generation.writes_ask .maxDepth (fun _ _ h => h) fun maxDepth =>
      Generation.writes_ask .mixinNames (fun _ _ h => h) fun names =>
        writes_note (.limit maxDepth names.length)
  | ifTrue key yes no =>
    simp only [writes, Bool.and_eq_true] at h
    refine writes_readBool (fun b => ?_) key
    cases b with
    | true => exact writes_generations yes h.1
    | false => exact writes_generations no h.2
  | ifPositive key yes no =>
    simp only [writes, Bool.and_eq_true] at h
    refine writes_readInt (fun n => ?_) key
    split
    · exact writes_generations yes h.1
    · exact writes_generations no h.2
  | decrement key =>
    refine writes_readInt (fun n => ?_) key
    exact Generation.writes_ask (.setParam key (.int (n - 1))) (fun _ _ h => h) fun _ =>
      Generation.writes_pure
  | attempt steps =>
    exact Generation.writes_attempt (writes_generations steps h) fun r r' halike hp =>
      by rw [halike.eq hp]

/-- **A script that does not note down where it is is a writer.** -/
theorem writes_generations (steps : List Step) (h : writesAll steps = true) :
    (generations steps).Writes paths := by
  cases steps with
  | nil => exact Generation.writes_pure
  | cons step rest =>
    simp only [writesAll, Bool.and_eq_true] at h
    exact Generation.writes_bind (writes_generation step h.1) (writes_generations rest h.2)

end

end Step
end ShaderFront
