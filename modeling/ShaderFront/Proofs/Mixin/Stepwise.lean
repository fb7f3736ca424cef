import Mathlib.Logic.Relation
import ShaderFront.Proofs.Mixin.Balance

/-!
# An expansion step by step

The expansion as a machine that knows nothing of levels. It has the context, the rest of the program
of the generator that runs, and what each of its callers will do next; at a request it compares the
depth of the context with the limit. Nothing in its definition bounds how often it steps.

The machine stops, and what it stops with is what `Recipe.compile` says (`Execution.runs`). By
induction on the levels below the limit, and for each number of levels on the rest of the program:
a request uses up a level, an operation a piece of the program.
-/

namespace ShaderFront

/-- How a request for an expansion is met: it is answered at once, or a generator is started. -/
inductive Setting.Response where
  | answer (result : Except MixinError Unit)
  | start (g : Generator) (entered : Context)

/-- How the request for an expansion is met in a context. -/
def Setting.respond (setting : Setting) (name : String) (args : List ParamValue) (c : Context) :
    Response :=
  if c.discarded then .answer (.ok ())
  else
    match setting.registry.get? name with
    | none => .answer (.error ⟨name, c.slotPath, .unknown⟩)
    | some g =>
      if setting.maxDepth ≤ c.depth then
        .answer (.error ⟨name, c.slotPath, .recursionLimit setting.maxDepth⟩)
      else
        match g.bindArguments args with
        | .error fault => .answer (.error ⟨g.name, c.slotPath, fault⟩)
        | .ok none => .start g c
        | .ok (some p) => .start g (c.pushParams p)

/-- What an operation does: it is done at once, or it asks for an expansion and waits. -/
inductive Act (α : Type) where
  | done (answer : α) (after : Context)
  | asks (target : Tree) (name : String) (args : List ParamValue) (reply : Outcome → α)

namespace Op

variable (setting : Setting)

/-- Asks for the mixin that a value names. -/
def actOnValue (target : Tree) (value : ParamValue) (c : Context) : Act Outcome :=
  if value.isUnset then .done (.error (c.fail (.missingParameter "<value>")), target) c
  else
    match value.mixinName? with
    | some name => .asks target name [] id
    | none => .done (.error (c.fail (.notAMixin value.display)), target) c

/-- What an operation does in a context. -/
def act (c : Context) : (o : Op) → Act o.Answer
  | .mixin target name args => .asks target name args id
  | .mixinValue target value => actOnValue target value c
  | .mixinParam target key =>
    if (c.param key).isUnset then .done (.error (c.fail (.missingParameter key.name)), target) c
    else actOnValue target (c.param key) c
  | .param key => .done (c.param key) c
  | .setParam key value => .done () (c.setParam key value)
  | .pushParams p => .done () (c.pushParams p)
  | .popParams => .done c.popParams.1 c.popParams.2
  | .parameterDepth => .done c.scopes.length c
  | .openSlot kind slot child => .done () (c.openSlot kind slot child)
  | .closeSlot target => .done (c.closeSlot target).1 (c.closeSlot target).2
  | .active target => .done (c.active target) c
  | .editActive target edit =>
    .done (c.setActive target (edit (c.active target))).1
      (c.setActive target (edit (c.active target))).2
  | .discard => .done () { c with discarded := true }
  | .isDiscarded => .done c.discarded c
  | .depth => .done c.depth c
  | .slotPath => .done c.slotPath c
  | .checkBalanced => .done c.checkBalanced c
  | .maxDepth => .done setting.maxDepth c
  | .mixinNames => .done setting.registry.names c
  | .observe o => .done () (c.observe o)

end Op

/-- A caller that waits for an expansion: which mixin it asked for and in how many scopes, the tree
it builds, and how it goes on. -/
structure Waiting where
  asked : String
  scopes : Nat
  target : Tree
  next : Outcome → Program Outcome

/-- A state of the machine. The callers are listed innermost first. -/
structure Execution where
  context : Context
  running : Program Outcome
  waiting : List Waiting := []

namespace Execution

/-- The state before anything has run: outside of all generators a mixin is asked for. -/
def start (name : String) (p : Parameters) : Execution :=
  ⟨.start p, .perform (.mixin .empty name []), []⟩

/-- One operation, or the return of a generator; nothing once the outermost expansion is over. -/
def step (setting : Setting) (x : Execution) : Option Execution :=
  match x.running, x.waiting with
  | .op o next, _ =>
    match o.act setting x.context with
    | .done answer after => some { x with context := after, running := next answer }
    | .asks target name args reply =>
      match setting.respond name args x.context with
      | .answer result => some { x with running := next (reply (result, target)) }
      | .start g entered =>
        some {
          context := entered.enter g.name
          running := g.body.run.run (entered.active target)
          waiting := ⟨g.name, x.context.scopes.length, target, next ∘ reply⟩ :: x.waiting }
  | .pure (result, tree), caller :: waiting =>
    let ended := x.context.leave.setActive caller.target tree
    let result := Expansion.ending caller.asked result x.context
    some ⟨ended.2.keepScopes caller.scopes, caller.next (result, ended.1), waiting⟩
  | .pure _, [] => none

/-- The machine comes from one state to another. -/
def Reaches (setting : Setting) : Execution → Execution → Prop :=
  Relation.ReflTransGen fun x y => x.step setting = some y

/-- The recipe that an outcome gives. -/
def recipe (name : String) (p : Parameters) (out : Outcome) (c : Context) :
    Except MixinError Recipe := do
  out.1
  c.checkBalanced
  return ⟨name, if c.discarded then .empty else out.2, p.toList, c.discarded⟩

/-- As many generators run as callers wait, and no more than the limit allows. -/
structure Bounded (setting : Setting) (x : Execution) : Prop where
  counted : x.context.depth = x.waiting.length
  bounded : x.context.depth ≤ setting.maxDepth

end Execution

/-! ## One operation -/

/-- What an operation comes to, given how expansions run. -/
def Act.run {α : Type} (call : Call) (c : Context) : Act α → α × Context
  | .done answer after => (answer, after)
  | .asks target name args reply =>
    (reply (call target name args c).1, (call target name args c).2)

section Operations

variable {setting : Setting} {name : String} {args : List ParamValue} {c : Context} {levels : Nat}

theorem Op.run_actOnValue (call : Call) (target : Tree) (value : ParamValue) (c : Context) :
    runMixinValue call target value c = (actOnValue target value c).run call c := by
  unfold runMixinValue actOnValue
  split
  · rfl
  · cases value.mixinName? <;> rfl

/-- An operation runs as it acts. -/
theorem Op.run_act (setting : Setting) (call : Call) (o : Op) (c : Context) :
    o.run setting call c = (o.act setting c).run call c := by
  cases o with
  | mixinValue target value => exact run_actOnValue call target value c
  | mixinParam target key =>
    simp only [run, runMixinParam, act]
    split
    · rfl
    · exact run_actOnValue call target _ c
  | _ => rfl

theorem Op.actOnValue_done {target : Tree} {value : ParamValue} {answer : Outcome}
    {after : Context} (h : actOnValue target value c = .done answer after) : after = c := by
  unfold actOnValue at h
  split at h
  · cases h; rfl
  · split at h <;> cases h
    rfl

/-- An operation that asks for nothing leaves the callers alone. -/
theorem Op.act_callers {o : Op} {answer : o.Answer} {after : Context}
    (h : o.act setting c = .done answer after) : after.callers = c.callers := by
  cases o with
  | mixin => cases h
  | mixinValue target value => rw [actOnValue_done h]
  | mixinParam target key =>
    simp only [act] at h
    split at h
    · cases h; rfl
    · rw [actOnValue_done h]
  | setParam key value => cases h; exact c.callers_setParam key value
  | popParams => cases h; exact c.popParams_keeps.1
  | closeSlot target =>
    cases h
    unfold Context.closeSlot
    split
    · rfl
    · exact Context.callers_setActive ..
  | editActive target edit => cases h; exact Context.callers_setActive ..
  | _ => cases h; rfl

/-- A generator is started only below the limit, and where it was asked for. -/
theorem Setting.respond_start {g : Generator} {entered : Context}
    (h : setting.respond name args c = .start g entered) :
    c.depth < setting.maxDepth ∧ entered.callers = c.callers := by
  unfold respond at h
  split at h
  · cases h
  split at h
  · cases h
  split at h
  · cases h
  rename_i hdepth
  split at h <;> cases h <;> exact ⟨Nat.lt_of_not_le hdepth, rfl⟩

/-- At the limit no generator is started. -/
theorem Setting.respond_limit (hdepth : c.depth = setting.maxDepth)
    (hname : setting.registry.contains name = true) (hdiscarded : c.discarded = false) :
    setting.respond name args c =
      .answer (.error ⟨name, c.slotPath, .recursionLimit setting.maxDepth⟩) := by
  obtain ⟨g, hg⟩ := Option.isSome_iff_exists.1 hname
  simp [respond, hdiscarded, hg, hdepth]

/-- What the response to a request comes to, given how the expansions of the generator run that it
starts. -/
def Setting.Response.run (setting : Setting) (call : Call) (target : Tree) (c : Context) :
    Response → Outcome × Context
  | .answer result => ((result, target), c)
  | .start g entered =>
    ((Expansion.invokeActive setting call g target entered).1,
      (Expansion.invokeActive setting call g target entered).2.keepScopes c.scopes.length)

/-- The depth tells whether there is a level left. -/
theorem Expansion.expand_respond (hlevels : c.depth + levels = setting.maxDepth) (target : Tree) :
    expand setting levels target name args c =
      (setting.respond name args c).run setting (expand setting (levels - 1)) target c := by
  have hexpand : expand setting levels =
      dispatch setting (if setting.maxDepth ≤ c.depth then none
        else some (expand setting (levels - 1))) := by
    cases levels with
    | zero => rw [if_pos (by omega)]; rfl
    | succ levels => rw [if_neg (by omega)]; rfl
  simp only [hexpand, dispatch, Setting.respond]
  cases c.discarded with
  | true => rfl
  | false =>
    cases setting.registry.get? name with
    | none => rfl
    | some g =>
      by_cases hdepth : setting.maxDepth ≤ c.depth
      · simp only [if_pos hdepth]
        rfl
      · simp only [if_neg hdepth]
        cases g.bindArguments args with
        | error fault => rfl
        | ok bound => cases bound <;> rfl

end Operations

/-! ## A whole run -/

namespace Execution

variable {setting : Setting}

/-- A step keeps count of the generators and stays within the limit. -/
theorem Bounded.step {x y : Execution} (h : x.Bounded setting) (hstep : x.step setting = some y) :
    y.Bounded setting := by
  obtain ⟨c, running, waiting⟩ := x
  obtain ⟨counted, bounded⟩ := h
  dsimp only at counted bounded
  cases running with
  | op o next =>
    simp only [Execution.step] at hstep
    split at hstep
    · rename_i hact
      cases hstep
      have hdepth : _ = c.depth := congrArg List.length (Op.act_callers hact)
      exact ⟨hdepth.trans counted, hdepth.trans_le bounded⟩
    · split at hstep
      · cases hstep
        exact ⟨counted, bounded⟩
      · rename_i g entered hstart
        cases hstep
        obtain ⟨hbelow, hcallers⟩ := Setting.respond_start hstart
        have hdepth : (entered.enter g.name).depth = c.depth + 1 := by
          rw [Context.depth_enter, Context.depth, hcallers, Context.depth]
        exact ⟨hdepth.trans (congrArg (· + 1) counted), hdepth.trans_le hbelow⟩
  | pure out =>
    cases waiting with
    | nil => cases hstep
    | cons caller waiting =>
      cases hstep
      let after := (c.leave.setActive caller.target out.2).2
      have hdepth : after.depth = waiting.length := by
        obtain ⟨f, rest, hcallers⟩ := List.exists_cons_of_length_eq_add_one counted
        have hlength : (f :: rest).length = waiting.length + 1 := hcallers ▸ counted
        simpa [after, Context.depth, Context.leave, hcallers] using hlength
      have hbelow : waiting.length + 1 ≤ setting.maxDepth := counted.symm.trans_le bounded
      exact ⟨hdepth, hdepth.trans_le (Nat.le_of_succ_le hbelow)⟩

theorem Bounded.start (name : String) (p : Parameters) : (start name p).Bounded setting :=
  ⟨rfl, Nat.zero_le _⟩

theorem Bounded.reaches {x y : Execution} (h : x.Bounded setting) (hreach : Reaches setting x y) :
    y.Bounded setting := by
  induction hreach with
  | refl => exact h
  | tail _ hstep ih => exact ih.step hstep

/-- The machine comes to the end of a program that runs in so many levels below the limit. -/
theorem reaches_run (levels : Nat) {c : Context} (hlevels : c.depth + levels = setting.maxDepth)
    (p : Program Outcome) (waiting : List Waiting) :
    let out := p.run setting (Expansion.expand setting levels) c
    Reaches setting ⟨c, p, waiting⟩ ⟨out.2, .pure out.1, waiting⟩ := by
  induction levels using Nat.strong_induction_on generalizing c p waiting with | _ levels deeper
  induction p generalizing c with
  | pure a => exact .refl
  | op o next ih =>
    have hrun := Op.run_act setting (Expansion.expand setting levels) o c
    cases hact : o.act setting c with
    | done answer after =>
      simp only [Program.run, hrun, hact, Act.run]
      have hdepth : after.depth = c.depth := congrArg List.length (Op.act_callers hact)
      have hstep : (⟨c, .op o next, waiting⟩ : Execution).step setting =
          some ⟨after, next answer, waiting⟩ := by
        simp only [step, hact]
      exact .head hstep (ih answer (by omega))
    | asks target name args reply =>
      have hcontained : Expansion.Contained args target c
          (Expansion.expand setting levels target name args c) := Expansion.expand_contained ..
      have hdepth : (Expansion.expand setting levels target name args c).2.depth = c.depth :=
        congrArg List.length hcontained.callers
      simp only [Program.run, hrun, hact, Act.run]
      refine .trans ?_ (ih _ (hdepth ▸ hlevels))
      simp only [Expansion.expand_respond hlevels]
      cases hrespond : setting.respond name args c with
      | answer result =>
        have hstep : (⟨c, .op o next, waiting⟩ : Execution).step setting =
            some ⟨c, next (reply (result, target)), waiting⟩ := by
          simp only [step, hact, hrespond]
        exact .single hstep
      | start g entered =>
        obtain ⟨hbelow, hcallers⟩ := Setting.respond_start hrespond
        have hentered : entered.depth = c.depth := congrArg List.length hcallers
        have hstep : (⟨c, .op o next, waiting⟩ : Execution).step setting =
            some ⟨entered.enter g.name, g.body.run.run (entered.active target),
              ⟨g.name, c.scopes.length, target, next ∘ reply⟩ :: waiting⟩ := by
          simp only [step, hact, hrespond]
        have hbody := deeper (levels - 1) (by omega) (c := entered.enter g.name)
          (by rw [Context.depth_enter]; omega) (g.body.run.run (entered.active target))
          (⟨g.name, c.scopes.length, target, next ∘ reply⟩ :: waiting)
        exact .head hstep (hbody.tail rfl)

/-- **Every expansion ends within its limit.** Whatever the generators ask for, and whether they ask
for each other or for themselves:

* the machine stops, with the recipe or the error that the expansion gives;
* in every state on the way as many generators run as callers wait, and they are no more than the
  limit allows;
* where there are as many, a request for a registered mixin is answered with an error about that
  mixin, unless the expansion is discarded; the tree, the context and the callers stay as they are.

The last holds of every context whether or not the machine comes to it. -/
theorem runs (setting : Setting) (name : String) (p : Parameters) :
    (∃ final out, Reaches setting (start name p) ⟨final, .pure out, []⟩ ∧
      Recipe.compile setting name p = (recipe name p out final, final.observations)) ∧
    (∀ x, Reaches setting (start name p) x →
      (x.context.depth = x.waiting.length ∧ x.context.depth ≤ setting.maxDepth) ∧
      ∀ o next target requested args reply, x.running = .op o next →
        o.act setting x.context = .asks target requested args reply →
        x.context.depth = setting.maxDepth → setting.registry.contains requested = true →
        x.context.discarded = false →
        let failure : MixinError :=
          ⟨requested, x.context.slotPath, .recursionLimit setting.maxDepth⟩
        x.step setting = some { x with running := next (reply (.error failure, target)) }) ∧
    ∀ c target requested args, c.depth = setting.maxDepth →
      setting.registry.contains requested = true → c.discarded = false →
      Expansion.callIn setting c target requested args c =
        ((.error ⟨requested, c.slotPath, .recursionLimit setting.maxDepth⟩, target), c) := by
  refine ⟨?_, fun x hx => ⟨?_, ?_⟩, ?_⟩
  · exact ⟨_, _, reaches_run setting.maxDepth (Nat.zero_add _) _ [], rfl⟩
  · have hbounded := (Bounded.start name p).reaches hx
    exact ⟨hbounded.counted, hbounded.bounded⟩
  · intro o next target requested args reply hrunning hact hdepth hname hdiscarded failure
    simp only [step, hrunning, hact, Setting.respond_limit hdepth hname hdiscarded]
    rfl
  · intro c target requested args hdepth hname hdiscarded
    have hlevels : c.depth + (setting.maxDepth - c.depth) = setting.maxDepth := by omega
    rw [Expansion.callIn, Expansion.expand_respond hlevels,
      Setting.respond_limit hdepth hname hdiscarded]
    rfl

/-- A generator that asks for itself, where no more than one may run. -/
def cyclic : Setting := ⟨⟨[.scripted "Cycle" [] [.mixin "Cycle" []]]⟩, 1⟩

/-- It is started once. What it asks for then fails, and so does the expansion. -/
theorem runs_cyclic :
    let inside := (Context.start {}).enter "Cycle"
    let failure : MixinError := ⟨"Cycle", "root", .recursionLimit 1⟩
    (∃ final out, Reaches cyclic (start "Cycle" {}) ⟨final, .pure out, []⟩ ∧
      recipe "Cycle" {} out final = .error failure) ∧
    Expansion.callIn cyclic inside .empty "Cycle" [] inside =
      ((.error failure, .empty), inside) := by
  intro inside failure
  obtain ⟨⟨final, out, hreach, hcompile⟩, -, hlimit⟩ := runs cyclic "Cycle" {}
  refine ⟨⟨final, out, hreach, ?_⟩, hlimit inside .empty "Cycle" [] rfl (by decide) rfl⟩
  have hfailed : (Recipe.compile cyclic "Cycle" {}).1 = .error failure := rfl
  rw [hcompile] at hfailed
  exact hfailed

end Execution

end ShaderFront
