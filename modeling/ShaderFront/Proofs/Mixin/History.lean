import ShaderFront.Proofs.Mixin.Balance

/-!
# The history of an expansion

What all the generators of an expansion ask for, in the order in which it happens. An operation that
starts another generator is not in the history; what that generator does stands in its place.

The first failure of a history is what the expansion fails with, if the generators return what they
get and match their brackets (`Generator.Disciplined`). Whether the expansion is discarded is a
flag that the history sets and never clears.
-/

namespace ShaderFront

open SlotBracket

namespace Op

/-- The expansion that an operation asks for. -/
def request? (c : Context) : Op → Option (Tree × String × List ParamValue)
  | .mixin target name args => some (target, name, args)
  | .mixinValue target value => value.mixinName?.map fun name => (target, name, [])
  | .mixinParam target key => (c.param key).mixinName?.map fun name => (target, name, [])
  | _ => none

/-- How an operation fails that is given a value which names no mixin. -/
def nameless? (c : Context) : Op → Option MixinError
  | .mixinValue _ value => refusal "<value>" value
  | .mixinParam _ key => refusal key.name (c.param key)
  | _ => none
where
  refusal (key : String) (value : ParamValue) : Option MixinError :=
    if value.isUnset then some (c.fail (.missingParameter key))
    else if value.mixinName?.isNone then some (c.fail (.notAMixin value.display))
    else none

/-- The operation discards the expansion. -/
def discards : Op → Bool
  | .discard => true
  | _ => false

end Op

namespace Exchange

def nameless? (x : Exchange) : Option MixinError := x.op.nameless? x.before

def discards (x : Exchange) : Bool := x.op.discards

end Exchange

/-- What the generators do that an expansion starts, or nothing if it starts none. -/
abbrev Log := Tree → String → List ParamValue → Context → Option (List Exchange)

/-- What happens at an operation: the history of the generator that it starts, or the operation
itself. -/
def Op.history (setting : Setting) (call : Call) (log : Log) (o : Op) (c : Context) :
    List Exchange :=
  ((o.request? c).bind fun (target, name, args) => log target name args c).getD
    [⟨c, o, (o.run setting call c).1⟩]

/-- What happens in a run. -/
def Program.history (setting : Setting) (call : Call) (log : Log) {α : Type} :
    Program α → Context → List Exchange
  | .pure _, _ => []
  | .op o next, c =>
    let (answer, after) := o.run setting call c
    o.history setting call log c ++ (next answer).history setting call log after

/-- The generator that an expansion starts if there is a level left, and the state it is started
in. -/
def Setting.start? (setting : Setting) (name : String) (args : List ParamValue) (c : Context) :
    Option (Generator × Context) :=
  if c.discarded then none
  else
    match setting.registry.get? name with
    | none => none
    | some g =>
      match g.bindArguments args with
      | .error _ => none
      | .ok none => some (g, c)
      | .ok (some p) => some (g, c.pushParams p)

/-- The history of an expansion with so many levels left. -/
def Expansion.history (setting : Setting) : (levels : Nat) → Log
  | 0 => fun _ _ _ _ => none
  | levels + 1 => fun target name args c =>
    (setting.start? name args c).map fun (g, entered) =>
      (g.body.run.run (entered.active target)).history setting (expand setting levels)
        (history setting levels) (entered.enter g.name)

/-- The history of a whole expansion. -/
def Recipe.history (setting : Setting) (name : String) (p : Parameters) : List Exchange :=
  (Expansion.history setting setting.maxDepth .empty name [] (.start p)).getD []

/-- A generator returns the first failure it gets and no other. It never closes more slots than it
opened, and without a failure it closes all of them. -/
structure Generator.Disciplined (setting : Setting) (g : Generator) : Prop where
  returns : ∀ levels target c, let call := Expansion.expand setting levels
    Step.error? (g.result setting call target c) =
      (g.exchanges setting call target c).findSome? (·.failure?)
  covered : ∀ levels target c,
    ¬Overdrawn (Exchange.word (g.exchanges setting (Expansion.expand setting levels) target c))
  matched : ∀ levels target c, let call := Expansion.expand setting levels
    g.result setting call target c = .ok () →
      unmatched (Exchange.word (g.exchanges setting call target c)) = []

/-! ## The flag -/

/-- Exchanges of a run that starts with the flag at `discarded`: each finds the flag as those before
it left it, and once it is set, nothing fails but what is given a value that names no mixin. -/
def Exchange.Flagged : (discarded : Bool) → List Exchange → Prop
  | _, [] => True
  | discarded, x :: rest =>
    x.before.discarded = discarded ∧ (discarded = true → x.failure? = x.nameless?) ∧
      Flagged (discarded || x.discards) rest

namespace Exchange

theorem Flagged.append {discarded : Bool} {xs ys : List Exchange} (hx : Flagged discarded xs)
    (hy : Flagged (discarded || xs.any (·.discards)) ys) : Flagged discarded (xs ++ ys) := by
  induction xs generalizing discarded with
  | nil => simpa using hy
  | cons x xs ih =>
    obtain ⟨hbefore, hfailure, hrest⟩ := hx
    rw [List.any_cons, ← Bool.or_assoc] at hy
    exact ⟨hbefore, hfailure, ih hrest hy⟩

theorem Flagged.right {discarded : Bool} {xs ys : List Exchange}
    (h : Flagged discarded (xs ++ ys)) : Flagged (discarded || xs.any (·.discards)) ys := by
  induction xs generalizing discarded with
  | nil => simpa using h
  | cons x xs ih =>
    rw [List.any_cons, ← Bool.or_assoc]
    exact ih h.2.2

/-- Once the flag is set. -/
theorem Flagged.failures {xs : List Exchange} (h : Flagged true xs) :
    xs.findSome? (·.failure?) = xs.findSome? (·.nameless?) := by
  induction xs with
  | nil => rfl
  | cons x xs ih =>
    obtain ⟨-, hfailure, hrest⟩ := h
    rw [List.findSome?_cons, List.findSome?_cons, hfailure rfl, ih (by simpa using hrest)]

/-- A history tells of a run that finds the flag at `found` what it fails with and how it leaves the
flag. -/
structure Tells (history : List Exchange) (found : Bool) (failure : Option MixinError)
    (leaves : Bool) : Prop where
  fails : failure = history.findSome? (·.failure?)
  sets : leaves = (found || history.any (·.discards))
  flagged : Flagged found history

theorem Tells.append {xs ys : List Exchange} {found between leaves : Bool}
    {failure failure' : Option MixinError} (hx : Tells xs found failure between)
    (hy : Tells ys between failure' leaves) :
    Tells (xs ++ ys) found (failure.or failure') leaves := by
  refine ⟨?_, ?_, hx.flagged.append (hx.sets ▸ hy.flagged)⟩
  · rw [List.findSome?_append, ← hx.fails, ← hy.fails]
  · rw [hy.sets, hx.sets, List.any_append, Bool.or_assoc]

/-- An operation that starts no generator tells of itself. -/
theorem Tells.single {x : Exchange} {leaves : Bool}
    (hsets : leaves = (x.before.discarded || x.discards))
    (hfailure : x.before.discarded = true → x.failure? = x.nameless?) :
    Tells [x] x.before.discarded x.failure? leaves :=
  ⟨(List.findSome?_singleton ..).symm, by simpa using hsets, rfl, hfailure, trivial⟩

end Exchange

/-- A log tells of expansions that start a generator; the others leave the state alone, and succeed
if it is discarded. -/
structure Call.Told (call : Call) (log : Log) : Prop where
  idle : ∀ {target name args c}, log target name args c = none →
    (call target name args c).2 = c ∧
      (c.discarded = true → (call target name args c).1.1 = .ok ())
  started : ∀ {target name args c history}, log target name args c = some history →
    Exchange.Tells history c.discarded (Step.error? (call target name args c).1.1)
      (call target name args c).2.discarded

section Running

variable {setting : Setting} {call : Call} {log : Log} {c : Context}

/-- An operation that asks for an expansion answers what the expansion does. -/
theorem Op.run_of_request (setting : Setting) (call : Call) {o : Op} {target : Tree}
    {name : String} {args : List ParamValue} (h : o.request? c = some (target, name, args)) :
    (o.run setting call c).2 = (call target name args c).2 ∧
      o.failure? (o.run setting call c).1 = Step.error? (call target name args c).1.1 ∧
      o.nameless? c = none ∧ o.discards = false := by
  have named {value : ParamValue} (hname : value.mixinName? = some name) (into : Tree) :
      runMixinValue call into value c = call into name [] c ∧
        value.isUnset = false ∧ ∀ key, nameless?.refusal c key value = none := by
    have hset : value.isUnset = false := by cases value <;> first | rfl | cases hname
    simp [runMixinValue, nameless?.refusal, hset, hname]
  cases o <;> simp only [request?, Option.map_eq_some_iff, Prod.mk.injEq, reduceCtorEq] at h
  case mixin =>
    cases h
    exact ⟨rfl, rfl, rfl, rfl⟩
  case mixinValue into value =>
    obtain ⟨found, hname, rfl, rfl, rfl⟩ := h
    obtain ⟨hrun, -, hrefusal⟩ := named hname into
    simp only [run, failure?, nameless?, hrun, hrefusal]
    exact ⟨trivial, trivial, trivial, rfl⟩
  case mixinParam into key =>
    obtain ⟨found, hname, rfl, rfl, rfl⟩ := h
    obtain ⟨hrun, hset, hrefusal⟩ := named hname into
    simp only [run, runMixinParam, failure?, nameless?, hrun, hset, hrefusal]
    exact ⟨rfl, rfl, trivial, rfl⟩

/-- An operation that asks for no expansion. -/
theorem Op.run_of_no_request {o : Op} (h : o.request? c = none)
    (hclosing : o.bracket? = some .closing → o.failure? (o.run setting call c).1 = none) :
    (o.run setting call c).2.discarded = (c.discarded || o.discards) ∧
      (c.discarded = true → o.failure? (o.run setting call c).1 = o.nameless? c) := by
  have refused {value : ParamValue} (hname : value.mixinName? = none) (into : Tree) (key : String)
      (hkey : value.isUnset = true → key = "<value>") :
      (runMixinValue call into value c).2 = c ∧
        Step.error? (runMixinValue call into value c).1.1 = nameless?.refusal c key value := by
    unfold runMixinValue nameless?.refusal
    split
    · rename_i hunset
      rw [hkey hunset]
      exact ⟨rfl, rfl⟩
    · simp [hname, Step.error?]
  cases o with
  | mixin target name args => cases h
  | mixinValue into value =>
    rw [request?, Option.map_eq_none_iff] at h
    obtain ⟨hcontext, hfailure⟩ := refused h into "<value>" fun _ => rfl
    simp only [run, failure?, nameless?, hcontext, hfailure, discards]
    simp
  | mixinParam into key =>
    rw [request?, Option.map_eq_none_iff] at h
    simp only [run, runMixinParam, failure?, nameless?, discards, Bool.or_false]
    cases hunset : (c.param key).isUnset with
    | true => simp [nameless?.refusal, hunset, Step.error?]
    | false =>
      obtain ⟨hcontext, hfailure⟩ := refused h into key.name (by simp [hunset])
      simp [hcontext, hfailure]
  | closeSlot target =>
    refine ⟨?_, fun _ => hclosing rfl⟩
    simp only [run, Context.closeSlot, discards, Bool.or_false]
    split <;> simp
  | checkBalanced =>
    refine ⟨by simp [run, discards], fun hdiscarded => ?_⟩
    simp only [run, failure?, nameless?, Context.checkBalanced, hdiscarded]
    split <;> rfl
  | setParam key value =>
    refine ⟨?_, fun _ => rfl⟩
    simp only [run, Context.setParam, discards, Bool.or_false]
    split <;> rfl
  | popParams =>
    refine ⟨?_, fun _ => rfl⟩
    simp only [run, Context.popParams, discards, Bool.or_false]
    grind
  | editActive target edit => exact ⟨by simp [run, discards], fun _ => rfl⟩
  | discard => exact ⟨(Bool.or_true _).symm, fun _ => rfl⟩
  | param | pushParams | parameterDepth | openSlot | active | isDiscarded | depth | slotPath
  | maxDepth | mixinNames | observe => exact ⟨(Bool.or_false _).symm, fun _ => rfl⟩

/-- What happens at an operation tells of it. -/
theorem Op.run_told (setting : Setting) (told : call.Told log) (o : Op)
    (hclosing : o.bracket? = some .closing → o.failure? (o.run setting call c).1 = none) :
    Exchange.Tells (o.history setting call log c) c.discarded
      (o.failure? (o.run setting call c).1) (o.run setting call c).2.discarded := by
  let x : Exchange := ⟨c, o, (o.run setting call c).1⟩
  simp only [history]
  cases hrequest : o.request? c with
  | none =>
    obtain ⟨hdiscarded, hfailure⟩ := run_of_no_request hrequest hclosing
    exact Exchange.Tells.single (x := x) hdiscarded hfailure
  | some request =>
    obtain ⟨target, name, args⟩ := request
    obtain ⟨hafter, hfailure, hnamed, hdiscards⟩ := run_of_request setting call hrequest
    simp only [Option.bind_some]
    cases hlog : log target name args c with
    | none =>
      obtain ⟨hidle, hok⟩ := told.idle hlog
      refine Exchange.Tells.single (x := x) ?_ fun hdiscarded => ?_
      · rw [hafter, hidle]
        simp [x, Exchange.discards, hdiscards]
      · have hnone : x.nameless? = none := hnamed
        have hfailed : x.failure? = Step.error? (call target name args c).1.1 := hfailure
        rw [hnone, hfailed, hok hdiscarded]
        rfl
    | some history =>
      rw [hafter, hfailure]
      exact told.started hlog

/-- The history of a run tells of it, if its closings succeed. -/
theorem Program.run_told {α : Type} (setting : Setting) (told : call.Told log) (p : Program α)
    (hclosing : ∀ x ∈ p.exchanges setting call c,
      x.op.bracket? = some .closing → x.failure? = none) :
    Exchange.Tells (p.history setting call log c) c.discarded
      ((p.exchanges setting call c).findSome? (·.failure?))
      (p.run setting call c).2.discarded := by
  induction p generalizing c with
  | pure a => exact ⟨rfl, (Bool.or_false _).symm, trivial⟩
  | op o next ih =>
    have hfirst := Op.run_told setting told o (hclosing _ List.mem_cons_self)
    have hrest := ih (o.run setting call c).1 (c := (o.run setting call c).2)
      fun x hx => hclosing x (List.mem_cons_of_mem _ hx)
    have hfailure : ((Program.op o next).exchanges setting call c).findSome? (·.failure?) =
        (o.failure? (o.run setting call c).1).or
          (((next (o.run setting call c).1).exchanges setting call
            (o.run setting call c).2).findSome? (·.failure?)) := by
      rw [exchanges, List.findSome?_cons, Exchange.failure?]
      cases o.failure? (o.run setting call c).1 <;> rfl
    rw [hfailure]
    exact hfirst.append hrest

/-- A disciplined generator ends with what it returns: it has no slot open. -/
theorem Generator.Disciplined.ending {g : Generator} (h : g.Disciplined setting) (levels : Nat)
    (target : Tree) (c : Context) :
    let call := Expansion.expand setting levels
    Expansion.ending g.name (g.result setting call target c) (g.final setting call target c) =
      g.result setting call target c := by
  intro call
  unfold Expansion.ending
  cases hresult : g.result setting call target c with
  | error e => rfl
  | ok =>
    have hcall : call.Contained := Expansion.expand_contained levels
    have hopened := (final_standing setting hcall g target c).opened
    rw [h.matched levels target c hresult, List.reverse_eq_nil_iff, Context.labels,
      List.map_eq_nil_iff] at hopened
    rw [hopened]

/-- The history of a disciplined generator tells of it. -/
theorem Generator.Disciplined.invoke_told {g : Generator} (h : g.Disciplined setting) {levels : Nat}
    (told : (Expansion.expand setting levels).Told log) (target : Tree) (c : Context) :
    let call := Expansion.expand setting levels
    let out := Expansion.invoke setting call g target c
    Exchange.Tells ((g.body.run.run target).history setting call log (c.enter g.name))
      c.discarded (Step.error? out.1.1) out.2.discarded := by
  intro call out
  have hcall : call.Contained := Expansion.expand_contained levels
  have hrun := Program.run_told setting told (g.body.run.run target) (c := c.enter g.name)
    fun x hx => closing_ok hcall (List.append_nil _).symm (h.covered levels target c) hx
  have hresult : out.1.1 = g.result setting call target c := h.ending levels target c
  have hleft : out.2.discarded = (g.final setting call target c).discarded :=
    Context.discarded_leave _
  rw [hresult, h.returns levels target c, hleft]
  exact hrun

end Running

namespace Expansion

variable {setting : Setting} {call : Call} {name : String} {args : List ParamValue} {c : Context}

/-- An expansion that starts no generator. -/
theorem dispatch_idle {within : Option Call} (target : Tree)
    (h : within = none ∨ setting.start? name args c = none) :
    (dispatch setting within target name args c).2 = c ∧
      (c.discarded = true → (dispatch setting within target name args c).1.1 = .ok ()) := by
  unfold Setting.start? at h
  unfold dispatch
  split
  · exact ⟨rfl, fun _ => rfl⟩
  rename_i hdiscarded
  -- Whatever else keeps an expansion from starting fails it.
  have failed {e : MixinError} : (((.error e, target), c) : Outcome × Context).2 = c ∧
      (c.discarded = true → (((.error e, target), c) : Outcome × Context).1.1 = .ok ()) :=
    ⟨rfl, fun h => absurd h hdiscarded⟩
  split
  · exact failed
  rename_i g hfound
  split
  · exact failed
  rename_i call
  split
  · exact failed
  rename_i bound hbound
  obtain h | h := h
  · cases h
  · cases bound <;> simp [hdiscarded, hfound, hbound] at h

/-- An expansion that starts a generator. -/
theorem dispatch_start (call : Call) (target : Tree) {g : Generator} {entered : Context}
    (h : setting.start? name args c = some (g, entered)) :
    g ∈ setting.registry.generators ∧ entered.discarded = c.discarded ∧
      dispatch setting (some call) target name args c =
        ((invokeActive setting call g target entered).1,
          (invokeActive setting call g target entered).2.keepScopes c.scopes.length) := by
  unfold Setting.start? at h
  split at h
  · cases h
  rename_i hdiscarded
  split at h
  · cases h
  rename_i found hfound
  have hmem : found ∈ setting.registry.generators := List.mem_of_find?_eq_some hfound
  split at h
  · cases h
  all_goals
    rename_i hbound
    cases h
    refine ⟨hmem, rfl, ?_⟩
    simp only [dispatch, hdiscarded, hfound, hbound]
    rfl

/-- The history of an expansion tells of it, if all generators are disciplined. -/
theorem expand_told (disciplined : ∀ g ∈ setting.registry.generators, g.Disciplined setting)
    (levels : Nat) : (expand setting levels).Told (history setting levels) := by
  induction levels with
  | zero => exact ⟨fun _ => dispatch_idle _ (.inl rfl), nofun⟩
  | succ levels ih =>
    constructor
    · intro target name args c h
      exact dispatch_idle target (.inr (Option.map_eq_none_iff.1 h))
    · intro target name args c past h
      obtain ⟨⟨g, entered⟩, hstart, rfl⟩ := Option.map_eq_some_iff.1 h
      obtain ⟨hg, hdiscarded, hdispatch⟩ :=
        dispatch_start (expand setting levels) target hstart
      have htold := (disciplined g hg).invoke_told ih (entered.active target) entered
      rw [hdiscarded] at htold
      rw [expand, hdispatch]
      refine ⟨htold.fails, ?_, htold.flagged⟩
      rw [← htold.sets]
      exact Context.discarded_setActive ..

end Expansion
end ShaderFront
