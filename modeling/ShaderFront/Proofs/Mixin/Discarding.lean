import ShaderFront.Proofs.Mixin.History

/-!
# Discarded expansions

Once a generator has discarded the expansion, nothing is started any more and what is asked for
succeeds. The one thing that can still fail is to ask for the mixin that a value names when it names
none: the value is looked at before the flag.
-/

namespace ShaderFront
namespace Recipe

/-- **Once discarded, an expansion ends with an empty recipe**, unless a generator still asks for
the mixin of a value that names none. The first one to do so fails the expansion. -/
theorem compile_discarded (setting : Setting)
    (disciplined : ∀ g ∈ setting.registry.generators, g.Disciplined setting) (name : String)
    (p : Parameters) {before after : List Exchange} {x : Exchange}
    (hhistory : history setting name p = before ++ x :: after) (hx : x.discards = true)
    (hbefore : ∀ y ∈ before, y.failure? = none) :
    (compile setting name p).1 =
      match after.findSome? (·.nameless?) with
      | some e => .error e
      | none => .ok ⟨name, .empty, p.toList, true⟩ := by
  let out := Expansion.callIn setting (.start p) .empty name [] (.start p)
  have hstarted : Expansion.history setting setting.maxDepth .empty name [] (.start p) =
      some (before ++ x :: after) := by
    rw [history] at hhistory
    cases hlog : Expansion.history setting setting.maxDepth .empty name [] (.start p) with
    | none => simp [hlog] at hhistory
    | some past => rw [← hhistory, hlog, Option.getD_some]
  obtain ⟨hresult, hset, hflagged⟩ :
      Exchange.Tells (before ++ x :: after) false (Step.error? out.1.1) out.2.discarded :=
    (Expansion.expand_told disciplined setting.maxDepth).started hstarted
  have hdiscarded : out.2.discarded = true := by simp [hset, hx]
  have hnothing : x.failure? = none := by
    obtain ⟨c, o, answer⟩ := x
    cases o <;> first | rfl | cases hx
  -- What comes after the discard fails for one reason only.
  have hafter : after.findSome? (·.failure?) = after.findSome? (·.nameless?) := by
    have hright := hflagged.right.2.2
    rw [hx, Bool.or_true] at hright
    exact hright.failures
  rw [List.findSome?_append, List.findSome?_eq_none_iff.2 hbefore, Option.none_or,
    List.findSome?_cons, hnothing, hafter] at hresult
  have hbalanced : out.2.checkBalanced = .ok () := Expansion.callIn_balanced setting name p
  have hcompile : (compile setting name p).1 = out.1.1.bind fun _ => out.2.checkBalanced.bind
      fun _ => .ok ⟨name, if out.2.discarded then .empty else out.1.2, p.toList,
        out.2.discarded⟩ := rfl
  rw [hcompile, hbalanced, hdiscarded]
  cases hfailure : after.findSome? (·.nameless?) with
  | some e =>
    rw [hfailure] at hresult
    rw [Step.error?_eq_some.1 hresult]
    rfl
  | none =>
    rw [hfailure] at hresult
    rw [Step.error?_eq_none.1 hresult]
    rfl

/-- A generator that discards the expansion and then asks for the mixin of a value. -/
def skipping (value : ParamValue) : Generator := .scripted "Skip" [] [.discard, .mixinValue value]

theorem skipping_body (value : ParamValue) (target : Tree) :
    (skipping value).body.run.run target =
      (Program.perform .discard).bind fun _ => Program.perform (.mixinValue target value) := by
  refine congrArg (Program.op .discard) (funext fun _ => ?_)
  refine congrArg (Program.op (.mixinValue target value)) (funext fun answer => ?_)
  obtain ⟨result, tree⟩ := answer
  cases result <;> rfl

theorem skipping_disciplined (setting : Setting) (value : ParamValue) :
    (skipping value).Disciplined setting := by
  constructor
  · intro levels target c call
    simp only [Generator.result, Generator.exchanges, skipping_body]
    exact (List.findSome?_singleton ..).symm
  · intro levels target c
    simp only [Generator.exchanges, skipping_body]
    exact of_decide_eq_false rfl
  · intro levels target c call _
    simp only [Generator.exchanges, skipping_body]
    rfl

/-- The mixin that is asked for after the discard is not registered. -/
theorem compile_discarded_unknown :
    let value := ParamValue.string "Missing"
    let setting : Setting := ⟨⟨[skipping value]⟩, defaultMaxDepth⟩
    ∃ x y, history setting "Skip" (.ofList []) = [x, y] ∧ x.discards = true ∧
      (compile setting "Skip" (.ofList [])).1 = .ok ⟨"Skip", .empty, [], true⟩ := by
  intro value setting
  have disciplined : ∀ g ∈ setting.registry.generators, g.Disciplined setting := by
    intro g hg
    rw [List.mem_singleton.1 hg]
    exact skipping_disciplined setting value
  obtain ⟨x, y, hhistory, hx, hy⟩ : ∃ x y, history setting "Skip" (.ofList []) = [] ++ x :: [y] ∧
      x.discards = true ∧ y.nameless? = none := ⟨_, _, rfl, rfl, rfl⟩
  have hcompile := compile_discarded setting disciplined "Skip" (.ofList []) hhistory hx
    (List.forall_mem_nil _)
  rw [List.findSome?_singleton, hy] at hcompile
  exact ⟨x, y, hhistory, hx, hcompile⟩

/-- A value that is not set is refused after the discard as well. -/
theorem compile_discarded_unset :
    let setting : Setting := ⟨⟨[skipping .unset]⟩, defaultMaxDepth⟩
    (∀ g ∈ setting.registry.generators, g.Disciplined setting) ∧
      (∃ x y, history setting "Skip" (.ofList []) = [x, y] ∧ x.discards = true) ∧
      (compile setting "Skip" (.ofList [])).1 =
        .error ⟨"Skip", "root", .missingParameter "<value>"⟩ := by
  intro setting
  have hfails : (compile setting "Skip" (.ofList [])).1 =
      .error ⟨"Skip", "root", .missingParameter "<value>"⟩ := rfl
  have hhistory : ∃ x y, history setting "Skip" (.ofList []) = [x, y] ∧ x.discards = true :=
    ⟨_, _, rfl, rfl⟩
  refine ⟨fun g hg => ?_, hhistory, hfails⟩
  rw [List.mem_singleton.1 hg]
  exact skipping_disciplined setting .unset

end Recipe
end ShaderFront
