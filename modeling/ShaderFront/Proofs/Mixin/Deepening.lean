import ShaderFront.Proofs.Mixin.Balance

/-!
# Raising the limit

Two runs of one expansion are compared, the second with more levels. They are in the same state
until the first comes to its limit, and that is a failure. A generator that returns the first
failure it gets then fails with it, and so does every caller, up to the outermost one.

What such a generator does after a failure may differ in the two runs: closing the slots it has open
is an example. So the failure is what is carried along (`Outcome.Deepens`), and not the states.
-/

namespace ShaderFront

/-- Mixins were nested too deeply, whatever the limit was. -/
def MixinError.IsLimit (e : MixinError) : Prop := ∃ limit, e.fault = .recursionLimit limit

/-- A generator returns the first failure it gets, and it does not ask for the limit. (It may ask
how deep it is: that is the same under every limit.) -/
structure Generator.Forthright (registry : Registry) (g : Generator) : Prop where
  returns : ∀ maxDepth levels target c,
    let setting : Setting := ⟨registry, maxDepth⟩
    let call := Expansion.expand setting levels
    ∀ e, (g.exchanges setting call target c).findSome? (·.failure?) = some e →
      g.result setting call target c = .error e
  unaware : ∀ maxDepth levels target c,
    let setting : Setting := ⟨registry, maxDepth⟩
    ∀ x ∈ g.exchanges setting (Expansion.expand setting levels) target c, x.op ≠ .maxDepth

/-- Where the first of two runs fails, the second fails in the same way, unless it was at its
limit that the first one failed. -/
def Failure.Deepens (failure failure' : Option MixinError) : Prop :=
  ∃ e, failure = some e ∧ (failure' = some e ∨ e.IsLimit)

/-- Two runs end in the same state, or they fail. -/
def Outcome.Deepens (out out' : Outcome × Context) : Prop :=
  out' = out ∨ Failure.Deepens (Step.error? out.1.1) (Step.error? out'.1.1)

/-- Every expansion that runs the second way ends as it does the first way, or they fail. -/
def Call.Deepens (call call' : Call) : Prop :=
  ∀ target name args c, Outcome.Deepens (call target name args c) (call' target name args c)

section Running

variable {registry : Registry} {d d' : Nat} {call call' : Call} {c : Context}

/-- With a deeper call below it, an operation ends as before, unless it met the limit. -/
theorem Op.runMixinValue_deepens (hcall : call.Deepens call') (target : Tree) (value : ParamValue)
    (c : Context) :
    Outcome.Deepens (runMixinValue call target value c) (runMixinValue call' target value c) := by
  unfold runMixinValue
  split
  · exact .inl rfl
  · split
    · exact hcall ..
    · exact .inl rfl

/-- One operation. -/
theorem Op.run_deepens (hcall : call.Deepens call') {o : Op} (ho : o ≠ .maxDepth) (c : Context) :
    let out := o.run ⟨registry, d⟩ call c
    let out' := o.run ⟨registry, d'⟩ call' c
    out' = out ∨ Failure.Deepens (o.failure? out.1) (o.failure? out'.1) := by
  cases o with
  | maxDepth => exact absurd rfl ho
  | mixin target name args => exact hcall target name args c
  | mixinValue target value => exact runMixinValue_deepens hcall target value c
  | mixinParam target key =>
    simp only [run, runMixinParam, failure?]
    split
    · exact .inl rfl
    · exact runMixinValue_deepens hcall target _ c
  | _ => exact .inl rfl

variable (d') in
/-- A run goes through the same states until something fails. -/
theorem Program.run_deepens {α : Type} (hcall : call.Deepens call') (p : Program α)
    (unaware : ∀ x ∈ p.exchanges ⟨registry, d⟩ call c, x.op ≠ .maxDepth) :
    p.run ⟨registry, d'⟩ call' c = p.run ⟨registry, d⟩ call c ∨
      Failure.Deepens ((p.exchanges ⟨registry, d⟩ call c).findSome? (·.failure?))
        ((p.exchanges ⟨registry, d'⟩ call' c).findSome? (·.failure?)) := by
  induction p generalizing c with
  | pure a => exact .inl rfl
  | op o next ih =>
    obtain ⟨ho, hnext⟩ := List.forall_mem_cons.1 unaware
    simp only [run, exchanges, List.findSome?_cons, Exchange.failure?]
    obtain heq | ⟨e, hfirst, hsecond⟩ := Op.run_deepens hcall ho c
    · rw [heq]
      obtain hrest | hrest := ih _ hnext
      · exact .inl hrest
      · cases hfailure : o.failure? (o.run ⟨registry, d⟩ call c).1 with
        | some e => exact .inr ⟨e, rfl, .inl rfl⟩
        | none => exact .inr hrest
    · rw [hfirst]
      refine .inr ⟨e, rfl, hsecond.imp_left fun hsecond => ?_⟩
      rw [hsecond]

/-- A failure of a generator stays what it is. -/
theorem Expansion.invoke_of_error {setting : Setting} {g : Generator} {target : Tree}
    {e : MixinError} (h : g.result setting call target c = .error e) :
    Step.error? (invoke setting call g target c).1.1 = some e := by
  have hout : (invoke setting call g target c).1.1 =
      ending g.name (g.result setting call target c) (g.final setting call target c) := rfl
  rw [hout, h]
  rfl

/-- A generator. -/
theorem Expansion.invoke_deepens {levels levels' : Nat} {g : Generator}
    (forthright : g.Forthright registry)
    (hcall : (expand ⟨registry, d⟩ levels).Deepens (expand ⟨registry, d'⟩ levels'))
    (target : Tree) (c : Context) :
    Outcome.Deepens (invoke ⟨registry, d⟩ (expand ⟨registry, d⟩ levels) g target c)
      (invoke ⟨registry, d'⟩ (expand ⟨registry, d'⟩ levels') g target c) := by
  obtain heq | ⟨e, hfirst, hsecond⟩ := Program.run_deepens d' hcall
    (g.body.run.run target) (forthright.unaware d levels target c)
  · left
    simp only [invoke, heq]
  · refine .inr ⟨e, ?_, hsecond.imp_left fun hsecond => ?_⟩
    · exact invoke_of_error (forthright.returns d levels target c e hfirst)
    · exact invoke_of_error (forthright.returns d' levels' target c e hsecond)

/-- A generator on the active tree. -/
theorem Expansion.invokeActive_deepens {levels levels' : Nat} {g : Generator}
    (forthright : g.Forthright registry)
    (hcall : (expand ⟨registry, d⟩ levels).Deepens (expand ⟨registry, d'⟩ levels'))
    (target : Tree) (c : Context) :
    Outcome.Deepens (invokeActive ⟨registry, d⟩ (expand ⟨registry, d⟩ levels) g target c)
      (invokeActive ⟨registry, d'⟩ (expand ⟨registry, d'⟩ levels') g target c) := by
  obtain heq | hfails := invoke_deepens forthright hcall (c.active target) c
  · left
    simp only [invokeActive, heq]
  · exact .inr hfails

/-- Without a level left an expansion does as with levels, or it fails for that. -/
theorem Expansion.dispatch_none_deepens (registry : Registry) (d d' : Nat) (within : Option Call) :
    (dispatch ⟨registry, d⟩ none).Deepens (dispatch ⟨registry, d'⟩ within) := by
  intro target name args c
  unfold dispatch
  split
  · exact .inl rfl
  cases registry.get? name with
  | none => exact .inl rfl
  | some g => exact .inr ⟨_, rfl, .inr ⟨d, rfl⟩⟩

/-- An expansion that has a level left. -/
theorem Expansion.dispatch_some_deepens {levels levels' : Nat}
    (forthright : ∀ g ∈ registry.generators, g.Forthright registry)
    (hcall : (expand ⟨registry, d⟩ levels).Deepens (expand ⟨registry, d'⟩ levels')) :
    (expand ⟨registry, d⟩ (levels + 1)).Deepens (expand ⟨registry, d'⟩ (levels' + 1)) := by
  intro target name args c
  simp only [expand, dispatch]
  split
  · exact .inl rfl
  cases hg : registry.get? name with
  | none => exact .inl rfl
  | some g =>
    have hforthright := forthright g (List.mem_of_find?_eq_some hg)
    dsimp only
    cases g.bindArguments args with
    | error fault => exact .inl rfl
    | ok bound =>
      refine (invokeActive_deepens hforthright hcall target _).imp (fun heq => ?_) id
      simp only [heq]

/-- With more levels an expansion ends as it does with fewer, or they fail. -/
theorem Expansion.expand_deepens
    (forthright : ∀ g ∈ registry.generators, g.Forthright registry) (d d' : Nat) {levels : Nat} :
    ∀ {levels' : Nat}, levels ≤ levels' →
      (expand ⟨registry, d⟩ levels).Deepens (expand ⟨registry, d'⟩ levels') := by
  induction levels with
  | zero =>
    intro levels' _
    cases levels' with
    | zero => exact dispatch_none_deepens registry d d' none
    | succ levels' => exact dispatch_none_deepens registry d d' (some _)
  | succ levels ih =>
    intro levels' hle
    obtain ⟨levels', rfl⟩ := Nat.exists_eq_add_one_of_ne_zero (show levels' ≠ 0 by omega)
    exact dispatch_some_deepens forthright (ih (by omega))

end Running

/-! ## Scripts -/

/-- A program that returns the first failure it gets and does not ask for the limit. -/
structure Generation.Forthright (setting : Setting) (call : Call) {α : Type} (m : Generation α) :
    Prop where
  returns : ∀ t c e, ((m.run.run t).exchanges setting call c).findSome? (·.failure?) = some e →
    ((m.run.run t).run setting call c).1.1 = .error e
  unaware : ∀ t c, ∀ x ∈ (m.run.run t).exchanges setting call c, x.op ≠ .maxDepth

/-- A program that goes on with another one makes the exchanges of both. -/
theorem Program.exchanges_bind {α β : Type} (setting : Setting) (call : Call) (p : Program α)
    (f : α → Program β) (c : Context) :
    (p.bind f).exchanges setting call c = p.exchanges setting call c ++
      (f (p.run setting call c).1).exchanges setting call (p.run setting call c).2 := by
  induction p generalizing c with
  | pure a => rfl
  | op o next ih => exact congrArg (_ :: ·) (ih _ _)

namespace Generation

variable {setting : Setting} {call : Call} {α β : Type}

/-- Without operations. -/
theorem forthright_silent {m : Generation α}
    (h : ∀ t c, (m.run.run t).exchanges setting call c = []) : Forthright setting call m where
  returns t c e he := by simp [h] at he
  unaware t c x hx := by simp [h] at hx

/-- A single operation, of which a failure is returned. -/
theorem forthright_single {m : Generation α} (o : Tree → Op) (hlimit : ∀ t, o t ≠ .maxDepth)
    (hexchanges : ∀ t c, (m.run.run t).exchanges setting call c =
      [⟨c, o t, ((o t).run setting call c).1⟩])
    (hreturns : ∀ t c e, (o t).failure? ((o t).run setting call c).1 = some e →
      ((m.run.run t).run setting call c).1.1 = .error e) : Forthright setting call m where
  returns t c e he := by
    rw [hexchanges, List.findSome?_singleton] at he
    exact hreturns t c e he
  unaware t c x hx := by
    rw [hexchanges, List.mem_singleton] at hx
    rw [hx]
    exact hlimit t

theorem forthright_pure (a : α) : Forthright setting call (pure a) :=
  forthright_silent fun _ _ => rfl

theorem forthright_modify (f : Tree → Tree) : Forthright setting call (modify f) :=
  forthright_silent fun _ _ => rfl

/-- An operation that neither asks for the limit nor can fail leaves nothing to pass on. -/
theorem forthright_ask (o : Op) (hlimit : o ≠ .maxDepth)
    (hfailure : ∀ answer, o.failure? answer = none) : Forthright setting call (ask o) :=
  forthright_single (fun _ => o) (fun _ => hlimit) (fun _ _ => rfl)
    fun _ _ e he => by simp [hfailure] at he

theorem forthright_editActive (f : Tree → Tree) : Forthright setting call (editActive f) :=
  forthright_single (fun t => .editActive t f) (fun _ => nofun) (fun _ _ => rfl)
    fun _ _ e he => by simp [Op.failure?] at he

/-- A call whose failure is passed on. -/
theorem forthright_mixin (name : String) (args : List ParamValue) :
    Forthright setting call (mixin name args) :=
  forthright_single (fun t => .mixin t name args) (fun _ => nofun) (fun _ _ => rfl)
    fun _ _ _ he => Step.error?_eq_some.1 he

theorem forthright_mixinValue (value : ParamValue) :
    Forthright setting call (mixinValue value) :=
  forthright_single (fun t => .mixinValue t value) (fun _ => nofun) (fun _ _ => rfl)
    fun _ _ _ he => Step.error?_eq_some.1 he

theorem forthright_mixinParam (key : ParamKey) : Forthright setting call (mixinParam key) :=
  forthright_single (fun t => .mixinParam t key) (fun _ => nofun) (fun _ _ => rfl)
    fun _ _ _ he => Step.error?_eq_some.1 he

theorem forthright_closeSlot : Forthright setting call closeSlot :=
  forthright_single (fun t => .closeSlot t) (fun _ => nofun) (fun _ _ => rfl)
    fun _ _ _ he => Step.error?_eq_some.1 he

/-- The failure of the expansion comes before that of the closing. -/
theorem forthright_compose (kind : SlotKind) (slot name : String) :
    Forthright setting call (compose kind slot name) := by
  have hexchanges (t : Tree) (c : Context) :
      let opened := c.openSlot kind slot .empty
      let expanded := call t name [] opened
      let closed := expanded.2.closeSlot expanded.1.2
      ((compose kind slot name).run.run t).exchanges setting call c =
        [⟨c, .openSlot kind slot .empty, ()⟩, ⟨opened, .mixin t name [], expanded.1⟩,
          ⟨expanded.2, .closeSlot expanded.1.2, closed.1⟩] ∧
      (((compose kind slot name).run.run t).run setting call c).1.1 =
        both expanded.1.1 closed.1.1 := ⟨rfl, rfl⟩
  constructor
  · intro t c e he
    obtain ⟨hops, hresult⟩ := hexchanges t c
    rw [hops] at he
    rw [hresult]
    revert he
    cases call t name [] (c.openSlot kind slot .empty) with | _ out after
    obtain ⟨expanded, tree⟩ := out
    cases after.closeSlot tree with | _ out after
    obtain ⟨closed, tree⟩ := out
    cases expanded <;> cases closed <;>
      simp [Exchange.failure?, Op.failure?, Step.error?, both]
  · intro t c x hx
    rw [(hexchanges t c).1] at hx
    simp only [List.mem_cons, List.not_mem_nil, or_false] at hx
    intro hlimit
    obtain rfl | rfl | rfl := hx <;> cases hlimit

/-- One thing after the other: nothing comes after a failure. -/
theorem forthright_bind {m : Generation α} {f : α → Generation β}
    (hm : Forthright setting call m) (hf : ∀ a, Forthright setting call (f a)) :
    Forthright setting call (m >>= f) := by
  constructor
  · intro t c e he
    rw [program_bind, Program.exchanges_bind, List.findSome?_append] at he
    rw [program_bind, Program.run_bind]
    cases hfirst : ((m.run.run t).exchanges setting call c).findSome? (·.failure?) with
    | some first =>
      have hresult := hm.returns t c first hfirst
      rw [hfirst, Option.some_or, Option.some.injEq] at he
      subst he
      revert hresult
      cases (m.run.run t).run setting call c with | _ out after
      obtain ⟨result, tree⟩ := out
      rintro rfl
      rfl
    | none =>
      rw [hfirst, Option.none_or] at he
      revert he
      cases (m.run.run t).run setting call c with | _ out after
      obtain ⟨result, tree⟩ := out
      cases result with
      | error first => nofun
      | ok a => exact (hf a).returns tree after e
  · intro t c x hx
    rw [program_bind, Program.exchanges_bind, List.mem_append] at hx
    obtain hx | hx := hx
    · exact hm.unaware t c x hx
    · revert hx
      cases (m.run.run t).run setting call c with | _ out after
      obtain ⟨result, tree⟩ := out
      cases result with
      | error first => nofun
      | ok a => exact (hf a).unaware tree after x

end Generation

namespace Step

open Generation

mutual

/-- The step returns the failures it gets and does not ask for the limit. -/
def forthright : Step → Bool
  | .balanced | .limit | .attempt _ => false
  | .ifTrue _ yes no => forthrightAll yes && forthrightAll no
  | .ifPositive _ yes no => forthrightAll yes && forthrightAll no
  | _ => true

def forthrightAll : List Step → Bool
  | [] => true
  | step :: rest => forthright step && forthrightAll rest

end

variable {setting : Setting} {call : Call}

theorem forthright_note (o : Observation) : Forthright setting call (note o) :=
  forthright_ask (.observe o) nofun fun _ => rfl

theorem forthright_values (keys : List ParamKey) : Forthright setting call (values keys) := by
  induction keys with
  | nil => exact forthright_pure []
  | cons key rest ih =>
    exact forthright_bind (forthright_ask (.param key) nofun fun _ => rfl) fun value =>
      forthright_bind ih fun others => forthright_pure _

theorem forthright_readParam (key : ParamKey) : Forthright setting call (readParam key) :=
  forthright_bind (forthright_ask (.param key) nofun fun _ => rfl) fun _ => forthright_pure _

theorem forthright_readInt (key : ParamKey) : Forthright setting call (readInt key) :=
  forthright_bind (forthright_readParam key) fun value => by
    cases value <;> exact forthright_pure _

theorem forthright_readBool (key : ParamKey) : Forthright setting call (readBool key) :=
  forthright_bind (forthright_readParam key) fun value => by
    cases value <;> exact forthright_pure _

theorem forthright_noteState : Forthright setting call noteState := by
  refine forthright_bind (forthright_ask .depth nofun fun _ => rfl) fun depth => ?_
  refine forthright_bind (forthright_ask .slotPath nofun fun _ => rfl) fun path => ?_
  refine forthright_bind (forthright_ask .parameterDepth nofun fun _ => rfl) fun scopes => ?_
  refine forthright_bind (forthright_ask .isDiscarded nofun fun _ => rfl) fun discarded => ?_
  refine forthright_bind (forthright_silent fun _ _ => rfl) fun tree => ?_
  exact forthright_note _

mutual

/-- A step is forthright if it passes on each failure and does not ask for the limit. -/
theorem forthright_generation (step : Step) (h : forthright step = true) :
    Forthright setting call (generation step) := by
  cases step with
  | addClass | addDefine => exact forthright_modify _
  | addActiveClass | addActiveDefine => exact forthright_editActive _
  | classFrom name keys =>
    exact forthright_bind (forthright_values keys) fun _ => forthright_modify _
  | mixin name args => exact forthright_mixin name args
  | pass name keys =>
    exact forthright_bind (forthright_values keys) fun _ => forthright_mixin _ _
  | mixinValue value => exact forthright_mixinValue value
  | mixinParam key => exact forthright_mixinParam key
  | compose kind slot name => exact forthright_compose kind slot name
  | closeSlot => exact forthright_closeSlot
  | openSlot | discard | set | pushParams => exact forthright_ask _ nofun fun _ => rfl
  | popParams =>
    exact forthright_bind (forthright_ask .popParams nofun fun _ => rfl) fun _ => forthright_note _
  | read key => exact forthright_bind (forthright_readParam key) fun _ => forthright_note _
  | raw key =>
    exact forthright_bind (forthright_ask (.param key) nofun fun _ => rfl) fun _ =>
      forthright_note _
  | state => exact forthright_noteState
  | balanced | limit | attempt => cases h
  | ifTrue key yes no =>
    simp only [forthright, Bool.and_eq_true] at h
    refine forthright_bind (forthright_readBool key) fun b => ?_
    cases b with
    | true => exact forthright_generations yes h.1
    | false => exact forthright_generations no h.2
  | ifPositive key yes no =>
    simp only [forthright, Bool.and_eq_true] at h
    refine forthright_bind (forthright_readInt key) fun n => ?_
    split
    · exact forthright_generations yes h.1
    · exact forthright_generations no h.2
  | decrement key =>
    exact forthright_bind (forthright_readInt key) fun n =>
      forthright_ask (.setParam key _) nofun fun _ => rfl

theorem forthright_generations (steps : List Step) (h : forthrightAll steps = true) :
    Forthright setting call (generations steps) := by
  cases steps with
  | nil => exact forthright_pure ()
  | cons step rest =>
    simp only [forthrightAll, Bool.and_eq_true] at h
    exact forthright_bind (forthright_generation step h.1) fun _ => forthright_generations rest h.2

end

end Step

/-- A script is forthright that does not attempt anything, and neither checks its balance nor notes
down the limit. -/
theorem Generator.scripted_forthright (registry : Registry) (name : String)
    (params : List ParamKey) {steps : List Step} (h : Step.forthrightAll steps = true) :
    (scripted name params steps).Forthright registry where
  returns _ _ target _ := (Step.forthright_generations steps h).returns target _
  unaware _ _ target _ := (Step.forthright_generations steps h).unaware target _

/-! ## Whole expansions -/

/-- **Raising the limit never changes an answer.** If no generator looks at the limit and each
returns the first failure it gets, then an expansion that does not fail for its limit gives the same
recipe under any higher limit, or the same error about the same mixin with the same path. -/
theorem Recipe.compile_deepens (registry : Registry)
    (forthright : ∀ g ∈ registry.generators, g.Forthright registry) (name : String)
    (p : Parameters) {d d' : Nat} (hle : d ≤ d')
    (within : ∀ e, (compile ⟨registry, d⟩ name p).1 = .error e → ∀ limit,
      e.fault ≠ .recursionLimit limit) :
    (compile ⟨registry, d'⟩ name p).1 = (compile ⟨registry, d⟩ name p).1 := by
  have failed {maxDepth : Nat} {e : MixinError}
      (h : Step.error? (Expansion.expand ⟨registry, maxDepth⟩ maxDepth .empty name []
        (.start p)).1.1 = some e) :
      (compile ⟨registry, maxDepth⟩ name p).1 = .error e := by
    have hcall : (Expansion.callIn ⟨registry, maxDepth⟩ (.start p) .empty name []
        (.start p)).1.1 = .error e := Step.error?_eq_some.1 h
    simp only [compile, hcall]
    rfl
  obtain heq | ⟨e, hfirst, hsecond⟩ :=
    Expansion.expand_deepens forthright d d' hle .empty name [] (.start p)
  · have hcall : Expansion.callIn ⟨registry, d'⟩ (.start p) .empty name [] (.start p) =
        Expansion.callIn ⟨registry, d⟩ (.start p) .empty name [] (.start p) := heq
    simp only [compile, hcall]
  · obtain hsecond | ⟨limit, hlimit⟩ := hsecond
    · rw [failed hfirst, failed hsecond]
    · exact absurd hlimit (within e (failed hfirst) limit)

/-- A chain of two mixins, the second in a slot. Two levels are enough for it, and more change
nothing. -/
theorem Recipe.compile_deepens_chain :
    let registry : Registry := ⟨[
      .scripted "Chain" [] [.addClass ⟨"Chain", []⟩, .compose .single "sub" "Leaf"],
      .scripted "Leaf" [] [.addClass ⟨"Leaf", []⟩]]⟩
    (∀ g ∈ registry.generators, g.Forthright registry) ∧
    (∀ e, (compile ⟨registry, 2⟩ "Chain" {}).1 = .error e → ∀ limit,
      e.fault ≠ .recursionLimit limit) ∧
    (compile ⟨registry, 5⟩ "Chain" {}).1 = (compile ⟨registry, 2⟩ "Chain" {}).1 := by
  intro registry
  have forthright : ∀ g ∈ registry.generators, g.Forthright registry := by
    intro g hg
    obtain rfl | rfl : g = _ ∨ g = _ := by simpa [registry] using hg
    · exact Generator.scripted_forthright registry "Chain" [] rfl
    · exact Generator.scripted_forthright registry "Leaf" [] rfl
  have within : ∀ e, (compile ⟨registry, 2⟩ "Chain" {}).1 = .error e → ∀ limit,
      e.fault ≠ .recursionLimit limit := by
    intro e he
    cases he
  exact ⟨forthright, within,
    compile_deepens registry forthright "Chain" {} (by decide) within⟩

end ShaderFront
