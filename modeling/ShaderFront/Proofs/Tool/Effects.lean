import ShaderFront.Proofs.Mixin.Additive
import ShaderFront.Proofs.Mixin.Arguments
import ShaderFront.Tool.Effects

/-!
# The effects are sound

Parameters choose mixins that the effects expand, and may choose the effects themselves. Whatever
they choose, an effect closes the slot it opens and passes on arguments of the kinds that are
declared, and it adds a class of its own before anything that was chosen is expanded.

`Effects.Progress` is what a running effect knows of itself, and `Effects.Sound` what a caller knows
of an expansion that has ended. The first is carried through the bodies of the effects by rules for
what they do, given the second for expansions one level deeper; so it does not matter which mixin a
parameter chooses, nor whether the choices form a cycle.
-/

namespace ShaderFront

/-- A slot that is put into a tree adds no class to it. -/
theorem OpenSlot.classes_attach (s : OpenSlot) (t : Tree) : (s.attach t).classes = t.classes := by
  obtain ⟨name, kind, child⟩ := s
  cases kind <;> rfl

theorem Context.active_of_slots_eq_nil {c : Context} (h : c.frame.slots = []) (t : Tree) :
    c.active t = t := by
  simp only [active, h]

/-- A typed read yields a value of the kind, whatever is bound. -/
theorem ParamValue.kind?_read (value : ParamValue) (kind : ParamKind) :
    ((value.read? kind).getD kind.default).kind? = some kind := by
  cases kind <;> cases value <;> rfl

namespace Effects

/-- How the effects may fail: a parameter names a mixin that there is not, does not name a mixin or
is not bound, or mixins are nested too deeply. -/
inductive Fails (limit : Nat) : MixinError → Prop where
  | unknown {name path : String} (missing : registry.contains name = false) :
    Fails limit ⟨name, path, .unknown⟩
  | missingParameter {path : String} :
    Fails limit ⟨toneMap.name, path, .missingParameter colorTransform.name⟩
  | notAMixin {name path found : String} (asks : name ∈ [toneMap.name, skyboxEffect.name]) :
    Fails limit ⟨name, path, .notAMixin found⟩
  | recursionLimit {name path : String} (registered : registry.contains name = true) :
    Fails limit ⟨name, path, .recursionLimit limit⟩

/-- A run that does not fail, except as the effects may, ends as `post` says. -/
def Ends {α : Type} (limit : Nat) (post : Tree → Context → Prop)
    (out : (Except MixinError α × Tree) × Context) : Prop :=
  match out.1.1 with
  | .ok _ => post out.1.2 out.2
  | .error e => Fails limit e

/-- The arguments are of the kinds that the mixin of a name declares, if there is one. -/
def Suits (name : String) (args : List ParamValue) : Prop :=
  ∀ g, registry.get? name = some g →
    args.length ≤ g.params.length ∧ ∀ i, FitsAt g.params args i

/-- The active tree has a class, unless the expansion was discarded. -/
def Filled (t : Tree) (c : Context) : Prop := c.discarded = false → (c.active t).classes ≠ []

/-- An expansion of a mixin with arguments that suit it fails only as the effects may, and fills the
active tree. -/
def Sound (limit : Nat) (call : Call) : Prop :=
  ∀ t name args c, Suits name args → Ends limit Filled (call t name args c)

/-- A program that is run in a state with `pre` ends in one with `post`. -/
def Leads (limit : Nat) (call : Call) {α : Type} (pre : Tree → Context → Prop) (m : Generation α)
    (post : Tree → Context → Prop) : Prop :=
  ∀ t c, pre t c → Ends limit post ((m.run.run t).run ⟨registry, limit⟩ call c)

/-- A state of a running effect with so many slots open. It has added a class to the tree it builds
if it is `built`, unless it was discarded. -/
structure Progress (mixin : String) (slots : Nat) (built : Prop) (t : Tree) (c : Context) :
    Prop where
  mixin : c.frame.mixin = mixin
  slots : c.frame.slots.length = slots
  built : built → c.discarded = false → t.classes ≠ []

/-! ## Arguments -/

theorem fitsAt_of_kinds {keys : List ParamKey} {args : List ParamValue}
    (h : args.map (·.kind?) = keys.map (some ·.kind)) (i : Nat) : FitsAt keys args i := by
  intro key value hkey hvalue
  have hi : (args.map (·.kind?))[i]? = (keys.map (some ·.kind))[i]? := by rw [h]
  rw [List.getElem?_map, List.getElem?_map, hkey, hvalue] at hi
  exact .inr (Option.some.inj hi)

/-- Arguments of the kinds of the parameters suit a mixin. -/
theorem suits_of_kinds {name : String} {args : List ParamValue} {g : Generator}
    (registered : registry.get? name = some g)
    (kinds : args.map (·.kind?) = g.params.map (some ·.kind)) : Suits name args := by
  intro g' hg'
  obtain rfl : g = g' := Option.some.inj (registered.symm.trans hg')
  have hlength := congrArg List.length kinds
  rw [List.length_map, List.length_map] at hlength
  exact ⟨hlength.le, fitsAt_of_kinds kinds⟩

theorem suits_nil (name : String) : Suits name [] :=
  fun _ _ => ⟨Nat.zero_le _, fun _ _ _ _ hvalue => nomatch hvalue⟩

/-! ## Rules -/

section Rules

variable {limit : Nat} {call : Call} {α β : Type} {pre mid post : Tree → Context → Prop}
variable {mixin : String} {slots : Nat} {built : Prop}

/-- A weaker condition holds at the end. -/
theorem Ends.mono {out : (Except MixinError α × Tree) × Context} (h : Ends limit mid out)
    (himp : ∀ t c, mid t c → post t c) : Ends limit post out := by
  obtain ⟨⟨result, t⟩, c⟩ := out
  cases result with
  | error e => exact h
  | ok a => exact himp t c h

theorem leads_pure (a : α) : Leads limit call pre (pure a) pre := fun _ _ h => h

/-- Two parts of a generator one after the other. -/
theorem leads_bind {m : Generation α} {f : α → Generation β} (hm : Leads limit call pre m mid)
    (hf : ∀ a, Leads limit call mid (f a) post) : Leads limit call pre (m >>= f) post := by
  intro t c h
  have hfirst := hm t c h
  rw [Generation.program_bind, Program.run_bind]
  revert hfirst
  cases (m.run.run t).run ⟨registry, limit⟩ call c with | _ out after
  obtain ⟨result, tree⟩ := out
  cases result with
  | error e => exact id
  | ok a => exact hf a tree after

theorem leads_param (key : ParamKey) : Leads limit call pre (Generation.ask (.param key)) pre :=
  fun _ _ h => h

/-- What comes after a typed read may rely on the kind of the value. -/
theorem leads_typed (key : ParamKey) {f : ParamValue → Generation α}
    (hf : ∀ value, value.kind? = some key.kind → Leads limit call pre (f value) post) :
    Leads limit call pre (typed key >>= f) post := by
  rw [typed, bind_assoc]
  refine leads_bind (leads_param key) fun value => ?_
  rw [pure_bind]
  exact hf _ (value.kind?_read key.kind)

theorem leads_displays (keys : List ParamKey) : Leads limit call pre (displays keys) pre := by
  induction keys with
  | nil => exact leads_pure []
  | cons key rest ih =>
    exact leads_bind (leads_param key) fun _ => leads_bind ih fun _ => leads_pure _

/-- When a class has been added, something is built. -/
theorem leads_modify {f : Tree → Tree} (adds : ∀ t, (f t).classes ≠ []) :
    Leads limit call (Progress mixin slots built) (Generation.modify f)
      (Progress mixin slots True) :=
  fun t _ h => ⟨h.mixin, h.slots, fun _ _ => adds t⟩

/-- A generator that discards the expansion has to build nothing. -/
theorem leads_discard :
    Leads limit call (Progress mixin slots built) (Generation.ask .discard)
      (Progress mixin slots True) :=
  fun _ _ h => ⟨h.mixin, h.slots, fun _ live => nomatch live⟩

theorem leads_openSlot (kind : SlotKind) (slot : String) (child : Tree) :
    Leads limit call (Progress mixin slots built) (Generation.ask (.openSlot kind slot child))
      (Progress mixin (slots + 1) built) :=
  fun _ _ h => ⟨h.mixin, congrArg (· + 1) h.slots, h.built⟩

/-- Closing the slot that was opened last does not fail, and keeps the classes. -/
theorem leads_closeSlot :
    Leads limit call (Progress mixin (slots + 1) built) Generation.closeSlot
      (Progress mixin slots built) := by
  intro t c h
  obtain ⟨s, rest, hslots⟩ := List.exists_cons_of_length_eq_add_one h.slots
  have hrest : rest.length = slots := by simpa [hslots] using h.slots
  change Ends limit _ (c.closeSlot t)
  unfold Context.closeSlot Context.setActive
  rw [hslots]
  cases rest with
  | nil =>
    refine ⟨h.mixin, hrest, fun hb live => ?_⟩
    exact (s.classes_attach t).symm ▸ h.built hb live
  | cons around rest => exact ⟨h.mixin, hrest, h.built⟩

/-- An expansion changes the tree that an effect builds only if no slot is open. -/
theorem Progress.expanded {t : Tree} {c : Context} (h : Progress mixin slots built t c)
    {args : List ParamValue} {out : Outcome × Context}
    (contained : Expansion.Contained args t c out) (sound : Ends limit Filled out) :
    Ends limit (Progress mixin slots (built ∨ slots = 0)) out := by
  obtain ⟨⟨result, tree⟩, after⟩ := out
  cases result with
  | error e => exact sound
  | ok u =>
    obtain ⟨new, htree, hframe⟩ := contained.active
    have houtline : after.frame.outline = c.frame.outline := by
      rw [hframe, Context.outline_setActive]
    have hslots : after.frame.slots.length = slots := by
      rw [← h.slots]
      simpa [Frame.outline] using congrArg (·.slots.length) houtline
    refine ⟨(congrArg (·.mixin) houtline).trans h.mixin, hslots, fun hb live => ?_⟩
    cases hs : c.frame.slots with
    | nil =>
      -- The active tree is the one that the effect builds.
      have hnone : slots = 0 := by rw [← h.slots, hs, List.length_nil]
      have hafter : after.frame.slots = [] := List.length_eq_zero_iff.1 (hslots.trans hnone)
      rw [← Context.active_of_slots_eq_nil hafter tree]
      exact sound live
    | cons s rest =>
      -- The expansion went into the slot.
      have hsome : slots ≠ 0 := by simp [← h.slots, hs]
      have hlive : c.discarded = false :=
        Bool.eq_false_iff.2 fun hd => Bool.eq_false_iff.1 live (contained.discarded hd)
      simp only [Context.setActive, hs] at htree
      exact htree ▸ h.built (hb.resolve_right hsome) hlive

variable (sound : Sound limit call) (contained : call.Contained)
include sound contained

/-- A mixin that an effect expands while it has no slot open adds a class to its tree. -/
theorem leads_mixin {name : String} {args : List ParamValue} (suits : Suits name args) :
    Leads limit call (Progress mixin 0 built) (Generation.mixin name args)
      (Progress mixin 0 True) := by
  intro t c h
  have hafter := h.expanded (contained t name args c) (sound t name args c suits)
  exact hafter.mono fun _ _ h => ⟨h.mixin, h.slots, fun _ => h.built (.inr rfl)⟩

/-- Nothing is known of the mixin that a value names, and nothing is lost. -/
theorem leads_mixinValue (asks : mixin ∈ [toneMap.name, skyboxEffect.name]) {value : ParamValue}
    (set : value.isUnset = false) :
    Leads limit call (Progress mixin slots built) (Generation.mixinValue value)
      (Progress mixin slots built) := by
  intro t c h
  change Ends limit _ (Op.runMixinValue call t value c)
  cases hname : value.mixinName? with
  | some name =>
    simp only [Op.runMixinValue, set, hname]
    have hafter := h.expanded (contained t name [] c) (sound t name [] c (suits_nil name))
    exact hafter.mono fun _ _ h => ⟨h.mixin, h.slots, fun hb => h.built (.inl hb)⟩
  | none =>
    simp only [Op.runMixinValue, set, hname]
    exact .notAMixin (h.mixin ▸ asks)

theorem leads_mixinParam :
    Leads limit call (Progress toneMap.name slots built) (Generation.mixinParam colorTransform)
      (Progress toneMap.name slots built) := by
  intro t c h
  change Ends limit _ (Op.runMixinParam call t colorTransform c)
  cases hset : (c.param colorTransform).isUnset with
  | true =>
    simp only [Op.runMixinParam, hset]
    change Fails limit ⟨c.frame.mixin, c.slotPath, .missingParameter colorTransform.name⟩
    rw [h.mixin]
    exact .missingParameter
  | false =>
    simp only [Op.runMixinParam, hset]
    exact leads_mixinValue sound contained (by simp) hset t c h

end Rules

/-! ## The effects -/

/-- The body of a generator adds a class and leaves no slot open. -/
def Builds (limit : Nat) (call : Call) (g : Generator) : Prop :=
  Leads limit call (Progress g.name 0 False) g.body (Progress g.name 0 True)

section Bodies

variable {limit : Nat} {call : Call}

/-- A generator of a single class. -/
theorem builds_shaderClass (name : String) (params : List ParamKey) :
    Builds limit call (shaderClass name params) :=
  leads_bind (leads_displays params) fun _ => leads_modify fun t => by simp [Tree.addClass]

theorem builds_classes (name first : String) (others : List String) :
    Builds limit call (classes name (first :: others)) :=
  leads_modify fun t => by simp [Tree.addClasses]

variable (sound : Sound limit call) (contained : call.Contained)
include sound contained

theorem builds_toneMap : Builds limit call toneMap := by
  refine leads_typed autoKey fun key hkey => leads_typed autoExposure fun exposure hexposure => ?_
  have suits : Suits "ToneMapShader" [key, exposure] :=
    suits_of_kinds rfl (by simp [shaderClass, hkey, hexposure])
  refine leads_bind (leads_mixin sound contained suits) fun _ => ?_
  refine leads_bind (leads_openSlot .single "ToneMapOperator" .empty) fun _ => ?_
  exact leads_bind (leads_mixinParam sound contained) fun _ => leads_closeSlot

theorem builds_skyboxEffect : Builds limit call skyboxEffect := by
  refine leads_bind (leads_mixin sound contained (suits_nil "SkyboxShader")) fun _ => ?_
  refine leads_bind (leads_param skybox) fun color => ?_
  cases hset : color.isUnset with
  | true => exact leads_pure ()
  | false =>
    have asks : skyboxEffect.name ∈ [toneMap.name, skyboxEffect.name] := by simp
    refine leads_bind (leads_openSlot .single "skyboxColor" .empty) fun _ => ?_
    exact leads_bind (leads_mixinValue sound contained asks hset) fun _ => leads_closeSlot

theorem builds_wireframe : Builds limit call wireframe := by
  refine leads_bind (leads_mixin sound contained (suits_nil "EffectBase")) fun _ => ?_
  refine leads_typed normalBackFace fun backFace hbackFace => ?_
  have suits : Suits "MaterialFrontBackBlendShader" [backFace] :=
    suits_of_kinds rfl (by simp [shaderClass, hbackFace])
  exact leads_mixin sound contained suits

theorem builds_blur : Builds limit call blur := by
  refine leads_typed blurCount fun count hcount => ?_
  cases isPositive count with
  | true =>
    refine leads_typed blurVertical fun vertical hvertical => ?_
    have suits : Suits "AmbientOcclusionBlurShader" [count, vertical] :=
      suits_of_kinds rfl (by simp [shaderClass, hcount, hvertical])
    exact leads_mixin sound contained suits
  | false => exact leads_discard

/-- All mixins of the demonstration build something, or discard the expansion. -/
theorem builds_generators : ∀ g ∈ generators, Builds limit call g := by
  simp [generators, builds_classes, builds_shaderClass, builds_toneMap sound contained,
    builds_skyboxEffect sound contained, builds_wireframe sound contained,
    builds_blur sound contained]

end Bodies

/-! ## Expansions -/

section Expansions

variable {limit : Nat} {call : Call}

/-- What a generator builds is there when its call ends. -/
theorem invoke_ends {g : Generator} (hg : Builds limit call g) (target : Tree) (c : Context) :
    Ends limit (fun t c => c.discarded = false → t.classes ≠ [])
      (Expansion.invoke ⟨registry, limit⟩ call g target c) := by
  have hbody := hg target (c.enter g.name) ⟨rfl, rfl, False.elim⟩
  unfold Expansion.invoke
  revert hbody
  cases (g.body.run.run target).run ⟨registry, limit⟩ call (c.enter g.name) with | _ out after
  obtain ⟨result, tree⟩ := out
  intro hbody
  cases result with
  | error e => exact hbody
  | ok u =>
    have hslots : after.frame.slots = [] := List.length_eq_zero_iff.1 hbody.slots
    simp only [hslots]
    exact fun live => hbody.built trivial ((Context.discarded_leave after).symm.trans live)

/-- The caller finds in its active tree what the generator built. -/
theorem invokeActive_ends {g : Generator} (hg : Builds limit call g) (target : Tree) (c : Context)
    (size : Nat) :
    Ends limit Filled
      ((Expansion.invokeActive ⟨registry, limit⟩ call g target c).1,
        (Expansion.invokeActive ⟨registry, limit⟩ call g target c).2.keepScopes size) := by
  have hinvoke := invoke_ends hg (c.active target) c
  unfold Expansion.invokeActive
  revert hinvoke
  cases Expansion.invoke ⟨registry, limit⟩ call g (c.active target) c with | _ out after
  obtain ⟨result, tree⟩ := out
  intro hinvoke
  cases result with
  | error e => exact hinvoke
  | ok u =>
    intro live
    have hactive := Context.active_setActive after target tree
    have hlive := (Context.discarded_setActive after target tree).symm.trans live
    exact hactive.symm ▸ hinvoke hlive

theorem sound_dispatch {within : Option Call}
    (hwithin : ∀ call ∈ within, Sound limit call ∧ call.Contained) :
    Sound limit (Expansion.dispatch ⟨registry, limit⟩ within) := by
  intro target name args c suits
  cases hd : c.discarded with
  | true =>
    simp only [Expansion.dispatch, hd]
    intro live
    cases hd.symm.trans live
  | false =>
    cases hg : registry.get? name with
    | none =>
      simp only [Expansion.dispatch, hd, hg]
      exact .unknown (by simp [Registry.contains, hg])
    | some g =>
      cases within with
      | none =>
        simp only [Expansion.dispatch, hd, hg]
        exact .recursionLimit (by simp [Registry.contains, hg])
      | some call =>
        obtain ⟨sound, contained⟩ := hwithin call rfl
        obtain ⟨few, fits⟩ := suits g hg
        have hstart : Setting.start? ⟨registry, limit⟩ name args c = some (g, _) :=
          Expansion.start?_of_fits hg hd few fits
        obtain ⟨hmem, -, hdispatch⟩ := Expansion.dispatch_start call target hstart
        rw [hdispatch]
        exact invokeActive_ends (builds_generators sound contained g hmem) target _ _

/-- However many levels are left. -/
theorem sound_expand (limit levels : Nat) :
    Sound limit (Expansion.expand ⟨registry, limit⟩ levels) := by
  induction levels with
  | zero => exact sound_dispatch (by simp)
  | succ levels ih =>
    exact sound_dispatch (by simpa using ⟨ih, Expansion.expand_contained levels⟩)

end Expansions

/-- **The effects are sound**, whatever the parameters are and whatever mixins they name. An
expansion fails only because a mixin that is named is not registered, because a value that should
name a mixin does not or is not there, or because mixins are nested too deeply. No effect leaves a
slot open, closes one too many, or passes on an argument that is refused. If an expansion succeeds
and is not discarded, its tree has a class. -/
theorem compile_sound (maxDepth : Nat) (name : String) (p : Parameters) :
    match (Recipe.compile ⟨registry, maxDepth⟩ name p).1 with
    | .ok recipe => recipe.discarded = true ∨ recipe.tree.classes ≠ []
    | .error e => Fails maxDepth e := by
  have hroot : Progress "root" 0 False .empty (.start p) := ⟨rfl, rfl, False.elim⟩
  have hends : Ends maxDepth (Progress "root" 0 (False ∨ 0 = 0))
      (Expansion.callIn ⟨registry, maxDepth⟩ (.start p) .empty name [] (.start p)) :=
    hroot.expanded (Expansion.expand_contained _ _ _ _ _)
      (sound_expand maxDepth _ .empty name [] (.start p) (suits_nil name))
  rw [Recipe.compile_eq]
  revert hends
  cases Expansion.callIn ⟨registry, maxDepth⟩ (.start p) .empty name [] (.start p) with | _ out c
  obtain ⟨result, tree⟩ := out
  intro hends
  cases result with
  | error e => exact hends
  | ok u =>
    cases hd : c.discarded with
    | true => exact .inl rfl
    | false => exact .inr (hends.built (.inr rfl) hd)

/-- A tone map that chooses itself as its operator. -/
example : (Recipe.compile ⟨registry, 2⟩ "ToneMapEffect"
    (.ofList [(colorTransform, .mixin "ToneMapEffect")])).1.map (·.name) =
      .error ⟨"ToneMapShader", "root/ToneMapOperator", .recursionLimit 2⟩ := rfl

end Effects
end ShaderFront
