import ShaderFront.Mixin.Expansion

/-!
# What an expansion leaves as it was

A generator may open and close slots and scopes in any order, and it may stop at an error half way.
Still an expansion gives its caller back the frames and the scopes it found, and of all trees at
hand only the active one may differ.

`Context.Within` is what a running generator keeps of the state it was started in, whatever it does
next. `Expansion.Contained` is what its caller sees when it has ended. The first is carried through
a program operation by operation, given the second for expansions one level deeper; the second
follows for every level by induction.
-/

namespace ShaderFront

/-- A frame without the trees in its slots. -/
structure FrameOutline where
  mixin : String
  scopeFloor : Nat
  slots : List (String × SlotKind)

/-- What a frame is apart from the trees in its slots. -/
def Frame.outline (f : Frame) : FrameOutline :=
  ⟨f.mixin, f.scopeFloor, f.slots.map fun s => (s.name, s.kind)⟩

/-- `c` is a state of the generator that was started in the state `base`. Frames below its own are
untouched. Scopes below its own are untouched as well, but for bindings in the innermost one it was
given. -/
structure Context.Within (base c : Context) : Prop where
  callers : c.callers = base.callers
  floor : c.frame.scopeFloor = base.scopes.length
  size : base.scopes.length ≤ c.scopes.length
  below : base.scopes.tail <:+ c.scopes.tail
  discarded : base.discarded = true → c.discarded = true

/-- What the expansion of a mixin with arguments `args` leaves as it was: all frames, and all trees
but the active one; the number of scopes, and all of them but the innermost one, which only an
expansion without arguments may bind in. A discarded expansion stays discarded. -/
structure Expansion.Contained (args : List ParamValue) (target : Tree) (c : Context)
    (out : Outcome × Context) : Prop where
  callers : out.2.callers = c.callers
  active : ∃ new, out.1.2 = (c.setActive target new).1 ∧
    out.2.frame = (c.setActive target new).2.frame
  size : out.2.scopes.length = c.scopes.length
  below : out.2.scopes.tail = c.scopes.tail
  bound : args ≠ [] → out.2.scopes = c.scopes
  discarded : c.discarded = true → out.2.discarded = true

/-- Every expansion that runs this way is contained. -/
def Call.Contained (call : Call) : Prop :=
  ∀ target name args c, Expansion.Contained args target c (call target name args c)

namespace Context

/-- Putting the active tree back changes nothing. -/
theorem setActive_active (c : Context) (target : Tree) :
    c.setActive target (c.active target) = (target, c) := by
  obtain ⟨scopes, ⟨mixin, slots, floor⟩, callers, discarded, observations⟩ := c
  cases slots <;> rfl

@[simp] theorem callers_setActive (c : Context) (target new : Tree) :
    (c.setActive target new).2.callers = c.callers := by
  unfold setActive
  split <;> rfl

@[simp] theorem scopes_setActive (c : Context) (target new : Tree) :
    (c.setActive target new).2.scopes = c.scopes := by
  unfold setActive
  split <;> rfl

@[simp] theorem discarded_setActive (c : Context) (target new : Tree) :
    (c.setActive target new).2.discarded = c.discarded := by
  unfold setActive
  split <;> rfl

@[simp] theorem scopeFloor_setActive (c : Context) (target new : Tree) :
    (c.setActive target new).2.frame.scopeFloor = c.frame.scopeFloor := by
  unfold setActive
  split <;> rfl

theorem outline_setActive (c : Context) (target new : Tree) :
    (c.setActive target new).2.frame.outline = c.frame.outline := by
  unfold setActive
  split
  · rename_i s rest hs
    simp [Frame.outline, hs]
  · rfl

/-- Replacing the active tree looks at the frame only. -/
theorem setActive_congr {c c' : Context} (h : c'.frame = c.frame) (target new : Tree) :
    (c'.setActive target new).1 = (c.setActive target new).1 ∧
      (c'.setActive target new).2.frame = (c.setActive target new).2.frame := by
  unfold setActive
  rw [h]
  split
  · exact ⟨rfl, rfl⟩
  · exact ⟨rfl, h⟩

namespace Within

variable {base c : Context}

/-- A generator starts out within its own call. -/
theorem enter (c : Context) (mixin : String) : Within (c.enter mixin) (c.enter mixin) :=
  ⟨rfl, rfl, Nat.le_refl _, List.suffix_rfl, id⟩

/-- A step that keeps the scopes and stays in the frame of the generator. -/
theorem step (h : Within base c) {d : Context} (callers : d.callers = c.callers)
    (floor : d.frame.scopeFloor = c.frame.scopeFloor) (size : d.scopes.length = c.scopes.length)
    (below : d.scopes.tail = c.scopes.tail) (discarded : c.discarded = true → d.discarded = true) :
    Within base d where
  callers := callers.trans h.callers
  floor := floor.trans h.floor
  size := size ▸ h.size
  below := below ▸ h.below
  discarded := fun hb => discarded (h.discarded hb)

/-- Binding a parameter opens and closes no scope. -/
theorem setParam (h : Within base c) (key : ParamKey) (value : ParamValue) :
    Within base (c.setParam key value) := by
  unfold Context.setParam
  split
  · exact h
  · rename_i p rest hs
    exact h.step rfl rfl (by simp [hs]) (by simp [hs]) id

theorem pushParams (h : Within base c) (p : Parameters) : Within base (c.pushParams p) where
  callers := h.callers
  floor := h.floor
  size := Nat.le_succ_of_le h.size
  below := h.below.trans (List.tail_suffix c.scopes)
  discarded := h.discarded

/-- The floor of the frame keeps a generator from closing a scope of its callers. -/
theorem popParams (h : Within base c) : Within base c.popParams.2 := by
  unfold Context.popParams
  split
  · rename_i p rest hs
    split
    · rename_i above
      have hfloor := h.floor
      have hbelow : base.scopes.tail <:+ rest := by simpa [hs] using h.below
      rw [hs, List.length_cons] at above
      have hsize : base.scopes.length ≤ rest.length := by omega
      refine ⟨h.callers, h.floor, hsize, ?_, h.discarded⟩
      refine List.suffix_of_suffix_length_le hbelow (List.tail_suffix rest) ?_
      simp only [List.length_tail]
      omega
    · exact h
  · exact h

theorem setActive (h : Within base c) (target new : Tree) :
    Within base (c.setActive target new).2 :=
  h.step (by simp) (by simp) (by simp) (by simp) (by simp)

/-- A slot that is closed was opened by the running generator. -/
theorem closeSlot (h : Within base c) (target : Tree) : Within base (c.closeSlot target).2 := by
  unfold Context.closeSlot
  split
  · exact h
  · rename_i s rest hs
    let d : Context := { c with frame := { c.frame with slots := rest } }
    have hd : Within base d := h.step rfl rfl rfl rfl id
    exact hd.setActive target (s.attach (d.active target))

/-- An expansion that the generator asks for. -/
theorem call (h : Within base c) {args : List ParamValue} {target : Tree} {out : Outcome × Context}
    (contained : Expansion.Contained args target c out) : Within base out.2 := by
  obtain ⟨new, -, hframe⟩ := contained.active
  exact h.step contained.callers (by rw [hframe, scopeFloor_setActive]) contained.size
    contained.below contained.discarded

end Within
end Context

/-- Nothing happens but an answer. -/
theorem Expansion.Contained.unchanged (args : List ParamValue) (target : Tree) (c : Context)
    (result : Except MixinError Unit) : Contained args target c ((result, target), c) where
  callers := rfl
  active := ⟨c.active target, by rw [c.setActive_active]; exact ⟨rfl, rfl⟩⟩
  size := rfl
  below := rfl
  bound := fun _ => rfl
  discarded := id

/-! ## Running a generator -/

section Running

variable {setting : Setting} {call : Call}

theorem Op.runMixinValue_contained (hcall : call.Contained) (target : Tree) (value : ParamValue)
    (c : Context) : Expansion.Contained [] target c (Op.runMixinValue call target value c) := by
  have kept (fault : MixinFault) :
      Expansion.Contained [] target c ((.error (c.fail fault), target), c) :=
    .unchanged [] target c _
  unfold Op.runMixinValue
  split
  · exact kept _
  · split
    · exact hcall target _ [] c
    · exact kept _

theorem Op.runMixinParam_contained (hcall : call.Contained) (target : Tree) (key : ParamKey)
    (c : Context) : Expansion.Contained [] target c (Op.runMixinParam call target key c) := by
  unfold Op.runMixinParam
  dsimp only
  split
  · exact .unchanged [] target c _
  · exact Op.runMixinValue_contained hcall target _ c

/-- One operation stays within the state its generator was started in. -/
theorem Op.run_within (hcall : call.Contained) {base c : Context} (h : base.Within c) (o : Op) :
    base.Within (o.run setting call c).2 := by
  cases o with
  | setParam key value => exact h.setParam key value
  | pushParams p => exact h.pushParams p
  | popParams => exact h.popParams
  | mixin target name args => exact h.call (hcall target name args c)
  | mixinValue target value => exact h.call (Op.runMixinValue_contained hcall target value c)
  | mixinParam target key => exact h.call (Op.runMixinParam_contained hcall target key c)
  | openSlot kind slot child => exact h.step rfl rfl rfl rfl id
  | closeSlot target => exact h.closeSlot target
  | editActive target edit => exact h.setActive target _
  | discard => exact h.step rfl rfl rfl rfl fun _ => rfl
  | observe o => exact h.step rfl rfl rfl rfl id
  | param | parameterDepth | active | isDiscarded | depth | slotPath | checkBalanced | maxDepth
  | mixinNames => exact h

/-- A program stays within the call that runs it. -/
theorem Program.run_within {α : Type} (hcall : call.Contained) {base c : Context}
    (h : base.Within c) (p : Program α) : base.Within (p.run setting call c).2 := by
  induction p generalizing c with
  | pure a => exact h
  | op o next ih => exact ih _ (Op.run_within hcall h o)

/-- A generator gives the frames back as they were, and its scopes on top of those it was given. -/
theorem Expansion.invoke_within (setting : Setting) (hcall : call.Contained) (g : Generator)
    (target : Tree) (c : Context) :
    ∃ after, (c.enter g.name).Within after ∧ after.leave = (invoke setting call g target c).2 := by
  refine ⟨((g.body.run.run target).run setting call (c.enter g.name)).2, ?_, rfl⟩
  exact Program.run_within hcall (.enter c g.name) _

end Running

/-! ## Running an expansion -/

/-- When the call ends, its caller is as it was. -/
theorem Context.Within.leave {c after : Context} {mixin : String}
    (h : (c.enter mixin).Within after) :
    after.leave = { after with frame := c.frame, callers := c.callers } := by
  have hcallers : after.callers = c.frame :: c.callers := h.callers
  simp [Context.leave, hcallers]

/-- Closing the scopes above a number that a generator was started with. -/
theorem Context.Within.keepScopes {base c : Context} (h : base.Within c) :
    (c.keepScopes base.scopes.length).scopes.length = base.scopes.length ∧
      (c.keepScopes base.scopes.length).scopes.tail = base.scopes.tail := by
  have hsize := h.size
  constructor
  · simp only [Context.keepScopes, List.length_drop]
    omega
  · have hdrop := List.suffix_iff_eq_drop.1 h.below
    simp only [List.length_tail] at hdrop
    simp only [Context.keepScopes, List.tail_drop, ← List.drop_tail]
    by_cases hb : base.scopes = []
    · rw [hb, List.tail_nil]
      exact List.drop_of_length_le (by simp [List.length_tail])
    · have hpos : 0 < base.scopes.length := List.length_pos_iff.2 hb
      rw [show c.scopes.length - base.scopes.length
        = c.scopes.length - 1 - (base.scopes.length - 1) by omega]
      exact hdrop.symm

/-- Closing the scope of the arguments and all above it. -/
theorem Context.Within.keepScopes_below {base c : Context} {p : Parameters}
    {scopes : List Parameters} (h : base.Within c) (hb : base.scopes = p :: scopes) :
    (c.keepScopes scopes.length).scopes = scopes := by
  have hsuffix : scopes <:+ c.scopes := by
    have hbelow := h.below
    rw [hb, List.tail_cons] at hbelow
    exact hbelow.trans (List.tail_suffix c.scopes)
  exact (List.suffix_iff_eq_drop.1 hsuffix).symm

/-- Arguments make a scope of their own, and only they do. -/
theorem Generator.bindArguments_ok {g : Generator} {args : List ParamValue}
    {bound : Option Parameters} (h : g.bindArguments args = .ok bound) :
    args = [] ∧ bound = none ∨ args ≠ [] ∧ ∃ p, bound = some p := by
  unfold Generator.bindArguments at h
  split at h
  · rename_i hargs
    exact .inl ⟨List.isEmpty_iff.1 hargs, by cases h; rfl⟩
  · rename_i hargs
    refine .inr ⟨fun ha => hargs (by rw [ha]; rfl), ?_⟩
    split at h
    · cases h
    · split at h
      · cases h
      · exact ⟨_, by cases h; rfl⟩

namespace Expansion

variable {setting : Setting}

/-- What running a generator on the active tree does: the tree is replaced, and what is left of the
frames and scopes is what a run of the generator leaves. -/
theorem invokeActive_within (setting : Setting) {call : Call} (hcall : call.Contained)
    (g : Generator) (target : Tree) (c : Context) :
    ∃ after new, (c.enter g.name).Within after ∧
      (invokeActive setting call g target c).1.2 = (c.setActive target new).1 ∧
      (invokeActive setting call g target c).2 =
        (({ after with frame := c.frame, callers := c.callers } : Context).setActive
          target new).2 := by
  obtain ⟨after, hafter, hleave⟩ := invoke_within setting hcall g (c.active target) c
  rw [hafter.leave] at hleave
  refine ⟨after, (invoke setting call g (c.active target) c).1.2, hafter, ?_, ?_⟩
  · simp only [invokeActive]
    exact (Context.setActive_congr (by rw [← hleave]) target _).1
  · simp only [invokeActive, ← hleave]

/-- An expansion is contained if the scopes it ends with are those it was started with. -/
theorem contained_of_invokeActive {call : Call} (hcall : call.Contained) (g : Generator)
    (args : List ParamValue) (target : Tree) {c entered : Context} (frame : entered.frame = c.frame)
    (callers : entered.callers = c.callers) (discarded : entered.discarded = c.discarded)
    (scopes : ∀ after, (entered.enter g.name).Within after →
      (after.keepScopes c.scopes.length).scopes.length = c.scopes.length ∧
      (after.keepScopes c.scopes.length).scopes.tail = c.scopes.tail ∧
      (args ≠ [] → (after.keepScopes c.scopes.length).scopes = c.scopes)) :
    Contained args target c ((invokeActive setting call g target entered).1,
      (invokeActive setting call g target entered).2.keepScopes c.scopes.length) := by
  obtain ⟨after, new, hafter, htree, hout⟩ :=
    invokeActive_within setting hcall g target entered
  obtain ⟨hsize, hbelow, hbound⟩ := scopes after hafter
  have hkept : ((invokeActive setting call g target entered).2.keepScopes c.scopes.length).scopes =
      (after.keepScopes c.scopes.length).scopes := by
    simp [hout, Context.keepScopes]
  rw [← hkept] at hsize hbelow hbound
  refine ⟨?_, ⟨new, ?_, ?_⟩, hsize, hbelow, hbound, fun hd => ?_⟩
  · simp [hout, Context.keepScopes, callers]
  · rw [htree, (Context.setActive_congr frame target new).1]
  · simp only [hout, Context.keepScopes]
    have hsame : ({ after with frame := entered.frame, callers := entered.callers } : Context).frame
        = c.frame := frame
    exact (Context.setActive_congr hsame target new).2
  · have : after.discarded = true := hafter.discarded (discarded.trans hd)
    simpa [hout, Context.keepScopes] using this

theorem dispatch_contained {within : Option Call} (hwithin : ∀ call ∈ within, call.Contained) :
    (dispatch setting within).Contained := by
  intro target name args c
  unfold dispatch
  split
  · exact .unchanged args target c _
  split
  · exact .unchanged args target c _
  rename_i g hg
  split
  · exact .unchanged args target c _
  rename_i call
  have hcall : call.Contained := hwithin call rfl
  split
  · exact .unchanged args target c _
  rename_i bound hbound
  rcases Generator.bindArguments_ok hbound with ⟨rfl, rfl⟩ | ⟨hargs, p, rfl⟩
  · refine contained_of_invokeActive hcall g [] target rfl rfl rfl fun after hafter => ?_
    obtain ⟨hsize, hbelow⟩ := hafter.keepScopes
    exact ⟨hsize, hbelow, fun h => absurd rfl h⟩
  · refine contained_of_invokeActive hcall g args target rfl rfl rfl
      fun after hafter => ?_
    have hscopes : (after.keepScopes c.scopes.length).scopes = c.scopes :=
      hafter.keepScopes_below rfl
    rw [hscopes]
    exact ⟨rfl, rfl, fun _ => rfl⟩

/-- The calls of every level are contained, as those below are. -/
theorem expand_contained : ∀ levels, (expand setting levels).Contained
  | 0 => dispatch_contained (by simp)
  | levels + 1 => dispatch_contained (by simpa using expand_contained levels)

/-- **An expansion is contained.** Whether it succeeds or fails, and whatever the generators do:

* the frames are those before it, with the same names, scope floors and open slots;
* if the calling frame has a slot open, only the tree in the innermost one may have changed, and
  otherwise only the target;
* as many scopes are open as before; all but the innermost are unchanged, and the innermost too if
  there were arguments;
* a discarded expansion stays discarded. -/
theorem expansion_contained (setting : Setting) (c : Context) (target : Tree) (name : String)
    (args : List ParamValue) :
    let out := callIn setting c target name args c
    (out.2.depth = c.depth ∧ out.2.frames.map (·.outline) = c.frames.map (·.outline)) ∧
    (out.2.callers = c.callers ∧
      match c.frame.slots with
      | [] => out.2.frame = c.frame
      | s :: rest => out.1.2 = target ∧
          ∃ child, out.2.frame = { c.frame with slots := { s with child := child } :: rest }) ∧
    (out.2.scopes.length = c.scopes.length ∧ out.2.scopes.tail = c.scopes.tail ∧
      (args ≠ [] → out.2.scopes = c.scopes)) ∧
    (c.discarded = true → out.2.discarded = true) := by
  intro out
  have h : Contained args target c out := expand_contained _ target name args c
  obtain ⟨new, htree, hframe⟩ := h.active
  refine ⟨⟨?_, ?_⟩, ⟨h.callers, ?_⟩, ⟨h.size, h.below, h.bound⟩, h.discarded⟩
  · simp only [Context.depth, h.callers]
  · have houtline : out.2.frame.outline = c.frame.outline := by
      rw [hframe, Context.outline_setActive]
    simp only [Context.frames, h.callers, List.map_reverse, List.map_cons, houtline]
  · split
    · rename_i hslots
      rw [hframe, Context.setActive, hslots]
    · rename_i s rest hslots
      rw [Context.setActive, hslots] at htree hframe
      exact ⟨htree, new, hframe⟩

end Expansion
end ShaderFront
