import ShaderFront.Proofs.Mixin.Scripts
import ShaderFront.Proofs.Mixin.Simulation

/-!
# Expansion is an append

If the generators only write, what an expansion does and adds does not depend on the tree it is
expanded into. If they do not look at the open slots either, there is one tree that is appended to
the active tree, be it the target or the content of a slot that is open around the call.

The argument compares two expansions level by level. Their callers need not have the same slots
open, and their active trees are related by a relation that edits keep, such as "the second one is
the first one appended to `t`".
-/

namespace ShaderFront

/-- How two expansions end that were asked for by callers whose active trees are related. -/
structure Expansion.Parallel (paths : Prop) (related : Tree → Tree → Prop)
    (out out' : Outcome × Context) : Prop where
  result : Outcome.Alike paths out.1.1 out'.1.1
  tree : related (out.2.active out.1.2) (out'.2.active out'.1.2)
  scopes : out'.2.scopes = out.2.scopes
  discarded : out'.2.discarded = out.2.discarded
  observations : paths → out'.2.observations = out.2.observations

/-- Expansions run in parallel from callers that are abreast. -/
def Call.Parallel (paths : Prop) (call : Call) : Prop :=
  ∀ related, Edit.Keeps related → ∀ (c c' : Context) t t' name args, c.Abreast paths c' →
    related (c.active t) (c'.active t') →
    Expansion.Parallel paths related (call t name args c) (call t' name args c')

/-- The tree that was set is the active one. -/
theorem Context.active_setActive (c : Context) (t new : Tree) :
    (c.setActive t new).2.active (c.setActive t new).1 = new := by
  unfold Context.setActive
  split
  · rfl
  · rename_i hs
    simp only [Context.active, hs]

@[simp] theorem Context.observations_setActive (c : Context) (t new : Tree) :
    (c.setActive t new).2.observations = c.observations := by
  unfold Context.setActive
  split <;> rfl

theorem Context.eq_of {c c' : Context} (scopes : c'.scopes = c.scopes) (frame : c'.frame = c.frame)
    (callers : c'.callers = c.callers) (discarded : c'.discarded = c.discarded)
    (observations : c'.observations = c.observations) : c' = c := by
  cases c
  cases c'
  simp_all

/-- The same state if the running generator had no slot open. -/
def Context.withoutSlots (c : Context) : Context := { c with frame := { c.frame with slots := [] } }

theorem Context.withoutSlots_eq {c : Context} (h : c.frame.slots = []) : c.withoutSlots = c := by
  obtain ⟨scopes, ⟨mixin, slots, floor⟩, callers, discarded, observations⟩ := c
  cases h
  rfl

/-- The new active tree of a contained expansion is the one its caller sees. -/
theorem Expansion.Contained.active_eq {args : List ParamValue} {t : Tree} {c : Context}
    {out : Outcome × Context} (h : Contained args t c out) :
    out.1.2 = (c.setActive t (out.2.active out.1.2)).1 ∧
      out.2.frame = (c.setActive t (out.2.active out.1.2)).2.frame := by
  obtain ⟨new, htree, hframe⟩ := h.active
  have hnew : out.2.active out.1.2 = new := by
    rw [← c.active_setActive t new, Context.active, Context.active, hframe, htree]
  rw [hnew]
  exact ⟨htree, hframe⟩

namespace Expansion

variable {paths : Prop} {related : Tree → Tree → Prop} {setting : Setting} {call : Call}
variable {c c' : Context}

/-- Nothing happens but like answers. -/
theorem Parallel.unchanged (h : c.Abreast paths c') {t t' : Tree}
    (ht : related (c.active t) (c'.active t')) {r r' : Except MixinError Unit}
    (result : Outcome.Alike paths r r') :
    Parallel paths related ((r, t), c) ((r', t'), c') :=
  ⟨result, ht, h.scopes, h.discarded, fun hp => by rw [h.told hp]⟩

/-- A generator builds related trees from related trees, whoever calls it. -/
theorem invoke_alike (setting : Setting) (hcall : call.Simulates paths)
    (keeps : Edit.Keeps related) {g : Generator} (hg : g.body.Writes paths)
    (h : c.Abreast paths c')
    {t t' : Tree} (ht : related t t') :
    Outcome.Alike paths (invoke setting call g t c).1.1 (invoke setting call g t' c').1.1 ∧
      related (invoke setting call g t c).1.2 (invoke setting call g t' c').1.2 ∧
      (invoke setting call g t c).2.Abreast paths (invoke setting call g t' c').2 := by
  obtain ⟨w, hw, hbody⟩ := hg
  have henter : (c.enter g.name).Alike paths (c'.enter g.name) :=
    ⟨⟨h.scopes, congrArg (· + 1) h.depth, h.discarded, fun hp => by rw [h.told hp]⟩,
      by simp only [Context.enter, h.scopes]⟩
  obtain ⟨hresult, htree, hcontext⟩ := hw.run setting hcall keeps henter ht
  refine ⟨?_, ?_, ?_⟩
  · simp only [invoke, hbody]
    exact hcontext.ending g.name hresult
  · simp only [invoke, hbody]
    exact htree
  · simp only [invoke, hbody]
    exact hcontext.leave

/-- The caller's active tree is the one the generator built. -/
theorem active_invokeActive (g : Generator) (t : Tree) (c : Context) (size : Nat) :
    ((invokeActive setting call g t c).2.keepScopes size).active
      (invokeActive setting call g t c).1.2 = (invoke setting call g (c.active t) c).1.2 :=
  Context.active_setActive _ _ _

/-- A generator runs on the active trees of two callers. -/
theorem invokeActive_parallel (hcall : call.Simulates paths) (keeps : Edit.Keeps related)
    {g : Generator} (hg : ∃ w : Writer, w.Similar paths w ∧ g.body = w.generation)
    (h : c.Abreast paths c') {t t' : Tree} (ht : related (c.active t) (c'.active t')) (size : Nat) :
    Parallel paths related
      ((invokeActive setting call g t c).1, (invokeActive setting call g t c).2.keepScopes size)
      ((invokeActive setting call g t' c').1,
        (invokeActive setting call g t' c').2.keepScopes size) := by
  obtain ⟨hresult, htree, hafter⟩ := invoke_alike setting hcall keeps hg h ht
  refine ⟨hresult, ?_, ?_, ?_, fun hp => ?_⟩
  · rw [active_invokeActive, active_invokeActive]
    exact htree
  · simp only [invokeActive, Context.keepScopes, Context.scopes_setActive, hafter.scopes]
  · simp only [invokeActive, Context.keepScopes, Context.discarded_setActive, hafter.discarded]
  · simp only [invokeActive, Context.keepScopes, Context.observations_setActive, hafter.told hp]

/-- Calls run in parallel if those below them are simulated. -/
theorem dispatch_parallel {within : Option Call} (hwithin : ∀ call ∈ within, call.Simulates paths)
    (writes : setting.registry.Writes paths) : (dispatch setting within).Parallel paths := by
  intro related keeps c c' t t' name args h ht
  have kept {mixin : String} {fault : MixinFault} :
      Parallel paths related ((.error ⟨mixin, c.slotPath, fault⟩, t), c)
        ((.error ⟨mixin, c'.slotPath, fault⟩, t'), c') :=
    .unchanged h ht (.error h.slotPath)
  unfold dispatch
  rw [h.discarded]
  split
  · exact .unchanged h ht (.refl _)
  split
  · exact kept
  rename_i g hg
  split
  · exact kept
  rename_i call
  have hcall : call.Simulates paths := hwithin call rfl
  have hwrites := writes g (List.mem_of_find?_eq_some hg)
  split
  · exact kept
  rename_i bound _
  rw [h.scopes]
  cases bound with
  | none => exact invokeActive_parallel hcall keeps hwrites h ht _
  | some p =>
    have hpush : (c.pushParams p).Abreast paths (c'.pushParams p) :=
      ⟨congrArg (p :: ·) h.scopes, h.depth, h.discarded, fun hp => by rw [h.told hp]⟩
    exact invokeActive_parallel hcall keeps hwrites hpush ht _

/-- If the callers are two states of one generator, their own frames stay alike as well. -/
theorem simulates_of_parallel (contained : call.Contained) (parallel : call.Parallel paths) :
    call.Simulates paths := by
  intro related keeps c c' t t' name args h ht
  have hcontained := contained t name args c
  have hcontained' := contained t' name args c'
  obtain ⟨htree, hframe⟩ := hcontained.active_eq
  obtain ⟨htree', hframe'⟩ := hcontained'.active_eq
  obtain ⟨hrelated, hsame⟩ := h.active ht
  -- In an open slot both sides hold the same tree.
  obtain ⟨hnew, hkept⟩ := h.setActive ht
    (fun hnil => (parallel related keeps c c' t t' name args h.toAbreast (hrelated hnil)).tree)
    (fun hne =>
      (parallel _ Edit.keeps_eq c c' t t' name args h.toAbreast (hsame hne).symm).tree.symm)
  obtain ⟨hresult, -, hscopes, hdiscarded, hobservations⟩ :
      Parallel paths (fun _ _ => True) (call t name args c) (call t' name args c') :=
    parallel _ Edit.keeps_true c c' t t' name args h.toAbreast trivial
  have hdepth : (call t' name args c').2.callers.length =
      (call t name args c).2.callers.length := by
    rw [hcontained.callers, hcontained'.callers, h.depth]
  have hframes : (call t' name args c').2.frame = (call t name args c).2.frame := by
    rw [hframe, hframe', hkept.frame]
  refine ⟨hresult, ?_, ⟨⟨hscopes, hdepth, hdiscarded, fun hp => ?_⟩, hframes⟩⟩
  · rw [htree, htree']
    exact hnew
  · have hcallers : (call t' name args c').2.callers = (call t name args c).2.callers := by
      rw [hcontained.callers, hcontained'.callers, h.told hp]
    exact Context.eq_of hscopes hframes hcallers hdiscarded (hobservations hp)

/-- **Expansions of all depths run in parallel** from callers that are abreast. -/
theorem expand_parallel (writes : setting.registry.Writes paths) (levels : Nat) :
    (expand setting levels).Parallel paths := by
  induction levels with
  | zero => exact dispatch_parallel (by simp) writes
  | succ levels ih =>
    have hcall := simulates_of_parallel (expand_contained levels) ih
    exact dispatch_parallel (by simpa using hcall) writes

/-- Callers that are abreast have as many levels left. -/
theorem callIn_parallel (writes : setting.registry.Writes paths) (h : c.Abreast paths c')
    (keeps : Edit.Keeps related) {t t' : Tree} (ht : related (c.active t) (c'.active t'))
    (name : String) (args : List ParamValue) :
    Parallel paths related (callIn setting c t name args c)
      (callIn setting c' t' name args c') := by
  have hdepth : c'.depth = c.depth := h.depth
  unfold callIn
  rw [hdepth]
  exact expand_parallel writes _ related keeps c c' t t' name args h ht

/-- The second tree is the first one appended to `base`. -/
structure Extends (base t t' : Tree) : Prop where
  ordered : t.Ordered
  eq : t' = base.append t

/-- What two trees have on top of each other stays, when both are edited alike. -/
theorem keeps_extends (base : Tree) : Edit.Keeps (Extends base) := by
  intro e t t' h
  refine ⟨h.ordered.apply e, ?_⟩
  rw [h.eq, Tree.append_apply base h.ordered e]

theorem extends_empty (base : Tree) : Extends base .empty base :=
  ⟨Tree.ordered_empty, base.append_empty.symm⟩

/-- A slot that the calling frame has open keeps the output from the target. -/
theorem callIn_target {setting : Setting} {c : Context} (hopen : c.frame.slots ≠ [])
    (target : Tree) (name : String) (args : List ParamValue) :
    (callIn setting c target name args c).1.2 = target := by
  have hcontained : Contained args target c (callIn setting c target name args c) :=
    expand_contained _ _ _ _ _
  obtain ⟨new, htree, -⟩ := hcontained.active
  rw [htree, Context.setActive]
  cases hs : c.frame.slots with
  | nil => exact absurd hs hopen
  | cons s rest => rfl

/-- One state, two targets: an expansion into the second one does what the expansion into an empty
tree does, and appends the tree of that expansion. -/
theorem callIn_onto {setting : Setting} (told : setting.registry.Writes True) (c : Context)
    (target : Tree) (name : String) (args : List ParamValue) :
    Outcome.Matches True (Extends target) (callIn setting c .empty name args c)
      (callIn setting c target name args c) := by
  have hcall : Call.Simulates True (callIn setting c) :=
    simulates_of_parallel (expand_contained _) (expand_parallel told _)
  exact hcall _ (keeps_extends target) c c .empty target name args (.refl c) (extends_empty target)

/-- What an expansion adds: its tree if it starts from an empty one and the calling frame has no
slot open. -/
def added (setting : Setting) (c : Context) (name : String) (args : List ParamValue) : Tree :=
  (callIn setting c.withoutSlots .empty name args c.withoutSlots).1.2

/-- Whatever slots the calling frame has open, an expansion appends the same to the active tree. -/
theorem active_callIn {setting : Setting} (writes : setting.registry.WritesOnly) {c around : Context}
    (h : c.withoutSlots.Abreast False around) (target : Tree) (name : String)
    (args : List ParamValue) :
    let out := callIn setting around target name args around
    out.2.active out.1.2 = (around.active target).append (added setting c name args) := by
  intro out
  have hempty : Extends (around.active target) (c.withoutSlots.active .empty)
      (around.active target) := extends_empty _
  have hparallel := callIn_parallel writes h (keeps_extends (around.active target)) hempty name args
  have hcontained : Contained args .empty c.withoutSlots
      (callIn setting c.withoutSlots .empty name args c.withoutSlots) :=
    expand_contained _ _ _ _ _
  -- Without slots the tree that is being built is the active one.
  have hadded : added setting c name args = _ := hcontained.active_eq.1
  rw [hadded]
  exact hparallel.tree.eq

/-- **Expansion is an append**, if no generator reads the tree that is being built: whatever the
target, an expansion has the result and the context of the expansion into an empty tree, and the
tree of that expansion is appended to the target. With a slot open in the calling frame that tree
is empty, for the output goes to the slot.

If the paths of open slots make no difference to the generators either, there is one tree that the
expansion adds, whatever slots the calling frame has open. It is appended to the active tree, and
to the content of a slot that is opened around the expansion. -/
theorem expansion_appends (setting : Setting) (told : setting.registry.Writes True) (c : Context)
    (name : String) (args : List ParamValue) :
    let plain := callIn setting c .empty name args c
    plain.1.2.Ordered ∧
    (∀ target, let out := callIn setting c target name args c
      out.1.1 = plain.1.1 ∧ out.2 = plain.2 ∧ out.1.2 = target.append plain.1.2) ∧
    (c.frame.slots ≠ [] → plain.1.2 = .empty) ∧
    (setting.registry.WritesOnly →
      let added := added setting c name args
      added.Ordered ∧ (c.frame.slots = [] → added = plain.1.2) ∧
      (∀ target, let out := callIn setting c target name args c
        out.2.active out.1.2 = (c.active target).append added) ∧
      ∀ kind slot content target,
        let around := c.openSlot kind slot content
        let out := callIn setting around target name args around
        Outcome.Alike False plain.1.1 out.1.1 ∧ out.1.2 = target ∧
          out.2.frame = (c.openSlot kind slot (content.append added)).frame) := by
  intro plain
  refine ⟨(callIn_onto told c .empty name args).tree.ordered, fun target => ?_,
    fun hopen => callIn_target hopen .empty name args, fun writes => ?_⟩
  · obtain ⟨hresult, htree, hcontext⟩ := callIn_onto told c target name args
    exact ⟨hresult.eq trivial, hcontext.told trivial, htree.eq⟩
  refine ⟨(callIn_onto told c.withoutSlots .empty name args).tree.ordered, fun hs => ?_,
    fun target => ?_, fun kind slot content target => ?_⟩
  · simp only [added, plain, Context.withoutSlots_eq hs]
  · have hbare : c.withoutSlots.Abreast False c := ⟨rfl, rfl, rfl, False.elim⟩
    exact active_callIn writes hbare target name args
  · intro around out
    -- A slot around the expansion changes the paths, which make no difference to its result.
    have habreast : c.Abreast False around := ⟨rfl, rfl, rfl, False.elim⟩
    have hplain : Parallel False (fun _ _ => True) plain out :=
      callIn_parallel writes habreast Edit.keeps_true trivial name args
    have hbare : c.withoutSlots.Abreast False around := ⟨rfl, rfl, rfl, False.elim⟩
    have hactive : out.2.active out.1.2 = content.append (added setting c name args) :=
      active_callIn writes hbare target name args
    have hout : Contained args target around out := expand_contained _ _ _ _ _
    obtain ⟨htree, hframe⟩ := hout.active_eq
    refine ⟨hplain.result, htree, ?_⟩
    rw [hframe, hactive]
    rfl

/-- A mixin that composes another one. -/
def composing : Setting where
  registry := ⟨[.scripted "Base" [] [.addClass ⟨"Base", []⟩],
    .scripted "Lit" [] [.addClass ⟨"Lit", []⟩, .compose .single "base" "Base"]]⟩
  maxDepth := defaultMaxDepth

theorem composing_writes (paths : Prop) : composing.registry.Writes paths := by
  intro g hg
  simp only [composing, List.mem_cons, List.not_mem_nil, or_false] at hg
  rcases hg with rfl | rfl
  · exact Step.writes_generations _ rfl
  · exact Step.writes_generations _ rfl

/-- The outermost frame with a slot open. -/
def inOuter : Context := (Context.start (.ofList [])).openSlot .single "outer" .empty

theorem expansion_appends_composing :
    let target : Tree := Tree.empty.addClass ⟨"Root", []⟩
    let content : Tree := Tree.empty.addClass ⟨"Inner", []⟩
    let around := inOuter.openSlot .array "inner" content
    composing.registry.Writes True ∧ composing.registry.WritesOnly ∧ inOuter.frame.slots ≠ [] ∧
      (callIn composing inOuter target "Lit" [] inOuter).1.2 = target ∧
      (callIn composing around target "Lit" [] around).2.frame =
        (inOuter.openSlot .array "inner"
          (content.append (added composing inOuter "Lit" []))).frame ∧
      (added composing inOuter "Lit" []).classes = [⟨"Lit", []⟩] := by
  intro target content around
  have hopen : inOuter.frame.slots ≠ [] := nofun
  obtain ⟨-, onto, hempty, hadds⟩ :=
    expansion_appends composing (composing_writes True) inOuter "Lit" []
  obtain ⟨-, -, -, hwithin⟩ := hadds (composing_writes False)
  refine ⟨composing_writes True, composing_writes False, hopen, ?_, ?_, rfl⟩
  · rw [(onto target).2.2, hempty hopen, Tree.append_empty]
  · exact (hwithin .array "inner" content target).2.2

/-! ## No single tree

The tree that an expansion into an empty tree results in need not be the one that a slot around the
expansion gains. It is not if the calling frame has a slot open already, and it is not if a generator
asks for what differs with the slots that are open. -/

/-- The expansion into an empty tree results in what is appended to every target, and to the
content of a slot that is opened around an expansion that succeeds. -/
def AppendsOne (setting : Setting) (c : Context) (name : String) (args : List ParamValue) : Prop :=
  let plain := callIn setting c .empty name args c
  (∀ target, let out := callIn setting c target name args c
    out.1.1 = plain.1.1 ∧ out.2 = plain.2 ∧ out.1.2 = target.append plain.1.2) ∧
  ∀ kind slot content target,
    let around := c.openSlot kind slot content
    let out := callIn setting around target name args around
    out.1.1 = .ok () → out.1.2 = target ∧
      out.2.frame = (c.openSlot kind slot (content.append plain.1.2)).frame

/-- What a slot gains that is opened around an expansion. -/
theorem AppendsOne.child {setting : Setting} {c : Context} {name : String} {args : List ParamValue}
    (h : AppendsOne setting c name args) (kind : SlotKind) (slot : String) (target : Tree) :
    let around := c.openSlot kind slot .empty
    let out := callIn setting around target name args around
    out.1.1 = .ok () → (out.2.active out.1.2).classes =
      (callIn setting c .empty name args c).1.2.classes := by
  intro around out hok
  obtain ⟨-, hframe⟩ := h.2 kind slot .empty target hok
  simp only [Context.active, out, around, hframe]
  rfl

/-- A mixin that adds a class which says whether the outermost frame has a slot open. -/
def balancing : Setting where
  registry := ⟨[⟨"Lit", [], (Writer.ask .checkBalanced fun
    | .ok _ => .edit (.addClass ⟨"Closed", []⟩) (.done (.ok ()))
    | .error _ => .edit (.addClass ⟨"Open", []⟩) (.done (.ok ()))).generation⟩]⟩
  maxDepth := defaultMaxDepth

/-- A mixin that adds the path of a failure as a class. -/
def lost : Setting where
  registry := ⟨[⟨"Lit", [], (Writer.mixin "Nowhere" [] fun
    | .ok _ => .done (.ok ())
    | .error e => .edit (.addClass ⟨e.path, []⟩) (.done (.ok ()))).generation⟩]⟩
  maxDepth := defaultMaxDepth

theorem no_one_addition :
    (composing.registry.WritesOnly ∧ ¬ AppendsOne composing inOuter "Lit" []) ∧
    (balancing.registry.Writes True ∧
      ¬ AppendsOne balancing (Context.start (.ofList [])) "Lit" []) ∧
    (lost.registry.Writes True ∧ ¬ AppendsOne lost (Context.start (.ofList [])) "Lit" []) := by
  refine ⟨⟨composing_writes False, fun h => ?_⟩, ⟨fun g hg => ?_, fun h => ?_⟩,
    fun g hg => ?_, fun h => ?_⟩
  · exact absurd (h.child .single "inner" .empty rfl) (by decide)
  · obtain rfl := List.mem_singleton.1 hg
    exact ⟨_, Writer.similar_true _, rfl⟩
  · exact absurd (h.child .single "inner" .empty rfl) (by decide)
  · obtain rfl := List.mem_singleton.1 hg
    exact ⟨_, Writer.similar_true _, rfl⟩
  · exact absurd (h.child .single "inner" .empty rfl) (by decide)

end Expansion
end ShaderFront
