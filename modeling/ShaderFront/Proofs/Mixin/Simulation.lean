import ShaderFront.Proofs.Mixin.Containment
import ShaderFront.Proofs.Mixin.Writer

/-!
# Two runs of a writer

Two runs are compared whose contexts agree but for the frames of the callers, and that build on
trees which are related by a relation that edits keep. One operation keeps the relation, and so does
a writer, given that expansions one level deeper do.
-/

namespace ShaderFront

section Relations

variable (paths : Prop)

/-- Two states of callers between which an expansion tells no difference but that of paths. -/
structure Context.Abreast (c c' : Context) : Prop where
  scopes : c'.scopes = c.scopes
  depth : c'.callers.length = c.callers.length
  discarded : c'.discarded = c.discarded
  told : paths → c' = c

/-- Two states of one generator that differ in what is below its frame at most. -/
structure Context.Alike (c c' : Context) : Prop extends Context.Abreast paths c c' where
  frame : c'.frame = c.frame

/-- What two runs on related trees end with. -/
structure Outcome.Matches (related : Tree → Tree → Prop) (out out' : Outcome × Context) : Prop where
  result : Outcome.Alike paths out.1.1 out'.1.1
  tree : related out.1.2 out'.1.2
  context : out.2.Alike paths out'.2

end Relations

/-- Edits keep trees related. -/
def Edit.Keeps (related : Tree → Tree → Prop) : Prop :=
  ∀ (e : Edit) t t', related t t' → related (e.apply t) (e.apply t')

/-- Two expansions of a mixin from like states of one generator, on related trees, end alike. -/
def Call.Simulates (paths : Prop) (call : Call) : Prop :=
  ∀ related, Edit.Keeps related → ∀ (c c' : Context) t t' name args, c.Alike paths c' →
    related t t' → Outcome.Matches paths related (call t name args c) (call t' name args c')

theorem Edit.keeps_eq : Edit.Keeps (· = ·) := fun e _ _ h => congrArg e.apply h

theorem Edit.keeps_true : Edit.Keeps fun _ _ => True := fun _ _ _ _ => trivial

/-- A slot is attached by an edit. -/
theorem OpenSlot.attach_keeps {related : Tree → Tree → Prop} (keeps : Edit.Keeps related)
    (s : OpenSlot) {t t' : Tree} (h : related t t') : related (s.attach t) (s.attach t') := by
  obtain ⟨name, kind, child⟩ := s
  cases kind with
  | single => exact keeps (.setSlot name child) t t' h
  | array => exact keeps (.pushItem name child) t t' h

section Simulation

variable {paths : Prop} {related : Tree → Tree → Prop} {c c' : Context} {t t' : Tree}

theorem Outcome.Alike.refl (r : Except MixinError Unit) : Outcome.Alike paths r r := by
  cases r with
  | error e => exact ⟨rfl, rfl, fun _ => rfl⟩
  | ok u => trivial

/-- Failures of one cause that name one mixin. -/
theorem Outcome.Alike.error {mixin path path' : String} {fault : MixinFault}
    (told : paths → path' = path) :
    Outcome.Alike paths (.error ⟨mixin, path, fault⟩) (.error ⟨mixin, path', fault⟩) :=
  ⟨rfl, rfl, told⟩

theorem Context.Abreast.slotPath (h : c.Abreast paths c') :
    paths → c'.slotPath = c.slotPath := fun hp => by rw [h.told hp]

namespace Context.Alike

theorem refl (c : Context) : c.Alike paths c := ⟨⟨rfl, rfl, rfl, fun _ => rfl⟩, rfl⟩

/-- Failing where one is. -/
theorem fail (h : c.Alike paths c') (ht : related t t') (fault : MixinFault) :
    Outcome.Matches paths related ((.error (c.fail fault), t), c)
      ((.error (c'.fail fault), t'), c') := by
  refine ⟨?_, ht, h⟩
  simp only [Context.fail, h.frame]
  exact .error h.slotPath

/-- The active tree is replaced by related trees, or by one tree if it is in a slot. -/
theorem setActive (h : c.Alike paths c') (ht : related t t') {new new' : Tree}
    (hnew : c.frame.slots = [] → related new new') (hslot : c.frame.slots ≠ [] → new' = new) :
    related (c.setActive t new).1 (c'.setActive t' new').1 ∧
      (c.setActive t new).2.Alike paths (c'.setActive t' new').2 := by
  obtain ⟨⟨hscopes, hdepth, hdiscarded, htold⟩, hframe⟩ := h
  unfold Context.setActive
  rw [hframe]
  cases hs : c.frame.slots with
  | nil => exact ⟨hnew hs, ⟨hscopes, hdepth, hdiscarded, htold⟩, hframe⟩
  | cons s rest =>
    have hsame : new' = new := hslot (by simp [hs])
    subst hsame
    refine ⟨ht, ⟨hscopes, hdepth, hdiscarded, fun hp => ?_⟩, rfl⟩
    rw [htold hp]

theorem active (h : c.Alike paths c') (ht : related t t') :
    (c.frame.slots = [] → related (c.active t) (c'.active t')) ∧
      (c.frame.slots ≠ [] → c'.active t' = c.active t) := by
  unfold Context.active
  rw [h.frame]
  cases hs : c.frame.slots with
  | nil => exact ⟨fun _ => ht, fun hne => absurd rfl hne⟩
  | cons s rest => exact ⟨nofun, fun _ => rfl⟩

theorem closeSlot (keeps : Edit.Keeps related) (h : c.Alike paths c') (ht : related t t') :
    Outcome.Matches paths related (c.closeSlot t) (c'.closeSlot t') := by
  unfold Context.closeSlot
  rw [h.frame]
  cases hs : c.frame.slots with
  | nil => exact h.fail ht .popWithoutPush
  | cons s rest =>
    have hd : Context.Alike paths { c with frame := { c.frame with slots := rest } }
        { c' with frame := { c.frame with slots := rest } } :=
      ⟨⟨h.scopes, h.depth, h.discarded, fun hp => by rw [h.told hp]⟩, rfl⟩
    obtain ⟨hrelated, hsame⟩ := hd.active ht
    obtain ⟨htree, hcontext⟩ := hd.setActive ht
      (fun hnil => s.attach_keeps keeps (hrelated hnil)) (fun hne => congrArg s.attach (hsame hne))
    exact ⟨trivial, htree, hcontext⟩

theorem param (h : c.Alike paths c') (key : ParamKey) : c'.param key = c.param key := by
  rw [Context.param, h.scopes, Context.param]

theorem mixinValue {call : Call} (hcall : call.Simulates paths) (keeps : Edit.Keeps related)
    (h : c.Alike paths c') (ht : related t t') (value : ParamValue) :
    Outcome.Matches paths related (Op.runMixinValue call t value c)
      (Op.runMixinValue call t' value c') := by
  unfold Op.runMixinValue
  split
  · exact h.fail ht _
  · split
    · exact hcall related keeps c c' t t' _ [] h ht
    · exact h.fail ht _

theorem mixinParam {call : Call} (hcall : call.Simulates paths) (keeps : Edit.Keeps related)
    (h : c.Alike paths c') (ht : related t t') (key : ParamKey) :
    Outcome.Matches paths related (Op.runMixinParam call t key c)
      (Op.runMixinParam call t' key c') := by
  unfold Op.runMixinParam
  dsimp only
  rw [h.param key]
  split
  · exact h.fail ht _
  · exact h.mixinValue hcall keeps ht _

/-- A step that does the same to both states. -/
theorem step (h : c.Alike paths c') {d d' : Context} (scopes : d'.scopes = d.scopes)
    (callers : d.callers = c.callers) (callers' : d'.callers = c'.callers)
    (discarded : d'.discarded = d.discarded) (frame : d'.frame = d.frame)
    (told : c' = c → d' = d) : d.Alike paths d' :=
  ⟨⟨scopes, by rw [callers, callers', h.depth], discarded, fun hp => told (h.told hp)⟩, frame⟩

theorem setParam (h : c.Alike paths c') (key : ParamKey) (value : ParamValue) :
    (c.setParam key value).Alike paths (c'.setParam key value) := by
  unfold Context.setParam
  rw [h.scopes]
  cases hs : c.scopes with
  | nil => exact h
  | cons p rest => exact h.step rfl rfl rfl h.discarded h.frame fun he => by rw [he]

theorem popParams (h : c.Alike paths c') :
    c'.popParams.1 = c.popParams.1 ∧ c.popParams.2.Alike paths c'.popParams.2 := by
  unfold Context.popParams
  rw [h.scopes, h.frame]
  cases hs : c.scopes with
  | nil => exact ⟨rfl, h⟩
  | cons p rest =>
    dsimp only
    split
    · exact ⟨rfl, h.step rfl rfl rfl h.discarded rfl fun he => by rw [he]⟩
    · exact ⟨rfl, h⟩

end Context.Alike

/-- Two expansions on one tree. -/
theorem Outcome.Matches.answersAlike {out out' : Outcome × Context}
    (h : Outcome.Matches paths (· = ·) out out') :
    (Outcome.Alike paths out.1.1 out'.1.1 ∧ out'.1.2 = out.1.2) ∧ out.2.Alike paths out'.2 :=
  ⟨⟨h.result, h.tree.symm⟩, h.context⟩

/-- One operation over trees that both sides have answers alike. -/
theorem Op.run_alike (setting : Setting) {call : Call} (hcall : call.Simulates paths)
    (h : c.Alike paths c') (o : Op) :
    o.AnswersAlike paths (o.run setting call c).1 (o.run setting call c').1 ∧
      (o.run setting call c).2.Alike paths (o.run setting call c').2 := by
  cases o with
  | mixin target name args =>
    exact (hcall _ Edit.keeps_eq c c' target target name args h rfl).answersAlike
  | mixinValue target value => exact (h.mixinValue hcall Edit.keeps_eq rfl value).answersAlike
  | mixinParam target key => exact (h.mixinParam hcall Edit.keeps_eq rfl key).answersAlike
  | closeSlot target => exact (h.closeSlot Edit.keeps_eq rfl).answersAlike
  | param key => exact ⟨h.param key, h⟩
  | setParam key value => exact ⟨rfl, h.setParam key value⟩
  | pushParams p =>
    refine ⟨rfl, h.step ?_ rfl rfl h.discarded h.frame fun he => by rw [he]⟩
    simp only [run, Context.pushParams, h.scopes]
  | popParams => exact h.popParams
  | parameterDepth => exact ⟨congrArg List.length h.scopes, h⟩
  | openSlot kind slot child =>
    refine ⟨rfl, h.step h.scopes rfl rfl h.discarded ?_ fun he => by rw [he]⟩
    simp only [run, Context.openSlot, h.frame]
  | active target =>
    have hactive : c'.active target = c.active target := by simp only [Context.active, h.frame]
    exact ⟨hactive, h⟩
  | editActive target edit =>
    have hactive : c'.active target = c.active target := by simp only [Context.active, h.frame]
    obtain ⟨htree, hcontext⟩ := h.setActive (rfl : target = target)
      (fun _ => (congrArg edit hactive).symm) (fun _ => congrArg edit hactive)
    exact ⟨htree.symm, hcontext⟩
  | discard => exact ⟨rfl, h.step h.scopes rfl rfl rfl h.frame fun he => by rw [he]⟩
  | isDiscarded => exact ⟨h.discarded, h⟩
  | depth => exact ⟨h.depth, h⟩
  | slotPath => exact ⟨h.slotPath, h⟩
  | checkBalanced => exact ⟨fun hp => by rw [h.told hp], h⟩
  | maxDepth | mixinNames => exact ⟨rfl, h⟩
  | observe o =>
    exact ⟨rfl, h.step h.scopes rfl rfl h.discarded h.frame fun he => by rw [he]⟩

/-- What two writers observe does not matter as long as they are told different paths. -/
theorem Context.Alike.observe (h : c.Alike paths c') {o o' : Observation}
    (told : paths → o' = o) : (c.observe o).Alike paths (c'.observe o') :=
  ⟨⟨h.scopes, h.depth, h.discarded, fun hp => by rw [h.told hp, told hp]⟩, h.frame⟩

/-- **Writers that act alike build related trees from related trees.** -/
theorem Writer.Similar.run (setting : Setting) {call : Call} (hcall : call.Simulates paths)
    (keeps : Edit.Keeps related) {w w' : Writer} (hw : w.Similar paths w')
    (h : c.Alike paths c') (ht : related t t') :
    Outcome.Matches paths related ((w.program t).run setting call c)
      ((w'.program t').run setting call c') := by
  induction hw generalizing c c' t t' with
  | done result => exact ⟨result, ht, h⟩
  | edit next ih => exact ih h (keeps _ t t' ht)
  | @editActive e w w' next ih =>
    obtain ⟨hrelated, hsame⟩ := h.active ht
    obtain ⟨htree, hcontext⟩ := h.setActive ht (fun hnil => keeps e _ _ (hrelated hnil))
      (fun hne => congrArg e.apply (hsame hne))
    exact ih hcontext htree
  | @mixin name args n n' next ih =>
    have hstep := hcall related keeps c c' t t' name args h ht
    exact ih _ _ hstep.result hstep.context hstep.tree
  | @mixinValue value n n' next ih =>
    have hstep := h.mixinValue hcall keeps ht value
    exact ih _ _ hstep.result hstep.context hstep.tree
  | @mixinParam key n n' next ih =>
    have hstep := h.mixinParam hcall keeps ht key
    exact ih _ _ hstep.result hstep.context hstep.tree
  | closeSlot next ih =>
    have hstep := h.closeSlot keeps ht
    exact ih _ _ hstep.result hstep.context hstep.tree
  | observe told next ih => exact ih (h.observe told) ht
  | @ask o n n' next ih =>
    obtain ⟨hanswer, hcontext⟩ := Op.run_alike setting hcall h o
    exact ih _ _ hanswer hcontext ht

/-- How a generator ends: it must have closed its slots. -/
def Expansion.ending (mixin : String) (result : Except MixinError Unit) (after : Context) :
    Except MixinError Unit :=
  match result, after.frame.slots with
  | .ok _, s :: _ =>
    if after.discarded then .ok () else .error ⟨mixin, after.slotPath, .unbalanced s.label⟩
  | result, _ => result

theorem Context.Alike.ending (h : c.Alike paths c') (mixin : String)
    {r r' : Except MixinError Unit} (result : Outcome.Alike paths r r') :
    Outcome.Alike paths (Expansion.ending mixin r c) (Expansion.ending mixin r' c') := by
  unfold Expansion.ending
  rw [h.frame, h.discarded]
  cases r <;> cases r'
  · exact result
  · exact result.elim
  · exact result.elim
  · cases c.frame.slots with
    | nil => trivial
    | cons s rest =>
      dsimp only
      split
      · trivial
      · exact .error h.slotPath

/-- Two generators that have ended. -/
theorem Context.Alike.leave (h : c.Alike paths c') : c.leave.Abreast paths c'.leave := by
  have hdepth := h.depth
  unfold Context.leave
  cases hc : c.callers <;> cases hc' : c'.callers
  · exact h.toAbreast
  · simp [hc, hc'] at hdepth
  · simp [hc, hc'] at hdepth
  · rename_i f rest f' rest'
    rw [hc, hc'] at hdepth
    refine ⟨h.scopes, Nat.succ.inj hdepth, h.discarded, fun hp => ?_⟩
    have heq := h.told hp
    subst heq
    rw [hc] at hc'
    cases hc'
    rfl

end Simulation

end ShaderFront
