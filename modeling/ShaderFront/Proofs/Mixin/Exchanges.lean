import ShaderFront.Mixin.Script
import ShaderFront.Proofs.Mixin.Brackets
import ShaderFront.Proofs.Mixin.Containment

/-!
# What a generator asks for

A run of a generator is a list of exchanges: the operations it performs itself, each with the state
it found and the answer it got. What the generators it expands do is not in the list, since an
expansion is one operation of its caller.

Of the frames a generator sees only its own changes, and there the slots follow the brackets of its
word. `Context.Standing` says so of one state; it is carried from exchange to exchange.
-/

namespace ShaderFront

theorem Step.error?_eq_some {result : Except MixinError Unit} {e : MixinError} :
    error? result = some e ↔ result = .error e := by
  cases result <;> simp [error?]

theorem Step.error?_eq_none {result : Except MixinError Unit} :
    error? result = none ↔ result = .ok () := by
  cases result <;> simp [error?]

namespace Op

/-- The failure that an answer reports, if it reports one. -/
def failure? : (o : Op) → o.Answer → Option MixinError
  | .mixin .., answer | .mixinValue .., answer | .mixinParam .., answer | .closeSlot _, answer =>
    Step.error? answer.1
  | .checkBalanced, answer => Step.error? answer
  | _, _ => none

/-- The bracket of an operation that opens or closes a slot. -/
def bracket? : Op → Option SlotBracket
  | .openSlot kind slot child => some (.opening (OpenSlot.label ⟨slot, kind, child⟩))
  | .closeSlot _ => some .closing
  | _ => none

end Op

/-- An operation of a run, with the state it found and its answer. -/
structure Exchange where
  before : Context
  op : Op
  answer : op.Answer

namespace Exchange

/-- The error of the exchange itself, if it is one. -/
def failure? (x : Exchange) : Option MixinError := x.op.failure? x.answer

/-- The brackets of some exchanges in order. -/
def word (exchanges : List Exchange) : List SlotBracket := exchanges.filterMap (·.op.bracket?)

@[simp] theorem word_nil : word [] = [] := rfl

/-- The word of two histories is that of the first and then that of the second. -/
theorem word_append (xs ys : List Exchange) : word (xs ++ ys) = word xs ++ word ys :=
  List.filterMap_append

theorem word_cons (x : Exchange) (xs : List Exchange) :
    word (x :: xs) = x.op.bracket?.toList ++ word xs := by
  cases h : x.op.bracket? <;> simp [word, h]

theorem word_snoc (xs : List Exchange) (x : Exchange) :
    word (xs ++ [x]) = word xs ++ x.op.bracket?.toList := by
  rw [word_append, word_cons, word_nil, List.append_nil]

end Exchange

/-- One thing after the other: after a failure nothing is done. -/
theorem Generation.program_bind {α β : Type} (m : Generation α) (f : α → Generation β) (t : Tree) :
    (m >>= f).run.run t = (m.run.run t).bind fun
      | (.ok a, t) => (f a).run.run t
      | (.error e, t) => .pure (.error e, t) :=
  congrArg (Program.bind (m.run.run t)) (funext fun (result, t) => by cases result <;> rfl)

/-- The operations of a run in order. -/
def Program.exchanges (setting : Setting) (call : Call) {α : Type} :
    Program α → Context → List Exchange
  | .pure _, _ => []
  | .op o next, c =>
    let (answer, after) := o.run setting call c
    ⟨c, o, answer⟩ :: (next answer).exchanges setting call after

namespace Generator

variable (setting : Setting) (call : Call) (g : Generator) (target : Tree) (c : Context)

/-- The operations that a generator performs itself when it is started in `c`. -/
def exchanges : List Exchange :=
  (g.body.run.run target).exchanges setting call (c.enter g.name)

/-- What a generator that is started in `c` returns. -/
def result : Except MixinError Unit :=
  ((g.body.run.run target).run setting call (c.enter g.name)).1.1

/-- The state in which a generator that is started in `c` returns. -/
def final : Context := ((g.body.run.run target).run setting call (c.enter g.name)).2

end Generator

namespace Context

/-- The labels of the slots that the running generator has open, innermost first. -/
def labels (c : Context) : List String := c.frame.slots.map (·.label)

@[simp] theorem discarded_leave (c : Context) : c.leave.discarded = c.discarded := by
  unfold leave
  split <;> rfl

@[simp] theorem callers_setParam (c : Context) (key : ParamKey) (value : ParamValue) :
    (c.setParam key value).callers = c.callers := by
  unfold setParam
  split <;> rfl

@[simp] theorem frame_setParam (c : Context) (key : ParamKey) (value : ParamValue) :
    (c.setParam key value).frame = c.frame := by
  unfold setParam
  split <;> rfl

theorem popParams_keeps (c : Context) :
    c.popParams.2.callers = c.callers ∧ c.popParams.2.frame = c.frame := by
  unfold popParams
  split
  · split <;> exact ⟨rfl, rfl⟩
  · exact ⟨rfl, rfl⟩

/-- The path ends with the slots of the running generator. -/
theorem slotPath_of_callers {c d : Context} (h : d.callers = c.frame :: c.callers) :
    d.slotPath = "root" ++
      String.join ((c.openSlots.map (·.label) ++ d.labels.reverse).map ("/" ++ ·)) := by
  have hslots : d.openSlots = c.openSlots ++ d.frame.slots.reverse := by
    simp [openSlots, frames, h]
  simp only [slotPath, hslots, labels, ← List.map_reverse, ← List.map_append, List.map_map]
  rfl

theorem slotPath_of_empty {c d : Context} (h : d.callers = c.frame :: c.callers)
    (hempty : d.labels = []) : d.slotPath = c.slotPath := by
  rw [slotPath_of_callers h, hempty, List.reverse_nil, List.append_nil, List.map_map]
  rfl

/-- `c` is a state of the generator that was started in `base`, after it has opened and closed slots
as `word` says: its frame is that generator's, and the slots that are open are those unmatched. -/
structure Standing (base : Context) (word : List SlotBracket) (c : Context) : Prop where
  callers : c.callers = base.callers
  mixin : c.frame.mixin = base.frame.mixin
  opened : c.labels.reverse = SlotBracket.unmatched word

/-- A step that leaves the frame as it was but for the trees in its slots. -/
theorem Standing.outline {base c d : Context} {word : List SlotBracket} (h : base.Standing word c)
    (callers : d.callers = c.callers) (frame : d.frame.outline = c.frame.outline) :
    base.Standing word d where
  callers := callers.trans h.callers
  mixin := (congrArg FrameOutline.mixin frame).trans h.mixin
  opened := by
    have hlabels (f : Frame) : f.slots.map (·.label) =
        f.outline.slots.map fun s => OpenSlot.label ⟨s.1, s.2, .empty⟩ := by
      simp only [Frame.outline, List.map_map]
      rfl
    rw [← h.opened, labels, labels, hlabels, hlabels, frame]

theorem Standing.closeSlot {base c : Context} {word : List SlotBracket} (h : base.Standing word c)
    (target : Tree) : base.Standing (word ++ [.closing]) (c.closeSlot target).2 := by
  have hopened := h.opened
  unfold Context.closeSlot
  split
  · rename_i hslots
    rw [labels, hslots] at hopened
    refine ⟨h.callers, h.mixin, ?_⟩
    rw [SlotBracket.unmatched_snoc_closing, ← hopened, labels, hslots]
    rfl
  · rename_i s rest hslots
    let d : Context := { c with frame := { c.frame with slots := rest } }
    have hd : base.Standing (word ++ [.closing]) d := by
      refine ⟨h.callers, h.mixin, ?_⟩
      rw [SlotBracket.unmatched_snoc_closing, ← hopened, labels, labels, hslots]
      simp [d]
    exact hd.outline (by simp [d]) (outline_setActive ..)

end Context

section Running

open Context

variable {setting : Setting} {call : Call} {base c : Context} {word : List SlotBracket}

/-- One operation moves along the word of its generator. -/
theorem Op.run_standing (hcall : call.Contained) (h : base.Standing word c) (o : Op) :
    base.Standing (word ++ o.bracket?.toList) (o.run setting call c).2 := by
  have kept {d : Context} (callers : d.callers = c.callers)
      (frame : d.frame.outline = c.frame.outline) : base.Standing (word ++ []) d := by
    rw [List.append_nil]
    exact h.outline callers frame
  have expanded {args : List ParamValue} {target : Tree} {out : Outcome × Context}
      (contained : Expansion.Contained args target c out) :
      base.Standing (word ++ []) out.2 := by
    obtain ⟨new, -, hframe⟩ := contained.active
    exact kept contained.callers (by rw [hframe, outline_setActive])
  cases o with
  | openSlot kind slot child =>
    refine ⟨h.callers, h.mixin, ?_⟩
    have hlabels : (c.openSlot kind slot child).labels =
        OpenSlot.label ⟨slot, kind, child⟩ :: c.labels := rfl
    rw [run, hlabels, List.reverse_cons, h.opened]
    exact (SlotBracket.unmatched_snoc_opening ..).symm
  | closeSlot target => exact h.closeSlot target
  | mixin target name args => exact expanded (hcall target name args c)
  | mixinValue target value => exact expanded (runMixinValue_contained hcall target value c)
  | mixinParam target key => exact expanded (runMixinParam_contained hcall target key c)
  | editActive target edit => exact kept (callers_setActive ..) (outline_setActive ..)
  | setParam key value =>
    exact kept (c.callers_setParam key value) (congrArg _ (c.frame_setParam key value))
  | popParams =>
    exact kept c.popParams_keeps.1 (congrArg Frame.outline c.popParams_keeps.2)
  | param | pushParams | parameterDepth | active | discard | isDiscarded | depth | slotPath
  | checkBalanced | maxDepth | mixinNames | observe => exact kept rfl rfl

theorem Generator.standing (g : Generator) (c : Context) :
    (c.enter g.name).Standing [] (c.enter g.name) :=
  ⟨rfl, rfl, rfl⟩

/-- A run moves along the word of its generator. -/
theorem Program.run_standing {α : Type} (setting : Setting) (hcall : call.Contained)
    (h : base.Standing word c) (p : Program α) :
    base.Standing (word ++ Exchange.word (p.exchanges setting call c))
      (p.run setting call c).2 := by
  induction p generalizing c word with
  | pure a => simpa [exchanges, run] using h
  | op o next ih =>
    rw [exchanges, Exchange.word_cons, ← List.append_assoc]
    exact ih _ (Op.run_standing hcall h o)

/-- Each exchange of a run is where its word has come to, and is answered from there. -/
theorem Program.exchange_standing {α : Type} (hcall : call.Contained) (h : base.Standing word c)
    {p : Program α} {before after : List Exchange} {x : Exchange}
    (hx : p.exchanges setting call c = before ++ x :: after) :
    base.Standing (word ++ Exchange.word before) x.before ∧
      x.answer = (x.op.run setting call x.before).1 := by
  induction p generalizing c word before with
  | pure a => simp [exchanges] at hx
  | op o next ih =>
    rw [exchanges] at hx
    cases before with
    | nil =>
      obtain ⟨rfl, -⟩ := List.cons.inj hx
      rw [Exchange.word_nil, List.append_nil]
      exact ⟨h, rfl⟩
    | cons y before =>
      obtain ⟨rfl, hrest⟩ := List.cons.inj hx
      rw [Exchange.word_cons, ← List.append_assoc]
      exact ih _ (Op.run_standing hcall h o) hrest

/-- A closing fails if nothing of its generator is unmatched. -/
theorem Op.failure?_closing (h : base.Standing word c) {o : Op}
    (hclosing : o.bracket? = some .closing) :
    o.failure? (o.run setting call c).1 =
      if SlotBracket.unmatched word = [] then some (c.fail .popWithoutPush) else none := by
  obtain ⟨target, rfl⟩ : ∃ target, o = .closeSlot target := by
    cases o <;> simp [bracket?] at hclosing ⊢
  have hopened := h.opened
  rw [labels] at hopened
  simp only [failure?, run, Context.closeSlot]
  cases hslots : c.frame.slots with
  | nil =>
    have hnone : SlotBracket.unmatched word = [] := by rw [← hopened, hslots]; rfl
    simp [hnone, Step.error?]
  | cons s rest =>
    have hsome : SlotBracket.unmatched word ≠ [] := by simp [← hopened, hslots]
    simp [hsome, Step.error?]

end Running

end ShaderFront
