import ShaderFront.Mixin.Script
import ShaderFront.Proofs.Mixin.Append
import ShaderFront.Proofs.Mixin.Containment

/-!
# Composing mixins

`compose` opens a slot, expands a mixin into it and closes it. The mixin may do what it likes, and
it may fail; since an expansion gives back the frame it found, the slot on top is still the one that
was opened, with what the mixin has built so far. So closing it does not fail, and it puts that
content into the tree that was active before.
-/

namespace ShaderFront

/-- A tree after a child was put into a slot. A single slot holds the child, an array slot has it as
one more item at the end, and all else is as before. -/
structure Tree.Gains (before : Tree) (kind : SlotKind) (slot : String) (child after : Tree) :
    Prop where
  classes : after.classes = before.classes
  defines : after.defines = before.defines
  slots : ∀ name, kind = .array ∨ name ≠ slot → after.slot? name = before.slot? name
  arrays : ∀ name, kind = .single ∨ name ≠ slot → after.array? name = before.array? name
  holds : kind = .single → after.slot? slot = some child
  last : kind = .array → before.Ordered →
    after.array? slot = some ((before.array? slot).getD [] ++ [child])

theorem OpenSlot.attach_gains (s : OpenSlot) (t : Tree) :
    t.Gains s.kind s.name s.child (s.attach t) := by
  obtain ⟨name, kind, child⟩ := s
  cases kind with
  | single => exact {
      classes := rfl
      defines := rfl
      slots := fun other h => t.slot?_setSlot_ne name other child (h.resolve_left nofun)
      arrays := fun _ _ => rfl
      holds := fun _ => t.slot?_setSlot_self name child
      last := nofun }
  | array => exact {
      classes := rfl
      defines := rfl
      slots := fun _ _ => rfl
      arrays := fun other h => t.array?_pushItem_ne name other child (h.resolve_left nofun)
      holds := nofun
      last := fun _ ordered => Tree.lookup_alter_self name _ ordered.arrays }

/-- Closing the slot that was opened last, with other content. -/
theorem Context.closeSlot_of_openSlot {c d : Context} {kind : SlotKind} {slot : String}
    {child : Tree} (hframe : d.frame = (c.openSlot kind slot child).frame) (target : Tree) :
    let new := (⟨slot, kind, child⟩ : OpenSlot).attach (c.active target)
    (d.closeSlot target).1 = (.ok (), (c.setActive target new).1) ∧
      (d.closeSlot target).2.callers = d.callers ∧
      (d.closeSlot target).2.frame = (c.setActive target new).2.frame := by
  intro new
  let below : Context := { d with frame := { d.frame with slots := c.frame.slots } }
  have hbelow : below.frame = c.frame := by simp [below, hframe, openSlot]
  have hactive : below.active target = c.active target := by
    rw [Context.active, hbelow, Context.active]
  have hclose : d.closeSlot target =
      ((.ok (), (below.setActive target new).1), (below.setActive target new).2) := by
    have hslots : d.frame.slots = ⟨slot, kind, child⟩ :: c.frame.slots := by
      rw [hframe, openSlot]
    simp only [closeSlot, hslots]
    rw [show new = (⟨slot, kind, child⟩ : OpenSlot).attach (below.active target) by rw [hactive]]
  obtain ⟨htree, hnew⟩ := setActive_congr hbelow target new
  rw [hclose, htree]
  exact ⟨rfl, callers_setActive below target new, hnew⟩

theorem Generation.both_ok (result : Except MixinError Unit) : both result (.ok ()) = result := by
  cases result <;> rfl

namespace Expansion

theorem build_compose (setting : Setting) (c : Context) (target : Tree) (kind : SlotKind)
    (slot name : String) :
    let inner := callIn setting c target name [] (c.openSlot kind slot .empty)
    let closed := inner.2.closeSlot inner.1.2
    build setting (Generation.compose kind slot name) target c =
      ((Generation.both inner.1.1 closed.1.1, closed.1.2), closed.2) :=
  rfl

/-- **Composing closes the slot it opens, and fails just if the expansion fails.** The content the
expansion has built goes into the active tree, at that slot. -/
theorem compose_closes (setting : Setting) (c : Context) (target : Tree) (kind : SlotKind)
    (slot name : String) :
    let inner := callIn setting c target name [] (c.openSlot kind slot .empty)
    let out := build setting (Generation.compose kind slot name) target c
    ∃ child new,
      (inner.2.frame.slots = ⟨slot, kind, child⟩ :: c.frame.slots ∧
        (inner.2.closeSlot inner.1.2).1.1 = .ok ()) ∧
      out.1.1 = inner.1.1 ∧
      (out.2.callers = c.callers ∧ out.2.frame.outline = c.frame.outline) ∧
      (out.1.2 = (c.setActive target new).1 ∧ out.2.frame = (c.setActive target new).2.frame) ∧
      (c.active target).Gains kind slot child new := by
  intro inner out
  have contained : Contained [] target (c.openSlot kind slot .empty) inner :=
    expand_contained _ target name [] _
  obtain ⟨child, htree, hopen⟩ := contained.active
  -- a slot is open, so the target is not the active tree
  have htarget : inner.1.2 = target := htree
  have hframe : inner.2.frame = (c.openSlot kind slot child).frame := hopen
  let s : OpenSlot := ⟨slot, kind, child⟩
  obtain ⟨hclosed, hcallers, hnew⟩ := Context.closeSlot_of_openSlot hframe target
  have hout : out = ((inner.1.1, (c.setActive target (s.attach (c.active target))).1),
      (inner.2.closeSlot target).2) := by
    have hrun := build_compose setting c target kind slot name
    dsimp only at hrun
    rw [htarget, hclosed, Generation.both_ok] at hrun
    exact hrun
  rw [htarget, hclosed, hout]
  refine ⟨child, s.attach (c.active target), ⟨?_, rfl⟩, rfl, ⟨?_, ?_⟩, ⟨rfl, hnew⟩,
    s.attach_gains (c.active target)⟩
  · rw [hframe, Context.openSlot]
  · exact hcallers.trans contained.callers
  · rw [hnew, Context.outline_setActive]

/-- A mixin that closes a slot it has not opened. -/
def spots : Setting where
  registry := ⟨[.scripted "Spot" [] [.addClass ⟨"SpotLight", []⟩, .closeSlot]]⟩
  maxDepth := defaultMaxDepth

/-- The expansion fails, and what it has built becomes an item of the array slot. -/
theorem compose_closes_spots :
    let c := Context.start (.ofList [])
    let light : Tree := Tree.empty.addClass ⟨"SpotLight", []⟩
    let out := build spots (Generation.compose .array "lights" "Spot") .empty c
    out.1.1 = .error ⟨"Spot", "root/lights[]", .popWithoutPush⟩ ∧ out.2.frame.slots = [] ∧
      Tree.empty.Ordered ∧ out.1.2.array? "lights" = some [light] := by
  intro c light out
  obtain ⟨child, new, ⟨hslots, -⟩, hresult, -, ⟨htree, hframe⟩, gains⟩ :=
    compose_closes spots c .empty .array "lights" "Spot"
  have hchild : child = light := by
    cases hslots
    rfl
  refine ⟨hresult.trans rfl, congrArg Frame.slots hframe, Tree.ordered_empty, ?_⟩
  rw [htree, ← hchild]
  exact gains.last rfl Tree.ordered_empty

end Expansion
end ShaderFront
