import ShaderFront.Mixin.Recipe
import ShaderFront.Proofs.Mixin.Exchanges
import ShaderFront.Proofs.Mixin.Simulation

/-!
# Slots are brackets

How a generator ends is told by the word of brackets it opens and closes itself. Which slots its
callers have open and what the generators it expands open and close makes no difference to that;
of the callers' slots only the path speaks.
-/

namespace ShaderFront

open SlotBracket

namespace Exchange

/-- A word is first overdrawn by a closing. -/
theorem exists_overdrawing {exchanges : List Exchange} (h : Overdrawn (word exchanges)) :
    ∃ before x after, exchanges = before ++ x :: after ∧ x.op.bracket? = some .closing ∧
      ¬Overdrawn (word before) ∧ Overdrawn (word (before ++ [x])) := by
  induction exchanges using List.reverseRecOn with
  | nil => exact absurd h (by decide)
  | append_singleton exchanges x ih =>
    by_cases hearlier : Overdrawn (word exchanges)
    · obtain ⟨before, y, after, rfl, hy⟩ := ih hearlier
      exact ⟨before, y, after ++ [x], by simp, hy⟩
    · refine ⟨exchanges, x, [], rfl, ?_, hearlier, h⟩
      rw [word_snoc] at h
      cases hx : x.op.bracket? with
      | none => exact absurd (by simpa [hx] using h) hearlier
      | some b =>
        cases b with
        | opening label =>
          rw [hx] at h
          exact absurd (overdrawn_snoc_opening.1 h) hearlier
        | closing => rfl

end Exchange

section Running

variable {setting : Setting} {call : Call} {g : Generator} {target : Tree} {c : Context}
  {before after : List Exchange} {x : Exchange}

/-- A closing of a generator fails if it has closed all it opened. It fails where the caller is. -/
theorem Generator.failure?_closing (hcall : call.Contained)
    (hx : g.exchanges setting call target c = before ++ x :: after)
    (hclosing : x.op.bracket? = some .closing) :
    x.failure? = if unmatched (Exchange.word before) = []
      then some ⟨g.name, c.slotPath, .popWithoutPush⟩ else none := by
  obtain ⟨hstanding, hanswer⟩ := Program.exchange_standing hcall (standing g c) hx
  rw [List.nil_append] at hstanding
  rw [Exchange.failure?, hanswer, Op.failure?_closing hstanding hclosing]
  split
  · rename_i hnone
    have hlabels : x.before.labels = [] := by simpa [hnone] using hstanding.opened
    simp only [Context.fail, hstanding.mixin, Context.slotPath_of_empty hstanding.callers hlabels]
    rfl
  · rfl

/-- As long as a generator has not closed more than it opened, no closing of it fails. -/
theorem Generator.closing_ok (hcall : call.Contained)
    (hsplit : g.exchanges setting call target c = before ++ after)
    (hover : ¬Overdrawn (Exchange.word before)) (hx : x ∈ before)
    (hclosing : x.op.bracket? = some .closing) : x.failure? = none := by
  obtain ⟨earlier, later, rfl⟩ := List.append_of_mem hx
  rw [List.append_assoc, List.cons_append] at hsplit
  rw [failure?_closing hcall hsplit hclosing, if_neg]
  intro hnone
  rw [Exchange.word_append, Exchange.word_cons, hclosing, Option.toList_some,
    ← List.append_assoc] at hover
  by_cases hearlier : Overdrawn (Exchange.word earlier)
  · exact hover ((hearlier.append _).append _)
  · exact hover (((overdrawn_snoc_closing hearlier).2 hnone).append _)

/-- A closing that is one too many fails. -/
theorem Generator.overdrawing_fails (hcall : call.Contained)
    (hx : g.exchanges setting call target c = before ++ x :: after)
    (hclosing : x.op.bracket? = some .closing) (hbefore : ¬Overdrawn (Exchange.word before))
    (hover : Overdrawn (Exchange.word (before ++ [x]))) :
    x.failure? = some ⟨g.name, c.slotPath, .popWithoutPush⟩ := by
  rw [Exchange.word_snoc, hclosing] at hover
  rw [failure?_closing hcall hx hclosing, if_pos ((overdrawn_snoc_closing hbefore).1 hover)]

/-- When a generator returns, the slots it has open are those unmatched. -/
theorem Generator.final_standing (setting : Setting) (hcall : call.Contained) (g : Generator)
    (target : Tree) (c : Context) :
    (c.enter g.name).Standing (Exchange.word (g.exchanges setting call target c))
      (g.final setting call target c) := by
  have hrun := Program.run_standing setting hcall (g.standing c)
    (g.body.run.run target)
  rwa [List.nil_append] at hrun

/-- How a generator ends that returned without a failure. -/
theorem Expansion.ending_of_ok (hcall : call.Contained)
    (hdiscarded : (g.final setting call target c).discarded = false) :
    let word := Exchange.word (g.exchanges setting call target c)
    ending g.name (.ok ()) (g.final setting call target c) =
      match (unmatched word).getLast? with
      | some slot =>
        .error ⟨g.name, "root" ++ String.join
          ((c.openSlots.map (·.label) ++ unmatched word).map ("/" ++ ·)), .unbalanced slot⟩
      | none => .ok () := by
  intro word
  have hstanding := Generator.final_standing setting hcall g target c
  have hopened := hstanding.opened
  have hpath := Context.slotPath_of_callers hstanding.callers
  rw [hopened] at hpath
  rw [Context.labels] at hopened
  unfold ending
  rw [hpath, hdiscarded, ← hopened]
  cases (g.final setting call target c).frame.slots with
  | nil => rfl
  | cons s rest => simp

end Running

/-- The outermost frame never has a slot open. -/
theorem Expansion.callIn_balanced (setting : Setting) (name : String) (p : Parameters) :
    (callIn setting (.start p) .empty name [] (.start p)).2.checkBalanced = .ok () := by
  have h : Contained [] .empty (.start p) (callIn setting (.start p) .empty name [] (.start p)) :=
    expand_contained _ _ _ _ _
  obtain ⟨new, -, hframe⟩ := h.active
  simp only [Context.checkBalanced, Context.frames, h.callers, hframe]
  rfl

/-- How an expansion from scratch becomes a recipe. -/
theorem Recipe.compile_eq (setting : Setting) (name : String) (p : Parameters) :
    let out := Expansion.callIn setting (.start p) .empty name [] (.start p)
    (compile setting name p).1 = out.1.1.map fun _ =>
      ⟨name, if out.2.discarded then .empty else out.1.2, p.toList, out.2.discarded⟩ := by
  intro out
  have hcompile : (compile setting name p).1 = out.1.1.bind fun _ => out.2.checkBalanced.bind
      fun _ => .ok ⟨name, if out.2.discarded then .empty else out.1.2, p.toList,
        out.2.discarded⟩ := rfl
  have hbalanced : out.2.checkBalanced = .ok () := Expansion.callIn_balanced setting name p
  rw [hcompile, hbalanced]
  cases out.1.1 <;> rfl

/-- **Slots are brackets.** Let a generator be started in `c` with so many levels left, not be
discarded, and return the first failure it gets, where no operation fails but closings of slots. Let
`word` be what it opens and closes itself.

* If some prefix closes more than it opens, the generator fails at the closing that completes the
  first such prefix, which closes a slot that the generator did not open.
* Otherwise it is to blame for its last opening that is unmatched, if there is one. The path has the
  slots its callers have open and then its own that are unmatched, in the order of their openings.
* Otherwise it succeeds.

So nothing is left open at the end of a whole expansion. -/
theorem Expansion.invoke_balance (setting : Setting) :
    (∀ (levels : Nat) (g : Generator) (target : Tree) (c : Context),
      let call := expand setting levels
      let exchanges := g.exchanges setting call target c
      let word := Exchange.word exchanges
      let out := invoke setting call g target c
      Step.error? (g.result setting call target c) = exchanges.findSome? (·.failure?) →
      (∀ x ∈ exchanges, x.failure? ≠ none → x.op.bracket? = some .closing) →
      out.2.discarded = false →
        (Overdrawn word →
          let failure : MixinError := ⟨g.name, c.slotPath, .popWithoutPush⟩
          out.1.1 = .error failure ∧
          ∃ before x after, exchanges = before ++ x :: after ∧
            ¬Overdrawn (Exchange.word before) ∧ Overdrawn (Exchange.word (before ++ [x])) ∧
            x.failure? = some failure ∧ ∀ y ∈ before, y.failure? = none) ∧
        (¬Overdrawn word → out.1.1 =
          match (unmatched word).getLast? with
          | some slot =>
            .error ⟨g.name, "root" ++ String.join
              ((c.openSlots.map (·.label) ++ unmatched word).map ("/" ++ ·)), .unbalanced slot⟩
          | none => .ok ())) ∧
    ∀ name p, (callIn setting (.start p) .empty name [] (.start p)).2.checkBalanced = .ok () := by
  refine ⟨fun levels g target c => ?_, callIn_balanced setting⟩
  intro call exchanges word out hreturns honly hdiscarded
  have hcall : call.Contained := expand_contained levels
  have hout : out.1.1 = ending g.name (g.result setting call target c)
      (g.final setting call target c) := rfl
  have passed {before after : List Exchange} (hsplit : exchanges = before ++ after)
      (hover : ¬Overdrawn (Exchange.word before)) : ∀ y ∈ before, y.failure? = none := by
    intro y hy
    by_contra hfails
    have hclosing := honly y (hsplit ▸ List.mem_append_left _ hy) hfails
    exact hfails (Generator.closing_ok hcall hsplit hover hy hclosing)
  constructor
  · intro hover failure
    obtain ⟨before, x, after, hx, hclosing, hbefore, hfirst⟩ := Exchange.exists_overdrawing hover
    have hfails : x.failure? = some failure :=
      Generator.overdrawing_fails hcall hx hclosing hbefore hfirst
    have hnone : before.findSome? (·.failure?) = none :=
      List.findSome?_eq_none_iff.2 (passed hx hbefore)
    refine ⟨?_, before, x, after, hx, hbefore, hfirst, hfails, passed hx hbefore⟩
    rw [hx, List.findSome?_append, hnone, Option.none_or, List.findSome?_cons, hfails] at hreturns
    rw [hout, Step.error?_eq_some.1 hreturns]
    rfl
  · intro hover
    have hnone : exchanges.findSome? (·.failure?) = none :=
      List.findSome?_eq_none_iff.2 (passed (List.append_nil exchanges).symm hover)
    rw [hout, Step.error?_eq_none.1 (hreturns.trans hnone)]
    exact ending_of_ok hcall ((Context.discarded_leave _).symm.trans hdiscarded)

/-- A generator that opens one slot, closes it and closes another one. -/
def greedy : Generator :=
  .scripted "Greedy" [] [.openSlot .single "own" .empty, .closeSlot, .closeSlot]

/-- A generator that opens two slots and closes one. -/
def forgetful : Generator :=
  .scripted "Forgetful" []
    [.openSlot .single "outer" .empty, .openSlot .array "inner" .empty, .closeSlot]

/-- Both in a caller that has a slot open. -/
theorem Expansion.invoke_balance_blames :
    let setting : Setting := ⟨⟨[greedy, forgetful]⟩, 1⟩
    let c := (Context.start (.ofList [])).openSlot .array "lights" .empty
    (invoke setting (expand setting 1) greedy .empty c).1.1 =
        .error ⟨"Greedy", "root/lights[]", .popWithoutPush⟩ ∧
      (invoke setting (expand setting 1) forgetful .empty c).1.1 =
        .error ⟨"Forgetful", "root/lights[]/outer", .unbalanced "outer"⟩ := by
  intro setting c
  obtain ⟨hover, -⟩ := (invoke_balance setting).1 1 greedy .empty c rfl (by decide) rfl
  obtain ⟨-, hopen⟩ := (invoke_balance setting).1 1 forgetful .empty c rfl (by decide) rfl
  exact ⟨(hover (by decide)).1, hopen (by decide)⟩

end ShaderFront
