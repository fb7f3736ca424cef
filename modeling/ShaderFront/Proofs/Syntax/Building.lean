import Mathlib.Data.List.Induction
import ShaderFront.Proofs.Syntax.Reach
import ShaderFront.Syntax.Builder

/-!
# Units that are built

What a builder holds is read off the steps alone: the nodes and items that they make, in their order
and each at the place that was moved to last (`ofSteps`). A node gets the number of nodes of its sort
before it as its id. So if every id that a step passes on was answered to an earlier step, children
come before their parents, and the unit is well-formed however the steps are mixed.
-/

namespace ShaderFront

namespace BuildStep

/-- The place that a step moves to. -/
def place? (file : Nat) : BuildStep → Option Span
  | .moveTo line column => some (.point file line column)
  | .useSpan span => some span
  | _ => none

/-- The expression that a step makes at a place. -/
def expr? (place : Span) : BuildStep → Option Expr
  | .expr form => some ⟨form, place⟩
  | .cast type operand => some ⟨.cast ⟨type, place⟩ operand, place⟩
  | _ => none

/-- The statement that a step makes at a place. -/
def stmt? (place : Span) : BuildStep → Option Stmt
  | .stmt form => some ⟨form, place⟩
  | .declare name type init => some ⟨.declare ⟨name, ⟨type, place⟩, init, place⟩, place⟩
  | _ => none

/-- The item that a step makes at a place. -/
def item? (place : Span) : BuildStep → Option Item
  | .function name params returns body =>
    some (.function ⟨name, params.map fun (n, t) => ⟨n, ⟨t, place⟩, place⟩, ⟨returns, place⟩,
      body, place⟩)
  | .functionOf name params returns body =>
    some (.function ⟨name, params, ⟨returns, place⟩, body, place⟩)
  | .global name type init => some (.global ⟨name, ⟨type, place⟩, init, place⟩)
  | .struct name fields =>
    some (.struct ⟨name, fields.map fun (n, t) => ⟨n, ⟨t, place⟩, place⟩, place⟩)
  | .typedef name target => some (.typedef ⟨name, ⟨target, place⟩, place⟩)
  | _ => none

/-- The ids that a step passes on. -/
def children : BuildStep → List (ExprId ⊕ StmtId)
  | .expr form => form.children.map .inl
  | .cast _ operand => [.inl operand]
  | .stmt form => form.children
  | .declare _ _ init | .global _ _ init => init.toList.map .inl
  | .function _ _ _ body | .functionOf _ _ _ body => [.inr body]
  | .moveTo .. | .useSpan _ | .struct .. | .typedef .. => []

/-- The last place that steps have moved to, or else the first one of the file. -/
def placeAfter (file : Nat) (steps : List BuildStep) : Span :=
  (steps.filterMap (·.place? file)).getLastD (.point file 1 1)

/-- What steps make in their order, each at the place where it is made. -/
def made {α : Type} (makes? : Span → BuildStep → Option α) (file : Nat) (steps : List BuildStep) :
    List α :=
  steps.zipIdx.filterMap fun (step, i) => makes? (placeAfter file (steps.take i)) step

section Made

variable {α : Type} (makes? : Span → BuildStep → Option α) (file : Nat)

theorem placeAfter_snoc (steps : List BuildStep) (step : BuildStep) :
    placeAfter file (steps ++ [step]) = (step.place? file).getD (placeAfter file steps) := by
  cases h : step.place? file <;> simp [placeAfter, h]

theorem made_snoc (steps : List BuildStep) (step : BuildStep) :
    made makes? file (steps ++ [step]) =
      made makes? file steps ++ (makes? (placeAfter file steps) step).toList := by
  -- The places of the steps before are not changed by a step after them.
  have hbefore : (steps.zipIdx.filterMap fun (s, i) =>
        makes? (placeAfter file ((steps ++ [step]).take i)) s) = made makes? file steps := by
    refine List.filterMap_congr fun ⟨s, i⟩ hmem => ?_
    have hi : i < steps.length := by simpa using (List.mem_zipIdx hmem).2.1
    dsimp only
    rw [List.take_append_of_le_length hi.le]
  rw [made, List.zipIdx_append, List.filterMap_append, hbefore]
  cases h : makes? (placeAfter file steps) step <;> simp [h]

theorem made_prefix (before after : List BuildStep) :
    made makes? file before <+: made makes? file (before ++ after) := by
  induction after using List.reverseRecOn with
  | nil => rw [List.append_nil]
  | append_singleton after step ih =>
    rw [← List.append_assoc, made_snoc]
    exact ih.trans (List.prefix_append ..)

/-- What is made by a step comes after all that was made before it. -/
theorem made_getElem? {before : List BuildStep} (after : List BuildStep) {step : BuildStep} {x : α}
    (h : makes? (placeAfter file before) step = some x) :
    (made makes? file (before ++ step :: after))[(made makes? file before).length]? = some x := by
  obtain ⟨rest, heq⟩ := made_prefix makes? file (before ++ [step]) after
  rw [List.append_assoc, List.singleton_append] at heq
  rw [← heq, made_snoc, h]
  simp

end Made
end BuildStep

open BuildStep

/-! ## Runs -/

namespace UnitBuilder

theorem run_append (b : UnitBuilder) (before after : List BuildStep) :
    b.run (before ++ after) = ((b.run before).1 ++ ((b.run before).2.run after).1,
      ((b.run before).2.run after).2) := by
  induction before generalizing b with
  | nil => rfl
  | cons step rest ih => simp only [List.cons_append, run, ih]

theorem length_answers (b : UnitBuilder) (steps : List BuildStep) :
    (b.run steps).1.length = steps.length := by
  induction steps generalizing b with
  | nil => rfl
  | cons step rest ih => simp [run, ih]

/-- The builder of a file after some steps. -/
def ofSteps (file : Nat) (steps : List BuildStep) : UnitBuilder where
  unit :=
    { file := file
      items := made item? file steps
      arena := ⟨(made expr? file steps).toArray, (made stmt? file steps).toArray⟩ }
  span := placeAfter file steps

/-- What a step is answered after others: the number of nodes of its sort that they made, if it
makes one itself. -/
def answerAfter (file : Nat) (before : List BuildStep) (step : BuildStep) : BuildAnswer where
  expr := (step.expr? (placeAfter file before)).map fun _ => ⟨(made expr? file before).length⟩
  stmt := (step.stmt? (placeAfter file before)).map fun _ => ⟨(made stmt? file before).length⟩

theorem step_ofSteps (file : Nat) (steps : List BuildStep) (step : BuildStep) :
    (ofSteps file steps).step step = (answerAfter file steps step, ofSteps file (steps ++ [step])) := by
  cases step <;>
    simp [ofSteps, answerAfter, UnitBuilder.step, addExpr, addStmt, addItem, Arena.addExpr,
      Arena.addStmt, varDecl, fields, writtenType, made_snoc, placeAfter_snoc, place?,
      BuildStep.expr?, BuildStep.stmt?, BuildStep.item?]

/-- A builder holds what the steps make, and nothing else. -/
theorem run_new (file : Nat) (steps : List BuildStep) :
    ((new file).run steps).2 = ofSteps file steps := by
  induction steps using List.reverseRecOn with
  | nil => rfl
  | append_singleton steps step ih =>
    rw [run_append, ih, run, step_ofSteps]
    rfl

end UnitBuilder

/-! ## Units stay in ascending order -/

namespace ShaderUnit.Ascending

variable {u : ShaderUnit}

/-- A new expression has the largest id, so whatever it may refer to comes before it. -/
theorem addExpr (h : u.Ascending) (e : Expr)
    (has : ∀ c ∈ e.form.children, u.arena.Has (.inl c)) :
    ShaderUnit.Ascending { u with arena := (u.arena.addExpr e).2 } := by
  have hsize : (u.arena.addExpr e).2.exprs.size = u.arena.exprs.size + 1 := Array.size_push ..
  have hmono {child} (hchild : u.arena.Has child) : (u.arena.addExpr e).2.Has child :=
    hchild.mono (by omega) le_rfl
  constructor
  · intro i hi c hc
    dsimp only [Arena.addExpr] at hi hc
    rw [Array.getElem_push] at hc
    split at hc
    · exact h.exprs i _ c hc
    · have hlast : i = u.arena.exprs.size := by
        rw [Array.size_push] at hi
        omega
      rw [hlast]
      exact has c hc
  · intro i hi child hchild
    obtain ⟨hhas, hbefore⟩ := h.stmts i hi child hchild
    exact ⟨hmono hhas, hbefore⟩
  · intro item hitem child hchild
    exact hmono (h.items item hitem child hchild)

theorem addStmt (h : u.Ascending) (s : Stmt)
    (has : ∀ child ∈ s.form.children, u.arena.Has child) :
    ShaderUnit.Ascending { u with arena := (u.arena.addStmt s).2 } := by
  have hsize : (u.arena.addStmt s).2.stmts.size = u.arena.stmts.size + 1 := Array.size_push ..
  have hmono {child} (hchild : u.arena.Has child) : (u.arena.addStmt s).2.Has child :=
    hchild.mono le_rfl (by omega)
  constructor
  · exact h.exprs
  · intro i hi child hchild
    dsimp only [Arena.addStmt] at hi hchild
    rw [Array.getElem_push] at hchild
    split at hchild
    · obtain ⟨hhas, hbefore⟩ := h.stmts i _ child hchild
      exact ⟨hmono hhas, hbefore⟩
    · have hlast : i = u.arena.stmts.size := by
        rw [Array.size_push] at hi
        omega
      refine ⟨hmono (has child hchild), ?_⟩
      rintro c rfl
      rw [hlast]
      exact has (.inr c) hchild
  · intro item hitem child hchild
    exact hmono (h.items item hitem child hchild)

theorem addItem (h : u.Ascending) (item : Item)
    (has : ∀ child ∈ item.children, u.arena.Has child) :
    ShaderUnit.Ascending { u with items := u.items ++ [item] } := by
  constructor
  · exact h.exprs
  · exact h.stmts
  · intro other hother
    obtain hbefore | hlast := List.mem_append.1 hother
    · exact h.items other hbefore
    · cases List.mem_singleton.1 hlast
      exact has

end ShaderUnit.Ascending

/-- The answer is this id. -/
def BuildAnswer.Gives (answer : BuildAnswer) : ExprId ⊕ StmtId → Prop
  | .inl id => answer.expr = some id
  | .inr id => answer.stmt = some id

instance (answer : BuildAnswer) : (id : ExprId ⊕ StmtId) → Decidable (answer.Gives id)
  | .inl id => inferInstanceAs (Decidable (answer.expr = some id))
  | .inr id => inferInstanceAs (Decidable (answer.stmt = some id))

namespace UnitBuilder

/-- Every id that a step passes on was the answer to an earlier step. -/
def AnsweredFirst (b : UnitBuilder) (steps : List BuildStep) : Prop :=
  ∀ i (h : i < steps.length), ∀ child ∈ steps[i].children,
    ∃ answer ∈ (b.run steps).1.take i, answer.1.Gives child

instance (b : UnitBuilder) (steps : List BuildStep) : Decidable (b.AnsweredFirst steps) :=
  inferInstanceAs (Decidable (∀ i (h : i < steps.length), ∀ child ∈ steps[i].children,
    ∃ answer ∈ (b.run steps).1.take i, answer.1.Gives child))

variable {b : UnitBuilder} {steps : List BuildStep} {step : BuildStep}

theorem ascending_step (h : b.unit.Ascending)
    (has : ∀ child ∈ step.children, b.unit.arena.Has child) : (b.step step).2.unit.Ascending := by
  cases step with
  | moveTo | useSpan => exact h
  | expr => exact h.addExpr _ fun c hc => has _ (List.mem_map_of_mem hc)
  | cast => exact h.addExpr _ fun c hc => has _ (List.mem_map_of_mem hc)
  | stmt | declare => exact h.addStmt _ has
  | function | functionOf | global | struct | typedef => exact h.addItem _ has

/-- A step takes no node away, and the node that it is answered with is there. -/
theorem has_step (b : UnitBuilder) (step : BuildStep) :
    (∀ id, b.unit.arena.Has id → (b.step step).2.unit.arena.Has id) ∧
      ∀ id, (b.step step).1.Gives id → (b.step step).2.unit.arena.Has id := by
  cases step with
  | expr | cast =>
    refine ⟨fun id h => h.mono (Nat.le.intro (Array.size_push ..).symm) le_rfl, ?_⟩
    rintro (id | id) ⟨⟩
    exact Nat.lt_of_lt_of_eq (Nat.lt_succ_self _) (Array.size_push ..).symm
  | stmt | declare =>
    refine ⟨fun id h => h.mono le_rfl (Nat.le.intro (Array.size_push ..).symm), ?_⟩
    rintro (id | id) ⟨⟩
    exact Nat.lt_of_lt_of_eq (Nat.lt_succ_self _) (Array.size_push ..).symm
  | _ =>
    refine ⟨fun _ h => h, ?_⟩
    rintro (id | id) ⟨⟩

theorem AnsweredFirst.snoc (h : b.AnsweredFirst (steps ++ [step])) :
    b.AnsweredFirst steps ∧
      ∀ child ∈ step.children, ∃ answer ∈ (b.run steps).1, answer.1.Gives child := by
  have htake (i : Nat) (hi : i ≤ steps.length) :
      (b.run (steps ++ [step])).1.take i = (b.run steps).1.take i := by
    rw [run_append]
    exact List.take_append_of_le_length (by rwa [length_answers])
  constructor
  · intro i hi child hchild
    have hlt : i < (steps ++ [step]).length := by
      rw [List.length_append]
      omega
    rw [← htake i hi.le]
    refine h i hlt child ?_
    rwa [List.getElem_append_left hi]
  · intro child hchild
    have hanswered := h steps.length (by simp) child (by simpa using hchild)
    rwa [htake _ le_rfl, List.take_of_length_le (length_answers b steps).le] at hanswered

/-- The invariant of a run: the order of the unit, and that whatever was answered is there. -/
theorem ascending_run (h : b.unit.Ascending) (first : b.AnsweredFirst steps) :
    (b.run steps).2.unit.Ascending ∧
      ∀ answer ∈ (b.run steps).1, ∀ id, answer.1.Gives id →
        (b.run steps).2.unit.arena.Has id := by
  induction steps using List.reverseRecOn with
  | nil => exact ⟨h, nofun⟩
  | append_singleton steps step ih =>
    obtain ⟨hfirst, hchildren⟩ := first.snoc
    obtain ⟨hascending, hhas⟩ := ih hfirst
    obtain ⟨hkept, hnew⟩ := (b.run steps).2.has_step step
    rw [run_append]
    constructor
    · refine ascending_step hascending fun child hchild => ?_
      obtain ⟨answer, hanswer, hgives⟩ := hchildren child hchild
      exact hhas answer hanswer child hgives
    · intro answer hanswer id hgives
      obtain hold | hlast := List.mem_append.1 hanswer
      · exact hkept id (hhas answer hold id hgives)
      · cases List.mem_singleton.1 hlast
        exact hnew id hgives

/-! ## What is kept of a step -/

/-- How a step is answered that is made at a place: with an id under which its node is held, if it
makes one. No id reaches `noIndex`, which is where an arena has none left to give. -/
inductive Kept (a : Arena) (place : Span) (step : BuildStep) : BuildAnswer → Prop where
  | expr {id : ExprId} {e : Expr} (makes : step.expr? place = some e) (held : a.expr? id = some e)
      (valid : id.index < noIndex) : Kept a place step { expr := some id }
  | stmt {id : StmtId} {s : Stmt} (makes : step.stmt? place = some s) (held : a.stmt? id = some s)
      (valid : id.index < noIndex) : Kept a place step { stmt := some id }
  | other (expr : step.expr? place = none) (stmt : step.stmt? place = none) : Kept a place step {}

theorem stmt?_of_expr? {place : Span} {e : Expr} (h : step.expr? place = some e) :
    step.stmt? place = none := by
  cases step with
  | expr | cast => rfl
  | _ => cases h

/-- No step after it changes what a step has made. -/
theorem kept_ofSteps {file : Nat} {before after : List BuildStep}
    (exprs : (made expr? file (before ++ step :: after)).length ≤ noIndex)
    (stmts : (made stmt? file (before ++ step :: after)).length ≤ noIndex) :
    Kept (ofSteps file (before ++ step :: after)).unit.arena (placeAfter file before) step
      (answerAfter file before step) := by
  cases hexpr : step.expr? (placeAfter file before) with
  | some e =>
    have hheld := made_getElem? expr? file after hexpr
    have hlt := (List.getElem?_eq_some_iff.1 hheld).1
    rw [answerAfter, hexpr, stmt?_of_expr? hexpr]
    exact .expr hexpr (List.getElem?_toArray.trans hheld) (hlt.trans_le exprs)
  | none =>
    cases hstmt : step.stmt? (placeAfter file before) with
    | some s =>
      have hheld := made_getElem? stmt? file after hstmt
      have hlt := (List.getElem?_eq_some_iff.1 hheld).1
      rw [answerAfter, hexpr, hstmt]
      exact .stmt hstmt (List.getElem?_toArray.trans hheld) (hlt.trans_le stmts)
    | none =>
      rw [answerAfter, hexpr, hstmt]
      exact .other hexpr hstmt

theorem answer_new (file : Nat) (before after : List BuildStep) (step : BuildStep) :
    ((new file).run (before ++ step :: after)).1[before.length]? =
      some (answerAfter file before step, placeAfter file (before ++ [step])) := by
  rw [run_append, run_new, List.getElem?_append_right (length_answers ..).le, length_answers,
    Nat.sub_self, run, step_ofSteps]
  rfl

/-- **Built units are well-founded.** If every id that a step passes on was answered to an earlier
step, and no more nodes of a sort are made than there are ids, then:

* children of one sort have smaller ids than their parents, and all ids are in range, those of
  bodies and initial values included; so no node lies below itself;
* the unit holds the nodes and items that the steps make, and nothing else, in the order of the
  steps and each with the place that was moved to last;
* each step that makes a node finds an id left for it, and is answered with that id, under which the
  unit holds the node. -/
theorem run_ascending (file : Nat) (steps : List BuildStep) (first : (new file).AnsweredFirst steps)
    (exprs : (made expr? file steps).length ≤ noIndex)
    (stmts : (made stmt? file steps).length ≤ noIndex) :
    let answers := ((new file).run steps).1
    let u := ((new file).run steps).2.unit
    u.Ascending ∧ u.WellFormed ∧ u.file = file ∧
    u.arena.exprs.toList = made expr? file steps ∧
    u.arena.stmts.toList = made stmt? file steps ∧
    u.items = made item? file steps ∧
    answers.length = steps.length ∧
    ∀ before step after, steps = before ++ step :: after →
      ∃ answer, answers[before.length]? = some (answer, placeAfter file (before ++ [step])) ∧
        Kept u.arena (placeAfter file before) step answer := by
  intro answers u
  have hascending : u.Ascending :=
    (ascending_run (b := new file) ⟨nofun, nofun, nofun⟩ first).1
  have hsteps : u = (ofSteps file steps).unit := congrArg unit (run_new file steps)
  refine ⟨hascending, hascending.wellFormed, by rw [hsteps]; rfl, by rw [hsteps]; rfl,
    by rw [hsteps]; rfl, by rw [hsteps]; rfl, length_answers .., ?_⟩
  rintro before step after rfl
  exact ⟨_, answer_new file before after step, hsteps ▸ kept_ofSteps exprs stmts⟩

/-- Nodes at several places, with an item of each sort that holds nodes. -/
def branching : List BuildStep :=
  [.moveTo 2 12, .bool true, .global "lit" "bool" (some ⟨0⟩), .moveTo 4 9, .ident "x",
    .cast "float" ⟨1⟩, .declare "y" "float" (some ⟨2⟩), .useSpan ⟨7, ⟨5, 3⟩, ⟨5, 9⟩⟩,
    .returns (some ⟨1⟩), .ifElse ⟨0⟩ ⟨0⟩ (some ⟨1⟩), .block [⟨2⟩],
    .functionOf "f" [⟨"x", ⟨"int", .point 7 3 6⟩, .point 7 3 10⟩] "void" ⟨3⟩,
    .struct "Light" [("color", "float3")]]

theorem run_ascending_branching : (new 7).AnsweredFirst branching ∧
    ((new 7).run branching).2.unit.WellFormed ∧
    ((new 7).run branching).2.unit.items.map Item.name = ["lit", "f", "Light"] ∧
    ((new 7).run branching).1[5]? = some ({ expr := some ⟨2⟩ }, .point 7 4 9) ∧
    Kept ((new 7).run branching).2.unit.arena (.point 7 4 9) (.cast "float" ⟨1⟩)
      { expr := some ⟨2⟩ } := by
  have first : (new 7).AnsweredFirst branching := by decide
  obtain ⟨-, wf, -, -, -, items, -, kept⟩ :=
    run_ascending 7 branching first (by decide) (by decide)
  obtain ⟨answer, hanswer, hkept⟩ :=
    kept (branching.take 5) (.cast "float" ⟨1⟩) (branching.drop 6) rfl
  have hcast : ((new 7).run branching).1[5]? = some ({ expr := some ⟨2⟩ }, .point 7 4 9) := by
    decide
  cases hanswer.symm.trans hcast
  exact ⟨first, wf, by rw [items]; decide, hcast, hkept⟩

end UnitBuilder
end ShaderFront
