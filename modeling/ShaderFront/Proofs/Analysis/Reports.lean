import ShaderFront.Analysis.Checking
import ShaderFront.Proofs.Syntax.Spans

/-!
# What the rules report, and where

A rule reports at the place of the expression or the statement it is about, or at that of one of its
operands. It never says that a name is declared already, which is for declarations to find, and it
warns of truncations only if it was asked to. This is settled rule by rule, once for whatever is
asked about findings.
-/

namespace ShaderFront

/-- A problem that is neither a second definition of a name nor a truncation. -/
def Problem.isPlain (p : Problem) : Bool := p.code != .e2011 && p.code != .w2001

/-- What a rule may find at some places, if it warns of truncations and if it does not. -/
structure Finding.Ruled (warn : Bool) (places : Span → Prop) (f : Finding) : Prop where
  place : places f.span
  undeclared : f.problem.code ≠ .e2011
  warned : f.problem.code = .w2001 → warn = true

namespace Reported

variable {α β : Type} {warn : Bool} {places : Span → Prop}

/-- All findings are such. -/
def Finds (P : Finding → Prop) (x : Reported α) : Prop := ∀ f ∈ x.findings, P f

theorem finds_pure (P : Finding → Prop) (a : α) : (pure a : Reported α).Finds P := nofun

/-- What is found by two computations one after the other. -/
theorem Finds.bind {P : Finding → Prop} {x : Reported α} (hx : x.Finds P)
    {f : α → Reported β} (hf : (f x.value).Finds P) : (x >>= f).Finds P := by
  intro finding hmem
  rcases List.mem_append.1 hmem with hmem | hmem
  · exact hx finding hmem
  · exact hf finding hmem

theorem finds_find {P : Finding → Prop} {p : Problem} {span : Span} (h : P ⟨p, span⟩) :
    (find p span).Finds P := by
  intro f hf
  cases List.mem_singleton.1 hf
  exact h

theorem finds_reject {P : Finding → Prop} {p : Problem} {span : Span} (h : P ⟨p, span⟩) :
    (reject p span : Reported (Option α)).Finds P := finds_find h

/-- A weaker property holds of what is found. -/
theorem Finds.mono {P Q : Finding → Prop} {x : Reported α} (h : x.Finds P)
    (imp : ∀ f, P f → Q f) : x.Finds Q := fun f hf => imp f (h f hf)

/-- What is reported is what a rule may find at some places. -/
def Reports (warn : Bool) (places : Span → Prop) (x : Reported α) : Prop :=
  x.Finds (Finding.Ruled warn places)

@[simp] theorem reports_pure (a : α) : (pure a : Reported α).Reports warn places := finds_pure _ a

theorem Reports.bind {x : Reported α} (hx : x.Reports warn places) {f : α → Reported β}
    (hf : (f x.value).Reports warn places) : (x >>= f).Reports warn places := Finds.bind hx hf

/-- What is done with a value adds nothing. -/
theorem Reports.map {x : Reported α} (hx : x.Reports warn places) (f : α → β) :
    (do return f (← x)).Reports warn places := hx.bind (reports_pure _)

/-- Something plain may be found at any of the places. -/
theorem ruled_plain {p : Problem} (plain : p.isPlain = true) {span : Span} (h : places span) :
    Finding.Ruled warn places ⟨p, span⟩ := by
  simp only [Problem.isPlain, Bool.and_eq_true, bne_iff_ne] at plain
  exact ⟨h, plain.1, fun truncation => absurd truncation plain.2⟩

theorem reports_find {p : Problem} (plain : p.isPlain = true) {span : Span} (h : places span) :
    (find p span).Reports warn places := finds_find (ruled_plain plain h)

theorem reports_reject {p : Problem} (plain : p.isPlain = true) {span : Span} (h : places span) :
    (reject p span : Reported (Option α)).Reports warn places := finds_reject (ruled_plain plain h)

/-- A report of what is missing, at an allowed place. -/
theorem reports_orReject (value : Option α) {p : Problem} (plain : p.isPlain = true) {span : Span}
    (h : places span) : (orReject value p span).Reports warn places := by
  cases value with
  | none => exact reports_reject plain h
  | some a => exact reports_pure _

end Reported

namespace Rules

open Reported

variable {warn : Bool} {places : Span → Prop} {span : Span}

/-! ## Rules of which none stores a value -/

section

variable (h : places span)

include h

/-- Each rule for an expression reports at the span that it is given. -/
theorem combine_reports (place : Combining) (left right : Ty) :
    (combine place span left right).Reports warn places := reports_orReject _ rfl h

theorem condition_reports (type : Ty) : (condition span type).Reports warn places :=
  reports_orReject _ rfl h

theorem swizzle_reports (k : ScalarKind) (size : UInt8) (name : String) (ty : Ty) :
    (swizzle k size name ty span).Reports warn places := reports_orReject _ rfl h

theorem identifier_reports (scope : Scope) (name : String) :
    (identifier scope name span).Reports warn places := by
  unfold identifier
  split
  · exact reports_pure _
  · exact reports_reject rfl h

theorem unary_reports (op : UnaryOp) (ty : Ty) : (unary op ty span).Reports warn places := by
  unfold unary
  split
  · exact reports_reject rfl h
  · cases op with
    | not | neg => exact reports_pure _
    | bitNot =>
      dsimp only
      split
      · exact reports_pure _
      · exact reports_reject rfl h
    | increment | decrement =>
      dsimp only
      split
      · exact reports_reject rfl h
      · exact reports_pure _

theorem binary_reports (op : BinaryOp) (left right : Ty) :
    (binary op left right span).Reports warn places := by
  have hcombine (place : Combining) :
      (combine place span left right).Reports warn places := combine_reports h place left right
  cases op with
  | mul | div | add | sub | mod => exact hcombine _
  | eq | notEq | lt | ltEq | gt | gtEq => exact (hcombine .operator).map truth
  | and | or =>
    unfold binary
    dsimp only
    split
    · exact reports_reject rfl h
    · exact (hcombine .operator).map truth
  | bitAnd | bitOr | bitXor | shl | shr =>
    refine (hcombine .operator).bind ?_
    split
    · exact reports_pure _
    · split
      · exact reports_pure _
      · exact reports_reject rfl h

/-- A choice also reports at its condition. -/
theorem conditional_reports {c : Operand} (hc : places c.span) (y n : Operand) :
    (conditional c y n span).Reports warn places := by
  unfold conditional
  dsimp only
  split
  all_goals
    first
    | refine (combine_reports h _ _ _).bind ?_
    | refine (reports_pure _).bind ?_
    split
    · exact reports_pure _
    · split
      · exact reports_pure _
      · split
        · exact reports_pure _
        · refine (condition_reports hc _).bind ?_
          split <;> exact reports_pure _

theorem member_reports (r : Rules) (ty : Ty) (name : String) :
    (r.member ty name span).Reports warn places := by
  unfold member
  split
  · split
    · exact reports_pure _
    · exact reports_reject rfl h
  · exact swizzle_reports h _ _ name ty
  · exact swizzle_reports h _ _ name ty
  · exact reports_reject rfl h

/-- An index reports at the index as well as at the whole. -/
theorem index_reports (target position : Ty) {operand : Operand} (ho : places operand.span) :
    (index target position operand span).Reports warn places := by
  unfold index
  split
  · exact reports_reject rfl ho
  · split
    · exact reports_reject rfl h
    · split
      · exact reports_pure _
      · split
        · exact reports_reject rfl ho
        · exact reports_pure _

theorem cast_reports (value target : Ty) : (cast value target span).Reports warn places := by
  unfold cast
  split
  · exact reports_pure _
  · exact reports_find rfl h

/-- A construction reports at the arguments that do not fit. -/
theorem construct_reports (target : Ty) {args : List Operand}
    (hargs : ∀ arg ∈ args, places arg.span) (types : List Ty) :
    (construct target args types span).Reports warn places := by
  unfold construct
  split
  · exact reports_find rfl h
  · split
    · rename_i arg ty hfind
      have hmem : (arg, ty) ∈ args.zip types := List.mem_of_find?_eq_some hfind
      exact reports_find rfl (hargs arg (List.of_mem_zip hmem).1)
    · dsimp only
      split <;> split
      all_goals first | exact reports_pure _ | exact reports_find rfl h

theorem applyIntrinsic_reports (f : Intrinsic) (name : String) (types : List Ty) :
    (applyIntrinsic f name types span).Reports warn places := by
  unfold applyIntrinsic
  split
  · exact reports_pure _
  · exact reports_pure _
  · exact (combine_reports h _ _ _).map _
  · exact combine_reports h _ _ _
  · refine (combine_reports h _ _ _).bind ?_
    split
    · exact reports_pure _
    · exact combine_reports h _ _ _
  · exact combine_reports h _ _ _
  · refine (combine_reports h _ _ _).bind ?_
    split
    · exact reports_pure _
    · exact reports_pure _
    · exact reports_reject rfl h
  · split
    · exact reports_pure _
    · exact reports_reject rfl h
  · exact reports_pure _

theorem callIntrinsic_reports (f : Intrinsic) (name : String) (args : List Operand) :
    (callIntrinsic f name args span).Reports warn places := by
  unfold callIntrinsic
  split
  · exact reports_pure _
  · split
    · split
      · exact reports_reject rfl h
      · exact applyIntrinsic_reports h f name _
    · exact reports_reject rfl h

end

theorem resolve_reports (items : ItemTable) {written : WrittenType} (h : places written.span) :
    (items.resolve written).Reports warn places := reports_orReject _ rfl h

theorem declaredType_reports (r : Rules) (name : String) {written : WrittenType}
    (h : places written.span) : (r.declaredType name written).Reports warn places := by
  refine (resolve_reports r.items h).bind ?_
  split
  · exact reports_pure _
  · split
    · exact reports_reject rfl h
    · exact reports_pure _

theorem statementCondition_reports {o : Operand} (h : places o.span) :
    (statementCondition o).Reports warn places := by
  unfold statementCondition
  split
  · exact (condition_reports h _).bind (reports_pure _)
  · exact reports_pure _

/-! ## Rules that store values -/

section

variable (r : Rules) (h : places span)

include h

/-- **A store warns of a truncation only if the rules say so.** -/
theorem store_reports (value target : Ty) :
    (r.store span value target).Reports r.warnOnTruncation places := by
  unfold store
  split
  · exact reports_find rfl h
  · split
    · rename_i hwarn
      exact finds_find ⟨h, Code.noConfusion, fun _ => hwarn⟩
    · exact reports_pure _
  · exact reports_pure _

omit h in
/-- Only a store warns, here that of an argument to its parameter. -/
theorem storeArguments_reports {args : List Operand} (hargs : ∀ arg ∈ args, places arg.span)
    (types : List Ty) (params : List (String × Option Ty)) :
    (r.storeArguments args types params).Reports r.warnOnTruncation places := by
  induction args generalizing types params with
  | nil => exact reports_pure _
  | cons arg args ih =>
    have hrest := ih fun other hother => hargs other (List.mem_cons_of_mem _ hother)
    cases types with
    | nil => exact reports_pure _
    | cons ty types =>
      cases params with
      | nil => exact reports_pure _
      | cons entry params =>
        obtain ⟨name, param⟩ := entry
        cases param with
        | none => exact hrest types params
        | some target =>
          exact (r.store_reports (hargs arg List.mem_cons_self) _ _).bind (hrest types params)

theorem callFunction_reports (sig : FunctionSig) {args : List Operand}
    (hargs : ∀ arg ∈ args, places arg.span) :
    (r.callFunction sig args span).Reports r.warnOnTruncation places := by
  unfold callFunction
  dsimp only
  split
  · exact reports_pure _
  · split
    · exact (r.storeArguments_reports hargs _ _).bind (reports_pure _)
    · exact (reports_find rfl h).bind (reports_pure _)

theorem call_reports (callee : String) {args : List Operand}
    (hargs : ∀ arg ∈ args, places arg.span) :
    (r.call callee args span).Reports r.warnOnTruncation places := by
  unfold call
  split
  · dsimp only
    split
    · exact reports_pure _
    · exact (construct_reports h _ hargs _).bind (reports_pure _)
  · split
    · exact r.callFunction_reports h _ hargs
    · split
      · exact callIntrinsic_reports h _ callee args
      · exact reports_reject rfl h

/-- An assignment warns at the value that is stored. -/
theorem assign_reports (op : AssignOp) {target value : Operand} (htarget : places target.span)
    (hvalue : places value.span) :
    (r.assign op target value span).Reports r.warnOnTruncation places := by
  unfold assign
  split
  · split
    · exact reports_reject rfl htarget
    · dsimp only
      split
      · exact (reports_pure _).bind ((r.store_reports hvalue _ _).bind (reports_pure _))
      · refine (binary_reports h _ _ _).bind ?_
        split
        · exact reports_pure _
        · exact (r.store_reports hvalue _ _).bind (reports_pure _)
  · exact reports_pure _

/-- **What an expression reports** is found at its place, at that of one of its operands, or where
it writes a type. -/
theorem type_reports (scope : Scope) {form : ExprForm Operand}
    (operands : ∀ o ∈ form.children, places o.span)
    (written : ∀ w o, form = .cast w o → places w.span) :
    (r.type scope span form).Reports r.warnOnTruncation places := by
  cases form with
  | literal | paren | error => exact reports_pure _
  | ident name => exact identifier_reports h scope name
  | unary op e =>
    unfold type
    dsimp only
    split
    · exact unary_reports h op _
    · exact reports_pure _
  | binary op left right =>
    unfold type
    dsimp only
    split
    · exact binary_reports h op _ _
    · exact reports_pure _
  | conditional c y n => exact conditional_reports h (operands c (by simp [ExprForm.children])) y n
  | call callee args => exact r.call_reports h callee operands
  | member e name =>
    unfold type
    dsimp only
    split
    · exact member_reports h r _ name
    · exact reports_pure _
  | index target position =>
    unfold type
    dsimp only
    split
    · exact index_reports h _ _ (operands position (by simp [ExprForm.children]))
    · exact reports_pure _
  | cast w e =>
    refine (resolve_reports r.items (written w e rfl)).bind ?_
    split
    · exact reports_pure _
    · dsimp only
      split
      · exact (cast_reports h _ _).bind (reports_pure _)
      · exact reports_pure _
  | assign op target value =>
    exact r.assign_reports h op (operands target (by simp [ExprForm.children]))
      (operands value (by simp [ExprForm.children]))

theorem returnStatement_reports (p : Place) {value : Option Operand}
    (hvalue : ∀ o ∈ value, places o.span) :
    (r.returnStatement p value span).Reports r.warnOnTruncation places := by
  unfold returnStatement
  split
  · exact reports_pure _
  · split
    · exact reports_pure _
    · split
      · exact reports_find rfl (hvalue _ rfl)
      · split
        · exact r.store_reports (hvalue _ rfl) _ _
        · exact reports_pure _
    · split
      · exact reports_pure _
      · exact reports_find rfl h

/-- **What a statement reports** that is no declaration. -/
theorem statement_reports (p : Place) {form : StmtForm Operand StmtId}
    (other : ∀ decl, form ≠ .declare decl)
    (operands : ∀ o, .inl o ∈ form.children → places o.span) :
    (r.statement p span form).Reports r.warnOnTruncation places := by
  cases form with
  | declare decl => exact absurd rfl (other decl)
  | expr | block | discard | breakLoop | continueLoop | empty => exact reports_pure _
  | ifElse c | whileLoop c =>
    have hc : places c.span := operands c (by simp [StmtForm.children])
    exact (statementCondition_reports hc).bind (reports_pure _)
  | returns value =>
    have hvalue : ∀ o ∈ value, places o.span :=
      fun o ho => operands o (by simpa [StmtForm.children] using ho)
    exact (r.returnStatement_reports h p hvalue).bind (reports_pure _)
  | forLoop init c =>
    cases c with
    | none => exact reports_pure _
    | some c =>
      have hc : places c.span := operands c (by simp [StmtForm.children])
      exact (statementCondition_reports hc).bind (reports_pure _)

end

/-! ## Declarations -/

/-- A declaration finds nothing but that its name is taken. -/
theorem declare_finds (p : Place) (name : String) (type : Option Ty) {span : Span}
    {P : Finding → Prop} (h : P ⟨.redeclared name, span⟩) :
    (p.declare name type span).Finds P := by
  unfold Place.declare
  split
  · exact (finds_find h).bind (finds_pure P _)
  · split
    · exact finds_pure P _
    · exact (finds_find h).bind (finds_pure P _)

theorem declareAll_finds (p : Place) {entries : List (String × Option Ty × Span)}
    {P : Finding → Prop} (h : ∀ e ∈ entries, P ⟨.redeclared e.1, e.2.2⟩) :
    (p.declareAll entries).Finds P := by
  induction entries generalizing p with
  | nil => exact finds_pure P _
  | cons entry rest ih =>
    obtain ⟨name, type, span⟩ := entry
    refine (declare_finds p name type (h _ List.mem_cons_self)).bind ?_
    exact ih _ fun e he => h e (List.mem_cons_of_mem _ he)

/-- What goes before the declaration itself: its type is resolved, and its initial value is stored
if there is one. -/
theorem declaration_finds (r : Rules) (p : Place) (decl : VarDecl Operand) {P : Finding → Prop}
    (typed : (r.declaredType decl.name decl.type).Finds P)
    (stored : ∀ o value target, decl.init = some o → (r.store o.span value target).Finds P)
    (declared : P ⟨.redeclared decl.name, decl.span⟩) : (r.declaration p decl).Finds P := by
  have hdeclare := declare_finds p decl.name (r.declaredType decl.name decl.type).value declared
  unfold declaration
  refine typed.bind ?_
  dsimp only
  split
  · rename_i target span value hinit
    obtain ⟨o, ho, htype⟩ := Option.bind_eq_some_iff.1 hinit
    obtain ⟨ty, -, heq⟩ := Option.map_eq_some_iff.1 htype
    cases heq
    exact (stored o _ _ ho).bind hdeclare
  · exact hdeclare

/-- Going into a function finds parameters of one name. -/
theorem enterFunction_finds (r : Rules) (p : Place) (f : Function) {P : Finding → Prop}
    (h : ∀ name, ∀ param ∈ f.params, P ⟨.redeclared name, param.span⟩) :
    (r.enterFunction p f).Finds P := by
  refine Finds.bind (declareAll_finds _ fun entry hentry => ?_) (finds_pure P _)
  obtain ⟨⟨⟨name, ty⟩, param⟩, hmem, rfl⟩ := List.mem_map.1 hentry
  exact h name param (List.of_mem_zip hmem).2

end Rules

/-! ## Items -/

namespace ItemTable

open Reported

variable {P : Finding → Prop}

theorem resolve_finds (t : ItemTable) {written : WrittenType}
    (h : P ⟨.unknownType written.name, written.span⟩) : (t.resolve written).Finds P := by
  unfold resolve
  cases t.type? written.name with
  | none => exact finds_reject h
  | some ty => exact finds_pure P _

theorem resolveParams_finds (t : ItemTable) {params : List Field}
    (h : ∀ p ∈ params, P ⟨.unknownType p.type.name, p.type.span⟩) :
    (t.resolveParams params).Finds P := by
  induction params with
  | nil => exact finds_pure P _
  | cons p rest ih =>
    refine (t.resolve_finds (h p List.mem_cons_self)).bind ?_
    exact (ih fun q hq => h q (List.mem_cons_of_mem _ hq)).bind (finds_pure P _)

/-- The fields of a struct may have unknown types, and names that were there before. -/
theorem resolveFields_finds (t : ItemTable) (done : List (String × Option Ty))
    {fields : List Field}
    (h : ∀ f ∈ fields, P ⟨.unknownType f.type.name, f.type.span⟩ ∧
      P ⟨.duplicate .fields f.name, f.span⟩) : (t.resolveFields done fields).Finds P := by
  induction fields generalizing done with
  | nil => exact finds_pure P _
  | cons f rest ih =>
    obtain ⟨hunknown, hduplicate⟩ := h f List.mem_cons_self
    have hrest (done : List (String × Option Ty)) :=
      ih done fun g hg => h g (List.mem_cons_of_mem _ hg)
    unfold resolveFields
    split
    · exact (finds_find hduplicate).bind (hrest done)
    · exact (t.resolve_finds hunknown).bind (hrest _)

/-- **An item is reported at one of its own places**, and never for a truncation. -/
theorem addItem_finds (t : ItemTable) {item : Item}
    (h : ∀ p, ∀ span ∈ item.spans, p.code ≠ .w2001 → P ⟨p, span⟩) : (t.addItem item).Finds P := by
  cases item with
  | global decl => exact finds_pure P _
  | function f =>
    have hown : f.span ∈ (Item.function f).spans := List.mem_cons_self
    have hreturns : f.returns.span ∈ (Item.function f).spans :=
      List.mem_cons_of_mem _ List.mem_cons_self
    have hparams : ∀ p ∈ f.params, p.type.span ∈ (Item.function f).spans := fun p hp =>
      List.mem_cons_of_mem _ (List.mem_cons_of_mem _ (Field.mem_spans hp).2)
    simp only [addItem, addFunction]
    split
    · exact (finds_find (h _ _ hown Code.noConfusion)).bind (finds_pure P _)
    · refine (t.resolveParams_finds fun p hp => h _ _ (hparams p hp) Code.noConfusion).bind ?_
      exact (t.resolve_finds (h _ _ hreturns Code.noConfusion)).bind (finds_pure P _)
  | struct s =>
    have hown : s.span ∈ (Item.struct s).spans := List.mem_cons_self
    have hfields : ∀ f ∈ s.fields, f.span ∈ (Item.struct s).spans ∧
        f.type.span ∈ (Item.struct s).spans := fun f hf =>
      ⟨List.mem_cons_of_mem _ (Field.mem_spans hf).1, List.mem_cons_of_mem _ (Field.mem_spans hf).2⟩
    simp only [addItem, addStruct]
    split
    · exact (finds_find (h _ _ hown Code.noConfusion)).bind (finds_pure P _)
    · refine (t.resolveFields_finds [] fun f hf => ?_).bind (finds_pure P _)
      obtain ⟨hspan, htype⟩ := hfields f hf
      exact ⟨h _ _ htype Code.noConfusion, h _ _ hspan Code.noConfusion⟩
  | typedef d =>
    have hown : d.span ∈ (Item.typedef d).spans := List.mem_cons_self
    have htarget : d.target.span ∈ (Item.typedef d).spans :=
      List.mem_cons_of_mem _ List.mem_cons_self
    simp only [addItem, addTypedef]
    split
    · exact (finds_find (h _ _ hown Code.noConfusion)).bind (finds_pure P _)
    · refine (t.resolve_finds (h _ _ htarget Code.noConfusion)).bind ?_
      split
      · exact finds_pure P _
      · exact finds_pure P _

/-- The collection of items finds something only at spans of these items, and never warns. -/
theorem addItems_finds (t : ItemTable) {items : List Item}
    (h : ∀ item ∈ items, ∀ p, ∀ span ∈ item.spans, p.code ≠ .w2001 → P ⟨p, span⟩) :
    (t.addItems items).Finds P := by
  induction items generalizing t with
  | nil => exact finds_pure P _
  | cons item rest ih =>
    refine (t.addItem_finds (h item List.mem_cons_self)).bind ?_
    exact ih _ fun other hother => h other (List.mem_cons_of_mem _ hother)

end ItemTable
end ShaderFront
