import ShaderFront.Proofs.Analysis.Signatures

/-!
# Looking up functions

Of the functions that were collected the analysis knows what it finds under their names. So two
tables in which the same is found, though the functions were collected in another order, are as good
as one another: the rules come to the same results, and so does collecting more.
-/

namespace ShaderFront

open Reported

namespace ItemTable

/-- The same structs and synonyms. -/
structure SameTypes (t t' : ItemTable) : Prop where
  structs : t'.structs = t.structs
  synonyms : t'.synonyms = t.synonyms

/-- The same types, and under each name the same function. -/
structure Agree (t t' : ItemTable) : Prop extends t.SameTypes t' where
  function? (name : String) : t'.function? name = t.function? name

theorem Agree.refl (t : ItemTable) : t.Agree t := ⟨⟨rfl, rfl⟩, fun _ => rfl⟩

namespace SameTypes

variable {t t' : ItemTable} (h : t.SameTypes t')
include h

theorem struct? (name : String) : t'.struct? name = t.struct? name := by
  rw [ItemTable.struct?, h.structs, ItemTable.struct?]

/-- Functions are no types, so a table with other functions names the same types. -/
theorem type? (name : String) : t'.type? name = t.type? name := by
  rw [ItemTable.type?, h.struct?, h.synonyms, ItemTable.type?]

theorem resolve (written : WrittenType) : t'.resolve written = t.resolve written := by
  rw [ItemTable.resolve, h.type?, ItemTable.resolve]

theorem resolveParams (params : List Field) :
    t'.resolveParams params = t.resolveParams params := by
  induction params with
  | nil => rfl
  | cons p rest ih => simp only [ItemTable.resolveParams, h.resolve, ih]

/-- Fields resolve to the same types. -/
theorem resolveFields (done : Bindings) (fields : List Field) :
    t'.resolveFields done fields = t.resolveFields done fields := by
  induction fields generalizing done with
  | nil => rfl
  | cons f rest ih => simp only [ItemTable.resolveFields, h.resolve, ih]

theorem collected (f : Function) : t'.collected f = t.collected f := by
  simp only [ItemTable.collected, Function.signature, h.type?]

end SameTypes

/-! ## Collecting -/

variable {t t' : ItemTable}

/-- What is found at a function depends on the types and on what its name means. -/
theorem SameTypes.addFunction_findings (h : t.SameTypes t') {f : Function}
    (hname : t'.function? f.name = t.function? f.name) :
    (t'.addFunction f).findings = (t.addFunction f).findings := by
  simp only [addFunction, hname, h.resolveParams, h.resolve]
  split <;> rfl

/-- A function adds no type. -/
theorem addFunction_sameTypes (t : ItemTable) (f : Function) :
    t.SameTypes (t.addFunction f).value := by
  unfold addFunction
  split <;> exact ⟨rfl, rfl⟩

/-- Collecting one more item into tables that agree. -/
theorem Agree.addItem (h : t.Agree t') (item : Item) :
    (t'.addItem item).findings = (t.addItem item).findings ∧
      (t.addItem item).value.Agree (t'.addItem item).value := by
  cases item with
  | global => exact ⟨rfl, h⟩
  | function f =>
    have htypes := t.addFunction_sameTypes f
    have htypes' := t'.addFunction_sameTypes f
    refine ⟨h.addFunction_findings (h.function? f.name), ⟨?_, ?_⟩, fun name => ?_⟩
    · exact htypes'.structs.trans (h.structs.trans htypes.structs.symm)
    · exact htypes'.synonyms.trans (h.synonyms.trans htypes.synonyms.symm)
    · rw [ItemTable.addItem, ItemTable.addItem, function?_addFunction, function?_addFunction,
        h.function?, h.collected]
  | struct s =>
    simp only [ItemTable.addItem, addStruct, h.type?, h.resolveFields]
    split
    · exact ⟨rfl, h⟩
    · exact ⟨rfl, ⟨congrArg (· ++ _) h.structs, h.synonyms⟩, h.function?⟩
  | typedef d =>
    simp only [ItemTable.addItem, addTypedef, h.type?, h.resolve]
    split
    · exact ⟨rfl, h⟩
    · simp only [value_bind, findings_bind]
      split
      · exact ⟨rfl, ⟨h.structs, congrArg (· ++ _) h.synonyms⟩, h.function?⟩
      · exact ⟨rfl, h⟩

/-- Tables that agree still do when the same items are added to both, and both report the same. -/
theorem Agree.addItems (h : t.Agree t') (items : List Item) :
    (t'.addItems items).findings = (t.addItems items).findings ∧
      (t.addItems items).value.Agree (t'.addItems items).value := by
  induction items generalizing t t' with
  | nil => exact ⟨rfl, h⟩
  | cons item rest ih =>
    obtain ⟨hfindings, hitem⟩ := h.addItem item
    obtain ⟨hrest, hagree⟩ := ih hitem
    refine ⟨?_, hagree⟩
    rw [ItemTable.addItems, findings_bind, hfindings, hrest]
    rfl

/-- Functions of different names may be collected in either order. -/
theorem addFunction_swap (t : ItemTable) {f g : Function} (hne : f.name ≠ g.name) :
    ((t.addFunction g).value.addFunction f).findings = (t.addFunction f).findings ∧
      ((t.addFunction f).value.addFunction g).value.Agree
        ((t.addFunction g).value.addFunction f).value := by
  have hf := t.addFunction_sameTypes f
  have hg := t.addFunction_sameTypes g
  have hgf := (t.addFunction g).value.addFunction_sameTypes f
  have hfg := (t.addFunction f).value.addFunction_sameTypes g
  refine ⟨hg.addFunction_findings ?_, ⟨?_, ?_⟩, fun name => ?_⟩
  · rw [function?_addFunction, if_neg hne.symm, Option.or_none]
  · rw [hgf.structs, hg.structs, hfg.structs, hf.structs]
  · rw [hgf.synonyms, hg.synonyms, hfg.synonyms, hf.synonyms]
  · simp only [function?_addFunction, hf.collected, hg.collected, Option.or_assoc]
    by_cases hname : f.name = name
    · have hother : g.name ≠ name := fun h => hne (hname.trans h.symm)
      simp [hname, hother]
    · simp [hname]

/-- **Adjacent functions of different names may be collected in either order.** The findings are
permuted, and the tables agree. -/
theorem addItems_swap {t : ItemTable} (above below : List Item) {f g : Function}
    (hne : f.name ≠ g.name) :
    (t.addItems (above ++ .function g :: .function f :: below)).findings.Perm
        (t.addItems (above ++ .function f :: .function g :: below)).findings ∧
      (t.addItems (above ++ .function f :: .function g :: below)).value.Agree
        (t.addItems (above ++ .function g :: .function f :: below)).value := by
  induction above generalizing t with
  | nil =>
    obtain ⟨hfindings, hagree⟩ := t.addFunction_swap hne
    obtain ⟨hfindings', -⟩ := t.addFunction_swap hne.symm
    obtain ⟨hbelow, hall⟩ := hagree.addItems below
    refine ⟨?_, hall⟩
    simp only [List.nil_append, ItemTable.addItems, ItemTable.addItem, findings_bind, hbelow,
      hfindings, hfindings', ← List.append_assoc]
    exact List.perm_append_comm.append_right _
  | cons first rest ih => exact ⟨(ih (t := (t.addItem first).value)).1.append_left _, ih.2⟩

end ItemTable

/-! ## Rules -/

namespace Rules

/-- The rules find the same under each name. -/
structure Agree (r r' : Rules) : Prop where
  items : r.items.Agree r'.items
  warn : r'.warnOnTruncation = r.warnOnTruncation

variable {r r' : Rules} (h : r.Agree r')
include h

theorem Agree.store (span : Span) (value target : Ty) :
    r'.store span value target = r.store span value target := by
  simp only [Rules.store, h.warn]

theorem Agree.member (ty : Ty) (name : String) (span : Span) :
    r'.member ty name span = r.member ty name span := by
  simp only [Rules.member, h.items.struct?]

theorem Agree.assign (op : AssignOp) (target value : Operand) (span : Span) :
    r'.assign op target value span = r.assign op target value span := by
  simp only [Rules.assign, h.store]

theorem Agree.storeArguments (args : List Operand) (types : List Ty) (params : Bindings) :
    r'.storeArguments args types params = r.storeArguments args types params := by
  induction args generalizing types params with
  | nil => rfl
  | cons arg args ih =>
    cases types with
    | nil => rfl
    | cons ty types =>
      cases params with
      | nil => rfl
      | cons param params => simp only [Rules.storeArguments, h.store, ih]

/-- A call looks its function up by name, and nothing else of the functions. -/
theorem Agree.call (callee : String) (args : List Operand) (span : Span) :
    r'.call callee args span = r.call callee args span := by
  simp only [Rules.call, callFunction, h.items.type?, h.items.function?, h.storeArguments]

theorem Agree.type (scope : Scope) (span : Span) (form : ExprForm Operand) :
    r'.type scope span form = r.type scope span form := by
  cases form <;> simp only [Rules.type, h.member, h.call, h.assign, h.items.resolve]

theorem Agree.declaredType (name : String) (written : WrittenType) :
    r'.declaredType name written = r.declaredType name written := by
  simp only [Rules.declaredType, h.items.resolve]

theorem Agree.declaration (p : Place) (decl : VarDecl Operand) :
    r'.declaration p decl = r.declaration p decl := by
  simp only [Rules.declaration, h.declaredType, h.store]

theorem Agree.returnStatement (p : Place) (value : Option Operand) (span : Span) :
    r'.returnStatement p value span = r.returnStatement p value span := by
  simp only [Rules.returnStatement, h.store]

theorem Agree.statement (p : Place) (span : Span) (form : StmtForm Operand StmtId) :
    r'.statement p span form = r.statement p span form := by
  cases form <;> simp only [Rules.statement, h.declaration, h.returnStatement]

/-- A function is gone into by its own signature, which both know. -/
theorem Agree.enterFunction (p : Place) (f : Function) :
    r'.enterFunction p f = r.enterFunction p f := by
  simp only [Rules.enterFunction, signature, h.items.type?, h.items.function?]

/-- **Rules that agree make for one analysis.** -/
theorem Agree.transformer (mode : TransformMode) :
    Analyzer.transformer r' mode = Analyzer.transformer r mode := by
  have henter : Analyzer.enterItem r' = Analyzer.enterItem r := by
    funext item s
    simp only [Analyzer.enterItem, h.enterFunction]
  have hleave : Analyzer.leaveItem r' = Analyzer.leaveItem r := by
    funext a item s
    simp only [Analyzer.leaveItem, h.declaration]
  have hstmt : Analyzer.leaveStmt r' = Analyzer.leaveStmt r := by
    funext a id s
    simp only [Analyzer.leaveStmt, h.statement]
  have hexpr : Analyzer.leaveExpr r' mode = Analyzer.leaveExpr r mode := by
    funext a id s
    simp only [Analyzer.leaveExpr, h.type]
  simp only [Analyzer.transformer, henter, hleave, hstmt, hexpr]

end Rules
end ShaderFront
