import ShaderFront.Proofs.Analysis.Abreast
import ShaderFront.Proofs.Analysis.SynonymItems
import ShaderFront.Proofs.Analysis.TypeNames

/-!
# Synonyms are transparent

A synonym may be written or not: if one use of it gives way to the name of the type behind it, the
analysis reports problems of the same kinds at the same places and finds types that are the same
behind their synonyms. What a name means depends on where it is used. The signature of a function,
the fields of a struct and the target of a synonym are resolved by what is collected above them; a
body, a global and a later definition of a function by all that is collected.
-/

namespace ShaderFront

open Transformer Reported

/-! ## One use of a name -/

/-- A type that is written at the same place by another name. -/
def WrittenType.named (written : WrittenType) (name : String) : WrittenType :=
  { written with name := name }

section Renaming

variable (old new : String)

/-- In a row of fields one use of the type name `old` gives way to `new`. -/
inductive Field.Renamed : List Field → List Field → Prop where
  | here (f : Field) (rest : List Field) (h : f.type.name = old) :
      Renamed (f :: rest) ({ f with type := f.type.named new } :: rest)
  | there (f : Field) {rest rest' : List Field} (h : Renamed rest rest') :
      Renamed (f :: rest) (f :: rest')

/-- In an item one use of the type name `old` gives way to `new`. -/
inductive Item.Renamed : Item → Item → Prop where
  | param (f : Function) {params : List Field} (h : Field.Renamed old new f.params params) :
      Renamed (.function f) (.function { f with params := params })
  | returns (f : Function) (h : f.returns.name = old) :
      Renamed (.function f) (.function { f with returns := f.returns.named new })
  | field (s : StructDef) {fields : List Field} (h : Field.Renamed old new s.fields fields) :
      Renamed (.struct s) (.struct { s with fields := fields })
  | target (d : Typedef) (h : d.target.name = old) :
      Renamed (.typedef d) (.typedef { d with target := d.target.named new })
  | declared (d : VarDecl ExprId) (h : d.type.name = old) :
      Renamed (.global d) (.global { d with type := d.type.named new })

/-- In an expression a use of the type name `old` gives way to `new`: in a cast, or as what is
called. -/
inductive ExprForm.Renamed : ExprForm ExprId → ExprForm ExprId → Prop where
  | cast (written : WrittenType) (e : ExprId) (h : written.name = old) :
      Renamed (.cast written e) (.cast (written.named new) e)
  | callee (args : List ExprId) : Renamed (.call old args) (.call new args)

/-- In a statement a use of the type name `old` gives way to `new`. -/
inductive StmtForm.Renamed : StmtForm ExprId StmtId → StmtForm ExprId StmtId → Prop where
  | declared (d : VarDecl ExprId) (h : d.type.name = old) :
      Renamed (.declare d) (.declare { d with type := d.type.named new })

end Renaming

/-- The items by which the types are resolved that an item writes. -/
def ShaderUnit.inSight (u : ShaderUnit) (above : List Item) : Item → ItemTable
  | .function f => u.known above f
  | .struct _ | .typedef _ => (ItemTable.addItems {} above).value
  | .global _ => (ItemTable.collect u).value

/-- In a unit one use of the type name `old`, where the items of a table are in sight, gives way to
`new`. -/
inductive ShaderUnit.Renamed (u : ShaderUnit) (old new : String) :
    ItemTable → ShaderUnit → Prop where
  | item {above below : List Item} {item item' : Item} (items : u.items = above ++ item :: below)
      (h : item.Renamed old new item') :
      Renamed u old new (u.inSight above item) { u with items := above ++ item' :: below }
  | expr {id : ExprId} {e : Expr} {form : ExprForm ExprId} (get : u.arena.expr? id = some e)
      (h : e.form.Renamed old new form) :
      Renamed u old new (ItemTable.collect u).value
        { u with arena := u.arena.setExpr id ⟨form, e.span⟩ }
  | stmt {id : StmtId} {s : Stmt} {form : StmtForm ExprId StmtId}
      (get : u.arena.stmt? id = some s) (h : s.form.Renamed old new form) :
      Renamed u old new (ItemTable.collect u).value
        { u with arena := u.arena.setStmt id ⟨form, s.span⟩ }

/-! ## Before and after are related -/

section Related

variable {T : WrittenType → WrittenType → Prop} {C : String → String → Prop} {old new : String}
  (hT : ∀ w, T w w) (hnew : ∀ w, w.name = old → T w (w.named new))
include hT hnew

theorem Field.Renamed.rel {fields fields' : List Field} (h : Field.Renamed old new fields fields') :
    List.Forall₂ (Field.Rel T) fields fields' := by
  induction h with
  | here f rest h => exact .cons ⟨rfl, hnew _ h, rfl⟩ (Field.Rel.refl_list hT rest)
  | there f _ ih => exact .cons ⟨rfl, hT _, rfl⟩ ih

/-- Renaming one use leaves everything else of an item as it is. -/
theorem Item.Renamed.rel {item item' : Item} (h : item.Renamed old new item') :
    item.Rel T item' := by
  cases h with
  | param f h => exact .function ⟨rfl, h.rel hT hnew, hT _, rfl, rfl⟩
  | returns f h => exact .function ⟨rfl, Field.Rel.refl_list hT _, hnew _ h, rfl, rfl⟩
  | field s h => exact .struct rfl rfl (h.rel hT hnew)
  | target d h => exact .typedef rfl rfl (hnew _ h)
  | declared d h => exact .global ⟨rfl, hnew _ h, (VarDecl.Rel.refl hT d).init, rfl⟩

omit hT in
/-- In an expression, a type or the name of a call may be renamed. -/
theorem ExprForm.Renamed.rel (hC : C old new) {form form' : ExprForm ExprId}
    (h : form.Renamed old new form') : form.Rel T C Eq form' := by
  cases h with
  | cast written e h => exact .cast (hnew _ h) rfl
  | callee args => exact .call hC (List.forall₂_refl _)

theorem StmtForm.Renamed.rel {form form' : StmtForm ExprId StmtId}
    (h : form.Renamed old new form') : form.Rel T Eq form' := by
  cases h with
  | declared d h => exact .declare ⟨rfl, hnew _ h, (VarDecl.Rel.refl hT d).init, rfl⟩

end Related

namespace ItemTable.Same

variable {items : List Item} {t' : ItemTable} {old name : String} {target : Ty}
  (h : (ItemTable.addItems {} items).value.Same t')
  (stands : (ItemTable.addItems {} items).value.type? old = some (.synonym name target))
include h stands

/-- The name of the type behind a synonym means the same type as the synonym. -/
theorem behind : SameKnown ((ItemTable.addItems {} items).value.type? old)
    (t'.type? target.resolve.display) := by
  have hnamed := h.type? target.resolve.display
  have hdisplay := type?_display stands
  rw [Ty.resolve_synonym] at hdisplay
  rw [hdisplay] at hnamed
  rw [stands]
  generalize t'.type? target.resolve.display = known at hnamed ⊢
  cases hnamed with
  | some hsame => exact .some (hsame.trans target.resolve_resolve)

theorem named (w : WrittenType) (hw : w.name = old) :
    (ItemTable.addItems {} items).value.SameWritten t' w (w.named target.resolve.display) :=
  ⟨rfl, hw ▸ h.behind stands⟩

theorem callee : (ItemTable.addItems {} items).value.SameCallee t' old target.resolve.display :=
  ⟨h.behind stands, fun hnone => by rw [stands] at hnone; cases hnone⟩

end ItemTable.Same

/-! ## The same is collected -/

/-- Collecting does not tell the synonym from what it stands for. -/
theorem ShaderUnit.Renamed.collect {u u' : ShaderUnit} {t : ItemTable} {old name : String}
    {target : Ty} (h : u.Renamed old target.resolve.display t u')
    (stands : t.type? old = some (.synonym name target)) :
    (ItemTable.collect u).Rel ItemTable.Same (ItemTable.collect u') := by
  cases h with
  | expr | stmt => exact ⟨.refl _, List.forall₂_refl _⟩
  | @item above below item item' hitems h =>
    have hsame := ItemTable.Same.refl (ItemTable.addItems {} above).value
    unfold ItemTable.collect
    rw [hitems]
    refine ItemTable.addItems_replace below above ?_
    cases item with
    | global d =>
      cases h
      exact rel_pure hsame
    | struct | typedef =>
      exact ItemTable.addItem_same hsame (h.rel hsame.written (hsame.named stands))
    | function f =>
      cases hdefined : above.any (·.defines f.name) with
      | false =>
        rw [inSight, known, hdefined] at stands
        exact ItemTable.addItem_same hsame (h.rel hsame.written (hsame.named stands))
      | true =>
        obtain ⟨sig, g, hsig, -⟩ := u.function?_later hitems hdefined
        have hknown := Option.isSome_iff_exists.2 ⟨sig, hsig⟩
        cases h <;> exact ItemTable.addFunction_known hsame rfl rfl hknown

/-! ## The same is analysed -/

namespace Rules

variable {r r' : Rules}

/-- The rules do not tell apart what is the same behind its synonyms. -/
def sameness (r r' : Rules) : Likeness where
  written := r.items.SameWritten r'.items
  callee := r.items.SameCallee r'.items
  type := Ty.Same
  place := Place.Same
  finding := Finding.SameKind

theorem sameness_seen {o o' : Operand} (h : (r.sameness r').Seen o o') : o.Same o' := by
  obtain ⟨type, span, core⟩ := o
  obtain ⟨type', span', core'⟩ := o'
  obtain ⟨htype, hspan, hcore⟩ := h
  refine ⟨htype, hspan, ?_, ?_⟩
  · dsimp only at hcore
    cases hcore <;> rfl
  · dsimp only at hcore
    cases hcore <;> rfl

theorem Same.respected (h : r.Same r') : (r.sameness r').Respected r r' where
  enterScope hp := hp.enterScope
  expr span _ _ hp hform :=
    have hrel := type_same h hp.scope span (hform.imp fun _ _ => sameness_seen)
    ⟨hrel.value, hrel.findings⟩
  stmt span _ _ hp hform :=
    have hrel := statement_same h hp span (hform.imp fun _ _ => sameness_seen)
    ⟨hrel.value, hrel.findings⟩

/-- Items that are analysed alike: functions that are checked by the same signature, and globals of
the same type. -/
inductive SameItem (r r' : Rules) : Item → Item → Prop where
  | function {f f' : Function} (h : r.SameFunction r' f f') :
      SameItem r r' (.function f) (.function f')
  | global {d d' : VarDecl ExprId} (h : d.Rel (r.items.SameWritten r'.items) Eq d') :
      SameItem r r' (.global d) (.global d')
  | struct (s s' : StructDef) : SameItem r r' (.struct s) (.struct s')
  | typedef (d d' : Typedef) : SameItem r r' (.typedef d) (.typedef d')

/-- Functions that write the same types are checked by the same signature. What they write counts
only if their signature was not collected. -/
theorem Same.function (h : r.Same r') {f f' : Function} (hf : f.Rel (fun _ _ => True) f')
    (hwritten : (r.items.function? f.name).filter (·.span == f.span) = none →
      f.Rel (r.items.SameWritten r'.items) f') : r.SameFunction r' f f' := by
  have hspans : f'.params.map (·.span) = f.params.map (·.span) := by
    have hparams := hf.params
    generalize f.params = params, f'.params = params' at hparams ⊢
    induction hparams with
    | nil => rfl
    | cons hp _ ih => rw [List.map_cons, List.map_cons, hp.span, ih]
  suffices hsig : Bindings.Same (r.signature f).1 (r'.signature f').1 ∧
      SameKnown (r.signature f).2 (r'.signature f').2 from
    ⟨hf.name, hf.body, hspans, hsig.1, hsig.2⟩
  have hcollected : Option.Rel FunctionSig.Same
      ((r.items.function? f.name).filter (·.span == f.span))
      ((r'.items.function? f'.name).filter (·.span == f'.span)) := by
    have hrel := h.function? f.name
    rw [hf.name, hf.span]
    generalize r.items.function? f.name = sig, r'.items.function? f.name = sig' at hrel ⊢
    cases hrel with
    | none => exact .none
    | some hsig =>
      rw [Option.filter_some, Option.filter_some, hsig.span]
      split
      · exact .some hsig
      · exact .none
  unfold signature
  generalize (r.items.function? f.name).filter (·.span == f.span) = sig,
    (r'.items.function? f'.name).filter (·.span == f'.span) = sig' at hcollected hwritten ⊢
  cases hcollected with
  | some hsig => exact ⟨hsig.params, hsig.returns⟩
  | none =>
    have hf := hwritten rfl
    refine ⟨?_, hf.returns.type⟩
    exact List.forall₂_map_left_iff.2 (List.forall₂_map_right_iff.2
      (hf.params.imp fun _ _ hp => ⟨hp.name, hp.type.type⟩))

theorem Same.item_refl (h : r.Same r') (item : Item) : r.SameItem r' item item := by
  cases item with
  | function f => exact .function (h.function (.refl (fun _ => trivial) f)
      fun _ => .refl h.written f)
  | global d => exact .global (.refl h.written d)
  | struct s => exact .struct s s
  | typedef d => exact .typedef d d

end Rules

/-- An item at one place of a row gives way to another one. -/
theorem forall₂_replace {α : Type} {R : α → α → Prop} (hrefl : ∀ a, R a a) (above below : List α)
    {a b : α} (h : R a b) : List.Forall₂ R (above ++ a :: below) (above ++ b :: below) :=
  List.rel_append (List.forall₂_same.2 fun a _ => hrefl a)
    (.cons h (List.forall₂_same.2 fun a _ => hrefl a))

namespace ShaderUnit.Renamed

variable {u u' : ShaderUnit} {t : ItemTable} {old name : String} {target : Ty}
  (h : u.Renamed old target.resolve.display t u')
  (stands : t.type? old = some (.synonym name target)) (config : AnalysisConfig)
include h stands

/-- Both units are analysed by rules that are the same. -/
theorem rules : (u.rules config).Same (u'.rules config) :=
  (h.collect stands).value.rules config.warnOnTruncation

/-- Before and after, the items are analysed alike. -/
theorem items : List.Forall₂ ((u.rules config).SameItem (u'.rules config)) u.items u'.items := by
  have hrules := h.rules stands config
  have hcollected := (h.collect stands).value
  cases h with
  | expr | stmt => exact List.forall₂_same.2 fun item _ => hrules.item_refl item
  | @item above below item item' hitems h =>
    rw [hitems]
    refine forall₂_replace hrules.item_refl above below ?_
    cases item with
    | struct s =>
      cases h
      exact .struct _ _
    | typedef d =>
      cases h
      exact .typedef _ _
    | global d =>
      have hrel := h.rel hrules.written (ItemTable.Same.named hcollected stands)
      cases hrel with
      | global hd => exact .global hd
    | function f =>
      have hrel := h.rel (T := fun _ _ => True) (fun _ => trivial) fun _ _ => trivial
      cases hrel with
      | @function _ f' hf =>
        refine .function (hrules.function hf fun hlater => ?_)
        -- The signature of the first definition is collected, so this is a later one.
        cases hdefined : above.any (·.defines f.name) with
        | false =>
          rw [ShaderUnit.rules, u.function?_first hitems hdefined, Option.filter_some,
            if_pos (by simp [ItemTable.collected])] at hlater
          cases hlater
        | true =>
          rw [inSight, known, hdefined] at stands
          have hrel := h.rel hrules.written (ItemTable.Same.named hcollected stands)
          cases hrel with
          | function hf => exact hf

/-- Before and after, the nodes are alike. -/
theorem arenas :
    ((u.rules config).sameness (u'.rules config)).Arenas Set.univ u.arena u'.arena := by
  have hrules := h.rules stands config
  have hcollected := (h.collect stands).value
  have hexpr (id : ExprId) : Option.Rel (fun e e' : Expr => e'.span = e.span ∧
      e.form.Rel ((u.rules config).items.SameWritten (u'.rules config).items)
        ((u.rules config).items.SameCallee (u'.rules config).items) Eq e'.form ∧
      ∀ c ∈ e.form.children, .inl c ∈ (Set.univ : Set (ExprId ⊕ StmtId)))
      (u.arena.expr? id) (u.arena.expr? id) := by
    cases u.arena.expr? id with
    | none => exact .none
    | some e => exact .some ⟨rfl, .refl hrules.written hrules.callee _, fun _ _ => trivial⟩
  have hstmt (id : StmtId) : Option.Rel (fun s s' : Stmt => s'.span = s.span ∧
      s.form.Rel ((u.rules config).items.SameWritten (u'.rules config).items) Eq s'.form ∧
      ∀ c ∈ s.form.children, c ∈ (Set.univ : Set (ExprId ⊕ StmtId)))
      (u.arena.stmt? id) (u.arena.stmt? id) := by
    cases u.arena.stmt? id with
    | none => exact .none
    | some s => exact .some ⟨rfl, .refl hrules.written _, fun _ _ => trivial⟩
  cases h with
  | item => exact ⟨fun {id} _ => hexpr id, fun {id} _ => hstmt id⟩
  | @expr id e form get h =>
    refine ⟨fun {other} _ => ?_, fun {id} _ => hstmt id⟩
    rw [Arena.expr?_setExpr get]
    split
    · rename_i hid
      rw [hid, get]
      exact .some ⟨rfl, h.rel (ItemTable.Same.named hcollected stands)
        (ItemTable.Same.callee hcollected stands), fun _ _ => trivial⟩
    · exact hexpr other
  | @stmt id s form get h =>
    refine ⟨fun {id} _ => hexpr id, fun {other} _ => ?_⟩
    rw [Arena.stmt?_setStmt get]
    split
    · rename_i hid
      rw [hid, get]
      exact .some ⟨rfl, h.rel hrules.written (ItemTable.Same.named hcollected stands),
        fun _ _ => trivial⟩
    · exact hstmt other

/-- The two analyses start abreast. -/
theorem start : Analyzer.Abreast ((u.rules config).sameness (u'.rules config)) False Set.univ [] []
    (u.arena, .start u) (u'.arena, .start u') := by
  have hsize : u'.arena.exprs.size = u.arena.exprs.size ∧
      u'.arena.stmts.size = u.arena.stmts.size := by
    cases h with
    | item => exact ⟨rfl, rfl⟩
    | expr => exact ⟨u.arena.size_setExpr _ _, rfl⟩
    | stmt => exact ⟨rfl, u.arena.size_setStmt _ _⟩
  refine ⟨.inr hsize, h.arenas stands config, ⟨⟨.nil, .nil⟩, .none⟩, Analyzer.size_start u,
    Analyzer.size_start u', fun {id} _ => ?_,
    ⟨_, _, rfl, rfl, (h.collect stands).findings⟩⟩
  rw [Analyzer.get?_start, Analyzer.get?_start]
  exact .none

end ShaderUnit.Renamed

namespace Analyzer.Abreast

variable {r r' : Rules} {mode : TransformMode} {base base' : List Finding}
  {s s' : Arena × Analyzer}

/-- Items that are analysed alike keep the analyses abreast. -/
theorem item (hr : r.Same r') {item item' : Item} (hitem : r.SameItem r' item item')
    (h : Abreast (r.sameness r') False Set.univ base base' s s') :
    Together False (Abreast (r.sameness r') False Set.univ base base')
      ((transformer r mode).transformItem item s)
      ((transformer r' mode).transformItem item' s') := by
  have hstep := lockstep hr.respected False Set.univ base base' mode
  cases hitem with
  | function hf =>
    refine hstep.transformItem ?_ (fun _ _ => trivial) ?_ fun t t' ht => ?_
    · simp only [Item.children, hf.body]
    · have hentered := Rules.enterFunction_same hf h.place
      exact h.moveTo ⟨hentered.value, hentered.findings⟩
    · exact ht.goTo (Rules.leaveFunction_same ht.place)
  | global hd =>
    refine hstep.transformItem ?_ (fun _ _ => trivial) h fun t t' ht => ?_
    · simp only [Item.children, eq_of_optionRel hd.init]
    · exact ht.leaveGlobal hr.respected hd fun _ _ => trivial
  | struct | typedef =>
    exact hstep.transformItem rfl (fun _ _ => trivial) h fun t t' ht => ht

end Analyzer.Abreast

/-- **Synonyms are transparent.** If one use of a synonym gives way to the name of the type behind
it, the analysis ends as before: its diagnostics have the same codes, severities and places in the
same order, and the same expressions have types, which are the same behind their synonyms. -/
theorem synonyms_transparent {u u' : ShaderUnit} {t : ItemTable} {old name : String} {target : Ty}
    (use : u.Renamed old target.resolve.display t u')
    (stands : t.type? old = some (.synonym name target)) (config : AnalysisConfig) :
    (u.WellFormed → ∃ r, analyze u config = .ok r) ∧
    ∀ r, analyze u config = .ok r → ∃ r', analyze u' config = .ok r' ∧
      List.Forall₂ (fun d d' => d'.code = d.code ∧ d'.severity = d.severity ∧
        d'.labels.map (·.span) = d.labels.map (·.span)) r.diagnostics r'.diagnostics ∧
      ∀ id, (r'.types.get? id).map Ty.resolve = (r.types.get? id).map Ty.resolve := by
  refine ⟨fun wf => Stripping.analyze_ok wf config, fun r ended => ?_⟩
  obtain ⟨⟨a, z⟩, hrun, rfl⟩ := analyze_eq_ok.1 ended
  obtain ⟨⟨b, w⟩, hfold, heq⟩ := of_bind_ok hrun
  cases heq
  have htogether : Together False
      (Analyzer.Abreast ((u.rules config).sameness (u'.rules config)) False Set.univ [] [])
      (u.items.foldlM (fun s item =>
        (Analyzer.transformer (u.rules config) config.transform).transformItem item s)
        (u.arena, .start u))
      (u'.items.foldlM (fun s item =>
        (Analyzer.transformer (u'.rules config) config.transform).transformItem item s)
        (u'.arena, .start u')) :=
    Together.foldlM (use.items stands config)
      (fun _ _ _ _ hitem _ h => h.item (use.rules stands config) hitem) (use.start stands config)
  obtain ⟨v', hfold', h⟩ := htogether.exists_ok hfold
  refine ⟨.ofRun u' v', analyze_eq_ok.2 ⟨v', bind_ok hfold' rfl, rfl⟩, ?_, fun id => ?_⟩
  · obtain ⟨found, found', hfound, hfound', hall⟩ := h.findings
    rw [List.nil_append] at hfound hfound'
    rw [← hfound, ← hfound'] at hall
    unfold Analysis.diagnostics
    exact List.forall₂_map_left_iff.2 (List.forall₂_map_right_iff.2
      (hall.imp fun _ _ hkind => Finding.SameKind.diagnostic hkind))
  · exact SameKnown.map_resolve (h.types trivial)

/-- A function that returns its parameter, whose type is written as given, as a `float`. -/
def tinted (type : String) : Function :=
  ⟨"brightness", [⟨"x", ⟨type, .point 0 3 9⟩, .point 0 3 1⟩], ⟨"float", default⟩, ⟨0⟩, default⟩

/-- A synonym of a type. -/
def synonymOf (name target : String) : Item := .typedef ⟨name, ⟨target, default⟩, default⟩

/-- A unit with that function, below a synonym of a synonym. -/
def tintedUnit (type : String) : ShaderUnit where
  items := [synonymOf "color" "float3", synonymOf "tint" "color", .function (tinted type)]
  arena :=
    { exprs := #[⟨.ident "x", .point 0 4 8⟩]
      stmts := #[⟨.returns (some ⟨0⟩), .point 0 4 1⟩] }

/-- Either way what is returned is reported, at the same place, and it has the same type. -/
theorem synonyms_transparent_tint :
    let tint : Ty := .synonym "tint" (.synonym "color" (.vector .float 3))
    ∃ r r' d, analyze (tintedUnit "tint") {} = .ok r ∧ analyze (tintedUnit "float3") {} = .ok r' ∧
      r.findings = [⟨.truncation tint (.scalar .float), .point 0 4 8⟩] ∧
      r'.diagnostics = [d] ∧ d.labels.map (·.span) = [.point 0 4 8] ∧
      r.types.get? ⟨0⟩ = some tint ∧
      (r'.types.get? ⟨0⟩).map Ty.resolve = some (.vector .float 3) := by
  intro tint
  let above := [synonymOf "color" "float3", synonymOf "tint" "color"]
  let known := (tintedUnit "tint").inSight above (.function (tinted "tint"))
  have stands : known.type? "tint" = some tint := by decide +kernel
  have items : (tintedUnit "tint").items = above ++ .function (tinted "tint") :: [] := rfl
  have use : (tintedUnit "tint").Renamed "tint" "float3" known (tintedUnit "float3") :=
    .item items (.param (tinted "tint") (.here _ [] rfl))
  have hfound : (analyze (tintedUnit "tint") {}).map (fun r => (r.findings, r.types.get? ⟨0⟩)) =
      .ok ([⟨.truncation tint (.scalar .float), .point 0 4 8⟩], some tint) := by
    decide +kernel
  obtain ⟨r, hr, heq⟩ := of_map_ok hfound
  obtain ⟨hfindings, htype⟩ := Prod.ext_iff.1 heq
  obtain ⟨-, hrest⟩ := synonyms_transparent use stands {}
  obtain ⟨r', hr', hdiagnostics, htypes⟩ := hrest r hr
  dsimp only at hfindings htype
  rw [show r.diagnostics = _ from congrArg (·.map Finding.diagnostic) hfindings, List.map_singleton,
    List.forall₂_cons_left_iff] at hdiagnostics
  obtain ⟨d, rest, hd, hrest, hall⟩ := hdiagnostics
  rw [List.forall₂_nil_left_iff] at hrest
  refine ⟨r, r', d, hr, hr', hfindings, hrest ▸ hall, hd.2.2, htype, ?_⟩
  rw [htypes, htype]
  rfl

end ShaderFront
