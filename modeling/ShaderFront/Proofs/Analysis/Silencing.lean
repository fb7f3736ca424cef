import ShaderFront.Proofs.Analysis.Reports
import ShaderFront.Proofs.Analysis.Stripping
import ShaderFront.Proofs.Syntax.Lockstep

/-!
# Silencing truncations

Rules that are silent about truncations find what the others find without them, and come to the same
values: a store that truncates is a store. What has been found so far is nowhere looked at, so two
runs of which one is silent go in lockstep, and their findings differ in nothing but the truncations
that are left out.
-/

namespace ShaderFront

open Transformer

/-- Findings without the truncations. -/
def silence (findings : List Finding) : List Finding :=
  findings.filter (·.problem.code != .w2001)

theorem silence_append (findings more : List Finding) :
    silence (findings ++ more) = silence findings ++ silence more := List.filter_append ..

/-- The same rules, which do not warn of truncations. -/
def Rules.silent (r : Rules) : Rules := { r with warnOnTruncation := false }

namespace Reported

variable {α β : Type}

/-- The same value without the truncations that were found on the way. -/
def silenced (x : Reported α) : Reported α := ⟨x.value, silence x.findings⟩

/-- One step after the other, each of them silenced. -/
theorem silent_bind {x x' : Reported α} {f f' : α → Reported β} (hx : x' = x.silenced)
    (hf : f' x.value = (f x.value).silenced) : (x' >>= f') = (x >>= f).silenced := by
  subst hx
  show Reported.mk (f' x.value).value (silence x.findings ++ (f' x.value).findings) = _
  rw [hf]
  exact congrArg (Reported.mk _) (silence_append ..).symm

/-- Where no truncation was found, there is nothing to leave out. -/
theorem Finds.silenced {x : Reported α} (h : x.Finds (·.problem.code ≠ .w2001)) :
    x.silenced = x := by
  obtain ⟨value, findings⟩ := x
  exact congrArg (Reported.mk value) (List.filter_eq_self.2 fun f hf => bne_iff_ne.2 (h f hf))

/-- A rule that never warns is not changed by silence. -/
theorem Reports.silenced {x : Reported α} (h : x.Reports false fun _ => True) :
    x.silenced = x :=
  Finds.silenced (h.mono fun _ hf htruncation => Bool.false_ne_true (hf.warned htruncation))

end Reported

namespace Rules

open Reported

variable (r : Rules)

/-! ## What silent rules find -/

/-- **A store that truncates is a store**, whether it is warned of or not. -/
theorem store_silent (span : Span) (value target : Ty) :
    r.silent.store span value target = (r.store span value target).silenced := by
  unfold store
  split
  · rfl
  · cases hwarn : r.warnOnTruncation <;> rfl
  · rfl

/-- Without warnings a rule reports what it reports with them, less the warnings. -/
theorem storeArguments_silent (args : List Operand) (types : List Ty)
    (params : List (String × Option Ty)) :
    r.silent.storeArguments args types params = (r.storeArguments args types params).silenced := by
  induction args generalizing types params with
  | nil => rfl
  | cons arg args ih =>
    cases types with
    | nil => rfl
    | cons ty types =>
      cases params with
      | nil => rfl
      | cons entry params =>
        obtain ⟨name, param⟩ := entry
        unfold storeArguments
        cases param with
        | none => exact ih types params
        | some target => exact silent_bind (r.store_silent _ _ _) (ih types params)

theorem callFunction_silent (sig : FunctionSig) (args : List Operand) (span : Span) :
    r.silent.callFunction sig args span = (r.callFunction sig args span).silenced := by
  unfold callFunction
  dsimp only
  split
  · rfl
  · split
    · exact silent_bind (r.storeArguments_silent _ _ _) rfl
    · rfl

theorem call_silent (callee : String) (args : List Operand) (span : Span) :
    r.silent.call callee args span = (r.call callee args span).silenced := by
  have hquiet : (r.silent.call callee args span).Reports false fun _ => True :=
    r.silent.call_reports trivial callee fun _ _ => trivial
  cases htype : r.items.type? callee with
  | some target =>
    have heq : r.silent.call callee args span = r.call callee args span := by
      simp only [call, silent, htype]
    rw [← heq, hquiet.silenced]
  | none =>
    cases hfunction : r.items.function? callee with
    | some sig =>
      have hcall : r.call callee args span = r.callFunction sig args span := by
        simp only [call, htype, hfunction]
      have hcall' : r.silent.call callee args span = r.silent.callFunction sig args span := by
        simp only [call, silent, htype, hfunction]
      rw [hcall, hcall', callFunction_silent]
    | none =>
      have heq : r.silent.call callee args span = r.call callee args span := by
        simp only [call, silent, htype, hfunction]
      rw [← heq, hquiet.silenced]

theorem assign_silent (op : AssignOp) (target value : Operand) (span : Span) :
    r.silent.assign op target value span = (r.assign op target value span).silenced := by
  unfold assign
  split
  · split
    · rfl
    · rename_i place ty _ _ _
      have hstore (stored : Ty) : (do r.silent.store value.span stored place; return some place) =
          (do r.store value.span stored place; return some place : Reported (Option Ty)).silenced :=
        silent_bind (r.store_silent _ _ _) rfl
      dsimp only
      split
      · exact silent_bind rfl (hstore ty)
      · rename_i op _
        have hquiet : (binary op place ty span).Reports false fun _ => True :=
          binary_reports trivial op place ty
        refine silent_bind hquiet.silenced.symm ?_
        split
        · rfl
        · exact hstore _
  · rfl

/-- **Expressions have the same type**, and what is found is the same but for truncations. -/
theorem type_silent (scope : Scope) (span : Span) (form : ExprForm Operand) :
    r.silent.type scope span form = (r.type scope span form).silenced := by
  have hquiet : (r.silent.type scope span form).Reports false fun _ => True :=
    r.silent.type_reports trivial scope (fun _ _ => trivial) fun _ _ _ => trivial
  cases form with
  | call callee args => exact r.call_silent callee args span
  | assign op target value => exact r.assign_silent op target value span
  | _ => exact hquiet.silenced.symm

theorem declaredType_silent (name : String) (written : WrittenType) :
    (r.declaredType name written).silenced = r.declaredType name written :=
  Reports.silenced (r.declaredType_reports name trivial)

/-- Declarations do not warn. -/
theorem declare_silenced (p : Place) (name : String) (type : Option Ty) (span : Span) :
    (p.declare name type span).silenced = p.declare name type span :=
  Finds.silenced (declare_finds p name type Code.noConfusion)

theorem declaration_silent (p : Place) (decl : VarDecl Operand) :
    r.silent.declaration p decl = (r.declaration p decl).silenced := by
  have hdeclare (type : Option Ty) := (declare_silenced p decl.name type decl.span).symm
  unfold declaration
  refine silent_bind (r.declaredType_silent decl.name decl.type).symm ?_
  dsimp only
  split
  · exact silent_bind (r.store_silent _ _ _) (hdeclare _)
  · exact hdeclare _

theorem returnStatement_silent (p : Place) (value : Option Operand) (span : Span) :
    r.silent.returnStatement p value span = (r.returnStatement p value span).silenced := by
  unfold returnStatement
  split
  · rfl
  · split
    · rfl
    · split
      · rfl
      · split
        · exact r.store_silent _ _ _
        · rfl
    · split <;> rfl

/-- **Statements lead to the same place.** -/
theorem statement_silent (p : Place) (span : Span) (form : StmtForm Operand StmtId) :
    r.silent.statement p span form = (r.statement p span form).silenced := by
  cases form with
  | declare decl => exact r.declaration_silent p decl
  | returns value => exact silent_bind (r.returnStatement_silent p value span) rfl
  | _ =>
    refine (Reports.silenced (r.silent.statement_reports trivial p ?_ fun _ _ => trivial)).symm
    exact fun decl heq => by cases heq

theorem enterFunction_silent (p : Place) (f : Function) :
    r.silent.enterFunction p f = (r.enterFunction p f).silenced := by
  have hquiet : (r.enterFunction p f).Finds (·.problem.code ≠ .w2001) :=
    r.enterFunction_finds p f fun _ _ _ => Code.noConfusion
  exact hquiet.silenced.symm

end Rules

/-! ## Silent runs -/

/-- What has been found so far without the truncations. -/
def Analyzer.silenced (s : Analyzer) : Analyzer := { s with findings := silence s.findings }

/-- What a run yields without the truncations. -/
def Analysis.silenced (r : Analysis) : Analysis := { r with findings := silence r.findings }

namespace Analyzer

variable (r : Rules) (mode : TransformMode) (s : Analyzer)

theorem moveTo_silenced (p : Reported Place) :
    s.silenced.moveTo p.silenced = (s.moveTo p).silenced :=
  congrArg (Analyzer.mk _ _ _) (silence_append ..).symm

/-- Types are recorded alike. -/
theorem record_silenced (id : ExprId) (type : Reported (Option Ty)) :
    s.silenced.record id type.silenced = (s.record id type).silenced :=
  congrArg (Analyzer.mk _ _ _) (silence_append ..).symm

/-- The second moment is the first one, but for truncations. -/
def Silenced (s s' : Arena × Analyzer) : Prop := s' = (s.1, s.2.silenced)

/-- **Runs of which one is silent go in lockstep.** -/
theorem lockstep_silent : (transformer r mode).Lockstep (transformer r.silent mode) False Set.univ
    Silenced where
  size {s s'} h := by
    subst h
    exact .inr ⟨rfl, rfl⟩
  expr {s s' id} h _ := by
    subst h
    cases s.1.expr? id with
    | none => exact .none
    | some e => exact .some ⟨rfl, fun _ _ => trivial⟩
  stmt {s s' id} h _ := by
    subst h
    cases s.1.stmt? id with
    | none => exact .none
    | some e => exact .some ⟨rfl, fun _ _ => trivial⟩
  leaveExpr {s s' id} h _ := by
    subst h
    refine .bind_same fun e => .bind_same fun form => ?_
    have hrecord := s.2.record_silenced id (r.type s.2.place.scope e.span form)
    rw [← r.type_silent] at hrecord
    obtain ⟨form', span⟩ := e
    cases form' with
    | paren inner =>
      refine .bind_same fun core => ?_
      exact Prod.ext rfl (congrArg (fun z : Analyzer =>
        { z with replacements := z.replacements + if mode.exprs then 1 else 0 }) hrecord)
    | _ => exact Prod.ext rfl hrecord
  enterStmt {s s' id} h _ := by
    subst h
    refine .bind_same fun stmt => ?_
    split
    · rfl
    · rfl
  leaveStmt {s s' id} h _ := by
    subst h
    refine .bind_same fun stmt => .bind_same fun form => ?_
    have hmove := s.2.moveTo_silenced (r.statement s.2.place stmt.span form)
    rw [← r.statement_silent] at hmove
    exact Prod.ext rfl hmove

/-- Items are entered alike, -/
theorem enterItem_silent (item : Item) :
    enterItem r.silent item s.silenced = (enterItem r item s).silenced := by
  cases item with
  | function f =>
    have hmove := s.moveTo_silenced (r.enterFunction s.place f)
    rw [← r.enterFunction_silent] at hmove
    exact hmove
  | global | struct | typedef => rfl

/-- and they are left alike. -/
theorem leaveItem_silent (a : Arena) (item : Item) :
    Together False (fun z z' => z' = z.silenced) (leaveItem r a item s)
      (leaveItem r.silent a item s.silenced) := by
  cases item with
  | function f => rfl
  | struct | typedef => rfl
  | global decl =>
    refine .bind_same fun d => ?_
    have hmove := s.moveTo_silenced (r.declaration s.place d)
    rw [← r.declaration_silent] at hmove
    exact hmove

/-- **A silent run keeps step** with one that warns, and finds the same less the warnings. -/
theorem run_silent (u : ShaderUnit) :
    Together False (fun x x' => x' = (x.1, x.2.silenced)) ((transformer r mode).run u s)
      ((transformer r.silent mode).run u s.silenced) := by
  have hitems : Together False Silenced
      (u.items.foldlM (fun s item => (transformer r mode).transformItem item s) (u.arena, s))
      (u.items.foldlM (fun s item => (transformer r.silent mode).transformItem item s)
        (u.arena, s.silenced)) := by
    refine Together.foldlM (List.forall₂_eq_eq_eq.symm ▸ rfl) (fun item _ t t' hitem _ ht => ?_) rfl
    subst hitem ht
    refine (lockstep_silent r mode).transformItem rfl (fun _ _ => trivial) ?_ fun v v' hv => ?_
    · exact Prod.ext rfl (t.2.enterItem_silent r item)
    · subst hv
      exact (v.2.leaveItem_silent r v.1 item).imp fun z z' hz => Prod.ext rfl hz
  refine hitems.bind fun t t' ht => ?_
  subst ht
  rfl

end Analyzer

/-- Nothing is stored while items are collected. -/
theorem Analyzer.start_silenced (u : ShaderUnit) : (start u).silenced = start u := by
  have hcollect : (ItemTable.collect u).Finds (·.problem.code ≠ .w2001) :=
    ItemTable.addItems_finds {} fun _ _ _ _ _ hcode => hcode
  exact congrArg (Analyzer.mk _ _ _) (congrArg Reported.findings hcollect.silenced)

/-- Two analyses of which one is silent both end or both fail. -/
theorem analyze_silent (u : ShaderUnit) (mode : TransformMode) (warn : Bool) :
    Together False (fun r r' => r' = r.silenced) (analyze u ⟨mode, warn⟩)
      (analyze u ⟨mode, false⟩) := by
  have hrun := Analyzer.run_silent (u.rules ⟨mode, warn⟩) mode (.start u) u
  rw [Analyzer.start_silenced] at hrun
  refine hrun.bind fun x x' hx => ?_
  subst hx
  rfl

/-- The diagnostics that are no truncations are those of the findings that are none. -/
theorem Analysis.diagnostics_silenced (r : Analysis) :
    r.silenced.diagnostics = r.diagnostics.filter (·.code != .w2001) := by
  rw [diagnostics, diagnostics, List.filter_map]
  rfl

/-- **Silencing truncations only filters.** Whatever is rewritten, the analysis that does not warn
of truncations ends if and only if the one that does ends. It has the same diagnostics without the
truncations, in the same order, and the same types, the same unit and the same number of rewrites.
If all ids of a unit are in range and no node lies below itself, both end. -/
theorem truncations_silenced (u : ShaderUnit) (mode : TransformMode) :
    (u.WellFormed → ∃ r, analyze u ⟨mode, true⟩ = .ok r) ∧
    ((∃ r, analyze u ⟨mode, true⟩ = .ok r) ↔ ∃ r, analyze u ⟨mode, false⟩ = .ok r) ∧
    ∀ r r', analyze u ⟨mode, true⟩ = .ok r → analyze u ⟨mode, false⟩ = .ok r' →
      r'.diagnostics = r.diagnostics.filter (·.code != .w2001) ∧
        r'.types = r.types ∧ r'.unit = r.unit ∧ r'.replacements = r.replacements ∧
        r'.items = r.items := by
  have htogether := analyze_silent u mode true
  refine ⟨fun wf => Stripping.analyze_ok wf _, ⟨fun ⟨r, hr⟩ => ?_, fun ⟨r', hr'⟩ => ?_⟩,
    fun r r' hr hr' => ?_⟩
  · obtain ⟨r', hr', -⟩ := htogether.exists_ok hr
    exact ⟨r', hr'⟩
  · obtain ⟨r, hr, -⟩ := htogether.symm.exists_ok hr'
    exact ⟨r, hr⟩
  · obtain rfl := htogether.rel hr hr'
    exact ⟨r.diagnostics_silenced, rfl, rfl, rfl, rfl⟩

/-- A function that declares one variable twice, with a vector that is too long for it. -/
def truncating : ShaderUnit where
  items := [.function ⟨"f", [⟨"v", ⟨"float3", .point 0 1 8⟩, .point 0 1 15⟩],
    ⟨"void", .point 0 1 1⟩, ⟨2⟩, .point 0 1 6⟩]
  arena :=
    { exprs := #[⟨.ident "v", .point 0 2 14⟩, ⟨.ident "v", .point 0 3 14⟩]
      stmts :=
        #[⟨.declare ⟨"w", ⟨"float2", .point 0 2 3⟩, some ⟨0⟩, .point 0 2 10⟩, .point 0 2 3⟩,
          ⟨.declare ⟨"w", ⟨"float2", .point 0 3 3⟩, some ⟨1⟩, .point 0 3 10⟩, .point 0 3 3⟩,
          ⟨.block [⟨0⟩, ⟨1⟩], .point 0 1 18⟩] }

/-- Both truncations are left out, and the second declaration is reported still. -/
theorem truncations_silenced_truncating : truncating.WellFormed ∧
    ∃ r r', analyze truncating ⟨.all, true⟩ = .ok r ∧ analyze truncating ⟨.all, false⟩ = .ok r' ∧
      r.diagnostics.map (·.code) = [.w2001, .w2001, .e2011] ∧
      r'.diagnostics.map (·.code) = [.e2011] ∧ r'.types = r.types := by
  have wf : truncating.WellFormed :=
    ShaderUnit.Ascending.wellFormed ⟨by decide, by decide, by decide⟩
  obtain ⟨hok, hends, hsame⟩ := truncations_silenced truncating .all
  obtain ⟨r, hr⟩ := hok wf
  obtain ⟨r', hr'⟩ := hends.1 ⟨r, hr⟩
  obtain ⟨hdiagnostics, htypes, -⟩ := hsame r r' hr hr'
  have hcodes : (analyze truncating ⟨.all, true⟩).map (fun r => r.diagnostics.map (·.code)) =
      .ok [.w2001, .w2001, .e2011] := by decide +kernel
  obtain ⟨other, hother, hcodes⟩ := of_map_ok hcodes
  cases hr.symm.trans hother
  have hfilter : (r.diagnostics.filter (·.code != .w2001)).map (·.code) =
      (r.diagnostics.map (·.code)).filter (· != .w2001) := by
    rw [List.filter_map]
    rfl
  refine ⟨wf, r, r', hr, hr', hcodes, ?_, htypes⟩
  rw [hdiagnostics, hfilter, hcodes]
  decide

end ShaderFront
