import ShaderFront.Proofs.Analysis.Explained
import ShaderFront.Proofs.Analysis.Run

/-!
# What is known as long as there is no error

If items are collected without an error, every field, parameter and function has its type, and every
function is found under its name. If moreover no declaration is refused, every name in sight has its
type, wherever the analysis goes.
-/

namespace ShaderFront

open Reported

/-! ## Collected items -/

namespace ItemTable

/-- The signature that was collected for a function is found under its name. -/
def Collects (t : ItemTable) (f : Function) : Prop :=
  ∃ sig, t.function? f.name = some sig ∧ sig.span = f.span

/-- A written type is known or reported. -/
theorem resolve_explained (t : ItemTable) (written : WrittenType) :
    (t.resolve written).Explained := explained_orReject _ rfl written.span

/-- Parameters have types if nothing is reported of them. -/
theorem resolveParams_complete (t : ItemTable) (params : List Field)
    (h : Clean (t.resolveParams params).findings) :
    Bindings.Complete (t.resolveParams params).value := by
  induction params with
  | nil => simp [resolveParams, Bindings.Complete]
  | cons p rest ih =>
    simp only [resolveParams, findings_bind, findings_pure, List.append_nil, clean_append] at h
    intro entry hentry
    rcases List.mem_cons.1 hentry with rfl | hmem
    · exact t.resolve_explained p.type h.1
    · exact ih h.2 entry hmem

theorem resolveFields_complete (t : ItemTable) (fields : List Field)
    {done : List (String × Option Ty)} (hdone : Bindings.Complete done)
    (h : Clean (t.resolveFields done fields).findings) :
    Bindings.Complete (t.resolveFields done fields).value := by
  induction fields generalizing done with
  | nil => exact hdone
  | cons f rest ih =>
    unfold resolveFields at h ⊢
    split at h <;> rename_i hused
    · rw [findings_bind, clean_append] at h
      exact absurd h.1 (not_clean_find rfl f.span)
    · rw [findings_bind, clean_append] at h
      rw [if_neg hused, value_bind]
      refine ih (fun entry hentry => ?_) h.2
      rcases List.mem_append.1 hentry with hmem | hmem
      · exact hdone entry hmem
      · cases List.mem_singleton.1 hmem
        exact t.resolve_explained f.type h.1

/-- Functions that were found before are found still. -/
theorem function?_append {t : ItemTable} {name : String} {sig : FunctionSig}
    (h : t.function? name = some sig) (more : List FunctionSig) :
    ({ t with functions := t.functions ++ more } : ItemTable).function? name = some sig := by
  simp only [function?, List.find?_append] at h ⊢
  rw [h]
  rfl

/-- What adding an item without an error keeps, and that it collects a function. -/
structure Grows (t t' : ItemTable) (item : Item) : Prop where
  complete : t'.Complete
  kept : ∀ name sig, t.function? name = some sig → t'.function? name = some sig
  collects : ∀ f, item = .function f → t'.Collects f

/-- A function that is not reported is there with a signature of known types. -/
theorem addFunction_grows {t : ItemTable} (ht : t.Complete) (f : Function)
    (h : Clean (t.addFunction f).findings) : t.Grows (t.addFunction f).value (.function f) := by
  unfold addFunction at h ⊢
  split at h <;> rename_i hknown
  · rw [findings_bind, clean_append] at h
    exact absurd h.1 (not_clean_find rfl f.span)
  · rw [if_neg hknown]
    simp only [findings_bind, findings_pure, List.append_nil, clean_append] at h
    have hparams := t.resolveParams_complete f.params h.1
    have hreturns := t.resolve_explained f.returns h.2
    refine ⟨⟨ht.structs, fun sig hsig => ?_, fun sig hsig => ?_⟩,
      fun name sig hsig => function?_append hsig _, fun g hg => ?_⟩
    · rcases List.mem_append.1 hsig with hmem | hmem
      · exact ht.params sig hmem
      · cases List.mem_singleton.1 hmem
        exact hparams
    · rcases List.mem_append.1 hsig with hmem | hmem
      · exact ht.returns sig hmem
      · cases List.mem_singleton.1 hmem
        exact hreturns
    · cases hg
      have hnone : t.function? f.name = none := by simpa using hknown
      refine ⟨⟨f.name, (t.resolveParams f.params).value, (t.resolve f.returns).value, f.span⟩,
        ?_, rfl⟩
      simp only [function?] at hnone ⊢
      simp [hnone]

/-- A struct that is not reported has fields of known types. -/
theorem addStruct_grows {t : ItemTable} (ht : t.Complete) (s : StructDef)
    (h : Clean (t.addStruct s).findings) : t.Grows (t.addStruct s).value (.struct s) := by
  unfold addStruct at h ⊢
  split at h <;> rename_i hknown
  · rw [findings_bind, clean_append] at h
    exact absurd h.1 (not_clean_find rfl s.span)
  · rw [if_neg hknown]
    simp only [findings_bind, findings_pure, List.append_nil] at h
    have hfields := t.resolveFields_complete s.fields (by simp [Bindings.Complete]) h
    refine ⟨⟨fun info hinfo => ?_, ht.params, ht.returns⟩, fun _ _ hsig => hsig, nofun⟩
    rcases List.mem_append.1 hinfo with hmem | hmem
    · exact ht.structs info hmem
    · cases List.mem_singleton.1 hmem
      exact hfields

theorem addTypedef_grows {t : ItemTable} (ht : t.Complete) (d : Typedef) :
    t.Grows (t.addTypedef d).value (.typedef d) := by
  unfold addTypedef
  split
  · exact ⟨ht, fun _ _ hsig => hsig, nofun⟩
  · rw [value_bind]
    split
    · exact ⟨⟨ht.structs, ht.params, ht.returns⟩, fun _ _ hsig => hsig, nofun⟩
    · exact ⟨ht, fun _ _ hsig => hsig, nofun⟩

theorem addItem_grows {t : ItemTable} (ht : t.Complete) (item : Item)
    (h : Clean (t.addItem item).findings) : t.Grows (t.addItem item).value item := by
  cases item with
  | function f => exact addFunction_grows ht f h
  | struct s => exact addStruct_grows ht s h
  | typedef d => exact addTypedef_grows ht d
  | global decl => exact ⟨ht, fun _ _ hsig => hsig, nofun⟩

/-- If nothing is reported, each item is there when all are collected. -/
theorem addItems_grows {t : ItemTable} (ht : t.Complete) (items : List Item)
    (h : Clean (t.addItems items).findings) :
    (t.addItems items).value.Complete ∧
      (∀ name sig, t.function? name = some sig →
        (t.addItems items).value.function? name = some sig) ∧
      ∀ f, .function f ∈ items → (t.addItems items).value.Collects f := by
  induction items generalizing t with
  | nil => exact ⟨ht, fun _ _ hsig => hsig, nofun⟩
  | cons item rest ih =>
    simp only [addItems, findings_bind, clean_append] at h
    obtain ⟨hcomplete, hkept, hcollects⟩ := addItem_grows ht item h.1
    obtain ⟨hall, hkept', hcollects'⟩ := ih hcomplete h.2
    refine ⟨hall, fun name sig hsig => hkept' name sig (hkept name sig hsig), fun f hf => ?_⟩
    rcases List.mem_cons.1 hf with rfl | hmem
    · obtain ⟨sig, hsig, hspan⟩ := hcollects f rfl
      exact ⟨sig, hkept' _ sig hsig, hspan⟩
    · exact hcollects' f hmem

/-- **Collecting without an error** leaves nothing without a type, and every function is found. -/
theorem collect_complete {u : ShaderUnit} (h : Clean (collect u).findings) :
    (collect u).value.Complete ∧ ∀ f, .function f ∈ u.items → (collect u).value.Collects f := by
  have hempty : Complete {} := ⟨nofun, nofun, nofun⟩
  obtain ⟨hcomplete, -, hcollects⟩ := addItems_grows hempty u.items h
  exact ⟨hcomplete, hcollects⟩

end ItemTable

/-! ## Names in sight -/

theorem Scope.Complete.child {s : Scope} (h : s.Complete) : s.child.Complete :=
  Scope.Every.child (P := (·.isSome = true)) h

theorem Scope.Complete.leave {s : Scope} (h : s.Complete) : s.leave.Complete :=
  Scope.Every.leave (P := (·.isSome = true)) h

namespace Rules

variable {r : Rules} {p : Place}

theorem declaredType_explained (name : String) (written : WrittenType) :
    (r.declaredType name written).Explained := by
  refine (r.items.resolve_explained written).bind fun ty _ => ?_
  dsimp only
  split
  · exact explained_reject rfl written.span
  · exact explained_pure ty

/-- A variable has a type if nothing is reported of its declaration. -/
theorem declaration_complete (h : p.scope.Complete) (decl : VarDecl Operand)
    (hclean : Clean (r.declaration p decl).findings) :
    (r.declaration p decl).value.scope.Complete := by
  unfold declaration at hclean
  rw [findings_bind, clean_append] at hclean
  have htype := declaredType_explained decl.name decl.type hclean.1
  exact declaration_every (P := (·.isSome = true)) h htype

/-- So all names in scope keep having types. -/
theorem statement_complete (h : p.scope.Complete) (span : Span) (form : StmtForm Operand StmtId)
    (hclean : Clean (r.statement p span form).findings) :
    (r.statement p span form).value.scope.Complete := by
  cases form with
  | declare decl => exact declaration_complete h decl hclean
  | _ => exact statement_every (P := (·.isSome = true)) h span nofun

/-- The signature of a function that was collected is the one it is checked by. -/
theorem signature_complete {f : Function} (hitems : r.items.Complete)
    (hcollects : r.items.Collects f) : Bindings.Complete (r.signature f).1 := by
  obtain ⟨sig, hsig, hspan⟩ := hcollects
  have hmem : sig ∈ r.items.functions := List.mem_of_find?_eq_some hsig
  unfold signature
  rw [hsig, Option.filter_some, if_pos (by simpa using hspan)]
  exact hitems.params sig hmem

theorem enterFunction_complete {f : Function} (hitems : r.items.Complete)
    (hcollects : r.items.Collects f) (h : p.scope.Complete) :
    (r.enterFunction p f).value.scope.Complete :=
  enterFunction_every (P := (·.isSome = true)) h (signature_complete hitems hcollects)

end Rules

/-- Going to another place without an error. -/
theorem Analyzer.Moves.complete {rules : Rules} {u : ShaderUnit} {s s' : Analyzer}
    (hmoves : Moves rules u s s') (hitems : rules.items.Complete)
    (hcollects : ∀ f, .function f ∈ u.items → rules.items.Collects f)
    (h : s.place.scope.Complete) (hclean : Clean s'.findings) : s'.place.scope.Complete := by
  cases hmoves with
  | stay => exact h
  | enterFunction f mem => exact Rules.enterFunction_complete hitems (hcollects f mem) h
  | leaveFunction => exact h.leave
  | declare decl => exact Rules.declaration_complete h decl (clean_append.1 hclean).2
  | enterScope => exact h.child
  | statement span form => exact Rules.statement_complete h span form (clean_append.1 hclean).2

theorem Analyzer.Moves.types {rules : Rules} {u : ShaderUnit} {s s' : Analyzer}
    (hmoves : Moves rules u s s') : s'.types = s.types := by
  cases hmoves <;> rfl

/-- Findings stay. -/
theorem Analyzer.Moves.clean {rules : Rules} {u : ShaderUnit} {s s' : Analyzer}
    (hmoves : Moves rules u s s') (hclean : Clean s'.findings) : Clean s.findings := by
  cases hmoves with
  | stay | leaveFunction | enterScope => exact hclean
  | enterFunction | declare | statement => exact (clean_append.1 hclean).1

end ShaderFront
