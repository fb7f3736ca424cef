import ShaderFront.Proofs.Analysis.Explained
import ShaderFront.Proofs.Analysis.Signatures
import ShaderFront.Proofs.Types.Spelling

/-!
# Where collected types are written

A signature is collected from a function of its name, and a struct from a definition of its name.
Each type in it is written in that item, by a name that means the type still when everything is
collected. If nothing is wrong with the items, each function is collected with all of its
parameters.
-/

namespace ShaderFront

open Reported

namespace ItemTable

variable {t : ItemTable} {name : String} {ty : Ty}

/-- Signatures and structs are written in these items, by names that mean their types. -/
structure Written (t : ItemTable) (items : List Item) : Prop where
  functions : ∀ sig ∈ t.functions, ∃ f, .function f ∈ items ∧ f.name = sig.name ∧
    ∀ name ty, (name, some ty) ∈ sig.params → t.Gives f.params name ty
  structs : ∀ info ∈ t.structs, ∃ s, .struct s ∈ items ∧ s.name = info.name ∧
    ∀ name ty, (name, some ty) ∈ info.fields → t.Gives s.fields name ty

theorem type?_addItems (h : t.type? name = some ty) (items : List Item) :
    (t.addItems items).value.type? name = some ty := by
  induction items generalizing t with
  | nil => exact h
  | cons item rest ih => exact ih (type?_addItem h item)

theorem Gives.addItem {fields : List Field} (h : t.Gives fields name ty) (item : Item) :
    (t.addItem item).value.Gives fields name ty := by
  obtain ⟨f, hf, hname, hmeans⟩ := h
  exact ⟨f, hf, hname, type?_addItem hmeans item⟩

theorem Written.addItem {items : List Item} (h : t.Written items) {item : Item}
    (mem : item ∈ items) : (t.addItem item).value.Written items := by
  -- What was there before means the same in the larger table.
  have hfunctions : ∀ sig ∈ t.functions, ∃ f, .function f ∈ items ∧ f.name = sig.name ∧
      ∀ name ty, (name, some ty) ∈ sig.params → (t.addItem item).value.Gives f.params name ty := by
    intro sig hsig
    obtain ⟨f, hf, hname, hparams⟩ := h.functions sig hsig
    exact ⟨f, hf, hname, fun name ty hentry => (hparams name ty hentry).addItem item⟩
  have hstructs : ∀ info ∈ t.structs, ∃ s, .struct s ∈ items ∧ s.name = info.name ∧
      ∀ name ty, (name, some ty) ∈ info.fields →
        (t.addItem item).value.Gives s.fields name ty := by
    intro info hinfo
    obtain ⟨s, hs, hname, hfields⟩ := h.structs info hinfo
    exact ⟨s, hs, hname, fun name ty hentry => (hfields name ty hentry).addItem item⟩
  cases item with
  | global decl => exact h
  | function f =>
    have hnew : ∀ name ty, (name, some ty) ∈ (t.resolveParams f.params).value →
        (t.addItem (.function f)).value.Gives f.params name ty :=
      fun name ty hentry => (resolveParams_gives hentry).addItem _
    simp only [ItemTable.addItem, addFunction] at hfunctions hstructs hnew ⊢
    split
    · exact h
    · rename_i hfree
      rw [if_neg hfree] at hfunctions hstructs hnew
      refine ⟨fun sig hsig => ?_, hstructs⟩
      rcases List.mem_append.1 hsig with hold | hlast
      · exact hfunctions sig hold
      · cases List.mem_singleton.1 hlast
        exact ⟨f, mem, rfl, hnew⟩
  | struct s =>
    have hnew : ∀ name ty, (name, some ty) ∈ (t.resolveFields [] s.fields).value →
        (t.addItem (.struct s)).value.Gives s.fields name ty := fun name ty hentry =>
      ((resolveFields_gives hentry).resolve_left List.not_mem_nil).addItem _
    simp only [ItemTable.addItem, addStruct] at hfunctions hstructs hnew ⊢
    split
    · exact h
    · rename_i hfree
      rw [if_neg hfree] at hfunctions hstructs hnew
      refine ⟨hfunctions, fun info hinfo => ?_⟩
      rcases List.mem_append.1 hinfo with hold | hlast
      · exact hstructs info hold
      · cases List.mem_singleton.1 hlast
        exact ⟨s, mem, rfl, hnew⟩
  | typedef d =>
    simp only [ItemTable.addItem, addTypedef] at hfunctions hstructs ⊢
    split
    · exact h
    · rename_i hfree
      rw [if_neg hfree, value_bind] at hfunctions hstructs
      rw [value_bind]
      split
      · rename_i htarget
        rw [htarget] at hfunctions hstructs
        exact ⟨hfunctions, hstructs⟩
      · exact h

theorem Written.addItems {all : List Item} (h : t.Written all) {items : List Item}
    (mem : ∀ item ∈ items, item ∈ all) : (t.addItems items).value.Written all := by
  induction items generalizing t with
  | nil => exact h
  | cons item rest ih =>
    exact ih (h.addItem (mem item List.mem_cons_self)) fun other hother =>
      mem other (List.mem_cons_of_mem _ hother)

/-- **What is collected is written in the items of the unit.** -/
theorem written_collect (u : ShaderUnit) : (collect u).value.Written u.items :=
  Written.addItems (t := {}) ⟨nofun, nofun⟩ fun _ hitem => hitem

/-! ## Items with which nothing is wrong -/

/-- A type that is resolved without an error means the same when more is collected. -/
theorem type?_of_clean {written : WrittenType} (clean : Clean (t.resolve written).findings)
    (items : List Item) :
    (t.addItems items).value.type? written.name = t.type? written.name := by
  have hsome : (t.resolve written).value.isSome = true :=
    explained_orReject _ rfl written.span clean
  rw [value_resolve] at hsome
  obtain ⟨ty, hty⟩ := Option.isSome_iff_exists.1 hsome
  rw [hty, type?_addItems hty]

theorem params_of_clean {params : List Field} (clean : Clean (t.resolveParams params).findings)
    (items : List Item) : (t.resolveParams params).value =
      params.map fun p => (p.name, (t.addItems items).value.type? p.type.name) := by
  rw [value_resolveParams]
  induction params with
  | nil => rfl
  | cons p rest ih =>
    simp only [resolveParams, findings_bind, findings_pure, List.append_nil, clean_append] at clean
    rw [List.map_cons, List.map_cons, type?_of_clean clean.1, ih clean.2]

/-- **A function is collected with the parameters that it writes**, if nothing is wrong with the
items. -/
theorem function?_of_clean {items : List Item} (clean : Clean (t.addItems items).findings)
    {f : Function} (mem : .function f ∈ items) :
    ∃ sig, (t.addItems items).value.function? f.name = some sig ∧ sig.span = f.span ∧
      sig.params = (f.signature (t.addItems items).value).1 := by
  induction items generalizing t with
  | nil => cases mem
  | cons item rest ih =>
    simp only [addItems, findings_bind, clean_append] at clean
    rcases List.mem_cons.1 mem with rfl | hrest
    · obtain ⟨hitem, -⟩ := clean
      simp only [addItem, addFunction] at hitem
      split at hitem
      · rw [findings_bind, clean_append] at hitem
        exact absurd hitem.1 (not_clean_find rfl f.span)
      · rename_i hfree
        simp only [findings_bind, findings_pure, List.append_nil, clean_append] at hitem
        have hnone : t.function? f.name = none := by simpa using hfree
        have hfound : (t.addItem (.function f)).value.function? f.name = some (t.collected f) := by
          rw [addItem, function?_addFunction, hnone, if_pos rfl, Option.none_or]
        refine ⟨t.collected f, function?_addItems_of_some hfound rest, rfl, ?_⟩
        have hparams := params_of_clean hitem.1 (.function f :: rest)
        rw [value_resolveParams] at hparams
        exact hparams
    · exact ih clean.2 hrest

end ItemTable
end ShaderFront
