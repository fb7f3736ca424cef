import ShaderFront.Proofs.Analysis.Signatures
import ShaderFront.Proofs.Analysis.SynonymRules

/-!
# Collected items and synonyms

If each of two rows of items writes the same types as the other one, what is collected from them is
the same behind its synonyms. Types are written before the table is complete, so what counts is what
a name means where it is written.
-/

namespace ShaderFront

open Reported

/-! ## Items that write the same types -/

/-- Fields of one name at one place, with related types. -/
structure Field.Rel (T : WrittenType → WrittenType → Prop) (f f' : Field) : Prop where
  name : f'.name = f.name
  type : T f.type f'.type
  span : f'.span = f.span

/-- Functions of one name, with one body, whose signatures write related types. -/
structure Function.Rel (T : WrittenType → WrittenType → Prop) (f f' : Function) : Prop where
  name : f'.name = f.name
  params : List.Forall₂ (Field.Rel T) f.params f'.params
  returns : T f.returns f'.returns
  body : f'.body = f.body
  span : f'.span = f.span

/-- Items of one kind and one name that write related types. -/
inductive Item.Rel (T : WrittenType → WrittenType → Prop) : Item → Item → Prop where
  | function {f f'} (h : Function.Rel T f f') : Rel T (.function f) (.function f')
  | global {d d'} (h : VarDecl.Rel T Eq d d') : Rel T (.global d) (.global d')
  | struct {s s'} (name : s'.name = s.name) (span : s'.span = s.span)
      (fields : List.Forall₂ (Field.Rel T) s.fields s'.fields) : Rel T (.struct s) (.struct s')
  | typedef {d d'} (name : d'.name = d.name) (span : d'.span = d.span)
      (target : T d.target d'.target) : Rel T (.typedef d) (.typedef d')

section Reflexive

variable {T : WrittenType → WrittenType → Prop} (hT : ∀ w, T w w)
include hT

theorem Field.Rel.refl_list (fields : List Field) : List.Forall₂ (Field.Rel T) fields fields :=
  List.forall₂_same.2 fun f _ => ⟨rfl, hT f.type, rfl⟩

theorem Function.Rel.refl (f : Function) : f.Rel T f :=
  ⟨rfl, Field.Rel.refl_list hT _, hT _, rfl, rfl⟩

theorem VarDecl.Rel.refl (d : VarDecl ExprId) : d.Rel T Eq d := by
  refine ⟨rfl, hT _, ?_, rfl⟩
  cases d.init with
  | none => exact .none
  | some id => exact .some rfl

theorem Item.Rel.refl (item : Item) : item.Rel T item := by
  cases item with
  | function f => exact .function (.refl hT f)
  | global d => exact .global (.refl hT d)
  | struct s => exact .struct rfl rfl (Field.Rel.refl_list hT _)
  | typedef d => exact .typedef rfl rfl (hT _)

end Reflexive

/-! ## Tables that are the same -/

namespace ItemTable

/-- The same names in the same order, with the same types. -/
structure Same (t t' : ItemTable) : Prop where
  structs : List.Forall₂ StructInfo.Same t.structs t'.structs
  synonyms : List.Forall₂ (fun d d' => d'.1 = d.1 ∧ Ty.Same d.2 d'.2) t.synonyms t'.synonyms
  functions : List.Forall₂ FunctionSig.Same t.functions t'.functions

variable {t t' : ItemTable}

theorem Same.refl (t : ItemTable) : t.Same t := by
  have hbindings (b : Bindings) : Bindings.Same b b :=
    List.forall₂_same.2 fun _ _ => ⟨rfl, .refl _⟩
  refine ⟨List.forall₂_same.2 fun s _ => ⟨rfl, hbindings _⟩,
    List.forall₂_same.2 fun d _ => ⟨rfl, .refl _⟩,
    List.forall₂_same.2 fun f _ => ⟨rfl, hbindings _, .refl _, rfl⟩⟩

theorem Same.struct? (h : t.Same t') (name : String) :
    Option.Rel StructInfo.Same (t.struct? name) (t'.struct? name) :=
  find?_rel h.structs fun _ _ hs => by rw [hs.name]

theorem Same.function? (h : t.Same t') (name : String) :
    Option.Rel FunctionSig.Same (t.function? name) (t'.function? name) :=
  find?_rel h.functions fun _ _ hf => by rw [hf.name]

theorem Same.type? (h : t.Same t') (name : String) : SameKnown (t.type? name) (t'.type? name) := by
  have hstruct : (t'.struct? name).isSome = (t.struct? name).isSome := by
    have hrel := h.struct? name
    generalize t.struct? name = s, t'.struct? name = s' at hrel ⊢
    cases hrel <;> rfl
  have hsynonym : SameKnown ((t.synonyms.lookup name).map (.synonym name))
      ((t'.synonyms.lookup name).map (.synonym name)) := by
    have hsynonyms := h.synonyms
    generalize t.synonyms = l, t'.synonyms = l' at hsynonyms ⊢
    induction hsynonyms with
    | nil => exact .none
    | @cons d d' _ _ hd _ ih =>
      obtain ⟨n, target⟩ := d
      obtain ⟨n', target'⟩ := d'
      obtain ⟨hname, htarget⟩ := hd
      dsimp only at hname htarget
      subst hname
      rw [List.lookup_cons, List.lookup_cons]
      split
      · exact .some htarget
      · exact ih
  unfold ItemTable.type?
  rw [hstruct]
  split
  · exact .refl _
  · split
    · exact .refl _
    · exact hsynonym

theorem Same.written (h : t.Same t') (written : WrittenType) : t.SameWritten t' written written :=
  ⟨rfl, h.type? _⟩

/-- Rules over tables that are the same. -/
theorem Same.rules (h : t.Same t') (warn : Bool) : Rules.Same ⟨t, warn⟩ ⟨t', warn⟩ :=
  ⟨h.type?, h.struct?, h.function?, rfl⟩

/-! ## Collecting -/

theorem resolveParams_same {params params' : List Field}
    (h : List.Forall₂ (Field.Rel (t.SameWritten t')) params params') :
    (t.resolveParams params).Rel Bindings.Same (t'.resolveParams params') := by
  induction h with
  | nil => exact rel_pure .nil
  | cons hp _ ih =>
    exact hp.type.resolve.bind fun _ _ hty => ih.bind fun _ _ hrest =>
      rel_pure (.cons ⟨hp.name, hty⟩ hrest)

theorem resolveFields_same {done done' : Bindings} (hdone : done.Same done')
    {fields fields' : List Field}
    (h : List.Forall₂ (Field.Rel (t.SameWritten t')) fields fields') :
    (t.resolveFields done fields).Rel Bindings.Same (t'.resolveFields done' fields') := by
  induction h generalizing done done' with
  | nil => exact rel_pure hdone
  | @cons f f' _ _ hf _ ih =>
    have hused : (done'.lookup f'.name).isSome = (done.lookup f.name).isSome := by
      rw [hf.name]
      exact hdone.has f.name
    unfold resolveFields
    rw [hused, hf.name, hf.span]
    split
    · exact (rel_find (by rfl) _).bind fun _ _ _ => ih hdone
    · exact hf.type.resolve.bind fun _ _ hty =>
        ih (List.rel_append hdone (.cons ⟨rfl, hty⟩ .nil))

/-- A later definition is left out, whatever it writes. -/
theorem addFunction_known (h : t.Same t') {f f' : Function} (hname : f'.name = f.name)
    (hspan : f'.span = f.span) (hknown : (t.function? f.name).isSome = true) :
    (t.addFunction f).Rel Same (t'.addFunction f') := by
  have hknown' : (t'.function? f.name).isSome = true := by
    have hrel := h.function? f.name
    generalize t.function? f.name = sig, t'.function? f.name = sig' at hrel hknown ⊢
    cases hrel with
    | some h => rfl
    | none => cases hknown
  unfold addFunction
  rw [hname, hspan, if_pos hknown, if_pos hknown']
  exact (rel_find rfl _).bind fun _ _ _ => rel_pure h

theorem addFunction_same (h : t.Same t') {f f' : Function} (hf : f.Rel (t.SameWritten t') f') :
    (t.addFunction f).Rel Same (t'.addFunction f') := by
  cases hknown : (t.function? f.name).isSome with
  | true => exact addFunction_known h hf.name hf.span hknown
  | false =>
    have hknown' : (t'.function? f.name).isSome = false := by
      have hrel := h.function? f.name
      generalize t.function? f.name = sig, t'.function? f.name = sig' at hrel hknown ⊢
      cases hrel with
      | some h => cases hknown
      | none => rfl
    unfold addFunction
    rw [hf.name, hf.span, hknown, hknown']
    refine (resolveParams_same hf.params).bind fun _ _ hparams => ?_
    refine hf.returns.resolve.bind fun _ _ hreturns => rel_pure ?_
    exact { h with
      functions := List.rel_append h.functions (.cons ⟨rfl, hparams, hreturns, rfl⟩ .nil) }

/-- Items that write the same types are collected alike. -/
theorem addItem_same (h : t.Same t') {item item' : Item}
    (hitem : item.Rel (t.SameWritten t') item') :
    (t.addItem item).Rel Same (t'.addItem item') := by
  have htaken (name : String) : (t'.type? name).isSome = (t.type? name).isSome := by
    have hrel := h.type? name
    generalize t.type? name = ty, t'.type? name = ty' at hrel ⊢
    cases hrel <;> rfl
  cases hitem with
  | function hf => exact addFunction_same h hf
  | global => exact rel_pure h
  | struct name span fields =>
    simp only [addItem, addStruct]
    rw [name, span, htaken]
    split
    · exact (rel_find (by rfl) _).bind fun _ _ _ => rel_pure h
    · have hnone : Bindings.Same [] [] := .nil
      refine (resolveFields_same hnone fields).bind fun _ _ hfields => rel_pure ?_
      exact { h with structs := List.rel_append h.structs (.cons ⟨rfl, hfields⟩ .nil) }
  | typedef name span target =>
    simp only [addItem, addTypedef]
    rw [name, span, htaken]
    split
    · exact (rel_find (by rfl) _).bind fun _ _ _ => rel_pure h
    · refine target.resolve.bind fun ty ty' hty => ?_
      cases hty with
      | none => exact rel_pure h
      | some hty =>
        exact rel_pure { h with
          synonyms := List.rel_append h.synonyms (.cons ⟨rfl, hty⟩ .nil) }

theorem addItems_same (h : t.Same t') (items : List Item) :
    (t.addItems items).Rel Same (t'.addItems items) := by
  induction items generalizing t t' with
  | nil => exact rel_pure h
  | cons item rest ih => exact (addItem_same h (.refl h.written item)).bind fun _ _ h => ih h

/-- One item gives way to another one that is collected alike where it stands. -/
theorem addItems_replace {item item' : Item} (below : List Item) (above : List Item)
    (h : ((t.addItems above).value.addItem item).Rel Same
      ((t.addItems above).value.addItem item')) :
    (t.addItems (above ++ item :: below)).Rel Same (t.addItems (above ++ item' :: below)) := by
  induction above generalizing t with
  | nil => exact h.bind fun _ _ h => addItems_same h below
  | cons first rest ih =>
    have hrest := ih h
    exact ⟨hrest.value, List.rel_append (List.forall₂_refl _) hrest.findings⟩

end ItemTable
end ShaderFront
